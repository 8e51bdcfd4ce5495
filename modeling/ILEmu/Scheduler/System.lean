import ILEmu.Foundation.Run
import ILEmu.Scheduler.Dispatch

/-! The scheduler as a system: its constructor, its operations and its runs. -/
namespace ILEmu
open Foundation Xnu.Scheduler

structure SchedulerConfig where
  quantumTicks : Nat := standardQuantumTicks
  schedulerTickTicks : Nat := schedulerTickInterval
  processorCount : Nat := 1
  guestTicksPerSecond : Nat := defaultGuestTicksPerSecond
  minimumUserPriority : Int := minimumPriority
  loadProfile : SchedulerLoadProfile := {}
  deriving DecidableEq, Repr

namespace XnuScheduler

/-- The members that the constructor initialises. -/
def initialState (config : SchedulerConfig) : XnuScheduler where
  processorRunQueues := List.replicate config.processorCount {}
  processorContexts := List.replicate config.processorCount none
  schedulerLoad := { profile := config.loadProfile }
  quantumTicks := config.quantumTicks
  schedulerTickTicks := config.schedulerTickTicks
  guestTicksPerSecond := config.guestTicksPerSecond
  minimumUserPriority := config.minimumUserPriority
  minimumRealtimeComputationTicks :=
    max 1 (config.guestTicksPerSecond * 50 / microsecondsPerSecond)
  maximumRealtimeComputationTicks :=
    max 1 (config.guestTicksPerSecond * 50000 / microsecondsPerSecond)
  priorityUsageShift := priorityUsageShiftFor config.schedulerTickTicks

def construct (config : SchedulerConfig) : Checked XnuScheduler :=
  if config.quantumTicks = 0 ∨ config.schedulerTickTicks = 0 ∨
      config.guestTicksPerSecond = 0 ∨ config.processorCount = 0 then
    .error (.invalidArgument "XNU scheduler intervals must be non-zero")
  else if config.minimumUserPriority < minimumPriority ∨
      maximumUserPriority < config.minimumUserPriority then
    .error (.invalidArgument "XNU user priority floor is out of range")
  else .ok (initialState config)

def clearAge (s : XnuScheduler) (thread : XnuThreadId) : XnuScheduler :=
  match s.threads.lookup thread with
  | none => s
  | some record => s.store { record with enqueuedAt := 0 }

def setDispatchDiagnostics (s : XnuScheduler) (enabled : Bool) : XnuScheduler :=
  s.threads.keys.foldl clearAge { s with dispatchDiagnosticsEnabled := enabled }

end XnuScheduler

/-- The operations that can change a scheduler. An operation that visits an
unordered set of threads carries the order it visits them in. -/
inductive Operation where
  | setDispatchDiagnostics (enabled : Bool)
  | registerThread (thread : XnuThreadId) (basePriority : Int) (runnable : Bool)
  | removeThread (thread : XnuThreadId) (pendingTicks : Nat)
  | replaceProcessThreads (survivor : XnuThreadId) (basePriority : Int)
      (pendingTicks : XnuThreadId → Nat) (order : List XnuThreadId)
  | removeProcess (process : Nat) (order : List XnuThreadId)
  | makeRunnable (thread : XnuThreadId)
  | suspendProcess (process : Nat) (order : List XnuThreadId)
  | resumeProcess (process : Nat) (order : List XnuThreadId)
  | wakeThread (thread : XnuThreadId)
  | block (thread : XnuThreadId)
  | suspendThread (thread : XnuThreadId) (reason : XnuThreadSuspension)
  | resumeThread (thread : XnuThreadId) (reason : XnuThreadSuspension)
  | setBasePriority (thread : XnuThreadId) (priority : Int)
  | setPrecedence (thread : XnuThreadId) (taskPriority importance : Int)
  | setTaskPriority (thread : XnuThreadId) (priority : Int)
  | setLegacyPolicy (thread : XnuThreadId) (timeshare : Bool) (taskPriority priority : Int)
  | setRequestedQos (thread : XnuThreadId) (policy : XnuThreadQosPolicy)
  | setTaskQosPolicy (process : Nat) (policy : XnuTaskQosPolicy) (order : List XnuThreadId)
  | setQosOverridePriority (thread : XnuThreadId) (priority : Option Int)
  | depress (thread : XnuThreadId) (durationTicks : Nat)
  | bindThread (thread : XnuThreadId) (processor : Option Nat)
  | setTimeshare (thread : XnuThreadId) (timeshare : Bool)
  | setRealtime (thread : XnuThreadId) (periodTicks computationTicks constraintTicks : Nat)
      (preemptible : Bool)
  | setRealtimePolicy (thread : XnuThreadId) (policy : XnuRealtimePolicy)
  | setRealtimeClockTicks (elapsedTicks : Nat)
  | chooseNext (processor : Nat) (preferred : Option XnuThreadId)
  | completeSlice (thread : XnuThreadId) (consumedTicks : Nat) (completion : XnuSliceCompletion)
      (timeAccounting : XnuTimeAccounting)
  | advanceTime (elapsedTicks : Nat)
  | synchronizeTime (elapsedTicks : Nat)
  /-- The host's monotonic clock moves on; nothing else changes. -/
  | passHostTime (now : Nat)

inductive Response where
  | unit
  | flag (value : Bool)
  | count (value : Nat)
  | wake (result : XnuThreadWakeResult)
  | slice (result : Option XnuScheduledSlice)
  deriving DecidableEq, Repr

namespace XnuScheduler

def answering {α : Type} (wrap : α → Response) (result : Checked (XnuScheduler × α)) :
    Checked (XnuScheduler × Response) := do
  let (s, value) ← result
  return (s, wrap value)

def silently (result : Checked XnuScheduler) : Checked (XnuScheduler × Response) := do
  let s ← result
  return (s, .unit)

def perform (s : XnuScheduler) : Operation → Checked (XnuScheduler × Response)
  | .setDispatchDiagnostics enabled => silently (.ok (s.setDispatchDiagnostics enabled))
  | .registerThread thread base runnable =>
    answering .flag (s.registerThread thread base runnable)
  | .removeThread thread pending => answering .flag (s.removeThread thread pending)
  | .replaceProcessThreads survivor base pending order =>
    answering .flag (s.replaceProcessThreads survivor base pending order)
  | .removeProcess process order => answering .count (s.removeProcess process order)
  | .makeRunnable thread => answering .flag (s.makeRunnable thread)
  | .suspendProcess process order => answering .count (s.suspendProcess process order)
  | .resumeProcess process order => answering .count (s.resumeProcess process order)
  | .wakeThread thread => answering .wake (s.wakeThread thread)
  | .block thread => answering .flag (s.block thread)
  | .suspendThread thread reason => answering .flag (s.suspendThread thread reason)
  | .resumeThread thread reason => answering .flag (s.resumeThread thread reason)
  | .setBasePriority thread priority => answering .flag (s.setBasePriority thread priority)
  | .setPrecedence thread task importance =>
    answering .flag (s.setPrecedence thread task importance)
  | .setTaskPriority thread priority => answering .flag (s.setTaskPriority thread priority)
  | .setLegacyPolicy thread timeshare task priority =>
    answering .flag (s.setLegacyPolicy thread timeshare task priority)
  | .setRequestedQos thread policy => answering .flag (s.setRequestedQos thread policy)
  | .setTaskQosPolicy process policy order =>
    silently (s.setTaskQosPolicy process policy order)
  | .setQosOverridePriority thread priority =>
    answering .flag (s.setQosOverridePriority thread priority)
  | .depress thread duration => answering .flag (s.depress thread duration)
  | .bindThread thread processor => answering .flag (s.bindThread thread processor)
  | .setTimeshare thread timeshare => answering .flag (s.setTimeshare thread timeshare)
  | .setRealtime thread period computation constraint preemptible =>
    answering .flag (s.setRealtime thread period computation constraint preemptible)
  | .setRealtimePolicy thread policy => answering .flag (s.setRealtimePolicy thread policy)
  | .setRealtimeClockTicks elapsed => silently (.ok (s.setRealtimeClockTicks elapsed))
  | .chooseNext processor preferred => answering .slice (s.chooseNext processor preferred)
  | .completeSlice thread consumed completion accounting =>
    answering .flag (s.completeSlice thread consumed completion accounting)
  | .advanceTime elapsed => silently (s.advanceSchedulerTime elapsed)
  | .synchronizeTime elapsed => silently (s.synchronizeTime elapsed)
  | .passHostTime now => silently (.ok { s with steadyClock := max s.steadyClock now })

/-- The state after an operation. An operation that throws leaves the state as it was. -/
def after (s : XnuScheduler) (operation : Operation) : XnuScheduler :=
  match s.perform operation with
  | .ok (s, _) => s
  | .error _ => s

/-- What an operation answers, if it does not throw. -/
def answer (s : XnuScheduler) (operation : Operation) : Option Response :=
  match s.perform operation with
  | .ok (_, response) => some response
  | .error _ => none

/-- A state that some sequence of operations reaches from the constructor. -/
def Reachable (s : XnuScheduler) : Prop :=
  ∃ config initial operations, construct config = .ok initial ∧ s = run after initial operations

end XnuScheduler
end ILEmu
