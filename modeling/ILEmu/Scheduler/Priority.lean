import ILEmu.Scheduler.RunQueue

/-! State transitions with their counters, and the priority a record is scheduled at. -/
namespace ILEmu
open Foundation Xnu.Scheduler

def clampPriority (priority : Int) : Int := max minimumPriority (min priority maximumPriority)

def XnuThreadState.isRunnable : XnuThreadState → Bool
  | .runnable | .running => true
  | .hostAwait | .waiting => false

def XnuThreadState.isActive : XnuThreadState → Bool
  | .waiting => false
  | _ => true

namespace ThreadRecord

def beginRunnableGeneration (record : ThreadRecord) : ThreadRecord :=
  let generation := (record.runnableGeneration + 1) % 2 ^ 64
  { record with
    runnableGeneration := if generation = 0 then 1 else generation
    enqueuedAt := 0
    runnableEnqueueSequence := 0 }

/-- The base that timeshare accounting applies to, donations included. -/
def effectiveBase (record : ThreadRecord) : Int :=
  if record.info.failsafe then record.info.basePriority
  else record.taskQos.effectivePriority record.info.requestedQos record.info.basePriority
    record.info.qosOverridePriority

def usagePenalty (record : ThreadRecord) : Int :=
  min (match record.priorityUsageShift with
    | some shift => record.info.schedulingUsage >>> shift
    | none => 0) maximumPriority.toNat

/-- The priority that policy and usage impose on a record that is not depressed. -/
def computedPriority (record : ThreadRecord) : Int :=
  if record.info.realtime then realtimeQueuePriority
  else if record.info.timeshare then
    max minimumPriority (min (record.effectiveBase - record.usagePenalty) maximumKernelPriority)
  else record.effectiveBase

/-- Save the policy of a record that the failsafe takes over, and demote it. -/
def demoted (record : ThreadRecord) (releaseTick : Nat) : ThreadRecord :=
  let saved := { record with
    failsafeSavedBasePriority := record.info.basePriority
    failsafeSavedTimeshare := record.info.timeshare
    failsafeSavedRealtime := record.info.realtime }
  let demoted :=
    if record.info.realtime then
      { saved with info.realtime := false, info.basePriority := minimumPriority }
    else saved
  { demoted with
    info.timeshare := true
    info.failsafe := true
    info.failsafeReleaseTick := releaseTick }

/-- Put the policy back that the failsafe saved. -/
def released (record : ThreadRecord) : ThreadRecord :=
  { record with
    info.basePriority := record.failsafeSavedBasePriority
    info.timeshare := record.failsafeSavedTimeshare
    info.realtime := record.failsafeSavedRealtime
    info.failsafe := false
    info.failsafeReleaseTick := 0
    info.computationMetered := 0 }

end ThreadRecord

namespace XnuScheduler

def quantumFor (s : XnuScheduler) (record : ThreadRecord) : Nat :=
  if record.info.realtime then record.info.realtimeComputation else s.quantumTicks

def processorSetPriorityShift (s : XnuScheduler) (record : ThreadRecord) : Option Nat :=
  s.schedulerLoad.priorityShift record.loadBucket s.processorRunQueues.length s.priorityUsageShift

def enterProcessRunnable (counts : Table Nat Nat) (process : Nat) : Table Nat Nat :=
  counts.insert process ((counts.lookup process).getD 0 + 1)

def leaveProcessRunnable (counts : Table Nat Nat) (process : Nat) : Checked (Table Nat Nat) :=
  match counts.lookup process with
  | some (count + 1) => .ok (counts.insert process count)
  | _ => .error (.logicError .processRunnableCountInconsistent)

def shiftLoad (s : XnuScheduler) (record : ThreadRecord) (state : XnuThreadState) :
    Checked XnuSchedulerLoad :=
  if record.info.state.isActive = state.isActive then .ok s.schedulerLoad
  else if state.isActive then .ok (s.schedulerLoad.enter record.loadBucket)
  else s.schedulerLoad.leave .underflow record.loadBucket

def shiftRunnable (s : XnuScheduler) (record : ThreadRecord) (state : XnuThreadState) :
    Checked (Table Nat Nat) :=
  if record.info.state.isRunnable = state.isRunnable then .ok s.processRunnableCounts
  else if state.isRunnable then
    .ok (enterProcessRunnable s.processRunnableCounts record.id.process)
  else leaveProcessRunnable s.processRunnableCounts record.id.process

def transitionState (s : XnuScheduler) (record : ThreadRecord) (state : XnuThreadState) :
    Checked (XnuScheduler × ThreadRecord) := do
  let load ← s.shiftLoad record state
  let counts ← s.shiftRunnable record state
  return ({ s with schedulerLoad := load, processRunnableCounts := counts },
    { record with info.state := state })

def enterWaiting (s : XnuScheduler) : XnuScheduler :=
  { s with waitingCount := s.waitingCount + 1 }

def leaveWaiting (s : XnuScheduler) : Checked XnuScheduler := do
  let count ← decrement .underflow s.waitingCount
  return { s with waitingCount := count }

/-- Leave the waiting state's count, for a record that is in that state. -/
def leaveWaitingOf (s : XnuScheduler) (record : ThreadRecord) : Checked XnuScheduler :=
  if record.info.state = .waiting then s.leaveWaiting else .ok s

def releaseProcessorContext (s : XnuScheduler) (record : ThreadRecord) : XnuScheduler :=
  match record.info.lastProcessor with
  | none => s
  | some processor =>
    if s.processorContexts[processor]? = some (some record.id) then
      { s with processorContexts := s.processorContexts.set processor none }
    else s

def finishHostAwait (s : XnuScheduler) (record : ThreadRecord) :
    Checked (XnuScheduler × ThreadRecord) :=
  if record.hostAwait then do
    let count ← decrement .underflow s.hostAwaitCount
    return ({ s with hostAwaitCount := count }, { record with hostAwait := false })
  else .ok (s, record)

def indexDepression (s : XnuScheduler) (record : ThreadRecord) : XnuScheduler :=
  match record.depressionDeadline with
  | some deadline =>
    { s with depressionOrder := insert (toLex (deadline, record.id)) s.depressionOrder }
  | none => s

def unindexDepression (s : XnuScheduler) (record : ThreadRecord) : XnuScheduler :=
  match record.depressionDeadline with
  | some deadline =>
    { s with depressionOrder := s.depressionOrder.erase (toLex (deadline, record.id)) }
  | none => s

def indexFailsafe (s : XnuScheduler) (record : ThreadRecord) : XnuScheduler :=
  if record.info.failsafe then
    { s with failsafeOrder :=
        insert (toLex (record.info.failsafeReleaseTick, record.id)) s.failsafeOrder }
  else s

def unindexFailsafe (s : XnuScheduler) (record : ThreadRecord) : XnuScheduler :=
  if record.info.failsafe then
    { s with failsafeOrder :=
        s.failsafeOrder.erase (toLex (record.info.failsafeReleaseTick, record.id)) }
  else s

def moveLoad (s : XnuScheduler) (record : ThreadRecord) (bucket : XnuSchedulerLoad.Bucket) :
    Checked XnuSchedulerLoad :=
  if record.info.state.isActive then do
    let load ← s.schedulerLoad.leave .underflow record.loadBucket
    return load.enter bucket
  else .ok s.schedulerLoad

/-- Move a record to the load bucket its effective base belongs to. -/
def rebucket (s : XnuScheduler) (record : ThreadRecord) : Checked (XnuScheduler × ThreadRecord) :=
  let bucket := XnuSchedulerLoad.bucket (record.info.timeshare && !record.info.realtime)
    record.effectiveBase
  if record.loadBucket = bucket then .ok (s, record)
  else do
    let load ← s.moveLoad record bucket
    let s := { s with schedulerLoad := load }
    let record := { record with loadBucket := bucket }
    return (s, { record with priorityUsageShift := s.processorSetPriorityShift record })

/-- Queue a record again that was taken off its queue for a change. -/
def requeue (s : XnuScheduler) (record : ThreadRecord) (wasQueued : Bool) :
    Checked (XnuScheduler × ThreadRecord) :=
  if wasQueued then s.enqueue record .back else .ok (s, record)

/-- Change the scheduled priority, requeueing a queued record at the back. -/
def reschedule (s : XnuScheduler) (record : ThreadRecord) (priority : Int) :
    Checked (XnuScheduler × ThreadRecord) := do
  let wasQueued := record.queued
  let (s, record) ← s.removeFromQueue record
  s.requeue { record with info.scheduledPriority := priority } wasQueued

def recomputePriority (s : XnuScheduler) (record : ThreadRecord) :
    Checked (XnuScheduler × ThreadRecord) := do
  let (s, record) ← s.rebucket record
  if record.info.depressed then return (s, record)
  else if record.computedPriority = record.info.scheduledPriority then return (s, record)
  else s.reschedule record record.computedPriority

def restoreDepression (s : XnuScheduler) (record : ThreadRecord) :
    Checked (XnuScheduler × ThreadRecord) :=
  if record.info.depressed then
    (s.unindexDepression record).recomputePriority
      { record with info.depressed := false, depressionDeadline := none }
  else .ok (s, record)

def applyFailsafe (s : XnuScheduler) (record : ThreadRecord) :
    Checked (XnuScheduler × ThreadRecord) :=
  if record.info.failsafe then .ok (s, record)
  else
    let record := record.demoted (saturatingAdd s.schedulerTick failsafeReleaseSchedulerTicks)
    (s.indexFailsafe record).recomputePriority record

def releaseFailsafe (s : XnuScheduler) (record : ThreadRecord) :
    Checked (XnuScheduler × ThreadRecord) :=
  if record.info.failsafe then
    (s.unindexFailsafe record).recomputePriority
      { record.released with info.remainingQuantum := s.quantumFor record.released }
  else .ok (s, record)

end XnuScheduler
end ILEmu
