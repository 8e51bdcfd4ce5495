import ILEmu.Foundation.Containers
import ILEmu.Foundation.Bitmap
import ILEmu.Scheduler.Load
import Mathlib.Data.Finset.Max
import Mathlib.Data.Prod.Lex
import Mathlib.Order.Nat

/-! Scheduler state: thread records, run queues and the indexes beside them. -/
namespace ILEmu
open Foundation

namespace Xnu.Scheduler

def runQueueCount : Nat := 128
def minimumPriority : Int := 0
def maximumPriority : Int := 127
def realtimeBasePriority : Int := 96
def realtimeQueuePriority : Int := realtimeBasePriority + 1
def maximumKernelPriority : Int := 95
def maximumUserPriority : Int := 63
def defaultBasePriority : Int := 31
def defaultGuestTicksPerSecond : Nat := 400000000
def defaultPreemptionRate : Nat := 100
def schedulerTicksPerSecond : Nat := 8
def maximumUnsafeQuanta : Nat := 800
def schedulerTickShift : Nat := 3
def failsafeReleaseSchedulerTicks : Nat :=
  2 * maximumUnsafeQuanta / defaultPreemptionRate * 2 ^ schedulerTickShift
def standardQuantumTicks : Nat := defaultGuestTicksPerSecond / defaultPreemptionRate
def schedulerTickInterval : Nat := defaultGuestTicksPerSecond / schedulerTicksPerSecond
def microsecondsPerSecond : Nat := 1000000

end Xnu.Scheduler

/-- `std::numeric_limits<std::uint64_t>::max()` and its 32-bit sibling. -/
def uint64Max : Nat := 2 ^ 64 - 1
def uint32Max : Nat := 2 ^ 32 - 1

def saturatingAdd (left right : Nat) : Nat :=
  if uint64Max - left < right then uint64Max else left + right

structure XnuThreadId where
  process : Nat
  thread : Nat
  deriving DecidableEq, Repr

instance : LinearOrder XnuThreadId :=
  LinearOrder.lift' (fun id => toLex (id.process, id.thread)) (by
    rintro ⟨p, t⟩ ⟨q, u⟩ same
    simpa using same)

structure XnuThreadWakeResult where
  handled : Bool := false
  preemptionNeeded : Bool := false
  deriving DecidableEq, Repr

inductive XnuThreadState where
  | runnable | running | hostAwait | waiting
  deriving DecidableEq, Repr

inductive XnuSliceCompletion where
  | continue | hostCooperate | hostAwait | yield | block | terminate
  deriving DecidableEq, Repr

inductive XnuTimeAccounting where
  | advance | deferred
  deriving DecidableEq, Repr

inductive XnuThreadSuspension where
  | user | process | preparation
  deriving DecidableEq, Repr

inductive QueuePosition where
  | front | back
  deriving DecidableEq, Repr

structure XnuRealtimePolicy where
  period : Nat := 0
  computation : Nat := 0
  constraint : Nat := 0
  preemptible : Nat := 0
  deriving DecidableEq, Repr

structure XnuScheduledSlice where
  thread : XnuThreadId
  processor : Nat
  tickBudget : Nat
  runnableSince : Nat
  runnableGeneration : Nat
  frontContinuation : Bool
  deriving DecidableEq, Repr

structure XnuThreadSchedulingInfo where
  state : XnuThreadState := .waiting
  basePriority : Int := Xnu.Scheduler.defaultBasePriority
  scheduledPriority : Int := Xnu.Scheduler.defaultBasePriority
  requestedQos : XnuThreadQosPolicy := {}
  /-- Donations never overwrite the requested base priority. -/
  qosOverridePriority : Option Int := none
  remainingQuantum : Nat := Xnu.Scheduler.standardQuantumTicks
  schedulingUsage : Nat := 0
  cpuUsage : Nat := 0
  schedulerStamp : Nat := 0
  boundProcessor : Option Nat := none
  lastProcessor : Option Nat := none
  realtimePeriod : Nat := 0
  realtimeComputation : Nat := 0
  realtimeConstraint : Nat := 0
  realtimeDeadline : Nat := 0
  computationMetered : Nat := 0
  failsafeReleaseTick : Nat := 0
  remainingTimeslices : Nat := 0
  timesliceProcessor : Option Nat := none
  timeshare : Bool := true
  realtime : Bool := false
  realtimePreemptible : Bool := false
  failsafe : Bool := false
  depressed : Bool := false
  deriving DecidableEq

structure RealtimeQueueKey where
  deadline : Nat
  enqueueSequence : Nat
  thread : XnuThreadId
  deriving DecidableEq, Repr

instance : LinearOrder RealtimeQueueKey :=
  LinearOrder.lift' (fun key => toLex (key.deadline, toLex (key.enqueueSequence, key.thread))) (by
    rintro ⟨d, e, t⟩ ⟨d', e', t'⟩ same
    simpa using same)

structure ThreadRecord where
  info : XnuThreadSchedulingInfo := {}
  importance : Int := 0
  legacyBasePriority : Int := 0
  taskQos : XnuTaskQosPolicy := {}
  loadBucket : XnuSchedulerLoad.Bucket := .fixed
  realtimePolicy : XnuRealtimePolicy := {}
  queued : Bool := false
  /-- A hold can change visible state before the dispatched slice returns. -/
  executionPending : Bool := false
  queuedPriority : Int := 0
  enqueueSequence : Nat := 0
  runnableEnqueueSequence : Nat := 0
  enqueuedAt : Nat := 0
  runnableGeneration : Nat := 0
  frontContinuation : Bool := false
  realtimeQueueKey : Option RealtimeQueueKey := none
  priorityUsageShift : Option Nat := none
  queuedProcessor : Option Nat := none
  depressionDeadline : Option Nat := none
  suspendCount : Nat := 0
  suspensionCounts : XnuThreadSuspension → Nat := fun _ => 0
  userTicks : Nat := 0
  resumeRunnable : Bool := false
  wakePending : Bool := false
  hostAwait : Bool := false
  hostResumeAllowed : Bool := false
  failsafeSavedBasePriority : Int := 0
  failsafeSavedTimeshare : Bool := false
  failsafeSavedRealtime : Bool := false
  id : XnuThreadId
  usageIndex : Option Nat := none

structure RunQueue where
  queues : Nat → List XnuThreadId := fun _ => []
  counts : Nat → Nat := fun _ => 0
  /-- Realtime buckets are ordered by deadline beside the FIFO lists. -/
  realtimeOrder : Finset RealtimeQueueKey := ∅
  bitmap : Bitmap 32 := List.replicate (Xnu.Scheduler.runQueueCount / 32) 0
  highQueue : Int := -1
  count : Nat := 0

structure QueueCandidate where
  thread : XnuThreadId
  priority : Int
  realtimeDeadline : Nat
  enqueueSequence : Nat
  realtime : Bool
  frontContinuation : Bool
  isLocal : Bool
  deriving DecidableEq, Repr

structure TaskHistory where
  terminatedUserTicks : Nat := 0
  contextSwitches : Nat := 0
  deriving DecidableEq, Repr

/-- The `std::logic_error` texts of the scheduler. -/
inductive LogicError where
  | candidateInconsistent | emptyRunQueue | realtimeIndexInconsistent | bitmapInconsistent
  | processRunnableCountInconsistent
  deriving DecidableEq, Repr

def LogicError.what : LogicError → String
  | candidateInconsistent => "XNU run queue candidate is inconsistent"
  | emptyRunQueue => "cannot peek an empty XNU run queue"
  | realtimeIndexInconsistent => "XNU realtime queue index is inconsistent"
  | bitmapInconsistent => "XNU run queue bitmap is inconsistent"
  | processRunnableCountInconsistent => "XNU process runnable count is inconsistent"

/-- Ways an operation can go wrong. The last two are not exceptions of the
source: a counter that would wrap below zero and a pointer to an erased record. -/
inductive Fault where
  | invalidArgument (what : String)
  | outOfRange
  | logicError (error : LogicError)
  | underflow
  | dangling
  deriving DecidableEq, Repr

structure XnuScheduler where
  processorSetRunQueue : RunQueue := {}
  processorRunQueues : List RunQueue
  threads : Table XnuThreadId ThreadRecord := ∅
  processThreads : Table Nat (List XnuThreadId) := ∅
  taskHistory : Table Nat TaskHistory := ∅
  taskQosPolicies : Table Nat XnuTaskQosPolicy := ∅
  /-- The last guest context installed on each processor. -/
  processorContexts : List (Option XnuThreadId)
  processRunnableCounts : Table Nat Nat := ∅
  depressionOrder : Finset (Nat ×ₗ XnuThreadId) := ∅
  failsafeOrder : Finset (Nat ×ₗ XnuThreadId) := ∅
  usageRecords : List XnuThreadId := []
  runnableCount : Nat := 0
  waitingCount : Nat := 0
  hostAwaitCount : Nat := 0
  schedulerLoad : XnuSchedulerLoad := {}
  quantumTicks : Nat
  schedulerTickTicks : Nat
  guestTicksPerSecond : Nat
  minimumUserPriority : Int
  minimumRealtimeComputationTicks : Nat
  maximumRealtimeComputationTicks : Nat
  priorityUsageShift : Nat := 0
  elapsedSinceSchedulerTick : Nat := 0
  elapsedTicks : Nat := 0
  realtimeClockTicks : Nat := 0
  externalRealtimeClock : Bool := false
  schedulerTick : Nat := 0
  nextEnqueueSequence : Nat := 0
  dispatchDiagnosticsEnabled : Bool := false
  /-- What `std::chrono::steady_clock::now()` reads at present. -/
  steadyClock : Nat := 0

end ILEmu
