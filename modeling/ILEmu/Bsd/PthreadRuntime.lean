import ILEmu.Foundation.Lanes
import Mathlib.Data.List.Sort

/-! The work queue of a process: its queued items by priority, and the worker threads
that take them. -/
namespace ILEmu
open Foundation

/-- What a registration tells the work queue. -/
structure DarwinPthreadRegistration where
  workqueueThreadStart : Nat
  pthreadSize : Nat
  tsdOffset : Nat
  deriving DecidableEq, Repr

inductive DarwinWorkqueueDelivery where
  | workItem | dispatchThread | kevent
  deriving DecidableEq, Repr

structure DarwinWorkqueueItem where
  address : Nat
  priority : Nat
  affinity : Nat
  overcommit : Bool
  delivery : DarwinWorkqueueDelivery := .workItem
  threadClass : Nat := 0
  eventManager : Bool := false
  keventQosBucket : Nat := 0
  keventQosOverride : Option Int := none
  deriving DecidableEq, Repr

structure DarwinWorkqueueWorker where
  processor : Nat
  portName : Nat := 0
  allocationBase : Nat
  allocationSize : Nat
  pthreadAddress : Nat
  stackBottom : Nat
  priority : Nat
  idle : Bool := false
  overcommit : Bool
  deriving DecidableEq, Repr

def maximumPthreadSize : Nat := 64 * 1024
def maximumWorkqueuePriorityCount : Nat := 4
def workqueueOvercommit : Nat := 0x00010000
def maximumWorkqueueWorkers : Nat := 512
def maximumConstrainedWorkqueueWorkers : Nat := 64
def maximumWorkqueueItemsPerPriority : Nat := 64

/-- The workers are in the order of their processors. -/
structure DarwinPthreadRuntime where
  registration : Option DarwinPthreadRegistration := none
  workqueueOpen : Bool := false
  workqueuePriorityCount : Nat := 0
  workitems : Lanes DarwinWorkqueueItem := List.replicate maximumWorkqueuePriorityCount []
  workers : List DarwinWorkqueueWorker := []
  targetConcurrency : List Nat := List.replicate maximumWorkqueuePriorityCount 0
  deriving DecidableEq, Repr

namespace DarwinPthreadRuntime
variable (runtime : DarwinPthreadRuntime)

def registerProcess (registration : DarwinPthreadRegistration) : DarwinPthreadRuntime × Bool :=
  if runtime.registration.isSome || maximumPthreadSize < registration.pthreadSize then
    (runtime, false)
  else ({ runtime with registration := some registration }, true)

def openWorkqueue (processorCount priorityCount : Nat) : DarwinPthreadRuntime × Bool :=
  if runtime.registration.isNone || priorityCount = 0 ||
      maximumWorkqueuePriorityCount < priorityCount then (runtime, false)
  else
    let concurrency := if processorCount = 0 then 1 else processorCount
    ({ runtime with
        workqueueOpen := true
        workqueuePriorityCount := priorityCount
        targetConcurrency := List.replicate priorityCount concurrency ++
          List.replicate (maximumWorkqueuePriorityCount - priorityCount) 0 }, true)

/-- The number of items of a priority. -/
def queued (priority : Nat) : Nat :=
  (runtime.workitems.getD priority []).length

def enqueueWorkitem (item : DarwinWorkqueueItem) (front : Bool) : DarwinPthreadRuntime × Bool :=
  if !runtime.workqueueOpen || runtime.workqueuePriorityCount ≤ item.priority ||
      maximumWorkqueueItemsPerPriority ≤ runtime.queued item.priority then (runtime, false)
  else ({ runtime with workitems := runtime.workitems.push item.priority front item }, true)

def requestDispatchThreads (count priority : Nat) (overcommit : Bool) (threadClass : Nat) :
    DarwinPthreadRuntime × Bool :=
  if !runtime.workqueueOpen || runtime.workqueuePriorityCount ≤ priority || count = 0 ||
      maximumWorkqueueItemsPerPriority - runtime.queued priority < count then (runtime, false)
  else
    let item : DarwinWorkqueueItem :=
      { address := 0, priority, affinity := 0, overcommit, delivery := .dispatchThread, threadClass }
    ({ runtime with
        workitems := (fun lanes => lanes.push priority false item)^[count] runtime.workitems }, true)

def hasPendingWorkitems : Bool :=
  runtime.workitems.any (!·.isEmpty)

def canScheduleWorkitem (overcommit : Bool) (returningProcessor : Option Nat) : Bool :=
  if !runtime.workqueueOpen then false
  else if overcommit then true
  else
    let constrained := runtime.workers.countP fun worker =>
      !worker.idle && !worker.overcommit && returningProcessor != some worker.processor
    constrained < maximumConstrainedWorkqueueWorkers

def shouldCreateWorker (priority : Nat) (overcommit : Bool) (activeWorkerCount : Nat) : Bool :=
  if !runtime.workqueueOpen || runtime.workqueuePriorityCount ≤ priority ||
      maximumWorkqueueWorkers ≤ runtime.workers.length ||
      !runtime.canScheduleWorkitem overcommit none then false
  else overcommit || activeWorkerCount < runtime.targetConcurrency.getD priority 0

/-- Whether an item may be taken now. A number of active workers means that it would need
a new worker. -/
def ready (activeWorkerCount returningProcessor : Option Nat) (item : DarwinWorkqueueItem) : Bool :=
  (item.overcommit || runtime.canScheduleWorkitem false returningProcessor) &&
    activeWorkerCount.all fun active =>
      runtime.shouldCreateWorker item.priority item.overcommit active

def takeWorkitem (activeWorkerCount returningProcessor : Option Nat) :
    Option (DarwinWorkqueueItem × DarwinPthreadRuntime) :=
  if !runtime.workqueueOpen then none
  else
    (runtime.workitems.take (runtime.ready activeWorkerCount returningProcessor)).map
      fun (item, workitems) => (item, { runtime with workitems })

def removeWorkitem (address priority : Nat) : DarwinPthreadRuntime × Bool :=
  if !runtime.workqueueOpen || runtime.workqueuePriorityCount ≤ priority then (runtime, false)
  else
    match runtime.workitems.remove priority (·.address = address) with
    | none => (runtime, false)
    | some workitems => ({ runtime with workitems }, true)

def addWorker (worker : DarwinWorkqueueWorker) : DarwinPthreadRuntime × Bool :=
  if !runtime.workqueueOpen || maximumWorkqueueWorkers ≤ runtime.workers.length ||
      runtime.workers.any (·.processor = worker.processor) then (runtime, false)
  else
    ({ runtime with
        workers := runtime.workers.orderedInsert (fun a b => a.processor ≤ b.processor) worker },
      true)

def worker (processor : Nat) : Option DarwinWorkqueueWorker :=
  runtime.workers.find? (·.processor = processor)

def idleWorker : Option DarwinWorkqueueWorker :=
  runtime.workers.find? (·.idle)

def activeWorkerProcessors : List Nat :=
  (runtime.workers.filter (!·.idle)).map (·.processor)

def markWorkerRunning (processor priority : Nat) (overcommit : Bool) : DarwinPthreadRuntime :=
  { runtime with
    workers := runtime.workers.map fun worker =>
      if worker.processor = processor then { worker with idle := false, priority, overcommit }
      else worker }

def parkWorker (processor : Nat) : DarwinPthreadRuntime :=
  { runtime with
    workers := runtime.workers.map fun worker =>
      if worker.processor = processor then { worker with idle := true } else worker }

def removeWorker (processor : Nat) : DarwinPthreadRuntime :=
  { runtime with workers := runtime.workers.filter (·.processor != processor) }

def setTargetConcurrency (priority concurrency : Nat) : DarwinPthreadRuntime × Bool :=
  if !runtime.workqueueOpen || runtime.workqueuePriorityCount < priority then (runtime, false)
  else if priority = runtime.workqueuePriorityCount then
    ({ runtime with
        targetConcurrency := List.replicate runtime.workqueuePriorityCount concurrency ++
          runtime.targetConcurrency.drop runtime.workqueuePriorityCount }, true)
  else
    ({ runtime with targetConcurrency := runtime.targetConcurrency.set priority concurrency }, true)

/-- `reset_workqueue` -/
def resetWorkqueue : DarwinPthreadRuntime := { registration := runtime.registration }

def prepareExec : DarwinPthreadRuntime := resetWorkqueue { runtime with registration := none }

end DarwinPthreadRuntime
end ILEmu
