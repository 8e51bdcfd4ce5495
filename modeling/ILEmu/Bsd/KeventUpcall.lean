import ILEmu.Bsd.KeventConsumption

/-! The delivery of kevents to a worker of the work queue, and what is left of the knotes when
the delivery fails after their events were collected. -/
namespace ILEmu
open KeventRegistration

/-- The work queue of a process with its kqueue. -/
structure WorkqueueKevents where
  workqueue : Workqueue := {}
  kqueue : Option (List (Option KeventRegistration)) := none
  ports : KeventPorts := {}

/-- What a call is answered while it delivers kevents. Whether the upcall of `service` could
be prepared is not asked: the events are collected. -/
structure UpcallAnswers where
  service : ServiceAnswers := {}
  collect : CollectAnswers := {}

/-- How `thread_return` goes on once it has asked for an item. -/
inductive ReturnOutcome where
  | parked | continued | noSuchProcess | noMemory
  deriving DecidableEq, Repr

namespace WorkqueueKevents

def upcallEventCapacity : Nat := 16
def upcallDataCapacity : Nat := 32 * 1024
def upcallStackGap : Nat := 16
/-- The size of an event in the upcall's list. -/
def wireSize : Nat := 72
def listSize : Nat := upcallEventCapacity * wireSize

/-- Whether the stack of a worker has room for the upcall, in the machine's arithmetic. -/
def hasRoom (worker : DarwinWorkqueueWorker) : Bool :=
  (worker.stackBottom + listSize + upcallDataCapacity + upcallStackGap) % 2 ^ 32 ≤
    worker.pthreadAddress

section
variable (contract : PthreadContract) (sources : KeventSources)

/-- The events that the upcall of a worker collects. -/
def collected (state : WorkqueueKevents) (answers : CollectAnswers) (worker : DarwinWorkqueueWorker)
    (bucket : Nat) (knotes : List (Option KeventRegistration)) : KeventCollection :=
  collectReadyKevents contract sources answers worker.processor bucket upcallEventCapacity
    { ports := state.ports
      address := worker.pthreadAddress - listSize - upcallDataCapacity
      remaining := upcallDataCapacity }
    knotes

def prepareWorkqueueKeventUpcall (state : WorkqueueKevents) (answers : CollectAnswers)
    (worker : DarwinWorkqueueWorker) (item : DarwinWorkqueueItem) : WorkqueueKevents × Bool :=
  if !hasRoom worker then (state, false)
  else
    match state.kqueue with
    | none => (state, false)
    | some knotes =>
      let collected := state.collected contract sources answers worker item.keventQosBucket knotes
      ({ state with kqueue := some collected.knotes, ports := collected.ports }, !collected.faulted)

/-- The upcall of an item that delivers kevents. -/
def prepare (state : WorkqueueKevents) (answers : CollectAnswers) (worker : DarwinWorkqueueWorker)
    (item : DarwinWorkqueueItem) : WorkqueueKevents × Bool :=
  if item.delivery = .kevent then
    state.prepareWorkqueueKeventUpcall contract sources answers worker item
  else (state, true)

def requeue (state : WorkqueueKevents) (item : DarwinWorkqueueItem) : WorkqueueKevents :=
  { state with workqueue := state.workqueue.requeue item }

/-- The item goes to an idle worker. -/
def reuse (state : WorkqueueKevents) (answers : UpcallAnswers) (worker : DarwinWorkqueueWorker)
    (item : DarwinWorkqueueItem) : WorkqueueKevents × Bool :=
  match state.prepare contract sources answers.collect worker item with
  | (state, false) => (state.requeue item, false)
  | (state, true) =>
    if !Workqueue.applyWorkqueueQosPolicy contract item answers.service.policy ||
        !answers.service.threadState || !answers.service.wake then
      let workqueue := state.workqueue.requeue item
      let runtime := workqueue.runtime.parkWorker worker.processor
      ({ state with workqueue := { workqueue with runtime } }, false)
    else
      let runtime := state.workqueue.runtime.markWorkerRunning worker.processor item.priority
        item.overcommit
      let workqueue := { state.workqueue with runtime }
      ({ state with workqueue := workqueue.assign worker.processor item }, true)

/-- The worker of a new thread. -/
def newWorker (registration : DarwinPthreadRegistration) (item : DarwinWorkqueueItem)
    (base processor portName : Nat) : DarwinWorkqueueWorker :=
  { processor, portName
    allocationBase := base
    allocationSize := Workqueue.guardSize + Workqueue.workqueueStackSize + registration.pthreadSize
    pthreadAddress := base + Workqueue.guardSize + Workqueue.workqueueStackSize
    stackBottom := base + Workqueue.guardSize
    priority := item.priority
    overcommit := item.overcommit }

/-- The item goes to a new worker. -/
def create (state : WorkqueueKevents) (answers : UpcallAnswers)
    (registration : DarwinPthreadRegistration) (item : DarwinWorkqueueItem) :
    WorkqueueKevents × Bool :=
  if 2 ^ 32 ≤ Workqueue.guardSize + Workqueue.workqueueStackSize + registration.pthreadSize then
    (state.requeue item, false)
  else
    match answers.service.region, answers.service.created with
    | some base, some (processor, portName) =>
      let worker := newWorker registration item base processor portName
      match state.prepare contract sources answers.collect worker item with
      | (state, false) => (state.requeue item, false)
      | (state, true) =>
        if !answers.service.threadState || !answers.service.threadPointer ||
            !Workqueue.applyWorkqueueQosPolicy contract item answers.service.policy then
          (state.requeue item, false)
        else
          match state.workqueue.runtime.addWorker worker with
          | (_, false) => (state.requeue item, false)
          | (runtime, true) =>
            let workqueue := { state.workqueue with runtime }
            ({ state with workqueue := workqueue.assign processor item }, true)
    | _, _ => (state.requeue item, false)

/-- The item that a service takes, and the idle worker that it is for. -/
def takenItem (state : WorkqueueKevents) (answers : ServiceAnswers) :
    Option (DarwinWorkqueueItem × DarwinPthreadRuntime) :=
  let runtime := state.workqueue.runtime
  let active := runtime.activeWorkerProcessors.countP (· ∉ answers.waiting)
  runtime.takeWorkitem (if runtime.idleWorker.isSome then none else some active) none

def serviceBsdWorkqueue (state : WorkqueueKevents) (answers : UpcallAnswers) :
    WorkqueueKevents × Bool :=
  match state.workqueue.runtime.registration with
  | none => (state, false)
  | some registration =>
    if !state.workqueue.runtime.workqueueOpen then (state, false)
    else if !state.workqueue.runtime.hasPendingWorkitems then (state, true)
    else
      match state.takenItem answers.service with
      | none => (state, true)
      | some (item, runtime) =>
        let taken := { state with workqueue := Workqueue.taken { state.workqueue with runtime } item }
        match state.workqueue.runtime.idleWorker with
        | some worker => taken.reuse contract sources answers worker item
        | none => taken.create contract sources answers registration item

/-- `thread_return` from where it takes the next item of its worker. -/
def continueWorker (state : WorkqueueKevents) (answers : UpcallAnswers)
    (worker : DarwinWorkqueueWorker) : WorkqueueKevents × ReturnOutcome :=
  match state.workqueue.runtime.takeWorkitem none (some worker.processor) with
  | none =>
    let runtime := state.workqueue.runtime.parkWorker worker.processor
    ({ state with workqueue := { state.workqueue with runtime } }, .parked)
  | some (item, runtime) =>
    let held := { state.workqueue with runtime }
    let back := { held with runtime := (runtime.enqueueWorkitem item true).1 }
    if !Workqueue.applyWorkqueueQosPolicy contract item answers.service.policy then
      ({ state with workqueue := back }, .noSuchProcess)
    else
      match state.prepare contract sources answers.collect worker item with
      | (state, false) =>
        ({ state with workqueue := { back with keventQueued := true } }, .noMemory)
      | (state, true) =>
        let runtime := (held.taken item).runtime.markWorkerRunning worker.processor item.priority
          item.overcommit
        let workqueue := { held.taken item with runtime }
        ({ state with workqueue := workqueue.assign worker.processor item }, .continued)

end
end WorkqueueKevents
end ILEmu
