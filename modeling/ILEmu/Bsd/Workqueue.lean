import ILEmu.Bsd.PthreadRuntime

/-! The system calls and the services of a process's work queue. One queued item at most
asks for the delivery of kevents, and a flag tells whether there is one. -/
namespace ILEmu
open Foundation

inductive PthreadPriorityEncoding where
  | queueIndex | fineClassBitsV2 | fineClassBitsWithMaintenance
  deriving DecidableEq, Repr

/-- Contracts are resolved from a catalog, whose queues are as in `levels`. -/
structure PthreadContract where
  priorityEncoding : PthreadPriorityEncoding
  workqueuePriorityCount : Nat
  supportsBsdthreadCtl : Bool
  levels : workqueuePriorityCount = 4 ∨
    priorityEncoding = .queueIndex ∧ (workqueuePriorityCount = 0 ∨ workqueuePriorityCount = 3)
  deriving DecidableEq, Repr

namespace PthreadContract

def legacy : PthreadContract := ⟨.queueIndex, 0, false, by decide⟩
def registerV1 : PthreadContract := ⟨.queueIndex, 3, false, by decide⟩
def registerV1FourQueues : PthreadContract := ⟨.queueIndex, 4, false, by decide⟩
def registerV1FinePriority : PthreadContract := ⟨.fineClassBitsV2, 4, true, by decide⟩
def registerV1Kevent : PthreadContract := ⟨.fineClassBitsWithMaintenance, 4, true, by decide⟩

end PthreadContract

structure DispatchWorkqueuePriority where
  queue : Nat
  threadClass : Nat
  overcommit : Bool
  deriving DecidableEq, Repr

def withoutOvercommit (raw : BitVec 32) : Nat :=
  (raw &&& ~~~BitVec.ofNat 32 workqueueOvercommit).toNat

def hasOvercommit (raw : BitVec 32) : Bool :=
  raw &&& BitVec.ofNat 32 workqueueOvercommit ≠ 0

/-- The classes of the fine encodings, from their bits. -/
def dispatchWorkqueueClass (bits : Nat) (overcommit : Bool) : Option DispatchWorkqueuePriority :=
  match bits with
  | 0x10 => some ⟨0, 0x21, overcommit⟩
  | 0x08 => some ⟨0, 0x19, overcommit⟩
  | 0x04 => some ⟨1, 0x15, overcommit⟩
  | 0x02 => some ⟨2, 0x11, overcommit⟩
  | 0x01 => some ⟨3, 0x09, overcommit⟩
  | _ => none

def decodeDispatchWorkqueuePriority (encoding : PthreadPriorityEncoding) (encoded : BitVec 32) :
    Option DispatchWorkqueuePriority :=
  let overcommit := encoded &&& BitVec.ofNat 32 0x80000000 ≠ 0
  let bits := ((encoded &&& BitVec.ofNat 32 0x003fff00) >>> 8).toNat
  match encoding with
  | .queueIndex =>
    some ⟨withoutOvercommit encoded, withoutOvercommit encoded, hasOvercommit encoded⟩
  | .fineClassBitsV2 => dispatchWorkqueueClass bits overcommit
  | .fineClassBitsWithMaintenance =>
    if bits = 1 then some ⟨3, 0x05, overcommit⟩
    else if bits % 2 ≠ 0 then none
    else dispatchWorkqueueClass (bits / 2) overcommit

def eventManagerQosFlag : Nat := 0x02000000

structure WorkqueueClass where
  threadClass : Nat := 0x15
  priority : Nat := 1
  deriving DecidableEq, Repr

def keventClass (bucket : Nat) : WorkqueueClass :=
  match bucket with
  | 0x1000 => ⟨0x21, 0⟩
  | 0x0800 => ⟨0x19, 0⟩
  | 0x0400 => ⟨0x15, 1⟩
  | 0x0200 => ⟨0x11, 2⟩
  | 0x0100 => ⟨0x09, 3⟩
  | _ => {}

def classForKeventQos (encoding : PthreadPriorityEncoding) (bucket : Nat) : WorkqueueClass :=
  match encoding with
  | .queueIndex => {}
  | .fineClassBitsV2 => keventClass bucket
  | .fineClassBitsWithMaintenance =>
    if bucket = 0x0100 then ⟨0x05, 3⟩ else keventClass (bucket / 2)

/-- A registration of the work queue's kqueue, as a request finds it: its bucket and the
override that a ready Mach message gives it, and whether it would be reported. -/
structure Knote where
  bucket : Nat
  overridePriority : Option Int := none
  machReady : Bool := false
  enabled : Bool := true
  ready : Bool := true
  deriving DecidableEq, Repr

/-- What the scheduler, the memory and the thread handlers answer while an item is serviced. -/
structure ServiceAnswers where
  /-- The processors whose threads the scheduler reports as waiting. -/
  waiting : List Nat := []
  upcall : Bool := true
  policy : Bool := true
  threadState : Bool := true
  threadPointer : Bool := true
  wake : Bool := true
  /-- The mapped stack of a new worker. -/
  region : Option Nat := none
  /-- The processor and the port of a new thread. -/
  created : Option (Nat × Nat) := none
  deriving DecidableEq, Repr

structure RequestAnswers where
  /-- Whether the work queue has a kqueue. -/
  kqueue : Bool := true
  /-- Whether every override that the request gives a worker is accepted. -/
  boosted : Bool := true
  knotes : List Knote := []
  service : ServiceAnswers := {}
  deriving DecidableEq, Repr

/-- What a returning worker is told: whether its overrides are reset and its changes of the
kqueue are made without an error to report. -/
structure ReturnAnswers where
  overrideReset : Bool := true
  changed : Bool := true
  policy : Bool := true
  upcall : Bool := true
  request : RequestAnswers := {}
  deriving DecidableEq, Repr

/-- The work queue of a process. `keventProcessors` holds the pairs of a bucket and a worker
that delivers its kevents. -/
structure Workqueue where
  runtime : DarwinPthreadRuntime := {}
  keventQueued : Bool := false
  keventProcessors : Finset (Nat × Nat) := ∅
  deriving DecidableEq

namespace Workqueue

def applyWorkqueueQosPolicy (contract : PthreadContract) (item : DarwinWorkqueueItem)
    (accepted : Bool) : Bool :=
  if !contract.supportsBsdthreadCtl || item.eventManager || item.delivery = .workItem then true
  else accepted

/-- The worker delivers the kevents of the item, if it is for that. -/
def assign (workqueue : Workqueue) (processor : Nat) (item : DarwinWorkqueueItem) : Workqueue :=
  if item.delivery = .kevent then
    { workqueue with
      keventProcessors := insert (item.keventQosBucket, processor) workqueue.keventProcessors }
  else workqueue

/-- An item that was taken off the queue. -/
def taken (workqueue : Workqueue) (item : DarwinWorkqueueItem) : Workqueue :=
  if item.delivery = .kevent then { workqueue with keventQueued := false } else workqueue

/-- `requeue` -/
def requeue (workqueue : Workqueue) (item : DarwinWorkqueueItem) : Workqueue :=
  let workqueue :=
    { workqueue with runtime := (workqueue.runtime.enqueueWorkitem item true).1 }
  if item.delivery = .kevent then { workqueue with keventQueued := true } else workqueue

/-- The item goes to an idle worker. -/
def reuse (workqueue : Workqueue) (contract : PthreadContract) (answers : ServiceAnswers)
    (worker : DarwinWorkqueueWorker) (item : DarwinWorkqueueItem) : Workqueue × Bool :=
  if item.delivery = .kevent && !answers.upcall then (workqueue.requeue item, false)
  else if !applyWorkqueueQosPolicy contract item answers.policy || !answers.threadState ||
      !answers.wake then
    let workqueue := workqueue.requeue item
    ({ workqueue with runtime := workqueue.runtime.parkWorker worker.processor }, false)
  else
    let runtime := workqueue.runtime.markWorkerRunning worker.processor item.priority item.overcommit
    (assign { workqueue with runtime } worker.processor item, true)

def guardSize : Nat := 4096
def workqueueStackSize : Nat := 512 * 1024

/-- The item goes to a new worker. -/
def create (workqueue : Workqueue) (contract : PthreadContract) (answers : ServiceAnswers)
    (registration : DarwinPthreadRegistration) (item : DarwinWorkqueueItem) : Workqueue × Bool :=
  let totalSize := guardSize + workqueueStackSize + registration.pthreadSize
  if 2 ^ 32 ≤ totalSize then (workqueue.requeue item, false)
  else
    match answers.region, answers.created with
    | some base, some (processor, portName) =>
      let worker : DarwinWorkqueueWorker :=
        { processor, portName
          allocationBase := base
          allocationSize := totalSize
          pthreadAddress := base + guardSize + workqueueStackSize
          stackBottom := base + guardSize
          priority := item.priority
          overcommit := item.overcommit }
      if item.delivery = .kevent && !answers.upcall then (workqueue.requeue item, false)
      else if !answers.threadState || !answers.threadPointer ||
          !applyWorkqueueQosPolicy contract item answers.policy then
        (workqueue.requeue item, false)
      else
        match workqueue.runtime.addWorker worker with
        | (_, false) => (workqueue.requeue item, false)
        | (runtime, true) => (assign { workqueue with runtime } processor item, true)
    | _, _ => (workqueue.requeue item, false)

def serviceBsdWorkqueue (workqueue : Workqueue) (contract : PthreadContract)
    (answers : ServiceAnswers) : Workqueue × Bool :=
  match workqueue.runtime.registration with
  | none => (workqueue, false)
  | some registration =>
    if !workqueue.runtime.workqueueOpen then (workqueue, false)
    else if !workqueue.runtime.hasPendingWorkitems then (workqueue, true)
    else
      let active := workqueue.runtime.activeWorkerProcessors.countP (· ∉ answers.waiting)
      let idle := workqueue.runtime.idleWorker
      match workqueue.runtime.takeWorkitem (if idle.isSome then none else some active) none with
      | none => (workqueue, true)
      | some (item, runtime) =>
        let workqueue := taken { workqueue with runtime } item
        match idle with
        | some worker => workqueue.reuse contract answers worker item
        | none => workqueue.create contract answers registration item

def workqueueKeventBucketActive (workqueue : Workqueue) (waiting : List Nat) (bucket : Nat) :
    Bool :=
  let assigned := workqueue.keventProcessors.filter (·.1 = bucket)
  if assigned = ∅ then false
  else if bucket = eventManagerQosFlag then true
  else decide (∃ pair ∈ assigned, pair.2 ∉ waiting)

/-- The buckets that a request asks about, in the order of their registrations. -/
def probe (workqueue : Workqueue) (answers : RequestAnswers) : List Nat :=
  (answers.knotes.map (·.bucket)).eraseDups.filter fun bucket =>
    !workqueue.workqueueKeventBucketActive answers.service.waiting bucket

/-- The bucket that `collect_ready_kevents` selects. -/
def selectedBucket (workqueue : Workqueue) (answers : RequestAnswers) : Option Nat :=
  (workqueue.probe answers).find? fun bucket =>
    answers.knotes.any fun knote => knote.ready && knote.bucket = bucket

def overridesOf (knotes : List Knote) (bucket : Nat) : Option Int :=
  knotes.foldl (fun priority knote =>
    if knote.enabled && knote.machReady && knote.bucket = bucket then
      max priority knote.overridePriority
    else priority) none

/-- The item that asks for the delivery of a bucket's kevents. -/
def keventRequest (contract : PthreadContract) (answers : RequestAnswers) (bucket : Nat) :
    DarwinWorkqueueItem :=
  let workqueueClass := classForKeventQos contract.priorityEncoding bucket
  { address := 0
    priority := workqueueClass.priority
    affinity := 0
    overcommit := false
    delivery := .kevent
    threadClass := workqueueClass.threadClass
    eventManager := bucket = eventManagerQosFlag
    keventQosBucket := bucket
    keventQosOverride := overridesOf answers.knotes bucket }

def requestWorkqueueKevents (workqueue : Workqueue) (contract : PthreadContract)
    (answers : RequestAnswers) : Workqueue × Bool :=
  if !workqueue.runtime.workqueueOpen || !answers.kqueue then (workqueue, true)
  else if !answers.boosted then (workqueue, false)
  else if workqueue.keventQueued then (workqueue, true)
  else
    match workqueue.selectedBucket answers with
    | none => (workqueue, true)
    | some bucket =>
      match workqueue.runtime.enqueueWorkitem (keventRequest contract answers bucket) false with
      | (_, false) => (workqueue, false)
      | (runtime, true) =>
        serviceBsdWorkqueue { workqueue with runtime, keventQueued := true } contract answers.service

/-- The loop of `request_dispatch_threads`, which ends at the first refused service. -/
def serviceTimes (contract : PthreadContract) :
    Workqueue → List ServiceAnswers → Nat → Workqueue
  | workqueue, _, 0 => workqueue
  | workqueue, answers, count + 1 =>
    match workqueue.serviceBsdWorkqueue contract (answers.headD {}) with
    | (workqueue, false) => workqueue
    | (workqueue, true) => serviceTimes contract workqueue answers.tail count

/-- The next item of a returning worker, which parks when there is none. -/
def continueWorker (workqueue : Workqueue) (contract : PthreadContract) (answers : ReturnAnswers)
    (processor : Nat) : Workqueue :=
  match workqueue.runtime.takeWorkitem none (some processor) with
  | none => { workqueue with runtime := workqueue.runtime.parkWorker processor }
  | some (item, runtime) =>
    let held := { workqueue with runtime }
    if !applyWorkqueueQosPolicy contract item answers.policy then
      { held with runtime := (runtime.enqueueWorkitem item true).1 }
    else if item.delivery = .kevent && !answers.upcall then
      { held with runtime := (runtime.enqueueWorkitem item true).1, keventQueued := true }
    else
      let running := (taken held item).runtime.markWorkerRunning processor item.priority
        item.overcommit
      assign { taken held item with runtime := running } processor item

def threadReturn (workqueue : Workqueue) (contract : PthreadContract) (answers : ReturnAnswers)
    (processor : Nat) : Workqueue :=
  if (workqueue.runtime.worker processor).isNone || !answers.overrideReset || !answers.changed then
    workqueue
  else
    let returned := workqueue.keventProcessors.filter (·.2 ≠ processor)
    let freed := { workqueue with keventProcessors := returned }
    let requested :=
      if returned = workqueue.keventProcessors then freed
      else (freed.requestWorkqueueKevents contract answers.request).1
    requested.continueWorker contract answers processor

end Workqueue

/-- What happens to the work queue of a process. -/
inductive WorkqueueOperation where
  | register (registration : DarwinPthreadRegistration)
  | workqOpen (processorCount : Nat)
  | queueAdd (address affinity : Nat) (rawPriority : BitVec 32) (answers : ServiceAnswers)
  | queueRemove (address : Nat) (rawPriority : BitVec 32)
  | requestDispatchThreads (count : Nat) (rawPriority : BitVec 32) (answers : List ServiceAnswers)
  | setConcurrency (concurrency : Nat) (rawPriority : BitVec 32) (answers : ServiceAnswers)
  | threadReturn (processor : Nat) (answers : ReturnAnswers)
  | requestKevents (answers : RequestAnswers)
  | service (answers : ServiceAnswers)
  | threadTerminated (processor : Nat)
  | exec
  deriving DecidableEq, Repr

namespace Workqueue

def after (contract : PthreadContract) (workqueue : Workqueue) : WorkqueueOperation → Workqueue
  | .register registration =>
    { workqueue with runtime := (workqueue.runtime.registerProcess registration).1 }
  | .workqOpen processorCount =>
    { workqueue with
      runtime := (workqueue.runtime.openWorkqueue processorCount contract.workqueuePriorityCount).1 }
  | .queueAdd address affinity rawPriority answers =>
    let item : DarwinWorkqueueItem :=
      { address, priority := withoutOvercommit rawPriority, affinity
        overcommit := hasOvercommit rawPriority }
    match workqueue.runtime.enqueueWorkitem item false with
    | (_, false) => workqueue
    | (runtime, true) => (serviceBsdWorkqueue { workqueue with runtime } contract answers).1
  | .queueRemove address rawPriority =>
    { workqueue with
      runtime := (workqueue.runtime.removeWorkitem address (withoutOvercommit rawPriority)).1 }
  | .requestDispatchThreads count rawPriority answers =>
    match decodeDispatchWorkqueuePriority contract.priorityEncoding rawPriority with
    | none => workqueue
    | some decoded =>
      if 2 ^ 31 ≤ count then workqueue
      else
        match workqueue.runtime.requestDispatchThreads count decoded.queue decoded.overcommit
            decoded.threadClass with
        | (_, false) => workqueue
        | (runtime, true) => serviceTimes contract { workqueue with runtime } answers count
  | .setConcurrency concurrency rawPriority answers =>
    match workqueue.runtime.setTargetConcurrency (withoutOvercommit rawPriority) concurrency with
    | (_, false) => workqueue
    | (runtime, true) => (serviceBsdWorkqueue { workqueue with runtime } contract answers).1
  | .threadReturn processor answers => workqueue.threadReturn contract answers processor
  | .requestKevents answers => (workqueue.requestWorkqueueKevents contract answers).1
  | .service answers => (workqueue.serviceBsdWorkqueue contract answers).1
  | .threadTerminated processor =>
    { workqueue with
      runtime := workqueue.runtime.removeWorker processor
      keventProcessors := workqueue.keventProcessors.filter (·.2 ≠ processor) }
  | .exec => { runtime := workqueue.runtime.prepareExec }

end Workqueue
end ILEmu
