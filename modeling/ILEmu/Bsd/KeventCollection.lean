import ILEmu.Bsd.KeventSources

/-! The collection of a bucket's events into a worker's upcall. Each knote is visited once, in
the order of the kqueue. A knote that was deleted leaves its place empty. -/
namespace ILEmu

structure KeventValue where
  ident : Nat
  filter : KeventFilter
  flags : BitVec 16
  filterFlags : BitVec 32
  data : Int
  userData : Nat
  extension : Nat × Nat
  qos : BitVec 32
  deriving DecidableEq, Repr

/-- What a knote's receive gives. A message that is too large, or whose destination has no
room, may stay in the queue of its port. A receive that is refused asks no port. -/
structure KeventReceipt where
  port : Option Nat
  dequeued : Bool := true
  status : BitVec 32 := 0
  copiedSize : Nat := 0
  messageSize : Nat := 0
  deriving DecidableEq, Repr

/-- What the memory and the ports answer while the events are collected. -/
structure CollectAnswers where
  /-- Whether the event can be copied out to a place of the list. -/
  written : Nat → Bool := fun _ => true
  receipt : KeventRegistration → Option KeventReceipt := fun _ => none

structure KeventVisit where
  left : Option KeventRegistration
  event : Option KeventValue := none
  deriving DecidableEq, Repr

/-- The outcome of a collection: a visit for every place of the kqueue. -/
structure KeventCollection where
  visits : List KeventVisit
  ports : KeventPorts
  faulted : Bool := false

/-- The part of a collection that the next visit depends on. -/
structure CollectState where
  ports : KeventPorts
  written : Nat := 0
  /-- The data buffer: its address and its size. -/
  address : Nat
  remaining : Nat

def receiveTooLarge : BitVec 32 := 0x10004004
def headerRemotePortOffset : Nat := 8

namespace KeventRegistration

def deletion (registration : KeventRegistration) : KeventValue :=
  { ident := registration.ident
    filter := registration.filter
    flags := eventDelete ||| eventDispatch ||| eventUdataSpecific ||| eventOneShot
    filterFlags := 0
    data := 0
    userData := registration.userData
    extension := (0, 0)
    qos := registration.qos }

/-- The flags of a knote's event. -/
def resultFlags (registration : KeventRegistration) (seen : KeventSourceState) : BitVec 16 :=
  seen.resultFlags |||
    (registration.flags &&& (eventAdd ||| eventEnable ||| eventClear ||| eventDispatch |||
      eventOneShot ||| eventUdataSpecific))

def value (registration : KeventRegistration) (sources : KeventSources) (seen : KeventSourceState) :
    KeventValue :=
  { ident := registration.ident
    filter := registration.filter
    flags := registration.resultFlags seen
    filterFlags := seen.filterFlags
    data :=
      match registration.timer with
      | some timer => timer.expirations sources.now
      | none => if registration.filter = .user then registration.data else seen.available
    userData := registration.userData
    extension :=
      if registration.timer.isSome then (0, registration.extension.2) else registration.extension
    qos := registration.qos }

/-- The knote keeps the worker that serves it. -/
def serviced (registration : KeventRegistration) (contract : PthreadContract)
    (bucket processor : Nat) : KeventRegistration :=
  if contract.priorityEncoding ≠ .queueIndex ∧ bucket ≠ 0 ∧ bucket ≠ eventManagerQosFlag ∧
      registration.receives then
    { registration with workqueueServicer := some processor }
  else registration

/-- What is left of a knote whose event was copied out. -/
def delivered (registration : KeventRegistration) (sources : KeventSources)
    (seen : KeventSourceState) : Option KeventRegistration :=
  let consumed :=
    { registration with
      timer := registration.timer.map (KeventTimer.consume · sources.now) }
  let cleared :=
    if registration.has eventClear then
      { consumed with
        clearDelivered := true
        clearAvailable := seen.available
        userTriggered := registration.userTriggered && registration.filter ≠ KeventFilter.user
        vnodeWatch := registration.vnodeWatch.map (· &&& ~~~seen.filterFlags) }
    else consumed
  let oneShot := registration.resultFlags seen &&& eventOneShot ≠ 0
  let dispatch2 := registration.has eventDispatch && registration.has eventUdataSpecific
  if oneShot && !dispatch2 then none
  else
    let process := registration.filter = .process
    some
      { cleared with
        enabled := registration.enabled && !registration.has eventDispatch
        deferredDelete := registration.deferredDelete || oneShot
        processExecGeneration :=
          if process ∧ seen.filterFlags &&& processNoteExec ≠ 0 then seen.processExecGeneration
          else registration.processExecGeneration
        processExitGeneration :=
          if process ∧ seen.filterFlags &&& processNoteExit ≠ 0 then seen.processExitGeneration
          else registration.processExitGeneration }

end KeventRegistration

/-- The ports after a knote's receive. -/
def KeventPorts.received (ports : KeventPorts) (name : Nat) (receipt : KeventReceipt) :
    KeventPorts :=
  match receipt.port with
  | none => ports
  | some port =>
    let rotated := ports.rotate name port
    if receipt.dequeued then rotated.dequeue port else rotated

/-- The outcome of one visit. -/
inductive VisitOutcome where
  /-- No event is written. -/
  | passed (left : KeventRegistration)
  /-- The event could not be copied out. -/
  | faulted (ports : KeventPorts)
  | reported (left : Option KeventRegistration) (event : KeventValue) (next : CollectState)

section
variable (contract : PthreadContract) (sources : KeventSources) (answers : CollectAnswers)
  (processor bucket eventCount : Nat)

/-- The receive of a knote that takes the message itself. -/
def collectReceipt (state : CollectState) (registration : KeventRegistration) (value : KeventValue) :
    Option (CollectState × KeventValue) :=
  let processBuffer := registration.extension.2 = 0
  if processBuffer ∧ state.remaining < headerRemotePortOffset then none
  else
    match answers.receipt registration with
    | none => none
    | some receipt =>
      let value :=
        { value with
          filterFlags := receipt.status
          data := if receipt.status = 0 then 0 else value.data
          extension :=
            (value.extension.1,
              if receipt.status = 0 then receipt.copiedSize else receipt.messageSize) }
      let state := { state with ports := state.ports.received registration.ident receipt }
      if processBuffer ∧ (receipt.status = 0 ∨ receipt.status = receiveTooLarge) then
        let bytes := if receipt.status = 0 then receipt.copiedSize else headerRemotePortOffset
        let consumed := min ((bytes + 15) / 16 * 16) state.remaining
        some
          ({ state with
              address := state.address + consumed
              remaining := state.remaining - consumed },
            { value with extension := (state.address, value.extension.2) })
      else some (state, value)

def visitKevent (state : CollectState) (registration : KeventRegistration) : VisitOutcome :=
  if registration.currentBucket contract state.ports ≠ bucket then .passed registration
  else if registration.deferredDelete && registration.enabled then
    if state.written = eventCount then .passed registration
    else if !answers.written state.written then .faulted state.ports
    else .reported none registration.deletion { state with written := state.written + 1 }
  else if !registration.enabled then .passed { registration with clearDelivered := false }
  else
    let seen := observeKevent sources state.ports registration
    if !seen.ready then .passed { registration with clearDelivered := false }
    else if registration.suppressed seen.available || state.written = eventCount then
      .passed registration
    else
      let value := registration.value sources seen
      let received :=
        if registration.receives then collectReceipt answers state registration value
        else some (state, value)
      match received with
      | none => .passed registration
      | some (next, value) =>
        let seen := { seen with filterFlags := value.filterFlags }
        if !answers.written state.written then .faulted next.ports
        else
          .reported ((registration.serviced contract bucket processor).delivered sources seen) value
            { next with written := state.written + 1 }

/-- `collect_ready_kevents` with room for some events of a bucket. -/
def collectReadyKevents (state : CollectState) :
    List (Option KeventRegistration) → KeventCollection
  | [] => { visits := [], ports := state.ports }
  | none :: rest =>
    let collected := collectReadyKevents state rest
    { collected with visits := { left := none } :: collected.visits }
  | some registration :: rest =>
    match visitKevent contract sources answers processor bucket eventCount state registration with
    | .passed left =>
      let collected := collectReadyKevents state rest
      { collected with visits := { left } :: collected.visits }
    | .faulted ports =>
      { visits := { left := some registration } :: rest.map fun left => { left }
        ports
        faulted := true }
    | .reported left event next =>
      let collected := collectReadyKevents next rest
      { collected with visits := { left, event } :: collected.visits }

end

namespace KeventCollection

/-- The kqueue after the collection. -/
def knotes (collected : KeventCollection) : List (Option KeventRegistration) :=
  collected.visits.map (·.left)

/-- The events that the worker gets. -/
def events (collected : KeventCollection) : List KeventValue :=
  collected.visits.filterMap (·.event)

end KeventCollection
end ILEmu
