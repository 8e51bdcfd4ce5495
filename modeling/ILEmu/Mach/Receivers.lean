import ILEmu.Mach.ReceiveWaiters
import Mathlib.Data.List.MinMax
import Mathlib.Data.Prod.Lex

/-! Messages and the receivers that get them: a message that arrives on an empty queue is
handed to a receiver that waits, and the others are received from the queue. -/
namespace ILEmu
open Foundation

/-- A port as the receivers see it: the task that may receive from it, and the number of the
next message. -/
structure MachReceivePort where
  receiver : Option Nat
  sequenceNumber : Nat := 0
  deriving DecidableEq, Repr

/-- A message that has left its queue, with the receive that it was selected for, or none if
it was destroyed with the port. -/
structure MachSelection (Content : Type) where
  payload : MachPayload Content
  receive : Option Nat
  sequenceNumber : Nat
  deriving DecidableEq, Repr

/-- The messages that a port was sent and those that have left its queue, in their orders.
Numbers are counted from `since` on, when the receive right last moved. -/
structure MachHistory (Content : Type) where
  posted : List (MachPayload Content) := []
  taken : List (MachSelection Content) := []
  since : Nat := 0
  deriving DecidableEq, Repr

/-- `history` is what the model records of a run; no operation reads it. -/
structure MachReceivers (Content : Type) where
  ports : MachPortSets (MachPayload Content) := {}
  objects : Table PortObjectId MachReceivePort := ∅
  setOwners : Table PortObjectId Nat := ∅
  pending : Table (Nat × Nat) PendingMachReceive := ∅
  waiters : MachReceiveWaitQueue Content := {}
  now : Nat := 0
  history : Table PortObjectId (MachHistory Content) := ∅

/-- A message given to `enqueue_mach_message_locked`, with the notifications that are posted
when it frees its slot at once. -/
inductive MachSend (Content : Type) where
  | message (destination : PortObjectId) (message : MachMessage (MachPayload Content))
      (notifications : List (MachSend Content))

inductive MachReceiveStatus where
  | success | tooLarge | timedOut | portChanged | invalidData
  deriving DecidableEq, Repr

def messageHeaderSize : Nat := 24

/-- The sizes of the trailers, by the elements that the options of a receive ask for; one of
them holds a longer context on later versions. -/
def requestedTrailerSize (longContext : Bool) (elements : Nat) : Nat :=
  match elements with
  | 0 => 8
  | 1 => 12
  | 2 => 20
  | 4 => if longContext then 60 else 56
  | _ => 52

def receiveBufferSize (longContext : Bool) (messageSize elements : Nat) : Nat :=
  (messageSize + 3) / 4 * 4 + requestedTrailerSize longContext elements

namespace MachReceivers
variable {Content : Type} (state : MachReceivers Content)

/-- `pending_mach_receive_is_usable_locked` -/
def usable (task : Nat) (receive : PendingMachReceive) : Bool :=
  if receive.receiveIsPortSet then
    (state.ports.sets.lookup receive.receiveObject).isSome &&
      state.setOwners.lookup receive.receiveObject = some task
  else
    (state.objects.lookup receive.receiveObject).any (·.receiver = some task)

def expired (receive : PendingMachReceive) : Bool :=
  receive.deadline.any (· ≤ state.now)

def tooLarge (longContext : Bool) (receive : PendingMachReceive)
    (message : MachMessage (MachPayload Content)) : Bool :=
  receive.large &&
    receive.receiveSize < receiveBufferSize longContext message.body.byteSize receive.trailerElements

def historyOf (object : PortObjectId) : MachHistory Content :=
  (state.history.lookup object).getD {}

def notePosted (object : PortObjectId) (payload : MachPayload Content) : MachReceivers Content :=
  let history := state.historyOf object
  { state with
    history := state.history.insert object { history with posted := history.posted ++ [payload] } }

def noteTaken (object : PortObjectId) (selections : List (MachSelection Content)) :
    MachReceivers Content :=
  let history := state.historyOf object
  { state with
    history := state.history.insert object { history with taken := history.taken ++ selections } }

def noteMoved (object : PortObjectId) : MachReceivers Content :=
  let history := state.historyOf object
  { state with
    history := state.history.insert object { history with since := history.taken.length } }

/-- `sequence_number(object).value_or(0)` -/
def sequenceNumber (object : PortObjectId) : Nat :=
  (state.objects.lookup object).elim 0 (·.sequenceNumber)

/-- `increment_sequence_number`, of a 32-bit number. -/
def incrementSequenceNumber (object : PortObjectId) : MachReceivers Content :=
  match state.objects.lookup object with
  | none => state
  | some port =>
    { state with
      objects := state.objects.insert object
        { port with sequenceNumber := (port.sequenceNumber + 1) % 2 ^ 32 } }

/-- A message is selected for a receive, and numbered. -/
def select (object : PortObjectId) (receive : Nat) (payload : MachPayload Content) :
    MachReceivers Content :=
  (state.noteTaken object
    [{ payload, receive := some receive, sequenceNumber := state.sequenceNumber object }]
    ).incrementSequenceNumber object

/-- A link comes before what has been found if its own place is earlier and someone waits
on its set. -/
def considerLink (best : Option (MachReceiveTicket Content) × Nat) (link : MachPortSetLink) :
    Option (MachReceiveTicket Content) × Nat :=
  if best.2 ≤ link.waitQueueSequence then best
  else
    match state.waiters.first link.setObject with
    | some receiver => (some receiver, link.waitQueueSequence)
    | none => best

/-- The first receiver that a message to an object finds, among those that wait on the object
and on each set that it is linked to. -/
def firstReceiver (destination : PortObjectId) : Option (MachReceiveTicket Content) :=
  let direct := state.waiters.first destination
  let position := direct.elim (2 ^ 64 - 1) (·.receive.waitQueueSequence)
  ((state.ports.linksByMember.bucket destination).foldl state.considerLink (direct, position)).1

/-- What a waiter is completed with, if it cannot get the message. -/
def refusal (longContext : Bool) (ticket : MachReceiveTicket Content)
    (message : MachMessage (MachPayload Content)) : Option MachReceiveState :=
  if !state.usable ticket.task ticket.receive then some .portChanged
  else if state.expired ticket.receive then some .timedOut
  else if tooLarge longContext ticket.receive message then some .tooLarge
  else none

/-- `message_size`, which is noted once the right and the deadline have been found good. -/
def sized (ticket : MachReceiveTicket Content) (message : MachMessage (MachPayload Content))
    (refused : Option MachReceiveState) : MachReceiveTicket Content :=
  match refused with
  | some .portChanged | some .timedOut => ticket
  | _ => { ticket with messageSize := message.body.byteSize % 2 ^ 32 }

/-- The loop of `handoff_mach_message_locked`, or nothing if it takes more rounds than that. -/
def handoffLoop (longContext : Bool) (destination : PortObjectId)
    (message : MachMessage (MachPayload Content)) :
    Nat → MachReceivers Content → Option (MachReceivers Content × Bool)
  | 0, _ => none
  | rounds + 1, state =>
    match state.firstReceiver destination with
    | none => some (state, false)
    | some ticket =>
      let refused := state.refusal longContext ticket message
      match refused with
      | some reason =>
        handoffLoop longContext destination message rounds
          { state with waiters := state.waiters.complete (sized ticket message refused) reason }
      | none =>
        let ready :=
          { sized ticket message refused with
            destination
            sequenceNumber := state.sequenceNumber destination
            message := some message }
        let selected := state.select destination ticket.receive.waitQueueSequence message.body
        some ({ selected with waiters := selected.waiters.complete ready .messageReady }, true)

/-- The number of rounds allows for one with each waiting receiver. -/
def handoff (longContext : Bool) (destination : PortObjectId)
    (message : MachMessage (MachPayload Content)) : Option (MachReceivers Content × Bool) :=
  if state.waiters.waiting.entries = [] ∨ state.ports.queues.bucket destination ≠ [] then
    some (state, false)
  else
    handoffLoop longContext destination message
      ((state.waiters.waiting.total List.length) + 1) state

/-- A message arrives, and is handed to a receiver if one waits for it; a handoff that would
not end leaves no state to go on from. -/
def arrive (longContext : Bool) (destination : PortObjectId)
    (message : MachMessage (MachPayload Content)) : MachReceivers Content × Bool :=
  let noted := state.notePosted destination message.body
  (noted.handoff longContext destination message).getD (noted, false)

mutual

/-- `enqueue_mach_message_locked` -/
def post (longContext : Bool) (state : MachReceivers Content) :
    MachSend Content → MachReceivers Content
  | .message destination message notifications =>
    match state.arrive longContext destination message with
    | (state, true) =>
      let settled := state.posts longContext notifications
      { settled with ports := (settled.ports.settle destination).touch destination }
    | (state, false) => { state with ports := state.ports.enqueue destination message }

def posts (longContext : Bool) (state : MachReceivers Content) :
    List (MachSend Content) → MachReceivers Content
  | [] => state
  | first :: rest => (state.post longContext first).posts longContext rest

end

structure Candidate where
  portQueueSequence : Nat
  receiverSequence : Nat
  processor : Nat
  deriving DecidableEq, Repr

def Candidate.key (candidate : Candidate) : ℕ ×ₗ ℕ :=
  toLex (candidate.portQueueSequence, candidate.receiverSequence)

/-- The pending receives of a task, in the order of their processors. -/
def pendingOf (task : Nat) : List PendingMachReceive :=
  ((state.pending.entries.filter (·.1.1 = task)).map (·.2)).insertionSort
    fun a b => a.processor ≤ b.processor

def eligible (receive : PendingMachReceive) : Bool :=
  (state.waiters.find receive.waitQueueSequence).all (·.state = .waiting)

def usableOf (task : Nat) : List PendingMachReceive :=
  (state.pendingOf task).filter fun receive => state.eligible receive && state.usable task receive

/-- A receive as one of those that wait in a place of the queue of a port. -/
def PendingMachReceive.candidate (receive : PendingMachReceive) (portQueueSequence : Nat) :
    Candidate :=
  { portQueueSequence
    receiverSequence := receive.waitQueueSequence
    processor := receive.processor }

def directCandidates (task : Nat) (queuedPort : PortObjectId) : List Candidate :=
  ((state.usableOf task).filter fun receive =>
    !receive.receiveIsPortSet && receive.receiveObject = queuedPort).map fun receive =>
      PendingMachReceive.candidate receive receive.waitQueueSequence

/-- The first receiver of the set of a link. -/
def linkCandidate (task : Nat) (link : MachPortSetLink) : Option Candidate :=
  (((state.usableOf task).filter fun receive =>
    receive.receiveIsPortSet && receive.receiveObject = link.setObject).map fun receive =>
      PendingMachReceive.candidate receive link.waitQueueSequence).argmin (·.receiverSequence)

/-- `preferred_pending_mach_receiver_locked`, without completed receives. -/
def preferred (task : Nat) (queuedPort : PortObjectId) : Option Nat :=
  ((state.directCandidates task queuedPort ++
    (state.ports.linksByMember.bucket queuedPort).filterMap (state.linkCandidate task)).argmin
      Candidate.key).map (·.processor)

/-- The queue that a blocked receive takes from, and the set that it was found through. -/
def selectQueue (task : Nat) (receive : PendingMachReceive) :
    Option (PortObjectId × Option PortObjectId) :=
  let selects := fun port =>
    state.ports.queues.bucket port ≠ [] && state.preferred task port = some receive.processor
  if selects receive.receiveObject then some (receive.receiveObject, none)
  else
    ((state.ports.preposts.bucket receive.receiveObject).find? selects).map
      fun member => (member, some receive.receiveObject)

/-- The receive is over. -/
def finish (task : Nat) (receive : PendingMachReceive) : MachReceivers Content :=
  { state with
    waiters := state.waiters.retire receive.waitQueueSequence
    pending := state.pending.erase (task, receive.processor) }

def popFront (object : PortObjectId) : MachReceivers Content :=
  { state with
    ports := { state.ports with
      queues := state.ports.queues.insert object (state.ports.queues.bucket object).tail } }

/-- The first message of a queue leaves it for a receive. The notifications of the copyout are
posted before it is gone, the others when its slot is free. -/
def consume (longContext : Bool) (object : PortObjectId) (receive : Nat)
    (copyout slot : List (MachSend Content)) : MachReceivers Content :=
  match state.ports.queues.bucket object with
  | [] => state
  | message :: _ =>
    let copied := (state.select object receive message.body).posts longContext copyout
    let notified := (copied.popFront object).posts longContext slot
    { notified with ports := notified.ports.settle object }

/-- How a receive ends that a message was selected for, when its copyout succeeds. -/
def received (longContext : Bool) (receive : PendingMachReceive)
    (message : MachMessage (MachPayload Content)) : MachReceiveStatus :=
  if message.body.byteSize < messageHeaderSize then .invalidData
  else if receive.receiveSize <
      receiveBufferSize longContext message.body.byteSize receive.trailerElements then .tooLarge
  else .success

/-- `deliver_pending_mach_locked` -/
def deliver (longContext : Bool) (task processor : Nat) (copyout slot : List (MachSend Content)) :
    MachReceivers Content × Option MachReceiveStatus :=
  match state.pending.lookup (task, processor) with
  | none => (state, none)
  | some receive =>
    match (state.waiters.find receive.waitQueueSequence).filter (·.state ≠ .waiting) with
    | some ticket =>
      match ticket.state, ticket.message with
      | .messageReady, some message =>
        ((state.posts longContext copyout).finish task receive,
          some (received longContext receive message))
      | .tooLarge, _ => (state.finish task receive, some .tooLarge)
      | .timedOut, _ => (state.finish task receive, some .timedOut)
      | _, _ => (state.finish task receive, some .portChanged)
    | none =>
      if !state.usable task receive then (state.finish task receive, some .portChanged)
      else
        match state.selectQueue task receive with
        | none =>
          if state.expired receive then (state.finish task receive, some .timedOut)
          else (state, none)
        | some (object, set) =>
          match state.ports.queues.bucket object with
          | [] => (state, none)
          | message :: _ =>
            let retired :=
              { state with waiters := state.waiters.retire receive.waitQueueSequence }
            let rotated :=
              { retired with
                ports := set.elim retired.ports fun set => retired.ports.rotate set object }
            if messageHeaderSize ≤ message.body.byteSize && tooLarge longContext receive message then
              (rotated.finish task receive, some .tooLarge)
            else
              ((rotated.consume longContext object receive.waitQueueSequence copyout slot).finish
                task receive, some (received longContext receive message))

end MachReceivers

/-- The parameters of a receive call. -/
structure MachReceiveCall where
  object : PortObjectId
  /-- Milliseconds. -/
  timeout : Option Nat
  receiveSize : Nat
  large : Bool
  trailerElements : Nat
  deriving DecidableEq, Repr

inductive MachReceiveOperation (Content : Type) where
  | createPort (port : PortObjectId) (task : Nat)
  | createSet (set : PortObjectId) (task : Nat)
  | insertMember (set member : PortObjectId)
  | extractMember (set member : PortObjectId)
  | removeFromAll (member : PortObjectId)
  | eraseSet (set : PortObjectId)
  | clearReceiver (port : PortObjectId)
  | landReceiver (port : PortObjectId) (task : Nat)
  | destroyPort (port : PortObjectId) (notifications : List (MachSend Content))
  | enqueue (send : MachSend Content)
  | receive (task processor : Nat) (call : MachReceiveCall)
      (copyout slot : List (MachSend Content))
  | deliver (task processor : Nat) (copyout slot : List (MachSend Content))
  | cancel (task : Nat) (processor : Option Nat) (notifications : List (MachSend Content))
  | advance (ticks : Nat)

namespace MachReceivers
variable {Content : Type} (state : MachReceivers Content)

/-- The receive of a call, under the next number of the wait queues. -/
def receiveOf (processor : Nat) (call : MachReceiveCall) : PendingMachReceive :=
  { processor
    receiveObject := call.object
    receiveIsPortSet := (state.ports.sets.lookup call.object).isSome
    deadline := call.timeout.map fun milliseconds =>
      min (state.now + milliseconds * 1000000) (2 ^ 64 - 1)
    receiveSize := call.receiveSize
    large := call.large
    trailerElements := call.trailerElements
    waitQueueSequence :=
      (MachPortSets.allocateWaitQueueSequence state.ports.nextWaitQueueSequence).2 }

def begun (task processor : Nat) (call : MachReceiveCall) : MachReceivers Content :=
  { state with
    ports := { state.ports with
      nextWaitQueueSequence :=
        (MachPortSets.allocateWaitQueueSequence state.ports.nextWaitQueueSequence).1 }
    pending := state.pending.insert (task, processor) (state.receiveOf processor call) }

/-- `begin_mach_receive` of a thread that has no receive pending. -/
def beginReceive (longContext : Bool) (task processor : Nat) (call : MachReceiveCall)
    (copyout slot : List (MachSend Content)) : MachReceivers Content :=
  let receive := state.receiveOf processor call
  if !state.usable task receive || (state.pending.lookup (task, processor)).isSome then state
  else
    match (state.begun task processor call).deliver longContext task processor copyout slot with
    | (done, some _) => done
    | (undone, none) =>
      if call.timeout = some 0 then { undone with pending := undone.pending.erase (task, processor) }
      else { undone with waiters := undone.waiters.wait task receive }

/-- The pending receives without those of a task, or of one of its processors. -/
def otherPending (task : Nat) (processor : Option Nat) : Table (Nat × Nat) PendingMachReceive :=
  let keys := state.pending.keys.filter fun key => key.1 = task && processor.all (key.2 = ·)
  keys.foldl (fun pending key => pending.erase key) state.pending

/-- The messages that are still queued are destroyed with their port. -/
def destroyPort (longContext : Bool) (port : PortObjectId)
    (notifications : List (MachSend Content)) : MachReceivers Content :=
  let dropped := (state.ports.queues.bucket port).map fun message =>
    { payload := message.body, receive := none, sequenceNumber := 0 : MachSelection Content }
  let noted := (state.noteTaken port dropped).noteMoved port
  let ports := (noted.ports.removeMemberFromAll port).1
  posts longContext
    { noted with
      ports := { ports with queues := ports.queues.erase port }
      objects := noted.objects.erase port } notifications

def after (longContext : Bool) : MachReceiveOperation Content → MachReceivers Content
  | .createPort port task =>
    if (state.objects.lookup port).isSome || (state.ports.sets.lookup port).isSome then state
    else { state.noteMoved port with objects := state.objects.insert port { receiver := some task } }
  | .createSet set task =>
    if (state.objects.lookup set).isSome || (state.ports.sets.lookup set).isSome then state
    else
      { state with
        ports := (state.ports.createSet set).1, setOwners := state.setOwners.insert set task }
  | .insertMember set member =>
    match state.objects.lookup member, state.setOwners.lookup set with
    | some port, some owner =>
      if port.receiver = some owner then
        { state with ports := (state.ports.insertMember set member).1 }
      else state
    | _, _ => state
  | .extractMember set member => { state with ports := (state.ports.extractMember set member).1 }
  | .removeFromAll member => { state with ports := (state.ports.removeMemberFromAll member).1 }
  | .eraseSet set =>
    { state with ports := (state.ports.eraseSet set).1, setOwners := state.setOwners.erase set }
  | .clearReceiver port =>
    match state.objects.lookup port with
    | none => state
    | some _ =>
      { state.noteMoved port with
        ports := (state.ports.removeMemberFromAll port).1
        objects := state.objects.insert port { receiver := none } }
  | .landReceiver port task =>
    match state.objects.lookup port with
    | some { receiver := none, sequenceNumber } =>
      { state with objects := state.objects.insert port { receiver := some task, sequenceNumber } }
    | _ => state
  | .destroyPort port notifications =>
    if (state.objects.lookup port).isSome then state.destroyPort longContext port notifications
    else state
  | .enqueue send => state.post longContext send
  | .receive task processor call copyout slot =>
    state.beginReceive longContext task processor call copyout slot
  | .deliver task processor copyout slot =>
    (state.deliver longContext task processor copyout slot).1
  | .cancel task processor notifications =>
    let cancelled :=
      { state with
        waiters := state.waiters.cancel task processor
        pending := state.otherPending task processor }
    cancelled.posts longContext notifications
  | .advance ticks => { state with now := state.now + ticks }

end MachReceivers
end ILEmu
