import ILEmu.Foundation.Checked
import ILEmu.Foundation.Containers
import ILEmu.Mach.PortObjects
import Mathlib.Data.List.Sort

/-! Senders asleep on a full message queue. A slot that becomes free is granted to the
first of them and stays reserved for it until the sender runs. -/
namespace ILEmu
open Foundation

inductive SendState where
  | waiting | granted | timedOut | interrupted | destroyed | cancelled
  deriving DecidableEq, Repr

structure SendTicket (Message : Type) where
  message : Message
  task : Nat
  processor : Nat
  destination : PortObjectId
  deadline : Option Nat
  state : SendState := .waiting
  deriving DecidableEq, Repr

/-- The place of a ticket among all that were ever made, for the pointer shared by the
queue and the sender. -/
abbrev SendHandle := Nat

inductive SendFault where
  | dangling
  /-- `--found->second.reserved` at zero. -/
  | underflow
  deriving DecidableEq, Repr

variable {Message : Type}

namespace SendTicket

def due (ticket : SendTicket Message) (now : Nat) : Bool :=
  ticket.deadline.any (· ≤ now)

def ready (ticket : SendTicket Message) (now : Nat) : Bool :=
  ticket.state ≠ .waiting || ticket.due now

def belongs (ticket : SendTicket Message) (task : Nat) (processor : Option Nat) : Bool :=
  ticket.task = task && processor.all (· = ticket.processor)

end SendTicket

structure SendQueue where
  tickets : List SendHandle := []
  reserved : Nat := 0
  deriving DecidableEq, Repr

structure MachSendWaitQueue (Message : Type) where
  made : List (SendTicket Message) := []
  queues : Table PortObjectId SendQueue := ∅

/-- `ticket->state.store(state)` -/
def store (made : List (SendTicket Message)) (handle : SendHandle) (state : SendState) :
    List (SendTicket Message) :=
  made.modify handle fun ticket => { ticket with state }

/-- The loop of `grant` over the tickets of a queue. -/
def grantLoop (now : Nat) : List SendHandle → List (SendTicket Message) → Nat → Nat → Bool →
    List (SendTicket Message) × Nat × Bool
  | [], made, _, reserved, changed => (made, reserved, changed)
  | handle :: rest, made, count, reserved, changed =>
    match made[handle]? with
    | none => grantLoop now rest made count reserved changed
    | some ticket =>
      if ticket.state ≠ .waiting then grantLoop now rest made count reserved changed
      else if ticket.due now then
        grantLoop now rest (store made handle .timedOut) count reserved true
      else
        match count with
        | 0 => (made, reserved, changed)
        | count + 1 => grantLoop now rest (store made handle .granted) count (reserved + 1) true

/-- The state that `destroy` leaves a ticket in. -/
def SendTicket.destroyed (ticket : SendTicket Message) (now : Nat) : SendState :=
  match ticket.state with
  | .waiting => if ticket.due now then .timedOut else .destroyed
  | .granted => .destroyed
  | state => state

def destroyLoop (now : Nat) : List SendHandle → List (SendTicket Message) →
    List (SendTicket Message)
  | [], made => made
  | handle :: rest, made =>
    match made[handle]? with
    | none => destroyLoop now rest made
    | some ticket => destroyLoop now rest (store made handle (ticket.destroyed now))

/-- The slot of a ticket that is taken out of its queue, back among the free ones. -/
def SendTicket.giveBack (ticket : SendTicket Message) (reserved : Nat) : Except SendFault Nat :=
  if ticket.state = .granted then decrement SendFault.underflow reserved else .ok reserved

/-- What `cancel` makes of one queue. -/
structure Cancelling (Message : Type) where
  made : List (SendTicket Message)
  reserved : Nat
  kept : List SendHandle
  cancelled : List SendHandle

def cancelLoop (task : Nat) (processor : Option Nat) : List SendHandle →
    List (SendTicket Message) → Nat → Except SendFault (Cancelling Message)
  | [], made, reserved => .ok { made, reserved, kept := [], cancelled := [] }
  | handle :: rest, made, reserved =>
    match made[handle]? with
    | none => .error .dangling
    | some ticket =>
      if ticket.belongs task processor then do
        let reserved ← ticket.giveBack reserved
        let result ← cancelLoop task processor rest (store made handle .cancelled) reserved
        return { result with cancelled := handle :: result.cancelled }
      else do
        let result ← cancelLoop task processor rest made reserved
        return { result with kept := handle :: result.kept }

namespace MachSendWaitQueue

def stateOf (waiters : MachSendWaitQueue Message) (handle : SendHandle) : Option SendState :=
  waiters.made[handle]?.map SendTicket.state

/-- A new ticket, at the end of the queue of its destination. -/
def enter (waiters : MachSendWaitQueue Message) (ticket : SendTicket Message) :
    MachSendWaitQueue Message :=
  let queue := (waiters.queues.lookup ticket.destination).getD {}
  let tickets := queue.tickets ++ [waiters.made.length]
  { made := waiters.made ++ [ticket]
    queues := waiters.queues.insert ticket.destination { queue with tickets } }

def wait (waiters : MachSendWaitQueue Message) (message : Message) (task processor : Nat)
    (destination : PortObjectId) (deadline : Option Nat) : MachSendWaitQueue Message × SendHandle :=
  (waiters.enter { message, task, processor, destination, deadline }, waiters.made.length)

def reserved (waiters : MachSendWaitQueue Message) (object : PortObjectId) : Nat :=
  ((waiters.queues.lookup object).map SendQueue.reserved).getD 0

def empty (waiters : MachSendWaitQueue Message) : Bool := waiters.queues.keys.isEmpty

def grant (waiters : MachSendWaitQueue Message) (object : PortObjectId) (count now : Nat) :
    MachSendWaitQueue Message × Bool :=
  match waiters.queues.lookup object with
  | none => (waiters, false)
  | some queue =>
    let (made, reserved, changed) :=
      grantLoop now queue.tickets waiters.made count queue.reserved false
    ({ made, queues := waiters.queues.insert object { queue with reserved } }, changed)

/-- Writing a queue back, or erasing it when its last ticket has gone. -/
def putBack (waiters : MachSendWaitQueue Message) (object : PortObjectId) (queue : SendQueue) :
    MachSendWaitQueue Message :=
  if queue.tickets = [] then { waiters with queues := waiters.queues.erase object }
  else { waiters with queues := waiters.queues.insert object queue }

def retire (waiters : MachSendWaitQueue Message) (handle : SendHandle) :
    Except SendFault (MachSendWaitQueue Message) :=
  match waiters.made[handle]? with
  | none => .error .dangling
  | some ticket =>
    match waiters.queues.lookup ticket.destination with
    | none => .ok waiters
    | some queue => do
      let reserved ← ticket.giveBack queue.reserved
      let tickets := queue.tickets.filter (· ≠ handle)
      return waiters.putBack ticket.destination { tickets, reserved }

def destroy (waiters : MachSendWaitQueue Message) (object : PortObjectId) (now : Nat) :
    MachSendWaitQueue Message :=
  match waiters.queues.lookup object with
  | none => waiters
  | some queue =>
    { made := destroyLoop now queue.tickets waiters.made
      queues := waiters.queues.insert object { queue with reserved := 0 } }

/-- One round of the outer loop of `cancel`. -/
def cancelQueue (task : Nat) (processor : Option Nat)
    (done : MachSendWaitQueue Message × List SendHandle) (object : PortObjectId) :
    Except SendFault (MachSendWaitQueue Message × List SendHandle) :=
  match done.1.queues.lookup object with
  | none => .ok done
  | some queue => do
    let result ← cancelLoop task processor queue.tickets done.1.made queue.reserved
    let waiters := { done.1 with made := result.made }
    return (waiters.putBack object { tickets := result.kept, reserved := result.reserved },
      done.2 ++ result.cancelled)

/-- `cancel` up to the calls of `discard`, which run after the loops and may do anything to
the queues; with the tickets that they are made for. -/
def cancel (waiters : MachSendWaitQueue Message) (task : Nat) (processor : Option Nat) :
    Except SendFault (MachSendWaitQueue Message × List SendHandle) :=
  (waiters.queues.keys.insertionSort (· ≤ ·)).foldlM (cancelQueue task processor) (waiters, [])

/-- `mach_message_count_locked`, for a queue of that many messages. -/
def messageCount (waiters : MachSendWaitQueue Message) (depth : Nat) (object : PortObjectId) :
    Nat :=
  depth + waiters.reserved object

/-- The grant of `note_mach_message_dequeued_locked`. -/
def noteDequeued (waiters : MachSendWaitQueue Message) (port : Option PortObject) (depth : Nat)
    (object : PortObjectId) (now : Nat) : MachSendWaitQueue Message :=
  if waiters.empty then waiters
  else
    match port with
    | none => waiters
    | some port =>
      if waiters.messageCount depth object < port.queueLimit then (waiters.grant object 1 now).1
      else waiters

/-- The grant that `cancel_mach_sends_locked` makes for a discarded ticket, unless its
destination is being removed. -/
def discarded (waiters : MachSendWaitQueue Message) (port : Option PortObject) (removing : Bool)
    (depth : Nat) (object : PortObjectId) (now : Nat) : MachSendWaitQueue Message :=
  match port with
  | none => waiters
  | some port =>
    if removing then waiters
    else
      let count := waiters.messageCount depth object
      if count < port.queueLimit then (waiters.grant object (port.queueLimit - count) now).1
      else waiters

/-- What a signal does to the ticket of a sender that is not ready. -/
def interrupt (waiters : MachSendWaitQueue Message) (handle : SendHandle) (now : Nat) :
    MachSendWaitQueue Message :=
  if waiters.made[handle]?.all fun ticket => ticket.ready now then waiters
  else { waiters with made := store waiters.made handle .interrupted }

end MachSendWaitQueue

/-- The waiting senders and the tickets that `pending_mach_sends_` still holds, each of
which its sender retires once. -/
structure MachSenders (Message : Type) where
  waiters : MachSendWaitQueue Message := {}
  pending : List SendHandle := []

inductive SendOperation (Message : Type) where
  | wait (message : Message) (task processor : Nat) (destination : PortObjectId)
      (deadline : Option Nat)
  | grant (object : PortObjectId) (count now : Nat)
  | interrupt (handle : SendHandle) (now : Nat)
  | retire (handle : SendHandle)
  | destroy (object : PortObjectId) (now : Nat)
  | cancel (task : Nat) (processor : Option Nat)

namespace MachSenders

def perform (senders : MachSenders Message) :
    SendOperation Message → Except SendFault (MachSenders Message)
  | .wait message task processor destination deadline =>
    let (waiters, handle) := senders.waiters.wait message task processor destination deadline
    .ok { waiters, pending := handle :: senders.pending }
  | .grant object count now =>
    .ok { senders with waiters := (senders.waiters.grant object count now).1 }
  | .interrupt handle now =>
    if handle ∈ senders.pending then
      .ok { senders with waiters := senders.waiters.interrupt handle now }
    else .ok senders
  | .retire handle =>
    if handle ∈ senders.pending then do
      let waiters ← senders.waiters.retire handle
      return { waiters, pending := senders.pending.filter (· ≠ handle) }
    else .ok senders
  | .destroy object now => .ok { senders with waiters := senders.waiters.destroy object now }
  | .cancel task processor => do
    let (waiters, _) ← senders.waiters.cancel task processor
    return { senders with waiters }

def after (senders : MachSenders Message) (operation : SendOperation Message) :
    MachSenders Message :=
  match senders.perform operation with
  | .ok senders => senders
  | .error _ => senders

end MachSenders
end ILEmu
