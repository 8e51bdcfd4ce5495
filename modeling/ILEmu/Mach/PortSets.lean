import ILEmu.Foundation.Buckets
import ILEmu.Mach.PortObjects

/-! Port sets over the message queues of their members: the sets, the links back from each
member, and for each set the members that have messages, in the order they are served. -/
namespace ILEmu
open Foundation

structure MachMessage (Body : Type) where
  body : Body
  overrideTier : Nat
  /-- A message of host input, whose queue is remembered as a candidate for a wake. -/
  graphicsInput : Bool := false
  deriving DecidableEq, Repr

structure MachPortSetLink where
  setObject : PortObjectId
  waitQueueSequence : Nat
  deriving DecidableEq, Repr

structure MachPortSets (Body : Type) where
  sets : Table PortObjectId (List PortObjectId) := ∅
  linksByMember : Table PortObjectId (List MachPortSetLink) := ∅
  preposts : Table PortObjectId (List PortObjectId) := ∅
  queues : Table PortObjectId (List (MachMessage Body)) := ∅
  graphicsInputCandidates : List PortObjectId := []
  nextWaitQueueSequence : Nat := 1

variable {Body : Type}

/-- The loop of `enqueue_mach_message_locked` from the newest message to the oldest. -/
def raiseOlder (tier : Nat) : List (MachMessage Body) → List (MachMessage Body)
  | [] => []
  | older :: rest =>
    if older.overrideTier < tier then { older with overrideTier := tier } :: raiseOlder tier rest
    else older :: rest

namespace MachPortSets

/-- `allocate_mach_wait_queue_sequence_locked`, a 64-bit counter that skips zero, with the
number that it gives out last. -/
def allocateWaitQueueSequence (next : Nat) : Nat × Nat :=
  if next = 0 then (2, 1) else ((next + 1) % 2 ^ 64, next)

def createSet (ports : MachPortSets Body) (set : PortObjectId) : MachPortSets Body × Bool :=
  if (ports.sets.lookup set).isSome then (ports, false)
  else ({ ports with sets := ports.sets.insert set [] }, true)

def insertMember (ports : MachPortSets Body) (set member : PortObjectId) :
    MachPortSets Body × Bool :=
  match ports.sets.lookup set with
  | none => (ports, false)
  | some members =>
    if member ∈ members then (ports, false)
    else
      let (nextWaitQueueSequence, waitQueueSequence) :=
        allocateWaitQueueSequence ports.nextWaitQueueSequence
      let preposts :=
        if ports.queues.bucket member ≠ [] then ports.preposts.push set member else ports.preposts
      ({ ports with
          sets := ports.sets.insert set (members ++ [member])
          linksByMember := ports.linksByMember.push member { setObject := set, waitQueueSequence }
          preposts
          nextWaitQueueSequence }, true)

def extractMember (ports : MachPortSets Body) (set member : PortObjectId) :
    MachPortSets Body × Bool :=
  match ports.sets.lookup set with
  | none => (ports, false)
  | some members =>
    if member ∉ members then (ports, false)
    else
      ({ ports with
          sets := ports.sets.insert set (members.erase member)
          linksByMember := ports.linksByMember.prune member (·.setObject ≠ set)
          preposts := ports.preposts.prune set (· ≠ member) }, true)

def removeMemberFromAll (ports : MachPortSets Body) (member : PortObjectId) :
    MachPortSets Body × Bool :=
  match ports.linksByMember.lookup member with
  | none => (ports, false)
  | some links =>
    ({ ports with
        sets := links.foldl (fun sets link => sets.trim link.setObject (· ≠ member)) ports.sets
        preposts := links.foldl (fun preposts link => preposts.prune link.setObject (· ≠ member))
          ports.preposts
        linksByMember := ports.linksByMember.erase member }, true)

def eraseSet (ports : MachPortSets Body) (set : PortObjectId) : MachPortSets Body × Bool :=
  match ports.sets.lookup set with
  | none => (ports, false)
  | some members =>
    ({ ports with
        linksByMember := members.foldl
          (fun links member => links.prune member (·.setObject ≠ set)) ports.linksByMember
        preposts := ports.preposts.erase set
        sets := ports.sets.erase set }, true)

def linkedSets (ports : MachPortSets Body) (member : PortObjectId) : List PortObjectId :=
  (ports.linksByMember.bucket member).map MachPortSetLink.setObject

/-- `enqueue_mach_message_locked` of a message that no waiting receiver takes. -/
def enqueue (ports : MachPortSets Body) (destination : PortObjectId) (message : MachMessage Body) :
    MachPortSets Body :=
  let queue := ports.queues.bucket destination
  let raised := (raiseOlder message.overrideTier queue.reverse).reverse
  { ports with
    graphicsInputCandidates :=
      if message.graphicsInput then ports.graphicsInputCandidates.insert destination
      else ports.graphicsInputCandidates
    queues := ports.queues.insert destination (raised ++ [message])
    preposts :=
      if queue = [] then
        (ports.linkedSets destination).foldl
          (fun preposts set => preposts.pushNew set destination) ports.preposts
      else ports.preposts }

/-- The loop of `note_mach_message_dequeued_locked`, after its notifications. -/
def settle (ports : MachPortSets Body) (destination : PortObjectId) : MachPortSets Body :=
  { ports with
    preposts := (ports.linkedSets destination).foldl
      (fun preposts set =>
        if ports.queues.bucket destination ≠ [] then preposts
        else preposts.prune set (· ≠ destination)) ports.preposts }

/-- `mach_queues[destination]`, which makes an empty queue where there was none. -/
def touch (ports : MachPortSets Body) (destination : PortObjectId) : MachPortSets Body :=
  { ports with queues := ports.queues.insert destination (ports.queues.bucket destination) }

end MachPortSets

/-- A message given to `enqueue_mach_message_locked`. A waiting receiver of an empty queue may
take it; the slot that it leaves free lets the kernel post send-possible notifications. -/
inductive MachPost (Body : Type) where
  | queued (destination : PortObjectId) (message : MachMessage Body)
  | handedOff (destination : PortObjectId) (message : MachMessage Body)
      (notifications : List (MachPost Body))

namespace MachPortSets

mutual

def post (ports : MachPortSets Body) : MachPost Body → MachPortSets Body
  | .queued destination message => ports.enqueue destination message
  | .handedOff destination message notifications =>
    if ports.queues.bucket destination ≠ [] then ports.enqueue destination message
    else ((ports.posts notifications).settle destination).touch destination

def posts (ports : MachPortSets Body) : List (MachPost Body) → MachPortSets Body
  | [] => ports
  | first :: rest => (ports.post first).posts rest

end

/-- `note_mach_message_dequeued_locked`, with the notifications that it lets through. -/
def noteDequeuedMessage (ports : MachPortSets Body) (destination : PortObjectId)
    (notifications : List (MachPost Body)) : MachPortSets Body :=
  (ports.posts notifications).settle destination

/-- A message leaves the front of its queue. -/
def dequeue (ports : MachPortSets Body) (destination : PortObjectId)
    (notifications : List (MachPost Body)) : MachPortSets Body :=
  match ports.queues.bucket destination with
  | [] => ports
  | _ :: rest =>
    { ports with queues := ports.queues.insert destination rest }.noteDequeuedMessage destination
      notifications

/-- A receive through the set moves the member it has chosen to the tail. -/
def rotate (ports : MachPortSets Body) (set member : PortObjectId) : MachPortSets Body :=
  match ports.preposts.lookup set with
  | none => ports
  | some ready =>
    if 1 < ready.length ∧ member ∈ ready then
      { ports with preposts := ports.preposts.insert set (ready.erase member ++ [member]) }
    else ports

end MachPortSets

inductive PortSetOperation (Body : Type) where
  | create (set : PortObjectId)
  | insert (set member : PortObjectId)
  | extract (set member : PortObjectId)
  | removeFromAll (member : PortObjectId)
  | erase (set : PortObjectId)
  | enqueue (post : MachPost Body)
  | dequeue (destination : PortObjectId) (notifications : List (MachPost Body))
  | rotate (set member : PortObjectId)

namespace MachPortSets

def after (ports : MachPortSets Body) : PortSetOperation Body → MachPortSets Body
  | .create set => (ports.createSet set).1
  | .insert set member => (ports.insertMember set member).1
  | .extract set member => (ports.extractMember set member).1
  | .removeFromAll member => (ports.removeMemberFromAll member).1
  | .erase set => (ports.eraseSet set).1
  | .enqueue message => ports.post message
  | .dequeue destination notifications => ports.dequeue destination notifications
  | .rotate set member => ports.rotate set member

end MachPortSets
end ILEmu
