import ILEmu.Foundation.Postings
import ILEmu.Mach.PortSets

/-! The receivers that wait for a message, by the order of their waits and by the object
that they wait on. -/
namespace ILEmu
open Foundation

/-- What a message is copied out from: its content and the number of its bytes. -/
structure MachPayload (Content : Type) where
  content : Content
  byteSize : Nat
  deriving DecidableEq, Repr

/-- A receive that blocked. `large` and `trailerElements` are read from its options. -/
structure PendingMachReceive where
  processor : Nat
  receiveObject : PortObjectId
  receiveIsPortSet : Bool
  deadline : Option Nat
  receiveSize : Nat
  large : Bool
  trailerElements : Nat
  waitQueueSequence : Nat
  deriving DecidableEq, Repr

inductive MachReceiveState where
  | waiting | messageReady | tooLarge | timedOut | portChanged
  deriving DecidableEq, Repr

structure MachReceiveTicket (Content : Type) where
  task : Nat
  receive : PendingMachReceive
  state : MachReceiveState := .waiting
  message : Option (MachMessage (MachPayload Content)) := none
  destination : PortObjectId := 0
  sequenceNumber : Nat := 0
  messageSize : Nat := 0
  deriving DecidableEq, Repr

structure MachReceiveWaitQueue (Content : Type) where
  tickets : Table Nat (MachReceiveTicket Content) := ∅
  waiting : Table PortObjectId (List Nat) := ∅

namespace MachReceiveWaitQueue
variable {Content : Type} (queue : MachReceiveWaitQueue Content)

def wait (task : Nat) (receive : PendingMachReceive) : MachReceiveWaitQueue Content :=
  let sequence := receive.waitQueueSequence
  if (queue.tickets.lookup sequence).isSome then queue
  else
    { tickets := queue.tickets.insert sequence { task, receive }
      waiting := queue.waiting.insert receive.receiveObject
        (insertSorted sequence (queue.waiting.bucket receive.receiveObject)) }

def find (sequence : Nat) : Option (MachReceiveTicket Content) :=
  queue.tickets.lookup sequence

def first (object : PortObjectId) : Option (MachReceiveTicket Content) :=
  (queue.waiting.bucket object).head?.bind queue.find

def detach (ticket : MachReceiveTicket Content) : MachReceiveWaitQueue Content :=
  { queue with
    waiting := queue.waiting.prune ticket.receive.receiveObject
      (· ≠ ticket.receive.waitQueueSequence) }

/-- The ticket leaves the queue as it has become. -/
def complete (ticket : MachReceiveTicket Content) (state : MachReceiveState) :
    MachReceiveWaitQueue Content :=
  let queue := queue.detach ticket
  { queue with
    tickets := queue.tickets.insert ticket.receive.waitQueueSequence { ticket with state } }

def retire (sequence : Nat) : MachReceiveWaitQueue Content :=
  match queue.find sequence with
  | none => queue
  | some ticket =>
    let queue := queue.detach ticket
    { queue with tickets := queue.tickets.erase sequence }

/-- The tickets of a task, or of one of its processors. -/
def ticketsOf (task : Nat) (processor : Option Nat) : List Nat :=
  (queue.tickets.entries.filter fun entry =>
    entry.2.task = task && processor.all (entry.2.receive.processor = ·)).map (·.1)

/-- `cancel`, which also destroys the messages that the tickets hold. -/
def cancel (task : Nat) (processor : Option Nat) : MachReceiveWaitQueue Content :=
  (queue.ticketsOf task processor).foldl retire queue

/-- The index of the waiting tickets tells which they are. -/
structure Indexed (queue : MachReceiveWaitQueue Content) : Prop where
  keyed : ∀ sequence ticket, queue.find sequence = some ticket →
    ticket.receive.waitQueueSequence = sequence
  increasing : ∀ object, (queue.waiting.bucket object).Pairwise (· < ·)
  mem : ∀ object sequence, sequence ∈ queue.waiting.bucket object ↔
    ∃ ticket, queue.find sequence = some ticket ∧ ticket.state = .waiting ∧
      ticket.receive.receiveObject = object

variable {queue}

theorem indexed_empty : Indexed ({} : MachReceiveWaitQueue Content) := by
  refine ⟨nofun, fun _ => List.Pairwise.nil, fun object sequence => ?_⟩
  exact iff_of_false (List.not_mem_nil) nofun

theorem find_wait (fresh : queue.find receive.waitQueueSequence = none) (task : Nat)
    (sequence : Nat) : (queue.wait task receive).find sequence =
      if sequence = receive.waitQueueSequence then some { task, receive }
      else queue.find sequence := by
  unfold wait
  dsimp only
  rw [if_neg]
  · exact Table.lookup_insert_eq _ _ _ _
  · unfold find at fresh
    rw [fresh]
    exact Bool.false_ne_true

theorem Indexed.wait (indexed : queue.Indexed)
    (fresh : queue.find receive.waitQueueSequence = none) (task : Nat) :
    (queue.wait task receive).Indexed := by
  have found := find_wait fresh task
  have buckets : ∀ object, (queue.wait task receive).waiting.bucket object =
      if object = receive.receiveObject then
        insertSorted receive.waitQueueSequence (queue.waiting.bucket receive.receiveObject)
      else queue.waiting.bucket object := by
    intro object
    unfold MachReceiveWaitQueue.wait
    dsimp only
    rw [if_neg]
    · exact Table.bucket_insert _ _ _ _
    · unfold find at fresh
      rw [fresh]
      exact Bool.false_ne_true
  constructor
  · intro sequence ticket here
    rw [found] at here
    split at here
    · cases here
      exact ‹sequence = _›.symm
    · exact indexed.keyed sequence ticket here
  · intro object
    rw [buckets]
    split
    · exact insertSorted_increasing _ (indexed.increasing _)
    · exact indexed.increasing object
  · intro object sequence
    rw [buckets, found]
    by_cases new : sequence = receive.waitQueueSequence
    · rw [if_pos new]
      have absent : sequence ∉ queue.waiting.bucket object := by
        rw [indexed.mem, new, fresh]
        simp
      by_cases here : object = receive.receiveObject
      · rw [if_pos here, mem_insertSorted]
        exact iff_of_true (.inl new) ⟨_, rfl, rfl, here.symm⟩
      · rw [if_neg here]
        apply iff_of_false absent
        rintro ⟨ticket, same, _, there⟩
        cases same
        exact here there.symm
    · rw [if_neg new, ← indexed.mem]
      split
      · subst object
        rw [mem_insertSorted]
        exact or_iff_right new
      · exact Iff.rfl

theorem wait_taken (taken : (queue.find receive.waitQueueSequence).isSome) (task : Nat) :
    queue.wait task receive = queue :=
  if_pos taken

/-- The tickets of a queue are replaced or erased under one number, and what was waiting
there waits no more. -/
theorem Indexed.leave (indexed : queue.Indexed) {ticket : MachReceiveTicket Content}
    {sequence : Nat} (here : queue.find sequence = some ticket)
    {tickets : Table Nat (MachReceiveTicket Content)}
    (others : ∀ other, other ≠ sequence → tickets.lookup other = queue.find other)
    (left : ∀ now, tickets.lookup sequence = some now →
      now.receive.waitQueueSequence = sequence ∧ now.state ≠ .waiting) :
    Indexed { queue.detach ticket with tickets } := by
  have number := indexed.keyed sequence ticket here
  have buckets : ∀ object, (queue.detach ticket).waiting.bucket object =
      if object = ticket.receive.receiveObject then
        (queue.waiting.bucket ticket.receive.receiveObject).filter (· ≠ sequence)
      else queue.waiting.bucket object := by
    intro object
    unfold detach
    rw [number]
    exact Table.bucket_prune _ _ _ _
  constructor
  · intro other now found
    by_cases same : other = sequence
    · subst same
      exact (left now found).1
    · exact indexed.keyed other now ((others other same).symm.trans found)
  · intro object
    dsimp only
    rw [buckets]
    split
    · exact (indexed.increasing _).filter _
    · exact indexed.increasing object
  · intro object other
    dsimp only [find]
    rw [buckets]
    by_cases same : other = sequence
    · subst same
      apply iff_of_false
      · split
        · simp
        · rename_i elsewhere
          rw [indexed.mem]
          rintro ⟨found, again, _, there⟩
          cases here.symm.trans again
          exact elsewhere there.symm
      · rintro ⟨now, found, waits, _⟩
        exact (left now found).2 waits
    · rw [others other same, ← indexed.mem]
      split
      · subst object
        simp [same]
      · exact Iff.rfl

theorem find_complete {ticket : MachReceiveTicket Content} {sequence : Nat}
    (number : ticket.receive.waitQueueSequence = sequence) (state : MachReceiveState) (other : Nat) :
    (queue.complete ticket state).find other =
      if other = sequence then some { ticket with state } else queue.find other := by
  subst number
  exact Table.lookup_insert_eq _ _ _ _

/-- A ticket that has been marked is completed as one of the queue would be. -/
theorem Indexed.complete (indexed : queue.Indexed) {before after : MachReceiveTicket Content}
    {sequence : Nat} (here : queue.find sequence = some before) (same : after.receive = before.receive)
    {state : MachReceiveState} (done : state ≠ .waiting) :
    (queue.complete after state).Indexed := by
  have number := indexed.keyed sequence before here
  have detached : queue.detach after = queue.detach before := by
    unfold detach
    rw [same]
  have number' : after.receive.waitQueueSequence = sequence := by rw [same, number]
  unfold MachReceiveWaitQueue.complete
  dsimp only
  rw [detached, number']
  apply indexed.leave here
  · intro other different
    exact (Table.lookup_insert_eq _ _ _ _).trans (if_neg different)
  · intro now found
    have inserted := (Table.lookup_insert_eq _ _ _ _).symm.trans found
    rw [if_pos rfl] at inserted
    cases inserted
    exact ⟨number', done⟩

theorem find_retire (sequence other : Nat) :
    (queue.retire sequence).find other = if other = sequence then none else queue.find other := by
  unfold retire
  split
  · rename_i missing
    split
    · subst other
      exact missing
    · rfl
  · exact Table.lookup_erase_eq _ _ _

theorem Indexed.retire (indexed : queue.Indexed) (sequence : Nat) :
    (queue.retire sequence).Indexed := by
  unfold MachReceiveWaitQueue.retire
  split
  · exact indexed
  · rename_i ticket here
    apply indexed.leave here
    · intro other different
      exact (Table.lookup_erase_eq _ _ _).trans (if_neg different)
    · intro now found
      have erased := (Table.lookup_erase_eq _ _ _).symm.trans found
      rw [if_pos rfl] at erased
      contradiction

theorem mem_ticketsOf {task : Nat} {processor : Option Nat} {sequence : Nat} :
    sequence ∈ queue.ticketsOf task processor ↔
      ∃ ticket, queue.find sequence = some ticket ∧ ticket.task = task ∧
        ∀ p ∈ processor, ticket.receive.processor = p := by
  unfold ticketsOf
  simp only [List.mem_map, List.mem_filter, Bool.and_eq_true, decide_eq_true_eq]
  constructor
  · rintro ⟨⟨key, ticket⟩, ⟨member, owner, where_⟩, rfl⟩
    refine ⟨ticket, List.mem_dlookup queue.tickets.nodupKeys member, owner, ?_⟩
    simpa [Option.all_eq_true] using where_
  · rintro ⟨ticket, found, owner, where_⟩
    refine ⟨⟨sequence, ticket⟩, ⟨List.of_mem_dlookup found, owner, ?_⟩, rfl⟩
    simpa [Option.all_eq_true] using where_

theorem find_foldl_retire (sequences : List Nat) (other : Nat) :
    (sequences.foldl retire queue).find other =
      if other ∈ sequences then none else queue.find other := by
  induction sequences generalizing queue with
  | nil => simp
  | cons sequence rest ih =>
    rw [List.foldl_cons, ih, find_retire]
    by_cases same : other = sequence
    · simp [same]
    · simp [same]

theorem Indexed.cancel (indexed : queue.Indexed) (task : Nat) (processor : Option Nat) :
    (queue.cancel task processor).Indexed := by
  unfold MachReceiveWaitQueue.cancel
  induction queue.ticketsOf task processor generalizing queue with
  | nil => exact indexed
  | cons sequence rest ih => exact ih (indexed.retire sequence)

/-- The first waiting ticket of an object is the one with the least number. -/
theorem Indexed.first_spec (indexed : queue.Indexed) {object : PortObjectId}
    {ticket : MachReceiveTicket Content} (found : queue.first object = some ticket) :
    queue.find ticket.receive.waitQueueSequence = some ticket ∧ ticket.state = .waiting ∧
      ticket.receive.receiveObject = object ∧
      ∀ sequence other, queue.find sequence = some other → other.state = .waiting →
        other.receive.receiveObject = object →
        ticket.receive.waitQueueSequence ≤ sequence := by
  obtain ⟨sequence, head, here⟩ := Option.bind_eq_some_iff.mp found
  have number := indexed.keyed sequence ticket here
  obtain ⟨rest, list⟩ := List.head?_eq_some_iff.mp head
  have member : sequence ∈ queue.waiting.bucket object := by
    rw [list]
    exact List.mem_cons_self
  obtain ⟨same, again, waits, there⟩ := (indexed.mem object sequence).mp member
  cases here.symm.trans again
  refine ⟨number ▸ here, waits, there, fun other now found waits there => ?_⟩
  have inside := (indexed.mem object other).mpr ⟨now, found, waits, there⟩
  have sorted := indexed.increasing object
  rw [list] at inside sorted
  rw [number]
  rcases List.mem_cons.mp inside with rfl | later
  · exact Nat.le_refl _
  · exact (List.rel_of_pairwise_cons sorted later).le

theorem Indexed.first_none (indexed : queue.Indexed) {object : PortObjectId}
    (none : queue.first object = none) {sequence : Nat} {ticket : MachReceiveTicket Content}
    (found : queue.find sequence = some ticket) (waits : ticket.state = .waiting) :
    ticket.receive.receiveObject ≠ object := by
  intro there
  have inside := (indexed.mem object sequence).mpr ⟨ticket, found, waits, there⟩
  unfold first at none
  cases list : queue.waiting.bucket object with
  | nil =>
    rw [list] at inside
    contradiction
  | cons head rest =>
    rw [list] at none
    have member : head ∈ queue.waiting.bucket object := by
      rw [list]
      exact List.mem_cons_self
    obtain ⟨there, found, _⟩ := (indexed.mem object head).mp member
    have nothing : queue.find head = Option.none := none
    rw [nothing] at found
    contradiction

end MachReceiveWaitQueue
end ILEmu
