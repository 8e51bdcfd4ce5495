import ILEmu.Foundation.Run
import ILEmu.Mach.ReceiveSteps

/-! Runs of posts, receives and what happens to ports and sets between them: where the
messages are, how they are numbered, and who gets them. -/
namespace ILEmu
open Foundation
namespace MachReceivers
variable {Content : Type} {state : MachReceivers Content} {longContext : Bool}
  {port : PortObjectId} {task : Nat} {message : MachMessage (MachPayload Content)}

def reached (longContext : Bool) (operations : List (MachReceiveOperation Content)) :
    MachReceivers Content :=
  run (fun state => state.after longContext) {} operations

/-- There is a number left for a link or a wait, and one more. -/
def Numberable (state : MachReceivers Content) (_ : MachReceiveOperation Content) : Prop :=
  state.ports.nextWaitQueueSequence < 2 ^ 64 - 1

theorem reached_kept (longContext : Bool) (operations : List (MachReceiveOperation Content)) :
    (reached longContext operations).Kept none := by
  have preserves : ∀ (state : MachReceivers Content) operation, state.Kept none →
      (state.after longContext operation).Kept none :=
    fun _ operation kept => kept.after operation
  exact run_invariant preserves kept_empty operations

theorem reached_standing {operations : List (MachReceiveOperation Content)}
    (numberable : Along (fun state => state.after longContext) Numberable {} operations) :
    (reached longContext operations).Standing := by
  have preserves : ∀ (state : MachReceivers Content) operation, state.Kept none →
      (state.after longContext operation).Kept none :=
    fun _ operation kept => kept.after operation
  have step : ∀ (state : MachReceivers Content) operation, state.Kept none → state.Standing →
      Numberable state operation → (state.after longContext operation).Standing :=
    fun _ operation kept standing room => standing.after kept.indexed room operation
  exact Along.keeps preserves step kept_empty standing_empty numberable

/-- The receiver that is preferred is the usable one with the least key, if there is one. -/
inductive Preference (state : MachReceivers Content) (port : PortObjectId) (task : Nat) :
    Option Nat → Prop where
  | nobody (free : ∀ key ticket, ¬ state.Usable port key ticket) : Preference state port task none
  | chosen {key : ℕ ×ₗ ℕ} {ticket : MachReceiveTicket Content}
      (usable : state.Usable port key ticket) (owner : ticket.task = task)
      (least : ∀ key' other, state.Usable port key' other → key ≤ key') :
      Preference state port task (some ticket.receive.processor)

theorem Standing.preference (standing : state.Standing) {object : MachReceivePort}
    (found : state.objects.lookup port = some object) (receiver : object.receiver = some task) :
    state.Preference port task (state.preferred task port) := by
  cases preferred : state.preferred task port with
  | none =>
    apply Preference.nobody
    intro key ticket
    exact preferred_none standing.owned standing.paired found receiver preferred
  | some processor =>
    obtain ⟨key, ticket, usable, owner, rfl, least⟩ :=
      preferred_least standing.owned standing.paired found receiver preferred
    exact .chosen usable owner least

theorem Attached.same {key : ℕ ×ₗ ℕ} {ticket other : MachReceiveTicket Content}
    (first : state.Attached port key ticket) (second : state.Attached port key other) :
    ticket = other := by
  obtain ⟨found, _, number⟩ := first.found
  obtain ⟨found', _, number'⟩ := second.found
  rw [← number] at found
  rw [← number', found] at found'
  exact Option.some.inj found'

theorem Usable.accepted {key : ℕ ×ₗ ℕ} {ticket : MachReceiveTicket Content}
    (usable : state.Usable port key ticket) (timely : state.expired ticket.receive = false)
    (fits : tooLarge longContext ticket.receive message = false) :
    state.refusal longContext ticket message = none := by
  unfold refusal
  rw [usable.good, timely, fits]
  rfl

/-- A preferred receiver that has not run out of time or room is the one that is chosen. -/
theorem Choice.preferred {processor : Nat}
    (preference : state.Preference port task (some processor))
    {result : MachReceivers Content × Bool} (choice : Choice longContext state port message result) :
    ∃ ticket, state.waiters.find ticket.receive.waitQueueSequence = some ticket ∧
      ticket.task = task ∧ ticket.receive.processor = processor ∧
      (state.expired ticket.receive = false → tooLarge longContext ticket.receive message = false →
        result.2 = true ∧ result.1.waiters.find ticket.receive.waitQueueSequence = some
          { ticket with
            state := .messageReady
            messageSize := message.body.byteSize % 2 ^ 32
            destination := port
            sequenceNumber := state.sequenceNumber port
            message := some message }) := by
  cases preference with
  | @chosen key ticket usable owner least =>
    refine ⟨ticket, usable.attached.found.1, owner, rfl, fun timely fits => ?_⟩
    have accepted := usable.accepted timely fits
    cases choice with
    | nobody none => exact absurd accepted (none key ticket usable.attached)
    | @chosen after key' other attached accepted' least' given =>
      have below := least key' other ⟨attached, usable_of_accepted accepted'⟩
      have above := least' key ticket usable.attached accepted
      obtain rfl := le_antisymm below above
      obtain rfl := attached.same usable.attached
      exact ⟨rfl, given⟩

section limits

def plainCall (object : PortObjectId) (timeout : Option Nat) : MachReceiveCall :=
  { object, timeout, receiveSize := 1024, large := false, trailerElements := 0 }

def plainMessage : MachMessage (MachPayload Unit) :=
  { body := { content := (), byteSize := 24 }, overrideTier := 0 }

/-- A message is sent to the first port and received at once. -/
def servedOnce : List (MachReceiveOperation Unit) :=
  [.enqueue (.message 1 plainMessage []), .receive 0 0 (plainCall 1 (some 0)) [] []]

/-- The first port joins a set and leaves it. -/
def joinedOnce : List (MachReceiveOperation Unit) := [.insertMember 2 1, .extractMember 2 1]

def rounds (once : List (MachReceiveOperation Unit)) : Nat → List (MachReceiveOperation Unit)
  | 0 => []
  | n + 1 => rounds once n ++ once

def served (next sequenceNumber : Nat) (history : MachHistory Unit) : MachReceivers Unit :=
  { ports := { queues := AList.insert 1 [] ∅, nextWaitQueueSequence := next }
    objects := AList.insert 1 { receiver := some 0, sequenceNumber } ∅
    history := AList.insert 1 history ∅ }

def joined (next : Nat) : MachReceivers Unit :=
  { ports := { sets := AList.insert 2 [] ∅, nextWaitQueueSequence := next }
    objects := AList.insert 1 { receiver := some 0 } ∅
    setOwners := AList.insert 2 0 ∅
    history := AList.insert 1 {} ∅ }

theorem reached_append (first second : List (MachReceiveOperation Unit)) :
    reached false (first ++ second) =
      run (fun state => MachReceivers.after state false) (reached false first) second :=
  run_append _ _ _

/-- Each round takes one more message from the port. -/
theorem reached_served (n : Nat) : ∃ next sequenceNumber history,
    reached false (.createPort 1 0 :: servedOnce ++ rounds servedOnce n) =
      served next sequenceNumber history ∧
    history.taken.length = n + 1 ∧ history.since = 0 ∧
    ∀ selection ∈ history.taken, selection.receive.isSome = true := by
  induction n with
  | zero =>
    refine ⟨2, 1, ⟨[plainMessage.body], [⟨plainMessage.body, some 1, 0⟩], 0⟩, rfl, rfl, rfl, ?_⟩
    intro selection member
    rw [List.mem_singleton.mp member]
    rfl
  | succ n ih =>
    obtain ⟨next, number, history, here, length, since, received⟩ := ih
    let numbers := MachPortSets.allocateWaitQueueSequence next
    let selection : MachSelection Unit := ⟨plainMessage.body, some numbers.2, number⟩
    refine ⟨numbers.1, (number + 1) % 2 ^ 32, { history with
      posted := history.posted ++ [plainMessage.body], taken := history.taken ++ [selection] },
      ?_, ?_, since, ?_⟩
    · unfold rounds
      rw [← List.append_assoc, reached_append, here]
      rfl
    · rw [List.length_append, length]
      rfl
    · intro other member
      rcases List.mem_append.mp member with before | new
      · exact received other before
      · rw [List.mem_singleton.mp new]
        rfl

/-- Each round uses up one more number. -/
theorem reached_joined (n : Nat) (room : n + 1 < 2 ^ 64) :
    reached false ([.createPort 1 0, .createSet 2 0] ++ rounds joinedOnce n) = joined (n + 1) := by
  induction n with
  | zero => rfl
  | succ n ih =>
    have turned : run (fun state => MachReceivers.after state false) (joined (n + 1)) joinedOnce =
        joined (MachPortSets.allocateWaitQueueSequence (n + 1)).1 := rfl
    unfold rounds
    rw [← List.append_assoc, reached_append, ih (Nat.lt_of_succ_lt room), turned]
    unfold MachPortSets.allocateWaitQueueSequence
    rw [if_neg (Nat.succ_ne_zero n), Nat.mod_eq_of_lt room]

/-- The port and the receiver that waits on its set, when the link has the last number. -/
def hidden : MachReceivers Unit :=
  ((joined (2 ^ 64 - 1)).after false (.insertMember 2 1)).after false
    (.receive 0 0 (plainCall 2 none) [] [])

theorem reached_hidden : ∃ operations, reached false operations = hidden := by
  refine ⟨[.createPort 1 0, .createSet 2 0] ++ rounds joinedOnce (2 ^ 64 - 2) ++
    [.insertMember 2 1, .receive 0 0 (plainCall 2 none) [] []], ?_⟩
  rw [reached_append, reached_joined (2 ^ 64 - 2) (by omega)]
  rfl

end limits

end MachReceivers
end ILEmu
