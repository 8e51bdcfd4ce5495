import ILEmu.Mach.SendTurns

/-! Every order in which senders wait, are granted slots, are interrupted, and leave. -/
namespace ILEmu
open Foundation
variable {Message : Type} {object : PortObjectId}

namespace MachSendWaitQueue
variable {waiters : MachSendWaitQueue Message}

theorem enter_older {ticket new : SendTicket Message} {handle : SendHandle}
    (found : waiters.made[handle]? = some ticket) :
    (waiters.enter new).made[handle]? = waiters.made[handle]? :=
  List.getElem?_append_left (List.getElem?_eq_some_iff.mp found).1

theorem enter_newest (new : SendTicket Message) :
    (waiters.enter new).made[waiters.made.length]? = some new := by
  simp [enter]

theorem enter_lookup (new : SendTicket Message) (object : PortObjectId) :
    (waiters.enter new).queues.lookup object =
      if object = new.destination then
        some { (waiters.queues.lookup object).getD {} with
          tickets := ((waiters.queues.lookup object).getD {}).tickets ++ [waiters.made.length] }
      else waiters.queues.lookup object := by
  unfold enter
  dsimp only
  rw [Table.lookup_insert_eq]
  split
  · subst object
    rfl
  · rfl

theorem enter_linked {new : SendTicket Message} {handle : SendHandle}
    (linked : (waiters.enter new).Linked handle) :
    waiters.Linked handle ∨ handle = waiters.made.length := by
  obtain ⟨object, queue, stored, member⟩ := linked
  rw [enter_lookup] at stored
  split at stored
  · cases stored
    rcases List.mem_append.mp member with before | here
    · cases found : waiters.queues.lookup object with
      | none => simp [found] at before
      | some queue =>
        rw [found] at before
        exact .inl ⟨object, queue, found, before⟩
    · exact .inr (List.mem_singleton.mp here)
  · exact .inl ⟨object, queue, stored, member⟩

theorem linked_enter {new : SendTicket Message} {handle : SendHandle}
    (linked : waiters.Linked handle) : (waiters.enter new).Linked handle := by
  obtain ⟨object, queue, stored, member⟩ := linked
  by_cases same : object = new.destination
  · refine ⟨object, _, (enter_lookup new object).trans (if_pos same), ?_⟩
    rw [stored]
    exact List.mem_append_left _ member
  · refine ⟨object, queue, ?_, member⟩
    rw [enter_lookup, if_neg same, stored]

theorem enter_kept (new : SendTicket Message) : Kept waiters.made (waiters.enter new).made :=
  fun _ ticket found => ⟨ticket.state, (enter_older found).trans found, .inl rfl⟩

theorem enter_anchored {new : SendTicket Message} (waiting : new.state = .waiting)
    {owed : SendHandle → Prop} (anchored : waiters.Anchored owed) :
    (waiters.enter new).Anchored owed := by
  intro handle wanted slotted
  cases found : waiters.made[handle]? with
  | none =>
    have late := List.getElem?_eq_none_iff.mp found
    by_cases last : handle = waiters.made.length
    · subst last
      simp [hasSlot, enter_newest, waiting] at slotted
    · have missing : (waiters.enter new).made[handle]? = none := by
        apply List.getElem?_eq_none
        simp only [enter, List.length_append, List.length_singleton]
        exact Nat.lt_of_le_of_ne late (Ne.symm last)
      simp [hasSlot, missing] at slotted
  | some ticket =>
    rw [hasSlot_congr (enter_older found)] at slotted
    exact linked_enter (anchored handle wanted slotted)

theorem enter_sound {new : SendTicket Message} (waiting : new.state = .waiting)
    (sound : waiters.Sound) : (waiters.enter new).Sound := by
  intro object queue stored
  have older : ∀ queue, waiters.queues.lookup object = some queue → ∀ handle ∈ queue.tickets,
      (waiters.enter new).made[handle]? = waiters.made[handle]? := by
    intro queue found handle member
    obtain ⟨ticket, here, _⟩ := (sound object queue found).bound handle member
    exact enter_older here
  rw [enter_lookup] at stored
  split at stored
  · rename_i aimed
    cases stored
    have slotless : hasSlot (waiters.enter new).made waiters.made.length = false := by
      simp [hasSlot, enter_newest, waiting]
    have last : ∃ ticket, (waiters.enter new).made[waiters.made.length]? = some ticket ∧
        ticket.destination = object := ⟨new, enter_newest new, aimed.symm⟩
    cases found : waiters.queues.lookup object with
    | none =>
      refine ⟨by simp, by simp, ?_, ?_⟩
      · intro handle member
        obtain rfl := List.mem_singleton.mp member
        exact last
      · simp [slotless]
    | some queue =>
      have whole := sound object queue found
      have framed := whole.frame (older queue found)
      simp only [Option.getD_some]
      refine ⟨by simp, ?_, ?_, ?_⟩
      · apply List.pairwise_append.mpr
        refine ⟨whole.ordered, List.pairwise_singleton _ _, ?_⟩
        intro handle member other here
        obtain rfl := List.mem_singleton.mp here
        obtain ⟨ticket, stored, _⟩ := whole.bound handle member
        exact (List.getElem?_eq_some_iff.mp stored).1
      · intro handle member
        rcases List.mem_append.mp member with before | here
        · exact framed.bound handle before
        · obtain rfl := List.mem_singleton.mp here
          exact last
      · rw [List.countP_append, ← framed.counted]
        simp [slotless]
  · have whole := sound object queue stored
    exact whole.frame (older queue stored)

end MachSendWaitQueue

namespace MachSenders
open MachSendWaitQueue
variable {senders : MachSenders Message} {handle : SendHandle}

/-- Every queued ticket is owed its answer, and a ticket that is owed one has a slot only
while it is queued. -/
structure Sound (senders : MachSenders Message) : Prop where
  waiters : senders.waiters.Sound
  owed : ∀ handle, senders.waiters.Linked handle → handle ∈ senders.pending
  issued : ∀ handle ∈ senders.pending, ∃ ticket, senders.waiters.made[handle]? = some ticket
  anchored : senders.waiters.Anchored (· ∈ senders.pending)

theorem sound_empty : Sound ({} : MachSenders Message) where
  waiters := fun _ _ stored => nomatch stored
  owed := fun _ ⟨_, _, stored, _⟩ => nomatch stored
  issued := nofun
  anchored := nofun

/-- The same tickets are owed an answer after a change of the queues. -/
theorem Sound.advance (sound : senders.Sound) {waiters' : MachSendWaitQueue Message}
    (sound' : waiters'.Sound) (advances : Advances senders.waiters waiters')
    (anchored : waiters'.Anchored (· ∈ senders.pending)) :
    Sound { senders with waiters := waiters' } where
  waiters := sound'
  owed := fun handle here => sound.owed handle (advances.linked handle here)
  issued := by
    intro handle member
    obtain ⟨ticket, found⟩ := sound.issued handle member
    obtain ⟨state, found', _⟩ := advances.kept handle ticket found
    exact ⟨_, found'⟩
  anchored := anchored

/-- What every operation does to the tickets that were there before it. -/
structure Progress (senders senders' : MachSenders Message) : Prop where
  kept : Kept senders.waiters.made senders'.waiters.made
  linked : ∀ handle, (∃ ticket, senders.waiters.made[handle]? = some ticket) →
    senders'.waiters.Linked handle → senders.waiters.Linked handle
  answered : ∀ handle, (∃ ticket, senders.waiters.made[handle]? = some ticket) →
    handle ∈ senders'.pending → handle ∈ senders.pending

theorem Progress.advance {waiters' : MachSendWaitQueue Message}
    (advances : Advances senders.waiters waiters') :
    Progress senders { senders with waiters := waiters' } :=
  ⟨advances.kept, fun handle _ => advances.linked handle, fun _ _ member => member⟩

theorem perform_yields (sound : senders.Sound) (operation : SendOperation Message) :
    Yields (senders.perform operation) fun senders' =>
      senders'.Sound ∧ Progress senders senders' := by
  cases operation with
  | wait message task processor destination deadline =>
    apply Yields.ok
    refine ⟨⟨enter_sound rfl sound.waiters, ?_, ?_, ?_⟩, ⟨enter_kept _, ?_, ?_⟩⟩
    · intro handle linked
      rcases enter_linked linked with before | rfl
      · exact List.mem_cons_of_mem _ (sound.owed handle before)
      · exact List.mem_cons_self
    · intro handle member
      rcases List.mem_cons.mp member with rfl | before
      · exact ⟨_, enter_newest _⟩
      · obtain ⟨ticket, found⟩ := sound.issued handle before
        exact ⟨ticket, (enter_older found).trans found⟩
    · apply enter_anchored rfl
      intro handle member slotted
      rcases List.mem_cons.mp member with rfl | before
      · simp [hasSlot] at slotted
      · exact sound.anchored handle before slotted
    · rintro handle ⟨ticket, found⟩ linked
      have early := (List.getElem?_eq_some_iff.mp found).1
      exact (enter_linked linked).resolve_right (Nat.ne_of_lt early)
    · rintro handle ⟨ticket, found⟩ member
      have early := (List.getElem?_eq_some_iff.mp found).1
      exact (List.mem_cons.mp member).resolve_left (Nat.ne_of_lt early)
  | grant object count now =>
    have granted := grant_granted sound.waiters object count now
    exact Yields.ok ⟨sound.advance granted.sound granted.advances
      (granted.anchored _ sound.anchored), Progress.advance granted.advances⟩
  | interrupt handle now =>
    obtain ⟨sound', advances, anchored⟩ := interrupt_spec sound.waiters handle now
    apply Yields.ite
    · intro _
      exact Yields.ok ⟨sound.advance sound' advances (anchored _ sound.anchored),
        Progress.advance advances⟩
    · intro _
      exact Yields.ok ⟨sound, Progress.advance (Advances.refl _)⟩
  | retire handle =>
    apply Yields.ite
    · intro member
      obtain ⟨ticket, found⟩ := sound.issued handle member
      apply (retire_yields sound.waiters found sound.anchored member).bind
      rintro waiters' ⟨sound', advances, gone, anchored⟩
      apply Yields.ok
      refine ⟨⟨sound', ?_, ?_, ?_⟩, ⟨advances.kept, fun other _ => advances.linked other, ?_⟩⟩
      · intro other linked
        apply List.mem_filter.mpr
        refine ⟨sound.owed other (advances.linked other linked), decide_eq_true ?_⟩
        rintro rfl
        exact gone linked
      · intro other member'
        obtain ⟨ticket', found'⟩ := sound.issued other (List.mem_filter.mp member').1
        obtain ⟨state, later, _⟩ := advances.kept other ticket' found'
        exact ⟨_, later⟩
      · intro other member' slotted
        obtain ⟨before, away⟩ := List.mem_filter.mp member'
        exact anchored other ⟨before, of_decide_eq_true away⟩ slotted
      · intro other _ member'
        exact (List.mem_filter.mp member').1
    · intro _
      exact Yields.ok ⟨sound, Progress.advance (Advances.refl _)⟩
  | destroy object now =>
    obtain ⟨sound', advances, anchored⟩ := destroy_spec sound.waiters object now
    exact Yields.ok ⟨sound.advance sound' advances (anchored _ sound.anchored),
      Progress.advance advances⟩
  | cancel task processor =>
    apply (cancel_yields sound.waiters sound.anchored task processor).bind
    rintro ⟨waiters', cancelled⟩ ⟨sound', advances, anchored⟩
    exact Yields.ok ⟨sound.advance sound' advances anchored, Progress.advance advances⟩

theorem after_yields (sound : senders.Sound) (operation : SendOperation Message) :
    (senders.after operation).Sound ∧ Progress senders (senders.after operation) := by
  obtain ⟨senders', performed, sound', progress⟩ := perform_yields sound operation
  unfold after
  rw [performed]
  exact ⟨sound', progress⟩

theorem after_sound (senders : MachSenders Message) (operation : SendOperation Message)
    (sound : senders.Sound) : (senders.after operation).Sound :=
  (after_yields sound operation).1

theorem run_sound (operations : List (SendOperation Message)) :
    (run after {} operations).Sound :=
  run_invariant after_sound sound_empty operations

def waits (handle : SendHandle) (senders : MachSenders Message) : Bool :=
  senders.waiters.stateOf handle = some .waiting

/-- Whether a queue counts a slot for the ticket among those it has reserved. -/
def reserves (handle : SendHandle) (senders : MachSenders Message) : Bool :=
  senders.waiters.made[handle]?.any fun ticket => ticket.state = .granted &&
    (senders.waiters.queues.lookup ticket.destination).any fun queue => handle ∈ queue.tickets

theorem reserves_iff (sound : senders.Sound) (handle : SendHandle) :
    reserves handle senders = true ↔
      hasSlot senders.waiters.made handle = true ∧ senders.waiters.Linked handle := by
  cases found : senders.waiters.made[handle]? with
  | none => simp [reserves, hasSlot, found]
  | some ticket =>
    simp only [reserves, hasSlot, found, Option.any_some, Bool.and_eq_true]
    apply and_congr_right
    intro _
    constructor
    · intro queued
      obtain ⟨queue, stored, member⟩ := Option.any_eq_true _ _ |>.mp queued
      exact ⟨ticket.destination, queue, stored, of_decide_eq_true member⟩
    · rintro ⟨object, queue, stored, member⟩
      obtain ⟨ticket', here, aimed⟩ := (sound.waiters object queue stored).bound handle member
      cases found.symm.trans here
      rw [aimed, stored]
      exact decide_eq_true member

/-- A ticket that has left the waiting state. -/
def Answered (handle : SendHandle) (senders : MachSenders Message) : Prop :=
  ∃ ticket, senders.waiters.made[handle]? = some ticket ∧ ticket.state ≠ .waiting

theorem Answered.stays {handle : SendHandle} {senders' : MachSenders Message}
    (answered : Answered handle senders) (progress : Progress senders senders') :
    Answered handle senders' := by
  obtain ⟨ticket, found, moved⟩ := answered
  obtain ⟨state, found', moves⟩ := progress.kept handle ticket found
  refine ⟨_, found', ?_⟩
  rcases moves with same | waiting | settled
  · exact fun back => moved (same.symm.trans back)
  · exact absurd waiting moved
  · exact settled.1

theorem waits_once (handle : SendHandle) (operations : List (SendOperation Message)) :
    drops after (waits handle) {} operations ≤ 1 := by
  have stays : ∀ (senders : MachSenders Message) operation, senders.Sound →
      Answered handle senders → Answered handle (senders.after operation) :=
    fun _ operation sound answered => answered.stays (after_yields sound operation).2
  apply drops_le_one after_sound stays ?_ ?_ sound_empty
  · rintro senders ⟨ticket, found, moved⟩
    simp [waits, stateOf, found, moved]
  · intro senders operation sound waiting left
    have flagged := of_decide_eq_true waiting
    obtain ⟨ticket, found, _⟩ := Option.map_eq_some_iff.mp flagged
    obtain ⟨state, found', _⟩ := (after_yields sound operation).2.kept handle ticket found
    refine ⟨_, found', ?_⟩
    have gone := of_decide_eq_false left
    intro back
    apply gone
    rw [stateOf, found', Option.map_some, back]

/-- A ticket whose slot has been given back, or that never will have one. -/
def Spent (handle : SendHandle) (senders : MachSenders Message) : Prop :=
  Answered handle senders ∧
    (hasSlot senders.waiters.made handle = true → ¬ senders.waiters.Linked handle)

theorem hasSlot_iff {senders : MachSenders Message} {handle : SendHandle} :
    hasSlot senders.waiters.made handle = true ↔
      ∃ ticket, senders.waiters.made[handle]? = some ticket ∧ ticket.state = .granted := by
  simp [hasSlot, Option.any_eq_true]

theorem Spent.stays {handle : SendHandle} {senders' : MachSenders Message}
    (spent : Spent handle senders) (progress : Progress senders senders') :
    Spent handle senders' := by
  obtain ⟨answered, parted⟩ := spent
  refine ⟨answered.stays progress, ?_⟩
  intro slotted linked
  obtain ⟨ticket, found, moved⟩ := answered
  have before := progress.linked handle ⟨ticket, found⟩ linked
  obtain ⟨state, found', moves⟩ := progress.kept handle ticket found
  obtain ⟨ticket', here, granted⟩ := hasSlot_iff.mp slotted
  cases found'.symm.trans here
  rcases moves with same | waiting | settled
  · exact parted (hasSlot_iff.mpr ⟨ticket, found, same.symm.trans granted⟩) before
  · exact moved waiting
  · exact settled.2 granted

theorem reserves_once (handle : SendHandle) (operations : List (SendOperation Message)) :
    drops after (reserves handle) {} operations ≤ 1 := by
  have stays : ∀ (senders : MachSenders Message) operation, senders.Sound →
      Spent handle senders ∧ senders.Sound →
        Spent handle (senders.after operation) ∧ (senders.after operation).Sound := by
    rintro senders operation sound ⟨spent, _⟩
    obtain ⟨sound', progress⟩ := after_yields sound operation
    exact ⟨spent.stays progress, sound'⟩
  apply drops_le_one after_sound stays ?_ ?_ sound_empty
  · rintro senders ⟨spent, sound⟩
    apply Bool.eq_false_iff.mpr
    intro reserved
    obtain ⟨slotted, linked⟩ := (reserves_iff sound handle).mp reserved
    exact spent.2 slotted linked
  · intro senders operation sound reserved lost
    obtain ⟨sound', progress⟩ := after_yields sound operation
    obtain ⟨slotted, linked⟩ := (reserves_iff sound handle).mp reserved
    obtain ⟨ticket, found, granted⟩ := hasSlot_iff.mp slotted
    have answered : Answered handle senders := by
      refine ⟨ticket, found, ?_⟩
      rw [granted]
      exact nofun
    refine ⟨⟨answered.stays progress, ?_⟩, sound'⟩
    intro slotted' linked'
    exact Bool.eq_false_iff.mp lost ((reserves_iff sound' handle).mpr ⟨slotted', linked'⟩)

/-- Neither of the two callers of `grant` brings a queue above its limit. -/
theorem noteDequeued_within {waiters : MachSendWaitQueue Message} (sound : waiters.Sound)
    (port : PortObject) (depth : Nat) (object : PortObjectId) (now : Nat) :
    (waiters.noteDequeued (some port) depth object now).messageCount depth object ≤
      max port.queueLimit (waiters.messageCount depth object) := by
  unfold noteDequeued
  split
  · exact Nat.le_max_right _ _
  · dsimp only
    split
    · rename_i below
      have bounded := (grant_granted sound object 1 now).bounded
      unfold messageCount at below ⊢
      omega
    · exact Nat.le_max_right _ _

theorem discarded_within {waiters : MachSendWaitQueue Message} (sound : waiters.Sound)
    (port : PortObject) (removing : Bool) (depth : Nat) (object : PortObjectId) (now : Nat) :
    (waiters.discarded (some port) removing depth object now).messageCount depth object ≤
      max port.queueLimit (waiters.messageCount depth object) := by
  unfold discarded
  dsimp only
  split
  · exact Nat.le_max_right _ _
  · split
    · rename_i below
      have bounded := (grant_granted sound object
        (port.queueLimit - waiters.messageCount depth object) now).bounded
      unfold messageCount at below bounded ⊢
      omega
    · exact Nat.le_max_right _ _

/-- In every state of every run: a queue reserves one slot for each of its tickets that was
granted one, and no count of slots falls below zero; a grant goes to the first waiting tickets
whose deadlines have not come, in their order of arrival; a ticket stops waiting once; its slot
is given back once, and has been when its sender is done with it; and the grants made below the
limit of a queue keep it within the limit. -/
theorem run_slots (operations : List (SendOperation Message)) :
    (∀ object queue, (run after {} operations).waiters.queues.lookup object = some queue →
      queue.reserved = queue.tickets.countP (hasSlot (run after {} operations).waiters.made) ∧
      queue.tickets.Pairwise (· < ·)) ∧
    (∀ operation fault, (run after {} operations).perform operation ≠ .error fault) ∧
    (∀ object count now, Granted (run after {} operations).waiters
      ((run after {} operations).waiters.grant object count now).1 object count now) ∧
    (∀ handle, drops after (waits handle) {} operations ≤ 1) ∧
    (∀ handle, drops after (reserves handle) {} operations ≤ 1 ∧
      drops after (fun senders => !reserves handle senders) {} operations =
        drops after (reserves handle) {} operations +
          (reserves handle (run after {} operations)).toNat ∧
      (handle ∉ (run after {} operations).pending →
        reserves handle (run after {} operations) = false)) ∧
    (∀ port depth object now,
      ((run after {} operations).waiters.noteDequeued (some port) depth object now).messageCount
          depth object ≤
        max port.queueLimit ((run after {} operations).waiters.messageCount depth object)) ∧
    (∀ port removing depth object now,
      ((run after {} operations).waiters.discarded (some port) removing depth object
          now).messageCount depth object ≤
        max port.queueLimit ((run after {} operations).waiters.messageCount depth object)) := by
  have sound := run_sound operations
  refine ⟨?_, ?_, ?_, ?_, ?_, ?_, ?_⟩
  · intro object queue stored
    have whole := sound.waiters object queue stored
    exact ⟨whole.counted, whole.ordered⟩
  · intro operation fault
    exact (perform_yields sound operation).ne_error fault
  · exact grant_granted sound.waiters
  · exact fun handle => waits_once handle operations
  · intro handle
    refine ⟨reserves_once handle operations, ?_, ?_⟩
    · have balance := rises_eq_drops after (reserves handle) {} operations
      have fresh : reserves handle ({} : MachSenders Message) = false := rfl
      rw [fresh] at balance
      exact balance
    · intro done
      apply Bool.eq_false_iff.mpr
      intro reserved
      exact done (sound.owed handle ((reserves_iff sound handle).mp reserved).2)
  · exact noteDequeued_within sound.waiters
  · exact discarded_within sound.waiters

end MachSenders
end ILEmu
