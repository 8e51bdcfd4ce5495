import ILEmu.Mach.SendSlots

/-! Runs of waiting senders: every queue counts the slots it has reserved, tickets get
their slots in the order of arrival, and each slot is given back once. -/
namespace ILEmu
open Foundation
variable {Message : Type} {made made' : List (SendTicket Message)} {object : PortObjectId}
  {queue queue' : SendQueue} {handle : SendHandle}

/-- A queue in the order of arrival, whose tickets are all for its object. -/
structure SendQueue.Sound (made : List (SendTicket Message)) (object : PortObjectId)
    (queue : SendQueue) : Prop where
  busy : queue.tickets ≠ []
  ordered : queue.tickets.Pairwise (· < ·)
  bound : ∀ handle ∈ queue.tickets, ∃ ticket, made[handle]? = some ticket ∧
    ticket.destination = object
  counted : queue.reserved = queue.tickets.countP (hasSlot made)

theorem SendQueue.Sound.nodup (sound : queue.Sound made object) : queue.tickets.Nodup :=
  sound.ordered.imp fun below => Nat.ne_of_lt below

/-- A queue is untouched by what happens to the tickets of other objects. -/
theorem SendQueue.Sound.frame (sound : queue.Sound made object)
    (same : ∀ handle ∈ queue.tickets, made'[handle]? = made[handle]?) :
    queue.Sound made' object where
  busy := sound.busy
  ordered := sound.ordered
  bound := by
    intro handle member
    rw [same handle member]
    exact sound.bound handle member
  counted := sound.counted.trans (countP_hasSlot_congr same).symm

theorem SendQueue.Sound.keep (sound : queue.Sound made object) (kept : Kept made made')
    (sub : queue'.tickets.Sublist queue.tickets) (busy : queue'.tickets ≠ [])
    (counted : queue'.reserved = queue'.tickets.countP (hasSlot made')) :
    queue'.Sound made' object where
  busy := busy
  ordered := sound.ordered.sublist sub
  bound := by
    intro handle member
    obtain ⟨ticket, found, aimed⟩ := sound.bound handle (sub.subset member)
    obtain ⟨state, found', _⟩ := kept handle ticket found
    exact ⟨_, found', aimed⟩
  counted := counted

namespace MachSendWaitQueue
variable {waiters waiters' waiters'' : MachSendWaitQueue Message}

def Linked (waiters : MachSendWaitQueue Message) (handle : SendHandle) : Prop :=
  ∃ object queue, waiters.queues.lookup object = some queue ∧ handle ∈ queue.tickets

def Sound (waiters : MachSendWaitQueue Message) : Prop :=
  ∀ object queue, waiters.queues.lookup object = some queue → queue.Sound waiters.made object

/-- A ticket keeps what it was made with, and none comes to a queue. -/
structure Advances (waiters waiters' : MachSendWaitQueue Message) : Prop where
  kept : Kept waiters.made waiters'.made
  linked : ∀ handle, waiters'.Linked handle → waiters.Linked handle

theorem Advances.refl (waiters : MachSendWaitQueue Message) : Advances waiters waiters :=
  ⟨Kept.refl _, fun _ linked => linked⟩

theorem Advances.trans (first : Advances waiters waiters') (second : Advances waiters' waiters'') :
    Advances waiters waiters'' where
  kept := first.kept.trans second.kept
  linked := fun handle here => first.linked handle (second.linked handle here)

/-- The tickets that are still owed an answer have slots only in their queues. -/
def Anchored (owed : SendHandle → Prop) (waiters : MachSendWaitQueue Message) : Prop :=
  ∀ handle, owed handle → hasSlot waiters.made handle = true → waiters.Linked handle

theorem putBack_lookup (waiters : MachSendWaitQueue Message) (object other : PortObjectId)
    (queue : SendQueue) : (waiters.putBack object queue).queues.lookup other =
      if other = object then if queue.tickets = [] then none else some queue
      else waiters.queues.lookup other := by
  unfold putBack
  by_cases gone : queue.tickets = []
  · simp only [if_pos gone]
    exact Table.lookup_erase_eq _ _ _
  · simp only [if_neg gone]
    exact Table.lookup_insert_eq _ _ _ _

theorem putBack_made (waiters : MachSendWaitQueue Message) (object : PortObjectId)
    (queue : SendQueue) : (waiters.putBack object queue).made = waiters.made := by
  unfold putBack
  split <;> rfl

theorem putBack_busy (waiters : MachSendWaitQueue Message) (object : PortObjectId)
    (busy : queue.tickets ≠ []) :
    waiters.putBack object queue =
      { waiters with queues := waiters.queues.insert object queue } :=
  if_neg busy

/-- One queue loses tickets or changes their states, the others are untouched. -/
theorem Sound.replace (sound : waiters.Sound) (queue' : SendQueue)
    (found : waiters.queues.lookup object = some queue)
    (kept : Kept waiters.made made')
    (others : ∀ handle, handle ∉ queue.tickets → made'[handle]? = waiters.made[handle]?)
    (sub : queue'.tickets.Sublist queue.tickets)
    (counted : queue'.reserved = queue'.tickets.countP (hasSlot made')) :
    Sound ({ waiters with made := made' }.putBack object queue') ∧
      Advances waiters ({ waiters with made := made' }.putBack object queue') := by
  have whole := sound object queue found
  constructor
  · intro other stored found'
    rw [putBack_made]
    rw [putBack_lookup] at found'
    by_cases same : other = object
    · subst other
      rw [if_pos rfl] at found'
      by_cases gone : queue'.tickets = []
      · rw [if_pos gone] at found'
        contradiction
      · rw [if_neg gone] at found'
        cases found'
        exact whole.keep kept sub gone counted
    · rw [if_neg same] at found'
      have elsewhere := sound other stored found'
      apply elsewhere.frame
      intro handle member
      apply others
      intro inside
      obtain ⟨ticket, here, aimed⟩ := whole.bound handle inside
      obtain ⟨ticket', here', aimed'⟩ := elsewhere.bound handle member
      cases here.symm.trans here'
      exact same (aimed'.symm.trans aimed)
  · constructor
    · rw [putBack_made]
      exact kept
    · rintro handle ⟨other, stored, found', member⟩
      rw [putBack_lookup] at found'
      by_cases same : other = object
      · rw [if_pos same] at found'
        by_cases gone : queue'.tickets = []
        · rw [if_pos gone] at found'
          contradiction
        · rw [if_neg gone] at found'
          cases found'
          exact ⟨object, queue, found, sub.subset member⟩
      · rw [if_neg same] at found'
        exact ⟨other, stored, found', member⟩

theorem Anchored.replace {owed : SendHandle → Prop} (anchored : waiters.Anchored owed)
    (found : waiters.queues.lookup object = some queue)
    (others : ∀ handle, handle ∉ queue.tickets → made'[handle]? = waiters.made[handle]?)
    (held : ∀ handle ∈ queue.tickets, owed handle → hasSlot made' handle = true →
      handle ∈ queue'.tickets) :
    ({ waiters with made := made' }.putBack object queue').Anchored owed := by
  intro handle wanted slotted
  rw [putBack_made] at slotted
  by_cases member : handle ∈ queue.tickets
  · have stays := held handle member wanted slotted
    refine ⟨object, queue', ?_, stays⟩
    rw [putBack_lookup, if_pos rfl, if_neg (List.ne_nil_of_mem stays)]
  · rw [hasSlot_congr (others handle member)] at slotted
    obtain ⟨other, stored, found', inside⟩ := anchored handle wanted slotted
    refine ⟨other, stored, ?_, inside⟩
    rw [putBack_lookup, if_neg, found']
    rintro rfl
    cases found.symm.trans found'
    exact member inside

theorem Sound.rewrite (sound : waiters.Sound) (found : waiters.queues.lookup object = some queue)
    (kept : Kept waiters.made made')
    (others : ∀ handle, handle ∉ queue.tickets → made'[handle]? = waiters.made[handle]?)
    {reserved : Nat} (counted : reserved = queue.tickets.countP (hasSlot made')) :
    Sound { made := made', queues := waiters.queues.insert object { queue with reserved } } ∧
      Advances waiters
        { made := made', queues := waiters.queues.insert object { queue with reserved } } ∧
      ∀ owed, waiters.Anchored owed → Anchored owed
        { made := made', queues := waiters.queues.insert object { queue with reserved } } := by
  have busy := (sound object queue found).busy
  let rest : SendQueue := { queue with reserved }
  have busy : rest.tickets ≠ [] := (sound object queue found).busy
  rw [← putBack_busy { waiters with made := made' } object busy]
  obtain ⟨sound', advances⟩ := sound.replace rest found kept others (List.Sublist.refl _) counted
  refine ⟨sound', advances, fun owed anchored => ?_⟩
  exact anchored.replace found others fun handle member _ _ => member

/-- The slots go to the first waiting tickets whose deadlines have not come. -/
structure Granted (waiters waiters' : MachSendWaitQueue Message) (object : PortObjectId)
    (count now : Nat) : Prop where
  sound : waiters'.Sound
  advances : Advances waiters waiters'
  anchored : ∀ owed, waiters.Anchored owed → waiters'.Anchored owed
  inOrder : ∀ queue, waiters.queues.lookup object = some queue →
    queue.tickets.filter
        (fun handle => !hasSlot waiters.made handle && hasSlot waiters'.made handle) =
      (queue.tickets.filter (eligible now waiters.made)).take count
  elsewhere : ∀ handle, (∀ queue, waiters.queues.lookup object = some queue →
    handle ∉ queue.tickets) → waiters'.made[handle]? = waiters.made[handle]?
  bounded : waiters'.reserved object ≤ waiters.reserved object + count

theorem grant_granted (sound : waiters.Sound) (object : PortObjectId) (count now : Nat) :
    Granted waiters (waiters.grant object count now).1 object count now := by
  unfold grant
  cases found : waiters.queues.lookup object with
  | none =>
    refine ⟨sound, Advances.refl waiters, fun _ same => same, ?_, fun _ _ => rfl,
      Nat.le_add_right _ _⟩
    intro queue found'
    cases found.symm.trans found'
  | some queue =>
    have whole := sound object queue found
    have granting := grantLoop_granting now whole.nodup waiters.made count queue.reserved false
    dsimp only
    generalize grantLoop now queue.tickets waiters.made count queue.reserved false = result
      at granting ⊢
    obtain ⟨made', reserved', changed⟩ := result
    obtain ⟨kept, others, counted, granted⟩ := granting
    dsimp only at kept others counted granted ⊢
    have slots : reserved' = queue.tickets.countP (hasSlot made') := by
      rw [whole.counted] at counted
      omega
    obtain ⟨sound', advances, anchored⟩ := sound.rewrite found kept others slots
    refine ⟨sound', advances, anchored, ?_, fun handle outside => ?_, ?_⟩
    · intro queue' found'
      cases found.symm.trans found'
      exact granted
    · exact others handle (outside queue found)
    · have more := countP_hasSlot_le waiters.made made' queue.tickets
      rw [granted] at more
      have few := List.length_take_le count (queue.tickets.filter (eligible now waiters.made))
      have fewer : reserved' ≤ queue.reserved + count := by
        rw [slots, whole.counted]
        omega
      simpa [reserved, found] using fewer

theorem destroy_spec (sound : waiters.Sound) (object : PortObjectId) (now : Nat) :
    (waiters.destroy object now).Sound ∧ Advances waiters (waiters.destroy object now) ∧
      ∀ owed, waiters.Anchored owed → (waiters.destroy object now).Anchored owed := by
  unfold destroy
  cases found : waiters.queues.lookup object with
  | none => exact ⟨sound, Advances.refl waiters, fun _ same => same⟩
  | some queue =>
    have whole := sound object queue found
    obtain ⟨kept, others, freed⟩ := destroyLoop_destroying now queue.tickets waiters.made
    have slots : 0 = queue.tickets.countP
        (hasSlot (destroyLoop now queue.tickets waiters.made)) := by
      symm
      apply List.countP_eq_zero.mpr
      intro handle member
      rw [freed handle member]
      exact Bool.false_ne_true
    exact sound.rewrite found kept others slots

/-- A ticket without its queue has no slot left to give back. -/
theorem retire_yields (sound : waiters.Sound) {ticket : SendTicket Message}
    (found : waiters.made[handle]? = some ticket)
    {owed : SendHandle → Prop} (anchored : waiters.Anchored owed) (wanted : owed handle) :
    Yields (waiters.retire handle) fun waiters' =>
      waiters'.Sound ∧ Advances waiters waiters' ∧ ¬ waiters'.Linked handle ∧
        waiters'.Anchored fun other => owed other ∧ other ≠ handle := by
  have home : ∀ object queue, waiters.queues.lookup object = some queue →
      handle ∈ queue.tickets → ticket.destination = object := by
    intro object queue stored member
    obtain ⟨ticket', found', aimed⟩ := (sound object queue stored).bound handle member
    cases found.symm.trans found'
    exact aimed
  unfold retire
  rw [found]
  dsimp only
  cases stored : waiters.queues.lookup ticket.destination with
  | none =>
    apply Yields.ok
    refine ⟨sound, Advances.refl waiters, ?_, fun other owing => anchored other owing.1⟩
    rintro ⟨object, queue, stored', member⟩
    rw [home object queue stored' member] at stored
    cases stored.symm.trans stored'
  | some queue =>
    have whole := sound _ queue stored
    have split : queue.tickets.countP (hasSlot waiters.made) =
        (queue.tickets.filter (· ≠ handle)).countP (hasSlot waiters.made) +
          (hasSlot waiters.made handle).toNat := by
      by_cases member : handle ∈ queue.tickets
      · exact countP_hasSlot_drop whole.nodup member
      · have slotless : hasSlot waiters.made handle = false := by
          apply Bool.eq_false_iff.mpr
          intro slotted
          obtain ⟨object, queue', stored', inside⟩ := anchored handle wanted slotted
          rw [home object queue' stored' inside, stored'] at stored
          cases stored
          exact member inside
        rw [slotless, List.filter_eq_self.mpr]
        · rfl
        · intro other inside
          apply decide_eq_true
          rintro rfl
          exact member inside
    apply (giveBack_yields found (by rw [whole.counted]; omega)).bind
    intro left fewer
    apply Yields.ok
    have counted : left =
        (queue.tickets.filter (· ≠ handle)).countP (hasSlot waiters.made) := by
      rw [whole.counted] at fewer
      omega
    let rest : SendQueue := { tickets := queue.tickets.filter (· ≠ handle), reserved := left }
    obtain ⟨sound', advances⟩ := sound.replace rest stored (Kept.refl _)
      (fun _ _ => rfl) List.filter_sublist counted
    have spared : waiters.Anchored fun other => owed other ∧ other ≠ handle :=
      fun other owing => anchored other owing.1
    refine ⟨sound', advances, ?_, spared.replace stored (fun _ _ => rfl) ?_⟩
    · rintro ⟨object, queue', stored', member⟩
      obtain ⟨ticket', here, aimed⟩ := (sound' object queue' stored').bound handle member
      rw [putBack_made] at here
      cases here.symm.trans found
      rw [putBack_lookup, if_pos aimed.symm] at stored'
      split at stored'
      · contradiction
      · cases stored'
        have away := (List.mem_filter.mp member).2
        exact of_decide_eq_true away rfl
    · intro other member owing _
      exact List.mem_filter.mpr ⟨member, decide_eq_true owing.2⟩

theorem cancelQueue_yields {task : Nat} {processor : Option Nat} (sound : waiters.Sound)
    {owed : SendHandle → Prop} (anchored : waiters.Anchored owed) (cancelled : List SendHandle)
    (object : PortObjectId) :
    Yields (cancelQueue task processor (waiters, cancelled) object) fun done =>
      done.1.Sound ∧ Advances waiters done.1 ∧ done.1.Anchored owed := by
  unfold cancelQueue
  dsimp only
  cases found : waiters.queues.lookup object with
  | none => exact Yields.ok ⟨sound, Advances.refl waiters, anchored⟩
  | some queue =>
    have whole := sound object queue found
    have present : ∀ handle ∈ queue.tickets, ∃ ticket, waiters.made[handle]? = some ticket := by
      intro handle member
      obtain ⟨ticket, here, _⟩ := whole.bound handle member
      exact ⟨ticket, here⟩
    apply (cancelLoop_cancelled whole.nodup present whole.counted.ge).bind
    rintro result ⟨kept, others, counted, left, freed⟩
    apply Yields.ok
    have slots : result.reserved = result.kept.countP (hasSlot result.made) := by
      rw [whole.counted] at counted
      omega
    have sub : result.kept.Sublist queue.tickets := by
      rw [left]
      exact List.filter_sublist
    obtain ⟨sound', advances⟩ := sound.replace
      { tickets := result.kept, reserved := result.reserved } found kept others sub slots
    refine ⟨sound', advances, anchored.replace found others ?_⟩
    intro handle member _ slotted
    by_contra gone
    rw [freed handle member gone] at slotted
    contradiction

theorem cancel_yields (sound : waiters.Sound) {owed : SendHandle → Prop}
    (anchored : waiters.Anchored owed) (task : Nat) (processor : Option Nat) :
    Yields (waiters.cancel task processor) fun done =>
      done.1.Sound ∧ Advances waiters done.1 ∧ done.1.Anchored owed := by
  apply Yields.foldlM ⟨sound, Advances.refl waiters, anchored⟩
  rintro ⟨current, cancelled⟩ object _ ⟨sound', advances, anchored'⟩
  apply (cancelQueue_yields sound' anchored' cancelled object).mono
  rintro done ⟨sound'', advances', anchored''⟩
  exact ⟨sound'', advances.trans advances', anchored''⟩

theorem interrupt_spec (sound : waiters.Sound) (handle : SendHandle) (now : Nat) :
    (waiters.interrupt handle now).Sound ∧ Advances waiters (waiters.interrupt handle now) ∧
      ∀ owed, waiters.Anchored owed → (waiters.interrupt handle now).Anchored owed := by
  unfold interrupt
  split
  · exact ⟨sound, Advances.refl waiters, fun _ same => same⟩
  · rename_i unready
    have waiting : ∃ ticket, waiters.made[handle]? = some ticket ∧ ticket.state = .waiting := by
      cases found : waiters.made[handle]? with
      | none => simp [found] at unready
      | some ticket =>
        simp [found, SendTicket.ready] at unready
        exact ⟨ticket, rfl, unready.1⟩
    obtain ⟨ticket, found, waiting⟩ := waiting
    have kept : Kept waiters.made (store waiters.made handle .interrupted) :=
      Kept.store found (.inr (.inl waiting))
    have slots : ∀ other, hasSlot (store waiters.made handle .interrupted) other =
        hasSlot waiters.made other := by
      intro other
      by_cases same : handle = other
      · subst other
        rw [hasSlot_store found]
        simp [hasSlot, found, waiting]
      · exact hasSlot_congr (store_other same)
    refine ⟨?_, ⟨kept, fun _ linked => linked⟩, ?_⟩
    · intro object queue stored
      have whole := sound object queue stored
      apply whole.keep kept (List.Sublist.refl _) whole.busy
      exact whole.counted.trans (List.countP_congr fun other _ => by rw [slots])
    · intro owed anchored other wanted slotted
      exact anchored other wanted ((slots other).symm.trans slotted)

end MachSendWaitQueue
end ILEmu
