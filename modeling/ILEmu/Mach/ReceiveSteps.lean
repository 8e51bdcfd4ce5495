import ILEmu.Mach.ReceiveHistory
import ILEmu.Mach.ReceiveMembership

/-! Every operation keeps what the choice of a receiver rests on, as long as there are numbers
to give out. -/
namespace ILEmu
open Foundation
namespace MachReceivers
variable {Content : Type} {state state' : MachReceivers Content} {longContext : Bool}
  {task processor : Nat}

theorem allocate_fresh (ordered : state.Ordered)
    (room : state.ports.nextWaitQueueSequence < 2 ^ 64 - 1) :
    MachPortSets.allocateWaitQueueSequence state.ports.nextWaitQueueSequence =
      (state.ports.nextWaitQueueSequence + 1, state.ports.nextWaitQueueSequence) := by
  have positive := ordered.positive
  unfold MachPortSets.allocateWaitQueueSequence
  rw [if_neg (by omega), Nat.mod_eq_of_lt (by omega)]

theorem Ordered.unused (ordered : state.Ordered) {number : Nat}
    (late : state.ports.nextWaitQueueSequence ≤ number) : state.waiters.find number = none := by
  rw [← Option.not_isSome_iff_eq_none]
  intro some
  have early := ordered.tickets _ some
  omega

theorem Ordered.insertMember (ordered : state.Ordered)
    (room : state.ports.nextWaitQueueSequence < 2 ^ 64 - 1) (set member : PortObjectId) :
    Ordered { state with ports := (state.ports.insertMember set member).1 } := by
  unfold MachPortSets.insertMember
  rw [allocate_fresh ordered room]
  cases found : state.ports.sets.lookup set with
  | none => exact ordered
  | some members =>
    dsimp only
    split
    · exact ordered
    · obtain ⟨positive, bound, links, tickets, apart, unmixed⟩ := ordered
      constructor
      · exact Nat.succ_pos _
      · exact room
      · intro other link inside
        dsimp only at inside ⊢
        rw [Table.bucket_push] at inside
        split at inside
        · rcases List.mem_append.mp inside with before | new
          · exact (links member link before).trans (Nat.lt_succ_self _)
          · rw [List.mem_singleton.mp new]
            exact Nat.lt_succ_self _
        · exact (links other link inside).trans (Nat.lt_succ_self _)
      · exact fun sequence some => (tickets sequence some).trans (Nat.lt_succ_self _)
      · intro other
        dsimp only
        rw [Table.bucket_push]
        split
        · rw [List.map_append, List.map_singleton]
          apply MachPortSets.nodup_push _ (apart member)
          intro again
          obtain ⟨link, inside, same⟩ := List.mem_map.mp again
          exact (links member link inside).ne same
        · exact apart other
      · intro other link inside
        dsimp only at inside ⊢
        rw [Table.bucket_push] at inside
        split at inside
        · rcases List.mem_append.mp inside with before | new
          · exact unmixed member link before
          · rw [List.mem_singleton.mp new]
            exact Ordered.unused ⟨positive, bound, links, tickets, apart, unmixed⟩ (Nat.le_refl _)
        · exact unmixed other link inside

theorem Standing.insertMember (standing : state.Standing)
    (room : state.ports.nextWaitQueueSequence < 2 ^ 64 - 1) {set member : PortObjectId}
    {port : MachReceivePort} {owner : Nat} (found : state.objects.lookup member = some port)
    (receiver : port.receiver = some owner) (owns : state.setOwners.lookup set = some owner) :
    Standing { state with ports := (state.ports.insertMember set member).1 } := by
  refine ⟨⟨standing.owned.consistent.insertMember set member, ?_, ?_⟩,
    standing.ordered.insertMember room set member, standing.paired.congr (fun _ => rfl) fun _ => rfl⟩
  · intro other joined inside
    unfold MachPortSets.insertMember at inside
    cases here : state.ports.sets.lookup set with
    | none =>
      rw [here] at inside
      exact standing.owned.owned other joined inside
    | some members =>
      rw [here] at inside
      dsimp only at inside
      split at inside
      · exact standing.owned.owned other joined inside
      · dsimp only at inside
        rw [Table.bucket_insert] at inside
        split at inside
        · subst other
          rcases List.mem_append.mp inside with before | new
          · rw [← Table.bucket_of_lookup here] at before
            exact standing.owned.owned set joined before
          · rw [List.mem_singleton.mp new]
            exact ⟨port, owner, found, receiver, owns⟩
        · exact standing.owned.owned other joined inside
  · intro object some
    have free := standing.owned.disjoint object some
    unfold MachPortSets.insertMember
    cases here : state.ports.sets.lookup set with
    | none => exact free
    | some members =>
      dsimp only
      split
      · exact free
      · refine (Table.lookup_insert_eq _ _ _ _).trans ?_
        rw [if_neg]
        · exact free
        · rintro rfl
          rw [here] at free
          contradiction

theorem Standing.extractMember (standing : state.Standing) (set member : PortObjectId) :
    Standing { state with ports := (state.ports.extractMember set member).1 } :=
  standing.restrict (MachPortSets.fewer_extractMember set member)
    (standing.owned.consistent.extractMember set member)

theorem mem_otherPending {processor : Option Nat} (key : Nat × Nat) :
    (state.otherPending task processor).lookup key =
      if key.1 = task ∧ ∀ p ∈ processor, key.2 = p then none else state.pending.lookup key := by
  unfold otherPending
  have erased : ∀ (keys : List (Nat × Nat)) (pending : Table (Nat × Nat) PendingMachReceive),
      (keys.foldl (fun pending key => pending.erase key) pending).lookup key =
        if key ∈ keys then none else pending.lookup key := by
    intro keys
    induction keys with
    | nil => exact fun _ => (if_neg List.not_mem_nil).symm
    | cons first rest ih =>
      intro pending
      rw [List.foldl_cons, ih, Table.lookup_erase_eq]
      by_cases same : key = first <;> simp [same]
  dsimp only
  rw [erased]
  have chosen : (key.1 = task && processor.all (key.2 = ·)) = true ↔
      key.1 = task ∧ ∀ p ∈ processor, key.2 = p := by
    rw [Bool.and_eq_true, decide_eq_true_eq, Option.all_eq_true]
    simp
  by_cases inside : key ∈ state.pending.keys
  · apply if_congr _ rfl rfl
    rw [List.mem_filter, chosen]
    exact and_iff_right inside
  · rw [AList.lookup_eq_none.mpr inside]
    split <;> split <;> rfl

theorem Standing.cancel (standing : state.Standing) (task : Nat) (processor : Option Nat) :
    Standing { state with
      waiters := state.waiters.cancel task processor
      pending := state.otherPending task processor } := by
  have tickets : ∀ sequence, (state.waiters.cancel task processor).find sequence =
      if sequence ∈ state.waiters.ticketsOf task processor then none
      else state.waiters.find sequence := MachReceiveWaitQueue.find_foldl_retire _
  refine ⟨⟨standing.owned.consistent, standing.owned.owned, standing.owned.disjoint⟩,
    standing.ordered.fewer rfl ?_, ?_, ?_⟩
  · intro sequence some
    dsimp only at some
    rw [tickets] at some
    split at some
    · contradiction
    · exact some
  · intro owner place receive found
    dsimp only at found ⊢
    rw [mem_otherPending] at found
    split at found
    · contradiction
    · rename_i spared
      obtain ⟨its, ticket, here, owner', same⟩ :=
        standing.paired.ticketed owner place receive found
      refine ⟨its, ticket, ?_, owner', same⟩
      rw [tickets, if_neg]
      · exact here
      · intro cancelled
        obtain ⟨ticket', here', task', place'⟩ := MachReceiveWaitQueue.mem_ticketsOf.mp cancelled
        cases here.symm.trans here'
        apply spared
        refine ⟨owner'.symm.trans task', fun p member => ?_⟩
        rw [← place' p member, same]
        exact its.symm
  · intro sequence ticket found
    dsimp only at found ⊢
    rw [tickets] at found
    split at found
    · contradiction
    · rename_i spared
      rw [mem_otherPending, if_neg]
      · exact standing.paired.pending sequence ticket found
      · rintro ⟨owner, place⟩
        exact spared (MachReceiveWaitQueue.mem_ticketsOf.mpr ⟨ticket, found, owner, place⟩)

/-- Numbers are passed over, and nothing else is told from before. -/
theorem Standing.advance (standing : state.Standing) {next : Nat}
    (later : state.ports.nextWaitQueueSequence ≤ next) (bound : next ≤ 2 ^ 64 - 1)
    {pending : Table (Nat × Nat) PendingMachReceive}
    (same : ∀ key, pending.lookup key = state.pending.lookup key) :
    Standing { state with
      ports := { state.ports with nextWaitQueueSequence := next }, pending } := by
  obtain ⟨⟨⟨agree, noLinks, noPreposts⟩, owned, disjoint⟩, ordered, paired⟩ := standing
  refine ⟨⟨⟨agree, noLinks, noPreposts⟩, owned, disjoint⟩, ?_, paired.congr same fun _ => rfl⟩
  constructor
  · exact ordered.positive.trans_le later
  · exact bound
  · exact fun member link inside => (ordered.links member link inside).trans_le later
  · exact fun sequence some => (ordered.tickets sequence some).trans_le later
  · exact ordered.apart
  · exact ordered.unmixed

theorem begun_ports (ordered : state.Ordered)
    (room : state.ports.nextWaitQueueSequence < 2 ^ 64 - 1) (task processor : Nat)
    (call : MachReceiveCall) :
    (state.begun task processor call).ports =
      { state.ports with nextWaitQueueSequence := state.ports.nextWaitQueueSequence + 1 } ∧
    (state.receiveOf processor call).waitQueueSequence = state.ports.nextWaitQueueSequence := by
  unfold begun receiveOf
  rw [allocate_fresh ordered room]
  exact ⟨rfl, rfl⟩

theorem erase_begun (call : MachReceiveCall)
    (idle : state.pending.lookup (task, processor) = none) (key : Nat × Nat) :
    ((state.begun task processor call).pending.erase (task, processor)).lookup key =
      state.pending.lookup key := by
  unfold begun
  rw [Table.lookup_erase_eq, Table.lookup_insert_eq]
  split
  · subst key
    exact idle.symm
  · rfl

/-- A receive has begun: when it ends, only the number that it was given is gone. -/
theorem Standing.begun (standing : state.Standing)
    (room : state.ports.nextWaitQueueSequence < 2 ^ 64 - 1) (call : MachReceiveCall)
    (idle : state.pending.lookup (task, processor) = none) :
    ((state.begun task processor call).finish task (state.receiveOf processor call)).Standing := by
  obtain ⟨ports, number⟩ := begun_ports standing.ordered room task processor call
  have retired : state.waiters.retire (state.receiveOf processor call).waitQueueSequence =
      state.waiters := by
    unfold MachReceiveWaitQueue.retire
    rw [number, standing.ordered.unused (Nat.le_refl _)]
  have advanced := standing.advance (Nat.le_succ _) room (erase_begun call idle)
  unfold MachReceivers.finish
  rw [ports]
  have same : (state.begun task processor call).waiters = state.waiters := rfl
  rw [same, retired]
  exact advanced

/-- A receive waits, and its ticket is the pair of its pending entry. -/
theorem Standing.wait (standing : state.Standing)
    (room : state.ports.nextWaitQueueSequence < 2 ^ 64 - 1) (call : MachReceiveCall)
    (idle : state.pending.lookup (task, processor) = none) :
    Standing { state.begun task processor call with
      waiters := (state.begun task processor call).waiters.wait task
        (state.receiveOf processor call) } := by
  obtain ⟨ports, number⟩ := begun_ports standing.ordered room task processor call
  have unused := standing.ordered.unused (Nat.le_refl _)
  have tickets : ∀ sequence,
      (state.waiters.wait task (state.receiveOf processor call)).find sequence =
        if sequence = (state.receiveOf processor call).waitQueueSequence then
          some { task, receive := state.receiveOf processor call }
        else state.waiters.find sequence :=
    MachReceiveWaitQueue.find_wait (number ▸ unused) task
  have pending : ∀ key, (state.begun task processor call).pending.lookup key =
      if key = (task, processor) then some (state.receiveOf processor call)
      else state.pending.lookup key := fun key => Table.lookup_insert_eq _ _ key _
  have advanced := standing.advance (Nat.le_succ _) room fun _ => rfl
  have its : (state.receiveOf processor call).processor = processor := rfl
  refine ⟨⟨?_, advanced.owned.owned, advanced.owned.disjoint⟩, ?_, ?_⟩
  · dsimp only
    rw [ports]
    exact advanced.owned.consistent
  · have ordered := advanced.ordered
    obtain ⟨positive, bound, links, tickets', apart, unmixed⟩ := ordered
    constructor
    · dsimp only
      rw [ports]
      exact positive
    · dsimp only
      rw [ports]
      exact bound
    · dsimp only
      rw [ports]
      exact links
    · intro sequence some
      dsimp only at some ⊢
      rw [ports]
      have found : ((state.waiters.wait task (state.receiveOf processor call)).find
          sequence).isSome = true := some
      rw [tickets] at found
      split at found
      · subst sequence
        rw [number]
        exact Nat.lt_succ_self _
      · exact tickets' sequence found
    · exact apart
    · intro member link inside
      have inside' : link ∈ state.ports.linksByMember.bucket member := inside
      have early := standing.ordered.links member link inside'
      refine (tickets _).trans ?_
      rw [if_neg]
      · exact unmixed member link inside'
      · rw [number]
        exact early.ne
  · constructor
    · intro owner place receive found
      have found' := (pending _).symm.trans found
      split at found'
      · rename_i same
        cases same
        cases found'
        exact ⟨rfl, _, (tickets _).trans (if_pos rfl), rfl, rfl⟩
      · obtain ⟨here, ticket, there, owner', same⟩ :=
          standing.paired.ticketed owner place receive found'
        refine ⟨here, ticket, ?_, owner', same⟩
        refine (tickets _).trans ?_
        rw [if_neg]
        · exact there
        · rintro equal
          rw [equal, number, unused] at there
          contradiction
    · intro sequence ticket found
      have found' := (tickets _).symm.trans found
      split at found'
      · cases found'
        exact (pending _).trans (if_pos rfl)
      · have paired := standing.paired.pending sequence ticket found'
        refine (pending _).trans ?_
        rw [if_neg]
        · exact paired
        · intro equal
          rw [equal, idle] at paired
          contradiction

theorem Standing.beginReceive (standing : state.Standing) (indexed : state.waiters.Indexed)
    (room : state.ports.nextWaitQueueSequence < 2 ^ 64 - 1) (call : MachReceiveCall)
    (copyout slot : List (MachSend Content)) :
    (state.beginReceive longContext task processor call copyout slot).Standing := by
  unfold MachReceivers.beginReceive
  dsimp only
  split
  · exact standing
  · rename_i free
    have idle : state.pending.lookup (task, processor) = none := by
      cases found : state.pending.lookup (task, processor) with
      | none => rfl
      | some => simp [found] at free
    obtain ⟨ports, _⟩ := begun_ports standing.ordered room task processor call
    have indexed' : (state.begun task processor call).waiters.Indexed := indexed
    have consistent : (state.begun task processor call).ports.Consistent fun _ => False := by
      rw [ports]
      exact ⟨standing.owned.consistent.agree, standing.owned.consistent.noLinks,
        standing.owned.consistent.noPreposts⟩
    have its : (state.begun task processor call).pending.lookup (task, processor) =
        some (state.receiveOf processor call) := (Table.lookup_insert_eq _ _ _ _).trans (if_pos rfl)
    rcases deliver_spec indexed' consistent copyout slot with same |
      ⟨receive, status, after, found, ends, later, kept⟩
    · rw [same]
      dsimp only
      split
      · have advanced := standing.advance (Nat.le_succ _) room (erase_begun call idle)
        have same : (state.begun task processor call).waiters = state.waiters := rfl
        rw [ports]
        exact advanced
      · exact standing.wait room call idle
    · rw [ends]
      cases its.symm.trans found
      exact later.standing (standing.begun room call idle) kept

theorem Standing.after (standing : state.Standing) (indexed : state.waiters.Indexed)
    (room : state.ports.nextWaitQueueSequence < 2 ^ 64 - 1)
    (operation : MachReceiveOperation Content) : (state.after longContext operation).Standing := by
  cases operation with
  | createPort object task =>
    simp only [MachReceivers.after]
    split
    · exact standing
    · rename_i free
      rw [Bool.or_eq_true, not_or, Option.not_isSome_iff_eq_none, Option.not_isSome_iff_eq_none]
        at free
      exact standing.createPort object task free.1 free.2
  | createSet set task =>
    simp only [MachReceivers.after]
    split
    · exact standing
    · rename_i free
      rw [Bool.or_eq_true, not_or, Option.not_isSome_iff_eq_none, Option.not_isSome_iff_eq_none]
        at free
      exact standing.createSet task free.1 free.2
  | insertMember set member =>
    simp only [MachReceivers.after]
    split
    · rename_i port owner found owns
      split
      · rename_i receiver
        exact standing.insertMember room found receiver owns
      · exact standing
    · exact standing
  | extractMember set member => exact standing.extractMember set member
  | removeFromAll member => exact standing.removed member
  | eraseSet set => exact standing.eraseSet set
  | clearReceiver object =>
    simp only [MachReceivers.after]
    split
    · exact standing
    · rename_i port found
      exact standing.clearReceiver found
  | landReceiver object task =>
    simp only [MachReceivers.after]
    split
    · rename_i number found
      exact standing.landReceiver object task found
    · exact standing
  | destroyPort object notifications =>
    simp only [MachReceivers.after]
    split
    · rename_i here
      obtain ⟨port, found⟩ := Option.isSome_iff_exists.mp here
      exact standing.destroyPort indexed found notifications
    · exact standing
  | enqueue send =>
    have kept := (postRule_later longContext indexed).post (.refl state) send
    have consistent := (postRule_consistent longContext fun _ => False).post
      ⟨indexed, standing.owned.consistent⟩ send
    exact kept.standing standing consistent.2
  | receive task processor call copyout slot =>
    exact standing.beginReceive indexed room call copyout slot
  | deliver task processor copyout slot => exact standing.deliver indexed copyout slot
  | cancel task processor notifications =>
    exact (standing.cancel task processor).posts (indexed.cancel task processor) notifications
  | advance ticks =>
    exact ⟨⟨standing.owned.consistent, standing.owned.owned, standing.owned.disjoint⟩,
      standing.ordered.fewer rfl fun _ => id, standing.paired.congr (fun _ => rfl) fun _ => rfl⟩

theorem standing_empty : Standing ({} : MachReceivers Content) where
  owned := ⟨MachPortSets.consistent_empty, fun _ _ inside => absurd inside List.not_mem_nil, nofun⟩
  ordered := {
    positive := Nat.one_pos
    bound := Nat.le_of_ble_eq_true rfl
    links := fun _ _ inside => absurd inside List.not_mem_nil
    tickets := nofun
    apart := fun _ => List.nodup_nil
    unmixed := fun _ _ inside => absurd inside List.not_mem_nil }
  paired := ⟨nofun, nofun⟩

end MachReceivers
end ILEmu
