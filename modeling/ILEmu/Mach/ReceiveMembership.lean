import ILEmu.Mach.ReceiveOwners

/-! Ports and sets that are made, moved, joined and destroyed keep what the choice of a receiver
rests on. -/
namespace ILEmu
open Foundation

namespace MachPortSets
variable {Body : Type} {ports : MachPortSets Body} {set member other : PortObjectId}

/-- Nothing is in a set, or linked to one, that was not before. -/
structure Fewer (ports ports' : MachPortSets Body) : Prop where
  next : ports'.nextWaitQueueSequence = ports.nextWaitQueueSequence
  links : ∀ member, (ports'.linksByMember.bucket member).Sublist (ports.linksByMember.bucket member)
  members : ∀ set, ports'.sets.bucket set ⊆ ports.sets.bucket set
  absent : ∀ set, ports.sets.lookup set = none → ports'.sets.lookup set = none

theorem Fewer.refl (ports : MachPortSets Body) : Fewer ports ports :=
  ⟨rfl, fun _ => .refl _, fun _ => List.Subset.refl _, fun _ => id⟩

theorem sublist_prune {K α : Type*} [DecidableEq K] (table : Table K (List α)) (key other : K)
    (keep : α → Bool) : (Table.bucket (table.prune key keep) other).Sublist (table.bucket other) := by
  rw [Table.bucket_prune]
  split
  · subst other
    exact List.filter_sublist
  · exact .refl _

theorem fewer_extractMember (set member : PortObjectId) :
    Fewer ports (ports.extractMember set member).1 := by
  unfold extractMember
  cases found : ports.sets.lookup set with
  | none => exact .refl ports
  | some members =>
    dsimp only
    split
    · exact .refl ports
    · refine ⟨rfl, fun m => sublist_prune _ _ _ _, fun s => ?_, fun s none => ?_⟩
      · rw [Table.bucket_insert]
        split
        · subst s
          rw [Table.bucket_of_lookup found]
          exact List.erase_sublist.subset
        · exact List.Subset.refl _
      · rw [Table.lookup_insert_eq]
        split
        · subst s
          rw [found] at none
          contradiction
        · exact none

theorem lookup_trim_none {K α : Type*} [DecidableEq K] {table : Table K (List α)} {key other : K}
    (keep : α → Bool) (none : table.lookup other = none) :
    (table.trim key keep).lookup other = Option.none := by
  unfold Table.trim
  split
  · exact none
  · rename_i items found
    rw [Table.lookup_insert_eq, if_neg]
    · exact none
    · rintro rfl
      rw [found] at none
      contradiction

theorem fewer_removeMemberFromAll (member : PortObjectId) :
    Fewer ports (ports.removeMemberFromAll member).1 := by
  unfold removeMemberFromAll
  cases found : ports.linksByMember.lookup member with
  | none => exact .refl ports
  | some links =>
    refine ⟨rfl, fun m => ?_, fun s => ?_, fun s none => ?_⟩
    · rw [Table.bucket_erase]
      split
      · exact List.nil_sublist _
      · exact .refl _
    · dsimp only
      generalize ports.sets = sets
      clear found
      induction links generalizing sets with
      | nil => exact List.Subset.refl _
      | cons link rest ih =>
        apply List.Subset.trans (ih (sets.trim link.setObject (· ≠ member)))
        rw [Table.bucket_trim]
        split
        · rename_i here
          rw [here]
          exact List.filter_sublist.subset
        · exact List.Subset.refl _
    · dsimp only
      generalize ports.sets = sets at none
      clear found
      induction links generalizing sets with
      | nil => exact none
      | cons link rest ih => exact ih _ (lookup_trim_none _ none)

theorem fewer_eraseSet (set : PortObjectId) : Fewer ports (ports.eraseSet set).1 := by
  unfold eraseSet
  cases found : ports.sets.lookup set with
  | none => exact .refl ports
  | some members =>
    refine ⟨rfl, fun m => ?_, fun s => ?_, fun s none => ?_⟩
    · dsimp only
      generalize ports.linksByMember = links
      clear found
      induction members generalizing links with
      | nil => exact .refl _
      | cons first rest ih =>
        have later : (Table.bucket _ m).Sublist _ := ih (links.prune first (·.setObject ≠ set))
        exact later.trans (sublist_prune _ _ _ _)
    · rw [Table.bucket_erase]
      split
      · exact List.nil_subset _
      · exact List.Subset.refl _
    · rw [Table.lookup_erase_eq]
      split
      · rfl
      · exact none

/-- A port that has been removed from all sets is in none. -/
theorem removed_from_all {loose : PortObjectId → Prop} (consistent : ports.Consistent loose)
    (member set : PortObjectId) :
    member ∉ (ports.removeMemberFromAll member).1.sets.bucket set := by
  have agree := (consistent.removeMemberFromAll member).agree
  rw [← agree.linked]
  unfold linkedSets removeMemberFromAll
  cases found : ports.linksByMember.lookup member with
  | none =>
    dsimp only
    rw [Table.bucket_of_missing found]
    exact List.not_mem_nil
  | some links =>
    dsimp only
    rw [Table.bucket_erase, if_pos rfl]
    exact List.not_mem_nil

/-- The queue of a port that is in no set may go. -/
theorem Consistent.dropQueue {loose : PortObjectId → Prop} (consistent : ports.Consistent loose)
    (alone : ∀ set, member ∉ ports.sets.bucket set) :
    Consistent loose { ports with queues := ports.queues.erase member } := by
  obtain ⟨agree, noLinks, noPreposts⟩ := consistent
  have busy : ∀ other, other ≠ member →
      (Busy { ports with queues := ports.queues.erase member } other ↔ ports.Busy other) := by
    intro other different
    unfold Busy
    rw [Table.bucket_erase, if_neg different]
  have apart : ∀ set other, other ∈ ports.sets.bucket set → other ≠ member := by
    rintro set other inside rfl
    exact alone set inside
  refine ⟨{ agree with ready := ?_, listed := ?_ }, noLinks, noPreposts⟩
  · intro set other inside
    obtain ⟨joined, cause⟩ := agree.ready set other inside
    exact ⟨joined, cause.imp_right (busy other (apart set other joined)).mpr⟩
  · intro set other joined queued
    exact agree.listed set other joined ((busy other (apart set other joined)).mp queued)

end MachPortSets

namespace MachReceivers
variable {Content : Type} {state state' : MachReceivers Content} {longContext : Bool}
  {task processor : Nat}

theorem Ordered.restrict (ordered : state.Ordered) {ports : MachPortSets (MachPayload Content)}
    (fewer : state.ports.Fewer ports) (waiters : state'.waiters = state.waiters)
    (same : state'.ports = ports) : state'.Ordered := by
  subst same
  constructor
  · rw [fewer.next]
    exact ordered.positive
  · rw [fewer.next]
    exact ordered.bound
  · intro member link inside
    rw [fewer.next]
    exact ordered.links member link ((fewer.links member).subset inside)
  · intro sequence
    rw [fewer.next, waiters]
    exact ordered.tickets sequence
  · exact fun member => (ordered.apart member).sublist ((fewer.links member).map _)
  · intro member link inside
    rw [waiters]
    exact ordered.unmixed member link ((fewer.links member).subset inside)

/-- Sets and links are taken away; nothing else of the state is touched. -/
theorem Standing.restrict (standing : state.Standing) {ports : MachPortSets (MachPayload Content)}
    (fewer : state.ports.Fewer ports) (consistent : ports.Consistent fun _ => False) :
    Standing { state with ports } := by
  refine ⟨⟨consistent, ?_, ?_⟩, standing.ordered.restrict fewer rfl rfl,
    standing.paired.congr (fun _ => rfl) fun _ => rfl⟩
  · intro set member inside
    exact standing.owned.owned set member (fewer.members set inside)
  · intro object some
    exact fewer.absent object (standing.owned.disjoint object some)

/-- A port that is in no set changes hands, or is made or destroyed. -/
theorem Standing.replace (standing : state.Standing) (object : PortObjectId)
    (alone : ∀ set, object ∉ state.ports.sets.bucket set)
    (free : state.ports.sets.lookup object = none)
    {objects : Table PortObjectId MachReceivePort}
    (others : ∀ other, other ≠ object → objects.lookup other = state.objects.lookup other) :
    Standing { state with objects } := by
  refine ⟨⟨standing.owned.consistent, ?_, ?_⟩, standing.ordered.fewer rfl fun _ => id,
    standing.paired.congr (fun _ => rfl) fun _ => rfl⟩
  · intro set member inside
    have different : member ≠ object := by
      rintro rfl
      exact alone set inside
    dsimp only
    rw [others member different]
    exact standing.owned.owned set member inside
  · intro other some
    by_cases same : other = object
    · rw [same]
      exact free
    · apply standing.owned.disjoint other
      rw [← others other same]
      exact some

/-- The history is no part of it. -/
theorem Standing.noted (standing : state.Standing)
    (history : Table PortObjectId (MachHistory Content)) : Standing { state with history } :=
  ⟨⟨standing.owned.consistent, standing.owned.owned, standing.owned.disjoint⟩,
    standing.ordered.fewer rfl fun _ => id, standing.paired.congr (fun _ => rfl) fun _ => rfl⟩

theorem Standing.createPort (standing : state.Standing) (object : PortObjectId) (task : Nat)
    (fresh : state.objects.lookup object = none) (free : state.ports.sets.lookup object = none) :
    Standing { state.noteMoved object with
      objects := state.objects.insert object { receiver := some task } } := by
  apply Standing.replace (standing.noted _) object
  · intro set inside
    obtain ⟨port, _, found, _⟩ := standing.owned.owned set object inside
    rw [fresh] at found
    contradiction
  · exact free
  · intro other different
    exact (Table.lookup_insert_eq _ _ _ _).trans (if_neg different)

theorem Standing.landReceiver (standing : state.Standing) (object : PortObjectId) (task : Nat)
    {sequenceNumber : Nat}
    (found : state.objects.lookup object = some { receiver := none, sequenceNumber }) :
    Standing { state with
      objects := state.objects.insert object { receiver := some task, sequenceNumber } } := by
  apply standing.replace object
  · intro set inside
    obtain ⟨port, _, here, receiver, _⟩ := standing.owned.owned set object inside
    rw [found] at here
    cases here
    contradiction
  · exact standing.owned.disjoint object (by simp [found])
  · intro other different
    exact (Table.lookup_insert_eq _ _ _ _).trans (if_neg different)

theorem Standing.removed (standing : state.Standing) (object : PortObjectId) :
    Standing { state with ports := (state.ports.removeMemberFromAll object).1 } :=
  standing.restrict (MachPortSets.fewer_removeMemberFromAll object)
    (standing.owned.consistent.removeMemberFromAll object)

theorem Standing.clearReceiver (standing : state.Standing) {object : PortObjectId}
    {port : MachReceivePort} (found : state.objects.lookup object = some port) :
    Standing { state.noteMoved object with
      ports := (state.ports.removeMemberFromAll object).1
      objects := state.objects.insert object { receiver := none } } := by
  have removed := standing.removed object
  apply Standing.replace (removed.noted _) object
  · exact MachPortSets.removed_from_all standing.owned.consistent object
  · exact removed.owned.disjoint object (by simp [found])
  · intro other different
    exact (Table.lookup_insert_eq _ _ _ _).trans (if_neg different)

theorem Standing.destroyPort (standing : state.Standing) (indexed : state.waiters.Indexed)
    {object : PortObjectId} {port : MachReceivePort}
    (found : state.objects.lookup object = some port)
    (notifications : List (MachSend Content)) :
    (state.destroyPort longContext object notifications).Standing := by
  have alone := MachPortSets.removed_from_all standing.owned.consistent object
  have removed := standing.removed object
  have replaced : Standing
      { state with
        ports := (state.ports.removeMemberFromAll object).1
        objects := state.objects.erase object } := by
    apply removed.replace object alone
    · exact removed.owned.disjoint object (by simp [found])
    · intro other different
      exact (Table.lookup_erase_eq _ _ _).trans (if_neg different)
  have dropped := (Later.ports { (state.ports.removeMemberFromAll object).1 with
    queues := (state.ports.removeMemberFromAll object).1.queues.erase object } rfl rfl
      rfl).standing replaced (replaced.owned.consistent.dropQueue alone)
  unfold MachReceivers.destroyPort
  apply Standing.posts
  · exact dropped.noted _
  · exact indexed

theorem Standing.createSet (standing : state.Standing) {set : PortObjectId} (task : Nat)
    (free : state.objects.lookup set = none) (fresh : state.ports.sets.lookup set = none) :
    Standing { state with
      ports := (state.ports.createSet set).1, setOwners := state.setOwners.insert set task } := by
  have created : (state.ports.createSet set).1 =
      { state.ports with sets := state.ports.sets.insert set [] } := by
    unfold MachPortSets.createSet
    rw [fresh]
    rfl
  have consistent := standing.owned.consistent.createSet set
  rw [created] at consistent ⊢
  refine ⟨⟨consistent, ?_, ?_⟩, ?_, standing.paired.congr (fun _ => rfl) fun _ => rfl⟩
  · intro other member inside
    rw [Table.bucket_insert] at inside
    split at inside
    · contradiction
    · rename_i different
      obtain ⟨port, owner, found, receiver, owns⟩ := standing.owned.owned other member inside
      refine ⟨port, owner, found, receiver, ?_⟩
      exact ((Table.lookup_insert_eq _ _ _ _).trans (if_neg different)).trans owns
  · intro object some
    have different : object ≠ set := by
      rintro rfl
      rw [free] at some
      contradiction
    exact ((Table.lookup_insert_eq _ _ _ _).trans (if_neg different)).trans
      (standing.owned.disjoint object some)
  · exact ⟨standing.ordered.positive, standing.ordered.bound, standing.ordered.links,
      standing.ordered.tickets, standing.ordered.apart, standing.ordered.unmixed⟩

theorem Standing.eraseSet (standing : state.Standing) (set : PortObjectId) :
    Standing { state with
      ports := (state.ports.eraseSet set).1, setOwners := state.setOwners.erase set } := by
  have restricted := standing.restrict (MachPortSets.fewer_eraseSet set)
    (standing.owned.consistent.eraseSet set)
  refine ⟨⟨restricted.owned.consistent, ?_, restricted.owned.disjoint⟩,
    restricted.ordered.fewer rfl fun _ => id, restricted.paired.congr (fun _ => rfl) fun _ => rfl⟩
  intro other member inside
  obtain ⟨port, owner, found, receiver, owns⟩ := restricted.owned.owned other member inside
  refine ⟨port, owner, found, receiver, ?_⟩
  have different : other ≠ set := by
    rintro rfl
    have gone : (state.ports.eraseSet other).1.sets.bucket other = [] := by
      unfold MachPortSets.eraseSet
      split
      · rename_i missing
        exact Table.bucket_of_missing missing
      · exact (Table.bucket_erase _ _ _).trans (if_pos rfl)
    dsimp only at inside
    rw [gone] at inside
    contradiction
  exact ((Table.lookup_erase_eq _ _ _).trans (if_neg different)).trans owns

end MachReceivers
end ILEmu
