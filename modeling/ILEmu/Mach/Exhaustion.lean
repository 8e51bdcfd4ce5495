import ILEmu.Mach.Steps

/-! Dynamic names are handed out upwards from the last one, never from below it: an
allocation fails exactly if the names from the next one on are in use, whatever has been
released before them. -/
namespace ILEmu
open Foundation Xnu.Ipc

/-- The names that `allocate` can hand out. -/
def IsDynamic (name : MachName) : Prop :=
  validName name ∧ name ≤ maximumName ∧ ∃ k : Nat, name = firstDynamicName + k * nameIndexStride

namespace Space
variable {space : Space} {object : MachObject} {type : MachTypeMask}

/-- The search visits every name a whole number of strides above the candidate. -/
theorem freeName_none {fuel : Nat} {candidate : MachName} (inside : candidate ≤ maximumName)
    (enough : (maximumName - candidate) / nameIndexStride < fuel) :
    space.freeName fuel candidate = none ↔
      ∀ k : Nat, candidate + k * nameIndexStride ≤ maximumName →
        validName (candidate + k * nameIndexStride) →
          (space.entries.lookup (candidate + k * nameIndexStride)).isSome := by
  have stride : 0 < nameIndexStride ∧ nameIndexStride ≤ maximumName := by decide
  induction fuel generalizing candidate with
  | zero => exact absurd enough (Nat.not_lt_zero _)
  | succ fuel ih =>
    simp only [freeName]
    by_cases taken : ¬ validName candidate ∨ (space.entries.lookup candidate).isSome
    · rw [if_pos taken]
      have here : validName candidate → (space.entries.lookup candidate).isSome := fun valid =>
        taken.resolve_left fun invalid => invalid valid
      by_cases top : maximumName - nameIndexStride < candidate
      · rw [if_pos top]
        simp only [true_iff]
        intro k bounded valid
        have last : k = 0 := by
          by_contra positive
          have step : nameIndexStride ≤ k * nameIndexStride :=
            Nat.le_mul_of_pos_left _ (Nat.pos_of_ne_zero positive)
          unfold MachName at *
          omega
        subst last
        rw [Nat.zero_mul] at valid ⊢
        exact here valid
      · rw [if_neg top]
        have below : candidate + nameIndexStride ≤ maximumName := by
          unfold MachName at *
          omega
        have fewer : (maximumName - (candidate + nameIndexStride)) / nameIndexStride < fuel := by
          have split : maximumName - candidate =
              maximumName - (candidate + nameIndexStride) + nameIndexStride := by
            unfold MachName at *
            omega
          rw [split, Nat.add_div_right _ stride.1] at enough
          exact Nat.lt_of_succ_lt_succ enough
        refine (ih below fewer).trans ?_
        have shift : ∀ k : Nat, candidate + (k + 1) * nameIndexStride =
            candidate + nameIndexStride + k * nameIndexStride := by
          intro k
          rw [Nat.succ_mul]
          unfold MachName at *
          omega
        constructor
        · intro later k bounded valid
          cases k with
          | zero =>
            rw [Nat.zero_mul] at valid ⊢
            exact here valid
          | succ k =>
            rw [shift] at bounded valid ⊢
            exact later k bounded valid
        · intro all k bounded valid
          rw [← shift] at bounded valid ⊢
          exact all (k + 1) bounded valid
    · rw [if_neg taken]
      have taken := not_or.mp taken
      simp only [reduceCtorEq, false_iff, not_forall]
      refine ⟨0, ?_⟩
      rw [Nat.zero_mul]
      exact ⟨inside, not_not.mp taken.1, taken.2⟩

/-- The next name is the first dynamic name or a whole number of strides above it. -/
def Aligned (space : Space) : Prop :=
  ∃ k : Nat, space.nextName = firstDynamicName + k * nameIndexStride

theorem freeName_exhausted (aligned : space.Aligned) (inside : space.nextName ≤ maximumName) :
    space.freeName (searchLength space.nextName) space.nextName = none ↔
      ∀ name, IsDynamic name → space.nextName ≤ name → (space.entries.lookup name).isSome := by
  obtain ⟨j, start⟩ := aligned
  refine (freeName_none inside (Nat.lt_succ_self _)).trans ?_
  constructor
  · rintro all name ⟨valid, bounded, k, place⟩ above
    have ordered : j ≤ k := by
      by_contra before
      have fewer : (k + 1) * nameIndexStride ≤ j * nameIndexStride :=
        Nat.mul_le_mul_right _ (by omega)
      have stride : 0 < nameIndexStride := by decide
      rw [Nat.succ_mul] at fewer
      unfold MachName at *
      omega
    obtain ⟨d, rfl⟩ := Nat.exists_eq_add_of_le ordered
    have here : name = space.nextName + d * nameIndexStride := by
      rw [Nat.add_mul] at place
      unfold MachName at *
      omega
    subst here
    exact all d bounded valid
  · intro all k bounded valid
    refine all _ ⟨valid, bounded, j + k, ?_⟩ (Nat.le_add_right _ _)
    rw [start, Nat.add_mul]
    unfold MachName at *
    omega

end Space

namespace MachNamespaceTable
variable {table table' : MachNamespaceTable} {task : TaskId} {references : Nat}

def Fails (table : MachNamespaceTable) (task : TaskId) (object : MachObject)
    (type : MachTypeMask) : Prop :=
  ∃ table', table.allocate task object type = .ok (table', none)

def InUse (table : MachNamespaceTable) (task : TaskId) (name : MachName) : Prop :=
  (table.lookup task name).isSome

/-- An allocation fails only if every dynamic name of the task is in use. -/
def Allocates (table : MachNamespaceTable) : Prop :=
  ∀ task object type, object ≠ nullName → type ≠ BitVec.ofNat 32 0 →
    table.Fails task object type → ∀ name, IsDynamic name → table.InUse task name

/-- If some dynamic name of the task is free, one from the next name on is. -/
def Unstranded (table : MachNamespaceTable) (task : TaskId) : Prop :=
  (∃ name, IsDynamic name ∧ (table.openSpace task).nextName ≤ name ∧ ¬ table.InUse task name) ∨
    ∀ name, IsDynamic name → table.InUse task name

theorem inUse_iff (task : TaskId) (name : MachName) :
    table.InUse task name ↔ ((table.openSpace task).entries.lookup name).isSome := by
  unfold InUse lookup openSpace
  cases table.spaces.lookup task with
  | none => exact iff_of_false (by simp) (by simp [AList.lookup_empty])
  | some space => rfl

theorem fails_iff (sound : table.Sound) (aligned : (table.openSpace task).Aligned)
    {object : MachObject} {type : MachTypeMask} (named : object ≠ nullName)
    (occupied : type ≠ BitVec.ofNat 32 0) :
    table.Fails task object type ↔ ∀ name, IsDynamic name →
      (table.openSpace task).nextName ≤ name → table.InUse task name := by
  have indexed := sound.open_indexed task
  have inside := sound.open_inside task
  simp only [inUse_iff]
  rw [← Space.freeName_exhausted aligned inside]
  unfold Fails allocate Space.allocate
  rw [if_neg (not_or.mpr ⟨named, occupied⟩)]
  cases found : (table.openSpace task).freeName
      (Space.searchLength (table.openSpace task).nextName) (table.openSpace task).nextName with
  | none => exact ⟨fun _ => rfl, fun _ => ⟨_, rfl⟩⟩
  | some candidate =>
    simp only [reduceCtorEq, iff_false, not_exists]
    intro table' returned
    obtain ⟨⟨space, name⟩, first, rest⟩ := bind_eq_ok_iff.mp returned
    obtain ⟨space', _, last⟩ := bind_eq_ok_iff.mp first
    cases last
    cases rest

theorem aligned_after (aligned : ∀ task, (table.openSpace task).Aligned)
    (stepped : Stepped references table table') (task : TaskId) :
    (table'.openSpace task).Aligned := by
  cases found : table'.spaces.lookup task with
  | none =>
    refine ⟨0, ?_⟩
    simp [openSpace, found]
  | some space =>
    obtain ⟨k, start⟩ := aligned task
    rw [openSpace_found found]
    rcases (stepped task space found).next with same | ⟨_, d, moved⟩
    · exact ⟨k, same.trans start⟩
    · refine ⟨k + d, ?_⟩
      rw [moved, start, Nat.add_mul]
      unfold MachName at *
      omega

theorem Reachable.aligned (reachable : table.Reachable) (task : TaskId) :
    (table.openSpace task).Aligned := by
  obtain ⟨operations, rfl⟩ := reachable
  have preserves : ∀ (table : MachNamespaceTable) (operation : NamespaceOperation),
      (table.Sound ∧ ∀ task, (table.openSpace task).Aligned) →
        (table.after operation).Sound ∧ ∀ task, ((table.after operation).openSpace task).Aligned := by
    rintro table operation ⟨sound, aligned⟩
    exact ⟨after_sound table operation sound,
      aligned_after aligned (after_stepped sound operation)⟩
  have initial : Sound {} ∧ ∀ task, (openSpace {} task).Aligned :=
    ⟨sound_empty, fun _ => ⟨0, rfl⟩⟩
  exact (run_invariant preserves initial operations).2 task

/-- In every state, allocation is complete exactly if no task has its free dynamic names
below its next name only. -/
theorem allocates_iff_unstranded (reachable : table.Reachable) :
    table.Allocates ↔ ∀ task, table.Unstranded task := by
  constructor
  · intro allocates task
    by_cases free : ∃ name, IsDynamic name ∧ (table.openSpace task).nextName ≤ name ∧
        ¬ table.InUse task name
    · exact .inl free
    · right
      have object : (1 : MachObject) ≠ nullName := by decide
      have type : Right.send.typeMask ≠ BitVec.ofNat 32 0 := by decide
      apply allocates task 1 Right.send.typeMask object type
      rw [fails_iff reachable.sound (reachable.aligned task) object type]
      intro name dynamic above
      by_contra unused
      exact free ⟨name, dynamic, above, unused⟩
  · intro unstranded task object type named occupied fails
    rw [fails_iff reachable.sound (reachable.aligned task) named occupied] at fails
    rcases unstranded task with ⟨name, dynamic, above, free⟩ | all
    · exact absurd (fails name dynamic above) free
    · exact all

/-- In every state of a run an allocation fails only for want of dynamic names exactly if
in no state of the run a task has its free dynamic names below its next name only. -/
theorem throughout_allocates_iff (operations : List NamespaceOperation) :
    Throughout after Allocates {} operations ↔
      Throughout after (fun table => ∀ task, table.Unstranded task) {} operations :=
  throughout_congr reachable_after (fun _ reachable => allocates_iff_unstranded reachable)
    reachable_empty operations

/-- The table whose one task has an empty space with the next name given. -/
def emptied (nextName : MachName) : MachNamespaceTable where
  spaces := (∅ : Table TaskId Space).insert 1 { nextName }

/-- A space whose one name holds a send right. -/
def soleName (name nextName : MachName) : Space where
  nextName := nextName
  entries := (∅ : Table MachName NameEntry).insert name (.makeEntry 1 Right.send.typeMask 1)
  namesByObject := (∅ : Table MachObject ObjectNames).insert 1
    { names := [name], rights := Right.send.typeMask }

def holding (name nextName : MachName) : MachNamespaceTable where
  spaces := (∅ : Table TaskId Space).insert 1 (soleName name nextName)

theorem enter_empty (name : MachName) :
    (({ nextName := name } : Space).setEntry name (.makeEntry 1 Right.send.typeMask 1)).indexName
        1 name = .ok (soleName name name) := by
  have rights : BitVec.ofNat 32 0 ||| Right.send.typeMask = Right.send.typeMask := by decide
  unfold Space.indexName Space.entryAt
  simp only [Space.setEntry, Table.lookup_insert_eq, if_true, bind, Except.bind,
    NameEntry.makeEntry_type]
  exact congrArg (fun rights => (.ok (Space.setNames _ 1 { names := [name], rights }) :
    Guarded Space)) rights

theorem allocate_emptied {name : MachName} (valid : validName name) :
    (emptied name).after (.allocate 1 1 Right.send.typeMask) = holding name
      (if name ≤ maximumName - nameIndexStride then name + nameIndexStride else name) := by
  have opened : (emptied name).openSpace 1 = { nextName := name } := by
    apply openSpace_found
    simp only [emptied, Table.lookup_insert_eq, if_true]
  have free : Space.freeName { nextName := name } (Space.searchLength name) name = some name := by
    simp [Space.searchLength, Space.freeName, valid]
  have named : ¬ ((1 : MachObject) = nullName ∨ Right.send.typeMask = BitVec.ofNat 32 0) := by
    decide
  simp only [after, perform, allocate, if_neg named, opened, Space.allocate, free, enter_empty,
    bind, Except.bind, pure, Except.pure, Functor.map, Except.map]
  unfold holding emptied setSpace
  rw [AList.insert_insert]
  split <;> rfl

theorem settle_sole (name nextName : MachName) {entry : NameEntry} (object : entry.object = 1)
    (emptied : entry.type = BitVec.ofNat 32 0) :
    (soleName name nextName).settleEntry name entry = .ok { nextName } := by
  have erased : eraseSorted name [name] = [] := by simp [eraseSorted]
  have unindexed : ((soleName name nextName).setEntry name entry).unindexName entry.object name =
      .ok { (soleName name nextName).setEntry name entry with
        namesByObject := (soleName name nextName).namesByObject.erase 1 } := by
    unfold Space.unindexName
    simp only [Space.setEntry, soleName, object, Table.lookup_insert_eq, if_true, erased]
  simp only [Space.settleEntry, if_pos emptied, unindexed, bind, Except.bind]
  simp only [Space.eraseEntry, Space.setEntry, soleName, Table.erase_insert]
  rfl

theorem deallocate_holding (name nextName : MachName) :
    (holding name nextName).after (.deallocate 1 name) = emptied nextName := by
  have found : (holding name nextName).spaces.lookup 1 = some (soleName name nextName) := by
    simp only [holding, Table.lookup_insert_eq, if_true]
  have stored : (soleName name nextName).entries.lookup name =
      some (.makeEntry 1 Right.send.typeMask 1) := by
    simp only [soleName, Table.lookup_insert_eq, if_true]
  have available : Right.send.typeMask &&& releasable ≠ BitVec.ofNat 32 0 := by decide
  have send : released (Right.send.typeMask &&& releasable) = .send := by decide
  have single : ¬ 1 < (NameEntry.makeEntry 1 Right.send.typeMask 1).userReferences .send := by
    decide
  let released := ((NameEntry.makeEntry 1 Right.send.typeMask 1).setReferences .send 0).dropType
    Right.send.typeMask
  have object : released.object = 1 := rfl
  have gone : released.type = BitVec.ofNat 32 0 := by decide
  have settled : (soleName name nextName).settleEntry name released = .ok { nextName } :=
    settle_sole name nextName object gone
  simp only [after, perform, deallocate, found, stored, NameEntry.makeEntry_type, if_neg available,
    send, if_neg single]
  simp only [released] at settled
  simp only [settled, bind, Except.bind, pure, Except.pure, Functor.map, Except.map]
  unfold holding emptied setSpace
  rw [AList.insert_insert]

def dynamicName (k : Nat) : MachName := firstDynamicName + k * nameIndexStride

/-- A task that takes a name and gives it back, over and over. -/
def cycles (n : Nat) : List NamespaceOperation :=
  (List.range n).flatMap fun k =>
    [.allocate 1 1 Right.send.typeMask, .deallocate 1 (dynamicName k)]

/-- The strides between the first dynamic name and the last. -/
def lastCycle : Nat := (maximumName - firstDynamicName) / nameIndexStride

theorem cycles_run {n : Nat} (within : n ≤ lastCycle) :
    run after (emptied firstDynamicName) (cycles n) = emptied (dynamicName n) := by
  induction n with
  | zero => rfl
  | succ n ih =>
    have below : n < lastCycle := within
    have range : lastCycle = 16776959 := by decide
    have place : dynamicName n = 65539 + n * 256 := rfl
    have valid : validName (dynamicName n) := by
      simp only [validName, nullName, deadName, place, Bool.and_eq_true, decide_eq_true_eq]
      unfold MachName at *
      omega
    have room : dynamicName n ≤ maximumName - nameIndexStride := by
      have top : maximumName - nameIndexStride = 4294967039 := rfl
      rw [place, top]
      unfold MachName at *
      omega
    have next : dynamicName n + nameIndexStride = dynamicName (n + 1) := by
      unfold dynamicName
      rw [Nat.succ_mul, Nat.add_assoc]
    unfold cycles at ih ⊢
    rw [List.range_succ, List.flatMap_append, run_append, ih below.le]
    simp only [List.flatMap_cons, List.flatMap_nil, List.append_nil, run_cons, run_nil]
    rw [allocate_emptied valid, deallocate_holding, if_pos room, next]

/-- After as many cycles as there are dynamic names, one live name is enough to make the
next allocation fail, with every other dynamic name free. -/
theorem names_run_out :
    ¬ Allocates (run after {} ([.createTask 1] ++ cycles lastCycle ++
      [.allocate 1 1 Right.send.typeMask])) := by
  have top : validName (dynamicName lastCycle) := by decide +kernel
  have last : ¬ dynamicName lastCycle ≤ maximumName - nameIndexStride := by decide +kernel
  have started : run after {} [.createTask 1] = emptied firstDynamicName := by rfl
  rw [run_append, run_append, started, cycles_run le_rfl, run_cons, run_nil,
    allocate_emptied top, if_neg last]
  intro allocates
  have fails : (holding (dynamicName lastCycle) (dynamicName lastCycle)).Fails 1 1
      Right.send.typeMask := by
    refine ⟨(holding (dynamicName lastCycle) (dynamicName lastCycle)).setSpace 1
      (soleName (dynamicName lastCycle) (dynamicName lastCycle)), ?_⟩
    rfl
  have free : (holding (dynamicName lastCycle) (dynamicName lastCycle)).lookup 1
      firstDynamicName = none := by decide +kernel
  have used := allocates 1 1 _ (by decide) (by decide) fails firstDynamicName
    ⟨by decide, by decide, 0, rfl⟩
  unfold InUse at used
  rw [free] at used
  contradiction

end MachNamespaceTable
end ILEmu
