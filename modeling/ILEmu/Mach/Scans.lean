import ILEmu.Mach.Steps
import Mathlib.Data.List.Find

/-! What the index answers is what a full scan of the names of a task finds. -/
namespace ILEmu
open Foundation Xnu.Ipc
namespace MachNamespaceTable

/-- The names of the task that denote the object, in increasing order. -/
def scanObject (table : MachNamespaceTable) (task : TaskId) (object : MachObject) :
    List NamedEntry :=
  (table.entries task).filter fun named => named.entry.object = object

def scanNames (table : MachNamespaceTable) (task : TaskId) (object : MachObject) :
    List MachName :=
  (table.scanObject task object).map NamedEntry.name

/-- The union of the types of these names. -/
def scanRights (table : MachNamespaceTable) (task : TaskId) (object : MachObject) :
    MachTypeMask :=
  (table.scanObject task object).foldl (fun rights named => rights ||| named.entry.type)
    (BitVec.ofNat 32 0)

def scanIndex (table : MachNamespaceTable) (task : TaskId) (object : MachObject) :
    Option ObjectNames :=
  if table.scanNames task object = [] then none
  else some { names := table.scanNames task object, rights := table.scanRights task object }

def scanReferences (table : MachNamespaceTable) (task : TaskId) (object : MachObject)
    (right : Right) : Nat :=
  (((table.scanObject task object).filter fun named => right.isIn named.entry.type).map
    fun named => named.entry.userReferences right).sum

section space
variable {table : MachNamespaceTable} {task : TaskId} {space : Space}

theorem mem_entriesOf (task : TaskId) (space : Space) (named : NamedEntry) :
    named ∈ entriesOf task space ↔
      named.task = task ∧ space.entries.lookup named.name = some named.entry := by
  unfold entriesOf
  rw [List.mem_insertionSort, List.mem_map]
  constructor
  · rintro ⟨⟨name, entry⟩, stored, rfl⟩
    exact ⟨rfl, List.mem_dlookup space.entries.nodupKeys stored⟩
  · rintro ⟨same, found⟩
    refine ⟨⟨named.name, named.entry⟩, List.of_mem_dlookup found, ?_⟩
    rw [← same]

theorem entriesOf_increasing (task : TaskId) (space : Space) :
    (entriesOf task space).Pairwise fun left right => left.name < right.name := by
  have sorted := List.pairwise_insertionSort
    (fun left right : NamedEntry => left.name ≤ right.name)
    (space.entries.entries.map fun stored =>
      ({ task, name := stored.1, entry := stored.2 } : NamedEntry))
  have distinct : (entriesOf task space).Pairwise fun left right => left.name ≠ right.name := by
    unfold entriesOf
    have keys : (space.entries.entries.map fun stored =>
        ({ task, name := stored.1, entry := stored.2 } : NamedEntry)).Pairwise
          fun left right => left.name ≠ right.name :=
      List.pairwise_map.mpr (List.pairwise_map.mp space.entries.nodupKeys)
    exact (List.perm_insertionSort _ _).symm.pairwise keys fun different => different.symm
  exact (sorted.and distinct).imp fun ⟨below, different⟩ => lt_of_le_of_ne below different

theorem entries_found (found : table.spaces.lookup task = some space) :
    table.entries task = entriesOf task space := by
  unfold entries
  rw [found]

theorem mem_scanObject (found : table.spaces.lookup task = some space) (object : MachObject)
    (named : NamedEntry) :
    named ∈ table.scanObject task object ↔ named.task = task ∧
      space.entries.lookup named.name = some named.entry ∧ named.entry.object = object := by
  unfold scanObject
  rw [List.mem_filter, entries_found found, mem_entriesOf, decide_eq_true_eq, and_assoc]

theorem scanNames_increasing (found : table.spaces.lookup task = some space)
    (object : MachObject) : (table.scanNames task object).Pairwise (· < ·) := by
  unfold scanNames scanObject
  rw [List.pairwise_map, entries_found found]
  exact (entriesOf_increasing task space).filter _

theorem getLsbD_union (scanned : List NamedEntry) (rights : MachTypeMask) (i : Nat) :
    (scanned.foldl (fun rights named => rights ||| named.entry.type) rights).getLsbD i = true ↔
      rights.getLsbD i = true ∨ ∃ named ∈ scanned, named.entry.type.getLsbD i = true := by
  induction scanned generalizing rights with
  | nil => simp
  | cons named rest ih =>
    rw [List.foldl_cons, ih, BitVec.getLsbD_or, Bool.or_eq_true, or_assoc]
    simp only [List.mem_cons, exists_eq_or_imp]

/-- The scan of a task is the posting list of the object. -/
theorem scan_listed (found : table.spaces.lookup task = some space) (object : MachObject) :
    Listed (Space.typesOf space.entries object) (table.scanNames task object)
      (table.scanRights task object) where
  increasing := scanNames_increasing found object
  keys := by
    intro name
    unfold scanNames
    rw [List.mem_map, Option.isSome_iff_exists]
    constructor
    · rintro ⟨named, member, rfl⟩
      obtain ⟨_, stored, same⟩ := (mem_scanObject found object named).mp member
      exact ⟨_, Space.typesOf_some.mpr ⟨named.entry, stored, same, rfl⟩⟩
    · rintro ⟨type, given⟩
      obtain ⟨entry, stored, same, _⟩ := Space.typesOf_some.mp given
      exact ⟨⟨task, name, entry⟩, (mem_scanObject found object _).mpr ⟨rfl, stored, same⟩, rfl⟩
  marks := by
    intro i
    unfold scanRights
    rw [getLsbD_union, BitVec.getLsbD_ofNat, Nat.zero_testBit, Bool.and_false]
    constructor
    · rintro (none | ⟨named, member, bit⟩)
      · contradiction
      · obtain ⟨_, stored, same⟩ := (mem_scanObject found object named).mp member
        exact ⟨named.name, _, Space.typesOf_some.mpr ⟨named.entry, stored, same, rfl⟩, bit⟩
    · rintro ⟨name, type, given, bit⟩
      obtain ⟨entry, stored, same, rfl⟩ := Space.typesOf_some.mp given
      exact .inr ⟨⟨task, name, entry⟩,
        (mem_scanObject found object _).mpr ⟨rfl, stored, same⟩, bit⟩

variable (sound : table.Sound)
include sound

/-- The index slot of an object is the scan of the task. -/
theorem Sound.slot (found : table.spaces.lookup task = some space) (object : MachObject) :
    space.namesByObject.lookup object = table.scanIndex task object := by
  have posted := sound.indexed task space found object
  have same := posted.listed.ext (scan_listed found object)
  unfold scanIndex
  cases slot : space.namesByObject.lookup object with
  | none =>
    rw [slot] at same
    exact (if_pos same.1.symm).symm
  | some indexed =>
    rw [slot] at same
    have occupied := posted.occupied indexed slot
    rw [if_neg (same.1 ▸ occupied), ← same.1, ← same.2]
    rfl

theorem Sound.indexedNames (found : table.spaces.lookup task = some space)
    (object : MachObject) :
    (space.indexedNames object).getD [] = table.scanNames task object := by
  unfold Space.indexedNames
  rw [sound.slot found, scanIndex]
  split
  · rename_i none
    rw [none]
    rfl
  · rfl

theorem Sound.nameFor (task : TaskId) (object : MachObject) :
    table.nameFor task object = (table.scanNames task object).head? := by
  unfold MachNamespaceTable.nameFor
  cases found : table.spaces.lookup task with
  | none => simp [scanNames, scanObject, entries, found]
  | some space =>
    have names := sound.indexedNames found object
    cases slot : space.indexedNames object with
    | none =>
      rw [slot] at names
      simp [← names, slot]
    | some indexed =>
      rw [slot] at names
      simp [← names, slot]

theorem Sound.ownsRight (task : TaskId) (object : MachObject) (right : Right) :
    table.ownsRight task object right =
      (table.scanObject task object).any fun named => right.isIn named.entry.type := by
  unfold MachNamespaceTable.ownsRight
  cases found : table.spaces.lookup task with
  | none => simp [scanObject, entries, found]
  | some space =>
    have held : right.isIn (table.scanRights task object) = true ↔
        ∃ named ∈ table.scanObject task object, right.isIn named.entry.type = true := by
      simp only [Right.isIn_eq, scanRights]
      rw [getLsbD_union, BitVec.getLsbD_ofNat, Nat.zero_testBit, Bool.and_false]
      simp
    rw [Option.any_some, sound.slot found, scanIndex]
    split
    · rename_i none
      have empty : table.scanObject task object = [] := List.map_eq_nil_iff.mp none
      simp [empty]
    · rw [Option.any_some, Bool.eq_iff_iff, held, List.any_eq_true]

theorem Sound.nameForRight (task : TaskId) (object : MachObject) (right : Right) :
    table.nameForRight task object right =
      ((table.scanObject task object).find? fun named => right.isIn named.entry.type).map
        NamedEntry.name := by
  unfold MachNamespaceTable.nameForRight
  cases found : table.spaces.lookup task with
  | none => simp [scanObject, entries, found]
  | some space =>
    have names := sound.indexedNames found object
    have searched : (table.scanNames task object).find?
          (fun name => (space.entries.lookup name).any fun entry => right.isIn entry.type) =
        ((table.scanObject task object).find? fun named => right.isIn named.entry.type).map
          NamedEntry.name := by
      unfold scanNames
      rw [List.find?_map]
      apply congrArg
      apply List.find?_congr
      intro named member
      obtain ⟨_, stored, _⟩ := (mem_scanObject found object named).mp member
      simp [stored]
    rw [← searched, ← names]
    cases slot : space.indexedNames object with
    | none => simp [slot]
    | some indexed => simp [slot]

omit sound in
/-- The loop over the names of one space adds up what the scan of the space adds up. -/
theorem countIn_scan (found : table.spaces.lookup task = some space) (object : MachObject)
    (right : Right) (count : Nat) :
    countIn right space (table.scanNames task object) (count % 2 ^ 64) =
      .ok ((count + table.scanReferences task object right) % 2 ^ 64) := by
  have stored : ∀ named ∈ table.scanObject task object,
      space.entries.lookup named.name = some named.entry := fun named member =>
    ((mem_scanObject found object named).mp member).2.1
  unfold scanNames scanReferences
  generalize table.scanObject task object = scanned at stored ⊢
  induction scanned generalizing count with
  | nil => rfl
  | cons named rest ih =>
    have here := stored named List.mem_cons_self
    have later := fun count => ih count
      fun other member => stored other (List.mem_cons_of_mem _ member)
    simp only [List.map_cons, MachNamespaceTable.countIn, Space.entryAt, here, bind, Except.bind]
    by_cases held : right.isIn named.entry.type
    · rw [if_pos held, List.filter_cons, if_pos held, List.map_cons, List.sum_cons,
        Nat.mod_add_mod, later, Nat.add_assoc]
    · rw [if_neg held, List.filter_cons, if_neg held, later]

theorem Sound.countSpace (found : table.spaces.lookup task = some space) (object : MachObject)
    (right : Right) (count : Nat) :
    countSpace object right (count % 2 ^ 64) space =
      .ok ((count + table.scanReferences task object right) % 2 ^ 64) := by
  have counted := countIn_scan found object right count
  rw [← sound.indexedNames found object] at counted
  unfold MachNamespaceTable.countSpace
  cases slot : space.indexedNames object with
  | none => simpa [slot, MachNamespaceTable.countIn] using counted
  | some indexed => simpa [slot] using counted

theorem Sound.countSpaces (object : MachObject) (right : Right)
    {stored : List (Sigma fun _ : TaskId => Space)}
    (found : ∀ s ∈ stored, table.spaces.lookup s.1 = some s.2) (count : Nat) :
    (stored.map fun s => s.2).foldlM (MachNamespaceTable.countSpace object right)
        (count % 2 ^ 64) =
      .ok ((count + (stored.map fun s => table.scanReferences s.1 object right).sum)
        % 2 ^ 64) := by
  induction stored generalizing count with
  | nil => rfl
  | cons s rest ih =>
    have counted := sound.countSpace (found s List.mem_cons_self) object right count
    have later := ih fun s member => found s (List.mem_cons_of_mem _ member)
    rw [List.map_cons, List.foldlM_cons, counted, List.map_cons, List.sum_cons,
      ← Nat.add_assoc]
    exact later _

theorem Sound.rightReferenceCount (object : MachObject) (right : Right) :
    table.rightReferenceCount object right = .ok ((table.spaces.keys.map fun task =>
      table.scanReferences task object right).sum % 2 ^ 64) := by
  have total := sound.countSpaces object right
    (fun s member => List.mem_dlookup table.spaces.nodupKeys member) 0
  rw [Nat.zero_mod, Nat.zero_add] at total
  unfold MachNamespaceTable.rightReferenceCount
  rw [total]
  simp [AList.keys, List.keys, Function.comp_def]

end space

/-- The index of every task is the scan of its names, the queries answer what the scan
answers, and no operation throws. -/
structure IndexExact (table : MachNamespaceTable) : Prop where
  entries : ∀ task name entry, ⟨task, name, entry⟩ ∈ table.entries task ↔
    table.lookup task name = some entry
  increasing : ∀ task object, (table.scanNames task object).Pairwise (· < ·)
  slot : ∀ task space, table.spaces.lookup task = some space → ∀ object,
    space.namesByObject.lookup object = table.scanIndex task object
  nameFor : ∀ task object, table.nameFor task object = (table.scanNames task object).head?
  nameForRight : ∀ task object right, table.nameForRight task object right =
    ((table.scanObject task object).find? fun named => right.isIn named.entry.type).map
      NamedEntry.name
  ownsRight : ∀ task object right, table.ownsRight task object right =
    (table.scanObject task object).any fun named => right.isIn named.entry.type
  rightReferenceCount : ∀ object right, table.rightReferenceCount object right =
    .ok ((table.spaces.keys.map fun task =>
      table.scanReferences task object right).sum % 2 ^ 64)
  returns : ∀ operation, ∃ table', table.perform operation = .ok table'

theorem reachable_index {table : MachNamespaceTable} (reachable : table.Reachable) :
    table.IndexExact where
  entries := by
    intro task name entry
    unfold entries lookup
    cases found : table.spaces.lookup task with
    | none => simp
    | some space => simp [mem_entriesOf]
  increasing := by
    intro task object
    cases found : table.spaces.lookup task with
    | none => simp [scanNames, scanObject, entries, found]
    | some space => exact scanNames_increasing found object
  slot := fun _ _ found => reachable.sound.slot found
  nameFor := reachable.sound.nameFor
  nameForRight := reachable.sound.nameForRight
  ownsRight := reachable.sound.ownsRight
  rightReferenceCount := reachable.sound.rightReferenceCount
  returns := by
    intro operation
    obtain ⟨table', performed, _⟩ := perform_yields reachable.sound operation
    exact ⟨table', performed⟩

/-- An object with two names, one of which lost its receive right again. -/
theorem reachable_index_aliased : IndexExact (run after {}
    [.install 1 9 7 Right.send.typeMask 1, .install 1 5 7 Right.receive.typeMask 1,
      .copyout 1 7 Right.send.typeMask, .rename 1 9 12,
      .removeType 1 5 Right.receive.typeMask]) :=
  reachable_index ⟨_, rfl⟩

end MachNamespaceTable
end ILEmu
