import ILEmu.Mach.Indexing

/-! What an operation can do to a table: each space sees at most one edit of its
entries, and its index follows. -/
namespace ILEmu
open Foundation Xnu.Ipc

/-- What `mark_object_dead` makes of an entry. -/
def NameEntry.after (object : MachObject) (entry : NameEntry) : NameEntry :=
  if entry.object = object ∧ entry.type &&& NameEntry.converted ≠ BitVec.ofNat 32 0 then
    entry.killed
  else entry

/-- One edit of the entries of a space, by an operation that brings the references given. -/
inductive Edit (references : Nat) (entries : Table MachName NameEntry) :
    Table MachName NameEntry → Prop where
  | keep : Edit references entries entries
  | enter (name : MachName) (object : MachObject) (type : MachTypeMask)
      (missing : entries.lookup name = none) (occupied : type ≠ BitVec.ofNat 32 0) :
      Edit references entries (entries.insert name (.makeEntry object type references))
  | grant (name : MachName) (entry : NameEntry) (type : MachTypeMask)
      (found : entries.lookup name = some entry) :
      Edit references entries (entries.insert name (entry.addTypes type references true))
  | count (name : MachName) (entry : NameEntry) (right : Right) (left : Nat)
      (found : entries.lookup name = some entry) (held : right.isIn entry.type) (some : 0 < left)
      (bounded : left ≤ entry.userReferences right ∨
        right.referenceCounted ∧ left ≤ right.maximumReferences) :
      Edit references entries (entries.insert name (entry.setReferences right left))
  | narrow (name : MachName) (entry : NameEntry) (type : MachTypeMask)
      (found : entries.lookup name = some entry)
      (occupied : (entry.without type).type ≠ BitVec.ofNat 32 0) :
      Edit references entries (entries.insert name (entry.without type))
  | drop (name : MachName) : Edit references entries (entries.erase name)
  | move (oldName newName : MachName) (entry : NameEntry)
      (found : entries.lookup oldName = some entry) :
      Edit references entries ((entries.erase oldName).insert newName entry)
  | kill (object : MachObject) (entries' : Table MachName NameEntry)
      (killed : ∀ name, entries'.lookup name = (entries.lookup name).map (.after object)) :
      Edit references entries entries'

/-- The next dynamic name stays, or moves up by whole strides within the range. -/
def Follows (nextName nextName' : MachName) : Prop :=
  nextName' = nextName ∨
    nextName' ≤ maximumName ∧ ∃ k : Nat, nextName' = nextName + k * nameIndexStride

structure Edited (references : Nat) (space space' : Space) : Prop where
  indexed : space'.Indexed
  edit : Edit references space.entries space'.entries
  next : Follows space.nextName space'.nextName

namespace Space
variable {space : Space} {name : MachName} {entry : NameEntry} {references : Nat}

theorem Edited.refl (indexed : space.Indexed) : Edited references space space :=
  ⟨indexed, .keep, .inl rfl⟩

/-- A repaired slot and untouched others index the entries that the space ends with. -/
theorem Reindexed.indexed {object : MachObject} {types : MachName → Option MachTypeMask}
    {space' final : Space} (step : Reindexed object types space space')
    (index : final.namesByObject = space'.namesByObject) {entries : Table MachName NameEntry}
    (stored : final.entries = entries) (here : typesOf entries object = types)
    (away : ∀ other, other ≠ object →
      Posted (typesOf entries other) (space.namesByObject.lookup other)) : final.Indexed := by
  intro other
  rw [index, stored]
  by_cases same : other = object
  · subst other
    rw [here]
    exact step.posted
  · rw [step.others other same]
    exact away other same

theorem enter_yields (indexed : space.Indexed) (missing : space.entries.lookup name = none)
    (entry : NameEntry) :
    Yields ((space.setEntry name entry).indexName entry.object name) fun space' =>
      space'.Indexed ∧ space'.entries = space.entries.insert name entry ∧
        space'.nextName = space.nextName := by
  have stored : (space.setEntry name entry).entries.lookup name = some entry := by
    simp [setEntry]
  have posted : Posted (typesOf space.entries entry.object)
      ((space.setEntry name entry).namesByObject.lookup entry.object) := indexed entry.object
  apply (indexName_yields posted (typesOf_missing missing) stored).mono
  intro space' step
  refine ⟨?_, step.entries, step.nextName⟩
  apply step.indexed rfl step.entries
  · exact (typesOf_insert ..).trans (by rw [if_pos rfl])
  · intro other different
    have same : typesOf (space.entries.insert name entry) other = typesOf space.entries other := by
      rw [typesOf_insert, if_neg different.symm]
      exact Function.update_eq_self_iff.mpr (typesOf_missing missing).symm
    exact same ▸ indexed other

theorem grant_yields (indexed : space.Indexed) (found : space.entries.lookup name = some entry)
    (type : MachTypeMask) :
    Yields ((space.setEntry name (entry.addTypes type references true)).addIndexedRights
      entry.object type) (Edited references space) := by
  have posted : Posted (typesOf space.entries entry.object)
      ((space.setEntry name (entry.addTypes type references true)).namesByObject.lookup
        entry.object) := indexed entry.object
  apply (addIndexedRights_yields posted (typesOf_found found) type).mono
  intro space' step
  refine ⟨?_, ?_, .inl step.nextName⟩
  · apply step.indexed rfl step.entries
    · exact (typesOf_insert ..).trans (by simp)
    · intro other different
      have object : (entry.addTypes type references true).object = entry.object := rfl
      have same := typesOf_insert_away found object different
      exact same ▸ indexed other
  · rw [step.entries]
    exact .grant name entry type found

theorem settle_yields (indexed : space.Indexed) (found : space.entries.lookup name = some entry)
    {entry' : NameEntry} (object : entry'.object = entry.object)
    (narrower : ∀ i, entry'.type.getLsbD i = true → entry.type.getLsbD i = true) :
    Yields (space.settleEntry name entry') fun space' =>
      space'.Indexed ∧ space'.nextName = space.nextName ∧
        space'.entries = if entry'.type = BitVec.ofNat 32 0 then space.entries.erase name
          else space.entries.insert name entry' := by
  have posted : Posted (typesOf space.entries entry'.object)
      ((space.setEntry name entry').namesByObject.lookup entry'.object) := indexed entry'.object
  unfold settleEntry
  dsimp only
  split
  · rename_i emptied
    have stored : ∀ other, other ≠ name → ∀ type ∈ typesOf space.entries entry'.object other,
        typesOf (space.setEntry name entry').entries entry'.object other = some type := by
      intro other different type given
      simp only [setEntry, typesOf_insert]
      rw [Function.update_of_ne different]
      exact given
    apply Yields.bind (unindexName_yields posted stored)
    intro space' step
    apply Yields.ok
    have index : (space'.eraseEntry name).namesByObject = space'.namesByObject := rfl
    have erased : (space'.eraseEntry name).entries = space.entries.erase name := by
      simp only [eraseEntry, step.entries, setEntry, Table.erase_insert]
    refine ⟨?_, step.nextName, erased⟩
    apply step.indexed index erased (typesOf_erase ..)
    intro other different
    rw [typesOf_erase_away found (object ▸ different)]
    exact indexed other
  · rename_i occupied
    have given : typesOf space.entries entry'.object name = some entry.type := by
      rw [object]
      exact typesOf_found found
    have stored : typesOf (space.setEntry name entry').entries entry'.object =
        Function.update (typesOf space.entries entry'.object) name (some entry'.type) := by
      simp only [setEntry, typesOf_insert, if_true]
    apply (refreshIndexedRights_narrowed posted given narrower stored).mono
    intro space' step
    refine ⟨?_, step.nextName, step.entries⟩
    apply step.indexed rfl step.entries stored
    intro other different
    have same := typesOf_insert_away found object (object ▸ different)
    exact same ▸ indexed other

/-- Taking rights out of an entry narrows it or drops its name. -/
theorem without_yields (indexed : space.Indexed) (found : space.entries.lookup name = some entry)
    (type : MachTypeMask) :
    Yields (space.settleEntry name (entry.without type)) (Edited references space) := by
  have narrower : ∀ i, (entry.without type).type.getLsbD i = true →
      entry.type.getLsbD i = true := by
    intro i bit
    exact (Bool.and_eq_true_iff.mp ((BitVec.getLsbD_and ..).symm.trans bit)).1
  have object : (entry.without type).object = entry.object := rfl
  apply (settle_yields indexed found object narrower).mono
  rintro space' ⟨indexed', nextName, entries⟩
  refine ⟨indexed', ?_, .inl nextName⟩
  rw [entries]
  split
  · exact .drop name
  · exact .narrow name entry type found ‹_›

theorem count_edited (indexed : space.Indexed) (found : space.entries.lookup name = some entry)
    {right : Right} (held : right.isIn entry.type) {left : Nat} (some : 0 < left)
    (bounded : left ≤ entry.userReferences right ∨
      right.referenceCounted ∧ left ≤ right.maximumReferences) :
    Edited references space (space.setEntry name (entry.setReferences right left)) := by
  refine ⟨?_, .count name entry right left found held some bounded, .inl rfl⟩
  intro object
  have same : typesOf (space.entries.insert name (entry.setReferences right left)) object =
      typesOf space.entries object := by
    by_cases here : object = entry.object
    · subst object
      rw [typesOf_insert, NameEntry.setReferences_object, if_pos rfl,
        NameEntry.setReferences_type]
      exact Function.update_eq_self_iff.mpr (typesOf_found found).symm
    · exact typesOf_insert_away found rfl here
  simp only [setEntry, same]
  exact indexed object

theorem drop_yields (indexed : space.Indexed) (found : space.entries.lookup name = some entry) :
    Yields (space.unindexName entry.object name) fun space' =>
      Edited references space (space'.eraseEntry name) := by
  apply (unindexName_yields (indexed entry.object) fun _ _ _ given => given).mono
  intro space' step
  have index : (space'.eraseEntry name).namesByObject = space'.namesByObject := rfl
  have erased : (space'.eraseEntry name).entries = space.entries.erase name := by
    rw [← step.entries]
    rfl
  refine ⟨?_, ?_, .inl step.nextName⟩
  · apply step.indexed index erased (typesOf_erase ..)
    intro other different
    rw [typesOf_erase_away found different]
    exact indexed other
  · rw [erased]
    exact .drop name

/-- The two repairs of `rename`: the entries already have the new name when the old one
leaves the index. -/
theorem move_yields (indexed : space.Indexed) {newName : MachName}
    (found : space.entries.lookup name = some entry)
    (missing : space.entries.lookup newName = none) :
    Yields (do
      let space ← ((space.eraseEntry name).setEntry newName entry).unindexName entry.object name
      space.indexName entry.object newName) (Edited references space) := by
  have distinct : newName ≠ name := by
    rintro rfl
    rw [found] at missing
    contradiction
  let moved := (space.eraseEntry name).setEntry newName entry
  have types : typesOf moved.entries entry.object = Function.update
      (Function.update (typesOf space.entries entry.object) name none) newName
      (some entry.type) := by
    simp only [moved, setEntry, eraseEntry, typesOf_insert, typesOf_erase, if_true]
  have posted : Posted (typesOf space.entries entry.object)
      (moved.namesByObject.lookup entry.object) := indexed entry.object
  have stored : ∀ other, other ≠ name → ∀ type ∈ typesOf space.entries entry.object other,
      typesOf moved.entries entry.object other = some type := by
    intro other different type given
    have other_new : other ≠ newName := by
      rintro rfl
      rw [typesOf_missing missing] at given
      contradiction
    rw [types, Function.update_of_ne other_new, Function.update_of_ne different]
    exact given
  apply Yields.bind (unindexName_yields posted stored)
  intro space' first
  have entered : space'.entries.lookup newName = some entry := by
    rw [first.entries]
    simp [moved, setEntry]
  have fresh : Function.update (typesOf space.entries entry.object) name none newName = none := by
    rw [Function.update_of_ne distinct]
    exact typesOf_missing missing
  apply (indexName_yields first.posted fresh entered).mono
  intro space'' second
  have entries : space''.entries = moved.entries := second.entries.trans first.entries
  refine ⟨?_, ?_, .inl (second.nextName.trans first.nextName)⟩
  · apply second.indexed rfl entries types
    intro other different
    have same : typesOf moved.entries other = typesOf space.entries other := by
      simp only [moved, setEntry, eraseEntry, typesOf_insert, if_neg different.symm]
      rw [typesOf_erase_away found different]
      exact Function.update_eq_self_iff.mpr (typesOf_missing missing).symm
    rw [same, first.others other different]
    exact indexed other
  · rw [entries]
    exact .move name newName entry found

end Space
end ILEmu
