import ILEmu.Mach.Edits

/-! `mark_object_dead` on one space: every name of the object with a send right is
converted, and the index slot of the object with it. -/
namespace ILEmu
open Foundation Xnu.Ipc

namespace NameEntry
variable {entry : NameEntry} {object : MachObject}

def convert (type : MachTypeMask) : MachTypeMask :=
  replaceMarks converted Right.deadName.typeMask type

@[simp] theorem after_object : (entry.after object).object = entry.object := by
  unfold after
  split <;> rfl

theorem after_type (same : entry.object = object) : (entry.after object).type = convert entry.type := by
  unfold after convert replaceMarks
  by_cases none : entry.type &&& converted = BitVec.ofNat 32 0
  · simp [none]
  · simp [none, same]

theorem after_other (other : entry.object ≠ object) : entry.after object = entry := by
  simp [after, other]

end NameEntry

namespace Space
variable {space : Space} {object : MachObject}

/-- The loop converts the entries of the names it is given, and nothing else. -/
theorem killNames_yields (task : TaskId) {names : List MachName} (distinct : names.Nodup)
    (stored : ∀ name ∈ names, ∃ entry, space.entries.lookup name = some entry ∧
      entry.object = object) :
    Yields (space.killNames task names) fun result =>
      result.1.nextName = space.nextName ∧ result.1.namesByObject = space.namesByObject ∧
        ∀ name, result.1.entries.lookup name = if name ∈ names
          then (space.entries.lookup name).map (.after object) else space.entries.lookup name := by
  induction names generalizing space with
  | nil => exact Yields.ok ⟨rfl, rfl, by simp⟩
  | cons name rest ih =>
    obtain ⟨outside, tail⟩ := List.nodup_cons.mp distinct
    obtain ⟨entry, found, same⟩ := stored name List.mem_cons_self
    have later := fun other member => stored other (List.mem_cons_of_mem _ member)
    apply Yields.bind (entryAt_yields found)
    rintro entry rfl
    apply Yields.ite
    · intro none
      apply (ih tail later).mono
      rintro result ⟨nextName, index, lookups⟩
      refine ⟨nextName, index, ?_⟩
      intro other
      rw [lookups]
      by_cases here : other = name
      · subst other
        simp [outside, found, NameEntry.after, none]
      · simp [here]
    · intro occupied
      have away : ∀ other, other ≠ name →
          (space.setEntry name entry.killed).entries.lookup other =
            space.entries.lookup other := fun other different => by
        simp [setEntry, different]
      have later' : ∀ other ∈ rest, ∃ entry',
          (space.setEntry name entry.killed).entries.lookup other = some entry' ∧
            entry'.object = object := by
        intro other member
        rw [away other (ne_of_mem_of_not_mem member outside)]
        exact later other member
      apply Yields.bind (ih tail later')
      rintro result ⟨nextName, index, lookups⟩
      apply Yields.ok
      refine ⟨nextName, index, ?_⟩
      intro other
      rw [lookups]
      by_cases here : other = name
      · subst other
        simp [outside, setEntry, found, NameEntry.after, same, occupied]
      · simp [here, away other here]

section killed
variable {entries entries' : Table MachName NameEntry}
  (killed : ∀ name, entries'.lookup name = (entries.lookup name).map (.after object))
include killed

theorem typesOf_killed :
    typesOf entries' object = fun name => (typesOf entries object name).map NameEntry.convert := by
  funext name
  unfold typesOf
  rw [killed name]
  cases entries.lookup name with
  | none => rfl
  | some entry =>
    by_cases same : entry.object = object
    · simp [same, NameEntry.after_type same]
    · simp [same]

theorem typesOf_killed_away {other : MachObject} (different : other ≠ object) :
    typesOf entries' other = typesOf entries other := by
  funext name
  unfold typesOf
  rw [killed name]
  cases entries.lookup name with
  | none => rfl
  | some entry =>
    by_cases same : entry.object = object
    · have away : entry.object ≠ other := fun here => different (here.symm.trans same)
      simp [away]
    · simp [NameEntry.after_other same]

end killed

/-- A name that the index of the object does not list is not converted. -/
theorem after_unlisted {name : MachName} (absent : typesOf space.entries object name = none) :
    (space.entries.lookup name).map (.after object) = space.entries.lookup name := by
  cases found : space.entries.lookup name with
  | none => rfl
  | some entry =>
    have other : entry.object ≠ object := by
      rintro rfl
      rw [typesOf_found found] at absent
      contradiction
    simp [NameEntry.after_other other]

/-- The space after an object died: its entries are converted, the rest stays. -/
structure Killed (object : MachObject) (space space' : Space) : Prop where
  indexed : space'.Indexed
  nextName : space'.nextName = space.nextName
  entries : ∀ name,
    space'.entries.lookup name = (space.entries.lookup name).map (.after object)

theorem killObject_yields (indexed : space.Indexed) (task : TaskId) (object : MachObject) :
    Yields (space.killObject task object) fun result => Killed object space result.1 := by
  have posted := indexed object
  unfold killObject indexedNames
  cases slot : space.namesByObject.lookup object with
  | none =>
    have absent : ∀ name, typesOf space.entries object name = none := by
      apply posted.listed.nil_iff.mp
      rw [slot]
      rfl
    exact Yields.ok ⟨indexed, rfl, fun name => (after_unlisted (absent name)).symm⟩
  | some indexedNames =>
    have listed : Listed (typesOf space.entries object) indexedNames.names indexedNames.rights := by
      have listed := posted.listed
      rwa [slot] at listed
    have stored : ∀ name ∈ indexedNames.names, ∃ entry,
        space.entries.lookup name = some entry ∧ entry.object = object := by
      intro name member
      obtain ⟨type, given⟩ := Option.isSome_iff_exists.mp ((listed.keys name).mp member)
      obtain ⟨entry, found, same, _⟩ := typesOf_some.mp given
      exact ⟨entry, found, same⟩
    apply Yields.bind (killNames_yields task listed.increasing.nodup stored)
    rintro ⟨space', affected⟩ ⟨nextName, index, lookups⟩
    dsimp only at nextName index lookups ⊢
    have killed : ∀ name, space'.entries.lookup name =
        (space.entries.lookup name).map (.after object) := by
      intro name
      rw [lookups]
      split
      · rfl
      · rename_i outside
        apply (after_unlisted _).symm
        simpa using (listed.keys name).not.mp outside
    have slot' : space'.namesByObject.lookup object = some indexedNames := by
      rw [index, slot]
    -- the rights of the slot are converted exactly as the types of its names
    have converted : Posted (typesOf space'.entries object)
        (some { indexedNames with rights := NameEntry.convert indexedNames.rights }) := by
      rw [typesOf_killed killed]
      exact ⟨listed.replace NameEntry.converted Right.deadName.typeMask,
        by simpa using posted.occupied indexedNames slot⟩
    have others : ∀ other, other ≠ object →
        Posted (typesOf space'.entries other) (space'.namesByObject.lookup other) := by
      intro other different
      rw [typesOf_killed_away killed different, index]
      exact indexed other
    unfold namesAt
    rw [slot']
    apply Yields.ite
    · intro none
      have kept : NameEntry.convert indexedNames.rights = indexedNames.rights := if_pos none
      rw [kept, ← slot'] at converted
      refine Yields.ok ⟨?_, nextName, killed⟩
      intro other
      by_cases same : other = object
      · subst other
        exact converted
      · exact others other same
    · intro occupied
      have changed : NameEntry.convert indexedNames.rights =
          indexedNames.rights &&& ~~~NameEntry.converted ||| Right.deadName.typeMask :=
        if_neg occupied
      rw [changed] at converted
      refine Yields.ok ⟨?_, nextName, killed⟩
      intro other
      by_cases same : other = object
      · subst other
        simpa only [setNames, AList.lookup_insert] using converted
      · simpa only [setNames, AList.lookup_insert_ne same] using others other same

end Space
end ILEmu
