import ILEmu.Mach.Namespace

/-! The index of one space lists, for each object, the names that denote it and the
union of their rights; every change of an entry is followed by a repair that makes
the index right again, and no repair misses an entry. -/
namespace ILEmu
open Foundation Xnu.Ipc
namespace Space

/-- The type mask of each name that denotes the object. -/
def typesOf (entries : Table MachName NameEntry) (object : MachObject) :
    MachName → Option MachTypeMask := fun name =>
  (entries.lookup name).bind fun entry => if entry.object = object then some entry.type else none

/-- An index slot lists the names that carry the types; an empty list is not kept. -/
structure Posted (types : MachName → Option MachTypeMask) (slot : Option ObjectNames) : Prop where
  listed : Listed types (slot.getD {}).names (slot.getD {}).rights
  occupied : ∀ indexed ∈ slot, indexed.names ≠ []

def Indexed (space : Space) : Prop :=
  ∀ object, Posted (typesOf space.entries object) (space.namesByObject.lookup object)

section types
variable {entries : Table MachName NameEntry} {object : MachObject} {name : MachName}
  {entry : NameEntry}

theorem typesOf_insert (entries : Table MachName NameEntry) (object : MachObject)
    (name : MachName) (entry : NameEntry) :
    typesOf (entries.insert name entry) object = Function.update (typesOf entries object) name
      (if entry.object = object then some entry.type else none) := by
  funext other
  by_cases same : other = name
  · subst other
    simp [typesOf]
  · simp [typesOf, same]

theorem typesOf_erase (entries : Table MachName NameEntry) (object : MachObject)
    (name : MachName) :
    typesOf (entries.erase name) object = Function.update (typesOf entries object) name none := by
  funext other
  by_cases same : other = name
  · subst other
    simp [typesOf]
  · simp [typesOf, same]

theorem typesOf_some {type : MachTypeMask} :
    typesOf entries object name = some type ↔
      ∃ entry, entries.lookup name = some entry ∧ entry.object = object ∧ entry.type = type := by
  simp [typesOf, Option.bind_eq_some_iff]

theorem typesOf_found (found : entries.lookup name = some entry) :
    typesOf entries entry.object name = some entry.type :=
  typesOf_some.mpr ⟨entry, found, rfl, rfl⟩

theorem typesOf_missing (missing : entries.lookup name = none) :
    typesOf entries object name = none := by
  simp [typesOf, missing]

theorem typesOf_other (found : entries.lookup name = some entry) (other : entry.object ≠ object) :
    typesOf entries object name = none := by
  simp [typesOf, found, other]

/-- A name that keeps its object does not change what the other objects see. -/
theorem typesOf_insert_away {entry' : NameEntry} (found : entries.lookup name = some entry)
    (object' : entry'.object = entry.object) (other : object ≠ entry.object) :
    typesOf (entries.insert name entry') object = typesOf entries object := by
  rw [typesOf_insert, if_neg (by rw [object']; exact other.symm)]
  exact Function.update_eq_self_iff.mpr (typesOf_other found other.symm).symm

theorem typesOf_erase_away (found : entries.lookup name = some entry)
    (other : object ≠ entry.object) : typesOf (entries.erase name) object = typesOf entries object := by
  rw [typesOf_erase]
  exact Function.update_eq_self_iff.mpr (typesOf_other found other.symm).symm

end types

theorem indexed_empty : Indexed {} := by
  intro object
  constructor
  · exact Listed.empty fun name => rfl
  · simp

/-- The space after a repair of one slot: the slot lists the types given, the rest stays. -/
structure Reindexed (object : MachObject) (types : MachName → Option MachTypeMask)
    (space space' : Space) : Prop where
  nextName : space'.nextName = space.nextName
  entries : space'.entries = space.entries
  posted : Posted types (space'.namesByObject.lookup object)
  others : ∀ other, other ≠ object →
    space'.namesByObject.lookup other = space.namesByObject.lookup other

section repairs
variable {space space' : Space} {object : MachObject} {name : MachName} {entry : NameEntry}
  {types : MachName → Option MachTypeMask} {indexed : ObjectNames}

theorem setNames_reindexed (indexed : ObjectNames)
    (listed : Listed types indexed.names indexed.rights) (occupied : indexed.names ≠ []) :
    Reindexed object types space (space.setNames object indexed) where
  nextName := rfl
  entries := rfl
  posted := by
    simp only [setNames, Table.lookup_insert_eq, if_true]
    exact ⟨listed, by simpa using occupied⟩
  others := fun other away => by simp [setNames, away]

theorem entryAt_yields (found : space.entries.lookup name = some entry) :
    Yields (space.entryAt name) (· = entry) := by
  unfold entryAt
  rw [found]
  exact Yields.ok rfl

/-- The early exit loses nothing: what it has found covers all that was there before. -/
theorem gatherRights_yields {previous : MachTypeMask} {names : List MachName}
    (stored : ∀ name ∈ names, ∃ entry, space.entries.lookup name = some entry ∧
      ∀ i, entry.type.getLsbD i = true → previous.getLsbD i = true)
    (rights : MachTypeMask) :
    Yields (space.gatherRights previous names rights) fun gathered =>
      ∀ i, gathered.getLsbD i = true ↔ rights.getLsbD i = true ∨
        ∃ name ∈ names, ∃ entry, space.entries.lookup name = some entry ∧
          entry.type.getLsbD i = true := by
  induction names generalizing rights with
  | nil => exact Yields.ok (by simp)
  | cons name rest ih =>
    obtain ⟨entry, found, _⟩ := stored name List.mem_cons_self
    have tail := fun other member => stored other (List.mem_cons_of_mem _ member)
    apply Yields.bind (entryAt_yields found)
    rintro entry rfl
    apply Yields.ite
    · intro covered
      apply Yields.ok
      intro i
      have all : previous.getLsbD i = true → (rights ||| entry.type).getLsbD i = true := by
        intro bit
        rw [← covered] at bit
        exact (Bool.and_eq_true_iff.mp ((BitVec.getLsbD_and ..).symm.trans bit)).1
      constructor
      · intro bit
        rw [BitVec.getLsbD_or, Bool.or_eq_true] at bit
        rcases bit with old | here
        · exact .inl old
        · exact .inr ⟨name, List.mem_cons_self, entry, found, here⟩
      · rintro (old | ⟨other, member, entry', found', bit⟩)
        · simp [old]
        · obtain ⟨entry'', found'', below⟩ := stored other member
          cases found'.symm.trans found''
          exact all (below i bit)
    · intro _
      apply (ih tail (rights ||| entry.type)).mono
      intro gathered union i
      rw [union i, BitVec.getLsbD_or, Bool.or_eq_true]
      constructor
      · rintro ((old | here) | ⟨other, member, later⟩)
        · exact .inl old
        · exact .inr ⟨name, List.mem_cons_self, entry, found, here⟩
        · exact .inr ⟨other, List.mem_cons_of_mem _ member, later⟩
      · rintro (old | ⟨other, member, entry', found', bit⟩)
        · exact .inl (.inl old)
        · rcases List.mem_cons.mp member with rfl | later
          · cases found.symm.trans found'
            exact .inl (.inr bit)
          · exact .inr ⟨other, later, entry', found', bit⟩

/-- Refreshing makes the rights of a slot the union again, if no right has been gained. -/
theorem refreshIndexedRights_yields (slot : space.namesByObject.lookup object = some indexed)
    (increasing : indexed.names.Pairwise (· < ·)) (occupied : indexed.names ≠ [])
    (keys : ∀ name, name ∈ indexed.names ↔ (types name).isSome)
    (stored : ∀ name, ∀ type ∈ types name, typesOf space.entries object name = some type)
    (below : ∀ name, ∀ type ∈ types name,
      ∀ i, type.getLsbD i = true → indexed.rights.getLsbD i = true) :
    Yields (space.refreshIndexedRights object) (Reindexed object types space) := by
  have entered : ∀ name ∈ indexed.names, ∃ entry, space.entries.lookup name = some entry ∧
      types name = some entry.type := by
    intro name member
    obtain ⟨type, given⟩ := Option.isSome_iff_exists.mp ((keys name).mp member)
    obtain ⟨entry, found, _, rfl⟩ := typesOf_some.mp (stored name type given)
    exact ⟨entry, found, given⟩
  have covered : ∀ name ∈ indexed.names, ∃ entry, space.entries.lookup name = some entry ∧
      ∀ i, entry.type.getLsbD i = true → indexed.rights.getLsbD i = true := by
    intro name member
    obtain ⟨entry, found, given⟩ := entered name member
    exact ⟨entry, found, below name _ given⟩
  unfold refreshIndexedRights
  rw [slot]
  apply Yields.bind (gatherRights_yields covered _)
  intro rights union
  apply Yields.ok
  refine setNames_reindexed { indexed with rights } ?_ occupied
  refine ⟨increasing, keys, ?_⟩
  intro i
  rw [union i, BitVec.getLsbD_ofNat, Nat.zero_testBit, Bool.and_false]
  constructor
  · rintro (none | ⟨name, member, entry, found, bit⟩)
    · contradiction
    · obtain ⟨entry', found', given⟩ := entered name member
      cases found.symm.trans found'
      exact ⟨name, entry.type, given, bit⟩
  · rintro ⟨name, type, given, bit⟩
    have member := (keys name).mpr (Option.isSome_of_mem given)
    obtain ⟨entry, found, given'⟩ := entered name member
    cases given.symm.trans given'
    exact .inr ⟨name, member, entry, found, bit⟩

theorem Posted.slot (posted : Posted types (space.namesByObject.lookup object))
    {type : MachTypeMask} (given : types name = some type) :
    ∃ indexed, space.namesByObject.lookup object = some indexed ∧
      Listed types indexed.names indexed.rights := by
  cases slot : space.namesByObject.lookup object with
  | none =>
    have member := posted.listed.mem given
    rw [slot] at member
    contradiction
  | some indexed =>
    have listed := posted.listed
    rw [slot] at listed
    exact ⟨indexed, rfl, listed⟩

theorem indexName_yields (posted : Posted types (space.namesByObject.lookup object))
    (fresh : types name = none) (found : space.entries.lookup name = some entry) :
    Yields (space.indexName object name)
      (Reindexed object (Function.update types name (some entry.type)) space) := by
  apply Yields.bind (entryAt_yields found)
  rintro entry rfl
  apply Yields.ok
  apply setNames_reindexed
  · exact posted.listed.insert fresh entry.type
  · exact insertSorted_ne_nil name _

theorem addIndexedRights_yields (posted : Posted types (space.namesByObject.lookup object))
    {old : MachTypeMask} (given : types name = some old) (type : MachTypeMask) :
    Yields (space.addIndexedRights object type)
      (Reindexed object (Function.update types name (some (old ||| type))) space) := by
  obtain ⟨indexed, slot, listed⟩ := posted.slot given
  unfold addIndexedRights namesAt
  rw [slot]
  apply Yields.ok
  apply setNames_reindexed
  · exact listed.grow given type
  · exact posted.occupied indexed slot

theorem unindexName_yields (posted : Posted types (space.namesByObject.lookup object))
    (stored : ∀ other, other ≠ name → ∀ type ∈ types other,
      typesOf space.entries object other = some type) :
    Yields (space.unindexName object name)
      (Reindexed object (Function.update types name none) space) := by
  unfold unindexName
  cases slot : space.namesByObject.lookup object with
  | none =>
    have none : ∀ name, types name = none := by
      apply posted.listed.nil_iff.mp
      rw [slot]
      rfl
    have same : Function.update types name Option.none = types :=
      Function.update_eq_self_iff.mpr (none name).symm
    apply Yields.ok
    refine ⟨rfl, rfl, ?_, fun _ _ => rfl⟩
    rw [same]
    exact posted
  | some indexed =>
    have listed : Listed types indexed.names indexed.rights := by
      have listed := posted.listed
      rwa [slot] at listed
    have keys := listed.erased_keys name
    dsimp only
    apply Yields.ite
    · intro none
      apply Yields.ok
      refine ⟨rfl, rfl, ?_, ?_⟩
      · simp only [Table.lookup_erase_eq, if_true]
        refine ⟨Listed.empty fun other => ?_, by simp⟩
        have outside := keys other
        rw [none] at outside
        simpa using outside.not.mp List.not_mem_nil
      · intro other different
        simp [different]
    · intro occupied
      have remaining : ∀ other, ∀ type ∈ Function.update types name Option.none other,
          other ≠ name ∧ types other = some type := by
        intro other type given
        by_cases same : other = name
        · subst other
          simp at given
        · exact ⟨same, by simpa [same] using given⟩
      let shorter : ObjectNames := { indexed with names := eraseSorted name indexed.names }
      have slot' : (space.setNames object shorter).namesByObject.lookup object = some shorter := by
        simp [setNames]
      have refreshed : Yields ((space.setNames object shorter).refreshIndexedRights object)
          (Reindexed object (Function.update types name Option.none)
            (space.setNames object shorter)) := by
        apply refreshIndexedRights_yields slot'
        · exact listed.increasing.sublist (eraseSorted_sublist name indexed.names)
        · exact occupied
        · exact keys
        · intro other type given
          obtain ⟨different, given⟩ := remaining other type given
          exact stored other different type given
        · intro other type given i bit
          exact listed.below (remaining other type given).2 bit
      apply refreshed.mono
      intro space' step
      refine ⟨step.nextName, step.entries, step.posted, ?_⟩
      intro other different
      rw [step.others other different]
      simp [shorter, setNames, different]

/-- The repair after an entry of the object lost rights. -/
theorem refreshIndexedRights_narrowed (posted : Posted types (space.namesByObject.lookup object))
    {old new : MachTypeMask} (given : types name = some old)
    (narrower : ∀ i, new.getLsbD i = true → old.getLsbD i = true)
    (stored : typesOf space.entries object = Function.update types name (some new)) :
    Yields (space.refreshIndexedRights object)
      (Reindexed object (Function.update types name (some new)) space) := by
  obtain ⟨indexed, slot, listed⟩ := posted.slot given
  apply refreshIndexedRights_yields slot listed.increasing (posted.occupied indexed slot)
  · intro other
    rw [listed.keys]
    by_cases same : other = name
    · subst other
      simp [given]
    · simp [same]
  · intro other type here
    rw [stored]
    exact here
  · intro other type here i bit
    by_cases same : other = name
    · subst other
      obtain rfl : new = type := by simpa using here
      exact listed.below given (narrower i bit)
    · exact listed.below (by simpa [same] using here) bit

end repairs
end Space
end ILEmu
