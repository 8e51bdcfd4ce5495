import Mathlib.Data.BitVec
import Mathlib.Data.List.Sort
import Mathlib.Logic.Function.Basic

/-! Posting lists: the increasing list of the keys of one class, and the union of
the marks that these keys carry. -/
namespace ILEmu.Foundation
variable {α : Type*} [LinearOrder α] {width : Nat}

/-- Insertion where `std::lower_bound` points, of a key that is not there yet. -/
def insertSorted (a : α) : List α → List α
  | [] => [a]
  | b :: rest =>
    if b < a then b :: insertSorted a rest
    else if b = a then b :: rest
    else a :: b :: rest

/-- Removal of the key that `std::lower_bound` points to. -/
def eraseSorted (a : α) : List α → List α
  | [] => []
  | b :: rest =>
    if b < a then b :: eraseSorted a rest
    else if b = a then rest
    else b :: rest

theorem mem_insertSorted (a c : α) (keys : List α) :
    c ∈ insertSorted a keys ↔ c = a ∨ c ∈ keys := by
  induction keys with
  | nil => simp [insertSorted]
  | cons b rest ih =>
    unfold insertSorted
    split
    · simp only [List.mem_cons, ih]
      constructor
      · rintro (rfl | rfl | later)
        · exact .inr (.inl rfl)
        · exact .inl rfl
        · exact .inr (.inr later)
      · rintro (rfl | rfl | later)
        · exact .inr (.inl rfl)
        · exact .inl rfl
        · exact .inr (.inr later)
    · split
      · subst b
        simp
      · simp

theorem insertSorted_ne_nil (a : α) (keys : List α) : insertSorted a keys ≠ [] := by
  intro none
  have inside := (mem_insertSorted a a keys).mpr (.inl rfl)
  rw [none] at inside
  contradiction

theorem insertSorted_increasing (a : α) {keys : List α} (increasing : keys.Pairwise (· < ·)) :
    (insertSorted a keys).Pairwise (· < ·) := by
  induction keys with
  | nil => exact List.pairwise_singleton _ _
  | cons b rest ih =>
    obtain ⟨least, tail⟩ := List.pairwise_cons.mp increasing
    unfold insertSorted
    split
    · apply List.pairwise_cons.mpr
      refine ⟨?_, ih tail⟩
      intro c member
      rcases (mem_insertSorted a c rest).mp member with rfl | later
      · exact ‹b < c›
      · exact least c later
    · split
      · exact increasing
      · have below : a < b := lt_of_le_of_ne (not_lt.mp ‹¬ b < a›) (Ne.symm ‹¬ b = a›)
        apply List.pairwise_cons.mpr
        refine ⟨?_, increasing⟩
        intro c member
        rcases List.mem_cons.mp member with rfl | later
        · exact below
        · exact below.trans (least c later)

theorem mem_eraseSorted (a c : α) {keys : List α} (increasing : keys.Pairwise (· < ·)) :
    c ∈ eraseSorted a keys ↔ c ≠ a ∧ c ∈ keys := by
  induction keys with
  | nil => simp [eraseSorted]
  | cons b rest ih =>
    obtain ⟨least, tail⟩ := List.pairwise_cons.mp increasing
    unfold eraseSorted
    split
    · simp only [List.mem_cons, ih tail]
      constructor
      · rintro (rfl | ⟨other, later⟩)
        · exact ⟨ne_of_lt ‹c < a›, .inl rfl⟩
        · exact ⟨other, .inr later⟩
      · rintro ⟨other, rfl | later⟩
        · exact .inl rfl
        · exact .inr ⟨other, later⟩
    · split
      · subst b
        constructor
        · intro later
          exact ⟨(ne_of_lt (least c later)).symm, List.mem_cons_of_mem _ later⟩
        · rintro ⟨other, member⟩
          exact (List.mem_cons.mp member).resolve_left other
      · -- every key is above the one to erase
        have below : a < b := lt_of_le_of_ne (not_lt.mp ‹¬ b < a›) (Ne.symm ‹¬ b = a›)
        constructor
        · intro member
          refine ⟨?_, member⟩
          rintro rfl
          rcases List.mem_cons.mp member with rfl | later
          · exact lt_irrefl _ below
          · exact lt_asymm below (least c later)
        · exact And.right

theorem eraseSorted_sublist (a : α) (keys : List α) : (eraseSorted a keys).Sublist keys := by
  induction keys with
  | nil => exact List.Sublist.refl _
  | cons b rest ih =>
    unfold eraseSorted
    split
    · exact ih.cons_cons b
    · split
      · exact List.sublist_cons_self b rest
      · exact List.Sublist.refl _

/-- Two increasing lists of the same keys are equal. -/
theorem increasing_ext {keys keys' : List α} (first : keys.Pairwise (· < ·))
    (second : keys'.Pairwise (· < ·)) (same : ∀ a, a ∈ keys ↔ a ∈ keys') : keys = keys' := by
  have perm : keys.Perm keys' :=
    (List.perm_ext_iff_of_nodup first.nodup second.nodup).mpr same
  exact perm.eq_of_pairwise (fun a b _ _ below above => absurd below (lt_asymm above)) first second

/-- The posting list of a class whose keys carry the marks given. -/
structure Listed (marked : α → Option (BitVec width)) (keys : List α) (marks : BitVec width) :
    Prop where
  increasing : keys.Pairwise (· < ·)
  keys : ∀ a, a ∈ keys ↔ (marked a).isSome
  marks : ∀ i, marks.getLsbD i = true ↔ ∃ a, ∃ m ∈ marked a, m.getLsbD i = true

namespace Listed
variable {marked marked' : α → Option (BitVec width)} {keys keys' : List α}
  {marks marks' : BitVec width} {a : α}

theorem empty (absent : ∀ a, marked a = none) :
    Listed marked [] (BitVec.ofNat width 0) where
  increasing := List.Pairwise.nil
  keys := fun a => by simp [absent a]
  marks := fun i => by simp [absent]

theorem ext (first : Listed marked keys marks) (second : Listed marked keys' marks') :
    keys = keys' ∧ marks = marks' := by
  constructor
  · apply increasing_ext first.increasing second.increasing
    intro a
    rw [first.keys, second.keys]
  · apply BitVec.eq_of_getLsbD_eq
    intro i _
    have same := (first.marks i).trans (second.marks i).symm
    exact Bool.eq_iff_iff.mpr same

theorem nil_iff (listed : Listed marked keys marks) : keys = [] ↔ ∀ a, marked a = none := by
  constructor
  · rintro rfl a
    have outside := (listed.keys a).not.mp List.not_mem_nil
    simpa using outside
  · intro absent
    apply List.eq_nil_iff_forall_not_mem.mpr
    intro a member
    simpa [absent a] using (listed.keys a).mp member

theorem mem (listed : Listed marked keys marks) {m : BitVec width} (found : marked a = some m) :
    a ∈ keys := by
  apply (listed.keys a).mpr
  simp [found]

theorem below (listed : Listed marked keys marks) {m : BitVec width} (found : marked a = some m)
    {i : Nat} (bit : m.getLsbD i = true) : marks.getLsbD i = true :=
  (listed.marks i).mpr ⟨a, m, found, bit⟩

/-- A new key enters the list, and its marks the union. -/
theorem insert (listed : Listed marked keys marks) (fresh : marked a = none) (m : BitVec width) :
    Listed (Function.update marked a (some m)) (insertSorted a keys) (marks ||| m) where
  increasing := insertSorted_increasing a listed.increasing
  keys := by
    intro c
    rw [mem_insertSorted, listed.keys]
    by_cases same : c = a
    · subst c
      simp
    · simp [same]
  marks := by
    intro i
    rw [BitVec.getLsbD_or, Bool.or_eq_true, listed.marks]
    constructor
    · rintro (⟨c, old, found, bit⟩ | bit)
      · have other : c ≠ a := by
          rintro rfl
          simp [fresh] at found
        exact ⟨c, old, by simpa [other] using found, bit⟩
      · exact ⟨a, m, by simp, bit⟩
    · rintro ⟨c, old, found, bit⟩
      by_cases same : c = a
      · subst c
        obtain rfl : m = old := by simpa using found
        exact .inr bit
      · exact .inl ⟨c, old, by simpa [same] using found, bit⟩

/-- A listed key gains marks. -/
theorem grow (listed : Listed marked keys marks) {old : BitVec width}
    (found : marked a = some old) (more : BitVec width) :
    Listed (Function.update marked a (some (old ||| more))) keys (marks ||| more) where
  increasing := listed.increasing
  keys := by
    intro c
    rw [listed.keys]
    by_cases same : c = a
    · subst c
      simp [found]
    · simp [same]
  marks := by
    intro i
    rw [BitVec.getLsbD_or, Bool.or_eq_true, listed.marks]
    constructor
    · rintro (⟨c, m, stored, bit⟩ | bit)
      · by_cases same : c = a
        · subst c
          obtain rfl : old = m := by simpa [found] using stored
          exact ⟨a, old ||| more, by simp, by simp [bit]⟩
        · exact ⟨c, m, by simpa [same] using stored, bit⟩
      · exact ⟨a, old ||| more, by simp, by simp [bit]⟩
    · rintro ⟨c, m, stored, bit⟩
      by_cases same : c = a
      · subst c
        obtain rfl : old ||| more = m := by simpa using stored
        rcases Bool.or_eq_true_iff.mp ((BitVec.getLsbD_or ..).symm.trans bit) with kept | gained
        · exact .inl ⟨a, old, found, kept⟩
        · exact .inr gained
      · exact .inl ⟨c, m, by simpa [same] using stored, bit⟩

theorem erased_keys (listed : Listed marked keys marks) (a c : α) :
    c ∈ eraseSorted a keys ↔ (Function.update marked a none c).isSome := by
  rw [mem_eraseSorted a c listed.increasing, listed.keys]
  by_cases same : c = a
  · subst c
    simp
  · simp [same]

end Listed

/-- Marks that have one of the kinds to drop lose them all and gain others instead. -/
def replaceMarks (dropped added marks : BitVec width) : BitVec width :=
  if marks &&& dropped = BitVec.ofNat width 0 then marks else marks &&& ~~~dropped ||| added

theorem and_ne_zero (marks dropped : BitVec width) :
    marks &&& dropped ≠ BitVec.ofNat width 0 ↔
      ∃ i, marks.getLsbD i = true ∧ dropped.getLsbD i = true := by
  constructor
  · intro occupied
    by_contra none
    apply occupied
    apply BitVec.eq_of_getLsbD_eq
    intro i _
    rw [BitVec.getLsbD_and, BitVec.getLsbD_ofNat, Nat.zero_testBit, Bool.and_false]
    by_contra here
    exact none ⟨i, by simpa using here⟩
  · rintro ⟨i, first, second⟩ none
    have bit := congrArg (fun x => x.getLsbD i) none
    simp [first, second] at bit

theorem getLsbD_replaceMarks (dropped added marks : BitVec width) (i : Nat) :
    (replaceMarks dropped added marks).getLsbD i = true ↔
      (marks.getLsbD i = true ∧ dropped.getLsbD i = false) ∨
        (added.getLsbD i = true ∧ ∃ j, marks.getLsbD j = true ∧ dropped.getLsbD j = true) := by
  unfold replaceMarks
  split
  · rename_i none
    have kept : ∀ j, marks.getLsbD j = true → dropped.getLsbD j = false := by
      intro j bit
      by_contra here
      exact (and_ne_zero marks dropped).mpr ⟨j, bit, by simpa using here⟩ none
    constructor
    · intro bit
      exact .inl ⟨bit, kept i bit⟩
    · rintro (⟨bit, _⟩ | ⟨_, j, bit, here⟩)
      · exact bit
      · rw [kept j bit] at here
        contradiction
  · rename_i occupied
    have some := (and_ne_zero marks dropped).mp occupied
    rw [BitVec.getLsbD_or, Bool.or_eq_true, BitVec.getLsbD_and, Bool.and_eq_true,
      BitVec.getLsbD_not]
    constructor
    · rintro (⟨bit, away⟩ | bit)
      · exact .inl ⟨bit, by simpa using (Bool.and_eq_true_iff.mp away).2⟩
      · exact .inr ⟨bit, some⟩
    · rintro (⟨bit, away⟩ | ⟨bit, _⟩)
      · have inside := BitVec.lt_of_getLsbD bit
        exact .inl ⟨bit, by rw [away]; simpa using inside⟩
      · exact .inr bit

/-- Replacing marks in every key replaces them in the union. -/
theorem Listed.replace {marked : α → Option (BitVec width)} {keys : List α}
    {marks : BitVec width} (listed : Listed marked keys marks) (dropped added : BitVec width) :
    Listed (fun a => (marked a).map (replaceMarks dropped added)) keys
      (replaceMarks dropped added marks) where
  increasing := listed.increasing
  keys := by
    intro a
    rw [listed.keys, Option.isSome_map]
  marks := by
    intro i
    rw [getLsbD_replaceMarks]
    constructor
    · rintro (⟨bit, kept⟩ | ⟨bit, j, here, gone⟩)
      · obtain ⟨a, m, found, bit⟩ := (listed.marks i).mp bit
        refine ⟨a, _, Option.mem_map_of_mem _ found, ?_⟩
        exact (getLsbD_replaceMarks ..).mpr (.inl ⟨bit, kept⟩)
      · obtain ⟨a, m, found, here⟩ := (listed.marks j).mp here
        refine ⟨a, _, Option.mem_map_of_mem _ found, ?_⟩
        exact (getLsbD_replaceMarks ..).mpr (.inr ⟨bit, j, here, gone⟩)
    · rintro ⟨a, _, found, bit⟩
      obtain ⟨m, stored, rfl⟩ := Option.map_eq_some_iff.mp found
      rcases (getLsbD_replaceMarks ..).mp bit with ⟨bit, kept⟩ | ⟨bit, j, here, gone⟩
      · exact .inl ⟨listed.below stored bit, kept⟩
      · exact .inr ⟨bit, j, listed.below stored here, gone⟩

end ILEmu.Foundation
