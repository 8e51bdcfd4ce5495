import Mathlib.Data.List.Basic

/-! Lists with an entry for a key, of which the first one counts: what is added up under a key
while other entries come and go. -/
namespace ILEmu.Foundation

variable {α κ : Type*} [DecidableEq κ]

/-- What the first entry of a key is worth. -/
def worthOf (key : α → κ) (worth : α → Nat) (k : κ) (items : List α) : Nat :=
  ((items.find? fun item => key item = k).map worth).getD 0

section
variable {key : α → κ} {worth : α → Nat} {k : κ} {items : List α}

theorem worthOf_filter {keep : α → Bool} (kept : ∀ item ∈ items, key item = k → keep item = true) :
    worthOf key worth k (items.filter keep) = worthOf key worth k items := by
  have same : ∀ item ∈ items,
      decide (keep item = true ∧ decide (key item = k) = true) = decide (key item = k) := by
    intro item member
    by_cases asked : key item = k
    · simp [asked, kept item member asked]
    · simp [asked]
  unfold worthOf
  rw [List.find?_filter, ← List.head?_filter, ← List.head?_filter, List.filter_congr same]

theorem worthOf_absent (absent : ∀ item ∈ items, key item ≠ k) : worthOf key worth k items = 0 := by
  unfold worthOf
  rw [List.find?_eq_none.mpr fun item member => by simpa using absent item member]
  rfl

/-- A new entry behind the others, of a key that has none. -/
theorem worthOf_append {item : α} (absent : ∀ old ∈ items, key old ≠ key item) :
    worthOf key worth k (items ++ [item]) =
      worthOf key worth k items + if key item = k then worth item else 0 := by
  by_cases same : key item = k
  · subst same
    rw [worthOf_absent absent, if_pos rfl]
    unfold worthOf
    rw [List.find?_append, List.find?_eq_none.mpr fun old member => by simpa using absent old member]
    simp
  · rw [if_neg same]
    unfold worthOf
    rw [List.find?_append]
    simp [same]

/-- The first entry of a key is changed in place. -/
theorem find?_modify_findIdx (change : α → α) (keeps : ∀ item, key (change item) = key item)
    (other : κ) :
    (items.modify (items.findIdx fun item => key item = k) change).find?
        (fun item => key item = other) =
      (items.find? fun item => key item = other).map
        fun item => if other = k then change item else item := by
  induction items with
  | nil => rfl
  | cons item rest ih =>
    rw [List.findIdx_cons]
    by_cases same : key item = k
    · simp only [same, decide_true, cond_true, List.modify_zero_cons, List.find?_cons, keeps]
      by_cases asked : k = other
      · simp [asked]
      · simp only [asked, decide_false, Ne.symm asked, if_false, Option.map_id']
    · simp only [same, decide_false, cond_false, List.modify_succ_cons, List.find?_cons]
      by_cases asked : key item = other
      · have apart : other ≠ k := fun eq => same (asked.trans eq)
        simp [asked, apart]
      · simp only [asked, decide_false]
        exact ih

theorem worthOf_modify {change : α → α} (keeps : ∀ item, key (change item) = key item)
    (more : ∀ item, worth (change item) = worth item + 1) {found : α}
    (here : items.find? (fun item => key item = k) = some found) (other : κ) :
    worthOf key worth other (items.modify (items.findIdx fun item => key item = k) change) =
      worthOf key worth other items + if other = k then 1 else 0 := by
  unfold worthOf
  rw [find?_modify_findIdx change keeps]
  by_cases same : other = k
  · subst same
    rw [here]
    simp [more]
  · simp [same]

theorem mem_modify_findIdx {change : α → α} {found item : α}
    (here : items.find? (fun item => key item = k) = some found)
    (member : item ∈ items.modify (items.findIdx fun item => key item = k) change) :
    item ∈ items ∨ item = change found := by
  induction items with
  | nil => exact absurd member List.not_mem_nil
  | cons first rest ih =>
    rw [List.findIdx_cons] at member
    rw [List.find?_cons] at here
    by_cases same : key first = k
    · simp only [same, decide_true, cond_true, List.modify_zero_cons, List.mem_cons] at member here
      obtain rfl := Option.some.inj here
      rcases member with rfl | member
      · exact Or.inr rfl
      · exact Or.inl (List.mem_cons_of_mem _ member)
    · simp only [same, decide_false, cond_false, List.modify_succ_cons, List.mem_cons] at member here
      rcases member with rfl | member
      · exact Or.inl List.mem_cons_self
      · rcases ih here member with old | new
        · exact Or.inl (List.mem_cons_of_mem _ old)
        · exact Or.inr new

omit [DecidableEq κ] in
theorem of_mem_modify {change : α → α} {place : Nat} {item : α}
    (member : item ∈ items.modify place change) :
    item ∈ items ∨ ∃ old ∈ items, item = change old := by
  obtain ⟨here, found⟩ := List.mem_iff_getElem?.mp member
  rw [List.getElem?_modify] at found
  obtain ⟨old, there, changed⟩ := Option.map_eq_some_iff.mp found
  have known := List.mem_of_getElem? there
  split at changed
  · exact Or.inr ⟨old, known, changed.symm⟩
  · subst changed
    exact Or.inl known

end
end ILEmu.Foundation
