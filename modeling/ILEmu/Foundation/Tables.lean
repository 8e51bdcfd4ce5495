import ILEmu.Foundation.Containers

/-! Tables cut down to the entries with a property. -/
namespace ILEmu.Foundation.Table
variable {α β : Type*} [DecidableEq α]

omit [DecidableEq α] in
theorem nodupKeys_filter (m : Table α β) (p : α → β → Bool) :
    (m.entries.filter fun e => p e.1 e.2).NodupKeys :=
  m.nodupKeys.sublist List.filter_sublist

def filter (m : Table α β) (p : α → β → Bool) : Table α β :=
  ⟨m.entries.filter fun e => p e.1 e.2, m.nodupKeys_filter p⟩

theorem lookup_filter (m : Table α β) (p : α → β → Bool) (a : α) :
    (m.filter p).lookup a = (m.lookup a).filter (p a) := by
  apply Option.ext
  intro b
  have listed : (m.filter p).lookup a = some b ↔ _ := AList.mem_lookup_iff
  have stored : m.lookup a = some b ↔ _ := AList.mem_lookup_iff
  rw [listed, Option.filter_eq_some_iff, stored]
  exact List.mem_filter

theorem mem_filter {m : Table α β} {p : α → β → Bool} {a : α} :
    a ∈ m.filter p ↔ ∃ b, m.lookup a = some b ∧ p a b = true := by
  rw [mem_iff_lookup, lookup_filter]
  simp only [Option.filter_eq_some_iff]

omit [DecidableEq α] in
/-- The sum over what is kept and what is dropped is the sum over all. -/
theorem total_filter (weight : β → Nat) (m : Table α β) (p : α → β → Bool) :
    total weight (m.filter p) + total weight (m.filter fun a b => !p a b) = total weight m := by
  change ((m.entries.filter fun e => p e.1 e.2).map _).sum +
    ((m.entries.filter fun e => !p e.1 e.2).map _).sum = (m.entries.map _).sum
  induction m.entries with
  | nil => rfl
  | cons e rest ih =>
    cases kept : p e.1 e.2 with
    | true =>
      simp only [List.filter_cons, kept, Bool.not_true, if_true, Bool.false_eq_true, if_false,
        List.map_cons, List.sum_cons]
      omega
    | false =>
      simp only [List.filter_cons, kept, Bool.not_false, if_true, Bool.false_eq_true, if_false,
        List.map_cons, List.sum_cons]
      omega

/-- The same keys with changed values. -/
def mapValues (m : Table α β) (change : α → β → β) : Table α β :=
  ⟨m.entries.map fun e => ⟨e.1, change e.1 e.2⟩, by
    have same : (m.entries.map fun e => (⟨e.1, change e.1 e.2⟩ : Sigma fun _ : α => β)).keys =
        m.entries.keys := by
      simp only [List.keys, List.map_map]
      rfl
    rw [List.NodupKeys, same]
    exact m.nodupKeys⟩

theorem lookup_mapValues (m : Table α β) (change : α → β → β) (a : α) :
    (m.mapValues change).lookup a = (m.lookup a).map (change a) := by
  have each (entries : List (Sigma fun _ : α => β)) :
      (entries.map fun e => (⟨e.1, change e.1 e.2⟩ : Sigma fun _ : α => β)).dlookup a =
        (entries.dlookup a).map (change a) := by
    induction entries with
    | nil => rfl
    | cons e rest ih =>
      obtain ⟨key, value⟩ := e
      by_cases here : a = key
      · subst here
        simp only [List.map_cons, List.dlookup_cons_eq, Option.map_some]
      · have next (b : β) (more : List (Sigma fun _ : α => β)) :
            (⟨key, b⟩ :: more).dlookup a = more.dlookup a := List.dlookup_cons_ne more ⟨key, b⟩ here
        rw [List.map_cons, next, next]
        exact ih
  exact each m.entries

omit [DecidableEq α] in
theorem total_mapValues (weight : β → Nat) (m : Table α β) (change : α → β → β)
    (same : ∀ a b, weight (change a b) = weight b) :
    total weight (m.mapValues change) = total weight m := by
  simp only [total, mapValues, List.map_map]
  exact congrArg List.sum (List.map_congr_left fun e _ => same e.1 e.2)

/-- A default does not tell tables apart that are alike. -/
theorem Alike.getD {X : Type*} {view : β → X} {m m' : Table α β} (alike : Alike view m m') (a : α)
    (b : β) : view ((m'.lookup a).getD b) = view ((m.lookup a).getD b) := by
  rw [← Option.getD_map view, ← Option.getD_map view, alike a]

end ILEmu.Foundation.Table
