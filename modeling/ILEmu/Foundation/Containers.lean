import Mathlib.Data.List.AList
import Mathlib.Algebra.BigOperators.Group.List.Basic
import Mathlib.Algebra.GroupWithZero.Nat
import Mathlib.Data.Finset.Max

/-! Keyed tables with sums over their values, and the first element of an
ordered set. A table is Mathlib's association list with one value type; the
sums are what hand-maintained counters cache. -/
namespace ILEmu.Foundation

abbrev Table (α β : Type*) := AList (fun _ : α => β)

namespace Table
variable {α β : Type*} [DecidableEq α]

theorem lookup_insert_eq (m : Table α β) (a c : α) (b : β) :
    (m.insert a b).lookup c = if c = a then some b else m.lookup c := by
  split
  · subst c
    exact AList.lookup_insert m
  · exact AList.lookup_insert_ne ‹_›

theorem lookup_erase_eq (m : Table α β) (a c : α) :
    (m.erase a).lookup c = if c = a then none else m.lookup c := by
  split
  · subst c
    exact AList.lookup_erase a m
  · exact AList.lookup_erase_ne ‹_›

@[simp] theorem erase_insert (m : Table α β) (a : α) (b : β) :
    (m.insert a b).erase a = m.erase a := by
  apply AList.ext
  change List.kerase a (List.kinsert a b m.entries) = List.kerase a m.entries
  rw [List.kinsert_def]
  exact List.kerase_cons_eq rfl

theorem exists_erase (m : Table α β) (a : α) (P : β → Prop) (c : α) :
    (∃ b, (m.erase a).lookup c = some b ∧ P b) ↔ c ≠ a ∧ ∃ b, m.lookup c = some b ∧ P b := by
  rw [lookup_erase_eq]
  by_cases same : c = a
  · simp [same]
  · simp [same]

/-- The sum of a weight over all stored values. -/
def total (weight : β → Nat) (m : Table α β) : Nat :=
  (m.entries.map fun e => weight e.2).sum

/-- The number of stored values with a property. -/
def tally (p : β → Bool) (m : Table α β) : Nat :=
  m.total fun b => (p b).toNat

omit [DecidableEq α] in
@[simp] theorem total_empty (weight : β → Nat) : total weight (∅ : Table α β) = 0 := rfl

theorem entries_erase (m : Table α β) (a : α) : (m.erase a).entries = m.entries.kerase a := rfl

theorem total_insert (weight : β → Nat) (m : Table α β) (a : α) (b : β) :
    total weight (m.insert a b) = weight b + total weight (m.erase a) := by
  simp only [total, AList.entries_insert, List.map_cons, List.sum_cons, entries_erase]

theorem total_of_lookup {m : Table α β} {a : α} {b : β} (weight : β → Nat)
    (found : m.lookup a = some b) :
    total weight m = weight b + total weight (m.erase a) := by
  have member : (⟨a, b⟩ : Sigma fun _ : α => β) ∈ m.entries := List.of_mem_dlookup found
  obtain ⟨value, before, after, absent, split, erased⟩ :=
    List.exists_of_kerase (List.mem_keys_of_mem member)
  have same : value = b := by
    have stored : (⟨a, value⟩ : Sigma fun _ : α => β) ∈ m.entries := by simp [split]
    exact m.nodupKeys.eq_of_mk_mem stored member
  subst value
  simp only [total, entries_erase, erased]
  rw [split]
  simp only [List.map_append, List.map_cons, List.sum_append, List.sum_cons]
  omega

theorem total_erase_absent {m : Table α β} {a : α} (weight : β → Nat)
    (absent : m.lookup a = none) : total weight (m.erase a) = total weight m := by
  have missing : a ∉ m.entries.keys := by
    rw [← List.dlookup_eq_none]
    exact absent
  simp only [total, entries_erase, List.kerase_of_notMem_keys missing]

/-- Replacing a stored value moves the sum by the difference of two weights. -/
theorem total_replace {m : Table α β} {a : α} {b : β} (weight : β → Nat) (c : β)
    (found : m.lookup a = some b) :
    total weight (m.insert a c) + weight b = total weight m + weight c := by
  rw [total_insert, total_of_lookup weight found]
  omega

omit [DecidableEq α] in
theorem total_le_total {m : Table α β} {v w : β → Nat} (below : ∀ b, v b ≤ w b) :
    total v m ≤ total w m := by
  unfold total
  induction m.entries with
  | nil => exact Nat.le_refl _
  | cons e rest ih =>
    simp only [List.map_cons, List.sum_cons]
    exact Nat.add_le_add (below e.2) ih

theorem total_congr {m : Table α β} {v w : β → Nat}
    (same : ∀ a b, m.lookup a = some b → v b = w b) : total v m = total w m := by
  have each : ∀ e ∈ m.entries, v e.2 = w e.2 := fun e stored =>
    same e.1 e.2 (AList.mem_lookup_iff.mpr stored)
  unfold total
  rw [List.map_congr_left each]

omit [DecidableEq α] in
theorem total_add (v w : β → Nat) (m : Table α β) :
    total (fun b => v b + w b) m = total v m + total w m := by
  unfold total
  exact List.sum_map_add

omit [DecidableEq α] in
theorem total_const (n : Nat) (m : Table α β) : total (fun _ => n) m = n * m.keys.length := by
  unfold total
  rw [List.map_const', List.sum_replicate, Nat.nsmul_eq_mul, Nat.mul_comm, AList.keys, List.keys,
    List.length_map]

theorem weight_le_total {m : Table α β} {a : α} {b : β} (weight : β → Nat)
    (found : m.lookup a = some b) : weight b ≤ total weight m := by
  rw [total_of_lookup weight found]
  exact Nat.le_add_right _ _

omit [DecidableEq α] in
theorem tally_eq_zero {m : Table α β} {p : β → Bool}
    (none : ∀ e ∈ m.entries, p e.2 = false) : m.tally p = 0 := by
  unfold tally total
  refine List.sum_eq_zero fun n member => ?_
  obtain ⟨e, stored, rfl⟩ := List.mem_map.mp member
  exact congrArg Bool.toNat (none e stored)

theorem mem_iff_lookup {m : Table α β} {a : α} : a ∈ m ↔ ∃ b, m.lookup a = some b := by
  rw [← AList.lookup_isSome, Option.isSome_iff_exists]

/-- Both tables have the same keys, and a view cannot tell their values apart. -/
def Alike {X : Type*} (view : β → X) (m m' : Table α β) : Prop :=
  ∀ a, (m.lookup a).map view = (m'.lookup a).map view

namespace Alike
variable {X : Type*} {view : β → X} {m m' : Table α β}

theorem refl (view : β → X) (m : Table α β) : Alike view m m := fun _ => rfl

theorem symm (alike : Alike view m m') : Alike view m' m := fun a => (alike a).symm

theorem insert {b b' : β} (same : view b = view b') (alike : Alike view m m') (a : α) :
    Alike view (AList.insert a b m) (AList.insert a b' m') := by
  intro c
  rw [lookup_insert_eq, lookup_insert_eq]
  split
  · exact congrArg some same
  · exact alike c

theorem trans {m'' : Table α β} (first : Alike view m m') (second : Alike view m' m'') :
    Alike view m m'' := fun a => (first a).trans (second a)

/-- Replacing a stored value by one that the view cannot tell from it. -/
theorem replace {a : α} {b b' : β} (found : m.lookup a = some b) (same : view b' = view b) :
    Alike view m (AList.insert a b' m) := by
  intro c
  rw [lookup_insert_eq]
  split
  · subst c
    rw [found]
    exact congrArg some same.symm
  · rfl

theorem erase (alike : Alike view m m') (a : α) :
    Alike view (AList.erase a m) (AList.erase a m') := by
  intro c
  rw [lookup_erase_eq, lookup_erase_eq]
  split
  · rfl
  · exact alike c

theorem through {Y : Type*} (g : X → Y) (alike : Alike view m m') :
    Alike (fun b => g (view b)) m m' := by
  intro a
  have same := congrArg (Option.map g) (alike a)
  simpa only [Option.map_map, Function.comp_def] using same

theorem forward (alike : Alike view m m') {a : α} {b : β} (found : m.lookup a = some b) :
    ∃ b', m'.lookup a = some b' ∧ view b' = view b := by
  have same := alike a
  rw [found] at same
  exact Option.map_eq_some_iff.mp same.symm

theorem exists_iff (alike : Alike view m m') (p : X → Prop) (a : α) :
    (∃ b, m.lookup a = some b ∧ p (view b)) ↔ ∃ b, m'.lookup a = some b ∧ p (view b) := by
  constructor
  · rintro ⟨b, found, holds⟩
    obtain ⟨b', found', same⟩ := alike.forward found
    exact ⟨b', found', same ▸ holds⟩
  · rintro ⟨b, found, holds⟩
    obtain ⟨b', found', same⟩ := alike.symm.forward found
    exact ⟨b', found', same ▸ holds⟩

theorem isSome (alike : Alike view m m') (a : α) : (m'.lookup a).isSome = (m.lookup a).isSome := by
  have same := congrArg Option.isSome (alike a)
  rw [Option.isSome_map, Option.isSome_map] at same
  exact same.symm

/-- A sum over values that a view determines is the same on both tables. -/
theorem total (alike : Alike view m m') (weight : X → Nat) :
    total (fun b => weight (view b)) m = total (fun b => weight (view b)) m' := by
  have nodup := List.NodupKeys.map₂ (fun _ : α => view) m.entries m.nodupKeys
  have nodup' := List.NodupKeys.map₂ (fun _ : α => view) m'.entries m'.nodupKeys
  have perm := List.lookup_ext nodup nodup' (by
    intro a x
    rw [List.dlookup_map₂, List.dlookup_map₂]
    exact iff_of_eq (congrArg (x ∈ ·) (alike a)))
  have sums := (perm.map fun e => weight e.2).sum_eq
  simpa only [Table.total, List.map_map, Function.comp_def, Sigma.map] using sums

theorem tally (alike : Alike view m m') (p : X → Bool) :
    tally (fun b => p (view b)) m = tally (fun b => p (view b)) m' :=
  alike.total fun x => (p x).toNat

end Alike
end Table

/-- Replacing one element of a list moves a sum over it by the difference of two weights. -/
theorem sum_map_set {α : Type*} (weight : α → Nat) {items : List α} {i : Nat} {a : α} (b : α)
    (found : items[i]? = some a) :
    ((items.set i b).map weight).sum + weight a = (items.map weight).sum + weight b := by
  induction items generalizing i with
  | nil => simp at found
  | cons c rest ih =>
    cases i with
    | zero =>
      obtain rfl : c = a := by simpa using found
      simp only [List.set_cons_zero, List.map_cons, List.sum_cons]
      omega
    | succ i =>
      have shifted := ih (i := i) (by simpa using found)
      simp only [List.set_cons_succ, List.map_cons, List.sum_cons]
      omega

/-- `*set.begin()` of an ordered set. -/
def first {α : Type*} [LinearOrder α] (set : Finset α) : Option α :=
  if h : set.Nonempty then some (set.min' h) else none

section first
variable {α : Type*} [LinearOrder α] {set : Finset α}

theorem first_none : first set = none ↔ set = ∅ := by
  unfold first
  split
  · simp only [reduceCtorEq, false_iff]
    exact Finset.nonempty_iff_ne_empty.mp ‹_›
  · simp only [true_iff]
    exact Finset.not_nonempty_iff_eq_empty.mp ‹_›

theorem first_some {a : α} (found : first set = some a) : a ∈ set ∧ ∀ b ∈ set, a ≤ b := by
  unfold first at found
  split at found
  · obtain rfl := Option.some.inj found
    exact ⟨set.min'_mem _, fun b member => set.min'_le b member⟩
  · contradiction

end first
end ILEmu.Foundation
