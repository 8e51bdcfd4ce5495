import ILEmu.Foundation.Checked
import ILEmu.Foundation.Containers
import Mathlib.Logic.Function.Basic

/-! A family of counters kept by hand beside a set of items, each item counted in
at most one class. Changes are stated for one item against the rest. -/
namespace ILEmu.Foundation
variable {K : Type*} [DecidableEq K]

/-- Each counter holds the rest of its class and the item, if the item is in the class. -/
def Counts (counts rest : K → Nat) (item : Option K) : Prop :=
  ∀ k, counts k = (item == some k).toNat + rest k

namespace Counts
variable {counts rest : K → Nat} {k : K}

theorem enter (before : Counts counts rest none) :
    Counts (Function.update counts k (counts k + 1)) rest (some k) := by
  intro j
  have old := before j
  by_cases same : j = k
  · subst j
    simp at old ⊢
    omega
  · simp [Function.update_of_ne same, old, Ne.symm same]

theorem positive (before : Counts counts rest (some k)) : 0 < counts k := by
  have old := before k
  simp at old
  omega

theorem leave (before : Counts counts rest (some k)) {count : Nat} (fewer : count + 1 = counts k) :
    Counts (Function.update counts k count) rest none := by
  intro j
  have old := before j
  by_cases same : j = k
  · subst j
    simp at old ⊢
    omega
  · simp [Function.update_of_ne same, old, Ne.symm same]

end Counts

section
variable {β : Type*} (table : Table K Nat)

/-- A counter table read with zero for the missing classes. -/
def countOf (k : K) : Nat := (table.lookup k).getD 0

theorem countOf_insert (k : K) (count : Nat) :
    countOf (table.insert k count) = Function.update (countOf table) k count := by
  funext j
  simp only [countOf, Table.lookup_insert_eq]
  by_cases same : j = k
  · subst j
    simp
  · rw [if_neg same, Function.update_of_ne same, countOf]

end
end ILEmu.Foundation
