import Mathlib.Tactic.Common

/-! Total-correctness rules for computations that can fault. `Yields x post`
says that `x` returns, and that what it returns meets `post`. -/
namespace ILEmu.Foundation
universe u

def Yields {ε α : Type*} (x : Except ε α) (post : α → Prop) : Prop :=
  ∃ a, x = .ok a ∧ post a

namespace Yields
variable {ε : Type*} {α β : Type u} {x : Except ε α} {post : α → Prop}

theorem ok {a : α} (holds : post a) : Yields (.ok a : Except ε α) post :=
  ⟨a, rfl, holds⟩

theorem bind {f : α → Except ε β} {next : β → Prop} (first : Yields x post)
    (rest : ∀ a, post a → Yields (f a) next) : Yields (x >>= f) next := by
  obtain ⟨a, rfl, holds⟩ := first
  exact rest a holds

theorem mono {weaker : α → Prop} (first : Yields x post) (weaken : ∀ a, post a → weaker a) :
    Yields x weaker := by
  obtain ⟨a, returned, holds⟩ := first
  exact ⟨a, returned, weaken a holds⟩

theorem of_ok (first : Yields x post) {a : α} (returned : x = .ok a) : post a := by
  obtain ⟨b, returned', holds⟩ := first
  cases returned.symm.trans returned'
  exact holds

theorem ne_error (first : Yields x post) (fault : ε) : x ≠ .error fault := by
  obtain ⟨a, rfl, _⟩ := first
  exact nofun

theorem ite {c : Prop} [Decidable c] {y : Except ε α}
    (yes : c → Yields x post) (no : ¬ c → Yields y post) :
    Yields (if c then x else y) post := by
  split
  · exact yes ‹_›
  · exact no ‹_›

/-- A fold whose every step keeps an invariant of the accumulator returns, and keeps it. -/
theorem foldlM {γ : Type*} {f : β → γ → Except ε β} {inv : β → Prop} {items : List γ} {b : β}
    (start : inv b) (step : ∀ b, ∀ c ∈ items, inv b → Yields (f b c) inv) :
    Yields (items.foldlM f b) inv := by
  induction items generalizing b with
  | nil => exact ok start
  | cons c rest ih =>
    rw [List.foldlM_cons]
    exact bind (step b c List.mem_cons_self start)
      fun b' kept => ih kept fun b c member => step b c (List.mem_cons_of_mem _ member)

end Yields

theorem bind_eq_ok_iff {ε : Type*} {α β : Type u} {x : Except ε α} {f : α → Except ε β} {b : β} :
    (x >>= f) = .ok b ↔ ∃ a, x = .ok a ∧ f a = .ok b := by
  cases x with
  | error fault => simp [bind, Except.bind]
  | ok a => simp [bind, Except.bind]

/-- Decrement of an unsigned counter. Going below zero, which would wrap to the
top of the range, is reported instead. -/
def decrement {ε : Type*} (fault : ε) : Nat → Except ε Nat
  | 0 => .error fault
  | n + 1 => .ok n

theorem decrement_yields {ε : Type*} (fault : ε) {n : Nat} (positive : 0 < n) :
    Yields (decrement fault n) fun m => m + 1 = n := by
  cases n with
  | zero => contradiction
  | succ n => exact Yields.ok rfl

end ILEmu.Foundation
