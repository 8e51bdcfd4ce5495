import Mathlib.Data.List.Range

/-! The values that are live at a place of a straight line, counted by one pass that releases
each of them after its last use. -/
namespace ILEmu.Foundation

section
variable (held : Nat → Bool) (last : Nat → Nat)

/-- Of the values defined before `count`, those whose last use is not before the place. -/
def liveFrontier (count place : Nat) : Nat :=
  (List.range count).countP fun value => held value && decide (place ≤ last value)

/-- Of the values defined before `count`, those that are released at the place. -/
def expiring (count place : Nat) : Nat :=
  (List.range count).countP fun value => held value && decide (last value + 1 = place)

theorem liveFrontier_succ (count place : Nat) :
    liveFrontier held last (count + 1) place =
      liveFrontier held last count place + if held count ∧ place ≤ last count then 1 else 0 := by
  unfold liveFrontier
  simp only [List.range_succ, List.countP_append, List.countP_singleton, Bool.and_eq_true,
    decide_eq_true_eq]

theorem expiring_succ (count place : Nat) :
    expiring held last (count + 1) place =
      expiring held last count place + if held count ∧ last count + 1 = place then 1 else 0 := by
  unfold expiring
  simp only [List.range_succ, List.countP_append, List.countP_singleton, Bool.and_eq_true,
    decide_eq_true_eq]

/-- What is live at a place goes on or is released at the next one. -/
theorem liveFrontier_release (count place : Nat) :
    liveFrontier held last count place =
      liveFrontier held last count (place + 1) + expiring held last count (place + 1) := by
  induction count with
  | zero => rfl
  | succ count ih =>
    rw [liveFrontier_succ, liveFrontier_succ, expiring_succ, ih]
    rcases Nat.lt_trichotomy (last count) place with before | same | after
    · rw [if_neg (by omega), if_neg (by omega), if_neg (by omega)]
      omega
    · subst same
      rw [if_neg (c := _ ∧ last count + 1 ≤ _) (by omega)]
      simp only [le_refl, and_true]
      omega
    · rw [if_neg (c := _ ∧ last count + 1 = _) (by omega)]
      simp only [after.le, Nat.succ_le_of_lt after, and_true]
      omega

/-- What the pass has counted before it comes to a place. -/
structure Frontier (place live : Nat) (expirations : Nat → Nat) : Prop where
  live : live = liveFrontier held last place place + expiring held last place place
  expirations : expirations = expiring held last place

theorem Frontier.start : Frontier held last 0 0 fun _ => 0 :=
  ⟨rfl, rfl⟩

end

section
variable {held : Nat → Bool} {last : Nat → Nat} {place live : Nat} {expirations : Nat → Nat}

/-- Released are the values whose last use was the place before. -/
theorem Frontier.release (counted : Frontier held last place live expirations) :
    live - expirations place = liveFrontier held last place place := by
  rw [counted.live, counted.expirations, Nat.add_sub_cancel]

/-- A value that is not held leaves the count. -/
theorem Frontier.skip (counted : Frontier held last place live expirations)
    (free : held place = false) :
    liveFrontier held last (place + 1) place = live - expirations place ∧
      Frontier held last (place + 1) (live - expirations place) expirations := by
  have same : liveFrontier held last (place + 1) place = live - expirations place := by
    rw [counted.release, liveFrontier_succ, free]
    exact Nat.add_zero _
  refine ⟨same, ?_, ?_⟩
  · rw [← liveFrontier_release, same]
  · funext later
    rw [counted.expirations, expiring_succ, free]
    exact (Nat.add_zero _).symm

/-- A value that is held is released after its last use. -/
theorem Frontier.define (counted : Frontier held last place live expirations)
    (taken : held place = true) (used : place ≤ last place) :
    liveFrontier held last (place + 1) place = live - expirations place + 1 ∧
      Frontier held last (place + 1) (live - expirations place + 1)
        (Function.update expirations (last place + 1) (expirations (last place + 1) + 1)) := by
  have same : liveFrontier held last (place + 1) place = live - expirations place + 1 := by
    rw [counted.release, liveFrontier_succ, if_pos ⟨taken, used⟩]
  refine ⟨same, ?_, ?_⟩
  · rw [← liveFrontier_release, same]
  · funext later
    rw [counted.expirations, expiring_succ, Function.update_apply]
    by_cases here : later = last place + 1
    · rw [if_pos here, if_pos ⟨taken, here.symm⟩, here]
    · rw [if_neg here, if_neg fun both => here both.2.symm, Nat.add_zero]

end
end ILEmu.Foundation
