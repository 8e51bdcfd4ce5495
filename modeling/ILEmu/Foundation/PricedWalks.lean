import Mathlib.Tactic.Common

/-! Walks of a deterministic system whose moves have a price, under a limit on the moves and a
budget. A verdict on one pair of limits answers other pairs as well. -/
namespace ILEmu.Foundation.PricedWalks
variable {σ : Type*}

/-- A move costs something, and ends the walk at its goal or goes on from another place. -/
structure Move (σ : Type*) where
  cost : Nat
  next : Option σ

/-- What one walk has found: its goal and the least limits that reach it, that the goal is never
reached, or that no walk under either limit reaches it. -/
inductive Verdict where
  | reached (moves cost : Nat)
  | blocked
  | exhausted (moves cost : Nat)
  deriving DecidableEq, Repr

namespace Verdict

/-- The answer of a verdict for a pair of limits, if it has one. -/
def reply : Verdict → Nat → Nat → Option Bool
  | reached moves cost, limit, budget => some (decide (moves ≤ limit ∧ cost ≤ budget))
  | blocked, _, _ => some false
  | exhausted moves cost, limit, budget =>
    if limit ≤ moves ∨ budget ≤ cost then some false else none

def succeeds : Verdict → Bool
  | reached _ _ => true
  | blocked => false
  | exhausted _ _ => false

/-- The verdict as seen from the place that a move leads to. -/
def advance (price : Nat) : Verdict → Verdict
  | reached moves cost => reached (moves - 1) (cost - price)
  | blocked => blocked
  | exhausted moves cost => exhausted (moves - 1) (cost - price)

/-- The verdict as seen from a place that so many moves and so much cost lie behind. -/
def after (count price : Nat) : Verdict → Verdict
  | reached moves cost => reached (moves + count) (cost + price)
  | blocked => blocked
  | exhausted moves cost => exhausted (moves + count) (cost + price)

@[simp] theorem after_zero (verdict : Verdict) : verdict.after 0 0 = verdict := by
  cases verdict <;> rfl

@[simp] theorem after_succeeds (verdict : Verdict) (count price : Nat) :
    (verdict.after count price).succeeds = verdict.succeeds := by
  cases verdict <;> rfl

theorem after_after (verdict : Verdict) (count price further spent : Nat) :
    (verdict.after count price).after further spent =
      verdict.after (count + further) (price + spent) := by
  cases verdict with
  | reached moves cost => simp only [after, Nat.add_assoc]
  | blocked => rfl
  | exhausted moves cost => simp only [after, Nat.add_assoc]

end Verdict

variable (step : σ → Option (Move σ))

/-- The walk reaches its goal within its limits. -/
def reaches : Nat → Nat → σ → Bool
  | 0, _, _ => false
  | limit + 1, budget, place =>
    match step place with
    | none => false
    | some move =>
      if budget < move.cost then false
      else
        match move.next with
        | none => true
        | some place => reaches limit (budget - move.cost) place

def verdict : Nat → Nat → σ → Verdict
  | 0, _, _ => .exhausted 0 0
  | limit + 1, budget, place =>
    match step place with
    | none => .blocked
    | some move =>
      if budget < move.cost then .exhausted 0 budget
      else
        match move.next with
        | none => .reached 1 move.cost
        | some place => (verdict limit (budget - move.cost) place).after 1 move.cost

/-- Every move has its price. -/
def Priced : Prop := ∀ place move, step place = some move → 0 < move.cost

/-- Whatever the verdict answers is what a walk from the place finds out. -/
def Verdict.Right (verdict : Verdict) (place : σ) : Prop :=
  ∀ limit budget answer, verdict.reply limit budget = some answer →
    reaches step limit budget place = answer

variable {step}

@[simp] theorem reaches_zero (budget : Nat) (place : σ) : reaches step 0 budget place = false :=
  rfl

theorem reaches_blocked {place : σ} (blocked : step place = none) (limit budget : Nat) :
    reaches step limit budget place = false := by
  cases limit with
  | zero => rfl
  | succ limit => simp only [reaches, blocked]

theorem reaches_broke {place : σ} {move : Move σ} (taken : step place = some move) {budget : Nat}
    (broke : budget < move.cost) (limit : Nat) : reaches step limit budget place = false := by
  cases limit with
  | zero => rfl
  | succ limit => simp only [reaches, taken, broke, if_true]

theorem reaches_goal {place : σ} {cost : Nat} (taken : step place = some ⟨cost, none⟩)
    (limit budget : Nat) :
    reaches step limit budget place = decide (1 ≤ limit ∧ cost ≤ budget) := by
  cases limit with
  | zero => simp
  | succ limit =>
    simp only [reaches, taken]
    by_cases broke : budget < cost
    · simp [broke]
    · simp [broke, Nat.not_lt.mp broke]

theorem reaches_onward {place next : σ} {cost : Nat} (taken : step place = some ⟨cost, some next⟩)
    (limit budget : Nat) :
    reaches step (limit + 1) budget place =
      (decide (cost ≤ budget) && reaches step limit (budget - cost) next) := by
  simp only [reaches, taken]
  by_cases broke : budget < cost
  · rw [if_pos broke, decide_eq_false (Nat.not_le.mpr broke), Bool.false_and]
  · rw [if_neg broke, decide_eq_true (Nat.not_lt.mp broke), Bool.true_and]

/-- Walks through a priced system need a budget. -/
theorem reaches_broken (priced : Priced step) (limit : Nat) (place : σ) :
    reaches step limit 0 place = false := by
  cases taken : step place with
  | none => exact reaches_blocked taken limit 0
  | some move => exact reaches_broke taken (priced place move taken) limit

namespace Verdict
variable {verdict : Verdict} {place next : σ} {price : Nat}

theorem Right.blocked (never : ∀ limit budget, reaches step limit budget place = false) :
    Right step .blocked place := by
  intro limit budget answer told
  cases told
  exact never limit budget

/-- A move onward carries the verdict with it. -/
theorem Right.advance (priced : Priced step) (taken : step place = some ⟨price, some next⟩)
    (right : Right step verdict place) : Right step (verdict.advance price) next := by
  intro limit budget answer told
  have moved : reaches step (limit + 1) (budget + price) place = reaches step limit budget next := by
    rw [reaches_onward taken]
    simp
  cases verdict with
  | reached moves cost =>
    rw [← moved]
    apply right
    rw [← told]
    simp only [Verdict.advance, reply, Option.some.injEq, decide_eq_decide]
    omega
  | blocked =>
    rw [← moved]
    exact right _ _ _ told
  | exhausted moves cost =>
    simp only [Verdict.advance, reply, Option.ite_none_right_eq_some, Option.some.injEq] at told
    obtain ⟨within, rfl⟩ := told
    by_cases still : limit + 1 ≤ moves ∨ budget + price ≤ cost
    · rw [← moved]
      exact right _ _ _ (by rw [reply, if_pos still])
    · -- The verdict reached only as far as the move itself.
      by_cases none : limit = 0
      · rw [none, reaches_zero]
      · have spent : budget = 0 := by omega
        rw [spent, reaches_broken priced]

/-- A verdict past a move is a verdict on the walks that make it. -/
theorem Right.after (taken : step place = some ⟨price, some next⟩)
    (right : Right step verdict next) : Right step (verdict.after 1 price) place := by
  intro limit budget answer told
  cases limit with
  | zero =>
    cases verdict with
    | reached moves cost => simpa [Verdict.after, reply] using told
    | blocked => simpa [Verdict.after, reply] using told
    | exhausted moves cost => simpa [Verdict.after, reply] using told
  | succ limit =>
    rw [reaches_onward taken]
    cases verdict with
    | reached moves cost =>
      have further := right limit (budget - price) _ rfl
      simp only [Verdict.after, reply, Option.some.injEq] at told
      rw [further, ← told, ← Bool.decide_and, decide_eq_decide]
      omega
    | blocked =>
      rw [right limit (budget - price) _ rfl, Bool.and_false]
      exact Option.some.inj told
    | exhausted moves cost =>
      simp only [Verdict.after, reply, Option.ite_none_right_eq_some, Option.some.injEq] at told
      obtain ⟨within, rfl⟩ := told
      by_cases broke : price ≤ budget
      · have further := right limit (budget - price) false
          (by rw [reply, if_pos (by omega)])
        rw [further, Bool.and_false]
      · rw [decide_eq_false broke, Bool.false_and]

end Verdict

/-- The verdict on one pair of limits is right for every pair that it answers. -/
theorem verdict_right (priced : Priced step) (limit budget : Nat) (place : σ) :
    (verdict step limit budget place).Right step place := by
  induction limit generalizing budget place with
  | zero =>
    intro limit spent answer told
    simp only [verdict, Verdict.reply, Option.ite_none_right_eq_some, Option.some.injEq] at told
    obtain ⟨within, rfl⟩ := told
    rcases within with none | broke
    · rw [Nat.le_zero.mp none, reaches_zero]
    · rw [Nat.le_zero.mp broke, reaches_broken priced]
  | succ limit ih =>
    unfold verdict
    cases taken : step place with
    | none => exact Verdict.Right.blocked (reaches_blocked taken)
    | some move =>
      obtain ⟨cost, next⟩ := move
      dsimp only
      by_cases broke : budget < cost
      · rw [if_pos broke]
        intro limit spent answer told
        simp only [Verdict.reply, Option.ite_none_right_eq_some, Option.some.injEq] at told
        obtain ⟨within, rfl⟩ := told
        rcases within with none | spare
        · rw [Nat.le_zero.mp none, reaches_zero]
        · exact reaches_broke taken (Nat.lt_of_le_of_lt spare broke) limit
      · rw [if_neg broke]
        cases next with
        | none =>
          intro limit spent answer told
          rw [reaches_goal taken]
          exact Option.some.inj told
        | some next => exact (ih (budget - cost) next).after taken

/-- The verdict of a walk says whether the walk itself reaches its goal. -/
theorem verdict_succeeds (limit budget : Nat) (place : σ) :
    (verdict step limit budget place).succeeds = reaches step limit budget place := by
  induction limit generalizing budget place with
  | zero => rfl
  | succ limit ih =>
    unfold verdict reaches
    cases taken : step place with
    | none => rfl
    | some move =>
      obtain ⟨cost, next⟩ := move
      dsimp only
      by_cases broke : budget < cost
      · rw [if_pos broke, if_pos broke]
        rfl
      · rw [if_neg broke, if_neg broke]
        cases next with
        | none => rfl
        | some next =>
          dsimp only
          rw [← ih (budget - cost) next, Verdict.after_succeeds]

end ILEmu.Foundation.PricedWalks
