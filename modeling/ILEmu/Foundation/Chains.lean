import Mathlib.Data.Finset.Card
import Mathlib.Logic.Function.Basic
import Mathlib.Logic.Relation

/-! Chains of a partial function, followed from a point for as long as it has a next one.
A rank that falls with every step rules out cycles and bounds the length of a chain. -/
namespace ILEmu.Foundation
variable {α : Type*} {next next' : α → Option α} {rank : α → Nat}

/-- A chain leads from the one point to the other, in any number of steps. -/
def Leads (next : α → Option α) : α → α → Prop :=
  Relation.ReflTransGen fun a b => next a = some b

/-- No chain comes back to the point that it leaves. -/
def Acyclic (next : α → Option α) : Prop :=
  ∀ a, ¬ Relation.TransGen (fun a b => next a = some b) a a

def Ranked (next : α → Option α) (rank : α → Nat) : Prop :=
  ∀ a b, next a = some b → rank b < rank a

theorem Ranked.acyclic (ranked : Ranked next rank) : Acyclic next := by
  have falls : ∀ {a b}, Relation.TransGen (fun a b => next a = some b) a b → rank b < rank a := by
    intro a b chain
    induction chain with
    | single step => exact ranked _ _ step
    | tail _ step ih => exact (ranked _ _ step).trans ih
  intro a loop
  exact lt_irrefl _ (falls loop)

theorem Ranked.mono (ranked : Ranked next rank) (fewer : ∀ a b, next' a = some b → next a = some b) :
    Ranked next' rank :=
  fun a b step => ranked a b (fewer a b step)

theorem leads_step {a b : α} (step : next a = some b) (goal : α) (different : a ≠ goal) :
    Leads next a goal ↔ Leads next b goal := by
  constructor
  · intro chain
    rcases Relation.ReflTransGen.cases_head chain with rfl | ⟨c, here, rest⟩
    · exact absurd rfl different
    · cases step.symm.trans here
      exact rest
  · intro chain
    exact Relation.ReflTransGen.head step chain

theorem leads_end {a : α} (stop : next a = none) (goal : α) : Leads next a goal ↔ a = goal := by
  constructor
  · intro chain
    rcases Relation.ReflTransGen.cases_head chain with rfl | ⟨c, here, _⟩
    · rfl
    · rw [stop] at here
      contradiction
  · rintro rfl
    exact Relation.ReflTransGen.refl

open Classical in
/-- A new last step of a chain makes no cycle, unless its target already led to its source. -/
theorem Ranked.link [DecidableEq α] (ranked : Ranked next rank) {a b : α}
    (away : ¬ Leads next b a) : ∃ rank', Ranked (Function.update next a (some b)) rank' := by
  refine ⟨fun c => if Leads next c a then rank c + rank b + 1 else rank c, ?_⟩
  intro c d step
  by_cases same : c = a
  · subst c
    obtain rfl : b = d := by simpa using step
    simp only [if_neg away]
    rw [if_pos (show Leads next a a from Relation.ReflTransGen.refl)]
    omega
  · rw [Function.update_of_ne same] at step
    have falls := ranked c d step
    have alike := leads_step step a same
    by_cases leads : Leads next d a
    · simp only [if_pos leads, if_pos (alike.mpr leads)]
      omega
    · simp only [if_neg leads, if_neg (alike.not.mpr leads)]
      exact falls

/-- The points of a finite set that a chain from `a` can still visit. -/
def ahead (rank : α → Nat) (points : Finset α) (a : α) : Finset α :=
  points.filter fun c => rank c ≤ rank a

theorem ahead_step (ranked : Ranked next rank) {points : Finset α} {a b : α} (inside : a ∈ points)
    (step : next a = some b) : (ahead rank points b).card < (ahead rank points a).card := by
  have falls := ranked a b step
  apply Finset.card_lt_card
  refine ⟨?_, ?_⟩
  · intro c member
    obtain ⟨stored, below⟩ := Finset.mem_filter.mp member
    exact Finset.mem_filter.mpr ⟨stored, below.trans falls.le⟩
  · intro all
    have here : a ∈ ahead rank points a := Finset.mem_filter.mpr ⟨inside, le_rfl⟩
    have below := (Finset.mem_filter.mp (all here)).2
    omega

theorem ahead_card_le (rank : α → Nat) (points : Finset α) (a : α) :
    (ahead rank points a).card ≤ points.card :=
  Finset.card_filter_le _ _

end ILEmu.Foundation
