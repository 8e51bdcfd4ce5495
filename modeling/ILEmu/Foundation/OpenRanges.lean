import Mathlib.Data.List.Basic
import Mathlib.Data.Option.Basic

/-! Ranges of numbers that may be open to the right, and what is left of one of them when
another one is taken out. -/
namespace ILEmu.Foundation

/-- A range without an end contains all that is not before its start. No range is empty. -/
@[ext] structure OpenRange where
  start : Nat
  stop : Option Nat
  busy : ∀ last ∈ stop, start < last
  deriving DecidableEq

namespace OpenRange
variable {r cut : OpenRange} {b : Nat}

def Contains (r : OpenRange) (b : Nat) : Prop := r.start ≤ b ∧ ∀ last ∈ r.stop, b < last

instance (r : OpenRange) (b : Nat) : Decidable (r.Contains b) :=
  inferInstanceAs (Decidable (_ ∧ _))

def before (r other : OpenRange) : Bool :=
  match r.stop with
  | some last => decide (last ≤ other.start)
  | none => false

def overlaps (r other : OpenRange) : Bool := !r.before other && !other.before r

theorem contains_start (r : OpenRange) : r.Contains r.start := ⟨Nat.le_refl _, r.busy⟩

theorem before_iff : r.before cut = true ↔ ∃ last ∈ r.stop, last ≤ cut.start := by
  unfold before
  cases stop : r.stop with
  | none => simp
  | some last => simp

theorem overlaps_iff : r.overlaps cut = true ↔ ∃ b, r.Contains b ∧ cut.Contains b := by
  unfold overlaps
  rw [Bool.and_eq_true, Bool.not_eq_true', Bool.not_eq_true', ← Bool.not_eq_true,
    ← Bool.not_eq_true, before_iff, before_iff]
  constructor
  · rintro ⟨first, second⟩
    rcases Nat.le_total r.start cut.start with order | order
    · refine ⟨cut.start, ⟨order, fun last ends => Nat.not_le.mp fun le => ?_⟩, cut.contains_start⟩
      exact first ⟨last, ends, le⟩
    · refine ⟨r.start, r.contains_start, order, fun last ends => Nat.not_le.mp fun le => ?_⟩
      exact second ⟨last, ends, le⟩
  · rintro ⟨b, ⟨above, below⟩, above', below'⟩
    constructor
    · rintro ⟨last, stops, order⟩
      have := below last stops
      omega
    · rintro ⟨last, stops, order⟩
      have := below' last stops
      omega

/-- What is left of a range that another one overlaps. -/
def leftovers (r cut : OpenRange) : List OpenRange :=
  (if front : r.start < cut.start then
      [{ start := r.start, stop := some cut.start, busy := by rintro last ⟨⟩; exact front }]
    else []) ++
    match cut.stop with
    | none => []
    | some last =>
      if back : ∀ stop ∈ r.stop, last < stop then [{ start := last, stop := r.stop, busy := back }]
      else []

theorem mem_leftovers {part : OpenRange} :
    part ∈ leftovers r cut ↔
      (part.start = r.start ∧ part.stop = some cut.start ∧ r.start < cut.start) ∨
        ∃ last ∈ cut.stop, part.start = last ∧ part.stop = r.stop := by
  unfold leftovers
  rw [List.mem_append]
  apply or_congr
  · split
    · rename_i front
      rw [List.mem_singleton, OpenRange.ext_iff]
      simp [front]
    · rename_i front
      simp [front]
  · cases stop : cut.stop with
    | none => simp
    | some last =>
      dsimp only
      split
      · rw [List.mem_singleton, OpenRange.ext_iff]
        simp [eq_comm]
      · rename_i back
        simp only [List.not_mem_nil, Option.mem_def, Option.some.injEq, exists_eq_left', false_iff,
          not_and]
        rintro start same
        exact back fun stop stops => start ▸ part.busy stop (same ▸ stops)

/-- A part is within the range, and outside of what has been taken out. -/
theorem leftovers_within (overlap : r.overlaps cut = true) {part : OpenRange}
    (member : part ∈ leftovers r cut) (inside : part.Contains b) :
    r.Contains b ∧ ¬cut.Contains b := by
  obtain ⟨common, ⟨above, below⟩, above', below'⟩ := overlaps_iff.mp overlap
  obtain ⟨least, most⟩ := inside
  rcases mem_leftovers.mp member with ⟨start, stop, front⟩ | ⟨last, stops, start, stop⟩
  · have ends := most cut.start stop
    refine ⟨⟨start ▸ least, fun last stops => ?_⟩, fun inside => ?_⟩
    · have := below last stops
      omega
    · exact absurd inside.1 (Nat.not_le.mpr ends)
  · have := below' last stops
    refine ⟨⟨?_, fun other stops => most other (stop ▸ stops)⟩, fun inside => ?_⟩
    · omega
    · have := inside.2 last stops
      omega

theorem leftovers_covers (inside : r.Contains b) (outside : ¬cut.Contains b) :
    ∃ part ∈ leftovers r cut, part.Contains b := by
  by_cases front : b < cut.start
  · have starts : r.start < cut.start := Nat.lt_of_le_of_lt inside.1 front
    refine ⟨⟨r.start, some cut.start, by rintro last ⟨⟩; exact starts⟩,
      mem_leftovers.mpr (.inl ⟨rfl, rfl, starts⟩), inside.1, ?_⟩
    rintro last ⟨⟩
    exact front
  · have stops : ∃ last ∈ cut.stop, last ≤ b := by
      by_contra open'
      refine outside ⟨Nat.not_lt.mp front, fun last ends => Nat.not_le.mp fun above => ?_⟩
      exact open' ⟨last, ends, above⟩
    obtain ⟨last, stops, above⟩ := stops
    have back : ∀ stop ∈ r.stop, last < stop :=
      fun stop ends => Nat.lt_of_le_of_lt above (inside.2 stop ends)
    exact ⟨⟨last, r.stop, back⟩, mem_leftovers.mpr (.inr ⟨last, stops, rfl, rfl⟩), above, inside.2⟩

/-- The front and the back do not meet: what has been taken out lies between them. -/
theorem leftovers_apart :
    (leftovers r cut).Pairwise fun first second => first.overlaps second = false := by
  unfold leftovers
  rw [List.pairwise_append]
  refine ⟨?_, ?_, ?_⟩
  · split
    · exact List.pairwise_singleton ..
    · exact List.Pairwise.nil
  · split
    · exact List.Pairwise.nil
    · split
      · exact List.pairwise_singleton ..
      · exact List.Pairwise.nil
  · intro first front second back
    cases stop : cut.stop with
    | none =>
      rw [stop] at back
      contradiction
    | some last =>
      rw [stop] at back
      dsimp only at back
      split at front
      · split at back
        · rw [List.mem_singleton] at front back
          subst front back
          have busy := cut.busy last stop
          unfold overlaps before
          simp [Nat.le_of_lt busy]
        · contradiction
      · contradiction

end OpenRange

end ILEmu.Foundation
