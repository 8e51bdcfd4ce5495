import Mathlib.Data.List.Pairwise
import Mathlib.Order.Lattice
import Mathlib.Order.MinMax

/-! Half-open ranges of an ordered type: the union of a sorted list of them, and what they leave
of a window. -/
namespace ILEmu.Foundation

structure Range (α : Type*) where
  start : α
  stop : α
  deriving DecidableEq, Repr

namespace Range
variable {α : Type*} [LinearOrder α] {range last : Range α} {ranges : List (Range α)}
  {position stop a : α}

def Holds (range : Range α) (a : α) : Prop := range.start ≤ a ∧ a < range.stop

instance (range : Range α) (a : α) : Decidable (range.Holds a) :=
  inferInstanceAs (Decidable (_ ∧ _))

/-- The point lies in one of the ranges. -/
def Covered (ranges : List (Range α)) (a : α) : Prop := ∃ range ∈ ranges, range.Holds a

def Sorted (ranges : List (Range α)) : Prop :=
  ranges.Pairwise fun early late => early.start ≤ late.start

theorem not_covered_nil : ¬Covered [] a := by
  rintro ⟨range, member, -⟩
  contradiction

@[simp] theorem covered_cons : Covered (range :: ranges) a ↔ range.Holds a ∨ Covered ranges a := by
  unfold Covered
  simp only [List.mem_cons, exists_eq_or_imp]

@[simp] theorem covered_append {others : List (Range α)} :
    Covered (ranges ++ others) a ↔ Covered ranges a ∨ Covered others a := by
  unfold Covered
  simp only [List.mem_append, or_and_right, exists_or]

/-! ### The union of a sorted list -/

/-- The last range grows as long as the next one begins within it or where it ends. -/
def mergeOnto (last : Range α) : List (Range α) → List (Range α)
  | [] => [last]
  | range :: rest =>
    if range.start ≤ last.stop then
      mergeOnto { last with stop := max last.stop range.stop } rest
    else last :: mergeOnto range rest

def merge : List (Range α) → List (Range α)
  | [] => []
  | first :: rest => mergeOnto first rest

theorem covered_mergeOnto (sorted : Sorted (last :: ranges)) :
    Covered (mergeOnto last ranges) a ↔ last.Holds a ∨ Covered ranges a := by
  induction ranges generalizing last with
  | nil => exact covered_cons
  | cons range rest ih =>
    obtain ⟨behind, tail⟩ := List.pairwise_cons.mp sorted
    obtain ⟨behind', tail'⟩ := List.pairwise_cons.mp tail
    have order := behind range List.mem_cons_self
    unfold mergeOnto
    split
    · rename_i touches
      have sorted' : Sorted ({ last with stop := max last.stop range.stop } :: rest) :=
        List.pairwise_cons.mpr ⟨fun other member => order.trans (behind' other member), tail'⟩
      rw [ih sorted', covered_cons, ← or_assoc]
      apply or_congr_left
      unfold Holds
      dsimp only
      rw [lt_max_iff]
      constructor
      · rintro ⟨above, below | below⟩
        · exact .inl ⟨above, below⟩
        · rcases lt_or_ge a last.stop with inside | beyond
          · exact .inl ⟨above, inside⟩
          · exact .inr ⟨touches.trans beyond, below⟩
      · rintro (⟨above, below⟩ | ⟨above, below⟩)
        · exact ⟨above, .inl below⟩
        · exact ⟨order.trans above, .inr below⟩
    · rw [covered_cons, ih tail, covered_cons]

/-- Merging keeps the points. -/
theorem covered_merge (sorted : Sorted ranges) : Covered (merge ranges) a ↔ Covered ranges a := by
  cases ranges with
  | nil => exact Iff.rfl
  | cons first rest => rw [merge, covered_mergeOnto sorted, covered_cons]

/-- The starts of the merged ranges are starts of the ranges, in the same order. -/
theorem mergeOnto_starts (last : Range α) (ranges : List (Range α)) :
    ((mergeOnto last ranges).map Range.start).Sublist
      ((last :: ranges).map Range.start) := by
  induction ranges generalizing last with
  | nil => exact List.Sublist.refl _
  | cons range rest ih =>
    unfold mergeOnto
    split
    · refine (ih _).trans ?_
      exact (List.sublist_cons_self _ _).cons_cons _
    · exact (ih range).cons_cons _

theorem merge_sorted (sorted : Sorted ranges) : Sorted (merge ranges) := by
  have starts : ((merge ranges).map Range.start).Sublist (ranges.map Range.start) := by
    cases ranges with
    | nil => exact List.Sublist.refl _
    | cons first rest => exact mergeOnto_starts first rest
  have pairwise : (ranges.map Range.start).Pairwise (· ≤ ·) := List.pairwise_map.mpr sorted
  exact List.pairwise_map.mp (pairwise.sublist starts)

/-- An end of a merged range is an end of one of the ranges. -/
theorem mergeOnto_ends {P : α → Prop} (ends : ∀ range ∈ last :: ranges, P range.start ∧ P range.stop) :
    ∀ range ∈ mergeOnto last ranges, P range.start ∧ P range.stop := by
  induction ranges generalizing last with
  | nil => exact ends
  | cons range rest ih =>
    obtain ⟨here, others⟩ := List.forall_mem_cons.mp ends
    obtain ⟨next, later⟩ := List.forall_mem_cons.mp others
    unfold mergeOnto
    split
    · apply ih
      refine List.forall_mem_cons.mpr ⟨⟨here.1, ?_⟩, later⟩
      rcases max_choice last.stop range.stop with same | same
      · rw [same]
        exact here.2
      · rw [same]
        exact next.2
    · exact List.forall_mem_cons.mpr ⟨here, ih others⟩

theorem merge_ends {P : α → Prop} (ends : ∀ range ∈ ranges, P range.start ∧ P range.stop) :
    ∀ range ∈ merge ranges, P range.start ∧ P range.stop := by
  cases ranges with
  | nil => exact ends
  | cons first rest => exact mergeOnto_ends ends

/-! ### What sorted ranges leave of a window -/

/-- The rest of the window from a position on, between the ranges. -/
def gaps (stop : α) : α → List (Range α) → List (Range α)
  | position, [] => if position < stop then [⟨position, stop⟩] else []
  | position, range :: rest =>
    if range.start < stop then
      (if position < range.start then [⟨position, min range.start stop⟩] else []) ++
        (if stop ≤ max position range.stop then []
          else gaps stop (max position range.stop) rest)
    else if position < stop then [⟨position, stop⟩] else []

theorem covered_singleton_if {start : α} :
    Covered (if start < stop then [⟨start, stop⟩] else []) a ↔ start ≤ a ∧ a < stop := by
  split
  · rw [covered_cons, or_iff_left not_covered_nil]
    exact Iff.rfl
  · rename_i empty
    refine iff_of_false not_covered_nil ?_
    rintro ⟨above, below⟩
    exact empty (above.trans_lt below)

theorem covered_gaps (sorted : Sorted ranges) :
    Covered (gaps stop position ranges) a ↔ (position ≤ a ∧ a < stop) ∧ ¬Covered ranges a := by
  induction ranges generalizing position with
  | nil =>
    unfold gaps
    rw [covered_singleton_if, and_iff_left not_covered_nil]
  | cons range rest ih =>
    obtain ⟨behind, tail⟩ := List.pairwise_cons.mp sorted
    unfold gaps
    split
    · rename_i before
      rw [min_eq_left before.le, covered_append, covered_singleton_if, covered_cons]
      have later : Covered (if stop ≤ max position range.stop then []
          else gaps stop (max position range.stop) rest) a ↔
            ((position ≤ a ∧ range.stop ≤ a) ∧ a < stop) ∧ ¬Covered rest a := by
        split
        · rename_i full
          refine iff_of_false not_covered_nil ?_
          rintro ⟨⟨⟨above, above'⟩, below⟩, -⟩
          exact absurd (full.trans (max_le above above')) (not_le.mpr below)
        · rw [ih tail, max_le_iff]
      rw [later]
      -- A point before this range is in none of the later ones.
      have early : a < range.start → ¬Covered rest a := by
        rintro below ⟨other, member, above, -⟩
        exact absurd (below.trans_le ((behind other member).trans above)) (lt_irrefl a)
      unfold Holds
      constructor
      · rintro (⟨above, below⟩ | ⟨⟨⟨above, above'⟩, below⟩, free⟩)
        · refine ⟨⟨above, below.trans before⟩, ?_⟩
          rintro (⟨within, -⟩ | covered)
          · exact absurd within (not_le.mpr below)
          · exact early below covered
        · refine ⟨⟨above, below⟩, ?_⟩
          rintro (⟨-, within⟩ | covered)
          · exact absurd within (not_lt.mpr above')
          · exact free covered
      · rintro ⟨⟨above, below⟩, free⟩
        rw [not_or] at free
        rcases lt_or_ge a range.start with ahead | beyond
        · exact .inl ⟨above, ahead⟩
        · exact .inr ⟨⟨⟨above, not_lt.mp fun inside => free.1 ⟨beyond, inside⟩⟩, below⟩, free.2⟩
    · rename_i after
      rw [covered_singleton_if]
      refine (and_iff_left_of_imp ?_).symm
      rintro ⟨-, below⟩ ⟨other, member, above, -⟩
      have order : range.start ≤ other.start := by
        rcases List.mem_cons.mp member with rfl | member
        · exact le_refl _
        · exact behind other member
      exact absurd ((not_lt.mp after).trans (order.trans above)) (not_le.mpr below)

theorem gaps_busy : ∀ gap ∈ gaps stop position ranges, gap.start < gap.stop := by
  have single : ∀ {start finish : α}, ∀ gap ∈ (if start < finish then
      [(⟨start, finish⟩ : Range α)] else []), gap.start < gap.stop := by
    intro start finish gap member
    split at member
    · rw [List.mem_singleton.mp member]
      assumption
    · contradiction
  induction ranges generalizing position with
  | nil => exact single
  | cons range rest ih =>
    unfold gaps
    split
    · rename_i before
      rw [min_eq_left before.le]
      intro gap member
      rcases List.mem_append.mp member with here | later
      · exact single gap here
      · split at later
        · contradiction
        · exact ih gap later
    · exact single

/-- An end of a gap is an end of the window or of one of the ranges. -/
theorem gaps_ends {P : α → Prop} (first : P position) (last : P stop)
    (ends : ∀ range ∈ ranges, P range.start ∧ P range.stop) :
    ∀ gap ∈ gaps stop position ranges, P gap.start ∧ P gap.stop := by
  have single : ∀ {start finish : α}, P start → P finish → ∀ gap ∈ (if start < finish then
      [(⟨start, finish⟩ : Range α)] else []), P gap.start ∧ P gap.stop := by
    intro start finish opens closes gap member
    split at member
    · rw [List.mem_singleton.mp member]
      exact ⟨opens, closes⟩
    · contradiction
  induction ranges generalizing position with
  | nil => exact single first last
  | cons range rest ih =>
    obtain ⟨here, others⟩ := List.forall_mem_cons.mp ends
    unfold gaps
    split
    · rename_i before
      rw [min_eq_left before.le]
      intro gap member
      rcases List.mem_append.mp member with ahead | later
      · exact single first here.1 gap ahead
      · split at later
        · contradiction
        · refine ih ?_ others gap later
          rcases max_choice position range.stop with same | same
          · rw [same]
            exact first
          · rw [same]
            exact here.2
    · exact single first last

end Range
end ILEmu.Foundation
