import Mathlib.Data.List.Chain
import Mathlib.Data.List.Sort

/-! Ordered lists of disjoint spans, each with one value: a partial map on the numbers.
A list in which no two neighbours could be joined is determined by the map. -/
namespace ILEmu.Foundation

structure Span (V : Type*) where
  start : Nat
  stop : Nat
  value : V
  deriving DecidableEq, Repr

variable {V : Type*} {spans spans' : List (Span V)} {s t : Span V} {a key low high : Nat} {v : V}

def Span.Contains (s : Span V) (a : Nat) : Prop := s.start ≤ a ∧ a < s.stop

instance (s : Span V) (a : Nat) : Decidable (s.Contains a) := inferInstanceAs (Decidable (_ ∧ _))

/-- The value of the span around a number. -/
def valueAt (spans : List (Span V)) (a : Nat) : Option V :=
  (spans.find? fun s => decide (s.Contains a)).map Span.value

structure Tidy (spans : List (Span V)) : Prop where
  busy : ∀ s ∈ spans, s.start < s.stop
  sorted : spans.Pairwise fun s t => s.start < t.start
  apart : ∀ s ∈ spans, ∀ t ∈ spans, s.start < t.start → s.stop ≤ t.start

theorem eq_of_start (sorted : spans.Pairwise fun s t => s.start < t.start) (first : s ∈ spans)
    (second : t ∈ spans) (same : s.start = t.start) : s = t := by
  induction sorted with
  | nil => contradiction
  | cons below _ ih =>
    rcases List.mem_cons.mp first with here | inner
    · rcases List.mem_cons.mp second with here' | inner'
      · exact here.trans here'.symm
      · have order := below t inner'
        rw [here] at same
        exact absurd same order.ne
    · rcases List.mem_cons.mp second with here' | inner'
      · have order := below s inner
        rw [here'] at same
        exact absurd same order.ne'
      · exact ih inner inner'

namespace Tidy

theorem nil : Tidy ([] : List (Span V)) where
  busy := nofun
  sorted := List.Pairwise.nil
  apart := nofun

theorem eq_of_contains (tidy : Tidy spans) (first : s ∈ spans) (second : t ∈ spans)
    (left : s.Contains a) (right : t.Contains a) : s = t := by
  rcases Nat.lt_trichotomy s.start t.start with before | same | behind
  · have gap := tidy.apart s first t second before
    exact absurd left.2 (by have := right.1; omega)
  · exact eq_of_start tidy.sorted first second same
  · have gap := tidy.apart t second s first behind
    exact absurd right.2 (by have := left.1; omega)

theorem valueAt_of_mem (tidy : Tidy spans) (member : s ∈ spans) (inside : s.Contains a) :
    valueAt spans a = some s.value := by
  unfold valueAt
  cases found : spans.find? fun s => decide (s.Contains a) with
  | none => exact absurd (decide_eq_true inside) (List.find?_eq_none.mp found s member)
  | some t =>
    have around : t.Contains a := by simpa using List.find?_some found
    rw [tidy.eq_of_contains (List.mem_of_find?_eq_some found) member around inside]
    rfl

theorem valueAt_eq_some (tidy : Tidy spans) :
    valueAt spans a = some v ↔ ∃ s ∈ spans, s.Contains a ∧ s.value = v := by
  constructor
  · intro found
    obtain ⟨s, here, rfl⟩ := Option.map_eq_some_iff.mp found
    have around : s.Contains a := by simpa using List.find?_some here
    exact ⟨s, List.mem_of_find?_eq_some here, around, rfl⟩
  · rintro ⟨s, member, inside, rfl⟩
    exact tidy.valueAt_of_mem member inside

end Tidy

theorem valueAt_eq_none : valueAt spans a = none ↔ ∀ s ∈ spans, ¬ s.Contains a := by
  unfold valueAt
  rw [Option.map_eq_none_iff, List.find?_eq_none]
  simp

/-- A list represents a map that it covers wherever the map is defined, and nowhere else. -/
theorem Tidy.valueAt_eq (tidy : Tidy spans) {value : Option V}
    (covered : ∀ v, value = some v → ∃ s ∈ spans, s.Contains a ∧ s.value = v)
    (free : value = none → ∀ s ∈ spans, ¬ s.Contains a) : valueAt spans a = value := by
  cases value with
  | none => exact valueAt_eq_none.mpr (free rfl)
  | some v => exact tidy.valueAt_eq_some.mpr (covered v rfl)

/-- Where a predicate only changes from true to false along a list, the prefix that satisfies
it holds all that do. -/
theorem takeWhile_dropWhile_filter {α : Type*} {p : α → Bool} {items : List α}
    (falls : items.Pairwise fun a b => p b = true → p a = true) :
    items.takeWhile p = items.filter p ∧ items.dropWhile p = items.filter fun a => !p a := by
  induction falls with
  | nil => exact ⟨rfl, rfl⟩
  | @cons a rest before _ ih =>
    by_cases holds : p a = true
    · rw [List.takeWhile_cons_of_pos holds, List.dropWhile_cons_of_pos holds,
        List.filter_cons_of_pos holds, List.filter_cons_of_neg (by simp [holds]), ih.1, ih.2]
      exact ⟨rfl, rfl⟩
    · have none : ∀ b ∈ rest, p b = false := by
        intro b member
        exact Bool.eq_false_iff.mpr fun later => holds (before b member later)
      rw [List.takeWhile_cons_of_neg holds, List.dropWhile_cons_of_neg holds,
        List.filter_cons_of_neg holds, List.filter_cons_of_pos (by simp [holds]),
        List.filter_eq_nil_iff.mpr (by simpa using none),
        List.filter_eq_self.mpr (by simpa using none)]
      exact ⟨rfl, rfl⟩

/-- The list split before the first span that starts at the key or later. -/
def lowerBound (key : Nat) (spans : List (Span V)) : List (Span V) × List (Span V) :=
  (spans.takeWhile (·.start < key), spans.dropWhile (·.start < key))

/-- The list split before the first span that starts after the key. -/
def upperBound (key : Nat) (spans : List (Span V)) : List (Span V) × List (Span V) :=
  (spans.takeWhile (·.start ≤ key), spans.dropWhile (·.start ≤ key))

theorem lowerBound_append (key : Nat) (spans : List (Span V)) :
    (lowerBound key spans).1 ++ (lowerBound key spans).2 = spans :=
  List.takeWhile_append_dropWhile

theorem upperBound_append (key : Nat) (spans : List (Span V)) :
    (upperBound key spans).1 ++ (upperBound key spans).2 = spans :=
  List.takeWhile_append_dropWhile

theorem lowerBound_eq (sorted : spans.Pairwise fun s t => s.start < t.start) (key : Nat) :
    lowerBound key spans =
      (spans.filter (·.start < key), spans.filter fun s => !decide (s.start < key)) := by
  have both := takeWhile_dropWhile_filter (p := fun s => decide (s.start < key)) (sorted.imp
    fun order below => decide_eq_true (order.trans (of_decide_eq_true below)))
  exact Prod.ext both.1 both.2

theorem upperBound_eq (sorted : spans.Pairwise fun s t => s.start < t.start) (key : Nat) :
    upperBound key spans =
      (spans.filter (·.start ≤ key), spans.filter fun s => !decide (s.start ≤ key)) := by
  have both := takeWhile_dropWhile_filter (p := fun s => decide (s.start ≤ key)) (sorted.imp
    fun order below => decide_eq_true (order.le.trans (of_decide_eq_true below)))
  exact Prod.ext both.1 both.2

theorem mem_lowerBound (sorted : spans.Pairwise fun s t => s.start < t.start) :
    (s ∈ (lowerBound key spans).1 ↔ s ∈ spans ∧ s.start < key) ∧
      (s ∈ (lowerBound key spans).2 ↔ s ∈ spans ∧ key ≤ s.start) := by
  rw [lowerBound_eq sorted]
  simp

theorem mem_upperBound (sorted : spans.Pairwise fun s t => s.start < t.start) :
    (s ∈ (upperBound key spans).1 ↔ s ∈ spans ∧ s.start ≤ key) ∧
      (s ∈ (upperBound key spans).2 ↔ s ∈ spans ∧ key < s.start) := by
  rw [upperBound_eq sorted]
  simp

/-- The greatest element of an ordered list is its last. -/
theorem getLast_max (sorted : spans.Pairwise fun s t => s.start < t.start)
    (last : spans.getLast? = some s) : s ∈ spans ∧ ∀ t ∈ spans, t.start ≤ s.start := by
  obtain ⟨front, rfl⟩ := List.getLast?_eq_some_iff.mp last
  refine ⟨by simp, ?_⟩
  intro t member
  rcases List.mem_append.mp member with early | here
  · exact ((List.pairwise_append.mp sorted).2.2 t early s (List.mem_singleton_self s)).le
  · rw [List.mem_singleton.mp here]

theorem head_min (sorted : spans.Pairwise fun s t => s.start < t.start)
    (first : spans.head? = some s) : s ∈ spans ∧ ∀ t ∈ spans, s.start ≤ t.start := by
  obtain ⟨rest, rfl⟩ := List.head?_eq_some_iff.mp first
  refine ⟨List.mem_cons_self, ?_⟩
  intro t member
  rcases List.mem_cons.mp member with rfl | later
  · exact Nat.le_refl _
  · exact ((List.pairwise_cons.mp sorted).1 t later).le

theorem lowerBound_sorted (sorted : spans.Pairwise fun s t => s.start < t.start) (key : Nat) :
    (lowerBound key spans).1.Pairwise (fun s t => s.start < t.start) ∧
      (lowerBound key spans).2.Pairwise fun s t => s.start < t.start :=
  ⟨sorted.sublist (List.takeWhile_sublist _), sorted.sublist (List.dropWhile_sublist _)⟩

theorem upperBound_sorted (sorted : spans.Pairwise fun s t => s.start < t.start) (key : Nat) :
    (upperBound key spans).1.Pairwise fun s t => s.start < t.start :=
  sorted.sublist (List.takeWhile_sublist _)

/-- `std::map::emplace`, which keeps what the key already has. -/
def emplace (s : Span V) (spans : List (Span V)) : List (Span V) :=
  match lowerBound s.start spans with
  | (before, []) => before ++ [s]
  | (before, t :: after) =>
    if t.start = s.start then spans else before ++ s :: t :: after

theorem emplace_eq (fresh : ∀ t ∈ spans, t.start ≠ s.start) :
    emplace s spans = (lowerBound s.start spans).1 ++ s :: (lowerBound s.start spans).2 := by
  have whole := lowerBound_append s.start spans
  unfold emplace
  generalize lowerBound s.start spans = parts at whole
  obtain ⟨before, after⟩ := parts
  cases after with
  | nil => rfl
  | cons t after =>
    dsimp only
    rw [if_neg]
    apply fresh
    rw [← whole]
    simp

theorem mem_emplace (fresh : ∀ t ∈ spans, t.start ≠ s.start) :
    t ∈ emplace s spans ↔ t = s ∨ t ∈ spans := by
  rw [emplace_eq fresh]
  conv => rhs; rw [← lowerBound_append s.start spans]
  simp only [List.mem_append, List.mem_cons]
  tauto

theorem Tidy.emplace (tidy : Tidy spans) (busy : s.start < s.stop)
    (clear : ∀ t ∈ spans, t.stop ≤ s.start ∨ s.stop ≤ t.start) : Tidy (emplace s spans) := by
  have fresh : ∀ t ∈ spans, t.start ≠ s.start := by
    intro t member
    have wide := tidy.busy t member
    rcases clear t member with before | behind <;> omega
  constructor
  · intro t member
    rcases (mem_emplace fresh).mp member with rfl | old
    · exact busy
    · exact tidy.busy t old
  · rw [emplace_eq fresh]
    have parts := tidy.sorted
    rw [← lowerBound_append s.start spans, List.pairwise_append] at parts
    obtain ⟨front, back, across⟩ := parts
    refine List.pairwise_append.mpr ⟨front, List.pairwise_cons.mpr ⟨?_, back⟩, ?_⟩
    · intro t member
      obtain ⟨old, behind⟩ := (mem_lowerBound tidy.sorted).2.mp member
      exact Nat.lt_of_le_of_ne behind (fresh t old).symm
    · intro t early u late
      rcases List.mem_cons.mp late with rfl | late
      · exact ((mem_lowerBound tidy.sorted).1.mp early).2
      · exact across t early u late
  · intro t first u second order
    rcases (mem_emplace fresh).mp first with rfl | old
    · rcases (mem_emplace fresh).mp second with rfl | old'
      · exact absurd order (Nat.lt_irrefl _)
      · have wide := tidy.busy u old'
        rcases clear u old' with before | behind <;> omega
    · rcases (mem_emplace fresh).mp second with rfl | old'
      · have wide := tidy.busy t old
        rcases clear t old with before | behind <;> omega
      · exact tidy.apart t old u old' order

theorem valueAt_emplace (tidy : Tidy spans) (busy : s.start < s.stop)
    (clear : ∀ t ∈ spans, t.stop ≤ s.start ∨ s.stop ≤ t.start) (a : Nat) :
    valueAt (emplace s spans) a = if s.Contains a then some s.value else valueAt spans a := by
  have fresh : ∀ t ∈ spans, t.start ≠ s.start := by
    intro t member
    have wide := tidy.busy t member
    rcases clear t member with before | behind <;> omega
  have tidy' := tidy.emplace busy clear
  split
  · exact tidy'.valueAt_of_mem ((mem_emplace fresh).mpr (.inl rfl)) ‹_›
  · apply tidy'.valueAt_eq
    · intro v found
      obtain ⟨t, member, inside, rfl⟩ := tidy.valueAt_eq_some.mp found
      exact ⟨t, (mem_emplace fresh).mpr (.inr member), inside, rfl⟩
    · intro free t member
      rcases (mem_emplace fresh).mp member with rfl | old
      · assumption
      · exact valueAt_eq_none.mp free t old

/-- One span gives way to one that starts there too and is no longer. -/
theorem Tidy.replace {before after : List (Span V)} {old new : Span V}
    (tidy : Tidy (before ++ old :: after)) (same : new.start = old.start)
    (busy : new.start < new.stop) (within : new.stop ≤ old.stop) :
    Tidy (before ++ new :: after) := by
  have origin : ∀ t ∈ before ++ new :: after, ∃ u ∈ before ++ old :: after,
      u.start = t.start ∧ t.stop ≤ u.stop := by
    intro t member
    simp only [List.mem_append, List.mem_cons] at member
    rcases member with early | rfl | late
    · exact ⟨t, by simp [early], rfl, Nat.le_refl _⟩
    · exact ⟨old, by simp, same.symm, within⟩
    · exact ⟨t, by simp [late], rfl, Nat.le_refl _⟩
  constructor
  · intro t member
    simp only [List.mem_append, List.mem_cons] at member
    rcases member with early | rfl | late
    · exact tidy.busy t (by simp [early])
    · exact busy
    · exact tidy.busy t (by simp [late])
  · have parts := tidy.sorted
    simp only [List.pairwise_append, List.pairwise_cons, List.forall_mem_cons] at parts ⊢
    rw [same]
    exact parts
  · intro t first u second order
    obtain ⟨t', first', start, longer⟩ := origin t first
    obtain ⟨u', second', start', _⟩ := origin u second
    have gap := tidy.apart t' first' u' second' (by omega)
    omega

theorem Tidy.valueAt_replace {before after : List (Span V)} {old new : Span V}
    (tidy : Tidy (before ++ old :: after)) (same : new.start = old.start)
    (same' : new.stop = old.stop) (a : Nat) :
    valueAt (before ++ new :: after) a =
      if old.Contains a then some new.value else valueAt (before ++ old :: after) a := by
  have busy := tidy.busy old (by simp)
  have tidy' : Tidy (before ++ new :: after) := tidy.replace same (by omega) same'.le
  have alike : new.Contains a ↔ old.Contains a := by
    unfold Span.Contains
    rw [same, same']
  split
  · exact tidy'.valueAt_of_mem (by simp) (alike.mpr ‹_›)
  · rename_i outside
    apply tidy'.valueAt_eq
    · intro v found
      obtain ⟨t, member, inside, rfl⟩ := tidy.valueAt_eq_some.mp found
      simp only [List.mem_append, List.mem_cons] at member
      rcases member with early | rfl | late
      · exact ⟨t, by simp [early], inside, rfl⟩
      · exact absurd inside outside
      · exact ⟨t, by simp [late], inside, rfl⟩
    · intro free t member inside
      have none := valueAt_eq_none.mp free
      simp only [List.mem_append, List.mem_cons] at member
      rcases member with early | rfl | late
      · exact none t (by simp [early]) inside
      · exact outside (alike.mp inside)
      · exact none t (by simp [late]) inside

/-- No span has the point inside. -/
def Uncut (point : Nat) (spans : List (Span V)) : Prop :=
  ∀ s ∈ spans, s.start < point → s.stop ≤ point

/-- The span around the point is cut in two. -/
def cutAt (point : Nat) (spans : List (Span V)) : List (Span V) :=
  match upperBound point spans with
  | (before, after) =>
    match before.getLast? with
    | none => spans
    | some containing =>
      if point ≤ containing.start ∨ containing.stop ≤ point then spans
      else
        emplace { containing with start := point }
          (before.dropLast ++ { containing with stop := point } :: after)

/-- What cutting at a point leaves: the same map, with no span across the point. -/
structure Cut (point : Nat) (spans spans' : List (Span V)) : Prop where
  tidy : Tidy spans'
  same : ∀ a, valueAt spans' a = valueAt spans a
  uncut : Uncut point spans'
  others : ∀ other, Uncut other spans → Uncut other spans'
  within : ∀ bound, (∀ s ∈ spans, s.stop ≤ bound) → ∀ s ∈ spans', s.stop ≤ bound

/-- The last span that starts at the point or before it is the only one that can be cut. -/
theorem Tidy.uncut_of_last (tidy : Tidy spans) {before after : List (Span V)} {point : Nat}
    {containing : Span V} (split : spans = before ++ containing :: after)
    (early : containing.start ≤ point) (late : ∀ t ∈ after, point < t.start)
    (clear : point ≤ containing.start ∨ containing.stop ≤ point) : Uncut point spans := by
  subst split
  intro t member begun
  simp only [List.mem_append, List.mem_cons] at member
  rcases member with front | rfl | back
  · have sorted := tidy.sorted
    rw [List.pairwise_append] at sorted
    have order := sorted.2.2 t front containing List.mem_cons_self
    have gap := tidy.apart t (by simp [front]) containing (by simp) order
    have wide := tidy.busy containing (by simp)
    rcases clear with behind | before <;> omega
  · rcases clear with behind | before <;> omega
  · have behind := late t back
    omega

theorem Tidy.cut_containing {before after : List (Span V)} {containing : Span V} {point : Nat}
    (tidy : Tidy (before ++ containing :: after)) (begun : containing.start < point)
    (unended : point < containing.stop) :
    Cut point (before ++ containing :: after)
      (Foundation.emplace { containing with start := point }
        (before ++ { containing with stop := point } :: after)) := by
  have around : containing ∈ before ++ containing :: after := by simp
  have front : ∀ t ∈ before, t.stop ≤ containing.start := by
    intro t member
    have sorted := tidy.sorted
    rw [List.pairwise_append] at sorted
    exact tidy.apart t (by simp [member]) containing around
      (sorted.2.2 t member containing List.mem_cons_self)
  have back : ∀ t ∈ after, containing.stop ≤ t.start := by
    intro t member
    have sorted := tidy.sorted
    rw [List.pairwise_append] at sorted
    exact tidy.apart containing around t (by simp [member])
      ((List.pairwise_cons.mp sorted.2.1).1 t member)
  let left : Span V := { containing with stop := point }
  let right : Span V := { containing with start := point }
  have shortened : Tidy (before ++ left :: after) := tidy.replace rfl begun unended.le
  have clear : ∀ t ∈ before ++ left :: after, t.stop ≤ right.start ∨ right.stop ≤ t.start := by
    intro t member
    simp only [List.mem_append, List.mem_cons] at member
    rcases member with early | rfl | late
    · have gap := front t early
      exact .inl (gap.trans begun.le)
    · exact .inl (Nat.le_refl _)
    · exact .inr (back t late)
  have fresh : ∀ t ∈ before ++ left :: after, t.start ≠ right.start := by
    intro t member
    have wide := shortened.busy t member
    rcases clear t member with early | late
    · exact (wide.trans_le early).ne
    · exact (unended.trans_le late).ne'
  have members : ∀ t, t ∈ Foundation.emplace right (before ++ left :: after) ↔
      t = right ∨ t = left ∨ t ∈ before ∨ t ∈ after := by
    intro t
    rw [mem_emplace fresh]
    simp only [List.mem_append, List.mem_cons]
    tauto
  have tidy' := shortened.emplace (s := right) unended clear
  refine ⟨tidy', ?_, ?_, ?_, ?_⟩
  · intro a
    apply tidy'.valueAt_eq
    · intro v found
      obtain ⟨t, member, inside, rfl⟩ := tidy.valueAt_eq_some.mp found
      simp only [List.mem_append, List.mem_cons] at member
      rcases member with early | rfl | late
      · exact ⟨t, (members t).mpr (.inr (.inr (.inl early))), inside, rfl⟩
      · by_cases low : a < point
        · exact ⟨left, (members left).mpr (.inr (.inl rfl)), ⟨inside.1, low⟩, rfl⟩
        · exact ⟨right, (members right).mpr (.inl rfl), ⟨Nat.not_lt.mp low, inside.2⟩, rfl⟩
      · exact ⟨t, (members t).mpr (.inr (.inr (.inr late))), inside, rfl⟩
    · intro free t member inside
      have none := valueAt_eq_none.mp free
      rcases (members t).mp member with rfl | rfl | early | late
      · exact none containing around ⟨begun.le.trans inside.1, inside.2⟩
      · exact none containing around ⟨inside.1, inside.2.trans unended⟩
      · exact none t (by simp [early]) inside
      · exact none t (by simp [late]) inside
  · intro t member early
    rcases (members t).mp member with rfl | rfl | before' | after'
    · exact absurd early (Nat.lt_irrefl _)
    · exact Nat.le_refl _
    · exact (front t before').trans begun.le
    · have behind := back t after'
      omega
  · intro other uncut t member early
    rcases (members t).mp member with rfl | rfl | before' | after'
    · exact uncut containing around (begun.trans early)
    · exact unended.le.trans (uncut containing around early)
    · exact uncut t (by simp [before']) early
    · exact uncut t (by simp [after']) early
  · intro bound below t member
    rcases (members t).mp member with rfl | rfl | before' | after'
    · exact below containing around
    · exact unended.le.trans (below containing around)
    · exact below t (by simp [before'])
    · exact below t (by simp [after'])

theorem Tidy.cutAt (tidy : Tidy spans) (point : Nat) : Cut point spans (cutAt point spans) := by
  have whole := upperBound_append point spans
  have early : ∀ t ∈ (upperBound point spans).1, t.start ≤ point :=
    fun t member => ((mem_upperBound tidy.sorted).1.mp member).2
  have late : ∀ t ∈ (upperBound point spans).2, point < t.start :=
    fun t member => ((mem_upperBound tidy.sorted).2.mp member).2
  unfold Foundation.cutAt
  generalize upperBound point spans = parts at whole early late
  obtain ⟨before, after⟩ := parts
  dsimp only at whole early late ⊢
  have unchanged (uncut : Uncut point spans) : Cut point spans spans :=
    ⟨tidy, fun _ => rfl, uncut, fun _ same => same, fun _ same => same⟩
  cases last : before.getLast? with
  | none =>
    obtain rfl := List.getLast?_eq_none_iff.mp last
    apply unchanged
    intro t member early
    rw [← whole, List.nil_append] at member
    exact absurd early (Nat.lt_asymm (late t member))
  | some containing =>
    obtain ⟨front, rfl⟩ := List.getLast?_eq_some_iff.mp last
    rw [List.append_assoc, List.singleton_append] at whole
    dsimp only
    rw [List.dropLast_concat]
    split
    · exact unchanged (tidy.uncut_of_last whole.symm (early containing (by simp)) late ‹_›)
    · rename_i inside
      obtain ⟨begun, unended⟩ := not_or.mp inside
      subst whole
      exact tidy.cut_containing (Nat.not_le.mp begun) (Nat.not_le.mp unended)

/-- The loop over the spans that start before the stop. -/
def onFront (stop : Nat) (change : V → V) : List (Span V) → List (Span V)
  | [] => []
  | s :: rest =>
    if s.start < stop then { s with value := change s.value } :: onFront stop change rest
    else s :: rest

/-- The loop over the spans that start between two points. -/
def adjust (low high : Nat) (change : V → V) (spans : List (Span V)) : List (Span V) :=
  let (before, after) := lowerBound low spans
  before ++ onFront high change after

def eraseBetween (low high : Nat) (spans : List (Span V)) : List (Span V) :=
  let (before, after) := lowerBound low spans
  before ++ after.dropWhile (·.start < high)

def Span.adjusted (low high : Nat) (change : V → V) (s : Span V) : Span V :=
  if low ≤ s.start ∧ s.start < high then { s with value := change s.value } else s

@[simp] theorem Span.adjusted_start (change : V → V) :
    (s.adjusted low high change).start = s.start := by
  unfold adjusted
  split <;> rfl

@[simp] theorem Span.adjusted_stop (change : V → V) :
    (s.adjusted low high change).stop = s.stop := by
  unfold adjusted
  split <;> rfl

theorem map_adjusted_outside {change : V → V}
    (outside : ∀ s ∈ spans, ¬ (low ≤ s.start ∧ s.start < high)) :
    spans.map (Span.adjusted low high change) = spans := by
  have same : ∀ s ∈ spans, Span.adjusted low high change s = id s :=
    fun s member => if_neg (outside s member)
  rw [List.map_congr_left same, List.map_id]

theorem onFront_eq {change : V → V} (sorted : spans.Pairwise fun s t => s.start < t.start)
    (behind : ∀ s ∈ spans, low ≤ s.start) :
    onFront high change spans = spans.map (Span.adjusted low high change) := by
  induction sorted with
  | nil => rfl
  | @cons s rest below _ ih =>
    have here := behind s List.mem_cons_self
    have later : ∀ t ∈ rest, low ≤ t.start :=
      fun t member => behind t (List.mem_cons_of_mem _ member)
    unfold onFront
    by_cases early : s.start < high
    · rw [if_pos early, ih later, List.map_cons, Span.adjusted, if_pos ⟨here, early⟩]
    · rw [if_neg early, List.map_cons, Span.adjusted, if_neg (fun both => early both.2),
        map_adjusted_outside]
      rintro t member ⟨_, before⟩
      exact early ((below t member).trans before)

theorem adjust_eq (sorted : spans.Pairwise fun s t => s.start < t.start) (low high : Nat)
    (change : V → V) :
    adjust low high change spans = spans.map (Span.adjusted low high change) := by
  have front : ∀ s ∈ (lowerBound low spans).1, ¬ (low ≤ s.start ∧ s.start < high) :=
    fun s member both => Nat.not_lt.mpr both.1 ((mem_lowerBound sorted).1.mp member).2
  have back : ∀ s ∈ (lowerBound low spans).2, low ≤ s.start :=
    fun s member => ((mem_lowerBound sorted).2.mp member).2
  have rest := (lowerBound_sorted sorted low).2
  unfold adjust
  dsimp only
  rw [onFront_eq rest back]
  conv => rhs; rw [← lowerBound_append low spans]
  rw [List.map_append, map_adjusted_outside front]

theorem Tidy.adjust (tidy : Tidy spans) (low high : Nat) (change : V → V) :
    Tidy (adjust low high change spans) := by
  rw [adjust_eq tidy.sorted]
  constructor
  · intro s member
    obtain ⟨t, old, rfl⟩ := List.mem_map.mp member
    simpa using tidy.busy t old
  · rw [List.pairwise_map]
    simpa using tidy.sorted
  · intro s first t second order
    obtain ⟨s, old, rfl⟩ := List.mem_map.mp first
    obtain ⟨t, old', rfl⟩ := List.mem_map.mp second
    simp only [Span.adjusted_start, Span.adjusted_stop] at order ⊢
    exact tidy.apart s old t old' order

/-- A span with no cut point inside is between two of them if one of its numbers is. -/
theorem between_iff (uncut_low : Uncut low spans) (uncut_high : Uncut high spans)
    (member : s ∈ spans) (inside : s.Contains a) :
    (low ≤ s.start ∧ s.start < high) ↔ low ≤ a ∧ a < high := by
  have left := uncut_low s member
  have right := uncut_high s member
  obtain ⟨begun, unended⟩ := inside
  omega

theorem Tidy.valueAt_adjust (tidy : Tidy spans) (uncut_low : Uncut low spans)
    (uncut_high : Uncut high spans) (change : V → V) (a : Nat) :
    valueAt (Foundation.adjust low high change spans) a =
      if low ≤ a ∧ a < high then (valueAt spans a).map change else valueAt spans a := by
  have tidy' := tidy.adjust low high change
  rw [adjust_eq tidy.sorted] at tidy' ⊢
  cases found : valueAt spans a with
  | none =>
    have free := valueAt_eq_none.mp found
    have missing : valueAt (spans.map (Span.adjusted low high change)) a = none := by
      apply valueAt_eq_none.mpr
      intro s member inside
      obtain ⟨t, old, rfl⟩ := List.mem_map.mp member
      unfold Span.Contains at inside
      rw [Span.adjusted_start, Span.adjusted_stop] at inside
      exact free t old inside
    rw [missing]
    split <;> rfl
  | some v =>
    obtain ⟨s, member, inside, rfl⟩ := tidy.valueAt_eq_some.mp found
    have around : (s.adjusted low high change).Contains a := by
      unfold Span.Contains
      rw [Span.adjusted_start, Span.adjusted_stop]
      exact inside
    rw [tidy'.valueAt_of_mem (List.mem_map_of_mem member) around]
    unfold Span.adjusted
    have same := between_iff uncut_low uncut_high member inside
    by_cases between : low ≤ a ∧ a < high
    · rw [if_pos (same.mpr between), if_pos between]
      rfl
    · rw [if_neg (same.not.mpr between), if_neg between]

theorem adjust_within (sorted : spans.Pairwise fun s t => s.start < t.start) {change : V → V}
    {bound : Nat} (within : ∀ s ∈ spans, s.stop ≤ bound) :
    ∀ s ∈ adjust low high change spans, s.stop ≤ bound := by
  rw [adjust_eq sorted]
  intro s member
  obtain ⟨t, old, rfl⟩ := List.mem_map.mp member
  rw [Span.adjusted_stop]
  exact within t old

theorem mem_eraseBetween (sorted : spans.Pairwise fun s t => s.start < t.start) :
    s ∈ eraseBetween low high spans ↔ s ∈ spans ∧ ¬ (low ≤ s.start ∧ s.start < high) := by
  have rest := (lowerBound_sorted sorted low).2
  have behind : s ∈ (lowerBound low spans).2.dropWhile (·.start < high) ↔
      s ∈ (lowerBound low spans).2 ∧ high ≤ s.start :=
    (mem_lowerBound rest).2
  unfold eraseBetween
  dsimp only
  rw [List.mem_append, behind, (mem_lowerBound sorted).1, (mem_lowerBound sorted).2]
  constructor
  · rintro (⟨member, early⟩ | ⟨⟨member, _⟩, late⟩)
    · exact ⟨member, fun both => absurd both.1 (Nat.not_le.mpr early)⟩
    · exact ⟨member, fun both => absurd both.2 (Nat.not_lt.mpr late)⟩
  · rintro ⟨member, outside⟩
    by_cases early : s.start < low
    · exact .inl ⟨member, early⟩
    · have begun := Nat.not_lt.mp early
      exact .inr ⟨⟨member, begun⟩, Nat.not_lt.mp fun before => outside ⟨begun, before⟩⟩

theorem eraseBetween_sublist (low high : Nat) (spans : List (Span V)) :
    (eraseBetween low high spans).Sublist spans := by
  unfold eraseBetween
  dsimp only
  conv => rhs; rw [← lowerBound_append low spans]
  exact (List.Sublist.refl _).append (List.dropWhile_sublist _)

theorem Tidy.sublist (tidy : Tidy spans) (sub : spans'.Sublist spans) : Tidy spans' where
  busy := fun s member => tidy.busy s (sub.subset member)
  sorted := tidy.sorted.sublist sub
  apart := fun s first t second => tidy.apart s (sub.subset first) t (sub.subset second)

theorem Tidy.valueAt_eraseBetween (tidy : Tidy spans) (uncut_low : Uncut low spans)
    (uncut_high : Uncut high spans) (a : Nat) :
    valueAt (eraseBetween low high spans) a =
      if low ≤ a ∧ a < high then none else valueAt spans a := by
  apply (tidy.sublist (eraseBetween_sublist low high spans)).valueAt_eq
  · intro v found
    split at found
    · contradiction
    · rename_i outside
      obtain ⟨s, member, inside, rfl⟩ := tidy.valueAt_eq_some.mp found
      refine ⟨s, (mem_eraseBetween tidy.sorted).mpr ⟨member, ?_⟩, inside, rfl⟩
      rw [between_iff uncut_low uncut_high member inside]
      exact outside
  · intro free s member inside
    obtain ⟨old, outside⟩ := (mem_eraseBetween tidy.sorted).mp member
    rw [between_iff uncut_low uncut_high old inside] at outside
    rw [if_neg outside] at free
    exact valueAt_eq_none.mp free s old inside

theorem valueAt_cons (s : Span V) (rest : List (Span V)) (a : Nat) :
    valueAt (s :: rest) a = if s.Contains a then some s.value else valueAt rest a := by
  unfold valueAt
  rw [List.find?_cons]
  by_cases inside : s.Contains a <;> simp [inside]

theorem valueAt_append {front : List (Span V)} (outside : ∀ t ∈ front, ¬ t.Contains a) :
    valueAt (front ++ spans) a = valueAt spans a := by
  induction front with
  | nil => rfl
  | cons t front ih =>
    rw [List.cons_append, valueAt_cons, if_neg (outside t List.mem_cons_self)]
    exact ih fun u member => outside u (List.mem_cons_of_mem _ member)

theorem tidy_cons : Tidy (s :: spans) ↔
    s.start < s.stop ∧ (∀ t ∈ spans, s.stop ≤ t.start) ∧ Tidy spans := by
  constructor
  · intro tidy
    have below := (List.pairwise_cons.mp tidy.sorted).1
    refine ⟨tidy.busy s List.mem_cons_self, fun t member => ?_,
      tidy.sublist (List.sublist_cons_self s spans)⟩
    exact tidy.apart s List.mem_cons_self t (List.mem_cons_of_mem _ member) (below t member)
  · rintro ⟨busy, behind, tidy⟩
    constructor
    · intro t member
      rcases List.mem_cons.mp member with rfl | later
      · exact busy
      · exact tidy.busy t later
    · exact List.pairwise_cons.mpr
        ⟨fun t member => busy.trans_le (behind t member), tidy.sorted⟩
    · intro t first u second order
      rcases List.mem_cons.mp first with rfl | later
      · rcases List.mem_cons.mp second with rfl | later'
        · exact absurd order (Nat.lt_irrefl _)
        · exact behind u later'
      · rcases List.mem_cons.mp second with rfl | later'
        · have gap := behind t later
          omega
        · exact tidy.apart t later u later' order

/-- The spans from the last one that starts at the point or before it. -/
def fromContaining (point : Nat) (spans : List (Span V)) : List (Span V) :=
  match upperBound point spans with
  | (before, after) =>
    match before.getLast? with
    | none => []
    | some containing => containing :: after

/-- A walk over spans without gaps, up to the first that does not pass a check. -/
def walk {E : Type*} (stop : Nat) (missing : E) (check : V → Option E) :
    Nat → List (Span V) → Option E
  | cursor, [] => if cursor < stop then some missing else none
  | cursor, s :: rest =>
    if cursor < stop then
      if cursor < s.start ∨ s.stop ≤ cursor then some missing
      else
        match check s.value with
        | some fault => some fault
        | none => walk stop missing check s.stop rest
    else none

/-- What is wrong with one number, if its value has to pass a check. -/
def faultAt {E : Type*} (missing : E) (check : V → Option E) (map : Nat → Option V) (a : Nat) :
    Option E :=
  match map a with
  | none => some missing
  | some v => check v

/-- The fault of the least number of a range that has one. -/
def FirstFault {E : Type*} (fault : Nat → Option E) (low high : Nat) (result : Option E) : Prop :=
  match result with
  | none => ∀ a, low ≤ a → a < high → fault a = none
  | some e => ∃ a, low ≤ a ∧ a < high ∧ fault a = some e ∧
      ∀ b, low ≤ b → b < a → fault b = none

theorem FirstFault.none_iff {E : Type*} {fault : Nat → Option E} {result : Option E}
    (first : FirstFault fault low high result) :
    result = none ↔ ∀ a, low ≤ a → a < high → fault a = none := by
  cases result with
  | none => exact iff_of_true rfl first
  | some e =>
    obtain ⟨a, begun, unended, faulty, _⟩ := first
    apply iff_of_false nofun
    intro clean
    rw [clean a begun unended] at faulty
    contradiction

theorem FirstFault.extend {E : Type*} {fault : Nat → Option E} {result : Option E} {middle : Nat}
    (first : FirstFault fault middle high result) (order : low ≤ middle)
    (clean : ∀ a, low ≤ a → a < middle → fault a = none) : FirstFault fault low high result := by
  cases result with
  | none =>
    intro a begun unended
    by_cases early : a < middle
    · exact clean a begun early
    · exact first a (Nat.not_lt.mp early) unended
  | some e =>
    obtain ⟨a, begun, unended, faulty, before⟩ := first
    refine ⟨a, order.trans begun, unended, faulty, fun b low' below => ?_⟩
    by_cases early : b < middle
    · exact clean b low' early
    · exact before b (Nat.not_lt.mp early) below

theorem FirstFault.here {E : Type*} {fault : Nat → Option E} {e : E} (faulty : fault low = some e)
    (more : low < high) : FirstFault fault low high (some e) :=
  ⟨low, Nat.le_refl _, more, faulty, fun _ begun before => absurd before (Nat.not_lt.mpr begun)⟩

theorem walk_first {E : Type*} {stop cursor : Nat} {missing : E} {check : V → Option E}
    {map : Nat → Option V} (tidy : Tidy spans) (ahead : ∀ t ∈ spans.tail, cursor < t.start)
    (agrees : ∀ a, cursor ≤ a → map a = valueAt spans a) :
    FirstFault (faultAt missing check map) cursor stop
      (walk stop missing check cursor spans) := by
  induction spans generalizing cursor with
  | nil =>
    unfold walk
    split
    · refine FirstFault.here ?_ ‹_›
      unfold faultAt
      rw [agrees cursor (Nat.le_refl _)]
      rfl
    · intro a begun unended
      omega
  | cons s rest ih =>
    obtain ⟨_, behind, tail⟩ := tidy_cons.mp tidy
    unfold walk
    by_cases more : cursor < stop
    · rw [if_pos more]
      by_cases apart : cursor < s.start ∨ s.stop ≤ cursor
      · rw [if_pos apart]
        refine FirstFault.here ?_ more
        have gap : valueAt (s :: rest) cursor = none := by
          apply valueAt_eq_none.mpr
          rintro t member ⟨begun, unended⟩
          rcases List.mem_cons.mp member with rfl | later
          · rcases apart with before | behind <;> omega
          · have beyond := ahead t later
            omega
        unfold faultAt
        rw [agrees cursor (Nat.le_refl _), gap]
      · rw [if_neg apart]
        obtain ⟨begun, unended⟩ := not_or.mp apart
        have inside : ∀ a, cursor ≤ a → a < s.stop →
            faultAt missing check map a = check s.value := by
          intro a low high
          unfold faultAt
          rw [agrees a low, tidy.valueAt_of_mem List.mem_cons_self ⟨by omega, high⟩]
        cases checked : check s.value with
        | some fault =>
          refine FirstFault.here ?_ more
          rw [inside cursor (Nat.le_refl _) (by omega), checked]
        | none =>
          dsimp only
          have later : FirstFault (faultAt missing check map) s.stop stop
              (walk stop missing check s.stop rest) := by
            apply ih tail
            · intro t member
              cases rest with
              | nil => contradiction
              | cons next rest =>
                obtain ⟨busy', behind', _⟩ := tidy_cons.mp tail
                have gap := behind next List.mem_cons_self
                have gap' := behind' t member
                omega
            · intro a low
              rw [agrees a (by omega), valueAt_cons, if_neg]
              exact fun around => Nat.not_lt.mpr low around.2
          apply later.extend (by omega)
          intro a low high
          rw [inside a low high, checked]
    · rw [if_neg more]
      intro a begun unended
      omega

/-- A walk that starts in the span around a point finds the first fault from there. -/
theorem Tidy.walk_fromContaining {E : Type*} (tidy : Tidy spans) (start stop : Nat) (missing : E)
    (check : V → Option E) :
    FirstFault (faultAt missing check (valueAt spans)) start stop
      (walk stop missing check start (fromContaining start spans)) := by
  have whole := upperBound_append start spans
  have early : ∀ t ∈ (upperBound start spans).1, t.start ≤ start :=
    fun t member => ((mem_upperBound tidy.sorted).1.mp member).2
  have late : ∀ t ∈ (upperBound start spans).2, start < t.start :=
    fun t member => ((mem_upperBound tidy.sorted).2.mp member).2
  unfold fromContaining
  generalize upperBound start spans = parts at whole early late
  obtain ⟨before, after⟩ := parts
  dsimp only at whole early late ⊢
  cases last : before.getLast? with
  | none =>
    obtain rfl := List.getLast?_eq_none_iff.mp last
    rw [List.nil_append] at whole
    unfold walk
    split
    · refine FirstFault.here ?_ ‹_›
      have gap : valueAt spans start = none := by
        apply valueAt_eq_none.mpr
        rintro t member ⟨begun, _⟩
        rw [← whole] at member
        exact Nat.not_lt.mpr begun (late t member)
      unfold faultAt
      rw [gap]
    · intro a begun unended
      omega
  | some containing =>
    obtain ⟨front, rfl⟩ := List.getLast?_eq_some_iff.mp last
    rw [List.append_assoc, List.singleton_append] at whole
    have suffix : Tidy (containing :: after) := by
      apply tidy.sublist
      rw [← whole]
      exact List.sublist_append_right front _
    apply walk_first suffix late
    intro a begun
    rw [← whole]
    apply valueAt_append
    rintro t member ⟨_, unended⟩
    have sorted := tidy.sorted
    rw [← whole, List.pairwise_append] at sorted
    have order := sorted.2.2 t member containing List.mem_cons_self
    have gap := tidy.apart t (whole ▸ List.mem_append_left _ member) containing
      (whole ▸ List.mem_append_right _ List.mem_cons_self) order
    have begins := early containing (by simp)
    omega

end ILEmu.Foundation
