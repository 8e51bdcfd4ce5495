import ILEmu.Foundation.Spans
import Mathlib.Algebra.BigOperators.Group.List.Basic
import Mathlib.Algebra.GroupWithZero.Nat
import Mathlib.Order.Interval.Finset.Nat

/-! Neighbouring spans with one value joined into one. The spans that are left are the
longest stretches on which the map is defined and constant. -/
namespace ILEmu.Foundation
variable {V : Type*} {spans : List (Span V)} {s t : Span V} {a bound : Nat}

section coalesce
variable [DecidableEq V]

/-- The loop over neighbours, with the span that may still grow. -/
def coalesceFrom (current : Span V) : List (Span V) → List (Span V)
  | [] => [current]
  | next :: rest =>
    if current.stop = next.start ∧ current.value = next.value then
      coalesceFrom { current with stop := next.stop } rest
    else current :: coalesceFrom next rest

def coalesce : List (Span V) → List (Span V)
  | [] => []
  | current :: rest => coalesceFrom current rest

end coalesce

/-- No two neighbours could be joined. -/
def Joined (spans : List (Span V)) : Prop :=
  spans.IsChain fun s t => s.stop = t.start → s.value ≠ t.value

theorem tidy_join {current next : Span V} {rest : List (Span V)}
    (tidy : Tidy (current :: next :: rest)) :
    Tidy ({ current with stop := next.stop } :: rest) := by
  obtain ⟨busy, behind, tail⟩ := tidy_cons.mp tidy
  obtain ⟨busy', behind', rest'⟩ := tidy_cons.mp tail
  have gap := behind next List.mem_cons_self
  exact tidy_cons.mpr ⟨(busy.trans_le gap).trans busy', behind', rest'⟩

section coalesce
variable [DecidableEq V]

theorem coalesceFrom_head (current : Span V) (rest : List (Span V)) :
    ∃ stop tail, coalesceFrom current rest = { current with stop } :: tail := by
  induction rest generalizing current with
  | nil => exact ⟨current.stop, [], rfl⟩
  | cons next rest ih =>
    unfold coalesceFrom
    split
    · exact ih { current with stop := next.stop }
    · exact ⟨current.stop, _, rfl⟩

/-- What joining neighbours leaves: the same map, with no neighbours to join. -/
structure Coalesced (spans spans' : List (Span V)) : Prop where
  tidy : Tidy spans'
  joined : Joined spans'
  same : ∀ a, valueAt spans' a = valueAt spans a
  within : ∀ bound, (∀ s ∈ spans, s.stop ≤ bound) → ∀ s ∈ spans', s.stop ≤ bound

theorem coalesceFrom_spec {current : Span V} {rest : List (Span V)}
    (tidy : Tidy (current :: rest)) :
    Coalesced (current :: rest) (coalesceFrom current rest) ∧
      ∀ t ∈ coalesceFrom current rest, current.start ≤ t.start := by
  induction rest generalizing current with
  | nil =>
    refine ⟨⟨tidy, List.isChain_singleton _, fun _ => rfl, fun _ below => below⟩, ?_⟩
    intro t member
    rw [List.mem_singleton.mp member]
  | cons next rest ih =>
    unfold coalesceFrom
    split
    · rename_i alike
      obtain ⟨touch, equal⟩ := alike
      obtain ⟨⟨tidy', joined, same, within⟩, behind⟩ := ih (tidy_join tidy)
      refine ⟨⟨tidy', joined, fun a => ?_, fun bound below => ?_⟩, behind⟩
      · have wide := tidy.busy current List.mem_cons_self
        have wide' := tidy.busy next (List.mem_cons_of_mem _ List.mem_cons_self)
        have around : Span.Contains { current with stop := next.stop } a ↔
            current.Contains a ∨ next.Contains a := by
          unfold Span.Contains
          dsimp only
          omega
        rw [same, valueAt_cons, valueAt_cons, valueAt_cons, if_congr around rfl rfl]
        by_cases left : current.Contains a
        · simp [left]
        · simp [left, equal]
      · apply within bound
        intro t member
        rcases List.mem_cons.mp member with rfl | later
        · exact below next (by simp)
        · exact below t (by simp [later])
    · rename_i different
      obtain ⟨busy, after, tail⟩ := tidy_cons.mp tidy
      obtain ⟨⟨tidy', joined, same, within⟩, behind⟩ := ih tail
      have gap := after next List.mem_cons_self
      refine ⟨⟨?_, ?_, fun a => ?_, fun bound below => ?_⟩, ?_⟩
      · exact tidy_cons.mpr ⟨busy, fun t member => gap.trans (behind t member), tidy'⟩
      · obtain ⟨stop, tail, shape⟩ := coalesceFrom_head next rest
        unfold Joined at joined ⊢
        rw [shape] at joined ⊢
        exact List.isChain_cons_cons.mpr ⟨fun touch equal => different ⟨touch, equal⟩, joined⟩
      · rw [valueAt_cons, valueAt_cons, same]
      · intro t member
        rcases List.mem_cons.mp member with rfl | later
        · exact below t List.mem_cons_self
        · exact within bound (fun u old => below u (List.mem_cons_of_mem _ old)) t later
      · intro t member
        rcases List.mem_cons.mp member with rfl | later
        · exact Nat.le_refl _
        · exact (busy.le.trans gap).trans (behind t later)

theorem Tidy.coalesce (tidy : Tidy spans) : Coalesced spans (coalesce spans) := by
  cases spans with
  | nil => exact ⟨tidy, List.isChain_nil, fun _ => rfl, fun _ below => below⟩
  | cons current rest => exact (coalesceFrom_spec tidy).1

end coalesce

/-- Spans that touch are neighbours. -/
theorem Joined.differ (joined : Joined spans) (tidy : Tidy spans) (first : s ∈ spans)
    (second : t ∈ spans) (touch : s.stop = t.start) : s.value ≠ t.value := by
  induction spans with
  | nil => contradiction
  | cons current rest ih =>
    obtain ⟨busy, behind, tail⟩ := tidy_cons.mp tidy
    have later : t ∈ rest := by
      rcases List.mem_cons.mp second with rfl | later
      · have wide := tidy.busy s first
        rcases List.mem_cons.mp first with rfl | inner
        · omega
        · have gap := behind s inner
          omega
      · exact later
    rcases List.mem_cons.mp first with rfl | inner
    · cases rest with
      | nil => contradiction
      | cons next rest =>
        have here := (List.isChain_cons_cons.mp joined).1
        rcases List.mem_cons.mp later with rfl | beyond
        · exact here touch
        · obtain ⟨busy', behind', _⟩ := tidy_cons.mp tail
          have gap := behind next List.mem_cons_self
          have gap' := behind' t beyond
          omega
    · exact ih joined.tail tail inner later

/-- A longest stretch on which a partial map is defined and constant. -/
structure Stretch (map : Nat → Option V) (s : Span V) : Prop where
  busy : s.start < s.stop
  constant : ∀ a, s.Contains a → map a = some s.value
  ends : map s.stop ≠ some s.value
  begins : ∀ a, a + 1 = s.start → map a ≠ some s.value

theorem Joined.stretch (joined : Joined spans) (tidy : Tidy spans) (member : s ∈ spans) :
    Stretch (valueAt spans) s := by
  have wide := tidy.busy s member
  refine ⟨wide, fun a => tidy.valueAt_of_mem member, ?_, ?_⟩
  · intro beyond
    obtain ⟨t, member', ⟨begun, unended⟩, same⟩ := tidy.valueAt_eq_some.mp beyond
    rcases Nat.lt_trichotomy s.start t.start with before | equal | behind
    · have gap := tidy.apart s member t member' before
      exact joined.differ tidy member member' (Nat.le_antisymm gap begun) same.symm
    · rw [eq_of_start tidy.sorted member member' equal] at unended
      exact Nat.lt_irrefl _ unended
    · have gap := tidy.apart t member' s member behind
      omega
  · intro a next before
    obtain ⟨t, member', ⟨begun, unended⟩, same⟩ := tidy.valueAt_eq_some.mp before
    have order : t.start < s.start := by omega
    have gap := tidy.apart t member' s member order
    exact joined.differ tidy member' member (by omega) same

/-- The spans of a joined list are determined by the map that it represents. -/
theorem Joined.mem_iff (joined : Joined spans) (tidy : Tidy spans) :
    s ∈ spans ↔ Stretch (valueAt spans) s := by
  constructor
  · exact joined.stretch tidy
  · intro stretch
    have busy := stretch.busy
    have first := stretch.constant s.start ⟨Nat.le_refl _, busy⟩
    obtain ⟨t, member, ⟨begun, unended⟩, same⟩ := tidy.valueAt_eq_some.mp first
    have other := joined.stretch tidy member
    have starts : t.start = s.start := by
      by_contra different
      have inside : t.Contains (s.start - 1) := ⟨by omega, by omega⟩
      have found := other.constant _ inside
      rw [same] at found
      exact stretch.begins (s.start - 1) (by omega) found
    have stops : t.stop = s.stop := by
      rcases Nat.lt_trichotomy t.stop s.stop with short | equal | long
      · have found := stretch.constant t.stop ⟨by omega, short⟩
        rw [← same] at found
        exact absurd found other.ends
      · exact equal
      · have found := other.constant s.stop ⟨by omega, long⟩
        rw [same] at found
        exact absurd found stretch.ends
    have equal : t = s := by
      cases t
      cases s
      simp only at starts stops same
      rw [starts, stops, same]
    exact equal ▸ member

/-- The numbers on which the map is defined, counted span by span. -/
theorem Tidy.card (tidy : Tidy spans) (within : ∀ s ∈ spans, s.stop ≤ bound) :
    ((Finset.range bound).filter fun a => (valueAt spans a).isSome).card =
      (spans.map fun s => s.stop - s.start).sum := by
  induction spans with
  | nil => simp [valueAt]
  | cons s rest ih =>
    obtain ⟨busy, behind, tail⟩ := tidy_cons.mp tidy
    have below : s.stop ≤ bound := within s List.mem_cons_self
    have split : ((Finset.range bound).filter fun a => (valueAt (s :: rest) a).isSome) =
        Finset.Ico s.start s.stop ∪
          (Finset.range bound).filter fun a => (valueAt rest a).isSome := by
      ext a
      simp only [Finset.mem_filter, Finset.mem_union, Finset.mem_Ico, Finset.mem_range,
        valueAt_cons]
      by_cases inside : s.Contains a
      · have early := inside.2
        rw [if_pos inside]
        exact iff_of_true ⟨early.trans_le below, rfl⟩ (.inl inside)
      · rw [if_neg inside]
        exact ⟨Or.inr, fun either => either.resolve_left inside⟩
    have apart : Disjoint (Finset.Ico s.start s.stop)
        ((Finset.range bound).filter fun a => (valueAt rest a).isSome) := by
      rw [Finset.disjoint_left]
      intro a left right
      obtain ⟨_, unended⟩ := Finset.mem_Ico.mp left
      obtain ⟨v, found⟩ := Option.isSome_iff_exists.mp (Finset.mem_filter.mp right).2
      obtain ⟨t, member, ⟨begun, _⟩, _⟩ := tail.valueAt_eq_some.mp found
      have gap := behind t member
      omega
    rw [split, Finset.card_union_of_disjoint apart, Nat.card_Ico,
      ih tail fun t member => within t (List.mem_cons_of_mem _ member), List.map_cons,
      List.sum_cons]

end ILEmu.Foundation
