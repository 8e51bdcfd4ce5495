import ILEmu.Foundation.Spans

/-! Ordered spans whose members are each replaced by pieces of themselves, as when ranges are cut
out of intervals that carry more than one constant value. -/
namespace ILEmu.Foundation
variable {V : Type*} {spans : List (Span V)} {s t : Span V} {a : Nat}

theorem tidy_append {front back : List (Span V)} : Tidy (front ++ back) ↔
    Tidy front ∧ Tidy back ∧ ∀ s ∈ front, ∀ t ∈ back, s.stop ≤ t.start := by
  induction front with
  | nil =>
    constructor
    · exact fun tidy => ⟨Tidy.nil, tidy, nofun⟩
    · exact fun parts => parts.2.1
  | cons s front ih =>
    rw [List.cons_append, tidy_cons, ih, tidy_cons]
    constructor
    · rintro ⟨busy, behind, tidy, tidy', apart⟩
      refine ⟨⟨busy, fun t member => behind t (List.mem_append_left _ member), tidy⟩, tidy', ?_⟩
      intro t member u later
      rcases List.mem_cons.mp member with rfl | inner
      · exact behind u (List.mem_append_right _ later)
      · exact apart t inner u later
    · rintro ⟨⟨busy, behind, tidy⟩, tidy', apart⟩
      refine ⟨busy, ?_, tidy, tidy', fun t member => apart t (List.mem_cons_of_mem _ member)⟩
      intro t member
      rcases List.mem_append.mp member with inner | later
      · exact behind t inner
      · exact apart s List.mem_cons_self t later

/-- What a span is replaced by lies within it, in order. -/
structure Pieces (cut : Span V → List (Span V)) : Prop where
  within : ∀ s, s.start < s.stop → ∀ t ∈ cut s, s.start ≤ t.start ∧ t.stop ≤ s.stop
  tidy : ∀ s, s.start < s.stop → Tidy (cut s)

theorem Pieces.tidy_flatMap {cut : Span V → List (Span V)} (pieces : Pieces cut)
    (tidy : Tidy spans) : Tidy (spans.flatMap cut) := by
  induction spans with
  | nil => exact Tidy.nil
  | cons s rest ih =>
    obtain ⟨busy, behind, tidy⟩ := tidy_cons.mp tidy
    rw [List.flatMap_cons]
    refine tidy_append.mpr ⟨pieces.tidy s busy, ih tidy, ?_⟩
    intro t member u later
    obtain ⟨r, inner, here⟩ := List.mem_flatMap.mp later
    have first := (pieces.within s busy t member).2
    have last := (pieces.within r (tidy.busy r inner) u here).1
    exact first.trans ((behind r inner).trans last)

theorem find_contains_none :
    spans.find? (fun s => decide (s.Contains a)) = none ↔ ∀ s ∈ spans, ¬s.Contains a := by
  rw [List.find?_eq_none]
  simp only [decide_eq_true_eq]

/-- The piece around a number is a piece of the span around it. -/
theorem Pieces.find_flatMap {cut : Span V → List (Span V)} (pieces : Pieces cut)
    (tidy : Tidy spans) : (spans.flatMap cut).find? (fun t => decide (t.Contains a)) =
      (spans.find? fun s => decide (s.Contains a)).bind fun s =>
        (cut s).find? fun t => decide (t.Contains a) := by
  induction spans with
  | nil => rfl
  | cons s rest ih =>
    obtain ⟨busy, behind, tidy⟩ := tidy_cons.mp tidy
    have outside (u : Span V) (wide : u.start < u.stop) (apart : ¬u.Contains a) :
        (cut u).find? (fun t => decide (t.Contains a)) = none := by
      refine find_contains_none.mpr fun t member inside => apart ?_
      obtain ⟨low, high⟩ := pieces.within u wide t member
      exact ⟨low.trans inside.1, inside.2.trans_le high⟩
    rw [List.flatMap_cons, List.find?_append, ih tidy]
    by_cases here : s.Contains a
    · have nobody : rest.find? (fun t => decide (t.Contains a)) = none := by
        refine find_contains_none.mpr fun t member inside => ?_
        exact absurd (here.2.trans_le (behind t member)) (Nat.not_lt.mpr inside.1)
      rw [nobody, List.find?_cons_of_pos (by simpa using here)]
      simp
    · rw [outside s busy here, List.find?_cons_of_neg (by simpa using here), Option.none_or]

/-- Where a span holds a number, one of its pieces holds it with what the relation keeps. -/
theorem Pieces.find_rel {cut : Span V → List (Span V)} (pieces : Pieces cut) (tidy : Tidy spans)
    {related : Span V → Span V → Prop} (each : ∀ s, s.Contains a → ∃ t ∈ cut s, t.Contains a)
    (keeps : ∀ s, ∀ t ∈ cut s, t.Contains a → related s t) :
    Option.Rel related (spans.find? fun s => decide (s.Contains a))
      ((spans.flatMap cut).find? fun t => decide (t.Contains a)) := by
  rw [pieces.find_flatMap tidy]
  cases around : spans.find? fun s => decide (s.Contains a) with
  | none => exact .none
  | some s =>
    obtain ⟨t, member, inside⟩ := each s (by simpa using List.find?_some around)
    rw [Option.bind_some]
    cases found : (cut s).find? fun t => decide (t.Contains a) with
    | none => exact absurd inside (find_contains_none.mp found t member)
    | some u =>
      exact .some (keeps s u (List.mem_of_find?_eq_some found) (by simpa using List.find?_some found))

/-- The spans keep their bounds and change their values. -/
theorem Tidy.map_bounds {W : Type*} {change : Span V → Span W}
    (start : ∀ s, (change s).start = s.start) (stop : ∀ s, (change s).stop = s.stop)
    (tidy : Tidy spans) : Tidy (spans.map change) := by
  induction spans with
  | nil => exact Tidy.nil
  | cons s rest ih =>
    obtain ⟨busy, behind, tidy⟩ := tidy_cons.mp tidy
    rw [List.map_cons]
    refine tidy_cons.mpr ⟨by rw [start, stop]; exact busy, ?_, ih tidy⟩
    intro t member
    obtain ⟨r, inner, rfl⟩ := List.mem_map.mp member
    rw [start, stop]
    exact behind r inner

/-- The span around a number. -/
theorem Tidy.find_contains (tidy : Tidy spans) :
    spans.find? (fun s => decide (s.Contains a)) = some s ↔ s ∈ spans ∧ s.Contains a := by
  constructor
  · intro found
    exact ⟨List.mem_of_find?_eq_some found, by simpa using List.find?_some found⟩
  · rintro ⟨member, inside⟩
    cases found : spans.find? fun s => decide (s.Contains a) with
    | none => exact absurd (decide_eq_true inside) (List.find?_eq_none.mp found s member)
    | some t =>
      have around : t.Contains a := by simpa using List.find?_some found
      rw [tidy.eq_of_contains (List.mem_of_find?_eq_some found) member around inside]

end ILEmu.Foundation
