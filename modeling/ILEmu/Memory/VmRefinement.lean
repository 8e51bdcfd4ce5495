import ILEmu.Memory.PointMap
import Mathlib.Algebra.BigOperators.Ring.List

/-! Every operation on the regions does to each address what its rule says, and the queries
answer what the addresses say. -/
namespace ILEmu
open Foundation
namespace VmMap
variable {map : VmMap} {start stop : Nat}

theorem validRange_iff : validRange start stop = true ↔ start < stop ∧ stop ≤ addressSpaceEnd := by
  simp [validRange]

theorem Sound.mapOr (sound : map.Sound) (start stop : Nat) (permissions : MemoryPermission)
    (attributes : VmMappingAttributes) :
    ∃ map', map.mapOr start stop permissions attributes = some map' ∧ map'.Sound ∧
      map'.point = map.point.after (.mapOr start stop permissions attributes) := by
  unfold VmMap.mapOr
  by_cases valid : validRange start stop = true
  · rw [if_pos valid]
    obtain ⟨order, bound⟩ := validRange_iff.mp valid
    obtain ⟨ready, same⟩ := sound.split start stop
    obtain ⟨regions, filled, tidy, within, values⟩ :=
      fill_spec permissions attributes ready bound (Nat.le_refl _)
    obtain ⟨sound', same'⟩ := Sound.coalesce tidy within
    refine ⟨_, by rw [filled]; rfl, sound', ?_⟩
    funext a
    rw [same', values, same]
    exact if_congr (by simp [PointMap.InRange, valid]) rfl rfl
  · rw [if_neg valid]
    refine ⟨map, rfl, sound, ?_⟩
    funext a
    exact (if_neg fun inside : PointMap.InRange start stop a => valid inside.1).symm

theorem Sound.unmap (sound : map.Sound) (start stop : Nat) :
    (map.unmap start stop).Sound ∧
      (map.unmap start stop).point = map.point.after (.unmap start stop) := by
  unfold VmMap.unmap
  by_cases valid : validRange start stop = true
  · rw [if_pos valid]
    obtain ⟨ready, same⟩ := sound.split start stop
    have fewer := eraseBetween_sublist start stop ((map.splitAt start).splitAt stop).regions
    obtain ⟨sound', same'⟩ := Sound.coalesce (ready.tidy.sublist fewer)
      fun region member => ready.within region (fewer.subset member)
    refine ⟨sound', ?_⟩
    funext a
    rw [same', ready.tidy.valueAt_eraseBetween ready.first ready.last, same]
    exact if_congr (by simp [PointMap.InRange, valid]) rfl rfl
  · rw [if_neg valid]
    refine ⟨sound, ?_⟩
    funext a
    exact (if_neg fun inside : PointMap.InRange start stop a => valid inside.1).symm

theorem Sound.inherit (sound : map.Sound) (start stop : Nat) (inheritance : VmInheritance) :
    (map.inherit start stop inheritance).1.Sound ∧
      (map.inherit start stop inheritance).1.point =
        map.point.after (.inherit start stop inheritance) := by
  unfold VmMap.inherit
  by_cases valid : validRange start stop = true
  · rw [if_pos valid]
    obtain ⟨ready, same⟩ := sound.split start stop
    obtain ⟨sound', same'⟩ := Sound.coalesce (ready.tidy.adjust start stop _)
      (adjust_within ready.tidy.sorted ready.within)
    refine ⟨sound', ?_⟩
    funext a
    rw [same', ready.tidy.valueAt_adjust ready.first ready.last, same]
    exact if_congr (by simp [PointMap.InRange, valid]) rfl rfl
  · rw [if_neg valid]
    refine ⟨sound, ?_⟩
    funext a
    exact (if_neg fun inside : PointMap.InRange start stop a => valid inside.1).symm

/-- What `protect` reports, and when. -/
structure Protected (map : VmMap) (start stop : Nat) (permissions : MemoryPermission)
    (setMaximum copy : Bool) (result : VmMap × ProtectionResult) : Prop where
  sound : result.1.Sound
  refines : result.1.point = map.point.after (.protect start stop permissions setMaximum copy)
  invalid : validRange start stop = false → result.2.error = some .unmapped
  checked : validRange start stop = true →
    FirstFault (map.point.protectionFault permissions copy) start stop result.2.error
  unchanged : ∀ error, result.2.error = some error → result.1 = map
  executable : result.2.executablePermissionsChanged = true ↔
    ∃ a old new, PointMap.InRange start stop a ∧ map.point a = some old ∧
      result.1.point a = some new ∧ old.permissions ≠ new.permissions ∧
      (hasPermission old.permissions MemoryPermission.execute ∨
        hasPermission new.permissions MemoryPermission.execute)

/-- Whether some region between two cut points changes is whether some address does. -/
theorem Ready.any_iff {regions : List (Span VmRegion)} (ready : Ready start stop regions)
    (changes : VmRegion → Bool) :
    ((lowerBound start regions).2.takeWhile (·.start < stop)).any
        (fun region => changes region.value) = true ↔
      ∃ a region, (start ≤ a ∧ a < stop) ∧ valueAt regions a = some region ∧
        changes region = true := by
  have rest := (lowerBound_sorted ready.tidy.sorted start).2
  have members : ∀ region, region ∈ (lowerBound start regions).2.takeWhile (·.start < stop) ↔
      region ∈ regions ∧ start ≤ region.start ∧ region.start < stop := by
    intro region
    have early : region ∈ (lowerBound start regions).2.takeWhile (·.start < stop) ↔
        region ∈ (lowerBound start regions).2 ∧ region.start < stop := (mem_lowerBound rest).1
    rw [early, (mem_lowerBound ready.tidy.sorted).2, and_assoc]
  rw [List.any_eq_true]
  constructor
  · rintro ⟨region, member, changed⟩
    obtain ⟨stored, range⟩ := (members region).mp member
    have inside : region.Contains region.start := ⟨Nat.le_refl _, ready.tidy.busy region stored⟩
    exact ⟨region.start, region.value, range, ready.tidy.valueAt_of_mem stored inside, changed⟩
  · rintro ⟨a, value, range, found, changed⟩
    obtain ⟨region, stored, inside, rfl⟩ := ready.tidy.valueAt_eq_some.mp found
    have between := (between_iff ready.first ready.last stored inside).mpr range
    exact ⟨region, (members region).mpr ⟨stored, between⟩, changed⟩

theorem Sound.protect (sound : map.Sound) (start stop : Nat) (permissions : MemoryPermission)
    (setMaximum copy : Bool) :
    Protected map start stop permissions setMaximum copy
      (map.protect start stop permissions setMaximum copy) := by
  unfold VmMap.protect
  by_cases valid : validRange start stop = true
  · rw [if_pos valid]
    have first : FirstFault (map.point.protectionFault permissions copy) start stop
        (walk stop .unmapped (VmRegion.protectionFault permissions copy) start
          (fromContaining start map.regions)) :=
      sound.tidy.walk_fromContaining start stop ProtectionError.unmapped
        (VmRegion.protectionFault permissions copy)
    cases walked : walk stop .unmapped (VmRegion.protectionFault permissions copy) start
        (fromContaining start map.regions) with
    | some error =>
      rw [walked] at first
      have refused : ¬ map.point.Protectable start stop permissions copy := by
        rintro ⟨_, clean⟩
        exact absurd (first.none_iff.mpr clean) nofun
      dsimp only
      refine ⟨sound, ?_, fun invalid => absurd valid (by simp [invalid]), fun _ => first,
        fun _ _ => rfl, ?_⟩
      · funext a
        exact (if_neg fun both => refused both.1).symm
      · apply iff_of_false Bool.false_ne_true
        rintro ⟨a, old, new, _, found, found', different, _⟩
        cases found.symm.trans found'
        exact different rfl
    | none =>
      rw [walked] at first
      have clean := first.none_iff.mp rfl
      obtain ⟨ready, same⟩ := sound.split start stop
      obtain ⟨sound', same'⟩ := Sound.coalesce
        (ready.tidy.adjust start stop (·.protect permissions setMaximum copy))
        (adjust_within ready.tidy.sorted ready.within)
      let regions := ((map.splitAt start).splitAt stop).regions
      let change : VmRegion → VmRegion := (·.protect permissions setMaximum copy)
      have values : ∀ a, (VmMap.coalesce { regions := adjust start stop change regions }).point a =
          if start ≤ a ∧ a < stop then (map.point a).map change else map.point a := by
        intro a
        rw [same', ready.tidy.valueAt_adjust ready.first ready.last, same]
      dsimp only
      refine ⟨sound', ?_, fun invalid => absurd valid (by simp [invalid]), fun _ => first,
        nofun, ?_⟩
      · funext a
        rw [values]
        by_cases range : start ≤ a ∧ a < stop
        · rw [if_pos range]
          exact (if_pos ⟨⟨valid, clean⟩, valid, range⟩).symm
        · rw [if_neg range]
          exact (if_neg fun both => range both.2.2).symm
      · rw [ready.any_iff fun region =>
          region.executableChanged (region.protect permissions setMaximum copy)]
        constructor
        · rintro ⟨a, region, range, found, changed⟩
          rw [same] at found
          simp only [VmRegion.executableChanged, Bool.and_eq_true, Bool.or_eq_true,
            decide_eq_true_eq] at changed
          refine ⟨a, region, region.protect permissions setMaximum copy, ⟨valid, range⟩, found,
            ?_, changed.1, changed.2⟩
          rw [values, if_pos range, found]
          rfl
        · rintro ⟨a, old, new, ⟨_, range⟩, found, found', different, cause⟩
          rw [values, if_pos range, found] at found'
          cases found'
          refine ⟨a, old, range, (same a).trans found, ?_⟩
          simp only [VmRegion.executableChanged, Bool.and_eq_true, Bool.or_eq_true,
            decide_eq_true_eq]
          exact ⟨different, cause⟩
  · rw [if_neg valid]
    refine ⟨sound, ?_, fun _ => rfl, fun holds => absurd holds valid, fun _ _ => rfl, ?_⟩
    · funext a
      exact (if_neg fun both => valid both.1.1).symm
    · apply iff_of_false Bool.false_ne_true
      rintro ⟨a, old, new, ⟨holds, _⟩, _⟩
      exact valid holds

theorem Sound.accessible_iff (sound : map.Sound) (start stop : Nat) (access : MemoryPermission) :
    map.accessible start stop access = true ↔ validRange start stop ∧
      ∀ a, start ≤ a → a < stop →
        ∃ region, map.point a = some region ∧ hasPermission region.permissions access := by
  unfold VmMap.accessible
  by_cases valid : validRange start stop = true
  · rw [if_pos valid, Option.isNone_iff_eq_none,
      (sound.tidy.walk_fromContaining start stop () _).none_iff, iff_true_intro valid, true_and]
    apply forall_congr'
    intro a
    apply imp_congr_right
    intro _
    apply imp_congr_right
    intro _
    unfold faultAt point
    cases valueAt map.regions a with
    | none => simp
    | some region => simp
  · rw [if_neg valid]
    exact iff_of_false Bool.false_ne_true fun both => valid both.1

/-- A range is overlapped by the first region that starts in it or by the last before it. -/
theorem Sound.overlaps_iff (sound : map.Sound) (start stop : Nat) :
    map.overlaps start stop = true ↔
      ∃ a, PointMap.InRange start stop a ∧ (map.point a).isSome = true := by
  have tidy := sound.tidy
  obtain ⟨early, late⟩ := lowerBound_sorted tidy.sorted start
  unfold VmMap.overlaps
  by_cases valid : validRange start stop = true
  · obtain ⟨order, _⟩ := validRange_iff.mp valid
    rw [if_pos valid]
    dsimp only
    constructor
    · intro answer
      split at answer
      · rename_i begins
        obtain ⟨region, first, below⟩ := Option.any_eq_true _ _ |>.mp begins
        obtain ⟨stored, after⟩ :=
          (mem_lowerBound tidy.sorted).2.mp (head_min late first).1
        have inside : region.Contains region.start := ⟨Nat.le_refl _, tidy.busy region stored⟩
        refine ⟨region.start, ⟨valid, after, of_decide_eq_true below⟩, ?_⟩
        exact Option.isSome_of_eq_some (tidy.valueAt_of_mem stored inside)
      · obtain ⟨region, last, above⟩ := Option.any_eq_true _ _ |>.mp answer
        obtain ⟨stored, before⟩ :=
          (mem_lowerBound tidy.sorted).1.mp (getLast_max early last).1
        have inside : region.Contains start := ⟨before.le, of_decide_eq_true above⟩
        refine ⟨start, ⟨valid, Nat.le_refl _, order⟩, ?_⟩
        exact Option.isSome_of_eq_some (tidy.valueAt_of_mem stored inside)
    · rintro ⟨a, ⟨_, low, high⟩, mapped⟩
      obtain ⟨value, found⟩ := Option.isSome_iff_exists.mp mapped
      obtain ⟨region, stored, ⟨begun, unended⟩, _⟩ := tidy.valueAt_eq_some.mp found
      by_cases before : region.start < start
      · have member := (mem_lowerBound tidy.sorted).1.mpr ⟨stored, before⟩
        have here := List.getLast?_eq_some_getLast (List.ne_nil_of_mem member)
        generalize (lowerBound start map.regions).1.getLast _ = last at here
        obtain ⟨inside, greatest⟩ := getLast_max early here
        obtain ⟨stored', before'⟩ := (mem_lowerBound tidy.sorted).1.mp inside
        have same : last = region := by
          rcases (greatest region member).lt_or_eq with less | equal
          · have gap := tidy.apart region stored last stored' less
            omega
          · exact eq_of_start tidy.sorted stored' stored equal.symm
        split
        · rfl
        · rw [here, same]
          exact decide_eq_true (low.trans_lt unended)
      · have member := (mem_lowerBound tidy.sorted).2.mpr ⟨stored, Nat.not_lt.mp before⟩
        have here := List.head?_eq_some_head (List.ne_nil_of_mem member)
        generalize (lowerBound start map.regions).2.head _ = first at here
        have least := (head_min late here).2 region member
        rw [if_pos]
        rw [here]
        exact decide_eq_true (by omega)
  · rw [if_neg valid]
    apply iff_of_false Bool.false_ne_true
    rintro ⟨a, ⟨holds, _⟩, _⟩
    exact valid holds

theorem Sound.regionAtOrAfter (sound : map.Sound) (address : Nat) :
    match map.regionAtOrAfter address with
    | none => ∀ a, address ≤ a → map.point a = none
    | some region => Stretch map.point region ∧ address < region.stop ∧
        ∀ a, address ≤ a → a < region.start → map.point a = none := by
  have tidy := sound.tidy
  have early := upperBound_sorted tidy.sorted address
  have late := (lowerBound_sorted tidy.sorted address).2
  unfold VmMap.regionAtOrAfter
  cases around : (upperBound address map.regions).1.getLast?.filter (address < ·.stop) with
  | some region =>
    obtain ⟨last, above⟩ := Option.filter_eq_some_iff.mp around
    obtain ⟨stored, begun⟩ := (mem_upperBound tidy.sorted).1.mp (getLast_max early last).1
    refine ⟨sound.joined.stretch tidy stored, of_decide_eq_true above, ?_⟩
    intro a low high
    omega
  | none =>
    -- no region reaches over the address
    have ended : ∀ region ∈ map.regions, region.start < address → region.stop ≤ address := by
      intro region stored begun
      have member := (mem_upperBound tidy.sorted).1.mpr ⟨stored, begun.le⟩
      have here := List.getLast?_eq_some_getLast (List.ne_nil_of_mem member)
      generalize (upperBound address map.regions).1.getLast _ = last at here
      obtain ⟨inside, greatest⟩ := getLast_max early here
      obtain ⟨stored', before⟩ := (mem_upperBound tidy.sorted).1.mp inside
      rw [here] at around
      have short : last.stop ≤ address := by simpa [Option.filter] using around
      rcases (greatest region member).lt_or_eq with less | equal
      · exact (tidy.apart region stored last stored' less).trans before
      · rw [eq_of_start tidy.sorted stored stored' equal]
        exact short
    have free : ∀ a, address ≤ a → (∀ region ∈ map.regions, address ≤ region.start →
        a < region.start) → map.point a = none := by
      intro a low behind
      apply valueAt_eq_none.mpr
      rintro region stored ⟨begun, unended⟩
      by_cases before : region.start < address
      · have gap := ended region stored before
        omega
      · have gap := behind region stored (Nat.not_lt.mp before)
        omega
    dsimp only
    cases first : (lowerBound address map.regions).2.head? with
    | none =>
      intro a low
      apply free a low
      intro region stored after
      have member := (mem_lowerBound tidy.sorted).2.mpr ⟨stored, after⟩
      rw [List.head?_eq_none_iff.mp first] at member
      contradiction
    | some region =>
      obtain ⟨inside, least⟩ := head_min late first
      obtain ⟨stored, after⟩ := (mem_lowerBound tidy.sorted).2.mp inside
      refine ⟨sound.joined.stretch tidy stored, after.trans_lt (tidy.busy region stored), ?_⟩
      intro a low high
      apply free a low
      intro other stored' after'
      exact high.trans_le (least other ((mem_lowerBound tidy.sorted).2.mpr ⟨stored', after'⟩))

theorem Sound.after (sound : map.Sound) (operation : VmOperation) :
    (map.after operation).Sound ∧ (map.after operation).point = map.point.after operation := by
  cases operation with
  | mapOr start stop permissions attributes =>
    obtain ⟨map', mapped, sound', refines⟩ := sound.mapOr start stop permissions attributes
    simp only [VmMap.after, mapped, Option.getD_some]
    exact ⟨sound', refines⟩
  | unmap start stop => exact sound.unmap start stop
  | protect start stop permissions setMaximum copy =>
    have done := sound.protect start stop permissions setMaximum copy
    exact ⟨done.sound, done.refines⟩
  | inherit start stop inheritance => exact sound.inherit start stop inheritance

theorem run_sound (operations : List VmOperation) :
    (run after {} operations).Sound ∧
      (run after {} operations).point = run PointMap.after (fun _ => none) operations := by
  have general : ∀ (map : VmMap) point, map.Sound → map.point = point →
      (run after map operations).Sound ∧
        (run after map operations).point = run PointMap.after point operations := by
    induction operations with
    | nil => exact fun map point sound same => ⟨sound, same⟩
    | cons operation rest ih =>
      rintro map point sound rfl
      obtain ⟨sound', refines⟩ := sound.after operation
      exact ih _ _ sound' refines
  exact general {} _ sound_empty rfl

/-- The pages of a map: those that lie whole in one of its longest stretches, counted from
where the stretch begins. -/
structure Pages (point : PointMap) (pageSize count : Nat) : Prop where
  stretches : ∃ stretches : List (Span VmRegion),
    stretches.Pairwise (fun s t => s.start < t.start) ∧
    (∀ stretch, stretch ∈ stretches ↔ Stretch point stretch) ∧
    count = (stretches.map fun stretch => (stretch.stop - stretch.start) / pageSize).sum
  aligned : (∀ stretch, Stretch point stretch → pageSize ∣ stretch.start ∧ pageSize ∣ stretch.stop) →
    count * pageSize =
      ((Finset.range addressSpaceEnd).filter fun a => (point a).isSome).card

theorem Sound.pageCount (sound : map.Sound) (pageSize : Nat) :
    Pages map.point pageSize (map.pageCount pageSize) where
  stretches := ⟨map.regions, sound.tidy.sorted, fun _ => sound.joined.mem_iff sound.tidy, rfl⟩
  aligned := by
    intro aligned
    have sum := sound.tidy.card sound.within
    refine Eq.trans ?_ sum.symm
    unfold VmMap.pageCount
    rw [← List.sum_map_mul_right]
    apply congrArg List.sum
    apply List.map_congr_left
    intro region stored
    obtain ⟨first, last⟩ := aligned region (sound.joined.stretch sound.tidy stored)
    exact Nat.div_mul_cancel (Nat.dvd_sub last first)

/-- After every sequence of operations the regions are ordered, not empty, disjoint, inside
the address space and joined where they can be, and they represent the map that the rules for
single addresses give; the loop of `map_or` ends; `protect` reports the first fault of a range,
changes nothing when it reports one, and tells whether executable permissions changed; and the
queries answer what the addresses say. -/
theorem run_refines (operations : List VmOperation) :
    (run after {} operations).Sound ∧
    (run after {} operations).point = run PointMap.after (fun _ => none) operations ∧
    (∀ start stop permissions attributes,
      ∃ map', (run after {} operations).mapOr start stop permissions attributes = some map') ∧
    (∀ start stop permissions setMaximum copy,
      Protected (run after {} operations) start stop permissions setMaximum copy
        ((run after {} operations).protect start stop permissions setMaximum copy)) ∧
    (∀ start stop access, (run after {} operations).accessible start stop access = true ↔
      validRange start stop ∧ ∀ a, start ≤ a → a < stop →
        ∃ region, (run after {} operations).point a = some region ∧
          hasPermission region.permissions access) ∧
    (∀ start stop, (run after {} operations).overlaps start stop = true ↔
      ∃ a, PointMap.InRange start stop a ∧
        ((run after {} operations).point a).isSome = true) ∧
    (∀ address, match (run after {} operations).regionAtOrAfter address with
      | none => ∀ a, address ≤ a → (run after {} operations).point a = none
      | some region => Stretch (run after {} operations).point region ∧ address < region.stop ∧
          ∀ a, address ≤ a → a < region.start → (run after {} operations).point a = none) ∧
    (∀ pageSize, Pages (run after {} operations).point pageSize
      ((run after {} operations).pageCount pageSize)) := by
  obtain ⟨sound, refines⟩ := run_sound operations
  refine ⟨sound, refines, ?_, sound.protect, sound.accessible_iff, sound.overlaps_iff,
    sound.regionAtOrAfter, sound.pageCount⟩
  intro start stop permissions attributes
  obtain ⟨map', mapped, _⟩ := sound.mapOr start stop permissions attributes
  exact ⟨map', mapped⟩

end VmMap
end ILEmu
