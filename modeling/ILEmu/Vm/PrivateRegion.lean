import ILEmu.Memory.VmRefinement
import ILEmu.Vm.SharedRegion

/-! The privatization of the shared region releases the mapped pages that are in no kept range,
and nothing else. -/
namespace ILEmu.Vm
open Foundation

/-! ### Maps of whole pages -/

/-- The operation is on whole pages, as all of the address space are. -/
def PageWise : VmOperation → Prop
  | .mapOr start stop _ _ | .unmap start stop | .protect start stop _ _ _ | .inherit start stop _ =>
    pageSize ∣ start ∧ pageSize ∣ stop

/-- An address is mapped as its page is. -/
def Paged (point : PointMap) : Prop := ∀ a, point a = point (pageBase a)

theorem le_pageBase {a edge : Nat} (aligned : pageSize ∣ edge) : edge ≤ pageBase a ↔ edge ≤ a := by
  obtain ⟨k, rfl⟩ := aligned
  unfold pageBase pageSize
  omega

theorem inRange_pageBase {start stop a : Nat} (aligned : pageSize ∣ start ∧ pageSize ∣ stop) :
    PointMap.InRange start stop (pageBase a) ↔ PointMap.InRange start stop a := by
  unfold PointMap.InRange
  rw [le_pageBase aligned.1, ← Nat.not_le, ← Nat.not_le, le_pageBase aligned.2]

theorem Paged.after {point : PointMap} (paged : Paged point) {operation : VmOperation}
    (pageWise : PageWise operation) : Paged (point.after operation) := by
  intro a
  cases operation with
  | mapOr start stop permissions attributes =>
    simp only [PointMap.after, inRange_pageBase pageWise, ← paged a]
  | unmap start stop => simp only [PointMap.after, inRange_pageBase pageWise, ← paged a]
  | protect start stop permissions setMaximum copy =>
    simp only [PointMap.after, ← paged a]
    classical
    exact if_congr (and_congr_right fun _ => (inRange_pageBase pageWise).symm) rfl rfl
  | inherit start stop inheritance =>
    simp only [PointMap.after, inRange_pageBase pageWise, ← paged a]

theorem paged_run {operations : List VmOperation}
    (pageWise : ∀ operation ∈ operations, PageWise operation) :
    Paged (run VmMap.after {} operations).point := by
  rw [(VmMap.run_sound operations).2]
  have general : ∀ point, Paged point → Paged (run PointMap.after point operations) := by
    induction operations with
    | nil => exact fun _ paged => paged
    | cons operation rest ih =>
      obtain ⟨head, tail⟩ := List.forall_mem_cons.mp pageWise
      exact fun point paged => ih tail _ (paged.after head)
  exact general _ fun _ => rfl

/-- A longest stretch of a paged map begins and ends with a page. -/
theorem Paged.stretch {point : PointMap} (paged : Paged point) {s : Span VmRegion}
    (stretch : Stretch point s) : pageSize ∣ s.start ∧ pageSize ∣ s.stop := by
  have busy := stretch.busy
  -- Within a page an address is mapped as the one before it.
  have same : ∀ a, ¬pageSize ∣ a → point (a - 1) = point a := by
    intro a unaligned
    have base : pageBase (a - 1) = pageBase a := by
      unfold pageBase pageSize at *
      omega
    rw [paged (a - 1), paged a, base]
  constructor
  · by_contra unaligned
    have positive : s.start ≠ 0 := by
      intro zero
      exact unaligned (zero ▸ dvd_zero pageSize)
    apply stretch.begins (s.start - 1) (by omega)
    rw [same _ unaligned]
    exact stretch.constant _ ⟨Nat.le_refl _, busy⟩
  · by_contra unaligned
    apply stretch.ends
    rw [← same _ unaligned]
    exact stretch.constant _ ⟨by omega, by omega⟩

/-! ### The ranges to keep -/

/-- An end of a range of whole pages. -/
def PageEdge (a : Nat) : Prop := pageSize ∣ a ∧ a ≤ addressSpaceEnd

instance (a : Nat) : Decidable (PageEdge a) := inferInstanceAs (Decidable (_ ∧ _))

structure DarwinAddressBounds.Whole (bounds : DarwinAddressBounds) : Prop where
  base : PageEdge bounds.sharedRegionBase.toNat
  stop : PageEdge bounds.sharedRegionEnd.toNat
  order : bounds.sharedRegionBase.toNat ≤ bounds.sharedRegionEnd.toNat

theorem bounds_whole (version : DarwinGeneration) : (darwinAddressBounds version).Whole := by
  cases version <;> exact ⟨by decide, by decide, by decide⟩

section Keep
variable {bounds : DarwinAddressBounds} {ranges : List (Word × Word)} {a : Nat}

theorem masked_aligned (value : Word) : PageEdge (value &&& ~~~pageMask).toNat := by
  have low : (value &&& ~~~pageMask).toNat % 2 ^ 12 = 0 := by
    have mask : (~~~pageMask).toNat % 2 ^ 12 = 0 := by decide
    rw [BitVec.toNat_and, Nat.and_mod_two_pow, mask, Nat.and_zero]
  exact ⟨Nat.dvd_of_mod_eq_zero low, (value &&& ~~~pageMask).isLt.le⟩

theorem clamp_edge (whole : bounds.Whole) {value : Word} (edge : PageEdge value.toNat) :
    PageEdge (bounds.clamp value) := by
  unfold DarwinAddressBounds.clamp
  rcases min_choice (max value.toNat bounds.sharedRegionBase.toNat) bounds.sharedRegionEnd.toNat
    with same | same
  · rw [same]
    rcases max_choice value.toNat bounds.sharedRegionBase.toNat with same | same
    · rw [same]
      exact edge
    · rw [same]
      exact whole.base
  · rw [same]
    exact whole.stop

/-- What the ranges of a guest keep: the points of each, in whole pages and clipped. -/
def Kept (bounds : DarwinAddressBounds) (ranges : List (Word × Word)) (a : Nat) : Prop :=
  ∃ range ∈ ranges, (keepRange bounds range).Holds a

def clippedRanges (bounds : DarwinAddressBounds) (ranges : List (Word × Word)) :
    List (Range Nat) :=
  ((ranges.map (keepRange bounds)).filter fun range => range.start < range.stop).mergeSort
    fun left right => left.start ≤ right.start

theorem mem_clippedRanges {range : Range Nat} : range ∈ clippedRanges bounds ranges ↔
    (∃ given ∈ ranges, keepRange bounds given = range) ∧ range.start < range.stop := by
  unfold clippedRanges
  rw [List.mem_mergeSort, List.mem_filter, List.mem_map, decide_eq_true_eq]

theorem clippedRanges_sorted : Range.Sorted (clippedRanges bounds ranges) := by
  have sorted : (clippedRanges bounds ranges).Pairwise fun left right =>
      decide (left.start ≤ right.start) = true := by
    apply List.pairwise_mergeSort
    · intro first second third
      simpa using Nat.le_trans
    · intro first second
      simpa using Nat.le_total first.start second.start
  exact sorted.imp fun le => of_decide_eq_true le

theorem covered_mergedRanges : Range.Covered (mergedRanges bounds ranges) a ↔
    Kept bounds ranges a := by
  change Range.Covered (Range.merge (clippedRanges bounds ranges)) a ↔ _
  rw [Range.covered_merge clippedRanges_sorted]
  constructor
  · rintro ⟨range, member, holds⟩
    obtain ⟨⟨given, member', rfl⟩, -⟩ := mem_clippedRanges.mp member
    exact ⟨given, member', holds⟩
  · rintro ⟨given, member, holds⟩
    exact ⟨_, mem_clippedRanges.mpr ⟨⟨given, member, rfl⟩, holds.1.trans_lt holds.2⟩, holds⟩

theorem mergedRanges_sorted : Range.Sorted (mergedRanges bounds ranges) :=
  Range.merge_sorted clippedRanges_sorted

theorem mergedRanges_edges (whole : bounds.Whole) :
    ∀ range ∈ mergedRanges bounds ranges, PageEdge range.start ∧ PageEdge range.stop := by
  apply Range.merge_ends
  intro range member
  obtain ⟨⟨given, -, rfl⟩, -⟩ := mem_clippedRanges.mp member
  exact ⟨clamp_edge whole (masked_aligned _), clamp_edge whole (masked_aligned _)⟩

end Keep

/-! ### The ranges to release -/

section Release
variable {map : VmMap} {bounds : DarwinAddressBounds} {keep : List (Range Nat)} {a : Nat}

/-- Ranges that end before a point do not matter from there on. -/
theorem covered_dropWhile {edge : Nat} (beyond : edge ≤ a) :
    Range.Covered (keep.dropWhile fun range => range.stop ≤ edge) a ↔ Range.Covered keep a := by
  induction keep with
  | nil => exact Iff.rfl
  | cons range rest ih =>
    by_cases ended : range.stop ≤ edge
    · rw [List.dropWhile_cons, if_pos (decide_eq_true ended), ih, Range.covered_cons]
      refine (or_iff_right ?_).symm
      rintro ⟨-, below⟩
      omega
    · rw [List.dropWhile_cons, if_neg (by simpa using ended)]

/-- What is to be released from a cursor on. -/
structure Releases (map : VmMap) (bounds : DarwinAddressBounds) (cursor : Nat)
    (keep release : List (Range Nat)) : Prop where
  busy : ∀ range ∈ release, range.start < range.stop
  edges : ∀ range ∈ release, PageEdge range.start ∧ PageEdge range.stop
  covered : ∀ a, Range.Covered release a ↔
    (cursor ≤ a ∧ a < bounds.sharedRegionEnd.toNat) ∧ (map.point a).isSome = true ∧
      ¬Range.Covered keep a

theorem Releases.nothing {cursor : Nat}
    (free : ∀ a, cursor ≤ a → a < bounds.sharedRegionEnd.toNat → map.point a = none) :
    Releases map bounds cursor keep [] where
  busy := nofun
  edges := nofun
  covered := by
    intro a
    refine iff_of_false Range.not_covered_nil ?_
    rintro ⟨⟨above, below⟩, mapped, -⟩
    rw [free a above below] at mapped
    contradiction

/-- One mapped region, from its first address that is not before the cursor. -/
theorem Releases.region {cursor mappedEnd : Nat} {region : Span VmRegion} {rest : List (Range Nat)}
    (whole : bounds.Whole) (sorted : Range.Sorted keep)
    (kept : ∀ range ∈ keep, PageEdge range.start ∧ PageEdge range.stop)
    (stretch : Stretch map.point region) (edges : PageEdge region.start ∧ PageEdge region.stop)
    (edge : PageEdge cursor) (reaches : cursor < region.stop)
    (free : ∀ a, cursor ≤ a → a < region.start → map.point a = none)
    (inside : max cursor region.start < bounds.sharedRegionEnd.toNat)
    (ends : mappedEnd = min region.stop bounds.sharedRegionEnd.toNat)
    (later : Releases map bounds mappedEnd
      (keep.dropWhile fun range => range.stop ≤ max cursor region.start) rest) :
    Releases map bounds cursor keep
      (Range.gaps mappedEnd (max cursor region.start)
        (keep.dropWhile fun range => range.stop ≤ max cursor region.start) ++ rest) where
  busy := by
    intro range member
    rcases List.mem_append.mp member with here | there
    · exact Range.gaps_busy range here
    · exact later.busy range there
  edges := by
    intro range member
    rcases List.mem_append.mp member with here | there
    · refine Range.gaps_ends ?_ ?_ ?_ range here
      · rcases max_choice cursor region.start with same | same
        · rw [same]
          exact edge
        · rw [same]
          exact edges.1
      · rw [ends]
        rcases min_choice region.stop bounds.sharedRegionEnd.toNat with same | same
        · rw [same]
          exact edges.2
        · rw [same]
          exact whole.stop
      · exact fun range member => kept range ((List.dropWhile_sublist _).subset member)
    · exact later.edges range there
  covered := by
    intro a
    have busy := stretch.busy
    have sorted' : Range.Sorted (keep.dropWhile fun range => range.stop ≤ max cursor region.start) :=
      sorted.sublist (List.dropWhile_sublist _)
    have mapped : region.start ≤ a → a < region.stop → (map.point a).isSome = true := by
      intro above below
      rw [stretch.constant a ⟨above, below⟩]
      rfl
    rw [Range.covered_append, Range.covered_gaps sorted', later.covered]
    by_cases reached : max cursor region.start ≤ a
    · rw [covered_dropWhile reached]
      by_cases before : a < mappedEnd
      · have here := mapped (by omega) (by omega)
        have order : cursor ≤ a ∧ a < bounds.sharedRegionEnd.toNat := ⟨by omega, by omega⟩
        have passed : ¬mappedEnd ≤ a := Nat.not_le.mpr before
        simp [reached, before, here, order, passed]
      · have order : mappedEnd ≤ a := Nat.not_lt.mp before
        have above : cursor ≤ a := by omega
        simp [before, order, above]
    · -- Between the cursor and the region nothing is mapped.
      have passed : ¬mappedEnd ≤ a := by omega
      refine iff_of_false ?_ ?_
      · rintro (⟨⟨above, -⟩, -⟩ | ⟨⟨above, -⟩, -⟩)
        · exact reached above
        · exact passed above
      · rintro ⟨⟨above, below⟩, here, -⟩
        rw [free a above (by omega)] at here
        contradiction

theorem rangesToRelease_spec (sound : map.Sound) (paged : Paged map.point) (whole : bounds.Whole)
    (rounds cursor : Nat) (edge : PageEdge cursor) (base : bounds.sharedRegionBase.toNat ≤ cursor)
    (enough : bounds.sharedRegionEnd.toNat ≤ cursor + rounds) (sorted : Range.Sorted keep)
    (kept : ∀ range ∈ keep, PageEdge range.start ∧ PageEdge range.stop) :
    ∃ release, rangesToRelease map bounds rounds cursor keep = some release ∧
      Releases map bounds cursor keep release := by
  induction rounds generalizing cursor keep with
  | zero =>
    unfold rangesToRelease
    rw [if_neg (by omega)]
    exact ⟨[], rfl, .nothing fun a above below => by omega⟩
  | succ rounds ih =>
    unfold rangesToRelease
    split
    · have query := sound.regionAtOrAfter cursor
      cases found : map.regionAtOrAfter cursor with
      | none =>
        rw [found] at query
        exact ⟨[], rfl, .nothing fun a above _ => query a above⟩
      | some region =>
        rw [found] at query
        obtain ⟨stretch, reaches, free⟩ := query
        have busy := stretch.busy
        have start : max cursor (max region.start bounds.sharedRegionBase.toNat) =
            max cursor region.start := by omega
        dsimp only
        rw [start]
        split
        · exact ⟨[], rfl, .nothing fun a above below => free a above (by omega)⟩
        · rename_i inside
          obtain ⟨first, last⟩ := paged.stretch stretch
          have within := sound.within region ((sound.joined.mem_iff sound.tidy).mpr stretch)
          have edges : PageEdge region.start ∧ PageEdge region.stop :=
            ⟨⟨first, busy.le.trans within⟩, last, within⟩
          have edge' : PageEdge (min region.stop bounds.sharedRegionEnd.toNat) := by
            rcases min_choice region.stop bounds.sharedRegionEnd.toNat with same | same
            · rw [same]
              exact edges.2
            · rw [same]
              exact whole.stop
          rw [if_neg (by omega)]
          obtain ⟨rest, released, later⟩ := ih (min region.stop bounds.sharedRegionEnd.toNat) edge'
            (by omega) (by omega)
            (sorted.sublist (List.dropWhile_sublist fun range =>
              range.stop ≤ max cursor region.start))
            (fun range member => kept range ((List.dropWhile_sublist _).subset member))
          rw [released]
          exact ⟨_, rfl, .region whole sorted kept stretch edges edge reaches free
            (Nat.not_le.mp inside) rfl later⟩
    · exact ⟨[], rfl, .nothing fun a above below => by omega⟩

/-- Whole pages are unmapped as they are given. -/
theorem unmapPages_eq {range : Range Nat} (busy : range.start < range.stop)
    (edges : PageEdge range.start ∧ PageEdge range.stop) :
    unmapPages map range.start (range.stop - range.start) = map.unmap range.start range.stop := by
  obtain ⟨⟨first, -⟩, last, bound⟩ := edges
  have start : pageBase range.start = range.start := Nat.div_mul_cancel first
  have stop : pageRangeEnd range.start (range.stop - range.start) = range.stop := by
    obtain ⟨k, same⟩ := last
    unfold pageRangeEnd pageBase
    unfold pageSize at same ⊢
    omega
  unfold unmapPages
  rw [if_neg (by omega), start, stop]

theorem unmap_release {release : List (Range Nat)} (sound : map.Sound)
    (busy : ∀ range ∈ release, range.start < range.stop)
    (edges : ∀ range ∈ release, PageEdge range.start ∧ PageEdge range.stop) :
    let after := release.foldl
      (fun map range => unmapPages map range.start (range.stop - range.start)) map
    after.Sound ∧ ∀ a, (Range.Covered release a → after.point a = none) ∧
      (¬Range.Covered release a → after.point a = map.point a) := by
  induction release generalizing map with
  | nil => exact ⟨sound, fun a => ⟨fun covered => absurd covered Range.not_covered_nil, fun _ => rfl⟩⟩
  | cons range rest ih =>
    obtain ⟨here, others⟩ := List.forall_mem_cons.mp busy
    obtain ⟨edge, edges⟩ := List.forall_mem_cons.mp edges
    have valid : validRange range.start range.stop = true :=
      VmMap.validRange_iff.mpr ⟨here, edge.2.2⟩
    obtain ⟨sound', refines⟩ := sound.unmap range.start range.stop
    obtain ⟨sound'', values⟩ := ih sound' others edges
    dsimp only [List.foldl_cons]
    rw [unmapPages_eq here edge]
    refine ⟨sound'', fun a => ?_⟩
    have inRange : PointMap.InRange range.start range.stop a ↔ range.Holds a := by
      unfold PointMap.InRange Range.Holds
      rw [iff_true_intro valid, true_and]
    rw [Range.covered_cons]
    by_cases later : Range.Covered rest a
    · exact ⟨fun _ => (values a).1 later, fun free => absurd (.inr later) free⟩
    · rw [or_iff_left later, (values a).2 later, refines]
      constructor
      · intro holds
        exact if_pos (inRange.mpr holds)
      · intro free
        exact if_neg (mt inRange.mp free)

end Release

/-- The address is released: it lies in the shared region, and in none of the kept ranges. -/
def Released (bounds : DarwinAddressBounds) (ranges : List (Word × Word)) (a : Nat) : Prop :=
  (bounds.sharedRegionBase.toNat ≤ a ∧ a < bounds.sharedRegionEnd.toNat) ∧ ¬Kept bounds ranges a

theorem readSharedRegionRanges_ok {memory : GuestMemory} {rangeCount rangesAddress : Word}
    {bounds : DarwinAddressBounds} {keep : List (Range Nat)}
    (accepted : readSharedRegionRanges memory rangeCount rangesAddress bounds = .ok keep) :
    ∃ ranges, readRanges memory rangesAddress rangeCount = some ranges ∧
      keep = mergedRanges bounds ranges := by
  unfold readSharedRegionRanges at accepted
  dsimp only at accepted
  split at accepted
  · contradiction
  · split at accepted
    · contradiction
    · split at accepted
      · contradiction
      · rename_i ranges read
        exact ⟨ranges, read, (Except.ok.inj accepted).symm⟩

/-- In every layout of whole pages, and for every list of ranges that is accepted, the released
ranges are whole pages, and exactly the mapped pages of the shared region that lie in no kept range
are unmapped. -/
theorem makePrivate_unmaps {operations : List VmOperation}
    (pageWise : ∀ operation ∈ operations, PageWise operation) (version : DarwinGeneration)
    {memory : GuestMemory} {rangeCount rangesAddress : Word} {keep : List (Range Nat)}
    (accepted : readSharedRegionRanges memory rangeCount rangesAddress
      (darwinAddressBounds version) = .ok keep) :
    let bounds := darwinAddressBounds version
    let map := run VmMap.after {} operations
    ∃ ranges release privatized,
      readRanges memory rangesAddress rangeCount = some ranges ∧
      rangesToRelease map bounds bounds.sharedRegionEnd.toNat bounds.sharedRegionBase.toNat keep =
        some release ∧
      (∀ range ∈ release, range.start < range.stop ∧ pageSize ∣ range.start ∧
        pageSize ∣ range.stop) ∧
      sharedRegionMakePrivate memory map bounds rangeCount rangesAddress = some privatized ∧
      privatized.error = 0 ∧ privatized.map.Sound ∧
      ∀ a, (Released bounds ranges a → privatized.map.point a = none) ∧
        (¬Released bounds ranges a → privatized.map.point a = map.point a) := by
  intro bounds map
  have whole := bounds_whole version
  have sound : map.Sound := (VmMap.run_sound operations).1
  obtain ⟨ranges, read, rfl⟩ := readSharedRegionRanges_ok accepted
  obtain ⟨release, released, spec⟩ := rangesToRelease_spec sound (paged_run pageWise) whole
    bounds.sharedRegionEnd.toNat bounds.sharedRegionBase.toNat whole.base (Nat.le_refl _)
    (Nat.le_add_left _ _) mergedRanges_sorted (mergedRanges_edges whole)
  obtain ⟨sound', values⟩ := unmap_release sound spec.busy spec.edges
  let after := release.foldl
    (fun map range => unmapPages map range.start (range.stop - range.start)) map
  refine ⟨ranges, release, { error := 0, map := after }, read, released, ?_, ?_, rfl, sound',
    fun a => ?_⟩
  · intro range member
    obtain ⟨first, last⟩ := spec.edges range member
    exact ⟨spec.busy range member, first.1, last.1⟩
  · unfold sharedRegionMakePrivate
    rw [accepted]
    dsimp only
    rw [released]
    rfl
  · obtain ⟨gone, stays⟩ := values a
    have covered := spec.covered a
    rw [covered_mergedRanges] at covered
    constructor
    · rintro ⟨inside, free⟩
      cases mapped : map.point a with
      | none =>
        rw [stays, mapped]
        rw [covered, mapped]
        exact fun both => absurd both.2.1 Bool.false_ne_true
      | some region =>
        apply gone
        rw [covered, mapped]
        exact ⟨inside, rfl, free⟩
    · intro outside
      apply stays
      rw [covered]
      exact fun both => outside ⟨both.1, both.2.2⟩

/-- One range of the guest is kept, out of a mapping over the start of the region. -/
theorem makePrivate_unmaps_around :
    let bounds := darwinAddressBounds .ios6
    let map := run VmMap.after {} [.mapOr 0x2ffff000 0x30004000 3 {}]
    let memory := GuestMemory.ofBytes 0x1000 [0, 0x10, 0, 0x30, 1, 0, 0, 0]
    ∃ ranges release privatized, readRanges memory 0x1000 1 = some ranges ∧
      rangesToRelease map bounds bounds.sharedRegionEnd.toNat bounds.sharedRegionBase.toNat
        (mergedRanges bounds [(0x30001000, 1)]) = some release ∧
      (∀ range ∈ release, range.start < range.stop ∧ pageSize ∣ range.start ∧
        pageSize ∣ range.stop) ∧
      sharedRegionMakePrivate memory map bounds 1 0x1000 = some privatized ∧
      privatized.error = 0 ∧ privatized.map.Sound ∧
      ∀ a, (Released bounds ranges a → privatized.map.point a = none) ∧
        (¬Released bounds ranges a → privatized.map.point a = map.point a) := by
  have accepted : readSharedRegionRanges
      (GuestMemory.ofBytes 0x1000 [0, 0x10, 0, 0x30, 1, 0, 0, 0]) 1 0x1000
        (darwinAddressBounds .ios6) =
      .ok (mergedRanges (darwinAddressBounds .ios6) [(0x30001000, 1)]) := by
    decide +kernel
  have pageWise : ∀ operation ∈ [VmOperation.mapOr 0x2ffff000 0x30004000 3 {}],
      PageWise operation := by
    intro operation member
    rw [List.mem_singleton.mp member]
    exact ⟨by decide, by decide⟩
  exact makePrivate_unmaps pageWise .ios6 accepted

end ILEmu.Vm
