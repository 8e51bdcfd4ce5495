import ILEmu.Foundation.Pieces
import ILEmu.Memory.AddressSpaceFrames
import ILEmu.Vm.PrivateRegion

/-! The index of permissions says of each page what the map of regions says, pages are only there
where something is mapped, and the counter of resident pages is their number. -/
namespace ILEmu.AddressSpace
open Foundation
open Memory.FilePageCache (guestMemoryPageSize)

/-! ### Ranges of whole pages -/

/-- The pages of a range that does not overflow. -/
structure PageRange (first stop : Nat) : Prop where
  order : first < stop
  bound : stop * pageSize ≤ addressSpaceEnd

variable {first stop k : Nat}

theorem pageRange_of {address : BitVec 32} {size : Nat} (some : size ≠ 0)
    (fits : rangeOverflows address size = false) :
    PageRange (pageIndex address) (endPage address size) ∧
      endPage address size = (address.toNat + size - 1) / pageSize + 1 := by
  have room : ¬(size ≠ 0 ∧ 2 ^ 32 - 1 - address.toNat < size - 1) := of_decide_eq_false fits
  have small := address.isLt
  have last : (address + BitVec.ofNat 32 (size - 1)).toNat = address.toNat + size - 1 := by
    rw [BitVec.toNat_add, BitVec.toNat_ofNat]
    omega
  have stop : endPage address size = (address.toNat + size - 1) / pageSize + 1 := by
    rw [endPage, pageIndex, last]
  refine ⟨⟨?_, ?_⟩, stop⟩
  · rw [stop, pageIndex]
    simp only [pageSize, guestMemoryPageSize]
    omega
  · rw [stop]
    simp only [pageSize, guestMemoryPageSize, addressSpaceEnd]
    omega

theorem pageRange_of_checked {address size : BitVec 32}
    (checked : ¬(decide (size = 0) || rangeOverflows address size.toNat) = true) :
    PageRange (pageIndex address) (endPage address size.toNat) := by
  simp only [Bool.or_eq_true, decide_eq_true_eq, not_or, Bool.not_eq_true] at checked
  exact (pageRange_of (fun zero => checked.1 (BitVec.eq_of_toNat_eq zero)) checked.2).1

theorem PageRange.valid (range : PageRange first stop) :
    validRange (first * pageSize) (stop * pageSize) = true := by
  have order := range.order
  rw [VmMap.validRange_iff]
  exact ⟨by simp only [pageSize, guestMemoryPageSize]; omega, range.bound⟩

theorem inRange_iff (range : PageRange first stop) :
    PointMap.InRange (first * pageSize) (stop * pageSize) (k * pageSize) ↔ first ≤ k ∧ k < stop := by
  rw [PointMap.InRange, iff_true_intro range.valid, true_and]
  simp only [pageSize, guestMemoryPageSize]
  omega

theorem pageWise_multiples (first stop : Nat) :
    Vm.pageSize ∣ first * pageSize ∧ Vm.pageSize ∣ stop * pageSize :=
  ⟨Nat.dvd_mul_left _ _, Nat.dvd_mul_left _ _⟩

theorem mem_pagesBetween : k ∈ pagesBetween first stop ↔ first ≤ k ∧ k < stop := by
  rw [pagesBetween, List.mem_range'_1]
  omega

/-! ### The index -/

/-- What the index holds for an address. -/
def flagsOf : Option VmRegion → BitVec 8
  | none => 0
  | some region => mappedPageFlag ||| region.permissions

def MapsPage (map : VmMap) (k : Nat) : Prop := (map.point (k * pageSize)).isSome = true

/-- An interval lies on whole pages that are mapped, and is only transformed if it is private. -/
structure Filed (map : VmMap) (span : Span FileMapping) : Prop where
  start : pageSize ∣ span.start
  stop : pageSize ∣ span.stop
  mapped : ∀ k, span.Contains (k * pageSize) → MapsPage map k
  transform : span.value.transform.isSome → span.value.mode = .copyOnWrite

/-- A lease is on whole pages. -/
def MappingLease.OnPages (lease : MappingLease) : Prop :=
  ∃ first stop, PageRange first stop ∧ lease.start = first * pageSize ∧
    lease.stop = stop * pageSize

/-- What there is of pages and intervals is there where something is mapped. -/
structure Mappings.Stocked (m : Mappings) : Prop where
  pages : ∀ k ∈ m.pages, MapsPage m.vmMap k
  resident : m.residentPages.current = m.pages.tally fun page => page.backing.isSome
  peak : m.residentPages.current ≤ m.residentPages.maximum
  tidy : Tidy m.fileMappings
  filed : ∀ span ∈ m.fileMappings, Filed m.vmMap span
  leases : ∀ token lease, m.mappingLeases.lookup token = some lease → lease.OnPages

structure Mappings.Indexed (m : Mappings) : Prop extends Stocked m where
  sound : m.vmMap.Sound
  paged : Vm.Paged m.vmMap.point
  permissions : ∀ k, m.pagePermissions k = flagsOf (m.vmMap.point (k * pageSize))
  translations : ∀ k, Within (m.vmTranslations k) (m.pagePermissions k)

def Indexed (s : AddressSpace) : Prop := s.mappings.Indexed

variable {heap : PageHeap} {s s' : AddressSpace}

theorem indexed_new : Indexed {} where
  sound := VmMap.sound_empty
  paged _ := rfl
  permissions _ := rfl
  translations _ := .refl _
  pages _ member := absurd member (AList.notMem_empty _)
  resident := rfl
  peak := Nat.le_refl _
  tidy := Tidy.nil
  filed := nofun
  leases := nofun

theorem flag_flagsOf {region : Option VmRegion} :
    flagsOf region &&& mappedPageFlag ≠ 0 ↔ region.isSome = true := by
  cases region with
  | none => exact iff_of_false (fun unset => unset rfl) Bool.false_ne_true
  | some region =>
    have flag : (mappedPageFlag ||| region.permissions) &&& mappedPageFlag ≠ 0 := by
      intro zero
      have bit := congrArg (BitVec.getLsbD · 7) zero
      simp [mappedPageFlag] at bit
    exact iff_of_true flag rfl

theorem Indexed.mapped_iff (indexed : s.Indexed) :
    MapsPage s.vmMap k ↔ s.pagePermissions k &&& mappedPageFlag ≠ 0 := by
  have permissions : s.pagePermissions k = flagsOf (s.vmMap.point (k * pageSize)) :=
    indexed.permissions k
  rw [permissions, flag_flagsOf, MapsPage]

theorem Indexed.congr (indexed : s.Indexed) (same : s'.mappings = s.mappings) : s'.Indexed := by
  rw [Indexed, same]
  exact indexed

theorem Indexed.invalidateMappingLeases (indexed : s.Indexed) (start stop : Nat) :
    (s.invalidateMappingLeases start stop).Indexed := by
  refine ⟨⟨indexed.pages, indexed.resident, indexed.peak, indexed.tidy, indexed.filed, ?_⟩,
    indexed.sound, indexed.paged, indexed.permissions, indexed.translations⟩
  intro token lease found
  obtain ⟨found', -⟩ := Option.filter_eq_some_iff.mp ((Table.lookup_filter _ _ _).symm.trans found)
  exact indexed.leases token lease found'

/-- Changes that no page is aware of. -/
theorem Indexed.quiet (indexed : s.Indexed) (quiet : Quiet s s') : s'.Indexed := by
  have same : s'.mappings =
      { s.mappings with
        pages := s'.pages
        vmTranslations := s'.vmTranslations
        writeTrackedPages := s'.writeTrackedPages
        writeGeneration := s'.writeGeneration } := by
    simp only [mappings, quiet.vmMap, quiet.fileMappings, quiet.pagePermissions,
      quiet.residentPages, quiet.mappingLeases, quiet.nextMappingLeaseToken, quiet.observations]
  rw [Indexed, same]
  refine ⟨⟨?_, ?_, indexed.peak, indexed.tidy, indexed.filed, indexed.leases⟩, indexed.sound,
    indexed.paged, indexed.permissions, ?_⟩
  · intro k member
    have before : k ∈ s.pages := by
      rw [← AList.lookup_isSome, ← quiet.pages.isSome, AList.lookup_isSome]
      exact member
    exact indexed.pages k before
  · exact indexed.resident.trans (quiet.pages.tally fun page => page.backing.isSome)
  · exact fun k => (quiet.translations k).trans (.or (indexed.translations k) (.refl _))

/-! ### Intervals of files that are cut -/

/-- A part of an interval has the pages of the file that the interval has there. -/
structure Part (span part : Span FileMapping) : Prop where
  start : span.start ≤ part.start
  stop : part.stop ≤ span.stop
  mode : part.value.mode = span.value.mode
  needsCopy : part.value.needsCopy = span.value.needsCopy
  transform : part.value.transform = span.value.transform
  page : ∀ k, part.Contains (k * pageSize) →
    World.FilePage.ofMapping part k = World.FilePage.ofMapping span k

theorem Part.refl (span : Span FileMapping) : Part span span :=
  ⟨Nat.le_refl _, Nat.le_refl _, rfl, rfl, rfl, fun _ _ => rfl⟩

/-- The left part ends with a page, so that the end of its backing does not cut one short. -/
theorem part_left {span : Span FileMapping} {edge : Nat} (aligned : pageSize ∣ edge)
    (after : span.start ≤ edge) (before : edge ≤ span.stop) :
    Part span
      { span with
        stop := edge
        value := { span.value with
          endOffset := min span.value.endOffset (span.value.fileOffset + (edge - span.start)) } } where
  start := Nat.le_refl _
  stop := before
  mode := rfl
  needsCopy := rfl
  transform := rfl
  page k inside := by
    obtain ⟨n, rfl⟩ := aligned
    have low : span.start ≤ k * pageSize := inside.1
    have high : k * pageSize < pageSize * n := inside.2
    have order : k + 1 ≤ n := by
      have less : k * pageSize < n * pageSize := by rwa [Nat.mul_comm n]
      exact Nat.lt_of_mul_lt_mul_right less
    have room : (k + 1) * pageSize ≤ n * pageSize := Nat.mul_le_mul_right _ order
    simp only [World.FilePage.ofMapping, FilePage.mk.injEq, true_and]
    simp only [pageSize, guestMemoryPageSize] at *
    omega

theorem part_right {span : Span FileMapping} {edge : Nat} (after : span.start ≤ edge) :
    Part span
      { span with
        start := edge
        value := { span.value with
          fileOffset := span.value.fileOffset + (edge - span.start) } } where
  start := after
  stop := Nat.le_refl _
  mode := rfl
  needsCopy := rfl
  transform := rfl
  page k inside := by
    have low : edge ≤ k * pageSize := inside.1
    have offset : span.value.fileOffset + (edge - span.start) + (k * pageSize - edge) =
        span.value.fileOffset + (k * pageSize - span.start) := by omega
    simp only [World.FilePage.ofMapping, offset]

/-- Two parts side by side. -/
theorem tidy_pair {V : Type*} {s t : Span V} (first : s.start < s.stop) (second : t.start < t.stop)
    (order : s.stop ≤ t.start) : Tidy [s, t] := by
  refine tidy_cons.mpr ⟨first, ?_, tidy_cons.mpr ⟨second, nofun, Tidy.nil⟩⟩
  intro u member
  rw [List.mem_singleton.mp member]
  exact order

theorem tidy_single {V : Type*} {s : Span V} (busy : s.start < s.stop) : Tidy [s] :=
  tidy_cons.mpr ⟨busy, nofun, Tidy.nil⟩

theorem part_outside {span part : Span FileMapping} {low high : Nat}
    (aligned : pageSize ∣ low ∧ pageSize ∣ high)
    (member : part ∈ FileMapping.outside low high span) :
    Part span part ∧ (part.start = span.start ∨ part.start = high) ∧
      (part.stop = span.stop ∨ part.stop = low) ∧
      ∀ a, part.Contains a → ¬(low ≤ a ∧ a < high) := by
  unfold FileMapping.outside at member
  split at member
  · rename_i overlap
    rcases List.mem_append.mp member with left | right
    · split at left
      · rename_i begins
        obtain rfl := List.mem_singleton.mp left
        refine ⟨part_left aligned.1 begins.le overlap.2.le, .inl rfl, .inr rfl, ?_⟩
        rintro a ⟨-, below⟩ ⟨above, -⟩
        exact absurd below (Nat.not_lt.mpr above)
      · cases left
    · split at right
      · obtain rfl := List.mem_singleton.mp right
        refine ⟨part_right overlap.1.le, .inr rfl, .inl rfl, ?_⟩
        rintro a ⟨above, -⟩ ⟨-, below⟩
        exact absurd below (Nat.not_lt.mpr above)
      · cases right
  · rename_i apart
    obtain rfl := List.mem_singleton.mp member
    refine ⟨.refl _, .inl rfl, .inl rfl, ?_⟩
    rintro a ⟨above, below⟩ ⟨above', below'⟩
    omega

theorem contains_outside {span : Span FileMapping} {low high a : Nat} (inside : span.Contains a)
    (apart : ¬(low ≤ a ∧ a < high)) : ∃ part ∈ FileMapping.outside low high span, part.Contains a := by
  obtain ⟨above, below⟩ := inside
  unfold FileMapping.outside
  split
  · by_cases left : a < low
    · rw [if_pos (above.trans_lt left)]
      exact ⟨_, List.mem_append_left _ List.mem_cons_self, above, left⟩
    · have right : high ≤ a := by omega
      rw [if_pos (right.trans_lt below)]
      exact ⟨_, List.mem_append_right _ List.mem_cons_self, right, below⟩
  · exact ⟨span, List.mem_cons_self, above, below⟩

theorem contains_splitAt {span : Span FileMapping} {point a : Nat} (inside : span.Contains a) :
    ∃ part ∈ FileMapping.splitAt point span, part.Contains a := by
  obtain ⟨above, below⟩ := inside
  unfold FileMapping.splitAt
  split
  · by_cases left : a < point
    · exact ⟨_, List.mem_cons_self, above, left⟩
    · exact ⟨_, List.mem_cons_of_mem _ List.mem_cons_self, Nat.not_lt.mp left, below⟩
  · exact ⟨span, List.mem_cons_self, above, below⟩

/-- A part of an interval that is cut at page boundaries. -/
theorem Filed.part {map map' : VmMap} {span part : Span FileMapping} {low high : Nat}
    (filed : Filed map span) (whole : Part span part)
    (starts : part.start = span.start ∨ part.start = low)
    (stops : part.stop = span.stop ∨ part.stop = high)
    (aligned : pageSize ∣ low ∧ pageSize ∣ high)
    (kept : ∀ k, part.Contains (k * pageSize) → MapsPage map k → MapsPage map' k) :
    Filed map' part where
  start := by
    rcases starts with same | same
    · exact same ▸ filed.start
    · exact same ▸ aligned.1
  stop := by
    rcases stops with same | same
    · exact same ▸ filed.stop
    · exact same ▸ aligned.2
  mapped k inside := by
    refine kept k inside (filed.mapped k ?_)
    exact ⟨whole.start.trans inside.1, inside.2.trans_le whole.stop⟩
  transform := by
    rw [whole.transform, whole.mode]
    exact filed.transform

theorem pieces_outside {low high : Nat} (busy : low < high)
    (aligned : pageSize ∣ low ∧ pageSize ∣ high) : Pieces (FileMapping.outside low high) where
  within span _ part member :=
    ⟨(part_outside aligned member).1.start, (part_outside aligned member).1.stop⟩
  tidy span wide := by
    unfold FileMapping.outside
    split
    · split
      · split
        · exact tidy_pair (by assumption) (by assumption) busy.le
        · exact tidy_single (by assumption)
      · split
        · exact tidy_single (by assumption)
        · exact Tidy.nil
    · exact tidy_single wide

theorem part_splitAt {span part : Span FileMapping} {point : Nat}
    (member : part ∈ FileMapping.splitAt point span) :
    Part span part ∧ (part.start = span.start ∨ part.start = point) ∧
      (part.stop = span.stop ∨ part.stop = point) ∧ ¬(part.start < point ∧ point < part.stop) := by
  unfold FileMapping.splitAt at member
  split at member
  · rename_i inside
    rcases List.mem_cons.mp member with rfl | right
    · refine ⟨⟨Nat.le_refl _, inside.2.le, rfl, rfl, rfl, fun _ _ => rfl⟩, .inl rfl, .inr rfl, ?_⟩
      exact fun both => Nat.lt_irrefl _ both.2
    · obtain rfl := List.mem_singleton.mp right
      refine ⟨part_right inside.1.le, .inr rfl, .inl rfl, ?_⟩
      exact fun both => Nat.lt_irrefl _ both.1
  · rename_i outside
    obtain rfl := List.mem_singleton.mp member
    exact ⟨.refl _, .inl rfl, .inl rfl, outside⟩

theorem pieces_splitAt (point : Nat) : Pieces (FileMapping.splitAt point) where
  within _ _ _ member := ⟨(part_splitAt member).1.start, (part_splitAt member).1.stop⟩
  tidy span wide := by
    unfold FileMapping.splitAt
    split
    · rename_i inside
      exact tidy_pair inside.1 inside.2 (Nat.le_refl _)
    · exact tidy_single wide

/-! ### Ranges that are mapped and unmapped -/

section Ranges
variable {m : Mappings}

/-- An operation on a range changes its pages, and no others. -/
theorem Mappings.Indexed.point_after (indexed : m.Indexed) (range : PageRange first stop)
    (operation : VmOperation) (k : Nat) {changed : Option VmRegion}
    (rule : m.vmMap.point.after operation (k * pageSize) =
      if PointMap.InRange (first * pageSize) (stop * pageSize) (k * pageSize) then changed
      else m.vmMap.point (k * pageSize)) :
    (m.vmMap.after operation).point (k * pageSize) =
      if first ≤ k ∧ k < stop then changed else m.vmMap.point (k * pageSize) := by
  rw [(indexed.sound.after operation).2, rule]
  exact if_congr (inRange_iff range) rfl rfl

theorem aligned_range (first stop : Nat) :
    pageSize ∣ first * pageSize ∧ pageSize ∣ stop * pageSize :=
  ⟨Nat.dvd_mul_left _ _, Nat.dvd_mul_left _ _⟩

theorem PageRange.busy (range : PageRange first stop) : first * pageSize < stop * pageSize :=
  (VmMap.validRange_iff.mp range.valid).1

theorem between_pages : first * pageSize ≤ k * pageSize ∧ k * pageSize < stop * pageSize ↔
    first ≤ k ∧ k < stop := by
  simp only [pageSize, guestMemoryPageSize]
  omega

/-- What is left of the mappings after a range of pages has gone. -/
def Mappings.without (first stop : Nat) (m : Mappings) : Mappings :=
  { m with
    vmMap := m.vmMap.unmap (first * pageSize) (stop * pageSize)
    pages := m.pages.filter fun k _ => !decide (first ≤ k ∧ k < stop)
    fileMappings :=
      m.fileMappings.flatMap (FileMapping.outside (first * pageSize) (stop * pageSize))
    pagePermissions := fun k => if first ≤ k ∧ k < stop then 0 else m.pagePermissions k
    residentPages :=
      { m.residentPages with
        current := m.residentPages.current - (m.pages.filter fun k _ =>
          decide (first ≤ k ∧ k < stop)).tally (fun page : Page => page.backing.isSome) }
    vmTranslations := fun k =>
      if first ≤ k ∧ k < stop then m.vmTranslations k &&& 0 else m.vmTranslations k }

theorem mappings_unmapRange :
    (s.unmapRange heap first stop).mappings = s.mappings.without first stop := by
  have settled (s : AddressSpace) : (s.settleMarkers.clearPagePermissions first stop).mappings =
      (s.clearPagePermissions first stop).mappings := by
    simp only [settleMarkers]
    split <;> rfl
  exact mappings_refreshJitPageRange.trans (settled _)

theorem Mappings.Indexed.without (indexed : m.Indexed) (range : PageRange first stop) :
    (m.without first stop).Indexed := by
  have after := indexed.sound.after (.unmap (first * pageSize) (stop * pageSize))
  have unmapped (k : Nat) : (m.without first stop).vmMap.point (k * pageSize) =
      if first ≤ k ∧ k < stop then none else m.vmMap.point (k * pageSize) :=
    indexed.point_after range (.unmap (first * pageSize) (stop * pageSize)) k rfl
  have kept (k : Nat) (mapped : MapsPage m.vmMap k) (outside : ¬(first ≤ k ∧ k < stop)) :
      MapsPage (m.without first stop).vmMap k := by
    rw [MapsPage, unmapped, if_neg outside]
    exact mapped
  have aligned := aligned_range first stop
  refine ⟨⟨?_, ?_, ?_, ?_, ?_, indexed.leases⟩, after.1, ?_, ?_, ?_⟩
  · intro k member
    obtain ⟨page, found, outside⟩ := Table.mem_filter.mp member
    refine kept k (indexed.pages k (Table.mem_iff_lookup.mpr ⟨page, found⟩)) ?_
    simpa only [Bool.not_eq_true', decide_eq_false_iff_not] using outside
  · have parted := Table.total_filter (fun page : Page => (page.backing.isSome).toNat) m.pages
      fun k _ => decide (first ≤ k ∧ k < stop)
    simp only [Mappings.without]
    rw [indexed.resident]
    exact Nat.sub_eq_of_eq_add (by rw [Nat.add_comm]; exact parted.symm)
  · exact (Nat.sub_le _ _).trans indexed.peak
  · exact (pieces_outside range.busy aligned).tidy_flatMap indexed.tidy
  · intro part member
    obtain ⟨span, member', inside⟩ := List.mem_flatMap.mp member
    obtain ⟨whole, starts, stops, apart⟩ := part_outside aligned inside
    have filed := indexed.filed span member'
    refine filed.part whole starts stops aligned.symm fun k holds mapped => kept k mapped ?_
    exact fun both => apart _ holds (between_pages.mpr both)
  · change Vm.Paged (m.vmMap.after (.unmap (first * pageSize) (stop * pageSize))).point
    rw [after.2]
    exact indexed.paged.after (pageWise_multiples first stop)
  · intro k
    rw [unmapped]
    simp only [Mappings.without]
    split
    · rfl
    · exact indexed.permissions k
  · intro k
    simp only [Mappings.without]
    split
    · exact within_and_right _ _
    · exact indexed.translations k

theorem Indexed.unmapRange (indexed : s.Indexed) (range : PageRange first stop) :
    (s.unmapRange heap first stop).Indexed := by
  rw [Indexed, mappings_unmapRange]
  exact Mappings.Indexed.without indexed range

theorem Filed.mono {map map' : VmMap} {span : Span FileMapping} (filed : Filed map span)
    (kept : ∀ k, MapsPage map k → MapsPage map' k) : Filed map' span :=
  ⟨filed.start, filed.stop, fun k inside => kept k (filed.mapped k inside), filed.transform⟩

/-- A map in which no page is lost. -/
theorem Mappings.Stocked.remap (stocked : m.Stocked) {map : VmMap}
    (kept : ∀ k, MapsPage m.vmMap k → MapsPage map k) (permissions translations : Nat → BitVec 8) :
    Stocked { m with
      vmMap := map, pagePermissions := permissions, vmTranslations := translations } where
  pages k member := kept k (stocked.pages k member)
  resident := stocked.resident
  peak := stocked.peak
  tidy := stocked.tidy
  filed span member := (stocked.filed span member).mono kept
  leases := stocked.leases

theorem flagsOf_joined (permissions : MemoryPermission) (attributes : VmMappingAttributes)
    (region : Option VmRegion) :
    flagsOf (some (PointMap.joined permissions attributes region)) =
      flagsOf region ||| (mappedPageFlag ||| permissions) := by
  cases region with
  | none => exact (BitVec.zero_or).symm
  | some region =>
    apply BitVec.eq_of_getLsbD_eq
    intro n _
    simp only [flagsOf, PointMap.joined, BitVec.getLsbD_or]
    cases mappedPageFlag.getLsbD n <;> cases region.permissions.getLsbD n <;> rfl

/-- More permissions for a range of pages. -/
def Mappings.extended (first stop : Nat) (permissions : MemoryPermission)
    (attributes : VmMappingAttributes) (m : Mappings) : Mappings :=
  { m with
    vmMap := m.vmMap.after (.mapOr (first * pageSize) (stop * pageSize) permissions attributes)
    pagePermissions := fun k =>
      if first ≤ k ∧ k < stop then m.pagePermissions k ||| (mappedPageFlag ||| permissions)
      else m.pagePermissions k }

theorem Mappings.Indexed.mapped (indexed : m.Indexed) (range : PageRange first stop)
    (permissions : MemoryPermission) (attributes : VmMappingAttributes) (k : Nat) :
    (m.vmMap.after (.mapOr (first * pageSize) (stop * pageSize) permissions attributes)).point
        (k * pageSize) =
      if first ≤ k ∧ k < stop then
        some (PointMap.joined permissions attributes (m.vmMap.point (k * pageSize)))
      else m.vmMap.point (k * pageSize) :=
  indexed.point_after range (.mapOr _ _ permissions attributes) k rfl

theorem Mappings.Indexed.paged_mapOr (indexed : m.Indexed) (permissions : MemoryPermission)
    (attributes : VmMappingAttributes) : Vm.Paged
      (m.vmMap.after (.mapOr (first * pageSize) (stop * pageSize) permissions attributes)).point := by
  rw [(indexed.sound.after _).2]
  exact indexed.paged.after (pageWise_multiples first stop)

theorem Mappings.Indexed.mapsPage_mapOr (indexed : m.Indexed) (range : PageRange first stop)
    (permissions : MemoryPermission) (attributes : VmMappingAttributes) (k : Nat) :
    MapsPage (m.vmMap.after
        (.mapOr (first * pageSize) (stop * pageSize) permissions attributes)) k ↔
      (first ≤ k ∧ k < stop) ∨ MapsPage m.vmMap k := by
  rw [MapsPage, indexed.mapped range]
  by_cases inside : first ≤ k ∧ k < stop
  · rw [if_pos inside]
    exact iff_of_true rfl (.inl inside)
  · rw [if_neg inside, or_iff_right inside]
    rfl

theorem Mappings.Indexed.extended (indexed : m.Indexed) (range : PageRange first stop)
    (permissions : MemoryPermission) (attributes : VmMappingAttributes) :
    (m.extended first stop permissions attributes).Indexed := by
  have after := indexed.sound.after
    (.mapOr (first * pageSize) (stop * pageSize) permissions attributes)
  refine ⟨?_, after.1, indexed.paged_mapOr permissions attributes, ?_, ?_⟩
  · refine indexed.toStocked.remap (fun k mapped => ?_) _ _
    exact (indexed.mapsPage_mapOr range permissions attributes k).mpr (.inr mapped)
  · intro k
    simp only [Mappings.extended, indexed.mapped range]
    split
    · rw [flagsOf_joined, indexed.permissions]
    · exact indexed.permissions k
  · intro k
    simp only [Mappings.extended]
    split
    · exact (indexed.translations k).trans (within_or_left _ _)
    · exact indexed.translations k

theorem Indexed.mapRange (indexed : s.Indexed) (range : PageRange first stop)
    (permissions : MemoryPermission) (attributes : VmMappingAttributes) :
    (s.mapRange heap first stop permissions attributes).Indexed := by
  have extended : Indexed (addPagePermissions first stop permissions
      { s.invalidateMappingLeases (first * pageSize) (stop * pageSize) with
        vmMap := s.vmMap.after
          (.mapOr (first * pageSize) (stop * pageSize) permissions attributes) }) :=
    Mappings.Indexed.extended (m :=
      (s.invalidateMappingLeases (first * pageSize) (stop * pageSize)).mappings)
      (indexed.invalidateMappingLeases _ _) range permissions attributes
  simp only [AddressSpace.mapRange]
  refine Indexed.congr ?_ mappings_refreshJitPageRange
  split
  · exact extended.quiet (.stampInstructionPages first stop)
  · exact extended

/-! ### Intervals of files -/

theorem Mappings.Indexed.free (indexed : m.Indexed) (range : PageRange first stop)
    (free : m.vmMap.overlaps (first * pageSize) (stop * pageSize) = false) (k : Nat)
    (inside : first ≤ k ∧ k < stop) : m.vmMap.point (k * pageSize) = none := by
  by_contra mapped
  have overlap := (indexed.sound.overlaps_iff (first * pageSize) (stop * pageSize)).mpr
    ⟨k * pageSize, (inRange_iff range).mpr inside, Option.isSome_iff_ne_none.mpr mapped⟩
  rw [free] at overlap
  contradiction

/-- No interval reaches into pages that are not mapped. -/
theorem Mappings.Stocked.clear (stocked : m.Stocked) (order : first < stop)
    (free : ∀ k, first ≤ k ∧ k < stop → ¬MapsPage m.vmMap k) (span : Span FileMapping)
    (member : span ∈ m.fileMappings) :
    span.stop ≤ first * pageSize ∨ stop * pageSize ≤ span.start := by
  by_contra overlap
  have filed := stocked.filed span member
  have busy := stocked.tidy.busy span member
  obtain ⟨low, starts⟩ := filed.start
  obtain ⟨high, stops⟩ := filed.stop
  have busy' : low < high := by
    rw [starts, stops] at busy
    exact Nat.lt_of_mul_lt_mul_left busy
  obtain ⟨above, below⟩ := not_or.mp overlap
  simp only [starts, stops, pageSize, guestMemoryPageSize] at above below
  refine free (max low first) (by omega) (filed.mapped _ ?_)
  simp only [Span.Contains, starts, stops, pageSize, guestMemoryPageSize]
  omega

theorem Indexed.setPagePermissions (indexed : m.Indexed) (range : PageRange first stop)
    (permissions : MemoryPermission) (attributes : VmMappingAttributes) (span : Span FileMapping)
    (starts : span.start = first * pageSize) (stops : span.stop = stop * pageSize)
    (plain : span.value.transform = none)
    (free : m.vmMap.overlaps (first * pageSize) (stop * pageSize) = false) :
    Mappings.Indexed { m with
      fileMappings := emplace span m.fileMappings
      vmMap := m.vmMap.after (.mapOr (first * pageSize) (stop * pageSize) permissions attributes)
      pagePermissions := fun k =>
        if first ≤ k ∧ k < stop then mappedPageFlag ||| permissions else m.pagePermissions k
      vmTranslations := fun k =>
        if first ≤ k ∧ k < stop then m.vmTranslations k &&& permissions
        else m.vmTranslations k } := by
  have none := indexed.free range free
  have unmapped (k : Nat) (inside : first ≤ k ∧ k < stop) : ¬MapsPage m.vmMap k := by
    rw [MapsPage, none k inside]
    exact Bool.false_ne_true
  have mapped := indexed.mapsPage_mapOr range permissions attributes
  have clear : ∀ other ∈ m.fileMappings, other.stop ≤ span.start ∨ span.stop ≤ other.start := by
    rw [starts, stops]
    exact indexed.clear range.order unmapped
  have busy : span.start < span.stop := by
    rw [starts, stops]
    exact range.busy
  have fresh : ∀ other ∈ m.fileMappings, other.start ≠ span.start := by
    intro other member same
    have wide := indexed.tidy.busy other member
    rcases clear other member with before | behind <;> omega
  have remapped := indexed.toStocked.remap
    (fun k mapped' => (mapped k).mpr (.inr mapped')) m.pagePermissions m.vmTranslations
  have after := indexed.sound.after
    (.mapOr (first * pageSize) (stop * pageSize) permissions attributes)
  refine ⟨⟨remapped.pages, remapped.resident, remapped.peak, ?_, ?_, remapped.leases⟩, after.1,
    indexed.paged_mapOr permissions attributes, ?_, ?_⟩
  · exact indexed.tidy.emplace busy clear
  · intro other member
    rcases (mem_emplace fresh).mp member with rfl | old
    · refine ⟨starts ▸ (aligned_range first stop).1, stops ▸ (aligned_range first stop).2, ?_, ?_⟩
      · intro k inside
        rw [Span.Contains, starts, stops, between_pages] at inside
        exact (mapped k).mpr (.inl inside)
      · rw [plain]
        exact nofun
    · exact remapped.filed other old
  · intro k
    dsimp only
    rw [indexed.mapped range]
    split
    · rename_i inside
      rw [flagsOf_joined, none k inside]
      exact (BitVec.zero_or).symm
    · exact indexed.permissions k
  · intro k
    dsimp only
    split
    · exact (within_and_right _ _).trans (within_or_right _ _)
    · exact indexed.translations k

theorem toNat_of_aligned {address : BitVec 32} (aligned : address.toNat % pageSize = 0) :
    address.toNat = pageIndex address * pageSize :=
  (Nat.div_mul_cancel (Nat.dvd_of_mod_eq_zero aligned)).symm

theorem Indexed.mapFileBacking (indexed : s.Indexed) (address size : BitVec 32)
    (permissions : MemoryPermission) (source : FileId) (fileOffset endOffset : Nat)
    (immutable : Bool) (mode : PageMappingMode) (attributes : VmMappingAttributes) :
    (s.mapFileBacking address size permissions source fileOffset endOffset immutable mode
      attributes).1.Indexed := by
  simp only [AddressSpace.mapFileBacking]
  split
  · exact indexed
  · rename_i checked
    simp only [Bool.or_eq_true, decide_eq_true_eq, not_or, Bool.not_eq_true, not_not] at checked
    obtain ⟨⟨⟨⟨⟨⟨some, fits⟩, aligned⟩, -⟩, -⟩, -⟩, -⟩ := checked
    have size_ne : size.toNat ≠ 0 := fun zero => some (BitVec.eq_of_toNat_eq zero)
    obtain ⟨range, -⟩ := pageRange_of size_ne fits
    rw [toNat_of_aligned aligned]
    split
    · exact indexed
    · rename_i free
      split
      · exact indexed.invalidateMappingLeases _ _
      · exact Indexed.setPagePermissions (m := (s.invalidateMappingLeases
          (pageIndex address * pageSize) (endPage address size.toNat * pageSize)).mappings)
          (indexed.invalidateMappingLeases _ _) range permissions attributes _ rfl rfl rfl
          (Bool.eq_false_iff.mpr free)

theorem Indexed.transformFileMapping (indexed : s.Indexed) (address : BitVec 32)
    (transform : TransformId) : (s.transformFileMapping address transform).1.Indexed := by
  simp only [AddressSpace.transformFileMapping]
  split
  · exact indexed
  · rename_i span found
    have starts : span.start = address.toNat := by simpa using List.find?_some found
    have member := List.mem_of_find?_eq_some found
    split
    · exact indexed
    · rename_i checked
      simp only [Bool.or_eq_true, decide_eq_true_eq, not_or, not_not] at checked
      refine ⟨⟨indexed.pages, indexed.resident, indexed.peak, ?_, ?_, indexed.leases⟩,
        indexed.sound, indexed.paged, indexed.permissions, indexed.translations⟩
      · refine indexed.tidy.map_bounds (fun other => ?_) fun other => ?_
        · split <;> rfl
        · split <;> rfl
      · intro other member'
        obtain ⟨before, stored, rfl⟩ := List.mem_map.mp member'
        have filed := indexed.filed before stored
        split
        · rename_i here
          -- only one interval starts there, and it is private
          have same := eq_of_start indexed.tidy.sorted stored member (here.trans starts.symm)
          exact ⟨filed.start, filed.stop, filed.mapped, fun _ => same ▸ checked.1⟩
        · exact filed

/-- A region is of whole pages, which it maps. -/
theorem Mappings.Indexed.region (indexed : m.Indexed) {region : Span VmRegion}
    (member : region ∈ m.vmMap.regions) : ∃ low high, region.start = low * pageSize ∧
      region.stop = high * pageSize ∧ PageRange low high ∧
        ∀ k, low ≤ k ∧ k < high → m.vmMap.point (k * pageSize) = some region.value := by
  have stretch := indexed.sound.joined.stretch indexed.sound.tidy member
  obtain ⟨⟨low, starts⟩, high, stops⟩ := indexed.paged.stretch stretch
  have busy := stretch.busy
  have bound := indexed.sound.within region member
  rw [Nat.mul_comm] at starts stops
  refine ⟨low, high, starts, stops, ⟨?_, stops ▸ bound⟩, fun k inside => ?_⟩
  · rw [starts, stops] at busy
    exact Nat.lt_of_mul_lt_mul_right busy
  · refine stretch.constant _ ?_
    rw [Span.Contains, starts, stops]
    exact between_pages.mpr inside

/-! ### Protection -/

theorem Mappings.Indexed.protected (indexed : m.Indexed) {permissions : MemoryPermission}
    {setMaximum copy : Bool} {map : VmMap} {result : ProtectionResult}
    (done : m.vmMap.protect (first * pageSize) (stop * pageSize) permissions setMaximum copy =
      (map, result)) (allowed : result.error = none) (range : PageRange first stop) :
    (map.Sound ∧ Vm.Paged map.point) ∧
      (∀ k, ¬(first ≤ k ∧ k < stop) → map.point (k * pageSize) = m.vmMap.point (k * pageSize)) ∧
      (∀ k, MapsPage m.vmMap k → MapsPage map k) ∧
      ∀ k, first ≤ k ∧ k < stop → MapsPage map k := by
  have spec := indexed.sound.protect (first * pageSize) (stop * pageSize) permissions setMaximum copy
  rw [done] at spec
  have rule := spec.refines
  have clean := spec.checked range.valid
  rw [allowed] at clean
  have outside (k : Nat) (apart : ¬(first ≤ k ∧ k < stop)) :
      map.point (k * pageSize) = m.vmMap.point (k * pageSize) := by
    rw [rule]
    exact if_neg fun both => apart ((inRange_iff range).mp both.2)
  have kept (k : Nat) (mapped : MapsPage m.vmMap k) : MapsPage map k := by
    rw [MapsPage, rule]
    simp only [PointMap.after]
    split
    · rw [Option.isSome_map]
      exact mapped
    · exact mapped
  refine ⟨⟨spec.sound, ?_⟩, outside, kept, fun k inside => kept k ?_⟩
  · rw [rule]
    exact indexed.paged.after (pageWise_multiples first stop)
  · have fault := clean.none_iff.mp rfl (k * pageSize) (between_pages.mpr inside).1
      (between_pages.mpr inside).2
    rw [MapsPage]
    simp only [PointMap.protectionFault, faultAt] at fault
    cases found : m.vmMap.point (k * pageSize) with
    | none =>
      rw [found] at fault
      contradiction
    | some region => rfl

/-- The part of a region from a page on, up to the end of a range, is of whole pages. -/
theorem region_part {map : VmMap} {cursor : Nat} {region : Span VmRegion} (sound : map.Sound)
    (paged : Vm.Paged map.point) (found : map.regionAtOrAfter (cursor * pageSize) = some region)
    (begun : region.start ≤ cursor * pageSize) (more : cursor < stop) :
    ∃ next, min region.stop (stop * pageSize) = next * pageSize ∧ next ≤ stop ∧ cursor < next ∧
      ∀ k, cursor ≤ k → k < next → map.point (k * pageSize) = some region.value := by
  have query := sound.regionAtOrAfter (cursor * pageSize)
  rw [found] at query
  obtain ⟨stretch, reaches, -⟩ := query
  obtain ⟨-, high, stops⟩ := paged.stretch stretch
  rw [Nat.mul_comm] at stops
  rw [stops] at reaches ⊢
  refine ⟨min high stop, (Nat.mul_min_mul_right _ _ _).symm ▸ rfl, Nat.min_le_right _ _,
    lt_min (Nat.lt_of_mul_lt_mul_right reaches) more, fun k low inside => ?_⟩
  refine stretch.constant _ ⟨begun.trans (Nat.mul_le_mul_right _ low), ?_⟩
  rw [stops]
  exact Nat.mul_lt_mul_of_pos_right (inside.trans_le (Nat.min_le_left _ _)) (by decide)

/-- The loop gives the pages the permissions of their regions, one region in each round. -/
theorem applyProtections_spec (sound : s.vmMap.Sound) (paged : Vm.Paged s.vmMap.point)
    {rounds cursor : Nat} (order : cursor ≤ stop) (enough : stop - cursor ≤ rounds)
    (mapped : ∀ k, cursor ≤ k ∧ k < stop → MapsPage s.vmMap k) :
    ∃ permissions translations, s.applyProtections (stop * pageSize) rounds (cursor * pageSize) =
        { s with pagePermissions := permissions, vmTranslations := translations } ∧
      (∀ k, permissions k =
        if cursor ≤ k ∧ k < stop then flagsOf (s.vmMap.point (k * pageSize))
        else s.pagePermissions k) ∧
      ∀ k, if cursor ≤ k ∧ k < stop then Within (translations k) (permissions k)
        else translations k = s.vmTranslations k := by
  induction rounds generalizing cursor s with
  | zero =>
    refine ⟨s.pagePermissions, s.vmTranslations, rfl, fun k => ?_, fun k => ?_⟩
    · rw [if_neg (by omega)]
    · rw [if_neg (by omega)]
  | succ rounds ih =>
    simp only [applyProtections]
    split
    · rename_i more
      have more' : cursor < stop := Nat.lt_of_mul_lt_mul_right more
      have query := sound.regionAtOrAfter (cursor * pageSize)
      have here := mapped cursor ⟨Nat.le_refl _, more'⟩
      cases found : s.vmMap.regionAtOrAfter (cursor * pageSize) with
      | none =>
        rw [found] at query
        rw [MapsPage, query _ (Nat.le_refl _)] at here
        contradiction
      | some region =>
        rw [found] at query
        have begun : region.start ≤ cursor * pageSize := by
          by_contra later
          rw [MapsPage, query.2.2 _ (Nat.le_refl _) (Nat.not_le.mp later)] at here
          contradiction
        obtain ⟨next, ends, bound, further, covered⟩ := region_part sound paged found begun more'
        dsimp only
        rw [ends, Nat.mul_div_cancel _ (by decide), Nat.mul_div_cancel _ (by decide)]
        obtain ⟨permissions, translations, same, flags, rights⟩ :=
          ih (s := s.setPagePermissions cursor next region.value.permissions) sound paged bound
            (by omega) fun k inside => mapped k ⟨by omega, inside.2⟩
        refine ⟨permissions, translations, same, fun k => ?_, fun k => ?_⟩
        · rw [flags]
          by_cases late : next ≤ k ∧ k < stop
          · rw [if_pos late, if_pos ⟨by omega, late.2⟩]
            rfl
          · rw [if_neg late]
            by_cases now : cursor ≤ k ∧ k < next
            · rw [if_pos ⟨now.1, by omega⟩, covered k now.1 now.2]
              exact if_pos now
            · rw [if_neg (by omega)]
              exact if_neg now
        · have given := rights k
          by_cases late : next ≤ k ∧ k < stop
          · rw [if_pos late] at given
            rw [if_pos ⟨by omega, late.2⟩]
            exact given
          · rw [if_neg late] at given
            by_cases now : cursor ≤ k ∧ k < next
            · rw [if_pos ⟨now.1, by omega⟩, flags, if_neg late, given]
              have trimmed : Within (s.vmTranslations k &&& region.value.permissions)
                  (mappedPageFlag ||| region.value.permissions) :=
                (within_and_right _ _).trans (within_or_right _ _)
              simpa only [AddressSpace.setPagePermissions, keepTranslations, if_pos now] using trimmed
            · rw [if_neg (by omega), given]
              exact if_neg now
    · rename_i done
      have same : cursor = stop := by
        simp only [pageSize, guestMemoryPageSize] at done
        omega
      refine ⟨s.pagePermissions, s.vmTranslations, rfl, fun k => ?_, fun k => ?_⟩
      · rw [if_neg (by omega)]
      · rw [if_neg (by omega)]

theorem Stocked.privatizeRange (stocked : s.mappings.Stocked) :
    (s.privatizeRange heap first stop).mappings.Stocked := by
  have points := aligned_range first stop
  have cut : ∀ part ∈ (s.fileMappings.flatMap (FileMapping.splitAt (first * pageSize))).flatMap
      (FileMapping.splitAt (stop * pageSize)), Filed s.vmMap part := by
    intro part member
    obtain ⟨part', member', inside⟩ := List.mem_flatMap.mp member
    obtain ⟨span, stored, inside'⟩ := List.mem_flatMap.mp member'
    obtain ⟨whole', starts', stops', -⟩ := part_splitAt inside'
    obtain ⟨whole, starts, stops, -⟩ := part_splitAt inside
    have filed := (stocked.filed span stored).part whole' starts' stops' ⟨points.1, points.1⟩
      fun _ _ mapped => mapped
    exact filed.part whole starts stops ⟨points.2, points.2⟩ fun _ _ mapped => mapped
  constructor
  · intro k member
    obtain ⟨page, found⟩ := Table.mem_iff_lookup.mp member
    have found' : (s.pages.lookup k).map _ = some page :=
      (Table.lookup_mapValues s.pages _ k).symm.trans found
    obtain ⟨page', stored, -⟩ := Option.map_eq_some_iff.mp found'
    exact stocked.pages k (Table.mem_iff_lookup.mpr ⟨page', stored⟩)
  · refine stocked.resident.trans (Table.total_mapValues _ s.pages _ fun k page => ?_).symm
    split <;> rfl
  · exact stocked.peak
  · refine Tidy.map_bounds (fun span => ?_) (fun span => ?_) ((pieces_splitAt _).tidy_flatMap
      ((pieces_splitAt _).tidy_flatMap stocked.tidy))
    · split <;> rfl
    · split <;> rfl
  · intro span member
    obtain ⟨part, member', rfl⟩ := List.mem_map.mp member
    have filed := cut part member'
    split
    · exact ⟨filed.start, filed.stop, filed.mapped, filed.transform⟩
    · exact filed
  · exact stocked.leases

theorem Indexed.protectWithResult (indexed : s.Indexed) (address size : BitVec 32)
    (permissions : MemoryPermission) (setMaximum copy : Bool) :
    (s.protectWithResult heap address size permissions setMaximum copy).1.Indexed := by
  simp only [AddressSpace.protectWithResult]
  split
  · exact indexed
  · have range := pageRange_of_checked ‹_›
    generalize pageIndex address = first at range ⊢
    generalize endPage address size.toNat = stop at range ⊢
    cases done : s.vmMap.protect (first * pageSize) (stop * pageSize) permissions setMaximum copy with
    | mk map result =>
      dsimp only
      cases allowed : result.error with
      | some error => exact indexed
      | none =>
        obtain ⟨⟨sound, paged⟩, outside, kept, inside⟩ :=
          Mappings.Indexed.protected indexed done allowed range
        let remapped : AddressSpace := { s with vmMap := map }
        let privatized : AddressSpace :=
          if copy then remapped.privatizeRange heap first stop else remapped
        have same : privatized.vmMap = map ∧ privatized.pagePermissions = s.pagePermissions ∧
            privatized.vmTranslations = s.vmTranslations := by
          dsimp only [privatized]
          split <;> exact ⟨rfl, rfl, rfl⟩
        have stocked : privatized.mappings.Stocked := by
          have stocked := indexed.toStocked.remap kept s.pagePermissions s.vmTranslations
          dsimp only [privatized]
          split
          · exact Stocked.privatizeRange stocked
          · exact stocked
        have sound' : privatized.vmMap.Sound := same.1 ▸ sound
        have paged' : Vm.Paged privatized.vmMap.point := same.1 ▸ paged
        obtain ⟨flags, rights, applied, flagged, limited⟩ :=
          applyProtections_spec sound' paged' range.order.le (Nat.le_refl (stop - first))
            (by rw [same.1]; exact inside)
        have reindexed : Indexed
            (privatized.applyProtections (stop * pageSize) (stop - first) (first * pageSize)) := by
          rw [applied]
          refine ⟨stocked.remap (fun _ mapped => mapped) flags rights, sound', paged',
            fun k => ?_, fun k => ?_⟩
          · change flags k = flagsOf (privatized.vmMap.point (k * pageSize))
            rw [flagged]
            by_cases here : first ≤ k ∧ k < stop
            · rw [if_pos here]
            · rw [if_neg here, same.1, same.2.1, outside k here]
              exact indexed.permissions k
          · have limit := limited k
            by_cases here : first ≤ k ∧ k < stop
            · rw [if_pos here] at limit
              exact limit
            · rw [if_neg here] at limit
              change Within (rights k) (flags k)
              rw [limit, flagged, if_neg here, same.2.1, same.2.2]
              exact indexed.translations k
        have refreshed : Indexed ((privatized.applyProtections (stop * pageSize) (stop - first)
            (first * pageSize)).refreshJitPageRange heap first stop) :=
          reindexed.congr mappings_refreshJitPageRange
        dsimp only
        split
        · exact refreshed.quiet (.stampInstructionPages first stop)
        · exact refreshed

theorem Indexed.inherit (indexed : s.Indexed) (address size : BitVec 32)
    (inheritance : VmInheritance) : (s.inherit address size inheritance).1.Indexed := by
  simp only [AddressSpace.inherit]
  split
  · exact indexed
  · have range := pageRange_of_checked ‹_›
    generalize pageIndex address = first at range ⊢
    generalize endPage address size.toNat = stop at range ⊢
    have after := indexed.sound.after (.inherit (first * pageSize) (stop * pageSize) inheritance)
    have point (k : Nat) : (s.vmMap.inherit (first * pageSize) (stop * pageSize) inheritance).1.point
          (k * pageSize) =
        if first ≤ k ∧ k < stop then
          (s.vmMap.point (k * pageSize)).map fun region => { region with inheritance }
        else s.vmMap.point (k * pageSize) :=
      Mappings.Indexed.point_after indexed range
        (.inherit (first * pageSize) (stop * pageSize) inheritance) k rfl
    have flags (k : Nat) : flagsOf ((s.vmMap.inherit (first * pageSize) (stop * pageSize)
        inheritance).1.point (k * pageSize)) = flagsOf (s.vmMap.point (k * pageSize)) := by
      rw [point]
      split
      · cases s.vmMap.point (k * pageSize) <;> rfl
      · rfl
    refine ⟨indexed.toStocked.remap (fun k mapped => ?_) s.pagePermissions s.vmTranslations,
      after.1, ?_, fun k => (indexed.permissions k).trans (flags k).symm, indexed.translations⟩
    · rw [MapsPage, ← flag_flagsOf, flags, flag_flagsOf]
      exact mapped
    · change Vm.Paged (s.mappings.vmMap.after (.inherit _ _ inheritance)).point
      rw [after.2]
      exact indexed.paged.after (pageWise_multiples first stop)

theorem Indexed.retireMappings (indexed : s.Indexed) : s.retireMappings.Indexed := by
  have empty := indexed_new
  simp only [AddressSpace.retireMappings]
  refine Indexed.invalidateMappingLeases ?_ _ _
  exact ⟨⟨empty.pages, empty.resident, empty.peak, empty.tidy, empty.filed, indexed.leases⟩,
    empty.sound, empty.paged, empty.permissions, empty.translations⟩

theorem Indexed.map (indexed : s.Indexed) (address size : BitVec 32)
    (permissions : MemoryPermission) (attributes : VmMappingAttributes) :
    (s.map heap address size permissions attributes).1.Indexed := by
  simp only [AddressSpace.map]
  split
  · exact indexed
  · exact indexed.mapRange (pageRange_of_checked ‹_›) permissions attributes

theorem Indexed.mapAnonymous (indexed : s.Indexed) (address size : BitVec 32)
    (permissions : MemoryPermission) (mode : AnonymousMappingMode)
    (attributes : VmMappingAttributes) :
    (s.mapAnonymous heap address size permissions mode attributes).1.Indexed := by
  simp only [AddressSpace.mapAnonymous]
  split
  · exact indexed
  · have range := pageRange_of_checked ‹_›
    cases mode with
    | exclusive =>
      dsimp only
      split
      · exact indexed
      · exact indexed.mapRange range permissions attributes
    | replace =>
      exact ((indexed.invalidateMappingLeases _ _).unmapRange range).mapRange range permissions
        attributes

theorem Indexed.unmap (indexed : s.Indexed) (address size : BitVec 32) :
    (s.unmap heap address size).1.Indexed := by
  simp only [AddressSpace.unmap]
  split
  · exact indexed
  · exact (indexed.invalidateMappingLeases _ _).unmapRange (pageRange_of_checked ‹_›)

/-! ### Leases -/

theorem Indexed.leased (indexed : s.Indexed) (leases : Table (BitVec 64) MappingLease)
    (onPages : ∀ token lease, leases.lookup token = some lease → lease.OnPages)
    (token : BitVec 64) (observations : List MappingObservation) :
    Indexed { s with
      mappingLeases := leases, nextMappingLeaseToken := token, observations := observations } :=
  ⟨⟨indexed.pages, indexed.resident, indexed.peak, indexed.tidy, indexed.filed, onPages⟩,
    indexed.sound, indexed.paged, indexed.permissions, indexed.translations⟩

theorem Indexed.issueLease (indexed : s.Indexed) {lease : MappingLease} (onPages : lease.OnPages) :
    (s.issueLease lease).1.Indexed := by
  refine indexed.leased _ (fun token other found => ?_) _ s.observations
  rw [Table.lookup_insert_eq] at found
  split at found
  · exact Option.some.inj found ▸ onPages
  · exact indexed.leases token other found

theorem Indexed.unmapMappingLease (indexed : s.Indexed) (token : BitVec 64) :
    (s.unmapMappingLease heap token).1.Indexed := by
  simp only [AddressSpace.unmapMappingLease]
  split
  · exact indexed
  · split
    · exact indexed
    · rename_i lease found
      split
      · exact indexed
      · obtain ⟨first, stop, range, starts, stops⟩ := indexed.leases token lease found
        have erased : Indexed { s with mappingLeases := s.mappingLeases.erase token } := by
          refine indexed.leased _ (fun other lease' found' => ?_) _ s.observations
          rw [Table.lookup_erase_eq] at found'
          split at found'
          · contradiction
          · exact indexed.leases other lease' found'
        rw [starts, stops, Nat.mul_div_cancel _ (by decide), Nat.mul_div_cancel _ (by decide)]
        exact (erased.invalidateMappingLeases _ _).unmapRange range

theorem Indexed.observeMapping (indexed : s.Indexed) (address : BitVec 32) (size : Nat) :
    (s.observeMapping address size).1.Indexed := by
  simp only [AddressSpace.observeMapping]
  split
  · exact indexed
  · rename_i checked
    simp only [Bool.or_eq_true, decide_eq_true_eq, not_or, Bool.not_eq_true] at checked
    obtain ⟨range, -⟩ := pageRange_of checked.1.1 checked.1.2
    refine Indexed.issueLease ?_ ⟨_, _, range, rfl, rfl⟩
    refine indexed.leased _ (fun token lease found => ?_) s.nextMappingLeaseToken _
    obtain ⟨found', -⟩ := Option.filter_eq_some_iff.mp ((Table.lookup_filter _ _ _).symm.trans found)
    exact indexed.leases token lease found'

theorem Indexed.dropObservation (indexed : s.Indexed) (o : Nat) :
    (s.dropObservation o).Indexed :=
  indexed.leased s.mappingLeases indexed.leases s.nextMappingLeaseToken _

/-! ### The check of an access -/

theorem mem_pagesOf {address : BitVec 32} {size : Nat} :
    k ∈ pagesOf address size ↔ pageIndex address ≤ k ∧ k < endPage address size :=
  mem_pagesBetween

theorem grants_flagsOf {region : Option VmRegion} {access : MemoryPermission}
    (plain : access &&& mappedPageFlag = 0) :
    grants (flagsOf region) access = true ↔
      ∃ region', region = some region' ∧ hasPermission region'.permissions access = true := by
  rw [grants, decide_eq_true_eq, flag_flagsOf]
  cases region with
  | none => exact iff_of_false (fun both => Bool.false_ne_true both.1) nofun
  | some region' =>
    have same : (mappedPageFlag ||| region'.permissions) &&& access = region'.permissions &&& access := by
      apply BitVec.eq_of_getLsbD_eq
      intro n _
      have bit : (access &&& mappedPageFlag).getLsbD n = false := by
        rw [plain]
        exact BitVec.getLsbD_zero
      rw [BitVec.getLsbD_and] at bit
      simp only [BitVec.getLsbD_and, BitVec.getLsbD_or]
      cases required : access.getLsbD n with
      | false => rw [Bool.and_false, Bool.and_false]
      | true =>
        rw [required, Bool.true_and] at bit
        rw [bit, Bool.false_or]
    simp only [flagsOf, same, hasPermission, decide_eq_true_eq]
    constructor
    · exact fun both => ⟨region', rfl, both.2⟩
    · rintro ⟨other, found, allowed⟩
      cases found
      exact ⟨rfl, allowed⟩

/-- What the map says of a range of whole pages, it says page by page. -/
theorem Mappings.Indexed.accessible_iff (indexed : m.Indexed) (range : PageRange first stop)
    (access : MemoryPermission) :
    m.vmMap.accessible (first * pageSize) (stop * pageSize) access = true ↔
      ∀ k, first ≤ k ∧ k < stop → ∃ region, m.vmMap.point (k * pageSize) = some region ∧
        hasPermission region.permissions access = true := by
  rw [indexed.sound.accessible_iff, iff_true_intro range.valid, true_and]
  constructor
  · exact fun each k inside => each _ (between_pages.mpr inside).1 (between_pages.mpr inside).2
  · intro each a above below
    have base : Vm.pageBase a = a / pageSize * pageSize := rfl
    rw [indexed.paged a, base]
    apply each
    simp only [pageSize, guestMemoryPageSize] at *
    omega

/-- One page is looked up in the index, more are looked up in the map: both say the same. -/
theorem Indexed.rangeAccessible_iff (indexed : s.Indexed) (address : BitVec 32) (size : Nat)
    {access : MemoryPermission} (plain : access &&& mappedPageFlag = 0) :
    s.rangeAccessible address size access = true ↔ rangeOverflows address size = false ∧
      (size ≠ 0 → ∀ k ∈ pagesOf address size, ∃ region,
        s.vmMap.point (k * pageSize) = some region ∧
          hasPermission region.permissions access = true) := by
  have page (k : Nat) : grants (s.pagePermissions k) access = true ↔ ∃ region,
      s.vmMap.point (k * pageSize) = some region ∧
        hasPermission region.permissions access = true := by
    rw [show s.pagePermissions k = flagsOf (s.vmMap.point (k * pageSize)) from indexed.permissions k,
      grants_flagsOf plain]
  simp only [rangeAccessible]
  split
  · rename_i overflow
    exact iff_of_false Bool.false_ne_true fun both => by simp [overflow] at both
  · rename_i fits
    have fits : rangeOverflows address size = false := by simpa using fits
    rw [iff_true_intro fits, true_and]
    split
    · rename_i zero
      exact iff_of_true rfl fun some => absurd zero some
    · rename_i some
      obtain ⟨range, -⟩ := pageRange_of some fits
      rw [forall_prop_of_true some]
      split
      · refine (Mappings.Indexed.accessible_iff indexed range access).trans ?_
        exact forall_congr' fun k => by rw [mem_pagesOf]; exact Iff.rfl
      · rw [List.all_eq_true]
        exact forall_congr' fun k => imp_congr_right fun _ => page k

/-- A page that may be accessed is mapped. -/
theorem Indexed.mapped_of_accessible (indexed : s.Indexed) {address : BitVec 32} {size : Nat}
    {access : MemoryPermission} (allowed : s.rangeAccessible address size access = true)
    (some : size ≠ 0) : PageRange (pageIndex address) (endPage address size) ∧
      ∀ k ∈ pagesOf address size, MapsPage s.vmMap k := by
  simp only [rangeAccessible, if_neg some] at allowed
  split at allowed
  · contradiction
  · rename_i fits
    obtain ⟨range, -⟩ := pageRange_of some (by simpa using fits)
    refine ⟨range, fun k member => ?_⟩
    split at allowed
    · obtain ⟨region, found, -⟩ :=
        (Mappings.Indexed.accessible_iff indexed range access).mp allowed k (mem_pagesOf.mp member)
      rw [MapsPage, show s.vmMap.point (k * pageSize) = .some region from found]
      rfl
    · have granted := List.all_eq_true.mp allowed k member
      rw [grants, decide_eq_true_eq] at granted
      exact indexed.mapped_iff.mpr granted.1

/-! ### What the index says of an address -/

/-- What a space keeps by page agrees with the map of its memory at every address. -/
structure Faithful (s : AddressSpace) : Prop where
  permissions : ∀ a, s.pagePermissions (a / pageSize) = flagsOf (s.vmMap.point a)
  translations : ∀ a, Within (s.vmTranslations (a / pageSize)) (flagsOf (s.vmMap.point a))
  pages : ∀ a, (s.vmMap.point a).isNone → a / pageSize ∉ s.pages
  files : ∀ a, (s.vmMap.point a).isNone → s.findFileMapping a = none
  resident : s.residentPages.current = s.pages.tally fun page => page.backing.isSome
  peak : s.residentPages.current ≤ s.residentPages.maximum
  accessible : ∀ (address : BitVec 32) size access, access &&& mappedPageFlag = 0 →
    (s.rangeAccessible address size access = true ↔ rangeOverflows address size = false ∧
      ∀ a, address.toNat ≤ a → a < address.toNat + size → ∃ region,
        s.vmMap.point a = some region ∧ hasPermission region.permissions access = true)

theorem mem_pagesOf_iff {address : BitVec 32} {size : Nat} (some : size ≠ 0)
    (fits : rangeOverflows address size = false) :
    k ∈ pagesOf address size ↔
      ∃ a, address.toNat ≤ a ∧ a < address.toNat + size ∧ a / pageSize = k := by
  have ends := (pageRange_of some fits).2
  rw [mem_pagesOf, ends, pageIndex]
  simp only [pageSize, guestMemoryPageSize]
  constructor
  · rintro ⟨low, high⟩
    exact ⟨max address.toNat (k * 4096), by omega, by omega, by omega⟩
  · rintro ⟨a, low, high, rfl⟩
    omega

theorem Indexed.faithful (indexed : s.Indexed) : s.Faithful := by
  have paged (a : Nat) : s.vmMap.point a = s.vmMap.point (a / pageSize * pageSize) :=
    indexed.paged a
  have permissions (a : Nat) : s.pagePermissions (a / pageSize) = flagsOf (s.vmMap.point a) := by
    rw [paged]
    exact indexed.permissions _
  refine ⟨permissions, fun a => ?_, fun a absent member => ?_, fun a absent => ?_, indexed.resident,
    indexed.peak, fun address size access plain => ?_⟩
  · rw [← permissions]
    exact indexed.translations _
  · have mapped : MapsPage s.vmMap (a / pageSize) := indexed.pages _ member
    rw [MapsPage, ← paged, ← Option.not_isNone, absent] at mapped
    contradiction
  · refine List.find?_eq_none.mpr fun span member inside => ?_
    have filed : Filed s.vmMap span := indexed.filed span member
    have low := filed.start
    have high := filed.stop
    have here : span.start ≤ a ∧ a < span.stop := of_decide_eq_true inside
    have mapped : MapsPage s.vmMap (a / pageSize) := filed.mapped _ (by
      obtain ⟨first, starts⟩ := low
      obtain ⟨stop, stops⟩ := high
      simp only [Span.Contains, pageSize, guestMemoryPageSize] at *
      omega)
    rw [MapsPage, ← paged, ← Option.not_isNone, absent] at mapped
    contradiction
  · rw [indexed.rangeAccessible_iff address size plain]
    refine and_congr_right fun fits => ?_
    by_cases zero : size = 0
    · subst zero
      exact iff_of_true (fun some => absurd rfl some) fun a low high => by omega
    · rw [forall_prop_of_true zero]
      constructor
      · intro each a low high
        rw [paged]
        exact each _ ((mem_pagesOf_iff zero fits).mpr ⟨a, low, high, rfl⟩)
      · intro each k member
        obtain ⟨a, low, high, rfl⟩ := (mem_pagesOf_iff zero fits).mp member
        rw [← paged]
        exact each a low high

end Ranges

end ILEmu.AddressSpace
