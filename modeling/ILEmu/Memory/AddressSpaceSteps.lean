import ILEmu.Memory.AddressSpaceSharing

/-! What the calls of a space and the events of a machine do to the pages that they do not move:
they are taken away, or replaced by pages that kernel objects hold. Whatever happens, the index
of every space and the references to pages stay as they should be. -/
namespace ILEmu.AddressSpace
open Foundation
open Memory.FilePageCache (Byte PageBytes guestMemoryPageSize)

/-- The page at an index, or one without a backing. -/
def pageAt (s : AddressSpace) (k : Nat) : Page := (s.pages.lookup k).getD {}

/-- The page is shared and written in place no more than it was. -/
structure Page.Less (page page' : Page) : Prop where
  backing : page'.backing = page.backing
  cached : page.fileCached = true → page'.fileCached = true
  shared : page'.sharedWritable = true → page.sharedWritable = true
  settled : page'.Settled → page.Settled

theorem Page.Less.refl (page : Page) : page.Less page := ⟨rfl, id, id, id⟩

theorem Page.Less.trans {page page' page'' : Page} (first : page.Less page')
    (second : page'.Less page'') : page.Less page'' where
  backing := second.backing.trans first.backing
  cached cached := second.cached (first.cached cached)
  shared shared := first.shared (second.shared shared)
  settled settled := first.settled (second.settled settled)

theorem Page.Less.of_bare {page page' : Page} (same : page'.bare = page.bare) :
    page.Less page' := by
  obtain ⟨cached, shared, -⟩ := Page.flags_of_bare same
  exact ⟨Page.backing_of_bare same, cached.trans, shared.symm.trans,
    (Page.settled_of_bare same).mp⟩

/-- Two intervals have the same file for a page. -/
structure SameFile (k : Nat) (span part : Span FileMapping) : Prop where
  page : World.FilePage.ofMapping part k = World.FilePage.ofMapping span k
  mode : part.value.mode = span.value.mode
  transform : part.value.transform = span.value.transform

theorem SameFile.of_part {k : Nat} {span part : Span FileMapping} (part' : Part span part)
    (inside : part.Contains (k * pageSize)) : SameFile k span part :=
  ⟨part'.page k inside, part'.mode, part'.transform⟩

/-- Either there is no file for a page, or the same. -/
def SameFiles (k : Nat) (files files' : List (Span FileMapping)) : Prop :=
  Option.Rel (SameFile k) (files.find? fun span => decide (span.Contains (k * pageSize)))
    (files'.find? fun span => decide (span.Contains (k * pageSize)))

theorem SameFiles.refl (k : Nat) (files : List (Span FileMapping)) : SameFiles k files files := by
  rw [SameFiles]
  cases files.find? fun span => decide (span.Contains (k * pageSize)) with
  | none => exact .none
  | some span => exact .some ⟨rfl, rfl, rfl⟩

theorem SameFiles.trans {k : Nat} {files files' files'' : List (Span FileMapping)}
    (first : SameFiles k files files') (second : SameFiles k files' files'') :
    SameFiles k files files'' := by
  revert first second
  simp only [SameFiles]
  generalize files.find? _ = found
  generalize files'.find? _ = found'
  generalize files''.find? _ = found''
  intro first second
  cases first with
  | none =>
    cases second with
    | none => exact .none
  | some same =>
    cases second with
    | some same' =>
      exact .some ⟨same'.page.trans same.page, same'.mode.trans same.mode,
        same'.transform.trans same.transform⟩

/-- An interval that is elsewhere. -/
theorem SameFiles.emplace {k : Nat} {files : List (Span FileMapping)} {span : Span FileMapping}
    (tidy : Tidy files) (busy : span.start < span.stop)
    (clear : ∀ other ∈ files, other.stop ≤ span.start ∨ span.stop ≤ other.start)
    (outside : ¬span.Contains (k * pageSize)) :
    SameFiles k files (Foundation.emplace span files) := by
  have fresh : ∀ other ∈ files, other.start ≠ span.start := by
    intro other member same
    have wide := tidy.busy other member
    rcases clear other member with before | behind <;> omega
  have same (other : Span FileMapping) :
      (Foundation.emplace span files).find? (fun span => decide (span.Contains (k * pageSize))) =
          some other ↔
        files.find? (fun span => decide (span.Contains (k * pageSize))) = some other := by
    rw [(tidy.emplace busy clear).find_contains, tidy.find_contains, mem_emplace fresh]
    refine and_congr_left fun around => or_iff_right ?_
    rintro rfl
    exact outside around
  rw [SameFiles, Option.ext same]
  exact SameFiles.refl k files

/-- Intervals that change in what is no matter for their file. -/
theorem SameFiles.map {k : Nat} {files : List (Span FileMapping)}
    {change : Span FileMapping → Span FileMapping}
    (bounds : ∀ span, (change span).start = span.start ∧ (change span).stop = span.stop)
    (each : ∀ span ∈ files, span.Contains (k * pageSize) → SameFile k span (change span)) :
    SameFiles k files (files.map change) := by
  have same (span : Span FileMapping) :
      (change span).Contains (k * pageSize) ↔ span.Contains (k * pageSize) := by
    rw [Span.Contains, Span.Contains, (bounds span).1, (bounds span).2]
  have around : (fun span => decide (span.Contains (k * pageSize))) ∘ change =
      fun span => decide (span.Contains (k * pageSize)) := by
    funext span
    exact decide_eq_decide.mpr (same span)
  rw [SameFiles, List.find?_map, around]
  cases found : files.find? fun span => decide (span.Contains (k * pageSize)) with
  | none => exact .none
  | some span =>
    exact .some (each span (List.mem_of_find?_eq_some found) (by simpa using List.find?_some found))

theorem SameFiles.splitAt {k : Nat} {files : List (Span FileMapping)} (tidy : Tidy files)
    (point : Nat) : SameFiles k files (files.flatMap (FileMapping.splitAt point)) :=
  (pieces_splitAt point).find_rel tidy (fun _ => contains_splitAt)
    fun _ _ cut inside => .of_part (part_splitAt cut).1 inside

/-- A page stays as it is, with its file. -/
structure Steady (s s' : AddressSpace) (k : Nat) : Prop where
  page : (s.pageAt k).Less (s'.pageAt k)
  file : SameFiles k s.fileMappings s'.fileMappings

/-- The pages of a space change where they go: what comes there is held, and copied before it is
written or shared. -/
structure Changed (held : List BackingId) (gone : Nat → Prop) (s s' : AddressSpace) : Prop where
  steady : ∀ k, ¬gone k → Steady s s' k
  replaced : ∀ k, gone k → ∀ b, (s'.pageAt k).backing = some b →
    b ∈ held ∧ ¬(s'.pageAt k).Settled

section Changes
variable {s s' s'' : AddressSpace} {held : List BackingId} {gone gone' : Nat → Prop} {k : Nat}
  {heap : PageHeap} {first stop : Nat}

theorem Changed.refl (s : AddressSpace) : Changed held (fun _ => False) s s :=
  ⟨fun k _ => ⟨.refl _, .refl k _⟩, fun _ => nofun⟩

theorem Changed.trans (before : Changed held gone s s') (after : Changed held gone' s' s'') :
    Changed held (fun k => gone k ∨ gone' k) s s'' := by
  refine ⟨fun k stays => ?_, fun k goes b found => ?_⟩
  · obtain ⟨stays, stays'⟩ := not_or.mp stays
    have first := before.steady k stays
    have second := after.steady k stays'
    exact ⟨first.page.trans second.page, first.file.trans second.file⟩
  · by_cases later : gone' k
    · exact after.replaced k later b found
    · have page := (after.steady k later).page
      obtain ⟨member, unsettled⟩ :=
        before.replaced k (goes.resolve_right later) b (page.backing ▸ found)
      exact ⟨member, fun settled => unsettled (page.settled settled)⟩

theorem Changed.mono (changed : Changed held gone s s') (more : ∀ k, gone k → gone' k)
    (absent : ∀ k, gone' k → ¬gone k → (s.pageAt k).backing = none) :
    Changed held gone' s s' := by
  refine ⟨fun k stays => changed.steady k fun goes => stays (more k goes), fun k goes b found => ?_⟩
  by_cases before : gone k
  · exact changed.replaced k before b found
  · rw [(changed.steady k before).page.backing, absent k goes before] at found
    contradiction

theorem Changed.congr (changed : Changed held gone s s') (same : ∀ k, gone k ↔ gone' k) :
    Changed held gone' s s' :=
  changed.mono (fun k => (same k).mp) fun k goes stays => absurd ((same k).mpr goes) stays

theorem Changed.still (before : Changed held (fun _ => False) s s')
    (after : Changed held gone s' s'') : Changed held gone s s'' :=
  (before.trans after).congr fun _ => iff_of_eq (false_or _)

theorem Changed.then_still (before : Changed held gone s s')
    (after : Changed held (fun _ => False) s' s'') : Changed held gone s s'' :=
  (before.trans after).congr fun _ => iff_of_eq (or_false _)

theorem pageAt_quiet (quiet : Quiet s s') (k : Nat) : (s'.pageAt k).bare = (s.pageAt k).bare :=
  quiet.pages.getD k {}

theorem Changed.quiet (quiet : Quiet s s') : Changed held (fun _ => False) s s' := by
  refine ⟨fun k _ => ⟨.of_bare (pageAt_quiet quiet k), ?_⟩, fun _ => nofun⟩
  rw [quiet.fileMappings]
  exact .refl k _

theorem Changed.of_same (pages : s'.pages = s.pages) (files : s'.fileMappings = s.fileMappings) :
    Changed held (fun _ => False) s s' := by
  refine ⟨fun k _ => ⟨?_, ?_⟩, fun _ => nofun⟩
  · simp only [pageAt, pages]
    exact .refl _
  · rw [files]
    exact .refl k _

theorem pageAt_unmapRange : (s.unmapRange heap first stop).pageAt k =
    if first ≤ k ∧ k < stop then {} else s.pageAt k := by
  have pages : (s.unmapRange heap first stop).pages = _ :=
    congrArg Mappings.pages (mappings_unmapRange : (s.unmapRange heap first stop).mappings = _)
  simp only [pageAt, pages, Mappings.without, Table.lookup_filter]
  split
  · rename_i inside
    cases s.mappings.pages.lookup k <;> simp [Option.filter, inside]
  · rename_i outside
    change (Option.filter _ (s.pages.lookup k)).getD {} = _
    cases s.pages.lookup k <;> simp [Option.filter, outside]

theorem Changed.unmapRange (tidy : Tidy s.fileMappings) (range : PageRange first stop) :
    Changed held (fun k => first ≤ k ∧ k < stop) s (s.unmapRange heap first stop) := by
  have files : (s.unmapRange heap first stop).fileMappings = _ :=
    congrArg Mappings.fileMappings
      (mappings_unmapRange : (s.unmapRange heap first stop).mappings = _)
  refine ⟨fun k outside => ⟨?_, ?_⟩, fun k inside b found => ?_⟩
  · rw [pageAt_unmapRange, if_neg outside]
    exact .refl _
  · have aligned := aligned_range first stop
    rw [files]
    refine (pieces_outside range.busy aligned).find_rel tidy (fun span inside => ?_)
      fun span part cut inside => .of_part (part_outside aligned cut).1 inside
    exact contains_outside inside fun both => outside (between_pages.mp both)
  · rw [pageAt_unmapRange, if_pos inside] at found
    contradiction

theorem Changed.mapRange (permissions : MemoryPermission) (attributes : VmMappingAttributes) :
    Changed held (fun _ => False) s (s.mapRange heap first stop permissions attributes) := by
  simp only [AddressSpace.mapRange]
  have extended : Changed held (fun _ => False) s (addPagePermissions first stop permissions
      { s.invalidateMappingLeases (first * pageSize) (stop * pageSize) with
        vmMap := s.vmMap.after
          (.mapOr (first * pageSize) (stop * pageSize) permissions attributes) }) :=
    .of_same rfl rfl
  refine (extended.still ?_).still (.quiet (.of_mappings mappings_refreshJitPageRange))
  split
  · exact .quiet (.stampInstructionPages first stop)
  · exact .refl _

theorem Changed.map (address size : BitVec 32) (permissions : MemoryPermission)
    (attributes : VmMappingAttributes) :
    Changed held (fun _ => False) s (s.map heap address size permissions attributes).1 := by
  simp only [AddressSpace.map]
  split
  · exact .refl s
  · exact .mapRange permissions attributes

theorem Changed.mapAnonymous (tidy : Tidy s.fileMappings) (address size : BitVec 32) (permissions : MemoryPermission)
    (mode : AnonymousMappingMode) (attributes : VmMappingAttributes) :
    ∃ gone, (∀ k, gone k → mode = .replace ∧ k ∈ pagesOf address size.toNat) ∧
      Changed held gone s (s.mapAnonymous heap address size permissions mode attributes).1 := by
  simp only [AddressSpace.mapAnonymous]
  split
  · exact ⟨_, fun _ => False.elim, .refl s⟩
  · have range := pageRange_of_checked ‹_›
    cases mode with
    | exclusive =>
      refine ⟨fun _ => False, fun _ => False.elim, ?_⟩
      dsimp only
      split
      · exact .refl s
      · exact .mapRange permissions attributes
    | replace =>
      have invalidated : Changed held (fun _ => False) s (s.invalidateMappingLeases
          (pageIndex address * pageSize) (endPage address size.toNat * pageSize)) :=
        .of_same rfl rfl
      refine ⟨_, fun k goes => ⟨rfl, mem_pagesOf.mpr goes⟩,
        (invalidated.still (.unmapRange tidy range)).then_still (.mapRange permissions attributes)⟩

theorem Changed.unmap (tidy : Tidy s.fileMappings) (address size : BitVec 32) :
    ∃ gone, (∀ k, gone k → k ∈ pagesOf address size.toNat) ∧
      Changed held gone s (s.unmap heap address size).1 := by
  simp only [AddressSpace.unmap]
  split
  · exact ⟨_, fun _ => False.elim, .refl s⟩
  · have invalidated : Changed held (fun _ => False) s (s.invalidateMappingLeases
        (pageIndex address * pageSize) (endPage address size.toNat * pageSize)) :=
      .of_same rfl rfl
    exact ⟨_, fun k goes => mem_pagesOf.mpr goes,
      invalidated.still (.unmapRange tidy (pageRange_of_checked ‹_›))⟩

theorem Changed.retireMappings : Changed held (fun _ => True) s s.retireMappings :=
  ⟨fun _ stays => absurd trivial stays, fun _ _ _ found => by
    simp only [pageAt, AddressSpace.retireMappings] at found
    contradiction⟩

theorem Changed.inherit (address size : BitVec 32) (inheritance : VmInheritance) :
    Changed held (fun _ => False) s (s.inherit address size inheritance).1 := by
  simp only [AddressSpace.inherit]
  split
  · exact .refl s
  · exact .of_same rfl rfl

theorem Changed.mapFileBacking (indexed : s.Indexed) (address size : BitVec 32)
    (permissions : MemoryPermission) (source : FileId) (fileOffset endOffset : Nat)
    (immutable : Bool) (mode : PageMappingMode) (attributes : VmMappingAttributes) :
    ∃ gone, (∀ k, gone k → k ∈ pagesOf address size.toNat) ∧
      Changed held gone s (s.mapFileBacking address size permissions source fileOffset endOffset
        immutable mode attributes).1 := by
  simp only [AddressSpace.mapFileBacking]
  split
  · exact ⟨_, fun _ => False.elim, .refl s⟩
  · rename_i checked
    simp only [Bool.or_eq_true, decide_eq_true_eq, not_or, Bool.not_eq_true, not_not] at checked
    obtain ⟨⟨⟨⟨⟨⟨positive, fits⟩, aligned⟩, -⟩, -⟩, -⟩, -⟩ := checked
    have size_ne : size.toNat ≠ 0 := fun zero => positive (BitVec.eq_of_toNat_eq zero)
    obtain ⟨range, -⟩ := pageRange_of size_ne fits
    rw [toNat_of_aligned aligned]
    split
    · exact ⟨_, fun _ => False.elim, .refl s⟩
    · rename_i free
      split
      · exact ⟨_, fun _ => False.elim, .of_same rfl rfl⟩
      · have unmapped := Mappings.Indexed.free indexed range (Bool.eq_false_iff.mpr free)
        have clear : ∀ span ∈ s.fileMappings, span.stop ≤ pageIndex address * pageSize ∨
            endPage address size.toNat * pageSize ≤ span.start := by
          refine indexed.clear range.order fun k inside => ?_
          rw [MapsPage, show s.mappings.vmMap.point (k * pageSize) = none from unmapped k inside]
          exact Bool.false_ne_true
        refine ⟨fun k => k ∈ pagesOf address size.toNat, fun _ => id, fun k outside => ⟨.refl _, ?_⟩,
          fun k inside b found => ?_⟩
        · refine .emplace indexed.tidy range.busy clear ?_
          rw [Span.Contains, between_pages, ← mem_pagesOf]
          exact outside
        · have absent : k ∉ s.pages := fun member => by
            have mapped : MapsPage s.vmMap k := indexed.pages k member
            rw [MapsPage, show s.vmMap.point (k * pageSize) = none from
              unmapped k (mem_pagesOf.mp inside)] at mapped
            contradiction
          have empty : s.pageAt k = {} := by
            rw [pageAt, AList.lookup_eq_none.mpr absent]
            rfl
          have found : (s.pageAt k).backing = some b := found
          rw [empty] at found
          contradiction

/-- The pages of an interval that gets a transform have no backings yet. -/
theorem Changed.transformFileMapping (tidy : Tidy s.fileMappings) (address : BitVec 32)
    (transform : TransformId) :
    ∃ gone, (∀ k, gone k → ∃ span ∈ s.fileMappings, span.start = address.toNat ∧
        span.Contains (k * pageSize)) ∧
      Changed held gone s (s.transformFileMapping address transform).1 := by
  simp only [AddressSpace.transformFileMapping]
  split
  · exact ⟨_, fun _ => False.elim, .refl s⟩
  · rename_i span found
    have starts : span.start = address.toNat := by simpa using List.find?_some found
    have member := List.mem_of_find?_eq_some found
    split
    · exact ⟨_, fun _ => False.elim, .refl s⟩
    · rename_i checked
      simp only [Bool.or_eq_true, decide_eq_true_eq, not_or, not_not, List.any_eq_true,
        not_exists, not_and] at checked
      refine ⟨fun k => span.Contains (k * pageSize), fun k inside => ⟨span, member, starts, inside⟩,
        fun k outside => ⟨.refl _, .map (fun other => ?_) fun other stored around => ?_⟩,
        fun k inside b backed => ?_⟩
      · split <;> exact ⟨rfl, rfl⟩
      · split
        · rename_i here
          rw [eq_of_start tidy.sorted stored member (here.trans starts.symm)] at around
          exact absurd around outside
        · exact ⟨rfl, rfl, rfl⟩
      · have absent : k ∉ s.pages := fun present =>
          checked.2 k (AList.mem_keys.mp present) (starts ▸ inside.1) inside.2
        have empty : s.pageAt k = {} := by
          rw [pageAt, AList.lookup_eq_none.mpr absent]
          rfl
        have backed : (s.pageAt k).backing = some b := backed
        rw [empty] at backed
        contradiction

theorem Changed.unmapMappingLease (indexed : s.Indexed) (token : BitVec 64) :
    ∃ gone, (∀ k, gone k → ∃ lease, s.mappingLeases.lookup token = some lease ∧
        lease.start ≤ k * pageSize ∧ k * pageSize < lease.stop) ∧
      Changed held gone s (s.unmapMappingLease heap token).1 := by
  simp only [AddressSpace.unmapMappingLease]
  split
  · exact ⟨_, fun _ => False.elim, .refl s⟩
  · split
    · exact ⟨_, fun _ => False.elim, .refl s⟩
    · rename_i lease found
      split
      · exact ⟨_, fun _ => False.elim, .refl s⟩
      · obtain ⟨first, stop, range, starts, stops⟩ := indexed.leases token lease found
        have erased : Changed held (fun _ => False) s (AddressSpace.invalidateMappingLeases lease.start
            lease.stop { s with mappingLeases := s.mappingLeases.erase token }) := .of_same rfl rfl
        rw [starts, stops, Nat.mul_div_cancel _ (by decide), Nat.mul_div_cancel _ (by decide)]
        rw [starts, stops] at erased
        refine ⟨_, fun k goes => ⟨lease, found, ?_⟩, erased.still (.unmapRange indexed.tidy range)⟩
        rw [starts, stops]
        exact between_pages.mpr goes

theorem Changed.observeMapping (address : BitVec 32) (size : Nat) :
    Changed held (fun _ => False) s (s.observeMapping address size).1 := by
  simp only [AddressSpace.observeMapping]
  split
  · exact .refl s
  · exact .of_same rfl rfl

theorem applyProtections_same (stop rounds cursor : Nat) (s : AddressSpace) :
    (s.applyProtections stop rounds cursor).pages = s.pages ∧
      (s.applyProtections stop rounds cursor).fileMappings = s.fileMappings := by
  induction rounds generalizing cursor s with
  | zero => exact ⟨rfl, rfl⟩
  | succ rounds ih =>
    simp only [AddressSpace.applyProtections]
    split
    · split
      · exact ⟨rfl, rfl⟩
      · exact ih _ _
    · exact ⟨rfl, rfl⟩

/-- A page that is made private is no more shared, and is copied before it is written. -/
theorem Changed.privatizeRange (tidy : Tidy s.fileMappings) :
    Changed held (fun _ => False) s (s.privatizeRange heap first stop) := by
  refine ⟨fun k _ => ⟨?_, ?_⟩, fun _ => nofun⟩
  · have page : (s.privatizeRange heap first stop).pages.lookup k = (s.pages.lookup k).map _ :=
      Table.lookup_mapValues s.pages _ k
    simp only [pageAt, page]
    cases s.pages.lookup k with
    | none => exact .refl _
    | some page =>
      dsimp only [Option.map_some, Option.getD_some]
      split
      · exact ⟨rfl, fun cached => by simp [cached], nofun, fun settled => Bool.noConfusion settled.1.2⟩
      · exact .refl _
  · refine ((SameFiles.splitAt tidy _).trans
      (.splitAt ((pieces_splitAt _).tidy_flatMap tidy) _)).trans (.map (fun span => ?_) ?_)
    · split <;> exact ⟨rfl, rfl⟩
    · intro span _ _
      split <;> exact ⟨rfl, rfl, rfl⟩

theorem Changed.protectWithResult (tidy : Tidy s.fileMappings) (address size : BitVec 32) (permissions : MemoryPermission)
    (setMaximum copy : Bool) : Changed held (fun _ => False) s
      (s.protectWithResult heap address size permissions setMaximum copy).1 := by
  simp only [AddressSpace.protectWithResult]
  split
  · exact .refl s
  · split
    · exact .refl s
    · generalize pageIndex address = first
      generalize endPage address size.toNat = stop
      generalize (s.vmMap.protect _ _ permissions setMaximum copy).1 = map
      let remapped : AddressSpace := { s with vmMap := map }
      let privatized : AddressSpace :=
        if copy then remapped.privatizeRange heap first stop else remapped
      have made : Changed held (fun _ => False) s privatized := by
        have same : Changed held (fun _ => False) s remapped := .of_same rfl rfl
        dsimp only [privatized]
        split
        · exact same.still (.privatizeRange tidy)
        · exact same
      obtain ⟨pages, files⟩ := applyProtections_same (stop * pageSize) (stop - first)
        (first * pageSize) privatized
      have refreshed (s : AddressSpace) :
          Changed held (fun _ => False) s (s.refreshJitPageRange heap first stop) :=
        .quiet (.of_mappings mappings_refreshJitPageRange)
      have applied := (made.still (.of_same pages files)).still (refreshed _)
      split
      · exact applied.still (.quiet (.stampInstructionPages first stop))
      · exact applied

end Changes

/-! ### Regions that are mapped with pages -/

/-- What `mapRegion` does to the mappings. -/
def Mappings.mapRegion (first : Nat) (inheritance : VmInheritance) (m : Mappings)
    (region : Span VmRegion) : Mappings :=
  m.extended (first + region.start / pageSize) (first + region.stop / pageSize)
    region.value.permissions
    { maximumPermissions := region.value.maximumPermissions, inheritance }

theorem mappings_mapRegions (first : Nat) (inheritance : VmInheritance)
    (regions : List (Span VmRegion)) (s : AddressSpace) :
    (regions.foldl (World.mapRegion first inheritance) s).mappings =
      regions.foldl (Mappings.mapRegion first inheritance) s.mappings := by
  induction regions generalizing s with
  | nil => rfl
  | cons region rest ih => exact ih _

/-- Regions are mapped whatever the pages are. -/
theorem mapRegions_stored (first : Nat) (inheritance : VmInheritance)
    (regions : List (Span VmRegion)) (m : Mappings) (pages : Table Nat Page)
    (residentPages : ResidentPageStatistics) :
    regions.foldl (Mappings.mapRegion first inheritance) { m with pages, residentPages } =
      { regions.foldl (Mappings.mapRegion first inheritance) m with pages, residentPages } := by
  induction regions generalizing m with
  | nil => rfl
  | cons region rest ih => exact ih (m.mapRegion first inheritance region)

theorem mapRegions_same (first : Nat) (inheritance : VmInheritance)
    (regions : List (Span VmRegion)) (m : Mappings) :
    (regions.foldl (Mappings.mapRegion first inheritance) m).pages = m.pages ∧
      (regions.foldl (Mappings.mapRegion first inheritance) m).fileMappings = m.fileMappings := by
  induction regions generalizing m with
  | nil => exact ⟨rfl, rfl⟩
  | cons region rest ih => exact ih (m.mapRegion first inheritance region)

/-- Regions that follow each other map every page of the range. -/
theorem Mappings.Indexed.mapRegions {m : Mappings} (indexed : m.Indexed) {first size covered : Nat}
    (inheritance : VmInheritance) {regions : List (Span VmRegion)}
    (whole : covered % pageSize = 0) (ends : size % pageSize = 0)
    (bound : (first + size / pageSize) * pageSize ≤ addressSpaceEnd)
    (follow : World.covers size covered regions = true) :
    (regions.foldl (Mappings.mapRegion first inheritance) m).Indexed ∧
      (∀ k, MapsPage m.vmMap k →
        MapsPage (regions.foldl (Mappings.mapRegion first inheritance) m).vmMap k) ∧
      ∀ k, first + covered / pageSize ≤ k → k < first + size / pageSize →
        MapsPage (regions.foldl (Mappings.mapRegion first inheritance) m).vmMap k := by
  induction regions generalizing m covered with
  | nil =>
    simp only [World.covers, decide_eq_true_eq] at follow
    subst follow
    exact ⟨indexed, fun _ => id, fun k low high => absurd high (Nat.not_lt.mpr low)⟩
  | cons region rest ih =>
    simp only [World.covers, Bool.and_eq_true, decide_eq_true_eq] at follow
    obtain ⟨⟨⟨⟨starts, busy⟩, within⟩, aligned⟩, later⟩ := follow
    have range : PageRange (first + region.start / pageSize) (first + region.stop / pageSize) := by
      rw [starts]
      constructor
      · simp only [pageSize, guestMemoryPageSize] at *
        omega
      · refine (Nat.mul_le_mul_right pageSize ?_).trans bound
        exact Nat.add_le_add_left (Nat.div_le_div_right within) first
    have mapped := indexed.mapsPage_mapOr range region.value.permissions
      { maximumPermissions := region.value.maximumPermissions, inheritance }
    obtain ⟨indexed', kept, covered'⟩ :=
      ih (m := m.mapRegion first inheritance region) (indexed.extended range _ _) aligned later
    refine ⟨indexed', fun k before => kept k ((mapped k).mpr (.inr before)), fun k low high => ?_⟩
    by_cases here : k < first + region.stop / pageSize
    · exact kept k ((mapped k).mpr (.inl ⟨starts ▸ low, here⟩))
    · exact covered' k (Nat.not_lt.mp here) high

/-- Pages of others take the places of a range that has been mapped. -/
theorem Mappings.Indexed.stored {m : Mappings} (indexed : m.Indexed) {pages : Table Nat Page}
    {residentPages : ResidentPageStatistics} (mapped : ∀ k ∈ pages, MapsPage m.vmMap k)
    (resident : residentPages.current = pages.tally fun page => page.backing.isSome)
    (peak : residentPages.current ≤ residentPages.maximum) :
    Mappings.Indexed { m with pages, residentPages } :=
  ⟨⟨mapped, resident, peak, indexed.tidy, indexed.filed, indexed.leases⟩, indexed.sound,
    indexed.paged, indexed.permissions, indexed.translations⟩

namespace World
variable {Cache : Type} (pager : FilePager Cache) {w w' w'' : World Cache} {i j k l : Nat}
  {b : BackingId} {gone : Nat → Prop}

/-! ### Pages that change where they go -/

/-- The backings of a machine change at most in how they are tracked. -/
structure Tracked (w w' : World Cache) : Prop where
  cache : w'.cache = w.cache
  next : w'.heap.next = w.heap.next
  origin : ∀ b, (w'.heap.pages b).origin = (w.heap.pages b).origin
  bytes : ∀ b, (w'.heap.pages b).bytes = (w.heap.pages b).bytes
  held : w'.held = w.held

theorem Tracked.refl (w : World Cache) : Tracked w w := ⟨rfl, rfl, fun _ => rfl, fun _ => rfl, rfl⟩

theorem Tracked.trans (first : Tracked w w') (second : Tracked w' w'') : Tracked w w'' where
  cache := second.cache.trans first.cache
  next := second.next.trans first.next
  origin b := (second.origin b).trans (first.origin b)
  bytes b := (second.bytes b).trans (first.bytes b)
  held := second.held.trans first.held

theorem Tracked.enable (b : BackingId) : Tracked w (w.enableSharedWriteTracking b).1 := by
  simp only [enableSharedWriteTracking]
  split
  · exact .refl w
  · have same := @modify_same b w.heap
      (fun backing => { backing with sharedWriteTracking := true }) fun _ => ⟨rfl, rfl⟩
    exact ⟨rfl, rfl, fun c => (same c).1, fun c => (same c).2, rfl⟩

theorem Tracked.keeps (tracked : Tracked w w') (fixed : PageOrigin → Prop) :
    w.heap.Keeps fixed w'.heap :=
  ⟨tracked.next.ge, fun b _ => tracked.origin b, fun b _ _ => tracked.bytes b⟩

/-- The pages of one space change where they go. -/
structure Altered (i : Nat) (gone : Nat → Prop) (w w' : World Cache) : Prop extends Tracked w w' where
  others : ∀ j, j ≠ i → w'.spaces j = w.spaces j
  count : w.count ≤ w'.count
  existing : i < w'.count
  changed : Changed w.held gone (w.spaces i) (w'.spaces i)

theorem Altered.edit (existing : i < w.count) {change : AddressSpace → AddressSpace}
    (changed : Changed w.held gone (w.spaces i) (change (w.spaces i))) :
    Altered i gone w (w.edit i change) where
  toTracked := ⟨rfl, rfl, fun _ => rfl, fun _ => rfl, rfl⟩
  others _ other := edit_spaces_other change other
  count := Nat.le_refl _
  existing := existing
  changed := by rw [edit_spaces_self]; exact changed

theorem Altered.page (altered : Altered i gone w w') (j l : Nat) :
    (w.page j l).Less (w'.page j l) ∨ (j = i ∧ gone l) ∧ ∀ b, (w'.page j l).backing = some b →
      b ∈ w.held ∧ ¬(w'.page j l).Settled := by
  by_cases other : j = i
  · subst other
    by_cases goes : gone l
    · exact .inr ⟨⟨rfl, goes⟩, altered.changed.replaced l goes⟩
    · exact .inl (altered.changed.steady l goes).page
  · refine .inl ?_
    simp only [World.page, altered.others j other]
    exact .refl _

theorem Altered.owned (altered : Altered i gone w w') (owned : w.Owned pager) : w'.Owned pager := by
  refine ⟨?_, fun j l later => ?_, fun j l b found => ?_, fun b member => ?_,
    fun j l b found made => ?_, fun j l b found made settled => ?_⟩
  · rw [altered.cache]
    exact pager.valid_keeps owned.valid (altered.keeps _)
  · have other : j ≠ i := fun same => Nat.lt_irrefl _ (altered.existing.trans_le (same ▸ later))
    rw [World.page, altered.others j other]
    exact owned.fresh j l (altered.count.trans later)
  · rw [altered.next]
    rcases altered.page j l with less | ⟨-, replaced⟩
    · exact owned.known j l b (less.backing ▸ found)
    · exact (owned.held b (replaced b found).1).1
  · rw [altered.held] at member
    rw [altered.next, altered.origin]
    exact owned.held b member
  · rw [altered.origin] at made
    rcases altered.page j l with less | ⟨-, replaced⟩
    · obtain ⟨cached, own⟩ := owned.cached j l b (less.backing ▸ found) made
      refine ⟨less.cached cached, Bool.eq_false_iff.mpr fun shared => ?_⟩
      rw [less.shared shared] at own
      contradiction
    · exact absurd made (owned.held b (replaced b found).1).2
  · rw [altered.origin] at made
    rw [altered.held]
    rcases altered.page j l with less | ⟨-, replaced⟩
    · obtain ⟨free, alone⟩ :=
        owned.sole j l b (less.backing ▸ found) made (less.settled settled)
      refine ⟨free, fun j' l' other => ?_⟩
      rcases altered.page j' l' with less' | ⟨-, replaced'⟩
      · exact alone j' l' (less'.backing ▸ other)
      · exact absurd (replaced' b other).1 free
    · exact absurd settled (replaced b found).2

/-! ### Imported pages -/

theorem Tracked.shared {sharing : Sharing} (b : BackingId) (aliased : Bool) :
    Tracked w (w.trackShared i k b aliased sharing).1 := by
  simp only [trackShared]
  split
  · exact .enable b
  · exact .refl w

theorem trackShared_spaces (b : BackingId) (aliased : Bool) (sharing : Sharing) :
    (w.trackShared i k b aliased sharing).1.spaces = w.spaces ∧
      (w.trackShared i k b aliased sharing).1.count = w.count := by
  simp only [trackShared, enableSharedWriteTracking]
  split
  · split <;> exact ⟨rfl, rfl⟩
  · exact ⟨rfl, rfl⟩

/-- The pages from one to another are taken from elsewhere, and nothing else changes. -/
structure Imported (i first stop : Nat) (backings : List BackingId) (w w' : World Cache) : Prop
    extends Tracked w w' where
  others : ∀ j, j ≠ i → w'.spaces j = w.spaces j
  count : w'.count = w.count
  same : ∃ pages residentPages,
    (w'.spaces i).mappings = { (w.spaces i).mappings with pages, residentPages }
  counted : (w.spaces i).residentPages.current =
      (w.spaces i).pages.tally (fun page : Page => page.backing.isSome) →
    (w'.spaces i).residentPages.current =
      (w'.spaces i).pages.tally fun page : Page => page.backing.isSome
  peak : (w.spaces i).residentPages.current ≤ (w.spaces i).residentPages.maximum →
    (w'.spaces i).residentPages.current ≤ (w'.spaces i).residentPages.maximum
  inside : ∀ k, first ≤ k → k < stop → ∃ page, (w'.spaces i).pages.lookup k = some page ∧
    (∃ b ∈ backings, page.backing = some b) ∧ ¬page.Settled
  outside : ∀ k, ¬(first ≤ k ∧ k < stop) →
    (w'.spaces i).pages.lookup k = (w.spaces i).pages.lookup k

theorem Imported.nil (i first : Nat) (backings : List BackingId) (w : World Cache) :
    Imported i first first backings w w :=
  { Tracked.refl w with
    others := fun _ _ => rfl
    count := rfl
    same := ⟨_, _, rfl⟩
    counted := id
    peak := id
    inside := fun _ low high => absurd high (Nat.not_lt.mpr low)
    outside := fun _ _ => rfl }

theorem Imported.trans {first middle stop : Nat} {backings : List BackingId}
    (order : first ≤ middle) (order' : middle ≤ stop)
    (before : Imported i first middle backings w w')
    (after : Imported i middle stop backings w' w'') : Imported i first stop backings w w'' where
  toTracked := before.toTracked.trans after.toTracked
  others j other := (after.others j other).trans (before.others j other)
  count := after.count.trans before.count
  same := by
    obtain ⟨_, _, same⟩ := before.same
    obtain ⟨pages, residentPages, same'⟩ := after.same
    exact ⟨pages, residentPages, by rw [same', same]⟩
  counted counted := after.counted (before.counted counted)
  peak peak := after.peak (before.peak peak)
  inside k low high := by
    by_cases early : k < middle
    · rw [after.outside k fun both => Nat.lt_irrefl _ (early.trans_le both.1)]
      exact before.inside k low early
    · exact after.inside k (Nat.not_lt.mp early) high
  outside k outer := by
    rw [after.outside k fun both => outer ⟨order.trans both.1, both.2⟩,
      before.outside k fun both => outer ⟨both.1, both.2.trans_le order'⟩]

theorem importPage_spec {first : Nat} {mode : PageMappingMode} {sharing : Sharing}
    (entry : BackingId × Nat) {backings : List BackingId} (member : entry.1 ∈ backings)
    (absent : first + entry.2 ∉ (w.spaces i).pages) :
    Imported i (first + entry.2) (first + entry.2 + 1) backings w
      (importPage i first mode (w, sharing) entry).1 := by
  let shared : Bool := mode ≠ .copyOnWrite
  let page : Page :=
    { backing := some entry.1, sharedWritable := shared, copyOnWritePossible := !shared
      fileWritebackCapable := mode = .sharedFile && (w.heap.pages entry.1).fileBacked }
  let placed := w.edit i (placed (first + entry.2) page)
  have empty : (w.page i (first + entry.2)).backing = none := by rw [page_eq_of_absent absent]
  have stored : (w.setPage i (first + entry.2) page).recordResidentPage i = placed :=
    recordResidentPage_setPage empty rfl
  have unsettled : ¬page.Settled := by
    rintro ⟨⟨-, possible⟩, own⟩
    have possible : (!shared) = false := possible
    have own : shared = false := own
    rw [own] at possible
    contradiction
  have unbacked : ((w.spaces i).residentBacking (first + entry.2)).isNone := by
    rw [← page_backing, empty]
    rfl
  have here : Imported i (first + entry.2) (first + entry.2 + 1) backings w placed :=
    { Tracked.refl w with
      others := fun _ other => edit_spaces_other _ other
      count := rfl
      same := ⟨_, _, by rw [edit_spaces_self]; rfl⟩
      counted := fun counted => by
        rw [edit_spaces_self]
        exact total_placed counted fun _ => rfl
      peak := fun peak => by
        rw [edit_spaces_self]
        simp only [AddressSpace.placed]
        split
        · exact Nat.le_max_right _ _
        · exact peak
      inside := fun k low high => by
        obtain rfl : k = first + entry.2 := by omega
        rw [edit_spaces_self]
        exact ⟨page, Table.lookup_insert_eq .. |>.trans (if_pos rfl), ⟨entry.1, member, rfl⟩, unsettled⟩
      outside := fun k outer => by
        rw [edit_spaces_self]
        exact Table.lookup_insert_eq .. |>.trans (if_neg (by omega)) }
  have tracked (aliased : Bool) : Imported i (first + entry.2) (first + entry.2 + 1) backings w
      (placed.trackShared i (first + entry.2) entry.1 aliased sharing).1 := by
    obtain ⟨spaces, count⟩ : (placed.trackShared i (first + entry.2) entry.1 aliased
        sharing).1.spaces = placed.spaces ∧ _ := trackShared_spaces entry.1 aliased sharing
    refine { here.toTracked.trans (.shared entry.1 aliased) with
      others := ?_, count := ?_, same := ?_, counted := ?_, peak := ?_, inside := ?_, outside := ?_ }
    · rw [spaces]
      exact here.others
    · rw [count]
      exact here.count
    · rw [spaces]
      exact here.same
    · rw [spaces]
      exact here.counted
    · rw [spaces]
      exact here.peak
    · rw [spaces]
      exact here.inside
    · rw [spaces]
      exact here.outside
  simp only [importPage]
  rw [stored]
  split
  · exact tracked true
  · exact here

theorem importPages_spec {first n : Nat} {mode : PageMappingMode} {sharing : Sharing}
    {rest backings : List BackingId} (members : ∀ b ∈ rest, b ∈ backings)
    (absent : ∀ k, first + n ≤ k → k < first + n + rest.length → k ∉ (w.spaces i).pages) :
    Imported i (first + n) (first + n + rest.length) backings w
      ((rest.zipIdx n).foldl (importPage i first mode) (w, sharing)).1 := by
  induction rest generalizing n w sharing with
  | nil => exact .nil i (first + n) backings w
  | cons b rest ih =>
    rw [List.zipIdx_cons, List.foldl_cons, List.length_cons]
    have here : Imported i (first + n) (first + n + 1) backings w
        (importPage i first mode (w, sharing) (b, n)).1 := importPage_spec (b, n)
      (members b List.mem_cons_self) (absent (first + n) (Nat.le_refl _) (by simp))
    generalize importPage i first mode (w, sharing) (b, n) = state at here ⊢
    obtain ⟨w₁, sharing₁⟩ := state
    have later := @ih w₁ (n + 1) sharing₁
      (fun other member => members other (List.mem_cons_of_mem b member)) fun k low high => by
        have free := absent k (by omega) (by rw [List.length_cons]; omega)
        rw [← AList.lookup_eq_none] at free ⊢
        rw [here.outside k (by omega)]
        exact free
    have both := here.trans (Nat.le_succ _) (Nat.le_add_right _ _) later
    have stop : first + n + 1 + rest.length = first + n + (rest.length + 1) := by omega
    rw [← stop]
    exact both

theorem Altered.trans {gone' : Nat → Prop} (before : Altered i gone w w')
    (after : Altered i gone' w' w'') : Altered i (fun k => gone k ∨ gone' k) w w'' where
  toTracked := before.toTracked.trans after.toTracked
  others j other := (after.others j other).trans (before.others j other)
  count := before.count.trans after.count
  existing := after.existing
  changed := before.changed.trans (before.held ▸ after.changed)

theorem Altered.congr {gone' : Nat → Prop} (altered : Altered i gone w w')
    (same : ∀ k, gone k ↔ gone' k) : Altered i gone' w w' :=
  { altered with changed := altered.changed.congr same }

theorem Altered.then_quiet (altered : Altered i gone w w') {change : AddressSpace → AddressSpace}
    (still : Changed w'.held (fun _ => False) (w'.spaces i) (change (w'.spaces i))) :
    Altered i gone w (w'.edit i change) :=
  (altered.trans (.edit altered.existing still)).congr fun _ => iff_of_eq (or_false _)

theorem Imported.altered {first stop : Nat} {backings : List BackingId}
    (imported : Imported i first stop backings w w') (held : ∀ b ∈ backings, b ∈ w.held)
    (existing : i < w.count) : Altered i (fun k => first ≤ k ∧ k < stop) w w' where
  toTracked := imported.toTracked
  others := imported.others
  count := imported.count.ge
  existing := imported.count ▸ existing
  changed := by
    obtain ⟨pages, residentPages, same⟩ := imported.same
    have files : (w'.spaces i).fileMappings = (w.spaces i).fileMappings :=
      congrArg Mappings.fileMappings same
    refine ⟨fun k outer => ⟨?_, ?_⟩, fun k inner b found => ?_⟩
    · simp only [pageAt, imported.outside k outer]
      exact .refl _
    · rw [files]
      exact .refl k _
    · obtain ⟨page, stored, ⟨c, member, backing⟩, unsettled⟩ := imported.inside k inner.1 inner.2
      have here : (w'.spaces i).pageAt k = page := by
        rw [pageAt, stored]
        rfl
      rw [here] at found ⊢
      obtain rfl : b = c := Option.some.inj (found.symm.trans backing)
      exact ⟨held b member, unsettled⟩

/-- The imported pages are mapped by regions that follow each other. -/
theorem Imported.indexed {first stop size : Nat} {backings : List BackingId}
    (imported : Imported i first stop backings w w') (indexed : (w.spaces i).Indexed)
    (inheritance : VmInheritance) {regions : List (Span VmRegion)} (whole : size % pageSize = 0)
    (range : PageRange first stop) (ends : first + size / pageSize = stop)
    (follow : covers size 0 regions = true) :
    (regions.foldl (mapRegion first inheritance) (w'.spaces i)).Indexed := by
  obtain ⟨pages, residentPages, same⟩ := imported.same
  have stored : (w'.spaces i).pages = pages := congrArg Mappings.pages same
  have counted : (w'.spaces i).residentPages = residentPages :=
    congrArg Mappings.residentPages same
  have bound : (first + size / pageSize) * pageSize ≤ addressSpaceEnd := ends ▸ range.bound
  obtain ⟨indexed', kept, covered⟩ := Mappings.Indexed.mapRegions indexed inheritance
    (Nat.zero_mod _) whole bound follow
  rw [Indexed, mappings_mapRegions, same, mapRegions_stored]
  refine indexed'.stored (fun k member => ?_) ?_ ?_
  · by_cases inside : first ≤ k ∧ k < stop
    · exact covered k (by simpa using inside.1) (ends.symm ▸ inside.2)
    · refine kept k (indexed.pages k ?_)
      rw [← AList.lookup_isSome] at member ⊢
      rw [← stored, imported.outside k inside] at member
      exact member
  · rw [← stored, ← counted]
    exact imported.counted indexed.resident
  · rw [← counted]
    exact imported.peak indexed.peak

/-- What `map_page_ranges` does after its pages are there: nothing that pages are aware of. -/
structure Finished (i : Nat) (gone : Nat → Prop) (w w' : World Cache) : Prop where
  altered : Altered i gone w w'
  indexed : (w'.spaces i).Indexed

theorem Finished.quiet (finished : Finished i gone w w') {change : AddressSpace → AddressSpace}
    (quiet : Quiet (w'.spaces i) (change (w'.spaces i))) :
    Finished i gone w (w'.edit i change) where
  altered := finished.altered.then_quiet (.quiet quiet)
  indexed := by
    rw [edit_spaces_self]
    exact finished.indexed.quiet quiet

theorem Finished.tracking (finished : Finished i gone w w') (epoch transitions : Nat)
    (aliased tracked : Bool) : Finished i gone w
      (if tracked then w'.finishSharedWriteTracking i epoch transitions aliased else w') := by
  split
  · obtain ⟨change, same, quiet⟩ :=
      quiet_finishSharedWriteTracking (w := w') (i := i) epoch transitions aliased
    rw [same]
    exact finished.quiet quiet
  · exact finished

theorem Altered.refl (existing : i < w.count) : Altered i (fun _ => False) w w := by
  have same : w.edit i id = w := by
    exact congrArg (fun spaces => { w with spaces }) (Function.update_eq_self i w.spaces)
  have refl : Altered i (fun _ => False) w (w.edit i id) := .edit existing (.refl (w.spaces i))
  rwa [same] at refl

/-- The pages that `map_page_ranges` takes from others come where nothing was mapped. -/
theorem mapPageRanges_finished (existing : i < w.count) (indexed : (w.spaces i).Indexed)
    (address size : BitVec 32) {backings : List BackingId} (held : ∀ b ∈ backings, b ∈ w.held)
    (regions : List (Span VmRegion)) (mode : PageMappingMode) (inheritance : VmInheritance)
    (leased : Bool) :
    ∃ gone, (∀ k, gone k → k ∈ pagesOf address size.toNat) ∧ Finished i gone w
      (w.mapPageRanges i address size backings regions mode inheritance leased).1 := by
  simp only [mapPageRanges]
  split
  · exact ⟨_, fun _ => False.elim, .refl existing, indexed⟩
  · rename_i checked
    simp only [Bool.or_eq_true, decide_eq_true_eq, not_or, Bool.not_eq_true, not_not,
      Bool.not_eq_true'] at checked
    obtain ⟨⟨⟨⟨⟨positive, aligned⟩, whole⟩, fits⟩, each⟩, follow⟩ := checked
    have size_ne : size.toNat ≠ 0 := fun zero => positive (BitVec.eq_of_toNat_eq zero)
    obtain ⟨range, ends⟩ := pageRange_of size_ne fits
    have stop : pageIndex address + size.toNat / pageSize = endPage address size.toNat := by
      rw [ends, pageIndex]
      simp only [pageSize, guestMemoryPageSize] at *
      omega
    split
    · exact ⟨_, fun _ => False.elim, .refl existing, indexed⟩
    · have invalidated : Finished i (fun _ => False) w
          (w.edit i (AddressSpace.invalidateMappingLeases (pageIndex address * pageSize)
            (endPage address size.toNat * pageSize))) := by
        refine ⟨.edit existing (.of_same rfl rfl), ?_⟩
        rw [edit_spaces_self]
        exact indexed.invalidateMappingLeases _ _
      generalize w.edit i (AddressSpace.invalidateMappingLeases (pageIndex address * pageSize)
        (endPage address size.toNat * pageSize)) = w₁ at invalidated ⊢
      split
      · exact ⟨_, fun _ => False.elim, invalidated⟩
      · rename_i absent
        have imported : Imported i (pageIndex address + 0)
            (pageIndex address + 0 + backings.length) backings w₁
            ((backings.zipIdx 0).foldl (importPage i (pageIndex address) mode) (w₁, {})).1 :=
          importPages_spec (fun _ => id) fun k low high => by
            have inside : k ∈ pagesBetween (pageIndex address) (endPage address size.toNat) :=
              mem_pagesBetween.mpr ⟨low, by omega⟩
            simp only [List.any_eq_true, not_exists, not_and, decide_eq_true_eq] at absent
            exact absent k inside
        rw [Nat.add_zero, each, stop] at imported
        generalize backings.zipIdx.foldl (importPage i (pageIndex address) mode) (w₁, {}) = state
          at imported ⊢
        obtain ⟨w₂, sharing⟩ := state
        let goes (k : Nat) : Prop := pageIndex address ≤ k ∧ k < endPage address size.toNat
        have taken : Altered i goes w w₂ := (invalidated.altered.trans (imported.altered
          (invalidated.altered.held ▸ held) invalidated.altered.existing)).congr
            fun _ => iff_of_eq (false_or _)
        have mapped : Finished i goes w (w₂.edit i fun s =>
            regions.foldl (mapRegion (pageIndex address) inheritance) s) := by
          have same := mappings_mapRegions (pageIndex address) inheritance regions (w₂.spaces i)
          obtain ⟨pages, files⟩ :=
            mapRegions_same (pageIndex address) inheritance regions (w₂.spaces i).mappings
          rw [← same] at pages files
          refine ⟨taken.then_quiet (.of_same pages files), ?_⟩
          rw [edit_spaces_self]
          exact imported.indexed invalidated.indexed inheritance whole range stop
            (Bool.not_eq_false _ ▸ follow)
        have refreshed := (mapped.tracking w₁.sharedWriteTrackingEpoch sharing.transitions true
          sharing.tracked)
        dsimp only at refreshed ⊢
        generalize (if sharing.tracked = true then _ else _ : World Cache) = w₃ at refreshed ⊢
        have done : Finished i goes w (w₃.edit i (AddressSpace.refreshJitPageRange w₃.heap
            (pageIndex address) (endPage address size.toNat))) :=
          refreshed.quiet (.of_mappings mappings_refreshJitPageRange)
        refine ⟨goes, fun k inside => mem_pagesOf.mpr inside, ?_⟩
        generalize w₃.edit i _ = w₄ at done ⊢
        split
        · let lease : MappingLease :=
            { start := pageIndex address * pageSize, stop := endPage address size.toNat * pageSize }
          have issued : Finished i goes w (w₄.edit i fun _ => ((w₄.spaces i).issueLease lease).1) := by
            refine ⟨done.altered.then_quiet (.of_same rfl rfl), ?_⟩
            rw [edit_spaces_self]
            exact done.indexed.issueLease ⟨_, _, range, rfl, rfl⟩
          exact issued
        · exact done

end World

/-! ### Calls -/

theorem Scalar.ne (value : Scalar) : value.bytes ≠ [] := by
  intro empty
  have size := value.size
  rw [empty] at size
  simp at size

/-- The pieces that a call stores, each within a page. -/
def Call.pieces : Call → List (BitVec 32 × List Byte)
  | .writeInteger address value | .compareExchange address _ value | .exchange address value =>
    World.scalarPieces address value.bytes
  | .copyInBatch operations => World.batchPieces operations
  | .copyToUser address data => World.chunks address (data.take (2 ^ 32 - address.toNat))
  | .copyInImmutablePage address data => World.batchPieces [(address, data)]
  | _ => []

/-- The pages that a call shares. -/
def Call.published : Call → List Nat
  | .sharePages address size | .shareMapping address size => pagesOf address size.toNat
  | _ => []

/-- The pages that a call may take away, or bring from elsewhere. -/
def Call.Remaps (s : AddressSpace) (k : Nat) : Call → Prop
  | .mapAnonymous address size _ mode _ => mode = .replace ∧ k ∈ pagesOf address size.toNat
  | .unmap address size | .mapFileBacking address size _ _ _ _ _ _ _
  | .mapPageRanges address size _ _ _ _ _ => k ∈ pagesOf address size.toNat
  | .retireMappings => True
  | .transformFileMapping address _ => ∃ span ∈ s.fileMappings, span.start = address.toNat ∧
      span.Contains (k * pageSize)
  | .unmapMappingLease token => ∃ lease, s.mappingLeases.lookup token = some lease ∧
      lease.start ≤ k * pageSize ∧ k * pageSize < lease.stop
  | _ => False

namespace World
variable {Cache : Type} (pager : FilePager Cache) {w w' w'' : World Cache} {i j k l : Nat}
  {b : BackingId} {gone : Nat → Prop}

/-- What a call does to the pages: it stores the first of its pieces, shares its pages, or maps
some anew. -/
inductive Performed (w : World Cache) (i : Nat) (call : Call) (w' : World Cache) : Prop where
  | stored (n : Nat) (moves : Moves pager i ((call.pieces.take n).map Effect.of) w w')
  | shared (moves : Moves pager i (call.published.map .share) w w')
  | remapped (gone : Nat → Prop) (within : ∀ k, gone k → call.Remaps (w.spaces i) k)
      (finished : Finished i gone w w')

section Silent
variable {pager} {call : Call}

theorem Performed.silent (moves : Moves pager i [] w w') : Performed pager w i call w' :=
  .stored 0 (by rwa [List.take_zero])

theorem Performed.quiet {change : AddressSpace → AddressSpace}
    (quiet : Quiet (w.spaces i) (change (w.spaces i))) :
    Performed pager w i call (w.edit i change) :=
  .silent (.quiet pager quiet)

theorem Performed.of_stored {done : Bool} (stored : Stored pager w i call.pieces w' done) :
    Performed pager w i call w' := by
  obtain ⟨n, moves, -⟩ := stored
  exact .stored n moves

theorem Performed.of_shared {first stop : Nat} (shared : SharedRange pager w i first stop w')
    (pages : call.published = pagesBetween first stop) : Performed pager w i call w' := by
  rcases shared with refused | moves
  · exact .silent refused
  · exact .shared (pages ▸ moves)

theorem Performed.edit {change : AddressSpace → AddressSpace} (existing : i < w.count)
    (indexed : (change (w.spaces i)).Indexed)
    (changed : Changed w.held gone (w.spaces i) (change (w.spaces i)))
    (within : ∀ k, gone k → call.Remaps (w.spaces i) k) :
    Performed pager w i call (w.edit i change) := by
  refine .remapped gone within ⟨.edit existing changed, ?_⟩
  rw [edit_spaces_self]
  exact indexed

end Silent

/-- The invariant of a machine: the references to its pages, and the index of every space. -/
structure Sound (w : World Cache) : Prop where
  owned : w.Owned pager
  indexed : ∀ i, (w.spaces i).Indexed

theorem Sound.kept (sound : w.Sound pager) (existing : i < w.count) : Kept pager i w :=
  ⟨existing, sound.indexed i, sound.owned⟩

theorem perform_spec (sound : w.Sound pager) (existing : i < w.count) (call : Call) :
    Performed pager w i call (w.perform pager i call) := by
  have kept := sound.kept pager existing
  have indexed := sound.indexed i
  have never {k : Nat} : False → call.Remaps (w.spaces i) k := False.elim
  cases call with
  | map address size permissions attributes =>
    simp only [perform]
    exact .edit existing (indexed.map _ _ _ _) (.map _ _ _ _) fun _ => never
  | mapAnonymous address size permissions mode attributes =>
    simp only [perform]
    obtain ⟨gone, within, changed⟩ :=
      @Changed.mapAnonymous _ w.held w.heap indexed.tidy address size permissions mode attributes
    exact .edit existing (indexed.mapAnonymous _ _ _ _ _) changed within
  | unmap address size =>
    simp only [perform]
    obtain ⟨gone, within, changed⟩ :=
      @Changed.unmap _ w.held w.heap indexed.tidy address size
    exact .edit existing (indexed.unmap _ _) changed within
  | retireMappings => exact .edit existing indexed.retireMappings .retireMappings fun _ => id
  | inherit address size inheritance =>
    simp only [perform]
    exact .edit existing (indexed.inherit _ _ _) (.inherit _ _ _) fun _ => never
  | mapFileBacking address size permissions source fileOffset endOffset immutable mode attributes =>
    simp only [perform]
    obtain ⟨gone, within, changed⟩ :=
      @Changed.mapFileBacking _ w.held indexed address size permissions source fileOffset
        endOffset immutable mode attributes
    exact .edit existing (indexed.mapFileBacking _ _ _ _ _ _ _ _ _) changed within
  | transformFileMapping address transform =>
    simp only [perform]
    obtain ⟨gone, within, changed⟩ :=
      @Changed.transformFileMapping _ w.held indexed.tidy address transform
    exact .edit existing (indexed.transformFileMapping _ _) changed within
  | unmapMappingLease token =>
    simp only [perform]
    obtain ⟨gone, within, changed⟩ :=
      @Changed.unmapMappingLease _ w.held w.heap indexed token
    exact .edit existing (indexed.unmapMappingLease token) changed within
  | observeMapping address size =>
    simp only [perform]
    exact .edit existing (indexed.observeMapping _ _) (.observeMapping _ _) fun _ => never
  | dropObservation observation =>
    exact .edit existing (indexed.dropObservation _) (.of_same rfl rfl) fun _ => never
  | protect address size permissions setMaximum copy =>
    simp only [perform]
    exact .edit existing (indexed.protectWithResult _ _ _ _ _)
      (.protectWithResult indexed.tidy _ _ _ _ _) fun _ => never
  | ensureJitPageTables =>
    simp only [perform]
    split
    · exact .quiet (.of_mappings mappings_ensureJitPageTables)
    · exact .silent (.refl w)
  | jitInstructionTable => exact .quiet (.of_mappings mappings_jitInstructionTable)
  | setTaskVmEvents events => exact .quiet (.of_mappings (mappings_setTaskVmEvents events))
  | setParallelAccess enabled => exact .quiet (.of_mappings (mappings_setParallelAccess enabled))
  | disableJitPageTable => exact .quiet (.of_mappings rfl)
  | disableJitWritePageTable => exact .quiet (.of_mappings rfl)
  | trackExclusiveAccess address size =>
    exact .quiet (.of_mappings (mappings_trackExclusiveAccess address size))
  | clearExclusiveAccessTracking =>
    exact .quiet (.of_mappings mappings_clearExclusiveAccessTracking)
  | synchronizeSharedWriteTracking =>
    simp only [perform, synchronizeSharedWriteTracking]
    split
    · exact .silent (.refl w)
    · exact .quiet (.of_mappings mappings_invalidateSharedWriteJitPages)
  | read address size access => exact .silent (readLoop_moves pager kept address size access 2)
  | prepareInstructionFetch address size =>
    exact .silent (prepareInstructionFetch_moves pager kept address size)
  | writeInteger address value =>
    exact .of_stored (writeInteger_moves pager kept address value.ne)
  | compareExchange address expected value =>
    exact .of_stored (compareExchange_moves pager kept address expected.bytes value.ne)
  | exchange address value => exact .of_stored (exchange_moves pager kept address value.ne)
  | copyInBatch operations =>
    rcases copyInBatchLocked_moves pager kept operations false with stored | ⟨-, refused⟩
    · exact .of_stored stored
    · exact .silent refused
  | copyToUser address data =>
    obtain ⟨n, moves, -⟩ := copyToUserEach_moves pager 0 kept
      fun piece (member : piece ∈ chunks address (data.take (2 ^ 32 - address.toNat))) =>
        chunk_within member
    exact .stored n moves
  | copyInImmutablePage address data =>
    rcases copyInImmutablePage_moves pager kept address data with stored | ⟨-, refused⟩
    · exact .of_stored stored
    · exact .silent refused
  | overlayInstructions operations => exact .silent (overlayInstructions_moves pager operations)
  | trackWriteGeneration address size => exact .silent (trackWriteGeneration_moves pager address size)
  | publishWriteGeneration address size =>
    exact .silent (publishWriteGeneration_moves pager address size)
  | sharedMemoryIdentity address => exact .silent (sharedMemoryIdentity_moves pager kept address)
  | sharePages address size => exact .of_shared (sharePages_moves pager kept address size) rfl
  | shareMapping address size => exact .of_shared (shareMapping_moves pager kept address size) rfl
  | mapPageRanges address size backings regions mode inheritance leased =>
    simp only [perform]
    split
    · rename_i held
      obtain ⟨gone, within, finished⟩ := mapPageRanges_finished existing indexed address size
        (by simpa using held) regions mode inheritance leased
      exact .remapped gone within finished
    · exact .silent (.refl w)

end World

end ILEmu.AddressSpace
