import ILEmu.Memory.AddressSpaceEvents

/-! What the operations on the tables of translated code leave alone: everything but the tables,
the markers and the switches; and what those on generations and overlays leave alone. -/
namespace ILEmu.AddressSpace
open Foundation
open Memory.FilePageCache (PageBytes)

/-- An address space without the tables of translated code and the markers that guard them. -/
structure Mappings where
  vmMap : VmMap
  pages : Table Nat Page
  fileMappings : List (Span FileMapping)
  pagePermissions : Nat → BitVec 8
  residentPages : ResidentPageStatistics
  vmTranslations : Nat → BitVec 8
  mappingLeases : Table (BitVec 64) MappingLease
  nextMappingLeaseToken : BitVec 64
  observations : List MappingObservation
  writeTrackedPages : Finset Nat
  writeGeneration : Nat

def mappings (s : AddressSpace) : Mappings where
  vmMap := s.vmMap
  pages := s.pages
  fileMappings := s.fileMappings
  pagePermissions := s.pagePermissions
  residentPages := s.residentPages
  vmTranslations := s.vmTranslations
  mappingLeases := s.mappingLeases
  nextMappingLeaseToken := s.nextMappingLeaseToken
  observations := s.observations
  writeTrackedPages := s.writeTrackedPages
  writeGeneration := s.writeGeneration

variable {heap : PageHeap} {s s' : AddressSpace} {k : Nat}

theorem mappings_foldl {α : Type*} {change : AddressSpace → α → AddressSpace}
    (same : ∀ s a, (change s a).mappings = s.mappings) (items : List α) (s : AddressSpace) :
    (items.foldl change s).mappings = s.mappings := by
  induction items generalizing s with
  | nil => rfl
  | cons a rest ih => exact (ih _).trans (same s a)

@[simp] theorem mappings_trackExclusiveBacking :
    (s.trackExclusiveBacking k).mappings = s.mappings := by
  simp only [trackExclusiveBacking]
  split <;> rfl

@[simp] theorem mappings_trackGuardedBacking : (s.trackGuardedBacking k).mappings = s.mappings := by
  simp only [trackGuardedBacking]
  split <;> simp

@[simp] theorem mappings_refreshJitPage : (s.refreshJitPage heap k).mappings = s.mappings := by
  simp only [refreshJitPage]
  split
  · exact mappings_trackGuardedBacking
  · exact mappings_trackGuardedBacking

@[simp] theorem mappings_refreshJitPages (pages : List Nat) :
    (s.refreshJitPages heap pages).mappings = s.mappings :=
  mappings_foldl (fun _ _ => mappings_refreshJitPage) pages s

@[simp] theorem mappings_refreshJitPageRange {first stop : Nat} :
    (s.refreshJitPageRange heap first stop).mappings = s.mappings := by
  simp only [refreshJitPageRange]
  split
  · rfl
  · exact mappings_refreshJitPages _

@[simp] theorem mappings_clearJitPageTable : s.clearJitPageTable.mappings = s.mappings := rfl

theorem mappings_ensureJitPageTables : (s.ensureJitPageTables heap).mappings = s.mappings := by
  simp only [ensureJitPageTables]
  split
  · rfl
  · exact mappings_refreshJitPages _

theorem mappings_jitInstructionTable : (s.jitInstructionTable heap).mappings = s.mappings := by
  simp only [jitInstructionTable]
  split
  · rfl
  · exact mappings_refreshJitPages _

theorem mappings_setTaskVmEvents (events : Bool) :
    (s.setTaskVmEvents heap events).mappings = s.mappings :=
  mappings_refreshJitPages _

theorem mappings_setParallelAccess (enabled : Bool) :
    (s.setParallelAccess heap enabled).mappings = s.mappings := by
  simp only [setParallelAccess]
  split
  · rfl
  · exact mappings_refreshJitPages _

@[simp] theorem mappings_invalidateSharedWriteJitPages :
    (s.invalidateSharedWriteJitPages heap).mappings = s.mappings := by
  simp only [invalidateSharedWriteJitPages]
  split <;> rfl

@[simp] theorem mappings_guardExclusiveJitPage : (s.guardExclusiveJitPage k).mappings = s.mappings := by
  simp only [guardExclusiveJitPage]
  split
  · rfl
  · split <;> rfl

@[simp] theorem mappings_markGranules (mask : BitVec 64) :
    (s.markGranules k mask).mappings = s.mappings := rfl

theorem mappings_trackExclusivePage (address : BitVec 32) (size : Nat) :
    (s.trackExclusivePage address size k).mappings = s.mappings := by
  simp only [trackExclusivePage]
  have guarded (s : AddressSpace) (p : Prop) [Decidable p] :
      (if p then s.guardExclusiveJitPage k else s).mappings = s.mappings := by
    split <;> simp
  split
  · rw [guarded, mappings_trackExclusiveBacking, mappings_markGranules]
  · rw [mappings_foldl (fun s other => by simp), mappings_foldl (fun s other => by simp), guarded,
      mappings_trackExclusiveBacking, mappings_markGranules]

theorem mappings_trackExclusiveAccess (address : BitVec 32) (size : Nat) :
    (s.trackExclusiveAccess address size).mappings = s.mappings := by
  simp only [trackExclusiveAccess]
  split
  · rfl
  · exact mappings_foldl (fun _ _ => mappings_trackExclusivePage address size) _ s

@[simp] theorem mappings_unmarkPage : (s.unmarkPage heap k).mappings = s.mappings :=
  mappings_refreshJitPage

@[simp] theorem mappings_settleMarkers : s.settleMarkers.mappings = s.mappings := by
  simp only [settleMarkers]
  split <;> rfl

theorem mappings_clearExclusiveAccessTracking :
    (s.clearExclusiveAccessTracking heap).mappings = s.mappings :=
  mappings_foldl (fun _ _ => mappings_unmarkPage) _ s

theorem mappings_releaseMarker (address : BitVec 32) (size : Nat) :
    (s.releaseMarker heap address size k).mappings = s.mappings := by
  simp only [releaseMarker]
  split
  · rfl
  · exact mappings_unmarkPage

@[simp] theorem mappings_releaseExclusiveWriteTracking (address : BitVec 32) (size : Nat) :
    (s.releaseExclusiveWriteTracking heap address size).mappings = s.mappings := by
  have each : (settleMarkers (s.exclusiveWriteTrackedPages.keys.foldl
      (releaseMarker heap address size) s)).mappings = s.mappings := by
    rw [mappings_settleMarkers]
    exact mappings_foldl (fun _ _ => mappings_releaseMarker address size) _ s
  simp only [releaseExclusiveWriteTracking]
  split
  · rfl
  · split
    · split
      · rfl
      · split
        · exact each
        · split
          · rfl
          · split
            · simp
            · rfl
    · exact each

/-! ### Changes that no page is aware of -/

/-- A page without the generation of its last write and its overlay. -/
def Page.bare (page : Page) : Page := { page with writeGeneration := 0, instructions := none }

/-- The rights of one are among those of the other. -/
def Within (rights limit : BitVec 8) : Prop := rights &&& limit = rights

theorem within_iff {rights limit : BitVec 8} :
    Within rights limit ↔ ∀ n, rights.getLsbD n = true → limit.getLsbD n = true := by
  constructor
  · intro within n set
    have bit := congrArg (BitVec.getLsbD · n) within
    simp only [BitVec.getLsbD_and, set, Bool.true_and] at bit
    exact bit
  · intro bits
    apply BitVec.eq_of_getLsbD_eq
    intro n _
    have bit := bits n
    rw [BitVec.getLsbD_and]
    cases set : rights.getLsbD n with
    | false => rfl
    | true => rw [bit set]; rfl

theorem Within.refl (rights : BitVec 8) : Within rights rights := within_iff.mpr fun _ set => set

theorem Within.trans {rights middle limit : BitVec 8} (first : Within rights middle)
    (second : Within middle limit) : Within rights limit :=
  within_iff.mpr fun n set => within_iff.mp second n (within_iff.mp first n set)

theorem within_or_left (rights limit : BitVec 8) : Within rights (rights ||| limit) :=
  within_iff.mpr fun n set => by rw [BitVec.getLsbD_or, set, Bool.true_or]

theorem within_or_right (rights limit : BitVec 8) : Within rights (limit ||| rights) :=
  within_iff.mpr fun n set => by rw [BitVec.getLsbD_or, set, Bool.or_true]

theorem within_and_left (rights limit : BitVec 8) : Within (rights &&& limit) rights :=
  within_iff.mpr fun n set => by
    rw [BitVec.getLsbD_and, Bool.and_eq_true] at set
    exact set.1

theorem within_and_right (rights limit : BitVec 8) : Within (rights &&& limit) limit :=
  within_iff.mpr fun n set => by
    rw [BitVec.getLsbD_and, Bool.and_eq_true] at set
    exact set.2

theorem Within.or {left right limit : BitVec 8} (first : Within left limit)
    (second : Within right limit) : Within (left ||| right) limit :=
  within_iff.mpr fun n set => by
    rw [BitVec.getLsbD_or, Bool.or_eq_true] at set
    exact set.elim (within_iff.mp first n) (within_iff.mp second n)

/-- The map, its index, the pages but for their generations and overlays, and the leases stay as
they are. A page gets no rights that it does not allow. -/
structure Quiet (s s' : AddressSpace) : Prop where
  vmMap : s'.vmMap = s.vmMap
  pages : Table.Alike Page.bare s.pages s'.pages
  fileMappings : s'.fileMappings = s.fileMappings
  pagePermissions : s'.pagePermissions = s.pagePermissions
  residentPages : s'.residentPages = s.residentPages
  mappingLeases : s'.mappingLeases = s.mappingLeases
  nextMappingLeaseToken : s'.nextMappingLeaseToken = s.nextMappingLeaseToken
  observations : s'.observations = s.observations
  translations : ∀ k, Within (s'.vmTranslations k) (s.vmTranslations k ||| s.pagePermissions k)

theorem Quiet.refl (s : AddressSpace) : Quiet s s where
  vmMap := rfl
  pages := .refl _ _
  fileMappings := rfl
  pagePermissions := rfl
  residentPages := rfl
  mappingLeases := rfl
  nextMappingLeaseToken := rfl
  observations := rfl
  translations _ := within_or_left _ _

theorem Quiet.trans {s'' : AddressSpace} (first : Quiet s s') (second : Quiet s' s'') :
    Quiet s s'' where
  vmMap := second.vmMap.trans first.vmMap
  pages := first.pages.trans second.pages
  fileMappings := second.fileMappings.trans first.fileMappings
  pagePermissions := second.pagePermissions.trans first.pagePermissions
  residentPages := second.residentPages.trans first.residentPages
  mappingLeases := second.mappingLeases.trans first.mappingLeases
  nextMappingLeaseToken := second.nextMappingLeaseToken.trans first.nextMappingLeaseToken
  observations := second.observations.trans first.observations
  translations k :=
    (second.translations k).trans
      (.or (first.translations k) (first.pagePermissions ▸ within_or_right _ _))

/-- The tables of translated code and the markers are free to change. -/
theorem Quiet.of_mappings (same : s'.mappings = s.mappings) : Quiet s s' where
  vmMap := congrArg Mappings.vmMap same
  pages := by
    rw [show s'.pages = s.pages from congrArg Mappings.pages same]
    exact .refl _ _
  fileMappings := congrArg Mappings.fileMappings same
  pagePermissions := congrArg Mappings.pagePermissions same
  residentPages := congrArg Mappings.residentPages same
  mappingLeases := congrArg Mappings.mappingLeases same
  nextMappingLeaseToken := congrArg Mappings.nextMappingLeaseToken same
  observations := congrArg Mappings.observations same
  translations k := by
    rw [show s'.vmTranslations = s.vmTranslations from congrArg Mappings.vmTranslations same]
    exact within_or_left _ _

theorem Quiet.foldl {α : Type*} {change : AddressSpace → α → AddressSpace}
    (each : ∀ s a, Quiet s (change s a)) (items : List α) (s : AddressSpace) :
    Quiet s (items.foldl change s) := by
  induction items generalizing s with
  | nil => exact .refl s
  | cons a rest ih => exact (each s a).trans (ih _)

theorem Quiet.counted (s : AddressSpace) :
    Quiet s { s with writeGeneration := s.writeGeneration + 1 } :=
  { Quiet.refl s with }

/-- A stored page is replaced by one that differs in its generation or overlay. -/
theorem Quiet.page {page page' : Page} (found : s.pages.lookup k = some page)
    (same : page'.bare = page.bare) : Quiet s { s with pages := s.pages.insert k page' } :=
  { Quiet.refl s with pages := .replace found same }

theorem Quiet.refreshJitPage : Quiet s (s.refreshJitPage heap k) := .of_mappings (by simp)

theorem Quiet.refreshJitPages (pages : List Nat) : Quiet s (s.refreshJitPages heap pages) :=
  .of_mappings (by simp)

theorem Quiet.setWriteGeneration : Quiet s (s.setWriteGeneration k) := by
  simp only [AddressSpace.setWriteGeneration]
  split
  · rename_i page found
    exact .page found rfl
  · exact .refl s

theorem Quiet.dropInstructions : Quiet s (s.dropInstructions heap k) := by
  simp only [AddressSpace.dropInstructions]
  split
  · rename_i page found
    split
    · refine (Quiet.page found ?_).trans .refreshJitPage
      rfl
    · exact .refl s
  · exact .refl s

theorem Quiet.markWritten (address : BitVec 32) (size : Nat) :
    Quiet s (s.markWritten heap address size) := by
  have dropped (pages : List Nat) (s : AddressSpace) :
      Quiet s (pages.foldl (fun s k => s.dropInstructions heap k) s) :=
    .foldl (fun _ _ => .dropInstructions) pages s
  simp only [AddressSpace.markWritten]
  split
  · exact .refl s
  · split
    · exact dropped _ s
    · exact ((dropped _ s).trans (.counted _)).trans (.foldl (fun _ _ => .setWriteGeneration) _ _)

theorem Quiet.markWrittenBatch (ranges : List (BitVec 32 × Nat)) :
    Quiet s (s.markWrittenBatch heap ranges) := by
  simp only [AddressSpace.markWrittenBatch]
  exact .foldl (fun _ range => .markWritten range.1 range.2) ranges s

theorem Quiet.markScalarWritten (address : BitVec 32) (size : Nat) :
    Quiet s (s.markScalarWritten heap address size) := by
  simp only [AddressSpace.markScalarWritten]
  split
  · exact .markWritten address size
  · split
    · exact (Quiet.counted s).trans .setWriteGeneration
    · exact .refl s

theorem Quiet.stampInstructionPages (first stop : Nat) :
    Quiet s (s.stampInstructionPages first stop) := by
  simp only [AddressSpace.stampInstructionPages]
  split
  · exact .refl s
  · exact (Quiet.counted s).trans (.foldl (fun _ _ => .setWriteGeneration) _ _)

theorem Quiet.keepTranslations (first stop : Nat) (permissions : BitVec 8) :
    Quiet s (s.keepTranslations first stop permissions) :=
  { Quiet.refl s with
    translations := by
      intro k
      simp only [AddressSpace.keepTranslations]
      split
      · exact (within_and_left _ _).trans (within_or_left _ _)
      · exact within_or_left _ _ }

theorem installed_within (s : AddressSpace) (required : BitVec 8) (k : Nat) :
    Within (s.installed required k) (s.pagePermissions k) := by
  have rights := within_and_left (s.pagePermissions k) 7
  unfold installed
  extract_lets copyProtected limit
  split
  · exact (within_and_left _ _).trans rights
  · exact rights

theorem Quiet.accountPages (required : BitVec 8) (pages : List Nat) (s : AddressSpace) :
    Quiet s (s.accountPages heap required pages) := by
  induction pages generalizing s with
  | nil => exact .refl s
  | cons k rest ih =>
    simp only [AddressSpace.accountPages]
    split
    · exact .refl s
    · split
      · exact ih s
      · have translated : Quiet s
            { s with vmTranslations := Function.update s.vmTranslations k (s.installed required k) } :=
          { Quiet.refl s with
            translations := by
              intro other
              simp only [Function.update_apply]
              split
              · rw [‹other = k›]
                exact (installed_within s required k).trans (within_or_right _ _)
              · exact within_or_left _ _ }
        exact (translated.trans .refreshJitPage).trans (ih _)

theorem Quiet.accountVmAccess (charged : Bool) (address : BitVec 32) (size : Nat)
    (access : MemoryPermission) : Quiet s (s.accountVmAccess heap charged address size access) := by
  simp only [AddressSpace.accountVmAccess]
  split
  · exact .refl s
  · exact .accountPages _ _ s

theorem Quiet.setInstructions (instructions : Option PageBytes) :
    Quiet s (World.setInstructions heap k instructions s) := by
  simp only [World.setInstructions]
  split
  · exact .refl s
  · rename_i page found
    refine (Quiet.page found ?_).trans .refreshJitPage
    rfl

theorem Quiet.overlayPage (prepared : Table Nat PageBytes) :
    Quiet s (World.overlayPage heap prepared s k) := by
  simp only [World.overlayPage]
  exact (Quiet.markWritten _ _).trans (.setInstructions _)

namespace World
variable {Cache : Type} {w : World Cache} {i j : Nat}

@[simp] theorem edit_heap (change : AddressSpace → AddressSpace) : (w.edit i change).heap = w.heap :=
  rfl

@[simp] theorem edit_cache (change : AddressSpace → AddressSpace) :
    (w.edit i change).cache = w.cache := rfl

@[simp] theorem edit_held (change : AddressSpace → AddressSpace) : (w.edit i change).held = w.held :=
  rfl

@[simp] theorem edit_count (change : AddressSpace → AddressSpace) :
    (w.edit i change).count = w.count := rfl

@[simp] theorem edit_epoch (change : AddressSpace → AddressSpace) :
    (w.edit i change).sharedWriteTrackingEpoch = w.sharedWriteTrackingEpoch := rfl

theorem edit_spaces (change : AddressSpace → AddressSpace) :
    (w.edit i change).spaces j = if j = i then change (w.spaces i) else w.spaces j := by
  simp only [edit, Function.update_apply]

@[simp] theorem edit_spaces_self (change : AddressSpace → AddressSpace) :
    (w.edit i change).spaces i = change (w.spaces i) := by
  rw [edit_spaces, if_pos rfl]

theorem edit_spaces_other (change : AddressSpace → AddressSpace) (other : j ≠ i) :
    (w.edit i change).spaces j = w.spaces j := by
  rw [edit_spaces, if_neg other]

end World
end ILEmu.AddressSpace
