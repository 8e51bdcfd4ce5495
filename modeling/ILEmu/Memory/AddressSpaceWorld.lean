import ILEmu.Memory.AddressSpace
import Mathlib.Data.List.Dedup

/-! The operations of the address spaces of a machine, which share pages, a page cache and the
epoch of write tracking: faults, reads and writes, mappings and their leases, protection, write
generations, and transfers. -/
namespace ILEmu.AddressSpace
open Foundation
open Memory.FilePageCache (Byte PageBytes)

structure FilePage where
  source : FileId
  offset : Nat
  byteCount : Nat
  deriving DecidableEq

/-- The later heap has more pages, and those of the earlier one as they were. -/
structure PageHeap.Extends (before after : PageHeap) : Prop where
  next : before.next ≤ after.next
  kept : ∀ b < before.next, after.pages b = before.pages b

/-- The later heap has more pages. Those of the earlier one have kept their makers, and the bytes
of those that certain makers made. -/
structure PageHeap.Keeps (fixed : PageOrigin → Prop) (before after : PageHeap) : Prop where
  next : before.next ≤ after.next
  origin : ∀ b < before.next, (after.pages b).origin = (before.pages b).origin
  bytes : ∀ b < before.next, fixed (before.pages b).origin →
    (after.pages b).bytes = (before.pages b).bytes

/-- Made by the page cache to stay as it is. -/
def PageOrigin.Cached (origin : PageOrigin) : Prop := origin = .immutable ∨ origin = .image

/-- A page that the cache gives is there, with its bytes. -/
structure Supplied (before after : PageHeap) (b : BackingId) (bytes : PageBytes) : Prop where
  heap : before.Extends after
  known : b < after.next
  bytes : (after.pages b).bytes = bytes

/-- The page cache and the transforms of its pages, as the address spaces use them: `load_page`
with `materialize`, `FilePageTransform::apply` and `intern_immutable_page`. A load of a private
page gives the image of its file, one of a shared page the page of the vnode. -/
structure FilePager (Cache : Type) where
  load : Cache → PageHeap → FilePage → Bool → Cache × PageHeap × BackingId
  apply : TransformId → Cache → PageHeap → BackingId → Nat → Cache × PageHeap × Option BackingId
  intern : Cache → PageHeap → PageBytes → Cache × PageHeap × BackingId
  /-- The references that the cache has to a page. -/
  owners : Cache → BackingId → Nat
  content : Cache → PageHeap → FilePage → Bool → PageBytes
  transformed : TransformId → PageBytes → Nat → Option PageBytes
  Valid : Cache → PageHeap → Prop
  valid_keeps : ∀ {cache heap heap'}, Valid cache heap →
    heap.Keeps PageOrigin.Cached heap' → Valid cache heap'
  content_keeps : ∀ {cache heap heap'}, Valid cache heap →
    heap.Keeps (· ≠ .anonymous) heap' → content cache heap' = content cache heap
  load_spec : ∀ {cache heap}, Valid cache heap → ∀ page shared,
    Supplied heap (load cache heap page shared).2.1 (load cache heap page shared).2.2
      (content cache heap page shared)
  load_origin : ∀ {cache heap}, Valid cache heap → ∀ page shared,
    ((load cache heap page shared).2.1.pages (load cache heap page shared).2.2).origin =
      if shared then .vnode page.source page.offset else .image
  load_valid : ∀ {cache heap}, Valid cache heap → ∀ page shared,
    Valid (load cache heap page shared).1 (load cache heap page shared).2.1 ∧
      content (load cache heap page shared).1 (load cache heap page shared).2.1 = content cache heap
  apply_spec : ∀ {cache heap}, Valid cache heap → ∀ transform b offset, b < heap.next →
    match apply transform cache heap b offset with
    | (_, after, none) => heap.Extends after ∧ transformed transform (heap.pages b).bytes offset = none
    | (_, after, some b') =>
      ∃ bytes, transformed transform (heap.pages b).bytes offset = some bytes ∧
        Supplied heap after b' bytes ∧ (b' = b ∨ (after.pages b').origin = .immutable)
  apply_valid : ∀ {cache heap}, Valid cache heap → ∀ transform b offset, b < heap.next →
    Valid (apply transform cache heap b offset).1 (apply transform cache heap b offset).2.1 ∧
      content (apply transform cache heap b offset).1 (apply transform cache heap b offset).2.1 =
        content cache heap
  intern_spec : ∀ {cache heap}, Valid cache heap → ∀ bytes,
    Supplied heap (intern cache heap bytes).2.1 (intern cache heap bytes).2.2 bytes
  intern_origin : ∀ {cache heap}, Valid cache heap → ∀ bytes,
    ((intern cache heap bytes).2.1.pages (intern cache heap bytes).2.2).origin = .immutable
  intern_valid : ∀ {cache heap}, Valid cache heap → ∀ bytes,
    Valid (intern cache heap bytes).1 (intern cache heap bytes).2.1 ∧
      content (intern cache heap bytes).1 (intern cache heap bytes).2.1 = content cache heap

theorem PageHeap.extends_construct (heap : PageHeap) (page : GuestPageBacking) :
    heap.Extends (heap.construct page) := by
  refine ⟨Nat.le_succ _, fun b known => ?_⟩
  simp only [PageHeap.construct, Function.update_apply, if_neg known.ne]

theorem PageHeap.construct_next (heap : PageHeap) (page : GuestPageBacking) :
    (heap.construct page).pages heap.next = page :=
  Function.update_self _ _ _

theorem PageHeap.supplied (heap : PageHeap) (page : GuestPageBacking) :
    Supplied heap (heap.construct page) heap.next page.bytes :=
  ⟨heap.extends_construct page, Nat.lt_succ_self _, by rw [heap.construct_next]⟩

/-- A page cache that keeps nothing: each load makes a page. -/
def FilePager.uncached (files : FilePage → PageBytes) : FilePager Unit where
  load _ heap page shared :=
    ((), heap.construct
      { bytes := files page, origin := if shared then .vnode page.source page.offset else .image },
      heap.next)
  apply _ _ heap b _ := ((), heap, some b)
  intern _ heap bytes := ((), heap.construct { bytes, origin := .immutable }, heap.next)
  owners _ _ := 0
  content _ _ page _ := files page
  transformed _ bytes _ := some bytes
  Valid _ _ := True
  valid_keeps _ _ := trivial
  content_keeps _ _ := rfl
  load_spec _ _ _ := PageHeap.supplied _ _
  load_origin _ _ _ := congrArg GuestPageBacking.origin (PageHeap.construct_next _ _)
  load_valid _ _ _ := ⟨trivial, rfl⟩
  apply_spec _ _ _ _ known := ⟨_, rfl, ⟨⟨Nat.le_refl _, fun _ _ => rfl⟩, known, rfl⟩, .inl rfl⟩
  apply_valid _ _ _ _ _ := ⟨trivial, rfl⟩
  intern_spec _ _ := PageHeap.supplied _ _
  intern_origin _ _ := congrArg GuestPageBacking.origin (PageHeap.construct_next _ _)
  intern_valid _ _ := ⟨trivial, rfl⟩

/-- `held` are the pages that kernel objects refer to, one entry for each `shared_ptr`. The
spaces are numbered as they were made; `actor` is there while a task is charged for accesses. -/
structure World (Cache : Type) where
  cache : Cache
  heap : PageHeap := {}
  held : List BackingId := []
  count : Nat := 0
  spaces : Nat → AddressSpace := fun _ => {}
  sharedWriteTrackingEpoch : Nat := 0
  actor : Bool := false

namespace World
variable {Cache : Type} (pager : FilePager Cache)

def edit (w : World Cache) (i : Nat) (change : AddressSpace → AddressSpace) : World Cache :=
  { w with spaces := Function.update w.spaces i (change (w.spaces i)) }

def page (w : World Cache) (i k : Nat) : Page := ((w.spaces i).pages.lookup k).getD {}

def setPage (w : World Cache) (i k : Nat) (page : Page) : World Cache :=
  w.edit i fun s => { s with pages := s.pages.insert k page }

def refreshJitPage (w : World Cache) (i k : Nat) : World Cache :=
  w.edit i (AddressSpace.refreshJitPage w.heap k)

def construct (w : World Cache) (backing : GuestPageBacking) : World Cache :=
  { w with heap := w.heap.construct backing }

/-- `shared_ptr::use_count`. A map of pages that two spaces share is theirs alone before either
looks, so that each space counts. -/
def useCount (w : World Cache) (b : BackingId) : Nat :=
  ((List.range w.count).map fun i => (w.spaces i).pages.tally fun page => page.backing = some b).sum
    + w.held.count b + pager.owners w.cache b

def accountVmAccess (w : World Cache) (i : Nat) (address : BitVec 32) (size : Nat)
    (access : MemoryPermission) (execution : Bool) : World Cache :=
  w.edit i (AddressSpace.accountVmAccess w.heap (w.actor || execution) address size access)

/-- `record_resident_page_locked`. -/
def recordResidentPage (w : World Cache) (i : Nat) : World Cache :=
  w.edit i fun s =>
    let current := s.residentPages.current + 1
    { s with residentPages := { current, maximum := max s.residentPages.maximum current } }

/-! ### Tracking of shared writes -/

def enableSharedWriteTracking (w : World Cache) (b : BackingId) : World Cache × Bool :=
  if (w.heap.pages b).sharedWriteTracking then (w, false)
  else
    ({ w with
        heap := w.heap.modify b fun backing => { backing with sharedWriteTracking := true }
        sharedWriteTrackingEpoch := w.sharedWriteTrackingEpoch + 1 }, true)

/-- `finish_shared_write_tracking_locked`. -/
def finishSharedWriteTracking (w : World Cache) (i initialEpoch localTransitions : Nat)
    (mayHaveAliases : Bool) : World Cache :=
  w.edit i fun s =>
    let s :=
      if mayHaveAliases || w.sharedWriteTrackingEpoch ≠ initialEpoch + localTransitions then
        s.invalidateSharedWriteJitPages w.heap
      else s
    { s with observedSharedWriteTrackingEpoch := w.sharedWriteTrackingEpoch }

def synchronizeSharedWriteTracking (w : World Cache) (i : Nat) : World Cache :=
  if w.sharedWriteTrackingEpoch = (w.spaces i).observedSharedWriteTrackingEpoch then w
  else
    w.edit i fun s =>
      { s.invalidateSharedWriteJitPages w.heap with
        observedSharedWriteTrackingEpoch := w.sharedWriteTrackingEpoch }

/-- A page that is shared tracks its writes if the space tracks those of its address. -/
def trackSharedPage (w : World Cache) (i : Nat) (b : BackingId) : World Cache :=
  let (after, enabled) := w.enableSharedWriteTracking b
  after.finishSharedWriteTracking i w.sharedWriteTrackingEpoch (if enabled then 1 else 0) true

/-! ### Faults -/

def FilePage.ofMapping (span : Span FileMapping) (k : Nat) : FilePage :=
  let offset := span.value.fileOffset + (k * pageSize - span.start)
  { source := span.value.source, offset, byteCount := min pageSize (span.value.endOffset - offset) }

/-- The page that `load_page` and the transform of the mapping give. -/
def supply (w : World Cache) (mapping : FileMapping) (page : FilePage) :
    World Cache × Option BackingId :=
  let (cache, heap, b) := pager.load w.cache w.heap page (mapping.mode ≠ .copyOnWrite)
  match mapping.transform with
  | none => ({ w with cache, heap }, some b)
  | some transform =>
    let (cache, heap, applied) := pager.apply transform cache heap b page.offset
    ({ w with cache, heap }, applied)

/-- A page of a private interval is copied before it is written, one of a shared interval is not,
unless the interval has become private. -/
def faulted (mapping : FileMapping) (b : BackingId) (page : Page) : Page :=
  let shared := mapping.mode ≠ .copyOnWrite
  { page with
    backing := some b
    fileCached := !shared || mapping.needsCopy
    copyOnWritePossible := !shared || mapping.needsCopy
    sharedWritable := shared && !mapping.needsCopy
    fileWritebackCapable := mapping.mode = .sharedFile && !mapping.needsCopy }

/-- `fault_file_page_locked`. -/
def faultFilePage (w : World Cache) (i k : Nat) (span : Span FileMapping) : World Cache × Bool :=
  match w.supply pager span.value (FilePage.ofMapping span k) with
  | (w, none) => (w, false)
  | (w, some b) =>
    let page := w.page i k
    let w := if page.backing.isNone then w.recordResidentPage i else w
    let page := faulted span.value b page
    let w := w.setPage i k page
    (if page.sharedWritable && k ∈ (w.spaces i).writeTrackedPages then w.trackSharedPage i b else w,
      true)

/-- `pages_->try_emplace`. -/
def emplacePage (w : World Cache) (i k : Nat) : World Cache :=
  if k ∈ (w.spaces i).pages then w else w.setPage i k {}

/-- `ensure_page_locked`. Nothing is returned when the transform rejects the page. -/
def ensurePage (w : World Cache) (i k : Nat) : World Cache × Bool :=
  if (w.page i k).backing.isSome then (w, true)
  else
    let w := w.emplacePage i k
    match (w.spaces i).findFileMapping (k * pageSize) with
    | none => (w, true)
    | some span =>
      match w.faultFilePage pager i k span with
      | (w, false) => (w, false)
      | (w, true) => (w.refreshJitPage i k, true)

def needsFileFault (w : World Cache) (i k : Nat) : Bool :=
  (w.page i k).backing.isNone && ((w.spaces i).findFileMapping (k * pageSize)).isSome

def rangeNeedsFileFault (w : World Cache) (i : Nat) (address : BitVec 32) (size : Nat) : Bool :=
  size ≠ 0 && !rangeOverflows address size && (pagesOf address size).any fun k => w.needsFileFault i k

def faultEach (i : Nat) : List Nat → World Cache → World Cache × Bool
  | [], w => (w, true)
  | k :: rest, w =>
    if (w.page i k).backing.isSome then faultEach i rest w
    else
      match (w.spaces i).findFileMapping (k * pageSize) with
      | none => faultEach i rest w
      | some span =>
        match (w.emplacePage i k).faultFilePage pager i k span with
        | (w, false) => (w, false)
        | (w, true) => faultEach i rest (w.refreshJitPage i k)

def faultFilePages (w : World Cache) (i : Nat) (address : BitVec 32) (size : Nat) :
    World Cache × Bool :=
  if size = 0 || rangeOverflows address size then (w, size = 0)
  else if !(w.spaces i).rangeAccessible address size MemoryPermission.none then (w, false)
  else faultEach pager i (pagesOf address size) w

/-! ### Reads -/

/-- A byte of a page that needs no fault. -/
def byteAt (w : World Cache) (i : Nat) (access : MemoryPermission) (address : BitVec 32) : Byte :=
  let offset := Fin.ofNat pageSize address.toNat
  let page := w.page i (pageIndex address)
  match page.backing, page.instructions with
  | some b, some instructions =>
    if access = MemoryPermission.execute then instructions offset else (w.heap.pages b).bytes offset
  | some b, none => (w.heap.pages b).bytes offset
  | none, _ => 0

def bytesAt (w : World Cache) (i : Nat) (access : MemoryPermission) (address : BitVec 32)
    (size : Nat) : List Byte :=
  (List.range size).map fun n => w.byteAt i access (address + BitVec.ofNat 32 n)

/-- The loop of `read_integer`, `read_bytes` and `copy_out`, which faults pages and tries again. -/
def readLoop (i : Nat) (address : BitVec 32) (size : Nat) (access : MemoryPermission) :
    Nat → World Cache → World Cache × Option (List Byte)
  | 0, w => (w, none)
  | rounds + 1, w =>
    let w := w.accountVmAccess i address size access false
    if !(w.spaces i).rangeAccessible address size access then (w, none)
    else if !w.rangeNeedsFileFault i address size then (w, some (w.bytesAt i access address size))
    else
      match w.faultFilePages pager i address size with
      | (w, false) => (w, none)
      | (w, true) => readLoop i address size access rounds w

/-- Once its pages are faulted a range needs no more faults. -/
def read (w : World Cache) (i : Nat) (address : BitVec 32) (size : Nat) (access : MemoryPermission) :
    World Cache × Option (List Byte) :=
  readLoop pager i address size access 2 w

/-! ### Writes -/

/-- A page that is nobody else's, or shared. -/
def settled (b : BackingId) (page : Page) : Page :=
  { page with backing := some b, fileCached := false, copyOnWritePossible := false }

/-- `writable_backing_locked`: the page gets a backing that may be written, and the caller learns
whether the page has become one that translated code may write. -/
def writableBacking (w : World Cache) (i k : Nat) : World Cache × Bool :=
  let page := w.page i k
  let changed := page.backing.isNone || page.fileCached || page.copyOnWritePossible
  match page.backing with
  | none =>
    (((w.construct {}).setPage i k (settled w.heap.next page)).recordResidentPage i, changed)
  | some b =>
    if page.fileCached ||
        (page.copyOnWritePossible && !page.sharedWritable && w.useCount pager b ≠ 1) then
      ((w.construct (w.heap.pages b).copy).setPage i k (settled w.heap.next page), changed)
    else (w.setPage i k (settled b page), changed)

/-- The bytes go to the backing, which counts the write if it is tracked. -/
def writePage (w : World Cache) (i k offset : Nat) (data : List Byte) : World Cache :=
  match (w.page i k).backing with
  | some b =>
    { w with heap := w.heap.modify b fun backing => (backing.write offset data).markSharedWrite }
  | none => w

def markWritten (w : World Cache) (i : Nat) (address : BitVec 32) (size : Nat) : World Cache :=
  w.edit i (AddressSpace.markWritten w.heap address size)

/-- The part of a write within one page, with the refresh that a scalar store makes. -/
def storeWithin (w : World Cache) (i k offset : Nat) (data : List Byte) : World Cache :=
  match w.writableBacking pager i k with
  | (w, changed) => (if changed then w.refreshJitPage i k else w).writePage i k offset data

/-- A value that crosses pages is stored byte by byte. -/
def storeEach (i : Nat) : BitVec 32 → List Byte → World Cache → World Cache × Bool
  | _, [], w => (w, true)
  | address, byte :: rest, w =>
    match w.ensurePage pager i (pageIndex address) with
    | (w, false) => (w, false)
    | (w, true) =>
      storeEach i (address + 1) rest
        (w.storeWithin pager i (pageIndex address) (address.toNat % pageSize) [byte])

def releaseExclusive (w : World Cache) (i : Nat) (address : BitVec 32) (size : Nat) : World Cache :=
  w.edit i (releaseExclusiveWriteTracking w.heap address size)

end World

/-! ### File intervals -/

/-- What `unmap_file_mappings_locked` leaves of an interval. A backing cut short ends with it. -/
def FileMapping.outside (first stop : Nat) (span : Span FileMapping) : List (Span FileMapping) :=
  if span.start < stop ∧ first < span.stop then
    let left := if span.start < first then
        [{ span with
            stop := first
            value := { span.value with
              endOffset := min span.value.endOffset (span.value.fileOffset + (first - span.start)) } }]
      else []
    let right := if stop < span.stop then
        [{ span with
            start := stop
            value := { span.value with
              fileOffset := span.value.fileOffset + (stop - span.start) } }]
      else []
    left ++ right
  else [span]

/-- The `split` of `privatize_range_locked`. -/
def FileMapping.splitAt (point : Nat) (span : Span FileMapping) : List (Span FileMapping) :=
  if span.start < point ∧ point < span.stop then
    [{ span with stop := point },
      { span with
        start := point
        value := { span.value with fileOffset := span.value.fileOffset + (point - span.start) } }]
  else [span]

def unmapFileMappings (first stop : Nat) (s : AddressSpace) : AddressSpace :=
  { s with fileMappings := s.fileMappings.flatMap (FileMapping.outside first stop) }

/-! ### Ranges of pages -/

/-- `unmap_range_locked`, from one page to another. -/
def unmapRange (heap : PageHeap) (first stop : Nat) (s : AddressSpace) : AddressSpace :=
  let inside (k : Nat) : Bool := first ≤ k ∧ k < stop
  let s := unmapFileMappings (first * pageSize) (stop * pageSize)
    { s with vmMap := s.vmMap.unmap (first * pageSize) (stop * pageSize) }
  let s :=
    { s with
      pages := s.pages.filter fun k _ => !inside k
      residentPages :=
        { s.residentPages with
          current := s.residentPages.current -
            (s.pages.filter fun k _ => inside k).tally (fun page : Page => page.backing.isSome) }
      exclusiveWriteTrackedPages := s.exclusiveWriteTrackedPages.filter fun k _ => !inside k }
  (s.settleMarkers.clearPagePermissions first stop).refreshJitPageRange heap first stop

/-- `map_range_locked`. -/
def mapRange (heap : PageHeap) (first stop : Nat) (permissions : MemoryPermission)
    (attributes : VmMappingAttributes) (s : AddressSpace) : AddressSpace :=
  let s := s.invalidateMappingLeases (first * pageSize) (stop * pageSize)
  let vmMap := s.vmMap.after
    (.mapOr (first * pageSize) (stop * pageSize) permissions attributes)
  let s := addPagePermissions first stop permissions { s with vmMap }
  let s := if hasPermission permissions MemoryPermission.execute then
      s.stampInstructionPages first stop
    else s
  s.refreshJitPageRange heap first stop

def map (heap : PageHeap) (address size : BitVec 32) (permissions : MemoryPermission)
    (attributes : VmMappingAttributes) (s : AddressSpace) : AddressSpace × Bool :=
  if size = 0 || rangeOverflows address size.toNat then (s, size = 0)
  else
    (s.mapRange heap (pageIndex address) (endPage address size.toNat) permissions attributes, true)

inductive AnonymousMappingMode where
  | exclusive | replace
  deriving DecidableEq

def mapAnonymous (heap : PageHeap) (address size : BitVec 32) (permissions : MemoryPermission)
    (mode : AnonymousMappingMode) (attributes : VmMappingAttributes) (s : AddressSpace) :
    AddressSpace × Bool :=
  let first := pageIndex address
  let stop := endPage address size.toNat
  if size = 0 || rangeOverflows address size.toNat then (s, false)
  else
    match mode with
    | .exclusive =>
      if s.vmMap.overlaps (first * pageSize) (stop * pageSize) then (s, false)
      else (s.mapRange heap first stop permissions attributes, true)
    | .replace =>
      let s := s.invalidateMappingLeases (first * pageSize) (stop * pageSize)
      ((s.unmapRange heap first stop).mapRange heap first stop permissions attributes, true)

def unmap (heap : PageHeap) (address size : BitVec 32) (s : AddressSpace) : AddressSpace × Bool :=
  let first := pageIndex address
  let stop := endPage address size.toNat
  if size = 0 || rangeOverflows address size.toNat then (s, size = 0)
  else
    let s := s.invalidateMappingLeases (first * pageSize) (stop * pageSize)
    (s.unmapRange heap first stop, true)

/-- `retire_mappings`: everything is detached at once, and the tables are emptied. -/
def retireMappings (s : AddressSpace) : AddressSpace :=
  let s := clearJitPageTable
    { s with
      vmMap := {}
      pages := ∅
      fileMappings := []
      pagePermissions := fun _ => 0
      vmTranslations := fun _ => 0
      residentPages := {}
      exclusiveWriteTrackedPages := ∅
      exclusiveWriteBackings := ∅
      writeTrackedPages := ∅ }
  s.invalidateMappingLeases 0 addressSpaceEnd

def inherit (address size : BitVec 32) (inheritance : VmInheritance) (s : AddressSpace) :
    AddressSpace × Bool :=
  if size = 0 || rangeOverflows address size.toNat then (s, size = 0)
  else
    let (vmMap, done) := s.vmMap.inherit (pageIndex address * pageSize)
      (endPage address size.toNat * pageSize) inheritance
    ({ s with vmMap }, done)

/-- `map_file_backing`, of the file `source` from `fileOffset` to `endOffset`. -/
def mapFileBacking (address size : BitVec 32) (permissions : MemoryPermission) (source : FileId)
    (fileOffset endOffset : Nat) (immutable : Bool) (mode : PageMappingMode)
    (attributes : VmMappingAttributes) (s : AddressSpace) : AddressSpace × Bool :=
  let first := pageIndex address
  let stop := endPage address size.toNat
  if size = 0 || rangeOverflows address size.toNat || address.toNat % pageSize ≠ 0 ||
      fileOffset % pageSize ≠ 0 || endOffset ≤ fileOffset ||
      (endOffset - fileOffset - 1) / pageSize < (size.toNat - 1) / pageSize ||
      (mode ≠ .copyOnWrite && immutable) then (s, false)
  else if s.vmMap.overlaps address.toNat (stop * pageSize) then (s, false)
  else
    let s := s.invalidateMappingLeases address.toNat (stop * pageSize)
    if s.fileMappings.any fun span => span.start = address.toNat then (s, false)
    else
      let span : Span FileMapping :=
        { start := address.toNat, stop := stop * pageSize
          value := { source, fileOffset, endOffset, mode } }
      (setPagePermissions first stop permissions
        { s with
          fileMappings := emplace span s.fileMappings
          vmMap := s.vmMap.after
            (.mapOr address.toNat (stop * pageSize) permissions attributes) }, true)

def transformFileMapping (address : BitVec 32) (transform : TransformId) (s : AddressSpace) :
    AddressSpace × Bool :=
  match s.fileMappings.find? fun span => span.start = address.toNat with
  | none => (s, false)
  | some span =>
    if span.value.mode ≠ .copyOnWrite || s.pages.keys.any fun k =>
        address.toNat ≤ k * pageSize ∧ k * pageSize < span.stop then (s, false)
    else
      ({ s with
          fileMappings := s.fileMappings.map fun other =>
            if other.start = address.toNat then
              { other with value := { other.value with transform := some transform } }
            else other }, true)

def unmapMappingLease (heap : PageHeap) (token : BitVec 64) (s : AddressSpace) :
    AddressSpace × Bool :=
  if token = 0 then (s, false)
  else
    match s.mappingLeases.lookup token with
    | none => (s, false)
    | some lease =>
      if lease.observation.isSome then (s, false)
      else
        let s := invalidateMappingLeases lease.start lease.stop
          { s with mappingLeases := s.mappingLeases.erase token }
        (s.unmapRange heap (lease.start / pageSize) (lease.stop / pageSize), true)

/-- Observations that nobody holds any more are forgotten first. -/
def observeMapping (address : BitVec 32) (size : Nat) (s : AddressSpace) :
    AddressSpace × Option Nat :=
  if size = 0 || rangeOverflows address size ||
      !s.rangeAccessible address size MemoryPermission.none then (s, none)
  else
    let expired (lease : MappingLease) : Bool :=
      lease.observation.any fun o => (s.observations[o]?).any MappingObservation.expired
    let o := s.observations.length
    let s :=
      { s with
        mappingLeases := s.mappingLeases.filter fun _ lease => !expired lease
        observations := s.observations ++ [({} : MappingObservation)] }
    ((s.issueLease
      { start := pageIndex address * pageSize, stop := endPage address size * pageSize
        observation := some o }).1, some o)

def dropObservation (o : Nat) (s : AddressSpace) : AddressSpace :=
  { s with
    observations := s.observations.modify o fun observation => { observation with expired := true } }

/-! ### Protection -/

/-- `privatize_range_locked`. -/
def privatizeRange (heap : PageHeap) (first stop : Nat) (s : AddressSpace) : AddressSpace :=
  let cut := (s.fileMappings.flatMap (FileMapping.splitAt (first * pageSize))).flatMap
    (FileMapping.splitAt (stop * pageSize))
  { s with
    fileMappings := cut.map fun span =>
      if first * pageSize ≤ span.start ∧ span.start < stop * pageSize then
        { span with value := { span.value with needsCopy := true } }
      else span
    pages := s.pages.mapValues fun k page =>
      if first ≤ k ∧ k < stop then
        { page with
          sharedWritable := false
          copyOnWritePossible := true
          fileCached := page.fileCached || page.backing.any fun b => (heap.pages b).fileBacked
          fileWritebackCapable := false }
      else page }

/-- The pages get the permissions of their regions; each turn of the loop does one region. -/
def applyProtections (stop : Nat) : Nat → Nat → AddressSpace → AddressSpace
  | 0, _, s => s
  | rounds + 1, cursor, s =>
    if cursor < stop then
      match s.vmMap.regionAtOrAfter cursor with
      | none => s
      | some region =>
        let next := min region.stop stop
        applyProtections stop rounds next
          (s.setPagePermissions (cursor / pageSize) (next / pageSize) region.value.permissions)
    else s

structure ProtectResult where
  succeeded : Bool := false
  protectionFailure : Bool := false
  executablePermissionsChanged : Bool := false
  deriving DecidableEq

def protectWithResult (heap : PageHeap) (address size : BitVec 32) (permissions : MemoryPermission)
    (setMaximum copy : Bool) (s : AddressSpace) : AddressSpace × ProtectResult :=
  if size = 0 || rangeOverflows address size.toNat then (s, { succeeded := size = 0 })
  else
    let first := pageIndex address
    let stop := endPage address size.toNat
    let (vmMap, result) :=
      s.vmMap.protect (first * pageSize) (stop * pageSize) permissions setMaximum copy
    match result.error with
    | some error => (s, { protectionFailure := error = .protectionFailure })
    | none =>
      let s := { s with vmMap }
      let s := if copy then s.privatizeRange heap first stop else s
      let s := s.applyProtections (stop * pageSize) (stop - first) (first * pageSize)
      let s := s.refreshJitPageRange heap first stop
      (if result.executablePermissionsChanged then s.stampInstructionPages first stop else s,
        { succeeded := true, executablePermissionsChanged := result.executablePermissionsChanged })

/-! ### Write generations -/

def rangeWriteGeneration (s : AddressSpace) (address : BitVec 32) (size : Nat) : Option Nat :=
  if size = 0 || rangeOverflows address size ||
      !s.rangeAccessible address size MemoryPermission.none then none
  else
    some ((pagesOf address size).foldl
      (fun generation k => max generation (((s.pages.lookup k).map Page.writeGeneration).getD 0)) 0)

/-- A range that starts where the last one ends extends it. -/
def appendRange (ranges : List (Nat × Nat)) (start stop : Nat) : List (Nat × Nat) :=
  match ranges.getLast? with
  | some last =>
    if last.1 + last.2 = start then ranges.dropLast ++ [(last.1, last.2 + (stop - start))]
    else ranges ++ [(start, stop - start)]
  | none => [(start, stop - start)]

/-- `write_generation_changes`: the newest generation, and the ranges written since one. -/
def writeGenerationChanges (s : AddressSpace) (address : BitVec 32) (size afterGeneration : Nat) :
    Option (Nat × List (Nat × Nat)) :=
  if size = 0 || rangeOverflows address size ||
      !s.rangeAccessible address size MemoryPermission.none then none
  else
    some ((pagesOf address size).foldl (fun (generation, ranges) k =>
      let written := ((s.pages.lookup k).map Page.writeGeneration).getD 0
      let start := max (k * pageSize) address.toNat
      let stop := min (k * pageSize + pageSize) (address.toNat + size)
      (max generation written,
        if written ≤ afterGeneration ∨ stop ≤ start then ranges else appendRange ranges start stop))
      (0, []))

namespace World
variable {Cache : Type} (pager : FilePager Cache)

/-! ### Scalar accesses -/

/-- `write_integer`, of the bytes of the value. -/
def writeInteger (w : World Cache) (i : Nat) (address : BitVec 32) (data : List Byte) :
    World Cache × Bool :=
  let w := w.accountVmAccess i address data.length MemoryPermission.write false
  let k := pageIndex address
  let offset := address.toNat % pageSize
  if !(w.spaces i).rangeAccessible address data.length MemoryPermission.write then (w, false)
  else if offset + data.length ≤ pageSize then
    match w.ensurePage pager i k with
    | (w, false) => (w, false)
    | (w, true) =>
      let w := w.storeWithin pager i k offset data
      let w := w.edit i (markScalarWritten w.heap address data.length)
      (w.releaseExclusive i address data.length, true)
  else
    match storeEach pager i address data w with
    | (w, false) => (w, false)
    | (w, true) =>
      ((w.markWritten i address data.length).releaseExclusive i address data.length, true)

def ensureEach (i : Nat) : List Nat → World Cache → World Cache × Bool
  | [], w => (w, true)
  | k :: rest, w =>
    match w.ensurePage pager i k with
    | (w, false) => (w, false)
    | (w, true) => ensureEach i rest w

/-- What the pages hold, without an overlay of instructions. -/
def currentBytes (w : World Cache) (i : Nat) (address : BitVec 32) (size : Nat) : List Byte :=
  w.bytesAt i MemoryPermission.none address size

/-- The new value of `compare_exchange_integer` and `exchange_integer`, once its pages are there. -/
def replaceInteger (w : World Cache) (i : Nat) (address : BitVec 32) (data : List Byte) :
    World Cache × Bool :=
  if address.toNat % pageSize + data.length ≤ pageSize then
    let w := w.storeWithin pager i (pageIndex address) (address.toNat % pageSize) data
    let w := w.edit i (markScalarWritten w.heap address data.length)
    (w.releaseExclusive i address data.length, true)
  else
    match storeEach pager i address data w with
    | (w, false) => (w, false)
    | (w, true) =>
      ((w.markWritten i address data.length).releaseExclusive i address data.length, true)

/-- `compare_exchange_integer`, of an access that is not exclusive. -/
def compareExchange (w : World Cache) (i : Nat) (address : BitVec 32) (expected data : List Byte) :
    World Cache × Bool :=
  let w := w.accountVmAccess i address data.length MemoryPermission.read false
  if !(w.spaces i).rangeAccessible address data.length
      (MemoryPermission.read ||| MemoryPermission.write) then
    (w.releaseExclusive i address data.length, false)
  else
    match ensureEach pager i (pagesOf address data.length) w with
    | (w, false) => (w, false)
    | (w, true) =>
      if w.currentBytes i address data.length ≠ expected then
        (w.releaseExclusive i address data.length, false)
      else
        (w.accountVmAccess i address data.length MemoryPermission.write false).replaceInteger
          pager i address data

/-- `exchange_integer`. -/
def exchange (w : World Cache) (i : Nat) (address : BitVec 32) (data : List Byte) :
    World Cache × Option (List Byte) :=
  let both := MemoryPermission.read ||| MemoryPermission.write
  let w := w.accountVmAccess i address data.length both false
  if !(w.spaces i).rangeAccessible address data.length both then (w, none)
  else
    match ensureEach pager i (pagesOf address data.length) w with
    | (w, false) => (w, none)
    | (w, true) =>
      let previous := w.currentBytes i address data.length
      match w.replaceInteger pager i address data with
      | (w, false) => (w, none)
      | (w, true) => (w, some previous)

/-! ### Transfers -/

/-- The parts of a transfer that lie within one page each. -/
def pageChunks : Nat → BitVec 32 → List Byte → List (BitVec 32 × List Byte)
  | 0, _, _ => []
  | rounds + 1, address, data =>
    if data = [] then []
    else
      let count := pageSize - address.toNat % pageSize
      (address, data.take count) ::
        pageChunks rounds (address + BitVec.ofNat 32 count) (data.drop count)

def chunks (address : BitVec 32) (data : List Byte) : List (BitVec 32 × List Byte) :=
  pageChunks data.length address data

/-- The page of a chunk gets its own backing and the bytes; its tables are refreshed later. -/
def copyWithin (w : World Cache) (i : Nat) (address : BitVec 32) (data : List Byte) : World Cache :=
  (w.writableBacking pager i (pageIndex address)).1.writePage i (pageIndex address)
    (address.toNat % pageSize) data

def copyEach (i : Nat) : List (BitVec 32 × List Byte) → World Cache → World Cache × Bool
  | [], w => (w, true)
  | (address, data) :: rest, w =>
    match w.ensurePage pager i (pageIndex address) with
    | (w, false) => (w, false)
    | (w, true) => copyEach i rest (w.copyWithin pager i address data)

/-- A kernel only writes where something is mapped, a guest needs the right to. -/
def transferAccess (guestWrite : Bool) : MemoryPermission :=
  if guestWrite then MemoryPermission.write else MemoryPermission.none

/-- The checks before anything is written. -/
def admitEach (i : Nat) (guestWrite : Bool) :
    List (BitVec 32 × List Byte) → World Cache → World Cache × Bool
  | [], w => (w, true)
  | (address, data) :: rest, w =>
    let w := if guestWrite then
        w.accountVmAccess i address data.length MemoryPermission.write false
      else w
    if 2 ^ 32 - 1 < data.length || rangeOverflows address data.length ||
        !(w.spaces i).rangeAccessible address data.length (transferAccess guestWrite) then (w, false)
    else admitEach i guestWrite rest w

/-- The transfers that leave a page; the tables and generations follow when all are done. -/
def copyBatch (w : World Cache) (i : Nat) (operations : List (BitVec 32 × List Byte)) :
    World Cache × Bool :=
  let pieces := operations.flatMap fun operation => chunks operation.1 operation.2
  match copyEach pager i pieces w with
  | (w, false) => (w, false)
  | (w, true) =>
    let touched := ((pieces.map fun piece => pageIndex piece.1).mergeSort (· ≤ ·)).dedup
    let w := w.edit i (refreshJitPages w.heap touched)
    (w.edit i (markWrittenBatch w.heap (operations.map fun operation =>
      (operation.1, operation.2.length))), true)

/-- `copy_in_batch_locked`. Data within one page takes a path of its own. -/
def copyInBatchLocked (w : World Cache) (i : Nat) (operations : List (BitVec 32 × List Byte))
    (guestWrite : Bool) : World Cache × Bool :=
  match admitEach i guestWrite operations w with
  | (w, false) => (w, false)
  | (w, true) =>
    match operations with
    | [(address, data)] =>
      if data ≠ [] ∧ data.length ≤ pageSize - address.toNat % pageSize then
        match w.ensurePage pager i (pageIndex address) with
        | (w, false) => (w, false)
        | (w, true) =>
          (((w.copyWithin pager i address data).refreshJitPage i (pageIndex address)).markWritten
            i address data.length, true)
      else w.copyBatch pager i operations
    | _ => w.copyBatch pager i operations

end World
end ILEmu.AddressSpace
