import ILEmu.Foundation.Spans
import ILEmu.Foundation.Tables
import ILEmu.Memory.FilePageCache
import ILEmu.Memory.VmMap

/-! An address space: the map of its memory with an index of the permissions by page, its pages
and lazy file mappings, the leases on them, and the tables through which translated code
reaches pages directly. -/
namespace ILEmu
open Foundation
open Memory.FilePageCache (Byte PageBytes guestMemoryPageSize)

namespace AddressSpace

abbrev BackingId := Nat
abbrev FileId := Nat
abbrev TransformId := Nat

abbrev pageSize : Nat := guestMemoryPageSize

instance : NeZero pageSize := ⟨by decide⟩

/-- Who made a page: an address space or a kernel object, or the page cache, for immutable bytes,
for the image of a file, or for a page of a vnode. -/
inductive PageOrigin where
  | anonymous
  | immutable
  | image
  | vnode (source : FileId) (fileOffset : Nat)
  deriving DecidableEq

structure GuestPageBacking where
  bytes : PageBytes := fun _ => 0
  origin : PageOrigin := .anonymous
  sharedWriteTracking : Bool := false
  sharedWriteGeneration : Nat := 0

namespace GuestPageBacking

def fileBacked (backing : GuestPageBacking) : Bool :=
  match backing.origin with
  | .anonymous | .immutable => false
  | .image | .vnode _ _ => true

/-- A copy has no file, and nothing tracks it. -/
def copy (backing : GuestPageBacking) : GuestPageBacking := { bytes := backing.bytes }

/-- `mark_shared_write`. -/
def markSharedWrite (backing : GuestPageBacking) : GuestPageBacking :=
  if backing.sharedWriteTracking then
    { backing with sharedWriteGeneration := backing.sharedWriteGeneration + 1 }
  else backing

def publishSharedWrite (backing : GuestPageBacking) : GuestPageBacking :=
  { backing with sharedWriteGeneration := backing.sharedWriteGeneration + 1 }

def write (backing : GuestPageBacking) (offset : Nat) (data : List Byte) : GuestPageBacking :=
  { backing with
    bytes := fun i =>
      if offset ≤ i.val then data.getD (i.val - offset) (backing.bytes i) else backing.bytes i }

end GuestPageBacking

/-- The backings by the order in which they were made. -/
structure PageHeap where
  pages : BackingId → GuestPageBacking := fun _ => {}
  next : BackingId := 0

namespace PageHeap

def construct (heap : PageHeap) (page : GuestPageBacking) : PageHeap where
  pages := Function.update heap.pages heap.next page
  next := heap.next + 1

def modify (heap : PageHeap) (b : BackingId) (change : GuestPageBacking → GuestPageBacking) :
    PageHeap :=
  { heap with pages := Function.update heap.pages b (change (heap.pages b)) }

end PageHeap

inductive PageMappingMode where
  | copyOnWrite
  | shared
  | sharedFile
  deriving DecidableEq

structure Page where
  backing : Option BackingId := none
  writeGeneration : Nat := 0
  fileCached : Bool := false
  sharedWritable : Bool := false
  fileWritebackCapable : Bool := false
  copyOnWritePossible : Bool := false
  instructions : Option PageBytes := none

/-- `fileOffset` is where the interval starts in the file, `endOffset` where its backing ends. -/
structure FileMapping where
  source : FileId
  fileOffset : Nat
  endOffset : Nat
  mode : PageMappingMode
  needsCopy : Bool := false
  transform : Option TransformId := none
  deriving DecidableEq

/-- A lease with an observation is one that only observes. -/
structure MappingLease where
  start : Nat
  stop : Nat
  observation : Option Nat := none
  deriving DecidableEq

structure ResidentPageStatistics where
  current : Nat := 0
  maximum : Nat := 0
  deriving DecidableEq

/-- `true` while the range is as it was observed; a handle may have been dropped. -/
structure MappingObservation where
  live : Bool := true
  expired : Bool := false
  deriving DecidableEq

end AddressSpace

open AddressSpace in
/-- Pages and permissions are by page index. A table entry names the backing it points to. -/
structure AddressSpace where
  vmMap : VmMap := {}
  pages : Table Nat Page := ∅
  fileMappings : List (Span FileMapping) := []
  pagePermissions : Nat → BitVec 8 := fun _ => 0
  residentPages : ResidentPageStatistics := {}
  mappingLeases : Table (BitVec 64) MappingLease := ∅
  nextMappingLeaseToken : BitVec 64 := 1
  observations : List MappingObservation := []
  taskVmEvents : Bool := false
  vmTranslations : Nat → BitVec 8 := fun _ => 0
  parallelAccess : Bool := true
  jitPageTableEnabled : Bool := false
  jitWritePageTableEnabled : Bool := true
  jitInstructionPageTable : Option (Nat → Bool) := none
  jitReadPageTable : Option (Nat → Option BackingId) := none
  jitWritePageTable : Option (Nat → Option BackingId) := none
  directJitWritePages : Finset Nat := ∅
  directSharedJitWritePages : Finset Nat := ∅
  exclusiveWriteTrackedPages : Table Nat (BitVec 64) := ∅
  exclusiveWriteBackings : Finset BackingId := ∅
  observedSharedWriteTrackingEpoch : Nat := 0
  writeTrackedPages : Finset Nat := ∅
  writeGeneration : Nat := 0

namespace AddressSpace

def mappedPageFlag : BitVec 8 := 0x80

/-! ### Ranges of bytes and of pages -/

def rangeOverflows (address : BitVec 32) (size : Nat) : Bool :=
  size ≠ 0 ∧ 2 ^ 32 - 1 - address.toNat < size - 1

def pageIndex (address : BitVec 32) : Nat := address.toNat / pageSize

def pageAddress (k : Nat) : BitVec 32 := BitVec.ofNat 32 (k * pageSize)

/-- The page after the last one of a range. -/
def endPage (address : BitVec 32) (size : Nat) : Nat :=
  pageIndex (address + BitVec.ofNat 32 (size - 1)) + 1

def pagesBetween (first stop : Nat) : List Nat := List.range' first (stop - first)

def pagesOf (address : BitVec 32) (size : Nat) : List Nat :=
  pagesBetween (pageIndex address) (endPage address size)

/-- The interval of a file that an address lies in. -/
def findFileMapping (s : AddressSpace) (a : Nat) : Option (Span FileMapping) :=
  s.fileMappings.find? fun span => decide (span.Contains a)

/-- The pages that have a backing. -/
def residentBacking (s : AddressSpace) (k : Nat) : Option BackingId :=
  (s.pages.lookup k).bind Page.backing

def grants (flags required : BitVec 8) : Bool :=
  flags &&& mappedPageFlag ≠ 0 ∧ flags &&& required = required

/-- `range_accessible_locked`. The index answers for one page, the map of regions for more. -/
def rangeAccessible (s : AddressSpace) (address : BitVec 32) (size : Nat)
    (access : MemoryPermission) : Bool :=
  if rangeOverflows address size then false
  else if size = 0 then true
  else if pageIndex address + 1 < endPage address size then
    s.vmMap.accessible (pageIndex address * pageSize) (endPage address size * pageSize) access
  else (pagesOf address size).all fun k => grants (s.pagePermissions k) access

/-! ### The tables of translated code -/

/-- Nothing is installed for a page unless a fault installed it. -/
def translation (s : AddressSpace) (k : Nat) : BitVec 8 :=
  if s.taskVmEvents then s.vmTranslations k else 7

/-- What the read table may hold for a page. -/
def directRead (heap : PageHeap) (s : AddressSpace) (k : Nat) : Option BackingId := do
  let page ← s.pages.lookup k
  let b ← page.backing
  if (!s.parallelAccess || (!page.sharedWritable && !(heap.pages b).sharedWriteTracking)) &&
      hasPermission (s.translation k) MemoryPermission.read &&
      grants (s.pagePermissions k) MemoryPermission.read then some b
  else none

def writable (s : AddressSpace) (k : Nat) : Bool :=
  hasPermission (s.translation k) MemoryPermission.write &&
    grants (s.pagePermissions k) (MemoryPermission.read ||| MemoryPermission.write) &&
    s.pagePermissions k &&& MemoryPermission.execute = 0

/-- A store to the page needs no callback. -/
def Page.direct (page : Page) : Bool :=
  !page.fileCached && page.instructions.isNone &&
    (!page.copyOnWritePossible || page.sharedWritable)

/-- What the write table may hold for a page. -/
def directWrite (heap : PageHeap) (s : AddressSpace) (k : Nat) : Option BackingId := do
  let page ← s.pages.lookup k
  let b ← page.backing
  if s.jitWritePageTableEnabled && s.writable k && (!s.parallelAccess || !page.sharedWritable) &&
      page.direct && k ∉ s.writeTrackedPages && !(heap.pages b).sharedWriteTracking &&
      k ∉ s.exclusiveWriteTrackedPages then some b
  else none

/-- `track_exclusive_backing_locked`, of the backing of a page. -/
def trackExclusiveBacking (k : Nat) (s : AddressSpace) : AddressSpace :=
  match s.residentBacking k with
  | some b => { s with exclusiveWriteBackings := insert b s.exclusiveWriteBackings }
  | none => s

/-- A new backing of a guarded page is guarded with it. -/
def trackGuardedBacking (s : AddressSpace) (k : Nat) : AddressSpace :=
  if k ∈ s.exclusiveWriteTrackedPages then s.trackExclusiveBacking k else s

/-- The entry of a page in the write table, with the sets that list the entries. -/
def setDirectWrite (s : AddressSpace) (k : Nat) (table : Nat → Option BackingId)
    (entry : Option BackingId) : AddressSpace :=
  let shared := ((s.pages.lookup k).map Page.sharedWritable).getD false
  let direct := if (table k).isSome then s.directJitWritePages.erase k else s.directJitWritePages
  let directShared :=
    if (table k).isSome then s.directSharedJitWritePages.erase k else s.directSharedJitWritePages
  { s with
    jitWritePageTable := some (Function.update table k entry)
    directJitWritePages := if entry.isSome then insert k direct else direct
    directSharedJitWritePages :=
      if entry.isSome && shared then insert k directShared else directShared }

/-- `refresh_jit_page_locked`. -/
def refreshJitPage (heap : PageHeap) (k : Nat) (s : AddressSpace) : AddressSpace :=
  let s := s.trackGuardedBacking k
  let s :=
    { s with
      jitInstructionPageTable := s.jitInstructionPageTable.map fun table =>
        Function.update table k
          (s.pagePermissions k &&& s.vmTranslations k &&& MemoryPermission.execute ≠ 0) }
  let s :=
    { s with
      jitReadPageTable := s.jitReadPageTable.map fun table =>
        Function.update table k (if s.jitPageTableEnabled then s.directRead heap k else none) }
  match s.jitWritePageTable with
  | none => s
  | some table =>
    s.setDirectWrite k table (if s.jitPageTableEnabled then s.directWrite heap k else none)

def refreshJitPages (heap : PageHeap) (pages : List Nat) (s : AddressSpace) : AddressSpace :=
  pages.foldl (fun s k => s.refreshJitPage heap k) s

/-- `refresh_jit_page_range_locked`. -/
def refreshJitPageRange (heap : PageHeap) (first stop : Nat) (s : AddressSpace) : AddressSpace :=
  if s.jitReadPageTable.isNone && s.jitWritePageTable.isNone && s.jitInstructionPageTable.isNone then
    s
  else s.refreshJitPages heap (pagesBetween first stop)

/-- `ensure_jit_page_tables_locked`, of the tables that `jit_read_page_table` and
`jit_write_page_table` ask for. -/
def ensureJitPageTables (heap : PageHeap) (s : AddressSpace) : AddressSpace :=
  if s.jitReadPageTable.isSome && s.jitWritePageTable.isSome then s
  else
    refreshJitPages heap s.pages.keys
      { s with
        jitReadPageTable := some (s.jitReadPageTable.getD fun _ => none)
        jitWritePageTable := some (s.jitWritePageTable.getD fun _ => none)
        directJitWritePages := ∅
        directSharedJitWritePages := ∅ }

def jitInstructionTable (heap : PageHeap) (s : AddressSpace) : AddressSpace :=
  if s.jitInstructionPageTable.isSome then s
  else refreshJitPages heap s.pages.keys { s with jitInstructionPageTable := some fun _ => false }

/-- `clear_jit_page_table_locked`. -/
def clearJitPageTable (s : AddressSpace) : AddressSpace :=
  { s with
    jitInstructionPageTable := s.jitInstructionPageTable.map fun _ _ => false
    jitReadPageTable := s.jitReadPageTable.map fun _ _ => none
    jitWritePageTable := s.jitWritePageTable.map fun _ _ => none
    directJitWritePages := ∅
    directSharedJitWritePages := ∅ }

def setTaskVmEvents (heap : PageHeap) (events : Bool) (s : AddressSpace) : AddressSpace :=
  refreshJitPages heap s.pages.keys (clearJitPageTable { s with taskVmEvents := events })

def setParallelAccess (heap : PageHeap) (enabled : Bool) (s : AddressSpace) : AddressSpace :=
  let s := { s with parallelAccess := enabled, jitPageTableEnabled := true }
  if s.jitReadPageTable.isNone && s.jitWritePageTable.isNone then s
  else s.refreshJitPages heap s.pages.keys

def disableJitPageTable (s : AddressSpace) : AddressSpace :=
  clearJitPageTable { s with jitPageTableEnabled := false, jitWritePageTableEnabled := false }

def disableJitWritePageTable (s : AddressSpace) : AddressSpace :=
  { s with
    jitWritePageTableEnabled := false
    jitWritePageTable := s.jitWritePageTable.map fun _ _ => none
    directJitWritePages := ∅
    directSharedJitWritePages := ∅
    exclusiveWriteTrackedPages := ∅
    exclusiveWriteBackings := ∅ }

/-- `invalidate_shared_write_jit_pages_locked`: the direct entries of tracked backings go. -/
def invalidateSharedWriteJitPages (heap : PageHeap) (s : AddressSpace) : AddressSpace :=
  match s.jitWritePageTable with
  | none => s
  | some table =>
    let stale (k : Nat) : Bool :=
      decide (k ∈ s.directJitWritePages) &&
        (s.residentBacking k).any fun b => (heap.pages b).sharedWriteTracking
    { s with
      jitWritePageTable := some fun k => if stale k then none else table k
      directJitWritePages := s.directJitWritePages.filter fun k => !stale k
      directSharedJitWritePages := s.directSharedJitWritePages.filter fun k => !stale k }

/-! ### Permissions -/

def keepTranslations (first stop : Nat) (permissions : BitVec 8) (s : AddressSpace) :
    AddressSpace :=
  { s with
    vmTranslations := fun k =>
      if first ≤ k ∧ k < stop then s.vmTranslations k &&& permissions else s.vmTranslations k }

/-- `add_page_permissions_locked`. -/
def addPagePermissions (first stop : Nat) (permissions : MemoryPermission) (s : AddressSpace) :
    AddressSpace :=
  { s with
    pagePermissions := fun k =>
      if first ≤ k ∧ k < stop then s.pagePermissions k ||| (mappedPageFlag ||| permissions)
      else s.pagePermissions k }

/-- `set_page_permissions_locked`, which trims what is installed. -/
def setPagePermissions (first stop : Nat) (permissions : MemoryPermission) (s : AddressSpace) :
    AddressSpace :=
  let s := s.keepTranslations first stop permissions
  { s with
    pagePermissions := fun k =>
      if first ≤ k ∧ k < stop then mappedPageFlag ||| permissions else s.pagePermissions k }

/-- `clear_page_permissions_locked`. -/
def clearPagePermissions (first stop : Nat) (s : AddressSpace) : AddressSpace :=
  let s := s.keepTranslations first stop 0
  { s with
    pagePermissions := fun k => if first ≤ k ∧ k < stop then 0 else s.pagePermissions k }

/-- What a fault for `required` installs for a page: not more than the page allows, and no right
to write a page that is still to be copied. -/
def installed (s : AddressSpace) (required : BitVec 8) (k : Nat) : BitVec 8 :=
  let copyProtected : Bool :=
    match s.pages.lookup k with
    | some page =>
      (!page.sharedWritable && (page.fileCached || page.copyOnWritePossible)) ||
        (page.backing.isNone && (s.findFileMapping (k * pageSize)).any fun span =>
          span.value.mode = .copyOnWrite || span.value.needsCopy)
    | none =>
      (s.findFileMapping (k * pageSize)).any fun span =>
        span.value.mode = .copyOnWrite || span.value.needsCopy
  let rights := s.pagePermissions k &&& 7
  if required &&& MemoryPermission.write = 0 ∧ copyProtected then
    rights &&& ~~~MemoryPermission.write
  else rights

/-- The pages of `account_vm_access_locked` up to the first that denies the access. -/
def accountPages (heap : PageHeap) (required : BitVec 8) : List Nat → AddressSpace → AddressSpace
  | [], s => s
  | k :: rest, s =>
    if !grants (s.pagePermissions k) required then s
    else if s.vmTranslations k &&& required = required then accountPages heap required rest s
    else
      accountPages heap required rest
        (refreshJitPage heap k
          { s with vmTranslations := Function.update s.vmTranslations k (s.installed required k) })

/-- `account_vm_access_locked`, on behalf of an actor or of execution. -/
def accountVmAccess (heap : PageHeap) (charged : Bool) (address : BitVec 32) (size : Nat)
    (access : MemoryPermission) (s : AddressSpace) : AddressSpace :=
  if !charged || size = 0 || access = MemoryPermission.none || rangeOverflows address size then s
  else s.accountPages heap access (pagesOf address size)

/-! ### Leases -/

/-- `invalidate_mapping_leases_locked`. The leases on the range go, and their observations end. -/
def invalidateMappingLeases (start stop : Nat) (s : AddressSpace) : AddressSpace :=
  let overlaps (lease : MappingLease) : Bool := lease.start < stop ∧ start < lease.stop
  let ended (o : Nat) : Bool := s.mappingLeases.entries.any fun entry =>
    overlaps entry.2 && entry.2.observation = some o
  let expired (lease : MappingLease) : Bool :=
    lease.observation.any fun o => (s.observations[o]?).any MappingObservation.expired
  { s with
    mappingLeases := s.mappingLeases.filter fun _ lease => !(overlaps lease || expired lease)
    observations := s.observations.mapIdx fun o observation =>
      if ended o then { observation with live := false } else observation }

/-- The tokens are tried in turn; `tries` allows for one more than there are leases, and for zero. -/
def freeToken (leases : Table (BitVec 64) MappingLease) : Nat → BitVec 64 → BitVec 64
  | 0, token => token
  | tries + 1, token =>
    if token = 0 ∨ token ∈ leases then freeToken leases tries (token + 1) else token

def issueLease (lease : MappingLease) (s : AddressSpace) : AddressSpace × BitVec 64 :=
  let token := freeToken s.mappingLeases (s.mappingLeases.keys.length + 2) s.nextMappingLeaseToken
  ({ s with
      mappingLeases := s.mappingLeases.insert token lease
      nextMappingLeaseToken := token + 1 }, token)

/-! ### Generations of writes -/

def tracksWrite (s : AddressSpace) (address : BitVec 32) (size : Nat) : Bool :=
  size ≠ 0 && (pagesBetween (pageIndex address)
    ((address.toNat + size + pageSize - 1) / pageSize)).any fun k => k ∈ s.writeTrackedPages

def setWriteGeneration (k : Nat) (s : AddressSpace) : AddressSpace :=
  match s.pages.lookup k with
  | some page =>
    { s with pages := s.pages.insert k { page with writeGeneration := s.writeGeneration } }
  | none => s

/-- A written page loses its overlay. -/
def dropInstructions (heap : PageHeap) (k : Nat) (s : AddressSpace) : AddressSpace :=
  match s.pages.lookup k with
  | some page =>
    if page.instructions.isSome then
      refreshJitPage heap k { s with pages := s.pages.insert k { page with instructions := none } }
    else s
  | none => s

/-- One range of `mark_written_batch_locked`. -/
def markWritten (heap : PageHeap) (address : BitVec 32) (size : Nat) (s : AddressSpace) :
    AddressSpace :=
  if size = 0 then s
  else
    let pages := pagesBetween (pageIndex address)
      ((address.toNat + size + pageSize - 1) / pageSize)
    let executable := pages.any fun k => s.pagePermissions k &&& MemoryPermission.execute ≠ 0
    let s := pages.foldl (fun s k => s.dropInstructions heap k) s
    if !executable && !s.tracksWrite address size then s
    else
      (pagesOf address size).foldl (fun s k => s.setWriteGeneration k)
        { s with writeGeneration := s.writeGeneration + 1 }

def markWrittenBatch (heap : PageHeap) (ranges : List (BitVec 32 × Nat)) (s : AddressSpace) :
    AddressSpace :=
  ranges.foldl (fun s range => s.markWritten heap range.1 range.2) s

/-- `mark_scalar_written_locked`, of a value within the page. -/
def markScalarWritten (heap : PageHeap) (address : BitVec 32) (size : Nat) (s : AddressSpace) :
    AddressSpace :=
  let k := pageIndex address
  if ((s.pages.lookup k).any fun page => page.instructions.isSome) ||
      s.pagePermissions k &&& MemoryPermission.execute ≠ 0 then
    s.markWritten heap address size
  else if s.tracksWrite address size then
    setWriteGeneration k { s with writeGeneration := s.writeGeneration + 1 }
  else s

/-- `stamp_instruction_pages_locked`. -/
def stampInstructionPages (first stop : Nat) (s : AddressSpace) : AddressSpace :=
  let stamped := s.pages.keys.filter fun k => first ≤ k ∧ k < stop
  if stamped = [] then s
  else
    stamped.foldl (fun s k => s.setWriteGeneration k)
      { s with writeGeneration := s.writeGeneration + 1 }

/-! ### Markers of exclusive accesses -/

/-- `reservation_granule_mask`: the granules of a page that a range touches. -/
def granuleMask (address : BitVec 32) (size k : Nat) : BitVec 64 :=
  let start := max address.toNat (k * pageSize) - k * pageSize
  let stop := min (address.toNat + size) (k * pageSize + pageSize) - k * pageSize
  (BitVec.allOnes 64 <<< (start / 64)) &&& (BitVec.allOnes 64 >>> (63 - (stop - 1) / 64))

def sharedBacking (s : AddressSpace) (k : Nat) : Option BackingId :=
  ((s.pages.lookup k).filter Page.sharedWritable).bind Page.backing

/-- `guard_exclusive_jit_page_locked`. -/
def guardExclusiveJitPage (k : Nat) (s : AddressSpace) : AddressSpace :=
  match s.jitWritePageTable with
  | none => s
  | some table =>
    if (table k).isSome then
      { s with
        jitWritePageTable := some (Function.update table k none)
        directJitWritePages := s.directJitWritePages.erase k
        directSharedJitWritePages := s.directSharedJitWritePages.erase k }
    else s

def markGranules (k : Nat) (mask : BitVec 64) (s : AddressSpace) : AddressSpace :=
  { s with
    exclusiveWriteTrackedPages := s.exclusiveWriteTrackedPages.insert k
      ((s.exclusiveWriteTrackedPages.lookup k).getD 0 ||| mask) }

/-- One page of `track_exclusive_access`, with the local aliases of its backing. -/
def trackExclusivePage (address : BitVec 32) (size : Nat) (s : AddressSpace) (k : Nat) :
    AddressSpace :=
  let mask := granuleMask address size k
  let inserted := k ∉ s.exclusiveWriteTrackedPages
  let s := (s.markGranules k mask).trackExclusiveBacking k
  let s := if inserted then s.guardExclusiveJitPage k else s
  match s.sharedBacking k with
  | none => s
  | some b =>
    let marked := s.exclusiveWriteTrackedPages.keys.filter fun other => s.sharedBacking other = some b
    let s := marked.foldl (fun s other => s.markGranules other mask) s
    let aliases := s.pages.keys.filter fun other =>
      other ∈ s.directSharedJitWritePages && s.sharedBacking other = some b
    aliases.foldl (fun s other => (s.markGranules other mask).guardExclusiveJitPage other) s

def trackExclusiveAccess (address : BitVec 32) (size : Nat) (s : AddressSpace) : AddressSpace :=
  if size = 0 || rangeOverflows address size || !s.jitWritePageTableEnabled then s
  else (pagesOf address size).foldl (trackExclusivePage address size) s

def unmarkPage (heap : PageHeap) (s : AddressSpace) (k : Nat) : AddressSpace :=
  refreshJitPage heap k
    { s with exclusiveWriteTrackedPages := s.exclusiveWriteTrackedPages.erase k }

def clearExclusiveAccessTracking (heap : PageHeap) (s : AddressSpace) : AddressSpace :=
  let s := s.exclusiveWriteTrackedPages.keys.foldl (unmarkPage heap) s
  { s with exclusiveWriteBackings := ∅ }

/-- The backings are forgotten with the last marker. -/
def settleMarkers (s : AddressSpace) : AddressSpace :=
  if s.exclusiveWriteTrackedPages.keys = [] then { s with exclusiveWriteBackings := ∅ } else s

/-- A marker loses the granules that a write touched through its page or an alias of it. -/
def releaseMarker (heap : PageHeap) (address : BitVec 32) (size : Nat) (s : AddressSpace) (k : Nat) :
    AddressSpace :=
  let touches (written : Nat) : Bool :=
    k = written ||
      ((s.sharedBacking k).isSome && s.sharedBacking k = s.sharedBacking written)
  let mask := (pagesOf address size).foldl
    (fun mask written => if touches written then mask &&& ~~~granuleMask address size written else mask)
    ((s.exclusiveWriteTrackedPages.lookup k).getD 0)
  if mask ≠ 0 then
    { s with exclusiveWriteTrackedPages := s.exclusiveWriteTrackedPages.insert k mask }
  else unmarkPage heap s k

/-- `release_exclusive_write_tracking_locked`. A private page within one page has one marker. -/
def releaseExclusiveWriteTracking (heap : PageHeap) (address : BitVec 32) (size : Nat)
    (s : AddressSpace) : AddressSpace :=
  if size = 0 || rangeOverflows address size || s.exclusiveWriteTrackedPages.keys = [] then s
  else
    let k := pageIndex address
    let each := settleMarkers
      (s.exclusiveWriteTrackedPages.keys.foldl (releaseMarker heap address size) s)
    if endPage address size = k + 1 then
      if ((s.residentBacking k).any fun b => b ∉ s.exclusiveWriteBackings) &&
          k ∉ s.exclusiveWriteTrackedPages then s
      else if (s.sharedBacking k).isSome then each
      else
        match s.exclusiveWriteTrackedPages.lookup k with
        | none => s
        | some granules =>
          let mask := granules &&& ~~~granuleMask address size k
          if mask = 0 then settleMarkers (unmarkPage heap s k)
          else { s with exclusiveWriteTrackedPages := s.exclusiveWriteTrackedPages.insert k mask }
    else each

end AddressSpace
end ILEmu
