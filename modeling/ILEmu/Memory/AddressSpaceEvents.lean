import ILEmu.Memory.AddressSpaceWorld

/-! What several address spaces do together: they share pages with kernel objects and with each
other, and a task is cloned. The events of a machine are the calls of all its spaces. -/
namespace ILEmu.AddressSpace
open Foundation
open Memory.FilePageCache (Byte PageBytes)

namespace World
variable {Cache : Type} (pager : FilePager Cache)

/-! ### Transfers on behalf of a task -/

/-- The loop of `copy_to_user`, chunk by chunk, with the bytes that were transferred. -/
def copyToUserEach (i : Nat) :
    List (BitVec 32 × List Byte) → World Cache → Nat → World Cache × Bool × Nat
  | [], w, transferred => (w, true, transferred)
  | (address, data) :: rest, w, transferred =>
    match w.copyInBatchLocked pager i [(address, data)] true with
    | (w, false) => (w, false, transferred)
    | (w, true) => copyToUserEach i rest w (transferred + data.length)

/-- `copy_to_user`. The chunks end at the end of the address space. -/
def copyToUser (w : World Cache) (i : Nat) (address : BitVec 32) (data : List Byte) :
    World Cache × Bool × Nat :=
  let room := 2 ^ 32 - address.toNat
  match copyToUserEach pager i (chunks address (data.take room)) w 0 with
  | (w, done, transferred) => (w, done && data.length ≤ room, transferred)

/-- A page takes immutable bytes, which are copied before they are written. -/
def interned (b : BackingId) (page : Page) : Page :=
  { page with backing := some b, fileCached := true, copyOnWritePossible := true }

def replacePage (w : World Cache) (i k : Nat) (bytes : PageBytes) : World Cache :=
  let (cache, heap, b) := pager.intern w.cache w.heap bytes
  let w := { w with cache, heap }
  let page := w.page i k
  let w := if page.backing.isNone then w.recordResidentPage i else w
  w.setPage i k (interned b page)

/-- `copy_in_immutable_page`. -/
def copyInImmutablePage (w : World Cache) (i : Nat) (address : BitVec 32) (data : List Byte) :
    World Cache × Bool :=
  let k := pageIndex address
  if address.toNat % pageSize ≠ 0 || data.length ≠ pageSize then (w, false)
  else if !(w.spaces i).rangeAccessible address pageSize MemoryPermission.none then (w, false)
  else
    match w.ensurePage pager i k with
    | (w, false) => (w, false)
    | (w, true) =>
      if (w.page i k).sharedWritable || (w.page i k).fileWritebackCapable then
        w.copyInBatchLocked pager i [(address, data)] false
      else
        let w := w.replacePage pager i k fun offset => data.getD offset 0
        ((w.refreshJitPage i k).markWritten i address pageSize, true)

def prepareInstructionFetch (w : World Cache) (i : Nat) (address : BitVec 32) (size : Nat) :
    World Cache × Bool :=
  let w := w.accountVmAccess i address size MemoryPermission.execute true
  if !(w.spaces i).rangeAccessible address size MemoryPermission.execute then (w, false)
  else if !w.rangeNeedsFileFault i address size then (w, true)
  else w.faultFilePages pager i address size

/-! ### Sharing -/

/-- What the loops over shared pages gather for `finish_shared_write_tracking_locked`. -/
structure Sharing where
  transitions : Nat := 0
  tracked : Bool := false
  aliased : Bool := false

/-- A page that its space tracks has a backing that counts its writes. -/
def trackShared (w : World Cache) (i k : Nat) (b : BackingId) (aliased : Bool) (sharing : Sharing) :
    World Cache × Sharing :=
  if k ∈ (w.spaces i).writeTrackedPages then
    let (w, enabled) := w.enableSharedWriteTracking b
    (w, { transitions := sharing.transitions + (if enabled then 1 else 0), tracked := true
          aliased := sharing.aliased || aliased })
  else (w, sharing)

def published (b : BackingId) (page : Page) : Page :=
  { page with
    backing := some b, fileCached := false, sharedWritable := true, copyOnWritePossible := false }

/-- The backing with which a page is shared: an old one that no other page is copied from. -/
def publishPage (w : World Cache) (i k : Nat) : World Cache :=
  let page := w.page i k
  match page.backing with
  | none =>
    ((w.construct {}).setPage i k (published w.heap.next page)).recordResidentPage i
  | some b =>
    if page.fileCached ||
        (page.copyOnWritePossible && !page.sharedWritable && w.useCount pager b ≠ 1) then
      (w.construct (w.heap.pages b).copy).setPage i k (published w.heap.next page)
    else w.setPage i k (published b page)

/-- One page of `share_pages_locked`. -/
def sharePage (i : Nat) (state : World Cache × Sharing) (k : Nat) : World Cache × Sharing :=
  let (w, sharing) := state
  let overlaid := (w.page i k).instructions.isSome
  let w := w.publishPage pager i k
  let w := if overlaid then w.markWritten i (pageAddress k) pageSize else w
  match (w.page i k).backing with
  | none => (w, sharing)
  | some b =>
    let (w, sharing) := w.trackShared i k b (w.useCount pager b ≠ 1) sharing
    (w.refreshJitPage i k, sharing)

/-- `share_pages_locked`, with the backings of the pages. -/
def sharePagesLocked (w : World Cache) (i first stop : Nat) : World Cache × Option (List BackingId) :=
  match ensureEach pager i (pagesBetween first stop) w with
  | (w, false) => (w, none)
  | (w, true) =>
    let epoch := w.sharedWriteTrackingEpoch
    let (w, sharing) := (pagesBetween first stop).foldl (sharePage pager i) (w, {})
    let w := if sharing.tracked then
        w.finishSharedWriteTracking i epoch sharing.transitions sharing.aliased
      else w
    (w, some ((pagesBetween first stop).filterMap (w.spaces i).residentBacking))

/-- The callers of `share_pages` keep what they get. -/
def sharePages (w : World Cache) (i : Nat) (address size : BitVec 32) :
    World Cache × Option (List BackingId) :=
  if size = 0 || address.toNat % pageSize ≠ 0 || size.toNat % pageSize ≠ 0 ||
      rangeOverflows address size.toNat then (w, none)
  else if !(w.spaces i).rangeAccessible address size.toNat MemoryPermission.none then (w, none)
  else
    match w.sharePagesLocked pager i (pageIndex address) (endPage address size.toNat) with
    | (w, none) => (w, none)
    | (w, some backings) => ({ w with held := backings ++ w.held }, some backings)

/-- The regions of a range, relative to its start; nothing if there is a hole. -/
def clippedRegions (map : VmMap) (start stop : Nat) : Nat → Nat → Option (List (Span VmRegion))
  | 0, _ => some []
  | rounds + 1, cursor =>
    if cursor < stop then
      match map.regionAtOrAfter cursor with
      | none => none
      | some region =>
        if cursor < region.start then none
        else
          let next := min region.stop stop
          (clippedRegions map start stop rounds next).map fun rest =>
            { region with start := cursor - start, stop := next - start } :: rest
    else some []

structure SharedMapping where
  pages : List BackingId
  regions : List (Span VmRegion)
  permissions : MemoryPermission
  maximumPermissions : MemoryPermission

def shareMapping (w : World Cache) (i : Nat) (address size : BitVec 32) :
    World Cache × Option SharedMapping :=
  if size = 0 || address.toNat % pageSize ≠ 0 || size.toNat % pageSize ≠ 0 ||
      rangeOverflows address size.toNat then (w, none)
  else
    let stop := address.toNat + size.toNat
    match clippedRegions (w.spaces i).vmMap address.toNat stop (size.toNat / pageSize)
        address.toNat with
    | none => (w, none)
    | some regions =>
      match w.sharePagesLocked pager i (pageIndex address) (endPage address size.toNat) with
      | (w, none) => (w, none)
      | (w, some pages) =>
        ({ w with held := pages ++ w.held },
          some
            { pages, regions
              permissions := regions.foldl (fun all region => all &&& region.value.permissions) 7
              maximumPermissions :=
                regions.foldl (fun all region => all &&& region.value.maximumPermissions) 7 })

/-- The regions follow each other from the start of the range to its end. -/
def covers (size : Nat) : Nat → List (Span VmRegion) → Bool
  | covered, [] => covered = size
  | covered, region :: rest =>
    region.start = covered && covered < region.stop && region.stop ≤ size &&
      region.stop % pageSize = 0 && covers size region.stop rest

/-- One page of the loop of `map_page_ranges`. -/
def importPage (i first : Nat) (mode : PageMappingMode) (state : World Cache × Sharing)
    (entry : BackingId × Nat) : World Cache × Sharing :=
  let (w, sharing) := state
  let k := first + entry.2
  let sharedWritable := mode ≠ .copyOnWrite
  let w := w.setPage i k
    { backing := some entry.1, sharedWritable, copyOnWritePossible := !sharedWritable
      fileWritebackCapable := mode = .sharedFile && (w.heap.pages entry.1).fileBacked }
  let w := w.recordResidentPage i
  if sharedWritable then w.trackShared i k entry.1 true sharing else (w, sharing)

def mapRegion (first : Nat) (inheritance : VmInheritance) (s : AddressSpace)
    (region : Span VmRegion) : AddressSpace :=
  let start := first + region.start / pageSize
  let stop := first + region.stop / pageSize
  let vmMap := s.vmMap.after (.mapOr (start * pageSize) (stop * pageSize) region.value.permissions
    { maximumPermissions := region.value.maximumPermissions, inheritance })
  addPagePermissions start stop region.value.permissions { s with vmMap }

/-- `map_page_ranges`, with the token of the lease that was asked for. -/
def mapPageRanges (w : World Cache) (i : Nat) (address size : BitVec 32) (backings : List BackingId)
    (regions : List (Span VmRegion)) (mode : PageMappingMode) (inheritance : VmInheritance)
    (leased : Bool) : World Cache × Bool × BitVec 64 :=
  let first := pageIndex address
  let stop := endPage address size.toNat
  if size = 0 || address.toNat % pageSize ≠ 0 || size.toNat % pageSize ≠ 0 ||
      rangeOverflows address size.toNat || backings.length ≠ size.toNat / pageSize ||
      !covers size.toNat 0 regions then (w, false, 0)
  else if (w.spaces i).vmMap.overlaps (first * pageSize) (stop * pageSize) then (w, false, 0)
  else
    let w := w.edit i (invalidateMappingLeases (first * pageSize) (stop * pageSize))
    if (pagesBetween first stop).any fun k => k ∈ (w.spaces i).pages then (w, false, 0)
    else
      let epoch := w.sharedWriteTrackingEpoch
      let (w, sharing) := backings.zipIdx.foldl (importPage i first mode) (w, {})
      let w := w.edit i fun s => regions.foldl (mapRegion first inheritance) s
      let w := if sharing.tracked then
          w.finishSharedWriteTracking i epoch sharing.transitions true
        else w
      let w := w.edit i (refreshJitPageRange w.heap first stop)
      if leased then
        let (s, token) := (w.spaces i).issueLease
          { start := first * pageSize, stop := stop * pageSize }
        (w.edit i fun _ => s, true, token)
      else (w, true, 0)

def mapPageBackings (w : World Cache) (i : Nat) (address size : BitVec 32)
    (permissions : MemoryPermission) (backings : List BackingId) (mode : PageMappingMode)
    (leased : Bool) (attributes : VmMappingAttributes) : World Cache × Bool × BitVec 64 :=
  w.mapPageRanges i address size backings
    [{ start := 0, stop := size.toNat
       value := { permissions, inheritance := attributes.inheritance
                  maximumPermissions := attributes.maximumPermissions } }]
    mode attributes.inheritance leased

def mapSharedMapping (w : World Cache) (i : Nat) (address : BitVec 32) (mapping : SharedMapping)
    (mode : PageMappingMode) (inheritance : VmInheritance) : World Cache × Bool :=
  if (2 ^ 32 - 1) / pageSize < mapping.pages.length then (w, false)
  else
    match w.mapPageRanges i address (BitVec.ofNat 32 (mapping.pages.length * pageSize))
      mapping.pages mapping.regions mode inheritance false with
    | (w, mapped, _) => (w, mapped)

inductive SharedMemoryIdentity where
  | file (source : FileId) (offset : Nat)
  | page (backing : BackingId) (offset : Nat)
  deriving DecidableEq

/-- A page that is not shared gets a backing of its own. -/
def ownPage (w : World Cache) (i k : Nat) : World Cache × Bool :=
  match w.ensurePage pager i k with
  | (w, false) => (w, false)
  | (w, true) =>
    if (w.page i k).sharedWritable then (w, true)
    else
      match w.writableBacking pager i k with
      | (w, changed) => (if changed then w.refreshJitPage i k else w, true)

def pageIdentity (w : World Cache) (i k offset : Nat) : Option SharedMemoryIdentity :=
  (w.page i k).backing.map fun b =>
    match (w.heap.pages b).origin with
    | .vnode source fileOffset => .file source (fileOffset + offset)
    | .anonymous | .immutable | .image => .page b offset

/-- `shared_memory_identity`. -/
def sharedMemoryIdentity (w : World Cache) (i : Nat) (address : BitVec 32) :
    World Cache × Option SharedMemoryIdentity :=
  let k := pageIndex address
  let resolve : World Cache × Option SharedMemoryIdentity :=
    match w.ownPage pager i k with
    | (w, false) => (w, none)
    | (w, true) => (w, w.pageIdentity i k (address.toNat % pageSize))
  if !(w.spaces i).rangeAccessible address 1 MemoryPermission.none then (w, none)
  else
    match (w.spaces i).findFileMapping address.toNat with
    | some span =>
      if span.value.mode ≠ .copyOnWrite then
        (w, some (.file span.value.source (span.value.fileOffset + (address.toNat - span.start))))
      else resolve
    | none => resolve

/-! ### Tracked ranges and instruction overlays -/

/-- The pages of `track_write_generation`. -/
def trackPage (i : Nat) (state : World Cache × Sharing) (k : Nat) : World Cache × Sharing :=
  let (w, sharing) := state
  let w := w.edit i fun s => { s with writeTrackedPages := insert k s.writeTrackedPages }
  match (w.spaces i).sharedBacking k with
  | none => (w, sharing)
  | some b => w.trackShared i k b true sharing

def trackWriteGeneration (w : World Cache) (i : Nat) (address : BitVec 32) (size : Nat) :
    World Cache × Bool :=
  if size = 0 || rangeOverflows address size ||
      !(w.spaces i).rangeAccessible address size MemoryPermission.none then (w, false)
  else
    let epoch := w.sharedWriteTrackingEpoch
    let (w, sharing) := (pagesOf address size).foldl (trackPage i) (w, {})
    let w := if sharing.tracked then
        w.finishSharedWriteTracking i epoch sharing.transitions true
      else w
    (w.edit i (refreshJitPageRange w.heap (pageIndex address) (endPage address size)), true)

/-- One page of `publish_write_generation`. -/
def publishWrites (i : Nat) (w : World Cache) (k : Nat) : World Cache :=
  match (w.spaces i).residentBacking k with
  | none => w
  | some b =>
    { w.edit i (setWriteGeneration k) with
      heap := w.heap.modify b GuestPageBacking.publishSharedWrite }

def publishWriteGeneration (w : World Cache) (i : Nat) (address : BitVec 32) (size : Nat) :
    World Cache × Bool :=
  if size = 0 || rangeOverflows address size then (w, size = 0)
  else if !(w.spaces i).rangeAccessible address size MemoryPermission.none then (w, false)
  else
    let w := w.edit i fun s => { s with writeGeneration := s.writeGeneration + 1 }
    ((pagesOf address size).foldl (publishWrites i) w, true)

/-- One page of the preparation of an overlay: only private code that cannot be written. -/
def prepareOverlay (w : World Cache) (i : Nat) :
    List (BitVec 32 × List Byte) → Table Nat PageBytes → Option (Table Nat PageBytes)
  | [], prepared => some prepared
  | (address, data) :: rest, prepared =>
    let k := pageIndex address
    let s := w.spaces i
    match s.pages.lookup k with
    | none => none
    | some page =>
      match page.backing with
      | none => none
      | some b =>
        if page.sharedWritable || (w.heap.pages b).sharedWriteTracking ||
            grants (s.pagePermissions k) MemoryPermission.write then none
        else
          let old := (prepared.lookup k).getD (page.instructions.getD (w.heap.pages b).bytes)
          let bytes := (GuestPageBacking.write { bytes := old } (address.toNat % pageSize) data).bytes
          prepareOverlay w i rest (prepared.insert k bytes)

def setInstructions (heap : PageHeap) (k : Nat) (instructions : Option PageBytes)
    (s : AddressSpace) : AddressSpace :=
  match s.pages.lookup k with
  | none => s
  | some page =>
    AddressSpace.refreshJitPage heap k { s with pages := s.pages.insert k { page with instructions } }

def overlayPage (heap : PageHeap) (prepared : Table Nat PageBytes) (s : AddressSpace) (k : Nat) :
    AddressSpace :=
  setInstructions heap k (prepared.lookup k) (s.markWritten heap (pageAddress k) pageSize)

def overlayInstructions (w : World Cache) (i : Nat) (operations : List (BitVec 32 × List Byte)) :
    World Cache × Bool :=
  let operations := operations.filter fun operation => operation.2 ≠ []
  if operations.any fun (address, data) => rangeOverflows address data.length ||
      !(w.spaces i).rangeAccessible address data.length MemoryPermission.execute then (w, false)
  else
    match w.prepareOverlay i (operations.flatMap fun operation => chunks operation.1 operation.2)
        ∅ with
    | none => (w, false)
    | some prepared =>
      (w.edit i fun s => (prepared.keys.mergeSort (· ≤ ·)).foldl (overlayPage w.heap prepared) s, true)

/-! ### The clone of a task -/

/-- The page is copied to the child and becomes copy-on-write unless it is shared. -/
def markCopied (i : Nat) (absent : Nat → Bool) (w : World Cache) (k : Nat) : World Cache :=
  let page := w.page i k
  if !absent k && page.backing.isSome && !page.sharedWritable then
    let w := w.setPage i k { page with copyOnWritePossible := true }
    let w := w.edit i (keepTranslations k (k + 1) (7 &&& ~~~MemoryPermission.write))
    w.refreshJitPage i k
  else w

def shareRegions (i : Nat) : List (Span VmRegion) → World Cache → World Cache × Bool
  | [], w => (w, true)
  | region :: rest, w =>
    match w.sharePagesLocked pager i (region.start / pageSize) (region.stop / pageSize) with
    | (w, none) => (w, false)
    | (w, some _) => shareRegions i rest w

/-- A new space with what a child has of its parent's. -/
def childOf (parent : AddressSpace) (epoch : Nat) : AddressSpace where
  vmMap := parent.vmMap
  pages := parent.pages
  fileMappings := parent.fileMappings
  pagePermissions := parent.pagePermissions
  residentPages := { current := parent.residentPages.current }
  mappingLeases := parent.mappingLeases.filter fun _ lease => lease.observation.isNone
  nextMappingLeaseToken := parent.nextMappingLeaseToken
  parallelAccess := parent.parallelAccess
  jitPageTableEnabled := parent.jitPageTableEnabled
  exclusiveWriteTrackedPages := parent.exclusiveWriteTrackedPages
  exclusiveWriteBackings := parent.exclusiveWriteBackings
  observedSharedWriteTrackingEpoch := epoch
  writeTrackedPages := parent.writeTrackedPages
  writeGeneration := parent.writeGeneration

/-- A region that is not inherited leaves the child. -/
def dropRegion (heap : PageHeap) (s : AddressSpace) (region : Span VmRegion) : AddressSpace :=
  (s.invalidateMappingLeases region.start region.stop).unmapRange heap
    (region.start / pageSize) (region.stop / pageSize)

/-- `clone`. The regions are those that `region_at_or_after` finds from the first to the last. -/
def clone (w : World Cache) (i : Nat) : World Cache × Option Nat :=
  let epoch := w.sharedWriteTrackingEpoch
  let regions := (w.spaces i).vmMap.regions
  let gone := regions.filter fun region => region.value.inheritance = .none
  match shareRegions pager i
      (regions.filter fun region => region.value.inheritance = .share) w with
  | (w, false) => (w, none)
  | (w, true) =>
    let absent (k : Nat) : Bool := gone.any fun region => region.Contains (k * pageSize)
    let w := (w.spaces i).pages.keys.foldl (markCopied i absent) w
    let child := gone.foldl (dropRegion w.heap) (childOf (w.spaces i) epoch)
    let child :=
      { child with
        residentPages := { child.residentPages with maximum := child.residentPages.current } }
    ({ w with spaces := Function.update w.spaces w.count child, count := w.count + 1 },
      some w.count)

end World

/-! ### Events -/

/-- The bytes of an integer. -/
structure Scalar where
  bytes : List Byte
  size : bytes.length ∈ [1, 2, 4, 8]

def Scalar.byte (b : Byte) : Scalar := ⟨[b], List.mem_cons_self⟩

/-- The calls of one address space. -/
inductive Call where
  | map (address size : BitVec 32) (permissions : MemoryPermission)
      (attributes : VmMappingAttributes)
  | mapAnonymous (address size : BitVec 32) (permissions : MemoryPermission)
      (mode : AnonymousMappingMode) (attributes : VmMappingAttributes)
  | unmap (address size : BitVec 32)
  | retireMappings
  | inherit (address size : BitVec 32) (inheritance : VmInheritance)
  | mapFileBacking (address size : BitVec 32) (permissions : MemoryPermission) (source : FileId)
      (fileOffset endOffset : Nat) (immutable : Bool) (mode : PageMappingMode)
      (attributes : VmMappingAttributes)
  | transformFileMapping (address : BitVec 32) (transform : TransformId)
  | unmapMappingLease (token : BitVec 64)
  | observeMapping (address : BitVec 32) (size : Nat)
  | dropObservation (observation : Nat)
  | protect (address size : BitVec 32) (permissions : MemoryPermission) (setMaximum copy : Bool)
  | ensureJitPageTables
  | jitInstructionTable
  | setTaskVmEvents (events : Bool)
  | setParallelAccess (enabled : Bool)
  | disableJitPageTable
  | disableJitWritePageTable
  | trackExclusiveAccess (address : BitVec 32) (size : Nat)
  | clearExclusiveAccessTracking
  | synchronizeSharedWriteTracking
  | read (address : BitVec 32) (size : Nat) (access : MemoryPermission)
  | prepareInstructionFetch (address : BitVec 32) (size : Nat)
  | writeInteger (address : BitVec 32) (value : Scalar)
  | compareExchange (address : BitVec 32) (expected value : Scalar)
  | exchange (address : BitVec 32) (value : Scalar)
  | copyInBatch (operations : List (BitVec 32 × List Byte))
  | copyToUser (address : BitVec 32) (data : List Byte)
  | copyInImmutablePage (address : BitVec 32) (data : List Byte)
  | overlayInstructions (operations : List (BitVec 32 × List Byte))
  | trackWriteGeneration (address : BitVec 32) (size : Nat)
  | publishWriteGeneration (address : BitVec 32) (size : Nat)
  | sharedMemoryIdentity (address : BitVec 32)
  | sharePages (address size : BitVec 32)
  | shareMapping (address size : BitVec 32)
  | mapPageRanges (address size : BitVec 32) (backings : List BackingId)
      (regions : List (Span VmRegion)) (mode : PageMappingMode) (inheritance : VmInheritance)
      (leased : Bool)

/-- A new kernel object holds its page, and releases it in the end. -/
inductive Event where
  | create
  | destroy (i : Nat)
  | clone (i : Nat)
  | hold (backing : GuestPageBacking)
  | release (b : BackingId)
  | setActor (charged : Bool)
  | call (i : Nat) (call : Call)

namespace World
variable {Cache : Type} (pager : FilePager Cache)

def perform (w : World Cache) (i : Nat) : Call → World Cache
  | .map address size permissions attributes =>
    w.edit i fun s => (s.map w.heap address size permissions attributes).1
  | .mapAnonymous address size permissions mode attributes =>
    w.edit i fun s => (s.mapAnonymous w.heap address size permissions mode attributes).1
  | .unmap address size => w.edit i fun s => (s.unmap w.heap address size).1
  | .retireMappings => w.edit i retireMappings
  | .inherit address size inheritance => w.edit i fun s => (s.inherit address size inheritance).1
  | .mapFileBacking address size permissions source fileOffset endOffset immutable mode attributes =>
    w.edit i fun s => (s.mapFileBacking address size permissions source fileOffset endOffset
      immutable mode attributes).1
  | .transformFileMapping address transform =>
    w.edit i fun s => (s.transformFileMapping address transform).1
  | .unmapMappingLease token => w.edit i fun s => (s.unmapMappingLease w.heap token).1
  | .observeMapping address size => w.edit i fun s => (s.observeMapping address size).1
  | .dropObservation observation => w.edit i (AddressSpace.dropObservation observation)
  | .protect address size permissions setMaximum copy =>
    w.edit i fun s => (s.protectWithResult w.heap address size permissions setMaximum copy).1
  | .ensureJitPageTables =>
    if (w.spaces i).jitPageTableEnabled then w.edit i (AddressSpace.ensureJitPageTables w.heap)
    else w
  | .jitInstructionTable => w.edit i (AddressSpace.jitInstructionTable w.heap)
  | .setTaskVmEvents events => w.edit i (AddressSpace.setTaskVmEvents w.heap events)
  | .setParallelAccess enabled => w.edit i (AddressSpace.setParallelAccess w.heap enabled)
  | .disableJitPageTable => w.edit i AddressSpace.disableJitPageTable
  | .disableJitWritePageTable => w.edit i AddressSpace.disableJitWritePageTable
  | .trackExclusiveAccess address size => w.edit i (AddressSpace.trackExclusiveAccess address size)
  | .clearExclusiveAccessTracking =>
    w.edit i (AddressSpace.clearExclusiveAccessTracking w.heap)
  | .synchronizeSharedWriteTracking => w.synchronizeSharedWriteTracking i
  | .read address size access => (w.read pager i address size access).1
  | .prepareInstructionFetch address size => (w.prepareInstructionFetch pager i address size).1
  | .writeInteger address value => (w.writeInteger pager i address value.bytes).1
  | .compareExchange address expected value =>
    (w.compareExchange pager i address expected.bytes value.bytes).1
  | .exchange address value => (w.exchange pager i address value.bytes).1
  | .copyInBatch operations => (w.copyInBatchLocked pager i operations false).1
  | .copyToUser address data => (w.copyToUser pager i address data).1
  | .copyInImmutablePage address data => (w.copyInImmutablePage pager i address data).1
  | .overlayInstructions operations => (w.overlayInstructions i operations).1
  | .trackWriteGeneration address size => (w.trackWriteGeneration i address size).1
  | .publishWriteGeneration address size => (w.publishWriteGeneration i address size).1
  | .sharedMemoryIdentity address => (w.sharedMemoryIdentity pager i address).1
  | .sharePages address size => (w.sharePages pager i address size).1
  | .shareMapping address size => (w.shareMapping pager i address size).1
  | .mapPageRanges address size backings regions mode inheritance leased =>
    -- The caller refers to the pages that it maps.
    if backings.all fun b => b ∈ w.held then
      (w.mapPageRanges i address size backings regions mode inheritance leased).1
    else w

def step (w : World Cache) : Event → World Cache
  | .create =>
    { w with
      spaces := Function.update w.spaces w.count
        { observedSharedWriteTrackingEpoch := w.sharedWriteTrackingEpoch }
      count := w.count + 1 }
  | .destroy i =>
    if i < w.count then
      w.edit i fun s => { observations := (s.invalidateMappingLeases 0 addressSpaceEnd).observations }
    else w
  | .clone i => if i < w.count then (w.clone pager i).1 else w
  | .hold backing =>
    { w.construct { bytes := backing.bytes } with held := w.heap.next :: w.held }
  | .release b => { w with held := w.held.erase b }
  | .setActor actor => { w with actor }
  | .call i call => if i < w.count then w.perform pager i call else w

end World
end ILEmu.AddressSpace
