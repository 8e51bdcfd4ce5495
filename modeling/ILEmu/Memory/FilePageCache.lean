import ILEmu.Foundation.Run
import Mathlib.Data.BitVec
import Mathlib.Data.List.Basic
import Mathlib.Logic.Function.Basic
import Mathlib.Logic.Function.Iterate

/-! The page cache of file mappings, with the owners of its pages.

A page is a `shared_ptr`: it lives while the strong index, a resident entry of an address
space or some other holder refers to it. The weak indexes name it also afterwards. -/
namespace ILEmu.Memory.FilePageCache

abbrev PageId := Nat
abbrev Byte := BitVec 8

abbrev guestMemoryPageSize : Nat := 4096

abbrev PageBytes := Fin guestMemoryPageSize → Byte

structure Generation where
  device : BitVec 64 := 0
  inode : BitVec 64 := 0
  fileSize : BitVec 64 := 0
  modifiedSeconds : BitVec 64 := 0
  modifiedNanoseconds : BitVec 64 := 0
  changedSeconds : BitVec 64 := 0
  changedNanoseconds : BitVec 64 := 0
  deriving DecidableEq

/-- `GuestFileBacking`. What a read of the vnode returns is given with each read. -/
structure File where
  cachePath : String
  generation : Generation
  generationRevision : BitVec 64 := 0
  contentIdentity : BitVec 256 := 0
  /-- An immutable snapshot or an immutable file view. -/
  immutable : Bool := false
  endOffset : BitVec 64

inductive Mode where
  | copyOnWrite
  | shared
  | sharedFile
  deriving DecidableEq

/-- `map_file_backing` refuses to share an immutable image. -/
structure FileMapping where
  backing : File
  mode : Mode
  needsCopy : Bool := false
  shares_vnode : mode ≠ .copyOnWrite → backing.immutable = false

structure Key where
  path : String := ""
  generation : Generation := {}
  generationRevision : BitVec 64 := 0
  contentIdentity : BitVec 256 := 0
  fileOffset : BitVec 64 := 0
  byteCount : BitVec 32 := 0
  immutableSnapshot : Bool := false
  sharedVnode : Bool := false
  derivedImmutable : Bool := false
  deriving DecidableEq

/-- The vnode and the offset of a page in it. -/
structure MutablePageKey where
  device : BitVec 64
  inode : BitVec 64
  fileOffset : BitVec 64
  deriving DecidableEq

structure GuestPageBacking where
  bytes : PageBytes := fun _ => 0
  /-- Still set while the page has not been read from its file. -/
  fileBacking : Option File := none
  fileWriteback : Option File := none
  fileOffset : BitVec 64 := 0
  fileByteCount : BitVec 32 := 0
  sharedVnode : Bool := false

/-- A page of an address space, with the interval it was faulted through. -/
structure Resident where
  space : Nat
  address : BitVec 32
  page : PageId
  mapping : FileMapping
  fileOffset : BitVec 64
  fileCached : Bool
  copyOnWritePossible : Bool
  sharedWritable : Bool

/-- Detached pages read for a mapping, to be adopted or dropped as a whole. -/
structure PreparedFilePages where
  mapping : FileMapping
  pages : List PageId

structure World where
  maximumPages : Nat
  heap : PageId → GuestPageBacking := fun _ => {}
  /-- The next page to be constructed. -/
  next : PageId := 0
  /-- `pages_` in the order of `lru_`, the next victim first. -/
  pages : List (Key × PageId) := []
  evictedPages : List (Key × PageId) := []
  evictionsSincePrune : Nat := 0
  mutablePages : List (MutablePageKey × PageId) := []
  mutablePageInsertionsSincePrune : Nat := 0
  mutablePagePruneInterval : Nat := 1024
  resident : List Resident := []
  prepared : List PreparedFilePages := []
  /-- The pages other code holds, one entry for each `shared_ptr`. -/
  held : List PageId := []

/-- What a mapping shares is shared by all mappings of the vnode. -/
def FileMapping.shared (mapping : FileMapping) : Bool := decide (mapping.mode ≠ .copyOnWrite)

/-- The part of a page before the end of the mapped file. -/
def FileMapping.byteCount (mapping : FileMapping) (fileOffset : BitVec 64) : BitVec 32 :=
  let remaining := mapping.backing.endOffset - fileOffset
  (if remaining < 4096 then remaining else 4096).setWidth 32

def File.page (file : File) (fileOffset : BitVec 64) : MutablePageKey :=
  ⟨file.generation.device, file.generation.inode, fileOffset⟩

def Key.page (key : Key) : MutablePageKey :=
  ⟨key.generation.device, key.generation.inode, key.fileOffset⟩

def filePageKey (file : File) (fileOffset : BitVec 64) (byteCount : BitVec 32)
    (sharedVnode : Bool) : Key :=
  { path := file.cachePath, generation := file.generation
    generationRevision := file.generationRevision, contentIdentity := file.contentIdentity
    fileOffset, byteCount, immutableSnapshot := file.immutable, sharedVnode }

/-- The page of its file that a resident entry was faulted for. -/
def Resident.filePage (r : Resident) : MutablePageKey := r.mapping.backing.page r.fileOffset

namespace GuestPageBacking

/-- The page of a vnode that this one stands for. -/
def filePage (page : GuestPageBacking) : Option MutablePageKey :=
  page.fileWriteback.map fun file => file.page page.fileOffset

/-- The first bytes of `image`, over the page's own. -/
def overlay (bytes image : PageBytes) (count : BitVec 32) : PageBytes :=
  fun i => if i.val < count.toNat then image i else bytes i

/-- Queued writeback is newer than what the file gives. -/
def overlayPending (bytes : PageBytes) (pending : Option PageBytes) (count : BitVec 32) :
    PageBytes :=
  match pending with
  | some image => overlay bytes image count
  | none => bytes

/-- `image` is what the file, its snapshot or its queued writeback gives. -/
def materialize (page : GuestPageBacking) (image : PageBytes) : GuestPageBacking :=
  if page.fileBacking.isSome then
    { page with bytes := overlay (fun _ => 0) image page.fileByteCount, fileBacking := none }
  else page

def needsFileRead (page : GuestPageBacking) : Bool :=
  match page.fileBacking with
  | some file => !file.immutable
  | none => false

/-- A copy has no file. -/
def copy (page : GuestPageBacking) : GuestPageBacking := { bytes := page.bytes }

end GuestPageBacking

namespace World

def live (w : World) (p : PageId) : Bool :=
  w.pages.any (fun r => r.2 == p) || w.resident.any (fun r => r.page == p)
    || w.prepared.any (fun batch => batch.pages.contains p) || w.held.contains p

/-- `use_count`: one for each owner. -/
def useCount (w : World) (p : PageId) : Nat :=
  w.pages.countP (fun r => r.2 == p) + w.resident.countP (fun r => r.page == p)
    + (w.prepared.map fun batch => batch.pages.count p).sum + w.held.count p

def retain (w : World) (p : PageId) : World := { w with held := p :: w.held }

def release (w : World) (p : PageId) : World := { w with held := w.held.erase p }

/-- `make_shared`: the new page has one holder. -/
def construct (w : World) (page : GuestPageBacking) : World :=
  { w with
    heap := Function.update w.heap w.next page
    next := w.next + 1
    held := w.next :: w.held }

def setPage (w : World) (p : PageId) (page : GuestPageBacking) : World :=
  { w with heap := Function.update w.heap p page }

def pruneEvicted (w : World) : World :=
  { w with
    evictedPages := w.evictedPages.filter fun r => w.live r.2
    evictionsSincePrune := 0 }

/-- One turn of the loop of `evict_locked`. -/
def evictOne (w : World) : World :=
  match w.pages with
  | [] => w
  | (key, p) :: rest =>
    let evicted := if w.useCount p ≠ 1 then (key, p) :: w.evictedPages.filter (fun r => r.1 ≠ key)
      else w.evictedPages
    let w : World :=
      { w with
        pages := rest, evictedPages := evicted, evictionsSincePrune := w.evictionsSincePrune + 1 }
    if max 1024 w.evictedPages.length ≤ w.evictionsSincePrune then w.pruneEvicted else w

/-- Every turn takes one page away, so the turns are as many as the pages beyond the limit. -/
def evict (w : World) : World :=
  if w.maximumPages = 0 then w else evictOne^[w.pages.length - w.maximumPages] w

def touch (w : World) (key : Key) (p : PageId) : World :=
  { w with pages := w.pages.filter (fun r => r.1 ≠ key) ++ [(key, p)] }

/-- The first of the live pages that the vnode index has for a shared key. -/
def findShared (w : World) (key : Key) : Option PageId :=
  (w.mutablePages.find? fun entry =>
    entry.1 = key.page ∧ w.live entry.2 = true ∧ (w.heap entry.2).sharedVnode = true
      ∧ (w.heap entry.2).fileByteCount = key.byteCount).map Prod.snd

/-- The page of a key in one of the indexes by key. -/
def recorded (records : List (Key × PageId)) (key : Key) : Option PageId :=
  (records.find? fun r => r.1 = key).map Prod.snd

/-- `find_page_locked`. A page that is found is held by the caller. -/
def findPage (w : World) (key : Key) : World × Option PageId :=
  match if key.sharedVnode then w.findShared key else none with
  | some p => (w.retain p, some p)
  | none =>
    match recorded w.pages key with
    | some p => ((w.touch key p).retain p, some p)
    | none =>
      match recorded w.evictedPages key with
      | none => (w, none)
      | some p =>
        let forgotten : World :=
          { w with evictedPages := w.evictedPages.filter fun r => r.1 ≠ key }
        -- `lock` fails on a page that has no owner left.
        if w.live p then
          let found := forgotten.retain p
          (evict { found with pages := found.pages ++ [(key, p)] }, some p)
        else (forgotten, none)

/-- `insert_page_locked`. Immutable images stay out of the vnode index. -/
def insertPage (w : World) (key : Key) (p : PageId) : World :=
  let w : World := { w with pages := w.pages ++ [(key, p)] }
  if key.immutableSnapshot then w
  else
    { w with
      mutablePages := w.mutablePages ++ [(key.page, p)]
      mutablePageInsertionsSincePrune := w.mutablePageInsertionsSincePrune + 1 }

def pruneMutablePages (w : World) : World :=
  let alive := w.mutablePages.filter fun entry => w.live entry.2
  { w with
    mutablePages := alive
    mutablePageInsertionsSincePrune := 0
    mutablePagePruneInterval := max 1024 alive.length }

def maintainPages (w : World) : World :=
  evict (if w.mutablePagePruneInterval ≤ w.mutablePageInsertionsSincePrune then
    w.pruneMutablePages else w)

/-- `load_page`. The cache is searched again once the new page is made, since it is made
outside the lock; nobody else knows it before it is inserted. -/
def loadPage (w : World) (file : File) (fileOffset : BitVec 64) (byteCount : BitVec 32)
    (sharedVnode : Bool) : World × PageId :=
  let key := filePageKey file fileOffset byteCount sharedVnode
  match w.findPage key with
  | (first, some cached) => (first, cached)
  | (first, none) =>
    match first.findPage key with
    | (second, some cached) => (second, cached)
    | (second, none) =>
      let made := second.construct
        { fileBacking := some file, fileWriteback := some file, fileOffset
          fileByteCount := byteCount, sharedVnode }
      ((made.insertPage key second.next).maintainPages, second.next)

/-- One candidate of `publish_pages`. `pending` is the queued writeback of its offset. -/
def publishPage (file : File) (sharedVnode : Bool) (pending : BitVec 64 → Option PageBytes)
    (w : World) (candidate : PageId) : World :=
  let fresh := w.heap candidate
  let key := filePageKey file fresh.fileOffset fresh.fileByteCount sharedVnode
  let overlaid := GuestPageBacking.overlayPending fresh.bytes (pending key.fileOffset) key.byteCount
  match w.findPage key with
  | (found, none) =>
    (found.setPage candidate { fresh with sharedVnode, bytes := overlaid }).insertPage key candidate
  | (found, some p) =>
    -- A page that is already read wins over the candidate.
    let resident := found.heap p
    let adopted := if resident.fileBacking.isSome then
        found.setPage p { resident with bytes := overlaid, fileBacking := none }
      else found
    adopted.release p

def publishPages (w : World) (batch : PreparedFilePages)
    (pending : BitVec 64 → Option PageBytes) : World :=
  (batch.pages.foldl
    (publishPage batch.mapping.backing batch.mapping.shared pending) w).maintainPages

/-- The owner of the batch holds its pages until they are published. -/
def commit (w : World) (index : Nat) (pending : BitVec 64 → Option PageBytes) : World :=
  match w.prepared[index]? with
  | none => w
  | some batch =>
    let taken : World :=
      { w with prepared := w.prepared.eraseIdx index, held := batch.pages ++ w.held }
    batch.pages.foldl release (taken.publishPages batch pending)

def erasePath (w : World) (path : String) : World :=
  { w with
    evictedPages := w.evictedPages.filter fun r => r.1.path ≠ path
    pages := w.pages.filter fun r => r.1.path ≠ path }

/-- The result of `needs_file_read` is dropped: what matters here is what the search does. -/
def needsFileRead (w : World) (mapping : FileMapping) (fileOffset : BitVec 64) : World :=
  if mapping.backing.immutable then w
  else
    match w.findPage (filePageKey mapping.backing fileOffset (mapping.byteCount fileOffset)
        mapping.shared) with
    | (found, some p) => found.release p
    | (found, none) => found

/-- `intern_immutable_page`, of bytes with a digest. -/
def internImmutablePage (w : World) (digest : BitVec 256) (bytes : PageBytes) : World × PageId :=
  let key : Key :=
    { contentIdentity := digest, byteCount := 4096, immutableSnapshot := true
      derivedImmutable := true }
  match w.findPage key with
  | (found, some cached) =>
    if bytes = (found.heap cached).bytes then (found, cached)
    else ((found.release cached).construct { bytes }, found.next)
  | (found, none) =>
    let made := found.construct { bytes }
    (evict { made with pages := made.pages ++ [(key, found.next)] }, found.next)

def inRange (device inode first last : BitVec 64) (page : MutablePageKey) : Bool :=
  page.device = device ∧ page.inode = inode ∧ first ≤ page.fileOffset ∧ page.fileOffset ≤ last
    ∧ (page.fileOffset - first).toNat % guestMemoryPageSize = 0

/-- The bytes that a write at `fileOffset` leaves in a page. -/
def reflected (page : GuestPageBacking) (fileOffset : BitVec 64) (bytes : List Byte) : PageBytes :=
  let pageEnd := page.fileOffset + page.fileByteCount.setWidth 64
  let writeEnd := fileOffset + BitVec.ofNat 64 bytes.length
  fun i =>
    let position := page.fileOffset + BitVec.ofNat 64 i.val
    if fileOffset ≤ position ∧ position < writeEnd ∧ position < pageEnd then
      bytes.getD (position - fileOffset).toNat (page.bytes i)
    else page.bytes i

/-- `reflect_descriptor_write`. A page that has not been read will read what was written. -/
def reflectDescriptorWrite (w : World) (device inode fileOffset : BitVec 64) (bytes : List Byte) :
    World :=
  if bytes = [] ∨ (-1 - fileOffset).toNat < bytes.length - 1 then w
  else
    let mask : BitVec 64 := ~~~4095
    let last := (fileOffset + BitVec.ofNat 64 (bytes.length - 1)) &&& mask
    let inside := inRange device inode (fileOffset &&& mask) last
    { w with
      mutablePages := w.mutablePages.filter fun entry => !inside entry.1 || w.live entry.2
      heap := fun p =>
        let page := w.heap p
        if (w.mutablePages.any fun entry => inside entry.1 && entry.2 == p && w.live p) = true
            ∧ page.fileBacking.isNone = true then
          { page with bytes := reflected page fileOffset bytes }
        else page }

def residentAt (w : World) (space : Nat) (address : BitVec 32) : Option Resident :=
  w.resident.find? fun r => r.space = space ∧ r.address = address

def setResident (w : World) (entry : Resident) : World :=
  { w with
    resident := w.resident.map fun r =>
      if r.space = entry.space ∧ r.address = entry.address then entry else r }

/-- `ensure_page_locked` and `fault_file_page_locked`, for a page without a transform. -/
def fault (w : World) (space : Nat) (address : BitVec 32) (mapping : FileMapping)
    (fileOffset : BitVec 64) (image : PageBytes) : World :=
  if (w.residentAt space address).isSome then w
  else
    let (loaded, page) :=
      w.loadPage mapping.backing fileOffset (mapping.byteCount fileOffset) mapping.shared
    let copied := !mapping.shared || mapping.needsCopy
    let entry : Resident :=
      { space, address, page, mapping, fileOffset, fileCached := copied
        copyOnWritePossible := copied, sharedWritable := mapping.shared && !mapping.needsCopy }
    let read := loaded.setPage page ((loaded.heap page).materialize image)
    { read with resident := entry :: read.resident }.release page

/-- `writable_backing_locked`: a private page leaves the pages that others use. -/
def writableBacking (w : World) (r : Resident) : World × PageId :=
  if r.fileCached ∨ (r.copyOnWritePossible ∧ ¬r.sharedWritable ∧ w.useCount r.page ≠ 1) then
    let made := w.construct (w.heap r.page).copy
    let entry := { r with page := w.next, fileCached := false, copyOnWritePossible := false }
    ((made.setResident entry).release w.next, w.next)
  else (w.setResident { r with fileCached := false, copyOnWritePossible := false }, r.page)

/-- A checked write of one byte to a resident page. -/
def store (w : World) (space : Nat) (address : BitVec 32) (offset : Fin guestMemoryPageSize)
    (byte : Byte) : World :=
  match w.residentAt space address with
  | none => w
  | some r =>
    let (writable, p) := w.writableBacking r
    let page := writable.heap p
    writable.setPage p { page with bytes := Function.update page.bytes offset byte }

def readByte (w : World) (space : Nat) (address : BitVec 32) (offset : Fin guestMemoryPageSize) :
    Option Byte :=
  (w.residentAt space address).map fun r => (w.heap r.page).bytes offset

/-- A child's entries, after the parent's pages have become copy-on-write. -/
def fork (w : World) (parent child : Nat) : World :=
  if w.resident.any fun r => r.space == child then w
  else
    let mark (r : Resident) : Resident :=
      if r.space = parent then
        { r with copyOnWritePossible := r.copyOnWritePossible || !r.sharedWritable }
      else r
    let marked := w.resident.map mark
    let copies := (marked.filter fun r => r.space = parent).map fun r => { r with space := child }
    { w with resident := copies ++ marked }

/-- One page of `PreparedFilePages::read`, made from what the host gave. -/
def preparePage (file : File) (state : World × List PageId)
    (read : BitVec 64 × BitVec 32 × PageBytes) : World × List PageId :=
  let (w, made) := state
  let (fileOffset, fileByteCount, bytes) := read
  ({ w with
      heap := Function.update w.heap w.next
        { bytes, fileWriteback := some file, fileOffset, fileByteCount }
      next := w.next + 1 }, w.next :: made)

def prepare (w : World) (mapping : FileMapping)
    (reads : List (BitVec 64 × BitVec 32 × PageBytes)) : World :=
  let (read, made) := reads.foldl (preparePage mapping.backing) (w, [])
  { read with prepared := ⟨mapping, made.reverse⟩ :: read.prepared }

end World

inductive Event where
  | fault (space : Nat) (address : BitVec 32) (mapping : FileMapping) (fileOffset : BitVec 64)
      (image : PageBytes)
  | prepare (mapping : FileMapping) (reads : List (BitVec 64 × BitVec 32 × PageBytes))
  | commit (index : Nat) (pending : BitVec 64 → Option PageBytes)
  | discard (index : Nat)
  | needsFileRead (mapping : FileMapping) (fileOffset : BitVec 64)
  | erasePath (path : String)
  | intern (digest : BitVec 256) (bytes : PageBytes)
  | release (page : PageId)
  | descriptorWrite (device inode fileOffset : BitVec 64) (bytes : List Byte)
  | store (space : Nat) (address : BitVec 32) (offset : Fin guestMemoryPageSize) (byte : Byte)
  | unmap (space : Nat) (address : BitVec 32)
  | fork (parent child : Nat)

namespace World

def discard (w : World) (index : Nat) : World := { w with prepared := w.prepared.eraseIdx index }

def step (w : World) : Event → World
  | .fault space address mapping fileOffset image => w.fault space address mapping fileOffset image
  | .prepare mapping reads => w.prepare mapping reads
  | .commit index pending => w.commit index pending
  | .discard index => w.discard index
  | .needsFileRead mapping fileOffset => w.needsFileRead mapping fileOffset
  | .erasePath path => w.erasePath path
  | .intern digest bytes => (w.internImmutablePage digest bytes).1
  | .release page => w.release page
  | .descriptorWrite device inode fileOffset bytes =>
    w.reflectDescriptorWrite device inode fileOffset bytes
  | .store space address offset byte => w.store space address offset byte
  | .unmap space address =>
    { w with
      resident := w.resident.filter fun r => !decide (r.space = space ∧ r.address = address) }
  | .fork parent child => w.fork parent child

end World
end ILEmu.Memory.FilePageCache
