import Mathlib.Data.BitVec
import Mathlib.Data.List.Pairwise

/-! The rebasing of shared region pages: the slide info that a guest supplies, and the pointer
chains through a page. -/
namespace ILEmu.Vm

abbrev Byte := BitVec 8
abbrev Word := BitVec 32

def pageSize : Nat := 4096

instance : NeZero pageSize := ⟨by decide⟩

abbrev Page := Fin pageSize → Byte

/-- What the slide info is read from. -/
structure GuestMemory where
  accessible : Word → Nat → Bool
  read32 : Word → Option Word
  read64 : Word → Option (BitVec 64)
  readBytes : Word → Word → Option (List Byte)

/-- Memory that holds some bytes from an address on. -/
def GuestMemory.ofBytes (base : Word) (bytes : List Byte) : GuestMemory where
  accessible address size :=
    base ≤ address && (address - base).toNat + size ≤ bytes.length
  read32 address :=
    let at_ := (address - base).toNat
    if address < base ∨ bytes.length < at_ + 4 then none
    else some (bytes.getD (at_ + 3) 0 ++ bytes.getD (at_ + 2) 0 ++ bytes.getD (at_ + 1) 0 ++
      bytes.getD at_ 0)
  read64 address :=
    let at_ := (address - base).toNat
    if address < base ∨ bytes.length < at_ + 8 then none
    else some (bytes.getD (at_ + 7) 0 ++ bytes.getD (at_ + 6) 0 ++ bytes.getD (at_ + 5) 0 ++
      bytes.getD (at_ + 4) 0 ++ bytes.getD (at_ + 3) 0 ++ bytes.getD (at_ + 2) 0 ++
      bytes.getD (at_ + 1) 0 ++ bytes.getD at_ 0)
  readBytes address size :=
    let at_ := (address - base).toNat
    if address < base ∨ bytes.length < at_ + size.toNat then none
    else some ((bytes.drop at_).take size.toNat)

structure SlideInfo where
  pageStartsOffset : Word
  pageStartsCount : Word
  pageExtrasOffset : Word
  pageExtrasCount : Word
  deltaMask : Word
  valueAdd : Word
  deriving DecidableEq, Repr

def headerSize : Word := 40
def maximumSlideInfoSize : Word := 2560 * 1024
def noRebase : BitVec 16 := 0x4000
def extraChain : BitVec 16 := 0x8000
def chainValue : BitVec 16 := 0x3fff
def invalidArgument : Word := 22

def within (offset : Word) (length : Nat) (size : Word) : Bool :=
  offset ≤ size && length ≤ (size - offset).toNat

def readInfo (memory : GuestMemory) (address size mappingSize : Word) : Option SlideInfo := do
  if address = 0 || size < headerSize || maximumSlideInfoSize < size ||
      BitVec.allOnes 32 - address < size || !memory.accessible address size.toNat then
    none
  else
    let version ← memory.read32 address
    let pageSize' ← memory.read32 (address + 4)
    let startsOffset ← memory.read32 (address + 8)
    let startsCount ← memory.read32 (address + 12)
    let extrasOffset ← memory.read32 (address + 16)
    let extrasCount ← memory.read32 (address + 20)
    let deltaMask ← memory.read64 (address + 24)
    let valueAdd ← memory.read64 (address + 32)
    if version ≠ 2 || pageSize' ≠ BitVec.ofNat 32 pageSize ||
        mappingSize / BitVec.ofNat 32 pageSize < startsCount ||
        !within startsOffset (startsCount.toNat * 2) size ||
        !within extrasOffset (extrasCount.toNat * 2) size ||
        deltaMask = 0 || (BitVec.allOnes 32).setWidth 64 < deltaMask ||
        (deltaMask.setWidth 32).ctz < 2 || (BitVec.allOnes 32).setWidth 64 < valueAdd then
      none
    else
      return {
        pageStartsOffset := startsOffset
        pageStartsCount := startsCount
        pageExtrasOffset := extrasOffset
        pageExtrasCount := extrasCount
        deltaMask := deltaMask.setWidth 32
        valueAdd := valueAdd.setWidth 32 }

namespace Page

/-- The bytes of a word. An offset of a chain is followed by three more bytes of the page. -/
def place (offset : Word) (i : Nat) : Fin pageSize := Fin.ofNat pageSize (offset.toNat + i)

def word (page : Page) (offset : Word) : Word :=
  page (place offset 3) ++ page (place offset 2) ++ page (place offset 1) ++ page (place offset 0)

def setWord (page : Page) (offset value : Word) : Page := fun index =>
  if index = place offset 0 then value.extractLsb' 0 8
  else if index = place offset 1 then value.extractLsb' 8 8
  else if index = place offset 2 then value.extractLsb' 16 8
  else if index = place offset 3 then value.extractLsb' 24 8
  else page index

end Page

namespace SlideInfo

/-- The distance to the next word of a chain. -/
def delta (info : SlideInfo) (encoded : Word) : Word :=
  (encoded &&& info.deltaMask) >>> (info.deltaMask.ctz - 2)

def pointer (info : SlideInfo) (slide encoded : Word) : Word :=
  let pointer := encoded &&& ~~~info.deltaMask
  if pointer ≠ 0 then pointer + (info.valueAdd + slide) else pointer

end SlideInfo

def lastPointer : Word := BitVec.ofNat 32 (pageSize - 4)

/-- A word of a chain, as it is found. -/
structure Slot where
  offset : Word
  encoded : Word
  deriving DecidableEq, Repr

/-- A page after one chain, with the words of the chain in the order of its walk. -/
structure Walk where
  page : Page
  error : Word
  slots : List Slot

/-- The walk from an offset on, and nothing when the fuel runs out. -/
def walkChain (info : SlideInfo) (slide : Word) : Nat → Page → Word → Option Walk
  | 0, _, _ => none
  | fuel + 1, page, offset =>
    if offset ≤ lastPointer then
      let encoded := page.word offset
      let delta := info.delta encoded
      let page := page.setWord offset (info.pointer slide encoded)
      if delta = 0 then some { page, error := 0, slots := [{ offset, encoded }] }
      else
        (walkChain info slide fuel page (offset + delta)).map fun walk =>
          { walk with slots := { offset, encoded } :: walk.slots }
    else some { page, error := invalidArgument, slots := [] }

def decodeChain (info : SlideInfo) (slide : Word) (fuel : Nat) (page : Page) (start : Word) :
    Option Walk :=
  if lastPointer < start then some { page, error := invalidArgument, slots := [] }
  else walkChain info slide fuel page start

def tableEntry (metadata : List Byte) (offset : Word) : BitVec 16 :=
  metadata.getD (offset + 1).toNat 0 ++ metadata.getD offset.toNat 0

/-- A page after its chains, with the words of each. -/
structure Decoded where
  page : Page
  error : Word
  chains : List (List Slot)

/-- The chains of the extras table, up to the one that is marked as the last. -/
def decodeExtras (info : SlideInfo) (slide : Word) (fuel : Nat) (metadata : List Byte) :
    Nat → Page → Option Decoded
  | 0, page => some { page, error := invalidArgument, chains := [] }
  | remaining + 1, page => do
    let index := info.pageExtrasCount - BitVec.ofNat 32 (remaining + 1)
    let extra := tableEntry metadata (info.pageExtrasOffset + index * 2)
    let walk ← decodeChain info slide fuel page ((extra &&& chainValue).setWidth 32 <<< 2)
    if walk.error ≠ 0 then
      return { page := walk.page, error := walk.error, chains := [walk.slots] }
    else if extra &&& extraChain ≠ 0 then
      return { page := walk.page, error := 0, chains := [walk.slots] }
    else
      let rest ← decodeExtras info slide fuel metadata remaining walk.page
      return { rest with chains := walk.slots :: rest.chains }

def decodePage (info : SlideInfo) (slide : Word) (fuel : Nat) (metadata : List Byte) (page : Page)
    (entry : BitVec 16) : Option Decoded :=
  if entry &&& extraChain = 0 then do
    let walk ← decodeChain info slide fuel page (entry.setWidth 32 <<< 2)
    return { page := walk.page, error := walk.error, chains := [walk.slots] }
  else
    let index := (entry &&& chainValue).setWidth 32
    decodeExtras info slide fuel metadata (info.pageExtrasCount.toNat - index.toNat) page

structure SharedRegionSlideV2 where
  metadata : List Byte
  info : SlideInfo
  fileOffset : BitVec 64
  slide : Word

/-- The table entry of a page that is to be rebased. -/
def SharedRegionSlideV2.rebase (transform : SharedRegionSlideV2) (fileOffset : BitVec 64) :
    Option (BitVec 16) :=
  let page := (fileOffset - transform.fileOffset) / BitVec.ofNat 64 pageSize
  if transform.info.pageStartsCount.setWidth 64 ≤ page then none
  else
    let entry := tableEntry transform.metadata
      (transform.info.pageStartsOffset + page.setWidth 32 * 2)
    if entry = noRebase then none else some entry

/-- The page that is published, if one is; and nothing when the fuel runs out. -/
def SharedRegionSlideV2.apply (transform : SharedRegionSlideV2) (fuel : Nat) (source : Page)
    (fileOffset : BitVec 64) : Option (Option Page) :=
  match transform.rebase fileOffset with
  | none => some (some source)
  | some entry => do
    let decoded ← decodePage transform.info transform.slide fuel transform.metadata source entry
    return if decoded.error ≠ 0 then none else some decoded.page

def prepareSharedRegionSlideV2 (memory : GuestMemory) (mappingSize : Word) (fileOffset : BitVec 64)
    (slide slideInfoAddress slideInfoSize : Word) : Option SharedRegionSlideV2 := do
  if mappingSize = 0 then none
  else
    let info ← readInfo memory slideInfoAddress slideInfoSize mappingSize
    let metadata ← memory.readBytes slideInfoAddress slideInfoSize
    return { metadata, info, fileOffset, slide }

end ILEmu.Vm
