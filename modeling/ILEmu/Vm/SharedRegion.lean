import ILEmu.Foundation.Ranges
import ILEmu.Memory.VmMap
import ILEmu.Vm.SharedRegionSlide

/-! The privatization of the shared region: the ranges that a guest wants to keep, and the mapped
rest that is released. -/
namespace ILEmu.Vm
open Foundation

inductive DarwinGeneration where
  | unknown | iphoneOs1 | iphoneOs2 | iphoneOs3 | ios4 | ios5 | ios6 | ios7 | ios8 | ios9 | ios10
  deriving DecidableEq, Repr

def DarwinGeneration.value : DarwinGeneration → Nat
  | .unknown => 0
  | .iphoneOs1 => 1
  | .iphoneOs2 => 5
  | .iphoneOs3 => 7
  | .ios4 => 8
  | .ios5 => 9
  | .ios6 => 10
  | .ios7 => 11
  | .ios8 => 12
  | .ios9 => 13
  | .ios10 => 14

structure DarwinAddressBounds where
  stackTop : Word
  sharedRegionBase : Word
  sharedRegionEnd : Word
  deriving DecidableEq, Repr

def darwinAddressBounds (version : DarwinGeneration) : DarwinAddressBounds :=
  if DarwinGeneration.ios10.value ≤ version.value then ⟨0x19000000, 0x1a000000, 0x40000000⟩
  else if DarwinGeneration.ios8.value ≤ version.value then ⟨0x1f000000, 0x20000000, 0x40000000⟩
  else if DarwinGeneration.ios7.value ≤ version.value then ⟨0x27e00000, 0x2c000000, 0x40000000⟩
  else ⟨0x30000000, 0x30000000, 0x40000000⟩

def badAddress : Word := 14
def sharedRegionRangeSize : Nat := 8

def readableUserArray (memory : GuestMemory) (address count : Word) (entrySize : Nat) : Bool :=
  let size := count.toNat * entrySize
  size ≤ 2 ^ 32 - address.toNat && memory.accessible address size

/-- One range of the guest's array, an address and a size. -/
def readRange (memory : GuestMemory) (rangesAddress : Word) (index : Nat) : Option (Word × Word) :=
  let address := rangesAddress + BitVec.ofNat 32 (index * sharedRegionRangeSize)
  match memory.read32 address, memory.read32 (address + 4) with
  | some rangeAddress, some rangeSize => some (rangeAddress, rangeSize)
  | _, _ => none

def readRanges (memory : GuestMemory) (rangesAddress count : Word) : Option (List (Word × Word)) :=
  (List.range count.toNat).mapM (readRange memory rangesAddress)

def DarwinAddressBounds.clamp (bounds : DarwinAddressBounds) (value : Word) : Nat :=
  min (max value.toNat bounds.sharedRegionBase.toNat) bounds.sharedRegionEnd.toNat

def pageMask : Word := 0xfff

/-- A range in whole pages of the shared region. The sum wraps before it is clipped. -/
def keepRange (bounds : DarwinAddressBounds) (range : Word × Word) : Range Nat where
  start := bounds.clamp (range.1 &&& ~~~pageMask)
  stop := bounds.clamp ((range.1 + range.2 + pageMask) &&& ~~~pageMask)

def mergedRanges (bounds : DarwinAddressBounds) (ranges : List (Word × Word)) :
    List (Range Nat) :=
  let clipped := (ranges.map (keepRange bounds)).filter fun range => range.start < range.stop
  Range.merge (clipped.mergeSort fun left right => left.start ≤ right.start)

def readSharedRegionRanges (memory : GuestMemory) (rangeCount rangesAddress : Word)
    (bounds : DarwinAddressBounds) : Except Word (List (Range Nat)) :=
  let maximumRangeCount :=
    (bounds.sharedRegionEnd - bounds.sharedRegionBase) / BitVec.ofNat 32 pageSize
  if maximumRangeCount < rangeCount then .error invalidArgument
  else if rangeCount ≠ 0 &&
      !readableUserArray memory rangesAddress rangeCount sharedRegionRangeSize then
    .error badAddress
  else
    match readRanges memory rangesAddress rangeCount with
    | none => .error badAddress
    | some ranges => .ok (mergedRanges bounds ranges)

/-- The loop over the mapped regions, or nothing if it takes more rounds than that. -/
def rangesToRelease (map : VmMap) (bounds : DarwinAddressBounds) :
    Nat → Nat → List (Range Nat) → Option (List (Range Nat))
  | 0, cursor, _ => if cursor < bounds.sharedRegionEnd.toNat then none else some []
  | rounds + 1, cursor, keep =>
    if cursor < bounds.sharedRegionEnd.toNat then
      match map.regionAtOrAfter cursor with
      | none => some []
      | some region =>
        let mappedStart := max cursor (max region.start bounds.sharedRegionBase.toNat)
        if bounds.sharedRegionEnd.toNat ≤ mappedStart then some []
        else
          let mappedEnd := min region.stop bounds.sharedRegionEnd.toNat
          if mappedEnd ≤ mappedStart then
            rangesToRelease map bounds rounds (max (cursor + pageSize) region.stop) keep
          else
            let keep := keep.dropWhile fun range => range.stop ≤ mappedStart
            (rangesToRelease map bounds rounds mappedEnd keep).map
              (Range.gaps mappedEnd mappedStart keep ++ ·)
    else some []

def pageBase (address : Nat) : Nat := address / pageSize * pageSize

def pageRangeEnd (address size : Nat) : Nat := pageBase (address + size - 1) + pageSize

/-- What `unmap` does to the map of the address space. -/
def unmapPages (map : VmMap) (address size : Nat) : VmMap :=
  if size = 0 ∨ addressSpaceEnd < address + size then map
  else map.unmap (pageBase address) (pageRangeEnd address size)

structure Privatized where
  error : Word
  map : VmMap

/-- `shared_region_make_private_np`, with the number of rounds allowing for one at each address. -/
def sharedRegionMakePrivate (memory : GuestMemory) (map : VmMap) (bounds : DarwinAddressBounds)
    (rangeCount rangesAddress : Word) : Option Privatized :=
  match readSharedRegionRanges memory rangeCount rangesAddress bounds with
  | .error error => some { error, map }
  | .ok keep =>
    (rangesToRelease map bounds bounds.sharedRegionEnd.toNat bounds.sharedRegionBase.toNat keep).map
      fun release =>
        { error := 0
          map := release.foldl (fun map range => unmapPages map range.start (range.stop - range.start))
            map }

end ILEmu.Vm
