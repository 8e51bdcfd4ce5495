import ILEmu.Foundation.Stretches
import Mathlib.Data.BitVec

/-! The map of guest memory: intervals of addresses with their permissions, the limit of
the permissions, and what a child process inherits. -/
namespace ILEmu
open Foundation

abbrev MemoryPermission := BitVec 8

namespace MemoryPermission

def none : MemoryPermission := BitVec.ofNat 8 0
def read : MemoryPermission := BitVec.ofNat 8 1
def write : MemoryPermission := BitVec.ofNat 8 2
def execute : MemoryPermission := BitVec.ofNat 8 4

end MemoryPermission

def hasPermission (value required : MemoryPermission) : Bool :=
  value &&& required = required

inductive VmInheritance where
  | share | copy | none
  deriving DecidableEq, Repr

structure VmMappingAttributes where
  maximumPermissions : MemoryPermission :=
    MemoryPermission.read ||| MemoryPermission.write ||| MemoryPermission.execute
  inheritance : VmInheritance := .copy
  deriving DecidableEq, Repr

/-- What a region holds besides its interval. -/
structure VmRegion where
  permissions : MemoryPermission := MemoryPermission.none
  inheritance : VmInheritance := .copy
  maximumPermissions : MemoryPermission :=
    MemoryPermission.read ||| MemoryPermission.write ||| MemoryPermission.execute
  deriving DecidableEq, Repr

/-- The regions in the order of their addresses. -/
structure VmMap where
  regions : List (Span VmRegion) := []
  deriving DecidableEq, Repr

inductive ProtectionError where
  | unmapped | protectionFailure
  deriving DecidableEq, Repr

/-- No error is `ProtectionError::None`. -/
structure ProtectionResult where
  error : Option ProtectionError := none
  executablePermissionsChanged : Bool := false
  deriving DecidableEq, Repr

def addressSpaceEnd : Nat := 2 ^ 32

def validRange (start stop : Nat) : Bool := start < stop && stop ≤ addressSpaceEnd

/-- What `protect` makes of a region. -/
def VmRegion.protect (region : VmRegion) (permissions : MemoryPermission)
    (setMaximum copy : Bool) : VmRegion :=
  let region :=
    if copy then
      { region with maximumPermissions := region.maximumPermissions ||| MemoryPermission.write }
    else region
  if setMaximum then
    { region with
      maximumPermissions := permissions
      permissions := region.permissions &&& permissions }
  else { region with permissions }

def VmRegion.executableChanged (region protected' : VmRegion) : Bool :=
  region.permissions ≠ protected'.permissions &&
    (hasPermission region.permissions MemoryPermission.execute ||
      hasPermission protected'.permissions MemoryPermission.execute)

/-- The check of `protect` before it changes anything. -/
def VmRegion.protectionFault (permissions : MemoryPermission) (copy : Bool) (region : VmRegion) :
    Option ProtectionError :=
  let maximum := region.maximumPermissions |||
    (if copy then MemoryPermission.write else MemoryPermission.none)
  if hasPermission maximum permissions then none else some .protectionFailure

namespace VmMap

def splitAt (map : VmMap) (point : Nat) : VmMap :=
  if point = 0 ∨ addressSpaceEnd ≤ point ∨ map.regions = [] then map
  else { regions := cutAt point map.regions }

def coalesce (map : VmMap) : VmMap := { regions := Foundation.coalesce map.regions }

/-- The loop of `map_or`, or nothing if it takes more rounds than that. -/
def fill (stop : Nat) (permissions : MemoryPermission) (attributes : VmMappingAttributes) :
    Nat → Nat → List (Span VmRegion) → Option (List (Span VmRegion))
  | 0, cursor, regions => if cursor < stop then none else some regions
  | rounds + 1, cursor, regions =>
    if cursor < stop then
      let created : VmRegion :=
        { permissions, inheritance := attributes.inheritance
          maximumPermissions := attributes.maximumPermissions }
      match lowerBound cursor regions with
      | (_, []) => fill stop permissions attributes rounds stop
          (emplace { start := cursor, stop, value := created } regions)
      | (before, region :: after) =>
        if cursor < region.start then
          let gapEnd := min stop region.start
          fill stop permissions attributes rounds gapEnd
            (emplace { start := cursor, stop := gapEnd, value := created } regions)
        else
          let joined := { region.value with permissions := region.value.permissions ||| permissions }
          fill stop permissions attributes rounds region.stop
            (before ++ { region with value := joined } :: after)
    else some regions

/-- The number of rounds allows for one at each address. -/
def mapOr (map : VmMap) (start stop : Nat) (permissions : MemoryPermission)
    (attributes : VmMappingAttributes) : Option VmMap :=
  if validRange start stop then
    (fill stop permissions attributes (stop - start) start
      ((map.splitAt start).splitAt stop).regions).map fun regions => coalesce { regions }
  else some map

def unmap (map : VmMap) (start stop : Nat) : VmMap :=
  if validRange start stop then
    coalesce { regions := eraseBetween start stop ((map.splitAt start).splitAt stop).regions }
  else map

def protect (map : VmMap) (start stop : Nat) (permissions : MemoryPermission)
    (setMaximum copy : Bool) : VmMap × ProtectionResult :=
  if validRange start stop then
    match walk stop .unmapped (VmRegion.protectionFault permissions copy) start
        (fromContaining start map.regions) with
    | some error => (map, { error := some error })
    | none =>
      let regions := ((map.splitAt start).splitAt stop).regions
      let changed := (lowerBound start regions).2.takeWhile (·.start < stop)
      (coalesce { regions := adjust start stop (·.protect permissions setMaximum copy) regions },
        { executablePermissionsChanged := changed.any fun region =>
            region.value.executableChanged (region.value.protect permissions setMaximum copy) })
  else (map, { error := some .unmapped })

def inherit (map : VmMap) (start stop : Nat) (inheritance : VmInheritance) : VmMap × Bool :=
  if validRange start stop then
    let regions := ((map.splitAt start).splitAt stop).regions
    (coalesce { regions := adjust start stop (fun region => { region with inheritance }) regions },
      true)
  else (map, false)

def accessible (map : VmMap) (start stop : Nat) (access : MemoryPermission) : Bool :=
  if validRange start stop then
    (walk stop () (fun region => if hasPermission region.permissions access then none else some ())
      start (fromContaining start map.regions)).isNone
  else false

def overlaps (map : VmMap) (start stop : Nat) : Bool :=
  if validRange start stop then
    match lowerBound start map.regions with
    | (before, after) =>
      if after.head?.any (·.start < stop) then true
      else before.getLast?.any (start < ·.stop)
  else false

def regionAtOrAfter (map : VmMap) (address : Nat) : Option (Span VmRegion) :=
  match (upperBound address map.regions).1.getLast?.filter (address < ·.stop) with
  | some containing => some containing
  | none => (lowerBound address map.regions).2.head?

def pageCount (map : VmMap) (pageSize : Nat) : Nat :=
  (map.regions.map fun region => (region.stop - region.start) / pageSize).sum

end VmMap

inductive VmOperation where
  | mapOr (start stop : Nat) (permissions : MemoryPermission) (attributes : VmMappingAttributes)
  | unmap (start stop : Nat)
  | protect (start stop : Nat) (permissions : MemoryPermission) (setMaximum copy : Bool)
  | inherit (start stop : Nat) (inheritance : VmInheritance)
  deriving DecidableEq, Repr

namespace VmMap

/-- The map after an operation; one that would not end leaves no state to go on from. -/
def after (map : VmMap) : VmOperation → VmMap
  | .mapOr start stop permissions attributes =>
    (map.mapOr start stop permissions attributes).getD map
  | .unmap start stop => map.unmap start stop
  | .protect start stop permissions setMaximum copy =>
    (map.protect start stop permissions setMaximum copy).1
  | .inherit start stop inheritance => (map.inherit start stop inheritance).1

end VmMap
end ILEmu
