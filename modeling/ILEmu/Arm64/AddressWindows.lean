import ILEmu.Arm64.AddressKeys

/-! Windows of addresses: the accesses of a cycle around one base that stay on its page, found while
the cycle is compiled, and the guard that is emitted for them. -/
namespace ILEmu.Arm64
open Arm hiding Instruction InstructionKind
open ArmMemory ArmInterpreter Foundation

/-- Bytes around a base that can all be on its page. -/
def fits (first finish : Int) : Bool :=
  decide (first < finish) && decide (finish - first ≤ 4096) &&
    decide (max 0 (-first) ≤ min 4095 (4096 - finish))

/-- The accesses of a cycle that are made under one key. -/
structure Access where
  key : Key
  first : Int := 0
  finish : Int := 0
  residue : Nat := 0
  valid : Bool := true
  adjusted : Bool := false
  window : Option Nat := none
  stride : Option Register := none
  firstCoefficient : Int := 0
  lastCoefficient : Int := 0
  uses : Nat := 0

/-- Keys of one base that are resolved together. -/
structure Window where
  base : Register
  alignment : Nat
  naturalAlignment : Nat
  residue : Nat
  load : Bool
  first : Int
  finish : Int
  keys : Nat := 0
  indexed : Bool := false
  adjusted : Bool := false
  enabled : Bool := false
  advance : Word := 0
  stride : Option Register := none
  firstCoefficient : Int := 0
  lastCoefficient : Int := 0
  strideAdvance : Word := 0
  uses : Nat := 0

/-- The larger one of the alignments of a window. -/
def Window.step (window : Window) : Nat := max window.alignment window.naturalAlignment

structure AddressWindows where
  /-- The bits that a register may have set. -/
  bits : Register → Option Word := fun _ => none
  displacements : AddressDisplacements := {}
  accesses : List Access := []
  windows : List Window := []
  cycleInstructions : Nat := 0

/-! ### Observation -/

/-- The largest index is aligned, and is not shifted out of the word. -/
def Key.indexFits (key : Key) (mask : Word) : Bool :=
  decide (key.offset = 0) &&
    (decide (key.shift ≠ .lsl) ||
      (decide (key.shiftAmount < 32) && decide (mask.toNat <<< key.shiftAmount ≤ 2 ^ 32 - 1))) &&
    decide ((Arm.shift mask key.shift key.shiftAmount false false).value &&&
      BitVec.ofNat 32 (key.stride - 1) = 0)

namespace Access

/-- Nothing has been recorded of the access. -/
def fresh (access : Access) : Bool := decide (access.finish = 0) && decide (access.first = 0)

/-- A stride is that of the other accesses, and counts whole alignments. -/
def admitsStride (access : Access) (key : Key) (index : Option Register) (coefficient : Int) :
    Bool :=
  match index with
  | none => true
  | some index => (access.stride.isNone || decide (access.stride = some index)) &&
      key.index.isNone && decide (coefficient.tmod key.stride = 0)

/-- The bounds with those of one more access in them. -/
def merge (access : Access) (low high coefficient : Int) (residue : Nat) : Access :=
  if access.fresh then
    { access with
      first := low
      finish := high
      firstCoefficient := coefficient
      lastCoefficient := coefficient
      residue }
  else
    { access with
      first := min access.first low
      finish := max access.finish high
      firstCoefficient := min access.firstCoefficient coefficient
      lastCoefficient := max access.lastCoefficient coefficient
      residue }

end Access

namespace AddressWindows

/-- The bounds of what the key adds to its base, and whether they are known. -/
def offsets (self : AddressWindows) (key : Key) (valid : Bool) : Bool × Int × Int :=
  let offset : Int := if key.add then key.offset.toNat else -key.offset.toNat
  match key.index with
  | none => (valid, offset, offset)
  | some index =>
    match self.bits index with
    | none => (false, offset, offset)
    | some mask =>
      if valid && key.indexFits mask then
        let shifted : Int := (Arm.shift mask key.shift key.shiftAmount false false).value.toNat
        if key.add then (true, 0, shifted) else (true, -shifted, 0)
      else (false, offset, offset)

/-- The access with one more use, at the displacement that its base has by now. -/
def record (self : AddressWindows) (inst : Instruction) (key : Key) (access : Access) : Access :=
  let displacement := self.displacements.values key.base
  let constant := (displacement.map fun known => known.constant.toInt).getD 0
  let coefficient := (displacement.map fun known => known.coefficient.toInt).getD 0
  let index := displacement.bind (·.index)
  let (known, low, high) := self.offsets key displacement.isSome
  let low := low + constant
  let high := high + (constant + key.size)
  let residue := (BitVec.ofInt 32 low &&& BitVec.ofNat 32 (key.stride - 1)).toNat
  let valid := known && access.admitsStride key index coefficient && fits low high &&
    (access.fresh || decide (access.residue = residue))
  let used :=
    { access with
      uses := access.uses + 1
      stride := index.or access.stride
      adjusted := access.adjusted || decide (constant ≠ 0) || decide (coefficient ≠ 0) ||
        inst.writeback }
  if access.valid && valid then used.merge low high coefficient residue
  else { used with valid := access.valid && valid }

/-- The bits that an instruction leaves to its destination. -/
def mask (inst : Instruction) : Option Word :=
  if inst.kind = .dataProcessing ∧ inst.condition = 14 ∧ inst.immediateOperand = true then
    if inst.opcode = 0 ∨ inst.opcode = 13 then some inst.immediate
    else if inst.opcode = 14 ∨ inst.opcode = 15 then some (~~~inst.immediate)
    else none
  else none

def observe (self : AddressWindows) (inst : Instruction) (key : Option Key) : AddressWindows :=
  let accesses :=
    match key with
    | some key =>
      if key.base.val < 15 ∧ key.pcBase = none then
        let accesses :=
          if self.accesses.any fun access => access.key = key then self.accesses
          else self.accesses ++ [{ key }]
        accesses.modify (accesses.findIdx fun access => access.key = key) (self.record inst key)
      else self.accesses
    | none => self.accesses
  { self with
    accesses
    bits := fun reg =>
      match mask inst with
      | some result =>
        if reg = inst.rd then some result
        else if reg ∈ writtenRegisters inst then none else self.bits reg
      | none => if reg ∈ writtenRegisters inst then none else self.bits reg
    displacements := self.displacements.observe inst }

/-- The windows once the instructions of a cycle, each with its place, have been observed. -/
def observeCycle (cycle : List (Instruction × Word)) : AddressWindows :=
  cycle.foldl (fun windows entry => windows.observe entry.1 (accessKey entry.1 entry.2)) {}

/-! ### The windows of the cycle -/

/-- What the access needs beside its own bounds: the base advances by whole steps, and a stride
stays as it is. -/
def admits (displacements : AddressDisplacements) (access : Access) (advance : Expression) : Bool :=
  let stride := advance.index.or access.stride
  let alignment := access.key.stride
  access.valid && decide (advance.constant.toInt.tmod alignment = 0) &&
    decide (advance.coefficient.toInt.tmod alignment = 0) &&
    !(access.stride.isSome && advance.index.isSome && access.stride ≠ advance.index) &&
    stride.all fun stride => displacements.invariant stride && access.key.index.isNone

def belongs (access : Access) (stride : Option Register) (window : Window) : Bool :=
  decide (window.base = access.key.base) && window.load == access.key.load &&
    decide (window.alignment = access.key.alignment) &&
    decide (window.naturalAlignment = access.key.naturalAlignment) &&
    decide (window.residue = access.residue) && decide (window.stride = stride)

def widen (modified : Bool) (access : Access) (window : Window) : Window :=
  { window with
    first := min window.first access.first
    finish := max window.finish access.finish
    firstCoefficient := min window.firstCoefficient access.firstCoefficient
    lastCoefficient := max window.lastCoefficient access.lastCoefficient
    keys := window.keys + 1
    uses := window.uses + access.uses
    indexed := window.indexed || access.key.index.isSome
    adjusted := window.adjusted || access.adjusted || modified }

/-- The access is put into a window, which is made for it if there is none. -/
def assign (displacements : AddressDisplacements) (windows : List Window) (access : Access) :
    List Window × Access :=
  match displacements.values access.key.base with
  | none => (windows, access)
  | some advance =>
    if admits displacements access advance then
      let stride := advance.index.or access.stride
      let windows :=
        if windows.any (belongs access stride) then windows
        else
          windows ++
            [{ base := access.key.base
               alignment := access.key.alignment
               naturalAlignment := access.key.naturalAlignment
               residue := access.residue
               load := access.key.load
               first := access.first
               finish := access.finish
               advance := advance.constant
               stride
               strideAdvance := advance.coefficient
               firstCoefficient := access.firstCoefficient
               lastCoefficient := access.lastCoefficient }]
      let found := windows.findIdx (belongs access stride)
      (windows.modify found (widen (displacements.modified access.key.base) access),
        { access with window := some found })
    else (windows, access)

def assignAll (displacements : AddressDisplacements) :
    List Window → List Access → List Window × List Access
  | windows, [] => (windows, [])
  | windows, access :: rest =>
    let (windows, access) := assign displacements windows access
    let (windows, rest) := assignAll displacements windows rest
    (windows, access :: rest)

def eligible (window : Window) : Bool :=
  !window.enabled && (decide (1 < window.keys) || window.indexed || window.adjusted) &&
    fits window.first window.finish

/-- The first eligible window with the most keys. -/
def best (windows : List Window) : Option (Window × Nat) :=
  windows.zipIdx.foldl (fun best candidate =>
    if eligible candidate.1 && best.all fun chosen => chosen.1.keys < candidate.1.keys then
      some candidate
    else best) none

def enable : Nat → List Window → List Window
  | 0, windows => windows
  | slots + 1, windows =>
    match best windows with
    | none => windows
    | some (_, place) =>
      enable slots (windows.modify place fun window => { window with enabled := true })

def finish (self : AddressWindows) (slots cycleInstructions : Nat) : AddressWindows :=
  let (windows, accesses) := assignAll self.displacements self.windows self.accesses
  { self with accesses, windows := enable slots windows, cycleInstructions }

/-- The bounds of a window over some copies of the cycle. -/
def expandWindow (copies : Nat) (window : Window) : Window :=
  if !window.enabled || (decide (window.advance = 0) && decide (window.strideAdvance = 0)) then
    window
  else if copies = 0 then { window with enabled := false }
  else
    let last := window.advance.toInt * (copies - 1 : Nat)
    let strideLast := window.strideAdvance.toInt * (copies - 1 : Nat)
    let first := window.first + min 0 last
    let finish := window.finish + max 0 last
    let firstCoefficient := window.firstCoefficient + min 0 strideLast
    let lastCoefficient := window.lastCoefficient + max 0 strideLast
    { window with
      first, finish, firstCoefficient, lastCoefficient
      enabled := fits first finish && decide (-2 ^ 31 ≤ firstCoefficient) &&
        decide (lastCoefficient ≤ 2 ^ 31 - 1) }

def expand (self : AddressWindows) (instructions : Nat) : AddressWindows :=
  if self.cycleInstructions = 0 ∨ instructions % self.cycleInstructions ≠ 0 then
    { self with windows := self.windows.map fun window => { window with enabled := false } }
  else
    { self with windows := self.windows.map (expandWindow (instructions / self.cycleInstructions)) }

def find (self : AddressWindows) (key : Key) : Option Nat :=
  match self.accesses.find? fun access => access.key = key with
  | some access => access.window.filter fun place => (self.windows[place]?).any (·.enabled)
  | none => none

end AddressWindows

/-! ### The guard -/

/-- `SMADDL`: the product of two signed words, added to a double word. -/
def smaddl (first second : Word) (addend : BitVec 64) : BitVec 64 :=
  addend + first.signExtend 64 * second.signExtend 64

/-- One end of a window is on the page, so that the branch to the fallback is not taken. -/
def bound (offset : BitVec 64) (stride : Word) (constant coefficient : Int) : Bool :=
  -- The unadjusted page offset is already within this page.
  if constant = 0 ∧ coefficient = 0 then true
  else
    let x16 :=
      if coefficient ≠ 0 then smaddl stride (BitVec.ofInt 32 coefficient) offset else offset
    let x16 :=
      if constant < 0 then x16 - BitVec.ofInt 64 (-constant)
      else if constant ≠ 0 then x16 + BitVec.ofInt 64 constant
      else x16
    x16 >>> 12 = 0

namespace Window

/-- The check of a window with a stride, by the sign of the stride. -/
def guardStride (window : Window) (base stride : Word) : Bool :=
  let offset := (base &&& 4095).setWidth 64
  if window.firstCoefficient = window.lastCoefficient then
    bound offset stride window.first window.firstCoefficient &&
      bound offset stride (window.finish - 1) window.lastCoefficient
  else if stride.getLsbD 31 then
    bound offset stride window.first window.lastCoefficient &&
      bound offset stride (window.finish - 1) window.firstCoefficient
  else
    bound offset stride window.first window.firstCoefficient &&
      bound offset stride (window.finish - 1) window.lastCoefficient

def guardPlain (window : Window) (base : Word) : Bool :=
  let w16 := base &&& 4095
  let w16 :=
    if window.first < 0 then w16 - BitVec.ofInt 32 (-window.first)
    else if window.first ≠ 0 then w16 + BitVec.ofInt 32 window.first
    else w16
  decide (w16 >>> 12 = 0) &&
    decide ((w16 + BitVec.ofInt 32 (window.finish - window.first - 1)) >>> 12 = 0)

def guard (window : Window) (registers : Register → Word) : Bool :=
  match window.stride with
  | some stride => window.guardStride (registers window.base) (registers stride)
  | none => window.guardPlain (registers window.base)

end Window

/-- The guard passes with these registers. Between groups only the windows that advance are
checked again. -/
def AddressWindows.guard (self : AddressWindows) (group : Bool) (registers : Register → Word) :
    Bool :=
  self.windows.all fun window =>
    !window.enabled ||
      (group && decide (window.advance = 0) && decide (window.strideAdvance = 0)) ||
      window.guard registers

end ILEmu.Arm64
