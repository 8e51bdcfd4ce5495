import ILEmu.ArmMemory.Transfer

/-! Transfers of extension registers, element by element. -/
namespace ILEmu.ArmMemory
open Arm

structure VectorControl where
  first : Nat
  count : Nat
  elementSize : Nat
  rn : Register
  load : Bool
  writeback : Bool
  size : Nat
  mode : VectorTransferMode
  lane : Nat
  deriving DecidableEq, Repr

structure VectorTransfer where
  address : Word
  updatedBase : Word
  alignment : Word
  control : VectorControl
  deriving DecidableEq, Repr

def vectorTransferLength (operands : VectorTransferOperands) : Nat :=
  match operands.mode with
  | .scalarMultiple => operands.count * operands.elementSize
  | .multiple => operands.count * 8
  | .lane | .replicate => operands.elementSize

def vectorControl (inst : Instruction) : VectorControl where
  first := inst.vector.first
  count := inst.vector.count
  elementSize := inst.vector.elementSize
  rn := inst.rn
  load := inst.load
  writeback := inst.writeback
  size := inst.size
  mode := inst.vector.mode
  lane := inst.vector.lane

def prepareVector (state : CpuThreadState) (inst : Instruction) (permitsUnaligned : Bool) :
    VectorTransfer :=
  let base := readOperand state inst inst.rn
  if inst.vector.mode = .scalarMultiple then
    let updated := if inst.add then base + inst.immediate else base - inst.immediate
    { address := if inst.index then updated else base
      updatedBase := updated
      alignment := 4
      control := vectorControl inst }
  else
    let offset :=
      if inst.rm = 13 ∨ inst.rm = 15 then BitVec.ofNat 32 (vectorTransferLength inst.vector)
      else state.registers inst.rm
    let least := if permitsUnaligned then 1 else BitVec.ofNat 32 inst.vector.elementSize
    { address := base
      updatedBase := base + offset
      alignment := if inst.vector.alignment < least then least else inst.vector.alignment
      control := vectorControl inst }

/-- The elements in the order of their transfer: the register and the byte of its lane. -/
def vectorElements (control : VectorControl) : List (Nat × Nat) :=
  let size := control.elementSize
  match control.mode with
  | .multiple =>
    (List.range control.count).flatMap fun r =>
      (List.range ((8 + size - 1) / size)).map fun i => (r, i * size)
  | .lane => (List.range control.count).map fun r => (r, control.lane * size)
  | .replicate => ((List.range control.count).take 1).map fun r => (r, 0)
  | .scalarMultiple => (List.range control.count).map fun r => (r, 0)

/-- The accesses of an element, by their first bytes. An element of eight bytes takes two. -/
def elementParts (size : Nat) : List Nat := if size = 8 then [0, 4] else [0]

def partSize (size : Nat) : AccessSize :=
  if size = 1 then .byte else if size = 2 then .half else .word

/-- Where a part of an element stands in its value. -/
def partShift (size part : Nat) (big : Bool) : Nat :=
  (if big then size - part - (partSize size).bytes else part) * 8

def readElement (access : MemoryAccess) (memory : Memory) (address : Word) (size : Nat)
    (big : Bool) : List Nat → BitVec 64 → Except MemoryFault (BitVec 64)
  | [], value => .ok value
  | part :: rest, value =>
    let place := address + BitVec.ofNat 32 part
    match access.readFault place (partSize size) with
    | some fault => .error fault
    | none =>
      let data := endian (memory.value place (partSize size)) (partSize size) big
      readElement access memory address size big rest
        (value ||| (data.setWidth 64 <<< partShift size part big))

def writeElement (access : MemoryAccess) (address : Word) (size : Nat) (big : Bool)
    (value : BitVec 64) : List Nat → Memory → Memory × Option MemoryFault
  | [], memory => (memory, none)
  | part :: rest, memory =>
    let place := address + BitVec.ofNat 32 part
    let data := (value >>> partShift size part big).setWidth 32
    match access.writeFault place (partSize size) with
    | some fault => (memory, some fault)
    | none =>
      writeElement access address size big value rest
        (memory.store place (partSize size) (endian data (partSize size) big))

/-- The word of the extension registers in which a lane of a register lies. -/
def elementIndex (control : VectorControl) (register lane : Nat) : Nat :=
  (control.first + register) *
    (if control.mode = .scalarMultiple then control.elementSize / 4 else 2) + lane / 4

def elementShift (lane : Nat) : Nat := lane % 4 * 8

def elementMask (size : Nat) : Word :=
  if 4 ≤ size then BitVec.allOnes 32 else BitVec.twoPow 32 (size * 8) - 1

def elementValue (state : CpuThreadState) (control : VectorControl) (register lane : Nat) :
    BitVec 64 :=
  let index := elementIndex control register lane
  let low := (state.extensionRegisters index >>> elementShift lane).setWidth 64
  if control.elementSize = 8 then
    low ||| ((state.extensionRegisters (index + 1)).setWidth 64 <<< 32)
  else low

/-- The value in every lane of a register. -/
def replicated (size : Nat) (value : BitVec 64) : BitVec 64 :=
  let mask := BitVec.twoPow 64 (size * 8) - 1
  (List.range (64 / (size * 8))).foldl
    (fun all i => all ||| ((value &&& mask) <<< (i * (size * 8)))) 0

def commitElement (control : VectorControl) (register lane : Nat) (value : BitVec 64)
    (state : CpuThreadState) : CpuThreadState :=
  if control.mode = .replicate then
    let all := replicated control.elementSize value
    (List.range control.count).foldl (fun state i =>
      (state.setExtension ((control.first + i) * 2) (all.setWidth 32)).setExtension
        ((control.first + i) * 2 + 1) ((all >>> 32).setWidth 32)) state
  else
    let index := elementIndex control register lane
    let shift := elementShift lane
    let mask := elementMask control.elementSize
    let word := state.extensionRegisters index
    let state := state.setExtension index
      ((word &&& ~~~(mask <<< shift)) ||| ((value.setWidth 32 &&& mask) <<< shift))
    if control.elementSize = 8 then state.setExtension (index + 1) ((value >>> 32).setWidth 32)
    else state

def transferElements (access : MemoryAccess) (control : VectorControl) (big : Bool) :
    List (Nat × Nat) → Word → Machine → Machine × Option MemoryFault
  | [], _, machine => (machine, none)
  | (register, lane) :: rest, address, machine =>
    let next := address + BitVec.ofNat 32 control.elementSize
    let parts := elementParts control.elementSize
    if control.load then
      match readElement access machine.memory address control.elementSize big parts 0 with
      | .error fault => (machine, some fault)
      | .ok value =>
        transferElements access control big rest next
          { machine with state := commitElement control register lane value machine.state }
    else
      match writeElement access address control.elementSize big
          (elementValue machine.state control register lane) parts machine.memory with
      | (memory, some fault) => ({ machine with memory }, some fault)
      | (memory, none) => transferElements access control big rest next { machine with memory }

def completeVector (access : MemoryAccess) (machine : Machine) (transfer : VectorTransfer) :
    Machine × Completion :=
  let control := transfer.control
  if transfer.address &&& (transfer.alignment - 1) ≠ 0 then
    abort machine { address := transfer.address, status := alignmentStatus control.load }
  else
    match transferElements access control machine.state.bigEndian (vectorElements control)
        transfer.address machine with
    | (machine, some fault) => abort machine fault
    | (machine, none) =>
      let state :=
        if control.writeback then machine.state.setRegister control.rn transfer.updatedBase
        else machine.state
      ({ machine with state := state.advance control.size }, {})

end ILEmu.ArmMemory
