import ILEmu.Foundation.Words
import Mathlib.Data.BitVec
import Mathlib.Logic.Function.Basic
import Mathlib.Tactic.IntervalCases

/-! Decoded transfer instructions, and the state of a guest thread and of the memory that
they work on. -/
namespace ILEmu.Arm

abbrev Word := BitVec 32

abbrev Register := Fin 16

def programCounter : Register := 15

inductive InstructionKind where
  | unsupported | transfer | tableBranch | dualTransfer | multipleTransfer | vectorTransfer
  deriving DecidableEq, Repr

inductive ShiftKind where
  | lsl | lsr | asr | ror
  deriving DecidableEq, Repr

inductive AccessSize where
  | byte | half | word
  deriving DecidableEq, Repr

def AccessSize.bytes : AccessSize → Nat
  | .byte => 1
  | .half => 2
  | .word => 4

inductive VectorTransferMode where
  | multiple | lane | replicate | scalarMultiple
  deriving DecidableEq, Repr

structure VectorTransferOperands where
  first : Nat := 0
  count : Nat := 0
  elementSize : Nat := 0
  alignment : Word := 1
  mode : VectorTransferMode := .multiple
  lane : Nat := 0
  deriving DecidableEq, Repr

structure Instruction where
  kind : InstructionKind := .unsupported
  condition : Nat := 14
  size : Nat := 4
  pcOffset : Word := 8
  alignPc : Bool := false
  rd : Register := 0
  rn : Register := 0
  rm : Register := 0
  rs : Register := 0
  shift : ShiftKind := .lsl
  shiftAmount : Nat := 0
  immediate : Word := 0
  immediateOperand : Bool := false
  registers : BitVec 16 := 0
  accessSize : AccessSize := .byte
  load : Bool := false
  signExtend : Bool := false
  add : Bool := true
  index : Bool := true
  writeback : Bool := false
  vector : VectorTransferOperands := {}
  deriving DecidableEq, Repr

structure ShiftResult where
  value : Word
  carry : Bool
  deriving DecidableEq, Repr

def shift (value : Word) (kind : ShiftKind) (amount : Nat) (carry registerAmount : Bool) :
    ShiftResult :=
  if registerAmount && amount = 0 then { value, carry }
  else
    match kind with
    | .lsl =>
      if amount = 0 then { value, carry }
      else if amount < 32 then { value := value <<< amount, carry := value.getLsbD (32 - amount) }
      else { value := 0, carry := amount = 32 && value.getLsbD 0 }
    | .lsr =>
      let amount := if amount = 0 then 32 else amount
      if amount < 32 then { value := value >>> amount, carry := value.getLsbD (amount - 1) }
      else { value := 0, carry := amount = 32 && value.getLsbD 31 }
    | .asr =>
      let amount := if amount = 0 then 32 else amount
      let sign := value.getLsbD 31
      if 32 ≤ amount then { value := if sign then BitVec.allOnes 32 else 0, carry := sign }
      else
        { value := (value >>> amount) |||
            if sign then BitVec.allOnes 32 <<< (32 - amount) else 0
          carry := value.getLsbD (amount - 1) }
    | .ror =>
      if amount = 0 then
        { value := (value >>> 1) ||| if carry then BitVec.twoPow 32 31 else 0
          carry := value.getLsbD 0 }
      else
        let value := value.rotateRight (amount % 32)
        { value, carry := value.getLsbD 31 }

/-- The registers of a guest thread. -/
@[ext] structure CpuThreadState where
  registers : Register → Word
  extensionRegisters : Nat → Word := fun _ => 0
  cpsr : Word := 0

def CpuThreadState.bigEndian (state : CpuThreadState) : Bool := state.cpsr.getLsbD 9

def CpuThreadState.setRegister (state : CpuThreadState) (register : Register) (value : Word) :
    CpuThreadState :=
  { state with registers := Function.update state.registers register value }

def CpuThreadState.setExtension (state : CpuThreadState) (index : Nat) (value : Word) :
    CpuThreadState :=
  { state with extensionRegisters := Function.update state.extensionRegisters index value }

def CpuThreadState.advance (state : CpuThreadState) (size : Nat) : CpuThreadState :=
  state.setRegister programCounter (state.registers programCounter + BitVec.ofNat 32 size)

structure MemoryFault where
  address : Word
  status : Word
  deriving DecidableEq, Repr

abbrev Memory := Word → BitVec 8

namespace Memory
variable (memory : Memory) (address : Word)

/-- The little endian value of some bytes. -/
def value : AccessSize → Word
  | .byte => (memory address).setWidth 32
  | .half => (memory address).setWidth 32 ||| (memory (address + 1)).setWidth 32 <<< 8
  | .word =>
    (memory address).setWidth 32 ||| (memory (address + 1)).setWidth 32 <<< 8 |||
      (memory (address + 2)).setWidth 32 <<< 16 ||| (memory (address + 3)).setWidth 32 <<< 24

def store (size : AccessSize) (value : Word) : Memory := fun place =>
  let offset := (place - address).toNat
  if offset < size.bytes then (value >>> (8 * offset)).setWidth 8 else memory place

end Memory

/-- The accesses that fault; a fault leaves the memory as it was. -/
structure MemoryAccess where
  readFault : Word → AccessSize → Option MemoryFault
  writeFault : Word → AccessSize → Option MemoryFault

/-- No access faults. -/
def MemoryAccess.present : MemoryAccess where
  readFault := fun _ _ => none
  writeFault := fun _ _ => none

@[ext] structure Machine where
  state : CpuThreadState
  memory : Memory

inductive StopReason where
  | none | dataFault | unsupportedInstruction
  deriving DecidableEq, Repr

structure Completion where
  reason : StopReason := .none
  fault : Option MemoryFault := none
  deriving DecidableEq, Repr

/-- A data abort reports the fault, and does not retire the instruction. -/
def abort (machine : Machine) (fault : MemoryFault) : Machine × Completion :=
  (machine, { reason := .dataFault, fault := some fault })

/-- The bytes of a value in the other order. -/
def reverse (value : Word) : AccessSize → Word
  | .byte => value
  | .half => ((value &&& (255 : Word)) <<< 8) ||| ((value >>> 8) &&& (255 : Word))
  | .word =>
    ((value &&& (255 : Word)) <<< 24) ||| ((value &&& (0xff00 : Word)) <<< 8) |||
      ((value >>> 8) &&& (0xff00 : Word)) ||| (value >>> 24)

theorem reverse_reverse (value : Word) : reverse (reverse value .word) .word = value := by
  apply BitVec.eq_of_getLsbD_eq
  intro i inside
  simp only [reverse, BitVec.getLsbD_or, BitVec.getLsbD_and, BitVec.getLsbD_shiftLeft,
    BitVec.getLsbD_ushiftRight]
  interval_cases i <;> simp

def endian (value : Word) (size : AccessSize) (big : Bool) : Word :=
  if big then reverse value size else value

theorem endian_injective {big : Bool} {first second : Word}
    (same : endian first .word big = endian second .word big) : first = second := by
  cases big with
  | false => exact same
  | true =>
    have again : reverse (reverse first .word) .word = reverse (reverse second .word) .word :=
      congrArg (reverse · .word) same
    rwa [reverse_reverse, reverse_reverse] at again

end ILEmu.Arm
