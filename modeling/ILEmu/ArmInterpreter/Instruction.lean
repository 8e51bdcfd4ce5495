import ILEmu.Arm.Instruction

/-! The decoded instructions of a guest, of every family, and the semantics of conditions, flags
and IT blocks that they share. -/
namespace ILEmu.ArmInterpreter
open Arm

/-- The operands of a family whose calculation on the extension registers is a parameter of the
model, as they are encoded. -/
abbrev Encoding := Word

structure VectorCoreMoveOperands where
  firstWord : Nat := 0
  bitOffset : Nat := 0
  elementBits : Nat := 32
  core : Register := 0
  core2 : Register := 0
  pair : Bool := false
  toCore : Bool := false
  signExtend : Bool := false
  deriving DecidableEq, Repr

structure FloatingSystemOperands where
  core : Register := 0
  toCore : Bool := false
  deriving DecidableEq, Repr

/-- The families, each with the operands that the source keeps in a variant beside the kind. -/
inductive InstructionKind where
  | unsupported | dataProcessing | multiply | transfer | exclusiveTransfer | swap
  | clearExclusive | multipleTransfer | branch | branchExchange | tableBranch | svc | breakpoint
  | ifThen | nop | compareBranch | wideImmediate | packHalfword | integerTransform
  | vectorDuplicate (operands : Encoding)
  | vectorBitwise (operands : Encoding)
  | vectorExtract (operands : Encoding)
  | vectorCoreMove (operands : VectorCoreMoveOperands)
  | floatingConversion (operands : Encoding)
  | floatingArithmetic (operands : Encoding)
  | floatingComparison (operands : Encoding)
  | floatingImmediate (operands : Encoding)
  | floatingSystem (operands : FloatingSystemOperands)
  | vectorTransfer (operands : VectorTransferOperands)
  | systemControl | dualTransfer
  | vectorImmediate (operands : Encoding)
  | parallelSaturating | integerDivide
  | vectorFloatingArithmetic (operands : Encoding)
  | parallelArithmetic | saturatingArithmetic
  | vectorIntegerArithmetic (operands : Encoding)
  | vectorReverse (operands : Encoding)
  | vectorShiftImmediate (operands : Encoding)
  | vectorFloatingConversion (operands : Encoding)
  deriving DecidableEq, Repr

inductive SystemOperation where
  | threadPointerReadWrite | threadPointerReadOnly | dataMemoryBarrier
  | dataSynchronizationBarrier | instructionSynchronizationBarrier | programStatusRegister
  deriving DecidableEq, Repr

structure Instruction where
  kind : InstructionKind := .unsupported
  condition : Nat := 14
  size : Nat := 4
  pcOffset : Word := 8
  alignPc : Bool := false
  exchange : Bool := false
  opcode : Nat := 0
  rd : Register := 0
  rn : Register := 0
  rm : Register := 0
  rs : Register := 0
  shift : ShiftKind := .lsl
  shiftAmount : Nat := 0
  immediate : Word := 0
  immediateOperand : Bool := false
  registerShift : Bool := false
  setFlags : Bool := false
  link : Bool := false
  accumulate : Bool := false
  registers : BitVec 16 := 0
  accessSize : AccessSize := .byte
  load : Bool := false
  signExtend : Bool := false
  add : Bool := true
  index : Bool := true
  writeback : Bool := false
  system : SystemOperation := .threadPointerReadWrite

/-- The transfer that an instruction makes, if it makes one. -/
def Instruction.transfer (inst : Instruction) : Arm.Instruction where
  kind :=
    match inst.kind with
    | .transfer => .transfer
    | .tableBranch => .tableBranch
    | .dualTransfer => .dualTransfer
    | .multipleTransfer => .multipleTransfer
    | .vectorTransfer _ => .vectorTransfer
    | _ => .unsupported
  condition := inst.condition
  size := inst.size
  pcOffset := inst.pcOffset
  alignPc := inst.alignPc
  rd := inst.rd
  rn := inst.rn
  rm := inst.rm
  rs := inst.rs
  shift := inst.shift
  shiftAmount := inst.shiftAmount
  immediate := inst.immediate
  immediateOperand := inst.immediateOperand
  registers := inst.registers
  accessSize := inst.accessSize
  load := inst.load
  signExtend := inst.signExtend
  add := inst.add
  index := inst.index
  writeback := inst.writeback
  vector := match inst.kind with | .vectorTransfer operands => operands | _ => {}

/-! ### Conditions -/

def negative (cpsr : Word) : Bool := cpsr.getLsbD 31
def zero (cpsr : Word) : Bool := cpsr.getLsbD 30
def carry (cpsr : Word) : Bool := cpsr.getLsbD 29
def overflow (cpsr : Word) : Bool := cpsr.getLsbD 28
def thumb (cpsr : Word) : Bool := cpsr.getLsbD 5

def conditionPassed (condition : Nat) (cpsr : Word) : Bool :=
  match condition with
  | 0 => zero cpsr
  | 1 => !zero cpsr
  | 2 => carry cpsr
  | 3 => !carry cpsr
  | 4 => negative cpsr
  | 5 => !negative cpsr
  | 6 => overflow cpsr
  | 7 => !overflow cpsr
  | 8 => carry cpsr && !zero cpsr
  | 9 => !carry cpsr || zero cpsr
  | 10 => negative cpsr == overflow cpsr
  | 11 => negative cpsr != overflow cpsr
  | 12 => !zero cpsr && negative cpsr == overflow cpsr
  | 13 => zero cpsr || negative cpsr != overflow cpsr
  | 14 => true
  | _ => false

/-! ### The state of an IT block -/

def itState (cpsr : Word) : Word := ((cpsr >>> 8) &&& (0xfc : Word)) ||| ((cpsr >>> 25) &&& (3 : Word))

def advanceIt (value : Word) : Word :=
  if value &&& 7 = 0 then 0 else (value &&& (0xe0 : Word)) ||| ((value <<< 1) &&& (0x1f : Word))

def withItState (cpsr value : Word) : Word :=
  (cpsr &&& ~~~(0x0600fc00 : Word)) ||| ((value &&& (0xfc : Word)) <<< 8) |||
    ((value &&& (3 : Word)) <<< 25)

/-! ### Arithmetic with flags -/

structure ArithmeticResult where
  value : Word
  carry : Bool
  overflow : Bool
  deriving DecidableEq, Repr

def addWithCarry (a b : Word) (carry : Bool) : ArithmeticResult where
  value := a + b + if carry then 1 else 0
  carry := decide (2 ^ 32 ≤ a.toNat + b.toNat + if carry then 1 else 0)
  overflow :=
    let value := a + b + if carry then 1 else 0
    ((a ^^^ value) &&& (b ^^^ value)).getLsbD 31

/-- A flag of the status is replaced. -/
def setFlag (cpsr : Word) (bit : Nat) (flag : Bool) : Word :=
  (cpsr &&& ~~~BitVec.twoPow 32 bit) ||| if flag then BitVec.twoPow 32 bit else 0

def setNz (cpsr value : Word) : Word :=
  (cpsr &&& (0x3fffffff : Word)) ||| (value &&& (0x80000000 : Word)) |||
    if value = 0 then (0x40000000 : Word) else 0

structure AluResult where
  value : Word
  cpsr : Word
  deriving DecidableEq, Repr

/-- The opcodes that compare. -/
def isTest (opcode : Nat) : Bool := decide (8 ≤ opcode) && decide (opcode ≤ 11)

/-- The sums and differences among the opcodes. -/
def arithmetic (opcode : Nat) (a b : Word) (carry : Bool) : Option ArithmeticResult :=
  match opcode with
  | 2 | 10 => some (addWithCarry a (~~~b) true)
  | 3 => some (addWithCarry b (~~~a) true)
  | 4 | 11 => some (addWithCarry a b false)
  | 5 => some (addWithCarry a b carry)
  | 6 => some (addWithCarry a (~~~b) carry)
  | 7 => some (addWithCarry b (~~~a) carry)
  | _ => none

def logical (opcode : Nat) (a b : Word) : Word :=
  match opcode with
  | 0 | 8 => a &&& b
  | 1 | 9 => a ^^^ b
  | 12 => a ||| b
  | 13 => b
  | 14 => a &&& ~~~b
  | 15 => ~~~b
  | 16 => a ||| ~~~b
  | _ => 0

def calculateAlu (opcode : Nat) (setFlags : Bool) (a : Word) (shifted : ShiftResult)
    (cpsr : Word) : AluResult :=
  match arithmetic opcode a shifted.value (carry cpsr) with
  | some sum =>
    { value := sum.value
      cpsr :=
        if setFlags then setFlag (setFlag (setNz cpsr sum.value) 29 sum.carry) 28 sum.overflow
        else cpsr }
  | none =>
    let value := logical opcode a shifted.value
    { value, cpsr := if setFlags then setFlag (setNz cpsr value) 29 shifted.carry else cpsr }

end ILEmu.ArmInterpreter
