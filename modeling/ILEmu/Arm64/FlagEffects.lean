import ILEmu.ArmInterpreter.Instruction

/-! The NZCV dependencies of an instruction within an uninterrupted segment of a trace. -/
namespace ILEmu.Arm64
open Arm hiding Instruction InstructionKind
open ArmInterpreter

structure FlagEffects where
  read : Word := 0
  possibleWrite : Word := 0
  guaranteedWrite : Word := 0
  boundary : Bool := true
  deriving DecidableEq, Repr

namespace FlagEffects

def n : Word := 8
def z : Word := 4
def c : Word := 2
def v : Word := 1

def nzcv : Word := n ||| z ||| c ||| v

def conditionReads (condition : Nat) : Word :=
  match condition / 2 with
  | 0 => z
  | 1 => c
  | 2 => n
  | 3 => v
  | 4 => c ||| z
  | 5 => n ||| v
  | 6 => n ||| v ||| z
  | _ => 0

/-- The opcodes whose flags are those of a sum or a difference. -/
def isArithmetic (opcode : Nat) : Bool :=
  (decide (2 ≤ opcode) && decide (opcode ≤ 7)) || opcode == 10 || opcode == 11

/-- A rotation by no distance is one through the carry. -/
def readsCarry (inst : Instruction) : Bool :=
  (decide (5 ≤ inst.opcode) && decide (inst.opcode ≤ 7)) ||
    (!inst.immediateOperand && !inst.registerShift && inst.shift == .ror &&
      inst.shiftAmount == 0)

def carryChanges (inst : Instruction) : Bool :=
  if inst.immediateOperand then inst.shiftAmount != 0
  else inst.registerShift || inst.shift != .lsl || inst.shiftAmount != 0

/-- The flags that an instruction may change and the ones that it changes in every case. -/
def dataProcessingWrites (inst : Instruction) : Word × Word :=
  if !inst.setFlags then (0, 0)
  else if isArithmetic inst.opcode then (nzcv, nzcv)
  else if carryChanges inst then
    (n ||| z ||| c, if inst.registerShift then n ||| z else n ||| z ||| c)
  else (n ||| z, n ||| z)

end FlagEffects

open FlagEffects

/-- What the switch over the kinds decides: the reads and writes past which a proof may go on, or
that it may not. -/
def FlagEffects.switch (read : Word) (inst : Instruction) : Option FlagEffects :=
  match inst.kind with
  | .dataProcessing =>
    if !isTest inst.opcode && decide (inst.rd = 15) then none
    else
      some
        { read := if readsCarry inst then read ||| c else read
          possibleWrite := (dataProcessingWrites inst).1
          guaranteedWrite := (dataProcessingWrites inst).2 }
  | .multiply =>
    if inst.setFlags then some { read, possibleWrite := n ||| z, guaranteedWrite := n ||| z }
    else some { read }
  | .floatingSystem operands =>
    if operands.toCore && decide (operands.core = 15) then
      some { read, possibleWrite := nzcv, guaranteedWrite := nzcv }
    else some { read }
  | .systemControl =>
    if inst.system != .programStatusRegister || (!inst.load && inst.opcode &&& 2 != 0) then none
    else if inst.load then some { read := read ||| nzcv }
    else if inst.opcode &&& 8 != 0 then
      some { read, possibleWrite := nzcv, guaranteedWrite := nzcv }
    else some { read }
  | .ifThen | .nop | .wideImmediate | .packHalfword | .integerTransform | .integerDivide
  | .parallelSaturating | .parallelArithmetic | .saturatingArithmetic | .vectorDuplicate _
  | .vectorIntegerArithmetic _ | .vectorBitwise _ | .vectorShiftImmediate _ | .vectorReverse _
  | .vectorExtract _ | .vectorImmediate _ | .vectorCoreMove _ => some { read }
  | _ => none

def flagEffects (inst : Instruction) : FlagEffects :=
  let read := conditionReads inst.condition
  if inst.condition = 15 then { read }
  else
    match FlagEffects.switch read inst with
    | none =>
      -- The reads that an early return has collected stay, the boundary ends every proof.
      { read }
    | some effects =>
      { effects with
        guaranteedWrite := if inst.condition = 14 then effects.guaranteedWrite else 0
        boundary := false }

end ILEmu.Arm64
