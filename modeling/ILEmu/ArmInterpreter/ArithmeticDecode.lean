import ILEmu.Arm.DualTransfer
import ILEmu.ArmInterpreter.Arithmetic

/-! Decoding of products, of saturating arithmetic and of the arithmetic of lanes. A decoder finds
that a word is of another family, that it is of its own but not supported, or an instruction. -/
namespace ILEmu.ArmInterpreter
open Arm

inductive ArmInstructionProfile where
  | armv6 | armv6T2 | armv6K
  deriving DecidableEq, Repr

def hasArmv6T2Extensions (profile : ArmInstructionProfile) : Bool := profile = .armv6T2

/-! ### Products -/

def MultiplyOperation.opcode : MultiplyOperation → Nat
  | .word => 0
  | .subtract => 1
  | .long => 2
  | .dualAccumulateLong => 3
  | .high => 4
  | .highSubtract => 5
  | .halfword => 6
  | .wordHalfword => 7
  | .halfwordLong => 8
  | .dualHalfword => 9
  | .dualHalfwordSubtract => 10
  | .dualHalfwordLong => 11
  | .dualHalfwordLongSubtract => 12

/-- The bits that select halves, the first in the lowest place. -/
def halfSelection (first second : Bool) : Nat := first.toNat + 2 * second.toNat

/-- The parts of an encoding that are not the registers of its factors. An operation that can do
without an addend accumulates if it names one. -/
structure MultiplyEncoding where
  operation : MultiplyOperation
  rd : Register
  rn : Register := 0
  accumulate : Bool := false
  flags : Bool := false
  sign : Bool := false
  shiftAmount : Option Nat := none
  exchange : Option Bool := none
  reserved : Bool := false

def addend (register : Register) : Register := if register = programCounter then 0 else register

def thumbMultiplyEncoding (word : Word) : Option MultiplyEncoding :=
  let encoding := word &&& 0xfff000f0
  let rd := registerAt word 8
  let rn := registerAt word 12
  let accumulate := !decide (rn = programCounter)
  if encoding = 0xfb000000 then some { operation := .word, rd, rn := addend rn, accumulate }
  else if encoding = 0xfb000010 then
    some { operation := .subtract, rd, rn, reserved := decide (rn = programCounter) }
  else if encoding ∈ [0xfb100000, 0xfb100010, 0xfb100020, 0xfb100030] then
    some { operation := .halfword, rd, rn := addend rn, accumulate, sign := true
           shiftAmount := some (halfSelection (word.getLsbD 5) (word.getLsbD 4)) }
  else if encoding ∈ [0xfb200000, 0xfb200010, 0xfb400000, 0xfb400010] then
    some { operation :=
             if word &&& 0x00f00000 = 0x00400000 then .dualHalfwordSubtract else .dualHalfword
           rd, rn := addend rn, accumulate, sign := true, exchange := some (word.getLsbD 4) }
  else if encoding ∈ [0xfbc000c0, 0xfbc000d0, 0xfbd000c0, 0xfbd000d0] then
    some { operation := if word &&& 0x00f00000 = 0x00d00000 then .dualHalfwordLongSubtract
             else .dualHalfwordLong
           rd := rn, rn := rd, accumulate := true, sign := true, exchange := some (word.getLsbD 4) }
  else if encoding ∈ [0xfb300000, 0xfb300010] then
    some { operation := .wordHalfword, rd, rn := addend rn, accumulate, sign := true
           shiftAmount := some (halfSelection false (word.getLsbD 4)) }
  else if encoding ∈ [0xfbc00080, 0xfbc00090, 0xfbc000a0, 0xfbc000b0] then
    some { operation := .halfwordLong, rd := rn, rn := rd, accumulate := true, sign := true
           shiftAmount := some (halfSelection (word.getLsbD 5) (word.getLsbD 4)) }
  else if encoding = 0xfb800000 then some { operation := .long, rd := rn, rn := rd, sign := true }
  else if encoding = 0xfba00000 then some { operation := .long, rd := rn, rn := rd }
  else if encoding = 0xfbc00000 then
    some { operation := .long, rd := rn, rn := rd, accumulate := true, sign := true }
  else if encoding = 0xfbe00000 then
    some { operation := .long, rd := rn, rn := rd, accumulate := true }
  else if encoding = 0xfbe00060 then
    some { operation := .dualAccumulateLong, rd := rn, rn := rd }
  else if encoding ∈ [0xfb500000, 0xfb500010] then
    some { operation := .high, rd, rn := addend rn, accumulate, sign := true
           shiftAmount := some (word.getLsbD 4).toNat }
  else if encoding ∈ [0xfb600000, 0xfb600010] then
    some { operation := .highSubtract, rd, rn, accumulate := true, sign := true
           shiftAmount := some (word.getLsbD 4).toNat }
  else none

/-- The multiplications that have been there first, and those with a long result. -/
def armPlainEncoding (word : Word) (profile : ArmInstructionProfile) : MultiplyEncoding :=
  let op := (word.extractLsb' 20 4).toNat
  let middle := registerAt word 16
  let low := registerAt word 12
  let accumulate := op.testBit 1
  let flags := op.testBit 0
  if op < 4 then
    { operation := .word, rd := middle, rn := low, accumulate, flags
      reserved := !accumulate && !decide (low = 0) }
  else if op = 6 then
    { operation := .subtract, rd := middle, rn := low, reserved := !hasArmv6T2Extensions profile }
  else if op = 4 then { operation := .dualAccumulateLong, rd := low, rn := middle }
  else
    { operation := .long, rd := low, rn := middle, accumulate := decide (8 ≤ op) && accumulate
      flags := decide (8 ≤ op) && flags, sign := decide (8 ≤ op) && op.testBit 2
      reserved := decide (op = 5 ∨ op = 7) }

def armMultiplyEncoding (word : Word) (profile : ArmInstructionProfile) :
    Option MultiplyEncoding :=
  let middle := registerAt word 16
  let low := registerAt word 12
  let accumulate := !decide (low = programCounter)
  let halves := halfSelection (word.getLsbD 5) (word.getLsbD 6)
  if word &&& 0x0ff00090 = 0x07000010 then
    some { operation := if word.getLsbD 6 then .dualHalfwordSubtract else .dualHalfword
           rd := middle, rn := addend low, accumulate, sign := true, exchange := some (word.getLsbD 5) }
  else if word &&& 0x0ff00090 = 0x07400010 then
    some { operation := if word.getLsbD 6 then .dualHalfwordLongSubtract else .dualHalfwordLong
           rd := low, rn := middle, accumulate := true, sign := true
           exchange := some (word.getLsbD 5) }
  else if word &&& 0x0ff0f090 = 0x01600080 then
    some { operation := .halfword, rd := middle, sign := true, shiftAmount := some halves }
  else if word &&& 0x0ff00090 = 0x01000080 then
    some { operation := .halfword, rd := middle, rn := low, accumulate := true, sign := true
           shiftAmount := some halves }
  else if word &&& 0x0ff00090 = 0x01400080 then
    some { operation := .halfwordLong, rd := low, rn := middle, accumulate := true, sign := true
           shiftAmount := some halves }
  else if word &&& 0x0ff00090 = 0x01200080 then
    let accumulate := !word.getLsbD 5
    some { operation := .wordHalfword, rd := middle, rn := low, accumulate, sign := true
           shiftAmount := some (halfSelection false (word.getLsbD 6))
           reserved := !accumulate && !decide (low = 0) }
  else if word &&& 0x0ff000d0 = 0x07500010 then
    some { operation := .high, rd := middle, rn := addend low, accumulate, sign := true
           shiftAmount := some (word.getLsbD 5).toNat }
  else if word &&& 0x0ff000d0 = 0x075000d0 then
    some { operation := .highSubtract, rd := middle, rn := low, accumulate := true, sign := true
           shiftAmount := some (word.getLsbD 5).toNat }
  else if word &&& 0x0f0000f0 = 0x00000090 then some (armPlainEncoding word profile)
  else none

/-- An encoding that names the program counter is not supported, nor one whose two results are
the same register. -/
def finishMultiply (out : Instruction) (encoding : MultiplyEncoding) (rm rs : Register) :
    Option Instruction :=
  if encoding.reserved = true ∨ encoding.rd = programCounter ∨ encoding.rn = programCounter ∨
      rm = programCounter ∨ rs = programCounter ∨
      (encoding.operation.writesPair = true ∧ encoding.rd = encoding.rn) then none
  else
    some { out with
      kind := .multiply, opcode := encoding.operation.opcode
      rd := encoding.rd, rn := encoding.rn, rm, rs
      accumulate := encoding.accumulate, setFlags := encoding.flags, signExtend := encoding.sign
      shiftAmount := encoding.shiftAmount.getD out.shiftAmount
      exchange := encoding.exchange.getD out.exchange }

def decodeMultiply (out : Instruction) (word : Word) (thumb : Bool)
    (profile : ArmInstructionProfile) (inItBlock : Bool) : Option (Option Instruction) :=
  if thumb = true ∧ word.toNat ≤ 0xffff then
    if word &&& 0xffc0 ≠ 0x4340 then none
    else
      let rd : Register := (word.extractLsb' 0 3).toFin.castLE (by decide)
      let rs : Register := (word.extractLsb' 3 3).toFin.castLE (by decide)
      some (finishMultiply out { operation := .word, rd, flags := !inItBlock } rd rs)
  else if thumb = true then
    (thumbMultiplyEncoding word).map fun encoding =>
      let rm := registerAt word 16
      let rs := registerAt word 0
      if hasArmv6T2Extensions profile = false ∨ encoding.rd = stackPointer ∨
          encoding.rn = stackPointer ∨ rm = stackPointer ∨ rs = stackPointer then none
      else finishMultiply out encoding rm rs
  else
    match armMultiplyEncoding word profile with
    | none => none
    | some encoding =>
      if out.condition = 15 then none
      else some (finishMultiply out encoding (registerAt word 0) (registerAt word 8))

/-! ### Saturation -/

def SaturatingOperation.opcode : SaturatingOperation → Nat
  | .signed => 0
  | .unsigned => 1
  | .signedHalfwords => 2
  | .unsignedHalfwords => 3
  | .add => 4
  | .subtract => 5
  | .doubleAdd => 6
  | .doubleSubtract => 7

structure SaturatingEncoding where
  operation : SaturatingOperation
  first : Register
  second : Register := 0
  destination : Register
  immediate : Option Word := none
  shift : Option (ShiftKind × Nat) := none

/-- A signed width is encoded less one. -/
def saturationWidth (encoded : Nat) (unsigned : Bool) : Word :=
  BitVec.ofNat 32 (encoded + (!unsigned).toNat)

def thumbSaturatingEncoding (word : Word) : Option SaturatingEncoding :=
  let unsigned := word.getLsbD 23
  let destination := registerAt word 8
  if word &&& 0xfff0f0c0 = 0xfa80f080 then
    some { operation := match (word.extractLsb' 4 2).toNat with
             | 0 => .add
             | 1 => .doubleAdd
             | 2 => .subtract
             | _ => .doubleSubtract
           first := registerAt word 0, second := registerAt word 16, destination }
  else if word &&& 0xff70f0f0 = 0xf3200000 then
    some { operation := if unsigned then .unsignedHalfwords else .signedHalfwords
           first := registerAt word 16, destination
           immediate := some (saturationWidth (word.extractLsb' 0 4).toNat unsigned) }
  else if word &&& 0xff508020 = 0xf3000000 then
    some { operation := if unsigned then .unsigned else .signed
           first := registerAt word 16, destination
           immediate := some (saturationWidth (word.extractLsb' 0 5).toNat unsigned)
           shift := some (if word.getLsbD 21 then .asr else .lsl,
             4 * (word.extractLsb' 12 3).toNat + (word.extractLsb' 6 2).toNat) }
  else none

def armSaturatingEncoding (word : Word) : Option SaturatingEncoding :=
  let unsigned := word.getLsbD 22
  let first := registerAt word 0
  let destination := registerAt word 12
  if word &&& 0x0f900ff0 = 0x01000050 then
    some { operation := match (word.extractLsb' 21 2).toNat with
             | 0 => .add
             | 1 => .subtract
             | 2 => .doubleAdd
             | _ => .doubleSubtract
           first, second := registerAt word 16, destination }
  else if word &&& 0x0fb00ff0 = 0x06a00f30 then
    some { operation := if unsigned then .unsignedHalfwords else .signedHalfwords
           first, destination
           immediate := some (saturationWidth (word.extractLsb' 16 4).toNat unsigned) }
  else if word &&& 0x0fa00030 = 0x06a00010 then
    some { operation := if unsigned then .unsigned else .signed
           first, destination
           immediate := some (saturationWidth (word.extractLsb' 16 5).toNat unsigned)
           shift := some (if word.getLsbD 6 then .asr else .lsl, (word.extractLsb' 7 5).toNat) }
  else none

def finishSaturating (out : Instruction) (encoding : SaturatingEncoding) : Option Instruction :=
  if encoding.first = programCounter ∨ encoding.second = programCounter ∨
      encoding.destination = programCounter then none
  else
    some { out with
      kind := .saturatingArithmetic, opcode := encoding.operation.opcode
      rn := encoding.first, rm := encoding.second, rd := encoding.destination
      immediate := encoding.immediate.getD out.immediate
      shift := (encoding.shift.map (·.1)).getD out.shift
      shiftAmount := (encoding.shift.map (·.2)).getD out.shiftAmount }

def decodeSaturatingArithmetic (out : Instruction) (word : Word) (thumb : Bool)
    (profile : ArmInstructionProfile) : Option (Option Instruction) :=
  if thumb = true then
    (thumbSaturatingEncoding word).map fun encoding =>
      -- An arithmetic shift by nothing would be the parallel family.
      if encoding.shift = some (.asr, 0) then none
      else if hasArmv6T2Extensions profile = false ∨ encoding.first = stackPointer ∨
          encoding.second = stackPointer ∨ encoding.destination = stackPointer then none
      else finishSaturating out encoding
  else if out.condition = 15 then none
  else (armSaturatingEncoding word).map (finishSaturating out)

/-! ### Lanes -/

inductive ParallelArithmeticOperation where
  | add16 | addSubtract | subtractAdd | subtract16 | add8 | subtract8 | select
  deriving DecidableEq, Repr

def ParallelArithmeticOperation.opcode : ParallelArithmeticOperation → Nat
  | .add16 => 0
  | .addSubtract => 1
  | .subtractAdd => 2
  | .subtract16 => 3
  | .add8 => 4
  | .subtract8 => 5
  | .select => 6

/-- The operation, nothing where it is reserved, and whether its lanes are signed. -/
def thumbParallelEncoding (word : Word) : Option (Option ParallelArithmeticOperation × Bool) :=
  if word &&& 0xfff0f0f0 = 0xfaa0f080 then some (some .select, false)
  else if word &&& 0xff80f0b0 ≠ 0xfa80f000 then none
  else
    let operation := match (word.extractLsb' 20 3).toNat with
      | 0 => some .add8
      | 1 => some .add16
      | 2 => some .addSubtract
      | 4 => some .subtract8
      | 5 => some .subtract16
      | 6 => some .subtractAdd
      | _ => none
    some (operation, !word.getLsbD 6)

def armParallelEncoding (word : Word) : Option (Option ParallelArithmeticOperation × Bool) :=
  if word &&& 0x0ff00ff0 = 0x06800fb0 then some (some .select, false)
  else if word &&& 0x0fb00f10 ≠ 0x06100f10 then none
  else
    let operation := match (word.extractLsb' 5 3).toNat with
      | 0 => some .add16
      | 1 => some .addSubtract
      | 2 => some .subtractAdd
      | 3 => some .subtract16
      | 4 => some .add8
      | 7 => some .subtract8
      | _ => none
    some (operation, !word.getLsbD 22)

def finishParallel (out : Instruction) (operation : Option ParallelArithmeticOperation)
    (signed : Bool) (rd rn rm : Register) : Option Instruction :=
  match operation with
  | none => none
  | some operation =>
    if rn = programCounter ∨ rd = programCounter ∨ rm = programCounter then none
    else
      some { out with
        kind := .parallelArithmetic, opcode := operation.opcode, signExtend := signed
        rd, rn, rm }

def decodeParallelArithmetic (out : Instruction) (word : Word) (thumb : Bool)
    (profile : ArmInstructionProfile) : Option (Option Instruction) :=
  let rn := registerAt word 16
  let rm := registerAt word 0
  if thumb = true then
    (thumbParallelEncoding word).map fun (operation, signed) =>
      let rd := registerAt word 8
      if hasArmv6T2Extensions profile = false ∨ rn = stackPointer ∨ rd = stackPointer ∨
          rm = stackPointer then none
      else finishParallel out operation signed rd rn rm
  else if out.condition = 15 then none
  else
    (armParallelEncoding word).map fun (operation, signed) =>
      finishParallel out operation signed (registerAt word 12) rn rm

end ILEmu.ArmInterpreter
