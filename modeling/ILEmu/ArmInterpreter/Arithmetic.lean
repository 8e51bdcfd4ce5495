import ILEmu.ArmInterpreter.Instruction

/-! The arithmetic of the families other than data processing: products, saturation, lanes,
division and the transforms of one word. -/
namespace ILEmu.ArmInterpreter
open Arm

/-! ### Products -/

inductive MultiplyOperation where
  | word | subtract | long | dualAccumulateLong | high | highSubtract | halfword | wordHalfword
  | halfwordLong | dualHalfword | dualHalfwordSubtract | dualHalfwordLong
  | dualHalfwordLongSubtract
  deriving DecidableEq, Repr

/-- The operation that an opcode names. -/
def multiplyOperation : Nat → MultiplyOperation
  | 0 => .word
  | 1 => .subtract
  | 2 => .long
  | 3 => .dualAccumulateLong
  | 4 => .high
  | 5 => .highSubtract
  | 6 => .halfword
  | 7 => .wordHalfword
  | 8 => .halfwordLong
  | 9 => .dualHalfword
  | 10 => .dualHalfwordSubtract
  | 11 => .dualHalfwordLong
  | _ => .dualHalfwordLongSubtract

def MultiplyOperation.writesPair : MultiplyOperation → Bool
  | .long | .dualAccumulateLong | .halfwordLong | .dualHalfwordLong
  | .dualHalfwordLongSubtract => true
  | _ => false

def multiplyWritesPair (inst : Instruction) : Bool := (multiplyOperation inst.opcode).writesPair

structure MultiplyResult where
  value : BitVec 64
  cpsr : Word
  deriving DecidableEq, Repr

/-- One of the halves of a word, as a signed number. -/
def half (value : Word) (upper : Bool) : Int :=
  (value.extractLsb' (if upper then 16 else 0) 16).toInt

/-- The two words of an accumulator. -/
def accumulator (high low : Word) : BitVec 64 := (high.setWidth 64 <<< 32) ||| low.setWidth 64

def multiplyQ (cpsr : Word) (wideSum : BitVec 64) : Word :=
  if wideSum.toInt < -2 ^ 31 ∨ 2 ^ 31 - 1 < wideSum.toInt then cpsr ||| BitVec.twoPow 32 27
  else cpsr

def multiplyNz (inst : Instruction) (cpsr : Word) (value : BitVec 64) : Word :=
  let top : Word := (if multiplyWritesPair inst then value >>> 32 else value).setWidth 32
  (cpsr &&& (0x3fffffff : Word)) ||| (top &&& (0x80000000 : Word)) |||
    if value = 0 then (0x40000000 : Word) else 0

/-- Nothing for an operation on other than two halfwords of each word. -/
def dualHalfwordMultiply (inst : Instruction) (first second low high cpsr : Word) :
    Option MultiplyResult :=
  let second := if inst.exchange then second.rotateLeft 16 else second
  let firstProduct := half first false * half second false
  let secondProduct := half first true * half second true
  let long (product : Int) : MultiplyResult :=
    { value := BitVec.ofInt 64 product + accumulator high low, cpsr }
  let single (product : Int) : MultiplyResult :=
    let sum := BitVec.ofInt 64 (product + if inst.accumulate then high.toInt else 0)
    { value := (sum.setWidth 32).setWidth 64, cpsr := multiplyQ cpsr sum }
  match multiplyOperation inst.opcode with
  | .dualHalfword => some (single (firstProduct + secondProduct))
  | .dualHalfwordSubtract => some (single (firstProduct - secondProduct))
  | .dualHalfwordLong => some (long (firstProduct + secondProduct))
  | .dualHalfwordLongSubtract => some (long (firstProduct - secondProduct))
  | _ => none

def multiply (inst : Instruction) (first second low high : Word) : BitVec 64 :=
  let product : BitVec 64 :=
    if inst.signExtend then BitVec.ofInt 64 (first.toInt * second.toInt)
    else first.setWidth 64 * second.setWidth 64
  let narrow (value : BitVec 64) : BitVec 64 := (value.setWidth 32).setWidth 64
  let halves : Int :=
    half first (inst.shiftAmount.testBit 0) * half second (inst.shiftAmount.testBit 1)
  match multiplyOperation inst.opcode with
  | .wordHalfword =>
    BitVec.ofInt 64 (first.toInt * half second (inst.shiftAmount.testBit 1) / 2 ^ 16 +
      if inst.accumulate then high.toInt else 0)
  | .halfwordLong => BitVec.ofInt 64 halves + accumulator high low
  | .halfword =>
    if inst.accumulate then BitVec.ofInt 64 (halves + high.toInt)
    else narrow (BitVec.ofInt 64 halves)
  | .word => narrow (product + if inst.accumulate then high.setWidth 64 else 0)
  | .subtract => narrow (high.setWidth 64 - product)
  | .long => product + if inst.accumulate then accumulator high low else 0
  | .dualAccumulateLong => product + low.setWidth 64 + high.setWidth 64
  | .high =>
    (((if inst.accumulate then high.setWidth 64 <<< 32 else 0) + product +
      if inst.shiftAmount ≠ 0 then (0x80000000 : BitVec 64) else 0) >>> 32)
  | .highSubtract =>
    (((if inst.accumulate then high.setWidth 64 <<< 32 else 0) - product +
      if inst.shiftAmount ≠ 0 then (0x80000000 : BitVec 64) else 0) >>> 32)
  | .dualHalfword | .dualHalfwordSubtract | .dualHalfwordLong | .dualHalfwordLongSubtract => 0

def calculateMultiply (inst : Instruction) (first second low high cpsr : Word) :
    MultiplyResult :=
  match dualHalfwordMultiply inst first second low high cpsr with
  | some result => result
  | none =>
    let value := multiply inst first second low high
    let operation := multiplyOperation inst.opcode
    { value
      cpsr :=
        if inst.setFlags then multiplyNz inst cpsr value
        else if inst.accumulate && (operation = .halfword || operation = .wordHalfword) then
          multiplyQ cpsr value
        else cpsr }

/-! ### Saturation -/

inductive SaturatingOperation where
  | signed | unsigned | signedHalfwords | unsignedHalfwords | add | subtract | doubleAdd
  | doubleSubtract
  deriving DecidableEq, Repr

def saturatingOperation : Nat → SaturatingOperation
  | 0 => .signed
  | 1 => .unsigned
  | 2 => .signedHalfwords
  | 3 => .unsignedHalfwords
  | 4 => .add
  | 5 => .subtract
  | 6 => .doubleAdd
  | _ => .doubleSubtract

/-- A value moved into its range, and the status with Q set if it had to be moved. -/
def saturate (value : Int) (bits : Nat) (signed : Bool) (cpsr : Word) : Int × Word :=
  let minimum : Int := if signed then -2 ^ (bits - 1) else 0
  let maximum : Int := 2 ^ (if signed then bits - 1 else bits) - 1
  let clamped := max minimum (min maximum value)
  (clamped, if clamped ≠ value then cpsr ||| BitVec.twoPow 32 27 else cpsr)

def saturatingArithmetic (inst : Instruction) (first second cpsr : Word) : AluResult :=
  let bits := inst.immediate.toNat
  let operation := saturatingOperation inst.opcode
  match operation with
  | .signed | .unsigned =>
    let operand := (shift first inst.shift inst.shiftAmount false false).value
    let (value, cpsr) := saturate operand.toInt bits (operation = .signed) cpsr
    { value := BitVec.ofInt 32 value, cpsr }
  | .signedHalfwords | .unsignedHalfwords =>
    let (low, cpsr) := saturate (half first false) bits (operation = .signedHalfwords) cpsr
    let (high, cpsr) := saturate (half first true) bits (operation = .signedHalfwords) cpsr
    { value := (BitVec.ofInt 32 low &&& (0xffff : Word)) |||
        ((BitVec.ofInt 32 high &&& (0xffff : Word)) <<< 16)
      cpsr }
  | .add | .subtract | .doubleAdd | .doubleSubtract =>
    let (addend, cpsr) :=
      if operation = .doubleAdd ∨ operation = .doubleSubtract then
        saturate (2 * second.toInt) 32 true cpsr
      else (second.toInt, cpsr)
    let subtracts := operation = .subtract ∨ operation = .doubleSubtract
    let (value, cpsr) :=
      saturate (first.toInt + if subtracts then -addend else addend) 32 true cpsr
    { value := BitVec.ofInt 32 value, cpsr }

/-! ### Lanes -/

structure ParallelArithmeticLayout where
  bits : Nat
  exchange : Bool
  subtractLow : Bool
  subtractHigh : Bool
  deriving DecidableEq, Repr

def ParallelArithmeticLayout.subtract (layout : ParallelArithmeticLayout) (offset : Nat) : Bool :=
  if offset < 16 then layout.subtractLow else layout.subtractHigh

def parallelArithmeticLayout : Nat → ParallelArithmeticLayout
  | 0 => ⟨16, false, false, false⟩
  | 1 => ⟨16, true, true, false⟩
  | 2 => ⟨16, true, false, true⟩
  | 3 => ⟨16, false, true, true⟩
  | 4 => ⟨8, false, false, false⟩
  | 5 => ⟨8, false, true, true⟩
  | _ => ⟨8, false, false, false⟩

/-- The places of the lanes. -/
def ParallelArithmeticLayout.offsets (layout : ParallelArithmeticLayout) : List Nat :=
  if layout.bits = 16 then [0, 16] else [0, 8, 16, 24]

def ParallelArithmeticLayout.lane (layout : ParallelArithmeticLayout) (signed : Bool)
    (value : Word) (offset : Nat) : Int :=
  let bits := value.extractLsb' offset layout.bits
  if signed then bits.toInt else bits.toNat

/-- The opcode that selects bytes by the GE flags. -/
def parallelSelect : Nat := 6

def selectBytes (first second cpsr : Word) : Word :=
  let mask := [0, 1, 2, 3].foldl (fun mask byte =>
    if cpsr.getLsbD (16 + byte) then mask ||| ((0xff : Word) <<< (byte * 8)) else mask) (0 : Word)
  (first &&& mask) ||| (second &&& ~~~mask)

def parallelArithmetic (inst : Instruction) (first second cpsr : Word) : AluResult :=
  if inst.opcode = parallelSelect then { value := selectBytes first second cpsr, cpsr }
  else
    let layout := parallelArithmeticLayout inst.opcode
    let second := if layout.exchange then second.rotateLeft 16 else second
    let mask : Word := BitVec.twoPow 32 layout.bits - 1
    let (value, ge) := layout.offsets.foldl (fun (value, ge) offset =>
      let a := layout.lane inst.signExtend first offset
      let b := layout.lane inst.signExtend second offset
      let subtract := layout.subtract offset
      let sum := if subtract then a - b else a + b
      let greaterEqual :=
        if inst.signExtend || subtract then decide (0 ≤ sum)
        else decide ((mask.toNat : Int) < sum)
      (value ||| ((BitVec.ofInt 32 sum &&& mask) <<< offset),
        if greaterEqual then ge ||| ((if layout.bits = 16 then (3 : Word) else 1) <<< (offset / 8))
        else ge)) ((0 : Word), (0 : Word))
    { value, cpsr := (cpsr &&& ~~~(0x000f0000 : Word)) ||| (ge <<< 16) }

/-- The first of the signed opcodes that saturate lanes. -/
def signedAdd16 : Nat := 6

def parallelSaturating (inst : Instruction) (first second : Word) : Word :=
  let layout := parallelArithmeticLayout (inst.opcode % signedAdd16)
  let signed := decide (signedAdd16 ≤ inst.opcode)
  let second := if layout.exchange then second.rotateLeft 16 else second
  let mask : Word := BitVec.twoPow 32 layout.bits - 1
  let sign : Int := if signed then 2 ^ (layout.bits - 1) else 0
  layout.offsets.foldl (fun result offset =>
    let a := layout.lane signed first offset
    let b := layout.lane signed second offset
    let value := max (-sign) (min (mask.toNat - sign)
      (if layout.subtract offset then a - b else a + b))
    result ||| ((BitVec.ofInt 32 value &&& mask) <<< offset)) 0

/-! ### Division and transforms -/

def integerDivide (inst : Instruction) (dividend divisor : Word) : Word :=
  if divisor = 0 then 0
  else if inst.signExtend then BitVec.ofInt 32 (dividend.toInt.tdiv divisor.toInt)
  else dividend / divisor

def extend (value : Word) (bits : Nat) (sign : Bool) : Word :=
  let mask := BitVec.allOnes 32 >>> (32 - bits)
  let top := if sign then BitVec.twoPow 32 (bits - 1) else 0
  ((value &&& mask) ^^^ top) - top

def reverseHalfwords (value : Word) : Word :=
  ((value &&& (0x00ff00ff : Word)) <<< 8) ||| ((value >>> 8) &&& (0x00ff00ff : Word))

def countLeadingZeros (value : Word) : Word :=
  BitVec.ofNat 32 ((List.range 32).takeWhile fun i => !value.getLsbD (31 - i)).length

inductive IntegerTransformOperation where
  | extendByte | extendHalfword | extendBytePair | reverseBytes | reverseHalfwords
  | reverseSignedHalfword | reverseBits | countLeadingZeros | bitfieldInsert | bitfieldExtract
  deriving DecidableEq, Repr

def integerTransformOperation : Nat → IntegerTransformOperation
  | 0 => .extendByte
  | 1 => .extendHalfword
  | 2 => .extendBytePair
  | 3 => .reverseBytes
  | 4 => .reverseHalfwords
  | 5 => .reverseSignedHalfword
  | 6 => .reverseBits
  | 7 => .countLeadingZeros
  | 8 => .bitfieldInsert
  | _ => .bitfieldExtract

def integerTransform (inst : Instruction) (source addend : Word) : Word :=
  let value := source.rotateRight (inst.shiftAmount % 32)
  let width := inst.immediate.toNat
  match integerTransformOperation inst.opcode with
  | .bitfieldInsert =>
    let mask := (BitVec.allOnes 32 >>> (32 - width)) <<< inst.shiftAmount
    (addend &&& ~~~mask) |||
      (((if inst.accumulate then source else 0) <<< inst.shiftAmount) &&& mask)
  | .bitfieldExtract => extend (source >>> inst.shiftAmount) width inst.signExtend
  | .countLeadingZeros => countLeadingZeros value
  | .extendByte => extend value 8 inst.signExtend + if inst.accumulate then addend else 0
  | .extendHalfword => extend value 16 inst.signExtend + if inst.accumulate then addend else 0
  | .extendBytePair =>
    let low := extend value 8 inst.signExtend
    let high := extend (value >>> 16) 8 inst.signExtend
    ((low + if inst.accumulate then addend &&& (0xffff : Word) else 0) &&& (0xffff : Word)) |||
      ((high + if inst.accumulate then addend >>> 16 else 0) <<< 16)
  | .reverseBytes => (reverseHalfwords value).rotateLeft 16
  | .reverseHalfwords => reverseHalfwords value
  | .reverseSignedHalfword => extend (reverseHalfwords value) 16 true
  | .reverseBits =>
    let bits := ((value &&& (0x55555555 : Word)) <<< 1) ||| ((value >>> 1) &&& (0x55555555 : Word))
    let bits := ((bits &&& (0x33333333 : Word)) <<< 2) ||| ((bits >>> 2) &&& (0x33333333 : Word))
    let bits := ((bits &&& (0x0f0f0f0f : Word)) <<< 4) ||| ((bits >>> 4) &&& (0x0f0f0f0f : Word))
    (reverseHalfwords bits).rotateLeft 16

end ILEmu.ArmInterpreter
