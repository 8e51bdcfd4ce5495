import ILEmu.Dynarmic.Artifact

/-! The checks of an artifact before any block is built from it. -/
namespace ILEmu.Dynarmic
open Foundation

/-- A check refuses what it is given, or indexes a list at an element that it does not have. -/
inductive Failure where
  | refused
  | outside
  deriving DecidableEq

abbrev Check := Except Failure Unit

def require (condition : Bool) : Check :=
  if condition then .ok () else .error .refused

def at_ {α : Type} (items : List α) (index : Nat) : Except Failure α :=
  match items[index]? with
  | some item => .ok item
  | none => .error .outside

@[simp] theorem require_eq_ok {condition : Bool} {u : Unit} :
    require condition = .ok u ↔ condition = true := by
  cases condition <;> simp [require]

theorem at_eq_ok {α : Type} {items : List α} {index : Nat} {item : α} :
    at_ items index = .ok item ↔ items[index]? = some item := by
  unfold at_
  cases items[index]? <;> simp

/-- A computation that ends well goes through its first part. -/
theorem bind_eq_ok {α β : Type} {first : Except Failure α} {next : α → Except Failure β}
    {result : β} :
    (first >>= next) = .ok result ↔ ∃ a, first = .ok a ∧ next a = .ok result := by
  cases first with
  | error failure => simp [bind, Except.bind]
  | ok a => simp [bind, Except.bind]

namespace EncodedValue

def isImmediate (value : EncodedValue) : Bool := value.tag = .immediate

def refersTo (value : EncodedValue) (index : Nat) : Bool :=
  !value.isImmediate && value.reference.toNat = index

end EncodedValue

namespace EncodedInstruction

def immediateAt (instruction : EncodedInstruction) (argument : Nat) : Bool :=
  match instruction.arguments[argument]? with
  | some value => value.isImmediate
  | none => false

/-- The argument is an immediate whose scalar the test admits. -/
def immediateScalar (instruction : EncodedInstruction) (argument : Nat)
    (admits : BitVec 64 → Bool) : Bool :=
  match instruction.arguments[argument]? with
  | some value => value.isImmediate && admits value.scalar
  | none => false

def immediateBelow (instruction : EncodedInstruction) (argument : Nat) (limit : BitVec 64) :
    Bool :=
  instruction.immediateScalar argument (· < limit)

/-- The test of a scalar whose argument is not asked to be there. -/
def scalarAt (instruction : EncodedInstruction) (argument : Nat) (admits : BitVec 64 → Bool) :
    Check := do
  let value ← at_ instruction.arguments argument
  require (admits value.scalar)

end EncodedInstruction

/-- How many arguments refer to an instruction. -/
def useCount (instructions : List EncodedInstruction) (index : Nat) : Nat :=
  (instructions.flatMap (·.arguments)).countP (·.refersTo index)

/-- The last instruction that has such an argument. -/
def lastUse (instructions : List EncodedInstruction) (index : Nat) : Nat :=
  instructions.zipIdx.foldl
    (fun last (user, position) => if user.arguments.any (·.refersTo index) then position else last)
    0

/-- The results that take a register or a spill slot. -/
def allocatedValue : ValueType → Bool
  | .u1 | .u8 | .u16 | .u32 | .u64 | .u128 | .nzcvFlags => true
  | _ => false

/-- What the pass over the instructions has gathered. -/
structure Scan where
  hasSetCheckBit : Bool := false
  previousName : BitVec 32 := 0
  associatedPseudoOperations : List (BitVec 32 × Opcode) := []
  liveExpirations : Nat → Nat := fun _ => 0
  liveValues : Nat := 0

namespace Tables
variable (tables : Tables)

def canonicalA32Location (location : LocationDescriptor) : Bool :=
  tables.repacked location = location

def alignedA32Location (location : LocationDescriptor) : Bool :=
  (tables.pc location).toNat % (if tables.tFlag location then 2 else 4) = 0

def validTerminal (initialLocation : LocationDescriptor) (hasSetCheckBit : Bool) :
    Terminal → Bool
  | .invalid => false
  | .interpret next numInstructions =>
    tables.canonicalA32Location next && tables.alignedA32Location next && numInstructions = 1
      && tables.tFlag next = tables.tFlag initialLocation
      && tables.eFlag next = tables.eFlag initialLocation
  | .returnToDispatch => true
  | .linkBlock next => tables.canonicalA32Location next && tables.alignedA32Location next
  | .linkBlockFast next => tables.canonicalA32Location next && tables.alignedA32Location next
  | .popRSBHint => true
  | .fastDispatchHint => true
  | .ifThen condition then_ else_ =>
    condition ≤ Cond.al && validTerminal initialLocation hasSetCheckBit then_
      && validTerminal initialLocation hasSetCheckBit else_
  | .checkBit then_ else_ =>
    hasSetCheckBit && validTerminal initialLocation hasSetCheckBit then_
      && validTerminal initialLocation hasSetCheckBit else_
  | .checkHalt else_ => validTerminal initialLocation hasSetCheckBit else_

def emitterSafeOpcode (opcode : Opcode) : Bool :=
  !(tables.name opcode).emitterUnsafe && tables.declared opcode

def encodedValueType (instructions : List EncodedInstruction) (value : EncodedValue) :
    Except Failure ValueType :=
  if value.isImmediate then .ok value.type
  else do
    let parent ← at_ instructions value.reference.toNat
    .ok (tables.getTypeOf parent.opcode)

def encodedIsScalar (instructions : List EncodedInstruction) (value : EncodedValue) : Check := do
  let type ← tables.encodedValueType instructions value
  require (type ∈ [ValueType.u8, .u16, .u32, .u64])

def a32ExecutionModeEqual (lhs rhs : LocationDescriptor) : Bool :=
  tables.tFlag lhs = tables.tFlag rhs && tables.eFlag lhs = tables.eFlag rhs
    && tables.singleStepping lhs = tables.singleStepping rhs && tables.fpscr lhs = tables.fpscr rhs

def a32LocationInBlock (candidate start finish : LocationDescriptor) : Bool :=
  tables.canonicalA32Location candidate && tables.alignedA32Location candidate
    && tables.a32ExecutionModeEqual candidate start && tables.pc start ≤ tables.pc candidate
    && tables.pc candidate < tables.pc finish

def isFpOpcode (opcode : Opcode) : Bool :=
  tables.fpAbs16 ≤ opcode && opcode ≤ tables.fpVectorToUnsignedFixed64

/-- A fixed point conversion: the bits of the fraction, then the rounding. -/
def fixed (instruction : EncodedInstruction) (bits : BitVec 64) : Bool :=
  instruction.immediateScalar 1 (· ≤ bits) && instruction.immediateScalar 2 (· ≤ 4)

def validFpInstruction (instruction : EncodedInstruction) (initialLocation : LocationDescriptor) :
    Check :=
  let rMode : BitVec 64 := (tables.rMode initialLocation).setWidth 64
  if tables.isFpOpcode instruction.opcode then do
    require ((List.range instruction.arguments.length).all fun argument =>
      let expected := tables.getArgTypeOf instruction.opcode argument
      !(expected = .u1 || expected = .u8) || instruction.immediateAt argument)
    match tables.name instruction.opcode with
    | .fpRoundInt16 | .fpRoundInt32 | .fpRoundInt64 | .fpVectorRoundInt16 | .fpVectorRoundInt32
    | .fpVectorRoundInt64 | .fpHalfToDouble | .fpHalfToSingle | .fpSingleToDouble
    | .fpDoubleToHalf | .fpDoubleToSingle | .fpVectorFromHalf32 =>
      instruction.scalarAt 1 (· ≤ 4)
    | .fpSingleToHalf | .fpVectorToHalf32 => require (instruction.immediateScalar 1 (· ≤ 3))
    | .fpDoubleToFixedS16 | .fpDoubleToFixedU16 | .fpHalfToFixedS16 | .fpHalfToFixedU16
    | .fpSingleToFixedS16 | .fpSingleToFixedU16 | .fpFixedU16ToSingle | .fpFixedS16ToSingle
    | .fpFixedU16ToDouble | .fpFixedS16ToDouble =>
      require (fixed instruction 16)
    | .fpDoubleToFixedS32 | .fpDoubleToFixedU32 | .fpHalfToFixedS32 | .fpHalfToFixedU32
    | .fpSingleToFixedS32 | .fpSingleToFixedU32 | .fpFixedU32ToDouble | .fpFixedS32ToDouble =>
      require (fixed instruction 32)
    | .fpDoubleToFixedS64 | .fpDoubleToFixedU64 | .fpHalfToFixedS64 | .fpHalfToFixedU64
    | .fpSingleToFixedS64 | .fpSingleToFixedU64 =>
      require (fixed instruction 64)
    | .fpFixedU32ToSingle | .fpFixedS32ToSingle =>
      require (fixed instruction 32
        && instruction.immediateScalar 2 fun rounding => rounding = rMode || rounding = 0)
    | .fpFixedU64ToDouble | .fpFixedU64ToSingle | .fpFixedS64ToDouble | .fpFixedS64ToSingle =>
      require (fixed instruction 64 && instruction.immediateScalar 2 (· = rMode))
    | .fpVectorFromSignedFixed32 | .fpVectorFromUnsignedFixed32 =>
      require (fixed instruction 32 && instruction.immediateScalar 3 fun controlled =>
        instruction.immediateScalar 2 (· = if controlled ≠ 0 then rMode else 0))
    | .fpVectorFromSignedFixed64 | .fpVectorFromUnsignedFixed64 =>
      require (fixed instruction 64 && instruction.immediateScalar 3 fun controlled =>
        instruction.immediateScalar 2 (· = if controlled ≠ 0 then rMode else 0))
    | .fpVectorToSignedFixed16 | .fpVectorToUnsignedFixed16 =>
      require (fixed instruction 16 && instruction.immediateAt 3)
    | .fpVectorToSignedFixed32 | .fpVectorToUnsignedFixed32 =>
      require (fixed instruction 32 && instruction.immediateAt 3)
    | .fpVectorToSignedFixed64 | .fpVectorToUnsignedFixed64 =>
      require (fixed instruction 64 && instruction.immediateAt 3)
    | _ => .ok ()
  else .ok ()

def validVectorInstruction (instruction : EncodedInstruction) : Bool :=
  match tables.name instruction.opcode with
  | .vectorGetElement8 | .vectorSetElement8 | .vectorBroadcastElementLower8
  | .vectorBroadcastElement8 =>
    instruction.immediateBelow 1 16
  | .vectorGetElement16 | .vectorSetElement16 | .vectorBroadcastElementLower16
  | .vectorBroadcastElement16 =>
    instruction.immediateBelow 1 8
  | .vectorGetElement32 | .vectorSetElement32 | .vectorBroadcastElementLower32
  | .vectorBroadcastElement32 =>
    instruction.immediateBelow 1 4
  | .vectorGetElement64 | .vectorSetElement64 | .vectorBroadcastElement64 =>
    instruction.immediateBelow 1 2
  | .vectorExtract => instruction.immediateScalar 2 fun bits => bits ≤ 128 && bits % 8 = 0
  | .vectorExtractLower => instruction.immediateScalar 2 fun bits => bits ≤ 64 && bits % 8 = 0
  | .vectorArithmeticShiftRight8 | .vectorArithmeticShiftRight16 | .vectorArithmeticShiftRight32
  | .vectorArithmeticShiftRight64 | .vectorLogicalShiftLeft8 | .vectorLogicalShiftLeft16
  | .vectorLogicalShiftLeft32 | .vectorLogicalShiftLeft64 | .vectorLogicalShiftRight8
  | .vectorLogicalShiftRight16 | .vectorLogicalShiftRight32 | .vectorLogicalShiftRight64 =>
    instruction.immediateAt 1
  | .vectorSignedSaturatedShiftLeftUnsigned8 => instruction.immediateBelow 1 8
  | .vectorSignedSaturatedShiftLeftUnsigned16 => instruction.immediateBelow 1 16
  | .vectorSignedSaturatedShiftLeftUnsigned32 => instruction.immediateBelow 1 32
  | .vectorSignedSaturatedShiftLeftUnsigned64 => instruction.immediateBelow 1 64
  | .vectorRotateWholeVectorRight => instruction.immediateScalar 1 (· % 32 = 0)
  | .vectorTranspose8 | .vectorTranspose16 | .vectorTranspose32 | .vectorTranspose64 =>
    instruction.immediateAt 2
  | .sha256Hash => instruction.immediateAt 3
  | _ => true

def validHeader (ir : EncodedIr) : Bool :=
  tables.canonicalA32Location ir.location && tables.alignedA32Location ir.location
    && tables.canonicalA32Location ir.endLocation && tables.alignedA32Location ir.endLocation
    && tables.a32ExecutionModeEqual ir.endLocation ir.location
    && tables.pc ir.location < tables.pc ir.endLocation
    && (tables.pc ir.endLocation).toNat - (tables.pc ir.location).toNat ≤ maximumInstructions * 4
    && ir.cycles ≠ 0 && ir.cycles.toNat < 2 ^ 31 - 1
    && ir.conditionFailedCycles.toNat < 2 ^ 31 - 1
    && decide (ir.condition = Cond.al) == ir.conditionFailed.isNone
    && match ir.conditionFailed with
      | none => ir.conditionFailedCycles = 0
      | some failed =>
        tables.canonicalA32Location failed && tables.alignedA32Location failed
          && tables.a32ExecutionModeEqual failed ir.location
          && tables.pc ir.location < tables.pc failed && tables.pc failed ≤ tables.pc ir.endLocation
          && ir.conditionFailedCycles ≠ 0 && ir.conditionFailedCycles ≤ ir.cycles

/-- The values whose last use was the instruction before leave. -/
def retire (index : Nat) (scan : Scan) : Except Failure Scan := do
  require (scan.liveExpirations index ≤ scan.liveValues)
  .ok { scan with liveValues := scan.liveValues - scan.liveExpirations index }

def accept (instruction : EncodedInstruction) (scan : Scan) : Except Failure Scan := do
  require (tables.emitterSafeOpcode instruction.opcode && instruction.name ≠ 0
    && scan.previousName < instruction.name && instruction.name.toNat ≤ maximumInstructions
    && instruction.arguments.length = tables.getNumArgsOf instruction.opcode
    && instruction.arguments.length ≤ tables.maxArgCount)
  .ok { scan with previousName := instruction.name }

/-- A result that is used stays up to its last use. -/
def allocate (instructions : List EncodedInstruction) (index : Nat)
    (instruction : EncodedInstruction) (scan : Scan) : Except Failure Scan :=
  if useCount instructions index ≠ 0 && allocatedValue (tables.getTypeOf instruction.opcode) then do
    let last := lastUse instructions index
    require (scan.liveValues + 1 ≤ maximumLiveValues && last < instructions.length)
    .ok { scan with
      liveValues := scan.liveValues + 1
      liveExpirations := Function.update scan.liveExpirations (last + 1)
        (scan.liveExpirations (last + 1) + 1) }
  else .ok scan

def checkArgument (instructions : List EncodedInstruction) (index : Nat) (opcode : Opcode)
    (argumentIndex : Nat) (argument : EncodedValue) : Check := do
  require (argument.isImmediate || argument.reference.toNat < index)
  let actualType ← tables.encodedValueType instructions argument
  require (tables.areTypesCompatible actualType (tables.getArgTypeOf opcode argumentIndex))
  require (!(argument.isImmediate && argument.type = .nzcvFlags)
    || (tables.name opcode = .a32SetCpsrNZC && argumentIndex = 0))

def checkArguments (instructions : List EncodedInstruction) (index : Nat) (opcode : Opcode) :
    Nat → List EncodedValue → Check
  | _, [] => .ok ()
  | argumentIndex, argument :: rest => do
    tables.checkArgument instructions index opcode argumentIndex argument
    checkArguments instructions index opcode (argumentIndex + 1) rest

/-- The first rules by opcode: which registers an instruction may name. -/
def validRegister (instruction : EncodedInstruction) : Bool :=
  let extRegIn (first last : BitVec 64) :=
    instruction.immediateScalar 0 fun register => first ≤ register && register ≤ last
  match tables.name instruction.opcode with
  | .a32GetRegister | .a32SetRegister =>
    instruction.immediateScalar 0 (· ≤ 15)
      && (instruction.arguments[0]?).any (·.type = .a32Reg)
  | .a32GetExtendedRegister32 | .a32SetExtendedRegister32 => extRegIn 0 31
  | .a32GetExtendedRegister64 | .a32SetExtendedRegister64 => extRegIn 32 63
  | .a32GetVector | .a32SetVector => extRegIn 32 79
  | _ => true

def validMemory (instruction : EncodedInstruction) (location endLocation : LocationDescriptor) :
    Bool :=
  !(tables.name instruction.opcode).a32MemoryOpcode
    || instruction.immediateScalar 0 (tables.a32LocationInBlock · location endLocation)

def validOperand (instruction : EncodedInstruction) : Bool :=
  match tables.name instruction.opcode with
  | .pushRSB =>
    instruction.immediateScalar 0 fun target =>
      tables.canonicalA32Location target && tables.alignedA32Location target
  | .testBit => instruction.immediateBelow 1 64
  | .extractRegister32 => instruction.immediateBelow 2 32
  | .extractRegister64 => instruction.immediateBelow 2 64
  | .replicateBit32 => instruction.immediateBelow 1 32
  | .replicateBit64 => instruction.immediateBelow 1 64
  | .signedSaturation => instruction.immediateScalar 1 fun bits => bits ≠ 0 && bits ≤ 32
  | .unsignedSaturation => instruction.immediateScalar 1 (· ≤ 31)
  | .a32SetGEFlags | .a32SetCpsrNZCV | .a32SetCpsrNZ | .a32SetFpscrNZCV =>
    !instruction.immediateAt 0
  | .a32ExceptionRaised => instruction.immediateAt 0 && instruction.immediateAt 1
  | _ => true

/-- A pseudo-operation reads its parent's further result, once for each parent. -/
def validateAssociatedPseudo (parentPredicate : OpcodeName → Bool)
    (instructions : List EncodedInstruction) (instruction : EncodedInstruction) (scan : Scan) :
    Except Failure Scan := do
  let parent ← at_ instruction.arguments 0
  require (!parent.isImmediate)
  let source ← at_ instructions parent.reference.toNat
  require (parentPredicate (tables.name source.opcode))
  let key := (parent.reference, instruction.opcode)
  require (key ∉ scan.associatedPseudoOperations)
  .ok { scan with associatedPseudoOperations := key :: scan.associatedPseudoOperations }

def validNzcvSource (instructions : List EncodedInstruction) (instruction : EncodedInstruction) :
    Check := do
  let value ← at_ instruction.arguments 0
  if value.isImmediate then tables.encodedIsScalar instructions value
  else do
    let source ← at_ instructions value.reference.toNat
    require (tables.name source.opcode).nzcvParent

def validNzSource (instructions : List EncodedInstruction) (instruction : EncodedInstruction) :
    Check := do
  let value ← at_ instruction.arguments 0
  tables.encodedIsScalar instructions value

/-- The parts of a vector table are values of one type, of those read so far if there is one. -/
def validTable (instructions : List EncodedInstruction) :
    Option ValueType → List EncodedValue → Check
  | _, [] => .ok ()
  | elementType, value :: rest => do
    require (!value.isImmediate)
    let type ← tables.encodedValueType instructions value
    require ((type = .u64 || type = .u128) && elementType.all (· = type))
    validTable instructions (some type) rest

def validTableLookup (requiredType : ValueType) (instructions : List EncodedInstruction)
    (instruction : EncodedInstruction) : Check := do
  let table ← at_ instruction.arguments 1
  require (!table.isImmediate)
  let source ← at_ instructions table.reference.toNat
  require (tables.name source.opcode = .vectorTable)
  source.arguments.forM fun value => do
    let type ← tables.encodedValueType instructions value
    require (type = requiredType)

/-- The last rules by opcode: what the instructions referred to have to be. -/
def relate (instructions : List EncodedInstruction) (index : Nat)
    (instruction : EncodedInstruction) (scan : Scan) : Except Failure Scan :=
  match tables.name instruction.opcode with
  | .getCarryFromOp =>
    tables.validateAssociatedPseudo OpcodeName.carryParent instructions instruction scan
  | .getOverflowFromOp =>
    tables.validateAssociatedPseudo OpcodeName.overflowParent instructions instruction scan
  | .getGEFromOp =>
    tables.validateAssociatedPseudo OpcodeName.geParent instructions instruction scan
  | .getUpperFromOp | .getLowerFromOp =>
    tables.validateAssociatedPseudo OpcodeName.upperLowerParent instructions instruction scan
  | .getNZCVFromOp => do
    tables.validNzcvSource instructions instruction
    .ok scan
  | .getNZFromOp => do
    tables.validNzSource instructions instruction
    .ok scan
  | .vectorTable => do
    require (useCount instructions index = 1)
    tables.validTable instructions none instruction.arguments
    .ok scan
  | .vectorTableLookup64 => do
    tables.validTableLookup .u64 instructions instruction
    .ok scan
  | .vectorTableLookup128 => do
    tables.validTableLookup .u128 instructions instruction
    .ok scan
  | _ => .ok scan

def scanInstruction (ir : EncodedIr) (index : Nat) (instruction : EncodedInstruction)
    (scan : Scan) : Except Failure Scan := do
  let scan ← retire index scan
  let scan ← tables.accept instruction scan
  let scan ← tables.allocate ir.instructions index instruction scan
  tables.checkArguments ir.instructions index instruction.opcode 0 instruction.arguments
  tables.validFpInstruction instruction ir.location
  require (tables.validVectorInstruction instruction)
  require (tables.validRegister instruction)
  require (tables.validMemory instruction ir.location ir.endLocation)
  require (tables.validOperand instruction)
  let setsCheckBit := tables.name instruction.opcode = .a32SetCheckBit
  tables.relate ir.instructions index instruction
    { scan with hasSetCheckBit := scan.hasSetCheckBit || setsCheckBit }

def scanFrom (ir : EncodedIr) : Nat → List EncodedInstruction → Scan → Except Failure Scan
  | _, [], scan => .ok scan
  | index, instruction :: rest, scan => do
    let scan ← tables.scanInstruction ir index instruction scan
    scanFrom ir (index + 1) rest scan

def validEncodedIr (ir : EncodedIr) : Check := do
  require (tables.validHeader ir)
  require (ir.instructions.all fun instruction => instruction.arguments.all fun argument =>
    argument.isImmediate || argument.reference.toNat < ir.instructions.length)
  let scan ← tables.scanFrom ir 0 ir.instructions {}
  require (tables.validTerminal ir.location scan.hasSetCheckBit ir.terminal)

end Tables
end ILEmu.Dynarmic
