import ILEmu.Foundation.Codec
import ILEmu.Foundation.Words
import ILEmu.Dynarmic.Opcodes
import Mathlib.Data.List.Basic

/-! The portable artifact of a translated block: its bytes, and the checks before any block
is built from them. -/
namespace ILEmu.Dynarmic
open Foundation

def magic : Bytes := [0x69, 0x4c, 0x49, 0x52, 0x42, 0x30, 0x30, 0x31]
def formatVersion : BitVec 32 := 1
def maximumBytes : Nat := 16 * 1024 * 1024
def maximumInstructions : Nat := 16 * 1024
def maximumTerminalDepth : Nat := 32
def maximumLiveValues : Nat := 64

inductive ValueType where
  | void | a32Reg | a32ExtReg | a64Reg | a64Vec | opaqueValue | u1 | u8 | u16 | u32 | u64 | u128
  | coprocInfo | nzcvFlags | cond | table | accType
  deriving DecidableEq

namespace ValueType

def all : List ValueType :=
  [void, a32Reg, a32ExtReg, a64Reg, a64Vec, opaqueValue, u1, u8, u16, u32, u64, u128, coprocInfo,
    nzcvFlags, cond, table, accType]

/-- The types of the immediates that an artifact can hold. -/
def valid : ValueType → Bool
  | void | opaqueValue | u128 | table => false
  | _ => true

end ValueType

abbrev LocationDescriptor := BitVec 64

/-- The conditions in the order of their encoding, up to `AL` and `NV`. -/
abbrev Cond := Fin 16

def Cond.al : Cond := 14

abbrev Opcode := BitVec 32

inductive Terminal where
  | invalid
  | interpret (next : LocationDescriptor) (numInstructions : BitVec 64)
  | returnToDispatch
  | linkBlock (next : LocationDescriptor)
  | linkBlockFast (next : LocationDescriptor)
  | popRSBHint
  | fastDispatchHint
  | ifThen (condition : Cond) (then_ else_ : Terminal)
  | checkBit (then_ else_ : Terminal)
  | checkHalt (else_ : Terminal)
  deriving DecidableEq

/-- A value of the block whose instructions are known by pointers of a type. -/
inductive Value (P : Type) where
  | inst (instruction : P)
  | void
  | u1 (value : Bool)
  | u8 (value : BitVec 8)
  | u16 (value : BitVec 16)
  | u32 (value : BitVec 32)
  | u64 (value : BitVec 64)
  | a32Reg (value : Fin 16)
  | a32ExtReg (value : Fin 80)
  | a64Reg (value : Fin 32)
  | a64Vec (value : Fin 32)
  | coprocInfo (value : Vector (BitVec 8) 8)
  | nzcvFlags
  | cond (value : Cond)
  | accType (value : Fin 16)

structure Inst (P : Type) where
  opcode : Opcode
  name : BitVec 32
  args : List (Value P)

structure Block (P : Type) where
  location : LocationDescriptor
  endLocation : LocationDescriptor
  condition : Cond
  conditionFailed : Option LocationDescriptor
  conditionFailedCycles : BitVec 64
  cycles : BitVec 64
  instructions : List (P × Inst P)
  terminal : Terminal

inductive ValueTag where
  | reference
  | immediate
  deriving DecidableEq

structure EncodedValue where
  tag : ValueTag
  type : ValueType
  reference : BitVec 32 := 0
  scalar : BitVec 64 := 0
  coprocessor : Vector (BitVec 8) 8 := Vector.replicate 8 0
  deriving DecidableEq

structure EncodedInstruction where
  opcode : Opcode
  name : BitVec 32
  arguments : List EncodedValue
  deriving DecidableEq

/-- What an artifact says of a block. -/
structure EncodedIr where
  location : LocationDescriptor
  endLocation : LocationDescriptor
  condition : Cond
  conditionFailed : Option LocationDescriptor
  conditionFailedCycles : BitVec 64
  cycles : BitVec 64
  instructions : List EncodedInstruction
  terminal : Terminal
  deriving DecidableEq

/-- What the artifact relies on of the translator: its tables of opcodes and types, and its
packing of a guest location. -/
structure Tables where
  opcodeCount : Nat
  maxArgCount : Nat
  /-- `append_instruction` takes so many arguments. -/
  maxArgCount_le : maxArgCount ≤ 4
  getNumArgsOf : Opcode → Nat
  getTypeOf : Opcode → ValueType
  getArgTypeOf : Opcode → Nat → ValueType
  areTypesCompatible : ValueType → ValueType → Bool
  /-- The value of a type in its enumeration. -/
  typeValue : ValueType → BitVec 16
  typeValue_injective : ∀ a b, typeValue a = typeValue b → a = b
  name : Opcode → OpcodeName
  /-- The opcodes that are common to all guests or are of this one. -/
  declared : Opcode → Bool
  declared_lt : ∀ opcode, declared opcode = true → opcode.toNat < opcodeCount
  fpAbs16 : Opcode
  fpVectorToUnsignedFixed64 : Opcode
  pc : LocationDescriptor → BitVec 32
  tFlag : LocationDescriptor → Bool
  eFlag : LocationDescriptor → Bool
  singleStepping : LocationDescriptor → Bool
  fpscr : LocationDescriptor → BitVec 32
  rMode : LocationDescriptor → BitVec 8
  /-- A location that is unpacked and packed again. -/
  repacked : LocationDescriptor → LocationDescriptor

def validCondition (value : Nat) : Bool := value ≤ 14

def validAccType (value : Nat) : Bool := value ≤ 15

/-! The bytes. -/

def writeTerminal (depth : Nat) (terminal : Terminal) : Bytes :=
  if maximumTerminalDepth < depth then [0xff]
  else
    match terminal with
    | .invalid => [0]
    | .interpret next numInstructions => 1 :: (word 8 next ++ word 8 numInstructions)
    | .returnToDispatch => [2]
    | .linkBlock next => 3 :: word 8 next
    | .linkBlockFast next => 4 :: word 8 next
    | .popRSBHint => [5]
    | .fastDispatchHint => [6]
    | .ifThen condition then_ else_ =>
      7 :: BitVec.ofNat 8 condition.val ::
        (writeTerminal (depth + 1) then_ ++ writeTerminal (depth + 1) else_)
    | .checkBit then_ else_ =>
      8 :: (writeTerminal (depth + 1) then_ ++ writeTerminal (depth + 1) else_)
    | .checkHalt else_ => 9 :: writeTerminal (depth + 1) else_

/-- The depths that are left, `maximumTerminalDepth + 1` of them at the outermost terminal. -/
def readTerminal : Nat → Read Terminal
  | 0, _ => none
  | depths + 1, bytes => do
    let (tag, bytes) ← readByte bytes
    match tag.toNat with
    | 1 =>
      let (next, bytes) ← readWord 8 bytes
      let (count, bytes) ← readWord 8 bytes
      if count = 0 then none else some (.interpret next count, bytes)
    | 2 => some (.returnToDispatch, bytes)
    | 3 =>
      let (next, bytes) ← readWord 8 bytes
      some (.linkBlock next, bytes)
    | 4 =>
      let (next, bytes) ← readWord 8 bytes
      some (.linkBlockFast next, bytes)
    | 5 => some (.popRSBHint, bytes)
    | 6 => some (.fastDispatchHint, bytes)
    | 7 =>
      let (condition, bytes) ← readByte bytes
      if validCondition condition.toNat then
        let (then_, bytes) ← readTerminal depths bytes
        let (else_, bytes) ← readTerminal depths bytes
        some (.ifThen (Fin.ofNat 16 condition.toNat) then_ else_, bytes)
      else none
    | 8 =>
      let (then_, bytes) ← readTerminal depths bytes
      let (else_, bytes) ← readTerminal depths bytes
      some (.checkBit then_ else_, bytes)
    | 9 =>
      let (else_, bytes) ← readTerminal depths bytes
      some (.checkHalt else_, bytes)
    | _ => none

/-- The bytes of a scalar and the values that a reader admits, for a type that has one. -/
def ValueType.scalar : ValueType → Option (Nat × (Nat → Bool))
  | .u1 => some (1, (· ≤ 1))
  | .u8 => some (1, fun _ => true)
  | .u16 => some (2, fun _ => true)
  | .u32 => some (4, fun _ => true)
  | .u64 => some (8, fun _ => true)
  | .a32Reg => some (4, (· ≤ 15))
  | .a32ExtReg => some (4, (· ≤ 79))
  | .a64Reg | .a64Vec => some (4, (· ≤ 31))
  | .cond => some (1, validCondition)
  | .accType => some (1, validAccType)
  | .void | .opaqueValue | .u128 | .coprocInfo | .nzcvFlags | .table => none

namespace Tables
variable (tables : Tables)

def writeEncodedValue (value : EncodedValue) : Bytes :=
  match value.tag with
  | .reference => 0 :: word 4 value.reference
  | .immediate =>
    1 :: (word 2 (tables.typeValue value.type) ++
      match value.type.scalar with
      | some (count, _) => littleEndian count value.scalar.toNat
      | none =>
        match value.type with
        | .coprocInfo => value.coprocessor.toList
        | .nzcvFlags => []
        | _ => [0xff])

/-- The type that has a value in the enumeration. -/
def typeOfValue (raw : BitVec 16) : Option ValueType :=
  ValueType.all.find? fun type => tables.typeValue type = raw

def readImmediate (type : ValueType) : Read EncodedValue := fun bytes =>
  match type.scalar with
  | some (count, admits) => do
    let (value, bytes) ← readLittleEndian count bytes
    if admits value then some ({ tag := .immediate, type, scalar := BitVec.ofNat 64 value }, bytes)
    else none
  | none =>
    match type with
    | .coprocInfo => do
      let (raw, bytes) ← readRaw 8 bytes
      if length : raw.length = 8 then
        some ({ tag := .immediate, type, coprocessor := ⟨raw.toArray, length⟩ }, bytes)
      else none
    | .nzcvFlags => some ({ tag := .immediate, type }, bytes)
    | _ => none

def readEncodedValue (currentIndex : Nat) : Read EncodedValue := fun bytes => do
  let (rawTag, bytes) ← readByte bytes
  match rawTag.toNat with
  | 0 =>
    let (reference, bytes) ← readWord 4 bytes
    if reference.toNat < currentIndex then
      some ({ tag := .reference, type := .opaqueValue, reference }, bytes)
    else none
  | 1 =>
    let (rawType, bytes) ← readWord 2 bytes
    let type ← tables.typeOfValue rawType
    readImmediate type bytes
  | _ => none

def writeInstruction (instruction : EncodedInstruction) : Bytes :=
  word 4 instruction.opcode ++ (word 4 instruction.name ++
    (BitVec.ofNat 8 instruction.arguments.length ::
      instruction.arguments.flatMap tables.writeEncodedValue))

def readInstruction (index : Nat) : Read EncodedInstruction := fun bytes => do
  let (opcode, bytes) ← readWord 4 bytes
  let (name, bytes) ← readWord 4 bytes
  let (argumentCount, bytes) ← readByte bytes
  if opcode.toNat < tables.opcodeCount ∧ argumentCount.toNat = tables.getNumArgsOf opcode
      ∧ argumentCount.toNat ≤ tables.maxArgCount then
    let (arguments, bytes) ←
      readMany (fun _ => tables.readEncodedValue index) 0 argumentCount.toNat bytes
    some (⟨opcode, name, arguments⟩, bytes)
  else none

def writeLocation? : Option LocationDescriptor → Bytes
  | some location => 1 :: word 8 location
  | none => [0]

def readLocation? : Read (Option LocationDescriptor) := fun bytes => do
  let (present, bytes) ← readByte bytes
  match present.toNat with
  | 0 => some (none, bytes)
  | 1 =>
    let (location, bytes) ← readWord 8 bytes
    some (some location, bytes)
  | _ => none

/-- Everything `serialize_dynarmic_ir` gives to its writer. -/
def writeIr (ir : EncodedIr) : Bytes :=
  magic ++ (word 4 formatVersion ++ (word 8 ir.location ++ (word 8 ir.endLocation ++
    (BitVec.ofNat 8 ir.condition.val :: (writeLocation? ir.conditionFailed ++
      (word 8 ir.conditionFailedCycles ++ (word 8 ir.cycles ++
        (word 4 (BitVec.ofNat 32 ir.instructions.length) ++
          (ir.instructions.flatMap tables.writeInstruction ++
            writeTerminal 0 ir.terminal)))))))))

/-- Everything `deserialize_dynarmic_ir` takes from its reader. -/
def readIr : Read EncodedIr := fun bytes => do
  let (actualMagic, bytes) ← readRaw magic.length bytes
  if actualMagic = magic then
    let (version, bytes) ← readWord 4 bytes
    if version = formatVersion then
      let (location, bytes) ← readWord 8 bytes
      let (endLocation, bytes) ← readWord 8 bytes
      let (condition, bytes) ← readByte bytes
      if validCondition condition.toNat then
        let (conditionFailed, bytes) ← readLocation? bytes
        let (conditionFailedCycles, bytes) ← readWord 8 bytes
        let (cycles, bytes) ← readWord 8 bytes
        let (instructionCount, bytes) ← readWord 4 bytes
        if instructionCount.toNat ≤ maximumInstructions then
          let (instructions, bytes) ←
            readMany tables.readInstruction 0 instructionCount.toNat bytes
          let (terminal, bytes) ← readTerminal (maximumTerminalDepth + 1) bytes
          some (⟨location, endLocation, Fin.ofNat 16 condition.toNat, conditionFailed,
            conditionFailedCycles, cycles, instructions, terminal⟩, bytes)
        else none
      else none
    else none
  else none

end Tables
end ILEmu.Dynarmic
