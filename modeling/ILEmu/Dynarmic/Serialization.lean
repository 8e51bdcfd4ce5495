import ILEmu.Dynarmic.Validation
import Mathlib.Data.List.Nodup

/-! A block from and to its artifact. -/
namespace ILEmu.Dynarmic
open Foundation

structure Writer where
  bytes : Bytes := []
  valid : Bool := true

namespace Writer

def byte (writer : Writer) (value : BitVec 8) : Writer :=
  if writer.bytes.length < maximumBytes then { writer with bytes := writer.bytes ++ [value] }
  else { writer with valid := false }

def raw (writer : Writer) (values : Bytes) : Writer := values.foldl byte writer

end Writer

variable {P : Type} [DecidableEq P]

/-- An instruction that is an argument is found by its pointer among those of the block. -/
def encodeValue (pointers : List P) : Value P → Option EncodedValue
  | .inst instruction =>
    if instruction ∈ pointers then
      some ⟨.reference, .opaqueValue, BitVec.ofNat 32 (pointers.idxOf instruction), 0,
        Vector.replicate 8 0⟩
    else none
  | .void => none
  | .u1 value => some { tag := .immediate, type := .u1, scalar := if value then 1 else 0 }
  | .u8 value => some { tag := .immediate, type := .u8, scalar := value.setWidth 64 }
  | .u16 value => some { tag := .immediate, type := .u16, scalar := value.setWidth 64 }
  | .u32 value => some { tag := .immediate, type := .u32, scalar := value.setWidth 64 }
  | .u64 value => some { tag := .immediate, type := .u64, scalar := value }
  | .a32Reg value => some { tag := .immediate, type := .a32Reg, scalar := BitVec.ofNat 64 value.val }
  | .a32ExtReg value =>
    some { tag := .immediate, type := .a32ExtReg, scalar := BitVec.ofNat 64 value.val }
  | .a64Reg value => some { tag := .immediate, type := .a64Reg, scalar := BitVec.ofNat 64 value.val }
  | .a64Vec value => some { tag := .immediate, type := .a64Vec, scalar := BitVec.ofNat 64 value.val }
  | .coprocInfo value => some { tag := .immediate, type := .coprocInfo, coprocessor := value }
  | .nzcvFlags => some { tag := .immediate, type := .nzcvFlags }
  | .cond value => some { tag := .immediate, type := .cond, scalar := BitVec.ofNat 64 value.val }
  | .accType value =>
    some { tag := .immediate, type := .accType, scalar := BitVec.ofNat 64 value.val }

def decodeValue (pointers : List P) (encoded : EncodedValue) : Option (Value P) :=
  match encoded.tag with
  | .reference => pointers[encoded.reference.toNat]?.map .inst
  | .immediate =>
    match encoded.type with
    | .u1 => some (.u1 (encoded.scalar ≠ 0))
    | .u8 => some (.u8 (encoded.scalar.setWidth 8))
    | .u16 => some (.u16 (encoded.scalar.setWidth 16))
    | .u32 => some (.u32 (encoded.scalar.setWidth 32))
    | .u64 => some (.u64 encoded.scalar)
    | .a32Reg => some (.a32Reg (Fin.ofNat 16 encoded.scalar.toNat))
    | .a32ExtReg => some (.a32ExtReg (Fin.ofNat 80 encoded.scalar.toNat))
    | .a64Reg => some (.a64Reg (Fin.ofNat 32 encoded.scalar.toNat))
    | .a64Vec => some (.a64Vec (Fin.ofNat 32 encoded.scalar.toNat))
    | .coprocInfo => some (.coprocInfo encoded.coprocessor)
    | .nzcvFlags => some .nzcvFlags
    | .cond => some (.cond (Fin.ofNat 16 encoded.scalar.toNat))
    | .accType => some (.accType (Fin.ofNat 16 encoded.scalar.toNat))
    | .void | .opaqueValue | .u128 | .table => none

namespace Tables
variable (tables : Tables)

def encodeInstruction (pointers : List P) (instruction : Inst P) : Option EncodedInstruction :=
  if instruction.args.length ≤ tables.maxArgCount then do
    let arguments ← instruction.args.mapM (encodeValue pointers)
    some ⟨instruction.opcode, instruction.name, arguments⟩
  else none

/-- The encoded form of a block. -/
def encode (block : Block P) : Option EncodedIr := do
  let pointers := block.instructions.map (·.1)
  let instructions ← block.instructions.mapM fun (_, instruction) =>
    tables.encodeInstruction pointers instruction
  some ⟨block.location, block.endLocation, block.condition, block.conditionFailed,
    block.conditionFailedCycles, block.cycles, instructions, block.terminal⟩

def serialize (block : Block P) : Option Bytes :=
  if block.instructions.length ≤ maximumInstructions then do
    let ir ← tables.encode block
    let writer := ({} : Writer).raw (tables.writeIr ir)
    if writer.valid then some writer.bytes else none
  else none

end Tables

/-- The instructions that are appended to a block, each at a pointer that none had before. -/
def appendInstructions : List (Nat × Inst Nat) → List EncodedInstruction →
    Option (List (Nat × Inst Nat))
  | built, [] => some built
  | built, encoded :: rest => do
    let arguments ← encoded.arguments.mapM (decodeValue (built.map (·.1)))
    if arguments.length ≤ 4 then
      appendInstructions (built ++ [(built.length, ⟨encoded.opcode, encoded.name, arguments⟩)]) rest
    else none

def decode (ir : EncodedIr) : Option (Block Nat) := do
  let instructions ← appendInstructions [] ir.instructions
  some ⟨ir.location, ir.endLocation, ir.condition, ir.conditionFailed, ir.conditionFailedCycles,
    ir.cycles, instructions, ir.terminal⟩

def Tables.deserialize (tables : Tables) (bytes : Bytes) : Option (Block Nat) :=
  if bytes ≠ [] ∧ bytes.length ≤ maximumBytes then do
    let (ir, rest) ← tables.readIr bytes
    if rest = [] ∧ ir.terminal ≠ .invalid ∧ tables.validEncodedIr ir = .ok () then decode ir
    else none
  else none

end ILEmu.Dynarmic
