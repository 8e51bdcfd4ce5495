import ILEmu.Dynarmic.Codecs
import ILEmu.Dynarmic.Serialization

/-! A block comes back from its artifact, and an artifact from its block. -/
namespace ILEmu.Dynarmic
open Foundation

namespace Writer

theorem raw_fits (writer : Writer) (values : Bytes)
    (fits : writer.bytes.length + values.length ≤ maximumBytes) :
    writer.raw values = { writer with bytes := writer.bytes ++ values } := by
  induction values generalizing writer with
  | nil => simp [raw]
  | cons value rest ih =>
    rw [List.length_cons] at fits
    have room : writer.bytes.length < maximumBytes := by omega
    have step : writer.byte value = { writer with bytes := writer.bytes ++ [value] } := if_pos room
    change (writer.byte value).raw rest = _
    rw [step, ih]
    · simp
    · simp only [List.length_append, List.length_cons, List.length_nil]
      omega

theorem raw_invalid (writer : Writer) (values : Bytes) (invalid : writer.valid = false) :
    (writer.raw values).valid = false := by
  induction values generalizing writer with
  | nil => exact invalid
  | cons value rest ih =>
    refine ih (writer.byte value) ?_
    unfold byte
    split
    · exact invalid
    · rfl

theorem raw_exceeds (writer : Writer) (values : Bytes)
    (exceeds : maximumBytes < writer.bytes.length + values.length) (nonempty : values ≠ []) :
    (writer.raw values).valid = false := by
  induction values generalizing writer with
  | nil => contradiction
  | cons value rest ih =>
    change ((writer.byte value).raw rest).valid = false
    by_cases room : writer.bytes.length < maximumBytes
    · have step : writer.byte value = { writer with bytes := writer.bytes ++ [value] } :=
        if_pos room
      rw [step]
      rw [List.length_cons] at exceeds
      refine ih _ ?_ ?_
      · simp only [List.length_append, List.length_cons, List.length_nil]
        omega
      · rintro rfl
        rw [List.length_nil] at exceeds
        omega
    · have step : writer.byte value = { writer with valid := false } := if_neg room
      rw [step]
      exact raw_invalid _ rest rfl

end Writer

/-- How deep a terminal nests others. -/
def Terminal.depth : Terminal → Nat
  | .ifThen _ then_ else_ | .checkBit then_ else_ => max then_.depth else_.depth + 1
  | .checkHalt else_ => else_.depth + 1
  | _ => 0

/-- A number of every instruction stands for its pointer. -/
def Value.rename {P Q : Type} (address : P → Q) : Value P → Value Q
  | .inst instruction => .inst (address instruction)
  | .void => .void
  | .u1 value => .u1 value
  | .u8 value => .u8 value
  | .u16 value => .u16 value
  | .u32 value => .u32 value
  | .u64 value => .u64 value
  | .a32Reg value => .a32Reg value
  | .a32ExtReg value => .a32ExtReg value
  | .a64Reg value => .a64Reg value
  | .a64Vec value => .a64Vec value
  | .coprocInfo value => .coprocInfo value
  | .nzcvFlags => .nzcvFlags
  | .cond value => .cond value
  | .accType value => .accType value

def Inst.rename {P Q : Type} (address : P → Q) (instruction : Inst P) : Inst Q :=
  ⟨instruction.opcode, instruction.name, instruction.args.map (Value.rename address)⟩

/-- The block with its instructions at other pointers. -/
def Block.rename {P Q : Type} (address : P → Q) (block : Block P) : Block Q :=
  { block with
    instructions := block.instructions.map fun (pointer, instruction) =>
      (address pointer, instruction.rename address) }

variable {P : Type} [DecidableEq P]

/-- The number of an instruction in its block. -/
def Block.position (block : Block P) (pointer : P) : Nat :=
  (block.instructions.map (·.1)).idxOf pointer

theorem idxOf_range {index count : Nat} (bound : index < count) :
    (List.range count).idxOf index = index := by
  have found := List.Nodup.idxOf_getElem (List.nodup_range (n := count)) index (by simpa using bound)
  simpa using found

theorem narrow_widen {width : Nat} {scalar : BitVec 64} (bound : scalar.toNat < 2 ^ width) :
    (scalar.setWidth width).setWidth 64 = scalar := by
  apply BitVec.eq_of_toNat_eq
  rw [BitVec.toNat_setWidth, BitVec.toNat_setWidth, Nat.mod_eq_of_lt bound,
    Nat.mod_eq_of_lt scalar.isLt]

theorem number_of_scalar {count : Nat} [NeZero count] {scalar : BitVec 64}
    (bound : scalar.toNat < count) : BitVec.ofNat 64 (Fin.ofNat count scalar.toNat).val = scalar := by
  rw [Fin.val_ofNat, Nat.mod_eq_of_lt bound, BitVec.ofNat_toNat, BitVec.setWidth_eq]

theorem scalar_of_number {count : Nat} [NeZero count] (number : Fin count)
    (few : count ≤ 2 ^ 64) : Fin.ofNat count (BitVec.ofNat 64 number.val).toNat = number := by
  rw [BitVec.toNat_ofNat, Nat.mod_eq_of_lt (number.isLt.trans_le few)]
  exact Fin.ext (Nat.mod_eq_of_lt number.isLt)

/-- A value that is decoded is encoded as it was. -/
theorem encodeValue_decoded {index count : Nat} {encoded : EncodedValue}
    (readable : encoded.Readable index) (bound : index ≤ count) :
    ∃ value, decodeValue (List.range index) encoded = some value ∧
      encodeValue (List.range count) value = some encoded := by
  obtain ⟨tag, type, reference, scalar, coprocessor⟩ := encoded
  cases tag with
  | reference =>
    obtain ⟨below, rfl, rfl, rfl⟩ := readable
    have within : reference.toNat < count := Nat.lt_of_lt_of_le below bound
    refine ⟨.inst reference.toNat, ?_, ?_⟩
    · simp only [decodeValue, List.getElem?_range below, Option.map_some]
    · simp only [encodeValue, List.mem_range, within, if_true, idxOf_range within,
        BitVec.ofNat_toNat, BitVec.setWidth_eq]
  | immediate =>
    obtain ⟨rfl, readable⟩ := readable
    cases type with
    | void | opaqueValue | u128 | table => exact readable.2.elim
    | u1 =>
      obtain ⟨_, admitted, rfl⟩ := readable
      have small : scalar.toNat ≤ 1 := of_decide_eq_true admitted
      refine ⟨_, rfl, ?_⟩
      obtain rfl | rfl : scalar = 0 ∨ scalar = 1 := by
        have cases_ : scalar.toNat = 0 ∨ scalar.toNat = 1 := by omega
        exact cases_.imp BitVec.eq_of_toNat_eq BitVec.eq_of_toNat_eq
      · rfl
      · rfl
    | u8 | u16 | u32 =>
      obtain ⟨width, _, rfl⟩ := readable
      refine ⟨_, rfl, ?_⟩
      simp only [encodeValue]
      rw [narrow_widen]
      simpa using width
    | u64 =>
      obtain ⟨_, _, rfl⟩ := readable
      exact ⟨_, rfl, rfl⟩
    | a32Reg | a32ExtReg | a64Reg | a64Vec | cond | accType =>
      obtain ⟨_, admitted, rfl⟩ := readable
      refine ⟨_, rfl, ?_⟩
      simp only [encodeValue]
      rw [number_of_scalar]
      have small := of_decide_eq_true admitted
      exact Nat.lt_of_le_of_lt small (by decide)
    | coprocInfo =>
      obtain ⟨rfl, _⟩ := readable
      exact ⟨_, rfl, rfl⟩
    | nzcvFlags =>
      obtain ⟨rfl, rfl⟩ := readable
      exact ⟨_, rfl, rfl⟩

/-- A value that is encoded is decoded with the numbers of instructions for their pointers. -/
theorem decodeValue_encoded {pointers : List P} {value : Value P} {encoded : EncodedValue}
    (few : pointers.length < 2 ^ 32) (found : encodeValue pointers value = some encoded)
    {index : Nat} (before : encoded.isImmediate = true ∨ encoded.reference.toNat < index) :
    decodeValue (List.range index) encoded = some (value.rename pointers.idxOf) := by
  cases value with
  | inst instruction =>
    simp only [encodeValue] at found
    split at found
    · rename_i listed
      obtain rfl := Option.some.inj found
      have bound : pointers.idxOf instruction < 2 ^ 32 :=
        (List.idxOf_lt_length_iff.mpr listed).trans few
      have same : (BitVec.ofNat 32 (pointers.idxOf instruction)).toNat =
          pointers.idxOf instruction := by
        rw [BitVec.toNat_ofNat]
        exact Nat.mod_eq_of_lt bound
      obtain immediate | below := before
      · contradiction
      · simp only [same] at below
        simp only [decodeValue, Value.rename, same, List.getElem?_range below, Option.map_some]
    · contradiction
  | void => contradiction
  | u1 value =>
    obtain rfl := Option.some.inj found
    cases value <;> rfl
  | u8 value | u16 value | u32 value =>
    obtain rfl := Option.some.inj found
    simp only [decodeValue, Value.rename]
    rw [BitVec.setWidth_setWidth_of_le _ (by decide), BitVec.setWidth_eq]
  | u64 value | coprocInfo value =>
    obtain rfl := Option.some.inj found
    rfl
  | a32Reg value | a32ExtReg value | a64Reg value | a64Vec value | cond value | accType value =>
    obtain rfl := Option.some.inj found
    simp only [decodeValue, Value.rename]
    rw [scalar_of_number value (by decide)]
  | nzcvFlags =>
    obtain rfl := Option.some.inj found
    rfl

/-- What is encoded of a value is read back, unless it is a condition that no reader admits. -/
theorem readable_of_encodeValue {pointers : List P} {value : Value P} {encoded : EncodedValue}
    (found : encodeValue pointers value = some encoded) {index : Nat}
    (before : encoded.isImmediate = true ∨ encoded.reference.toNat < index)
    (admitted : ∀ condition, value = .cond condition → condition ≤ Cond.al) :
    encoded.Readable index := by
  cases value with
  | inst instruction =>
    simp only [encodeValue] at found
    split at found
    · obtain rfl := Option.some.inj found
      obtain immediate | below := before
      · contradiction
      · exact ⟨below, rfl, rfl, rfl⟩
    · contradiction
  | void => contradiction
  | u1 value =>
    obtain rfl := Option.some.inj found
    cases value <;> exact ⟨rfl, by decide, by decide, rfl⟩
  | u8 value | u16 value | u32 value =>
    obtain rfl := Option.some.inj found
    have small := value.isLt
    refine ⟨rfl, ?_, rfl, rfl⟩
    simp only [BitVec.toNat_setWidth]
    omega
  | u64 value =>
    obtain rfl := Option.some.inj found
    exact ⟨rfl, value.isLt, rfl, rfl⟩
  | a32Reg value | a32ExtReg value | a64Reg value | a64Vec value | accType value =>
    obtain rfl := Option.some.inj found
    have small := value.isLt
    have same : (BitVec.ofNat 64 value.val).toNat = value.val := by
      rw [BitVec.toNat_ofNat]
      omega
    refine ⟨rfl, ?_, ?_, rfl⟩
    · simp only [same]
      omega
    · simp only [same]
      exact decide_eq_true (Nat.le_of_lt_succ small)
  | cond value =>
    obtain rfl := Option.some.inj found
    have small : value.val ≤ 14 := admitted value rfl
    have same : (BitVec.ofNat 64 value.val).toNat = value.val := by
      rw [BitVec.toNat_ofNat]
      omega
    refine ⟨rfl, ?_, ?_, rfl⟩
    · simp only [same]
      omega
    · simp only [same]
      exact decide_eq_true small
  | coprocInfo value =>
    obtain rfl := Option.some.inj found
    exact ⟨rfl, rfl, trivial⟩
  | nzcvFlags =>
    obtain rfl := Option.some.inj found
    exact ⟨rfl, rfl, rfl⟩

namespace Tables
variable (tables : Tables)

theorem encodeInstruction_eq_some {pointers : List P} {instruction : Inst P}
    {encoded : EncodedInstruction} :
    tables.encodeInstruction pointers instruction = some encoded ↔
      instruction.args.length ≤ tables.maxArgCount ∧ instruction.opcode = encoded.opcode ∧
        instruction.name = encoded.name ∧
        List.Forall₂ (fun value code => encodeValue pointers value = some code) instruction.args
          encoded.arguments := by
  unfold encodeInstruction
  split
  · rename_i few
    rw [Option.bind_eq_bind, Option.bind_eq_some_iff]
    constructor
    · rintro ⟨arguments, found, same⟩
      obtain rfl := Option.some.inj same
      exact ⟨few, rfl, rfl, mapM_eq_some.mp found⟩
    · rintro ⟨_, opcode, name, found⟩
      refine ⟨encoded.arguments, mapM_eq_some.mpr found, ?_⟩
      rw [opcode, name]
  · rename_i many
    constructor
    · intro found
      contradiction
    · rintro ⟨few, _⟩
      exact absurd few many

/-- What is appended is encoded as it was read. -/
theorem appendInstructions_decoded {built all : List (Nat × Inst Nat)}
    {encoded : List EncodedInstruction} (numbered : built.map (·.1) = List.range built.length)
    (readable : ValidFrom tables.ReadableInstruction built.length encoded)
    (found : appendInstructions built encoded = some all) :
    ∃ later, all = built ++ later ∧ all.map (·.1) = List.range all.length ∧
      ∀ count, built.length + encoded.length ≤ count →
        List.Forall₂ (fun item code => tables.encodeInstruction (List.range count) item.2 = some code)
          later encoded := by
  induction encoded generalizing built with
  | nil =>
    obtain rfl := Option.some.inj found
    exact ⟨[], (List.append_nil _).symm, numbered, fun _ _ => List.Forall₂.nil⟩
  | cons code rest ih =>
    obtain ⟨⟨_, _, few, values⟩, others⟩ := readable
    obtain ⟨arguments, decoded, found⟩ := Option.bind_eq_some_iff.mp found
    rw [numbered] at decoded
    have decoded := mapM_eq_some.mp decoded
    split at found
    case isFalse => contradiction
    have longer : (built ++ [(built.length, (⟨code.opcode, code.name, arguments⟩ : Inst Nat))]).length =
        built.length + 1 := by
      rw [List.length_append, List.length_singleton]
    obtain ⟨later, rfl, ends, rest⟩ := ih (by
      rw [List.map_append, numbered, longer, List.range_succ]
      rfl) (longer ▸ others) found
    refine ⟨_ :: later, List.append_assoc _ _ _, ends, fun count bound => ?_⟩
    rw [List.length_cons] at bound
    refine List.Forall₂.cons ?_ (rest count (by omega))
    refine tables.encodeInstruction_eq_some.mpr ⟨decoded.length_eq ▸ few, rfl, rfl, ?_⟩
    refine List.Forall₂.flip (((List.forall₂_and_left _ _).mpr ⟨values, decoded⟩).imp ?_)
    rintro code value ⟨here, decoded⟩
    have before : built.length ≤ count := by omega
    obtain ⟨_, found, same⟩ := encodeValue_decoded here before
    obtain rfl := Option.some.inj (decoded.symm.trans found)
    exact same

/-- What is encoded is appended with numbers for its pointers. -/
theorem appendInstructions_encoded {pointers : List P} (few : pointers.length < 2 ^ 32)
    {built : List (Nat × Inst Nat)} {originals : List (P × Inst P)}
    {encoded : List EncodedInstruction} (numbered : built.map (·.1) = List.range built.length)
    (same : List.Forall₂ (fun item code => tables.encodeInstruction pointers item.2 = some code)
      originals encoded)
    (before : ValidFrom
      (fun index code => ∀ value ∈ code.arguments,
        value.isImmediate = true ∨ value.reference.toNat < index) built.length encoded) :
    appendInstructions built encoded =
      some (built ++ originals.mapIdx fun position item =>
        (built.length + position, item.2.rename pointers.idxOf)) := by
  induction same generalizing built with
  | nil =>
    rw [List.mapIdx_nil, List.append_nil]
    rfl
  | @cons item code originals encoded first rest ih =>
    obtain ⟨here, others⟩ := before
    obtain ⟨short, opcode, name, values⟩ := tables.encodeInstruction_eq_some.mp first
    have decoded : code.arguments.mapM (decodeValue (built.map (·.1))) =
        some (item.2.args.map (Value.rename pointers.idxOf)) := by
      rw [numbered, mapM_eq_some, List.forall₂_map_right_iff]
      refine ((List.forall₂_and_left _ _).mpr ⟨here, values.flip⟩).imp ?_
      rintro code value ⟨before, found⟩
      exact decodeValue_encoded few found before
    have longer : (built ++ [(built.length, item.2.rename pointers.idxOf)]).length =
        built.length + 1 := by
      rw [List.length_append, List.length_singleton]
    have later := @ih (built ++ [(built.length, item.2.rename pointers.idxOf)]) (by
      rw [List.map_append, numbered, longer, List.range_succ]
      rfl) (longer ▸ others)
    unfold appendInstructions
    rw [Option.bind_eq_bind, decoded, Option.bind_some, if_pos]
    · rw [← opcode, ← name]
      refine later.trans ?_
      rw [List.mapIdx_cons, longer, List.append_assoc]
      simp only [Nat.add_assoc, Nat.add_comm 1, List.singleton_append, Nat.add_zero]
    · rw [List.length_map]
      exact short.trans tables.maxArgCount_le

/-- A block is serialized as its encoded form, where that fits. -/
theorem serialize_eq_some {block : Block P} {bytes : Bytes} :
    tables.serialize block = some bytes ↔
      block.instructions.length ≤ maximumInstructions ∧
        ∃ ir, tables.encode block = some ir ∧ tables.writeIr ir = bytes ∧
          bytes.length ≤ maximumBytes := by
  unfold serialize
  split
  case isFalse many => simp [many]
  rename_i few
  rw [and_iff_right few, Option.bind_eq_bind, Option.bind_eq_some_iff]
  refine exists_congr fun ir => and_congr_right fun _ => ?_
  by_cases fits : (tables.writeIr ir).length ≤ maximumBytes
  · have written := Writer.raw_fits {} (tables.writeIr ir)
      (by rw [List.length_nil, Nat.zero_add]; exact fits)
    rw [written, if_pos rfl, Option.some.injEq, List.nil_append]
    constructor
    · rintro rfl
      exact ⟨rfl, fits⟩
    · exact And.left
  · have refused : (({} : Writer).raw (tables.writeIr ir)).valid = false := by
      refine Writer.raw_exceeds {} _ ?_ (by simp [writeIr, magic])
      rw [List.length_nil, Nat.zero_add]
      exact Nat.lt_of_not_le fits
    simp only [refused, Bool.false_eq_true, if_false]
    constructor
    · intro found
      contradiction
    · rintro ⟨rfl, other⟩
      exact absurd other fits

theorem deserialize_eq_some {bytes : Bytes} {block : Block Nat} :
    tables.deserialize bytes = some block ↔
      bytes.length ≤ maximumBytes ∧
        ∃ ir, tables.ReadableIr ir ∧ tables.writeIr ir = bytes ∧
          tables.validEncodedIr ir = .ok () ∧ decode ir = some block := by
  unfold deserialize
  constructor
  · intro found
    split at found
    case isFalse => contradiction
    rename_i sized
    obtain ⟨⟨ir, rest⟩, read, decoded⟩ := Option.bind_eq_some_iff.mp found
    dsimp only at decoded
    split at decoded
    case isFalse => contradiction
    rename_i checked
    obtain ⟨rfl, _, valid⟩ := checked
    obtain ⟨readable, rfl⟩ := tables.readIr_inverse.accepts read
    exact ⟨sized.2, ir, readable, (List.append_nil _).symm, valid, decoded⟩
  · rintro ⟨bound, ir, readable, rfl, valid, decoded⟩
    have read := tables.readIr_inverse.reads readable []
    rw [List.append_nil] at read
    have nonempty : tables.writeIr ir ≠ [] := by simp [writeIr, magic]
    have terminal : ir.terminal ≠ .invalid := by
      intro invalid
      have depth := readable.terminal
      rw [invalid] at depth
      exact depth
    rw [if_pos ⟨nonempty, bound⟩, read, Option.bind_eq_bind, Option.bind_some]
    dsimp only
    rw [if_pos ⟨rfl, terminal, valid⟩, decoded]

theorem length_of_encode {block : Block P} {ir : EncodedIr}
    (encoded : tables.encode block = some ir) :
    block.instructions.length = ir.instructions.length := by
  obtain ⟨instructions, listed, same⟩ := Option.bind_eq_some_iff.mp encoded
  obtain rfl := Option.some.inj same
  exact (mapM_eq_some.mp listed).length_eq

theorem encode_decoded {ir : EncodedIr} {block : Block Nat} (readable : tables.ReadableIr ir)
    (found : decode ir = some block) : tables.encode block = some ir := by
  obtain ⟨instructions, built, same⟩ := Option.bind_eq_some_iff.mp found
  obtain rfl := Option.some.inj same
  obtain ⟨_, rfl, numbered, codes⟩ :=
    @appendInstructions_decoded tables [] _ _ rfl readable.instructions built
  have length : instructions.length = ir.instructions.length := (codes _ le_rfl).length_eq
  have codes := codes instructions.length (by rw [List.length_nil, Nat.zero_add]; exact length.ge)
  have listed : instructions.mapM (fun item =>
      tables.encodeInstruction (List.range instructions.length) item.2) = some ir.instructions :=
    mapM_eq_some.mpr codes
  unfold encode
  dsimp only
  rw [numbered, listed]
  rfl

theorem decode_encoded {block : Block P} {ir : EncodedIr}
    (distinct : (block.instructions.map (·.1)).Nodup)
    (few : block.instructions.length ≤ maximumInstructions)
    (encoded : tables.encode block = some ir)
    (before : ValidFrom
      (fun index code => ∀ value ∈ code.arguments,
        value.isImmediate = true ∨ value.reference.toNat < index) 0 ir.instructions) :
    decode ir = some (block.rename block.position) := by
  obtain ⟨instructions, listed, same⟩ := Option.bind_eq_some_iff.mp encoded
  obtain rfl := Option.some.inj same
  have codes := mapM_eq_some.mp listed
  have numbered : block.instructions.mapIdx (fun number item =>
        (number, item.2.rename (block.instructions.map (·.1)).idxOf)) =
      (block.rename block.position).instructions := by
    refine List.ext_getElem (by simp [Block.rename]) fun number bound _ => ?_
    rw [List.length_mapIdx] at bound
    have position : block.position block.instructions[number].1 = number := by
      have found := distinct.idxOf_getElem number (by rw [List.length_map]; exact bound)
      rw [List.getElem_map] at found
      exact found
    simp only [List.getElem_mapIdx, Block.rename, List.getElem_map, position]
    rfl
  have built : appendInstructions [] instructions = _ :=
    tables.appendInstructions_encoded (by
      rw [List.length_map]
      unfold maximumInstructions at few
      omega) rfl codes before
  simp only [List.length_nil, Nat.zero_add, List.nil_append] at built
  unfold decode
  dsimp only
  rw [built, numbered]
  rfl

/-- What an admitted instruction is known to be. -/
structure Admitted (index : Nat) (instruction : EncodedInstruction) : Prop where
  declared : instruction.opcode.toNat < tables.opcodeCount
  counted : instruction.arguments.length = tables.getNumArgsOf instruction.opcode
  few : instruction.arguments.length ≤ tables.maxArgCount
  before : ∀ value ∈ instruction.arguments,
    value.isImmediate = true ∨ value.reference.toNat < index

/-- An associated pseudo-operation is noted with its parent; any other opcode only checks. -/
theorem relate_cases {instructions : List EncodedInstruction} {index : Nat}
    {instruction : EncodedInstruction} {scan next : Scan}
    (done : tables.relate instructions index instruction scan = .ok next) :
    ((tables.name instruction.opcode).associatedPseudo = false ∧ next = scan) ∨
    ((tables.name instruction.opcode).associatedPseudo = true ∧
      ∃ parent, instruction.arguments[0]? = some parent ∧ parent.isImmediate = false ∧
        (parent.reference, instruction.opcode) ∉ scan.associatedPseudoOperations ∧
        next = { scan with
          associatedPseudoOperations :=
            (parent.reference, instruction.opcode) :: scan.associatedPseudoOperations }) := by
  have pseudo : ∀ predicate,
      tables.validateAssociatedPseudo predicate instructions instruction scan = .ok next →
      ∃ parent, instruction.arguments[0]? = some parent ∧ parent.isImmediate = false ∧
        (parent.reference, instruction.opcode) ∉ scan.associatedPseudoOperations ∧
        next = { scan with
          associatedPseudoOperations :=
            (parent.reference, instruction.opcode) :: scan.associatedPseudoOperations } := by
    intro predicate done
    simp only [validateAssociatedPseudo, bind_eq_ok, at_eq_ok, require_eq_ok, Bool.not_eq_true',
      decide_eq_true_eq] at done
    obtain ⟨parent, first, _, reference, _, _, _, _, _, fresh, same⟩ := done
    exact ⟨parent, first, reference, fresh, (Except.ok.inj same).symm⟩
  unfold relate at done
  split at done
  case h_1 name | h_2 name | h_3 name =>
    rw [name]
    exact .inr ⟨rfl, pseudo _ done⟩
  case h_4 name | h_5 name =>
    rw [name]
    exact .inr ⟨rfl, pseudo _ done⟩
  case h_6 name | h_7 name | h_9 name | h_10 name =>
    obtain ⟨_, _, same⟩ := bind_eq_ok.mp done
    rw [name]
    exact .inl ⟨rfl, (Except.ok.inj same).symm⟩
  case h_8 name =>
    simp only [bind_eq_ok] at done
    obtain ⟨_, _, _, _, same⟩ := done
    rw [name]
    exact .inl ⟨rfl, (Except.ok.inj same).symm⟩
  case h_11 carry overflow ge upper lower _ _ _ _ _ =>
    refine .inl ⟨?_, (Except.ok.inj done).symm⟩
    cases name : tables.name instruction.opcode <;> first | rfl | contradiction

theorem relate_previousName {instructions : List EncodedInstruction} {index : Nat}
    {instruction : EncodedInstruction} {scan next : Scan}
    (done : tables.relate instructions index instruction scan = .ok next) :
    next.previousName = scan.previousName := by
  rcases tables.relate_cases done with ⟨_, rfl⟩ | ⟨_, _, _, _, _, rfl⟩
  · rfl
  · rfl

theorem allocate_previousName {instructions : List EncodedInstruction} {index : Nat}
    {instruction : EncodedInstruction} {scan next : Scan}
    (done : tables.allocate instructions index instruction scan = .ok next) :
    next.previousName = scan.previousName := by
  unfold allocate at done
  split at done
  · obtain ⟨_, _, same⟩ := bind_eq_ok.mp done
    rw [← Except.ok.inj same]
  · rw [← Except.ok.inj done]

theorem checkArguments_before {instructions : List EncodedInstruction} {index argumentIndex : Nat}
    {opcode : Opcode} {arguments : List EncodedValue} {u : Unit}
    (done : tables.checkArguments instructions index opcode argumentIndex arguments = .ok u) :
    ∀ value ∈ arguments, value.isImmediate = true ∨ value.reference.toNat < index := by
  induction arguments generalizing argumentIndex with
  | nil => simp
  | cons argument rest ih =>
    simp only [checkArguments, bind_eq_ok] at done
    obtain ⟨_, first, others⟩ := done
    simp only [checkArgument, bind_eq_ok, require_eq_ok, Bool.or_eq_true, decide_eq_true_eq] at first
    obtain ⟨_, here, _⟩ := first
    exact List.forall_mem_cons.mpr ⟨here, ih others⟩

theorem scanInstruction_ok {ir : EncodedIr} {index : Nat} {instruction : EncodedInstruction}
    {scan next : Scan} (done : tables.scanInstruction ir index instruction scan = .ok next) :
    tables.Admitted index instruction ∧ scan.previousName < instruction.name ∧
      instruction.name.toNat ≤ maximumInstructions ∧ next.previousName = instruction.name := by
  simp only [scanInstruction, bind_eq_ok] at done
  obtain ⟨retired, left, admitted, named, allocated, kept, _, checked, _, _, _, _, _, _, _, _, _, _,
    related⟩ := done
  simp only [retire, bind_eq_ok] at left
  obtain ⟨_, _, same⟩ := left
  obtain rfl := Except.ok.inj same
  simp only [accept, bind_eq_ok, require_eq_ok, emitterSafeOpcode, Bool.and_eq_true,
    decide_eq_true_eq] at named
  obtain ⟨_, ⟨⟨⟨⟨⟨⟨_, declared⟩, _⟩, increases⟩, bound⟩, counted⟩, few⟩, same⟩ := named
  obtain rfl := Except.ok.inj same
  refine ⟨⟨tables.declared_lt _ declared, counted, few, tables.checkArguments_before checked⟩,
    increases, bound, ?_⟩
  rw [tables.relate_previousName related]
  exact tables.allocate_previousName kept

/-- The names increase, so there are no more instructions than names. -/
theorem scanFrom_ok {ir : EncodedIr} {index : Nat} {instructions : List EncodedInstruction}
    {scan last : Scan} (done : tables.scanFrom ir index instructions scan = .ok last) :
    ValidFrom tables.Admitted index instructions ∧
      (scan.previousName.toNat ≤ maximumInstructions →
        scan.previousName.toNat + instructions.length ≤ maximumInstructions) := by
  induction instructions generalizing index scan with
  | nil => exact ⟨trivial, id⟩
  | cons instruction rest ih =>
    obtain ⟨next, first, later⟩ := bind_eq_ok.mp done
    obtain ⟨admitted, increases, bound, name⟩ := tables.scanInstruction_ok first
    obtain ⟨others, length⟩ := ih later
    refine ⟨⟨admitted, others⟩, fun _ => ?_⟩
    rw [name] at length
    have rest := length bound
    have less := BitVec.lt_def.mp increases
    rw [List.length_cons]
    omega

theorem readable_of_validTerminal {location : LocationDescriptor} {hasSetCheckBit : Bool}
    {terminal : Terminal} {depths : Nat}
    (valid : tables.validTerminal location hasSetCheckBit terminal = true)
    (depth : terminal.depth < depths) : terminal.Readable depths := by
  induction terminal generalizing depths with
  | invalid => contradiction
  | interpret next count =>
    cases depths with
    | zero => exact absurd depth (Nat.not_lt_zero _)
    | succ depths =>
      simp only [validTerminal, Bool.and_eq_true, decide_eq_true_eq] at valid
      obtain ⟨⟨⟨_, rfl⟩, _⟩, _⟩ := valid
      change (1 : BitVec 64) ≠ 0
      decide
  | returnToDispatch | linkBlock | linkBlockFast | popRSBHint | fastDispatchHint =>
    cases depths with
    | zero => exact absurd depth (Nat.not_lt_zero _)
    | succ depths => trivial
  | ifThen condition then_ else_ left right =>
    cases depths with
    | zero => exact absurd depth (Nat.not_lt_zero _)
    | succ depths =>
      simp only [validTerminal, Bool.and_eq_true, decide_eq_true_eq] at valid
      obtain ⟨⟨bound, first⟩, second⟩ := valid
      obtain ⟨shallow, low⟩ := max_lt_iff.mp (Nat.lt_of_succ_lt_succ depth)
      exact ⟨bound, left first shallow, right second low⟩
  | checkBit then_ else_ left right =>
    cases depths with
    | zero => exact absurd depth (Nat.not_lt_zero _)
    | succ depths =>
      simp only [validTerminal, Bool.and_eq_true] at valid
      obtain ⟨⟨_, first⟩, second⟩ := valid
      obtain ⟨shallow, low⟩ := max_lt_iff.mp (Nat.lt_of_succ_lt_succ depth)
      exact ⟨left first shallow, right second low⟩
  | checkHalt else_ ih =>
    cases depths with
    | zero => exact absurd depth (Nat.not_lt_zero _)
    | succ depths => exact ih valid (Nat.lt_of_succ_lt_succ depth)

/-- A block whose conditions are admitted and whose encoded form is valid is read back. -/
theorem readableIr_of_valid {block : Block P} {ir : EncodedIr}
    (encoded : tables.encode block = some ir) (valid : tables.validEncodedIr ir = .ok ())
    (depth : block.terminal.depth ≤ maximumTerminalDepth) (condition : block.condition ≤ Cond.al)
    (conditions : ∀ item ∈ block.instructions, ∀ immediate, Value.cond immediate ∈ item.2.args →
      immediate ≤ Cond.al) :
    tables.ReadableIr ir ∧ ValidFrom tables.Admitted 0 ir.instructions := by
  obtain ⟨instructions, listed, same⟩ := Option.bind_eq_some_iff.mp encoded
  obtain rfl := Option.some.inj same
  have codes := mapM_eq_some.mp listed
  simp only [validEncodedIr, bind_eq_ok, require_eq_ok] at valid
  obtain ⟨_, _, _, _, scan, scanned, terminal⟩ := valid
  obtain ⟨admitted, few⟩ := tables.scanFrom_ok scanned
  refine ⟨⟨condition, ?_, ?_, ?_⟩, admitted⟩
  · have bound := few (Nat.zero_le _)
    exact (Nat.le_add_left _ _).trans bound
  · rw [validFrom_iff] at admitted ⊢
    intro index bound
    have here := admitted index bound
    refine ⟨here.declared, here.counted, here.few, fun code listed => ?_⟩
    have within : index < block.instructions.length := codes.length_eq ▸ bound
    obtain ⟨_, _, _, values⟩ := tables.encodeInstruction_eq_some.mp (codes.get within bound)
    obtain ⟨argument, place, rfl⟩ := List.getElem_of_mem listed
    have placed : argument < (block.instructions.get ⟨index, within⟩).2.args.length :=
      values.length_eq ▸ place
    refine readable_of_encodeValue (values.get placed place) (here.before _ listed) ?_
    intro immediate same
    refine conditions _ (List.get_mem _ ⟨index, within⟩) immediate ?_
    rw [← same]
    exact List.get_mem _ ⟨argument, placed⟩
  · exact tables.readable_of_validTerminal terminal (Nat.lt_succ_of_le depth)

/-- An artifact that is accepted is what its block is written as; and a block that is valid
and fits, with no condition above `AL`, is accepted as it was, its instructions at the numbers
of their positions. -/
theorem artifact_round_trips :
    (∀ bytes block, tables.deserialize bytes = some block → tables.serialize block = some bytes) ∧
    ∀ (block : Block P) ir, (block.instructions.map (·.1)).Nodup →
      tables.encode block = some ir → tables.validEncodedIr ir = .ok () →
      block.terminal.depth ≤ maximumTerminalDepth → (tables.writeIr ir).length ≤ maximumBytes →
      block.condition ≤ Cond.al →
      (∀ item ∈ block.instructions, ∀ immediate, Value.cond immediate ∈ item.2.args →
        immediate ≤ Cond.al) →
      ∃ bytes, tables.serialize block = some bytes ∧
        tables.deserialize bytes = some (block.rename block.position) := by
  constructor
  · intro bytes block accepted
    obtain ⟨fits, ir, readable, rfl, _, decoded⟩ := tables.deserialize_eq_some.mp accepted
    have encoded := tables.encode_decoded readable decoded
    refine tables.serialize_eq_some.mpr ⟨?_, ir, encoded, rfl, fits⟩
    rw [tables.length_of_encode encoded]
    exact readable.few
  · intro block ir distinct encoded valid depth fits condition conditions
    obtain ⟨readable, admitted⟩ :=
      tables.readableIr_of_valid encoded valid depth condition conditions
    have few : block.instructions.length ≤ maximumInstructions := by
      rw [tables.length_of_encode encoded]
      exact readable.few
    refine ⟨tables.writeIr ir,
      tables.serialize_eq_some.mpr ⟨few, ir, encoded, rfl, fits⟩,
      tables.deserialize_eq_some.mpr ⟨fits, ir, readable, rfl, valid, ?_⟩⟩
    refine tables.decode_encoded distinct few encoded (validFrom_iff.mpr fun index bound => ?_)
    exact (validFrom_iff.mp admitted index bound).before

end Tables

/-- The tables for the reading and the writing of a register. -/
def registerTables : Tables where
  opcodeCount := 2
  maxArgCount := 4
  maxArgCount_le := le_rfl
  getNumArgsOf opcode := if opcode = 0 then 1 else 2
  getTypeOf opcode := if opcode = 0 then .u32 else .void
  getArgTypeOf _ argument := if argument = 0 then .a32Reg else .u32
  areTypesCompatible first second :=
    first = second || first = .opaqueValue || second = .opaqueValue
  typeValue type := BitVec.ofNat 16 (ValueType.all.idxOf type)
  typeValue_injective := by
    have back : ∀ type, ValueType.all[(BitVec.ofNat 16 (ValueType.all.idxOf type)).toNat]? = some type := by
      intro type
      cases type <;> rfl
    intro a b same
    have first := back a
    rw [same, back b] at first
    exact (Option.some.inj first).symm
  name opcode := if opcode = 0 then .a32GetRegister else .a32SetRegister
  declared opcode := opcode.toNat < 2
  declared_lt _ found := of_decide_eq_true found
  fpAbs16 := 2
  fpVectorToUnsignedFixed64 := 1
  pc location := (location >>> 32).setWidth 32
  tFlag location := location.getLsbD 0
  eFlag location := location.getLsbD 1
  singleStepping location := location.getLsbD 2
  fpscr location := location.setWidth 32 &&& 0x07f70000
  rMode location := (location >>> 22).setWidth 8 &&& 3
  repacked location := location &&& 0xffffffff07f7ff07

/-- A register is copied to another one, under a condition of the block. -/
def copyBlock (condition : Cond) (conditionFailed : Option LocationDescriptor)
    (conditionFailedCycles : BitVec 64) : Block Nat where
  location := 0x1000 <<< 32
  endLocation := 0x1008 <<< 32
  condition
  conditionFailed
  conditionFailedCycles
  cycles := 2
  instructions :=
    [(70, ⟨0, 1, [.a32Reg 3]⟩), (40, ⟨1, 2, [.a32Reg 4, .inst 70]⟩)]
  terminal := .ifThen 0 (.linkBlock (0x1008 <<< 32)) .returnToDispatch

def copyIr (condition : Cond) (conditionFailed : Option LocationDescriptor)
    (conditionFailedCycles : BitVec 64) : EncodedIr where
  location := 0x1000 <<< 32
  endLocation := 0x1008 <<< 32
  condition
  conditionFailed
  conditionFailedCycles
  cycles := 2
  instructions :=
    [⟨0, 1, [{ tag := .immediate, type := .a32Reg, scalar := 3 }]⟩,
     ⟨1, 2, [{ tag := .immediate, type := .a32Reg, scalar := 4 },
       { tag := .reference, type := .opaqueValue, reference := 0 }]⟩]
  terminal := .ifThen 0 (.linkBlock (0x1008 <<< 32)) .returnToDispatch

theorem artifact_round_trips_copied :
    ∃ bytes block, registerTables.serialize (copyBlock 14 none 0) = some bytes ∧
      registerTables.deserialize bytes = some block ∧
      registerTables.serialize block = some bytes := by
  obtain ⟨bytes, written, accepted⟩ :=
    (registerTables.artifact_round_trips (P := Nat)).2 (copyBlock 14 none 0) (copyIr 14 none 0)
      (by decide) rfl (by decide) (by decide) (by decide) (by decide) (by simp [copyBlock])
  exact ⟨bytes, _, written, accepted,
    (registerTables.artifact_round_trips (P := Nat)).1 _ _ accepted⟩

/-- The condition above `AL` is valid, but no reader admits it. -/
theorem condition_above_al_refused :
    ∃ ir bytes, registerTables.encode (copyBlock 15 (some (0x1004 <<< 32)) 1) = some ir ∧
      registerTables.validEncodedIr ir = .ok () ∧
      (copyBlock 15 (some (0x1004 <<< 32)) 1).terminal.depth ≤ maximumTerminalDepth ∧
      (registerTables.writeIr ir).length ≤ maximumBytes ∧
      registerTables.serialize (copyBlock 15 (some (0x1004 <<< 32)) 1) = some bytes ∧
      (registerTables.deserialize bytes).isNone := by
  have encoded : registerTables.encode (copyBlock 15 (some (0x1004 <<< 32)) 1) =
      some (copyIr 15 (some (0x1004 <<< 32)) 1) := rfl
  refine ⟨_, _, encoded, by decide, by decide, by decide,
    registerTables.serialize_eq_some.mpr ⟨by decide, _, encoded, rfl, by decide⟩, ?_⟩
  decide

end ILEmu.Dynarmic
