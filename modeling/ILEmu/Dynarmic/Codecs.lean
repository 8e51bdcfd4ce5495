import ILEmu.Dynarmic.Artifact

/-! What each reader of an artifact accepts is what its writer makes of the values it admits. -/
namespace ILEmu.Dynarmic
open Foundation

namespace Terminal

/-- The terminals that are read where so many depths are left. -/
def Readable : Nat → Terminal → Prop
  | 0, _ => False
  | _ + 1, .invalid => False
  | _ + 1, .interpret _ numInstructions => numInstructions ≠ 0
  | depths + 1, .ifThen condition then_ else_ =>
    condition ≤ Cond.al ∧ Readable depths then_ ∧ Readable depths else_
  | depths + 1, .checkBit then_ else_ => Readable depths then_ ∧ Readable depths else_
  | depths + 1, .checkHalt else_ => Readable depths else_
  | _ + 1, _ => True

def tag : Terminal → BitVec 8
  | .invalid => 0
  | .interpret .. => 1
  | .returnToDispatch => 2
  | .linkBlock _ => 3
  | .linkBlockFast _ => 4
  | .popRSBHint => 5
  | .fastDispatchHint => 6
  | .ifThen .. => 7
  | .checkBit .. => 8
  | .checkHalt _ => 9

/-- What a terminal writes after its tag. -/
def body (depth : Nat) : Terminal → Bytes
  | .interpret next numInstructions => word 8 next ++ word 8 numInstructions
  | .linkBlock next | .linkBlockFast next => word 8 next
  | .ifThen condition then_ else_ =>
    BitVec.ofNat 8 condition.val ::
      (writeTerminal (depth + 1) then_ ++ writeTerminal (depth + 1) else_)
  | .checkBit then_ else_ => writeTerminal (depth + 1) then_ ++ writeTerminal (depth + 1) else_
  | .checkHalt else_ => writeTerminal (depth + 1) else_
  | _ => []

end Terminal

theorem writeTerminal_eq {depth : Nat} (bound : depth ≤ maximumTerminalDepth)
    (terminal : Terminal) :
    writeTerminal depth terminal = terminal.tag :: terminal.body depth := by
  cases terminal <;> rw [writeTerminal.eq_def, if_neg (Nat.not_lt.mpr bound)] <;> rfl

/-- A condition is written as the byte of its number. -/
theorem condition_byte {byte : BitVec 8} {condition : Cond} :
    validCondition byte.toNat = true ∧ Fin.ofNat 16 byte.toNat = condition ↔
      condition ≤ Cond.al ∧ byte = BitVec.ofNat 8 condition.val := by
  have small := condition.isLt
  have width := byte.isLt
  constructor
  · rintro ⟨bound, rfl⟩
    have le : byte.toNat ≤ 14 := by simpa [validCondition] using bound
    have same : (Fin.ofNat 16 byte.toNat).val = byte.toNat := Nat.mod_eq_of_lt (by omega)
    refine ⟨Fin.le_def.mpr (same.le.trans le), ?_⟩
    rw [same, BitVec.ofNat_toNat, BitVec.setWidth_eq]
  · rintro ⟨bound, rfl⟩
    have le : condition.val ≤ 14 := Fin.le_def.mp bound
    have same : (BitVec.ofNat 8 condition.val).toNat = condition.val := by
      rw [BitVec.toNat_ofNat]
      omega
    rw [same]
    exact ⟨decide_eq_true le, Fin.ext (Nat.mod_eq_of_lt small)⟩

theorem readTerminal_inverse (depths depth : Nat)
    (total : depth + depths = maximumTerminalDepth + 1) :
    Inverse (Terminal.Readable depths) (writeTerminal depth) (readTerminal depths) := by
  induction depths generalizing depth with
  | zero =>
    intro bytes terminal rest
    simp [readTerminal, Terminal.Readable]
  | succ depths ih =>
    have inner := ih (depth + 1) (by omega)
    have bound : depth ≤ maximumTerminalDepth := by omega
    intro bytes terminal rest
    rw [writeTerminal_eq bound]
    unfold readTerminal
    simp only [Option.bind_eq_bind]
    rw [readByte_inverse.bind_iff]
    constructor
    · rintro ⟨byte, _, tail, rfl, found⟩
      dsimp only at found
      have tagged : ∀ number, byte.toNat = number → byte = BitVec.ofNat 8 number := by
        rintro _ rfl
        rw [BitVec.ofNat_toNat, BitVec.setWidth_eq]
      split at found
      case _ number =>
        obtain rfl := tagged _ number
        simp only [(readWord_inverse 8).bind_iff] at found
        obtain ⟨next, _, tail, rfl, count, _, tail, rfl, found⟩ := found
        split at found
        · contradiction
        · rename_i some_
          obtain ⟨rfl, rfl⟩ := Prod.mk.inj (Option.some.inj found)
          exact ⟨some_, by simp [Terminal.tag, Terminal.body]⟩
      case h_2 number | h_5 number | h_6 number =>
        obtain rfl := tagged _ number
        obtain ⟨rfl, rfl⟩ := Prod.mk.inj (Option.some.inj found)
        exact ⟨trivial, rfl⟩
      case h_3 number | h_4 number =>
        obtain rfl := tagged _ number
        simp only [(readWord_inverse 8).bind_iff] at found
        obtain ⟨next, _, tail, rfl, found⟩ := found
        obtain ⟨rfl, rfl⟩ := Prod.mk.inj (Option.some.inj found)
        exact ⟨trivial, rfl⟩
      case _ number =>
        obtain rfl := tagged _ number
        rw [readByte_inverse.bind_iff] at found
        obtain ⟨condition, _, tail, rfl, found⟩ := found
        dsimp only at found
        split at found
        · rename_i valid
          simp only [inner.bind_iff] at found
          obtain ⟨then_, left, tail, rfl, else_, right, tail, rfl, found⟩ := found
          obtain ⟨rfl, rfl⟩ := Prod.mk.inj (Option.some.inj found)
          obtain ⟨bound, written⟩ := condition_byte.mp ⟨valid, rfl⟩
          refine ⟨⟨bound, left, right⟩, ?_⟩
          simp only [Terminal.tag, Terminal.body, List.cons_append, List.append_assoc, ← written]
          rfl
        · contradiction
      case _ number =>
        obtain rfl := tagged _ number
        simp only [inner.bind_iff] at found
        obtain ⟨then_, left, tail, rfl, else_, right, tail, rfl, found⟩ := found
        obtain ⟨rfl, rfl⟩ := Prod.mk.inj (Option.some.inj found)
        exact ⟨⟨left, right⟩, by simp [Terminal.tag, Terminal.body]⟩
      case _ number =>
        obtain rfl := tagged _ number
        simp only [inner.bind_iff] at found
        obtain ⟨else_, here, tail, rfl, found⟩ := found
        obtain ⟨rfl, rfl⟩ := Prod.mk.inj (Option.some.inj found)
        exact ⟨here, rfl⟩
      case _ => contradiction
    · rintro ⟨readable, rfl⟩
      refine ⟨terminal.tag, trivial, terminal.body depth ++ rest, rfl, ?_⟩
      dsimp only
      cases terminal with
      | invalid => exact readable.elim
      | returnToDispatch | popRSBHint | fastDispatchHint => rfl
      | interpret next count =>
        simp only [Terminal.tag, Terminal.body, BitVec.reduceToNat, List.append_assoc,
          (readWord_inverse 8).reads trivial, Option.bind_some]
        exact if_neg readable
      | linkBlock next | linkBlockFast next =>
        simp only [Terminal.tag, Terminal.body, BitVec.reduceToNat,
          (readWord_inverse 8).reads trivial, Option.bind_some]
      | ifThen condition then_ else_ =>
        obtain ⟨bound, left, right⟩ := readable
        obtain ⟨valid, same⟩ := condition_byte.mpr ⟨bound, rfl⟩
        simp only [Terminal.tag, Terminal.body, BitVec.reduceToNat, List.cons_append,
          List.append_assoc, readByte, Option.bind_some, valid, if_true, same, inner.reads left,
          inner.reads right]
      | checkBit then_ else_ =>
        obtain ⟨left, right⟩ := readable
        simp only [Terminal.tag, Terminal.body, BitVec.reduceToNat, List.append_assoc,
          inner.reads left, inner.reads right, Option.bind_some]
      | checkHalt else_ =>
        simp only [Terminal.tag, Terminal.body, BitVec.reduceToNat, inner.reads readable,
          Option.bind_some]

/-- The values that are read back where so many instructions came before. -/
def EncodedValue.Readable (currentIndex : Nat) (value : EncodedValue) : Prop :=
  match value.tag with
  | .reference =>
    value.reference.toNat < currentIndex ∧ value.type = .opaqueValue ∧ value.scalar = 0
      ∧ value.coprocessor = Vector.replicate 8 0
  | .immediate =>
    value.reference = 0 ∧
      match value.type.scalar with
      | some (count, admits) =>
        value.scalar.toNat < 256 ^ count ∧ admits value.scalar.toNat = true
          ∧ value.coprocessor = Vector.replicate 8 0
      | none =>
        value.scalar = 0 ∧
          match value.type with
          | .coprocInfo => True
          | .nzcvFlags => value.coprocessor = Vector.replicate 8 0
          | _ => False

/-- What an immediate writes after its type. -/
def EncodedValue.immediateBody (value : EncodedValue) : Bytes :=
  match value.type.scalar with
  | some (count, _) => littleEndian count value.scalar.toNat
  | none =>
    match value.type with
    | .coprocInfo => value.coprocessor.toList
    | .nzcvFlags => []
    | _ => [0xff]

theorem ValueType.scalar_width {type : ValueType} {count : Nat} {admits : Nat → Bool}
    (found : type.scalar = some (count, admits)) : 256 ^ count ≤ 2 ^ 64 := by
  cases type <;> simp only [ValueType.scalar, Option.some.injEq, Prod.mk.injEq, reduceCtorEq] at found
    <;> obtain ⟨rfl, _⟩ := found <;> decide

theorem readImmediate_inverse (type : ValueType) :
    Inverse (fun value => (value.tag = .immediate ∧ value.Readable 0) ∧ value.type = type)
      EncodedValue.immediateBody (Tables.readImmediate type) := by
  intro bytes value rest
  unfold Tables.readImmediate
  cases scalar : type.scalar with
  | some entry =>
    obtain ⟨count, admits⟩ := entry
    have width := ValueType.scalar_width scalar
    simp only [Option.bind_eq_bind]
    rw [(readLittleEndian_inverse count).bind_iff]
    constructor
    · rintro ⟨number, bound, tail, rfl, found⟩
      dsimp only at found
      split at found
      · rename_i admitted
        obtain ⟨rfl, rfl⟩ := Prod.mk.inj (Option.some.inj found)
        have same : (BitVec.ofNat 64 number).toNat = number := by
          rw [BitVec.toNat_ofNat]
          exact Nat.mod_eq_of_lt (bound.trans_le width)
        refine ⟨⟨⟨rfl, ?_⟩, rfl⟩, ?_⟩
        · simp only [EncodedValue.Readable, scalar, same]
          exact ⟨trivial, bound, admitted, trivial⟩
        · simp only [EncodedValue.immediateBody, scalar, same]
      · contradiction
    · rintro ⟨⟨⟨tag, readable⟩, rfl⟩, rfl⟩
      obtain ⟨_, kind, reference, number, coprocessor⟩ := value
      obtain rfl := tag
      simp only [EncodedValue.Readable, scalar] at readable
      obtain ⟨rfl, bound, admitted, rfl⟩ := readable
      refine ⟨number.toNat, bound, rest, ?_, ?_⟩
      · simp only [EncodedValue.immediateBody, scalar]
      · simp only [admitted, if_true, BitVec.ofNat_toNat, BitVec.setWidth_eq]
  | none =>
    dsimp only
    split
    · simp only [Option.bind_eq_bind]
      rw [(readRaw_inverse 8).bind_iff]
      constructor
      · rintro ⟨raw, length, tail, rfl, found⟩
        dsimp only at found
        rw [dif_pos length] at found
        obtain ⟨rfl, rfl⟩ := Prod.mk.inj (Option.some.inj found)
        exact ⟨⟨⟨rfl, rfl, rfl, trivial⟩, rfl⟩, rfl⟩
      · rintro ⟨⟨⟨tag, readable⟩, kind⟩, rfl⟩
        obtain ⟨_, _, reference, number, coprocessor⟩ := value
        obtain rfl := tag
        obtain rfl := kind
        obtain ⟨rfl, rfl, _⟩ := readable
        have length : coprocessor.toList.length = 8 := coprocessor.length_toList
        refine ⟨coprocessor.toList, length, rest, rfl, ?_⟩
        dsimp only
        rw [dif_pos length]
        rfl
    · constructor
      · intro found
        obtain ⟨rfl, rfl⟩ := Prod.mk.inj (Option.some.inj found)
        exact ⟨⟨⟨rfl, rfl, rfl, rfl⟩, rfl⟩, rfl⟩
      · rintro ⟨⟨⟨tag, readable⟩, kind⟩, rfl⟩
        obtain ⟨_, _, reference, number, coprocessor⟩ := value
        obtain rfl := tag
        obtain rfl := kind
        obtain ⟨rfl, rfl, rfl⟩ := readable
        rfl
    · constructor
      · intro found
        contradiction
      · rintro ⟨⟨⟨tag, readable⟩, rfl⟩, rfl⟩
        simp only [EncodedValue.Readable, tag, scalar] at readable
        exact readable.2.2.elim

theorem EncodedValue.Readable.immediate {index₁ index₂ : Nat} {value : EncodedValue}
    (tag : value.tag = .immediate) : value.Readable index₁ ↔ value.Readable index₂ := by
  unfold EncodedValue.Readable
  rw [tag]

namespace Tables
variable (tables : Tables)

theorem typeOfValue_eq_some {raw : BitVec 16} {type : ValueType} :
    tables.typeOfValue raw = some type ↔ tables.typeValue type = raw := by
  unfold typeOfValue
  constructor
  · intro found
    have same := List.find?_some found
    exact of_decide_eq_true same
  · rintro rfl
    have listed : type ∈ ValueType.all := by cases type <;> decide
    cases found : ValueType.all.find? fun other => tables.typeValue other = tables.typeValue type with
    | none => exact absurd (List.find?_eq_none.mp found type listed) (by simp)
    | some other =>
      have same := List.find?_some found
      rw [tables.typeValue_injective _ _ (of_decide_eq_true same)]

theorem writeEncodedValue_immediate {value : EncodedValue} (tag : value.tag = .immediate) :
    tables.writeEncodedValue value =
      1 :: (word 2 (tables.typeValue value.type) ++ value.immediateBody) := by
  rw [writeEncodedValue, tag]
  rfl

theorem readEncodedValue_inverse (currentIndex : Nat) :
    Inverse (EncodedValue.Readable currentIndex) tables.writeEncodedValue
      (tables.readEncodedValue currentIndex) := by
  intro bytes value rest
  unfold readEncodedValue
  simp only [Option.bind_eq_bind]
  rw [readByte_inverse.bind_iff]
  constructor
  · rintro ⟨byte, _, tail, rfl, found⟩
    dsimp only at found
    have tagged : ∀ number, byte.toNat = number → byte = BitVec.ofNat 8 number := by
      rintro _ rfl
      rw [BitVec.ofNat_toNat, BitVec.setWidth_eq]
    split at found
    case h_1 number =>
      obtain rfl := tagged _ number
      rw [(readWord_inverse 4).bind_iff] at found
      obtain ⟨reference, _, tail, rfl, found⟩ := found
      dsimp only at found
      split at found
      · rename_i bound
        obtain ⟨rfl, rfl⟩ := Prod.mk.inj (Option.some.inj found)
        exact ⟨⟨bound, rfl, rfl, rfl⟩, rfl⟩
      · contradiction
    case h_2 number =>
      obtain rfl := tagged _ number
      rw [(readWord_inverse 2).bind_iff] at found
      obtain ⟨raw, _, tail, rfl, found⟩ := found
      obtain ⟨type, known, found⟩ := Option.bind_eq_some_iff.mp found
      obtain rfl := tables.typeOfValue_eq_some.mp known
      obtain ⟨⟨⟨tag, readable⟩, rfl⟩, rfl⟩ := (readImmediate_inverse type).accepts found
      refine ⟨(EncodedValue.Readable.immediate tag).mp readable, ?_⟩
      rw [tables.writeEncodedValue_immediate tag]
      exact congrArg (1 :: ·) (List.append_assoc _ _ _).symm
    case h_3 => contradiction
  · rintro ⟨readable, rfl⟩
    cases tag : value.tag with
    | reference =>
      obtain ⟨_, kind, reference, number, coprocessor⟩ := value
      obtain rfl := tag
      obtain ⟨bound, rfl, rfl, rfl⟩ := readable
      refine ⟨0, trivial, word 4 reference ++ rest, rfl, ?_⟩
      simp only [BitVec.reduceToNat, (readWord_inverse 4).reads trivial, Option.bind_some, bound,
        if_true]
    | immediate =>
      refine ⟨1, trivial, word 2 (tables.typeValue value.type) ++ (value.immediateBody ++ rest), ?_,
        ?_⟩
      · rw [tables.writeEncodedValue_immediate tag]
        exact congrArg (1 :: ·) (List.append_assoc _ _ _)
      · have found := (readImmediate_inverse value.type).reads
          ⟨⟨tag, (EncodedValue.Readable.immediate tag).mp readable⟩, rfl⟩ rest
        simp only [BitVec.reduceToNat, (readWord_inverse 2).reads trivial, Option.bind_some,
          tables.typeOfValue_eq_some.mpr rfl, found]

/-- The instructions that are read back where so many came before. -/
def ReadableInstruction (index : Nat) (instruction : EncodedInstruction) : Prop :=
  instruction.opcode.toNat < tables.opcodeCount
    ∧ instruction.arguments.length = tables.getNumArgsOf instruction.opcode
    ∧ instruction.arguments.length ≤ tables.maxArgCount
    ∧ ∀ value ∈ instruction.arguments, value.Readable index

theorem validFrom_const {α : Type} {valid : α → Prop} {index : Nat} {values : List α} :
    ValidFrom (fun _ => valid) index values ↔ ∀ value ∈ values, valid value := by
  induction values generalizing index with
  | nil => simp [ValidFrom]
  | cons value rest ih => rw [ValidFrom, ih, List.forall_mem_cons]

theorem readInstruction_inverse (index : Nat) :
    Inverse (tables.ReadableInstruction index) tables.writeInstruction
      (tables.readInstruction index) := by
  have arguments := readMany_inverse fun _ : Nat => tables.readEncodedValue_inverse index
  intro bytes instruction rest
  unfold readInstruction
  simp only [Option.bind_eq_bind, (readWord_inverse 4).bind_iff, readByte_inverse.bind_iff]
  constructor
  · rintro ⟨opcode, _, tail, rfl, name, _, tail, rfl, count, _, tail, rfl, found⟩
    split at found
    · rename_i counted
      rw [(arguments 0 count.toNat).bind_iff] at found
      obtain ⟨values, ⟨length, readable⟩, tail, rfl, found⟩ := found
      obtain ⟨rfl, rfl⟩ := Prod.mk.inj (Option.some.inj found)
      refine ⟨⟨counted.1, length.trans counted.2.1, length.le.trans counted.2.2,
        validFrom_const.mp readable⟩, ?_⟩
      simp only [writeInstruction, length, BitVec.ofNat_toNat, BitVec.setWidth_eq,
        List.append_assoc, List.cons_append, List.nil_append]
    · contradiction
  · rintro ⟨⟨bound, counted, few, readable⟩, rfl⟩
    have small := few.trans tables.maxArgCount_le
    have same : (BitVec.ofNat 8 instruction.arguments.length).toNat =
        instruction.arguments.length := by
      rw [BitVec.toNat_ofNat]
      omega
    refine ⟨instruction.opcode, trivial, _, List.append_assoc _ _ _, instruction.name, trivial, _,
      List.append_assoc _ _ _, BitVec.ofNat 8 instruction.arguments.length, trivial, _, rfl, ?_⟩
    rw [same, if_pos ⟨bound, counted, few⟩, (arguments 0 _).bind_iff]
    exact ⟨instruction.arguments, ⟨rfl, validFrom_const.mpr readable⟩, rest, rfl, rfl⟩

theorem readLocation?_inverse : Inverse (fun _ => True) writeLocation? readLocation? := by
  intro bytes location rest
  unfold readLocation?
  simp only [Option.bind_eq_bind]
  rw [readByte_inverse.bind_iff]
  constructor
  · rintro ⟨byte, _, tail, rfl, found⟩
    dsimp only at found
    have tagged : ∀ number, byte.toNat = number → byte = BitVec.ofNat 8 number := by
      rintro _ rfl
      rw [BitVec.ofNat_toNat, BitVec.setWidth_eq]
    split at found
    case h_1 number =>
      obtain rfl := tagged _ number
      obtain ⟨rfl, rfl⟩ := Prod.mk.inj (Option.some.inj found)
      exact ⟨trivial, rfl⟩
    case h_2 number =>
      obtain rfl := tagged _ number
      rw [(readWord_inverse 8).bind_iff] at found
      obtain ⟨location, _, tail, rfl, found⟩ := found
      obtain ⟨rfl, rfl⟩ := Prod.mk.inj (Option.some.inj found)
      exact ⟨trivial, rfl⟩
    case h_3 => contradiction
  · rintro ⟨_, rfl⟩
    cases location with
    | none => exact ⟨0, trivial, rest, rfl, rfl⟩
    | some location =>
      refine ⟨1, trivial, word 8 location ++ rest, rfl, ?_⟩
      simp only [BitVec.reduceToNat, (readWord_inverse 8).reads trivial, Option.bind_some]

/-- The encoded blocks that are read back. -/
structure ReadableIr (ir : EncodedIr) : Prop where
  condition : ir.condition ≤ Cond.al
  few : ir.instructions.length ≤ maximumInstructions
  instructions : ValidFrom tables.ReadableInstruction 0 ir.instructions
  terminal : ir.terminal.Readable (maximumTerminalDepth + 1)

theorem readIr_inverse : Inverse tables.ReadableIr tables.writeIr tables.readIr := by
  have instructions := readMany_inverse tables.readInstruction_inverse 0
  have terminal := readTerminal_inverse (maximumTerminalDepth + 1) 0 (Nat.zero_add _)
  intro bytes ir rest
  unfold readIr
  simp only [Option.bind_eq_bind]
  rw [(readRaw_inverse magic.length).bind_iff]
  constructor
  · rintro ⟨actualMagic, _, tail, rfl, found⟩
    by_cases sameMagic : actualMagic = magic
    case neg =>
      rw [if_neg sameMagic] at found
      contradiction
    rw [if_pos sameMagic, (readWord_inverse 4).bind_iff] at found
    obtain rfl := sameMagic
    obtain ⟨version, _, tail, rfl, found⟩ := found
    by_cases sameVersion : version = formatVersion
    case neg =>
      rw [if_neg sameVersion] at found
      contradiction
    rw [if_pos sameVersion] at found
    obtain rfl := sameVersion
    simp only [(readWord_inverse 8).bind_iff, readByte_inverse.bind_iff] at found
    obtain ⟨location, _, tail, rfl, endLocation, _, tail, rfl, condition, _, tail, rfl, found⟩ :=
      found
    split at found
    case isFalse => contradiction
    rename_i valid
    obtain ⟨bound, written⟩ := condition_byte.mp ⟨valid, rfl⟩
    simp only [readLocation?_inverse.bind_iff, (readWord_inverse 8).bind_iff,
      (readWord_inverse 4).bind_iff] at found
    obtain ⟨conditionFailed, _, tail, rfl, conditionFailedCycles, _, tail, rfl, cycles, _, tail,
      rfl, instructionCount, _, tail, rfl, found⟩ := found
    split at found
    case isFalse => contradiction
    rename_i few
    simp only [(instructions instructionCount.toNat).bind_iff, terminal.bind_iff] at found
    obtain ⟨items, ⟨length, readable⟩, tail, rfl, last, depth, tail, rfl, found⟩ := found
    obtain ⟨rfl, rfl⟩ := Prod.mk.inj (Option.some.inj found)
    refine ⟨⟨bound, length.le.trans few, readable, depth⟩, ?_⟩
    simp only [writeIr, id_eq, length, ← written, BitVec.ofNat_toNat, BitVec.setWidth_eq,
      List.append_assoc, List.cons_append, List.nil_append]
  · rintro ⟨readable, rfl⟩
    obtain ⟨valid, same⟩ := condition_byte.mpr ⟨readable.condition, rfl⟩
    have few := readable.few
    have count : (BitVec.ofNat 32 ir.instructions.length).toNat = ir.instructions.length := by
      rw [BitVec.toNat_ofNat]
      unfold maximumInstructions at few
      omega
    refine ⟨magic, rfl, _, List.append_assoc _ _ _, ?_⟩
    rw [if_pos rfl, List.append_assoc, (readWord_inverse 4).reads trivial, Option.bind_some]
    dsimp only
    rw [if_pos rfl, List.append_assoc, (readWord_inverse 8).reads trivial, Option.bind_some]
    dsimp only
    rw [List.append_assoc, (readWord_inverse 8).reads trivial, Option.bind_some, List.cons_append]
    dsimp only [readByte, Option.bind_some]
    rw [if_pos valid, List.append_assoc, readLocation?_inverse.reads trivial, Option.bind_some]
    dsimp only
    rw [List.append_assoc, (readWord_inverse 8).reads trivial, Option.bind_some]
    dsimp only
    rw [List.append_assoc, (readWord_inverse 8).reads trivial, Option.bind_some]
    dsimp only
    rw [List.append_assoc, (readWord_inverse 4).reads trivial, Option.bind_some]
    dsimp only
    rw [count, if_pos few, List.append_assoc,
      (instructions _).reads ⟨rfl, readable.instructions⟩, Option.bind_some]
    dsimp only
    rw [terminal.reads readable.terminal, Option.bind_some, same]

end Tables
end ILEmu.Dynarmic
