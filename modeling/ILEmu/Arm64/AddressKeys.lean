import ILEmu.Arm64.AddressDisplacements
import ILEmu.Foundation.Words

/-! The keys by which the compiler knows the memory accesses of a trace, and the bytes that the
accesses reach. -/
namespace ILEmu.Arm64
open Arm hiding Instruction InstructionKind
open ArmMemory ArmInterpreter Foundation

/-- An access, as the cache of addresses tells it from others. -/
structure Key where
  base : Register
  size : Nat
  offset : Word
  add : Bool
  load : Bool
  alignment : Nat
  naturalAlignment : Nat
  index : Option Register := none
  shift : ShiftKind := .lsl
  shiftAmount : Nat := 0
  pcBase : Option Word := none
  deriving DecidableEq, Repr

namespace MemoryEmitter

def address (inst : Instruction) (pc : Word) : Option Key :=
  if (!inst.index && !inst.writeback) || (inst.writeback && (writeback inst).isNone) ||
      (!inst.load && inst.rd = programCounter) then none
  else
    let loadPc := inst.load && inst.rd = programCounter && inst.kind ≠ .tableBranch
    let dual := decide (inst.kind = .dualTransfer)
    let key : Key :=
      { base := inst.rn
        size := if dual then 8 else inst.accessSize.bytes
        offset := if inst.immediateOperand && inst.index then inst.immediate else 0
        add := inst.add
        load := inst.load
        alignment := if loadPc || dual then 4 else 1
        naturalAlignment := inst.accessSize.bytes
        pcBase :=
          if inst.rn = programCounter then
            some (if inst.alignPc then (pc + inst.pcOffset) &&& ~~~3 else pc + inst.pcOffset)
          else none }
    if inst.immediateOperand then some key
    -- The carry of RRX can change within a trace.
    else if inst.registerShift || inst.rm = programCounter ||
        (inst.shift = .ror && inst.shiftAmount = 0) then none
    else
      some { key with index := some inst.rm, shift := inst.shift, shiftAmount := inst.shiftAmount }

end MemoryEmitter

namespace MultipleEmitter

def address (inst : Instruction) : Option Key :=
  if inst.rn = programCounter ∨ inst.registers = 0 ∨ inst.registers.getLsbD 15 = true ∨
      (inst.load = true ∧ inst.registers.getLsbD inst.rn.val = true) then none
  else
    let length := 4 * registerCount inst.registers
    let offset : Int :=
      (if inst.add then 0 else -(length : Int)) + if inst.index = inst.add then 4 else 0
    some
      { base := inst.rn
        size := length
        offset := BitVec.ofInt 32 (if offset < 0 then -offset else offset)
        add := decide (0 ≤ offset)
        load := inst.load
        alignment := 4
        naturalAlignment := 4 }

end MultipleEmitter

namespace VectorMemoryEmitter

def address (inst : Instruction) (operands : VectorTransferOperands) : Option Key :=
  if inst.rn = programCounter ∨ (inst.writeback = true ∧ writeback inst = none) then none
  else
    let scalar := decide (operands.mode = .scalarMultiple)
    some
      { base := inst.rn
        size := vectorTransferLength operands
        offset := if scalar && inst.index then inst.immediate else 0
        add := inst.add
        load := inst.load
        alignment := operands.alignment.toNat
        naturalAlignment := if scalar then 4 else operands.elementSize }

end VectorMemoryEmitter

/-- The key under which the access of an instruction is observed. -/
def accessKey (inst : Instruction) (pc : Word) : Option Key :=
  match inst.kind with
  | .transfer | .dualTransfer => MemoryEmitter.address inst pc
  | .multipleTransfer => MultipleEmitter.address inst
  | .vectorTransfer operands =>
    if inst.rn ≠ programCounter then VectorMemoryEmitter.address inst operands else none
  | _ => none

/-! ### The bytes of an access -/

/-- The first byte that a transfer reaches. -/
def accessAddress (profile : Profile) (inst : Instruction) (state : CpuThreadState) : Word :=
  match inst.kind with
  | .multipleTransfer =>
    (prepareMultiple state inst.transfer profile.memory.pcStoreOffset).address
  | .vectorTransfer _ =>
    (prepareVector state inst.transfer profile.memory.permitsUnaligned).address
  | _ => (prepare state inst.transfer profile.memory.pcStoreOffset).address

/-- How many bytes it reaches: its words, or its elements. -/
def accessLength (inst : Instruction) : Nat :=
  match inst.kind with
  | .dualTransfer => 8
  | .multipleTransfer => 4 * registerCount inst.registers
  | .vectorTransfer operands =>
    (vectorElements (vectorControl inst.transfer)).length * operands.elementSize
  | _ => inst.accessSize.bytes

/-- What the decoders make sure of: elements and alignments are powers of two, a lane is of one
register, and whole registers consist of whole elements. -/
structure WellFormed (operands : VectorTransferOperands) : Prop where
  element : operands.elementSize ∈ [1, 2, 4, 8]
  alignment : operands.alignment ∈ [1, 2, 4, 8, 16, 32]
  lane : operands.mode = .lane → operands.count = 1
  replicate : operands.mode = .replicate → 0 < operands.count

theorem vectorElements_length {inst : Instruction} {operands : VectorTransferOperands}
    (vector : inst.kind = .vectorTransfer operands) (formed : WellFormed operands) :
    (vectorElements (vectorControl inst.transfer)).length * operands.elementSize =
      vectorTransferLength operands := by
  have same : inst.transfer.vector = operands := by simp [Instruction.transfer, vector]
  obtain ⟨element, -, lane, replicate⟩ := formed
  unfold vectorElements vectorControl vectorTransferLength
  rw [same]
  dsimp only
  cases mode : operands.mode with
  | multiple =>
    simp only [List.length_flatMap, List.length_map, List.length_range, List.map_const',
      List.sum_replicate_nat]
    simp only [List.mem_cons, List.not_mem_nil, or_false] at element
    rcases element with size | size | size | size
    · rw [size]
      omega
    · rw [size]
      omega
    · rw [size]
      omega
    · rw [size]
      omega
  | lane => simp [lane mode]
  | replicate =>
    have positive := replicate mode
    simp only [List.length_map, List.length_take, List.length_range]
    rw [Nat.min_eq_left positive]
    exact Nat.one_mul _
  | scalarMultiple => simp

/-! ### Where the key says that the access is -/

/-- The offset that the access of a key adds to its base, or subtracts from it. -/
def Key.offsetValue (key : Key) (registers : Register → Word) : Word :=
  match key.index with
  | none => key.offset
  | some index => (Arm.shift (registers index) key.shift key.shiftAmount false false).value

def Key.address (key : Key) (registers : Register → Word) : Word :=
  if key.add then registers key.base + key.offsetValue registers
  else registers key.base - key.offsetValue registers

/-- The decoded facts of an instruction that its key rests on. -/
def Decoded (inst : Instruction) : Prop :=
  ∀ operands, inst.kind = .vectorTransfer operands → WellFormed operands

variable {profile : Profile} {inst : Instruction} {pc : Word} {key : Key} {state : CpuThreadState}

/-- Only RRX looks at the carry. -/
theorem shift_carry (value : Word) {kind : ShiftKind} {amount : Nat}
    (plain : ¬(kind = .ror ∧ amount = 0)) (carry : Bool) :
    (shift value kind amount carry false).value = (shift value kind amount false false).value := by
  unfold shift
  simp only [Bool.false_and, Bool.false_eq_true, if_false]
  cases kind with
  | lsl =>
    dsimp only
    split
    · rfl
    · rfl
  | lsr => rfl
  | asr => rfl
  | ror =>
    have rotates : amount ≠ 0 := fun zero => plain ⟨rfl, zero⟩
    simp [rotates]

theorem writeback_immediate {change : Change}
    (core : inst.kind = .transfer ∨ inst.kind = .dualTransfer)
    (moves : writeback inst = some change) : inst.immediateOperand = true := by
  unfold writeback at moves
  split at moves
  · contradiction
  · rcases core with kind | kind
    · simp only [kind] at moves
      split at moves
      · contradiction
      · rename_i kept
        simp only [Bool.or_eq_true, Bool.not_eq_true', not_or, Bool.not_eq_false] at kept
        exact kept.1
    · simp only [kind] at moves
      split at moves
      · contradiction
      · rename_i kept
        simp only [Bool.or_eq_true, Bool.not_eq_true', not_or, Bool.not_eq_false] at kept
        exact kept.1

theorem memoryKey_address (core : inst.kind = .transfer ∨ inst.kind = .dualTransfer)
    (general : inst.rn ≠ programCounter)
    (found : MemoryEmitter.address inst pc = some key) :
    key.base = inst.rn ∧ key.pcBase = none ∧
      (prepare state inst.transfer profile.memory.pcStoreOffset).address =
        key.address state.registers := by
  unfold MemoryEmitter.address at found
  split at found
  · contradiction
  · rename_i accepted
    simp only [Bool.or_eq_true, Bool.and_eq_true, Bool.not_eq_true', decide_eq_true_eq, not_or,
      not_and, Bool.not_eq_false] at accepted
    obtain ⟨⟨indexed, back⟩, -⟩ := accepted
    have base : readOperand state inst.transfer inst.rn = state.registers inst.rn :=
      readOperand_general general
    dsimp only at found
    split at found
    · rename_i immediate
      cases found
      refine ⟨rfl, by simp, ?_⟩
      have offset : transferOffset state inst.transfer = inst.immediate := if_pos immediate
      unfold prepare Key.address Key.offsetValue
      rw [offset]
      dsimp only
      rw [immediate]
      change (if inst.index then
          if inst.add then readOperand state inst.transfer inst.rn + inst.immediate
          else readOperand state inst.transfer inst.rn - inst.immediate
        else readOperand state inst.transfer inst.rn) = _
      rw [base]
      cases inst.index with
      | true => rfl
      | false =>
        cases inst.add with
        | true => simp
        | false => simp
    · rename_i register
      split at found
      · contradiction
      · rename_i plain
        cases found
        refine ⟨rfl, by simp, ?_⟩
        have pre : inst.index = true := by
          by_contra post
          have unindexed : inst.index = false := by simpa using post
          have writes := indexed unindexed
          cases known : writeback inst with
          | none => exact absurd (back writes) (by simp [known])
          | some change => exact register (writeback_immediate core known)
        simp only [Bool.or_eq_true, Bool.and_eq_true, decide_eq_true_eq, not_or] at plain
        obtain ⟨⟨-, source⟩, rotates⟩ := plain
        have offset : transferOffset state inst.transfer =
            (shift (state.registers inst.rm) inst.shift inst.shiftAmount false false).value := by
          unfold transferOffset
          rw [if_neg (show ¬inst.transfer.immediateOperand = true from register)]
          change (shift (readOperand state inst.transfer inst.rm) inst.shift inst.shiftAmount _
            false).value = _
          rw [readOperand_general source, shift_carry _ rotates]
        unfold prepare Key.address Key.offsetValue
        rw [offset]
        dsimp only
        change (if inst.index then
            if inst.add then readOperand state inst.transfer inst.rn + _
            else readOperand state inst.transfer inst.rn - _
          else readOperand state inst.transfer inst.rn) = _
        rw [base, pre]
        rfl

theorem multipleKey_address (found : MultipleEmitter.address inst = some key) :
    key.base = inst.rn ∧ inst.rn ≠ programCounter ∧
      (prepareMultiple state inst.transfer profile.memory.pcStoreOffset).address =
        key.address state.registers := by
  unfold MultipleEmitter.address at found
  split at found
  · contradiction
  · rename_i accepted
    simp only [not_or] at accepted
    cases found
    refine ⟨rfl, accepted.1, ?_⟩
    have either : ∀ (base : Word) (offset : Int),
        (if decide (0 ≤ offset) then base + BitVec.ofInt 32 (if offset < 0 then -offset else offset)
          else base - BitVec.ofInt 32 (if offset < 0 then -offset else offset)) =
        base + BitVec.ofInt 32 offset := by
      intro base offset
      rcases lt_or_ge offset 0 with below | above
      · have ⟨first, second⟩ : ¬0 ≤ offset ∧ offset < 0 := ⟨by omega, below⟩
        simp [first, second, BitVec.ofInt_neg, sub_eq_add_neg]
      · have second : ¬offset < 0 := by omega
        simp [above, second]
    unfold Key.address Key.offsetValue
    dsimp only
    rw [either]
    unfold prepareMultiple
    dsimp only
    change (if inst.add then state.registers inst.rn
      else state.registers inst.rn - BitVec.ofNat 32 (4 * registerCount inst.registers)) +
        (if inst.index = inst.add then 4 else 0) = _
    cases inst.add with
    | true => cases inst.index <;> simp
    | false =>
      have length : BitVec.ofInt 32 (-(4 * registerCount inst.registers : Nat)) =
          -BitVec.ofNat 32 (4 * registerCount inst.registers) := by
        rw [BitVec.ofInt_neg, BitVec.ofInt_natCast]
      cases inst.index with
      | true =>
        simp only [Bool.false_eq_true, if_false, add_zero, Bool.true_eq_false]
        rw [length, sub_eq_add_neg]
      | false =>
        simp only [Bool.false_eq_true, if_false, if_true]
        rw [BitVec.ofInt_add, length, sub_eq_add_neg, add_assoc]
        rfl

theorem vectorKey_address {operands : VectorTransferOperands}
    (vector : inst.kind = .vectorTransfer operands)
    (found : VectorMemoryEmitter.address inst operands = some key) :
    key.base = inst.rn ∧ inst.rn ≠ programCounter ∧
      (prepareVector state inst.transfer profile.memory.permitsUnaligned).address =
        key.address state.registers := by
  have same : inst.transfer.vector = operands := by simp [Instruction.transfer, vector]
  unfold VectorMemoryEmitter.address at found
  split at found
  · contradiction
  · rename_i accepted
    rw [not_or] at accepted
    cases found
    refine ⟨rfl, accepted.1, ?_⟩
    have base : readOperand state inst.transfer inst.transfer.rn = state.registers inst.rn :=
      readOperand_general accepted.1
    unfold prepareVector Key.address Key.offsetValue
    dsimp only
    rw [same, base]
    by_cases scalar : operands.mode = .scalarMultiple
    · rw [if_pos scalar]
      simp only [scalar, decide_true, Bool.true_and]
      change (if inst.index then
          if inst.add then state.registers inst.rn + inst.immediate
          else state.registers inst.rn - inst.immediate
        else state.registers inst.rn) = _
      cases inst.index with
      | true => rfl
      | false => cases inst.add <;> simp
    · rw [if_neg scalar]
      simp only [scalar, decide_false, Bool.false_and, Bool.false_eq_true, if_false]
      cases inst.add <;> simp

/-- The access is where its key says, and as long. -/
structure KeyOf (profile : Profile) (inst : Instruction) (key : Key) : Prop where
  address : ∀ state : CpuThreadState,
    accessAddress profile inst state = key.address state.registers
  length : accessLength inst = key.size

theorem memoryKey_fields (found : MemoryEmitter.address inst pc = some key) :
    (inst.rn = programCounter → key.base = programCounter) ∧
      key.size = (if inst.kind = .dualTransfer then 8 else inst.accessSize.bytes) ∧
      key.naturalAlignment = inst.accessSize.bytes ∧ (key.alignment = 1 ∨ key.alignment = 4) := by
  unfold MemoryEmitter.address at found
  have either : ∀ condition : Bool, (if condition then 4 else 1) = 1 ∨ (if condition then 4 else 1) = 4 := by
    decide
  split at found
  · contradiction
  · dsimp only at found
    split at found
    · cases found
      exact ⟨id, by simp, rfl, either _⟩
    · split at found
      · contradiction
      · cases found
        exact ⟨id, by simp, rfl, either _⟩

theorem keyOf_accessKey (decoded : Decoded inst) (general : key.base ≠ programCounter)
    (found : accessKey inst pc = some key) : KeyOf profile inst key := by
  unfold accessKey at found
  cases kind : inst.kind with
  | transfer =>
    simp only [kind] at found
    obtain ⟨base, size, -⟩ := memoryKey_fields found
    rw [if_neg (by rw [kind]; decide)] at size
    constructor
    · intro state
      simp only [accessAddress, kind]
      exact (memoryKey_address (.inl kind) (fun counter => general (base counter)) found).2.2
    · simp only [accessLength, kind, size]
  | dualTransfer =>
    simp only [kind] at found
    obtain ⟨base, size, -⟩ := memoryKey_fields found
    rw [if_pos kind] at size
    constructor
    · intro state
      simp only [accessAddress, kind]
      exact (memoryKey_address (.inr kind) (fun counter => general (base counter)) found).2.2
    · simp only [accessLength, kind, size]
  | multipleTransfer =>
    simp only [kind] at found
    constructor
    · intro state
      simp only [accessAddress, kind]
      exact (multipleKey_address found).2.2
    · simp only [accessLength, kind]
      unfold MultipleEmitter.address at found
      split at found
      · contradiction
      · cases found
        rfl
  | vectorTransfer operands =>
    simp only [kind] at found
    split at found
    · constructor
      · intro state
        simp only [accessAddress, kind]
        exact (vectorKey_address kind found).2.2
      · simp only [accessLength, kind]
        rw [vectorElements_length kind (decoded operands kind)]
        unfold VectorMemoryEmitter.address at found
        split at found
        · contradiction
        · cases found
          rfl
    · contradiction
  | _ => simp [kind] at found

/-- The larger one of the alignments of a key. -/
def Key.stride (key : Key) : Nat := max key.alignment key.naturalAlignment

theorem alignment_numbers {operands : VectorTransferOperands} (formed : WellFormed operands) :
    operands.alignment.toNat ∈ [1, 2, 4, 8, 16, 32] := by
  have alignment := formed.alignment
  simp only [List.mem_cons, List.not_mem_nil, or_false] at alignment
  rcases alignment with one | two | four | eight | sixteen | most
  · rw [one]; decide
  · rw [two]; decide
  · rw [four]; decide
  · rw [eight]; decide
  · rw [sixteen]; decide
  · rw [most]; decide

/-- The alignments of decoded instructions are powers of two. -/
theorem stride_accessKey (decoded : Decoded inst) (found : accessKey inst pc = some key) :
    key.stride ∈ [1, 2, 4, 8, 16, 32] := by
  have sizes : ∀ size : AccessSize, size.bytes ∈ [1, 2, 4] := by
    intro size
    cases size <;> decide
  have larger : ∀ first ∈ [1, 2, 4, 8, 16, 32], ∀ second ∈ [1, 2, 4, 8],
      max first second ∈ [1, 2, 4, 8, 16, 32] := by decide
  unfold accessKey at found
  cases kind : inst.kind with
  | transfer =>
    simp only [kind] at found
    obtain ⟨-, -, natural, alignment⟩ := memoryKey_fields found
    have size := sizes inst.accessSize
    rw [← natural] at size
    apply larger
    · rcases alignment with one | four
      · simp [one]
      · simp [four]
    · exact List.mem_append_left [8] size
  | dualTransfer =>
    simp only [kind] at found
    obtain ⟨-, -, natural, alignment⟩ := memoryKey_fields found
    have size := sizes inst.accessSize
    rw [← natural] at size
    apply larger
    · rcases alignment with one | four
      · simp [one]
      · simp [four]
    · exact List.mem_append_left [8] size
  | multipleTransfer =>
    simp only [kind] at found
    unfold MultipleEmitter.address at found
    split at found
    · contradiction
    · cases found
      simp [Key.stride]
  | vectorTransfer operands =>
    simp only [kind] at found
    have formed := decoded operands kind
    split at found
    · unfold VectorMemoryEmitter.address at found
      split at found
      · contradiction
      · cases found
        apply larger
        · exact alignment_numbers formed
        · dsimp only
          split
          · decide
          · exact formed.element
    · contradiction
  | _ => simp [kind] at found

end ILEmu.Arm64
