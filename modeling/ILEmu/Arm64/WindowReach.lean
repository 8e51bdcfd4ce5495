import ILEmu.Arm64.AddressWindows

/-! Where the accesses of a cycle are: around the base at its entry, by the displacement and the
offset that are known when they are observed. -/
namespace ILEmu.Arm64
open Arm hiding Instruction InstructionKind
open ArmMemory ArmInterpreter Foundation

variable {units : Units} {profile : Profile} {inst : Instruction} {guest after : Guest}
  {register : Register}

/-! ### The bits of a register -/

/-- The registers have no bits but those of their masks. -/
def Masked (bits : Register → Option Word) (now : Register → Word) : Prop :=
  ∀ reg, reg ≠ programCounter → ∀ mask, bits reg = some mask → Within (now reg) mask

/-- The logical operations on the destination. -/
theorem processData_logical (general : inst.rd ≠ programCounter)
    (logical : inst.opcode = 0 ∨ inst.opcode = 13 ∨ inst.opcode = 14 ∨ inst.opcode = 15) :
    (processData profile inst guest).state.registers inst.rd =
      ArmInterpreter.logical inst.opcode (readRegister guest.state inst.rn inst)
        (shiftedOperand guest.state inst).value := by
  have plain : aluWritesPc inst = false := by simp [aluWritesPc, general]
  have moves : isTest inst.opcode = false := by
    rcases logical with opcode | opcode | opcode | opcode
    all_goals
      rw [opcode]
      decide
  unfold processData
  simp only [plain, moves, Bool.false_eq_true, if_false, setCpsr_registers, guest_setRegister_self]
  unfold dataProcessing calculateAlu
  rcases logical with opcode | opcode | opcode | opcode
  all_goals
    rw [opcode]
    rfl

/-- What is left in the destination has only the bits of the mask. -/
theorem masked_effect {result : Word} (masks : AddressWindows.mask inst = some result)
    (general : inst.rd ≠ programCounter) :
    Within ((effect units profile inst guest).state.registers inst.rd) result := by
  unfold AddressWindows.mask at masks
  split at masks
  · rename_i immediate
    obtain ⟨data, always, immediate⟩ := immediate
    have passes : conditionPassed inst.condition guest.state.cpsr = true := by
      rw [always]
      rfl
    unfold effect
    rw [if_pos passes]
    have operand : (shiftedOperand guest.state inst).value = inst.immediate :=
      shiftedOperand_immediate immediate
    simp only [perform, data]
    split at masks
    · rename_i opcode
      cases masks
      rw [processData_logical general (by tauto), operand]
      rcases opcode with and | move
      · rw [and]
        exact within_and _ _
      · rw [move]
        exact Within.refl _
    · split at masks
      · rename_i opcode
        cases masks
        rw [processData_logical general (by tauto), operand]
        rcases opcode with clear | move
        · rw [clear]
          exact within_and _ _
        · rw [move]
          exact Within.refl _
      · contradiction
  · contradiction

theorem Masked.step {windows : AddressWindows} {key : Option Key}
    (masked : Masked windows.bits guest.state.registers) (ordinary : isOrdinary inst = true)
    (retired : ArmInterpreter.step units profile inst guest = (after, .retired)) :
    Masked (windows.observe inst key).bits after.state.registers := by
  have kept : ∀ reg, reg ≠ programCounter → ∀ known,
      (if reg ∈ writtenRegisters inst then none else windows.bits reg) = some known →
        Within (after.state.registers reg) known := by
    intro reg general known found
    split at found
    · contradiction
    · rename_i free
      rw [retired_unwritten ordinary retired general free]
      exact masked reg general known found
  intro reg general known found
  unfold AddressWindows.observe at found
  dsimp only at found
  split at found
  · rename_i result masks
    split at found
    · rename_i destination
      cases found
      rw [destination]
      rw [destination] at general
      obtain ⟨-, -, rfl⟩ := step_retired retired
      rw [retire_registers general]
      exact masked_effect masks general
    · exact kept reg general known found
  · exact kept reg general known found

/-! ### The shift of an index -/

theorem within_shift {value mask : Word} (within : Within value mask) (kind : ShiftKind)
    (amount : Nat) :
    Within (Arm.shift value kind amount false false).value
      (Arm.shift mask kind amount false false).value := by
  unfold Arm.shift
  simp only [Bool.false_and, Bool.false_eq_true, if_false]
  cases kind with
  | lsl =>
    dsimp only
    split
    · exact within
    · split
      · intro i set
        simp only [BitVec.getLsbD_shiftLeft, Bool.and_eq_true] at set ⊢
        exact ⟨set.1, within _ set.2⟩
      · exact Within.refl _
  | lsr =>
    dsimp only
    generalize (if amount = 0 then 32 else amount) = distance
    split
    · intro i set
      simp only [BitVec.getLsbD_ushiftRight] at set ⊢
      exact within _ set
    · exact Within.refl _
  | asr =>
    have sign : value.getLsbD 31 = true → mask.getLsbD 31 = true := within 31
    dsimp only
    generalize (if amount = 0 then 32 else amount) = distance
    split
    · intro i set
      split at set
      · rename_i negative
        rw [if_pos (sign negative)]
        exact set
      · simp at set
    · intro i set
      simp only [BitVec.getLsbD_or, BitVec.getLsbD_ushiftRight, Bool.or_eq_true] at set ⊢
      rcases set with moved | filled
      · exact .inl (within _ moved)
      · right
        split at filled
        · rename_i negative
          rw [if_pos (sign negative)]
          exact filled
        · simp at filled
  | ror =>
    dsimp only
    split
    · intro i set
      simp only [BitVec.getLsbD_or, BitVec.getLsbD_ushiftRight, Bool.or_eq_true] at set ⊢
      rcases set with moved | filled
      · exact .inl (within _ moved)
      · simp at filled
    · intro i set
      rw [BitVec.getLsbD_rotateRight] at set ⊢
      cases below : decide (i < 32 - amount % 32 % 32) with
      | true =>
        rw [below, cond_true] at set
        exact within _ set
      | false =>
        rw [below, cond_false, Bool.and_eq_true] at set
        rw [cond_false, Bool.and_eq_true]
        exact ⟨set.1, within _ set.2⟩

/-- The low bits that the alignments of keys leave out. -/
theorem low_bits {alignment : Nat} (power : alignment ∈ [1, 2, 4, 8, 16, 32]) (value : Word) :
    (value &&& BitVec.ofNat 32 (alignment - 1)).toNat = value.toNat % alignment := by
  have masked : ∀ k ≤ 5, (value &&& BitVec.ofNat 32 (2 ^ k - 1)).toNat = value.toNat % 2 ^ k := by
    intro k small
    have fits : 2 ^ k - 1 < 2 ^ 32 := by
      have := Nat.pow_le_pow_right (show 0 < 2 by decide) (show k ≤ 32 by omega)
      omega
    rw [BitVec.toNat_and, BitVec.toNat_ofNat, Nat.mod_eq_of_lt fits, Nat.and_two_pow_sub_one_eq_mod]
  simp only [List.mem_cons, List.not_mem_nil, or_false] at power
  rcases power with rfl | rfl | rfl | rfl | rfl | rfl
  · exact masked 0 (by decide)
  · exact masked 1 (by decide)
  · exact masked 2 (by decide)
  · exact masked 3 (by decide)
  · exact masked 4 (by decide)
  · exact masked 5 (by decide)

/-! ### The place of an access -/

/-- What the stride of a displacement is at the entry. -/
def strideValue (index : Option Register) (start : Register → Word) : Int :=
  match index with
  | none => 0
  | some index => (start index).toInt

theorem value_ofInt (displacement : Expression) (start : Register → Word) :
    displacement.value start = BitVec.ofInt 32 (displacement.constant.toInt +
      displacement.coefficient.toInt * strideValue displacement.index start) := by
  rw [BitVec.ofInt_add, BitVec.ofInt_toInt, BitVec.ofInt_mul, BitVec.ofInt_toInt]
  unfold Expression.value strideValue
  cases displacement.index with
  | none => simp
  | some index => rw [BitVec.ofInt_toInt]

/-- Displacements count general registers only. -/
def AddressDisplacements.General (self : AddressDisplacements) : Prop :=
  ∀ reg expression index, self.values reg = some expression → expression.index = some index →
    index ≠ programCounter

theorem general_entry : AddressDisplacements.General {} := by
  rintro reg expression index known counted
  cases known
  contradiction

theorem AddressDisplacements.General.observe {self : AddressDisplacements} (general : self.General)
    (inst : Instruction) : (self.observe inst).General := by
  have cleared : ∀ reg expression index,
      (if reg ∈ writtenRegisters inst then none else self.values reg) = some expression →
        expression.index = some index → index ≠ programCounter := by
    intro reg expression index known counted
    split at known
    · contradiction
    · exact general reg expression index known counted
  have scaled : ∀ reg increment index, self.increment inst = some (reg, increment) →
      increment.index = some index → index ≠ programCounter := by
    intro reg increment index moves counted
    unfold AddressDisplacements.increment at moves
    split at moves
    · contradiction
    · split at moves
      · rename_i scales
        simp only [AddressDisplacements.addsScaled, Bool.and_eq_true, decide_eq_true_eq] at scales
        cases moves
        cases counted
        rintro counter
        have small := scales.1.1.1.2
        rw [counter] at small
        exact absurd small (by decide)
      · obtain ⟨change, -, moved⟩ := Option.map_eq_some_iff.mp moves
        cases moved
        contradiction
  intro reg expression index known counted
  unfold AddressDisplacements.observe at known
  dsimp only at known
  split at known
  · exact cleared reg expression index known counted
  · rename_i moved increment moves
    split at known
    · exact cleared reg expression index known counted
    · rename_i before present
      by_cases here : reg = moved
      · subst here
        dsimp only at known
        rw [Function.update_self] at known
        unfold Expression.added at known
        split at known
        · contradiction
        · cases known
          dsimp only at counted
          split at counted
          · contradiction
          · rcases Option.or_eq_some_iff.mp counted with first | ⟨-, second⟩
            · exact general reg before index present first
            · exact scaled reg increment index moves second
      · dsimp only at known
        rw [Function.update_of_ne here] at known
        exact cleared reg expression index known counted

/-- The index of an access is a general register. -/
theorem accessKey_index {pc : Word} {key : Key} {index : Register}
    (found : accessKey inst pc = some key) (indexed : key.index = some index) :
    index ≠ programCounter := by
  have core : MemoryEmitter.address inst pc = some key → index ≠ programCounter := by
    intro found
    unfold MemoryEmitter.address at found
    split at found
    · contradiction
    · dsimp only at found
      split at found
      · cases found
        contradiction
      · split at found
        · contradiction
        · rename_i plain
          cases found
          cases indexed
          simp only [Bool.or_eq_true, decide_eq_true_eq, not_or] at plain
          exact plain.1.2
  unfold accessKey at found
  split at found
  · exact core found
  · exact core found
  · unfold MultipleEmitter.address at found
    split at found
    · contradiction
    · cases found
      contradiction
  · split at found
    · unfold VectorMemoryEmitter.address at found
      split at found
      · contradiction
      · cases found
        contradiction
    · contradiction
  · contradiction

section
variable {windows : AddressWindows} {key : Key} {start now : Register → Word} {least most : Int}

/-- The index of an access stays within its bounds, and moves it by whole alignments. -/
theorem offset_between (masked : Masked windows.bits now)
    (general : ∀ index, key.index = some index → index ≠ programCounter)
    (power : key.stride ∈ [1, 2, 4, 8, 16, 32])
    (known : windows.offsets key true = (true, least, most)) :
    ∃ offset : Int, least ≤ offset ∧ offset ≤ most ∧ (key.stride : Int) ∣ offset - least ∧
      key.address now = now key.base + BitVec.ofInt 32 offset := by
  unfold AddressWindows.offsets at known
  dsimp only at known
  unfold Key.address Key.offsetValue
  cases indexed : key.index with
  | none =>
    simp only [indexed, Prod.mk.injEq, true_and] at known
    obtain ⟨rfl, rfl⟩ := known
    refine ⟨_, le_refl _, le_refl _, by simp, ?_⟩
    dsimp only
    split
    · rw [BitVec.ofInt_natCast, BitVec.ofNat_toNat, BitVec.setWidth_eq]
    · rw [BitVec.ofInt_neg, BitVec.ofInt_natCast, BitVec.ofNat_toNat, BitVec.setWidth_eq,
        sub_eq_add_neg]
  | some index =>
    simp only [indexed] at known
    cases bits : windows.bits index with
    | none => simp [bits] at known
    | some mask =>
      simp only [bits, Bool.true_and] at known
      split at known
      · rename_i aligned
        simp only [Key.indexFits, Bool.and_eq_true, decide_eq_true_eq] at aligned
        have within := within_shift (masked index (general index indexed) mask bits) key.shift
          key.shiftAmount
        dsimp only
        generalize Arm.shift mask key.shift key.shiftAmount false false = largest at *
        generalize Arm.shift (now index) key.shift key.shiftAmount false false = actual at *
        have small := within.toNat_le
        have divides : ∀ value : Word, value &&& BitVec.ofNat 32 (key.stride - 1) = 0 →
            (key.stride : Int) ∣ value.toNat := by
          intro value low
          have := low_bits power value
          rw [low] at this
          exact_mod_cast Nat.dvd_of_mod_eq_zero this.symm
        have whole := divides _ aligned.2
        have part := divides _ (within.of_and aligned.2)
        split at known
        · rename_i adds
          simp only [Prod.mk.injEq, true_and] at known
          obtain ⟨rfl, rfl⟩ := known
          refine ⟨actual.value.toNat, by omega, by omega, by simpa using part, ?_⟩
          rw [if_pos adds, BitVec.ofInt_natCast, BitVec.ofNat_toNat, BitVec.setWidth_eq]
        · rename_i subtracts
          simp only [Prod.mk.injEq, true_and] at known
          obtain ⟨rfl, rfl⟩ := known
          refine ⟨-actual.value.toNat, by omega, by omega, ?_, ?_⟩
          · have := Int.dvd_sub whole part
            rwa [sub_neg_eq_add, neg_add_eq_sub]
          · rw [if_neg subtracts, BitVec.ofInt_neg, BitVec.ofInt_natCast, BitVec.ofNat_toNat,
              BitVec.setWidth_eq, sub_eq_add_neg]
      · simp at known

/-- What is known of an access when it is observed. -/
structure Reaches (windows : AddressWindows) (key : Key) (displacement : Expression)
    (least most : Int) : Prop where
  known : windows.displacements.values key.base = some displacement
  offsets : windows.offsets key true = (true, least, most)

/-- The access is made where its displacement and its offset lead. -/
theorem Reaches.address {displacement : Expression}
    (reaches : Reaches windows key displacement least most)
    (tracks : Tracks windows.displacements start now) (masked : Masked windows.bits now)
    (base : key.base ≠ programCounter)
    (general : ∀ index, key.index = some index → index ≠ programCounter)
    (power : key.stride ∈ [1, 2, 4, 8, 16, 32]) :
    ∃ offset : Int, least ≤ offset ∧ offset ≤ most ∧ (key.stride : Int) ∣ offset - least ∧
      key.address now = start key.base + BitVec.ofInt 32 (offset + displacement.constant.toInt +
        displacement.coefficient.toInt * strideValue displacement.index start) := by
  obtain ⟨offset, low, high, whole, place⟩ := offset_between masked general power reaches.offsets
  refine ⟨offset, low, high, whole, ?_⟩
  rw [place, tracks.value key.base base displacement reaches.known, value_ofInt, add_assoc,
    ← BitVec.ofInt_add]
  congr 2
  rw [add_comm, add_assoc]

end
end ILEmu.Arm64
