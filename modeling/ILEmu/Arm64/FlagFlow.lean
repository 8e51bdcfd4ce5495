import ILEmu.Arm64.InstructionWindow

/-! What the instructions that a search for dead flags may cross do to the status: words of status
that differ in live flags only still do past such an instruction, in those of these flags that it
does not overwrite. -/
namespace ILEmu.Arm64
open Arm hiding Instruction InstructionKind
open ArmInterpreter FlagEffects InstructionWindow

/-! ### Words of status that are alike -/

/-- The bit of the status holds one of the flags. -/
def holds (flags : Word) (bit : Nat) : Bool := decide (28 ≤ bit) && flags.getLsbD (bit - 28)

/-- Two words of status differ in live flags only. -/
def Alike (live first second : Word) : Prop :=
  ∀ bit, holds live bit = false → first.getLsbD bit = second.getLsbD bit

/-- The bits that no instruction changes that a search may cross: the mode, the state of the
instruction set and the IT block. -/
def steadyBit (bit : Nat) : Bool := decide (bit < 16) || (decide (20 ≤ bit) && decide (bit < 27))

def Steady (before after : Word) : Prop :=
  ∀ bit, steadyBit bit = true → before.getLsbD bit = after.getLsbD bit

@[simp] theorem holds_zero (bit : Nat) : holds 0 bit = false := by
  have empty : (0 : Word).getLsbD (bit - 28) = false := BitVec.getLsbD_zero
  unfold holds
  rw [empty, Bool.and_false]

theorem holds_without {live written : Word} {bit : Nat} (inside : bit < 32) :
    holds (live &&& ~~~written) bit = (holds live bit && !holds written bit) := by
  unfold holds
  by_cases flag : 28 ≤ bit
  · rw [decide_eq_true flag, BitVec.getLsbD_and, BitVec.getLsbD_not,
      decide_eq_true (by omega : bit - 28 < 32)]
    simp only [Bool.true_and]
  · rw [decide_eq_false flag]
    rfl

namespace Alike
variable {live written first second third : Word}

theorem refl (live word : Word) : Alike live word word := fun _ _ => rfl

/-- Flags may be taken for live although they have been overwritten. -/
theorem weaken (alike : Alike (live &&& ~~~written) first second) : Alike live first second := by
  intro bit dead
  by_cases inside : bit < 32
  · exact alike bit (by rw [holds_without inside, dead, Bool.false_and])
  · rw [BitVec.getLsbD_of_ge _ _ (Nat.not_lt.mp inside),
      BitVec.getLsbD_of_ge _ _ (Nat.not_lt.mp inside)]

theorem eq (alike : Alike 0 first second) : first = second := by
  apply BitVec.eq_of_getLsbD_eq
  intro bit inside
  exact alike bit (holds_zero bit)

/-- Some bits are kept and the others get values that agree on the flags that stay dead. -/
theorem assign {keep x y : Word} (alike : Alike live first second)
    (cleared : ∀ bit < 32, keep.getLsbD bit = true → holds written bit = false)
    (same : Alike (live &&& ~~~written) x y) :
    Alike (live &&& ~~~written) ((first &&& keep) ||| x) ((second &&& keep) ||| y) := by
  intro bit dead
  by_cases inside : bit < 32
  · rw [BitVec.getLsbD_or, BitVec.getLsbD_or, BitVec.getLsbD_and, BitVec.getLsbD_and,
      same bit dead]
    cases kept : keep.getLsbD bit with
    | false => rw [Bool.and_false, Bool.and_false]
    | true =>
      rw [holds_without inside, cleared bit inside kept, Bool.not_false, Bool.and_true] at dead
      rw [alike bit dead]
  · rw [BitVec.getLsbD_of_ge _ _ (Nat.not_lt.mp inside),
      BitVec.getLsbD_of_ge _ _ (Nat.not_lt.mp inside)]

/-- A bit below the flags is the same. -/
theorem low (alike : Alike live first second) {bit : Nat} (below : bit < 28) :
    first.getLsbD bit = second.getLsbD bit :=
  alike bit (by unfold holds; rw [decide_eq_false (Nat.not_le.mpr below), Bool.false_and])

theorem trans_steady (alike : Alike live first second) (steady : Steady second third) {bit : Nat}
    (told : steadyBit bit = true) : first.getLsbD bit = third.getLsbD bit := by
  rw [← steady bit told]
  refine alike.low ?_
  unfold steadyBit at told
  simp only [Bool.or_eq_true, Bool.and_eq_true, decide_eq_true_eq] at told
  omega

end Alike

theorem without_or (live first second : Word) :
    live &&& ~~~(first ||| second) = live &&& ~~~first &&& ~~~second := by
  rw [BitVec.not_or, BitVec.and_assoc]

namespace Steady
variable {before between after : Word}

theorem refl (word : Word) : Steady word word := fun _ _ => rfl

theorem trans (first : Steady before between) (second : Steady between after) :
    Steady before after := fun bit told => (first bit told).trans (second bit told)

theorem assign {keep x : Word}
    (kept : ∀ bit < 32, steadyBit bit = true → keep.getLsbD bit = true ∧ x.getLsbD bit = false) :
    Steady before ((before &&& keep) ||| x) := by
  intro bit told
  by_cases inside : bit < 32
  · obtain ⟨stays, plain⟩ := kept bit inside told
    rw [BitVec.getLsbD_or, BitVec.getLsbD_and, stays, plain, Bool.and_true, Bool.or_false]
  · rw [BitVec.getLsbD_of_ge _ _ (Nat.not_lt.mp inside),
      BitVec.getLsbD_of_ge _ _ (Nat.not_lt.mp inside)]

end Steady

/-! ### The changes of the status -/

section
variable {live first second : Word}

theorem setNz_eq (cpsr value : Word) :
    setNz cpsr value = (cpsr &&& (0x3fffffff : Word)) ||| ((value &&& (0x80000000 : Word)) |||
      if value = 0 then (0x40000000 : Word) else 0) := BitVec.or_assoc _ _ _

theorem Alike.afterNz (alike : Alike live first second) (value : Word) :
    Alike (live &&& ~~~(n ||| z)) (setNz first value) (setNz second value) := by
  rw [setNz_eq, setNz_eq]
  exact alike.assign (by decide) (.refl _ _)

/-- A flag gets the same value. -/
theorem Alike.afterFlag (alike : Alike live first second) {bit : Nat} {flag : Word} (value : Bool)
    (cleared : ∀ other < 32, (~~~BitVec.twoPow 32 bit).getLsbD other = true →
      holds flag other = false) :
    Alike (live &&& ~~~flag) (setFlag first bit value) (setFlag second bit value) :=
  alike.assign cleared (.refl _ _)

/-- A live flag may get any values. -/
theorem Alike.afterLive (alike : Alike live first second) {bit : Nat} (flag : holds live bit = true)
    (x y : Bool) : Alike live (setFlag first bit x)
      (setFlag second bit y) := by
  intro other dead
  have distinct : bit ≠ other := by
    rintro rfl
    rw [flag] at dead
    contradiction
  have off : ∀ value : Bool,
      (if value then BitVec.twoPow 32 bit else (0 : Word)).getLsbD other = false := by
    intro value
    cases value with
    | false => exact BitVec.getLsbD_zero
    | true =>
      rw [if_pos rfl, BitVec.getLsbD_twoPow, decide_eq_false distinct, Bool.and_false]
  unfold setFlag
  rw [BitVec.getLsbD_or, BitVec.getLsbD_or, BitVec.getLsbD_and, BitVec.getLsbD_and, off, off,
    alike other dead]

theorem Steady.afterNz (cpsr value : Word) : Steady cpsr (setNz cpsr value) := by
  rw [setNz_eq]
  refine Steady.assign fun bit inside told => ⟨?_, ?_⟩
  · revert bit
    decide
  · rw [BitVec.getLsbD_or, BitVec.getLsbD_and]
    have high : (0x80000000 : Word).getLsbD bit = false := by
      revert bit
      decide
    rw [high, Bool.and_false, Bool.false_or]
    split
    · revert bit
      decide
    · exact BitVec.getLsbD_zero

theorem Steady.afterFlag (cpsr : Word) {bit : Nat} (value : Bool) (flag : steadyBit bit = false) :
    Steady cpsr (setFlag cpsr bit value) := by
  refine Steady.assign fun other inside told => ?_
  have distinct : bit ≠ other := by
    rintro rfl
    rw [flag] at told
    contradiction
  refine ⟨?_, ?_⟩
  · rw [BitVec.getLsbD_not, BitVec.getLsbD_twoPow, decide_eq_true inside,
      decide_eq_false distinct, Bool.and_false, Bool.not_false, Bool.true_and]
  · cases value with
    | false => exact BitVec.getLsbD_zero
    | true => rw [if_pos rfl, BitVec.getLsbD_twoPow, decide_eq_false distinct, Bool.and_false]

end

/-! ### Data processing -/

section
variable {live first second : Word}

theorem carry_of_dead (alike : Alike live first second) (dead : c &&& live = 0) :
    carry first = carry second := by
  refine alike 29 ?_
  have off := congrArg (BitVec.getLsbD · 1) dead
  have empty : (0 : Word).getLsbD 1 = false := BitVec.getLsbD_zero
  have one : c.getLsbD 1 = true := by decide
  rw [BitVec.getLsbD_and, one, Bool.true_and, empty] at off
  unfold holds
  rw [decide_eq_true (by decide : 28 ≤ 29), Bool.true_and]
  exact off

/-- Only a rotation by no distance looks at the carry. -/
theorem shift_value (value : Word) {kind : ShiftKind} {amount : Nat} {registerAmount : Bool}
    (plain : ¬(kind = .ror ∧ amount = 0 ∧ registerAmount = false)) (old new : Bool) :
    (shift value kind amount old registerAmount).value =
      (shift value kind amount new registerAmount).value := by
  unfold shift
  by_cases same : registerAmount = true ∧ amount = 0
  · rw [same.1, same.2]
    rfl
  · have other : (registerAmount && decide (amount = 0)) = false := by
      rw [Bool.and_eq_false_iff, decide_eq_false_iff_not]
      by_cases register : registerAmount = true
      · exact .inr fun none => same ⟨register, none⟩
      · exact .inl (Bool.eq_false_of_not_eq_true register)
    rw [other, if_neg Bool.false_ne_true, if_neg Bool.false_ne_true]
    cases kind with
    | lsl =>
      dsimp only
      split
      · rfl
      · rfl
    | lsr => rfl
    | asr => rfl
    | ror =>
      have rotates : amount ≠ 0 := by
        rintro rfl
        cases registerAmount with
        | false => exact plain ⟨rfl, rfl, rfl⟩
        | true => exact same ⟨rfl, rfl⟩
      dsimp only
      rw [if_neg rotates, if_neg rotates]

/-- The carry that a shift by a fixed distance puts out, unless it does not shift. -/
theorem shift_carryOut (value : Word) {kind : ShiftKind} {amount : Nat}
    (shifts : kind ≠ .lsl ∨ amount ≠ 0) (old new : Bool) :
    (shift value kind amount old false).carry = (shift value kind amount new false).carry := by
  unfold shift
  rw [Bool.false_and, if_neg Bool.false_ne_true, if_neg Bool.false_ne_true]
  cases kind with
  | lsl =>
    have moves : amount ≠ 0 := shifts.resolve_left fun other => other rfl
    dsimp only
    rw [if_neg moves, if_neg moves]
  | lsr => rfl
  | asr => rfl
  | ror =>
    dsimp only
    split
    · rfl
    · rfl

theorem arithmetic_carry {opcode : Nat} (plain : opcode < 5 ∨ 7 < opcode) (a b : Word)
    (old new : Bool) : arithmetic opcode a b old = arithmetic opcode a b new := by
  unfold arithmetic
  split
  all_goals first | rfl | omega

theorem arithmetic_isSome (opcode : Nat) (a b : Word) (carry : Bool) :
    (arithmetic opcode a b carry).isSome = isArithmetic opcode := by
  unfold isArithmetic
  by_cases small : opcode < 12
  · interval_cases opcode
    all_goals rfl
  · unfold arithmetic
    have outside : (decide (2 ≤ opcode) && decide (opcode ≤ 7)) = false := by
      rw [decide_eq_false (by omega : ¬opcode ≤ 7), Bool.and_false]
    have distinct : (opcode == 10) = false ∧ (opcode == 11) = false :=
      ⟨beq_eq_false_iff_ne.mpr (by omega), beq_eq_false_iff_ne.mpr (by omega)⟩
    rw [outside, distinct.1, distinct.2]
    split
    all_goals first | omega | rfl

/-- The state of the registers under another status. -/
def withCpsr (state : CpuThreadState) (cpsr : Word) : CpuThreadState := { state with cpsr }

theorem shiftedOperand_value (state : CpuThreadState) {inst : Instruction}
    (plain : (!inst.immediateOperand && !inst.registerShift && inst.shift == .ror &&
      inst.shiftAmount == 0) = false) (first second : Word) :
    (shiftedOperand (withCpsr state first) inst).value =
      (shiftedOperand (withCpsr state second) inst).value := by
  unfold shiftedOperand
  cases immediate : inst.immediateOperand with
  | true => rfl
  | false =>
    rw [if_neg Bool.false_ne_true, if_neg Bool.false_ne_true]
    refine shift_value _ ?_ _ _
    rintro ⟨rotates, none, register⟩
    rw [register, if_neg Bool.false_ne_true] at none
    rw [immediate, register, rotates, none] at plain
    contradiction

theorem shiftedOperand_carry (state : CpuThreadState) {inst : Instruction}
    (changes : carryChanges inst = true) (fixed : inst.registerShift = false ∨
      inst.immediateOperand = true) (first second : Word) :
    (shiftedOperand (withCpsr state first) inst).carry =
      (shiftedOperand (withCpsr state second) inst).carry := by
  unfold carryChanges at changes
  unfold shiftedOperand
  cases immediate : inst.immediateOperand with
  | true =>
    rw [immediate, if_pos rfl, bne_iff_ne] at changes
    rw [if_pos rfl, if_pos rfl]
    dsimp only
    rw [if_neg changes, if_neg changes]
  | false =>
    have register : inst.registerShift = false :=
      fixed.resolve_right fun told => Bool.false_ne_true (immediate.symm.trans told)
    rw [immediate, if_neg Bool.false_ne_true, register] at changes
    rw [if_neg Bool.false_ne_true, if_neg Bool.false_ne_true, register,
      if_neg Bool.false_ne_true, if_neg Bool.false_ne_true]
    refine shift_carryOut _ ?_ _ _
    simpa using changes

theorem shiftedOperand_eq (state : CpuThreadState) (inst : Instruction)
    (same : carry first = carry second) :
    shiftedOperand (withCpsr state first) inst = shiftedOperand (withCpsr state second) inst := by
  have told : carry (withCpsr state first).cpsr = carry (withCpsr state second).cpsr := same
  unfold shiftedOperand
  rw [told]
  rfl

variable {inst : Instruction}

theorem shiftedOperand_value_of_unread (state : CpuThreadState)
    (unread : readsCarry inst = true → carry first = carry second) :
    (shiftedOperand (withCpsr state first) inst).value =
      (shiftedOperand (withCpsr state second) inst).value := by
  by_cases reads : readsCarry inst = true
  · rw [shiftedOperand_eq state inst (unread reads)]
  · unfold readsCarry at reads
    rw [Bool.not_eq_true, Bool.or_eq_false_iff] at reads
    exact shiftedOperand_value state reads.2 first second

theorem arithmetic_of_unread (a b : Word)
    (unread : readsCarry inst = true → carry first = carry second) :
    arithmetic inst.opcode a b (carry first) = arithmetic inst.opcode a b (carry second) := by
  by_cases reads : readsCarry inst = true
  · rw [unread reads]
  · unfold readsCarry at reads
    rw [Bool.not_eq_true, Bool.or_eq_false_iff, Bool.and_eq_false_iff, decide_eq_false_iff_not,
      decide_eq_false_iff_not] at reads
    exact arithmetic_carry (by omega) a b _ _

theorem dataProcessing_sum (state : CpuThreadState) {sum : ArithmeticResult}
    (found : arithmetic inst.opcode (readRegister state inst.rn inst)
      (shiftedOperand state inst).value (carry state.cpsr) = some sum) :
    dataProcessing state inst =
      { value := sum.value
        cpsr :=
          if inst.setFlags then
            setFlag (setFlag (setNz state.cpsr sum.value) 29 sum.carry) 28 sum.overflow
          else state.cpsr } := by
  unfold dataProcessing calculateAlu
  rw [found]

theorem dataProcessing_logical (state : CpuThreadState)
    (absent : arithmetic inst.opcode (readRegister state inst.rn inst)
      (shiftedOperand state inst).value (carry state.cpsr) = none) :
    dataProcessing state inst =
      { value := logical inst.opcode (readRegister state inst.rn inst)
          (shiftedOperand state inst).value
        cpsr :=
          if inst.setFlags then
            setFlag (setNz state.cpsr (logical inst.opcode (readRegister state inst.rn inst)
              (shiftedOperand state inst).value)) 29 (shiftedOperand state inst).carry
          else state.cpsr } := by
  unfold dataProcessing calculateAlu
  rw [absent]

/-- The sum of an instruction under another status, whose carry it does not read or is the same. -/
theorem sum_of_unread (state : CpuThreadState)
    (unread : readsCarry inst = true → carry first = carry second) :
    arithmetic inst.opcode (readRegister state inst.rn inst)
        (shiftedOperand (withCpsr state second) inst).value (carry second) =
      arithmetic inst.opcode (readRegister state inst.rn inst)
        (shiftedOperand (withCpsr state first) inst).value (carry first) := by
  rw [shiftedOperand_value_of_unread state unread, arithmetic_of_unread _ _ unread]

theorem dataProcessing_value (state : CpuThreadState)
    (unread : readsCarry inst = true → carry first = carry second) :
    (dataProcessing (withCpsr state second) inst).value =
      (dataProcessing (withCpsr state first) inst).value := by
  have same := sum_of_unread state unread
  cases found : arithmetic inst.opcode (readRegister state inst.rn inst)
      (shiftedOperand (withCpsr state first) inst).value (carry first) with
  | some sum =>
    rw [found] at same
    rw [dataProcessing_sum (withCpsr state first) found,
      dataProcessing_sum (withCpsr state second) same]
  | none =>
    rw [found] at same
    rw [dataProcessing_logical (withCpsr state first) found,
      dataProcessing_logical (withCpsr state second) same]
    exact congrArg (logical inst.opcode (readRegister state inst.rn inst))
      (shiftedOperand_value_of_unread state unread).symm

theorem dataProcessing_steady (state : CpuThreadState) (inst : Instruction) (cpsr : Word) :
    Steady cpsr (dataProcessing (withCpsr state cpsr) inst).cpsr := by
  cases found : arithmetic inst.opcode (readRegister state inst.rn inst)
      (shiftedOperand (withCpsr state cpsr) inst).value (carry cpsr) with
  | some sum =>
    rw [dataProcessing_sum (withCpsr state cpsr) found]
    dsimp only
    split
    · exact ((Steady.afterNz _ _).trans (.afterFlag _ _ rfl)).trans (.afterFlag _ _ rfl)
    · exact .refl _
  | none =>
    rw [dataProcessing_logical (withCpsr state cpsr) found]
    dsimp only
    split
    · exact (Steady.afterNz _ _).trans (.afterFlag _ _ rfl)
    · exact .refl _

theorem Alike.keepAll (alike : Alike live first second) :
    Alike (live &&& ~~~(0 : Word)) first second := by
  intro bit dead
  by_cases inside : bit < 32
  · rw [holds_without inside, holds_zero, Bool.not_false, Bool.and_true] at dead
    exact alike bit dead
  · rw [BitVec.getLsbD_of_ge _ _ (Nat.not_lt.mp inside),
      BitVec.getLsbD_of_ge _ _ (Nat.not_lt.mp inside)]

/-- Past a logical operation whose operand may pass the old carry on. -/
theorem Alike.passCarry (state : CpuThreadState) (inst : Instruction) (value : Word)
    (alike : Alike live first second) :
    Alike (live &&& ~~~(n ||| z))
      (setFlag (setNz first value) 29 (shiftedOperand (withCpsr state first) inst).carry)
      (setFlag (setNz second value) 29 (shiftedOperand (withCpsr state second) inst).carry) := by
  have written := alike.afterNz value
  cases old : holds live 29 with
  | true =>
    refine written.afterLive ?_ _ _
    rw [holds_without (by decide), old]
    rfl
  | false =>
    have carries : ∀ out, Alike (live &&& ~~~(n ||| z) &&& ~~~c)
        (setFlag (setNz first value) 29 out) (setFlag (setNz second value) 29 out) := fun out => written.afterFlag out (by decide)
    rw [shiftedOperand_eq state inst (alike 29 old)]
    exact (carries _).weaken

/-- The flags that an instruction of the family writes in every case are the same afterwards. -/
theorem Alike.afterDataProcessing (state : CpuThreadState) (alike : Alike live first second)
    (unread : readsCarry inst = true → carry first = carry second) :
    Alike (live &&& ~~~(dataProcessingWrites inst).2)
      (dataProcessing (withCpsr state first) inst).cpsr
      (dataProcessing (withCpsr state second) inst).cpsr := by
  have same := sum_of_unread state unread
  have isSum := arithmetic_isSome inst.opcode (readRegister state inst.rn inst)
    (shiftedOperand (withCpsr state first) inst).value (carry first)
  unfold dataProcessingWrites
  cases sets : inst.setFlags with
  | false =>
    rw [Bool.not_false, if_pos rfl]
    have plain : ∀ cpsr, (dataProcessing (withCpsr state cpsr) inst).cpsr = cpsr := by
      intro cpsr
      unfold dataProcessing calculateAlu
      rw [sets]
      split
      · rfl
      · rfl
    rw [plain, plain]
    exact alike.keepAll
  | true =>
    rw [Bool.not_true, if_neg Bool.false_ne_true]
    cases found : arithmetic inst.opcode (readRegister state inst.rn inst)
        (shiftedOperand (withCpsr state first) inst).value (carry first) with
    | some sum =>
      rw [found] at same isSum
      rw [← isSum, Option.isSome_some, if_pos rfl, dataProcessing_sum (withCpsr state first) found,
        dataProcessing_sum (withCpsr state second) same, sets, if_pos rfl, if_pos rfl]
      have all : nzcv = n ||| z ||| c ||| v := rfl
      rw [all, without_or, without_or]
      exact ((alike.afterNz _).afterFlag _ (by decide)).afterFlag _ (by decide)
    | none =>
      rw [found] at same isSum
      rw [← isSum, Option.isSome_none, if_neg Bool.false_ne_true,
        dataProcessing_logical (withCpsr state first) found,
        dataProcessing_logical (withCpsr state second) same, sets, if_pos rfl, if_pos rfl,
        shiftedOperand_value_of_unread state unread]
      by_cases changes : carryChanges inst = true
      · rw [if_pos changes]
        by_cases register : inst.registerShift = true
        · rw [if_pos register]
          exact alike.passCarry state inst _
        · have fixed : inst.registerShift = false := Bool.eq_false_of_not_eq_true register
          rw [if_neg register, shiftedOperand_carry state changes (.inl fixed) first second,
            without_or]
          exact (alike.afterNz _).afterFlag _ (by decide)
      · rw [if_neg changes]
        exact alike.passCarry state inst _

end

end ILEmu.Arm64
