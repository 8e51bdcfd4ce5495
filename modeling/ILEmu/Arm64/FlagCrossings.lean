import ILEmu.Arm64.FlagFlow
import ILEmu.ArmInterpreter.ExactLanes
import ILEmu.ArmInterpreter.ExactProducts
import ILEmu.ArmInterpreter.ExactSaturation

/-! The steps of the interpreter across instructions that a search for dead flags goes past. -/
namespace ILEmu.Arm64
open Arm hiding Instruction InstructionKind
open ArmInterpreter FlagEffects InstructionWindow Foundation

/-- What the decoders see to: an IT instruction stands outside of every block, and only words and
long products set the flags. -/
structure FlagsDecoded (inst : Instruction) : Prop where
  ifThen : inst.kind = .ifThen → inst.condition = 14 ∧ inst.immediate.toNat < 256
  multiply : inst.kind = .multiply → inst.setFlags = true →
    multiplyOperation inst.opcode = .word ∨ multiplyOperation inst.opcode = .long

theorem flagsDecoded_product {out inst : Instruction} {word : Word} {thumb inItBlock : Bool}
    {profile : ArmInstructionProfile}
    (decoded : decodeMultiply out word thumb profile inItBlock = some (some inst)) :
    FlagsDecoded inst where
  ifThen kind := by
    rw [(decodeMultiply_form decoded).1] at kind
    contradiction
  multiply _ := (decodeMultiply_form decoded).2.flags

/-- The hints of Thumb, with IT among them. -/
def decodeHint (out : Instruction) (word it : Word) (profile : ArmInstructionProfile) :
    Instruction :=
  let mask := word &&& 15
  let condition := (word >>> 4) &&& 15
  if mask = 0 then
    if condition.toNat ≤ 1 ∧ hasArmv6T2Extensions profile = true then { out with kind := .nop }
    else out
  else if it = 0 ∧ condition ≠ 15 ∧
      (condition ≠ 14 ∨ (List.range 4).countP (mask.getLsbD ·) = 1) then
    { out with kind := .ifThen, immediate := word &&& 255 }
  else out

theorem flagsDecoded_hint {out : Instruction} (word it : Word) (profile : ArmInstructionProfile)
    (undecoded : out.kind = .unsupported)
    (condition : out.condition = if it = 0 then 14 else (it >>> 4).toNat) :
    FlagsDecoded (decodeHint out word it profile) := by
  have plain : FlagsDecoded out :=
    ⟨fun kind => by rw [undecoded] at kind; contradiction,
      fun kind => by rw [undecoded] at kind; contradiction⟩
  unfold decodeHint
  dsimp only
  split
  · split
    · exact ⟨InstructionKind.noConfusion, InstructionKind.noConfusion⟩
    · exact plain
  · split
    · rename_i outside
      refine ⟨fun _ => ⟨?_, ?_⟩, InstructionKind.noConfusion⟩
      · rw [condition, if_pos outside.1]
      · rw [BitVec.toNat_and]
        exact Nat.and_lt_two_pow _ (by decide : (255 : Word).toNat < 2 ^ 8)
    · exact plain

/-! ### Other changes of the status -/

section
variable {live first second : Word} {inst : Instruction}

theorem calculateMultiply_value (inst : Instruction) (a b low high before after : Word) :
    (calculateMultiply inst a b low high before).value =
      (calculateMultiply inst a b low high after).value := by
  unfold calculateMultiply dualHalfwordMultiply
  cases multiplyOperation inst.opcode <;> rfl

theorem multiplyNz_eq (inst : Instruction) (cpsr : Word) (value : BitVec 64) :
    multiplyNz inst cpsr value = (cpsr &&& (0x3fffffff : Word)) |||
      ((((if multiplyWritesPair inst then value >>> 32 else value).setWidth 32 : Word) &&&
        (0x80000000 : Word)) ||| if value = 0 then (0x40000000 : Word) else 0) :=
  BitVec.or_assoc _ _ _

/-- The products of words and long products have one way to set the flags. -/
theorem calculateMultiply_flags (sets : inst.setFlags = true)
    (plain : multiplyOperation inst.opcode = .word ∨ multiplyOperation inst.opcode = .long)
    (a b low high cpsr : Word) :
    (calculateMultiply inst a b low high cpsr).cpsr =
      multiplyNz inst cpsr (multiply inst a b low high) := by
  have single : dualHalfwordMultiply inst a b low high cpsr = none := by
    unfold dualHalfwordMultiply
    rcases plain with word | long
    · rw [word]
    · rw [long]
  unfold calculateMultiply
  rw [single]
  dsimp only
  rw [if_pos sets]

theorem overflows_none (cpsr : Word) : Overflows cpsr cpsr false := by
  intro bit
  split
  · rename_i same
    rw [same, Bool.or_false]
  · rfl

theorem Alike.overflows (alike : Alike live first second) {first' second' : Word} {overflow : Bool}
    (one : Overflows first first' overflow) (other : Overflows second second' overflow) :
    Alike live first' second' := by
  intro bit dead
  rw [one bit, other bit]
  split
  · rw [alike.low (by decide : 27 < 28)]
  · exact alike bit dead

theorem Steady.ofOverflows {before after : Word} {overflow : Bool}
    (overflows : Overflows before after overflow) : Steady before after := by
  intro bit told
  have other : bit ≠ 27 := by
    rintro rfl
    contradiction
  rw [overflows bit, if_neg other]

theorem multiplyQ_overflows (cpsr : Word) (sum : BitVec 64) :
    Overflows cpsr (multiplyQ cpsr sum)
      (decide (sum.toInt < -2 ^ 31 ∨ 2 ^ 31 - 1 < sum.toInt)) := by
  unfold multiplyQ
  by_cases outside : sum.toInt < -2 ^ 31 ∨ 2 ^ 31 - 1 < sum.toInt
  · rw [if_pos outside, decide_eq_true outside]
    intro bit
    rw [BitVec.getLsbD_or, BitVec.getLsbD_twoPow]
    split
    · rename_i same
      rw [same]
      rfl
    · rename_i other
      rw [decide_eq_false (Ne.symm other), Bool.and_false, Bool.or_false]
  · rw [if_neg outside, decide_eq_false outside]
    exact overflows_none cpsr

/-- Without flags, a product can only set Q. -/
theorem calculateMultiply_overflows (sets : inst.setFlags = false) (a b low high : Word) :
    ∃ overflow, ∀ cpsr,
      Overflows cpsr (calculateMultiply inst a b low high cpsr).cpsr overflow := by
  unfold calculateMultiply dualHalfwordMultiply
  rw [sets]
  cases multiplyOperation inst.opcode with
  | dualHalfword | dualHalfwordSubtract => exact ⟨_, fun cpsr => multiplyQ_overflows cpsr _⟩
  | dualHalfwordLong | dualHalfwordLongSubtract => exact ⟨false, fun cpsr => overflows_none cpsr⟩
  | _ =>
    dsimp only
    split
    · contradiction
    · split
      · exact ⟨_, fun cpsr => multiplyQ_overflows cpsr _⟩
      · exact ⟨false, fun cpsr => overflows_none cpsr⟩

theorem saturatingArithmetic_overflows (inst : Instruction) (a b : Word) :
    ∃ overflow, ∀ cpsr,
      (saturatingArithmetic inst a b cpsr).value = (saturatingArithmetic inst a b 0).value ∧
        Overflows cpsr (saturatingArithmetic inst a b cpsr).cpsr overflow := by
  unfold saturatingArithmetic
  cases saturatingOperation inst.opcode with
  | signed | unsigned => exact ⟨_, fun cpsr => ⟨rfl, saturate_overflows _ _ _ cpsr⟩⟩
  | signedHalfwords | unsignedHalfwords =>
    exact ⟨_, fun cpsr =>
      ⟨rfl, (saturate_overflows _ _ _ cpsr).trans (saturate_overflows _ _ _ _)⟩⟩
  | add | subtract =>
    simp only [reduceCtorEq, or_self, if_false]
    exact ⟨_, fun cpsr => ⟨rfl, saturate_overflows _ _ _ cpsr⟩⟩
  | doubleAdd | doubleSubtract =>
    simp only [reduceCtorEq, or_false, or_true, if_true, saturate_value]
    exact ⟨_, fun cpsr =>
      ⟨trivial, (saturate_overflows _ _ _ cpsr).trans (saturate_overflows _ _ _ _)⟩⟩

/-! ### Lanes -/

/-- The layouts are those of the operations. -/
theorem layout_named (opcode : Nat) : ∃ operation : ParallelArithmeticOperation,
    parallelArithmeticLayout opcode = parallelArithmeticLayout operation.opcode := by
  by_cases named : opcode < 6
  · interval_cases opcode
    · exact ⟨.add16, rfl⟩
    · exact ⟨.addSubtract, rfl⟩
    · exact ⟨.subtractAdd, rfl⟩
    · exact ⟨.subtract16, rfl⟩
    · exact ⟨.add8, rfl⟩
    · exact ⟨.subtract8, rfl⟩
  · refine ⟨.select, ?_⟩
    unfold parallelArithmeticLayout
    split
    all_goals first | omega | rfl

/-- Bytes are selected by flags that are not among the four. -/
theorem selectBytes_alike (alike : Alike live first second) (a b : Word) :
    selectBytes a b first = selectBytes a b second := by
  have same : ∀ byte < 4, first.getLsbD (16 + byte) = second.getLsbD (16 + byte) :=
    fun byte inside => alike.low (by omega)
  unfold selectBytes
  simp only [List.foldl, same 0 (by decide), same 1 (by decide), same 2 (by decide),
    same 3 (by decide)]

theorem parallelArithmetic_value (alike : Alike live first second) (a b : Word) :
    (parallelArithmetic inst a b first).value = (parallelArithmetic inst a b second).value := by
  by_cases select : inst.opcode = parallelSelect
  · unfold parallelArithmetic
    rw [if_pos select, if_pos select]
    exact selectBytes_alike alike a b
  · rw [parallelArithmetic_eq select, parallelArithmetic_eq select]

/-- The flags of the lanes get the places that are theirs. -/
theorem parallelArithmetic_cpsr (inst : Instruction) (a b : Word) :
    (∀ cpsr, (parallelArithmetic inst a b cpsr).cpsr = cpsr) ∨
      ∃ ge : Word, (∀ bit, 4 ≤ bit → ge.getLsbD bit = false) ∧
        ∀ cpsr, (parallelArithmetic inst a b cpsr).cpsr =
          (cpsr &&& ~~~(0x000f0000 : Word)) ||| (ge <<< 16) := by
  by_cases select : inst.opcode = parallelSelect
  · left
    intro cpsr
    unfold parallelArithmetic
    rw [if_pos select]
  · right
    obtain ⟨operation, named⟩ := layout_named inst.opcode
    refine ⟨_, fun bit beyond => ?_, fun cpsr => congrArg AluResult.cpsr
      (parallelArithmetic_eq select a b cpsr)⟩
    rw [named, packed_flag, decide_eq_false (Nat.not_lt.mpr beyond), Bool.false_and]

theorem parallelArithmetic_steady (inst : Instruction) (a b cpsr : Word) :
    Steady cpsr (parallelArithmetic inst a b cpsr).cpsr := by
  rcases parallelArithmetic_cpsr inst a b with still | ⟨ge, small, told⟩
  · rw [still]
    exact .refl cpsr
  · rw [told]
    refine Steady.assign fun bit inside steady => ⟨?_, ?_⟩
    · revert bit
      decide
    · unfold steadyBit at steady
      simp only [Bool.or_eq_true, Bool.and_eq_true, decide_eq_true_eq] at steady
      rw [BitVec.getLsbD_shiftLeft]
      by_cases low : bit < 16
      · rw [decide_eq_true low, Bool.not_true, Bool.and_false, Bool.false_and]
      · rw [small _ (by omega), Bool.and_false]

theorem Alike.afterParallel (alike : Alike live first second) (inst : Instruction) (a b : Word) :
    Alike live (parallelArithmetic inst a b first).cpsr
      (parallelArithmetic inst a b second).cpsr := by
  rcases parallelArithmetic_cpsr inst a b with still | ⟨ge, -, told⟩
  · rw [still, still]
    exact alike
  · rw [told, told]
    exact (alike.assign (fun bit _ _ => holds_zero bit) (.refl _ _)).weaken

end

/-! ### Effects -/

/-- What becomes of the status, wherever it differs from that of the guest in live flags only. The
rest of the guest does not see the difference. -/
structure Flows (live written : Word) (guest : Guest) (f : Guest → Guest × Completion)
    (update : Word → Word) : Prop where
  performs : ∀ cpsr, Alike live guest.state.cpsr cpsr →
    f (guest.setCpsr cpsr) = ((f guest).1.setCpsr (update cpsr), {})
  flags : ∀ cpsr, Alike live guest.state.cpsr cpsr →
    Alike (live &&& ~~~written) (update guest.state.cpsr) (update cpsr)
  steady : ∀ cpsr, Steady cpsr (update cpsr)

section
variable {live : Word} {units : Units} {profile : Profile} {inst : Instruction} {guest : Guest}

/-- An instruction that leaves the status alone. -/
theorem Flows.still {f : Guest → Guest × Completion}
    (performs : ∀ cpsr, f (guest.setCpsr cpsr) = ((f guest).1.setCpsr cpsr, {})) :
    Flows live 0 guest f id where
  performs cpsr _ := performs cpsr
  flags _ alike := alike.keepAll
  steady cpsr := .refl cpsr

theorem dataProcessing_flows (kind : inst.kind = .dataProcessing)
    (linear : (!isTest inst.opcode && decide (inst.rd = 15)) = false)
    (unread : readsCarry inst = true → c &&& live = 0) :
    Flows live (dataProcessingWrites inst).2 guest (perform units profile inst) fun cpsr =>
      (dataProcessing (withCpsr guest.state cpsr) inst).cpsr where
  performs cpsr alike := by
    have carries := fun reads => carry_of_dead alike (unread reads)
    have value := dataProcessing_value guest.state carries
    have goes : aluWritesPc inst = false := by
      unfold aluWritesPc
      rw [kind, decide_eq_true rfl, Bool.true_and, Bool.and_comm]
      exact linear
    unfold perform
    rw [kind]
    dsimp only
    unfold processData
    rw [goes, if_neg Bool.false_ne_true, if_neg Bool.false_ne_true]
    cases test : isTest inst.opcode with
    | true => rfl
    | false =>
      have moved : (dataProcessing (guest.setCpsr cpsr).state inst).value =
          (dataProcessing guest.state inst).value := value
      rw [if_neg Bool.false_ne_true, if_neg Bool.false_ne_true, moved]
      rfl
  flags cpsr alike := alike.afterDataProcessing guest.state fun reads =>
    carry_of_dead alike (unread reads)
  steady cpsr := dataProcessing_steady guest.state inst cpsr

/-- The status after a product of the guest's registers. -/
def multipliedCpsr (inst : Instruction) (state : CpuThreadState) (cpsr : Word) : Word :=
  (calculateMultiply inst (state.registers inst.rm) (state.registers inst.rs)
    (state.registers inst.rd) (state.registers inst.rn) cpsr).cpsr

theorem multiply_performs (kind : inst.kind = .multiply) (cpsr : Word) :
    perform units profile inst (guest.setCpsr cpsr) =
      ((perform units profile inst guest).1.setCpsr (multipliedCpsr inst guest.state cpsr),
        {}) := by
  have value := calculateMultiply_value inst (guest.state.registers inst.rm)
    (guest.state.registers inst.rs) (guest.state.registers inst.rd)
    (guest.state.registers inst.rn) cpsr guest.state.cpsr
  unfold perform
  rw [kind]
  dsimp only
  unfold multiplyRegisters
  dsimp only [Guest.setCpsr]
  rw [value]
  cases multiplyWritesPair inst with
  | false => rfl
  | true => rfl

theorem multiply_flows (kind : inst.kind = .multiply) (decoded : FlagsDecoded inst) :
    Flows live (if inst.setFlags then n ||| z else 0) guest (perform units profile inst)
      (multipliedCpsr inst guest.state) where
  performs cpsr _ := multiply_performs kind cpsr
  flags cpsr alike := by
    unfold multipliedCpsr
    cases sets : inst.setFlags with
    | true =>
      rw [if_pos rfl, calculateMultiply_flags sets (decoded.multiply kind sets),
        calculateMultiply_flags sets (decoded.multiply kind sets), multiplyNz_eq, multiplyNz_eq]
      exact alike.assign (by decide) (.refl _ _)
    | false =>
      obtain ⟨overflow, overflows⟩ := calculateMultiply_overflows sets
        (guest.state.registers inst.rm) (guest.state.registers inst.rs)
        (guest.state.registers inst.rd) (guest.state.registers inst.rn)
      exact (alike.overflows (overflows _) (overflows _)).keepAll
  steady cpsr := by
    unfold multipliedCpsr
    cases sets : inst.setFlags with
    | true =>
      rw [calculateMultiply_flags sets (decoded.multiply kind sets), multiplyNz_eq]
      refine Steady.assign fun bit inside told => ⟨?_, ?_⟩
      · revert bit
        decide
      · rw [BitVec.getLsbD_or, BitVec.getLsbD_and]
        have high : (0x80000000 : Word).getLsbD bit = false := by
          revert bit
          decide
        rw [high, Bool.and_false, Bool.false_or]
        split
        · revert bit
          decide
        · exact BitVec.getLsbD_zero
    | false =>
      obtain ⟨overflow, overflows⟩ := calculateMultiply_overflows sets
        (guest.state.registers inst.rm) (guest.state.registers inst.rs)
        (guest.state.registers inst.rd) (guest.state.registers inst.rn)
      exact .ofOverflows (overflows cpsr)

theorem parallelArithmetic_flows (kind : inst.kind = .parallelArithmetic) :
    Flows live 0 guest (perform units profile inst) fun cpsr =>
      (parallelArithmetic inst (guest.state.registers inst.rn) (guest.state.registers inst.rm)
        cpsr).cpsr where
  performs cpsr alike := by
    have value : (parallelArithmetic inst (guest.state.registers inst.rn)
        (guest.state.registers inst.rm) cpsr).value = _ :=
      (parallelArithmetic_value alike _ _).symm
    unfold perform
    rw [kind]
    dsimp only [setAlu, Guest.setCpsr]
    rw [value]
    rfl
  flags cpsr alike := (alike.afterParallel inst _ _).keepAll
  steady cpsr := parallelArithmetic_steady inst _ _ cpsr

theorem saturatingArithmetic_flows (kind : inst.kind = .saturatingArithmetic) :
    Flows live 0 guest (perform units profile inst) fun cpsr =>
      (saturatingArithmetic inst (guest.state.registers inst.rn) (guest.state.registers inst.rm)
        cpsr).cpsr := by
  obtain ⟨overflow, told⟩ := saturatingArithmetic_overflows inst (guest.state.registers inst.rn)
    (guest.state.registers inst.rm)
  refine ⟨fun cpsr _ => ?_, fun cpsr alike => ?_, fun cpsr => .ofOverflows (told cpsr).2⟩
  · have value := (told cpsr).1.trans (told guest.state.cpsr).1.symm
    unfold perform
    rw [kind]
    dsimp only [setAlu, Guest.setCpsr]
    rw [value]
    rfl
  · exact (alike.overflows (told _).2 (told _).2).keepAll

/-- Flags that come from the status of floating point replace all of them. -/
def importedCpsr (operands : FloatingSystemOperands) (fpscr cpsr : Word) : Word :=
  if operands.toCore && decide (operands.core = 15) then
    (cpsr &&& (0x0fffffff : Word)) ||| (fpscr &&& (0xf0000000 : Word))
  else cpsr

theorem floatingSystem_flows {operands : FloatingSystemOperands}
    (kind : inst.kind = .floatingSystem operands) :
    Flows live (if operands.toCore && decide (operands.core = 15) then nzcv else 0) guest
      (perform units profile inst) (importedCpsr operands guest.fpscr) where
  performs cpsr _ := by
    unfold perform importedCpsr
    rw [kind]
    dsimp only [floatingSystem]
    cases operands.toCore with
    | false => rfl
    | true =>
      rw [Bool.not_true, if_neg Bool.false_ne_true, if_neg Bool.false_ne_true, Bool.true_and]
      by_cases flags : operands.core = programCounter
      · have last : operands.core = 15 := flags
        rw [if_pos flags, if_pos flags, decide_eq_true last, if_pos rfl]
        rfl
      · have other : operands.core ≠ 15 := flags
        rw [if_neg flags, if_neg flags, decide_eq_false other, if_neg Bool.false_ne_true]
        rfl
  flags cpsr alike := by
    unfold importedCpsr
    split
    · exact alike.assign (by decide) (.refl _ _)
    · exact alike.keepAll
  steady cpsr := by
    unfold importedCpsr
    split
    · refine Steady.assign fun bit inside told => ⟨?_, ?_⟩
      · revert bit
        decide
      · have high : (0xf0000000 : Word).getLsbD bit = false := by
          revert bit
          decide
        rw [BitVec.getLsbD_and, high, Bool.and_false]
    · exact .refl cpsr

theorem testBit_eq_false {value bit : Nat} (clear : value &&& 2 ^ bit = 0) :
    value.testBit bit = false := by
  have told := congrArg (Nat.testBit · bit) clear
  simpa using told

theorem testBit_eq_true {value bit : Nat} (set : value &&& 2 ^ bit ≠ 0) :
    value.testBit bit = true := by
  by_contra clear
  refine set (Nat.eq_of_testBit_eq fun other => ?_)
  rw [Nat.testBit_and, Nat.testBit_two_pow, Nat.zero_testBit]
  by_cases same : bit = other
  · rw [← same, Bool.eq_false_of_not_eq_true clear, Bool.false_and]
  · rw [decide_eq_false same, Bool.and_false]

/-- The status after a write to its fields of flags. -/
def writtenCpsr (inst : Instruction) (state : CpuThreadState) (cpsr : Word) : Word :=
  (cpsr &&& ~~~programStatusWriteMask inst.opcode) |||
    ((if inst.immediateOperand then inst.immediate else state.registers inst.rd) &&&
      programStatusWriteMask inst.opcode)

theorem programStatusWriteMask_steady {bytes : Nat} (plain : bytes.testBit 1 = false) :
    ∀ bit < 32, steadyBit bit = true → (programStatusWriteMask bytes).getLsbD bit = false := by
  unfold programStatusWriteMask
  rw [plain, if_neg Bool.false_ne_true]
  cases bytes.testBit 3 with
  | false =>
    cases bytes.testBit 2 with
    | false => decide
    | true => decide
  | true =>
    cases bytes.testBit 2 with
    | false => decide
    | true => decide

theorem writtenCpsr_steady {inst : Instruction} (plain : inst.opcode &&& 2 = 0)
    (state : CpuThreadState) (cpsr : Word) : Steady cpsr (writtenCpsr inst state cpsr) := by
  have clear : inst.opcode.testBit 1 = false := testBit_eq_false plain
  refine Steady.assign fun bit inside told => ?_
  have off := programStatusWriteMask_steady clear bit inside told
  refine ⟨?_, ?_⟩
  · rw [BitVec.getLsbD_not, off, decide_eq_true inside]
    rfl
  · rw [BitVec.getLsbD_and, off, Bool.and_false]

theorem programStatusWriteMask_flags {bytes : Nat} (all : bytes.testBit 3 = true) {bit : Nat}
    (inside : bit < 32) (kept : (~~~programStatusWriteMask bytes).getLsbD bit = true) :
    holds nzcv bit = false := by
  unfold programStatusWriteMask at kept
  rw [all, if_pos rfl, BitVec.getLsbD_not, BitVec.getLsbD_or, BitVec.getLsbD_or] at kept
  have high : ∀ bit < 32, (0xf8000000 : Word).getLsbD bit = false → holds nzcv bit = false := by
    decide
  refine high bit inside ?_
  cases told : (0xf8000000 : Word).getLsbD bit with
  | false => rfl
  | true =>
    rw [told, Bool.true_or, Bool.true_or, Bool.not_true, Bool.and_false] at kept
    contradiction

/-- What the switch over the kinds says of the accesses to the status. -/
theorem systemControl_switch {read : Word} {effects : FlagEffects}
    (kind : inst.kind = .systemControl) (told : FlagEffects.switch read inst = some effects) :
    inst.system = .programStatusRegister ∧
      ((inst.load = true ∧ effects.read = read ||| nzcv ∧ effects.guaranteedWrite = 0) ∨
        (inst.load = false ∧ inst.opcode &&& 2 = 0 ∧ effects.guaranteedWrite =
          if inst.opcode &&& 8 ≠ 0 then nzcv else 0)) := by
  unfold FlagEffects.switch at told
  rw [kind] at told
  dsimp only at told
  split at told
  · contradiction
  · rename_i accepted
    simp only [Bool.or_eq_true, bne_iff_ne, ne_eq, Bool.and_eq_true, Bool.not_eq_true',
      not_or, not_not, not_and] at accepted
    refine ⟨accepted.1, ?_⟩
    cases load : inst.load with
    | true =>
      rw [load, if_pos rfl] at told
      cases told
      exact .inl ⟨rfl, rfl, rfl⟩
    | false =>
      rw [load, if_neg Bool.false_ne_true] at told
      refine .inr ⟨rfl, accepted.2 load, ?_⟩
      by_cases all : inst.opcode &&& 8 = 0
      · rw [if_neg (by simpa using all)] at told
        cases told
        rw [if_neg (not_not.mpr all)]
      · rw [if_pos (by simpa using all)] at told
        cases told
        rw [if_pos all]

theorem Alike.eq_of_dead {first second : Word} (alike : Alike live first second)
    (dead : nzcv &&& live = 0) : first = second := by
  apply BitVec.eq_of_getLsbD_eq
  intro bit inside
  refine alike bit ?_
  unfold holds
  by_cases flag : 28 ≤ bit
  · have off := congrArg (BitVec.getLsbD · (bit - 28)) dead
    have all : ∀ place < 4, nzcv.getLsbD place = true := by decide
    have empty : (0 : Word).getLsbD (bit - 28) = false := BitVec.getLsbD_zero
    rw [BitVec.getLsbD_and, all (bit - 28) (by omega), Bool.true_and, empty] at off
    rw [off, Bool.and_false]
  · rw [decide_eq_false flag, Bool.false_and]

theorem unread_or {first second : Word} (unread : (first ||| second) &&& live = 0) :
    second &&& live = 0 := by
  apply BitVec.eq_of_getLsbD_eq
  intro bit inside
  have off := congrArg (BitVec.getLsbD · bit) unread
  have empty : (0 : Word).getLsbD bit = false := BitVec.getLsbD_zero
  rw [BitVec.getLsbD_and, BitVec.getLsbD_or, empty, Bool.and_eq_false_iff,
    Bool.or_eq_false_iff] at off
  rw [BitVec.getLsbD_and, empty, Bool.and_eq_false_iff]
  exact off.imp And.right id

theorem systemControl_flows {read : Word} {effects : FlagEffects}
    (kind : inst.kind = .systemControl) (told : FlagEffects.switch read inst = some effects)
    (unread : effects.read &&& live = 0) :
    ∃ update, Flows live effects.guaranteedWrite guest (perform units profile inst) update := by
  obtain ⟨system, ⟨load, reads, writes⟩ | ⟨load, plain, writes⟩⟩ := systemControl_switch kind told
  · rw [reads] at unread
    have dead := unread_or unread
    refine ⟨id, ⟨fun cpsr alike => ?_, fun cpsr alike => ?_, .refl⟩⟩
    · rw [← alike.eq_of_dead dead]
      unfold perform
      rw [kind]
      dsimp only
      unfold systemControl
      rw [system, load]
      rfl
    · rw [writes]
      exact alike.keepAll
  · refine ⟨writtenCpsr inst guest.state, ⟨fun cpsr _ => ?_, fun cpsr alike => ?_,
      writtenCpsr_steady plain guest.state⟩⟩
    · unfold perform
      rw [kind]
      dsimp only
      unfold systemControl
      rw [system, load]
      rfl
    · rw [writes]
      split
      · rename_i all
        have set : inst.opcode.testBit 3 = true := testBit_eq_true all
        exact alike.assign (fun bit inside kept => programStatusWriteMask_flags set inside kept)
          (.refl _ _)
      · exact alike.assign (fun bit _ _ => holds_zero bit) (.refl _ _)

/-- Whatever the switch lets a search cross. -/
theorem perform_flows {read : Word} {effects : FlagEffects} (decoded : FlagsDecoded inst)
    (told : FlagEffects.switch read inst = some effects) (unread : effects.read &&& live = 0) :
    ∃ update, Flows live effects.guaranteedWrite guest (perform units profile inst) update := by
  cases kind : inst.kind with
  | dataProcessing =>
    unfold FlagEffects.switch at told
    rw [kind] at told
    dsimp only at told
    split at told
    · contradiction
    · rename_i linear
      cases told
      refine ⟨_, dataProcessing_flows kind (Bool.eq_false_of_not_eq_true linear) fun reads => ?_⟩
      rw [if_pos reads] at unread
      exact unread_or unread
  | multiply =>
    have flows := @multiply_flows live units profile inst guest kind decoded
    unfold FlagEffects.switch at told
    rw [kind] at told
    dsimp only at told
    split at told
    · rename_i sets
      cases told
      rw [if_pos sets] at flows
      exact ⟨_, flows⟩
    · rename_i plain
      cases told
      rw [if_neg plain] at flows
      exact ⟨_, flows⟩
  | floatingSystem operands =>
    have flows := @floatingSystem_flows live units profile inst guest operands kind
    unfold FlagEffects.switch at told
    rw [kind] at told
    dsimp only at told
    split at told
    · rename_i imports
      cases told
      rw [if_pos imports] at flows
      exact ⟨_, flows⟩
    · rename_i plain
      cases told
      rw [if_neg plain] at flows
      exact ⟨_, flows⟩
  | systemControl => exact systemControl_flows kind told unread
  | parallelArithmetic =>
    unfold FlagEffects.switch at told
    rw [kind] at told
    cases told
    exact ⟨_, parallelArithmetic_flows kind⟩
  | saturatingArithmetic =>
    unfold FlagEffects.switch at told
    rw [kind] at told
    cases told
    exact ⟨_, saturatingArithmetic_flows kind⟩
  | ifThen | nop =>
    unfold FlagEffects.switch at told
    rw [kind] at told
    cases told
    refine ⟨id, .still fun cpsr => ?_⟩
    unfold perform
    rw [kind]
  | wideImmediate | packHalfword | integerTransform | integerDivide
  | parallelSaturating | vectorDuplicate _ | vectorIntegerArithmetic _ | vectorBitwise _
  | vectorShiftImmediate _ | vectorReverse _ | vectorExtract _ | vectorImmediate _ =>
    unfold FlagEffects.switch at told
    rw [kind] at told
    cases told
    refine ⟨id, .still fun cpsr => ?_⟩
    unfold perform
    rw [kind]
    rfl
  | vectorCoreMove operands =>
    unfold FlagEffects.switch at told
    rw [kind] at told
    cases told
    refine ⟨id, .still fun cpsr => ?_⟩
    unfold perform
    rw [kind]
    dsimp only
    unfold moveCoreVector
    split
    · split
      · rfl
      · rfl
    · split
      · rfl
      · rfl
  | _ =>
    unfold FlagEffects.switch at told
    rw [kind] at told
    contradiction

end
end ILEmu.Arm64
