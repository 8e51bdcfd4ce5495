import ILEmu.Arm64.FlagCrossings
import ILEmu.ArmInterpreter.Slice

/-! The steps of the interpreter past the instructions that a search for dead flags goes past: they
retire, go straight on, and guests that differ in live flags only stay together. -/
namespace ILEmu.Arm64
open Arm hiding Instruction InstructionKind
open ArmInterpreter FlagEffects InstructionWindow

/-! ### Conditions -/

section
variable {live first second : Word}

theorem Alike.flag (alike : Alike live first second) {flags : Word} (dead : flags &&& live = 0)
    {place : Nat} (member : flags.getLsbD place = true) :
    first.getLsbD (28 + place) = second.getLsbD (28 + place) := by
  refine alike _ ?_
  have off := congrArg (BitVec.getLsbD · place) dead
  have empty : (0 : Word).getLsbD place = false := BitVec.getLsbD_zero
  rw [BitVec.getLsbD_and, member, Bool.true_and, empty] at off
  unfold holds
  rw [Nat.add_sub_cancel_left, off, Bool.and_false]

theorem conditionPassed_alike (alike : Alike live first second) {condition : Nat}
    (unread : conditionReads condition &&& live = 0) :
    conditionPassed condition first = conditionPassed condition second := by
  have negatives : (conditionReads condition).getLsbD 3 = true → negative first = negative second :=
    alike.flag unread
  have zeros : (conditionReads condition).getLsbD 2 = true → zero first = zero second :=
    alike.flag unread
  have carries : (conditionReads condition).getLsbD 1 = true → carry first = carry second :=
    alike.flag unread
  have overflows : (conditionReads condition).getLsbD 0 = true → overflow first = overflow second :=
    alike.flag unread
  by_cases plain : condition < 14
  · unfold conditionPassed
    interval_cases condition
    · exact zeros rfl
    · exact congrArg not (zeros rfl)
    · exact carries rfl
    · exact congrArg not (carries rfl)
    · exact negatives rfl
    · exact congrArg not (negatives rfl)
    · exact overflows rfl
    · exact congrArg not (overflows rfl)
    · rw [carries rfl, zeros rfl]
      rfl
    · rw [carries rfl, zeros rfl]
      rfl
    · rw [negatives rfl, overflows rfl]
      rfl
    · rw [negatives rfl, overflows rfl]
      rfl
    · rw [zeros rfl, negatives rfl, overflows rfl]
      rfl
    · rw [zeros rfl, negatives rfl, overflows rfl]
      rfl
  · unfold conditionPassed
    split
    all_goals first | omega | rfl

end

/-! ### The IT block -/

section

theorem withItState_eq (cpsr value : Word) :
    withItState cpsr value = (cpsr &&& ~~~(0x0600fc00 : Word)) |||
      (((value &&& (0xfc : Word)) <<< 8) ||| ((value &&& (3 : Word)) <<< 25)) :=
  BitVec.or_assoc _ _ _

theorem Alike.inBlock {live first second : Word} (alike : Alike live first second)
    (value : Word) : Alike live (withItState first value) (withItState second value) := by
  rw [withItState_eq, withItState_eq]
  exact (alike.assign (fun bit _ _ => holds_zero bit) (.refl _ _)).weaken

/-- The bits of the mode, and the one of Thumb. -/
def modeBit (bit : Nat) : Bool := decide (bit < 6) || decide (bit = 24)

theorem withItState_mode (cpsr value : Word) {bit : Nat} (told : modeBit bit = true) :
    (withItState cpsr value).getLsbD bit = cpsr.getLsbD bit := by
  unfold modeBit at told
  rw [Bool.or_eq_true, decide_eq_true_eq, decide_eq_true_eq] at told
  rw [withItState_eq]
  rcases told with low | rfl
  · interval_cases bit
    all_goals simp
  · simp

theorem itState_withItState (cpsr : Word) {value : Word} (small : value.toNat < 256) :
    itState (withItState cpsr value) = value := by
  apply BitVec.eq_of_getLsbD_eq
  intro bit inside
  unfold itState
  rw [withItState_eq]
  by_cases low : bit < 8
  · interval_cases bit
    all_goals simp
  · have above : value.toNat < 2 ^ bit :=
      Nat.lt_of_lt_of_le small (Nat.pow_le_pow_right Nat.zero_lt_two (Nat.not_lt.mp low))
    have high : value.getLsbD bit = false := Nat.testBit_lt_two_pow above
    have outside : ∀ other < 32, 8 ≤ other →
        (0xfc : Word).getLsbD other = false ∧ (3 : Word).getLsbD other = false := by decide
    obtain ⟨upper, lower⟩ := outside bit inside (Nat.not_lt.mp low)
    rw [BitVec.getLsbD_or, BitVec.getLsbD_and, BitVec.getLsbD_and, upper, lower, Bool.and_false,
      Bool.and_false, high]
    rfl

theorem advanceIt_small (value : Word) : (advanceIt value).toNat < 256 := by
  unfold advanceIt
  split
  · decide
  · rw [BitVec.toNat_or, BitVec.toNat_and, BitVec.toNat_and]
    exact Nat.or_lt_two_pow (Nat.and_lt_two_pow _ (by decide : (0xe0 : Word).toNat < 2 ^ 8))
      (Nat.and_lt_two_pow _ (by decide : (0x1f : Word).toNat < 2 ^ 8))

/-- The IT block is in bits that no search lets go. -/
theorem itState_congr {before after : Word}
    (same : ∀ bit, steadyBit bit = true → before.getLsbD bit = after.getLsbD bit) :
    itState before = itState after := by
  have upper : ∀ bit < 32, (0xfc : Word).getLsbD bit = true → steadyBit (8 + bit) = true := by
    decide
  have lower : ∀ bit < 32, (3 : Word).getLsbD bit = true → steadyBit (25 + bit) = true := by decide
  have masked : ∀ {a b mask : Bool}, (mask = true → a = b) → (a && mask) = (b && mask) := by
    intro a b mask equal
    cases mask with
    | false => rw [Bool.and_false, Bool.and_false]
    | true => rw [equal rfl]
  apply BitVec.eq_of_getLsbD_eq
  intro bit inside
  unfold itState
  rw [BitVec.getLsbD_or, BitVec.getLsbD_or, BitVec.getLsbD_and, BitVec.getLsbD_and,
    BitVec.getLsbD_and, BitVec.getLsbD_and, BitVec.getLsbD_ushiftRight,
    BitVec.getLsbD_ushiftRight, BitVec.getLsbD_ushiftRight, BitVec.getLsbD_ushiftRight,
    masked fun member => same _ (upper bit inside member),
    masked fun member => same _ (lower bit inside member)]

/-- What a turn checks of the mode. -/
theorem modeSupported_congr {before after : Word}
    (same : ∀ bit, modeBit bit = true → before.getLsbD bit = after.getLsbD bit)
    (blocks : thumb before = false → itState before = itState after) :
    modeSupported before = modeSupported after := by
  have bits : ∀ bit < 32, (0x0100001f : Word).getLsbD bit = true → modeBit bit = true := by decide
  have mode : before &&& 0x0100001f = after &&& 0x0100001f := by
    apply BitVec.eq_of_getLsbD_eq
    intro bit inside
    rw [BitVec.getLsbD_and, BitVec.getLsbD_and]
    cases member : (0x0100001f : Word).getLsbD bit with
    | false => rw [Bool.and_false, Bool.and_false]
    | true => rw [same bit (bits bit inside member)]
  have state : thumb before = thumb after := same 5 rfl
  unfold modeSupported
  rw [mode, ← state]
  cases told : thumb before with
  | false => rw [blocks told]
  | true => rfl

end

/-! ### Retirement -/

section
variable {live : Word} {inst : Instruction} {before : CpuThreadState} {guest : Guest}

/-- The status of an instruction that retires. -/
def retiredCpsr (inst : Instruction) (passed : Bool) (before cpsr : Word) : Word :=
  if thumb before then withItState cpsr (nextIt inst passed (itState before)) else cpsr

theorem retire_cpsr (inst : Instruction) (passed : Bool) (before : CpuThreadState) (guest : Guest) :
    (retire inst passed before guest).state.cpsr =
      retiredCpsr inst passed before.cpsr guest.state.cpsr := by
  unfold retire retiredCpsr
  cases passed && writesPc inst with
  | true =>
    cases thumb before.cpsr with
    | true => rfl
    | false => rfl
  | false =>
    cases thumb before.cpsr with
    | true => rfl
    | false => rfl

theorem retire_alike {cpsr : Word} (alike : Alike live before.cpsr cpsr) (inst : Instruction)
    (passed : Bool) (guest : Guest) (status : Word) :
    retire inst passed (withCpsr before cpsr) (guest.setCpsr status) =
      (retire inst passed before guest).setCpsr (retiredCpsr inst passed before.cpsr status) := by
  have state : thumb cpsr = thumb before.cpsr := (alike.low (by decide : 5 < 28)).symm
  have block : itState cpsr = itState before.cpsr :=
    (itState_congr fun bit told => alike.trans_steady (.refl _) told).symm
  unfold retire retiredCpsr withCpsr
  dsimp only
  rw [state, block]
  cases passed && writesPc inst with
  | true =>
    cases thumb before.cpsr with
    | true => rfl
    | false => rfl
  | false =>
    cases thumb before.cpsr with
    | true => rfl
    | false => rfl

theorem Alike.retired {first second : Word} (alike : Alike live first second)
    (inst : Instruction) (passed : Bool) (before : Word) :
    Alike live (retiredCpsr inst passed before first) (retiredCpsr inst passed before second) := by
  unfold retiredCpsr
  split
  · exact alike.inBlock _
  · exact alike

end

/-! ### A step across an instruction -/

section
variable {live guardedControls read : Word} {inst : Instruction} {effects : FlagEffects}

/-- The switch lets a search past, or comparisons are guarded. -/
theorem crossed_cases (crossed : (effectsUnder guardedControls inst).boundary = false) :
    inst.condition ≠ 15 ∧
      ((∃ effects, FlagEffects.switch (conditionReads inst.condition) inst = some effects ∧
        (effectsUnder guardedControls inst).read = effects.read ∧
        (effectsUnder guardedControls inst).guaranteedWrite =
          if inst.condition = 14 then effects.guaranteedWrite else 0) ∨
      ∃ operands, inst.kind = .floatingComparison operands ∧
        guardedControls &&& floatingComparisonControls = floatingComparisonControls ∧
        (effectsUnder guardedControls inst).read = conditionReads inst.condition ∧
        (effectsUnder guardedControls inst).guaranteedWrite = 0) := by
  by_cases unconditional : inst.condition = 15
  · have stays : (effectsUnder guardedControls inst).boundary = true := by
      unfold effectsUnder flagEffects
      rw [if_pos unconditional]
      split
      · rw [if_neg (fun both => both.1 unconditional)]
      · rfl
    rw [stays] at crossed
    contradiction
  · refine ⟨unconditional, ?_⟩
    cases told : FlagEffects.switch (conditionReads inst.condition) inst with
    | some effects =>
      left
      have plain : effectsUnder guardedControls inst = flagEffects inst := by
        unfold effectsUnder
        split
        · rename_i operands kind
          unfold FlagEffects.switch at told
          rw [kind] at told
          contradiction
        · rfl
      rw [plain]
      unfold flagEffects
      rw [if_neg unconditional, told]
      exact ⟨effects, rfl, rfl, rfl⟩
    | none =>
      right
      have bounded : flagEffects inst = { read := conditionReads inst.condition } := by
        unfold flagEffects
        rw [if_neg unconditional, told]
      unfold effectsUnder at crossed ⊢
      split at crossed
      · rename_i operands kind
        rw [kind]
        dsimp only
        split at crossed
        · rename_i guarded
          rw [if_pos guarded, bounded]
          exact ⟨operands, rfl, guarded.2, rfl, rfl⟩
        · rw [bounded] at crossed
          contradiction
      · rw [bounded] at crossed
        contradiction

/-- Every instruction reads the flags of its condition. -/
theorem switch_read (told : FlagEffects.switch read inst = some effects) :
    ∃ more, effects.read = read ||| more := by
  have same : ∀ {other : FlagEffects}, other = effects → other.read = read →
      ∃ more, effects.read = read ||| more := by
    rintro _ rfl reads
    exact ⟨0, reads.trans BitVec.or_zero.symm⟩
  unfold FlagEffects.switch at told
  cases kind : inst.kind with
  | dataProcessing =>
    rw [kind] at told
    dsimp only at told
    split at told
    · contradiction
    · cases told
      dsimp only
      split
      · exact ⟨c, rfl⟩
      · exact ⟨0, BitVec.or_zero.symm⟩
  | multiply | floatingSystem operands =>
    rw [kind] at told
    dsimp only at told
    split at told
    · exact same (Option.some.inj told) rfl
    · exact same (Option.some.inj told) rfl
  | systemControl =>
    rw [kind] at told
    dsimp only at told
    split at told
    · contradiction
    · split at told
      · cases told
        exact ⟨nzcv, rfl⟩
      · split at told
        · exact same (Option.some.inj told) rfl
        · exact same (Option.some.inj told) rfl
  | ifThen | nop | wideImmediate | packHalfword | integerTransform | integerDivide
  | parallelSaturating | parallelArithmetic | saturatingArithmetic | vectorDuplicate _
  | vectorIntegerArithmetic _ | vectorBitwise _ | vectorShiftImmediate _ | vectorReverse _
  | vectorExtract _ | vectorImmediate _ | vectorCoreMove _ =>
    rw [kind] at told
    exact same (Option.some.inj told) rfl
  | _ =>
    rw [kind] at told
    contradiction

/-- The families that a search may cross. -/
def crossable : InstructionKind → Bool
  | .dataProcessing | .multiply | .floatingSystem _ | .systemControl | .ifThen | .nop
  | .wideImmediate | .packHalfword | .integerTransform | .integerDivide | .parallelSaturating
  | .parallelArithmetic | .saturatingArithmetic | .vectorDuplicate _ | .vectorIntegerArithmetic _
  | .vectorBitwise _ | .vectorShiftImmediate _ | .vectorReverse _ | .vectorExtract _
  | .vectorImmediate _ | .vectorCoreMove _ | .floatingComparison _ => true
  | _ => false

theorem switch_crossable (told : FlagEffects.switch read inst = some effects) :
    crossable inst.kind = true ∧ (inst.kind = .dataProcessing → aluWritesPc inst = false) ∧
      ∀ operands, inst.kind ≠ .floatingComparison operands := by
  unfold FlagEffects.switch at told
  cases kind : inst.kind with
  | dataProcessing =>
    rw [kind] at told
    dsimp only at told
    split at told
    · contradiction
    · rename_i linear
      refine ⟨rfl, fun _ => ?_, fun _ => InstructionKind.noConfusion⟩
      unfold aluWritesPc
      rw [kind, decide_eq_true rfl, Bool.true_and, Bool.and_comm]
      exact Bool.eq_false_of_not_eq_true linear
  | floatingComparison operands =>
    rw [kind] at told
    contradiction
  | _ =>
    rw [kind] at told
    first
      | contradiction
      | exact ⟨rfl, InstructionKind.noConfusion, fun _ => InstructionKind.noConfusion⟩

/-- An instruction that a search may cross, and that does not branch. -/
structure Straight (inst : Instruction) : Prop where
  kind : crossable inst.kind = true
  alu : inst.kind = .dataProcessing → aluWritesPc inst = false

theorem crossed_straight (crossed : (effectsUnder guardedControls inst).boundary = false) :
    Straight inst := by
  obtain ⟨-, ⟨effects, told, -⟩ | ⟨operands, kind, -⟩⟩ := crossed_cases crossed
  · obtain ⟨crosses, alu, -⟩ := switch_crossable told
    exact ⟨crosses, alu⟩
  · exact ⟨by rw [kind]; rfl, fun other => by rw [kind] at other; contradiction⟩

namespace Straight
variable {units : Units} {profile : Profile} {guest : Guest}

theorem writesPc (straight : Straight inst) : ArmInterpreter.writesPc inst = false := by
  obtain ⟨kind, alu⟩ := straight
  unfold ArmInterpreter.writesPc
  cases found : inst.kind with
  | dataProcessing => exact alu found
  | _ =>
    rw [found] at kind
    first
      | contradiction
      | (unfold aluWritesPc; rw [found]; rfl)

theorem stop (straight : Straight inst) (guest : Guest) : architecturalStop inst guest = none := by
  have kind := straight.kind
  unfold architecturalStop
  split
  · rename_i found
    rw [found] at kind
    contradiction
  · rename_i found
    rw [found] at kind
    contradiction
  · rfl

theorem nextPc (straight : Straight inst) (passed : Bool) (before : CpuThreadState)
    (after : Register → Word) : ArmInterpreter.nextPc inst passed before after =
      before.registers programCounter + BitVec.ofNat 32 inst.size := by
  have kind := straight.kind
  have branch : inst.kind ≠ .branch := fun found => by rw [found] at kind; contradiction
  have compares : inst.kind ≠ .compareBranch := fun found => by rw [found] at kind; contradiction
  have exchanges : inst.kind ≠ .branchExchange := fun found => by rw [found] at kind; contradiction
  unfold ArmInterpreter.nextPc
  dsimp only
  rw [decide_eq_false branch, decide_eq_false compares, decide_eq_false exchanges, Bool.false_and,
    Bool.or_false, Bool.and_false, if_neg Bool.false_ne_true, if_neg Bool.false_ne_true]

theorem refused (straight : Straight inst)
    (guarded : ∀ operands, inst.kind = .floatingComparison operands →
      guest.fpscr &&& floatingComparisonControls = 0) :
    ArmInterpreter.refused units profile inst guest = false := by
  obtain ⟨kind, alu⟩ := straight
  unfold ArmInterpreter.refused
  dsimp only
  cases found : inst.kind with
  | dataProcessing =>
    dsimp only
    rw [alu found, Bool.false_and]
  | floatingComparison operands =>
    dsimp only
    rw [guarded operands found]
    rfl
  | unsupported | floatingArithmetic operands | floatingImmediate operands
  | floatingConversion operands | branchExchange =>
    rw [found] at kind
    contradiction
  | _ => rfl

theorem retire_pc (straight : Straight inst) (passed : Bool) (before : CpuThreadState)
    (guest : Guest) : (retire inst passed before guest).state.registers programCounter =
      before.registers programCounter + BitVec.ofNat 32 inst.size := by
  have placed : ∀ guest : Guest, (guest.setRegister programCounter
      (ArmInterpreter.nextPc inst passed before guest.state.registers)).state.registers
        programCounter = before.registers programCounter + BitVec.ofNat 32 inst.size := by
    intro guest
    rw [straight.nextPc]
    simp [Guest.setRegister, CpuThreadState.setRegister]
  unfold retire
  rw [straight.writesPc, Bool.and_false, if_neg Bool.false_ne_true]
  dsimp only
  split
  · exact placed guest
  · exact placed guest

end Straight

/-! ### The status of floating point -/

/-- The units leave the controls of comparisons alone, where a search goes past them. -/
def KeepsControls (units : Units) : Prop :=
  ∀ kind read extension, crossable kind = true →
    (units.extension kind read extension).fpscr &&& floatingComparisonControls =
      extension.fpscr &&& floatingComparisonControls

/-- The controls that a guard has found to be clear. -/
def Guarded (guardedControls : Word) (guest : Guest) : Prop :=
  guardedControls &&& floatingComparisonControls = floatingComparisonControls →
    guest.fpscr &&& floatingComparisonControls = 0

theorem perform_controls {units : Units} {profile : Profile} (keeps : KeepsControls units)
    (straight : Straight inst) (guest : Guest) (reads : ∀ operands,
      inst.kind = .floatingSystem operands → operands.toCore = true) :
    (perform units profile inst guest).1.fpscr &&& floatingComparisonControls =
      guest.fpscr &&& floatingComparisonControls := by
  obtain ⟨crosses, alu⟩ := straight
  cases kind : inst.kind with
  | floatingSystem operands =>
    unfold perform
    rw [kind]
    dsimp only
    unfold floatingSystem
    rw [reads operands kind, Bool.not_true, if_neg Bool.false_ne_true]
    split
    · rfl
    · rfl
  | dataProcessing =>
    unfold perform
    rw [kind]
    dsimp only
    unfold processData
    rw [alu kind, if_neg Bool.false_ne_true]
    split
    · rfl
    · rfl
  | multiply =>
    unfold perform
    rw [kind]
    dsimp only
    unfold multiplyRegisters
    split
    · rfl
    · rfl
  | systemControl =>
    unfold perform
    rw [kind]
    dsimp only
    unfold systemControl
    split
    · split
      · rfl
      · rfl
    · split
      · rfl
      · rfl
    · rfl
    · rfl
  | vectorCoreMove operands =>
    unfold perform
    rw [kind]
    dsimp only
    unfold moveCoreVector
    split
    · split
      · rfl
      · rfl
    · split
      · rfl
      · rfl
  | vectorDuplicate operands | vectorIntegerArithmetic operands | vectorBitwise operands
  | vectorShiftImmediate operands | vectorReverse operands | vectorExtract operands
  | vectorImmediate operands | floatingComparison operands =>
    unfold perform
    rw [kind]
    exact keeps _ _ guest.extension rfl
  | ifThen | nop =>
    unfold perform
    rw [kind]
  | wideImmediate | packHalfword | integerTransform | integerDivide
  | parallelSaturating | parallelArithmetic | saturatingArithmetic =>
    unfold perform
    rw [kind]
    rfl
  | _ =>
    rw [kind] at crosses
    contradiction

/-! ### A step -/

/-- A step past an instruction, of a guest and of every one whose status differs in live flags
only. The mode stays as it is and the IT block moves on. -/
structure StepsPast (units : Units) (profile : Profile) (live written : Word) (inst : Instruction)
    (guest after : Guest) : Prop where
  step : ArmInterpreter.step units profile inst guest = (after, .retired)
  pc : after.state.registers programCounter =
    guest.state.registers programCounter + BitVec.ofNat 32 inst.size
  mode : ∀ bit, modeBit bit = true → after.state.cpsr.getLsbD bit = guest.state.cpsr.getLsbD bit
  block : itState after.state.cpsr =
    if thumb guest.state.cpsr then
      if inst.kind = .ifThen then inst.immediate else advanceIt (itState guest.state.cpsr)
    else itState guest.state.cpsr
  alike : ∀ cpsr, Alike live guest.state.cpsr cpsr → ∃ cpsr',
    ArmInterpreter.step units profile inst (guest.setCpsr cpsr) = (after.setCpsr cpsr', .retired) ∧
      Alike (live &&& ~~~written) after.state.cpsr cpsr'

theorem steady_mode {before after : Word} (steady : Steady before after) {bit : Nat}
    (told : modeBit bit = true) : before.getLsbD bit = after.getLsbD bit := by
  refine steady bit ?_
  unfold modeBit at told
  unfold steadyBit
  simp only [Bool.or_eq_true, Bool.and_eq_true, decide_eq_true_eq] at told ⊢
  omega

theorem retiredCpsr_mode (inst : Instruction) (passed : Bool) (before cpsr : Word) {bit : Nat}
    (told : modeBit bit = true) :
    (retiredCpsr inst passed before cpsr).getLsbD bit = cpsr.getLsbD bit := by
  unfold retiredCpsr
  split
  · exact withItState_mode _ _ told
  · rfl

theorem retiredCpsr_block {passed : Bool} {before cpsr : Word} (decoded : FlagsDecoded inst)
    (told : inst.kind = .ifThen → passed = true) (steady : Steady before cpsr) :
    itState (retiredCpsr inst passed before cpsr) =
      if thumb before then
        if inst.kind = .ifThen then inst.immediate else advanceIt (itState before)
      else itState before := by
  unfold retiredCpsr nextIt
  cases thumb before with
  | false => exact (itState_congr steady).symm
  | true =>
    rw [if_pos rfl, if_pos rfl]
    by_cases kind : inst.kind = .ifThen
    · rw [told kind, decide_eq_true kind, Bool.and_self, if_pos rfl, if_pos kind]
      exact itState_withItState _ (decoded.ifThen kind).2
    · rw [decide_eq_false kind, Bool.and_false, if_neg Bool.false_ne_true, if_neg kind]
      exact itState_withItState _ (advanceIt_small _)

/-- An instruction whose condition fails does nothing but retire. -/
theorem steps_failed {units : Units} {profile : Profile} {guest : Guest}
    (straight : Straight inst) (decoded : FlagsDecoded inst) (regular : inst.condition ≠ 15)
    (unread : conditionReads inst.condition &&& live = 0)
    (failed : conditionPassed inst.condition guest.state.cpsr = false) (written : Word)
    (unwritten : inst.condition ≠ 14 → written = 0) :
    StepsPast units profile live written inst guest (retire inst false guest.state guest) := by
  have conditional : inst.condition ≠ 14 := fun always => by
    rw [always] at failed
    contradiction
  have steps : ∀ other : Guest, conditionPassed inst.condition other.state.cpsr = false →
      step units profile inst other = (retire inst false other.state other, .retired) := by
    intro other failed
    unfold step
    dsimp only
    rw [failed, if_neg (by simpa using regular), if_neg Bool.false_ne_true]
  refine ⟨steps guest failed, straight.retire_pc false guest.state guest, fun bit told => ?_, ?_,
    fun cpsr alike => ?_⟩
  · rw [retire_cpsr]
    exact retiredCpsr_mode inst false _ _ told
  · rw [retire_cpsr]
    have plain : inst.kind ≠ .ifThen := fun kind => absurd (decoded.ifThen kind).1 conditional
    exact retiredCpsr_block decoded (fun kind => absurd kind plain) (.refl _)
  · have same : conditionPassed inst.condition cpsr = false :=
      (conditionPassed_alike alike unread).symm.trans failed
    refine ⟨retiredCpsr inst false guest.state.cpsr cpsr, ?_, ?_⟩
    · rw [steps (guest.setCpsr cpsr) same]
      exact congrArg (·, Outcome.retired) (retire_alike alike inst false guest cpsr)
    · rw [retire_cpsr, unwritten conditional]
      exact (alike.retired inst false guest.state.cpsr).keepAll

/-- An instruction whose condition holds. -/
theorem steps_passed {units : Units} {profile : Profile} {guest : Guest} {written : Word}
    {update : Word → Word} (straight : Straight inst) (decoded : FlagsDecoded inst)
    (regular : inst.condition ≠ 15) (unread : conditionReads inst.condition &&& live = 0)
    (passed : conditionPassed inst.condition guest.state.cpsr = true)
    (guarded : ∀ operands, inst.kind = .floatingComparison operands →
      guest.fpscr &&& floatingComparisonControls = 0)
    (flows : Flows live written guest (perform units profile inst) update) :
    StepsPast units profile live written inst guest
      (retire inst true guest.state (perform units profile inst guest).1) := by
  have own := flows.performs guest.state.cpsr (.refl _ _)
  have status : (perform units profile inst guest).1.state.cpsr = update guest.state.cpsr :=
    congrArg (fun result => result.1.state.cpsr) own
  have steps : ∀ (other after : Guest), conditionPassed inst.condition other.state.cpsr = true →
      other.fpscr = guest.fpscr → perform units profile inst other = (after, {}) →
      step units profile inst other = (retire inst true other.state after, .retired) := by
    intro other after passed same performed
    have accepted : refused units profile inst other = false :=
      straight.refused fun operands kind => by rw [same, guarded operands kind]
    unfold step
    dsimp only
    rw [passed, if_neg (by simp [regular, accepted]), if_pos rfl, straight.stop other, performed]
    rfl
  refine ⟨steps guest _ passed rfl (own.trans ?_), straight.retire_pc true guest.state _,
    fun bit told => ?_, ?_, fun cpsr alike => ?_⟩
  · exact congrArg (·, ({} : Completion)) (congrArg (Guest.setCpsr _) status.symm)
  · rw [retire_cpsr, retiredCpsr_mode inst true _ _ told, status]
    exact (steady_mode (flows.steady _) told).symm
  · rw [retire_cpsr, status]
    exact retiredCpsr_block decoded (fun _ => rfl) (flows.steady _)
  · have same : conditionPassed inst.condition cpsr = true :=
      (conditionPassed_alike alike unread).symm.trans passed
    refine ⟨retiredCpsr inst true guest.state.cpsr (update cpsr), ?_, ?_⟩
    · rw [steps (guest.setCpsr cpsr) _ same rfl (flows.performs cpsr alike)]
      exact congrArg (·, Outcome.retired) (retire_alike alike inst true _ (update cpsr))
    · rw [retire_cpsr, status]
      exact (flows.flags cpsr alike).retired inst true guest.state.cpsr

theorem StepsPast.weaken {units : Units} {profile : Profile} {guest after : Guest} {written : Word}
    (past : StepsPast units profile live written inst guest after) :
    StepsPast units profile live 0 inst guest after where
  step := past.step
  pc := past.pc
  mode := past.mode
  block := past.block
  alike cpsr alike := by
    obtain ⟨cpsr', stepped, less⟩ := past.alike cpsr alike
    exact ⟨cpsr', stepped, less.weaken.keepAll⟩

theorem retire_fpscr (inst : Instruction) (passed : Bool) (before : CpuThreadState)
    (guest : Guest) : (retire inst passed before guest).fpscr = guest.fpscr := by
  unfold retire
  cases passed && writesPc inst with
  | true =>
    cases thumb before.cpsr with
    | true => rfl
    | false => rfl
  | false =>
    cases thumb before.cpsr with
    | true => rfl
    | false => rfl

/-- What an instruction that a search goes past does, if its condition holds. -/
theorem crossed_flows (units : Units) (profile : Profile) (guest : Guest)
    (decoded : FlagsDecoded inst)
    (crossed : (effectsUnder guardedControls inst).boundary = false)
    (unread : (effectsUnder guardedControls inst).read &&& live = 0) :
    conditionReads inst.condition &&& live = 0 ∧
      (inst.condition ≠ 14 → (effectsUnder guardedControls inst).guaranteedWrite = 0) ∧
      (∀ operands, inst.kind = .floatingComparison operands →
        guardedControls &&& floatingComparisonControls = floatingComparisonControls) ∧
      ∃ written update, Flows live written guest (perform units profile inst) update ∧
        (inst.condition = 14 → (effectsUnder guardedControls inst).guaranteedWrite = written) := by
  obtain ⟨-, ⟨effects, told, reads, writes⟩ | ⟨operands, kind, guards, reads, writes⟩⟩ :=
    crossed_cases crossed
  · rw [reads] at unread
    obtain ⟨more, condition⟩ := switch_read told
    obtain ⟨update, flows⟩ := @perform_flows live units profile inst guest _ _ decoded told unread
    refine ⟨?_, fun conditional => writes.trans (if_neg conditional), fun operands kind =>
      absurd kind ((switch_crossable told).2.2 operands), _, update, flows, fun always =>
      writes.trans (if_pos always)⟩
    rw [condition, BitVec.or_comm] at unread
    exact unread_or unread
  · rw [reads] at unread
    refine ⟨unread, fun _ => writes, fun _ _ => guards, 0, id, .still fun cpsr => ?_,
      fun _ => writes⟩
    unfold perform
    rw [kind]
    rfl

/-- The interpreter steps past an instruction that a search goes past, and guards stay good. -/
theorem steps_past {units : Units} {profile : Profile} {guest : Guest} (keeps : KeepsControls units)
    (decoded : FlagsDecoded inst)
    (crossed : (effectsUnder guardedControls inst).boundary = false)
    (unread : (effectsUnder guardedControls inst).read &&& live = 0)
    (guarded : Guarded guardedControls guest) :
    ∃ after, StepsPast units profile live (effectsUnder guardedControls inst).guaranteedWrite inst
        guest after ∧ Guarded (guardedAfter guardedControls inst) after := by
  have straight := crossed_straight crossed
  have regular := (crossed_cases crossed).1
  obtain ⟨condition, unwritten, guards, written, update, flows, writes⟩ :=
    crossed_flows units profile guest decoded crossed unread
  have keptGuard : ∀ after : Guest, (∀ operands, inst.kind = .floatingSystem operands →
      operands.toCore = true → after.fpscr &&& floatingComparisonControls =
        guest.fpscr &&& floatingComparisonControls) →
      ((∀ operands, inst.kind ≠ .floatingSystem operands) →
        after.fpscr &&& floatingComparisonControls = guest.fpscr &&& floatingComparisonControls) →
      Guarded (guardedAfter guardedControls inst) after := by
    intro after reads others guard
    unfold guardedAfter at guard
    split at guard
    · rename_i operands kind
      cases core : operands.toCore with
      | true =>
        rw [core, if_pos rfl] at guard
        rw [reads operands kind core, guarded guard]
      | false =>
        rw [core, if_neg Bool.false_ne_true] at guard
        exact absurd guard (by decide)
    · rename_i other
      rw [others other, guarded guard]
  cases passed : conditionPassed inst.condition guest.state.cpsr with
  | false =>
    have past := @steps_failed live inst units profile guest straight decoded regular condition
      passed _ unwritten
    refine ⟨_, past, keptGuard _ (fun _ _ _ => ?_) fun _ => ?_⟩
    · rw [retire_fpscr]
    · rw [retire_fpscr]
  | true =>
    have past := steps_passed straight decoded regular condition passed
      (fun operands kind => guarded (guards operands kind)) flows
    have controls : (∀ operands, inst.kind = .floatingSystem operands → operands.toCore = true) →
        (retire inst true guest.state (perform units profile inst guest).1).fpscr &&&
          floatingComparisonControls = guest.fpscr &&& floatingComparisonControls := fun reads => by
      rw [retire_fpscr]
      exact perform_controls keeps straight guest reads
    refine ⟨_, ?_, keptGuard _ (fun operands kind core => controls fun other same => ?_)
      fun other => controls fun operands kind => absurd kind (other operands)⟩
    · by_cases always : inst.condition = 14
      · rw [writes always]
        exact past
      · rw [unwritten always]
        exact past.weaken
    · rw [kind] at same
      cases same
      exact core

end
end ILEmu.Arm64
