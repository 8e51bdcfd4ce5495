import ILEmu.Arm64.RegisterWrites

/-! What the compiler knows of the registers along a trace: their distances, modulo 2 ^ 32, from
the values at its entry, and the multiples of another register in them. -/
namespace ILEmu.Arm64
open Arm hiding Instruction InstructionKind
open ArmMemory ArmInterpreter

structure Change where
  reg : Register
  delta : Word
  deriving DecidableEq, Repr

/-- A distance. Without an index there is nothing to scale. -/
structure Expression where
  constant : Word := 0
  coefficient : Word := 0
  index : Option Register := none
  formed : index = none → coefficient = 0 := by intro _; rfl
  deriving DecidableEq, Repr

/-- The distance of a register that has not moved. -/
def Expression.unmoved : Expression := {}

/-- The distance between a register and what it was when the registers were these. -/
def Expression.value (expression : Expression) (entry : Register → Word) : Word :=
  expression.constant +
    match expression.index with
    | none => 0
    | some index => expression.coefficient * entry index

def Expression.added (self other : Expression) : Option Expression :=
  if self.index.isSome && other.index.isSome && self.index ≠ other.index then none
  else
    let coefficient := self.coefficient + other.coefficient
    some
      { constant := self.constant + other.constant
        coefficient
        index := if coefficient = 0 then none else self.index.or other.index
        formed := by
          intro absent
          split at absent
          · assumption
          · obtain ⟨first, second⟩ := Option.or_eq_none_iff.mp absent
            change self.coefficient + other.coefficient = 0
            rw [self.formed first, other.formed second, add_zero] }

/-- How many registers a list names. -/
def registerCount (registers : BitVec 16) : Nat :=
  (List.finRange 16).countP fun register => registers.getLsbD register

def signed (add : Bool) (delta : Word) : Word := if add then delta else 0 - delta

/-- The distance by which an instruction moves its base, where its decoding tells it. -/
def writeback (inst : Instruction) : Option Change :=
  if !inst.writeback || inst.rn = programCounter then none
  else
    match inst.kind with
    | .transfer =>
      if !inst.immediateOperand || (inst.load && inst.rd = inst.rn) then none
      else some { reg := inst.rn, delta := signed inst.add inst.immediate }
    | .dualTransfer =>
      if !inst.immediateOperand || (inst.load && (inst.rd = inst.rn || inst.rs = inst.rn)) then none
      else some { reg := inst.rn, delta := signed inst.add inst.immediate }
    | .multipleTransfer =>
      if inst.load && inst.registers.getLsbD inst.rn.val then none
      else
        some
          { reg := inst.rn
            delta := signed inst.add (BitVec.ofNat 32 (4 * registerCount inst.registers)) }
    | .vectorTransfer operands =>
      if operands.mode = .scalarMultiple then
        some { reg := inst.rn, delta := signed inst.add inst.immediate }
      else if inst.rm = 13 ∨ inst.rm = 15 then
        some { reg := inst.rn, delta := BitVec.ofNat 32 (vectorTransferLength operands) }
      else none
    | _ => none

structure AddressDisplacements where
  values : Register → Option Expression := fun _ => some .unmoved
  modified : Register → Bool := fun _ => false
  written : Register → Bool := fun _ => false

namespace AddressDisplacements

def invariant (self : AddressDisplacements) (reg : Register) : Bool := !self.written reg

/-- An addition of a constant to a register. -/
def addsConstant (inst : Instruction) : Bool :=
  decide (inst.kind = .dataProcessing) && inst.immediateOperand && decide (inst.rd = inst.rn) &&
    decide (inst.rd.val < 15) && (decide (inst.opcode = 2) || decide (inst.opcode = 4))

/-- An addition of a multiple of a register that the trace has not written. -/
def addsScaled (self : AddressDisplacements) (inst : Instruction) : Bool :=
  decide (inst.kind = .dataProcessing) && !inst.immediateOperand && !inst.registerShift &&
    decide (inst.shift = .lsl) && decide (inst.shiftAmount < 32) && decide (inst.rd = inst.rn) &&
    decide (inst.rd.val < 15) && decide (inst.rm.val < 15) && decide (inst.rm ≠ inst.rd) &&
    self.invariant inst.rm && (decide (inst.opcode = 2) || decide (inst.opcode = 4))

/-- The register that an instruction moves, and by how much. -/
def increment (self : AddressDisplacements) (inst : Instruction) :
    Option (Register × Expression) :=
  if inst.condition ≠ 14 then none
  else if self.addsScaled inst then
    -- The scale stays below 2 ^ 32, so that there is something to add.
    let scale : Word := signed (inst.opcode = 4) ((1 : Word) <<< inst.shiftAmount)
    some (inst.rd, { coefficient := scale, index := some inst.rm, formed := by simp })
  else
    let change :=
      if addsConstant inst then
        some { reg := inst.rd, delta := signed (inst.opcode = 4) inst.immediate }
      else writeback inst
    change.map fun change => (change.reg, { constant := change.delta })

def observe (self : AddressDisplacements) (inst : Instruction) : AddressDisplacements :=
  let cleared : AddressDisplacements :=
    { self with
      values := fun reg => if reg ∈ writtenRegisters inst then none else self.values reg
      written := fun reg => decide (reg ∈ writtenRegisters inst) || self.written reg }
  match self.increment inst with
  | none => cleared
  | some (reg, increment) =>
    match self.values reg with
    | none => cleared
    | some before =>
      { cleared with
        modified := Function.update cleared.modified reg true
        values := Function.update cleared.values reg (before.added increment) }

end AddressDisplacements

/-! ### What the distances say of the registers -/

theorem Expression.value_added {self other sum : Expression} {entry : Register → Word}
    (added : self.added other = some sum) :
    sum.value entry = self.value entry + other.value entry := by
  unfold Expression.added at added
  split at added
  · contradiction
  · rename_i compatible
    cases added
    have scaled : ∀ e : Expression, ∀ index, (e.index = none ∨ e.index = some index) →
        e.value entry = e.constant + e.coefficient * entry index := by
      intro e index indexed
      unfold Expression.value
      rcases indexed with absent | present
      · rw [absent, e.formed absent, zero_mul]
      · rw [present]
    have cancel : ∀ index, (self.index = none ∨ self.index = some index) →
        (other.index = none ∨ other.index = some index) →
        self.value entry + other.value entry = (self.constant + other.constant) +
          (self.coefficient + other.coefficient) * entry index := by
      intro index first second
      rw [scaled self index first, scaled other index second, add_mul]
      ac_rfl
    have common : ∃ index, (self.index = none ∨ self.index = some index) ∧
        (other.index = none ∨ other.index = some index) ∧
        (self.index.or other.index = none ∨ self.index.or other.index = some index) := by
      cases first : self.index with
      | none =>
        cases second : other.index with
        | none => exact ⟨0, .inl rfl, .inl rfl, .inl rfl⟩
        | some index => exact ⟨index, .inl rfl, .inr rfl, .inr rfl⟩
      | some index =>
        cases second : other.index with
        | none => exact ⟨index, .inr rfl, .inl rfl, .inr rfl⟩
        | some second' =>
          have same : index = second' := by simpa [first, second] using compatible
          exact ⟨index, .inr rfl, .inr (by rw [same]), .inr rfl⟩
    obtain ⟨index, first, second, either⟩ := common
    rw [cancel index first second]
    apply scaled _ index
    dsimp only
    split
    · exact .inl rfl
    · exact either

/-- The registers are where the distances say, and those that are not written where they were. -/
structure Tracks (displacements : AddressDisplacements) (entry now : Register → Word) : Prop where
  value : ∀ reg, reg ≠ programCounter → ∀ expression, displacements.values reg = some expression →
    now reg = entry reg + expression.value entry
  kept : ∀ reg, reg ≠ programCounter → displacements.invariant reg = true → now reg = entry reg

theorem tracks_entry (entry : Register → Word) : Tracks {} entry entry where
  value := by
    intro reg _ expression known
    cases known
    simp [Expression.value, Expression.unmoved]
  kept := fun _ _ _ => rfl

/-! ### A step of the trace -/

variable {units : Units} {profile : Profile} {inst : Instruction} {guest after : Guest}
  {register : Register}

theorem signed_add (base delta : Word) (add : Bool) :
    (if add then base + delta else base - delta) = base + signed add delta := by
  cases add with
  | true => rfl
  | false => simp [signed, sub_eq_add_neg]

theorem addWithCarry_sub (a b : Word) : (addWithCarry a (~~~b) true).value = a + signed false b := by
  change a + ~~~b + 1 = a + (0 - b)
  rw [zero_sub, BitVec.neg_eq_not_add, ← add_assoc]
  rfl

theorem addWithCarry_add (a b : Word) : (addWithCarry a b false).value = a + signed true b :=
  add_zero _

theorem readRegister_general {state : CpuThreadState} (general : register ≠ programCounter) :
    readRegister state register inst = state.registers register :=
  if_pos general

theorem readOperand_general {state : CpuThreadState} {inst : Arm.Instruction}
    (general : register ≠ programCounter) :
    readOperand state inst register = state.registers register :=
  if_pos general

theorem writeback_general {change : Change} (moves : writeback inst = some change) :
    inst.writeback = true ∧ inst.rn ≠ programCounter ∧ change.reg = inst.rn ∧
      isTransfer inst = true ∧ (inst.load = true → ¬loadedInto inst inst.rn) := by
  unfold writeback at moves
  split at moves
  · contradiction
  · rename_i base
    simp only [Bool.or_eq_true, Bool.not_eq_true', decide_eq_true_eq, not_or,
      Bool.not_eq_false] at base
    unfold isTransfer loadedInto
    refine ⟨base.1, base.2, ?_⟩
    cases kind : inst.kind with
    | transfer =>
      rw [kind] at moves
      dsimp only at moves
      split at moves
      · contradiction
      · rename_i kept
        cases moves
        simp only [Bool.or_eq_true, Bool.and_eq_true, decide_eq_true_eq, not_or, not_and] at kept
        exact ⟨rfl, rfl, fun load same => kept.2 load same.symm⟩
    | dualTransfer =>
      rw [kind] at moves
      dsimp only at moves
      split at moves
      · contradiction
      · rename_i kept
        cases moves
        simp only [Bool.or_eq_true, Bool.and_eq_true, decide_eq_true_eq, not_or, not_and] at kept
        exact ⟨rfl, rfl, fun load same => same.elim (fun first => (kept.2 load).1 first.symm)
          fun second => (kept.2 load).2 second.symm⟩
    | multipleTransfer =>
      rw [kind] at moves
      dsimp only at moves
      split at moves
      · contradiction
      · rename_i kept
        cases moves
        simp only [Bool.and_eq_true, not_and] at kept
        exact ⟨rfl, rfl, kept⟩
    | vectorTransfer operands =>
      rw [kind] at moves
      dsimp only at moves
      refine ⟨?_, rfl, fun _ => id⟩
      split at moves
      · cases moves
        rfl
      · split at moves
        · cases moves
          rfl
        · contradiction
    | _ => simp [kind] at moves

/-- The base that a transfer writes back is as far away as its decoding tells. -/
theorem transferredBase_writeback {change : Change} {state : CpuThreadState}
    (moves : writeback inst = some change) :
    transferredBase profile inst state = state.registers inst.rn + change.delta := by
  obtain ⟨back, general, _⟩ := writeback_general moves
  have base : ∀ other : Arm.Instruction, readOperand state other inst.rn = state.registers inst.rn :=
    fun _ => readOperand_general general
  unfold writeback at moves
  rw [if_neg (by simp [back, general])] at moves
  unfold transferredBase
  cases kind : inst.kind with
  | transfer =>
    rw [kind] at moves
    dsimp only at moves
    split at moves
    · contradiction
    · rename_i kept
      cases moves
      have immediate : inst.transfer.immediateOperand = true := by
        simp only [Bool.or_eq_true, Bool.not_eq_true', not_or, Bool.not_eq_false] at kept
        exact kept.1
      simp only [prepare, transferOffset, immediate, if_true]
      exact (signed_add _ _ _).trans (congrArg (· + _) (base _))
  | dualTransfer =>
    rw [kind] at moves
    dsimp only at moves
    split at moves
    · contradiction
    · rename_i kept
      cases moves
      have immediate : inst.transfer.immediateOperand = true := by
        simp only [Bool.or_eq_true, Bool.not_eq_true', not_or, Bool.not_eq_false] at kept
        exact kept.1
      simp only [prepare, transferOffset, immediate, if_true]
      exact (signed_add _ _ _).trans (congrArg (· + _) (base _))
  | multipleTransfer =>
    rw [kind] at moves
    dsimp only at moves
    split at moves
    · contradiction
    · cases moves
      exact signed_add _ _ _
  | vectorTransfer operands =>
    rw [kind] at moves
    dsimp only at moves
    have vector : inst.transfer.vector = operands := by simp [Instruction.transfer, kind]
    unfold prepareVector
    rw [vector]
    dsimp only
    split at moves
    · rename_i scalar
      cases moves
      rw [if_pos scalar]
      exact (signed_add _ _ _).trans (congrArg (· + _) (base _))
    · rename_i scalar
      split at moves
      · rename_i whole
        cases moves
        rw [if_neg scalar]
        dsimp only
        rw [if_pos (show inst.transfer.rm = 13 ∨ inst.transfer.rm = 15 from whole)]
        exact congrArg (· + _) (base _)
      · contradiction
  | _ => simp [kind] at moves

/-- An addition or a subtraction into a register other than the program counter. -/
theorem processData_sum (general : inst.rd ≠ programCounter)
    (sums : inst.opcode = 2 ∨ inst.opcode = 4) :
    (processData profile inst guest).state.registers inst.rd =
      readRegister guest.state inst.rn inst +
        signed (inst.opcode = 4) (shiftedOperand guest.state inst).value := by
  have plain : aluWritesPc inst = false := by simp [aluWritesPc, general]
  have moves : isTest inst.opcode = false := by
    rcases sums with opcode | opcode
    · rw [opcode]
      decide
    · rw [opcode]
      decide
  unfold processData
  simp only [plain, moves, Bool.false_eq_true, if_false, setCpsr_registers, guest_setRegister_self]
  unfold dataProcessing calculateAlu
  rcases sums with opcode | opcode
  · rw [opcode]
    exact addWithCarry_sub _ _
  · rw [opcode]
    exact addWithCarry_add _ _

theorem shiftedOperand_immediate {state : CpuThreadState} (immediate : inst.immediateOperand = true) :
    (shiftedOperand state inst).value = inst.immediate := by
  unfold shiftedOperand
  rw [if_pos immediate]

theorem shift_lsl (value : Word) {amount : Nat} (small : amount < 32) (carry : Bool) :
    (shift value .lsl amount carry false).value = value * ((1 : Word) <<< amount) := by
  have scaled : value <<< amount = value * ((1 : Word) <<< amount) := by
    rw [BitVec.shiftLeft_eq_mul_twoPow, BitVec.twoPow_eq]
    rfl
  unfold shift
  simp only [Bool.false_and, Bool.false_eq_true, if_false]
  split
  · rename_i none
    subst none
    simp
  · exact scaled

/-- The registers that an instruction moves are general ones, and it moves them by what the
analysis says. -/
theorem increment_effect {displacements : AddressDisplacements} {entry : Register → Word}
    {increment : Expression} (tracks : Tracks displacements entry guest.state.registers)
    (done : conditionPassed inst.condition guest.state.cpsr = true →
      (perform units profile inst guest).2.reason = .none)
    (moves : displacements.increment inst = some (register, increment)) :
    register ≠ programCounter ∧
      (effect units profile inst guest).state.registers register =
        guest.state.registers register + increment.value entry := by
  unfold AddressDisplacements.increment at moves
  split at moves
  · contradiction
  · rename_i always
    have passes : conditionPassed inst.condition guest.state.cpsr = true := by
      rw [not_ne_iff.mp always]
      rfl
    have performed := done passes
    unfold effect
    rw [if_pos passes]
    have below : ∀ reg : Register, reg.val < 15 → reg ≠ programCounter := by
      rintro reg small rfl
      exact absurd small (by decide)
    split at moves
    · rename_i scales
      simp only [AddressDisplacements.addsScaled, Bool.and_eq_true, Bool.or_eq_true,
        decide_eq_true_eq, Bool.not_eq_true'] at scales
      obtain ⟨⟨⟨⟨⟨⟨⟨⟨⟨⟨data, plain⟩, amount⟩, left⟩, small⟩, same⟩, destination⟩, source⟩, -⟩,
        kept⟩, sums⟩ := scales
      cases moves
      refine ⟨below _ destination, ?_⟩
      have operand : (shiftedOperand guest.state inst).value =
          entry inst.rm * ((1 : Word) <<< inst.shiftAmount) := by
        unfold shiftedOperand
        rw [plain, amount, left]
        simp only [Bool.false_eq_true, if_false]
        rw [shift_lsl _ small, readRegister_general (below _ source),
          tracks.kept _ (below _ source) kept]
      simp only [perform, data]
      rw [processData_sum (below _ destination) sums, operand, ← same,
        readRegister_general (below _ destination)]
      simp only [Expression.value, zero_add]
      congr 1
      unfold signed
      split
      · exact mul_comm (entry inst.rm) _
      · rw [zero_sub, zero_sub, neg_mul, mul_comm]
    · dsimp only at moves
      split at moves
      · rename_i adds
        simp only [AddressDisplacements.addsConstant, Bool.and_eq_true, Bool.or_eq_true,
          decide_eq_true_eq] at adds
        obtain ⟨⟨⟨⟨data, immediate⟩, same⟩, destination⟩, sums⟩ := adds
        cases moves
        refine ⟨below _ destination, ?_⟩
        simp only [perform, data]
        rw [processData_sum (below _ destination) sums, shiftedOperand_immediate immediate, ← same,
          readRegister_general (below _ destination)]
        simp [Expression.value]
      · obtain ⟨change, back, moved⟩ := Option.map_eq_some_iff.mp moves
        cases moved
        obtain ⟨writes, general, base, transfers, kept⟩ := writeback_general back
        rw [base]
        refine ⟨general, ?_⟩
        rw [perform_transfer transfers general kept performed, writtenBack, if_pos ⟨writes, rfl⟩,
          transferredBase_writeback back]
        simp [Expression.value]

/-- A retired instruction keeps the analysis right. -/
theorem Tracks.step {displacements : AddressDisplacements} {entry : Register → Word}
    (tracks : Tracks displacements entry guest.state.registers) (ordinary : isOrdinary inst = true)
    (retired : step units profile inst guest = (after, .retired)) :
    Tracks (displacements.observe inst) entry after.state.registers := by
  have free := fun reg general notMem =>
    @retired_unwritten units profile inst guest after reg ordinary retired general notMem
  obtain ⟨-, performed, rfl⟩ := step_retired retired
  have done := fun passes => (performed passes).1
  have cleared : Tracks
      { displacements with
        values := fun reg => if reg ∈ writtenRegisters inst then none else displacements.values reg
        written := fun reg => decide (reg ∈ writtenRegisters inst) || displacements.written reg }
      entry
      (retire inst (conditionPassed inst.condition guest.state.cpsr) guest.state
        (effect units profile inst guest)).state.registers := by
    constructor
    · intro reg general expression known
      dsimp only at known
      split at known
      · contradiction
      · rename_i notMem
        rw [free reg general notMem]
        exact tracks.value reg general expression known
    · intro reg general kept
      simp only [AddressDisplacements.invariant, Bool.not_eq_true', Bool.or_eq_false_iff,
        decide_eq_false_iff_not] at kept
      rw [free reg general kept.1]
      exact tracks.kept reg general (by simpa [AddressDisplacements.invariant] using kept.2)
  unfold AddressDisplacements.observe
  dsimp only
  split
  · exact cleared
  · rename_i reg increment moves
    split
    · exact cleared
    · rename_i before known
      obtain ⟨general, moved⟩ := increment_effect tracks done moves
      constructor
      · intro other otherGeneral expression sum
        dsimp only at sum
        by_cases here : other = reg
        · subst here
          rw [Function.update_self] at sum
          rw [retire_registers general, moved, tracks.value _ general _ known,
            Expression.value_added sum, add_assoc]
        · rw [Function.update_of_ne here] at sum
          exact cleared.value other otherGeneral expression sum
      · exact cleared.kept

end ILEmu.Arm64
