import ILEmu.ArmInterpreter.ExactProducts

/-! Decoded saturating arithmetic gives the nearest number of its width, and says in Q whether it
is another than the exact one. -/
namespace ILEmu.ArmInterpreter
open Arm Foundation

/-! ### What is decoded -/

@[simp] theorem saturatingOperation_opcode (operation : SaturatingOperation) :
    saturatingOperation operation.opcode = operation := by
  cases operation <;> rfl

/-- Whether the numbers of an operation are signed. -/
def SaturatingOperation.isSigned : SaturatingOperation → Bool
  | .unsigned | .unsignedHalfwords => false
  | _ => true

/-- The widths and shifts that an operation may name. -/
def SaturatingOperation.Names (operation : SaturatingOperation) (bits : Nat) (shift : ShiftKind)
    (amount : Nat) : Prop :=
  match operation with
  | .signed | .unsigned => bits ≤ 32 ∧ (shift = .lsl ∨ shift = .asr) ∧ amount < 32
  | .signedHalfwords | .unsignedHalfwords => bits ≤ 16
  | _ => True

/-- An instruction that the decoder can give. -/
def SaturatingForm (inst : Instruction) : Prop :=
  (saturatingOperation inst.opcode).Names inst.immediate.toNat inst.shift inst.shiftAmount

theorem saturationWidth_toNat {encoded bits : Nat} (unsigned : Bool) (bound : encoded < bits)
    (narrow : bits ≤ 32) : (saturationWidth encoded unsigned).toNat ≤ bits := by
  unfold saturationWidth
  rw [BitVec.toNat_ofNat]
  cases unsigned with
  | false =>
    change (encoded + 1) % 2 ^ 32 ≤ bits
    omega
  | true =>
    change (encoded + 0) % 2 ^ 32 ≤ bits
    omega

theorem halfwordWidth (word : Word) (start : Nat) (unsigned : Bool) :
    (saturationWidth (word.extractLsb' start 4).toNat unsigned).toNat ≤ 16 :=
  saturationWidth_toNat unsigned (word.extractLsb' start 4).isLt (by decide)

theorem wordWidth (word : Word) (start : Nat) (unsigned : Bool) :
    (saturationWidth (word.extractLsb' start 5).toNat unsigned).toNat ≤ 32 :=
  saturationWidth_toNat unsigned (word.extractLsb' start 5).isLt (by decide)

abbrev SaturatingEncoding.Sound (encoding : SaturatingEncoding) : Prop :=
  ∀ (immediate : Word) (shift : ShiftKind) (amount : Nat), encoding.operation.Names
    (encoding.immediate.getD immediate).toNat ((encoding.shift.map (·.1)).getD shift)
    ((encoding.shift.map (·.2)).getD amount)

theorem thumbSaturatingEncoding_sound (word : Word) :
    ∀ encoding, thumbSaturatingEncoding word = some encoding → encoding.Sound := by
  unfold thumbSaturatingEncoding
  dsimp only
  refine of_found (P := SaturatingEncoding.Sound) ?_ (of_found (P := SaturatingEncoding.Sound) ?_
    (of_found (P := SaturatingEncoding.Sound) ?_ nofun))
  · intro immediate shift amount
    dsimp only
    split <;> trivial
  · intro immediate shift amount
    have narrow := halfwordWidth word 0 (word.getLsbD 23)
    dsimp only
    split <;> exact narrow
  · intro immediate shift amount
    have narrow := wordWidth word 0 (word.getLsbD 23)
    have kind : (if word.getLsbD 21 then ShiftKind.asr else .lsl) = .lsl ∨
        (if word.getLsbD 21 then ShiftKind.asr else .lsl) = .asr := by
      split <;> simp
    have bound : 4 * (word.extractLsb' 12 3).toNat + (word.extractLsb' 6 2).toNat < 32 := by
      have high := (word.extractLsb' 12 3).isLt
      have low := (word.extractLsb' 6 2).isLt
      omega
    dsimp only
    split <;> exact ⟨narrow, kind, bound⟩

theorem armSaturatingEncoding_sound (word : Word) :
    ∀ encoding, armSaturatingEncoding word = some encoding → encoding.Sound := by
  unfold armSaturatingEncoding
  dsimp only
  refine of_found (P := SaturatingEncoding.Sound) ?_ (of_found (P := SaturatingEncoding.Sound) ?_
    (of_found (P := SaturatingEncoding.Sound) ?_ nofun))
  · intro immediate shift amount
    dsimp only
    split <;> trivial
  · intro immediate shift amount
    have narrow := halfwordWidth word 16 (word.getLsbD 22)
    dsimp only
    split <;> exact narrow
  · intro immediate shift amount
    have narrow := wordWidth word 16 (word.getLsbD 22)
    have kind : (if word.getLsbD 6 then ShiftKind.asr else .lsl) = .lsl ∨
        (if word.getLsbD 6 then ShiftKind.asr else .lsl) = .asr := by
      split <;> simp
    dsimp only
    split <;> exact ⟨narrow, kind, (word.extractLsb' 7 5).isLt⟩

theorem finishSaturating_form {out inst : Instruction} {encoding : SaturatingEncoding}
    (sound : encoding.Sound) (finished : finishSaturating out encoding = some inst) :
    inst.kind = .saturatingArithmetic ∧ SaturatingForm inst := by
  unfold finishSaturating at finished
  split at finished
  · contradiction
  · obtain rfl := Option.some.inj finished
    refine ⟨rfl, ?_⟩
    unfold SaturatingForm
    rw [saturatingOperation_opcode]
    exact sound out.immediate out.shift out.shiftAmount

theorem decodeSaturatingArithmetic_form {out inst : Instruction} {word : Word} {thumb : Bool}
    {profile : ArmInstructionProfile}
    (decoded : decodeSaturatingArithmetic out word thumb profile = some (some inst)) :
    inst.kind = .saturatingArithmetic ∧ SaturatingForm inst := by
  unfold decodeSaturatingArithmetic at decoded
  split at decoded
  · obtain ⟨encoding, found, finished⟩ := Option.map_eq_some_iff.mp decoded
    split at finished
    · contradiction
    · split at finished
      · contradiction
      · exact finishSaturating_form (thumbSaturatingEncoding_sound word _ found) finished
  · split at decoded
    · contradiction
    · obtain ⟨encoding, found, finished⟩ := Option.map_eq_some_iff.mp decoded
      exact finishSaturating_form (armSaturatingEncoding_sound word _ found) finished

/-! ### Exact numbers -/

/-- The number that a shifted operand has. Nothing as an arithmetic shift stands for 32. -/
def shiftedNumber (inst : Instruction) (value : Word) : Int :=
  match inst.shift with
  | .asr => value.toInt / 2 ^ (if inst.shiftAmount = 0 then 32 else inst.shiftAmount)
  | _ => number true (BitVec.ofInt 32 (value.toInt * 2 ^ inst.shiftAmount))

/-- The width that the results are brought to. -/
def saturationBits (inst : Instruction) : Nat :=
  match saturatingOperation inst.opcode with
  | .signed | .unsigned | .signedHalfwords | .unsignedHalfwords => inst.immediate.toNat
  | _ => 32

/-- The exact numbers that are moved into the range of the width, the result last. -/
def saturationInputs (inst : Instruction) (first second : Word) : List Int :=
  match saturatingOperation inst.opcode with
  | .signed | .unsigned => [shiftedNumber inst first]
  | .signedHalfwords | .unsignedHalfwords => [half first false, half first true]
  | .add => [first.toInt + second.toInt]
  | .subtract => [first.toInt - second.toInt]
  | .doubleAdd => [2 * second.toInt, first.toInt + clamp true 32 (2 * second.toInt)]
  | .doubleSubtract => [2 * second.toInt, first.toInt - clamp true 32 (2 * second.toInt)]

/-- The parts of a result, as numbers, beside the exact numbers that they are the nearest to. -/
def saturatedParts (inst : Instruction) (first second result : Word) : List (Int × Int) :=
  let signed := (saturatingOperation inst.opcode).isSigned
  match saturatingOperation inst.opcode with
  | .signedHalfwords | .unsignedHalfwords =>
    (saturationInputs inst first second).zip
      [number signed (result.extractLsb' 0 16), number signed (result.extractLsb' 16 16)]
  | _ => [((saturationInputs inst first second).getLastD 0, number signed result)]

structure IsExactSaturation (inst : Instruction) (first second cpsr : Word)
    (result : AluResult) : Prop where
  value : ∀ part ∈ saturatedParts inst first second result.value,
    Saturates (saturatingOperation inst.opcode).isSigned (saturationBits inst) part.1 part.2
  status : ∀ bit, result.cpsr.getLsbD bit =
    if bit = 27 then
      cpsr.getLsbD 27 || (saturationInputs inst first second).any fun x =>
        !decide (Fits (saturatingOperation inst.opcode).isSigned (saturationBits inst) x)
    else cpsr.getLsbD bit

/-! ### Steps of saturation -/

theorem saturate_value (x : Int) (bits : Nat) (signed : Bool) (cpsr : Word) :
    (saturate x bits signed cpsr).1 = clamp signed bits x := rfl

/-- A status in which Q is set if it was, or for a reason. -/
def Overflows (before after : Word) (overflow : Bool) : Prop :=
  ∀ bit, after.getLsbD bit = if bit = 27 then before.getLsbD 27 || overflow else before.getLsbD bit

theorem Overflows.trans {first second third : Word} {overflow overflow' : Bool}
    (one : Overflows first second overflow) (two : Overflows second third overflow') :
    Overflows first third (overflow || overflow') := by
  intro bit
  rw [two bit, one 27, one bit, if_pos rfl, Bool.or_assoc]
  split <;> rfl

theorem saturate_overflows (x : Int) (bits : Nat) (signed : Bool) (cpsr : Word) :
    Overflows cpsr (saturate x bits signed cpsr).2 (!decide (Fits signed bits x)) := by
  intro bit
  change (if clamp signed bits x ≠ x then cpsr ||| BitVec.twoPow 32 27 else cpsr).getLsbD bit = _
  by_cases fits : Fits signed bits x
  · rw [if_neg (fun changed => clamp_ne_iff.mp changed fits), decide_eq_true fits, Bool.not_true,
      Bool.or_false]
    split
    · rename_i same
      rw [same]
    · rfl
  · rw [if_pos (clamp_ne_iff.mpr fits), decide_eq_false fits, Bool.not_false, Bool.or_true,
      BitVec.getLsbD_or, BitVec.getLsbD_twoPow]
    split
    · rename_i same
      rw [same]
      simp
    · rename_i other
      simp [Ne.symm other]

/-- An arithmetic shift fills up with the sign. -/
theorem shift_asr_eq (value : Word) {amount : Nat} (positive : amount ≠ 0) (bound : amount < 32) :
    (shift value .asr amount false false).value = value.sshiftRight amount := by
  have shifted : (shift value .asr amount false false).value =
      (value >>> amount) ||| if value.msb then BitVec.allOnes 32 <<< (32 - amount) else 0 := by
    have sign : value.getLsbD 31 = value.msb := value.msb_eq_getLsbD_last.symm
    unfold shift
    rw [Bool.false_and, if_neg Bool.false_ne_true]
    dsimp only
    rw [if_neg positive, if_neg (by omega : ¬ 32 ≤ amount), sign]
  rw [shifted]
  apply BitVec.eq_of_getLsbD_eq
  intro i less
  rw [BitVec.getLsbD_or, BitVec.getLsbD_ushiftRight, BitVec.getLsbD_sshiftRight,
    decide_eq_false (by omega : ¬ 32 ≤ i), Bool.not_false, Bool.true_and]
  by_cases inside : amount + i < 32
  · have empty : (if value.msb then BitVec.allOnes 32 <<< (32 - amount) else (0 : Word)).getLsbD i =
        false := by
      split
      · rw [BitVec.getLsbD_shiftLeft, decide_eq_true (by omega : i < 32 - amount)]
        simp
      · exact BitVec.getLsbD_zero
    rw [if_pos inside, empty, Bool.or_false]
  · rw [if_neg inside, BitVec.getLsbD_of_ge _ _ (by omega), Bool.false_or]
    cases value.msb with
    | false => exact BitVec.getLsbD_zero
    | true =>
      rw [if_pos rfl, BitVec.getLsbD_shiftLeft, BitVec.getLsbD_allOnes]
      simp only [Bool.and_eq_true, Bool.not_eq_true', decide_eq_true_eq, decide_eq_false_iff_not]
      omega

/-- An arithmetic shift is a quotient. -/
theorem shift_asr (value : Word) {amount : Nat} (bound : amount < 32) :
    (shift value .asr amount false false).value.toInt =
      value.toInt / 2 ^ (if amount = 0 then 32 else amount) := by
  by_cases zero : amount = 0
  · subst zero
    have low := @BitVec.le_two_mul_toInt 32 value
    have high := @BitVec.two_mul_toInt_lt 32 value
    have negative : value.getLsbD 31 = true ↔ value.toInt < 0 := by
      rw [← BitVec.msb_eq_getLsbD_last value, BitVec.msb_eq_toInt, decide_eq_true_iff]
    change (if value.getLsbD 31 then BitVec.allOnes 32 else 0).toInt = value.toInt / 2 ^ 32
    split
    · rename_i sign
      have below := negative.mp sign
      have minusOne : (BitVec.allOnes 32).toInt = -1 := by decide
      rw [minusOne]
      omega
    · rename_i sign
      have above : ¬ value.toInt < 0 := fun below => sign (negative.mpr below)
      have nothing : (0 : Word).toInt = 0 := rfl
      rw [nothing]
      omega
  · rw [shift_asr_eq value zero bound, if_neg zero, BitVec.toInt_sshiftRight,
      Int.shiftRight_eq_div_pow]
    rfl

theorem shiftedNumber_eq {inst : Instruction} (value : Word)
    (named : inst.shift = .lsl ∨ inst.shift = .asr) (bound : inst.shiftAmount < 32) :
    (shift value inst.shift inst.shiftAmount false false).value.toInt = shiftedNumber inst value := by
  unfold shiftedNumber
  obtain named | named := named
  · rw [named]
    have shifted : (shift value .lsl inst.shiftAmount false false).value =
        value <<< inst.shiftAmount := by
      unfold shift
      rw [Bool.false_and, if_neg Bool.false_ne_true]
      dsimp only
      split
      · rename_i zero
        rw [zero, BitVec.shiftLeft_zero]
      · rfl
    have power : BitVec.ofInt 32 (2 ^ inst.shiftAmount) = BitVec.twoPow 32 inst.shiftAmount := by
      apply BitVec.eq_of_toNat_eq
      rw [BitVec.toNat_twoPow, ← BitVec.toNat_ofNat, ← BitVec.ofInt_natCast, Nat.cast_pow]
      rfl
    have product : BitVec.ofInt 32 (value.toInt * 2 ^ inst.shiftAmount) =
        value <<< inst.shiftAmount := by
      rw [BitVec.ofInt_mul, BitVec.ofInt_toInt, BitVec.shiftLeft_eq_mul_twoPow, power]
    rw [shifted]
    change _ = (BitVec.ofInt 32 (value.toInt * 2 ^ inst.shiftAmount)).toInt
    rw [product]
  · rw [named]
    exact shift_asr value bound

/-! ### Results -/

/-- Two halves put together are found again. -/
theorem extractLsb'_halves (low high : Int) (upper : Bool) :
    ((BitVec.ofInt 32 low &&& (0xffff : Word)) |||
      ((BitVec.ofInt 32 high &&& (0xffff : Word)) <<< 16)).extractLsb' (if upper then 16 else 0) 16 =
      BitVec.ofInt 16 (if upper then high else low) := by
  have mask : ∀ i < 32, (0xffff : Word).getLsbD i = decide (i < 16) := by decide
  rw [← @setWidth_ofInt 32 16 (by decide)]
  apply BitVec.eq_of_getLsbD_eq
  intro i less
  rw [BitVec.getLsbD_extractLsb', BitVec.getLsbD_or, BitVec.getLsbD_and, BitVec.getLsbD_shiftLeft,
    BitVec.getLsbD_and, BitVec.getLsbD_setWidth, decide_eq_true less, Bool.true_and, Bool.true_and]
  cases upper with
  | false =>
    rw [if_neg Bool.false_ne_true, if_neg Bool.false_ne_true, Nat.zero_add, mask i (by omega),
      decide_eq_true less]
    simp
  | true =>
    rw [if_pos rfl, if_pos rfl, Nat.add_sub_cancel_left, mask (16 + i) (by omega),
      mask i (by omega), decide_eq_true less, decide_eq_false (by omega : ¬ 16 + i < 16),
      decide_eq_true (by omega : 16 + i < 32)]
    simp

/-- A number moved into a range is read back from the result as it is. -/
theorem saturates_number {signed : Bool} {bits w : Nat} (x : Int) (positive : 0 < w)
    (narrow : bits ≤ w) :
    Saturates signed bits x (number signed (BitVec.ofInt w (clamp signed bits x))) := by
  rw [(clamp_fits signed bits x).number positive narrow]
  exact saturates_clamp signed bits x

/-- One number is saturated. -/
theorem single_exact {inst : Instruction} {first second cpsr : Word} {x : Int}
    {result : AluResult}
    (inputs : saturationInputs inst first second = [x])
    (parts : ∀ value, saturatedParts inst first second value =
      [(x, number (saturatingOperation inst.opcode).isSigned value)])
    (narrow : saturationBits inst ≤ 32)
    (same : result = ⟨BitVec.ofInt 32 (saturate x (saturationBits inst)
        (saturatingOperation inst.opcode).isSigned cpsr).1,
      (saturate x (saturationBits inst) (saturatingOperation inst.opcode).isSigned cpsr).2⟩) :
    IsExactSaturation inst first second cpsr result := by
  subst same
  constructor
  · intro part member
    rw [parts, List.mem_singleton] at member
    subst member
    exact saturates_number x (by decide) narrow
  · rw [inputs]
    simp only [List.any_cons, List.any_nil, Bool.or_false]
    exact saturate_overflows x _ _ cpsr

/-- Both halves of a word are saturated. -/
theorem halves_exact {inst : Instruction} {first second cpsr : Word}
    (named : saturatingOperation inst.opcode = .signedHalfwords ∨
      saturatingOperation inst.opcode = .unsignedHalfwords)
    (narrow : inst.immediate.toNat ≤ 16) :
    IsExactSaturation inst first second cpsr (saturatingArithmetic inst first second cpsr) := by
  set bits := inst.immediate.toNat with isBits
  set signed := (saturatingOperation inst.opcode).isSigned with isSigned
  have width : saturationBits inst = bits := by
    unfold saturationBits
    obtain named | named := named <;> rw [named]
  have inputs : saturationInputs inst first second = [half first false, half first true] := by
    unfold saturationInputs
    obtain named | named := named <;> rw [named]
  have parts : ∀ value, saturatedParts inst first second value =
      [(half first false, number signed (value.extractLsb' 0 16)),
        (half first true, number signed (value.extractLsb' 16 16))] := by
    intro value
    unfold saturatedParts
    rw [inputs, isSigned]
    obtain named | named := named <;> rw [named] <;> rfl
  have result : saturatingArithmetic inst first second cpsr =
      ⟨(BitVec.ofInt 32 (clamp signed bits (half first false)) &&& (0xffff : Word)) |||
        ((BitVec.ofInt 32 (clamp signed bits (half first true)) &&& (0xffff : Word)) <<< 16),
        (saturate (half first true) bits signed
          (saturate (half first false) bits signed cpsr).2).2⟩ := by
    unfold saturatingArithmetic
    rw [isSigned]
    obtain named | named := named <;> rw [named] <;> rfl
  rw [result]
  constructor
  · intro part member
    rw [width]
    rw [parts, List.mem_cons, List.mem_singleton] at member
    obtain rfl | rfl := member
    · have low := extractLsb'_halves (clamp signed bits (half first false))
        (clamp signed bits (half first true)) false
      dsimp only at low ⊢
      rw [if_neg Bool.false_ne_true, if_neg Bool.false_ne_true] at low
      rw [low]
      exact saturates_number _ (by decide) narrow
    · have high := extractLsb'_halves (clamp signed bits (half first false))
        (clamp signed bits (half first true)) true
      dsimp only at high ⊢
      rw [if_pos rfl, if_pos rfl] at high
      rw [high]
      exact saturates_number _ (by decide) narrow
  · rw [inputs, width]
    simp only [List.any_cons, List.any_nil, Bool.or_false]
    exact (saturate_overflows _ bits signed cpsr).trans (saturate_overflows _ bits signed _)

/-- The second operand is doubled first, which may overflow as well. -/
theorem double_exact {inst : Instruction} (first second cpsr : Word)
    (named : saturatingOperation inst.opcode = .doubleAdd ∨
      saturatingOperation inst.opcode = .doubleSubtract) :
    IsExactSaturation inst first second cpsr (saturatingArithmetic inst first second cpsr) := by
  set doubled := clamp true 32 (2 * second.toInt) with isDoubled
  obtain ⟨sum, inputs, result⟩ : ∃ sum : Int,
      saturationInputs inst first second = [2 * second.toInt, sum] ∧
      saturatingArithmetic inst first second cpsr =
        ⟨BitVec.ofInt 32 (clamp true 32 sum),
          (saturate sum 32 true (saturate (2 * second.toInt) 32 true cpsr).2).2⟩ := by
    unfold saturationInputs saturatingArithmetic
    obtain named | named := named
    · refine ⟨first.toInt + doubled, ?_⟩
      rw [named]
      exact ⟨rfl, rfl⟩
    · refine ⟨first.toInt - doubled, ?_⟩
      rw [named]
      exact ⟨rfl, rfl⟩
  have width : saturationBits inst = 32 := by
    unfold saturationBits
    obtain named | named := named <;> rw [named]
  have signed : (saturatingOperation inst.opcode).isSigned = true := by
    obtain named | named := named <;> rw [named] <;> rfl
  rw [result]
  constructor
  · intro part member
    have parts : saturatedParts inst first second (BitVec.ofInt 32 (clamp true 32 sum)) =
        [(sum, number true (BitVec.ofInt 32 (clamp true 32 sum)))] := by
      unfold saturatedParts
      rw [inputs]
      obtain named | named := named <;> rw [named] <;> rfl
    rw [parts, List.mem_singleton] at member
    subst member
    rw [width, signed]
    exact saturates_number sum (by decide) (Nat.le_refl 32)
  · rw [inputs, width, signed]
    simp only [List.any_cons, List.any_nil, Bool.or_false]
    exact (saturate_overflows _ 32 true cpsr).trans (saturate_overflows sum 32 true _)

theorem saturatingArithmetic_exact {inst : Instruction} (form : SaturatingForm inst)
    (first second cpsr : Word) :
    IsExactSaturation inst first second cpsr (saturatingArithmetic inst first second cpsr) := by
  unfold SaturatingForm at form
  cases named : saturatingOperation inst.opcode with
  | signed | unsigned =>
    rw [named] at form
    obtain ⟨narrow, kind, bound⟩ := form
    refine single_exact (x := shiftedNumber inst first) ?_ ?_ ?_ ?_
    · unfold saturationInputs
      rw [named]
    · intro value
      unfold saturatedParts saturationInputs
      rw [named]
      rfl
    · unfold saturationBits
      rw [named]
      exact narrow
    · unfold saturatingArithmetic saturationBits
      rw [named, ← shiftedNumber_eq first kind bound]
      rfl
  | signedHalfwords | unsignedHalfwords =>
    rw [named] at form
    exact halves_exact (by rw [named]; simp) form
  | add =>
    refine single_exact (x := first.toInt + second.toInt) ?_ ?_ ?_ ?_
    · unfold saturationInputs
      rw [named]
    · intro value
      unfold saturatedParts saturationInputs
      rw [named]
      rfl
    · unfold saturationBits
      rw [named]
    · unfold saturatingArithmetic saturationBits
      rw [named]
      rfl
  | subtract =>
    refine single_exact (x := first.toInt - second.toInt) ?_ ?_ ?_ ?_
    · unfold saturationInputs
      rw [named]
    · intro value
      unfold saturatedParts saturationInputs
      rw [named]
      rfl
    · unfold saturationBits
      rw [named]
    · unfold saturatingArithmetic saturationBits
      rw [named]
      rfl
  | doubleAdd | doubleSubtract => exact double_exact first second cpsr (by rw [named]; simp)

end ILEmu.ArmInterpreter
