import ILEmu.ArmInterpreter.ArithmeticDecode
import ILEmu.Foundation.ExactWords
import Mathlib.Tactic.Linarith

/-! A decoded product is that of exact integers, brought to the width of its result, and changes
the flags that it is said to. -/
namespace ILEmu.ArmInterpreter
open Arm Foundation

/-! ### What is decoded -/

@[simp] theorem multiplyOperation_opcode (operation : MultiplyOperation) :
    multiplyOperation operation.opcode = operation := by
  cases operation <;> rfl

/-- How the parts of an encoding go together. -/
structure MultiplyForm (operation : MultiplyOperation) (accumulate flags sign : Bool) : Prop where
  flags : flags = true → operation = .word ∨ operation = .long
  signed : operation = .high ∨ operation = .highSubtract → sign = true
  unsigned : operation = .dualAccumulateLong → sign = false
  accumulates : operation = .highSubtract → accumulate = true

abbrev MultiplyEncoding.Sound (encoding : MultiplyEncoding) : Prop :=
  MultiplyForm encoding.operation encoding.accumulate encoding.flags encoding.sign

/-- A chain of cases is searched from the first on. -/
theorem of_found {α : Type} {P : α → Prop} {p : Prop} [Decidable p] {here : α} {rest : Option α}
    (first : P here) (later : ∀ a, rest = some a → P a) :
    ∀ a, (if p then some here else rest) = some a → P a := by
  intro a found
  split at found
  · obtain rfl := Option.some.inj found
    exact first
  · exact later a found

theorem thumbMultiplyEncoding_sound (word : Word) :
    ∀ encoding, thumbMultiplyEncoding word = some encoding → encoding.Sound := by
  unfold thumbMultiplyEncoding
  dsimp only
  iterate 14
    refine of_found (P := MultiplyEncoding.Sound)
      (by constructor <;> dsimp only <;> (try split) <;> simp) ?_
  exact nofun

theorem armPlainEncoding_sound (word : Word) (profile : ArmInstructionProfile) :
    (armPlainEncoding word profile).Sound := by
  unfold armPlainEncoding
  dsimp only
  split
  · exact ⟨fun _ => .inl rfl, nofun, nofun, nofun⟩
  · split
    · exact ⟨nofun, nofun, nofun, nofun⟩
    · split
      · exact ⟨nofun, nofun, fun _ => rfl, nofun⟩
      · exact ⟨fun _ => .inr rfl, nofun, nofun, nofun⟩

theorem armMultiplyEncoding_sound (word : Word) (profile : ArmInstructionProfile) :
    ∀ encoding, armMultiplyEncoding word profile = some encoding → encoding.Sound := by
  unfold armMultiplyEncoding
  dsimp only
  iterate 8
    refine of_found (P := MultiplyEncoding.Sound)
      (by constructor <;> dsimp only <;> (try split) <;> simp) ?_
  exact of_found (P := MultiplyEncoding.Sound) (armPlainEncoding_sound word profile) nofun

theorem finishMultiply_form {out inst : Instruction} {encoding : MultiplyEncoding}
    {rm rs : Register} (sound : encoding.Sound)
    (finished : finishMultiply out encoding rm rs = some inst) :
    inst.kind = .multiply ∧ MultiplyForm (multiplyOperation inst.opcode) inst.accumulate
      inst.setFlags inst.signExtend := by
  unfold finishMultiply at finished
  split at finished
  · contradiction
  · obtain rfl := Option.some.inj finished
    refine ⟨rfl, ?_⟩
    rw [multiplyOperation_opcode]
    exact sound

theorem decodeMultiply_form {out inst : Instruction} {word : Word} {thumb inItBlock : Bool}
    {profile : ArmInstructionProfile}
    (decoded : decodeMultiply out word thumb profile inItBlock = some (some inst)) :
    inst.kind = .multiply ∧ MultiplyForm (multiplyOperation inst.opcode) inst.accumulate
      inst.setFlags inst.signExtend := by
  unfold decodeMultiply at decoded
  split at decoded
  · split at decoded
    · contradiction
    · refine finishMultiply_form ?_ (Option.some.inj decoded)
      exact ⟨fun _ => .inl rfl, nofun, nofun, nofun⟩
  · split at decoded
    · obtain ⟨encoding, found, finished⟩ := Option.map_eq_some_iff.mp decoded
      dsimp only at finished
      split at finished
      · contradiction
      · exact finishMultiply_form (thumbMultiplyEncoding_sound word _ found) finished
    · split at decoded
      · contradiction
      · rename_i encoding found
        split at decoded
        · contradiction
        · exact finishMultiply_form (armMultiplyEncoding_sound word profile _ found) (Option.some.inj decoded)

/-! ### Exact products -/

/-- The number that two registers hold. -/
def longOperand (signed : Bool) (high low : Word) : Int :=
  number signed high * 2 ^ 32 + low.toNat

/-- The number that an instruction computes, before it is brought to the width of the result. -/
def exactProduct (inst : Instruction) (first second low high : Word) : Int :=
  let product := number inst.signExtend first * number inst.signExtend second
  let addend := if inst.accumulate then high.toInt else 0
  let rounding := if inst.shiftAmount ≠ 0 then 2 ^ 31 else 0
  let halves :=
    half first (inst.shiftAmount.testBit 0) * half second (inst.shiftAmount.testBit 1)
  let lowHalves := half first false * half second inst.exchange
  let highHalves := half first true * half second !inst.exchange
  match multiplyOperation inst.opcode with
  | .word => product + addend
  | .subtract => high.toInt - product
  | .long => product + if inst.accumulate then longOperand inst.signExtend high low else 0
  | .dualAccumulateLong => number false first * number false second + low.toNat + high.toNat
  | .high => (addend * 2 ^ 32 + first.toInt * second.toInt + rounding) / 2 ^ 32
  | .highSubtract => (high.toInt * 2 ^ 32 - first.toInt * second.toInt + rounding) / 2 ^ 32
  | .halfword => halves + addend
  | .wordHalfword => first.toInt * half second (inst.shiftAmount.testBit 1) / 2 ^ 16 + addend
  | .halfwordLong => halves + longOperand true high low
  | .dualHalfword => lowHalves + highHalves + addend
  | .dualHalfwordSubtract => lowHalves - highHalves + addend
  | .dualHalfwordLong => lowHalves + highHalves + longOperand true high low
  | .dualHalfwordLongSubtract => lowHalves - highHalves + longOperand true high low

def resultWidth (inst : Instruction) : Nat := if multiplyWritesPair inst then 64 else 32

/-- The operations that say in Q whether their number fits. -/
def MultiplyOperation.checksOverflow : MultiplyOperation → Bool
  | .halfword | .wordHalfword | .dualHalfword | .dualHalfwordSubtract => true
  | _ => false

/-- The bits of the status after an exact product. -/
def productStatus (inst : Instruction) (cpsr : Word) (exact : Int) (bit : Nat) : Bool :=
  let result := BitVec.ofInt (resultWidth inst) exact
  if bit = 31 ∧ inst.setFlags = true then result.msb
  else if bit = 30 ∧ inst.setFlags = true then decide (result = 0)
  else if bit = 27 ∧ (multiplyOperation inst.opcode).checksOverflow = true then
    cpsr.getLsbD 27 || !decide (Fits true 32 exact)
  else cpsr.getLsbD bit

structure IsExactProduct (inst : Instruction) (cpsr : Word) (exact : Int)
    (result : MultiplyResult) : Prop where
  value : result.value.setWidth (resultWidth inst) = BitVec.ofInt (resultWidth inst) exact
  status : ∀ bit, result.cpsr.getLsbD bit = productStatus inst cpsr exact bit

/-! ### Parts of the products -/

theorem ofInt_number (signed : Bool) (value : Word) :
    BitVec.ofInt 32 (number signed value) = value := by
  cases signed with
  | false => exact ofInt_toNat value
  | true => exact BitVec.ofInt_toInt

theorem toInt_cases (value : Word) :
    value.toInt = value.toNat ∨ value.toInt = value.toNat - 2 ^ 32 := by
  rw [BitVec.toInt_eq_toNat_cond]
  split
  · exact .inl rfl
  · exact .inr rfl

theorem accumulator_eq (signed : Bool) (high low : Word) :
    accumulator high low = BitVec.ofInt 64 (longOperand signed high low) := by
  have highBound := high.isLt
  have lowBound := low.isLt
  have joined : accumulator high low = BitVec.ofNat 64 (high.toNat * 2 ^ 32 + low.toNat) := by
    apply BitVec.eq_of_toNat_eq
    unfold accumulator
    rw [BitVec.toNat_or, BitVec.toNat_shiftLeft, BitVec.toNat_setWidth, BitVec.toNat_setWidth,
      BitVec.toNat_ofNat, Nat.shiftLeft_eq, Nat.mod_eq_of_lt (by omega),
      Nat.mod_eq_of_lt (by omega), Nat.mod_eq_of_lt (by omega), Nat.mod_eq_of_lt (by omega),
      ← Nat.shiftLeft_eq, Nat.shiftLeft_add_eq_or_of_lt lowBound]
  have same : (longOperand signed high low - (high.toNat * 2 ^ 32 + low.toNat : Nat)) % 2 ^ 64 = 0 := by
    unfold longOperand number
    have cases := toInt_cases high
    split <;> omega
  rw [joined]
  apply BitVec.eq_of_toNat_eq
  rw [BitVec.toNat_ofNat, BitVec.toNat_ofInt]
  omega

/-- The product of signed or of unsigned factors. -/
theorem product_eq (signed : Bool) (first second : Word) :
    (if signed then BitVec.ofInt 64 (first.toInt * second.toInt)
      else first.setWidth 64 * second.setWidth 64) =
      BitVec.ofInt 64 (number signed first * number signed second) := by
  cases signed with
  | true => rfl
  | false =>
    change first.setWidth 64 * second.setWidth 64 = BitVec.ofInt 64 (first.toNat * second.toNat)
    rw [BitVec.ofInt_mul, setWidth_eq_ofInt, setWidth_eq_ofInt]

/-- An addend in the high word. -/
theorem highWord_eq (value : Word) :
    value.setWidth 64 <<< 32 = BitVec.ofInt 64 (value.toInt * 2 ^ 32) := by
  have bound := value.isLt
  have cases := toInt_cases value
  apply BitVec.eq_of_toNat_eq
  rw [BitVec.toNat_shiftLeft, BitVec.toNat_setWidth, BitVec.toNat_ofInt, Nat.shiftLeft_eq]
  omega

theorem ofInt_add_number (signed : Bool) (x : Int) (value : Word) :
    BitVec.ofInt 32 (x + number signed value) = BitVec.ofInt 32 (x + value.toInt) := by
  rw [BitVec.ofInt_add, BitVec.ofInt_add, ofInt_number, BitVec.ofInt_toInt]

theorem abs_half_le (value : Word) (upper : Bool) : |half value upper| ≤ 2 ^ 15 := by
  unfold half
  generalize value.extractLsb' _ 16 = part
  have low := @BitVec.le_two_mul_toInt 16 part
  have high := @BitVec.two_mul_toInt_lt 16 part
  rw [abs_le]
  omega

theorem abs_mul_half_le {x bound : Int} (bounded : |x| ≤ bound) (value : Word) (upper : Bool) :
    |x * half value upper| ≤ bound * 2 ^ 15 := by
  rw [abs_mul]
  exact mul_le_mul bounded (abs_half_le value upper) (abs_nonneg _)
    (Int.le_trans (abs_nonneg x) bounded)

theorem setWidth_narrow (value : BitVec 64) :
    ((value.setWidth 32).setWidth 64).setWidth 32 = value.setWidth 32 := by
  rw [BitVec.setWidth_setWidth_of_le _ (by decide), BitVec.setWidth_setWidth_of_le _ (by decide)]

/-- Exchanged halves. -/
theorem extractLsb'_rotateLeft (value : Word) (upper : Bool) :
    (value.rotateLeft 16).extractLsb' (if upper then 16 else 0) 16 =
      value.extractLsb' (if !upper then 16 else 0) 16 := by
  apply BitVec.eq_of_getLsbD_eq
  intro i less
  cases upper with
  | false => simp [BitVec.getLsbD_rotateLeft, less]
  | true =>
    simp only [BitVec.getLsbD_extractLsb', BitVec.getLsbD_rotateLeft, less]
    simp
    omega

theorem half_rotated (value : Word) (upper : Bool) :
    half (value.rotateLeft 16) upper = half value !upper :=
  congrArg BitVec.toInt (extractLsb'_rotateLeft value upper)

/-- The halves that are multiplied, exchanged or not. -/
theorem half_exchanged (exchange : Bool) (value : Word) (upper : Bool) :
    half (if exchange then value.rotateLeft 16 else value) upper = half value (upper ^^ exchange) := by
  cases exchange with
  | false => rw [if_neg Bool.false_ne_true, Bool.xor_false]
  | true => rw [if_pos rfl, half_rotated, Bool.xor_true]

/-! ### Results -/

theorem resultWidth_eq {inst : Instruction} {operation : MultiplyOperation}
    (named : multiplyOperation inst.opcode = operation) :
    resultWidth inst = if operation.writesPair then 64 else 32 := by
  rw [← named]
  rfl

/-- The sum of two products of halves, kept whole or truncated with its overflow noted. -/
theorem dualHalfwordMultiply_eq {inst : Instruction} {first second low high cpsr : Word}
    {result : MultiplyResult}
    (dual : dualHalfwordMultiply inst first second low high cpsr = some result) :
    let sum := BitVec.ofInt 64 (exactProduct inst first second low high)
    (multiplyOperation inst.opcode ∈
        [MultiplyOperation.dualHalfwordLong, .dualHalfwordLongSubtract] ∧
      result = ⟨sum, cpsr⟩) ∨
    (multiplyOperation inst.opcode ∈ [MultiplyOperation.dualHalfword, .dualHalfwordSubtract] ∧
      result = ⟨(sum.setWidth 32).setWidth 64, multiplyQ cpsr sum⟩) := by
  unfold dualHalfwordMultiply at dual
  dsimp only at dual ⊢
  rw [half_exchanged, half_exchanged, Bool.false_xor, Bool.true_xor, accumulator_eq true] at dual
  split at dual
  · rename_i named
    obtain rfl := Option.some.inj dual
    simp [exactProduct, named]
  · rename_i named
    obtain rfl := Option.some.inj dual
    simp [exactProduct, named]
  · rename_i named
    obtain rfl := Option.some.inj dual
    simp [exactProduct, named, BitVec.ofInt_add]
  · rename_i named
    obtain rfl := Option.some.inj dual
    simp [exactProduct, named, BitVec.ofInt_add]
  · contradiction

theorem dualHalfwordMultiply_isNone {inst : Instruction} {first second low high cpsr : Word}
    (other : dualHalfwordMultiply inst first second low high cpsr = none) :
    multiplyOperation inst.opcode ∉ [.dualHalfword, .dualHalfwordSubtract, .dualHalfwordLong,
      .dualHalfwordLongSubtract] := by
  intro member
  unfold dualHalfwordMultiply at other
  dsimp only at other
  split at other
  all_goals first | contradiction | simp_all

theorem highWord_result (x : Int) :
    (BitVec.ofInt 64 x >>> 32).setWidth 32 = BitVec.ofInt 32 (x / 2 ^ 32) := by
  rw [← extractLsb'_ofInt (by decide : 32 + 32 ≤ 64)]
  apply BitVec.eq_of_getLsbD_eq
  intro i less
  simp [less]

theorem multiply_value (inst : Instruction) (first second low high : Word)
    (form : MultiplyForm (multiplyOperation inst.opcode) inst.accumulate inst.setFlags
      inst.signExtend)
    (single : multiplyOperation inst.opcode ∉ [.dualHalfword, .dualHalfwordSubtract,
      .dualHalfwordLong, .dualHalfwordLongSubtract]) :
    (multiply inst first second low high).setWidth (resultWidth inst) =
      BitVec.ofInt (resultWidth inst) (exactProduct inst first second low high) := by
  unfold multiply exactProduct
  dsimp only
  rw [product_eq, resultWidth_eq rfl]
  cases named : multiplyOperation inst.opcode with
  | word =>
    change (((BitVec.ofInt 64 _ + _).setWidth 32).setWidth 64).setWidth 32 = BitVec.ofInt 32 (_ + _)
    rw [setWidth_narrow]
    cases inst.accumulate with
    | false =>
      rw [if_neg Bool.false_ne_true, if_neg Bool.false_ne_true, add_zero, Int.add_zero,
        setWidth_ofInt (by decide)]
    | true =>
      rw [if_pos rfl, if_pos rfl, setWidth_eq_ofInt high, ← BitVec.ofInt_add,
        setWidth_ofInt (by decide)]
      exact ofInt_add_number false _ high
  | subtract =>
    change (((_ - BitVec.ofInt 64 _).setWidth 32).setWidth 64).setWidth 32 = BitVec.ofInt 32 (_ - _)
    rw [setWidth_narrow, setWidth_eq_ofInt high, ← ofInt_sub, setWidth_ofInt (by decide), ofInt_sub,
      ofInt_sub, BitVec.ofInt_toInt, ofInt_toNat]
  | long =>
    change (BitVec.ofInt 64 _ + _).setWidth 64 = BitVec.ofInt 64 (_ + _)
    rw [BitVec.setWidth_eq]
    cases inst.accumulate with
    | false =>
      rw [if_neg Bool.false_ne_true, if_neg Bool.false_ne_true, add_zero, Int.add_zero]
    | true => rw [if_pos rfl, if_pos rfl, BitVec.ofInt_add, accumulator_eq inst.signExtend]
  | dualAccumulateLong =>
    change (BitVec.ofInt 64 _ + low.setWidth 64 + high.setWidth 64).setWidth 64 =
      BitVec.ofInt 64 (_ + _ + _)
    rw [form.unsigned named, BitVec.setWidth_eq, setWidth_eq_ofInt low, setWidth_eq_ofInt high,
      BitVec.ofInt_add, BitVec.ofInt_add]
  | high =>
    rw [form.signed (.inl named)]
    change (((if inst.accumulate then high.setWidth 64 <<< 32 else 0) +
      BitVec.ofInt 64 (first.toInt * second.toInt) +
      if inst.shiftAmount ≠ 0 then (0x80000000 : BitVec 64) else 0) >>> 32).setWidth 32 =
        BitVec.ofInt 32 (_ / 2 ^ 32)
    rw [← highWord_result, BitVec.ofInt_add, BitVec.ofInt_add, highWord_eq]
    congr 4
    · split <;> rfl
    · split <;> rfl
  | highSubtract =>
    rw [form.signed (.inr named), form.accumulates named, if_pos rfl, highWord_eq]
    change ((BitVec.ofInt 64 _ - BitVec.ofInt 64 (first.toInt * second.toInt) +
      if inst.shiftAmount ≠ 0 then (0x80000000 : BitVec 64) else 0) >>> 32).setWidth 32 =
        BitVec.ofInt 32 (_ / 2 ^ 32)
    rw [← highWord_result, BitVec.ofInt_add, ofInt_sub]
    congr 3
    split <;> rfl
  | halfword =>
    dsimp only
    cases inst.accumulate with
    | false =>
      rw [if_neg Bool.false_ne_true, if_neg Bool.false_ne_true, Int.add_zero]
      exact (setWidth_narrow _).trans (setWidth_ofInt (by decide) _)
    | true =>
      rw [if_pos rfl, if_pos rfl]
      exact setWidth_ofInt (by decide) _
  | wordHalfword => exact setWidth_ofInt (by decide) _
  | halfwordLong =>
    change (BitVec.ofInt 64 _ + accumulator high low).setWidth 64 = BitVec.ofInt 64 (_ + _)
    rw [BitVec.setWidth_eq, accumulator_eq true, BitVec.ofInt_add]
  | dualHalfword | dualHalfwordSubtract | dualHalfwordLong | dualHalfwordLongSubtract =>
    rw [named] at single
    simp at single

/-! ### Flags -/

/-- The sign and zero flags are those of the result, and no other bit changes. -/
theorem multiplyNz_getLsbD (inst : Instruction) (cpsr : Word) (value : BitVec 64) (bit : Nat) :
    (multiplyNz inst cpsr value).getLsbD bit =
      if bit = 31 then (value.setWidth (resultWidth inst)).msb
      else if bit = 30 then decide (value = 0)
      else cpsr.getLsbD bit := by
  have others : ∀ bit < 32, (0x3fffffff : Word).getLsbD bit = decide (bit < 30) := by decide
  have sign : ∀ bit < 32, (0x80000000 : Word).getLsbD bit = decide (bit = 31) := by decide
  have isZero : ∀ bit < 32, (0x40000000 : Word).getLsbD bit = decide (bit = 30) := by decide
  have top : ((if multiplyWritesPair inst then value >>> 32 else value).setWidth 32 : Word).getLsbD 31 =
      (value.setWidth (resultWidth inst)).msb := by
    unfold resultWidth
    cases multiplyWritesPair inst with
    | false => simp [BitVec.msb_eq_getLsbD_last]
    | true => simp [BitVec.msb_eq_getLsbD_last]
  have zeroFlag : (if value = 0 then (0x40000000 : Word) else 0).getLsbD bit =
      (decide (value = 0) && (0x40000000 : Word).getLsbD bit) := by
    split
    · rename_i same
      rw [decide_eq_true same, Bool.true_and]
    · rename_i other
      rw [decide_eq_false other, Bool.false_and]
      exact BitVec.getLsbD_zero
  unfold multiplyNz
  dsimp only
  rw [BitVec.getLsbD_or, BitVec.getLsbD_or, BitVec.getLsbD_and, BitVec.getLsbD_and, zeroFlag]
  by_cases inside : bit < 32
  · rw [others bit inside, sign bit inside, isZero bit inside]
    by_cases last : bit = 31
    · subst last
      rw [if_pos rfl, top]
      simp
    · rw [if_neg last]
      by_cases next : bit = 30
      · subst next
        simp
      · rw [if_neg next, decide_eq_true (by omega : bit < 30), decide_eq_false last,
          decide_eq_false next]
        simp
  · rw [if_neg (by omega : bit ≠ 31), if_neg (by omega : bit ≠ 30)]
    simp only [BitVec.getLsbD_of_ge _ _ (by omega : 32 ≤ bit), Bool.and_false, Bool.or_false]

theorem multiplyQ_getLsbD (cpsr : Word) {x : Int} (bounded : |x| ≤ 2 ^ 33) (bit : Nat) :
    (multiplyQ cpsr (BitVec.ofInt 64 x)).getLsbD bit =
      if bit = 27 then cpsr.getLsbD 27 || !decide (Fits true 32 x) else cpsr.getLsbD bit := by
  rw [abs_le] at bounded
  have back : (BitVec.ofInt 64 x).toInt = x :=
    BitVec.toInt_ofInt_eq_self (by decide) (by omega) (by omega)
  have outside : (x < -2 ^ 31 ∨ 2 ^ 31 - 1 < x) ↔ ¬ Fits true 32 x := by
    simp only [Fits, lowest, highest, if_true]
    omega
  unfold multiplyQ
  rw [back]
  by_cases fits : Fits true 32 x
  · rw [if_neg (fun exceeds => outside.mp exceeds fits), decide_eq_true fits, Bool.not_true, Bool.or_false]
    split
    · rename_i same
      rw [same]
    · rfl
  · rw [if_pos (outside.mpr fits), decide_eq_false fits, Bool.not_false, Bool.or_true,
      BitVec.getLsbD_or, BitVec.getLsbD_twoPow]
    split
    · rename_i same
      rw [same]
      simp
    · rename_i other
      simp [Ne.symm other]

theorem abs_addend_le (accumulate : Bool) (value : Word) :
    |if accumulate then value.toInt else 0| ≤ 2 ^ 31 := by
  have low := @BitVec.le_two_mul_toInt 32 value
  have high := @BitVec.two_mul_toInt_lt 32 value
  rw [abs_le]
  split <;> omega

theorem abs_toInt_le (value : Word) : |value.toInt| ≤ 2 ^ 31 := abs_addend_le true value

/-- The wide sums have room in a double word. -/
theorem exactProduct_bound {inst : Instruction} (first second low high : Word)
    (checks : (multiplyOperation inst.opcode).checksOverflow = true) :
    |exactProduct inst first second low high| ≤ 2 ^ 33 := by
  have addend := abs_addend_le inst.accumulate high
  have halves : ∀ upper upper' : Bool, |half first upper * half second upper'| ≤ 2 ^ 15 * 2 ^ 15 :=
    fun upper upper' => abs_mul_half_le (abs_half_le first upper) second upper'
  have wide := abs_mul_half_le (abs_toInt_le first) second (inst.shiftAmount.testBit 1)
  unfold exactProduct
  dsimp only
  rw [abs_le] at addend wide ⊢
  simp only [abs_le] at halves
  cases named : multiplyOperation inst.opcode with
  | halfword =>
    have product := halves (inst.shiftAmount.testBit 0) (inst.shiftAmount.testBit 1)
    dsimp only
    omega
  | wordHalfword =>
    dsimp only
    omega
  | dualHalfword =>
    have lower := halves false inst.exchange
    have upper := halves true !inst.exchange
    dsimp only
    omega
  | dualHalfwordSubtract =>
    have lower := halves false inst.exchange
    have upper := halves true !inst.exchange
    dsimp only
    omega
  | _ =>
    rw [named] at checks
    contradiction

/-- Without an addend a single product never overflows. -/
theorem exactProduct_fits {inst : Instruction} (first second low high : Word)
    (plain : inst.accumulate = false)
    (named : multiplyOperation inst.opcode = .halfword ∨
      multiplyOperation inst.opcode = .wordHalfword) :
    Fits true 32 (exactProduct inst first second low high) := by
  have halves := abs_mul_half_le (abs_half_le first (inst.shiftAmount.testBit 0)) second
    (inst.shiftAmount.testBit 1)
  have wide := abs_mul_half_le (abs_toInt_le first) second (inst.shiftAmount.testBit 1)
  rw [abs_le] at halves wide
  unfold exactProduct
  simp only [Fits, lowest, highest, if_true, plain, Bool.false_eq_true, if_false]
  obtain named | named := named
  · rw [named]
    dsimp only
    omega
  · rw [named]
    dsimp only
    omega

theorem productStatus_plain {inst : Instruction} {cpsr : Word} {exact : Int}
    (unflagged : inst.setFlags = false)
    (unchecked : (multiplyOperation inst.opcode).checksOverflow = false) (bit : Nat) :
    productStatus inst cpsr exact bit = cpsr.getLsbD bit := by
  unfold productStatus
  simp [unflagged, unchecked]

theorem productStatus_checked {inst : Instruction} {cpsr : Word} {exact : Int}
    (unflagged : inst.setFlags = false)
    (checks : (multiplyOperation inst.opcode).checksOverflow = true) (bit : Nat) :
    productStatus inst cpsr exact bit =
      if bit = 27 then cpsr.getLsbD 27 || !decide (Fits true 32 exact) else cpsr.getLsbD bit := by
  unfold productStatus
  simp [unflagged, checks]

/-- The flags of a result that is set aside whole. -/
theorem productStatus_flags {inst : Instruction} {cpsr : Word} {exact : Int}
    (flagged : inst.setFlags = true)
    (form : MultiplyForm (multiplyOperation inst.opcode) inst.accumulate inst.setFlags
      inst.signExtend) (bit : Nat) :
    productStatus inst cpsr exact bit =
      if bit = 31 then (BitVec.ofInt (resultWidth inst) exact).msb
      else if bit = 30 then decide (BitVec.ofInt (resultWidth inst) exact = 0)
      else cpsr.getLsbD bit := by
  have unchecked : (multiplyOperation inst.opcode).checksOverflow = false := by
    obtain named | named := form.flags flagged <;> rw [named] <;> rfl
  unfold productStatus
  simp [flagged, unchecked]

/-- The result of a plain or a long product is nothing exactly if the part that is kept is. -/
theorem multiply_eq_zero {inst : Instruction} (first second low high : Word)
    (named : multiplyOperation inst.opcode = .word ∨ multiplyOperation inst.opcode = .long) :
    multiply inst first second low high = 0 ↔
      (multiply inst first second low high).setWidth (resultWidth inst) = 0 := by
  obtain named | named := named
  · rw [resultWidth_eq named]
    unfold multiply
    rw [named]
    change BitVec.setWidth 64 _ = 0 ↔ (BitVec.setWidth 64 (BitVec.setWidth 32 _)).setWidth 32 = 0
    rw [setWidth_narrow]
    generalize BitVec.setWidth 32 _ = value
    constructor
    · intro same
      have back := congrArg (BitVec.setWidth 32) same
      rwa [BitVec.setWidth_setWidth_of_le _ (by decide), BitVec.setWidth_eq] at back
    · rintro rfl
      rfl
  · rw [resultWidth_eq named]
    change _ ↔ BitVec.setWidth 64 _ = 0
    rw [BitVec.setWidth_eq]

/-- A product of a half that accumulates keeps its whole sum. -/
theorem multiply_wide {inst : Instruction} (first second low high : Word)
    (accumulates : inst.accumulate = true)
    (named : multiplyOperation inst.opcode = .halfword ∨
      multiplyOperation inst.opcode = .wordHalfword) :
    multiply inst first second low high =
      BitVec.ofInt 64 (exactProduct inst first second low high) := by
  unfold multiply exactProduct
  obtain named | named := named
  · simp only [named, accumulates, if_true]
  · simp only [named]

theorem checksOverflow_single {operation : MultiplyOperation}
    (checks : operation.checksOverflow = true)
    (single : operation ∉ [.dualHalfword, .dualHalfwordSubtract, .dualHalfwordLong,
      .dualHalfwordLongSubtract]) : operation = .halfword ∨ operation = .wordHalfword := by
  revert operation
  intro operation
  cases operation <;> decide

/-- Whatever its operands, a decoded product is exact. -/
theorem calculateMultiply_exact {inst : Instruction}
    (form : MultiplyForm (multiplyOperation inst.opcode) inst.accumulate inst.setFlags
      inst.signExtend) (first second low high cpsr : Word) :
    IsExactProduct inst cpsr (exactProduct inst first second low high)
      (calculateMultiply inst first second low high cpsr) := by
  unfold calculateMultiply
  split
  · rename_i result dual
    have unflagged : multiplyOperation inst.opcode ∉ [MultiplyOperation.word, .long] →
        inst.setFlags = false := by
      intro other
      rw [← Bool.not_eq_true]
      intro flagged
      exact other (by simpa using form.flags flagged)
    obtain ⟨named, rfl⟩ | ⟨named, rfl⟩ := dualHalfwordMultiply_eq dual
    · simp only [List.mem_cons, List.not_mem_nil, or_false] at named
      refine ⟨?_, fun bit => (productStatus_plain (unflagged ?_) ?_ bit).symm⟩
      · rw [resultWidth_eq rfl]
        obtain named | named := named <;> rw [named] <;> exact BitVec.setWidth_eq _
      · obtain named | named := named <;> rw [named] <;> decide
      · obtain named | named := named <;> rw [named] <;> rfl
    · simp only [List.mem_cons, List.not_mem_nil, or_false] at named
      have checks : (multiplyOperation inst.opcode).checksOverflow = true := by
        obtain named | named := named <;> rw [named] <;> rfl
      refine ⟨?_, fun bit => ?_⟩
      · rw [resultWidth_eq rfl]
        obtain named | named := named <;> rw [named] <;>
          exact (setWidth_narrow _).trans (setWidth_ofInt (by decide) _)
      · rw [productStatus_checked (unflagged ?_) checks]
        · exact multiplyQ_getLsbD cpsr (exactProduct_bound first second low high checks) bit
        · obtain named | named := named <;> rw [named] <;> decide
  · rename_i other
    have single := dualHalfwordMultiply_isNone other
    have value := multiply_value inst first second low high form single
    refine ⟨value, fun bit => ?_⟩
    dsimp only
    split
    · rename_i flagged
      rw [multiplyNz_getLsbD, productStatus_flags flagged form, value]
      have same := multiply_eq_zero first second low high (form.flags flagged)
      rw [value] at same
      simp only [same]
    · rename_i unflagged
      rw [Bool.not_eq_true] at unflagged
      split
      · rename_i overflows
        simp only [Bool.and_eq_true, Bool.or_eq_true, decide_eq_true_eq] at overflows
        obtain ⟨accumulates, named⟩ := overflows
        have checks : (multiplyOperation inst.opcode).checksOverflow = true := by
          obtain named | named := named <;> rw [named] <;> rfl
        rw [multiply_wide first second low high accumulates named,
          productStatus_checked unflagged checks]
        exact multiplyQ_getLsbD cpsr (exactProduct_bound first second low high checks) bit
      · rename_i quiet
        simp only [Bool.and_eq_true, Bool.or_eq_true, decide_eq_true_eq, not_and] at quiet
        cases checks : (multiplyOperation inst.opcode).checksOverflow with
        | false => exact (productStatus_plain unflagged checks bit).symm
        | true =>
          have named := checksOverflow_single checks single
          have plain : inst.accumulate = false := by
            rw [← Bool.not_eq_true]
            exact fun accumulates => quiet accumulates named
          rw [productStatus_checked unflagged checks,
            decide_eq_true (exactProduct_fits first second low high plain named), Bool.not_true,
            Bool.or_false]
          split
          · rename_i same
            rw [same]
          · rfl

end ILEmu.ArmInterpreter
