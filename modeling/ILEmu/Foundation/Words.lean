import Mathlib.Data.BitVec
import Mathlib.Data.Int.ModEq
import Mathlib.Tactic.Linarith

/-! Words as addresses on pages and as sets of bits: how far an address can move on its page,
and what is known of a word whose bits lie within a mask. -/
namespace ILEmu.Foundation

/-- Fields of four bits have literals, and lists of them are searched. -/
instance fourBits : NeZero 16 := ⟨by decide⟩

instance fourBitsLawful : LawfulBEq (Fin 16) := inferInstance

/-! ### Pages -/

section
variable {w : Nat} (bits : Nat)

def page (address : BitVec w) : Nat := address.toNat / 2 ^ bits

def pageOffset (address : BitVec w) : Nat := address.toNat % 2 ^ bits

theorem toInt_displaced (base : BitVec w) (x : Int) (low : 0 ≤ base.toNat + x)
    (high : base.toNat + x < 2 ^ w) : ((base + BitVec.ofInt w x).toNat : Int) = base.toNat + x := by
  have wrapped : ((base + BitVec.ofInt w x).toNat : Int) = (base.toNat + x) % (2 ^ w : Nat) := by
    rw [BitVec.toNat_add, BitVec.toNat_ofInt, Int.natCast_mod, Int.natCast_add, Int.toNat_of_nonneg
      (Int.emod_nonneg _ (by positivity)), Int.add_emod_emod]
  rw [wrapped]
  exact Int.emod_eq_of_lt low (by exact_mod_cast high)

/-- An address that does not leave its page by its offset stays on the page, wherever the page
lies. -/
theorem page_displaced {base : BitVec w} {x : Int} (inside : bits ≤ w)
    (low : 0 ≤ pageOffset bits base + x) (high : pageOffset bits base + x < 2 ^ bits) :
    page bits (base + BitVec.ofInt w x) = page bits base := by
  have parts : (base.toNat : Int) = 2 ^ bits * page bits base + pageOffset bits base := by
    unfold page pageOffset
    exact_mod_cast (Nat.div_add_mod base.toNat (2 ^ bits)).symm
  have below : base.toNat / 2 ^ bits < 2 ^ (w - bits) := by
    apply Nat.div_lt_of_lt_mul
    rw [← Nat.pow_add, Nat.add_sub_cancel' inside]
    exact base.isLt
  have whole : (2 : Int) ^ w = 2 ^ bits * 2 ^ (w - bits) := by
    rw [← pow_add, Nat.add_sub_cancel' inside]
  have last : (2 : Int) ^ bits * (page bits base + 1) ≤ 2 ^ w := by
    rw [whole]
    apply mul_le_mul_of_nonneg_left _ (by positivity)
    have : page bits base + 1 ≤ 2 ^ (w - bits) := below
    exact_mod_cast this
  have start : (0 : Int) ≤ 2 ^ bits * page bits base := by positivity
  have moved := toInt_displaced base x (by linarith) (by linarith)
  have number : ((base + BitVec.ofInt w x).toNat : Int) / 2 ^ bits = page bits base := by
    rw [moved, parts, add_assoc, Int.add_ediv_of_dvd_left (Dvd.intro _ rfl),
      Int.mul_ediv_cancel_left _ (by positivity), Int.ediv_eq_zero_of_lt low high, add_zero]
  have : (((base + BitVec.ofInt w x).toNat / 2 ^ bits : Nat) : Int) = page bits base := by
    rw [Int.natCast_div]
    exact_mod_cast number
  exact_mod_cast this

/-- Distances are known up to the multiples of every power of two. -/
theorem displaced_mod (base : BitVec w) (x : Int) {a : Nat} (divides : a ∣ 2 ^ w) :
    ((base + BitVec.ofInt w x - base).toNat : Int) % a = x % a := by
  rw [BitVec.add_comm, BitVec.add_sub_cancel, BitVec.toNat_ofInt,
    Int.toNat_of_nonneg (Int.emod_nonneg _ (by positivity))]
  exact Int.emod_emod_of_dvd _ (by exact_mod_cast divides)

end

/-! ### Linear forms over a box -/

/-- A point of a box of constants and coefficients. -/
structure InBox (low high first last constant coefficient : Int) : Prop where
  low : low ≤ constant
  high : constant ≤ high
  first : first ≤ coefficient
  last : coefficient ≤ last

theorem InBox.lower {low high first last constant coefficient stride bound : Int}
    (point : InBox low high first last constant coefficient)
    (positive : 0 ≤ stride → bound ≤ low + first * stride)
    (negative : stride < 0 → bound ≤ low + last * stride) :
    bound ≤ constant + coefficient * stride := by
  rcases le_or_gt 0 stride with sign | sign
  · have := mul_le_mul_of_nonneg_right point.first sign
    linarith [positive sign, point.low]
  · have := mul_le_mul_of_nonpos_right point.last sign.le
    linarith [negative sign, point.low]

theorem InBox.upper {low high first last constant coefficient stride bound : Int}
    (point : InBox low high first last constant coefficient)
    (positive : 0 ≤ stride → high + last * stride ≤ bound)
    (negative : stride < 0 → high + first * stride ≤ bound) :
    constant + coefficient * stride ≤ bound := by
  rcases le_or_gt 0 stride with sign | sign
  · have := mul_le_mul_of_nonneg_right point.last sign
    linarith [positive sign, point.high]
  · have := mul_le_mul_of_nonpos_right point.first sign.le
    linarith [negative sign, point.high]

/-- What moves by a fixed step moves no further than the first and the last step. -/
theorem step_bounds {step : Int} {n copies : Nat} (inside : n < copies) :
    min 0 (step * (copies - 1 : Nat)) ≤ step * n ∧ step * n ≤ max 0 (step * (copies - 1 : Nat)) := by
  have least : (0 : Int) ≤ n := by omega
  have most : (n : Int) ≤ (copies - 1 : Nat) := by omega
  rcases le_or_gt 0 step with sign | sign
  · refine ⟨(min_le_left _ _).trans (mul_nonneg sign least), ?_⟩
    exact (mul_le_mul_of_nonneg_left most sign).trans (le_max_right _ _)
  · refine ⟨(min_le_right _ _).trans (mul_le_mul_of_nonpos_left most sign.le), ?_⟩
    exact (mul_nonpos_of_nonpos_of_nonneg sign.le least).trans (le_max_left _ _)

/-! ### Bits within a mask -/

section
variable {w : Nat}

/-- Every bit of the value is one of the mask. -/
def Within (value mask : BitVec w) : Prop :=
  ∀ i, value.getLsbD i = true → mask.getLsbD i = true

theorem Within.refl (value : BitVec w) : Within value value := fun _ set => set

theorem within_and (value mask : BitVec w) : Within (value &&& mask) mask := by
  intro i set
  rw [BitVec.getLsbD_and, Bool.and_eq_true] at set
  exact set.2

theorem Within.toNat_le {value mask : BitVec w} (within : Within value mask) :
    value.toNat ≤ mask.toNat := by
  have same : value &&& mask = value := by
    apply BitVec.eq_of_getLsbD_eq
    intro i _
    rw [BitVec.getLsbD_and]
    cases set : value.getLsbD i with
    | false => rfl
    | true => rw [within i set]; rfl
  calc value.toNat = (value &&& mask).toNat := by rw [same]
    _ = value.toNat &&& mask.toNat := BitVec.toNat_and ..
    _ ≤ mask.toNat := Nat.and_le_right

theorem Within.of_and {value mask other : BitVec w} (within : Within value mask)
    (clear : mask &&& other = 0) : value &&& other = 0 := by
  have absent : ∀ i, (0 : BitVec w).getLsbD i = false := by simp
  apply BitVec.eq_of_getLsbD_eq
  intro i _
  rw [BitVec.getLsbD_and, absent]
  cases set : value.getLsbD i with
  | false => rfl
  | true =>
    have outside := congrArg (·.getLsbD i) clear
    simp only [BitVec.getLsbD_and, within i set, absent] at outside
    exact outside

end

end ILEmu.Foundation
