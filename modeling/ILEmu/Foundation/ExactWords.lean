import Mathlib.Data.Int.Basic
import Mathlib.Data.List.Basic
import Mathlib.Tactic.Positivity
import Mathlib.Tactic.Ring

/-! Words that hold the low bits of exact integers: parts of them, numbers moved into the range of
a width, and words packed from parts that do not overlap. -/
namespace ILEmu.Foundation
variable {w : Nat}

theorem emod_mul_ediv {a : Int} (positive : 0 < a) (x b : Int) : x % (a * b) / a = x / a % b := by
  rw [Int.emod_def, Int.emod_def, Int.mul_assoc, Int.sub_mul_ediv_left _ _ (Int.ne_of_gt positive),
    Int.ediv_ediv_of_nonneg (Int.le_of_lt positive)]

/-- The bits of a word from a place on are those of the quotient. -/
theorem extractLsb'_ofInt {start length : Nat} (inside : start + length ≤ w) (x : Int) :
    (BitVec.ofInt w x).extractLsb' start length = BitVec.ofInt length (x / 2 ^ start) := by
  have parted : ((2 ^ w : Nat) : Int) = 2 ^ start * 2 ^ (w - start) := by
    rw [← pow_add, Nat.add_sub_cancel' (by omega)]
    exact Nat.cast_pow 2 w
  have divides : ((2 ^ length : Nat) : Int) ∣ 2 ^ (w - start) := by
    rw [Nat.cast_pow]
    exact pow_dvd_pow 2 (by omega)
  have nonneg : 0 ≤ x % ((2 ^ w : Nat) : Int) := Int.emod_nonneg x (by positivity)
  apply BitVec.eq_of_toNat_eq
  rw [BitVec.extractLsb'_toNat, BitVec.toNat_ofInt, BitVec.toNat_ofInt, Nat.shiftRight_eq_div_pow]
  apply Int.ofNat.inj
  change ((_ : Nat) : Int) = ((_ : Nat) : Int)
  rw [Int.natCast_emod, Int.natCast_ediv, Int.toNat_of_nonneg nonneg,
    Int.toNat_of_nonneg (Int.emod_nonneg _ (by positivity)), parted, Nat.cast_pow 2 start]
  change x % (2 ^ start * 2 ^ (w - start)) / 2 ^ start % _ = _
  rw [emod_mul_ediv (by positivity), Int.emod_emod_of_dvd _ divides]

theorem setWidth_ofInt {length : Nat} (inside : length ≤ w) (x : Int) :
    (BitVec.ofInt w x).setWidth length = BitVec.ofInt length x := by
  have part := @extractLsb'_ofInt w 0 length (by omega) x
  rw [Int.pow_zero, Int.ediv_one] at part
  rw [← part]
  apply BitVec.eq_of_getLsbD_eq
  intro i _
  simp

theorem ofInt_sub (x y : Int) :
    BitVec.ofInt w (x - y) = BitVec.ofInt w x - BitVec.ofInt w y := by
  rw [Int.sub_eq_add_neg, BitVec.ofInt_add, BitVec.ofInt_neg, BitVec.sub_eq_add_neg]

/-- A wider word with the same number. -/
theorem setWidth_eq_ofInt {length : Nat} (value : BitVec w) :
    value.setWidth length = BitVec.ofInt length value.toNat := by
  rw [BitVec.ofInt_natCast]
  apply BitVec.eq_of_toNat_eq
  rw [BitVec.toNat_setWidth, BitVec.toNat_ofNat]

theorem ofInt_toNat (value : BitVec w) : BitVec.ofInt w value.toNat = value := by
  rw [← setWidth_eq_ofInt, BitVec.setWidth_eq]

/-! ### Ranges -/

/-- The least number of a width. -/
def lowest (signed : Bool) (bits : Nat) : Int := if signed then -2 ^ (bits - 1) else 0

/-- The greatest number of a width. -/
def highest (signed : Bool) (bits : Nat) : Int :=
  2 ^ (if signed then bits - 1 else bits) - 1

def Fits (signed : Bool) (bits : Nat) (x : Int) : Prop :=
  lowest signed bits ≤ x ∧ x ≤ highest signed bits

instance (signed : Bool) (bits : Nat) (x : Int) : Decidable (Fits signed bits x) :=
  inferInstanceAs (Decidable (_ ∧ _))

/-- A number of a width, the nearest to a given one. -/
structure Saturates (signed : Bool) (bits : Nat) (x y : Int) : Prop where
  fits : Fits signed bits y
  same : Fits signed bits x → y = x
  below : x < lowest signed bits → y = lowest signed bits
  above : highest signed bits < x → y = highest signed bits

theorem lowest_le_highest (signed : Bool) (bits : Nat) :
    lowest signed bits ≤ highest signed bits := by
  unfold lowest highest
  cases signed with
  | false =>
    have positive : (0 : Int) < 2 ^ bits := by positivity
    simp only [Bool.false_eq_true, if_false]
    omega
  | true =>
    have positive : (0 : Int) < 2 ^ (bits - 1) := by positivity
    simp only [if_true]
    omega

theorem Saturates.changed_iff {signed : Bool} {bits : Nat} {x y : Int}
    (saturates : Saturates signed bits x y) : y ≠ x ↔ ¬ Fits signed bits x := by
  constructor
  · intro changed fits
    exact changed (saturates.same fits)
  · rintro outside rfl
    exact outside saturates.fits

/-- The nearest number of a width. -/
def clamp (signed : Bool) (bits : Nat) (x : Int) : Int :=
  max (lowest signed bits) (min (highest signed bits) x)

theorem saturates_clamp (signed : Bool) (bits : Nat) (x : Int) :
    Saturates signed bits x (clamp signed bits x) := by
  have ordered := lowest_le_highest signed bits
  unfold clamp
  constructor
  · unfold Fits
    omega
  · rintro ⟨low, high⟩
    omega
  · intro low
    omega
  · intro high
    omega

theorem clamp_fits (signed : Bool) (bits : Nat) (x : Int) : Fits signed bits (clamp signed bits x) :=
  (saturates_clamp signed bits x).fits

theorem clamp_ne_iff {signed : Bool} {bits : Nat} {x : Int} :
    clamp signed bits x ≠ x ↔ ¬ Fits signed bits x :=
  (saturates_clamp signed bits x).changed_iff

/-- The number that a word holds. -/
def number (signed : Bool) (value : BitVec w) : Int := if signed then value.toInt else value.toNat

/-- A number of a narrower width is read back from a word. -/
theorem Fits.toInt {bits : Nat} {x : Int} (fits : Fits true bits x) (positive : 0 < w)
    (narrow : bits ≤ w) : (BitVec.ofInt w x).toInt = x := by
  obtain ⟨low, high⟩ := fits
  have power : (2 : Int) ^ (bits - 1) ≤ 2 ^ (w - 1) :=
    pow_le_pow_right₀ (by omega) (by omega)
  simp only [lowest, highest, if_true] at low high
  exact BitVec.toInt_ofInt_eq_self positive (by omega) (by omega)

theorem Fits.toNat {bits : Nat} {x : Int} (fits : Fits false bits x) (narrow : bits ≤ w) :
    ((BitVec.ofInt w x).toNat : Int) = x := by
  obtain ⟨low, high⟩ := fits
  have power : (2 : Int) ^ bits ≤ 2 ^ w := pow_le_pow_right₀ (by omega) narrow
  simp only [lowest, highest, Bool.false_eq_true, if_false] at low high
  rw [BitVec.toNat_ofInt, Nat.cast_pow]
  change ((x % 2 ^ w).toNat : Int) = x
  rw [Int.emod_eq_of_lt low (by omega), Int.toNat_of_nonneg low]

theorem Fits.number {signed : Bool} {bits : Nat} {x : Int} (fits : Fits signed bits x)
    (positive : 0 < w) (narrow : bits ≤ w) : number signed (BitVec.ofInt w x) = x := by
  cases signed with
  | false => exact fits.toNat narrow
  | true => exact fits.toInt positive narrow

/-! ### Packed words -/

/-- Parts put into a word at their places. -/
def packed {α : Type*} (part : α → BitVec w) (place : α → Nat) (entries : List α) : BitVec w :=
  entries.foldl (fun word entry => word ||| (part entry <<< place entry)) 0

theorem getLsbD_packed {α : Type*} (part : α → BitVec w) (place : α → Nat) (entries : List α)
    {i : Nat} (inside : i < w) : (packed part place entries).getLsbD i =
      entries.any fun entry => !decide (i < place entry) && (part entry).getLsbD (i - place entry) := by
  have general : ∀ word : BitVec w, (entries.foldl (fun word entry =>
      word ||| (part entry <<< place entry)) word).getLsbD i = (word.getLsbD i ||
        entries.any fun entry =>
          !decide (i < place entry) && (part entry).getLsbD (i - place entry)) := by
    induction entries with
    | nil =>
      intro word
      simp
    | cons entry rest ih =>
      intro word
      rw [List.foldl_cons, ih, BitVec.getLsbD_or, BitVec.getLsbD_shiftLeft, List.any_cons,
        Bool.or_assoc, decide_eq_true inside, Bool.true_and]
  rw [packed, general 0]
  simp

/-- Parts that do not overlap are found at their places. -/
theorem extractLsb'_packed {α : Type*} {part : α → BitVec w} {place bits : α → Nat}
    {entries : List α}
    (narrow : ∀ other ∈ entries, ∀ i, bits other ≤ i → (part other).getLsbD i = false) {entry : α}
    (member : entry ∈ entries) (inside : place entry + bits entry ≤ w)
    (apart : ∀ other ∈ entries, other = entry ∨
      place other + bits other ≤ place entry ∨ place entry + bits entry ≤ place other) :
    (packed part place entries).extractLsb' (place entry) (bits entry) =
      (part entry).setWidth (bits entry) := by
  apply BitVec.eq_of_getLsbD_eq
  intro i less
  rw [BitVec.getLsbD_extractLsb', BitVec.getLsbD_setWidth, decide_eq_true less, Bool.true_and,
    Bool.true_and, getLsbD_packed part place entries (by omega)]
  apply Bool.eq_iff_iff.mpr
  rw [List.any_eq_true]
  constructor
  · rintro ⟨other, among, set⟩
    rw [Bool.and_eq_true, Bool.not_eq_true', decide_eq_false_iff_not] at set
    obtain ⟨reached, set⟩ := set
    obtain rfl | before | after := apart other among
    · rwa [Nat.add_sub_cancel_left] at set
    · rw [narrow other among _ (by omega)] at set
      contradiction
    · omega
  · intro set
    refine ⟨entry, member, ?_⟩
    rw [Nat.add_sub_cancel_left, set, decide_eq_false (by omega)]
    rfl

/-- A number that fits a field is read back from it. -/
theorem getLsbD_ofNat_of_lt {value bits : Nat} (bound : value < 2 ^ bits) (i : Nat)
    (beyond : bits ≤ i) : (BitVec.ofNat w value).getLsbD i = false := by
  rw [BitVec.getLsbD_ofNat, Nat.testBit_lt_two_pow (Nat.lt_of_lt_of_le bound
    (Nat.pow_le_pow_right (by decide) beyond)), Bool.and_false]

end ILEmu.Foundation
