import Mathlib.Data.BitVec

/-! Bitmaps over an array of machine words, searched from the top word down
with a leading-zero count. The word width and the number of words are free. -/
namespace ILEmu.Foundation

abbrev Bitmap (width : Nat) := List (BitVec width)

namespace Bitmap
variable {width : Nat}

def test (map : Bitmap width) (i : Nat) : Bool :=
  (map.getD (i / width) (BitVec.ofNat width 0)).getLsbD (i % width)

/-- `words[i / width] |= 1 << (i % width)` -/
def set (map : Bitmap width) (i : Nat) : Bitmap width :=
  map.modify (i / width) (· ||| BitVec.twoPow width (i % width))

/-- `words[i / width] &= ~(1 << (i % width))` -/
def clear (map : Bitmap width) (i : Nat) : Bitmap width :=
  map.modify (i / width) (· &&& ~~~BitVec.twoPow width (i % width))

def highestBelow (map : Bitmap width) : Nat → Option Nat
  | 0 => none
  | n + 1 =>
    let word := map.getD n (BitVec.ofNat width 0)
    if word ≠ (BitVec.ofNat width 0) then some (n * width + (width - 1 - word.clz.toNat))
    else highestBelow map n

/-- The highest set bit, the first nonzero word from the top deciding. -/
def highest (map : Bitmap width) : Option Nat :=
  map.highestBelow map.length

@[simp] theorem length_set (map : Bitmap width) (i : Nat) : (map.set i).length = map.length :=
  List.length_modify ..

@[simp] theorem length_clear (map : Bitmap width) (i : Nat) :
    (map.clear i).length = map.length :=
  List.length_modify ..

theorem getD_modify (map : Bitmap width) (f : BitVec width → BitVec width) (n k : Nat)
    (inside : n < map.length) :
    (map.modify n f).getD k (BitVec.ofNat width 0) =
      if k = n then f (map.getD k (BitVec.ofNat width 0))
      else map.getD k (BitVec.ofNat width 0) := by
  simp only [List.getD_eq_getElem?_getD, List.getElem?_modify]
  split
  · subst k
    simp [inside]
  · rename_i other
    simp [Ne.symm other]

theorem word_index_eq {i j : Nat} :
    i / width = j / width ∧ i % width = j % width ↔ i = j := by
  constructor
  · rintro ⟨quotient, remainder⟩
    rw [← Nat.div_add_mod i width, ← Nat.div_add_mod j width, quotient, remainder]
  · rintro rfl
    exact ⟨rfl, rfl⟩

theorem test_set (positive : 0 < width) (map : Bitmap width) {i : Nat}
    (inside : i < map.length * width) (j : Nat) :
    (map.set i).test j = (decide (j = i) || map.test j) := by
  have bound : i / width < map.length := Nat.div_lt_of_lt_mul (by rwa [Nat.mul_comm])
  have short : i % width < width := Nat.mod_lt _ positive
  unfold test set
  rw [getD_modify _ _ _ _ bound]
  by_cases word : j / width = i / width
  · have index := @word_index_eq width j i
    simp only [word, true_and] at index
    simp only [word, if_true, BitVec.getLsbD_or, BitVec.getLsbD_twoPow, short, decide_true,
      Bool.true_and, ← index, eq_comm, Bool.or_comm]
  · have other : j ≠ i := fun same => word (same ▸ rfl)
    simp only [word, if_false, other, decide_false, Bool.false_or]

theorem test_clear (positive : 0 < width) (map : Bitmap width) {i : Nat}
    (inside : i < map.length * width) (j : Nat) :
    (map.clear i).test j = (!decide (j = i) && map.test j) := by
  have bound : i / width < map.length := Nat.div_lt_of_lt_mul (by rwa [Nat.mul_comm])
  have short : i % width < width := Nat.mod_lt _ positive
  have shortJ : j % width < width := Nat.mod_lt _ positive
  unfold test clear
  rw [getD_modify _ _ _ _ bound]
  by_cases word : j / width = i / width
  · have index := @word_index_eq width j i
    simp only [word, true_and] at index
    simp only [word, if_true, BitVec.getLsbD_and, BitVec.getLsbD_not, BitVec.getLsbD_twoPow,
      short, shortJ, decide_true, Bool.true_and, ← index, eq_comm, Bool.and_comm]
  · have other : j ≠ i := fun same => word (same ▸ rfl)
    simp only [word, if_false, other, decide_false, Bool.not_false, Bool.true_and]

theorem not_test_outside (map : Bitmap width) {j : Nat} (outside : map.length ≤ j / width) :
    map.test j = false := by
  unfold test
  rw [List.getD_eq_getElem?_getD, List.getElem?_eq_none outside]
  exact BitVec.getLsbD_zero

theorem highestBelow_none (map : Bitmap width) {n : Nat} (none : map.highestBelow n = none) {j : Nat}
    (below : j / width < n) : map.test j = false := by
  induction n with
  | zero => exact absurd below (Nat.not_lt_zero _)
  | succ n ih =>
    simp only [highestBelow] at none
    split at none
    · contradiction
    · rename_i empty
      have empty : map.getD n (BitVec.ofNat width 0) = (BitVec.ofNat width 0) := Decidable.not_not.mp empty
      rcases Nat.lt_succ_iff_lt_or_eq.mp below with lower | same
      · exact ih none lower
      · rw [test, same, empty]
        exact BitVec.getLsbD_zero

theorem highestBelow_some (positive : 0 < width) (map : Bitmap width) {n i : Nat}
    (found : map.highestBelow n = some i) :
    map.test i = true ∧ ∀ j, j / width < n → map.test j = true → j ≤ i := by
  induction n with
  | zero => contradiction
  | succ n ih =>
    simp only [highestBelow] at found
    split at found
    · rename_i nonzero
      obtain rfl := Option.some.inj found
      have offset : width - 1 - (map.getD n (BitVec.ofNat width 0)).clz.toNat < width := by omega
      have word : (n * width + (width - 1 - (map.getD n (BitVec.ofNat width 0)).clz.toNat)) / width = n := by
        rw [Nat.add_comm, Nat.add_mul_div_right _ _ positive, Nat.div_eq_of_lt offset, Nat.zero_add]
      have bit : (n * width + (width - 1 - (map.getD n (BitVec.ofNat width 0)).clz.toNat)) % width =
          width - 1 - (map.getD n (BitVec.ofNat width 0)).clz.toNat := by
        rw [Nat.mul_comm, Nat.mul_add_mod, Nat.mod_eq_of_lt offset]
      refine ⟨?_, ?_⟩
      · rw [test, word, bit]
        exact BitVec.getLsbD_true_clz_of_ne_zero positive nonzero
      · intro j below set
        rcases Nat.lt_succ_iff_lt_or_eq.mp below with lower | same
        · have := Nat.div_add_mod j width
          have := Nat.mod_lt j positive
          have : (j / width + 1) * width ≤ n * width := Nat.mul_le_mul_right _ lower
          rw [Nat.add_mul, Nat.mul_comm (j / width)] at this
          omega
        · -- bits above the leading-zero position of the top word are clear
          rw [test, same] at set
          have small : j % width ≤ width - 1 - (map.getD n (BitVec.ofNat width 0)).clz.toNat := by
            by_contra above
            have bound := BitVec.toNat_lt_two_pow_sub_clz (x := map.getD n (BitVec.ofNat width 0))
            have weight := Nat.ge_two_pow_of_testBit set
            have : 2 ^ (width - (map.getD n (BitVec.ofNat width 0)).clz.toNat) ≤ 2 ^ (j % width) :=
              Nat.pow_le_pow_right (by omega) (by omega)
            omega
          have := Nat.div_add_mod j width
          rw [same, Nat.mul_comm] at this
          omega
    · rename_i empty
      have empty : map.getD n (BitVec.ofNat width 0) = (BitVec.ofNat width 0) := Decidable.not_not.mp empty
      obtain ⟨set, largest⟩ := ih found
      refine ⟨set, ?_⟩
      intro j below here
      rcases Nat.lt_succ_iff_lt_or_eq.mp below with lower | same
      · exact largest j lower here
      · rw [test, same, empty, BitVec.getLsbD_zero] at here
        contradiction

theorem highest_none (map : Bitmap width) (none : map.highest = none) (j : Nat) :
    map.test j = false := by
  by_cases inside : j / width < map.length
  · exact highestBelow_none map none inside
  · exact not_test_outside map (Nat.not_lt.mp inside)

theorem highest_some (positive : 0 < width) (map : Bitmap width) {i : Nat}
    (found : map.highest = some i) :
    map.test i = true ∧ ∀ j, map.test j = true → j ≤ i := by
  obtain ⟨set, largest⟩ := highestBelow_some positive map found
  refine ⟨set, fun j here => largest j ?_ here⟩
  by_contra outside
  rw [not_test_outside map (Nat.not_lt.mp outside)] at here
  contradiction

end Bitmap
end ILEmu.Foundation
