import Mathlib.Data.BitVec
import Mathlib.Data.List.Forall2

/-! Readers and writers of byte strings that undo each other. A reader takes a value from
the front of a string and leaves the rest. -/
namespace ILEmu.Foundation

abbrev Bytes := List (BitVec 8)

abbrev Read (α : Type*) := Bytes → Option (α × Bytes)

variable {α β : Type*}

/-- The reader accepts what the writer makes of the valid values, and nothing else. -/
def Inverse (valid : α → Prop) (write : α → Bytes) (read : Read α) : Prop :=
  ∀ bytes a rest, read bytes = some (a, rest) ↔ valid a ∧ bytes = write a ++ rest

namespace Inverse
variable {valid : α → Prop} {write : α → Bytes} {read : Read α}

theorem reads (inverse : Inverse valid write read) {a : α} (here : valid a) (rest : Bytes) :
    read (write a ++ rest) = some (a, rest) :=
  (inverse _ a rest).mpr ⟨here, rfl⟩

theorem accepts (inverse : Inverse valid write read) {bytes rest : Bytes} {a : α}
    (found : read bytes = some (a, rest)) : valid a ∧ bytes = write a ++ rest :=
  (inverse bytes a rest).mp found

/-- What follows a read is a read of the rest. -/
theorem bind_iff (inverse : Inverse valid write read) (next : α × Bytes → Option β)
    (bytes : Bytes) (b : β) :
    (read bytes).bind next = some b ↔
      ∃ a, valid a ∧ ∃ rest, bytes = write a ++ rest ∧ next (a, rest) = some b := by
  rw [Option.bind_eq_some_iff]
  constructor
  · rintro ⟨⟨a, rest⟩, found, later⟩
    obtain ⟨here, same⟩ := inverse.accepts found
    exact ⟨a, here, rest, same, later⟩
  · rintro ⟨a, here, rest, rfl, later⟩
    exact ⟨(a, rest), inverse.reads here rest, later⟩

/-- A codec of values that stand for others. -/
theorem map (inverse : Inverse valid write read) (make : α → β) (back : β → α)
    (undo : ∀ a, valid a → back (make a) = a) :
    Inverse (fun b => valid (back b) ∧ make (back b) = b) (fun b => write (back b))
      (fun bytes => (read bytes).map fun (a, rest) => (make a, rest)) := by
  intro bytes b rest
  rw [Option.map_eq_some_iff]
  constructor
  · rintro ⟨⟨a, tail⟩, found, same⟩
    obtain ⟨rfl, rfl⟩ := Prod.mk.inj same
    obtain ⟨here, written⟩ := inverse.accepts found
    dsimp only
    rw [undo a here]
    exact ⟨⟨here, rfl⟩, written⟩
  · rintro ⟨⟨here, same⟩, rfl⟩
    exact ⟨(back b, rest), inverse.reads here rest, congrArg (·, rest) same⟩

end Inverse

/-- Items that are all converted correspond one by one to their results. -/
theorem mapM_eq_some {f : α → Option β} {items : List α} {results : List β} :
    items.mapM f = some results ↔ List.Forall₂ (fun a b => f a = some b) items results := by
  induction items generalizing results with
  | nil =>
    rw [List.mapM_nil, List.forall₂_nil_left_iff]
    exact ⟨fun same => (Option.some.inj same).symm, fun same => congrArg some same.symm⟩
  | cons a rest ih =>
    simp only [List.mapM_cons, Option.bind_eq_bind, Option.bind_eq_some_iff,
      List.forall₂_cons_left_iff, ih]
    constructor
    · rintro ⟨b, first, later, others, same⟩
      exact ⟨b, later, first, others, (Option.some.inj same).symm⟩
    · rintro ⟨b, later, first, others, rfl⟩
      exact ⟨b, first, later, others, rfl⟩

/-- A given number of values, each read with its position in the list. -/
def readMany (read : Nat → Read α) : Nat → Nat → Read (List α)
  | _, 0, bytes => some ([], bytes)
  | index, count + 1, bytes =>
    (read index bytes).bind fun (a, rest) =>
      (readMany read (index + 1) count rest).map fun (later, tail) => (a :: later, tail)

/-- The values of a list are valid at their positions, from the first one on. -/
def ValidFrom (valid : Nat → α → Prop) : Nat → List α → Prop
  | _, [] => True
  | index, a :: rest => valid index a ∧ ValidFrom valid (index + 1) rest

theorem readMany_inverse {valid : Nat → α → Prop} {write : α → Bytes} {read : Nat → Read α}
    (each : ∀ index, Inverse (valid index) write (read index)) (index count : Nat) :
    Inverse (fun values => values.length = count ∧ ValidFrom valid index values)
      (fun values => values.flatMap write) (readMany read index count) := by
  induction count generalizing index with
  | zero =>
    intro bytes values rest
    constructor
    · intro found
      obtain ⟨rfl, rfl⟩ := Prod.mk.inj (Option.some.inj found)
      exact ⟨⟨rfl, trivial⟩, rfl⟩
    · rintro ⟨⟨empty, _⟩, rfl⟩
      obtain rfl := List.length_eq_zero_iff.mp empty
      rfl
  | succ count ih =>
    intro bytes values rest
    rw [readMany, (each index).bind_iff]
    constructor
    · rintro ⟨a, here, tail, rfl, later⟩
      obtain ⟨⟨others, last⟩, found, same⟩ := Option.map_eq_some_iff.mp later
      obtain ⟨rfl, rfl⟩ := Prod.mk.inj same
      obtain ⟨⟨length, valid⟩, rfl⟩ := (ih (index + 1)).accepts found
      refine ⟨⟨by rw [List.length_cons, length], here, valid⟩, ?_⟩
      dsimp only
      rw [List.flatMap_cons, List.append_assoc]
    · rintro ⟨⟨length, valid⟩, rfl⟩
      cases values with
      | nil => contradiction
      | cons a others =>
        refine ⟨a, valid.1, others.flatMap write ++ rest, ?_, ?_⟩
        · dsimp only
          rw [List.flatMap_cons, List.append_assoc]
        · have found := (ih (index + 1)).reads ⟨Nat.succ.inj length, valid.2⟩ rest
          dsimp only
          rw [found]
          rfl

theorem validFrom_iff {valid : Nat → α → Prop} {index : Nat} {values : List α} :
    ValidFrom valid index values ↔ ∀ i (_ : i < values.length), valid (index + i) values[i] := by
  induction values generalizing index with
  | nil => simp [ValidFrom]
  | cons a rest ih =>
    rw [ValidFrom, ih]
    constructor
    · rintro ⟨first, later⟩ i bound
      cases i with
      | zero => exact first
      | succ i =>
        have here := later i (Nat.lt_of_succ_lt_succ bound)
        rw [Nat.add_assoc, Nat.add_comm 1 i] at here
        exact here
    · intro all
      refine ⟨all 0 (Nat.zero_lt_succ _), fun i bound => ?_⟩
      have here := all (i + 1) (Nat.succ_lt_succ bound)
      rw [Nat.add_assoc, Nat.add_comm 1 i]
      exact here

def readByte : Read (BitVec 8)
  | [] => none
  | byte :: rest => some (byte, rest)

theorem readByte_inverse : Inverse (fun _ => True) (fun byte => [byte]) readByte := by
  intro bytes byte rest
  cases bytes with
  | nil => simp [readByte]
  | cons first others => simp [readByte]

/-- So many bytes of a number, the low one first. -/
def littleEndian : Nat → Nat → Bytes
  | 0, _ => []
  | count + 1, value => BitVec.ofNat 8 value :: littleEndian count (value / 256)

def readLittleEndian : Nat → Read Nat
  | 0, bytes => some (0, bytes)
  | count + 1, bytes =>
    (readByte bytes).bind fun (byte, rest) =>
      (readLittleEndian count rest).map fun (value, tail) => (byte.toNat + 256 * value, tail)

theorem readLittleEndian_inverse (count : Nat) :
    Inverse (fun value => value < 256 ^ count) (littleEndian count) (readLittleEndian count) := by
  induction count with
  | zero =>
    intro bytes value rest
    simp only [readLittleEndian, littleEndian, Option.some.injEq, Prod.mk.injEq, pow_zero,
      Nat.lt_one_iff, List.nil_append]
    exact and_congr_left' eq_comm
  | succ count ih =>
    intro bytes value rest
    rw [readLittleEndian, readByte_inverse.bind_iff]
    constructor
    · rintro ⟨byte, _, tail, rfl, later⟩
      obtain ⟨⟨high, last⟩, found, same⟩ := Option.map_eq_some_iff.mp later
      obtain ⟨rfl, rfl⟩ := Prod.mk.inj same
      obtain ⟨bound, rfl⟩ := ih.accepts found
      have small := byte.isLt
      have quotient : (byte.toNat + 256 * high) / 256 = high := by omega
      have low : BitVec.ofNat 8 (byte.toNat + 256 * high) = byte := by
        apply BitVec.eq_of_toNat_eq
        rw [BitVec.toNat_ofNat]
        omega
      refine ⟨?_, ?_⟩
      · rw [Nat.pow_succ]
        omega
      · rw [littleEndian, quotient, low]
        rfl
    · rintro ⟨bound, rfl⟩
      rw [Nat.pow_succ] at bound
      refine ⟨BitVec.ofNat 8 value, trivial, littleEndian count (value / 256) ++ rest, rfl, ?_⟩
      have found := ih.reads (a := value / 256) (by omega) rest
      dsimp only
      rw [found, Option.map_some, BitVec.toNat_ofNat]
      congr 2
      omega

/-- A word of so many bytes. -/
def word (count : Nat) (value : BitVec (8 * count)) : Bytes := littleEndian count value.toNat

def readWord (count : Nat) : Read (BitVec (8 * count)) := fun bytes =>
  (readLittleEndian count bytes).map fun (value, rest) => (BitVec.ofNat (8 * count) value, rest)

theorem readWord_inverse (count : Nat) :
    Inverse (fun _ => True) (word count) (readWord count) := by
  have power : 256 ^ count = 2 ^ (8 * count) := by
    rw [Nat.pow_mul]
  have undo : ∀ value, value < 256 ^ count → (BitVec.ofNat (8 * count) value).toNat = value := by
    intro value bound
    rw [BitVec.toNat_ofNat]
    exact Nat.mod_eq_of_lt (power ▸ bound)
  have inverse := Inverse.map (readLittleEndian_inverse count) (BitVec.ofNat (8 * count))
    (fun value => value.toNat) undo
  intro bytes value rest
  refine (inverse bytes value rest).trans (and_congr_left' ?_)
  refine iff_of_true ⟨?_, (BitVec.ofNat_toNat _ value).trans (BitVec.setWidth_eq value)⟩ trivial
  exact power ▸ value.isLt

/-- So many bytes as they are. -/
def readRaw (count : Nat) : Read Bytes := fun bytes =>
  if count ≤ bytes.length then some (bytes.take count, bytes.drop count) else none

theorem readRaw_inverse (count : Nat) :
    Inverse (fun raw => raw.length = count) id (readRaw count) := by
  intro bytes raw rest
  unfold readRaw
  constructor
  · intro found
    split at found
    · rename_i enough
      obtain ⟨rfl, rfl⟩ := Prod.mk.inj (Option.some.inj found)
      exact ⟨List.length_take_of_le enough, (List.take_append_drop count bytes).symm⟩
    · contradiction
  · rintro ⟨rfl, rfl⟩
    simp

end ILEmu.Foundation
