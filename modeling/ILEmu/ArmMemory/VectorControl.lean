import ILEmu.Arm.VectorDecode
import ILEmu.ArmMemory.VectorTransfer
import ILEmu.Foundation.ExactWords

/-! The word that a vector transfer is packed into loses nothing of what is decoded. -/
namespace ILEmu.ArmMemory
open Arm Foundation

def VectorTransferMode.number : VectorTransferMode → Nat
  | .multiple => 0
  | .lane => 1
  | .replicate => 2
  | .scalarMultiple => 3

def vectorTransferMode : Nat → VectorTransferMode
  | 0 => .multiple
  | 1 => .lane
  | 2 => .replicate
  | _ => .scalarMultiple

def vectorLoad : Word := BitVec.twoPow 32 19

def vectorWriteback : Word := BitVec.twoPow 32 20

/-- `vector_control`: five bits of the first register, six of the count, four of the size of an
element and of the base, two flags, three bits of the instruction's size, two of the mode and three
of the lane. -/
def vectorControlWord (inst : Instruction) : Word :=
  BitVec.ofNat 32 inst.vector.first ||| (BitVec.ofNat 32 inst.vector.count <<< 5) |||
    (BitVec.ofNat 32 inst.vector.elementSize <<< 11) ||| (BitVec.ofNat 32 inst.rn.val <<< 15) |||
    (if inst.load then vectorLoad else 0) ||| (if inst.writeback then vectorWriteback else 0) |||
    (BitVec.ofNat 32 inst.size <<< 21) |||
    (BitVec.ofNat 32 (VectorTransferMode.number inst.vector.mode) <<< 24) |||
    (BitVec.ofNat 32 inst.vector.lane <<< 26)

/-- What `complete_vector` takes out of the word. -/
def unpackedControl (control : Word) : VectorControl where
  first := (control.extractLsb' 0 5).toNat
  count := (control.extractLsb' 5 6).toNat
  elementSize := (control.extractLsb' 11 4).toNat
  rn := (control.extractLsb' 15 4).toFin
  load := control.getLsbD 19
  writeback := control.getLsbD 20
  size := (control.extractLsb' 21 3).toNat
  mode := vectorTransferMode (control.extractLsb' 24 2).toNat
  lane := (control.extractLsb' 26 3).toNat

/-! ### Fields -/

inductive ControlField where
  | first | count | elementSize | base | load | writeback | size | mode | lane
  deriving DecidableEq

namespace ControlField

def all : List ControlField :=
  [first, count, elementSize, base, load, writeback, size, mode, lane]

def place : ControlField → Nat
  | first => 0
  | count => 5
  | elementSize => 11
  | base => 15
  | load => 19
  | writeback => 20
  | size => 21
  | mode => 24
  | lane => 26

def bits : ControlField → Nat
  | first => 5
  | count => 6
  | elementSize | base => 4
  | load | writeback => 1
  | size | lane => 3
  | mode => 2

def value (inst : Instruction) : ControlField → Nat
  | first => inst.vector.first
  | count => inst.vector.count
  | elementSize => inst.vector.elementSize
  | base => inst.rn.val
  | load => inst.load.toNat
  | writeback => inst.writeback.toNat
  | size => inst.size
  | mode => VectorTransferMode.number inst.vector.mode
  | lane => inst.vector.lane

theorem mem_all (field : ControlField) : field ∈ all := by
  cases field <;> decide

theorem apart (field other : ControlField) : other = field ∨
    other.place + other.bits ≤ field.place ∨ field.place + field.bits ≤ other.place := by
  cases field <;> cases other <;> decide

theorem inside (field : ControlField) : field.place + field.bits ≤ 32 := by
  cases field <;> decide

end ControlField

theorem vectorControlWord_eq (inst : Instruction) : vectorControlWord inst =
    packed (fun field => BitVec.ofNat 32 (ControlField.value inst field)) ControlField.place
      ControlField.all := by
  have load : (if inst.load then vectorLoad else 0) = BitVec.ofNat 32 inst.load.toNat <<< 19 := by
    cases inst.load <;> rfl
  have writeback : (if inst.writeback then vectorWriteback else 0) =
      BitVec.ofNat 32 inst.writeback.toNat <<< 20 := by
    cases inst.writeback <;> rfl
  unfold vectorControlWord
  rw [load, writeback]
  simp [packed, ControlField.all, ControlField.place, ControlField.value]

theorem decoded_bounds {inst : Instruction} (decoded : DecodedVector inst) :
    inst.vector.first < 32 ∧ inst.vector.count ≤ 32 ∧ inst.vector.elementSize ≤ 8 ∧
      inst.vector.lane < 8 := by
  have positive := decoded.some_
  have bank := decoded.bank
  unfold VectorTransferOperands.InBank at bank
  simp only [List.mem_cons, List.not_mem_nil, or_false] at bank
  split at bank
  · omega
  · obtain ⟨size, first, count, room⟩ := bank
    obtain size | size | size := size <;> rw [size] at room ⊢ <;> omega
  · omega
  · omega

/-- Every value of a decoded transfer fits its field. -/
theorem value_lt {inst : Instruction} (decoded : DecodedVector inst) (field : ControlField) :
    ControlField.value inst field < 2 ^ field.bits := by
  obtain ⟨first, count, size, lane⟩ := decoded_bounds decoded
  cases field with
  | first => exact first
  | count => exact Nat.lt_of_le_of_lt count (by decide)
  | elementSize => exact Nat.lt_of_le_of_lt size (by decide)
  | base => exact inst.rn.isLt
  | load => exact Bool.toNat_lt inst.load
  | writeback => exact Bool.toNat_lt inst.writeback
  | size =>
    change inst.size < 8
    rw [decoded.size]
    decide
  | mode =>
    change VectorTransferMode.number inst.vector.mode < 4
    cases inst.vector.mode <;> decide
  | lane => exact lane

/-- A field is read back from the word. -/
theorem extract_field {inst : Instruction} (decoded : DecodedVector inst) (field : ControlField) :
    ((vectorControlWord inst).extractLsb' field.place field.bits).toNat =
      ControlField.value inst field := by
  have bound := value_lt decoded field
  have narrow : field.bits ≤ 6 := by cases field <;> decide
  have small : ControlField.value inst field < 2 ^ 32 :=
    Nat.lt_of_lt_of_le bound (Nat.pow_le_pow_right (by decide) (by omega))
  rw [vectorControlWord_eq, extractLsb'_packed
    (fun other _ => getLsbD_ofNat_of_lt (value_lt decoded other)) (ControlField.mem_all field)
    field.inside (fun other _ => field.apart other), BitVec.toNat_setWidth, BitVec.toNat_ofNat,
    Nat.mod_eq_of_lt small, Nat.mod_eq_of_lt bound]

theorem unpackedControl_packed {inst : Instruction} (decoded : DecodedVector inst) :
    unpackedControl (vectorControlWord inst) = vectorControl inst := by
  have field := extract_field decoded
  have flag : ∀ (place : Nat) (flag : Bool),
      ((vectorControlWord inst).extractLsb' place 1).toNat = flag.toNat →
      (vectorControlWord inst).getLsbD place = flag := by
    intro place flag same
    have bit := congrArg (Nat.testBit · 0) same
    have low : flag.toNat.testBit 0 = flag := by cases flag <;> rfl
    have high : ((vectorControlWord inst).extractLsb' place 1).toNat.testBit 0 =
        (vectorControlWord inst).getLsbD place := by
      rw [BitVec.testBit_toNat, BitVec.getLsbD_extractLsb']
      rfl
    exact high.symm.trans (bit.trans low)
  unfold unpackedControl vectorControl
  congr 1
  · exact field .first
  · exact field .count
  · exact field .elementSize
  · exact Fin.ext (field .base)
  · exact flag 19 inst.load (field .load)
  · exact flag 20 inst.writeback (field .writeback)
  · exact field .size
  · have mode := field .mode
    change ((vectorControlWord inst).extractLsb' 24 2).toNat = _ at mode
    rw [mode]
    change vectorTransferMode (VectorTransferMode.number inst.vector.mode) = inst.vector.mode
    cases inst.vector.mode <;> rfl
  · exact field .lane

end ILEmu.ArmMemory
