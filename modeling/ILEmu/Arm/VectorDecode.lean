import ILEmu.Arm.DualTransfer

/-! Decoding of the instructions that transfer extension registers. -/
namespace ILEmu.Arm

inductive VfpRegisterProfile where
  | d16 | d32
  deriving DecidableEq, Repr

/-- The double register that an encoding names. -/
def doubleRegister (word : Word) : Nat :=
  16 * (word.extractLsb' 22 1).toNat + (word.extractLsb' 12 4).toNat

def singleRegister (word : Word) : Nat :=
  2 * (word.extractLsb' 12 4).toNat + (word.extractLsb' 22 1).toNat

/-- Whole registers. Nothing for a structure that interleaves, and no operands for an alignment
that is not defined. -/
def simdMultipleOperands (word : Word) : Option (Option VectorTransferOperands) :=
  let align := (word.extractLsb' 4 2).toNat
  let count? := match (word.extractLsb' 8 4).toNat with
    | 7 => some 1
    | 10 => some 2
    | 6 => some 3
    | 2 => some 4
    | _ => none
  count?.map fun count =>
    if ((count = 1 ∨ count = 3) ∧ 2 ≤ align) ∨ (count = 2 ∧ align = 3) then none
    else
      some { count, elementSize := 2 ^ (word.extractLsb' 6 2).toNat
             alignment := if align = 0 then 1 else BitVec.ofNat 32 (4 * 2 ^ align) }

/-- One element that is loaded into every lane. -/
def simdReplicateOperands (word : Word) : Option VectorTransferOperands :=
  let index := (word.extractLsb' 4 4).toNat
  let element := (word.extractLsb' 6 2).toNat
  if word.getLsbD 21 = false ∨ element = 3 ∨ (element = 0 ∧ index % 2 ≠ 0) then none
  else
    some { mode := .replicate, elementSize := 2 ^ element
           count := if index.testBit 1 then 2 else 1
           alignment := if index % 2 ≠ 0 then BitVec.ofNat 32 (2 ^ element) else 1 }

/-- One lane of a register. -/
def simdLaneOperands (word : Word) : Option VectorTransferOperands :=
  let size := (word.extractLsb' 10 2).toNat
  let index := (word.extractLsb' 4 4).toNat
  if (size = 0 ∧ index % 2 ≠ 0) ∨ (size = 1 ∧ index.testBit 1 = true) ∨
      (size = 2 ∧ (index.testBit 2 = true ∨ (index % 4 ≠ 0 ∧ index % 4 ≠ 3))) then none
  else
    some { mode := .lane, count := 1, elementSize := 2 ^ size, lane := index / 2 ^ (size + 1)
           alignment := if index % 2 ≠ 0 then BitVec.ofNat 32 (2 ^ size) else 1 }

def simdOperands (word : Word) : Option (Option VectorTransferOperands) :=
  if word.getLsbD 23 = false then simdMultipleOperands word
  else if word &&& 0x300 ≠ 0 then none
  else if word.extractLsb' 10 2 = 3 then some (simdReplicateOperands word)
  else some (simdLaneOperands word)

/-- Nothing if the word is of another family. What is not supported stays so. -/
def decodeSimdTransfer (out : Instruction) (word : Word) (thumb : Bool) : Option Instruction :=
  if word &&& 0xff100000 ≠ (if thumb then 0xf9000000 else 0xf4000000) then none
  else
    (simdOperands word).map fun operands =>
      match operands with
      | none => out
      | some operands =>
        let named := { out with rn := registerAt word 16, rm := registerAt word 0 }
        if named.rn = programCounter ∨ 32 < doubleRegister word + operands.count then named
        else
          { named with
            load := word.getLsbD 21, writeback := !decide (named.rm = programCounter)
            vector := { operands with first := doubleRegister word }
            condition := if thumb then out.condition else 14
            kind := .vectorTransfer }

/-- The words of the coprocessor that a family takes. -/
def coprocessorSpace (out : Instruction) (word : Word) (thumb : Bool) : Bool :=
  if thumb then word.extractLsb' 28 4 = 14 else out.condition ≠ 15

def decodeVfpMultiple (out : Instruction) (word : Word) (thumb : Bool)
    (profile : VfpRegisterProfile) : Option Instruction :=
  let pre := word.getLsbD 24
  let add := word.getLsbD 23
  let writeback := word.getLsbD 21
  if word &&& 0x0e000e00 ≠ 0x0c000a00 ∨ coprocessorSpace out word thumb = false then none
  -- The other combinations are transfers of one register or of core registers.
  else if (pre = false ∧ add = false ∧ writeback = false) ∨ (pre = true ∧ writeback = false) then
    none
  else if pre = add ∧ writeback = true then some out
  else
    let rn := registerAt word 16
    let single := !word.getLsbD 8
    let first := if single then singleRegister word else doubleRegister word
    let immediate := (word.extractLsb' 0 8).toNat
    let count := if single then immediate else immediate / 2
    if (rn = programCounter ∧ (thumb = true ∨ writeback = true)) ∨ count = 0 ∨
        32 < first + count ∨ (single = false ∧ (16 < count ∨
          ((profile = .d16 ∨ immediate % 2 ≠ 0) ∧ 16 < first + count))) then some out
    else
      some { out with
        kind := .vectorTransfer, rn, load := word.getLsbD 20, add, index := pre, writeback
        -- An odd count of a deprecated form leaves out the last word and counts it for the base.
        immediate := BitVec.ofNat 32 (immediate * 4)
        vector := { first, count, elementSize := if single then 4 else 8, alignment := 4
                    mode := .scalarMultiple, lane := 0 } }

def decodeVfpScalar (out : Instruction) (word : Word) (thumb : Bool)
    (bank : VfpRegisterProfile) (armv6t2Extensions : Bool) : Option Instruction :=
  if word &&& 0x0f200e00 ≠ 0x0d000a00 ∨ coprocessorSpace out word thumb = false then none
  else
    let single := !word.getLsbD 8
    let first := if single then singleRegister word else doubleRegister word
    let rn := registerAt word 16
    let load := word.getLsbD 20
    if (thumb = true ∧ (armv6t2Extensions = false ∨ (rn = programCounter ∧ load = false))) ∨
        (single = false ∧ bank = .d16 ∧ 16 ≤ first) then some out
    else
      some { out with
        kind := .vectorTransfer, rn, load, add := word.getLsbD 23, index := true
        alignPc := load && decide (rn = programCounter)
        immediate := BitVec.ofNat 32 ((word.extractLsb' 0 8).toNat * 4)
        vector := { first, count := 1, elementSize := if single then 4 else 8, alignment := 4
                    mode := .scalarMultiple, lane := 0 } }

/-- The transfers of extension registers among the words of ARM state. The families that are tried
before these take words and leave the rest, and the instruction, as they were. -/
def decodeA32Vector (word : Word) (bank : VfpRegisterProfile) (armv6t2Extensions : Bool) :
    Option Instruction :=
  let out : Instruction := { condition := (word.extractLsb' 28 4).toNat }
  match (word.extractLsb' 25 3).toNat with
  | 2 => decodeSimdTransfer out word false
  | 6 | 7 =>
    (decodeVfpScalar out word false bank armv6t2Extensions).or
      (decodeVfpMultiple out word false bank)
  | _ => none

/-- The same of the wide words of Thumb state, in an IT block or outside of one. -/
def decodeT32Vector (word : Word) (it : Nat) (bank : VfpRegisterProfile)
    (armv6t2Extensions : Bool) : Option Instruction :=
  let out : Instruction := { size := 4, pcOffset := 4, condition := if it = 0 then 14 else it / 16 }
  ((decodeVfpScalar out word true bank armv6t2Extensions).or
    (decodeVfpMultiple out word true bank)).or (decodeSimdTransfer out word true)

/-! ### What is decoded -/

/-- Operands that stay within the extension registers. -/
def VectorTransferOperands.InBank (operands : VectorTransferOperands) : Prop :=
  match operands.mode with
  | .multiple =>
    operands.elementSize ∈ [1, 2, 4, 8] ∧ operands.first + operands.count ≤ 32 ∧ operands.lane = 0
  | .lane =>
    operands.elementSize ∈ [1, 2, 4] ∧ operands.first < 32 ∧ operands.count = 1 ∧
      (operands.lane + 1) * operands.elementSize ≤ 8
  | .replicate =>
    operands.elementSize ∈ [1, 2, 4] ∧ 0 < operands.count ∧
      operands.first + operands.count ≤ 32 ∧ operands.lane = 0
  | .scalarMultiple =>
    operands.elementSize ∈ [4, 8] ∧ operands.first + operands.count ≤ 32 ∧ operands.lane = 0

structure DecodedVector (inst : Instruction) : Prop where
  bank : inst.vector.InBank
  some_ : 0 < inst.vector.count
  base : inst.writeback = true → inst.rn ≠ programCounter
  size : inst.size = 4

theorem singleRegister_lt (word : Word) : singleRegister word < 32 := by
  have low := (word.extractLsb' 12 4).isLt
  have high := (word.extractLsb' 22 1).isLt
  unfold singleRegister
  omega

theorem doubleRegister_lt (word : Word) : doubleRegister word < 32 := by
  have low := (word.extractLsb' 12 4).isLt
  have high := (word.extractLsb' 22 1).isLt
  unfold doubleRegister
  omega

/-- Operands of an extension that only lack their first register. -/
def VectorTransferOperands.Fits (operands : VectorTransferOperands) : Prop :=
  0 < operands.count ∧ ∀ first, first + operands.count ≤ 32 →
    ({ operands with first } : VectorTransferOperands).InBank

theorem power_mem {n : Nat} (bound : n < 4) : 2 ^ n ∈ [1, 2, 4, 8] := by
  revert n
  decide

theorem simdMultipleOperands_fits {word : Word} {operands : VectorTransferOperands}
    (found : simdMultipleOperands word = some (some operands)) : operands.Fits := by
  unfold simdMultipleOperands at found
  dsimp only at found
  obtain ⟨count, named, result⟩ := Option.map_eq_some_iff.mp found
  have positive : 0 < count := by
    split at named
    all_goals first | contradiction | (obtain rfl := Option.some.inj named; decide)
  split at result
  · contradiction
  · obtain rfl := Option.some.inj result
    exact ⟨positive, fun first inside => ⟨power_mem (word.extractLsb' 6 2).isLt, inside, rfl⟩⟩

theorem simdReplicateOperands_fits {word : Word} {operands : VectorTransferOperands}
    (found : simdReplicateOperands word = some operands) : operands.Fits := by
  unfold simdReplicateOperands at found
  dsimp only at found
  split at found
  · contradiction
  · rename_i defined
    obtain rfl := Option.some.inj found
    have bound := (word.extractLsb' 6 2).isLt
    have small : 2 ^ (word.extractLsb' 6 2).toNat ∈ [1, 2, 4] := by
      have below : ∀ n < 3, 2 ^ n ∈ [1, 2, 4] := by decide
      exact below _ (by omega)
    refine ⟨?_, fun first inside => ⟨small, ?_, inside, rfl⟩⟩
    · dsimp only
      split <;> decide
    · dsimp only
      split <;> decide

theorem simdLaneOperands_fits {word : Word} {operands : VectorTransferOperands}
    (other : word.extractLsb' 10 2 ≠ 3) (found : simdLaneOperands word = some operands) :
    operands.Fits := by
  unfold simdLaneOperands at found
  dsimp only at found
  split at found
  · contradiction
  · obtain rfl := Option.some.inj found
    have size : (word.extractLsb' 10 2).toNat < 3 := by
      have bound := (word.extractLsb' 10 2).isLt
      have different : (word.extractLsb' 10 2).toNat ≠ 3 := fun same =>
        other (BitVec.eq_of_toNat_eq same)
      omega
    have index := (word.extractLsb' 4 4).isLt
    generalize (word.extractLsb' 10 2).toNat = n at size ⊢
    generalize (word.extractLsb' 4 4).toNat = i at index ⊢
    have small : 2 ^ n ∈ [1, 2, 4] := by
      have below : ∀ n < 3, 2 ^ n ∈ [1, 2, 4] := by decide
      exact below n size
    have room : (i / 2 ^ (n + 1) + 1) * 2 ^ n ≤ 8 := by
      have all : ∀ n < 3, ∀ i < 16, (i / 2 ^ (n + 1) + 1) * 2 ^ n ≤ 8 := by decide
      exact all n size i index
    exact ⟨Nat.one_pos, fun first inside => ⟨small, inside, rfl, room⟩⟩

theorem simdOperands_fits {word : Word} {operands : VectorTransferOperands}
    (found : simdOperands word = some (some operands)) : operands.Fits := by
  unfold simdOperands at found
  split at found
  · exact simdMultipleOperands_fits found
  · split at found
    · contradiction
    · split at found
      · exact simdReplicateOperands_fits (Option.some.inj found)
      · rename_i other
        exact simdLaneOperands_fits other (Option.some.inj found)

theorem decodeSimdTransfer_decoded {out inst : Instruction} {word : Word} {thumb : Bool}
    (fresh : out.kind = .unsupported) (size : out.size = 4)
    (decoded : decodeSimdTransfer out word thumb = some inst)
    (kind : inst.kind = .vectorTransfer) : DecodedVector inst := by
  unfold decodeSimdTransfer at decoded
  by_cases other : word &&& 0xff100000 ≠ (if thumb then 0xf9000000 else 0xf4000000)
  · rw [if_pos other] at decoded
    contradiction
  · rw [if_neg other] at decoded
    obtain ⟨operands, found, rfl⟩ := Option.map_eq_some_iff.mp decoded
    have plain : out.kind ≠ .vectorTransfer := by
      rw [fresh]
      decide
    dsimp only at kind ⊢
    cases operands with
    | none => exact absurd kind plain
    | some operands =>
      dsimp only at kind ⊢
      split at kind
      · exact absurd kind plain
      · rename_i inside
        rw [if_neg inside]
        obtain ⟨base, room⟩ := not_or.mp inside
        obtain ⟨positive, bank⟩ := simdOperands_fits found
        exact ⟨bank _ (Nat.le_of_not_lt room), positive, fun _ => base, size⟩

theorem scalarSize_mem (single : Bool) : (if single = true then 4 else 8) ∈ [4, 8] := by
  cases single <;> decide

theorem decodeVfpMultiple_decoded {out inst : Instruction} {word : Word} {thumb : Bool}
    {profile : VfpRegisterProfile} (fresh : out.kind = .unsupported) (size : out.size = 4)
    (decoded : decodeVfpMultiple out word thumb profile = some inst)
    (kind : inst.kind = .vectorTransfer) : DecodedVector inst := by
  have plain : out.kind ≠ .vectorTransfer := by
    rw [fresh]
    decide
  unfold decodeVfpMultiple at decoded
  dsimp only at decoded
  split at decoded
  · contradiction
  · split at decoded
    · contradiction
    · split at decoded
      · obtain rfl := Option.some.inj decoded
        exact absurd kind plain
      · have sizes := scalarSize_mem (!word.getLsbD 8)
        generalize (if (!word.getLsbD 8) = true then singleRegister word else doubleRegister word) =
          first at decoded
        generalize (if (!word.getLsbD 8) = true then (word.extractLsb' 0 8).toNat
          else (word.extractLsb' 0 8).toNat / 2) = count at decoded
        generalize (if (!word.getLsbD 8) = true then 4 else 8) = elementSize at decoded sizes
        split at decoded
        · obtain rfl := Option.some.inj decoded
          exact absurd kind plain
        · rename_i inside
          obtain rfl := Option.some.inj decoded
          simp only [not_or, not_and] at inside
          obtain ⟨base, positive, room, -⟩ := inside
          exact ⟨⟨sizes, Nat.le_of_not_lt room, rfl⟩, Nat.pos_of_ne_zero positive,
            fun writeback same => (base same).2 writeback, size⟩

theorem decodeVfpScalar_decoded {out inst : Instruction} {word : Word} {thumb : Bool}
    {bank : VfpRegisterProfile} {armv6t2Extensions : Bool} (fresh : out.kind = .unsupported)
    (size : out.size = 4) (kept : out.writeback = false)
    (decoded : decodeVfpScalar out word thumb bank armv6t2Extensions = some inst)
    (kind : inst.kind = .vectorTransfer) : DecodedVector inst := by
  have plain : out.kind ≠ .vectorTransfer := by
    rw [fresh]
    decide
  unfold decodeVfpScalar at decoded
  dsimp only at decoded
  split at decoded
  · contradiction
  · have sizes := scalarSize_mem (!word.getLsbD 8)
    have room : (if (!word.getLsbD 8) = true then singleRegister word else doubleRegister word) < 32 := by
      split
      · exact singleRegister_lt word
      · exact doubleRegister_lt word
    generalize (if (!word.getLsbD 8) = true then singleRegister word else doubleRegister word) =
      first at decoded room
    generalize (if (!word.getLsbD 8) = true then 4 else 8) = elementSize at decoded sizes
    split at decoded
    · obtain rfl := Option.some.inj decoded
      exact absurd kind plain
    · obtain rfl := Option.some.inj decoded
      exact ⟨⟨sizes, room, rfl⟩, Nat.one_pos,
        fun writeback => absurd (kept.symm.trans writeback) Bool.false_ne_true, size⟩

theorem decodeA32Vector_decoded {word : Word} {bank : VfpRegisterProfile}
    {armv6t2Extensions : Bool} {inst : Instruction}
    (decoded : decodeA32Vector word bank armv6t2Extensions = some inst)
    (kind : inst.kind = .vectorTransfer) : DecodedVector inst := by
  unfold decodeA32Vector at decoded
  dsimp only at decoded
  split at decoded
  · exact decodeSimdTransfer_decoded rfl rfl decoded kind
  · obtain scalar | ⟨_, multiple⟩ := Option.or_eq_some_iff.mp decoded
    · exact decodeVfpScalar_decoded rfl rfl rfl scalar kind
    · exact decodeVfpMultiple_decoded rfl rfl multiple kind
  · obtain scalar | ⟨_, multiple⟩ := Option.or_eq_some_iff.mp decoded
    · exact decodeVfpScalar_decoded rfl rfl rfl scalar kind
    · exact decodeVfpMultiple_decoded rfl rfl multiple kind
  · contradiction

theorem decodeT32Vector_decoded {word : Word} {it : Nat} {bank : VfpRegisterProfile}
    {armv6t2Extensions : Bool} {inst : Instruction}
    (decoded : decodeT32Vector word it bank armv6t2Extensions = some inst)
    (kind : inst.kind = .vectorTransfer) : DecodedVector inst := by
  unfold decodeT32Vector at decoded
  dsimp only at decoded
  obtain vfp | ⟨_, simd⟩ := Option.or_eq_some_iff.mp decoded
  · obtain scalar | ⟨_, multiple⟩ := Option.or_eq_some_iff.mp vfp
    · exact decodeVfpScalar_decoded rfl rfl rfl scalar kind
    · exact decodeVfpMultiple_decoded rfl rfl multiple kind
  · exact decodeSimdTransfer_decoded rfl rfl simd kind

end ILEmu.Arm
