import ILEmu.ArmInterpreter.ExactSaturation

/-! The arithmetic of lanes computes the exact sum or difference of every lane, truncated, and sets
the flags of the lanes by it. -/
namespace ILEmu.ArmInterpreter
open Arm Foundation

/-! ### What is decoded -/

theorem decodeParallelArithmetic_form {out inst : Instruction} {word : Word} {thumb : Bool}
    {profile : ArmInstructionProfile}
    (decoded : decodeParallelArithmetic out word thumb profile = some (some inst)) :
    inst.kind = .parallelArithmetic ∧
      ∃ operation : ParallelArithmeticOperation, inst.opcode = operation.opcode := by
  have finished : ∀ operation signed rd rn rm, finishParallel out operation signed rd rn rm =
      some inst → inst.kind = .parallelArithmetic ∧
        ∃ operation : ParallelArithmeticOperation, inst.opcode = operation.opcode := by
    intro operation signed rd rn rm finished
    unfold finishParallel at finished
    split at finished
    · contradiction
    · rename_i operation
      split at finished
      · contradiction
      · obtain rfl := Option.some.inj finished
        exact ⟨rfl, operation, rfl⟩
  unfold decodeParallelArithmetic at decoded
  dsimp only at decoded
  split at decoded
  · obtain ⟨⟨operation, signed⟩, _, result⟩ := Option.map_eq_some_iff.mp decoded
    dsimp only at result
    split at result
    · contradiction
    · exact finished _ _ _ _ _ result
  · split at decoded
    · contradiction
    · obtain ⟨⟨operation, signed⟩, _, result⟩ := Option.map_eq_some_iff.mp decoded
      exact finished _ _ _ _ _ result

/-! ### Exact lanes -/

def ParallelArithmeticOperation.width : ParallelArithmeticOperation → Nat
  | .add8 | .subtract8 | .select => 8
  | _ => 16

/-- The lanes that are differences. -/
def ParallelArithmeticOperation.subtracts (operation : ParallelArithmeticOperation) (lane : Nat) :
    Bool :=
  match operation with
  | .subtract16 | .subtract8 => true
  | .addSubtract => lane = 0
  | .subtractAdd => lane = 1
  | _ => false

/-- The lane of the second operand that goes with one of the first. -/
def ParallelArithmeticOperation.partner (operation : ParallelArithmeticOperation) (lane : Nat) :
    Nat :=
  match operation with
  | .addSubtract | .subtractAdd => 1 - lane
  | _ => lane

/-- The number that a lane of a word holds. -/
def laneNumber (signed : Bool) (width : Nat) (value : Word) (lane : Nat) : Int :=
  number signed (value.extractLsb' (lane * width) width)

def exactLane (operation : ParallelArithmeticOperation) (signed : Bool) (first second : Word)
    (lane : Nat) : Int :=
  let a := laneNumber signed operation.width first lane
  let b := laneNumber signed operation.width second (operation.partner lane)
  if operation.subtracts lane then a - b else a + b

/-- What a lane says in its flags: that a signed number or a difference is not negative, or that an
unsigned sum is carried out of the lane. -/
def laneFlag (operation : ParallelArithmeticOperation) (signed : Bool) (first second : Word)
    (lane : Nat) : Bool :=
  let exact := exactLane operation signed first second lane
  if signed || operation.subtracts lane then decide (0 ≤ exact)
  else decide (2 ^ operation.width ≤ exact)

structure IsExactLanes (operation : ParallelArithmeticOperation) (signed : Bool)
    (first second cpsr : Word) (result : AluResult) : Prop where
  value : ∀ lane < 32 / operation.width,
    result.value.extractLsb' (lane * operation.width) operation.width =
      BitVec.ofInt operation.width (exactLane operation signed first second lane)
  status : ∀ bit, result.cpsr.getLsbD bit =
    if 16 ≤ bit ∧ bit < 20 then
      laneFlag operation signed first second ((bit - 16) / (operation.width / 8))
    else cpsr.getLsbD bit

/-- Every byte is chosen by its flag, and the flags stay. -/
structure IsSelection (first second cpsr : Word) (result : AluResult) : Prop where
  value : ∀ byte < 4, result.value.extractLsb' (byte * 8) 8 =
    (if cpsr.getLsbD (16 + byte) then first else second).extractLsb' (byte * 8) 8
  status : result.cpsr = cpsr

/-! ### The loop over the lanes -/

theorem foldl_pair {α β γ : Type} (f : α → γ → α) (g : β → γ → β) (entries : List γ) :
    ∀ a b, entries.foldl (fun (pair : α × β) entry => (f pair.1 entry, g pair.2 entry)) (a, b) =
      (entries.foldl f a, entries.foldl g b) := by
  induction entries with
  | nil => exact fun _ _ => rfl
  | cons entry rest ih => exact fun a b => ih (f a entry) (g b entry)

/-- What the loop computes of the lane at a place. -/
def placeSum (layout : ParallelArithmeticLayout) (signed : Bool) (first second : Word)
    (offset : Nat) : Int :=
  let a := layout.lane signed first offset
  let b := layout.lane signed second offset
  if layout.subtract offset then a - b else a + b

def placeMask (layout : ParallelArithmeticLayout) : Word := BitVec.twoPow 32 layout.bits - 1

def placeFlag (layout : ParallelArithmeticLayout) (signed : Bool) (first second : Word)
    (offset : Nat) : Bool :=
  let sum := placeSum layout signed first second offset
  if signed || layout.subtract offset then decide (0 ≤ sum)
  else decide (((placeMask layout).toNat : Int) < sum)

/-- The flags that a lane stands for. -/
def placeFlags (layout : ParallelArithmeticLayout) : Word := if layout.bits = 16 then 3 else 1

def exchanged (layout : ParallelArithmeticLayout) (second : Word) : Word :=
  if layout.exchange then second.rotateLeft 16 else second

/-- The loop packs the lanes into one word and their flags into another. -/
theorem parallelArithmetic_eq {inst : Instruction} (other : inst.opcode ≠ parallelSelect)
    (first second cpsr : Word) :
    let layout := parallelArithmeticLayout inst.opcode
    let second' := exchanged layout second
    parallelArithmetic inst first second cpsr =
      ⟨packed (fun offset => BitVec.ofInt 32 (placeSum layout inst.signExtend first second' offset) &&&
          placeMask layout) id layout.offsets,
        (cpsr &&& ~~~(0x000f0000 : Word)) ||| (packed (fun offset =>
          if placeFlag layout inst.signExtend first second' offset then placeFlags layout else 0)
          (· / 8) layout.offsets <<< 16)⟩ := by
  intro layout second'
  unfold parallelArithmetic
  rw [if_neg other]
  have flagged : ∀ (ge : Word) offset,
      (if placeFlag layout inst.signExtend first second' offset then
        ge ||| (placeFlags layout <<< (offset / 8)) else ge) =
      ge ||| ((if placeFlag layout inst.signExtend first second' offset then placeFlags layout else 0)
        <<< (offset / 8)) := by
    intro ge offset
    split
    · rfl
    · simp
  have loop := foldl_pair
    (fun (value : Word) offset => value |||
      ((BitVec.ofInt 32 (placeSum layout inst.signExtend first second' offset) &&&
        placeMask layout) <<< offset))
    (fun (ge : Word) offset => ge |||
      ((if placeFlag layout inst.signExtend first second' offset then placeFlags layout else 0)
        <<< (offset / 8))) layout.offsets 0 0
  simp only [← flagged] at loop
  unfold packed
  simp only [← flagged]
  have same := congrArg (fun pair : Word × Word =>
    AluResult.mk pair.1 ((cpsr &&& ~~~(0x000f0000 : Word)) ||| (pair.2 <<< 16))) loop
  exact same

/-! ### Lanes of a layout -/

theorem layout_bits (operation : ParallelArithmeticOperation) :
    (parallelArithmeticLayout operation.opcode).bits = operation.width := by
  cases operation <;> rfl

theorem layout_offsets (operation : ParallelArithmeticOperation) :
    (parallelArithmeticLayout operation.opcode).offsets =
      (List.range (32 / operation.width)).map (· * operation.width) := by
  cases operation <;> rfl

theorem layout_subtract (operation : ParallelArithmeticOperation) {lane : Nat}
    (inside : lane < 32 / operation.width) :
    (parallelArithmeticLayout operation.opcode).subtract (lane * operation.width) =
      operation.subtracts lane := by
  revert lane
  cases operation <;> decide

/-- The exchange puts the partner of a lane in its place. -/
theorem layout_exchanged (operation : ParallelArithmeticOperation) {lane : Nat}
    (inside : lane < 32 / operation.width) (second : Word) :
    (exchanged (parallelArithmeticLayout operation.opcode) second).extractLsb'
        (lane * operation.width) operation.width =
      second.extractLsb' (operation.partner lane * operation.width) operation.width := by
  cases operation with
  | addSubtract | subtractAdd =>
    obtain rfl | rfl : lane = 0 ∨ lane = 1 := by
      change lane < 2 at inside
      omega
    · exact extractLsb'_rotateLeft second false
    · exact extractLsb'_rotateLeft second true
  | _ => rfl

theorem placeSum_eq (operation : ParallelArithmeticOperation)
    (signed : Bool) (first second : Word) {lane : Nat} (inside : lane < 32 / operation.width) :
    placeSum (parallelArithmeticLayout operation.opcode) signed first
        (exchanged (parallelArithmeticLayout operation.opcode) second) (lane * operation.width) =
      exactLane operation signed first second lane := by
  have found : ∀ value : Word, (parallelArithmeticLayout operation.opcode).lane signed value
      (lane * operation.width) = laneNumber signed operation.width value lane := by
    intro value
    unfold ParallelArithmeticLayout.lane
    rw [layout_bits operation]
    rfl
  unfold placeSum exactLane
  rw [layout_subtract operation inside, found, found]
  unfold laneNumber
  rw [layout_exchanged operation inside]

theorem placeMask_toNat (operation : ParallelArithmeticOperation) :
    ((placeMask (parallelArithmeticLayout operation.opcode)).toNat : Int) =
      2 ^ operation.width - 1 := by
  cases operation <;> rfl

theorem placeFlag_eq (operation : ParallelArithmeticOperation)
    (signed : Bool) (first second : Word) {lane : Nat} (inside : lane < 32 / operation.width) :
    placeFlag (parallelArithmeticLayout operation.opcode) signed first
        (exchanged (parallelArithmeticLayout operation.opcode) second) (lane * operation.width) =
      laneFlag operation signed first second lane := by
  unfold placeFlag laneFlag
  rw [placeSum_eq operation signed first second inside, layout_subtract operation inside,
    placeMask_toNat operation]
  split
  · rfl
  · exact decide_eq_decide.mpr (by omega)

theorem placeMask_getLsbD (operation : ParallelArithmeticOperation)
    {i : Nat} (inside : i < 32) :
    (placeMask (parallelArithmeticLayout operation.opcode)).getLsbD i =
      decide (i < operation.width) := by
  revert i
  cases operation <;> decide

theorem placeFlags_getLsbD (operation : ParallelArithmeticOperation)
    {i : Nat} (inside : i < 32) :
    (placeFlags (parallelArithmeticLayout operation.opcode)).getLsbD i =
      decide (i < operation.width / 8) := by
  revert i
  cases operation <;> decide

theorem width_pos (operation : ParallelArithmeticOperation) :
    operation.width = 8 ∨ operation.width = 16 := by
  cases operation <;> simp [ParallelArithmeticOperation.width]

/-! ### Results -/

/-- Lanes of one width do not overlap. -/
theorem lanes_apart {width lane other : Nat} (different : other ≠ lane) :
    other * width + width ≤ lane * width ∨ lane * width + width ≤ other * width := by
  obtain less | less := Nat.lt_or_gt_of_ne different
  · exact .inl (by simpa [Nat.succ_mul] using Nat.mul_le_mul_right width (Nat.succ_le_of_lt less))
  · exact .inr (by simpa [Nat.succ_mul] using Nat.mul_le_mul_right width (Nat.succ_le_of_lt less))

section
variable (operation : ParallelArithmeticOperation) {lane : Nat}

theorem lane_inside (inside : lane < 32 / operation.width) :
    lane * operation.width + operation.width ≤ 32 := by
  obtain width | width := width_pos operation <;> rw [width] at inside ⊢ <;> omega

theorem mem_offsets {offset : Nat} :
    offset ∈ (parallelArithmeticLayout operation.opcode).offsets ↔
      ∃ lane < 32 / operation.width, lane * operation.width = offset := by
  rw [layout_offsets operation, List.mem_map]
  simp only [List.mem_range]

/-- The lanes of the packed sums. -/
theorem packed_lane (sum : Nat → Int) (inside : lane < 32 / operation.width) :
    (packed (fun offset => BitVec.ofInt 32 (sum offset) &&&
        placeMask (parallelArithmeticLayout operation.opcode)) id
        (parallelArithmeticLayout operation.opcode).offsets).extractLsb'
          (lane * operation.width) operation.width =
      BitVec.ofInt operation.width (sum (lane * operation.width)) := by
  have room := lane_inside operation inside
  have found := @extractLsb'_packed 32 Nat (fun offset => BitVec.ofInt 32 (sum offset) &&&
    placeMask (parallelArithmeticLayout operation.opcode)) id (fun _ => operation.width)
      (parallelArithmeticLayout operation.opcode).offsets ?_ (lane * operation.width) ?_ room ?_
  · refine found.trans ?_
    rw [← @setWidth_ofInt 32 operation.width (by omega)]
    apply BitVec.eq_of_getLsbD_eq
    intro i less
    rw [BitVec.getLsbD_setWidth, BitVec.getLsbD_setWidth, BitVec.getLsbD_and,
      placeMask_getLsbD operation (by omega), decide_eq_true less, Bool.and_true]
  · intro offset _ i beyond
    by_cases less : i < 32
    · rw [BitVec.getLsbD_and, placeMask_getLsbD operation less, decide_eq_false (by omega),
        Bool.and_false]
    · exact BitVec.getLsbD_of_ge _ _ (by omega)
  · exact (mem_offsets operation).mpr ⟨lane, inside, rfl⟩
  · intro offset member
    obtain ⟨other, _, rfl⟩ := (mem_offsets operation).mp member
    by_cases same : other = lane
    · exact .inl (congrArg (· * operation.width) same)
    · exact .inr (lanes_apart same)

/-- The bits of the packed flags. -/
theorem packed_flag (flag : Nat → Bool) (bit : Nat) :
    (packed (fun offset =>
        if flag offset then placeFlags (parallelArithmeticLayout operation.opcode) else 0) (· / 8)
        (parallelArithmeticLayout operation.opcode).offsets).getLsbD bit =
      (decide (bit < 4) && flag (bit / (operation.width / 8) * operation.width)) := by
  have place : ∀ lane, lane * operation.width / 8 = lane * (operation.width / 8) := by
    intro lane
    obtain width | width := width_pos operation <;> rw [width] <;> omega
  have entry : ∀ offset i, i < 32 →
      (if flag offset then placeFlags (parallelArithmeticLayout operation.opcode) else 0).getLsbD i =
        (flag offset && decide (i < operation.width / 8)) := by
    intro offset i less
    rw [← placeFlags_getLsbD operation less]
    cases flag offset with
    | false => exact BitVec.getLsbD_zero
    | true => rfl
  by_cases less : bit < 32
  · rw [getLsbD_packed _ _ _ less]
    apply Bool.eq_iff_iff.mpr
    rw [List.any_eq_true, Bool.and_eq_true, decide_eq_true_iff]
    constructor
    · rintro ⟨offset, member, set⟩
      obtain ⟨lane, inside, rfl⟩ := (mem_offsets operation).mp member
      rw [place, entry _ _ (by omega), Bool.and_eq_true, Bool.and_eq_true, Bool.not_eq_true',
        decide_eq_false_iff_not, decide_eq_true_iff] at set
      obtain ⟨reached, raised, near⟩ := set
      have found : bit / (operation.width / 8) = lane := by
        obtain width | width := width_pos operation <;> rw [width] at reached near ⊢ <;> omega
      rw [found]
      refine ⟨?_, raised⟩
      obtain width | width := width_pos operation <;> rw [width] at inside reached near <;> omega
    · rintro ⟨low, raised⟩
      refine ⟨_, (mem_offsets operation).mpr ⟨bit / (operation.width / 8), ?_, rfl⟩, ?_⟩
      · obtain width | width := width_pos operation <;> rw [width] <;> omega
      · rw [place, entry _ _ (by omega), raised, Bool.true_and, Bool.and_eq_true,
          Bool.not_eq_true', decide_eq_false_iff_not, decide_eq_true_iff]
        obtain width | width := width_pos operation <;> rw [width] <;> omega
  · rw [BitVec.getLsbD_of_ge _ _ (by omega), decide_eq_false (by omega), Bool.false_and]

end

theorem parallelArithmetic_exact {inst : Instruction} {operation : ParallelArithmeticOperation}
    (named : inst.opcode = operation.opcode) (other : operation ≠ .select)
    (first second cpsr : Word) :
    IsExactLanes operation inst.signExtend first second cpsr
      (parallelArithmetic inst first second cpsr) := by
  have another : inst.opcode ≠ parallelSelect := by
    rw [named]
    revert other
    cases operation <;> decide
  have result := parallelArithmetic_eq another first second cpsr
  rw [named] at result
  dsimp only at result
  rw [result]
  constructor
  · intro lane inside
    rw [← placeSum_eq operation inst.signExtend first second inside]
    exact packed_lane operation _ inside
  · intro bit
    have mask : ∀ bit < 32, (0x000f0000 : Word).getLsbD bit = decide (16 ≤ bit ∧ bit < 20) := by
      decide
    dsimp only
    rw [BitVec.getLsbD_or, BitVec.getLsbD_and, BitVec.getLsbD_not, BitVec.getLsbD_shiftLeft,
      packed_flag operation]
    by_cases less : bit < 32
    · rw [mask bit less, decide_eq_true less, Bool.true_and, Bool.true_and]
      by_cases flags : 16 ≤ bit ∧ bit < 20
      · have inside : (bit - 16) / (operation.width / 8) < 32 / operation.width := by
          obtain width | width := width_pos operation <;> rw [width] <;> omega
        rw [if_pos flags, decide_eq_true flags, decide_eq_false (by omega : ¬ bit < 16),
          decide_eq_true (by omega : bit - 16 < 4),
          placeFlag_eq operation inst.signExtend first second inside]
        simp
      · rw [if_neg flags, decide_eq_false flags]
        by_cases low : bit < 16
        · simp [low]
        · rw [decide_eq_false (by omega : ¬ bit - 16 < 4)]
          simp
    · rw [if_neg (by omega), BitVec.getLsbD_of_ge cpsr bit (by omega), decide_eq_false less]
      simp

/-! ### Selection -/

/-- A byte of the mask is whole or empty, as its flag says. -/
theorem selectMask_getLsbD (cpsr : Word) {byte i : Nat} (inside : byte < 4) (less : i < 8) :
    (packed (fun byte : Nat => if cpsr.getLsbD (16 + byte) then (0xff : Word) else 0) (· * 8)
      [0, 1, 2, 3]).getLsbD (byte * 8 + i) = cpsr.getLsbD (16 + byte) := by
  have full : ∀ i < 32, (0xff : Word).getLsbD i = decide (i < 8) := by decide
  have entry : ∀ byte i, i < 32 → (if cpsr.getLsbD (16 + byte) then (0xff : Word) else 0).getLsbD i =
      (cpsr.getLsbD (16 + byte) && decide (i < 8)) := by
    intro byte i less
    rw [← full i less]
    cases cpsr.getLsbD (16 + byte) with
    | false => exact BitVec.getLsbD_zero
    | true => rfl
  rw [getLsbD_packed _ _ _ (by omega)]
  apply Bool.eq_iff_iff.mpr
  rw [List.any_eq_true]
  constructor
  · rintro ⟨other, member, set⟩
    rw [entry _ _ (by omega), Bool.and_eq_true, Bool.and_eq_true, Bool.not_eq_true',
      decide_eq_false_iff_not, decide_eq_true_iff] at set
    obtain ⟨reached, raised, near⟩ := set
    obtain rfl : other = byte := by omega
    exact raised
  · intro raised
    have member : byte ∈ [0, 1, 2, 3] := by
      simp only [List.mem_cons, List.not_mem_nil, or_false]
      omega
    refine ⟨byte, member, ?_⟩
    rw [entry _ _ (by omega), raised, Nat.add_sub_cancel_left, decide_eq_true less,
      decide_eq_false (by omega)]
    rfl

theorem parallelArithmetic_select {inst : Instruction}
    (named : inst.opcode = ParallelArithmeticOperation.select.opcode) (first second cpsr : Word) :
    IsSelection first second cpsr (parallelArithmetic inst first second cpsr) := by
  have masked : ∀ (mask : Word) byte,
      (if cpsr.getLsbD (16 + byte) then mask ||| ((0xff : Word) <<< (byte * 8)) else mask) =
      mask ||| ((if cpsr.getLsbD (16 + byte) then (0xff : Word) else 0) <<< (byte * 8)) := by
    intro mask byte
    split
    · rfl
    · simp
  have result : parallelArithmetic inst first second cpsr =
      { value := selectBytes first second cpsr, cpsr } := if_pos named
  rw [result]
  refine ⟨fun byte inside => ?_, rfl⟩
  apply BitVec.eq_of_getLsbD_eq
  intro i less
  have mask := selectMask_getLsbD cpsr inside less
  unfold selectBytes
  simp only [masked]
  change (((first &&& packed _ _ _) ||| (second &&& ~~~packed _ _ _)).extractLsb' _ _).getLsbD i = _
  rw [BitVec.getLsbD_extractLsb', BitVec.getLsbD_or, BitVec.getLsbD_and, BitVec.getLsbD_and,
    BitVec.getLsbD_not, mask, decide_eq_true (by omega : byte * 8 + i < 32)]
  cases cpsr.getLsbD (16 + byte) with
  | false => simp
  | true => simp

/-- Whatever their operands and the status, the decoded products, saturating instructions and
instructions on lanes compute what exact integers give, and change no other flags. -/
theorem arithmetic_exact (out inst : Instruction) (word : Word) (thumb inItBlock : Bool)
    (profile : ArmInstructionProfile) (first second low high cpsr : Word) :
    (decodeMultiply out word thumb profile inItBlock = some (some inst) →
      IsExactProduct inst cpsr (exactProduct inst first second low high)
        (calculateMultiply inst first second low high cpsr)) ∧
    (decodeSaturatingArithmetic out word thumb profile = some (some inst) →
      IsExactSaturation inst first second cpsr (saturatingArithmetic inst first second cpsr)) ∧
    (decodeParallelArithmetic out word thumb profile = some (some inst) →
      ∃ operation : ParallelArithmeticOperation, inst.opcode = operation.opcode ∧
        if operation = .select then
          IsSelection first second cpsr (parallelArithmetic inst first second cpsr)
        else
          IsExactLanes operation inst.signExtend first second cpsr
            (parallelArithmetic inst first second cpsr)) := by
  refine ⟨fun decoded => ?_, fun decoded => ?_, fun decoded => ?_⟩
  · exact calculateMultiply_exact (decodeMultiply_form decoded).2 first second low high cpsr
  · exact saturatingArithmetic_exact (decodeSaturatingArithmetic_form decoded).2 first second cpsr
  · obtain ⟨_, operation, named⟩ := decodeParallelArithmetic_form decoded
    refine ⟨operation, named, ?_⟩
    split
    · rename_i select
      subst select
      exact parallelArithmetic_select named first second cpsr
    · rename_i other
      exact parallelArithmetic_exact named other first second cpsr

/-- Two products of the most negative halves add up to a number that does not fit. -/
theorem arithmetic_exact_overflow : ∃ inst : Instruction,
    decodeMultiply {} 0xe700f211 false .armv6 false = some (some inst) ∧
      IsExactProduct inst 0 (exactProduct inst 0x80008000 0x80008000 0 0)
        (calculateMultiply inst 0x80008000 0x80008000 0 0 0) :=
  ⟨_, rfl, (arithmetic_exact {} _ 0xe700f211 false false .armv6 0x80008000 0x80008000 0 0 0).1 rfl⟩

end ILEmu.ArmInterpreter
