import ILEmu.Arm64.WindowChoice
import Mathlib.Algebra.Order.Ring.Abs

/-! The accesses of enabled windows stay on one page in every group that the guard lets in. -/
namespace ILEmu.Arm64
open Arm hiding Instruction InstructionKind
open ArmMemory ArmInterpreter Foundation
open AddressWindows (observeCycle admits)

/-! ### What the guard checks -/

theorem pageOffset_and (base : Word) : (base &&& 4095).toNat = pageOffset 12 base := by
  rw [BitVec.toNat_and]
  exact Nat.and_two_pow_sub_one_eq_mod base.toNat 12

theorem pageOffset_lt (base : Word) : pageOffset 12 base < 4096 := Nat.mod_lt _ (by decide)

theorem fits_bounds {first finish : Int} (inside : fits first finish = true) :
    first < finish ∧ -4095 ≤ first ∧ finish ≤ 4096 := by
  simp only [fits, Bool.and_eq_true, decide_eq_true_eq] at inside
  obtain ⟨⟨room, -⟩, ends⟩ := inside
  omega

/-- A number that is small has no high bits only if it is on the page. -/
theorem shifted_zero {w : Nat} {value : Int} (wide : 13 ≤ w) (low : -2 ^ (w - 1) ≤ value)
    (high : value < 2 ^ (w - 1)) (zero : BitVec.ofInt w value >>> 12 = 0) :
    0 ≤ value ∧ value < 4096 := by
  have small : (BitVec.ofInt w value).toNat < 4096 := by
    have := congrArg BitVec.toNat zero
    rw [BitVec.toNat_ushiftRight, Nat.shiftRight_eq_div_pow] at this
    have none : (0 : BitVec w).toNat = 0 := BitVec.toNat_zero ..
    rw [none] at this
    omega
  have power : (2 : Int) ^ w = 2 * 2 ^ (w - 1) := by
    rw [← pow_succ', Nat.sub_add_cancel (by omega)]
  have large : (4096 : Int) ≤ 2 ^ (w - 1) := by
    have : (2 : Int) ^ 12 ≤ 2 ^ (w - 1) := pow_le_pow_right₀ (by decide) (by omega)
    exact this
  rw [BitVec.toNat_ofInt] at small
  have wrapped : value % (2 ^ w : Nat) < 4096 := by
    have positive : ((2 ^ w : Nat) : Int) ≠ 0 := by positivity
    have := Int.toNat_of_nonneg (Int.emod_nonneg value positive)
    omega
  push_cast at wrapped
  rcases lt_or_ge value 0 with negative | positive
  · have : value % 2 ^ w = value + 2 ^ w := by
      rw [← Int.add_emod_right, Int.emod_eq_of_lt (by linarith) (by linarith)]
    rw [this] at wrapped
    linarith
  · rw [Int.emod_eq_of_lt positive (by linarith)] at wrapped
    exact ⟨positive, wrapped⟩

/-- One end of a window that the guard has let pass. -/
theorem bound_spec {base stride : Word} {constant coefficient : Int} (least : -4096 ≤ constant)
    (most : constant ≤ 4096) (low : -2 ^ 31 ≤ coefficient) (high : coefficient ≤ 2 ^ 31 - 1)
    (passes : bound ((base &&& 4095).setWidth 64) stride constant coefficient = true) :
    0 ≤ pageOffset 12 base + constant + coefficient * stride.toInt ∧
      pageOffset 12 base + constant + coefficient * stride.toInt < 4096 := by
  have offset := pageOffset_lt base
  unfold bound at passes
  split at passes
  · rename_i none
    rw [none.1, none.2]
    omega
  · have start : (base &&& 4095).setWidth 64 = BitVec.ofInt 64 (pageOffset 12 base) := by
      rw [BitVec.ofInt_natCast, ← pageOffset_and, BitVec.ofNat_toNat]
    have word : (BitVec.ofInt 32 coefficient).toInt = coefficient := by
      rw [BitVec.toInt_ofInt]
      exact Int.bmod_eq_of_le (by norm_num; linarith) (by norm_num; linarith)
    have product : (if coefficient ≠ 0 then
          smaddl stride (BitVec.ofInt 32 coefficient) ((base &&& 4095).setWidth 64)
        else (base &&& 4095).setWidth 64) =
        BitVec.ofInt 64 (pageOffset 12 base + coefficient * stride.toInt) := by
      split
      · unfold smaddl BitVec.signExtend
        rw [word, start, ← BitVec.ofInt_mul, ← BitVec.ofInt_add, mul_comm]
      · rename_i none
        rw [not_ne_iff.mp none, start, zero_mul, add_zero]
    have sum : (if constant < 0 then
          BitVec.ofInt 64 (pageOffset 12 base + coefficient * stride.toInt) -
            BitVec.ofInt 64 (-constant)
        else if constant ≠ 0 then
          BitVec.ofInt 64 (pageOffset 12 base + coefficient * stride.toInt) +
            BitVec.ofInt 64 constant
        else BitVec.ofInt 64 (pageOffset 12 base + coefficient * stride.toInt)) =
        BitVec.ofInt 64 (pageOffset 12 base + constant + coefficient * stride.toInt) := by
      rw [add_right_comm, BitVec.ofInt_add _ constant]
      split
      · rw [BitVec.ofInt_neg, sub_neg_eq_add]
      · split
        · rfl
        · rename_i none
          rw [not_ne_iff.mp none]
          simp
    dsimp only at passes
    rw [product, sum, decide_eq_true_eq] at passes
    have strideLow := stride.le_toInt
    have strideHigh := stride.toInt_lt
    norm_num at strideLow strideHigh
    have bounded : |coefficient * stride.toInt| ≤ 2 ^ 31 * 2 ^ 31 := by
      rw [abs_mul]
      exact mul_le_mul (abs_le.mpr ⟨low, by linarith⟩) (abs_le.mpr ⟨by linarith, by linarith⟩)
        (abs_nonneg _) (by norm_num)
    obtain ⟨below, above⟩ := abs_le.mp bounded
    norm_num at below above
    exact shifted_zero (by decide) (by norm_num; linarith) (by norm_num; linarith) passes

/-- A window that the guard has let pass is on the page of its base. -/
theorem guardStride_spec {window : Window} {base stride : Word} {constant coefficient : Int}
    (inside : fits window.first window.finish = true) (low : -2 ^ 31 ≤ window.firstCoefficient)
    (high : window.lastCoefficient ≤ 2 ^ 31 - 1)
    (passes : window.guardStride base stride = true)
    (point : InBox window.first (window.finish - 1) window.firstCoefficient window.lastCoefficient
      constant coefficient) :
    0 ≤ pageOffset 12 base + (constant + coefficient * stride.toInt) ∧
      pageOffset 12 base + (constant + coefficient * stride.toInt) < 4096 := by
  obtain ⟨room, least, most⟩ := fits_bounds inside
  have ordered : window.firstCoefficient ≤ window.lastCoefficient := point.first.trans point.last
  have first : ∀ c, window.firstCoefficient ≤ c → c ≤ window.lastCoefficient →
      bound ((base &&& 4095).setWidth 64) stride window.first c = true →
        -(pageOffset 12 base : Int) ≤ window.first + c * stride.toInt := by
    intro c below above holds
    have := bound_spec (by omega) (by omega) (low.trans below) (above.trans high) holds
    linarith [this.1]
  have last : ∀ c, window.firstCoefficient ≤ c → c ≤ window.lastCoefficient →
      bound ((base &&& 4095).setWidth 64) stride (window.finish - 1) c = true →
        window.finish - 1 + c * stride.toInt ≤ 4095 - pageOffset 12 base := by
    intro c below above holds
    have := bound_spec (by omega) (by omega) (low.trans below) (above.trans high) holds
    omega
  have negative : stride.getLsbD 31 = true ↔ stride.toInt < 0 := by
    have sign : stride.getLsbD 31 = stride.msb := rfl
    rw [sign, BitVec.msb_eq_toInt, decide_eq_true_eq]
  have ends : -(pageOffset 12 base : Int) ≤ constant + coefficient * stride.toInt ∧
      constant + coefficient * stride.toInt ≤ 4095 - pageOffset 12 base := by
    unfold Window.guardStride at passes
    dsimp only at passes
    split at passes
    · rename_i same
      rw [Bool.and_eq_true] at passes
      constructor
      · apply point.lower
        · exact fun _ => first _ le_rfl ordered passes.1
        · intro _
          rw [← same]
          exact first _ le_rfl ordered passes.1
      · apply point.upper
        · exact fun _ => last _ ordered le_rfl passes.2
        · intro _
          rw [same]
          exact last _ ordered le_rfl passes.2
    · split at passes
      · rename_i sign
        rw [Bool.and_eq_true] at passes
        have below := negative.mp sign
        constructor
        · exact point.lower (fun above => absurd below (by omega))
            fun _ => first _ ordered le_rfl passes.1
        · exact point.upper (fun above => absurd below (by omega))
            fun _ => last _ le_rfl ordered passes.2
      · rename_i sign
        rw [Bool.and_eq_true] at passes
        rw [negative] at sign
        constructor
        · exact point.lower (fun _ => first _ le_rfl ordered passes.1)
            fun below => absurd below sign
        · exact point.upper (fun _ => last _ ordered le_rfl passes.2)
            fun below => absurd below sign
  omega

theorem guardPlain_spec {window : Window} {base : Word} {constant : Int}
    (inside : fits window.first window.finish = true) (passes : window.guardPlain base = true)
    (first : window.first ≤ constant) (last : constant ≤ window.finish - 1) :
    0 ≤ pageOffset 12 base + constant ∧ pageOffset 12 base + constant < 4096 := by
  obtain ⟨room, least, most⟩ := fits_bounds inside
  have offset := pageOffset_lt base
  have start : base &&& 4095 = BitVec.ofInt 32 (pageOffset 12 base) := by
    rw [BitVec.ofInt_natCast, ← pageOffset_and, BitVec.ofNat_toNat, BitVec.setWidth_eq]
  have sum : (if window.first < 0 then
        BitVec.ofInt 32 (pageOffset 12 base) - BitVec.ofInt 32 (-window.first)
      else if window.first ≠ 0 then
        BitVec.ofInt 32 (pageOffset 12 base) + BitVec.ofInt 32 window.first
      else BitVec.ofInt 32 (pageOffset 12 base)) =
      BitVec.ofInt 32 (pageOffset 12 base + window.first) := by
    rw [BitVec.ofInt_add]
    split
    · rw [BitVec.ofInt_neg, sub_neg_eq_add]
    · split
      · rfl
      · rename_i none
        rw [not_ne_iff.mp none]
        simp
  unfold Window.guardPlain at passes
  dsimp only at passes
  rw [start, sum, ← BitVec.ofInt_add, Bool.and_eq_true, decide_eq_true_eq, decide_eq_true_eq]
    at passes
  have below := shifted_zero (by decide) (by norm_num; omega) (by norm_num; omega) passes.1
  have above := shifted_zero (by decide) (by norm_num; omega) (by norm_num; omega) passes.2
  omega

/-! ### The registers along the copies of the cycle -/

variable {units : Units} {profile : Profile} {cycle : List (Instruction × Word)}
  {start now group : Guest}

/-- The registers are as they have been observed. -/
structure Followed (windows : AddressWindows) (start now : Register → Word) : Prop where
  tracks : Tracks windows.displacements start now
  masked : Masked windows.bits now

theorem observe_run {part : List (Instruction × Word)}
    (ordinary : ∀ entry ∈ part, isOrdinary entry.1 = true)
    (ran : run units profile (part.map Prod.fst) start = some now) :
    Followed (observeCycle part) start.state.registers now.state.registers := by
  induction part using List.reverseRecOn generalizing now with
  | nil =>
    cases ran
    refine ⟨tracks_entry _, ?_⟩
    intro reg _ mask known
    cases known
  | append_singleton part entry ih =>
    rw [List.map_append, ArmInterpreter.run_append, Option.bind_eq_some_iff] at ran
    obtain ⟨middle, before, last⟩ := ran
    have retired := ArmInterpreter.run_singleton last
    have plain := ordinary entry (by simp)
    have followed := ih (fun other member => ordinary other (List.mem_append_left _ member)) before
    rw [observeCycle_concat]
    exact ⟨followed.tracks.step plain retired, followed.masked.step plain retired⟩

/-- The instructions of some copies of the cycle. -/
def copiesOf (cycle : List (Instruction × Word)) (copies : Nat) : List Instruction :=
  (List.replicate copies cycle).flatten.map Prod.fst

theorem copiesOf_succ (copies : Nat) :
    copiesOf cycle (copies + 1) = copiesOf cycle copies ++ cycle.map Prod.fst := by
  unfold copiesOf
  rw [List.replicate_succ', List.flatten_append, List.map_append]
  simp

section
variable {displacements : AddressDisplacements} {window : Window} {access : Access}
  {advance : Expression} {copies : Nat}

theorem Belongs.stride_kept (belongs : Belongs displacements window access advance)
    {stride : Register} (strided : window.stride = some stride) :
    displacements.invariant stride = true ∧ access.key.index = none := by
  have admitted := belongs.admitted
  simp only [admits, Bool.and_eq_true] at admitted
  have all := admitted.2
  rw [← belongs.stride, strided] at all
  simpa using all

theorem Belongs.advance_index (belongs : Belongs displacements window access advance)
    {index : Register} (counted : advance.index = some index) : window.stride = some index := by
  rw [belongs.stride, counted]
  rfl

theorem Belongs.stride_of (belongs : Belongs displacements window access advance) {index : Register}
    (strides : access.stride = some index) : window.stride = some index := by
  have admitted := belongs.admitted
  simp only [admits, Bool.and_eq_true] at admitted
  have agree := admitted.1.2
  rw [belongs.stride]
  cases counted : advance.index with
  | none => exact strides
  | some other =>
    rw [counted, strides] at agree
    have same : some index = some other := by simpa using agree
    exact same.symm

/-- From one copy to the next the base advances and the stride stays. -/
theorem run_copies (ordinary : ∀ entry ∈ cycle, isOrdinary entry.1 = true)
    (belongs : Belongs (observeCycle cycle).displacements window access advance)
    (base : access.key.base ≠ programCounter)
    (general : ∀ stride, window.stride = some stride → stride ≠ programCounter)
    (ran : run units profile (copiesOf cycle copies) group = some now) :
    (∀ stride, window.stride = some stride →
        now.state.registers stride = group.state.registers stride) ∧
      now.state.registers access.key.base = group.state.registers access.key.base +
        BitVec.ofInt 32 (copies * (advance.constant.toInt +
          advance.coefficient.toInt * strideValue window.stride group.state.registers)) := by
  induction copies generalizing now with
  | zero =>
    cases ran
    exact ⟨fun _ _ => rfl, by simp⟩
  | succ copies ih =>
    rw [copiesOf_succ, ArmInterpreter.run_append, Option.bind_eq_some_iff] at ran
    obtain ⟨middle, before, last⟩ := ran
    obtain ⟨same, moved⟩ := ih before
    have followed := observe_run ordinary last
    have stays : ∀ stride, window.stride = some stride →
        now.state.registers stride = middle.state.registers stride := by
      intro stride strided
      exact followed.tracks.kept stride (general stride strided) (belongs.stride_kept strided).1
    refine ⟨fun stride strided => (stays stride strided).trans (same stride strided), ?_⟩
    have scaled : advance.coefficient.toInt * strideValue advance.index middle.state.registers =
        advance.coefficient.toInt * strideValue window.stride group.state.registers := by
      cases counted : advance.index with
      | none =>
        rw [advance.formed counted]
        simp
      | some index =>
        have strided := belongs.advance_index counted
        rw [strided]
        unfold strideValue
        dsimp only
        rw [same index strided]
    rw [followed.tracks.value _ base advance belongs.known, moved, value_ofInt, scaled, add_assoc,
      ← BitVec.ofInt_add]
    congr 2
    push_cast
    rw [add_mul, one_mul]

end

/-! ### Groups -/

/-- The states in which a group of copies is entered: the selector lets the first group in, and the
guard between groups each further one. -/
inductive GroupEntry (units : Units) (profile : Profile) (windows : AddressWindows)
    (body : List Instruction) : Guest → Prop where
  | first {guest : Guest} (passes : windows.guard false guest.state.registers = true) :
    GroupEntry units profile windows body guest
  | next {guest after : Guest} (entered : GroupEntry units profile windows body guest)
    (ran : run units profile body guest = some after)
    (passes : windows.guard true after.state.registers = true) :
    GroupEntry units profile windows body after

section
variable {windows : AddressWindows} {window : Window} {access : Access} {advance : Expression}
  {copies : Nat}

theorem guard_window {registers : Register → Word} {group : Bool}
    (member : window ∈ windows.windows) (enabled : window.enabled = true)
    (passes : windows.guard group registers = true) :
    (group = true ∧ window.advance = 0 ∧ window.strideAdvance = 0) ∨
      window.guard registers = true := by
  unfold AddressWindows.guard at passes
  have here := List.all_eq_true.mp passes window member
  simp only [enabled, Bool.not_true, Bool.false_or, Bool.or_eq_true, Bool.and_eq_true,
    decide_eq_true_eq] at here
  rcases here with still | guarded
  · exact .inl ⟨still.1.1, still.1.2, still.2⟩
  · exact .inr guarded

/-- A window that does not advance has not moved since it was checked. -/
theorem guard_entered (ordinary : ∀ entry ∈ cycle, isOrdinary entry.1 = true)
    (belongs : Belongs (observeCycle cycle).displacements window access advance)
    (base : access.key.base ≠ programCounter)
    (general : ∀ stride, window.stride = some stride → stride ≠ programCounter)
    (member : window ∈ windows.windows) (enabled : window.enabled = true)
    (entered : GroupEntry units profile windows (copiesOf cycle copies) group) :
    window.guard group.state.registers = true := by
  induction entered with
  | first passes =>
    rcases guard_window member enabled passes with still | guarded
    · exact absurd still.1 Bool.false_ne_true
    · exact guarded
  | next _ ran passes ih =>
    rcases guard_window member enabled passes with ⟨-, constant, coefficient⟩ | guarded
    · obtain ⟨same, moved⟩ := run_copies ordinary belongs base general ran
      rw [belongs.advances] at constant
      rw [belongs.strideAdvances] at coefficient
      rw [constant, coefficient, ← belongs.base] at moved
      have stays : ((0 : Word).toInt) = 0 := rfl
      rw [stays, zero_mul, add_zero, mul_zero] at moved
      have unmoved : ∀ value : Word, value + BitVec.ofInt 32 0 = value := by simp
      rw [unmoved] at moved
      unfold Window.guard at ih ⊢
      rw [moved]
      cases strided : window.stride with
      | none =>
        rw [strided] at ih
        exact ih
      | some stride =>
        rw [strided] at ih
        dsimp only at ih ⊢
        rw [same stride strided]
        exact ih
    · exact guarded

/-- What the guard has let pass is on the page of the base. -/
theorem guard_spec {registers : Register → Word} {constant coefficient : Int}
    (chosen : Chosen (observeCycle cycle).displacements window access advance copies)
    (passes : window.guard registers = true)
    (point : InBox window.first (window.finish - 1) window.firstCoefficient window.lastCoefficient
      constant coefficient) :
    0 ≤ pageOffset 12 (registers window.base) +
        (constant + coefficient * strideValue window.stride registers) ∧
      pageOffset 12 (registers window.base) +
        (constant + coefficient * strideValue window.stride registers) < 4096 := by
  unfold Window.guard at passes
  unfold strideValue
  cases strided : window.stride with
  | none =>
    rw [strided] at passes
    dsimp only at passes ⊢
    rw [mul_zero, add_zero]
    exact guardPlain_spec chosen.fits passes point.low point.high
  | some stride =>
    rw [strided] at passes
    exact guardStride_spec chosen.fits chosen.firstCoefficient chosen.lastCoefficient passes point

end

/-! ### The accesses of a group -/

variable {before after : List (Instruction × Word)} {inst : Instruction} {pc : Word} {key : Key}
  {slots instructions copy place : Nat}

/-- Where an access of a window is, around the base at the entry of its group. -/
structure Placement (cycle : List (Instruction × Word)) (window : Window) (copies length : Nat)
    (address : Word) (registers : Register → Word) (constant coefficient : Int) : Prop where
  address : address = registers window.base +
    BitVec.ofInt 32 (constant + coefficient * strideValue window.stride registers)
  within : ∀ byte < length, InBox window.first (window.finish - 1) window.firstCoefficient
    window.lastCoefficient (constant + byte) coefficient
  step : window.step ∣ 2 ^ 32
  residue : ((constant + coefficient * strideValue window.stride registers) % window.step).toNat =
    window.residue

theorem access_placed (decoded : ∀ entry ∈ cycle, Decoded entry.1)
    (ordinary : ∀ entry ∈ cycle, isOrdinary entry.1 = true) {window : Window} {access : Access}
    {advance : Expression} (known : (observeCycle cycle).accessOf key = some access)
    (chosen : Chosen (observeCycle cycle).displacements window access advance
      (instructions / cycle.length))
    (general : ∀ stride, window.stride = some stride → stride ≠ programCounter)
    (base : key.base ≠ programCounter) (inside : copy < instructions / cycle.length)
    (split : cycle = before ++ (inst, pc) :: after)
    (reached : run units profile (copiesOf cycle copy ++ before.map Prod.fst) group = some now)
    (keyed : accessKey inst pc = some key) :
    ∃ constant coefficient, Placement cycle window (instructions / cycle.length) (accessLength inst)
      (accessAddress profile inst now.state) group.state.registers constant coefficient := by
  have member : (inst, pc) ∈ cycle := by
    rw [split]
    simp
  have noted := access_noted access (List.mem_of_find?_eq_some known)
  have named := accessOf_key known
  have belongs := chosen.belongs
  -- the copies before this one, and the instructions before the access
  rw [ArmInterpreter.run_append, Option.bind_eq_some_iff] at reached
  obtain ⟨entry, copied, rest⟩ := reached
  obtain ⟨same, moved⟩ := run_copies ordinary belongs (by rw [named]; exact base) general copied
  have earlier : ∀ entry ∈ before, isOrdinary entry.1 = true := by
    intro entry among
    apply ordinary entry
    rw [split]
    exact List.mem_append_left _ among
  have followed := observe_run earlier rest
  obtain ⟨access', known', holds⟩ := covered_cycle decoded before inst pc after key split keyed
    (by rw [← named]; exact noted.observed)
  obtain rfl := Option.some.inj (known'.symm.trans known)
  have admitted := belongs.admitted
  simp only [admits, Bool.and_eq_true, decide_eq_true_eq] at admitted
  obtain ⟨⟨⟨⟨valid, constant⟩, coefficient⟩, -⟩, -⟩ := admitted
  obtain ⟨displacement, least, most, reaches, holds⟩ := holds valid
  have power := stride_accessKey (decoded _ member) keyed
  obtain ⟨offset, low, high, whole, address⟩ := reaches.address followed.tracks followed.masked base
    (fun index => accessKey_index keyed) power
  have placed : KeyOf profile inst key := keyOf_accessKey (decoded _ member) base keyed
  -- the stride of the access is that of the window
  obtain ⟨scaled, steps⟩ : displacement.coefficient.toInt *
        strideValue displacement.index entry.state.registers =
          displacement.coefficient.toInt * strideValue window.stride group.state.registers ∧
      (key.stride : Int) ∣ displacement.coefficient.toInt := by
    cases counted : displacement.index with
    | none =>
      rw [displacement.formed counted]
      simp
    | some index =>
      obtain ⟨strides, divides⟩ := holds.stride index counted
      rw [named] at divides
      rw [belongs.stride_of strides]
      unfold strideValue
      dsimp only
      exact ⟨by rw [same index (belongs.stride_of strides)], divides⟩
  rw [named] at moved constant coefficient
  refine ⟨offset + displacement.constant.toInt + advance.constant.toInt * copy,
    displacement.coefficient.toInt + advance.coefficient.toInt * copy, ?_, ?_, ?_, ?_⟩
  · rw [placed.address, address, moved, scaled, belongs.base, named, add_assoc, ← BitVec.ofInt_add]
    congr 2
    linarith [add_mul displacement.coefficient.toInt (advance.coefficient.toInt * copy)
      (strideValue window.stride group.state.registers)]
  · intro byte short
    have first := chosen.bounds.first copy inside
    have finish := chosen.bounds.finish copy inside
    have firstCoefficient := chosen.bounds.firstCoefficient copy inside
    have lastCoefficient := chosen.bounds.lastCoefficient copy inside
    have least := holds.first
    have most := holds.finish
    have small := holds.firstCoefficient
    have large := holds.lastCoefficient
    rw [placed.length] at short
    rw [named] at most
    constructor
    · linarith
    · have : (byte : Int) + 1 ≤ key.size := by exact_mod_cast short
      linarith
    · linarith
    · linarith
  · rw [belongs.step, named]
    have all : ∀ a ∈ [1, 2, 4, 8, 16, 32], a ∣ 2 ^ 32 := by decide
    exact all _ power
  · -- the copies, and the stride, move the access by whole alignments
    have congruent := (Int.modEq_iff_dvd (n := key.stride)
      (a := least + displacement.constant.toInt)
      (b := offset + displacement.constant.toInt + advance.constant.toInt * copy +
        (displacement.coefficient.toInt + advance.coefficient.toInt * copy) *
          strideValue window.stride group.state.registers)).mpr (by
        have parts := dvd_add
          (dvd_add whole ((Int.dvd_of_tmod_eq_zero constant).mul_right copy))
          ((dvd_add steps ((Int.dvd_of_tmod_eq_zero coefficient).mul_right copy)).mul_right
            (strideValue window.stride group.state.registers))
        generalize (displacement.coefficient.toInt + advance.coefficient.toInt * copy) *
          strideValue window.stride group.state.registers = strided at parts ⊢
        have same : offset + displacement.constant.toInt + advance.constant.toInt * copy + strided -
            (least + displacement.constant.toInt) =
            offset - least + advance.constant.toInt * copy + strided := by omega
        rw [same]
        exact parts)
    rw [belongs.step, named, ← congruent, belongs.residue, holds.residue, named]

/-- Every access whose key has an enabled window stays, in each copy of the cycle, on the page of
the base of the window at the entry of the group, at the residue of the window. -/
theorem accesses_on_page (decoded : ∀ entry ∈ cycle, Decoded entry.1)
    (ordinary : ∀ entry ∈ cycle, isOrdinary entry.1 = true)
    (entered : GroupEntry units profile (windowsOf cycle slots instructions)
      (copiesOf cycle (instructions / cycle.length)) group)
    (inside : copy < instructions / cycle.length) (split : cycle = before ++ (inst, pc) :: after)
    (reached : run units profile (copiesOf cycle copy ++ before.map Prod.fst) group = some now)
    (keyed : accessKey inst pc = some key)
    (found : (windowsOf cycle slots instructions).find key = some place) :
    ∃ window, (windowsOf cycle slots instructions).windows[place]? = some window ∧
      window.enabled = true ∧
      (∀ byte < accessLength inst,
        page 12 (accessAddress profile inst now.state + BitVec.ofNat 32 byte) =
          page 12 (group.state.registers window.base)) ∧
      (accessAddress profile inst now.state - group.state.registers window.base).toNat %
        window.step = window.residue := by
  obtain ⟨window, access, advance, there, enabled, known, chosen⟩ := find_spec found
  have noted := access_noted access (List.mem_of_find?_eq_some known)
  have named := accessOf_key known
  have base : key.base ≠ programCounter := by
    rintro counter
    have small := noted.observed.1
    rw [named, counter] at small
    exact absurd small (by decide)
  have general : ∀ stride, window.stride = some stride → stride ≠ programCounter := by
    intro stride strided
    rw [chosen.belongs.stride] at strided
    rcases Option.or_eq_some_iff.mp strided with first | ⟨-, second⟩
    · exact general_cycle cycle _ advance stride chosen.belongs.known first
    · exact noted.stride stride second
  have passes := guard_entered ordinary chosen.belongs (by rw [named]; exact base) general
    (List.mem_of_getElem? there) enabled entered
  obtain ⟨constant, coefficient, placed⟩ := access_placed decoded ordinary known chosen general base
    inside split reached keyed
  refine ⟨window, there, enabled, ?_, ?_⟩
  · intro byte short
    obtain ⟨above, below⟩ := guard_spec chosen passes (placed.within byte short)
    rw [placed.address, ← BitVec.ofInt_natCast, add_assoc, ← BitVec.ofInt_add, add_right_comm]
    exact page_displaced 12 (by decide) above below
  · have residue := displaced_mod (group.state.registers window.base)
      (constant + coefficient * strideValue window.stride group.state.registers) placed.step
    rw [← placed.address] at residue
    rw [← placed.residue, ← residue, ← Int.natCast_mod, Int.toNat_natCast]

/-- `LDR r1, [r0], #4` -/
def postIndexed : Instruction where
  kind := .transfer
  rd := 1
  rn := 0
  load := true
  immediateOperand := true
  immediate := 4
  index := false
  writeback := true
  accessSize := .word

def noUnits : Units where
  extension := fun _ _ state => state
  arithmeticControls := fun _ => 0
  exclusive := fun _ guest => (guest, {})

def lastWords : Guest where
  state := { registers := fun register => if register = 0 then 0x2ff8 else 0 }
  memory := fun _ => 0

/-- The second one of the last two words of a page. -/
theorem accesses_on_page_second :
    ∃ window, (windowsOf [(postIndexed, 0x1000)] 4 2).windows[0]? = some window ∧
      window.enabled = true ∧
      (∀ byte < accessLength postIndexed,
        page 12 (accessAddress {} postIndexed (step noUnits {} postIndexed lastWords).1.state +
          BitVec.ofNat 32 byte) = page 12 (lastWords.state.registers window.base)) ∧
      (accessAddress {} postIndexed (step noUnits {} postIndexed lastWords).1.state -
        lastWords.state.registers window.base).toNat % window.step = window.residue := by
  have entered : GroupEntry noUnits {} (windowsOf [(postIndexed, 0x1000)] 4 2)
      (copiesOf [(postIndexed, 0x1000)] 2) lastWords := .first (by decide)
  have inside : 1 < 2 / [(postIndexed, (0x1000 : Word))].length := by decide
  have reached : run noUnits {} (copiesOf [(postIndexed, 0x1000)] 1 ++ ([] : List (Instruction ×
      Word)).map Prod.fst) lastWords = some (step noUnits {} postIndexed lastWords).1 := rfl
  exact accesses_on_page (by simp [Decoded, postIndexed]) (by simp [isOrdinary, postIndexed])
    entered inside rfl reached rfl (by decide)

end ILEmu.Arm64
