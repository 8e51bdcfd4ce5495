import ILEmu.Arm.Instruction

/-! Decoding of the instructions that transfer two words. -/
namespace ILEmu.Arm

/-- The register that four bits of a word name. -/
def registerAt (word : Word) (start : Nat) : Register := (word.extractLsb' start 4).toFin

def stackPointer : Register := 13

/-- The operands of a Thumb encoding, and whether they are supported. -/
def thumbDualOperands (out : Instruction) (word : Word) (armv6t2Extensions : Bool) :
    Option (Instruction × Bool) :=
  -- P = W = 0 belongs to the exclusive transfers.
  if word &&& 0xfe400000 ≠ 0xe8400000 ∨ (word.getLsbD 24 = false ∧ word.getLsbD 21 = false) then
    none
  else if armv6t2Extensions = false then some (out, false)
  else
    let decoded := { out with
      rn := registerAt word 16, rd := registerAt word 12, rs := registerAt word 8
      load := word.getLsbD 20, index := word.getLsbD 24, add := word.getLsbD 23
      writeback := word.getLsbD 21
      immediateOperand := true, immediate := (word &&& 255) <<< 2 }
    some (decoded, !decide (decoded.rd = stackPointer ∨ decoded.rd = programCounter ∨
      decoded.rs = stackPointer ∨ decoded.rs = programCounter ∨
      (decoded.load = true ∧ decoded.rd = decoded.rs) ∨
      (decoded.load = false ∧ decoded.rn = programCounter)))

def armDualOperands (out : Instruction) (word : Word) : Option (Instruction × Bool) :=
  if out.condition = 15 ∨ word &&& 0x0e1000d0 ≠ 0x000000d0 then none
  else
    let named := { out with
      rn := registerAt word 16, rd := registerAt word 12, rs := registerAt word 12 + 1
      load := !word.getLsbD 5, index := word.getLsbD 24, add := word.getLsbD 23
      writeback := !word.getLsbD 24 || word.getLsbD 21
      immediateOperand := word.getLsbD 22 }
    if named.rd.val % 2 ≠ 0 ∨ named.rs = programCounter ∨
        (named.index = false ∧ word.getLsbD 21 = true) then some (named, false)
    else if named.immediateOperand = true then
      some ({ named with immediate := ((word >>> 4) &&& 0xf0) ||| (word &&& 15) }, true)
    else
      let decoded := { named with rm := registerAt word 0 }
      some (decoded, !decide (word &&& 0xf00 ≠ 0 ∨ decoded.rm = programCounter ∨
        (decoded.load = true ∧ (decoded.rm = decoded.rd ∨ decoded.rm = decoded.rs))))

/-- What is of the family and not supported stays so. -/
def finishDualTransfer (out : Instruction) (supported : Bool) : Instruction :=
  if supported = false then out
  else if out.writeback = true ∧
      (out.rn = programCounter ∨ out.rn = out.rd ∨ out.rn = out.rs) then out
  else
    have aligned := { out with
      alignPc := out.load && decide (out.rn = programCounter) && out.immediateOperand }
    if aligned.alignPc = true ∧ (aligned.index = false ∨ aligned.writeback = true) then aligned
    else { aligned with accessSize := .word, kind := .dualTransfer }

/-- Nothing if the word is of another family. -/
def decodeDualTransfer (out : Instruction) (word : Word) (thumb armv6t2Extensions : Bool) :
    Option Instruction :=
  let operands :=
    if thumb then thumbDualOperands out word armv6t2Extensions else armDualOperands out word
  operands.map fun (decoded, supported) => finishDualTransfer decoded supported

/-- What is known of the operands of a supported encoding. -/
structure DualOperands (inst : Instruction) : Prop where
  destination : inst.rd ≠ programCounter
  second : inst.rs ≠ programCounter
  distinct : inst.load = true → inst.rd ≠ inst.rs
  offset : inst.load = true → inst.immediateOperand = false →
    inst.rm ≠ inst.rd ∧ inst.rm ≠ inst.rs
  indexed : inst.writeback = false → inst.index = true

theorem thumbDualOperands_kind {out decoded : Instruction} {word : Word}
    {armv6t2Extensions supported : Bool}
    (found : thumbDualOperands out word armv6t2Extensions = some (decoded, supported)) :
    decoded.kind = out.kind := by
  unfold thumbDualOperands at found
  split at found
  · contradiction
  · split at found
    · cases found
      rfl
    · cases found
      rfl

theorem armDualOperands_kind {out decoded : Instruction} {word : Word} {supported : Bool}
    (found : armDualOperands out word = some (decoded, supported)) : decoded.kind = out.kind := by
  unfold armDualOperands at found
  dsimp only at found
  split at found
  · contradiction
  · split at found
    · cases found
      rfl
    · split at found
      · cases found
        rfl
      · cases found
        rfl

theorem thumbDualOperands_supported {out decoded : Instruction} {word : Word}
    {armv6t2Extensions : Bool}
    (found : thumbDualOperands out word armv6t2Extensions = some (decoded, true)) :
    DualOperands decoded ∧ decoded.size = out.size := by
  unfold thumbDualOperands at found
  split at found
  · contradiction
  · rename_i family
    split at found
    · cases found
    · simp only [Option.some.injEq, Prod.mk.injEq, Bool.not_eq_true', decide_eq_false_iff_not,
        not_or] at found
      obtain ⟨rfl, stack, destination, _, second, distinct, -⟩ := found
      refine ⟨⟨destination, second, ?_, ?_, ?_⟩, rfl⟩
      · exact fun load same => distinct ⟨load, same⟩
      · exact fun _ immediate => absurd immediate (by simp)
      · intro plain
        by_contra unindexed
        exact family (.inr ⟨by simpa using unindexed, plain⟩)

theorem armDualOperands_supported {out decoded : Instruction} {word : Word}
    (found : armDualOperands out word = some (decoded, true)) :
    DualOperands decoded ∧ decoded.size = out.size := by
  unfold armDualOperands at found
  have even : ∀ r : Register, ¬r.val % 2 ≠ 0 → r ≠ programCounter ∧ r ≠ r + 1 := by decide
  dsimp only at found
  split at found
  · contradiction
  · split at found
    · cases found
    · rename_i named
      simp only [not_or] at named
      obtain ⟨pair, second, -⟩ := named
      obtain ⟨destination, distinct⟩ := even _ pair
      split at found
      · rename_i immediate
        cases found
        refine ⟨⟨destination, second, fun _ => distinct, ?_, ?_⟩, rfl⟩
        · exact fun _ register => absurd (immediate.symm.trans register) (by decide)
        · exact fun plain => by simpa using (Bool.or_eq_false_iff.mp plain).1
      · simp only [Option.some.injEq, Prod.mk.injEq, Bool.not_eq_true', decide_eq_false_iff_not,
          not_or, not_and] at found
        obtain ⟨rfl, -, -, offset⟩ := found
        refine ⟨⟨destination, second, fun _ => distinct, ?_, ?_⟩, rfl⟩
        · intro load _
          simpa using offset (by simpa using load)
        · exact fun plain => by simpa using (Bool.or_eq_false_iff.mp plain).1

theorem finishDualTransfer_operands {out : Instruction} {supported : Bool}
    (fresh : out.kind = .unsupported)
    (dual : (finishDualTransfer out supported).kind = .dualTransfer) :
    supported = true ∧
      (out.writeback = true → out.rn ≠ out.rd ∧ out.rn ≠ out.rs) ∧
      finishDualTransfer out supported = { out with
        alignPc := out.load && decide (out.rn = programCounter) && out.immediateOperand
        accessSize := .word, kind := .dualTransfer } := by
  have plain : out.kind ≠ .dualTransfer := by
    rw [fresh]
    decide
  unfold finishDualTransfer at dual ⊢
  dsimp only at dual ⊢
  by_cases unsupported : supported = false
  · rw [if_pos unsupported] at dual
    exact absurd dual plain
  · rw [if_neg unsupported] at dual ⊢
    by_cases overlaps : out.writeback = true ∧
        (out.rn = programCounter ∨ out.rn = out.rd ∨ out.rn = out.rs)
    · rw [if_pos overlaps] at dual
      exact absurd dual plain
    · rw [if_neg overlaps] at dual ⊢
      split at dual
      · exact absurd dual plain
      · rename_i aligned
        refine ⟨Bool.eq_true_of_not_eq_false unsupported, ?_, if_neg aligned⟩
        intro writeback
        exact ⟨fun same => overlaps ⟨writeback, .inr (.inl same)⟩,
          fun same => overlaps ⟨writeback, .inr (.inr same)⟩⟩

/-- A decoded transfer of two words, of the size that the caller has given. -/
structure DecodedDual (inst : Instruction) (size : Nat) : Prop extends DualOperands inst where
  width : inst.size = size
  base : inst.writeback = true → inst.rn ≠ inst.rd ∧ inst.rn ≠ inst.rs

theorem decodeDualTransfer_decoded {out inst : Instruction} {word : Word}
    {thumb armv6t2Extensions : Bool} (fresh : out.kind = .unsupported)
    (decoded : decodeDualTransfer out word thumb armv6t2Extensions = some inst)
    (dual : inst.kind = .dualTransfer) : DecodedDual inst out.size := by
  obtain ⟨⟨operands, supported⟩, found, rfl⟩ := Option.map_eq_some_iff.mp decoded
  have kinds : operands.kind = .unsupported := by
    rw [← fresh]
    cases thumb with
    | true => exact thumbDualOperands_kind found
    | false => exact armDualOperands_kind found
  obtain ⟨rfl, base, same⟩ := finishDualTransfer_operands kinds dual
  have known : DualOperands operands ∧ operands.size = out.size := by
    cases thumb with
    | true => exact thumbDualOperands_supported found
    | false => exact armDualOperands_supported found
  obtain ⟨known, width⟩ := known
  change DecodedDual (finishDualTransfer operands true) out.size
  rw [same]
  exact { known with width, base }

end ILEmu.Arm
