import ILEmu.Arm64.InstructionWindow
import ILEmu.Foundation.PricedWalks
import ILEmu.Foundation.Run

/-! The answers of cached flag proofs. A search for an overwrite is a priced walk over the
instructions of the source, so a proof that one search has left is right for the limits of every
later one, as long as the window holds the instructions in the order of that walk. -/
namespace ILEmu.Arm64
open Arm hiding Instruction InstructionKind
open ArmInterpreter Foundation PricedWalks InstructionWindow

/-- Where a search stands, its limits apart. -/
structure Place where
  live : Word
  guardedControls : Word
  pc : Nat
  it : Word

namespace CodeView
variable (view : CodeView)

/-- What the source charges for an entry. -/
def charge (entry : DecodedInstruction) : Nat := view.ticks entry.pc (entry.word.getD 0)

/-- The move of a search across an entry, or `none` where the entry ends every search. -/
def crossing (place : Place) (entry : DecodedInstruction) : Option (Move Place) :=
  let effects := effectsUnder place.guardedControls entry.instruction
  if stops view place.live place.guardedControls place.pc entry then none
  else if view.charge entry = 0 then none
  else
    let live := place.live &&& ~~~effects.guaranteedWrite
    some
      { cost := view.charge entry
        next :=
          if live = 0 then none
          else
            some
              { live
                guardedControls := guardedAfter place.guardedControls entry.instruction
                pc := place.pc + entry.instruction.size
                it := view.nextIt entry.instruction place.it } }

theorem crossing_eq (live guardedControls : Word) (pc : Nat) (it : Word)
    (entry : DecodedInstruction) :
    view.crossing ⟨live, guardedControls, pc, it⟩ entry =
      if stops view live guardedControls pc entry then none
      else if view.charge entry = 0 then none
      else
        some ⟨view.charge entry,
          if live &&& ~~~(effectsUnder guardedControls entry.instruction).guaranteedWrite = 0 then
            none
          else
            some ⟨live &&& ~~~(effectsUnder guardedControls entry.instruction).guaranteedWrite,
              guardedAfter guardedControls entry.instruction, pc + entry.instruction.size,
              view.nextIt entry.instruction it⟩⟩ := rfl

/-- The move of a search from a place of the source. -/
def move (place : Place) : Option (Move Place) :=
  (view.decode place.pc place.it false).bind (view.crossing place)

/-- The proof and the search look at all flags. -/
def full (guardedControls : Word) (entry : DecodedInstruction) : Place :=
  ⟨0xf, guardedControls, entry.pc.toNat, entry.it⟩

/-- The instructions past which some search goes on. -/
def Crossable (inst : Instruction) : Prop :=
  (effectsUnder floatingComparisonControls inst).boundary = false

/-- The address and the IT state are those after the entry, if a search goes on past it. -/
def Leads (entry : DecodedInstruction) (pc : Nat) (it : Word) : Prop :=
  Crossable entry.instruction →
    pc = entry.pc.toNat + entry.instruction.size ∧ it = view.nextIt entry.instruction entry.it

def Follows (entry next : DecodedInstruction) : Prop := view.Leads entry next.pc.toNat next.it

end CodeView

variable {view : CodeView}

/-! ### Entries of the source -/

theorem decode_spec {pc : Nat} {it : Word} {allowStraddle : Bool} {entry : DecodedInstruction}
    (decoded : view.decode pc it allowStraddle = some entry) :
    entry.pc.toNat = pc ∧ entry.it = it ∧ entry.ticks = none := by
  have small : ∀ region, view.regions.containing pc = some region → pc < 2 ^ 32 := by
    intro region found
    have bounds := List.find?_some found
    simp only [Bool.and_eq_true, decide_eq_true_eq] at bounds
    have fits := view.regions.bounded region (List.mem_of_find?_eq_some found)
    omega
  unfold CodeView.decode at decoded
  split at decoded
  · contradiction
  · rename_i region found
    have low := Nat.mod_eq_of_lt (small region found)
    dsimp only at decoded
    split at decoded
    · split at decoded
      · cases decoded
        exact ⟨low, rfl, rfl⟩
      · split at decoded
        · split at decoded
          · contradiction
          · split at decoded <;> cases decoded <;> exact ⟨low, rfl, rfl⟩
        · cases decoded
          exact ⟨low, rfl, rfl⟩
    · split at decoded <;> cases decoded <;> exact ⟨low, rfl, rfl⟩

/-- A wide instruction that straddles the end of its region is decoded only on request, and does
not fit its region. -/
theorem decode_straddle {pc : Nat} {it : Word} {entry : DecodedInstruction}
    (decoded : view.decode pc it true = some entry) :
    view.decode pc it false = some entry ∨
      (view.decode pc it false = none ∧ view.fits pc entry = false) := by
  unfold CodeView.decode at decoded ⊢
  cases found : view.regions.containing pc with
  | none =>
    rw [found] at decoded
    contradiction
  | some region =>
    rw [found] at decoded
    dsimp only at decoded ⊢
    by_cases mode : view.thumb = true
    · rw [if_pos mode] at decoded ⊢
      cases fetched : view.source.fetch16 (BitVec.ofNat 32 pc) with
      | none =>
        rw [fetched] at decoded
        exact .inl decoded
      | some first =>
        rw [fetched] at decoded
        dsimp only at decoded ⊢
        by_cases wide : thumbIsWide first = true
        · rw [if_pos wide] at decoded ⊢
          rw [Bool.not_true, Bool.false_and, if_neg Bool.false_ne_true] at decoded
          by_cases straddles : region.finish < pc + 4
          · right
            refine ⟨by rw [decide_eq_true straddles]; rfl, ?_⟩
            unfold CodeView.fits
            rw [found]
            dsimp only
            split at decoded
            · cases decoded
              rfl
            · cases decoded
              simp only [CodeView.decodeT32, wide, if_true, Option.isSome_some, Bool.true_and,
                decide_eq_false_iff_not]
              omega
          · left
            rw [decide_eq_false straddles, Bool.and_false, if_neg Bool.false_ne_true]
            exact decoded
        · rw [if_neg wide] at decoded ⊢
          exact .inl decoded
    · rw [if_neg mode] at decoded ⊢
      exact .inl decoded

/-- An entry of a window is what the source holds at its address, and its ticks, once they are
paid, are what the source charges. -/
structure Genuine (view : CodeView) (entry : DecodedInstruction) : Prop where
  decoded : ∃ allowStraddle,
    view.decode entry.pc.toNat entry.it allowStraddle = some { entry with ticks := none }
  timed : ∀ ticks, entry.ticks = some ticks → ticks = view.charge entry

namespace Genuine
variable {entry other : DecodedInstruction}

theorem of_decode {pc : Nat} {it : Word} {allowStraddle : Bool}
    (decoded : view.decode pc it allowStraddle = some entry) : Genuine view entry := by
  obtain ⟨at_, same, untimed⟩ := decode_spec decoded
  have plain : { entry with ticks := none } = entry := by
    cases entry
    cases untimed
    rfl
  refine ⟨⟨allowStraddle, ?_⟩, fun ticks paid => ?_⟩
  · rw [plain, at_, same, decoded]
  · rw [untimed] at paid
    contradiction

theorem paid (genuine : Genuine view entry) : view.paid entry = view.charge entry := by
  unfold CodeView.paid
  split
  · rename_i ticks told
    exact genuine.timed ticks told
  · rfl

/-- A search that stands at the entry moves across it. -/
theorem crossing (genuine : Genuine view entry) {place : Place} (at_ : place.pc = entry.pc.toNat)
    (same : place.it = entry.it) : view.crossing place entry = view.move place := by
  have plain : view.crossing place entry = view.crossing place { entry with ticks := none } := rfl
  obtain ⟨allowStraddle, decoded⟩ := genuine.decoded
  obtain ⟨live, guardedControls, pc, it⟩ := place
  dsimp only at at_ same
  subst at_ same
  unfold CodeView.move
  dsimp only
  cases allowStraddle with
  | false => rw [decoded, plain, Option.bind_some]
  | true =>
    rcases decode_straddle decoded with direct | ⟨refused, outside⟩
    · rw [direct, plain, Option.bind_some]
    · rw [refused, plain, Option.bind_none]
      unfold CodeView.crossing stops
      rw [outside]
      rfl

/-- The source holds one word at an address. -/
theorem unique (genuine : Genuine view entry) (genuine' : Genuine view other)
    (at_ : entry.pc = other.pc) (same : entry.it = other.it) : entry.word = other.word := by
  have agree : ∀ {first second : DecodedInstruction} {pc : Nat} {it : Word},
      view.decode pc it true = some first → view.decode pc it false = some second →
        first = second := by
    intro first second pc it straddling direct
    rcases decode_straddle straddling with same | ⟨refused, -⟩
    · exact Option.some.inj (same.symm.trans direct)
    · rw [refused] at direct
      contradiction
  obtain ⟨straddle, decoded⟩ := genuine.decoded
  obtain ⟨straddle', decoded'⟩ := genuine'.decoded
  rw [← at_, ← same] at decoded'
  cases straddle with
  | false =>
    cases straddle' with
    | false => exact congrArg (·.word) (Option.some.inj (decoded.symm.trans decoded'))
    | true => exact (congrArg (·.word) (agree decoded' decoded)).symm
  | true =>
    cases straddle' with
    | false => exact congrArg (·.word) (agree decoded decoded')
    | true => exact congrArg (·.word) (Option.some.inj (decoded.symm.trans decoded'))

end Genuine

theorem move_priced (view : CodeView) : Priced view.move := by
  intro place move taken
  obtain ⟨entry, -, crossed⟩ := Option.bind_eq_some_iff.mp taken
  unfold CodeView.crossing at crossed
  dsimp only at crossed
  split at crossed
  · contradiction
  · split at crossed
    · contradiction
    · rename_i charged
      cases crossed
      exact Nat.pos_of_ne_zero charged

theorem crossable_of_effects {guardedControls : Word} {inst : Instruction}
    (open_ : (effectsUnder guardedControls inst).boundary = false) :
    CodeView.Crossable inst := by
  unfold CodeView.Crossable
  unfold effectsUnder at open_ ⊢
  cases kind : inst.kind with
  | floatingComparison operands =>
    rw [kind] at open_
    dsimp only at open_ ⊢
    split at open_
    · rename_i guarded
      rw [if_pos ⟨guarded.1, by decide⟩]
    · split
      · rfl
      · exact open_
  | _ =>
    rw [kind] at open_
    exact open_

end ILEmu.Arm64
