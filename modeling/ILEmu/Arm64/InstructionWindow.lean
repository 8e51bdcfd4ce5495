import ILEmu.Arm64.FlagEffects
import ILEmu.ArmInterpreter.Interpreter
import Mathlib.Data.List.Sort

/-! The window of decoded instructions that lookahead and emission share while a trace is
compiled, and its proofs that flags are dead. -/
namespace ILEmu.Arm64
open Arm hiding Instruction InstructionKind
open ArmInterpreter

structure InstructionRegion where
  begin : Nat := 0
  finish : Nat := 2 ^ 32
  deriving DecidableEq, Repr

/-! ### The regions that authorize code -/

namespace CodeRegions

def capacity : Nat := 4

def wellFormed (region : InstructionRegion) : Bool :=
  decide (region.begin < region.finish) && decide (region.finish ≤ 2 ^ 32)

/-- A region is merged with the last one before it, if they touch. -/
def merge (merged : List InstructionRegion) (region : InstructionRegion) :
    List InstructionRegion :=
  match merged with
  | [] => [region]
  | last :: rest =>
    if region.begin ≤ last.finish then
      { last with finish := max last.finish region.finish } :: rest
    else region :: last :: rest

def Bounded (regions : List InstructionRegion) : Prop := ∀ region ∈ regions, region.finish ≤ 2 ^ 32

theorem merge_bounded {merged : List InstructionRegion} {region : InstructionRegion}
    (bounded : Bounded merged) (fits : region.finish ≤ 2 ^ 32) :
    Bounded (merge merged region) := by
  cases merged with
  | nil => simpa [merge, Bounded] using fits
  | cons last rest =>
    obtain ⟨lastFits, restFits⟩ := List.forall_mem_cons.mp bounded
    simp only [merge]
    split
    · intro other member
      rcases List.mem_cons.mp member with rfl | older
      · exact Nat.max_le.mpr ⟨lastFits, fits⟩
      · exact restFits other older
    · intro other member
      rcases List.mem_cons.mp member with rfl | older
      · exact fits
      · exact bounded other older

theorem foldl_merge_bounded (regions : List InstructionRegion) {merged : List InstructionRegion}
    (bounded : Bounded merged) (fit : Bounded regions) : Bounded (regions.foldl merge merged) := by
  induction regions generalizing merged with
  | nil => exact bounded
  | cons region rest ih =>
    obtain ⟨fits, restFit⟩ := List.forall_mem_cons.mp fit
    exact ih (merge_bounded bounded fits) restFit

end CodeRegions

/-- Disjoint views of code, none of which reaches past the guest's addresses. -/
structure CodeRegions where
  regions : List InstructionRegion
  bounded : CodeRegions.Bounded regions

namespace CodeRegions

/-- More regions than the capacity are refused with an exception. -/
def ofRegions (regions : List InstructionRegion) : Option CodeRegions :=
  if capacity < regions.length then none
  else
    let sorted := (regions.filter wellFormed).mergeSort fun a b => decide (a.begin ≤ b.begin)
    some
      { regions := (sorted.foldl merge []).reverse
        bounded := by
          intro region member
          refine foldl_merge_bounded _ (fun _ absent => absurd absent List.not_mem_nil) ?_ region
            (List.mem_reverse.mp member)
          intro region member
          have kept := List.of_mem_filter (List.mem_mergeSort.mp member)
          simp only [wellFormed, Bool.and_eq_true, decide_eq_true_eq] at kept
          exact kept.2 }

def containing (code : CodeRegions) (pc : Nat) : Option InstructionRegion :=
  code.regions.find? fun region => decide (region.begin ≤ pc) && decide (pc < region.finish)

end CodeRegions

/-! ### Decoding -/

/-- The instructions of a guest, their timing, and the decoders for its profiles. -/
structure InstructionSource where
  fetch16 : Word → Option (BitVec 16)
  fetch32 : Word → Option Word
  ticksForInstruction : Word → Word → Nat
  supportsMixedInstructionTiming : Bool := false
  mixedTicksForInstruction : Bool → Word → Word → Nat := fun _ => ticksForInstruction
  /-- Everything but the size, which both decoders set from the encoding alone. -/
  decodeA32 : Word → Instruction
  decodeT32 : BitVec 16 → Option (BitVec 16) → Word → Instruction

def thumbIsWide (first : BitVec 16) : Bool := decide ((0xe800 : BitVec 16) ≤ first &&& 0xf800)

structure DecodedInstruction where
  pc : Word
  it : Word
  word : Option Word := none
  instruction : Instruction := {}
  ticks : Option Nat := none

/-- What a window reads: a source, through the regions that authorize it, in one mode. -/
structure CodeView where
  source : InstructionSource
  regions : CodeRegions
  thumb : Bool

namespace CodeView
variable (view : CodeView)

def decodeT32 (first : BitVec 16) (second : Option (BitVec 16)) (it : Word) : Instruction :=
  { view.source.decodeT32 first second it with size := if thumbIsWide first then 4 else 2 }

def decodeA32 (word : Word) : Instruction :=
  { view.source.decodeA32 word with size := 4 }

def decode (pc : Nat) (it : Word) (allowStraddle : Bool) : Option DecodedInstruction :=
  match view.regions.containing pc with
  | none => none
  | some region =>
    let out : DecodedInstruction := { pc := BitVec.ofNat 32 pc, it }
    if view.thumb then
      match view.source.fetch16 out.pc with
      | none => some out
      | some first =>
        if thumbIsWide first then
          if !allowStraddle && decide (region.finish < pc + 4) then none
          else
            match view.source.fetch16 (out.pc + 2) with
            | none => some out
            | some second =>
              some
                { out with
                  word := some (second ++ first)
                  instruction := view.decodeT32 first (some second) it }
        else
          some
            { out with
              word := some (first.setWidth 32)
              instruction := view.decodeT32 first none it }
    else
      match view.source.fetch32 out.pc with
      | none => some out
      | some word => some { out with word := some word, instruction := view.decodeA32 word }

/-- The timing of a decoded word. -/
def ticks (pc word : Word) : Nat :=
  if view.source.supportsMixedInstructionTiming then
    view.source.mixedTicksForInstruction view.thumb pc word
  else view.source.ticksForInstruction pc word

/-- The ticks of an entry, once they are paid. Only entries with a word are timed. -/
def paid (entry : DecodedInstruction) : Nat :=
  match entry.ticks with
  | some ticks => ticks
  | none => view.ticks entry.pc (entry.word.getD 0)

/-- An entry lies in the region that authorizes its first byte. -/
def fits (pc : Nat) (entry : DecodedInstruction) : Bool :=
  match view.regions.containing pc with
  | none => false
  | some region => entry.word.isSome && decide (pc + entry.instruction.size ≤ region.finish)

def nextIt (inst : Instruction) (it : Word) : Word :=
  if view.thumb then if inst.kind = .ifThen then inst.immediate else advanceIt it else 0

end CodeView

/-! ### The window -/

inductive FlagProofKind where
  | overwrite | terminalFailure | boundedFailure
  deriving DecidableEq, Repr

structure FlagProof where
  reusablePrefix : Nat
  instructions : Nat
  ticks : Nat
  kind : FlagProofKind
  deriving DecidableEq, Repr

namespace FlagProof

/-- Subtraction of 64-bit counts, which wraps. -/
def lessTicks (a b : Nat) : Nat :=
  if b ≤ a then a - b else a + 2 ^ 64 - b

/-- A proof after the first entry of its prefix. -/
def consume (proof : FlagProof) (ticks : Nat) : Option FlagProof :=
  if proof.reusablePrefix - 1 = 0 then none
  else if proof.kind = .terminalFailure then
    some { proof with reusablePrefix := proof.reusablePrefix - 1 }
  else
    some
      { proof with
        reusablePrefix := proof.reusablePrefix - 1
        instructions := proof.instructions - 1
        ticks := lessTicks proof.ticks ticks }

/-- The answer of a cached proof, unless the query reaches past what an exhausted search
covers. -/
def answer (proof : FlagProof) (remainingInstructions remainingTicks : Nat) :
    Option Bool :=
  match proof.kind with
  | .terminalFailure => some false
  | .overwrite =>
    some (decide (proof.instructions ≤ remainingInstructions) &&
      decide (proof.ticks ≤ remainingTicks))
  | .boundedFailure =>
    if remainingInstructions ≤ proof.instructions ∨ remainingTicks ≤ proof.ticks then some false
    else none

end FlagProof

structure InstructionWindow where
  pending : List DecodedInstruction := []
  consumed : Nat := 0
  retainCycle : Bool := false
  /-- The proofs for all flags, without guarded controls and with those of a comparison. -/
  fullFlagsDead : Bool → Option FlagProof := fun _ => none

namespace InstructionWindow

def match_ (window : InstructionWindow) (pc it : Word) : InstructionWindow :=
  match window.pending[window.consumed]? with
  | none => window
  | some entry =>
    if entry.pc ≠ pc ∨ entry.it ≠ it then {} else window

def take (view : CodeView) (window : InstructionWindow) (pc it : Word) (allowStraddle : Bool) :
    Option DecodedInstruction × InstructionWindow :=
  let window := window.match_ pc it
  match window.pending[window.consumed]? with
  | none =>
    match view.decode pc.toNat it allowStraddle with
    | none => (none, window)
    | some out =>
      if window.retainCycle then
        (some out,
          { window with
            pending := window.pending ++ [out]
            consumed := window.consumed + 1 })
      else (some out, window)
  | some out =>
    (some out,
      { window with
        pending := if window.retainCycle then window.pending else window.pending.tail
        consumed := if window.retainCycle then window.consumed + 1 else window.consumed
        -- A prefix holds only entries whose ticks are paid.
        fullFlagsDead := fun guarded =>
          (window.fullFlagsDead guarded).bind (FlagProof.consume · (out.ticks.getD 0)) })

/-- Keeps paid timing in the original of the entry that was taken last. -/
def keepTicks (window : InstructionWindow) (entry : DecodedInstruction) (ticks : Nat) :
    InstructionWindow :=
  if window.retainCycle && decide (window.consumed ≠ 0) then
    { window with
      pending := window.pending.modify (window.consumed - 1) fun original =>
        if original.pc = entry.pc ∧ original.it = entry.it then
          { original with ticks := some ticks }
        else original }
  else window

def timing (view : CodeView) (window : InstructionWindow) (entry : DecodedInstruction) :
    DecodedInstruction × InstructionWindow :=
  ({ entry with ticks := some (view.paid entry) }, window.keepTicks entry (view.paid entry))

/-- Timing of an entry inside the window. -/
def timingAt (view : CodeView) (window : InstructionWindow) (index : Nat)
    (entry : DecodedInstruction) : InstructionWindow :=
  { window with
    pending := window.pending.set index { entry with ticks := some (view.paid entry) } }.keepTicks
      entry (view.paid entry)

def repeatCycle (window : InstructionWindow) : InstructionWindow :=
  if !window.retainCycle || decide (window.consumed = 0) then window
  else
    { window with
      pending := window.pending.take window.consumed
      consumed := 0
      fullFlagsDead := fun _ => none }

/-! ### Dead flags -/

/-- The effects of an entry, where comparisons may be crossed once their controls are guarded. -/
def effectsUnder (guardedControls : Word) (inst : Instruction) : FlagEffects :=
  match inst.kind with
  | .floatingComparison _ =>
    if inst.condition ≠ 15 ∧
        guardedControls &&& floatingComparisonControls = floatingComparisonControls then
      { flagEffects inst with boundary := false }
    else flagEffects inst
  | _ => flagEffects inst

/-- Writes of the status of floating point revoke the guarantee. -/
def guardedAfter (guardedControls : Word) (inst : Instruction) : Word :=
  match inst.kind with
  | .floatingSystem operands => if operands.toCore then guardedControls else 0
  | _ => guardedControls

/-- The variables of the search for an overwrite. -/
structure Search where
  live : Word
  guardedControls : Word
  pc : Nat
  it : Word
  remainingTicks : Nat
  reusablePrefix : Nat := 0

/-- What a search has in common with all its turns. -/
structure Query where
  cached : Bool
  initialControls : Word
  initialTicks : Nat

/-- The entry of turn `i`, decoded and appended where the window ends. -/
def entryAt (view : CodeView) (window : InstructionWindow) (i pc : Nat) (it : Word) :
    Option (DecodedInstruction × InstructionWindow) :=
  match window.pending[window.consumed + i]? with
  | some entry => some (entry, window)
  | none =>
    (view.decode pc it false).map fun entry =>
      (entry, { window with pending := window.pending ++ [entry] })

def reusable (query : Query) (i : Nat) (at_ : Search) : Nat :=
  if query.cached && decide (at_.live = 0xf) &&
      decide (at_.guardedControls = query.initialControls) then i + 1
  else at_.reusablePrefix

/-- The entry leaves its region, or has effects that no proof may cross. -/
def stops (view : CodeView) (live guardedControls : Word) (pc : Nat)
    (entry : DecodedInstruction) : Bool :=
  let effects := effectsUnder guardedControls entry.instruction
  !view.fits pc entry || effects.boundary || decide (effects.read &&& live ≠ 0)

/-- A turn with the entry it looks at: it ends the search with a proof, or goes on. -/
def turnAt (view : CodeView) (query : Query) (i : Nat) (at_ : Search) (window : InstructionWindow)
    (entry : DecodedInstruction) : (FlagProof ⊕ Search) × InstructionWindow :=
  let reusable := reusable query i at_
  let effects := effectsUnder at_.guardedControls entry.instruction
  if stops view at_.live at_.guardedControls at_.pc entry then
    (.inl ⟨reusable, 0, 0, .terminalFailure⟩, window)
  else
    let cost := view.paid entry
    let window := timingAt view window (window.consumed + i) entry
    if cost = 0 then (.inl ⟨reusable, 0, 0, .terminalFailure⟩, window)
    else if at_.remainingTicks < cost then
      (.inl ⟨reusable, i, query.initialTicks, .boundedFailure⟩, window)
    else
      let live := at_.live &&& ~~~effects.guaranteedWrite
      if live = 0 then
        (.inl ⟨reusable, i + 1, query.initialTicks - (at_.remainingTicks - cost), .overwrite⟩,
          window)
      else
        (.inr
          { live
            guardedControls := guardedAfter at_.guardedControls entry.instruction
            pc := at_.pc + entry.instruction.size
            it := view.nextIt entry.instruction at_.it
            remainingTicks := at_.remainingTicks - cost
            reusablePrefix := reusable }, window)

def turn (view : CodeView) (query : Query) (i : Nat) (at_ : Search) (window : InstructionWindow) :
    (FlagProof ⊕ Search) × InstructionWindow :=
  match entryAt view window i at_.pc at_.it with
  | none => (.inl ⟨at_.reusablePrefix, 0, 0, .terminalFailure⟩, window)
  | some (entry, window) => turnAt view query i at_ window entry

/-- The loop over the remaining instructions. -/
def search (view : CodeView) (query : Query) :
    Nat → Nat → Search → InstructionWindow → FlagProof × InstructionWindow
  | 0, i, at_, window =>
    (⟨at_.reusablePrefix, i, query.initialTicks - at_.remainingTicks, .boundedFailure⟩, window)
  | remaining + 1, i, at_, window =>
    match turn view query i at_ window with
    | (.inl proof, window) => (proof, window)
    | (.inr at_, window) => search view query remaining (i + 1) at_ window

/-- Which of the two caches a query uses, if any. -/
def cacheOf (live guardedControls : Word) : Option Bool :=
  if live = 0xf then
    if guardedControls = 0 then some false
    else if guardedControls = floatingComparisonControls then some true
    else none
  else none

/-- A search from the start of the window, whose proof is kept if it has a prefix. -/
def flagsDeadAfresh (view : CodeView) (window : InstructionWindow) (live pc it : Word)
    (remainingInstructions remainingTicks : Nat) (guardedControls : Word) :
    Bool × InstructionWindow :=
  let cache := cacheOf live guardedControls
  let (proof, window) :=
    search view ⟨cache.isSome, guardedControls, remainingTicks⟩ remainingInstructions 0
      { live, guardedControls, pc := pc.toNat, it, remainingTicks } window
  (decide (proof.kind = .overwrite),
    match cache with
    | none => window
    | some guarded =>
      if proof.reusablePrefix = 0 then window
      else
        { window with fullFlagsDead := Function.update window.fullFlagsDead guarded (some proof) })

/-- The cached proof that a query finds. -/
def cachedProof (window : InstructionWindow) (live guardedControls : Word) : Option FlagProof :=
  (cacheOf live guardedControls).bind window.fullFlagsDead

def flagsDead (view : CodeView) (window : InstructionWindow) (live pc it : Word)
    (remainingInstructions remainingTicks : Nat) (guardedControls : Word) :
    Bool × InstructionWindow :=
  if live = 0 then (false, window)
  else
    let window := window.match_ pc it
    match cachedProof window live guardedControls with
    | none =>
      flagsDeadAfresh view window live pc it remainingInstructions remainingTicks guardedControls
    | some proof =>
      match proof.answer remainingInstructions remainingTicks with
      | some answer => (answer, window)
      | none =>
        let window :=
          match cacheOf live guardedControls with
          | none => window
          | some guarded =>
            { window with fullFlagsDead := Function.update window.fullFlagsDead guarded none }
        flagsDeadAfresh view window live pc it remainingInstructions remainingTicks
          guardedControls

/-- Whether the flags that an instruction may write are dead after it. -/
def flagsDeadAfter (view : CodeView) (window : InstructionWindow) (inst : Instruction)
    (nextPc nextIt : Word) (remainingInstructions remainingTicks : Nat) :
    Bool × InstructionWindow :=
  let producer := flagEffects inst
  if producer.possibleWrite = 0 ∨ producer.boundary then (false, window)
  else
    flagsDead view window producer.possibleWrite nextPc nextIt remainingInstructions
      remainingTicks 0

end InstructionWindow
end ILEmu.Arm64
