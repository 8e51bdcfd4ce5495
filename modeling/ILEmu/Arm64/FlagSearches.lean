import ILEmu.Arm64.FlagWindows
import Mathlib.Algebra.Order.BigOperators.Group.List

/-! The search for an overwrite, turn by turn: it gives the verdict of a walk over the source, and
the proof that it leaves is right for the window. -/
namespace ILEmu.Arm64
open Arm hiding Instruction InstructionKind
open ArmInterpreter Foundation PricedWalks InstructionWindow
variable {view : CodeView}

/-- A search stands at entry `i` ahead, and started from the address and the IT state. -/
structure Standing (view : CodeView) (query : Query) (start : Nat × Word) (i : Nat) (at_ : Search)
    (window : InstructionWindow) : Prop where
  sound : Sound view window
  reached : i ≤ window.ahead.length
  origin : i = 0 → (at_.pc, at_.it) = start
  first : ∀ entry ∈ window.ahead.head?, (entry.pc.toNat, entry.it) = start
  here : ∀ entry, window.ahead[i]? = some entry → entry.pc.toNat = at_.pc ∧ entry.it = at_.it
  behind : i = window.ahead.length → ∀ entry ∈ window.ahead.getLast?,
    view.Leads entry at_.pc at_.it
  budget : at_.remainingTicks ≤ query.initialTicks
  spent : ((window.ahead.take i).map view.charge).sum = query.initialTicks - at_.remainingTicks
  short : at_.reusablePrefix ≤ i
  uncached : query.cached = false → at_.reusablePrefix = 0
  controls : at_.guardedControls = query.initialControls ∨ at_.guardedControls = 0
  flags : query.cached = true → at_.live &&& ~~~(0xf : Word) = 0
  transparent : ∀ entry ∈ window.ahead.take (at_.reusablePrefix - 1),
    Transparent view query.initialControls entry
  whole : query.cached = true → at_.live = 0xf → at_.guardedControls = query.initialControls →
    ∀ entry ∈ window.ahead.take i, Transparent view query.initialControls entry

/-- What a finished search leaves: a window, and a proof whose prefix is ahead. -/
structure Finished (view : CodeView) (query : Query) (start : Nat × Word) (proof : FlagProof)
    (window : InstructionWindow) : Prop where
  sound : Sound view window
  first : ∀ entry ∈ window.ahead.head?, (entry.pc.toNat, entry.it) = start
  covered : proof.reusablePrefix ≤ window.ahead.length
  uncached : query.cached = false → proof.reusablePrefix = 0
  transparent : ∀ entry ∈ window.ahead.take (proof.reusablePrefix - 1),
    Transparent view query.initialControls entry
  afforded : proof.kind ≠ .terminalFailure →
    ((window.ahead.take (proof.reusablePrefix - 1)).map view.charge).sum ≤ proof.ticks

def InstructionWindow.Search.place (at_ : Search) : Place := ⟨at_.live, at_.guardedControls, at_.pc, at_.it⟩

namespace Standing
variable {query : Query} {start : Nat × Word} {i : Nat} {at_ : Search}
  {window : InstructionWindow} {entry : DecodedInstruction}

theorem retime (standing : Standing view query start i at_ window)
    {later : List DecodedInstruction}
    (retimed : List.Forall₂ (Retimed view) window.pending later) :
    Standing view query start i at_ { window with pending := later } where
  sound := standing.sound.retime retimed
  reached := by
    have same := List.forall₂_drop window.consumed retimed
    exact Nat.le_trans standing.reached (Nat.le_of_eq same.length_eq)
  origin := standing.origin
  first := by
    intro entry member
    have same := List.forall₂_drop window.consumed retimed
    change entry ∈ (later.drop window.consumed).head? at member
    rw [List.head?_eq_getElem?] at member
    obtain ⟨before, found, timed⟩ := Retimed.getElem? same member
    obtain ⟨pc, it, -⟩ := timed.place
    rw [pc, it]
    exact standing.first before (by rw [List.head?_eq_getElem?]; exact found)
  here := by
    intro entry found
    obtain ⟨before, found, timed⟩ :=
      Retimed.getElem? (List.forall₂_drop window.consumed retimed) found
    obtain ⟨pc, it, -⟩ := timed.place
    rw [pc, it]
    exact standing.here before found
  behind := by
    intro last entry member
    have same := List.forall₂_drop window.consumed retimed
    change i = (later.drop window.consumed).length at last
    change entry ∈ (later.drop window.consumed).getLast? at member
    rw [← same.length_eq] at last
    rw [List.getLast?_eq_getElem?, ← same.length_eq] at member
    obtain ⟨before, found, timed⟩ := Retimed.getElem? same member
    obtain ⟨pc, it, inst⟩ := timed.place
    have leads := standing.behind last before (by rw [List.getLast?_eq_getElem?]; exact found)
    unfold CodeView.Leads at leads ⊢
    rw [pc, it, inst]
    exact leads
  budget := standing.budget
  spent := by
    rw [← standing.spent]
    exact congrArg List.sum
      (Retimed.charges (List.forall₂_take i (List.forall₂_drop window.consumed retimed)))
  short := standing.short
  uncached := standing.uncached
  controls := standing.controls
  flags := standing.flags
  transparent := by
    intro entry member
    obtain ⟨before, found, same⟩ :=
      Retimed.mem (List.forall₂_take _ (List.forall₂_drop window.consumed retimed)) member
    exact (standing.transparent before found).retime same
  whole := by
    intro cached full guarded entry member
    obtain ⟨before, found, same⟩ :=
      Retimed.mem (List.forall₂_take _ (List.forall₂_drop window.consumed retimed)) member
    exact (standing.whole cached full guarded before found).retime same

/-- An entry is decoded where the window ends. -/
theorem append (standing : Standing view query start i at_ window)
    (ends : i = window.ahead.length) {allowStraddle : Bool}
    (decoded : view.decode at_.pc at_.it allowStraddle = some entry) :
    Standing view query start i at_ { window with pending := window.pending ++ [entry] } ∧
      (window.pending ++ [entry]).drop window.consumed = window.ahead ++ [entry] := by
  obtain ⟨pc, it, -⟩ := decode_spec decoded
  have longer : (window.pending ++ [entry]).drop window.consumed = window.ahead ++ [entry] :=
    List.drop_append_of_le_length standing.sound.within
  have prefix_ : ∀ count ≤ i,
      (window.ahead ++ [entry]).take count = window.ahead.take count := fun count few =>
    List.take_append_of_le_length (ends ▸ few)
  refine ⟨?_, longer⟩
  have follows : ∀ last ∈ window.ahead.getLast?, view.Follows last entry := by
    intro last member
    unfold CodeView.Follows
    rw [pc, it]
    exact standing.behind ends last member
  constructor
  case sound => exact standing.sound.append (Genuine.of_decode decoded) follows
  case reached =>
    change i ≤ ((window.pending ++ [entry]).drop window.consumed).length
    rw [longer, List.length_append]
    exact Nat.le_add_right_of_le standing.reached
  case origin => exact standing.origin
  case first =>
    intro other member
    change other ∈ ((window.pending ++ [entry]).drop window.consumed).head? at member
    rw [longer] at member
    cases before : window.ahead with
    | nil =>
      rw [before] at member
      cases member
      rw [before] at ends
      rw [pc, it]
      exact standing.origin ends
    | cons head rest =>
      rw [before] at member
      cases member
      exact standing.first other (by rw [before]; rfl)
  case here =>
    intro other found
    change ((window.pending ++ [entry]).drop window.consumed)[i]? = some other at found
    rw [longer, ends, List.getElem?_concat_length] at found
    cases found
    exact ⟨pc, it⟩
  case behind =>
    intro last
    change i = ((window.pending ++ [entry]).drop window.consumed).length at last
    rw [longer, List.length_append, List.length_singleton] at last
    omega
  case budget => exact standing.budget
  case spent =>
    change ((((window.pending ++ [entry]).drop window.consumed).take i).map view.charge).sum = _
    rw [longer, prefix_ i (Nat.le_refl i)]
    exact standing.spent
  case short => exact standing.short
  case uncached => exact standing.uncached
  case controls => exact standing.controls
  case flags => exact standing.flags
  case transparent =>
    intro other member
    change other ∈ ((window.pending ++ [entry]).drop window.consumed).take _ at member
    rw [longer, prefix_ _ (Nat.le_trans (Nat.sub_le _ _) standing.short)] at member
    exact standing.transparent other member
  case whole =>
    intro cached full guarded other member
    change other ∈ ((window.pending ++ [entry]).drop window.consumed).take _ at member
    rw [longer, prefix_ i (Nat.le_refl i)] at member
    exact standing.whole cached full guarded other member

/-- The entry of a turn is the one ahead, and a search moves across it. -/
theorem entryAt_spec (standing : Standing view query start i at_ window)
    {later : InstructionWindow}
    (found : entryAt view window i at_.pc at_.it = some (entry, later)) :
    Standing view query start i at_ later ∧ later.ahead[i]? = some entry ∧
      view.crossing at_.place entry = view.move at_.place := by
  have index : window.pending[window.consumed + i]? = window.ahead[i]? :=
    List.getElem?_drop.symm
  unfold entryAt at found
  rw [index] at found
  cases held : window.ahead[i]? with
  | some other =>
    rw [held] at found
    cases found
    obtain ⟨pc, it⟩ := standing.here entry held
    have genuine := standing.sound.genuine entry
      (List.mem_of_mem_drop (List.mem_of_getElem? held))
    exact ⟨standing, held, genuine.crossing pc.symm it.symm⟩
  | none =>
    rw [held] at found
    have ends : i = window.ahead.length :=
      Nat.le_antisymm standing.reached (List.getElem?_eq_none_iff.mp held)
    obtain ⟨fresh, decoded, same⟩ := Option.map_eq_some_iff.mp found
    cases same
    obtain ⟨standing', longer⟩ := standing.append ends decoded
    obtain ⟨pc, it, -⟩ := decode_spec decoded
    refine ⟨standing', ?_, (Genuine.of_decode decoded).crossing pc.symm it.symm⟩
    change ((window.pending ++ [entry]).drop window.consumed)[i]? = some entry
    rw [longer, ends, List.getElem?_concat_length]

theorem entryAt_none
    (absent : entryAt view window i at_.pc at_.it = none) : view.move at_.place = none := by
  unfold entryAt at absent
  split at absent
  · contradiction
  · unfold CodeView.move
    change (view.decode at_.pc at_.it false).bind _ = none
    rw [Option.map_eq_none_iff.mp absent, Option.bind_none]

end Standing

/-! ### A turn -/

theorem flags_whole {live written : Word} (few : live &&& ~~~(0xf : Word) = 0)
    (left : live &&& written = 0xf) : live = 0xf := by
  ext bit inside
  have low := congrArg (·.getLsbD bit) few
  have kept := congrArg (·.getLsbD bit) left
  simp only [BitVec.getLsbD_and, BitVec.getLsbD_not, inside, decide_true, Bool.true_and]
    at low kept
  rw [← BitVec.getLsbD_eq_getElem, ← BitVec.getLsbD_eq_getElem]
  cases held : live.getLsbD bit with
  | false =>
    rw [held, Bool.false_and] at kept
    exact kept
  | true =>
    have none : (0 : Word).getLsbD bit = false := BitVec.getLsbD_zero
    rw [held, Bool.true_and, none] at low
    simpa using low.symm

theorem guardedAfter_eq_or (guardedControls : Word) (inst : Instruction) :
    guardedAfter guardedControls inst = guardedControls ∨ guardedAfter guardedControls inst = 0 := by
  unfold guardedAfter
  split
  · split
    · exact .inl rfl
    · exact .inr rfl
  · exact .inl rfl

/-- A turn ends the search with the verdict of the walk from its place, or makes one move. -/
def TurnRight (view : CodeView) (query : Query) (start : Nat × Word) (i : Nat) (at_ : Search) :
    (FlagProof ⊕ Search) × InstructionWindow → Prop
  | (.inl proof, later) => Finished view query start proof later ∧ ∀ remaining,
      proof.verdict = (verdict view.move (remaining + 1) at_.remainingTicks at_.place).after i
        (query.initialTicks - at_.remainingTicks)
  | (.inr next, later) => Standing view query start (i + 1) next later ∧ ∃ cost,
      view.move at_.place = some ⟨cost, some next.place⟩ ∧ cost ≤ at_.remainingTicks ∧
        next.remainingTicks = at_.remainingTicks - cost

namespace Standing
variable {query : Query} {start : Nat × Word} {i : Nat} {at_ : Search}
  {window : InstructionWindow} {entry : DecodedInstruction}

theorem reusable_le (standing : Standing view query start i at_ window) :
    reusable query i at_ ≤ i + 1 := by
  unfold reusable
  split
  · exact Nat.le_refl _
  · exact Nat.le_succ_of_le standing.short

theorem reusable_uncached (standing : Standing view query start i at_ window)
    (uncached : query.cached = false) : reusable query i at_ = 0 := by
  unfold reusable
  rw [uncached, Bool.false_and, Bool.false_and, if_neg Bool.false_ne_true]
  exact standing.uncached uncached

theorem reusable_transparent (standing : Standing view query start i at_ window) :
    ∀ entry ∈ window.ahead.take (reusable query i at_ - 1),
      Transparent view query.initialControls entry := by
  unfold reusable
  split
  · rename_i whole
    simp only [Bool.and_eq_true, decide_eq_true_eq] at whole
    exact standing.whole whole.1.1 whole.1.2 whole.2
  · exact standing.transparent

theorem finish (standing : Standing view query start i at_ window)
    (held : window.ahead[i]? = some entry) {kind : FlagProofKind} {instructions ticks : Nat}
    (enough : kind ≠ .terminalFailure → query.initialTicks - at_.remainingTicks ≤ ticks) :
    Finished view query start ⟨reusable query i at_, instructions, ticks, kind⟩ window where
  sound := standing.sound
  first := standing.first
  covered := Nat.le_trans standing.reusable_le (List.getElem?_eq_some_iff.mp held).1
  uncached := standing.reusable_uncached
  transparent := standing.reusable_transparent
  afforded := by
    intro counted
    refine Nat.le_trans ?_ (enough counted)
    rw [← standing.spent]
    have few : reusable query i at_ - 1 ≤ i := Nat.sub_le_of_le_add standing.reusable_le
    exact ((List.take_sublist_take_left few).map view.charge).sum_le_sum fun _ _ => Nat.zero_le _

/-- The entry of a turn gets its ticks. -/
theorem timingAt (standing : Standing view query start i at_ window)
    (held : window.ahead[i]? = some entry) :
    Standing view query start i at_
        (InstructionWindow.timingAt view window (window.consumed + i) entry) ∧
      (InstructionWindow.timingAt view window (window.consumed + i) entry).ahead[i]? =
        some { entry with ticks := some (view.charge entry) } := by
  have found : window.pending[window.consumed + i]? = some entry := List.getElem?_drop.symm.trans held
  have genuine := standing.sound.genuine entry (List.mem_of_getElem? found)
  have retimed : List.Forall₂ (Retimed view) window.pending
      (window.pending.set (window.consumed + i) { entry with ticks := some (view.charge entry) }) :=
    Retimed.set found (.inr rfl)
  have standing' := standing.retime retimed
  have held' : ((window.pending.set (window.consumed + i)
      { entry with ticks := some (view.charge entry) }).drop window.consumed)[i]? =
        some { entry with ticks := some (view.charge entry) } := by
    rw [List.getElem?_drop, List.getElem?_set_self (List.getElem?_eq_some_iff.mp found).1]
  unfold InstructionWindow.timingAt
  rw [genuine.paid]
  unfold keepTicks
  split
  · rename_i retains
    simp only [Bool.and_eq_true, decide_eq_true_eq] at retains
    refine ⟨standing'.retime (Retimed.modify (fun original member => ?_) _), ?_⟩
    · split
      · rename_i same
        right
        have word := (standing'.sound.genuine original member).unique genuine same.1 same.2
        unfold CodeView.charge
        rw [same.1, word]
      · exact .inl rfl
    · unfold InstructionWindow.ahead
      rw [List.getElem?_drop, List.getElem?_modify_ne _ _ (by dsimp only; omega)]
      exact List.getElem?_drop.symm.trans held'
  · exact ⟨standing', held'⟩

/-- The search goes on past an entry that it moves across. -/
theorem onward (standing : Standing view query start i at_ window)
    (held : window.ahead[i]? = some entry) (timed : entry.ticks = some (view.charge entry))
    {live : Word} (written : ∃ mask, live = at_.live &&& mask)
    (crossed : view.crossing at_.place entry = some ⟨view.charge entry, some ⟨live,
      guardedAfter at_.guardedControls entry.instruction, at_.pc + entry.instruction.size,
      view.nextIt entry.instruction at_.it⟩⟩)
    (paid : view.charge entry ≤ at_.remainingTicks) :
    Standing view query start (i + 1)
      { live
        guardedControls := guardedAfter at_.guardedControls entry.instruction
        pc := at_.pc + entry.instruction.size
        it := view.nextIt entry.instruction at_.it
        remainingTicks := at_.remainingTicks - view.charge entry
        reusablePrefix := reusable query i at_ } window := by
  have inside : i < window.ahead.length := (List.getElem?_eq_some_iff.mp held).1
  have at_here := standing.here entry held
  have crossable := crossable_of_crossing crossed
  have split_ : window.ahead.take (i + 1) = window.ahead.take i ++ [entry] := by
    rw [List.take_add_one, held]
    rfl
  constructor
  case sound => exact standing.sound
  case reached => exact inside
  case origin => exact fun absurd_ => nomatch absurd_
  case first => exact standing.first
  case here =>
    intro next found
    obtain ⟨further, rfl⟩ := List.getElem?_eq_some_iff.mp found
    have link := standing.sound.ahead.getElem i further
    rw [(List.getElem?_eq_some_iff.mp held).2] at link
    have led := link crossable
    rw [at_here.1, at_here.2] at led
    exact led
  case behind =>
    intro last final member
    rw [List.getLast?_eq_getElem?, ← last, Nat.add_sub_cancel, held] at member
    cases member
    intro _
    rw [at_here.1, at_here.2]
    exact ⟨rfl, rfl⟩
  case budget => exact Nat.le_trans (Nat.sub_le _ _) standing.budget
  case spent =>
    have spent := standing.spent
    have budget := standing.budget
    rw [split_, List.map_append, List.sum_append, spent, List.map_singleton, List.sum_singleton]
    dsimp only
    omega
  case short => exact standing.reusable_le
  case uncached => exact standing.reusable_uncached
  case controls =>
    rcases guardedAfter_eq_or at_.guardedControls entry.instruction with same | revoked
    · dsimp only
      rw [same]
      exact standing.controls
    · exact .inr revoked
  case flags =>
    intro cached
    obtain ⟨mask, rfl⟩ := written
    dsimp only
    rw [BitVec.and_assoc, BitVec.and_comm mask, ← BitVec.and_assoc, standing.flags cached]
    exact BitVec.zero_and
  case transparent => exact standing.reusable_transparent
  case whole =>
    intro cached full guarded other member
    dsimp only at full guarded
    obtain ⟨mask, rfl⟩ := written
    have before : at_.live = 0xf := flags_whole (standing.flags cached) full
    have guardedBefore : at_.guardedControls = query.initialControls := by
      rcases guardedAfter_eq_or at_.guardedControls entry.instruction with same | revoked
      · rw [← same, guarded]
      · rcases standing.controls with same | none
        · exact same
        · rw [none, ← guarded, revoked]
    rw [split_] at member
    rcases List.mem_append.mp member with earlier | last
    · exact standing.whole cached before guardedBefore other earlier
    · rw [List.mem_singleton.mp last]
      refine ⟨timed, ?_⟩
      have place : at_.place = CodeView.full query.initialControls entry := by
        unfold Search.place CodeView.full
        rw [before, guardedBefore, at_here.1, at_here.2]
      rw [← place, crossed, full, guarded, at_here.1, at_here.2]

end Standing

theorem turnAt_spec {query : Query} {start : Nat × Word} {i : Nat} {at_ : Search}
    {window : InstructionWindow} {entry : DecodedInstruction}
    (standing : Standing view query start i at_ window) (held : window.ahead[i]? = some entry)
    (moves : view.crossing at_.place entry = view.move at_.place) :
    TurnRight view query start i at_ (turnAt view query i at_ window entry) := by
  have genuine := standing.sound.genuine entry (List.mem_of_mem_drop (List.mem_of_getElem? held))
  obtain ⟨standing', held'⟩ := standing.timingAt held
  have budget := standing.budget
  unfold turnAt
  rw [genuine.paid]
  dsimp only
  unfold Search.place at moves
  rw [CodeView.crossing_eq] at moves
  by_cases blocked : stops view at_.live at_.guardedControls at_.pc entry = true
  · rw [if_pos blocked] at moves ⊢
    refine ⟨standing.finish held fun counted => absurd rfl counted, fun remaining => ?_⟩
    unfold verdict
    dsimp only [Search.place]
    rw [← moves]
    rfl
  · rw [if_neg blocked] at moves ⊢
    by_cases free : view.charge entry = 0
    · rw [if_pos free] at moves ⊢
      refine ⟨standing'.finish held' fun counted => absurd rfl counted, fun remaining => ?_⟩
      unfold verdict
      dsimp only [Search.place]
      rw [← moves]
      rfl
    · rw [if_neg free] at moves ⊢
      by_cases broke : at_.remainingTicks < view.charge entry
      · rw [if_pos broke]
        refine ⟨standing'.finish held' fun _ => Nat.sub_le _ _, fun remaining => ?_⟩
        unfold verdict
        dsimp only [Search.place]
        rw [← moves]
        dsimp only
        rw [if_pos broke]
        simp only [FlagProof.verdict, Verdict.after, Verdict.exhausted.injEq]
        omega
      · rw [if_neg broke]
        by_cases overwritten :
          at_.live &&& ~~~(effectsUnder at_.guardedControls entry.instruction).guaranteedWrite = 0
        · rw [if_pos overwritten] at moves ⊢
          refine ⟨standing'.finish held' fun _ => by omega, fun remaining => ?_⟩
          unfold verdict
          dsimp only [Search.place]
          rw [← moves]
          dsimp only
          rw [if_neg broke]
          simp only [FlagProof.verdict, Verdict.after, Verdict.reached.injEq]
          omega
        · rw [if_neg overwritten] at moves ⊢
          have crossed : view.crossing at_.place { entry with ticks := some (view.charge entry) } =
              some ⟨view.charge entry, some ⟨at_.live &&&
                ~~~(effectsUnder at_.guardedControls entry.instruction).guaranteedWrite,
                guardedAfter at_.guardedControls entry.instruction,
                at_.pc + entry.instruction.size, view.nextIt entry.instruction at_.it⟩⟩ := by
            change view.crossing at_.place entry = _
            unfold Search.place
            rw [CodeView.crossing_eq, if_neg blocked, if_neg free, if_neg overwritten]
          refine ⟨standing'.onward held' rfl ⟨_, rfl⟩ crossed (Nat.not_lt.mp broke),
            view.charge entry, ?_, Nat.not_lt.mp broke, rfl⟩
          dsimp only [Search.place]
          rw [← moves]

theorem turn_spec {query : Query} {start : Nat × Word} {i : Nat} {at_ : Search}
    {window : InstructionWindow} (standing : Standing view query start i at_ window) :
    TurnRight view query start i at_ (turn view query i at_ window) := by
  unfold turn
  split
  · rename_i absent
    have stuck := Standing.entryAt_none absent
    refine ⟨?_, fun remaining => ?_⟩
    · exact
        { sound := standing.sound
          first := standing.first
          covered := Nat.le_trans standing.short standing.reached
          uncached := standing.uncached
          transparent := standing.transparent
          afforded := fun counted => absurd rfl counted }
    · unfold verdict
      rw [stuck]
      rfl
  · rename_i entry later found
    obtain ⟨standing', held, moves⟩ := standing.entryAt_spec found
    exact turnAt_spec standing' held moves

/-- The search finds what a walk over the source finds, and leaves a proof of it. -/
theorem search_spec {query : Query} {start : Nat × Word} (remaining : Nat) {i : Nat} {at_ : Search}
    {window : InstructionWindow} (standing : Standing view query start i at_ window) :
    Finished view query start (search view query remaining i at_ window).1
        (search view query remaining i at_ window).2 ∧
      (search view query remaining i at_ window).1.verdict =
        (verdict view.move remaining at_.remainingTicks at_.place).after i
          (query.initialTicks - at_.remainingTicks) := by
  induction remaining generalizing i at_ window with
  | zero =>
    refine ⟨?_, ?_⟩
    · exact
        { sound := standing.sound
          first := standing.first
          covered := Nat.le_trans standing.short standing.reached
          uncached := standing.uncached
          transparent := standing.transparent
          afforded := by
            intro _
            dsimp only [search]
            rw [← standing.spent]
            have few : at_.reusablePrefix - 1 ≤ i := Nat.le_trans (Nat.sub_le _ _) standing.short
            exact ((List.take_sublist_take_left few).map view.charge).sum_le_sum
              fun _ _ => Nat.zero_le _ }
    · simp only [search, FlagProof.verdict, verdict, Verdict.after, Nat.zero_add]
  | succ remaining ih =>
    have right := turn_spec standing
    unfold search
    cases turned : turn view query i at_ window with
    | mk outcome later =>
      rw [turned] at right
      cases outcome with
      | inl proof => exact ⟨right.1, right.2 remaining⟩
      | inr next =>
        obtain ⟨standing', cost, moved, paid, left⟩ := right
        obtain ⟨finished, found⟩ := ih standing'
        refine ⟨finished, ?_⟩
        have budget := standing.budget
        have spent : query.initialTicks - next.remainingTicks =
            cost + (query.initialTicks - at_.remainingTicks) := by omega
        dsimp only
        rw [found, verdict, moved]
        dsimp only
        rw [if_neg (Nat.not_lt.mpr paid), left, Verdict.after_after, ← left, spent,
          Nat.add_comm 1 i]

end ILEmu.Arm64
