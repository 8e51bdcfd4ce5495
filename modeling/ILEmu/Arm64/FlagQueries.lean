import ILEmu.Arm64.FlagSearches

/-! The queries for dead flags along the calls on a window: an answer from a cached proof is the
one that a search from the same position would give. -/
namespace ILEmu.Arm64
open Arm hiding Instruction InstructionKind
open ArmInterpreter Foundation PricedWalks InstructionWindow
variable {view : CodeView}

/-! ### A query -/

theorem FlagProof.overwrite_eq_succeeds (proof : FlagProof) :
    decide (proof.kind = .overwrite) = proof.verdict.succeeds := by
  unfold FlagProof.verdict
  cases proof.kind <;> rfl

theorem match_eq (window : InstructionWindow) (pc it : Word) :
    window.match_ pc it = window ∨ window.match_ pc it = {} := by
  unfold match_
  split
  · exact .inl rfl
  · split
    · exact .inr rfl
    · exact .inl rfl

/-- A window meets a query where it stands, or holds nothing. -/
theorem match_first (window : InstructionWindow) (pc it : Word) :
    ∀ entry ∈ (window.match_ pc it).ahead.head?, (entry.pc.toNat, entry.it) = (pc.toNat, it) := by
  unfold match_
  split
  · rename_i absent
    intro entry member
    unfold InstructionWindow.ahead at member
    rw [List.head?_drop, absent] at member
    contradiction
  · rename_i head found
    split
    · exact fun _ absent => nomatch absent
    · rename_i same
      rw [not_or, not_not, not_not] at same
      intro entry member
      unfold InstructionWindow.ahead at member
      rw [List.head?_drop, found] at member
      cases member
      rw [same.1, same.2]

namespace Sound
variable {window : InstructionWindow}

theorem standing (sound : Sound view window) {live pc it : Word} (guardedControls : Word)
    {cached : Bool} (full : cached = true → live = 0xf) (remainingTicks : Nat)
    (matched : ∀ entry ∈ window.ahead.head?, (entry.pc.toNat, entry.it) = (pc.toNat, it)) :
    Standing view ⟨cached, guardedControls, remainingTicks⟩ (pc.toNat, it) 0
      { live, guardedControls, pc := pc.toNat, it, remainingTicks } window where
  sound := sound
  reached := Nat.zero_le _
  origin _ := rfl
  first := matched
  here entry found := Prod.mk.inj (matched entry (List.head?_eq_getElem?.trans found))
  behind ends entry member := by
    rw [List.eq_nil_of_length_eq_zero ends.symm] at member
    contradiction
  budget := Nat.le_refl _
  spent := (Nat.sub_self _).symm
  short := Nat.le_refl 0
  uncached _ := rfl
  controls := .inl rfl
  flags cached := by
    dsimp only
    rw [full cached]
    decide
  transparent _ absent := absurd absent (by simp)
  whole _ _ _ _ absent := absurd absent (by simp)

/-- A search from a position of the window answers for the source, and its proof can be kept. -/
theorem flagsDeadAfresh (sound : Sound view window) {live pc it guardedControls : Word}
    (remainingInstructions remainingTicks : Nat)
    (matched : ∀ entry ∈ window.ahead.head?, (entry.pc.toNat, entry.it) = (pc.toNat, it)) :
    (InstructionWindow.flagsDeadAfresh view window live pc it remainingInstructions remainingTicks
        guardedControls).1 =
      reaches view.move remainingInstructions remainingTicks
        ⟨live, guardedControls, pc.toNat, it⟩ ∧
    Sound view (InstructionWindow.flagsDeadAfresh view window live pc it remainingInstructions
      remainingTicks guardedControls).2 := by
  have full : (cacheOf live guardedControls).isSome = true → live = 0xf := by
    intro cached
    obtain ⟨guarded, told⟩ := Option.isSome_iff_exists.mp cached
    exact (cacheOf_eq_some told).1
  obtain ⟨finished, found⟩ := search_spec remainingInstructions
    (sound.standing guardedControls full remainingTicks matched)
  rw [Nat.sub_self, Verdict.after_zero] at found
  unfold InstructionWindow.flagsDeadAfresh
  dsimp only
  refine ⟨?_, ?_⟩
  · rw [FlagProof.overwrite_eq_succeeds, found, verdict_succeeds]
    rfl
  · split
    · exact finished.sound
    · rename_i guarded told
      obtain ⟨rfl, rfl⟩ := cacheOf_eq_some told
      split
      · exact finished.sound
      · rename_i kept
        refine finished.sound.update guarded _ ?_
        rintro proof ⟨⟩
        refine ⟨Nat.pos_of_ne_zero kept, finished.covered, finished.transparent,
          finished.afforded, fun entry member => ?_⟩
        have place := finished.first entry member
        obtain ⟨pc', it'⟩ := Prod.mk.inj place
        rw [found]
        unfold CodeView.full
        rw [pc', it']
        exact verdict_right (move_priced view) _ _ _

/-- Every answer is that of a walk over the source, whether it was cached or not. -/
theorem flagsDead (sound : Sound view window) (live pc it : Word)
    (remainingInstructions remainingTicks : Nat) (guardedControls : Word) :
    (InstructionWindow.flagsDead view window live pc it remainingInstructions remainingTicks
        guardedControls).1 =
      (decide (live ≠ 0) && reaches view.move remainingInstructions remainingTicks
        ⟨live, guardedControls, pc.toNat, it⟩) ∧
    Sound view (InstructionWindow.flagsDead view window live pc it remainingInstructions
      remainingTicks guardedControls).2 := by
  unfold InstructionWindow.flagsDead
  by_cases none : live = 0
  · rw [if_pos none]
    exact ⟨by rw [decide_eq_false (not_not.mpr none), Bool.false_and], sound⟩
  · rw [if_neg none, decide_eq_true none, Bool.true_and]
    have met := sound.match_ pc it
    have first := match_first window pc it
    dsimp only
    split
    · exact met.flagsDeadAfresh remainingInstructions remainingTicks first
    · rename_i proof cached
      obtain ⟨guarded, told, held⟩ := Option.bind_eq_some_iff.mp cached
      split
      · rename_i answer answered
        refine ⟨?_, met⟩
        obtain ⟨rfl, rfl⟩ := cacheOf_eq_some told
        have proven := met.proven guarded proof held
        rw [FlagProof.answer_eq_reply] at answered
        obtain ⟨head, there⟩ : ∃ head, (window.match_ pc it).ahead.head? = some head := by
          cases ahead : (window.match_ pc it).ahead with
          | nil =>
            have covered := proven.covered
            rw [ahead] at covered
            exact absurd covered (Nat.not_le.mpr proven.positive)
          | cons head rest => exact ⟨head, rfl⟩
        have right := proven.right head there remainingInstructions remainingTicks answer answered
        obtain ⟨pc', it'⟩ := Prod.mk.inj (first head there)
        unfold CodeView.full at right
        rw [pc', it'] at right
        exact right.symm
      · rw [told]
        have emptied := met.update guarded Option.none fun _ absent => nomatch absent
        exact emptied.flagsDeadAfresh remainingInstructions remainingTicks first

/-- A retained entry that lookahead has not decoded. -/
theorem takeDecoded (sound : Sound view window) (ends : window.pending.length ≤ window.consumed)
    {entry : DecodedInstruction} (genuine : Genuine view entry)
    (retains : window.retainCycle = true)
    (follows : ∀ last ∈ window.taken.getLast?, view.Follows last entry) :
    Sound view
      { window with pending := window.pending ++ [entry], consumed := window.consumed + 1 } := by
  have whole : window.taken = window.pending := List.take_of_length_le ends
  have longer : (window.pending ++ [entry]).length ≤ window.consumed + 1 := by
    rw [List.length_append]
    exact Nat.succ_le_succ ends
  refine ⟨?_, ?_, ?_, ?_, ?_, ?_⟩
  · rw [List.length_append]
    exact Nat.succ_le_succ sound.within
  · intro plain
    exact absurd (retains.symm.trans plain) (by decide)
  · intro other member
    rcases List.mem_append.mp member with before | last
    · exact sound.genuine other before
    · rw [List.mem_singleton.mp last]
      exact genuine
  · unfold InstructionWindow.taken
    rw [List.take_of_length_le longer]
    refine List.isChain_append.mpr ⟨whole ▸ sound.taken, .singleton _, fun last member next head => ?_⟩
    cases head
    exact follows last (whole ▸ member)
  · unfold InstructionWindow.ahead
    rw [List.drop_eq_nil_of_le longer]
    exact .nil
  · intro guarded proof cached
    have proven := sound.proven guarded proof cached
    have covered := proven.covered
    unfold InstructionWindow.ahead at covered
    rw [List.drop_eq_nil_of_le ends] at covered
    exact absurd covered (Nat.not_le.mpr proven.positive)

/-- An entry that lookahead has decoded. -/
theorem takeAhead (sound : Sound view window) {entry : DecodedInstruction}
    (found : window.pending[window.consumed]? = some entry)
    (follows : window.retainCycle = true →
      ∀ last ∈ window.taken.getLast?, view.Follows last entry) :
    Sound view
      { window with
        pending := if window.retainCycle then window.pending else window.pending.tail
        consumed := if window.retainCycle then window.consumed + 1 else window.consumed
        fullFlagsDead := fun guarded =>
          (window.fullFlagsDead guarded).bind (FlagProof.consume · (entry.ticks.getD 0)) } := by
  obtain ⟨inside, same⟩ := List.getElem?_eq_some_iff.mp found
  have genuine := sound.genuine entry (List.mem_of_getElem? found)
  have split_ : window.ahead = entry :: window.pending.drop (window.consumed + 1) := by
    unfold InstructionWindow.ahead
    rw [List.drop_eq_getElem_cons inside, same]
  have chain := sound.ahead
  rw [split_] at chain
  have proven : ∀ guarded rest,
      (window.fullFlagsDead guarded).bind (FlagProof.consume · (entry.ticks.getD 0)) = some rest →
        Proven view (controlsOf guarded) rest (window.pending.drop (window.consumed + 1)) := by
    intro guarded rest consumed
    obtain ⟨proof, cached, left⟩ := Option.bind_eq_some_iff.mp consumed
    have before := sound.proven guarded proof cached
    rw [split_] at before
    exact before.consume genuine chain left
  by_cases retains : window.retainCycle = true
  · rw [if_pos retains, if_pos retains]
    refine ⟨inside, fun plain => absurd (retains.symm.trans plain) (by decide), sound.genuine,
      ?_, chain.tail, proven⟩
    unfold InstructionWindow.taken
    dsimp only
    rw [List.take_add_one, found]
    refine List.isChain_append.mpr ⟨sound.taken, .singleton _, fun last member next head => ?_⟩
    cases head
    exact follows retains last member
  · rw [if_neg retains, if_neg retains]
    have start := sound.plain (Bool.eq_false_of_not_eq_true retains)
    rw [start, Nat.zero_add, List.drop_one] at proven chain
    refine ⟨Nat.le_trans (Nat.le_of_eq start) (Nat.zero_le _), fun _ => start,
      fun other member => sound.genuine other (List.mem_of_mem_tail member), ?_, ?_, ?_⟩
    · unfold InstructionWindow.taken
      dsimp only
      rw [start]
      exact .nil
    · unfold InstructionWindow.ahead
      dsimp only
      rw [start]
      exact chain.tail
    · unfold InstructionWindow.ahead
      dsimp only
      rw [start]
      exact proven

/-- Taking an entry keeps a window sound, if it follows the one taken before. -/
theorem take (sound : Sound view window) (pc it : Word) (allowStraddle : Bool)
    (leads : window.retainCycle = true → ∀ entry ∈ window.taken.getLast?,
      view.Leads entry pc.toNat it) :
    Sound view (InstructionWindow.take view window pc it allowStraddle).2 ∧
      ∀ entry ∈ (InstructionWindow.take view window pc it allowStraddle).1,
        Genuine view entry := by
  have met := sound.match_ pc it
  have first := match_first window pc it
  have led : (window.match_ pc it).retainCycle = true →
      ∀ entry ∈ (window.match_ pc it).taken.getLast?, view.Leads entry pc.toNat it := by
    rcases match_eq window pc it with same | new
    · rw [same]
      exact leads
    · rw [new]
      exact fun absurd_ => nomatch absurd_
  unfold InstructionWindow.take
  generalize window.match_ pc it = window at *
  dsimp only
  split
  · rename_i ended
    have ends : window.pending.length ≤ window.consumed := List.getElem?_eq_none_iff.mp ended
    split
    · exact ⟨met, fun _ absent => nomatch absent⟩
    · rename_i out decoded
      have genuine := Genuine.of_decode decoded
      split
      · rename_i retains
        exact ⟨met.takeDecoded ends genuine retains fun entry member => by
          obtain ⟨pc', it', -⟩ := decode_spec decoded
          unfold CodeView.Follows
          rw [pc', it']
          exact led retains entry member, fun entry member => by
            cases member
            exact genuine⟩
      · exact ⟨met, fun entry member => by
          cases member
          exact genuine⟩
  · rename_i out found
    have genuine := met.genuine out (List.mem_of_getElem? found)
    refine ⟨?_, fun entry member => by
      cases member
      exact genuine⟩
    refine met.takeAhead found fun retains entry member => ?_
    obtain ⟨pc', it'⟩ := Prod.mk.inj
      (first out (by
        unfold InstructionWindow.ahead
        rw [List.head?_drop, found]
        rfl))
    unfold CodeView.Follows
    rw [pc', it']
    exact led retains entry member

theorem forget (sound : Sound view window) :
    Sound view { window with fullFlagsDead := fun _ => none } where
  within := sound.within
  plain := sound.plain
  genuine := sound.genuine
  taken := sound.taken
  ahead := sound.ahead
  proven _ _ absent := nomatch absent

end Sound

/-! ### The calls on a window -/

/-- A window, and the entries that its callers have taken from it. -/
structure Session where
  window : InstructionWindow
  copies : List DecodedInstruction := []

inductive Call where
  | take (pc it : Word) (allowStraddle : Bool)
  | timing (copy : Nat)
  | match_ (pc it : Word)
  | repeatCycle
  | flagsDead (live pc it : Word) (remainingInstructions remainingTicks : Nat)
      (guardedControls : Word)
  | flagsDeadAfter (inst : Instruction) (nextPc nextIt : Word)
      (remainingInstructions remainingTicks : Nat)

namespace Session

def new (retainCycle : Bool) : Session := { window := { retainCycle } }

def call (view : CodeView) (session : Session) : Call → Session
  | .take pc it allowStraddle =>
    let (out, window) := session.window.take view pc it allowStraddle
    { window, copies := session.copies ++ out.toList }
  | .timing copy =>
    match session.copies[copy]? with
    | none => session
    | some entry =>
      let (entry, window) := session.window.timing view entry
      { window, copies := session.copies.set copy entry }
  | .match_ pc it => { session with window := session.window.match_ pc it }
  | .repeatCycle => { session with window := session.window.repeatCycle }
  | .flagsDead live pc it remainingInstructions remainingTicks guardedControls =>
    { session with
      window := (session.window.flagsDead view live pc it remainingInstructions remainingTicks
        guardedControls).2 }
  | .flagsDeadAfter inst nextPc nextIt remainingInstructions remainingTicks =>
    { session with
      window := (session.window.flagsDeadAfter view inst nextPc nextIt remainingInstructions
        remainingTicks).2 }

/-- A window that retains its cycle is taken along the path of the compiler: past an instruction
that a search crosses, the next one is that of the address after it. -/
def Along (view : CodeView) (session : Session) : Call → Prop
  | .take pc it _ => session.window.retainCycle = true →
      ∀ entry ∈ session.window.taken.getLast?, view.Leads entry pc.toNat it
  | _ => True

def Sound (view : CodeView) (session : Session) : Prop :=
  Arm64.Sound view session.window ∧ ∀ entry ∈ session.copies, Genuine view entry

theorem sound_call (view : CodeView) {session : Session} (sound : session.Sound view) (call : Call)
    (along : session.Along view call) : (session.call view call).Sound view := by
  obtain ⟨window, copies⟩ := sound
  cases call with
  | take pc it allowStraddle =>
    obtain ⟨taken, genuine⟩ := window.take pc it allowStraddle along
    refine ⟨taken, fun entry member => ?_⟩
    rcases List.mem_append.mp member with before | new
    · exact copies entry before
    · exact genuine entry (Option.mem_toList.mp new)
  | timing copy =>
    unfold Session.call
    dsimp only
    split
    · exact ⟨window, copies⟩
    · rename_i entry held
      have genuine := copies entry (List.mem_of_getElem? held)
      unfold InstructionWindow.timing
      rw [genuine.paid]
      refine ⟨window.keepTicks genuine, fun other member => ?_⟩
      rcases List.mem_or_eq_of_mem_set member with before | rfl
      · exact copies other before
      · exact ⟨genuine.decoded, fun ticks told => (Option.some.inj told).symm⟩
  | match_ pc it => exact ⟨window.match_ pc it, copies⟩
  | repeatCycle => exact ⟨window.repeatCycle, copies⟩
  | flagsDead live pc it remainingInstructions remainingTicks guardedControls =>
    exact ⟨(window.flagsDead live pc it remainingInstructions remainingTicks guardedControls).2,
      copies⟩
  | flagsDeadAfter inst nextPc nextIt remainingInstructions remainingTicks =>
    refine ⟨?_, copies⟩
    unfold Session.call InstructionWindow.flagsDeadAfter
    dsimp only
    split
    · exact window
    · exact (window.flagsDead _ nextPc nextIt remainingInstructions remainingTicks 0).2

theorem sound_run (view : CodeView) (retainCycle : Bool) {calls : List Call}
    (along : Foundation.Along (call view) (Along view) (new retainCycle) calls) :
    (run (call view) (new retainCycle) calls).Sound view := by
  have start : (new retainCycle).Sound view :=
    ⟨Arm64.Sound.new view retainCycle, fun _ absent => absurd absent List.not_mem_nil⟩
  have step : ∀ (session : Session) (next : Call), session.Sound view → session.Along view next →
      (session.call view next).Sound view := fun _ next sound met => sound_call view sound next met
  exact along.preserves step start

end Session

/-- Along the path of the compiler, every query for dead flags has the answer of a search without
cached proofs, from the same position of the window and from that of a new one. -/
theorem flagsDead_eq_fresh (view : CodeView) (retainCycle : Bool) (calls : List Call)
    (along : Along (Session.call view) (Session.Along view) (Session.new retainCycle) calls)
    (live pc it : Word) (remainingInstructions remainingTicks : Nat) (guardedControls : Word) :
    let window := (run (Session.call view) (Session.new retainCycle) calls).window
    let answer := (window.flagsDead view live pc it remainingInstructions remainingTicks
      guardedControls).1
    answer = (InstructionWindow.flagsDead view { window with fullFlagsDead := fun _ => none } live
      pc it remainingInstructions remainingTicks guardedControls).1 ∧
    answer = (InstructionWindow.flagsDead view {} live pc it remainingInstructions remainingTicks
      guardedControls).1 := by
  intro window answer
  have sound : Sound view window := (Session.sound_run view retainCycle along).1
  have told := (sound.flagsDead live pc it remainingInstructions remainingTicks guardedControls).1
  have again := (sound.forget.flagsDead live pc it remainingInstructions remainingTicks
    guardedControls).1
  have fresh := ((Sound.new view false).flagsDead live pc it remainingInstructions remainingTicks
    guardedControls).1
  exact ⟨told.trans again.symm, told.trans fresh.symm⟩

/-! ### A comparison past a move -/

/-- A move at address 0 and a wide comparison at 100 that reaches past its region. -/
def straddling : CodeView where
  source :=
    { fetch16 := fun pc =>
        if pc = 0 then some 0x46c0 else if pc = 100 then some 0xf1b0
        else if pc = 102 then some 0x0f00 else none
      fetch32 := fun _ => none
      ticksForInstruction := fun _ _ => 1
      decodeA32 := fun _ => {}
      decodeT32 := fun first _ _ =>
        if first = 0x46c0 then { kind := .dataProcessing, opcode := 13, pcOffset := 4, rd := 8, rm := 8 }
        else if first = 0xf1b0 then
          { kind := .dataProcessing, opcode := 10, pcOffset := 4, setFlags := true,
            immediateOperand := true }
        else { pcOffset := 4 } }
  regions := ⟨[⟨0, 8⟩, ⟨100, 102⟩], by unfold CodeRegions.Bounded; decide⟩
  thumb := true

/-- A comparison follows the move. -/
def adjoining : CodeView :=
  { straddling with
    source :=
      { straddling.source with
        fetch16 := fun pc =>
          if pc = 0 then some 0x46c0 else if pc = 2 then some 0xf1b0
          else if pc = 4 then some 0x0f00 else none } }

theorem flagsDead_eq_fresh_after_take :
    let window := (run (Session.call adjoining) (Session.new true)
      [.flagsDead 0xf 0 0 8 8 0, .take 0 0 false]).window
    window.cachedProof 0xf 0 = some ⟨1, 1, 1, .overwrite⟩ ∧
      (window.flagsDead adjoining 0xf 2 0 1 1 0).1 =
        (InstructionWindow.flagsDead adjoining {} 0xf 2 0 1 1 0).1 := by
  have along : Along (Session.call adjoining) (Session.Along adjoining) (Session.new true)
      [.flagsDead 0xf 0 0 8 8 0, .take 0 0 false] :=
    ⟨trivial, (fun _ _ absent => nomatch absent), trivial⟩
  exact ⟨by decide, (flagsDead_eq_fresh adjoining true _ along 0xf 2 0 1 1 0).2⟩

/-- A window that was taken off the path answers for instructions that do not follow each
other. -/
theorem cached_off_path :
    let window := (run (Session.call straddling) (Session.new true)
      [.take 0 0 true, .take 100 0 true, .repeatCycle, .flagsDead 0xf 0 0 8 8 0,
        .take 0 0 true]).window
    window.cachedProof 0xf 0 = some ⟨1, 1, 1, .overwrite⟩ ∧
      (window.flagsDead straddling 0xf 100 0 8 8 0).1 = true ∧
      (InstructionWindow.flagsDead straddling { window with fullFlagsDead := fun _ => none } 0xf
        100 0 8 8 0).1 = false ∧
      (InstructionWindow.flagsDead straddling {} 0xf 100 0 8 8 0).1 = false := by
  decide

end ILEmu.Arm64
