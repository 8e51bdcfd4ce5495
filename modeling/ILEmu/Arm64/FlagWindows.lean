import ILEmu.Arm64.FlagProofs
import Mathlib.Data.List.Chain

/-! Windows whose cached proofs are right for what is ahead, and the changes that keep them so. -/
namespace ILEmu.Arm64
open Arm hiding Instruction InstructionKind
open ArmInterpreter Foundation PricedWalks InstructionWindow
variable {view : CodeView}

/-- An entry, or the same entry once its ticks are paid. -/
def Retimed (view : CodeView) (entry later : DecodedInstruction) : Prop :=
  later = entry ∨ later = { entry with ticks := some (view.charge entry) }

namespace Retimed
variable {entry later : DecodedInstruction} {before after : List DecodedInstruction}

theorem refl (view : CodeView) (entries : List DecodedInstruction) :
    List.Forall₂ (Retimed view) entries entries :=
  List.forall₂_same.mpr fun _ _ => .inl rfl

theorem genuine (retimed : Retimed view entry later) (genuine : Genuine view entry) :
    Genuine view later := by
  rcases retimed with rfl | rfl
  · exact genuine
  · exact ⟨genuine.decoded, fun ticks told => (Option.some.inj told).symm⟩

theorem charge (retimed : Retimed view entry later) : view.charge later = view.charge entry := by
  rcases retimed with rfl | rfl <;> rfl

theorem place (retimed : Retimed view entry later) :
    later.pc = entry.pc ∧ later.it = entry.it ∧ later.instruction = entry.instruction := by
  rcases retimed with rfl | rfl <;> exact ⟨rfl, rfl, rfl⟩

theorem follows {next laterNext : DecodedInstruction} (retimed : Retimed view entry later)
    (retimedNext : Retimed view next laterNext) (follows : view.Follows entry next) :
    view.Follows later laterNext := by
  obtain ⟨pc, it, inst⟩ := retimed.place
  obtain ⟨pc', it', -⟩ := retimedNext.place
  unfold CodeView.Follows CodeView.Leads at *
  rw [pc, it, inst, pc', it']
  exact follows

theorem isChain (retimed : List.Forall₂ (Retimed view) before after)
    (chain : before.IsChain view.Follows) : after.IsChain view.Follows := by
  induction retimed with
  | nil => exact .nil
  | cons first rest ih =>
    cases rest with
    | nil => exact .singleton _
    | cons second rest =>
      cases chain with
      | cons_cons link chain => exact .cons_cons (first.follows second link) (ih chain)

theorem mem (retimed : List.Forall₂ (Retimed view) before after) (member : later ∈ after) :
    ∃ entry ∈ before, Retimed view entry later := by
  induction retimed with
  | nil => contradiction
  | cons first _ ih =>
    rcases List.mem_cons.mp member with rfl | further
    · exact ⟨_, List.mem_cons_self, first⟩
    · obtain ⟨entry, found, same⟩ := ih further
      exact ⟨entry, List.mem_cons_of_mem _ found, same⟩

theorem getElem? {i : Nat} (retimed : List.Forall₂ (Retimed view) before after)
    (found : after[i]? = some later) : ∃ entry, before[i]? = some entry ∧ Retimed view entry later := by
  induction retimed generalizing i with
  | nil => contradiction
  | cons first _ ih =>
    cases i with
    | zero =>
      cases found
      exact ⟨_, rfl, first⟩
    | succ i => exact ih found

theorem modify {f : DecodedInstruction → DecodedInstruction} {entries : List DecodedInstruction}
    (retimes : ∀ entry ∈ entries, Retimed view entry (f entry)) (i : Nat) :
    List.Forall₂ (Retimed view) entries (entries.modify i f) := by
  induction entries generalizing i with
  | nil =>
    rw [List.modify_nil]
    exact .nil
  | cons head rest ih =>
    obtain ⟨here, further⟩ := List.forall_mem_cons.mp retimes
    cases i with
    | zero => exact .cons here (refl view rest)
    | succ i => exact .cons (.inl rfl) (ih further i)

theorem set {entries : List DecodedInstruction} {i : Nat} (found : entries[i]? = some entry)
    (retimed : Retimed view entry later) :
    List.Forall₂ (Retimed view) entries (entries.set i later) := by
  induction entries generalizing i with
  | nil => contradiction
  | cons head rest ih =>
    cases i with
    | zero =>
      cases found
      exact .cons retimed (refl view rest)
    | succ i => exact .cons (.inl rfl) (ih found)

theorem charges (retimed : List.Forall₂ (Retimed view) before after) :
    after.map view.charge = before.map view.charge := by
  induction retimed with
  | nil => rfl
  | cons first _ ih => rw [List.map_cons, List.map_cons, first.charge, ih]

end Retimed

/-- All flags and the guarded controls are after the entry what they were before it. -/
structure Transparent (view : CodeView) (guardedControls : Word) (entry : DecodedInstruction) :
    Prop where
  timed : entry.ticks = some (view.charge entry)
  crossed : view.crossing (CodeView.full guardedControls entry) entry =
    some ⟨view.charge entry, some ⟨0xf, guardedControls,
      entry.pc.toNat + entry.instruction.size, view.nextIt entry.instruction entry.it⟩⟩

theorem Transparent.retime {guardedControls : Word} {entry later : DecodedInstruction}
    (transparent : Transparent view guardedControls entry) (retimed : Retimed view entry later) :
    Transparent view guardedControls later := by
  rcases retimed with rfl | rfl
  · exact transparent
  · exact ⟨rfl, transparent.crossed⟩

theorem crossable_of_crossing {place : Place} {entry : DecodedInstruction} {move : Move Place}
    (crossed : view.crossing place entry = some move) :
    CodeView.Crossable entry.instruction := by
  unfold CodeView.crossing at crossed
  dsimp only at crossed
  split at crossed
  · contradiction
  · rename_i open_
    simp only [stops, Bool.or_eq_true, not_or, Bool.not_eq_true] at open_
    exact crossable_of_effects open_.1.2

namespace FlagProof

def verdict (proof : FlagProof) : Verdict :=
  match proof.kind with
  | .overwrite => .reached proof.instructions proof.ticks
  | .terminalFailure => .blocked
  | .boundedFailure => .exhausted proof.instructions proof.ticks

theorem answer_eq_reply (proof : FlagProof) (instructions ticks : Nat) :
    proof.answer instructions ticks = proof.verdict.reply instructions ticks := by
  unfold answer verdict
  cases proof.kind with
  | overwrite => simp only [Verdict.reply, Bool.decide_and]
  | terminalFailure => rfl
  | boundedFailure => rfl

end FlagProof

/-- A proof is right for the entries ahead: for their first one by the walk from it, and for the
others of its prefix because nothing changes until they are reached. -/
structure Proven (view : CodeView) (guardedControls : Word) (proof : FlagProof)
    (ahead : List DecodedInstruction) : Prop where
  positive : 0 < proof.reusablePrefix
  covered : proof.reusablePrefix ≤ ahead.length
  transparent : ∀ entry ∈ ahead.take (proof.reusablePrefix - 1),
    Transparent view guardedControls entry
  afforded : proof.kind ≠ .terminalFailure →
    ((ahead.take (proof.reusablePrefix - 1)).map view.charge).sum ≤ proof.ticks
  right : ∀ entry ∈ ahead.head?, proof.verdict.Right view.move (CodeView.full guardedControls entry)

namespace Proven
variable {guardedControls : Word} {proof : FlagProof} {ahead later : List DecodedInstruction}

theorem retime (proven : Proven view guardedControls proof ahead)
    (retimed : List.Forall₂ (Retimed view) ahead later) :
    Proven view guardedControls proof later where
  positive := proven.positive
  covered := by
    rw [← retimed.length_eq]
    exact proven.covered
  transparent := by
    intro entry member
    obtain ⟨before, found, same⟩ := Retimed.mem (List.forall₂_take _ retimed) member
    exact (proven.transparent before found).retime same
  afforded := by
    intro kind
    rw [Retimed.charges (List.forall₂_take _ retimed)]
    exact proven.afforded kind
  right := by
    intro entry first
    cases retimed with
    | nil => contradiction
    | cons same rest =>
      cases first
      have right := proven.right _ rfl
      obtain ⟨pc, it, -⟩ := same.place
      unfold CodeView.full at right ⊢
      rw [pc, it]
      exact right

theorem append (proven : Proven view guardedControls proof ahead) (entry : DecodedInstruction) :
    Proven view guardedControls proof (ahead ++ [entry]) where
  positive := proven.positive
  covered := by
    rw [List.length_append]
    exact Nat.le_add_right_of_le proven.covered
  transparent := by
    rw [List.take_append_of_le_length (Nat.le_trans (Nat.sub_le _ _) proven.covered)]
    exact proven.transparent
  afforded := by
    rw [List.take_append_of_le_length (Nat.le_trans (Nat.sub_le _ _) proven.covered)]
    exact proven.afforded
  right := by
    intro other first
    cases ahead with
    | nil => exact absurd proven.covered (Nat.not_le.mpr proven.positive)
    | cons head rest => exact proven.right other first

/-- Taking the first entry moves the proof to the next one. -/
theorem consume {entry : DecodedInstruction}
    (proven : Proven view guardedControls proof (entry :: later)) (genuine : Genuine view entry)
    (chain : (entry :: later).IsChain view.Follows) {rest : FlagProof}
    (consumed : proof.consume (entry.ticks.getD 0) = some rest) :
    Proven view guardedControls rest later := by
  have covered := proven.covered
  have transparent := proven.transparent
  have afforded := proven.afforded
  unfold FlagProof.consume at consumed
  by_cases short : proof.reusablePrefix - 1 = 0
  · rw [if_pos short] at consumed
    contradiction
  · rw [if_neg short] at consumed
    obtain ⟨count, size⟩ : ∃ count, proof.reusablePrefix - 1 = count + 1 :=
      Nat.exists_eq_succ_of_ne_zero short
    rw [size] at transparent afforded consumed
    rw [List.length_cons] at covered
    rw [List.take_succ_cons] at transparent afforded
    rw [List.map_cons, List.sum_cons] at afforded
    obtain ⟨timed, crossed⟩ := transparent entry List.mem_cons_self
    rw [timed, Option.getD_some] at consumed
    have toward : ∀ next ∈ later.head?, (proof.verdict.advance (view.charge entry)).Right view.move
        (CodeView.full guardedControls next) := by
      intro next first
      obtain ⟨pc, it⟩ : next.pc.toNat = entry.pc.toNat + entry.instruction.size ∧
          next.it = view.nextIt entry.instruction entry.it := by
        cases later with
        | nil => contradiction
        | cons second others =>
          cases first
          exact (List.isChain_cons_cons.mp chain).1 (crossable_of_crossing crossed)
      rw [genuine.crossing rfl rfl] at crossed
      unfold CodeView.full
      rw [pc, it]
      exact (proven.right entry rfl).advance (move_priced view) crossed
    have kept : ∀ other ∈ later.take count, Transparent view guardedControls other :=
      fun other member => transparent other (List.mem_cons_of_mem _ member)
    by_cases terminal : proof.kind = .terminalFailure
    · rw [if_pos terminal] at consumed
      cases consumed
      have same : proof.verdict = .blocked := by
        unfold FlagProof.verdict
        rw [terminal]
      refine ⟨Nat.succ_pos _, by dsimp only; omega, kept, fun other => absurd terminal other, ?_⟩
      intro next first
      have right := toward next first
      rw [same] at right
      unfold FlagProof.verdict
      dsimp only
      rw [terminal]
      exact right
    · rw [if_neg terminal] at consumed
      cases consumed
      have spent := afforded terminal
      have exact_ : FlagProof.lessTicks proof.ticks (view.charge entry) =
          proof.ticks - view.charge entry := if_pos (by omega)
      refine ⟨Nat.succ_pos _, by dsimp only; omega, kept, fun _ => ?_, ?_⟩
      · dsimp only
        rw [exact_, Nat.add_sub_cancel]
        omega
      · intro next first
        have right := toward next first
        unfold FlagProof.verdict at right ⊢
        dsimp only
        rw [exact_]
        cases kind : proof.kind with
        | terminalFailure => exact absurd kind terminal
        | overwrite =>
          rw [kind] at right
          exact right
        | boundedFailure =>
          rw [kind] at right
          exact right

end Proven

/-- The controls of each of the two caches. -/
def controlsOf (guarded : Bool) : Word := if guarded then floatingComparisonControls else 0

theorem cacheOf_eq_some {live guardedControls : Word} {guarded : Bool}
    (cached : cacheOf live guardedControls = some guarded) :
    live = 0xf ∧ guardedControls = controlsOf guarded := by
  unfold cacheOf at cached
  split at cached
  · rename_i full
    split at cached
    · cases cached
      exact ⟨full, by assumption⟩
    · split at cached
      · cases cached
        exact ⟨full, by assumption⟩
      · contradiction
  · contradiction

namespace InstructionWindow

def taken (window : InstructionWindow) : List DecodedInstruction :=
  window.pending.take window.consumed

def ahead (window : InstructionWindow) : List DecodedInstruction :=
  window.pending.drop window.consumed

end InstructionWindow

/-- A window holds what the source holds, in the order of a walk on either side of its position,
and its cached proofs are right for what is ahead. -/
structure Sound (view : CodeView) (window : InstructionWindow) : Prop where
  within : window.consumed ≤ window.pending.length
  plain : window.retainCycle = false → window.consumed = 0
  genuine : ∀ entry ∈ window.pending, Genuine view entry
  taken : window.taken.IsChain view.Follows
  ahead : window.ahead.IsChain view.Follows
  proven : ∀ guarded proof, window.fullFlagsDead guarded = some proof →
    Proven view (controlsOf guarded) proof window.ahead

namespace Sound
variable {window : InstructionWindow} {entry : DecodedInstruction}

theorem new (view : CodeView) (retainCycle : Bool) : Sound view { retainCycle } where
  within := Nat.le_refl 0
  plain _ := rfl
  genuine _ absent := absurd absent List.not_mem_nil
  taken := .nil
  ahead := .nil
  proven _ _ absent := nomatch absent

theorem retime (sound : Sound view window) {later : List DecodedInstruction}
    (retimed : List.Forall₂ (Retimed view) window.pending later) :
    Sound view { window with pending := later } where
  within := by
    dsimp only
    rw [← retimed.length_eq]
    exact sound.within
  plain := sound.plain
  genuine := by
    intro entry member
    obtain ⟨before, found, same⟩ := Retimed.mem retimed member
    exact same.genuine (sound.genuine before found)
  taken := Retimed.isChain (List.forall₂_take _ retimed) sound.taken
  ahead := Retimed.isChain (List.forall₂_drop _ retimed) sound.ahead
  proven guarded proof cached :=
    (sound.proven guarded proof cached).retime (List.forall₂_drop _ retimed)

/-- An entry that lookahead decodes comes after the last one, if there is one ahead. -/
theorem append (sound : Sound view window) (genuine : Genuine view entry)
    (follows : ∀ last ∈ window.ahead.getLast?, view.Follows last entry) :
    Sound view { window with pending := window.pending ++ [entry] } where
  within := by
    rw [List.length_append]
    exact Nat.le_add_right_of_le sound.within
  plain := sound.plain
  genuine := by
    intro other member
    rcases List.mem_append.mp member with before | last
    · exact sound.genuine other before
    · rw [List.mem_singleton.mp last]
      exact genuine
  taken := by
    unfold InstructionWindow.taken
    rw [List.take_append_of_le_length sound.within]
    exact sound.taken
  ahead := by
    unfold InstructionWindow.ahead
    rw [List.drop_append_of_le_length sound.within]
    refine List.isChain_append.mpr ⟨sound.ahead, .singleton _, fun last member next first => ?_⟩
    cases first
    exact follows last member
  proven := by
    intro guarded proof cached
    unfold InstructionWindow.ahead
    rw [List.drop_append_of_le_length sound.within]
    exact (sound.proven guarded proof cached).append entry

theorem update (sound : Sound view window) (guarded : Bool) (cached : Option FlagProof)
    (proven : ∀ proof, cached = some proof → Proven view (controlsOf guarded) proof window.ahead) :
    Sound view
      { window with fullFlagsDead := Function.update window.fullFlagsDead guarded cached } where
  within := sound.within
  plain := sound.plain
  genuine := sound.genuine
  taken := sound.taken
  ahead := sound.ahead
  proven := by
    intro other proof found
    dsimp only at found
    by_cases same : other = guarded
    · subst same
      rw [Function.update_self] at found
      exact proven proof found
    · rw [Function.update_of_ne same] at found
      exact sound.proven other proof found

theorem match_ (sound : Sound view window) (pc it : Word) : Sound view (window.match_ pc it) := by
  unfold InstructionWindow.match_
  split
  · exact sound
  · split
    · exact new view false
    · exact sound

theorem keepTicks (sound : Sound view window) (genuine : Genuine view entry) :
    Sound view (window.keepTicks entry (view.charge entry)) := by
  unfold InstructionWindow.keepTicks
  split
  · refine sound.retime (Retimed.modify (fun original member => ?_) _)
    split
    · rename_i same
      right
      have word := (sound.genuine original member).unique genuine same.1 same.2
      unfold CodeView.charge
      rw [same.1, word]
    · exact .inl rfl
  · exact sound

theorem repeatCycle (sound : Sound view window) : Sound view window.repeatCycle := by
  unfold InstructionWindow.repeatCycle
  split
  · exact sound
  · exact
      { within := Nat.zero_le _
        plain := fun _ => rfl
        genuine := fun entry member => sound.genuine entry (List.mem_of_mem_take member)
        taken := .nil
        ahead := sound.taken
        proven := fun _ _ absent => nomatch absent }

end Sound

end ILEmu.Arm64
