import ILEmu.Scheduler.Policies
import ILEmu.Scheduler.Selection

/-! Slices: a dispatched thread leaves its queue for a processor, and a completed
slice settles what became of the thread meanwhile. -/
namespace ILEmu
open Foundation Xnu.Scheduler
namespace XnuScheduler
section
variable {s s' : XnuScheduler} {r r' : ThreadRecord} {t : XnuThreadId} {counted : Bool}

theorem retiredTicks_insert {process : Nat} {history history' : TaskHistory}
    (found : s.taskHistory.lookup process = some history)
    (same : history'.terminatedUserTicks = history.terminatedUserTicks) (p : Nat) :
    retiredTicks { s with taskHistory := s.taskHistory.insert process history' } p =
      s.retiredTicks p := by
  unfold retiredTicks
  dsimp only
  rw [Table.lookup_insert_eq]
  split
  · rename_i here
    rw [here, found]
    simp [same]
  · rfl

theorem Holding.history (holding : Holding s r counted) :
    (s.taskHistory.lookup r.id.process).isSome := by
  have owners := holding.balanced.owners
  exact owners.history _ (owners.owner r.id (by rw [lookup_store_self]; rfl))

theorem switchContext_yields (holding : Holding s r counted) (processor : Nat) :
    Yields (s.switchContext r processor) fun s' =>
      Holding s' r counted ∧ s'.threads = s.threads ∧ Stable s s' := by
  unfold switchContext
  refine Yields.ite (fun _ => Yields.ok ⟨holding, rfl, Stable.refl s⟩) (fun _ => ?_)
  obtain ⟨history, found⟩ := Option.isSome_iff_exists.mp holding.history
  simp only [found]
  generalize charge : ({ history with
    contextSwitches := (history.contextSwitches + 1) % 2 ^ 32 } : TaskHistory) = switched
  have ticks : switched.terminatedUserTicks = history.terminatedUserTicks := by rw [← charge]
  have charged : Holding { s with taskHistory := s.taskHistory.insert r.id.process switched } r
      counted := by
    refine holding.aside rfl rfl rfl rfl ?_ { holding.configured with }
    intro p here
    dsimp only
    rw [Table.lookup_insert_eq]
    split
    · rfl
    · exact here
  have stable : Stable s { s with taskHistory := s.taskHistory.insert r.id.process switched } :=
    ⟨retiredTicks_insert found ticks, rfl, rfl⟩
  have released := charged.releaseProcessorContext r
  have frame := releaseProcessorContext_frame
    { s with taskHistory := s.taskHistory.insert r.id.process switched } r
  refine Yields.ok ⟨?_, frame.threads, stable.trans { frame.stable with }⟩
  exact released.aside rfl rfl rfl rfl (fun _ here => here)
    (released.configured.withContexts List.length_set)

theorem startSlice_same (s : XnuScheduler) (processor : Nat) (r : ThreadRecord) :
    (s.startSlice processor r).books = r.books ∧ (s.startSlice processor r).band = r.band ∧
      (s.startSlice processor r).life = r.life ∧
      (s.startSlice processor r).info.remainingQuantum = r.info.remainingQuantum := by
  unfold startSlice
  dsimp only
  split
  · exact ⟨rfl, rfl, rfl, rfl⟩
  · exact ⟨rfl, rfl, rfl, rfl⟩

theorem Holding.startSlice (holding : Holding s r counted) {processor : Nat}
    (inside : processor < s.processorRunQueues.length) :
    Holding s (s.startSlice processor r) counted := by
  have last : ∀ p, some processor = some p → p < s.processorRunQueues.length := by
    rintro p same
    exact Option.some.inj same ▸ inside
  refine holding.touch (startSlice_same s processor r).1 ?_ ?_
  · unfold XnuScheduler.startSlice
    dsimp only
    split
    · exact { holding.ranged with last := last }
    · exact { holding.ranged with last := last }
  · unfold XnuScheduler.startSlice
    dsimp only
    split
    · exact { holding.placed with }
    · exact { holding.placed with }

/-- The thread that is taken off its queue runs with the quantum it has left. -/
theorem dispatchRecord_yields (settled : s.Settled) (found : s.threads.lookup t = some r)
    (queued : r.queued = true) (runnable : r.info.state = .runnable) {processor : Nat}
    (inside : processor < s.processorRunQueues.length) :
    Yields (s.dispatchRecord processor r) fun (s', slice) =>
      Proceeds (solely t Life.dispatch) s s' ∧ slice.thread = t ∧
        (r.Fuelled → 0 < slice.tickBudget) := by
  unfold dispatchRecord
  have ids := settled.balanced.ids t r found
  refine (removeFromQueue_yields (settled.hold found)).bind ?_
  rintro ⟨s₁, r₁⟩ ⟨holding₁, frame₁, same₁⟩
  have life₁ : r₁.life = { r.life with queued := false } := by rw [same₁]; rfl
  have info₁ : r₁.info = r.info := by rw [same₁]
  have id₁ : r₁.id = r.id := by rw [same₁]
  clear same₁
  have scheduled₁ := (settled.scheduled t r found).of_info info₁
  refine (restoreDepression_yields holding₁ scheduled₁).bind ?_
  rintro ⟨s₂, r₂⟩ ⟨holding₂, frame₂, scheduled₂, drift₂⟩
  refine (transitionState_yields holding₂ .running).bind ?_
  rintro ⟨s₃, r₃⟩ ⟨holding₃, frame₃, rfl⟩
  have pending : Holding s₃ { r₂ with info.state := .running, executionPending := true }
      (isWaiting r) := holding₃.touch rfl { holding₃.ranged with } { holding₃.placed with }
  obtain ⟨holding₄, frame₄, index, same₄⟩ := pending.trackUsage
  dsimp only
  generalize s₃.trackUsage { r₂ with info.state := .running, executionPending := true } = tracked
    at holding₄ frame₄ same₄ ⊢
  obtain ⟨s₄, r₄⟩ := tracked
  dsimp only at holding₄ frame₄ same₄ ⊢
  refine (switchContext_yields holding₄ processor).bind ?_
  rintro s₅ ⟨holding₅, threads₅, stable₅⟩
  have stable := ((frame₁.trans (frame₂.trans (frame₃.trans frame₄))).stable).trans stable₅
  have threads : s₅.threads = s.threads := threads₅.trans
    (frame₄.threads.trans (frame₃.threads.trans (frame₂.threads.trans frame₁.threads)))
  have holding₆ := holding₅.startSlice (stable.processors.symm ▸ inside)
  obtain ⟨books, band, life, quantum⟩ := startSlice_same s₅ processor r₄
  generalize s₅.startSlice processor r₄ = r₅ at *
  have life₅ : r₅.life = r.life.dispatch := by
    rw [life, same₄]
    change { r₂.life with state := .running, executionPending := true } = _
    rw [drift₂.life, life₁]
    rfl
  have awake : isWaiting r₅ = isWaiting r := by
    have running : r₅.info.state = .running := congrArg Life.state life₅
    rw [isWaiting, isWaiting, running, runnable]
    rfl
  have ident : r₅.id = r.id := by
    rw [show r₅.id = r₄.id from congrArg ThreadRecord.Books.id books, same₄]
    exact drift₂.ident.trans id₁
  have scheduled : r₅.Scheduled := by
    refine scheduled₂.of_band (band.trans ?_)
    rw [same₄]
    rfl
  have filled : r.Fuelled → 0 < r₅.info.remainingQuantum := by
    intro fuelled
    rw [quantum, same₄]
    have before : 0 < r₁.info.remainingQuantum := by
      rw [info₁]
      exact fuelled (.inl queued)
    rcases drift₂.quantum with same | more
    · change 0 < r₂.info.remainingQuantum
      rwa [same]
    · exact more
  rw [← awake] at holding₆
  exact Yields.ok ⟨proceeds_stored settled found holding₆ threads stable scheduled
    ⟨ident, life₅, fun fuelled _ => filled fuelled⟩, ident.trans ids, filled⟩

/-- What can come of the choice of the next slice for a processor. -/
inductive Choice (s : XnuScheduler) (processor : Nat) (preferred : Option XnuThreadId) :
    Checked (XnuScheduler × Option XnuScheduledSlice) → Prop where
  | outside (outside : s.processorRunQueues.length ≤ processor) :
      Choice s processor preferred (.ok (s, none))
  | nobody (inside : processor < s.processorRunQueues.length)
      (unguided : preferred = none →
        ¬s.Obstructed processor ∧ ∀ r, ¬s.Eligible processor r)
      (guided : ∀ t r, preferred = some t → s.threads.lookup t = some r →
        ¬s.Eligible processor r) : Choice s processor preferred (.ok (s, none))
  | slice (r : ThreadRecord) {s' : XnuScheduler} {slice : XnuScheduledSlice}
      (inside : processor < s.processorRunQueues.length) (eligible : s.Eligible processor r)
      (unguided : preferred = none → ¬s.Obstructed processor ∧ s.Best processor r)
      (guided : ∀ t, preferred = some t → r.id = t)
      (thread : slice.thread = r.id) (budget : r.Fuelled → 0 < slice.tickBudget)
      (proceeds : Proceeds (solely r.id Life.dispatch) s s') :
      Choice s processor preferred (.ok (s', some slice))
  | thrown (inside : processor < s.processorRunQueues.length) (unguided : preferred = none)
      (obstructed : s.Obstructed processor) :
      Choice s processor preferred (.error (.logicError .realtimeIndexInconsistent))

/-- A choice dispatches the record that was selected, and touches no other. -/
theorem chooseNext_choice (invariant : s.Invariant) (processor : Nat)
    (preferred : Option XnuThreadId) :
    Choice s processor preferred (s.chooseNext processor preferred) := by
  unfold chooseNext
  split
  · exact .outside ‹_›
  · rename_i inside
    have inside := Nat.lt_of_not_le inside
    have selected := selectRecord_selected invariant.settled inside preferred
    generalize s.selectRecord processor preferred = result at selected ⊢
    cases selected with
    | nobody unguided guided => exact .nobody inside unguided guided
    | record r eligible unguided guided =>
      have runnable := (invariant.sound r.id r eligible.found).queued.mp eligible.queued
      obtain ⟨⟨s', slice⟩, dispatched, proceeds, thread, budget⟩ := dispatchRecord_yields
        invariant.settled eligible.found eligible.queued runnable inside
      dsimp only [bind, Except.bind]
      rw [dispatched]
      exact .slice r inside eligible unguided guided thread budget proceeds
    | thrown unguided obstructed => exact .thrown inside unguided obstructed

end
end XnuScheduler
end ILEmu
