import ILEmu.Scheduler.Slices

/-! A returned slice settles what became of its thread meanwhile: it waits, waits
for the host, or is queued again. -/
namespace ILEmu
open Foundation Xnu.Scheduler

/-- A returned slice can be settled: no host ticket is out, and only a runnable
record is queued. -/
structure Returned (r : ThreadRecord) : Prop where
  ticket : r.hostAwait = false
  queued : r.queued = true ↔ r.info.state = .runnable
  host : r.info.state ≠ .hostAwait

/-- The completions that leave a quantum whatever the slice has used. -/
def Refills (completion : XnuSliceCompletion) (r : ThreadRecord) : Prop :=
  r.info.state = .running ∨ completion = .hostAwait ∨ completion = .block ∧ r.wakePending = false

theorem Returned.idle {r : ThreadRecord} (returned : Returned r) (running : r.info.state = .running) :
    r.queued = false := by
  cases queued : r.queued with
  | false => rfl
  | true =>
    rw [returned.queued.mp queued] at running
    contradiction

namespace XnuScheduler
section
variable {s s' : XnuScheduler} {r r' : ThreadRecord} {counted : Bool}

theorem Holding.endTimeslices (holding : Holding s r counted) :
    Holding s (endTimeslices r) counted :=
  holding.touch rfl { holding.ranged with } { holding.placed with }

theorem Holding.refuel (holding : Holding s r counted) (quantum : Nat) :
    Holding s { r with info.remainingQuantum := quantum } counted :=
  holding.touch rfl { holding.ranged with } { holding.placed with }

/-- A host ticket is issued to the record in hand. -/
theorem Holding.issueTicket (holding : Holding s r counted) (free : r.hostAwait = false)
    (allowed : Bool) :
    Holding { s with hostAwaitCount := s.hostAwaitCount + 1 }
      { r with
        hostResumeAllowed := allowed
        hostAwait := true
        wakePending := false
        resumeRunnable := false } counted := by
  have counting := holding.counting
  have count := counting.hostAwait
  rw [free, Bool.toNat_false] at count
  refine holding.recount (h := s.hostAwaitCount + 1) rfl { holding.ranged with }
    { holding.placed with } (fun _ => rfl) ⟨?_, counting.runnable, counting.load⟩
  simp only [recounted, Bool.toNat_true]
  omega

theorem enterHostAwait_yields (holding : Holding s r (isWaiting r)) (scheduled : r.Scheduled) :
    Yields (s.enterHostAwait r) fun (s', r') =>
      Holding s' r' (isWaiting r') ∧ Frame s s' ∧ r'.Scheduled ∧ r'.id = r.id ∧
        r'.life = { r.life with
          state := if r.suspendCount = 0 then .hostAwait else r.info.state } := by
  unfold enterHostAwait
  refine Yields.ite (fun free => ?_) (fun held => Yields.ok ?_)
  · refine (leaveWaitingOf_yields holding).bind ?_
    rintro s₁ ⟨holding₁, frame₁⟩
    refine (transitionState_yields holding₁ .hostAwait).mono ?_
    rintro ⟨s₂, r₂⟩ ⟨holding₂, frame₂, rfl⟩
    rw [if_pos free]
    exact ⟨holding₂, frame₁.trans frame₂, scheduled.of_band rfl, rfl, rfl⟩
  · rw [if_neg held]
    exact ⟨holding, Frame.refl s, scheduled, rfl, rfl⟩

theorem awaitHost_yields (holding : Holding s r (isWaiting r)) (scheduled : r.Scheduled)
    (returned : Returned r) :
    Yields (s.awaitHost r) fun (s', r') =>
      Holding s' r' (isWaiting r') ∧ Frame s s' ∧ r'.Scheduled ∧ r'.id = r.id ∧
        r'.life = r.life.awaitHost ∧ 0 < r'.info.remainingQuantum := by
  unfold awaitHost
  simp only [returned.ticket, Bool.false_eq_true, if_false]
  generalize decide (r.info.remainingQuantum ≠ 0 ∧ r.suspendCount = 0 ∧
    r.info.state = .running) = allowed
  have issued := holding.issueTicket returned.ticket allowed
  have frame₀ : Frame s { s with hostAwaitCount := s.hostAwaitCount + 1 } :=
    ⟨rfl, rfl, rfl, rfl, rfl⟩
  refine (removeFromQueue_yields issued).bind ?_
  rintro ⟨s₁, r₁⟩ ⟨holding₁, frame₁, same⟩
  have life₁ : r₁.life = { r.life with
      hostAwait := true, wakePending := false, resumeRunnable := false, queued := false } := by
    rw [same]; rfl
  have band₁ : r₁.band = r.band := by rw [same]; rfl
  have id₁ : r₁.id = r.id := by rw [same]
  have waiting₁ : isWaiting r₁ = isWaiting r := by rw [same]; rfl
  clear same
  rw [← waiting₁] at holding₁
  refine (enterHostAwait_yields holding₁ (scheduled.of_band band₁)).bind ?_
  rintro ⟨s₂, r₂⟩ ⟨holding₂, frame₂, scheduled₂, id₂, life₂⟩
  have frame := frame₀.trans (frame₁.trans frame₂)
  have life : r₂.life = r.life.awaitHost := by
    have holds : r₁.suspendCount = r.suspendCount := congrArg Life.suspendCount life₁
    have state : r₁.info.state = r.info.state := congrArg Life.state life₁
    rw [life₂, life₁, holds, state]
    rfl
  refine Yields.ite (fun _ => ?_) (fun left => Yields.ok ?_)
  · have filled := quantumFor_pos holding₂.configured holding₂.ranged
    refine (recomputePriority_yields (holding₂.refuel (s₂.quantumFor r₂)).endTimeslices
      scheduled₂.depressed).mono ?_
    rintro ⟨s₃, r₃⟩ ⟨holding₃, frame₃, id₃, scheduled₃, life₃, info₃⟩
    have waiting₃ : isWaiting r₃ = isWaiting r₂ := congrArg (fun l : Life => l.state == .waiting) life₃
    rw [← waiting₃] at holding₃
    refine ⟨holding₃, frame.trans frame₃, scheduled₃, id₃.trans (id₂.trans id₁),
      life₃.trans life, ?_⟩
    rw [info₃]
    exact filled
  · exact ⟨holding₂, frame, scheduled₂, id₂.trans id₁, life, Nat.pos_of_ne_zero left⟩

theorem settleWait_yields (holding : Holding s r (isWaiting r)) (scheduled : r.Scheduled)
    (completion : XnuSliceCompletion) :
    Yields (s.settleWait r completion) fun (s', r') =>
      Holding s' r' (isWaiting r') ∧ Frame s s' ∧ r'.Scheduled ∧
        r.Moves (fun l => if l.wakePending then l.makeRunnable
          else if completion = .block then l.block else l) r' ∧
        (completion = .block ∧ r.wakePending = false → r'.Fuelled) := by
  unfold settleWait
  refine Yields.ite (fun blocks => ?_) (fun other => Yields.ite (fun woken => ?_) fun still => ?_)
  · obtain ⟨rfl, asleep⟩ := blocks
    refine (blockRecord_yields holding scheduled).bind ?_
    rintro ⟨s', r'⟩ ⟨holding', frame, scheduled', moves, filled⟩
    refine Yields.ok ⟨holding'.endTimeslices, frame, scheduled'.of_band rfl,
      ⟨moves.ident, ?_, fun _ _ => filled⟩, fun _ _ => filled⟩
    rw [if_neg (show ¬r.life.wakePending = true from asleep), if_pos rfl]
    exact moves.life
  · refine (makeRunnableRecord_yields holding scheduled).mono ?_
    rintro ⟨s', r'⟩ ⟨holding', frame, scheduled', moves⟩
    refine ⟨holding', frame, scheduled', ⟨moves.ident, ?_, moves.fuelled⟩, ?_⟩
    · rw [if_pos (show r.life.wakePending = true from woken)]
      exact moves.life
    · rintro ⟨-, asleep⟩
      rw [woken] at asleep
      contradiction
  · have nothing : ¬completion = .block := fun blocks => other ⟨blocks, still⟩
    refine Yields.ok ⟨holding, Frame.refl s, scheduled, ⟨rfl, ?_, id⟩, ?_⟩
    · rw [if_neg (show ¬r.life.wakePending = true from still), if_neg nothing]
    · rintro ⟨blocks, -⟩
      exact absurd blocks nothing

theorem settleHeld_yields (holding : Holding s r (isWaiting r)) (scheduled : r.Scheduled)
    (completion : XnuSliceCompletion) :
    Yields (s.settleHeld r completion) fun (s', r') =>
      Holding s' r' (isWaiting r') ∧ Frame s s' ∧ r'.Scheduled ∧
        r.Moves (fun l =>
          if l.wakePending then { l.makeRunnable with wakePending := false }
          else if completion = .block then { l.block with wakePending := false }
          else l) r' ∧
        (completion = .block ∧ r.wakePending = false → r'.Fuelled) := by
  refine (settleWait_yields holding scheduled completion).bind ?_
  rintro ⟨s₁, r₁⟩ ⟨holding₁, frame₁, scheduled₁, moves, filled⟩
  obtain ⟨holding₂, frame₂⟩ : Holding (if r₁.info.state = .waiting then
      s₁.releaseProcessorContext r₁ else s₁) r₁ (isWaiting r₁) ∧ Frame s₁ (if r₁.info.state =
      .waiting then s₁.releaseProcessorContext r₁ else s₁) := by
    split
    · exact ⟨holding₁.releaseProcessorContext r₁, releaseProcessorContext_frame s₁ r₁⟩
    · exact ⟨holding₁, Frame.refl s₁⟩
  refine Yields.ok ⟨holding₂.touch rfl { holding₂.ranged with } { holding₂.placed with },
    frame₁.trans frame₂, scheduled₁.of_band rfl, ⟨moves.ident, ?_, moves.fuelled⟩, filled⟩
  change { r₁.life with wakePending := false } = _
  rw [moves.life]
  split
  · rfl
  · rename_i asleep
    split
    · rfl
    · rw [← Bool.eq_false_iff.mpr asleep]

/-- A thread that goes on running becomes runnable, in a new generation. -/
theorem settleRunnable_yields (holding : Holding s r false) (scheduled : r.Scheduled) :
    Yields (s.transitionState r .runnable) fun (s', r') =>
      Holding s' r'.beginRunnableGeneration false ∧ Frame s s' ∧
        r'.beginRunnableGeneration.Scheduled ∧ r' = { r with info.state := .runnable } := by
  refine (transitionState_yields holding .runnable).mono ?_
  rintro ⟨s', r'⟩ ⟨holding', frame, rfl⟩
  exact ⟨holding'.beginRunnableGeneration, frame, scheduled.of_band rfl, rfl⟩

theorem settleBlock_yields (holding : Holding s r false) (scheduled : r.Scheduled)
    (idle : r.queued = false) (ticket : r.hostAwait = false) :
    Yields (s.settleBlock r) fun (s', r') =>
      Holding s' r' (isWaiting r') ∧ Frame s s' ∧ r'.Scheduled ∧ r'.id = r.id ∧
        r'.life = (if r.wakePending then
            { r.life with wakePending := false, state := .runnable, queued := true }
          else { r.life with state := .waiting }) ∧ r'.Fuelled := by
  unfold settleBlock
  refine Yields.ite (fun woken => ?_) (fun asleep => ?_)
  · have consumed : Holding s { r with wakePending := false } false :=
      holding.touch rfl { holding.ranged with } { holding.placed with }
    refine (settleRunnable_yields consumed (scheduled.of_band rfl)).bind ?_
    rintro ⟨s₁, r₁⟩ ⟨holding₁, frame₁, scheduled₁, rfl⟩
    have filled := quantumFor_pos holding₁.configured holding₁.ranged
    refine (enqueueRunnable_yields (holding₁.refuel (s₁.quantumFor _)).endTimeslices idle
      (scheduled₁.of_band rfl) rfl .back).mono ?_
    rintro ⟨s', r'⟩ ⟨holding', frame, scheduled', id, life, quantum⟩
    rw [if_pos woken]
    refine ⟨holding', frame₁.trans frame, scheduled', id, life, fun _ => ?_⟩
    rw [quantum]
    exact filled
  · refine (transitionState_yields holding .waiting).bind ?_
    rintro ⟨s₁, r₁⟩ ⟨holding₁, frame₁, rfl⟩
    have entered := (holding₁.releaseProcessorContext { r with info.state := .waiting }).enterWaiting
    have frame := frame₁.trans ((releaseProcessorContext_frame s₁ { r with
      info.state := .waiting }).trans (enterWaiting_frame _))
    rw [if_neg asleep]
    refine Yields.ok ⟨(entered.refuel _).endTimeslices, frame, scheduled.of_band rfl, rfl, rfl, ?_⟩
    rintro (queued | awaiting)
    · exact absurd (queued.symm.trans idle) nofun
    · exact absurd (awaiting.symm.trans ticket) nofun

theorem settleRunning_yields (holding : Holding s r false) (scheduled : r.Scheduled)
    (idle : r.queued = false) (completion : XnuSliceCompletion) :
    Yields (s.settleRunning r completion) fun (s', r') =>
      Holding s' r' (isWaiting r') ∧ Frame s s' ∧ r'.Scheduled ∧ r'.id = r.id ∧
        r'.life = { r.life with wakePending := false, state := .runnable, queued := true } ∧
        r'.Fuelled := by
  have consumed : Holding s { r with wakePending := false } false :=
    holding.touch rfl { holding.ranged with } { holding.placed with }
  unfold settleRunning
  refine Yields.ite (fun left => ?_) (fun _ => Yields.ite (fun _ => ?_) (fun left => ?_))
  · refine (settleRunnable_yields consumed (scheduled.of_band rfl)).bind ?_
    rintro ⟨s₁, r₁⟩ ⟨holding₁, frame₁, scheduled₁, rfl⟩
    refine (enqueueRunnable_yields holding₁ idle scheduled₁ rfl .back).mono ?_
    rintro ⟨s', r'⟩ ⟨holding', frame, scheduled', id, life, quantum⟩
    refine ⟨holding', frame₁.trans frame, scheduled', id, life, fun _ => ?_⟩
    rw [quantum]
    exact Nat.pos_of_ne_zero left.2
  · -- the quantum is used up or given up, and a new one starts
    generalize metered : (if completion = .yield then
      { r with wakePending := false, info.computationMetered := 0 }
      else { r with wakePending := false } : ThreadRecord) = r₁
    obtain ⟨holding₁, life₁, band₁, id₁⟩ : Holding s r₁ false ∧
        r₁.life = { r.life with wakePending := false } ∧ r₁.band = r.band ∧ r₁.id = r.id := by
      rw [← metered]
      split
      · exact ⟨consumed.touch rfl { holding.ranged with } { holding.placed with }, rfl, rfl, rfl⟩
      · exact ⟨consumed, rfl, rfl, rfl⟩
    clear metered
    have filled := quantumFor_pos holding₁.configured holding₁.ranged
    refine (recomputePriority_yields (holding₁.refuel (s.quantumFor r₁))
      (scheduled.of_band band₁).depressed).bind ?_
    rintro ⟨s₂, r₂⟩ ⟨holding₂, frame₂, id₂, scheduled₂, life₂, info₂⟩
    have quantum₂ : r₂.info.remainingQuantum = s.quantumFor r₁ := by rw [info₂]
    clear info₂
    refine (settleRunnable_yields holding₂ scheduled₂).bind ?_
    rintro ⟨s₃, r₃⟩ ⟨holding₃, frame₃, scheduled₃, rfl⟩
    have life₃ : r₂.life = { r.life with wakePending := false } := life₂.trans life₁
    have idle₃ : r₂.queued = false := (congrArg Life.queued life₃).trans idle
    have settled : ∀ (r₄ : ThreadRecord) (position : QueuePosition), Holding s₃ r₄ false →
        r₄.Scheduled → r₄.info.state = .runnable → r₄.id = r₂.id →
        r₄.life = { r₂.life with state := .runnable } →
        r₄.info.remainingQuantum = r₂.info.remainingQuantum →
        Yields (s₃.enqueue r₄ position) fun (s', r') =>
          Holding s' r' (isWaiting r') ∧ Frame s s' ∧ r'.Scheduled ∧ r'.id = r.id ∧
            r'.life = { r.life with wakePending := false, state := .runnable, queued := true } ∧
            r'.Fuelled := by
      intro r₄ position holding₄ scheduled₄ state₄ id₄ life₄ quantum₄
      have idle₄ : r₄.queued = false := (congrArg Life.queued life₄).trans idle₃
      refine (enqueueRunnable_yields holding₄ idle₄ scheduled₄ state₄ position).mono ?_
      rintro ⟨s', r'⟩ ⟨holding', frame, scheduled', id, life, quantum⟩
      refine ⟨holding', frame₂.trans (frame₃.trans frame), scheduled',
        id.trans (id₄.trans (id₂.trans id₁)), ?_, fun _ => ?_⟩
      · rw [life, life₄, life₃]
      · rw [quantum, quantum₄, quantum₂]
        exact filled
    refine Yields.ite (fun _ => ?_) (fun _ => ?_)
    · refine settled _ .front ?_ (scheduled₃.of_band rfl) rfl rfl rfl rfl
      exact holding₃.touch rfl { holding₃.ranged with } { holding₃.placed with }
    · exact settled _ .back holding₃.endTimeslices (scheduled₃.of_band rfl) rfl rfl rfl rfl
  · refine (settleRunnable_yields consumed (scheduled.of_band rfl)).bind ?_
    rintro ⟨s₁, r₁⟩ ⟨holding₁, frame₁, scheduled₁, rfl⟩
    refine (enqueueRunnable_yields holding₁ idle scheduled₁ rfl .front).mono ?_
    rintro ⟨s', r'⟩ ⟨holding', frame, scheduled', id, life, quantum⟩
    refine ⟨holding', frame₁.trans frame, scheduled', id, life, fun _ => ?_⟩
    rw [quantum]
    exact Nat.pos_of_ne_zero fun spent => left (.inr spent)

/-- A returned slice settles as the machine of lives says, whatever became of the
thread while it ran. -/
theorem settleSlice_yields (holding : Holding s r (isWaiting r)) (scheduled : r.Scheduled)
    (returned : Returned r) (completion : XnuSliceCompletion) :
    Yields (s.settleSlice r completion) fun (s', r') =>
      Holding s' r' (isWaiting r') ∧ Frame s s' ∧ r'.Scheduled ∧
        r.Moves (Life.settle completion) r' ∧ (Refills completion r → r'.Fuelled) := by
  unfold settleSlice
  refine Yields.ite (fun host => ?_) (fun guest => ?_)
  · refine (awaitHost_yields holding scheduled returned).mono ?_
    rintro ⟨s', r'⟩ ⟨holding', frame, scheduled', id, life, filled⟩
    refine ⟨holding', frame, scheduled', ⟨id, ?_, fun _ _ => filled⟩, fun _ _ => filled⟩
    exact life.trans (if_pos host).symm
  · generalize allowed : (if completion ≠ .continue ∨ r.info.remainingQuantum = 0 then
      { r with hostResumeAllowed := false } else r : ThreadRecord) = r₁
    obtain ⟨holding₁, scheduled₁, life₁, id₁, fuelled₁⟩ : Holding s r₁ (isWaiting r) ∧
        r₁.Scheduled ∧ r₁.life = r.life ∧ r₁.id = r.id ∧ (r.Fuelled → r₁.Fuelled) := by
      rw [← allowed]
      split
      · exact ⟨holding.touch rfl { holding.ranged with } { holding.placed with },
          scheduled.of_band rfl, rfl, rfl, id⟩
      · exact ⟨holding, scheduled, rfl, rfl, id⟩
    clear allowed
    have state₁ : r₁.info.state = r.info.state := congrArg Life.state life₁
    have wake₁ : r₁.wakePending = r.wakePending := congrArg Life.wakePending life₁
    have waiting₁ : isWaiting r₁ = isWaiting r := by rw [isWaiting, isWaiting, state₁]
    rw [← waiting₁] at holding₁
    dsimp only
    refine Yields.ite (fun held => ?_) (fun running => ?_)
    · have held' : r.life.state ≠ .running := fun running => held (state₁.trans running)
      refine (settleHeld_yields holding₁ scheduled₁ completion).mono ?_
      rintro ⟨s', r'⟩ ⟨holding', frame, scheduled', moves, filled⟩
      refine ⟨holding', frame, scheduled', ⟨moves.ident.trans id₁, ?_, moves.fuelled ∘ fuelled₁⟩, ?_⟩
      · rw [moves.life, life₁]
        exact (Life.settle_held guest held').symm
      · rintro (running | host | blocks)
        · exact absurd running held'
        · exact absurd host guest
        · exact filled (wake₁.symm ▸ blocks)
    · have running : r₁.info.state = .running := Classical.not_not.mp running
      have awake : isWaiting r₁ = false := by simp [isWaiting, running]
      rw [awake] at holding₁
      have ran : r.life.state = .running := state₁.symm.trans running
      have idle : r₁.queued = false := (congrArg Life.queued life₁).trans (returned.idle ran)
      have ticket : r₁.hostAwait = false := (congrArg Life.hostAwait life₁).trans returned.ticket
      refine Yields.ite (fun blocks => ?_) (fun goesOn => ?_)
      · refine (settleBlock_yields holding₁ scheduled₁ idle ticket).mono ?_
        rintro ⟨s', r'⟩ ⟨holding', frame, scheduled', id, life, filled⟩
        refine ⟨holding', frame, scheduled', ⟨id.trans id₁, ?_, fun _ => filled⟩, fun _ => filled⟩
        rw [life, life₁, wake₁, Life.settle_running guest ran]
        by_cases woken : r.wakePending = true
        · rw [if_pos woken, if_neg fun waits => waits.2 woken]
        · rw [if_neg woken, if_pos ⟨blocks, woken⟩]
      · refine (settleRunning_yields holding₁ scheduled₁ idle completion).mono ?_
        rintro ⟨s', r'⟩ ⟨holding', frame, scheduled', id, life, filled⟩
        refine ⟨holding', frame, scheduled', ⟨id.trans id₁, ?_, fun _ => filled⟩, fun _ => filled⟩
        rw [life, life₁, Life.settle_running guest ran, if_neg fun waits => goesOn waits.1]

end
end XnuScheduler
end ILEmu
