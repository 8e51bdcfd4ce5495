import ILEmu.Scheduler.Clock

/-! Wakeups, waits and holds: each moves the life of its thread as the machine of
lives says, and leaves the scheduler settled. -/
namespace ILEmu
open Foundation Xnu.Scheduler
namespace XnuScheduler
section
variable {s s' : XnuScheduler} {r r' : ThreadRecord} {counted : Bool}

/-- A record that is on no queue is placed whatever else it says. -/
theorem placed_of_idle (idle : r.queued = false) (processor : r.queuedProcessor = none)
    (key : r.realtimeQueueKey = none) : r.Placed := by
  refine ⟨?_, ?_, fun _ => ⟨processor, key⟩, ?_, ?_⟩
  · intro queued
    rw [idle] at queued
    contradiction
  · intro queued
    rw [idle] at queued
    contradiction
  · intro queued
    rw [idle] at queued
    contradiction
  · intro k here
    rw [key] at here
    contradiction

theorem Holding.beginRunnableGeneration (holding : Holding s r counted) :
    Holding s r.beginRunnableGeneration counted :=
  holding.touch rfl { holding.ranged with } { holding.placed with }

theorem Holding.refill (holding : Holding s r counted) : Holding s (s.refill r) counted :=
  holding.touch rfl { holding.ranged with } { holding.placed with }

theorem refill_pos (holding : Holding s r counted) : 0 < (s.refill r).info.remainingQuantum :=
  quantumFor_pos holding.configured holding.ranged

theorem Holding.startQuantum (holding : Holding s r counted) (idle : r.queued = false)
    (scheduled : r.Scheduled) :
    Holding s (s.startQuantum r) counted ∧ (s.startQuantum r).Scheduled ∧
      (s.startQuantum r).id = r.id ∧ (s.startQuantum r).life = r.life ∧
      0 < (s.startQuantum r).info.remainingQuantum := by
  obtain ⟨processor, key⟩ := holding.placed.idle idle
  have filled := refill_pos holding
  unfold XnuScheduler.startQuantum
  dsimp only
  split
  · refine ⟨holding.touch rfl { holding.ranged with } ?_, { scheduled with }, rfl, rfl, filled⟩
    exact placed_of_idle idle processor key
  · exact ⟨holding.refill, { scheduled with }, rfl, rfl, filled⟩

/-- The end of every wakeup: the record is runnable, and is queued. -/
theorem enqueueRunnable_yields (holding : Holding s r false) (idle : r.queued = false)
    (scheduled : r.Scheduled) (runnable : r.info.state = .runnable) (position : QueuePosition) :
    Yields (s.enqueue r position) fun (s', r') =>
      Holding s' r' (isWaiting r') ∧ Frame s s' ∧ r'.Scheduled ∧ r'.id = r.id ∧
        r'.life = { r.life with queued := true } ∧
        r'.info.remainingQuantum = r.info.remainingQuantum := by
  refine (enqueue_yields holding idle scheduled position).mono ?_
  rintro ⟨s', r'⟩ ⟨holding', frame, id, info, life⟩
  have awake : isWaiting r' = false := by
    rw [isWaiting, info, runnable]
    rfl
  exact ⟨awake ▸ holding', frame, scheduled.of_info info, id, life, by rw [info]⟩

theorem makeRunnableRecord_yields (holding : Holding s r (isWaiting r)) (scheduled : r.Scheduled) :
    Yields (s.makeRunnableRecord r) fun (s', r') =>
      Holding s' r' (isWaiting r') ∧ Frame s s' ∧ r'.Scheduled ∧ r.Moves Life.makeRunnable r' := by
  unfold makeRunnableRecord
  refine (finishHostAwait_yields holding).bind ?_
  rintro ⟨s₁, r₁⟩ ⟨holding₁, frame₁, rfl⟩
  refine Yields.ite (fun held => ?_) (fun free => Yields.ite (fun ready => ?_) (fun idle => ?_))
  · refine Yields.ok ⟨?_, frame₁, { scheduled with }, rfl, ?_, ?_⟩
    · exact holding₁.touch rfl { holding₁.ranged with } { holding₁.placed with }
    · exact (if_pos held).symm
    · rintro fuelled (queued | awaiting)
      · exact fuelled (.inl queued)
      · contradiction
  · refine Yields.ok ⟨holding₁, frame₁, { scheduled with }, rfl, ?_, ?_⟩
    · exact ((if_neg free).trans (if_pos ready)).symm
    · rintro fuelled (queued | awaiting)
      · exact fuelled (.inl queued)
      · contradiction
  · have unqueued : r.queued = false := by
      simpa using fun queued => idle (.inr queued)
    refine (leaveWaitingOf_yields holding₁).bind ?_
    rintro s₂ ⟨holding₂, frame₂⟩
    refine (transitionState_yields holding₂ .runnable).bind ?_
    rintro ⟨s₃, r₃⟩ ⟨holding₃, frame₃, rfl⟩
    have frame := frame₁.trans (frame₂.trans frame₃)
    have begun := holding₃.beginRunnableGeneration
    have woken : r.life.makeRunnable =
        { r.life with hostAwait := false, state := .runnable, queued := true } :=
      (if_neg free).trans (if_neg idle)
    cases awaiting : r.hostAwait with
    | true =>
      -- the continuation of a host wait keeps the quantum it has left
      refine (enqueueRunnable_yields begun unqueued { scheduled with } rfl .back).mono ?_
      rintro ⟨s', r'⟩ ⟨holding', frame', scheduled', id, life, quantum⟩
      refine ⟨holding', frame.trans frame', scheduled', id, life.trans woken.symm, ?_⟩
      intro fuelled _
      rw [quantum]
      exact fuelled (.inr awaiting)
    | false =>
      obtain ⟨started, scheduled₄, id₄, life₄, filled⟩ := begun.startQuantum unqueued { scheduled with }
      have queued₄ : (s₃.startQuantum _).queued = false := (congrArg Life.queued life₄).trans unqueued
      have state₄ : (s₃.startQuantum _).info.state = .runnable := congrArg Life.state life₄
      refine (enqueueRunnable_yields started queued₄ scheduled₄ state₄ .back).mono ?_
      rintro ⟨s', r'⟩ ⟨holding', frame', scheduled', id, life, quantum⟩
      refine ⟨holding', frame.trans frame', scheduled', id.trans id₄, ?_, ?_⟩
      · rw [life, life₄]
        exact woken.symm
      · intro _ _
        rw [quantum]
        exact filled

theorem Holding.releaseUnless (holding : Holding s r counted) (pending : Bool) (r₁ : ThreadRecord) :
    Holding (if pending then s else s.releaseProcessorContext r₁) r counted ∧
      Frame s (if pending then s else s.releaseProcessorContext r₁) := by
  split
  · exact ⟨holding, Frame.refl s⟩
  · exact ⟨holding.releaseProcessorContext r₁, releaseProcessorContext_frame s r₁⟩

theorem Holding.enterWaitingUnless {wasWaiting : Prop} [Decidable wasWaiting]
    (holding : Holding s r (decide wasWaiting)) :
    Holding (if wasWaiting then s else s.enterWaiting) r true ∧
      Frame s (if wasWaiting then s else s.enterWaiting) := by
  split
  · rename_i waiting
    rw [decide_eq_true waiting] at holding
    exact ⟨holding, Frame.refl s⟩
  · rename_i other
    rw [decide_eq_false other] at holding
    exact ⟨holding.enterWaiting, enterWaiting_frame s⟩

theorem park_yields (holding : Holding s r counted) :
    Yields (s.park r) fun (s', r') =>
      Holding s' r' counted ∧ Frame s s' ∧ r'.id = r.id ∧ r'.band = r.band ∧
        r'.life = { r.life with queued := false, state := .waiting } ∧
        r'.info.remainingQuantum = r.info.remainingQuantum := by
  refine (removeFromQueue_yields holding).bind ?_
  rintro ⟨s₁, r₁⟩ ⟨holding₁, frame₁, rfl⟩
  have aged : Holding s₁ { r with
      queued := false, queuedProcessor := none, realtimeQueueKey := none, enqueuedAt := 0 } counted :=
    holding₁.touch rfl { holding₁.ranged with } { holding₁.placed with }
  refine (transitionState_yields aged .waiting).mono ?_
  rintro ⟨s₂, r₂⟩ ⟨holding₂, frame₂, rfl⟩
  exact ⟨holding₂, frame₁.trans frame₂, rfl, rfl, rfl, rfl⟩

theorem blockRecord_yields (holding : Holding s r (isWaiting r)) (scheduled : r.Scheduled) :
    Yields (s.blockRecord r) fun (s', r') =>
      Holding s' r' (isWaiting r') ∧ Frame s s' ∧ r'.Scheduled ∧ r.Moves Life.block r' ∧
        0 < r'.info.remainingQuantum := by
  have forgotten : Holding s { r with hostResumeAllowed := false } (isWaiting r) :=
    holding.touch rfl { holding.ranged with } { holding.placed with }
  refine (finishHostAwait_yields forgotten).bind ?_
  rintro ⟨s₁, r₁⟩ ⟨holding₁, frame₁, same⟩
  have life₁ : r₁.life = { r.life with hostAwait := false } := by rw [same]; rfl
  have band₁ : r₁.band = r.band := by rw [same]; rfl
  have id₁ : r₁.id = r.id := by rw [same]
  have counted : isWaiting r = decide (r₁.info.state = .waiting) := by rw [same]; rfl
  clear same
  obtain ⟨holding₂, frame₂⟩ := holding₁.releaseUnless r₁.executionPending r₁
  refine (park_yields holding₂).bind ?_
  rintro ⟨s₃, r₃⟩ ⟨holding₃, frame₃, id₃, band₃, life₃, -⟩
  rw [counted] at holding₃
  obtain ⟨holding₄, frame₄⟩ := holding₃.enterWaitingUnless
  have frame := frame₁.trans (frame₂.trans (frame₃.trans frame₄))
  dsimp only
  generalize (if r₁.info.state = .waiting then s₃ else s₃.enterWaiting) = s₄ at holding₄ frame ⊢
  have filled := refill_pos holding₄
  have waiting : isWaiting (s₄.refill r₃) = true :=
    congrArg (fun l : Life => l.state == .waiting) life₃
  have scheduled₄ : (s₄.refill r₃).Scheduled := scheduled.of_band (band₃.trans band₁)
  have life₄ : (s₄.refill r₃).life = { r.life with
      hostAwait := false, queued := false, state := .waiting } := life₃.trans (by rw [life₁])
  have id₄ : (s₄.refill r₃).id = r.id := id₃.trans id₁
  have holding₅ := holding₄.refill
  rw [← waiting] at holding₅
  generalize s₄.refill r₃ = r₄ at *
  have holds : r₄.suspendCount = r.suspendCount := congrArg Life.suspendCount life₄
  have parked : r₄.queued = false ∧ r₄.hostAwait = false :=
    ⟨congrArg Life.queued life₄, congrArg Life.hostAwait life₄⟩
  refine Yields.ok ?_
  split
  · rename_i held
    have blocked : r.life.block = { r₄.life with resumeRunnable := false } := by
      have nonzero : (r.suspendCount == 0) = false := by simpa [holds] using held
      rw [life₄, Life.block, show r.life.suspendCount = r.suspendCount from rfl, nonzero,
        Bool.and_false]
      rfl
    refine ⟨holding₅.touch rfl { holding₅.ranged with } { holding₅.placed with }, frame,
      scheduled₄.of_band rfl, ⟨id₄, blocked.symm, ?_⟩, filled⟩
    simp [ThreadRecord.Fuelled, parked]
  · rename_i free
    have blocked : r.life.block = r₄.life := by
      have zero : (r.suspendCount == 0) = true := by simpa [holds] using free
      rw [life₄, Life.block, show r.life.suspendCount = r.suspendCount from rfl, zero,
        Bool.and_true]
      rfl
    refine ⟨holding₅, frame, scheduled₄, ⟨id₄, blocked.symm, ?_⟩, filled⟩
    simp [ThreadRecord.Fuelled, parked]

theorem enterHold_yields (holding : Holding s r (isWaiting r)) (scheduled : r.Scheduled)
    (idle : r.info.state = .waiting → r.queued = false) :
    Yields (s.enterHold r) fun (s', r') =>
      Holding s' r' (isWaiting r') ∧ Frame s s' ∧ r'.Scheduled ∧
        r.Moves (fun l => { l with queued := false, state := .waiting }) r' := by
  unfold enterHold
  refine Yields.ite (fun waiting => Yields.ok ?_) (fun awake => ?_)
  · refine ⟨holding, Frame.refl s, scheduled, rfl, ?_, id⟩
    simp only [ThreadRecord.life, waiting, idle waiting]
  · have uncounted : isWaiting r = false := by simpa [isWaiting] using awake
    rw [uncounted] at holding
    obtain ⟨holding₁, frame₁⟩ := holding.releaseUnless r.executionPending r
    refine (park_yields holding₁).bind ?_
    rintro ⟨s₂, r₂⟩ ⟨holding₂, frame₂, id, band, life, quantum⟩
    have waiting : isWaiting r₂ = true := congrArg (fun l : Life => l.state == .waiting) life
    refine Yields.ok ⟨waiting ▸ holding₂.enterWaiting,
      frame₁.trans (frame₂.trans (enterWaiting_frame s₂)), scheduled.of_band band, id, life, ?_⟩
    have idle : r₂.queued = false := congrArg Life.queued life
    have ticket : r₂.hostAwait = r.hostAwait := congrArg Life.hostAwait life
    intro fuelled ready
    rw [quantum]
    exact fuelled (.inr (by simpa [idle, ticket] using ready))

theorem leaveHold_yields (holding : Holding s r true) (scheduled : r.Scheduled)
    (idle : r.queued = false) (waiting : r.info.state = .waiting) :
    Yields (s.leaveHold r) fun (s', r') =>
      Holding s' r' (isWaiting r') ∧ Frame s s' ∧ r'.Scheduled ∧
        r.Moves (fun l =>
          if l.resumeRunnable then { l with resumeRunnable := false, state := .runnable, queued := true }
          else if l.hostAwait then { l with state := .hostAwait }
          else l) r' := by
  unfold leaveHold
  refine Yields.ite (fun resume => ?_) (fun still => Yields.ite (fun awaiting => ?_) (fun free => ?_))
  · refine (leaveWaiting_yields holding).bind ?_
    rintro s₁ ⟨holding₁, frame₁⟩
    have resumed : Holding s₁ { r with resumeRunnable := false } false :=
      holding₁.touch rfl { holding₁.ranged with } { holding₁.placed with }
    refine (transitionState_yields resumed .runnable).bind ?_
    rintro ⟨s₂, r₂⟩ ⟨holding₂, frame₂, same⟩
    have life₂ : r₂.life = { r.life with resumeRunnable := false, state := .runnable } := by
      rw [same]; rfl
    have band₂ : r₂.band = r.band := by rw [same]; rfl
    have id₂ : r₂.id = r.id := by rw [same]
    clear same
    have ready := holding₂.beginRunnableGeneration.refill
    have filled := refill_pos holding₂.beginRunnableGeneration
    have idle₂ : (s₂.refill r₂.beginRunnableGeneration).queued = false :=
      (congrArg Life.queued life₂).trans idle
    have state₂ : (s₂.refill r₂.beginRunnableGeneration).info.state = .runnable :=
      congrArg Life.state life₂
    refine (enqueueRunnable_yields ready idle₂ (scheduled.of_band band₂) state₂ .back).mono ?_
    rintro ⟨s', r'⟩ ⟨holding', frame', scheduled', id, life, quantum⟩
    refine ⟨holding', frame₁.trans (frame₂.trans frame'), scheduled', id.trans id₂, ?_, ?_⟩
    · rw [if_pos (show r.life.resumeRunnable = true from resume), life]
      exact congrArg (fun l : Life => { l with queued := true }) life₂
    · intro _ _
      rw [quantum]
      exact filled
  · refine (leaveWaiting_yields holding).bind ?_
    rintro s₁ ⟨holding₁, frame₁⟩
    refine (transitionState_yields holding₁ .hostAwait).mono ?_
    rintro ⟨s', r'⟩ ⟨holding', frame', rfl⟩
    refine ⟨holding', frame₁.trans frame', scheduled.of_band rfl, rfl, ?_, id⟩
    exact ((if_neg still).trans (if_pos awaiting)).symm
  · have counted : isWaiting r = true := by simpa [isWaiting] using waiting
    refine Yields.ok ⟨counted.symm ▸ holding, Frame.refl s, scheduled, rfl, ?_, id⟩
    exact ((if_neg still).trans (if_neg free)).symm

/-- What holds between any two operations. -/
structure Invariant (s : XnuScheduler) : Prop where
  settled : s.Settled
  sound : ∀ t r, s.threads.lookup t = some r → r.life.Sound

theorem Proceeds.invariant {f : XnuThreadId → Life → Life} (proceeds : Proceeds f s s')
    (invariant : s.Invariant) (keeps : ∀ t l, l.Sound → (f t l).Sound) : s'.Invariant := by
  refine ⟨proceeds.settled, ?_⟩
  intro t r' found'
  have here := proceeds.acts t
  rw [found'] at here
  generalize known : s.threads.lookup t = x at here
  cases here with
  | some moves =>
    rw [moves.life]
    exact keeps t _ (invariant.sound t _ known)

theorem solely_sound {t : XnuThreadId} {f : Life → Life} (keeps : ∀ l, l.Sound → (f l).Sound) :
    ∀ u l, Life.Sound l → (solely t f u l).Sound := by
  intro u l sound
  by_cases same : u = t
  · rw [same, solely_self]
    exact keeps l sound
  · rw [solely_of_ne same]
    exact sound

theorem makeRunnable_yields (settled : s.Settled) (t : XnuThreadId) :
    Yields (s.makeRunnable t) fun (s', _) => Proceeds (solely t Life.makeRunnable) s s' := by
  unfold makeRunnable
  cases found : s.threads.lookup t with
  | none => exact Yields.ok (settled.missing found _)
  | some r =>
    refine (makeRunnableRecord_yields (settled.hold found) (settled.scheduled t r found)).bind ?_
    rintro ⟨s', r'⟩ ⟨holding, frame, scheduled, moves⟩
    exact Yields.ok (proceeds_store settled found holding frame scheduled moves)

theorem block_yields (settled : s.Settled) (t : XnuThreadId) :
    Yields (s.block t) fun (s', _) => Proceeds (solely t Life.block) s s' := by
  unfold block
  cases found : s.threads.lookup t with
  | none => exact Yields.ok (settled.missing found _)
  | some r =>
    refine (blockRecord_yields (settled.hold found) (settled.scheduled t r found)).bind ?_
    rintro ⟨s', r'⟩ ⟨holding, frame, scheduled, moves, -⟩
    exact Yields.ok (proceeds_store settled found holding frame scheduled moves)

/-- A change of the record that no book and no quantum depends on. -/
theorem proceeds_touch {f : Life → Life} {t : XnuThreadId} (settled : s.Settled)
    (found : s.threads.lookup t = some r) (books : r'.books = r.books)
    (ranged : r'.Ranged s.processorRunQueues.length) (placed : r'.Placed) (band : r'.band = r.band)
    (life : r'.life = f r.life) (quantum : r'.info.remainingQuantum = r.info.remainingQuantum) :
    Proceeds (solely t f) s (s.store r') := by
  have holding := settled.hold found
  have waiting : isWaiting r' = isWaiting r := by
    have state : r'.info.state = r.info.state := congrArg ThreadRecord.Books.state books
    rw [isWaiting, isWaiting, state]
  have touched : Holding s r' (isWaiting r') := waiting ▸ holding.touch books ranged placed
  refine proceeds_store settled found touched (Frame.refl s)
    ((settled.scheduled t r found).of_band band) ⟨congrArg ThreadRecord.Books.id books, life, ?_⟩
  have queued : r'.queued = r.queued := congrArg (fun b => b.placement.1) books
  have ticket : r'.hostAwait = r.hostAwait := congrArg ThreadRecord.Books.hostAwait books
  rw [ThreadRecord.Fuelled, ThreadRecord.Fuelled, queued, ticket, quantum]
  exact id

theorem keepWake_eq (r : ThreadRecord) :
    keepWake r = { r with resumeRunnable := r.resumeRunnable || r.suspendCount != 0 } := by
  unfold keepWake
  split
  · rename_i held
    simp [held]
  · rename_i free
    rw [show (r.suspendCount != 0) = false by simpa using free, Bool.or_false]

theorem wakeThread_yields (settled : s.Settled) (t : XnuThreadId) :
    Yields (s.wakeThread t) fun (s', _) => Proceeds (solely t Life.wake) s s' := by
  unfold wakeThread
  cases found : s.threads.lookup t with
  | none => exact Yields.ok (settled.missing found _)
  | some r =>
    have ranged := (settled.hold found).ranged
    have placed := (settled.hold found).placed
    dsimp only
    rw [keepWake_eq]
    refine Yields.ite (fun ticket => Yields.ok ?_) (fun free => Yields.ite (fun pending => ?_)
      (fun idle => Yields.ite (fun visible => Yields.ok ?_) (fun asleep => ?_)))
    · refine settled.unchanged fun r' found' => ?_
      obtain rfl := Option.some.inj (found.symm.trans found')
      exact if_pos ticket
    · have woken : r.life.wake = { r.life with
          wakePending := true, resumeRunnable := r.resumeRunnable || r.suspendCount != 0 } :=
        (if_neg free).trans (if_pos pending)
      refine Yields.ite (fun already => Yields.ok ?_) (fun _ => Yields.ok ?_)
      · refine proceeds_touch settled found rfl { ranged with } { placed with } rfl ?_ rfl
        rw [woken, ← show r.wakePending = true from already]
        rfl
      · refine proceeds_touch settled found rfl { ranged with } { placed with } rfl ?_ rfl
        rw [woken]
        rfl
    · have woken : r.life.wake = { r.life with
          resumeRunnable := r.resumeRunnable || r.suspendCount != 0 } :=
        (if_neg free).trans ((if_neg idle).trans (if_pos visible))
      refine proceeds_touch settled found rfl { ranged with } { placed with } rfl ?_ rfl
      rw [woken]
      rfl
    · have woken : r.life.wake = r.life.makeRunnable :=
        (if_neg free).trans ((if_neg idle).trans (if_neg asleep))
      refine (makeRunnable_yields settled t).bind ?_
      rintro ⟨s', made⟩ proceeds
      refine Yields.ok ⟨proceeds.settled, ?_, proceeds.stable⟩
      intro u
      have here := proceeds.acts u
      by_cases same : u = t
      · subst u
        dsimp only at here ⊢
        rw [solely_self, found] at here ⊢
        generalize s'.threads.lookup t = x at here ⊢
        cases here with
        | some moves => exact .some ⟨moves.ident, moves.life.trans woken.symm, moves.fuelled⟩
      · dsimp only at here ⊢
        rw [solely_of_ne same] at here ⊢
        exact here

/-- A hold of one more reason is counted before anything else happens. -/
def holdOnce (r : ThreadRecord) (reason : XnuThreadSuspension) : ThreadRecord :=
  { r with
    hostResumeAllowed := false
    suspensionCounts := Function.update r.suspensionCounts reason (r.suspensionCounts reason + 1)
    suspendCount := r.suspendCount + 1 }

theorem suspendThread_yields (invariant : s.Invariant) (t : XnuThreadId)
    (reason : XnuThreadSuspension) :
    Yields (s.suspendThread t reason) fun (s', _) => Proceeds (solely t (Life.suspend reason)) s s' := by
  have settled := invariant.settled
  unfold suspendThread
  cases found : s.threads.lookup t with
  | none => exact Yields.ok (settled.missing found _)
  | some r =>
    have holding := settled.hold found
    have sound := invariant.sound t r found
    refine Yields.ite (fun full => Yields.ok ?_) (fun room => Yields.ite (fun already => Yields.ok ?_)
      (fun first => ?_))
    · refine settled.unchanged fun r' found' => ?_
      obtain rfl := Option.some.inj (found.symm.trans found')
      exact if_pos full
    · refine proceeds_touch settled found rfl { holding.ranged with } { holding.placed with } rfl ?_ rfl
      exact ((if_neg room).trans (if_pos already)).symm
    · have held : Holding s { holdOnce r reason with resumeRunnable := r.info.state.isRunnable }
          (isWaiting r) :=
        holding.touch rfl { holding.ranged with } { holding.placed with }
      refine (enterHold_yields held ((settled.scheduled t r found).of_band rfl) sound.unqueued).bind ?_
      rintro ⟨s', r'⟩ ⟨holding', frame, scheduled, moves⟩
      refine Yields.ok (proceeds_store settled found holding' frame scheduled
        ⟨moves.ident, ?_, moves.fuelled⟩)
      rw [moves.life]
      exact ((if_neg room).trans (if_neg first)).symm

theorem resumeThread_yields (invariant : s.Invariant) (t : XnuThreadId)
    (reason : XnuThreadSuspension) :
    Yields (s.resumeThread t reason) fun (s', _) => Proceeds (solely t (Life.resume reason)) s s' := by
  have settled := invariant.settled
  unfold resumeThread
  cases found : s.threads.lookup t with
  | none => exact Yields.ok (settled.missing found _)
  | some r =>
    have holding := settled.hold found
    have sound := invariant.sound t r found
    have holds : r.suspendCount = r.suspensionCounts .user + r.suspensionCounts .process +
      r.suspensionCounts .preparation := sound.holds
    refine Yields.ite (fun none => Yields.ok ?_) (fun some => ?_)
    · refine settled.unchanged fun r' found' => ?_
      obtain rfl := Option.some.inj (found.symm.trans found')
      exact if_pos none
    · have positive : 0 < r.suspendCount := by
        cases reason <;> omega
      have waiting : r.info.state = .waiting := sound.held positive
      have counted : isWaiting r = true := by simpa [isWaiting] using waiting
      have idle : r.queued = false := sound.unqueued waiting
      refine (decrement_yields Fault.underflow (Nat.pos_of_ne_zero some)).bind fun n fewer => ?_
      obtain rfl : n = r.suspensionCounts reason - 1 := by omega
      refine (decrement_yields Fault.underflow positive).bind fun n fewer => ?_
      obtain rfl : n = r.suspendCount - 1 := by omega
      have freed : Holding s { r with
          suspensionCounts := Function.update r.suspensionCounts reason
            (r.suspensionCounts reason - 1)
          suspendCount := r.suspendCount - 1 } (isWaiting r) :=
        holding.touch rfl { holding.ranged with } { holding.placed with }
      refine Yields.ite (fun still => Yields.ok ?_) (fun last => ?_)
      · refine proceeds_touch settled found rfl { holding.ranged with } { holding.placed with } rfl ?_
          rfl
        exact ((if_neg some).trans (if_pos still)).symm
      · rw [counted] at freed
        refine (leaveHold_yields freed ((settled.scheduled t r found).of_band rfl) idle waiting).bind ?_
        rintro ⟨s', r'⟩ ⟨holding', frame, scheduled, moves⟩
        refine Yields.ok (proceeds_store settled found holding' frame scheduled
          ⟨moves.ident, ?_, moves.fuelled⟩)
        rw [moves.life]
        exact ((if_neg some).trans (if_neg last)).symm

end
end XnuScheduler
end ILEmu
