import ILEmu.Scheduler.Completion
import ILEmu.Scheduler.System

/-! The scheduler refines the machine of lives: every operation keeps the
invariant and moves each life as its step says. -/
namespace ILEmu
open Foundation Xnu.Scheduler

/-- The thread of the slice that a choice answers with. -/
def XnuScheduler.chosen (s : XnuScheduler) (processor : Nat) (preferred : Option XnuThreadId) :
    Option XnuThreadId :=
  match s.chooseNext processor preferred with
  | .ok (_, some slice) => some slice.thread
  | _ => none

/-- What an operation makes of the life of a thread. -/
def Operation.step (s : XnuScheduler) (operation : Operation) (u : XnuThreadId)
    (known : Option Life) : Option Life :=
  match operation with
  | .registerThread thread _ runnable =>
    if u = thread then some (known.getD (Life.fresh runnable)) else known
  | .removeThread thread _ => if u = thread then none else known
  | .replaceProcessThreads survivor _ _ _ =>
    match s.lifeOf survivor with
    | none => known
    | some l => XnuScheduler.replaced survivor l.userTicks u known
  | .removeProcess process _ => if u.process = process then none else known
  | .makeRunnable thread => known.map (XnuScheduler.solely thread Life.makeRunnable u)
  | .suspendProcess process _ =>
    known.map (if u.process = process then Life.suspend .process else id)
  | .resumeProcess process _ =>
    known.map (if u.process = process then Life.resume .process else id)
  | .wakeThread thread => known.map (XnuScheduler.solely thread Life.wake u)
  | .block thread => known.map (XnuScheduler.solely thread Life.block u)
  | .suspendThread thread reason => known.map (XnuScheduler.solely thread (Life.suspend reason) u)
  | .resumeThread thread reason => known.map (XnuScheduler.solely thread (Life.resume reason) u)
  | .chooseNext processor preferred =>
    match s.chosen processor preferred with
    | none => known
    | some thread => known.map (XnuScheduler.solely thread Life.dispatch u)
  | .completeSlice thread consumed completion _ =>
    if u = thread then known.bind (Life.complete consumed completion) else known
  | _ => known

/-- The completion of a slice leaves its thread a quantum, if it leaves it on a queue. -/
def Operation.Feeds (s : XnuScheduler) : Operation → Prop
  | .completeSlice thread consumed completion _ =>
    ∀ r, s.threads.lookup thread = some r → r.executionPending = true → completion ≠ .terminate →
      Refills completion r ∨ r.queued = false ∨ consumed < r.info.remainingQuantum
  | _ => True

/-- Operations by which threads retire. -/
def Operation.retires : Operation → Bool
  | .removeThread _ _ | .replaceProcessThreads _ _ _ _ | .removeProcess _ _ |
    .completeSlice _ _ _ _ => true
  | _ => false

namespace XnuScheduler

/-- What an operation does to a settled scheduler. -/
structure Performs (operation : Operation) (s s' : XnuScheduler) : Prop where
  settled : s'.Settled
  lives : ∀ t, s'.lifeOf t = operation.step s t (s.lifeOf t)
  fuelled : operation.Feeds s → ∀ t, s.FuelledAt t → s'.FuelledAt t
  processors : s'.processorRunQueues.length = s.processorRunQueues.length
  retired : operation.retires = false → ∀ p, s'.retiredTicks p = s.retiredTicks p

section
variable {s s' : XnuScheduler} {r : ThreadRecord} {t : XnuThreadId} {operation : Operation}

theorem Proceeds.performs {f : XnuThreadId → Life → Life} (proceeds : Proceeds f s s')
    (step : ∀ t known, operation.step s t known = known.map (f t)) : Performs operation s s' := by
  refine ⟨proceeds.settled, fun t => ?_, fun _ => proceeds.acts.fuelledAt,
    proceeds.stable.processors, fun _ => proceeds.stable.retired⟩
  rw [step]
  exact proceeds.acts.lifeOf t

theorem Passes.performs (passes : Passes s s')
    (step : ∀ t known, operation.step s t known = known) : Performs operation s s' := by
  refine passes.proceeds.performs fun t known => ?_
  rw [step, Option.map_id_fun, id]

theorem Turns.performs {f : XnuThreadId → Option Life → Option Life} (turns : Turns f s s')
    (step : ∀ t known, operation.step s t known = f t known)
    (retired : operation.retires = false → ∀ p, s'.retiredTicks p = s.retiredTicks p) :
    Performs operation s s' := by
  refine ⟨turns.settled, fun t => ?_, fun _ => turns.fuelled, turns.processors, retired⟩
  rw [step]
  exact turns.lives t

theorem clearAge_passes (settled : s.Settled) (t : XnuThreadId) : Passes s (s.clearAge t) := by
  unfold clearAge
  cases found : s.threads.lookup t with
  | none => exact .refl settled
  | some r =>
    have holding := settled.hold found
    exact passes_touch settled found rfl { holding.ranged with } { holding.placed with }
      ((settled.scheduled t r found).of_band rfl) ⟨rfl, rfl, .inl rfl⟩

theorem setDispatchDiagnostics_passes (settled : s.Settled) (enabled : Bool) :
    Passes s (s.setDispatchDiagnostics enabled) := by
  have switched : Passes s { s with dispatchDiagnosticsEnabled := enabled } :=
    ⟨settled.aside rfl rfl rfl rfl rfl { settled.balanced.configured with },
      Evolves.refl (fun _ => Drift.refl) s, ⟨fun _ => rfl, rfl, rfl⟩⟩
  unfold setDispatchDiagnostics
  generalize s.threads.keys = threads
  generalize ({ s with dispatchDiagnosticsEnabled := enabled } : XnuScheduler) = s₁ at switched
  induction threads generalizing s₁ with
  | nil => exact switched
  | cons t rest ih =>
    rw [List.foldl_cons]
    exact ih _ (switched.trans (clearAge_passes switched.settled t))

theorem passHostTime_passes (settled : s.Settled) (now : Nat) :
    Passes s { s with steadyClock := max s.steadyClock now } :=
  ⟨settled.aside rfl rfl rfl rfl rfl { settled.balanced.configured with },
    Evolves.refl (fun _ => Drift.refl) s, ⟨fun _ => rfl, rfl, rfl⟩⟩

theorem answering_yields {α : Type} {wrap : α → Response} {x : Checked (XnuScheduler × α)}
    {post : XnuScheduler → Prop} (yields : Yields x fun (s', _) => post s') :
    Yields (answering wrap x) fun (s', _) => post s' :=
  yields.bind fun _ holds => Yields.ok holds

theorem silently_yields {x : Checked XnuScheduler} {post : XnuScheduler → Prop}
    (yields : Yields x post) : Yields (silently x) fun (s', _) => post s' :=
  yields.bind fun _ holds => Yields.ok holds

theorem replaceProcessThreads_performs (settled : s.Settled) (survivor : XnuThreadId)
    (basePriority : Int) (pending : XnuThreadId → Nat) (order : List XnuThreadId) :
    Yields (s.replaceProcessThreads survivor basePriority pending order) fun (s', _) =>
      Performs (.replaceProcessThreads survivor basePriority pending order) s s' := by
  cases found : s.threads.lookup survivor with
  | none =>
    have nobody : s.replaceProcessThreads survivor basePriority pending order = .ok (s, false) := by
      unfold replaceProcessThreads
      rw [found]
    rw [nobody]
    refine Yields.ok ((Passes.refl settled).performs fun t known => ?_)
    simp only [Operation.step, lifeOf_none found]
  | some r =>
    refine (replaceProcessThreads_yields settled found basePriority pending order).mono ?_
    rintro ⟨s', _⟩ ⟨-, turns, -⟩
    refine turns.performs (fun t known => ?_) nofun
    have alive : s.lifeOf survivor = some r.life := by rw [lifeOf, found]; rfl
    simp only [Operation.step, alive]
    rfl

/-- A choice that does not throw dispatches what it answers with. -/
theorem Choice.performs {processor : Nat} {preferred : Option XnuThreadId} (settled : s.Settled)
    (choice : Choice s processor preferred (s.chooseNext processor preferred))
    {answer : Option XnuScheduledSlice}
    (chosen : s.chooseNext processor preferred = .ok (s', answer)) :
    Performs (.chooseNext processor preferred) s s' := by
  have named : s.chosen processor preferred = answer.map (·.thread) := by
    unfold XnuScheduler.chosen
    rw [chosen]
    cases answer with
    | none => rfl
    | some slice => rfl
  rw [chosen] at choice
  cases choice with
  | outside _ =>
    refine (Passes.refl settled).performs fun t known => ?_
    simp only [Operation.step, named, Option.map_none]
  | nobody _ _ _ =>
    refine (Passes.refl settled).performs fun t known => ?_
    simp only [Operation.step, named, Option.map_none]
  | slice r inside eligible unguided guided thread budget proceeds =>
    refine proceeds.performs fun t known => ?_
    simp only [Operation.step, named, Option.map_some, thread]

/-- Every operation but a choice returns, whatever its arguments. -/
theorem perform_yields (invariant : s.Invariant) (operation : Operation)
    (total : ∀ processor preferred, operation ≠ .chooseNext processor preferred) :
    Yields (s.perform operation) fun (s', _) => Performs operation s s' := by
  have settled := invariant.settled
  cases operation with
  | setDispatchDiagnostics enabled =>
    exact Yields.ok ((setDispatchDiagnostics_passes settled enabled).performs fun _ _ => rfl)
  | registerThread thread base runnable =>
    refine answering_yields ((registerThread_yields settled thread base runnable).mono ?_)
    rintro ⟨s', _⟩ ⟨-, turns, retired⟩
    exact turns.performs (fun _ _ => rfl) fun _ => retired
  | removeThread thread pending =>
    refine answering_yields ((removeThread_yields settled thread fun _ => pending).mono ?_)
    rintro ⟨s', _⟩ ⟨retires, -⟩
    exact retires.turns.performs (fun _ _ => rfl) nofun
  | replaceProcessThreads survivor base pending order =>
    exact answering_yields (replaceProcessThreads_performs settled survivor base pending order)
  | removeProcess process order =>
    refine answering_yields ((removeProcess_yields settled process order).mono ?_)
    rintro ⟨s', _⟩ ⟨turns, -⟩
    exact turns.performs (fun _ _ => rfl) nofun
  | makeRunnable thread =>
    exact answering_yields ((makeRunnable_yields settled thread).mono fun _ proceeds =>
      proceeds.performs fun _ _ => rfl)
  | suspendProcess process order =>
    exact answering_yields ((overProcess_yields (fun _ => Life.suspend_sound .process)
      (fun s t invariant => suspendThread_yields invariant t .process) invariant process order).mono
      fun _ proceeds => proceeds.performs fun _ _ => rfl)
  | resumeProcess process order =>
    exact answering_yields ((overProcess_yields (fun _ => Life.resume_sound .process)
      (fun s t invariant => resumeThread_yields invariant t .process) invariant process order).mono
      fun _ proceeds => proceeds.performs fun _ _ => rfl)
  | wakeThread thread =>
    exact answering_yields ((wakeThread_yields settled thread).mono fun _ proceeds =>
      proceeds.performs fun _ _ => rfl)
  | block thread =>
    exact answering_yields ((block_yields settled thread).mono fun _ proceeds =>
      proceeds.performs fun _ _ => rfl)
  | suspendThread thread reason =>
    exact answering_yields ((suspendThread_yields invariant thread reason).mono fun _ proceeds =>
      proceeds.performs fun _ _ => rfl)
  | resumeThread thread reason =>
    exact answering_yields ((resumeThread_yields invariant thread reason).mono fun _ proceeds =>
      proceeds.performs fun _ _ => rfl)
  | setBasePriority thread priority =>
    exact answering_yields ((setBasePriority_yields settled thread priority).mono fun _ passes =>
      passes.performs fun _ _ => rfl)
  | setPrecedence thread task importance =>
    exact answering_yields ((setPrecedence_yields settled thread task importance).mono
      fun _ passes => passes.performs fun _ _ => rfl)
  | setTaskPriority thread priority =>
    exact answering_yields ((setTaskPriority_yields settled thread priority).mono fun _ passes =>
      passes.performs fun _ _ => rfl)
  | setLegacyPolicy thread timeshare task priority =>
    exact answering_yields ((setLegacyPolicy_yields settled thread timeshare task priority).mono
      fun _ passes => passes.performs fun _ _ => rfl)
  | setRequestedQos thread policy =>
    exact answering_yields ((setRequestedQos_yields settled thread policy).mono fun _ passes =>
      passes.performs fun _ _ => rfl)
  | setTaskQosPolicy process policy order =>
    exact silently_yields ((setTaskQosPolicy_yields settled process policy order).mono
      fun _ passes => passes.performs fun _ _ => rfl)
  | setQosOverridePriority thread priority =>
    exact answering_yields ((setQosOverridePriority_yields settled thread priority).mono
      fun _ passes => passes.performs fun _ _ => rfl)
  | depress thread duration =>
    exact answering_yields ((depress_yields settled thread duration).mono fun _ passes =>
      passes.performs fun _ _ => rfl)
  | bindThread thread processor =>
    exact answering_yields ((bindThread_yields settled thread processor).mono fun _ passes =>
      passes.performs fun _ _ => rfl)
  | setTimeshare thread timeshare =>
    exact answering_yields ((setTimeshare_yields settled thread timeshare).mono fun _ passes =>
      passes.performs fun _ _ => rfl)
  | setRealtime thread period computation constraint preemptible =>
    exact answering_yields ((setRealtime_yields settled thread period computation constraint
      preemptible).mono fun _ passes => passes.1.performs fun _ _ => rfl)
  | setRealtimePolicy thread policy =>
    exact answering_yields ((setRealtimePolicy_yields settled thread policy).mono fun _ passes =>
      passes.performs fun _ _ => rfl)
  | setRealtimeClockTicks elapsed =>
    exact Yields.ok ((settled.clocks s.elapsedTicks s.elapsedSinceSchedulerTick
      (max s.realtimeClockTicks elapsed) s.schedulerTick true).performs fun _ _ => rfl)
  | chooseNext processor preferred => exact absurd rfl (total processor preferred)
  | completeSlice thread consumed completion accounting =>
    refine answering_yields
      ((completeSlice_yields invariant thread consumed completion accounting).mono ?_)
    rintro ⟨s', _⟩ completes
    refine ⟨completes.settled, completes.lives, fun feeds u fuelled => ?_, completes.processors,
      nofun⟩
    by_cases same : u = thread
    · subst u
      exact completes.fuelled fuelled feeds
    · exact completes.elsewhere u same fuelled
  | advanceTime elapsed =>
    exact silently_yields ((advanceSchedulerTime_yields settled elapsed).mono fun _ passes =>
      passes.performs fun _ _ => rfl)
  | synchronizeTime elapsed =>
    exact silently_yields ((synchronizeTime_yields settled elapsed).mono fun _ passes =>
      passes.performs fun _ _ => rfl)
  | passHostTime now =>
    exact Yields.ok ((passHostTime_passes settled now).performs fun _ _ => rfl)

/-- The only exception that can escape is the one of an inconsistent deadline index,
and only from a choice without a preferred thread. -/
theorem perform_error (invariant : s.Invariant) {fault : Fault}
    (thrown : s.perform operation = .error fault) :
    fault = .logicError .realtimeIndexInconsistent ∧
      ∃ processor, operation = .chooseNext processor none := by
  by_cases total : ∃ processor preferred, operation = .chooseNext processor preferred
  · obtain ⟨processor, preferred, rfl⟩ := total
    have choice := chooseNext_choice invariant processor preferred
    cases result : s.chooseNext processor preferred with
    | ok answer =>
      rw [perform, result] at thrown
      contradiction
    | error fault' =>
      rw [perform, result] at thrown
      obtain rfl := Except.error.inj thrown
      rw [result] at choice
      cases choice with
      | thrown _ unguided _ => exact ⟨rfl, processor, by rw [unguided]⟩
  · have yields := perform_yields invariant operation fun processor preferred same =>
      total ⟨processor, preferred, same⟩
    exact absurd thrown (yields.ne_error fault)

/-- Every operation, thrown or not, moves each life as its step says. -/
theorem after_performs (invariant : s.Invariant) (operation : Operation) :
    Performs operation s (s.after operation) := by
  unfold after
  by_cases total : ∃ processor preferred, operation = .chooseNext processor preferred
  · obtain ⟨processor, preferred, rfl⟩ := total
    have choice := chooseNext_choice invariant processor preferred
    cases result : s.chooseNext processor preferred with
    | ok answer =>
      rw [perform, result]
      exact choice.performs invariant.settled result
    | error fault =>
      rw [perform, result]
      refine (Passes.refl invariant.settled).performs fun t known => ?_
      simp only [Operation.step, chosen, result]
  · obtain ⟨⟨s', response⟩, performed, performs⟩ := perform_yields invariant operation
      fun processor preferred same => total ⟨processor, preferred, same⟩
    rw [performed]
    exact performs

/-- Only queued threads are chosen. -/
theorem chosen_queued (invariant : s.Invariant) {processor : Nat} {preferred : Option XnuThreadId}
    (chosen : s.chosen processor preferred = some t) :
    ∃ r, s.threads.lookup t = some r ∧ r.queued = true := by
  have choice := chooseNext_choice invariant processor preferred
  unfold XnuScheduler.chosen at chosen
  cases result : s.chooseNext processor preferred with
  | error fault =>
    rw [result] at chosen
    contradiction
  | ok answer =>
    rw [result] at choice chosen
    cases choice with
    | outside _ => contradiction
    | nobody _ _ _ => contradiction
    | slice r inside eligible unguided guided thread budget proceeds =>
      obtain rfl := Option.some.inj chosen
      rw [thread]
      exact ⟨r, eligible.found, eligible.queued⟩

theorem sound_map {f : Life → Life} {known : Option Life} (before : ∀ l ∈ known, l.Sound)
    (keeps : ∀ l, l.Sound → (f l).Sound) : ∀ l ∈ known.map f, l.Sound := by
  intro l' member
  obtain ⟨l, here, rfl⟩ := Option.map_eq_some_iff.mp member
  exact keeps l (before l here)

/-- Every step keeps lives sound. -/
theorem step_sound (invariant : s.Invariant) (operation : Operation) (u : XnuThreadId) :
    ∀ l ∈ operation.step s u (s.lifeOf u), l.Sound := by
  have before : ∀ l ∈ s.lifeOf u, l.Sound := by
    intro l member
    obtain ⟨r, found, rfl⟩ := Option.map_eq_some_iff.mp member
    exact invariant.sound u r found
  have pick : ∀ {thread : XnuThreadId} {f : Life → Life}, (∀ l, l.Sound → (f l).Sound) →
      ∀ l ∈ (s.lifeOf u).map (solely thread f u), l.Sound :=
    fun keeps => sound_map before (solely_sound keeps u)
  cases operation with
  | registerThread thread base runnable =>
    intro l member
    simp only [Operation.step] at member
    split at member
    · obtain rfl := Option.some.inj member
      cases known : s.lifeOf u with
      | none => exact Life.fresh_sound runnable
      | some l => exact before l known
    · exact before l member
  | removeThread thread pending =>
    intro l member
    simp only [Operation.step] at member
    split at member
    · contradiction
    · exact before l member
  | replaceProcessThreads survivor base pending order =>
    intro l member
    simp only [Operation.step] at member
    split at member
    · exact before l member
    · unfold replaced at member
      split at member
      · obtain rfl := Option.some.inj member
        exact { Life.fresh_sound true with }
      · split at member
        · contradiction
        · exact before l member
  | removeProcess process order =>
    intro l member
    simp only [Operation.step] at member
    split at member
    · contradiction
    · exact before l member
  | makeRunnable thread => exact pick fun _ => Life.makeRunnable_sound
  | suspendProcess process order =>
    refine sound_map before fun l sound => ?_
    split
    · exact Life.suspend_sound .process sound
    · exact sound
  | resumeProcess process order =>
    refine sound_map before fun l sound => ?_
    split
    · exact Life.resume_sound .process sound
    · exact sound
  | wakeThread thread => exact pick fun _ => Life.wake_sound
  | block thread => exact pick fun _ => Life.block_sound
  | suspendThread thread reason => exact pick fun _ => Life.suspend_sound reason
  | resumeThread thread reason => exact pick fun _ => Life.resume_sound reason
  | chooseNext processor preferred =>
    intro l member
    simp only [Operation.step] at member
    split at member
    · exact before l member
    · rename_i thread chosen
      obtain ⟨l₀, known, rfl⟩ := Option.map_eq_some_iff.mp member
      by_cases same : u = thread
      · subst u
        rw [solely_self]
        obtain ⟨r, found, queued⟩ := chosen_queued invariant chosen
        obtain ⟨r', found', rfl⟩ := Option.map_eq_some_iff.mp known
        obtain rfl := Option.some.inj (found.symm.trans found')
        exact Life.dispatch_sound (invariant.sound thread r found) queued
      · rw [solely_of_ne same]
        exact before l₀ known
  | completeSlice thread consumed completion accounting =>
    intro l member
    simp only [Operation.step] at member
    split at member
    · obtain ⟨l₀, known, completed⟩ := Option.bind_eq_some_iff.mp member
      exact Life.complete_sound consumed completion (before l₀ known) l completed
    · exact before l member
  | _ => exact before

theorem after_invariant (invariant : s.Invariant) (operation : Operation) :
    (s.after operation).Invariant := by
  have performs := after_performs invariant operation
  refine ⟨performs.settled, fun t r found => ?_⟩
  have alive : (s.after operation).lifeOf t = some r.life := by rw [lifeOf, found]; rfl
  rw [performs.lives] at alive
  exact step_sound invariant operation t r.life alive

/-- A scheduler that has seen no thread. -/
structure Blank (s : XnuScheduler) : Prop where
  threads : s.threads = ∅
  owners : s.processThreads = ∅ ∧ s.processRunnableCounts = ∅
  queues : ∀ place q, s.runQueueAt place = some q → q = {}
  total : s.runnableCount = s.queuedTotal
  counts : s.waitingCount = 0 ∧ s.hostAwaitCount = 0 ∧ ∀ b, s.schedulerLoad.counts b = 0
  orders : s.usageRecords = [] ∧ s.failsafeOrder = ∅ ∧ s.depressionOrder = ∅
  configured : s.Configured

theorem Blank.invariant (blank : Blank s) : s.Invariant := by
  have nobody : ∀ t, s.threads.lookup t = none := by
    intro t
    rw [blank.threads]
    exact AList.lookup_empty t
  have unheard : ∀ {P : ThreadRecord → Prop} t, ¬∃ r, s.threads.lookup t = some r ∧ P r := by
    rintro P t ⟨r, found, -⟩
    rw [nobody] at found
    contradiction
  have unknown : ∀ {P : ThreadRecord → Prop} t r, s.threads.lookup t = some r → P r := by
    intro P t r found
    rw [nobody] at found
    contradiction
  have zero : ∀ p : ThreadRecord → Bool, s.threads.tally p = 0 := by
    intro p
    rw [blank.threads]
    rfl
  obtain ⟨processThreads, processCounts⟩ := blank.owners
  obtain ⟨waiting, hostAwait, load⟩ := blank.counts
  obtain ⟨usage, failsafe, depression⟩ := blank.orders
  refine ⟨⟨⟨?_, unknown, unknown, ⟨?_, ?_, ?_, blank.total⟩, ⟨?_, ?_, ?_⟩, ⟨?_, ?_, ?_, ?_⟩,
    ⟨?_, ?_, ?_⟩, blank.configured⟩, unknown, ?_⟩, unknown⟩
  · intro t r found
    rw [nobody] at found
    contradiction
  · intro place q here
    obtain rfl := blank.queues place q here
    exact RunQueue.initial_summarized
  · intro place q here i t
    obtain rfl := blank.queues place q here
    exact iff_of_false List.not_mem_nil (unheard t)
  · intro place q here k
    obtain rfl := blank.queues place q here
    exact iff_of_false (Finset.notMem_empty k) (unheard k.thread)
  · rw [hostAwait, zero]
  · intro p
    rw [zero, processCounts]
    rfl
  · intro b
    rw [load, zero]
  · intro p owned found
    rw [processThreads] at found
    contradiction
  · intro t here
    rw [nobody] at here
    contradiction
  · intro p here
    rw [processThreads] at here
    contradiction
  · intro p
    rw [processThreads, processCounts]
    rfl
  · intro i t
    rw [usage]
    exact iff_of_false nofun (unheard t)
  · intro tick t
    rw [failsafe]
    exact iff_of_false (Finset.notMem_empty _) (unheard t)
  · intro deadline t
    rw [depression]
    exact iff_of_false (Finset.notMem_empty _) (unheard t)
  · rw [waiting, zero]

theorem construct_initial {config : SchedulerConfig} (built : construct config = .ok s) :
    s = initialState config := by
  unfold construct at built
  split at built
  · contradiction
  · split at built
    · contradiction
    · exact (Except.ok.inj built).symm

theorem construct_blank {config : SchedulerConfig} (built : construct config = .ok s) :
    Blank s := by
  unfold construct at built
  split at built
  · contradiction
  · rename_i nonzero
    split at built
    · contradiction
    · rename_i floor
      obtain rfl := Except.ok.inj built
      simp only [not_or, Int.not_lt] at nonzero floor
      obtain ⟨quantum, tick, -, processors⟩ := nonzero
      refine ⟨rfl, ⟨rfl, rfl⟩, ?_, ?_, ⟨rfl, rfl, fun _ => rfl⟩, ⟨rfl, rfl, rfl⟩, ⟨?_, ?_, ?_, ?_, ?_,
        floor⟩⟩
      · intro place q here
        cases place with
        | none => exact (Option.some.inj here).symm
        | some p => exact (List.mem_replicate.mp (List.mem_of_getElem? here)).2
      · simp [queuedTotal, initialState]
      · exact Nat.pos_of_ne_zero quantum
      · exact Nat.pos_of_ne_zero tick
      · simpa [initialState] using Nat.pos_of_ne_zero processors
      · simp [initialState]
      · exact Nat.lt_of_lt_of_le Nat.one_pos (Nat.le_max_left _ _)

theorem construct_invariant {config : SchedulerConfig} (built : construct config = .ok s) :
    s.Invariant :=
  (construct_blank built).invariant

theorem run_after_invariant (invariant : s.Invariant) (operations : List Operation) :
    (run after s operations).Invariant := by
  have preserves : ∀ s operation, Invariant s → (after s operation).Invariant :=
    fun _ operation invariant => after_invariant invariant operation
  exact run_invariant preserves invariant operations

/-- The invariant holds of every reachable state. -/
theorem Reachable.invariant (reachable : s.Reachable) : s.Invariant := by
  obtain ⟨config, initial, operations, built, rfl⟩ := reachable
  exact run_after_invariant (construct_invariant built) operations

/-- The number of processors is what the constructor made it. -/
theorem run_processors (invariant : s.Invariant) (operations : List Operation) :
    (run after s operations).processorRunQueues.length = s.processorRunQueues.length := by
  induction operations generalizing s with
  | nil => rfl
  | cons operation rest ih =>
    rw [run_cons, ih (after_invariant invariant operation)]
    exact (after_performs invariant operation).processors

end
end XnuScheduler
end ILEmu
