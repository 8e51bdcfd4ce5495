import ILEmu.Scheduler.Removal

/-! Threads come: a registration, and the exec that replaces all threads of a
process by one. Processes leave. -/
namespace ILEmu
open Foundation Xnu.Scheduler
namespace XnuScheduler
section
variable {s s' : XnuScheduler} {r r' : ThreadRecord} {t : XnuThreadId} {counted : Bool}

/-- A record that no queue and no count knows is repriced on its own. -/
theorem recomputePriority_idle (s : XnuScheduler) (idle : r.queued = false)
    (waiting : r.info.state = .waiting) (awake : r.info.depressed = false) :
    ∃ bucket shift priority, s.recomputePriority r = .ok (s, { r with
      loadBucket := bucket, priorityUsageShift := shift, info.scheduledPriority := priority }) ∧
      priority = ThreadRecord.computedPriority
        { r with loadBucket := bucket, priorityUsageShift := shift } := by
  obtain ⟨bucket, shift, rebucketed⟩ : ∃ bucket shift, s.rebucket r =
      .ok (s, { r with loadBucket := bucket, priorityUsageShift := shift }) := by
    have unmoved : ∀ bucket, s.moveLoad r bucket = .ok s.schedulerLoad := fun _ =>
      if_neg (by simp [waiting, XnuThreadState.isActive])
    unfold rebucket
    dsimp only
    split
    · exact ⟨_, _, rfl⟩
    · rw [unmoved]
      exact ⟨_, _, rfl⟩
  refine ⟨bucket, shift, _, ?_, rfl⟩
  unfold recomputePriority
  rw [rebucketed]
  dsimp only [bind, Except.bind]
  rw [if_neg (by simp [awake])]
  split
  · rename_i same
    rw [same]
    rfl
  · unfold reschedule removeFromQueue
    dsimp only
    rw [if_neg (by simp [idle])]
    dsimp only [bind, Except.bind]
    unfold requeue
    rw [if_neg (by simp [idle])]

theorem exists_joined (missing : s.threads.lookup r.id = none) (threads : s'.threads = s.threads)
    {P : ThreadRecord → Prop} (absent : ¬P r) (t : XnuThreadId) :
    (∃ r₀, (s'.store r).threads.lookup t = some r₀ ∧ P r₀) ↔
      ∃ r₀, s.threads.lookup t = some r₀ ∧ P r₀ := by
  rw [exists_store, threads]
  constructor
  · rintro (⟨-, here⟩ | ⟨-, known⟩)
    · exact absurd here absent
    · exact known
  · rintro ⟨r₀, found, here⟩
    refine .inr ⟨?_, r₀, found, here⟩
    rintro rfl
    rw [missing] at found
    contradiction

theorem OwnersAgree.adopt (agree : s.OwnersAgree) (missing : s.threads.lookup r.id = none) :
    ((s.adopt r.id).store r).OwnersAgree := by
  have absent : ∀ owned, s.processThreads.lookup r.id.process = some owned → r.id ∉ owned := by
    intro owned found member
    have known := (((agree.owned _ owned found).2.2 r.id).mp member).2
    rw [missing] at known
    contradiction
  have there : ∀ t, ((s.adopt r.id).store r).threads.lookup t =
      if t = r.id then some r else s.threads.lookup t := lookup_store (s.adopt r.id) r
  refine ⟨?_, ?_, ?_, ?_⟩
  · intro p owned found
    change (s.processThreads.insert r.id.process _).lookup p = some owned at found
    rw [Table.lookup_insert_eq] at found
    split at found
    · rename_i process
      subst p
      have listed := Option.some.inj found
      cases known : s.processThreads.lookup r.id.process with
      | none =>
        have none : ∀ t, (s.threads.lookup t).isSome → t.process ≠ r.id.process := by
          intro t here process
          have owner := agree.owner t here
          rw [process, known] at owner
          contradiction
        rw [ownedThreads, known] at listed
        simp only [Option.getD_none, List.not_mem_nil, if_false, List.nil_append] at listed
        subst owned
        refine ⟨List.cons_ne_nil _ _, List.nodup_singleton _, fun t => ?_⟩
        rw [List.mem_singleton, there]
        constructor
        · rintro rfl
          exact ⟨rfl, by rw [if_pos rfl]; rfl⟩
        · rintro ⟨process, here⟩
          by_contra other
          rw [if_neg other] at here
          exact none t here process
      | some before =>
        obtain ⟨-, nodup, mem⟩ := agree.owned _ before known
        rw [ownedThreads, known] at listed
        simp only [Option.getD_some, if_neg (absent before known)] at listed
        subst owned
        refine ⟨by simp, ?_, fun t => ?_⟩
        · refine List.nodup_append.mpr ⟨nodup, List.nodup_singleton _, ?_⟩
          rintro u member v single rfl
          rw [List.mem_singleton] at single
          exact absent before known (single ▸ member)
        · rw [List.mem_append, List.mem_singleton, there, mem]
          constructor
          · rintro (⟨process, here⟩ | rfl)
            · refine ⟨process, ?_⟩
              split
              · rfl
              · exact here
            · exact ⟨rfl, by rw [if_pos rfl]; rfl⟩
          · rintro ⟨process, here⟩
            split at here
            · exact .inr ‹_›
            · exact .inl ⟨process, here⟩
    · rename_i other
      obtain ⟨some, nodup, mem⟩ := agree.owned p owned found
      refine ⟨some, nodup, fun t => ?_⟩
      rw [mem, there]
      by_cases mine : t = r.id
      · subst t
        simp [Ne.symm other]
      · rw [if_neg mine]
  · intro t here
    change ((s.processThreads.insert r.id.process _).lookup t.process).isSome
    rw [Table.lookup_insert_eq]
    rw [there] at here
    split
    · rfl
    · rename_i other
      split at here
      · rename_i mine
        exact absurd (congrArg XnuThreadId.process mine) other
      · exact agree.owner t here
  · intro p here
    change ((s.processThreads.insert r.id.process _).lookup p).isSome at here
    rw [Table.lookup_insert_eq] at here
    change (AList.lookup p (if (s.taskHistory.lookup r.id.process).isSome then s.taskHistory
      else s.taskHistory.insert r.id.process {})).isSome
    split at here
    · rename_i process
      subst p
      split
      · assumption
      · rw [AList.lookup_insert]
        rfl
    · have known := agree.history p here
      split
      · exact known
      · rw [Table.lookup_insert_eq]
        split
        · rfl
        · exact known
  · intro p
    change (AList.lookup p (if (s.processRunnableCounts.lookup r.id.process).isSome then
      s.processRunnableCounts else s.processRunnableCounts.insert r.id.process 0)).isSome ↔
      ((s.processThreads.insert r.id.process _).lookup p).isSome
    rw [Table.lookup_insert_eq]
    by_cases process : p = r.id.process
    · subst p
      rw [if_pos rfl]
      refine ⟨fun _ => rfl, fun _ => ?_⟩
      split
      · assumption
      · rw [AList.lookup_insert]
        rfl
    · rw [if_neg process, ← agree.counted p]
      split
      · rfl
      · rw [AList.lookup_insert_ne process]

theorem tally_joined (missing : s.threads.lookup r.id = none) (threads : s'.threads = s.threads)
    {p : ThreadRecord → Bool} (absent : p r = false) :
    (s'.store r).threads.tally p = s.threads.tally p := by
  rw [tally_store, absent, threads, Bool.toNat_false, Nat.zero_add]
  exact Table.total_erase_absent _ missing

/-- A record that nothing mentions joins the table, and its process owns it. -/
theorem Settled.adopt (settled : s.Settled) (missing : s.threads.lookup r.id = none)
    (ranged : r.Ranged s.processorRunQueues.length) (placed : r.Placed) (untracked : Untracked r) :
    Holding (s.adopt r.id) r false := by
  have balanced := settled.balanced
  have threads : (s.adopt r.id).threads = s.threads := rfl
  refine ⟨⟨?_, ?_, ?_, ⟨?_, ?_, ?_, ?_⟩, ⟨?_, ?_, ?_⟩, balanced.owners.adopt missing, ⟨?_, ?_, ?_⟩,
    { balanced.configured with }⟩, ?_, ?_⟩
  · intro t r₀ found
    rw [lookup_store] at found
    split at found
    · rename_i same
      exact Option.some.inj found ▸ same.symm
    · exact balanced.ids t r₀ found
  · intro t r₀ found
    rw [lookup_store] at found
    split at found
    · exact Option.some.inj found ▸ ranged
    · exact balanced.ranged t r₀ found
  · intro t r₀ found
    rw [lookup_store] at found
    split at found
    · exact Option.some.inj found ▸ placed
    · exact balanced.placed t r₀ found
  · exact balanced.queues.summarized
  · intro place q here i t
    refine (balanced.queues.listed place q here i t).trans (exists_joined missing threads ?_ t).symm
    simp [untracked.queued]
  · intro place q here k
    refine (balanced.queues.ordered place q here k).trans
      (exists_joined missing threads ?_ k.thread).symm
    simp [untracked.queued]
  · exact balanced.queues.total
  · rw [tally_joined missing threads untracked.hostAwait]
    exact balanced.counters.hostAwait
  · intro p
    rw [tally_joined missing threads (by simp [untracked.state, XnuThreadState.isRunnable]),
      ← balanced.counters.runnable]
    change (AList.lookup p (if (s.processRunnableCounts.lookup r.id.process).isSome then
      s.processRunnableCounts else s.processRunnableCounts.insert r.id.process 0)).getD 0 = _
    split
    · rfl
    · rename_i uncounted
      rw [Table.lookup_insert_eq]
      split
      · rename_i process
        have absent : s.processRunnableCounts.lookup r.id.process = none := by simpa using uncounted
        rw [process, absent]
        rfl
      · rfl
  · intro b
    rw [tally_joined missing threads (by simp [untracked.state, XnuThreadState.isActive])]
    exact balanced.counters.load b
  · intro i t
    refine (balanced.indexes.usage i t).trans (exists_joined missing threads ?_ t).symm
    simp [untracked.usage]
  · intro tick t
    refine (balanced.indexes.failsafe tick t).trans (exists_joined missing threads ?_ t).symm
    simp [untracked.failsafe]
  · intro deadline t
    refine (balanced.indexes.depression deadline t).trans (exists_joined missing threads ?_ t).symm
    simp [untracked.depression]
  · intro t r₀ _ found
    exact settled.scheduled t r₀ found
  · rw [Bool.toNat_false, Nat.zero_add]
    exact settled.waiting.trans (Table.total_erase_absent _ missing).symm

theorem freshRecord_ranged (s : XnuScheduler) (t : XnuThreadId) (basePriority : Int) (n : Nat) :
    (s.freshRecord t basePriority).Ranged n := by
  have range := clampPriority_range basePriority
  have zero : (0 : Int) ≤ 0 ∧ (0 : Int) ≤ maximumPriority := by decide
  refine ⟨range, range, zero, rfl, range, nofun, nofun, ?_, nofun, nofun⟩
  rintro (realtime | ⟨failsafe, -⟩)
  · contradiction
  · contradiction

theorem adopt_retired (s : XnuScheduler) (t : XnuThreadId) (p : Nat) :
    (s.adopt t).retiredTicks p = s.retiredTicks p := by
  change ((AList.lookup p (if (s.taskHistory.lookup t.process).isSome then s.taskHistory
    else s.taskHistory.insert t.process {})).map (·.terminatedUserTicks)).getD 0 =
    ((s.taskHistory.lookup p).map (·.terminatedUserTicks)).getD 0
  split
  · rfl
  · rename_i absent
    rw [Table.lookup_insert_eq]
    split
    · rename_i process
      have none : s.taskHistory.lookup t.process = none := by simpa using absent
      rw [process, none]
      rfl
    · rfl

/-- A thread joins a settled scheduler in which nothing else changes. -/
theorem turns_join {l : Life} (holding : Holding s' r (isWaiting r)) (scheduled : r.Scheduled)
    (threads : s'.threads = s.threads) (id : r.id = t) (life : r.life = l) (fuelled : r.Fuelled)
    (processors : s'.processorRunQueues.length = s.processorRunQueues.length) :
    Turns (fun u known => if u = t then some l else known) s (s'.store r) := by
  refine ⟨holding.settle scheduled, ?_, ?_, processors⟩
  · intro u
    rw [lifeOf, lookup_store, id, threads]
    split
    · exact congrArg some life
    · rfl
  · intro u before r₀ found
    rw [lookup_store, threads] at found
    split at found
    · exact Option.some.inj found ▸ fuelled
    · exact before r₀ found

/-- The record of a new thread, before any queue or count knows it. -/
structure Fresh (s : XnuScheduler) (t : XnuThreadId) (r : ThreadRecord) : Prop where
  ident : r.id = t
  life : r.life = Life.fresh false
  untracked : Untracked r
  ranged : r.Ranged s.processorRunQueues.length
  placed : r.Placed
  scheduled : r.Scheduled
  quantum : 0 < r.info.remainingQuantum

theorem freshRecord_repriced (configured : s.Configured) (t : XnuThreadId) (basePriority : Int) :
    ∃ r, s.recomputePriority (s.freshRecord t basePriority) = .ok (s, r) ∧ Fresh s t r := by
  obtain ⟨bucket, shift, priority, repriced, computed⟩ :=
    s.recomputePriority_idle (r := s.freshRecord t basePriority) rfl rfl rfl
  have ranged : ThreadRecord.Ranged s.processorRunQueues.length
      { s.freshRecord t basePriority with loadBucket := bucket, priorityUsageShift := shift } :=
    { s.freshRecord_ranged t basePriority s.processorRunQueues.length with }
  have range := computedPriority_range ranged
  have scheduled : ThreadRecord.Scheduled { s.freshRecord t basePriority with
      loadBucket := bucket, priorityUsageShift := shift, info.scheduledPriority := priority } :=
    computedPriority_scheduled (r := { s.freshRecord t basePriority with
      loadBucket := bucket, priorityUsageShift := shift }) rfl (by rw [computed])
  rw [← computed] at range
  exact ⟨_, repriced, rfl, rfl, ⟨rfl, rfl, rfl, rfl, rfl, rfl⟩, { ranged with scheduled := range },
    placed_of_idle rfl rfl rfl, scheduled, configured.quantum⟩

theorem registerThread_new (settled : s.Settled) (missing : s.threads.lookup t = none)
    (basePriority : Int) (runnable : Bool) :
    Yields (s.registerThread t basePriority runnable) fun (s', registered) =>
      registered = true ∧
        Turns (fun u known => if u = t then some (Life.fresh runnable) else known) s s' ∧
        ∀ p, s'.retiredTicks p = s.retiredTicks p := by
  obtain ⟨r, repriced, fresh⟩ := freshRecord_repriced settled.balanced.configured t basePriority
  unfold registerThread
  rw [if_neg (by simp [missing]), repriced]
  dsimp only [bind, Except.bind]
  obtain ⟨rfl, life, untracked, ranged, placed, scheduled, quantum⟩ := fresh
  have adopted := settled.adopt missing ranged placed untracked
  have retired := adopt_retired s r.id
  have threads : (s.adopt r.id).threads = s.threads := rfl
  have processors : (s.adopt r.id).processorRunQueues.length = s.processorRunQueues.length := rfl
  generalize s.adopt r.id = s₁ at *
  cases runnable with
  | true =>
    rw [if_pos rfl]
    refine (transitionState_yields adopted .runnable).bind ?_
    rintro ⟨s₂, r₂⟩ ⟨holding₂, frame₂, rfl⟩
    refine (enqueueRunnable_yields holding₂.beginRunnableGeneration untracked.queued
      (scheduled.of_band rfl) rfl .back).bind ?_
    rintro ⟨s₃, r₃⟩ ⟨holding₃, frame₃, scheduled₃, id₃, life₃, quantum₃⟩
    have frame := frame₂.trans frame₃
    refine Yields.ok ⟨rfl, turns_join holding₃ scheduled₃ (frame.threads.trans threads) id₃ ?_ ?_
      (frame.processors.trans processors), fun p => (frame.stable.retired p).trans (retired p)⟩
    · rw [life₃]
      exact congrArg (fun l : Life => { l with state := .runnable, queued := true }) life
    · intro _
      rw [quantum₃]
      exact quantum
  | false =>
    rw [if_neg Bool.false_ne_true]
    have waiting : isWaiting r = true := by simp [isWaiting, untracked.state]
    have entered := adopted.enterWaiting
    rw [← waiting] at entered
    exact Yields.ok ⟨rfl, turns_join entered scheduled threads rfl life (fun _ => quantum) processors,
      retired⟩

theorem registerThread_known (known : (s.lifeOf t).isSome) (basePriority : Int) (runnable : Bool) :
    s.registerThread t basePriority runnable = .ok (s, false) := by
  rw [lifeOf, Option.isSome_map] at known
  exact if_pos known

/-- A thread that is registered twice stays what it was. -/
theorem registerThread_yields (settled : s.Settled) (t : XnuThreadId) (basePriority : Int)
    (runnable : Bool) :
    Yields (s.registerThread t basePriority runnable) fun (s', registered) =>
      registered = (s.lifeOf t).isNone ∧
        Turns (fun u known => if u = t then some (known.getD (Life.fresh runnable)) else known) s s' ∧
        ∀ p, s'.retiredTicks p = s.retiredTicks p := by
  cases known : s.lifeOf t with
  | none =>
    have missing : s.threads.lookup t = none := by simpa [lifeOf] using known
    refine (registerThread_new settled missing basePriority runnable).mono ?_
    rintro ⟨s', registered⟩ ⟨new, turns, retired⟩
    refine ⟨new, ⟨turns.settled, fun u => ?_, turns.fuelled, turns.processors⟩, retired⟩
    rw [turns.lives]
    split
    · rename_i same
      rw [same, known]
      rfl
    · rfl
  | some l =>
    rw [registerThread_known (by rw [known]; rfl)]
    refine Yields.ok ⟨rfl, ⟨settled, fun u => ?_, fun _ fuelled => fuelled, rfl⟩, fun _ => rfl⟩
    split
    · rename_i same
      rw [same, known]
      rfl
    · rfl

theorem reinstall_yields (settled : s.Settled) (found : s.threads.lookup t = some r)
    (userTicks : Nat) {processor : Option Nat}
    (inside : ∀ p, processor = some p → p < s.processorRunQueues.length) :
    Yields (s.reinstall t userTicks processor)
      (Proceeds (solely t fun l => { l with userTicks }) s) := by
  have holding := settled.hold found
  have scheduled := settled.scheduled t r found
  unfold reinstall
  simp only [found]
  cases processor with
  | none =>
    exact Yields.ok (proceeds_touch settled found rfl { holding.ranged with } { holding.placed with }
      rfl rfl rfl)
  | some p =>
    have last : ∀ p', some p = some p' → p' < s.processorRunQueues.length := by
      rintro p' same
      exact inside p' same
    have installed : Holding { s with processorContexts := s.processorContexts.set p (some t) } r
        (isWaiting r) :=
      holding.aside rfl rfl rfl rfl (fun _ here => here)
        (holding.configured.withContexts List.length_set)
    refine Yields.ok (proceeds_store settled found (installed.touch rfl
      { holding.ranged with last := last } { holding.placed with }) ⟨rfl, rfl, rfl, rfl, rfl⟩
      (scheduled.of_band rfl) ⟨rfl, rfl, fun fuelled => fuelled⟩)

theorem mem_owned (settled : s.Settled) {process : Nat} {owned : List XnuThreadId}
    (found : s.processThreads.lookup process = some owned) (t : XnuThreadId) :
    t ∈ owned ↔ t.process = process ∧ (s.lifeOf t).isSome := by
  rw [lifeOf, Option.isSome_map]
  exact (settled.balanced.owners.owned process owned found).2.2 t

theorem lifeOf_unowned (settled : s.Settled) {process : Nat}
    (found : s.processThreads.lookup process = none) (t : XnuThreadId) (mine : t.process = process) :
    s.lifeOf t = none := by
  refine lifeOf_none ?_
  by_contra known
  have owner := settled.balanced.owners.owner t (Option.isSome_iff_ne_none.mpr known)
  rw [mine, found] at owner
  contradiction

/-- The life of a thread after an exec that leaves only a survivor in its process. -/
def replaced (survivor : XnuThreadId) (userTicks : Nat) (t : XnuThreadId) (known : Option Life) :
    Option Life :=
  if t = survivor then some { Life.fresh true with userTicks }
  else if t.process = survivor.process then none
  else known

theorem replaceProcessThreads_yields (settled : s.Settled) {survivor : XnuThreadId}
    (found : s.threads.lookup survivor = some r) (basePriority : Int)
    (pending : XnuThreadId → Nat) (order : List XnuThreadId) :
    Yields (s.replaceProcessThreads survivor basePriority pending order) fun (s', replied) =>
      replied = true ∧ Turns (replaced survivor r.userTicks) s s' ∧
        ∃ threads : List XnuThreadId, threads.Nodup ∧
          (∀ u, u ∈ threads ↔ u.process = survivor.process ∧ (s.lifeOf u).isSome) ∧
          ∀ p, s'.retiredTicks p =
            credit (Function.update (s.dueTicks pending) survivor 0) p threads (s.retiredTicks p) := by
  have ranged := (settled.hold found).ranged
  have placed := (settled.hold found).placed
  unfold replaceProcessThreads
  simp only [found]
  have inside : ∀ p, (r.info.lastProcessor.filter fun processor =>
      s.processorContexts[processor]? = some (some survivor)) = some p →
      p < s.processorRunQueues.length := by
    intro p kept
    exact ranged.last p (Option.filter_eq_some_iff.mp kept).1
  generalize (r.info.lastProcessor.filter fun processor =>
    s.processorContexts[processor]? = some (some survivor)) = installed at inside ⊢
  have zeroed : Proceeds (solely survivor fun l => { l with userTicks := 0 }) s
      (s.store { r with userTicks := 0 }) :=
    proceeds_touch settled found rfl { ranged with } { placed with } rfl rfl rfl
  have turns₁ := zeroed.turns
  have retired₁ := zeroed.stable.retired
  have lives₁ : ∀ u, u ≠ survivor → (s.store { r with userTicks := 0 }).lifeOf u = s.lifeOf u := by
    intro u other
    rw [turns₁.lives, solely_of_ne other, Option.map_id_fun, id]
  have mine₁ : (s.store { r with userTicks := 0 }).lifeOf survivor =
      some { r.life with userTicks := 0 } := by
    rw [turns₁.lives, lifeOf, found, solely_self]
    rfl
  generalize s.store { r with userTicks := 0 } = s₁ at turns₁ retired₁ lives₁ mine₁ ⊢
  cases known : s₁.processThreads.lookup survivor.process with
  | none =>
    rw [lifeOf_unowned turns₁.settled known survivor rfl] at mine₁
    contradiction
  | some owned =>
    have mem : ∀ u, u ∈ iterationOrder order owned ↔
        u.process = survivor.process ∧ (s.lifeOf u).isSome := by
      intro u
      rw [(iterationOrder_perm order owned).mem_iff, mem_owned turns₁.settled known]
      by_cases same : u = survivor
      · subst u
        rw [mine₁, lifeOf, found]
        rfl
      · rw [lives₁ u same]
    have nodup : (iterationOrder order owned).Nodup := (iterationOrder_perm order owned).nodup_iff.mpr
      (turns₁.settled.balanced.owners.owned _ owned known).2.1
    dsimp only
    generalize iterationOrder order owned = threads at mem nodup ⊢
    refine (removeThreads_yields turns₁.settled nodup _).bind fun s₂ retires => ?_
    have gone : s₂.lifeOf survivor = none := by
      have listed : survivor ∈ threads := (mem survivor).mpr ⟨rfl, by rw [lifeOf, found]; rfl⟩
      rw [retires.turns.lives, if_pos listed]
    have missing : s₂.threads.lookup survivor = none := by simpa [lifeOf] using gone
    refine (registerThread_new retires.turns.settled missing basePriority true).bind ?_
    rintro ⟨s₃, _⟩ ⟨-, joined, retired₃⟩
    have mine₃ : s₃.lifeOf survivor = some (Life.fresh true) := by
      rw [joined.lives, if_pos rfl]
    obtain ⟨r₃, found₃, -⟩ := Option.map_eq_some_iff.mp mine₃
    have processors := joined.processors.trans (retires.turns.processors.trans turns₁.processors)
    refine (reinstall_yields joined.settled found₃ r.userTicks
      fun p kept => processors.symm ▸ inside p kept).bind fun s' proceeds => ?_
    have turns' := proceeds.turns
    refine Yields.ok ⟨rfl, ⟨turns'.settled, ?_, ?_, turns'.processors.trans processors⟩, threads,
      nodup, mem, ?_⟩
    · intro u
      rw [turns'.lives, replaced]
      by_cases same : u = survivor
      · subst u
        rw [mine₃, solely_self, if_pos rfl]
        rfl
      · rw [solely_of_ne same, Option.map_id_fun, id, joined.lives, if_neg same, if_neg same,
          retires.turns.lives, lives₁ u same]
        by_cases process : u.process = survivor.process
        · rw [if_pos process]
          split
          · rfl
          · rename_i unlisted
            by_contra here
            exact unlisted ((mem u).mpr ⟨process, Option.isSome_iff_ne_none.mpr here⟩)
        · rw [if_neg process, if_neg fun listed => process ((mem u).mp listed).1]
    · intro u fuelled
      exact turns'.fuelled u (joined.fuelled u (retires.turns.fuelled u (turns₁.fuelled u fuelled)))
    · intro p
      rw [proceeds.stable.retired, retired₃, retires.retired, retired₁]
      refine credit_congr (fun u member => ?_) p _
      by_cases same : u = survivor
      · subst u
        rw [Function.update_self, dueTicks, mine₁]
        simp only [ne_eq, not_true_eq_false, if_false, Option.map_some, Option.getD_some]
        rfl
      · rw [Function.update_of_ne same, dueTicks, dueTicks, lives₁ u same]
        simp only [ne_eq, same, not_false_eq_true, if_true]

/-- A process without threads can be forgotten. -/
theorem Settled.forgetProcess (settled : s.Settled) {process : Nat}
    (empty : s.processThreads.lookup process = none) : (s.forgetProcess process).Settled := by
  have balanced := settled.balanced
  have owners := balanced.owners
  refine ⟨⟨balanced.ids, balanced.ranged, balanced.placed, { balanced.queues with },
    { balanced.counters with }, ⟨owners.owned, owners.owner, ?_, owners.counted⟩,
    { balanced.indexes with }, { balanced.configured with }⟩, settled.scheduled, settled.waiting⟩
  intro p here
  change (AList.lookup p (s.taskHistory.erase process)).isSome
  rw [Table.lookup_erase_eq]
  split
  · rename_i same
    change (s.processThreads.lookup p).isSome at here
    rw [same, empty] at here
    contradiction
  · exact owners.history p here

theorem forgetProcess_retired (s : XnuScheduler) (process p : Nat) :
    (s.forgetProcess process).retiredTicks p = if p = process then 0 else s.retiredTicks p := by
  unfold retiredTicks forgetProcess
  dsimp only
  rw [Table.lookup_erase_eq]
  split
  · rfl
  · rfl

/-- Threads of one process leave the ticks of the others alone. -/
theorem credit_other {due : XnuThreadId → Nat} {threads : List XnuThreadId} {p : Nat}
    (other : ∀ t ∈ threads, p ≠ t.process) (ticks : Nat) : credit due p threads ticks = ticks := by
  induction threads with
  | nil => rfl
  | cons t rest ih =>
    rw [credit, List.foldl_cons, if_neg (other t List.mem_cons_self)]
    exact ih fun u member => other u (List.mem_cons_of_mem t member)

theorem removeProcess_yields (settled : s.Settled) (process : Nat) (order : List XnuThreadId) :
    Yields (s.removeProcess process order) fun (s', _) =>
      Turns (fun u known => if u.process = process then none else known) s s' ∧
        ∀ p, s'.retiredTicks p = if p = process then 0 else s.retiredTicks p := by
  unfold removeProcess
  cases known : s.processThreads.lookup process with
  | none =>
    refine Yields.ok ⟨⟨settled.forgetProcess known, ?_, fun _ fuelled => fuelled, rfl⟩,
      s.forgetProcess_retired process⟩
    intro u
    split
    · exact lifeOf_unowned settled known u ‹_›
    · rfl
  | some owned =>
    have nodup : (iterationOrder order owned).Nodup := (iterationOrder_perm order owned).nodup_iff.mpr
      (settled.balanced.owners.owned _ owned known).2.1
    have mem : ∀ u, u ∈ iterationOrder order owned ↔ u.process = process ∧ (s.lifeOf u).isSome := by
      intro u
      rw [(iterationOrder_perm order owned).mem_iff, mem_owned settled known]
    dsimp only
    generalize iterationOrder order owned = threads at nodup mem ⊢
    refine (removeThreads_yields settled nodup _).bind fun s₁ retires => ?_
    have lives : ∀ u, s₁.lifeOf u = if u.process = process then none else s.lifeOf u := by
      intro u
      rw [retires.turns.lives]
      by_cases mine : u.process = process
      · rw [if_pos mine]
        split
        · rfl
        · rename_i unlisted
          by_contra here
          exact unlisted ((mem u).mpr ⟨mine, Option.isSome_iff_ne_none.mpr here⟩)
      · rw [if_neg mine, if_neg fun listed => mine ((mem u).mp listed).1]
    have empty : s₁.processThreads.lookup process = none := by
      cases found : s₁.processThreads.lookup process with
      | none => rfl
      | some left =>
        obtain ⟨some, -, -⟩ := retires.turns.settled.balanced.owners.owned process left found
        obtain ⟨u, member⟩ := List.exists_mem_of_ne_nil left some
        obtain ⟨mine, here⟩ := (mem_owned retires.turns.settled found u).mp member
        rw [lives, if_pos mine] at here
        contradiction
    refine Yields.ok ⟨⟨retires.turns.settled.forgetProcess empty, lives, retires.turns.fuelled,
      retires.turns.processors⟩, fun p => ?_⟩
    rw [forgetProcess_retired, retires.retired]
    split
    · rfl
    · rename_i other
      refine credit_other (fun u member same => other ?_) _
      exact same.trans ((mem u).mp member).1

/-- A step that every thread of a process takes, one thread after the other. -/
theorem overThreads_yields {f : XnuScheduler → XnuThreadId → Checked (XnuScheduler × Bool)}
    {step : Life → Life} (sound : ∀ l, l.Sound → (step l).Sound)
    (yields : ∀ s t, s.Invariant → Yields (f s t) fun (s', _) => Proceeds (solely t step) s s')
    (invariant : s.Invariant) {threads : List XnuThreadId} (distinct : threads.Nodup) (n : Nat) :
    Yields (threads.foldlM (fun (s, changed) thread => do
      let (s, applied) ← f s thread
      return (s, if applied then changed + 1 else changed)) (s, n)) fun (s', _) =>
      Proceeds (fun u => if u ∈ threads then step else id) s s' := by
  induction threads generalizing s n with
  | nil =>
    refine Yields.ok ?_
    simp only [List.not_mem_nil, if_false]
    exact (Passes.refl invariant.settled).proceeds
  | cons t rest ih =>
    obtain ⟨fresh, distinct⟩ := List.nodup_cons.mp distinct
    rw [List.foldlM_cons]
    have first : Yields (do
        let (s, applied) ← f s t
        return (s, if applied then n + 1 else n)) fun (s', _) => Proceeds (solely t step) s s' :=
      (yields s t invariant).bind fun _ proceeds => Yields.ok proceeds
    refine first.bind ?_
    rintro ⟨s₁, n₁⟩ proceeds
    have invariant₁ := proceeds.invariant invariant (solely_sound sound)
    refine (ih invariant₁ distinct n₁).mono ?_
    rintro ⟨s', _⟩ rests
    have both := proceeds.trans rests
    have same : (fun u => (if u ∈ rest then step else id) ∘ solely t step u) =
        fun u => if u ∈ t :: rest then step else id := by
      funext u
      by_cases head : u = t
      · subst u
        rw [solely_self, if_neg fresh, if_pos List.mem_cons_self]
        rfl
      · rw [solely_of_ne head]
        simp only [List.mem_cons, head, false_or]
        rfl
    exact same ▸ both

theorem overProcess_yields {f : XnuScheduler → XnuThreadId → Checked (XnuScheduler × Bool)}
    {step : Life → Life} (sound : ∀ l, l.Sound → (step l).Sound)
    (yields : ∀ s t, s.Invariant → Yields (f s t) fun (s', _) => Proceeds (solely t step) s s')
    (invariant : s.Invariant) (process : Nat) (order : List XnuThreadId) :
    Yields (s.overProcess process order f) fun (s', _) =>
      Proceeds (fun u => if u.process = process then step else id) s s' := by
  have settled := invariant.settled
  have owners := settled.balanced.owners
  unfold overProcess
  cases known : s.processThreads.lookup process with
  | none =>
    refine Yields.ok ⟨settled, ?_, Stable.refl s⟩
    intro u
    dsimp only
    split
    · have missing : s.threads.lookup u = none := by
        simpa [lifeOf] using lifeOf_unowned settled known u ‹_›
      rw [missing]
      exact .none
    · exact Evolves.refl (fun _ r₀ => (Drift.refl r₀).moves) s u
  | some owned =>
    obtain ⟨-, nodup, mem⟩ := owners.owned process owned known
    have perm := iterationOrder_perm order owned
    refine (overThreads_yields sound yields invariant (perm.nodup_iff.mpr nodup) 0).mono ?_
    rintro ⟨s', _⟩ ⟨settled', acts, stable⟩
    refine ⟨settled', ?_, stable⟩
    intro u
    have here := acts u
    by_cases there : (s.threads.lookup u).isSome
    · have same : u ∈ iterationOrder order owned ↔ u.process = process := by
        rw [perm.mem_iff, mem]
        exact and_iff_left there
      simp only [same] at here
      exact here
    · have missing : s.threads.lookup u = none := by simpa using there
      dsimp only at here ⊢
      rw [missing] at here ⊢
      generalize s'.threads.lookup u = x at here ⊢
      cases here with
      | none => exact .none

end
end XnuScheduler
end ILEmu
