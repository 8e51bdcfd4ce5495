import ILEmu.Scheduler.Wakeups

/-! Policy changes reprice and requeue, and leave every life alone. -/
namespace ILEmu
open Foundation Xnu.Scheduler
namespace XnuScheduler
section
variable {s s' : XnuScheduler} {r r' : ThreadRecord} {t : XnuThreadId}

/-- A policy change that no book, quantum or band depends on. -/
theorem passes_touch (settled : s.Settled) (found : s.threads.lookup t = some r)
    (books : r'.books = r.books) (ranged : r'.Ranged s.processorRunQueues.length)
    (placed : r'.Placed) (scheduled : r'.Scheduled) (drift : Drift r r') :
    Passes s (s.store r') :=
  passes_store settled found ((settled.hold found).touch books ranged placed) (Frame.refl s)
    scheduled drift

/-- A policy change followed by the recomputation of the priority it imposes. -/
theorem retune_yields (settled : s.Settled) (found : s.threads.lookup t = some r)
    (holding : Holding s r' (isWaiting r))
    (depressed : r'.info.depressed = true → r'.info.scheduledPriority = minimumPriority)
    (drift : Drift r r') :
    Yields (s.recomputePriority r') fun (s₁, r₁) => Passes s (s₁.store r₁) := by
  refine (recomputePriority_yields holding depressed).mono ?_
  rintro ⟨s₁, r₁⟩ ⟨holding₁, frame, id, scheduled, life, info⟩
  refine passes_store settled found holding₁ frame scheduled (drift.trans ⟨id, life, .inl ?_⟩)
  rw [info]

theorem clampPriority_range (priority : Int) :
    0 ≤ clampPriority priority ∧ clampPriority priority ≤ maximumPriority := by
  simp only [clampPriority, minimumPriority, maximumPriority]
  omega

theorem setBasePriority_yields (settled : s.Settled) (t : XnuThreadId) (priority : Int) :
    Yields (s.setBasePriority t priority) fun (s', _) => Passes s s' := by
  unfold setBasePriority
  cases found : s.threads.lookup t with
  | none => exact Yields.ok (.refl settled)
  | some r =>
    have holding := settled.hold found
    have scheduled := settled.scheduled t r found
    have range := clampPriority_range priority
    have valid : XnuThreadQosPolicy.valid {} = true := by decide
    refine Yields.ite (fun _ => Yields.ok ?_) (fun _ => ?_)
    · exact passes_touch settled found rfl
        { holding.ranged with legacy := range, qos := valid } { holding.placed with }
        (scheduled.of_band rfl) ⟨rfl, rfl, .inl rfl⟩
    · have changed : Holding s { r with
          legacyBasePriority := clampPriority priority
          info.requestedQos := {}
          info.basePriority := clampPriority priority } (isWaiting r) :=
        holding.touch rfl { holding.ranged with base := range, legacy := range, qos := valid }
          { holding.placed with }
      refine (retune_yields settled found changed scheduled.depressed ⟨rfl, rfl, .inl rfl⟩).bind ?_
      rintro ⟨s', r'⟩ passes
      exact Yields.ok passes

theorem precedencePriority_range (configured : s.Configured) (taskPriority importance : Int) :
    0 ≤ s.precedencePriority taskPriority importance ∧
      s.precedencePriority taskPriority importance ≤ maximumPriority := by
  have floor := configured.floor
  simp only [precedencePriority, minimumPriority, maximumPriority, maximumUserPriority] at floor ⊢
  omega

theorem setPrecedence_yields (settled : s.Settled) (t : XnuThreadId)
    (taskPriority importance : Int) :
    Yields (s.setPrecedence t taskPriority importance) fun (s', _) => Passes s s' := by
  unfold setPrecedence
  cases found : s.threads.lookup t with
  | none => exact Yields.ok (.refl settled)
  | some r =>
    have holding := settled.hold found
    have scheduled := settled.scheduled t r found
    have range := precedencePriority_range holding.configured taskPriority importance
    have saved : Passes s (s.store (if r.info.failsafe then
        { r with
          importance
          failsafeSavedBasePriority := s.precedencePriority taskPriority importance }
        else { r with importance })) := by
      split
      · exact passes_touch settled found rfl { holding.ranged with saved := range }
          { holding.placed with } (scheduled.of_band rfl) ⟨rfl, rfl, .inl rfl⟩
      · exact passes_touch settled found rfl { holding.ranged with } { holding.placed with }
          (scheduled.of_band rfl) ⟨rfl, rfl, .inl rfl⟩
    refine Yields.ite (fun _ => Yields.ok saved) (fun _ => ?_)
    refine (setBasePriority_yields saved.settled t _).mono ?_
    rintro ⟨s', _⟩ passes
    exact saved.trans passes

theorem setTaskPriority_yields (settled : s.Settled) (t : XnuThreadId) (priority : Int) :
    Yields (s.setTaskPriority t priority) fun (s', _) => Passes s s' := by
  unfold setTaskPriority
  cases found : s.threads.lookup t with
  | none => exact Yields.ok (.refl settled)
  | some r =>
    have holding := settled.hold found
    refine Yields.ite (fun _ => setPrecedence_yields settled t priority r.importance)
      (fun _ => Yields.ok ?_)
    exact passes_touch settled found rfl
      { holding.ranged with
        legacy := precedencePriority_range holding.configured priority r.importance }
      { holding.placed with } ((settled.scheduled t r found).of_band rfl) ⟨rfl, rfl, .inl rfl⟩

theorem setTimeshare_yields (settled : s.Settled) (t : XnuThreadId) (timeshare : Bool) :
    Yields (s.setTimeshare t timeshare) fun (s', _) => Passes s s' := by
  unfold setTimeshare
  cases found : s.threads.lookup t with
  | none => exact Yields.ok (.refl settled)
  | some r =>
    have holding := settled.hold found
    have ranged := holding.ranged
    have scheduled := settled.scheduled t r found
    refine Yields.ite (fun failsafe => Yields.ok ?_)
      (fun free => Yields.ite (fun _ => Yields.ok (.refl settled)) (fun _ => ?_))
    · refine passes_touch settled found rfl { ranged with computation := ?_ }
        { holding.placed with } (scheduled.of_band rfl) ⟨rfl, rfl, .inl rfl⟩
      rintro (realtime | ⟨-, saved⟩)
      · exact ranged.computation (.inl realtime)
      · contradiction
    · have changed : Holding s { r with
          info.realtime := false
          info.timeshare := timeshare
          info.remainingQuantum := s.quantumTicks } (isWaiting r) := by
        refine holding.touch rfl { ranged with computation := ?_, failsafe := ?_ }
          { holding.placed with keyed := nofun }
        · rintro (realtime | saved)
          · contradiction
          · exact ranged.computation (.inr saved)
        · exact fun failsafe => absurd failsafe free
      refine (retune_yields settled found changed scheduled.depressed
        ⟨rfl, rfl, .inr holding.configured.quantum⟩).bind ?_
      rintro ⟨s', r'⟩ passes
      exact Yields.ok passes

theorem setLegacyPolicy_yields (settled : s.Settled) (t : XnuThreadId) (timeshare : Bool)
    (taskPriority priority : Int) :
    Yields (s.setLegacyPolicy t timeshare taskPriority priority) fun (s', _) => Passes s s' := by
  unfold setLegacyPolicy
  cases found : s.threads.lookup t with
  | none => exact Yields.ok (.refl settled)
  | some r =>
    refine Yields.ite (fun _ => Yields.ok (.refl settled)) (fun _ => ?_)
    refine (setTimeshare_yields settled t timeshare).bind ?_
    rintro ⟨s₁, applied⟩ passes
    refine Yields.ite (fun _ => ?_) (fun _ => Yields.ok passes)
    refine (setPrecedence_yields passes.settled t taskPriority _).mono ?_
    rintro ⟨s', _⟩ rest
    exact passes.trans rest

theorem setRequestedQos_yields (settled : s.Settled) (t : XnuThreadId)
    (policy : XnuThreadQosPolicy) :
    Yields (s.setRequestedQos t policy) fun (s', _) => Passes s s' := by
  unfold setRequestedQos
  cases found : s.threads.lookup t with
  | none => exact Yields.ok (.refl settled)
  | some r =>
    have holding := settled.hold found
    have ranged := holding.ranged
    refine Yields.ite (fun _ => Yields.ok (.refl settled)) (fun accepted => ?_)
    have valid : policy.valid = true := by simpa using accepted
    dsimp only
    generalize chosen : (if policy.tier = .unspecified then r.legacyBasePriority
      else policy.priority) = priority
    have range : 0 ≤ priority ∧ priority ≤ maximumPriority := by
      rw [← chosen]
      split
      · exact ranged.legacy
      · have := XnuThreadQosPolicy.priority_range valid
        simp only [maximumPriority]
        omega
    by_cases failsafe : r.info.failsafe = true
    · rw [if_pos failsafe]
      have changed : Holding s { r with
          info.requestedQos := policy, failsafeSavedBasePriority := priority } (isWaiting r) :=
        holding.touch rfl { ranged with saved := range, qos := valid } { holding.placed with }
      refine (retune_yields settled found changed (settled.scheduled t r found).depressed
        ⟨rfl, rfl, .inl rfl⟩).bind ?_
      rintro ⟨s', r'⟩ passes
      exact Yields.ok passes
    · rw [if_neg failsafe]
      have changed : Holding s { r with
          info.requestedQos := policy, info.basePriority := priority } (isWaiting r) :=
        holding.touch rfl { ranged with base := range, qos := valid } { holding.placed with }
      refine (retune_yields settled found changed (settled.scheduled t r found).depressed
        ⟨rfl, rfl, .inl rfl⟩).bind ?_
      rintro ⟨s', r'⟩ passes
      exact Yields.ok passes

theorem adoptTaskQos_yields (settled : s.Settled) (policy : XnuTaskQosPolicy)
    (known : (s.threads.lookup t).isSome) : Yields (adoptTaskQos policy s t) (Passes s) := by
  unfold adoptTaskQos
  obtain ⟨r, found⟩ := Option.isSome_iff_exists.mp known
  have holding := settled.hold found
  have changed : Holding s { r with taskQos := policy } (isWaiting r) :=
    holding.touch rfl { holding.ranged with } { holding.placed with }
  simp only [found]
  refine (retune_yields settled found changed (settled.scheduled t r found).depressed
    ⟨rfl, rfl, .inl rfl⟩).bind ?_
  rintro ⟨s', r'⟩ passes
  exact Yields.ok passes

theorem iterationOrder_perm (order owned : List XnuThreadId) :
    (iterationOrder order owned).Perm owned := by
  unfold iterationOrder
  split
  · exact List.isPerm_iff.mp ‹_›
  · rfl

theorem Drifts.known (drifts : Drifts s s') (known : (s.threads.lookup t).isSome) :
    (s'.threads.lookup t).isSome := by
  obtain ⟨r, found⟩ := Option.isSome_iff_exists.mp known
  obtain ⟨r', found', -⟩ := drifts.found found
  rw [found']
  rfl

theorem setTaskQosPolicy_yields (settled : s.Settled) (process : Nat) (policy : XnuTaskQosPolicy)
    (order : List XnuThreadId) :
    Yields (s.setTaskQosPolicy process policy order) (Passes s) := by
  unfold setTaskQosPolicy
  refine Yields.ite (fun _ => Yields.ok (.refl settled)) (fun _ => ?_)
  have recorded : Passes s
      { s with taskQosPolicies := s.taskQosPolicies.insert process policy } :=
    ⟨settled.aside rfl rfl rfl rfl rfl { settled.balanced.configured with },
      Evolves.refl (fun _ => Drift.refl) s, ⟨fun _ => rfl, rfl, rfl⟩⟩
  dsimp only
  cases owns : s.processThreads.lookup process with
  | none => exact Yields.ok recorded
  | some owned =>
    refine Yields.foldlM recorded fun s₁ t member passes => ?_
    have known : (s.threads.lookup t).isSome :=
      (((settled.balanced.owners.owned process owned owns).2.2 t).mp
        ((iterationOrder_perm order owned).mem_iff.mp member)).2
    exact (adoptTaskQos_yields passes.settled policy (passes.drifts.known known)).mono
      fun s₂ rest => passes.trans rest

theorem setQosOverridePriority_yields (settled : s.Settled) (t : XnuThreadId)
    (priority : Option Int) :
    Yields (s.setQosOverridePriority t priority) fun (s', _) => Passes s s' := by
  unfold setQosOverridePriority
  cases found : s.threads.lookup t with
  | none => exact Yields.ok (.refl settled)
  | some r =>
    have holding := settled.hold found
    dsimp only
    generalize (priority.map fun value => max minimumPriority (min value maximumUserPriority)) =
      donation
    refine Yields.ite (fun _ => Yields.ok (.refl settled)) (fun _ => ?_)
    have changed : Holding s { r with info.qosOverridePriority := donation } (isWaiting r) :=
      holding.touch rfl { holding.ranged with } { holding.placed with }
    refine (retune_yields settled found changed (settled.scheduled t r found).depressed
      ⟨rfl, rfl, .inl rfl⟩).bind ?_
    rintro ⟨s', r'⟩ passes
    exact Yields.ok passes

/-- A record taken off its queue for a change is queued again if it was queued. -/
theorem requeued_yields {s₁ : XnuScheduler} {r₁ : ThreadRecord} (settled : s.Settled)
    (found : s.threads.lookup t = some r) (holding : Holding s₁ r₁ (isWaiting r))
    (frame : Frame s s₁) (id : r₁.id = r.id) (scheduled : r₁.Scheduled)
    (life : r₁.life = { r.life with queued := false })
    (quantum : r₁.info.remainingQuantum = r.info.remainingQuantum ∨ 0 < r₁.info.remainingQuantum) :
    Yields (s₁.requeue r₁ r.queued) fun (s', r') => Passes s (s'.store r') := by
  have idle : r₁.queued = false := congrArg Life.queued life
  refine (requeue_yields holding idle scheduled r.queued).mono ?_
  rintro ⟨s', r'⟩ ⟨holding', frame', id', info, life'⟩
  refine passes_store settled found holding' (frame.trans frame') (scheduled.of_info info)
    ⟨id'.trans id, ?_, info ▸ quantum⟩
  rw [life', life]
  rfl

theorem bindThread_yields (settled : s.Settled) (t : XnuThreadId) (processor : Option Nat) :
    Yields (s.bindThread t processor) fun (s', _) => Passes s s' := by
  unfold bindThread
  refine Yields.ite (fun _ => Yields.ok (.refl settled)) (fun inside => ?_)
  cases found : s.threads.lookup t with
  | none => exact Yields.ok (.refl settled)
  | some r =>
    refine Yields.ite (fun _ => Yields.ok (.refl settled)) (fun _ => ?_)
    refine (removeFromQueue_yields (settled.hold found)).bind ?_
    rintro ⟨s₁, r₁⟩ ⟨holding₁, frame₁, rfl⟩
    have bound : ∀ p, processor = some p → p < s₁.processorRunQueues.length := by
      intro p same
      rw [frame₁.processors]
      by_contra outside
      exact inside ⟨p, same, Nat.le_of_not_lt outside⟩
    have changed : Holding s₁ { r with
        queued := false, queuedProcessor := none, realtimeQueueKey := none,
        info.boundProcessor := processor } (isWaiting r) :=
      holding₁.touch rfl { holding₁.ranged with bound := bound } (placed_of_idle rfl rfl rfl)
    refine (requeued_yields settled found changed frame₁ rfl
      ((settled.scheduled t r found).of_band rfl) rfl (.inl rfl)).bind ?_
    rintro ⟨s', r'⟩ passes
    exact Yields.ok passes

theorem indexDepression_frame (s : XnuScheduler) (r : ThreadRecord) :
    Frame s (s.indexDepression r) := by
  unfold indexDepression
  split
  · exact ⟨rfl, rfl, rfl, rfl, rfl⟩
  · exact Frame.refl s

/-- A depressed record drops to the lowest priority, for a time or until it is dispatched. -/
def depressed (r : ThreadRecord) (deadline : Option Nat) : ThreadRecord :=
  { r with
    info.depressed := true
    info.scheduledPriority := minimumPriority
    depressionDeadline := deadline }

theorem Holding.depress {counted : Bool} (holding : Holding s r counted) (idle : r.queued = false)
    (awake : r.info.depressed = false) (deadline : Option Nat) :
    Holding (s.indexDepression (depressed r deadline)) (depressed r deadline) counted := by
  have ranged := holding.ranged
  obtain ⟨processor, key⟩ := holding.placed.idle idle
  have unindexed : r.depressionDeadline = none := by
    by_contra indexed
    have := ranged.deadline (Option.isSome_iff_ne_none.mpr indexed)
    rw [awake] at this
    contradiction
  have lowest : 0 ≤ minimumPriority ∧ minimumPriority ≤ maximumPriority := by decide
  have low : (depressed r deadline).Ranged s.processorRunQueues.length :=
    { ranged with scheduled := lowest, deadline := fun _ => rfl }
  have placed : (depressed r deadline).Placed := placed_of_idle idle processor key
  unfold indexDepression
  cases deadline with
  | none =>
    refine holding.touch ?_ low placed
    simp only [ThreadRecord.books, depressed, unindexed]
    rfl
  | some deadline =>
    refine holding.reindex rfl low placed (holding.failsafes_kept rfl) fun deadline' t => ?_
    refine mem_insert_entry fun n => ?_
    change toLex (n, r.id) ∉ s.depressionOrder
    rw [holding.depression_entry, unindexed]
    simp

theorem depress_yields (settled : s.Settled) (t : XnuThreadId) (duration : Nat) :
    Yields (s.depress t duration) fun (s', _) => Passes s s' := by
  unfold depress
  cases found : s.threads.lookup t with
  | none => exact Yields.ok (.refl settled)
  | some r =>
    refine Yields.ite (fun _ => Yields.ok (.refl settled)) (fun awake => ?_)
    have awake : r.info.depressed = false := by simpa using awake
    refine (removeFromQueue_yields (settled.hold found)).bind ?_
    rintro ⟨s₁, r₁⟩ ⟨holding₁, frame₁, rfl⟩
    have low : ThreadRecord.Scheduled (depressed
        { r with queued := false, queuedProcessor := none, realtimeQueueKey := none }
        (if duration ≠ 0 then some (saturatingAdd s₁.elapsedTicks duration) else none)) :=
      ⟨fun _ => rfl, nofun, nofun⟩
    have indexed := holding₁.depress rfl awake
      (if duration ≠ 0 then some (saturatingAdd s₁.elapsedTicks duration) else none)
    have frame := frame₁.trans (indexDepression_frame s₁ (depressed
        { r with queued := false, queuedProcessor := none, realtimeQueueKey := none }
        (if duration ≠ 0 then some (saturatingAdd s₁.elapsedTicks duration) else none)))
    have requeued := requeued_yields settled found indexed frame rfl low rfl (.inl rfl)
    by_cases timed : duration ≠ 0
    · simp only [if_pos timed] at requeued ⊢
      refine requeued.bind ?_
      rintro ⟨s', r'⟩ passes
      exact Yields.ok passes
    · simp only [if_neg timed] at requeued ⊢
      refine requeued.bind ?_
      rintro ⟨s', r'⟩ passes
      exact Yields.ok passes

/-- A demoted record is below the realtime band and has no key. -/
theorem no_key_of_failsafe {n : Nat} (ranged : r.Ranged n) (placed : r.Placed)
    (scheduled : r.Scheduled) (failsafe : r.info.failsafe = true) : r.realtimeQueueKey = none := by
  cases key : r.realtimeQueueKey with
  | none => rfl
  | some k =>
    obtain ⟨-, band⟩ := placed.key k key
    have queued : r.queued = true := by
      by_contra idle
      have := (placed.idle (by simpa using idle)).2
      rw [key] at this
      contradiction
    obtain ⟨ordinary, timeshare⟩ := ranged.failsafe failsafe
    rw [placed.priority queued] at band
    cases depressed : r.info.depressed with
    | true =>
      rw [scheduled.depressed depressed] at band
      contradiction
    | false =>
      have below := scheduled.timeshare depressed ordinary timeshare
      rw [band] at below
      contradiction

theorem setRealtime_yields (settled : s.Settled) (t : XnuThreadId)
    (period computation constraint : Nat) (preemptible : Bool) :
    Yields (s.setRealtime t period computation constraint preemptible) fun (s', applied) =>
      Passes s s' ∧ (applied = true → (s.threads.lookup t).isSome = true) := by
  unfold setRealtime
  refine Yields.ite (fun _ => Yields.ok ⟨.refl settled, nofun⟩) (fun accepted => ?_)
  have positive : 0 < computation := by
    have least := settled.balanced.configured.computation
    omega
  cases found : s.threads.lookup t with
  | none => exact Yields.ok ⟨.refl settled, nofun⟩
  | some r =>
    have holding := settled.hold found
    have scheduled := settled.scheduled t r found
    have ranged := holding.ranged
    refine Yields.ite (fun failsafe => Yields.ok ⟨?_, fun _ => rfl⟩) (fun free => ?_)
    · refine passes_touch settled found rfl { ranged with computation := fun _ => positive } ?_
        (scheduled.of_band rfl) ⟨rfl, rfl, .inl rfl⟩
      have keyless := no_key_of_failsafe ranged holding.placed scheduled failsafe
      refine { holding.placed with keyed := ?_, key := ?_ }
      · intro _ realtime
        have ordinary := (ranged.failsafe failsafe).1
        rw [show r.info.realtime = true from realtime] at ordinary
        contradiction
      · intro k key
        rw [show r.realtimeQueueKey = some k from key] at keyless
        contradiction
    · refine (removeFromQueue_yields holding).bind ?_
      rintro ⟨s₁, r₁⟩ ⟨holding₁, frame₁, rfl⟩
      have changed : Holding s₁ { r with
          queued := false, queuedProcessor := none, realtimeQueueKey := none
          info := { r.info with
            timeshare := false
            realtime := true
            remainingQuantum := computation
            realtimePreemptible := preemptible
            realtimePeriod := period
            realtimeComputation := computation
            realtimeConstraint := constraint
            realtimeDeadline := saturatingAdd s.realtimeClockTicks constraint } }
          (isWaiting r) :=
        holding₁.touch rfl { holding₁.ranged with
          computation := fun _ => positive
          failsafe := fun failsafe => absurd failsafe free } (placed_of_idle rfl rfl rfl)
      refine (recomputePriority_yields changed scheduled.depressed).bind ?_
      rintro ⟨s₂, r₂⟩ ⟨holding₂, frame₂, id₂, scheduled₂, life₂, info₂⟩
      have filled : 0 < r₂.info.remainingQuantum := by
        rw [info₂]
        exact positive
      refine (requeued_yields settled found holding₂ (frame₁.trans frame₂) id₂ scheduled₂ life₂
        (.inr filled)).bind ?_
      rintro ⟨s', r'⟩ passes
      exact Yields.ok ⟨passes, fun _ => rfl⟩

theorem setRealtimePolicy_yields (settled : s.Settled) (t : XnuThreadId)
    (policy : XnuRealtimePolicy) :
    Yields (s.setRealtimePolicy t policy) fun (s', _) => Passes s s' := by
  unfold setRealtimePolicy
  refine Yields.ite (fun _ => Yields.ok (.refl settled)) (fun _ => ?_)
  refine (setRealtime_yields settled t _ _ _ _).bind ?_
  rintro ⟨s₁, applied⟩ ⟨passes, known⟩
  refine Yields.ite (fun done => ?_) (fun _ => Yields.ok passes)
  obtain ⟨r, found⟩ := Option.isSome_iff_exists.mp (passes.drifts.known (known done))
  have holding := passes.settled.hold found
  simp only [found]
  exact Yields.ok (passes.trans (passes_touch passes.settled found rfl { holding.ranged with }
    { holding.placed with } ((passes.settled.scheduled t r found).of_band rfl)
    ⟨rfl, rfl, .inl rfl⟩))

end
end XnuScheduler
end ILEmu
