import ILEmu.Scheduler.Settled

/-! Time passes: depressions expire, failsafes are released and usage decays,
and no thread's life takes a step. -/
namespace ILEmu
open Foundation Xnu.Scheduler
namespace XnuScheduler
section
variable {s s' : XnuScheduler} {r r' : ThreadRecord} {counted : Bool}

theorem exists_usage (holding : Holding s r counted) (i : Nat) (t : XnuThreadId) :
    s.usageRecords[i]? = some t ↔ t = r.id ∧ r.usageIndex = some i ∨
      t ≠ r.id ∧ ∃ r₀, s.threads.lookup t = some r₀ ∧ r₀.usageIndex = some i := by
  rw [← exists_store s r (fun r => r.usageIndex = some i)]
  exact holding.balanced.indexes.usage i t

/-- Only the place of the record in hand in the usage index changes. -/
theorem Holding.reindexUsage (holding : Holding s r counted) {usage : List XnuThreadId}
    {index : Option Nat}
    (placed : ∀ (i : Nat) t, usage[i]? = some t ↔ t = r.id ∧ index = some i ∨
      t ≠ r.id ∧ ∃ r₀, s.threads.lookup t = some r₀ ∧ r₀.usageIndex = some i) :
    Holding { s with usageRecords := usage } { r with usageIndex := index } counted := by
  refine holding.step rfl rfl rfl (holding.balanced.congr rfl ?_ (fun _ here => here) ?_
    { holding.configured with })
  · exact alike_store unindexed rfl rfl rfl
  · intro i t
    rw [exists_store _ _ (fun r => r.usageIndex = some i)]
    exact placed i t

theorem Holding.trackUsage (holding : Holding s r counted) :
    Holding (s.trackUsage r).1 (s.trackUsage r).2 counted ∧ Frame s (s.trackUsage r).1 ∧
      ∃ index, (s.trackUsage r).2 = { r with usageIndex := index } := by
  unfold XnuScheduler.trackUsage
  split
  · exact ⟨holding, Frame.refl s, _, rfl⟩
  · rename_i untracked
    have untracked : r.usageIndex = none := by simpa using untracked
    refine ⟨holding.reindexUsage ?_, ⟨rfl, rfl, rfl, rfl, rfl⟩, _, rfl⟩
    intro i t
    have before := exists_usage holding i t
    simp only [untracked, reduceCtorEq, and_false, false_or] at before
    rw [← before, List.getElem?_append]
    by_cases inside : i < s.usageRecords.length
    · rw [if_pos inside]
      constructor
      · intro here
        exact .inr here
      · rintro (⟨-, last⟩ | here)
        · exact absurd (Option.some.inj last) (by omega)
        · exact here
    · have outside : s.usageRecords[i]? = none := List.getElem?_eq_none (by omega)
      rw [if_neg inside, outside, List.getElem?_singleton]
      simp only [Option.some.injEq, reduceCtorEq, or_false, Option.ite_none_right_eq_some]
      constructor
      · rintro ⟨zero, rfl⟩
        exact ⟨rfl, by omega⟩
      · rintro ⟨rfl, last⟩
        exact ⟨by omega, rfl⟩

/-- A swap-remove moves the last entry into the hole. -/
theorem getElem?_swapRemove {α : Type*} {l : List α} {last : α} {index : Nat}
    (inside : index < l.length) (i : Nat) :
    ((l.set index last).dropLast)[i]? =
      if i < l.length - 1 then if i = index then some last else l[i]? else none := by
  rw [List.getElem?_dropLast, List.length_set, List.getElem?_set]
  by_cases same : i = index
  · subst i
    simp [inside]
  · simp [same, Ne.symm same]

theorem Holding.untrackUsage (holding : Holding s r counted) :
    Yields (s.untrackUsage r) fun (s', r') =>
      Holding s' r' counted ∧ r' = { r with usageIndex := none } ∧
        ∃ usage threads, s' = { s with usageRecords := usage, threads := threads } ∧
          Table.Alike unindexed s.threads threads := by
  have placed := exists_usage holding
  unfold XnuScheduler.untrackUsage
  cases tracked : r.usageIndex with
  | none =>
    have same : r = { r with usageIndex := none } := by rw [← tracked]
    exact Yields.ok ⟨holding, same, s.usageRecords, s.threads, rfl, .refl _ _⟩
  | some index =>
    have mine : s.usageRecords[index]? = some r.id := (placed index r.id).mpr (.inl ⟨rfl, tracked⟩)
    obtain ⟨inside, -⟩ := List.getElem?_eq_some_iff.mp mine
    have own : ∀ i, s.usageRecords[i]? = some r.id → i = index := by
      intro i here
      rcases (placed i r.id).mp here with ⟨-, same⟩ | ⟨other, -⟩
      · rw [tracked] at same
        exact (Option.some.inj same).symm
      · exact absurd rfl other
    dsimp only
    rw [List.getLast?_eq_getElem?]
    cases final : s.usageRecords[s.usageRecords.length - 1]? with
    | none =>
      rw [List.getElem?_eq_none_iff] at final
      omega
    | some last =>
      dsimp only
      refine Yields.ite (fun same => ?_) (fun other => ?_)
      · -- the record is the last entry, and nothing moves
        subst last
        have here := own _ final
        refine Yields.ok ⟨holding.reindexUsage ?_, rfl, _, s.threads, rfl, .refl _ _⟩
        intro i t
        rw [getElem?_swapRemove inside]
        by_cases below : i < s.usageRecords.length - 1
        · rw [if_pos below, if_neg (by omega), placed, tracked]
          simp only [Option.some.injEq, reduceCtorEq, and_false, false_or]
          constructor
          · rintro (⟨-, same⟩ | kept)
            · omega
            · exact kept
          · exact .inr
        · rw [if_neg below]
          simp only [reduceCtorEq, and_false, false_or, false_iff]
          intro kept
          have listed := (placed i t).mpr (.inr kept)
          obtain ⟨bound, value⟩ := List.getElem?_eq_some_iff.mp listed
          have : i = s.usageRecords.length - 1 := by omega
          rw [this, final] at listed
          exact kept.1 (Option.some.inj listed).symm
      · rcases (placed _ last).mp final with ⟨same, -⟩ | ⟨-, moved, found, there⟩
        · exact absurd same other
        simp only [found]
        have bare : Table.Alike unindexed s.threads
            (s.threads.insert last { moved with usageIndex := some index }) := by
          intro u
          rw [Table.lookup_insert_eq]
          split
          · rename_i same
            rw [same, found]
            rfl
          · rfl
        refine Yields.ok ⟨⟨?_, ?_, ?_⟩, rfl, _, _, rfl, bare⟩
        · have same : unindexed r = unindexed { r with usageIndex := none } := rfl
          refine holding.balanced.congr rfl (bare.insert same _) (fun _ here => here) ?_
            { holding.configured with }
          intro i t
          rw [exists_store _ _ (fun r => r.usageIndex = some i)]
          change ((s.usageRecords.set index last).dropLast)[i]? = some t ↔ _
          rw [getElem?_swapRemove inside]
          simp only [reduceCtorEq, and_false, false_or, Table.lookup_insert_eq]
          have hole : index ≠ s.usageRecords.length - 1 := by
            intro same
            rw [same, final] at mine
            exact other (Option.some.inj mine)
          by_cases below : i < s.usageRecords.length - 1
          · rw [if_pos below]
            by_cases atHole : i = index
            · subst i
              rw [if_pos rfl]
              constructor
              · rintro same
                obtain rfl := Option.some.inj same
                exact ⟨other, _, if_pos rfl, rfl⟩
              · rintro ⟨notMine, r₀, found', here⟩
                by_cases same : t = last
                · rw [same]
                · rw [if_neg same] at found'
                  have := (placed index t).mpr (.inr ⟨notMine, r₀, found', here⟩)
                  rw [mine] at this
                  exact absurd (Option.some.inj this).symm notMine
            · rw [if_neg atHole, placed]
              constructor
              · rintro (⟨-, same⟩ | ⟨notMine, r₀, found', here⟩)
                · rw [tracked] at same
                  exact absurd (Option.some.inj same).symm atHole
                · refine ⟨notMine, r₀, ?_, here⟩
                  by_cases same : t = last
                  · subst t
                    rw [found] at found'
                    obtain rfl := Option.some.inj found'
                    rw [there] at here
                    exact absurd (Option.some.inj here) (by omega)
                  · rw [if_neg same]
                    exact found'
              · rintro ⟨notMine, r₀, found', here⟩
                refine .inr ⟨notMine, ?_⟩
                by_cases same : t = last
                · rw [if_pos same] at found'
                  obtain rfl := Option.some.inj found'
                  exact absurd (Option.some.inj here).symm atHole
                · rw [if_neg same] at found'
                  exact ⟨r₀, found', here⟩
          · rw [if_neg below]
            simp only [reduceCtorEq, false_iff]
            rintro ⟨notMine, r₀, found', here⟩
            by_cases same : t = last
            · rw [if_pos same] at found'
              obtain rfl := Option.some.inj found'
              have := Option.some.inj here
              omega
            · rw [if_neg same] at found'
              have listed := (placed i t).mpr (.inr ⟨notMine, r₀, found', here⟩)
              obtain ⟨bound, -⟩ := List.getElem?_eq_some_iff.mp listed
              have : i = s.usageRecords.length - 1 := by omega
              rw [this, final] at listed
              exact same (Option.some.inj listed).symm
        · intro t r₀ notMine found'
          obtain ⟨r₁, found₁, same⟩ := bare.symm.forward found'
          have info : r₀.info = r₁.info := (congrArg ThreadRecord.info same).symm
          exact (holding.scheduled t r₁ notMine found₁).of_info info
        · refine holding.waiting.trans ?_
          congr 1
          exact (bare.erase r.id).tally isWaiting

/-- Expiry leaves a settled scheduler however far it gets. -/
theorem expireDepressionsLoop_yields (fuel : Nat) (settled : s.Settled) :
    Yields (s.expireDepressionsLoop fuel) (Passes s) := by
  induction fuel generalizing s with
  | zero => exact Yields.ok (.refl settled)
  | succ fuel ih =>
    unfold expireDepressionsLoop
    cases found : first s.depressionOrder with
    | none => exact Yields.ok (.refl settled)
    | some entry =>
      obtain ⟨⟨due, t⟩, rfl⟩ : ∃ pair, entry = toLex pair := ⟨ofLex entry, rfl⟩
      simp only [ofLex_toLex]
      refine Yields.ite (fun _ => ?_) (fun _ => Yields.ok (.refl settled))
      obtain ⟨r, known, deadline⟩ :=
        (settled.balanced.indexes.depression due t).mp (first_some found).1
      have depressed := (settled.balanced.ranged _ r known).deadline (by simp [deadline])
      simp only [known, depressed, deadline, and_self, if_true]
      have scheduled := settled.scheduled _ r known
      refine (restoreDepression_yields (settled.hold known) scheduled).bind ?_
      rintro ⟨s₁, r₁⟩ ⟨holding, frame, scheduled₁, drift⟩
      have passes := passes_store settled known holding frame scheduled₁ drift
      exact (ih passes.settled).mono fun s' rest => passes.trans rest

theorem releaseFailsafesLoop_yields (fuel : Nat) (settled : s.Settled) :
    Yields (s.releaseFailsafesLoop fuel) (Passes s) := by
  induction fuel generalizing s with
  | zero => exact Yields.ok (.refl settled)
  | succ fuel ih =>
    unfold releaseFailsafesLoop
    cases found : first s.failsafeOrder with
    | none => exact Yields.ok (.refl settled)
    | some entry =>
      obtain ⟨⟨due, t⟩, rfl⟩ : ∃ pair, entry = toLex pair := ⟨ofLex entry, rfl⟩
      simp only [ofLex_toLex]
      refine Yields.ite (fun _ => ?_) (fun _ => Yields.ok (.refl settled))
      obtain ⟨r, known, indexed⟩ :=
        (settled.balanced.indexes.failsafe due t).mp (first_some found).1
      simp only [ThreadRecord.failsafeEntry, Option.ite_none_right_eq_some, Option.some.injEq]
        at indexed
      simp only [known, indexed, and_self, if_true]
      have scheduled := settled.scheduled _ r known
      refine (releaseFailsafe_yields (settled.hold known) scheduled).bind ?_
      rintro ⟨s₁, r₁⟩ ⟨holding, frame, scheduled₁, drift⟩
      have passes := passes_store settled known holding frame scheduled₁ drift
      exact (ih passes.settled).mono fun s' rest => passes.trans rest

theorem ageRecord_yields (holding : Holding s r counted) (scheduled : r.Scheduled) (ticks : Nat) :
    Yields (s.ageRecord r ticks) fun (s', r') =>
      Holding s' r' counted ∧ Frame s s' ∧ r'.Scheduled ∧ Drift r r' := by
  have ranged := holding.ranged
  have placed := holding.placed
  have aged : Holding s { r with
      priorityUsageShift := s.processorSetPriorityShift r
      info.schedulingUsage := decayUsage r.info.schedulingUsage ticks
      info.cpuUsage := decayUsage r.info.cpuUsage ticks
      info.schedulerStamp := s.schedulerTick } counted :=
    holding.touch rfl { ranged with } { placed with }
  refine (recomputePriority_yields aged scheduled.depressed).mono ?_
  rintro ⟨s', r'⟩ ⟨holding', frame, id, scheduled', life, info⟩
  exact ⟨holding', frame, scheduled', id, life, .inl (by rw [info])⟩

/-- Records that differ in their place in the usage index live alike. -/
theorem drift_of_unindexed (same : unindexed r' = unindexed r) : Drift r r' := by
  have info : (unindexed r').info = (unindexed r).info := by rw [same]
  have id : (unindexed r').id = (unindexed r).id := by rw [same]
  have life : (unindexed r').life = (unindexed r).life := by rw [same]
  exact ⟨id, life, .inl (congrArg XnuThreadSchedulingInfo.remainingQuantum info)⟩

theorem drifts_of_alike (alike : Table.Alike unindexed s.threads s'.threads) : Drifts s s' := by
  intro t
  have here := alike t
  generalize s.threads.lookup t = x at here ⊢
  generalize s'.threads.lookup t = y at here ⊢
  cases x with
  | none =>
    obtain rfl := Option.map_eq_none_iff.mp here.symm
    exact .none
  | some r =>
    obtain ⟨r', rfl, same⟩ := Option.map_eq_some_iff.mp here.symm
    exact .some (drift_of_unindexed same)

theorem ageUsageLoop_yields (ticks fuel index : Nat) (settled : s.Settled) :
    Yields (ageUsageLoop ticks fuel index s) (Passes s) := by
  induction fuel generalizing s index with
  | zero => exact Yields.ok (.refl settled)
  | succ fuel ih =>
    unfold ageUsageLoop
    cases found : s.usageRecords[index]? with
    | none => exact Yields.ok (.refl settled)
    | some t =>
      obtain ⟨r, known, -⟩ := (settled.balanced.indexes.usage index t).mp found
      have scheduled := settled.scheduled t r known
      simp only [known]
      refine (ageRecord_yields (settled.hold known) scheduled ticks).bind ?_
      rintro ⟨s₁, r₁⟩ ⟨holding, frame, scheduled₁, drift⟩
      refine Yields.ite (fun _ => ?_) (fun _ => ?_)
      · refine holding.untrackUsage.bind ?_
        rintro ⟨s₂, r₂⟩ ⟨holding₂, rfl, usage, threads, rfl, alike⟩
        have passes := passes_store settled known holding frame scheduled₁ drift
        have same : unindexed r₁ = unindexed { r₁ with usageIndex := none } := rfl
        have kept : Drift r { r₁ with usageIndex := none } := { drift with }
        have untracked : Passes (s₁.store r₁) (XnuScheduler.store
            { s₁ with usageRecords := usage, threads := threads } { r₁ with usageIndex := none }) :=
          ⟨((Drift.waiting kept).symm ▸ holding₂).settle (scheduled₁.of_info rfl),
            drifts_of_alike (alike.insert same r₁.id), ⟨fun _ => rfl, rfl, rfl⟩⟩
        have passes := passes.trans untracked
        exact (ih _ passes.settled).mono fun s' rest => passes.trans rest
      · have passes := passes_store settled known holding frame scheduled₁ drift
        exact (ih _ passes.settled).mono fun s' rest => passes.trans rest

/-- Only clocks change. -/
theorem Settled.clocks (settled : s.Settled) (elapsed since realtime tick : Nat) (external : Bool) :
    Passes s { s with
      elapsedTicks := elapsed
      elapsedSinceSchedulerTick := since
      realtimeClockTicks := realtime
      schedulerTick := tick
      externalRealtimeClock := external } :=
  ⟨settled.aside rfl rfl rfl rfl rfl { settled.balanced.configured with },
    Evolves.refl (fun _ => Drift.refl) s, ⟨fun _ => rfl, rfl, rfl⟩⟩

theorem advanceSchedulerTime_yields (settled : s.Settled) (ticks : Nat) :
    Yields (s.advanceSchedulerTime ticks) (Passes s) := by
  unfold advanceSchedulerTime
  dsimp only
  generalize saturatingAdd s.elapsedTicks ticks = elapsed
  have started : Passes s (if s.externalRealtimeClock then { s with elapsedTicks := elapsed }
      else { s with elapsedTicks := elapsed, realtimeClockTicks := elapsed }) := by
    split
    · exact settled.clocks elapsed _ _ _ _
    · exact settled.clocks elapsed _ elapsed _ _
  refine (expireDepressionsLoop_yields _ started.settled).bind fun s₁ expired => ?_
  have expired := started.trans expired
  refine Yields.ite (fun _ => Yields.ok ?_) (fun _ => ?_)
  · exact expired.trans (expired.settled.clocks _ _ _ _ _)
  · have ticked := expired.trans (expired.settled.clocks s₁.elapsedTicks
      (saturatingAdd s₁.elapsedSinceSchedulerTick ticks % s₁.schedulerTickTicks)
      s₁.realtimeClockTicks
      (saturatingAdd s₁.schedulerTick
        (saturatingAdd s₁.elapsedSinceSchedulerTick ticks / s₁.schedulerTickTicks))
      s₁.externalRealtimeClock)
    refine (releaseFailsafesLoop_yields _ ticked.settled).bind fun s₂ released => ?_
    have released := ticked.trans released
    exact (ageUsageLoop_yields _ _ _ released.settled).mono fun s' rest => released.trans rest

theorem accountTime_yields (settled : s.Settled) (ticks : Nat) (accounting : XnuTimeAccounting) :
    Yields (s.accountTime ticks accounting) (Passes s) := by
  cases accounting with
  | advance => exact advanceSchedulerTime_yields settled ticks
  | deferred => exact Yields.ok (.refl settled)

theorem synchronizeTime_yields (settled : s.Settled) (ticks : Nat) :
    Yields (s.synchronizeTime ticks) (Passes s) := by
  unfold synchronizeTime
  exact Yields.ite (fun _ => Yields.ok (.refl settled))
    (fun _ => advanceSchedulerTime_yields settled _)

end
end XnuScheduler
end ILEmu
