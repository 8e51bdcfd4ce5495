import ILEmu.Scheduler.Steps

/-! The choice of the next thread, in every reachable state: when it falls on the
thread it should, and when it is thrown off by the realtime index. -/
namespace ILEmu
open Foundation Xnu.Scheduler
namespace XnuScheduler

/-- The answer of a choice that has no thread to prefer: nothing when the processor can
run nobody, and otherwise the most urgent thread that it can run. -/
inductive Answers (s : XnuScheduler) (processor : Nat) :
    Checked (XnuScheduler × Option XnuScheduledSlice) → Prop where
  | nobody {s' : XnuScheduler} (nobody : ∀ r, ¬s.Eligible processor r) :
      Answers s processor (.ok (s', none))
  | slice {s' : XnuScheduler} {slice : XnuScheduledSlice} (r : ThreadRecord)
      (eligible : s.Eligible processor r) (thread : slice.thread = r.id)
      (highest : ∀ r', s.Eligible processor r' →
        r'.info.scheduledPriority ≤ r.info.scheduledPriority)
      (earliest : realtimeQueuePriority ≤ r.info.scheduledPriority →
        r.info.realtime = true ∧ ∀ r', s.Eligible processor r' → r'.info.realtime = true →
          r'.info.scheduledPriority = r.info.scheduledPriority →
            r.info.realtimeDeadline ≤ r'.info.realtimeDeadline) :
      Answers s processor (.ok (s', some slice))

/-- The deadline indexes of the two queues of a processor can be relied on. -/
structure DeadlinesIndexed (s : XnuScheduler) (processor : Nat) : Prop where
  /-- A highest bucket in the realtime band has a thread that is indexed. -/
  indexed : ∀ place, place = none ∨ place = some processor → ∀ r, s.QueuedAt place r →
    realtimeQueuePriority ≤ r.queuedPriority →
    (∀ r', s.QueuedAt place r' → r'.queuedPriority ≤ r.queuedPriority) →
      ∃ r', s.QueuedAt place r' ∧ r'.queuedPriority = r.queuedPriority ∧
        r'.realtimeQueueKey.isSome
  /-- A realtime thread of the earliest deadline is the first of its index: no thread that
  has left the realtime policy while it was queued is kept before it. -/
  led : ∀ r, s.Eligible processor r → realtimeQueuePriority ≤ r.info.scheduledPriority →
    ∃ r', s.Eligible processor r' ∧ s.Leads r'.queuedProcessor r' ∧ r'.info.realtime = true ∧
      ∀ r₁, s.Eligible processor r₁ → r₁.info.realtime = true →
        realtimeQueuePriority ≤ r₁.info.scheduledPriority →
          r'.info.realtimeDeadline ≤ r₁.info.realtimeDeadline

section
variable {s : XnuScheduler} {processor : Nat}

theorem Answers.returns {answer : Checked (XnuScheduler × Option XnuScheduledSlice)}
    (answers : s.Answers processor answer) : answer.toOption.isSome = true := by
  cases answers with
  | nobody _ => rfl
  | slice _ _ _ _ _ => rfl

theorem Unindexed.not_indexed {place : Option Nat} (unindexed : s.Unindexed place) :
    ∃ r, s.QueuedAt place r ∧ realtimeQueuePriority ≤ r.queuedPriority ∧
      (∀ r', s.QueuedAt place r' → r'.queuedPriority ≤ r.queuedPriority) ∧
      ¬∃ r', s.QueuedAt place r' ∧ r'.queuedPriority = r.queuedPriority ∧
        r'.realtimeQueueKey.isSome := by
  obtain ⟨r, here, band, top⟩ := unindexed
  refine ⟨r, here, band, fun r' here' => (top r' here').1, ?_⟩
  rintro ⟨r', here', same, keyed⟩
  rw [(top r' here').2 same] at keyed
  contradiction

theorem DeadlinesIndexed.clear (indexed : s.DeadlinesIndexed processor) :
    ¬s.Obstructed processor := by
  rintro ⟨place, mine, unindexed⟩
  obtain ⟨r, here, band, highest, none⟩ := unindexed.not_indexed
  exact none (indexed.indexed place mine r here band highest)

theorem indexed_of_clear (clear : ¬s.Obstructed processor) {place : Option Nat}
    (mine : place = none ∨ place = some processor) {r : ThreadRecord} (here : s.QueuedAt place r)
    (band : realtimeQueuePriority ≤ r.queuedPriority)
    (highest : ∀ r', s.QueuedAt place r' → r'.queuedPriority ≤ r.queuedPriority) :
    ∃ r', s.QueuedAt place r' ∧ r'.queuedPriority = r.queuedPriority ∧
      r'.realtimeQueueKey.isSome := by
  by_contra none
  apply clear
  refine ⟨place, mine, r, here, band, fun r' here' => ⟨highest r' here', fun same => ?_⟩⟩
  by_contra keyed
  exact none ⟨r', here', same, Option.isSome_iff_ne_none.mpr keyed⟩

theorem Best.answers {s' : XnuScheduler} {slice : XnuScheduledSlice} {r : ThreadRecord}
    (best : s.Best processor r) (thread : slice.thread = r.id)
    (indexed : s.DeadlinesIndexed processor) : s.Answers processor (.ok (s', some slice)) := by
  refine .slice r best.eligible thread best.highest fun band => ?_
  obtain ⟨r', eligible', leads', realtime', earliest⟩ := indexed.led r best.eligible band
  obtain ⟨realtime, before⟩ := best.urgent band r' eligible' leads' realtime'
  refine ⟨realtime, fun r₁ eligible₁ realtime₁ same => ?_⟩
  exact Nat.le_trans before (earliest r₁ eligible₁ realtime₁ (same ▸ band))

theorem Best.led {s' : XnuScheduler} {slice : XnuScheduledSlice} {r : ThreadRecord}
    (balanced : s.Balanced) (best : s.Best processor r) (thread : slice.thread = r.id)
    (answers : s.Answers processor (.ok (s', some slice))) {r₀ : ThreadRecord}
    (eligible : s.Eligible processor r₀)
    (band : realtimeQueuePriority ≤ r₀.info.scheduledPriority) :
    ∃ r', s.Eligible processor r' ∧ s.Leads r'.queuedProcessor r' ∧ r'.info.realtime = true ∧
      ∀ r₁, s.Eligible processor r₁ → r₁.info.realtime = true →
        realtimeQueuePriority ≤ r₁.info.scheduledPriority →
          r'.info.realtimeDeadline ≤ r₁.info.realtimeDeadline := by
  cases answers with
  | slice r' eligible' thread' highest earliest =>
    have same : r = r' := by
      have found := best.eligible.found
      rw [thread.symm.trans thread'] at found
      exact Option.some.inj (found.symm.trans eligible'.found)
    subst same
    have high := Int.le_trans band (highest r₀ eligible)
    obtain ⟨realtime, before⟩ := earliest high
    have leads := best.leads high
    refine ⟨r, eligible', leads, realtime, fun r₁ eligible₁ realtime₁ band₁ => ?_⟩
    apply before r₁ eligible₁ realtime₁
    apply Int.le_antisymm (highest r₁ eligible₁)
    rw [leads.lowest balanced]
    exact band₁

/-- A choice answers as it should exactly if it can rely on the deadline indexes of the
two queues that it picks from. -/
theorem choice_answers_iff (reachable : s.Reachable)
    (inside : processor < s.processorRunQueues.length) :
    s.Answers processor (s.chooseNext processor none) ↔ s.DeadlinesIndexed processor := by
  have invariant := reachable.invariant
  have choice := chooseNext_choice invariant processor none
  generalize s.chooseNext processor none = answer at choice ⊢
  cases choice with
  | outside outside => exact absurd inside (Nat.not_lt.mpr outside)
  | nobody _ unguided _ =>
    obtain ⟨clear, nobody⟩ := unguided rfl
    constructor
    · intro _
      constructor
      · intro place mine r
        exact indexed_of_clear clear mine
      · intro r eligible
        exact absurd eligible (nobody r)
    · intro _
      exact .nobody nobody
  | slice r _ eligible unguided guided thread _ _ =>
    obtain ⟨clear, best⟩ := unguided rfl
    constructor
    · intro answers
      constructor
      · intro place mine r
        exact indexed_of_clear clear mine
      · intro r₀ eligible₀ band
        exact best.led invariant.settled.balanced thread answers eligible₀ band
    · intro indexed
      exact best.answers thread indexed
  | thrown _ _ obstructed =>
    constructor
    · intro answers
      exact absurd answers.returns nofun
    · intro indexed
      exact absurd obstructed indexed.clear

/-- A processor may run two realtime threads of different deadlines. -/
def deadlineHistory : List Operation :=
  [.registerThread ⟨1, 1⟩ 31 true, .setRealtime ⟨1, 1⟩ 0 40000 80000 true,
    .registerThread ⟨1, 2⟩ 31 true, .setRealtime ⟨1, 2⟩ 0 40000 60000 true]

theorem choice_answers_realtime :
    Answers (run after (initialState {}) deadlineHistory) 0
        (chooseNext (run after (initialState {}) deadlineHistory) 0 none) ↔
      DeadlinesIndexed (run after (initialState {}) deadlineHistory) 0 :=
  choice_answers_iff ⟨{}, _, deadlineHistory, rfl, rfl⟩ (by decide +kernel)

/-- A thread of a fixed priority in the realtime band is in no deadline index. -/
theorem choice_throws : ¬∀ s processor, Reachable s → processor < s.processorRunQueues.length →
    s.Answers processor (s.chooseNext processor none) := by
  intro answers
  have returns := (answers (run after (initialState {})
    [.registerThread ⟨1, 1⟩ 120 true, .setTimeshare ⟨1, 1⟩ false]) 0 ⟨{}, _, _, rfl, rfl⟩
    (by decide +kernel)).returns
  have throws : (chooseNext (run after (initialState {})
      [.registerThread ⟨1, 1⟩ 120 true, .setTimeshare ⟨1, 1⟩ false]) 0 none).toOption.isSome =
        false := by
    decide +kernel
  rw [throws] at returns
  contradiction

end
end XnuScheduler
end ILEmu
