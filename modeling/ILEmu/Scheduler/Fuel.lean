import ILEmu.Scheduler.Steps

/-! Every thread on a queue has quantum left, in runs in which no completed slice
leaves its thread on a queue with nothing. -/
namespace ILEmu
open Foundation Xnu.Scheduler
namespace XnuScheduler

/-- Whoever can be dispatched has quantum left, and every slice has ticks to run for. -/
structure Stocked (s : XnuScheduler) : Prop where
  queued : ∀ t r, s.threads.lookup t = some r → r.queued = true → 0 < r.info.remainingQuantum
  slices : ∀ processor preferred s' slice,
    s.chooseNext processor preferred = .ok (s', some slice) → 1 ≤ slice.tickBudget

/-- Every thread that is queued, or is to go on after a host wait, has quantum left. -/
structure Fuelled (s : XnuScheduler) : Prop where
  invariant : s.Invariant
  threads : ∀ t, s.FuelledAt t

section
variable {s : XnuScheduler}

theorem Fuelled.stocked (fuelled : s.Fuelled) : s.Stocked := by
  constructor
  · intro t r found queued
    exact fuelled.threads t r found (.inl queued)
  · intro processor preferred s' slice chosen
    have choice := chooseNext_choice fuelled.invariant processor preferred
    rw [chosen] at choice
    cases choice with
    | slice r inside eligible unguided guided thread budget proceeds =>
      exact budget (fuelled.threads r.id r eligible.found)

/-- An operation that feeds whom it completes keeps every thread fuelled. -/
theorem Fuelled.after (fuelled : s.Fuelled) {operation : Operation} (feeds : operation.Feeds s) :
    (s.after operation).Fuelled := by
  constructor
  · exact after_invariant fuelled.invariant operation
  · intro t
    exact (after_performs fuelled.invariant operation).fuelled feeds t (fuelled.threads t)

theorem construct_fuelled {config : SchedulerConfig} (built : construct config = .ok s) :
    s.Fuelled := by
  constructor
  · exact construct_invariant built
  · intro t r found
    rw [(construct_blank built).threads, AList.lookup_empty] at found
    contradiction

/-- In a run whose every completion feeds its thread, no thread is queued without
quantum and no slice is empty. -/
theorem run_stocked {config : SchedulerConfig} (built : construct config = .ok s)
    {operations : List Operation}
    (feeds : Along after (fun s operation => operation.Feeds s) s operations) :
    Throughout after Stocked s operations := by
  have fuelled := construct_fuelled built
  clear built
  induction operations generalizing s with
  | nil => exact fuelled.stocked
  | cons operation rest ih =>
    obtain ⟨first, later⟩ := feeds
    exact ⟨fuelled.stocked, ih later (fuelled.after first)⟩

/-- A thread is held and released while its slice is in flight. -/
def requeuedHistory : List Operation :=
  [.registerThread ⟨1, 1⟩ 31 true, .chooseNext 0 none, .suspendThread ⟨1, 1⟩ .user,
    .resumeThread ⟨1, 1⟩ .user]

/-- Its slice does not use up the quantum. -/
theorem run_stocked_requeued : Throughout after Stocked (initialState {})
    (requeuedHistory ++ [.completeSlice ⟨1, 1⟩ 5 .continue .advance]) := by
  have built : construct {} = .ok (initialState {}) := rfl
  have left : ((run after (initialState {}) requeuedHistory).threads.lookup ⟨1, 1⟩).map
      (fun r => decide (5 < r.info.remainingQuantum)) = some true := by
    decide +kernel
  have feeds : Operation.Feeds (run after (initialState {}) requeuedHistory)
      (.completeSlice ⟨1, 1⟩ 5 .continue .advance) := by
    intro r found _ _
    rw [found] at left
    exact .inr (.inr (of_decide_eq_true (Option.some.inj left)))
  exact run_stocked built ⟨trivial, trivial, trivial, trivial, feeds, trivial⟩

/-- Its slice uses up the quantum, and it is queued with nothing. -/
theorem queued_without_quantum : ¬∀ s, Reachable s → Stocked s := by
  intro stocked
  have fed := (stocked (run after (initialState {}) (requeuedHistory ++
    [.completeSlice ⟨1, 1⟩ standardQuantumTicks .continue .advance])) ⟨{}, _, _, rfl, rfl⟩).queued
      ⟨1, 1⟩
  have starved : ((run after (initialState {}) (requeuedHistory ++
      [.completeSlice ⟨1, 1⟩ standardQuantumTicks .continue .advance])).threads.lookup ⟨1, 1⟩).map
        (fun r => (r.queued, r.info.remainingQuantum)) = some (true, 0) := by
    decide +kernel
  obtain ⟨r, found, same⟩ := Option.map_eq_some_iff.mp starved
  obtain ⟨queued, quantum⟩ := Prod.mk.inj same
  have positive := fed r found queued
  rw [quantum] at positive
  contradiction

end
end XnuScheduler
end ILEmu
