import ILEmu.Scheduler.Credits

/-! The statistics of a task against everything that has been reported for its
threads: which runs they account for in full. -/
namespace ILEmu
open Foundation Xnu.Scheduler

namespace XnuScheduler
section
variable {s : XnuScheduler} {p : Nat}

/-- The loop over a task's threads adds up their ticks, if the sum fits. -/
theorem addLiveTicks_yields {threads : List XnuThreadId} {result : XnuTaskStatistics}
    (known : ∀ t ∈ threads, (s.lifeOf t).isSome)
    (fits : result.liveUserTicks + (threads.map s.ticksOf).sum ≤ uint64Max) :
    Yields (threads.foldlM (s.addLiveTicks fun _ => 0) result) fun total =>
      total.terminatedUserTicks = result.terminatedUserTicks ∧
        total.liveUserTicks = result.liveUserTicks + (threads.map s.ticksOf).sum := by
  induction threads generalizing result with
  | nil => exact Yields.ok ⟨rfl, rfl⟩
  | cons t rest ih =>
    obtain ⟨l, life⟩ := Option.isSome_iff_exists.mp (known t List.mem_cons_self)
    obtain ⟨r, found, rfl⟩ := Option.map_eq_some_iff.mp life
    simp only [List.map_cons, List.sum_cons] at fits ⊢
    have mine : s.ticksOf t = r.userTicks := ticksOf_known life
    have step : s.addLiveTicks (fun _ => 0) result t = .ok { result with
        liveUserTicks := result.liveUserTicks + s.ticksOf t
        liveUserMicroseconds :=
          saturatingAdd result.liveUserMicroseconds (s.userMicroseconds (s.ticksOf t)) } := by
      unfold addLiveTicks
      simp only [found, saturatingAdd_zero, mine]
      rw [saturatingAdd_of_le (by omega)]
    rw [List.foldlM_cons, step]
    have others : ∀ u ∈ rest, (s.lifeOf u).isSome :=
      fun u member => known u (List.mem_cons_of_mem t member)
    refine (ih others (by dsimp only; omega)).mono fun total same => ⟨same.1, same.2.trans ?_⟩
    dsimp only
    omega

/-- The statistics of a task show its history and its living threads. -/
theorem taskStatistics_yields (invariant : s.Invariant) (fits : s.liveTicks p ≤ uint64Max)
    (order : List XnuThreadId) :
    Yields (s.taskStatistics p true (fun _ => 0) order) fun answer =>
      (answer.map fun total => total.terminatedUserTicks + total.liveUserTicks).getD 0 =
        s.retiredTicks p + s.liveTicks p := by
  have owners := invariant.settled.balanced.owners
  unfold taskStatistics
  cases history : s.taskHistory.lookup p with
  | none =>
    have retired : s.retiredTicks p = 0 := by
      unfold retiredTicks
      rw [history]
      rfl
    have live : s.liveTicks p = 0 := by
      unfold liveTicks ownedThreads
      cases found : s.processThreads.lookup p with
      | none => rfl
      | some owned =>
        have remembered := owners.history p (by rw [found]; rfl)
        rw [history] at remembered
        contradiction
    refine Yields.ok ?_
    rw [retired, live]
    rfl
  | some past =>
    have retired : s.retiredTicks p = past.terminatedUserTicks := by
      unfold retiredTicks
      rw [history]
      rfl
    simp only [not_true, if_false]
    cases found : s.processThreads.lookup p with
    | none =>
      have live : s.liveTicks p = 0 := by
        unfold liveTicks ownedThreads
        rw [found]
        rfl
      refine Yields.ok ?_
      rw [retired, live]
      rfl
    | some owned =>
      have perm := iterationOrder_perm order owned
      have live : s.liveTicks p = ((iterationOrder order owned).map s.ticksOf).sum := by
        unfold liveTicks ownedThreads
        rw [found, (perm.map s.ticksOf).sum_eq]
        rfl
      have known : ∀ t ∈ iterationOrder order owned, (s.lifeOf t).isSome := fun t member =>
        ((mem_owned invariant.settled found t).mp (perm.mem_iff.mp member)).2
      rw [live] at fits
      dsimp only
      refine (addLiveTicks_yields known (by dsimp only; omega)).bind fun total same => ?_
      refine Yields.ok ?_
      rw [retired, live]
      simp only [Option.map_some, Option.getD_some, same.1, same.2]
      omega

end
end XnuScheduler

/-- A scheduler, the dispatches of each thread that no `completeSlice` has ended yet, and
all the ticks that have been reported for the threads of a process. -/
structure Ledger where
  scheduler : XnuScheduler
  outstanding : XnuThreadId → Nat := fun _ => 0
  reported : Nat := 0

/-- The ticks that an operation reports for the threads of a process: what a slice has
consumed that has been dispatched, and what is pending for threads that are retired. -/
def Operation.reports (σ : Ledger) (p : Nat) : Operation → Nat
  | .completeSlice thread consumed _ _ =>
    if thread.process = p ∧ 0 < σ.outstanding thread then consumed else 0
  | operation => operation.credited σ.scheduler p

namespace Ledger

/-- The ledger of a process after an operation. A thread that is gone has no slice. -/
def after (p : Nat) (σ : Ledger) (operation : Operation) : Ledger where
  scheduler := σ.scheduler.after operation
  outstanding := fun t =>
    if ((σ.scheduler.after operation).lifeOf t).isNone then 0
    else
      match operation with
      | .chooseNext processor preferred =>
        if σ.scheduler.chosen processor preferred = some t then σ.outstanding t + 1
        else σ.outstanding t
      | .completeSlice thread _ _ _ =>
        if t = thread then σ.outstanding t - 1 else σ.outstanding t
      | _ => σ.outstanding t
  reported := σ.reported + operation.reports σ p

/-- The statistics of the process show what has been reported, whatever order its
threads are visited in. -/
def Conserved (p : Nat) (σ : Ledger) : Prop :=
  ∀ order, ∃ answer, σ.scheduler.taskStatistics p true (fun _ => 0) order = .ok answer ∧
    (answer.map fun total => total.terminatedUserTicks + total.liveUserTicks).getD 0 = σ.reported

/-- A slice that has used ticks is completed while its thread's record has it in flight. -/
def Recorded (p : Nat) (σ : Ledger) : Operation → Prop
  | .completeSlice thread consumed _ _ =>
    thread.process = p → 0 < σ.outstanding thread → 0 < consumed →
      σ.scheduler.inFlight thread = true
  | _ => True

/-- No sum of the process's ticks saturates in a run, and its history is not ended. -/
structure Unsaturated (p : Nat) (σ : Ledger) (operations : List Operation) : Prop where
  additions : Along (after p) (fun σ operation =>
    operation.Fits σ.scheduler p ∧ ¬operation.Ends p) σ operations
  queries : Throughout (after p) (fun σ => σ.scheduler.liveTicks p ≤ uint64Max) σ operations

structure Sound (σ : Ledger) : Prop where
  invariant : σ.scheduler.Invariant
  outstanding : ∀ t, σ.scheduler.inFlight t = true → 0 < σ.outstanding t

section
variable {σ : Ledger} {p : Nat} {operation : Operation}

/-- A record has a slice in flight only while a dispatch is outstanding. -/
theorem Sound.after (sound : σ.Sound) (p : Nat) (operation : Operation) :
    (after p σ operation).Sound := by
  refine ⟨XnuScheduler.after_invariant sound.invariant operation, fun t flying => ?_⟩
  obtain ⟨ticks, known⟩ := XnuScheduler.inFlight_iff.mp flying
  have alive : ((σ.scheduler.after operation).lifeOf t).isSome := by
    rw [← XnuScheduler.isSome_account, show (σ.scheduler.after operation).accountOf t = _ from known]
    rfl
  have before : σ.scheduler.accountOf t = some ⟨true, ticks⟩ → 0 < σ.outstanding t :=
    fun here => sound.outstanding t (XnuScheduler.inFlight_iff.mpr ⟨ticks, here⟩)
  have step := XnuScheduler.accountOf_after sound.invariant operation t
  rw [show (σ.scheduler.after operation).accountOf t = _ from known] at step
  unfold Ledger.after
  dsimp only
  rw [if_neg (by rw [Option.isNone_iff_eq_none]; exact Option.isSome_iff_ne_none.mp alive)]
  unfold Operation.accountStep at step
  cases operation with
  | registerThread thread base runnable =>
    dsimp only at step ⊢
    split at step
    · cases here : σ.scheduler.accountOf t with
      | none =>
        rw [here] at step
        exact absurd (congrArg Account.inFlight (Option.some.inj step)) nofun
      | some a =>
        rw [here] at step
        exact before (here.trans step.symm)
    · exact before step.symm
  | removeThread thread pending =>
    dsimp only at step ⊢
    split at step
    · contradiction
    · exact before step.symm
  | replaceProcessThreads survivor base pending order =>
    dsimp only at step ⊢
    split at step
    · exact before step.symm
    · split at step
      · exact absurd (congrArg Account.inFlight (Option.some.inj step)) nofun
      · split at step
        · contradiction
        · exact before step.symm
  | removeProcess process order =>
    dsimp only at step ⊢
    split at step
    · contradiction
    · exact before step.symm
  | chooseNext processor preferred =>
    dsimp only at step ⊢
    split
    · exact Nat.succ_pos _
    · rename_i other
      rw [if_neg other] at step
      exact before step.symm
  | completeSlice thread consumed completion accounting =>
    dsimp only at step ⊢
    split
    · rename_i same
      rw [if_pos same] at step
      obtain ⟨a, -, left⟩ := Option.bind_eq_some_iff.mp step.symm
      split at left
      · rename_i idle
        rw [Option.some.inj left] at idle
        exact absurd rfl idle
      · split at left
        · contradiction
        · exact absurd (congrArg Account.inFlight (Option.some.inj left)) nofun
    · rename_i other
      rw [if_neg other] at step
      exact before step.symm
  | _ => exact before step.symm

/-- What is reported is credited, but for slices that the records have lost. -/
theorem reports_eq_credited (sound : σ.Sound) :
    operation.reports σ p = operation.credited σ.scheduler p ↔ Recorded p σ operation := by
  cases operation with
  | completeSlice thread consumed completion accounting =>
    simp only [Operation.reports, Operation.credited, Recorded]
    by_cases mine : thread.process = p
    · by_cases flying : σ.scheduler.inFlight thread = true
      · simp [mine, flying, sound.outstanding thread flying]
      · by_cases outstanding : 0 < σ.outstanding thread
        · simp [mine, flying, outstanding]
        · simp [flying, outstanding]
    · simp [mine]
  | _ => exact iff_of_true rfl trivial

/-- The books of a process are the sum of its history and its living threads. -/
theorem conserved_iff (sound : σ.Sound) (fits : σ.scheduler.liveTicks p ≤ uint64Max) :
    σ.Conserved p ↔ σ.scheduler.retiredTicks p + σ.scheduler.liveTicks p = σ.reported := by
  have statistics := XnuScheduler.taskStatistics_yields sound.invariant fits
  constructor
  · intro conserved
    obtain ⟨answer, returned, same⟩ := conserved []
    exact ((statistics []).of_ok returned).symm.trans same
  · intro books order
    obtain ⟨answer, returned, same⟩ := statistics order
    exact ⟨answer, returned, same.trans books⟩

theorem conserved_after (sound : σ.Sound) (fits : operation.Fits σ.scheduler p)
    (lasting : ¬operation.Ends p) (before : σ.scheduler.liveTicks p ≤ uint64Max)
    (later : (after p σ operation).scheduler.liveTicks p ≤ uint64Max) (conserved : σ.Conserved p) :
    (after p σ operation).Conserved p ↔ Recorded p σ operation := by
  have books := (conserved_iff sound before).mp conserved
  have balance := XnuScheduler.balance_after sound.invariant fits lasting
  rw [conserved_iff (sound.after p operation) later, ← reports_eq_credited sound]
  unfold after
  dsimp only
  omega

/-- A run that does not saturate, with the sums that are queried around each step. -/
theorem Unsaturated.steps {operations : List Operation}
    (unsaturated : Unsaturated p σ operations) :
    Along (after p) (fun σ operation =>
      (operation.Fits σ.scheduler p ∧ ¬operation.Ends p) ∧
        σ.scheduler.liveTicks p ≤ uint64Max ∧
          (after p σ operation).scheduler.liveTicks p ≤ uint64Max) σ operations := by
  obtain ⟨additions, queries⟩ := unsaturated
  induction operations generalizing σ with
  | nil => trivial
  | cons operation rest ih =>
    exact ⟨⟨additions.1, queries.1, queries.2.head⟩, ih additions.2 queries.2⟩

/-- In a run that does not saturate, the statistics of a process always show all that has
been reported for its threads, exactly if every slice that has used ticks is completed
while its thread's record has it in flight. -/
theorem conserved_iff_along {config : SchedulerConfig} {s : XnuScheduler}
    (built : XnuScheduler.construct config = .ok s) {operations : List Operation}
    (unsaturated : Unsaturated p { scheduler := s } operations) :
    Throughout (after p) (Conserved p) { scheduler := s } operations ↔
      Along (after p) (Recorded p) { scheduler := s } operations := by
  have sound : Sound { scheduler := s } := by
    refine ⟨XnuScheduler.construct_invariant built, fun t flying => ?_⟩
    obtain rfl := XnuScheduler.construct_initial built
    contradiction
  have start : Conserved p { scheduler := s } := by
    rw [conserved_iff sound unsaturated.queries.head]
    obtain rfl := XnuScheduler.construct_initial built
    rfl
  have preserves : ∀ (σ : Ledger) operation, Sound σ → Sound (after p σ operation) :=
    fun _ operation sound => sound.after p operation
  exact throughout_iff_along preserves
    (fun _ _ sound conserved admitted => conserved_after sound admitted.1.1 admitted.1.2
      admitted.2.1 admitted.2.2 conserved) sound start unsaturated.steps

/-- A thread is held and released while its slice is in flight. -/
def heldFlight : List Operation :=
  [.registerThread ⟨1, 1⟩ 31 true, .chooseNext 0 none, .suspendThread ⟨1, 1⟩ .user,
    .resumeThread ⟨1, 1⟩ .user, .completeSlice ⟨1, 1⟩ 5 .continue .advance]

theorem conserved_iff_along_held :
    Throughout (after 1) (Conserved 1) { scheduler := XnuScheduler.initialState {} } heldFlight ↔
      Along (after 1) (Recorded 1) { scheduler := XnuScheduler.initialState {} } heldFlight := by
  have built : XnuScheduler.construct {} = .ok (XnuScheduler.initialState {}) := rfl
  apply conserved_iff_along built
  constructor
  · refine ⟨⟨trivial, id⟩, ⟨trivial, id⟩, ⟨trivial, id⟩, ⟨trivial, id⟩, ⟨fun _ _ => ?_, id⟩, trivial⟩
    exact ⟨by decide +kernel, nofun⟩
  · decide +kernel

/-- A thread execs while its slice is in flight. -/
def execFlight : List Operation :=
  [.registerThread ⟨1, 1⟩ 31 true, .chooseNext 0 none,
    .replaceProcessThreads ⟨1, 1⟩ 31 (fun _ => 0) [], .completeSlice ⟨1, 1⟩ 5 .continue .advance]

/-- What the slice has used is lost. -/
theorem exec_loses_ticks : ¬∀ config s p operations, XnuScheduler.construct config = .ok s →
    Unsaturated p { scheduler := s } operations →
      Throughout (after p) (Conserved p) { scheduler := s } operations := by
  intro conserved
  have unsaturated : Unsaturated 1 { scheduler := XnuScheduler.initialState {} } execFlight := by
    constructor
    · refine ⟨⟨trivial, id⟩, ⟨trivial, id⟩, ⟨fun _ _ => ?_, id⟩, ⟨fun _ _ => ?_, id⟩, trivial⟩
      · decide +kernel
      · exact ⟨by decide +kernel, nofun⟩
    · decide +kernel
  obtain ⟨answer, returned, same⟩ := (conserved {} _ 1 execFlight rfl unsaturated).last []
  have shown : ((run (after 1) { scheduler := XnuScheduler.initialState {} }
      execFlight).scheduler.taskStatistics 1 true (fun _ => 0) []).toOption.map
        (fun answer => (answer.map fun total =>
          total.terminatedUserTicks + total.liveUserTicks).getD 0) = some 0 := by
    decide +kernel
  have reported : (run (after 1) { scheduler := XnuScheduler.initialState {} }
      execFlight).reported = 5 := by
    decide +kernel
  rw [returned] at shown
  rw [reported] at same
  exact absurd (same.symm.trans (Option.some.inj shown)) (by decide)

end
end Ledger
end ILEmu
