import ILEmu.Scheduler.Steps

/-! The books that the scheduler keeps by hand, in every reachable state: the
queues and their summaries, and the counters of threads by state. -/
namespace ILEmu
open Foundation Xnu.Scheduler

/-- Every summary of a run queue is what its lists say. -/
structure RunQueue.Recomputed (q : RunQueue) : Prop where
  counts : ∀ i, q.counts i = (q.queues i).length
  count : q.count = ∑ i ∈ Finset.range runQueueCount, (q.queues i).length
  bitmap : ∀ i, q.bitmap.test i = !(q.queues i).isEmpty
  highQueue : IsGreatest (insert (-1) {h : Int | ∃ i : Nat, h = i ∧ q.queues i ≠ []}) q.highQueue

theorem RunQueue.Summarized.recomputed {q : RunQueue} (summarized : q.Summarized) :
    q.Recomputed := by
  refine ⟨summarized.counts, summarized.count, ?_, summarized.high⟩
  intro i
  rw [Bool.eq_iff_iff, summarized.bitmap]
  simp

namespace XnuScheduler

/-- A queued thread is in one list: the one of its scheduled priority, on the run
queue of its binding. -/
structure InOneList (s : XnuScheduler) (t : XnuThreadId) (r : ThreadRecord) : Prop where
  priority : r.queuedPriority = r.info.scheduledPriority
  listed : ∃ q, s.runQueueAt r.info.boundProcessor = some q ∧
    (q.queues r.info.scheduledPriority.toNat).count t = 1
  only : ∀ place q (i : Nat), s.runQueueAt place = some q → t ∈ q.queues i →
    place = r.info.boundProcessor ∧ (i : Int) = r.info.scheduledPriority

structure QueuesExact (s : XnuScheduler) : Prop where
  queued : ∀ t r, s.threads.lookup t = some r → r.queued = true → s.InOneList t r
  others : ∀ place q (i : Nat) t, s.runQueueAt place = some q → t ∈ q.queues i →
    ∃ r, s.threads.lookup t = some r ∧ r.queued = true
  summaries : ∀ place q, s.runQueueAt place = some q → q.Recomputed
  deadlines : ∀ place q k, s.runQueueAt place = some q → (k ∈ q.realtimeOrder ↔
    ∃ t r, s.threads.lookup t = some r ∧ r.queued = true ∧ r.info.boundProcessor = place ∧
      r.realtimeQueueKey = some k)
  runnableCount : s.runnableCount =
    s.processorSetRunQueue.count + (s.processorRunQueues.map RunQueue.count).sum

/-- Every counter is the number of the threads that it is a count of. -/
structure CountersExact (s : XnuScheduler) : Prop where
  waiting : s.waitingCount = s.threads.tally fun r => r.info.state == .waiting
  hostAwait : s.hostAwaitCount = s.threads.tally fun r => r.hostAwait
  processes : ∀ p n, s.processRunnableCounts.lookup p = some n → n = s.threads.tally fun r =>
    (r.info.state == .runnable || r.info.state == .running) && r.id.process == p
  load : ∀ b, s.schedulerLoad.counts b = s.threads.tally fun r =>
    r.info.state != .waiting && r.loadBucket == b
  holds : ∀ t r, s.threads.lookup t = some r → r.suspendCount =
    r.suspensionCounts .user + r.suspensionCounts .process + r.suspensionCounts .preparation
  held : ∀ t r, s.threads.lookup t = some r → 0 < r.suspendCount →
    r.info.state = .waiting ∧ r.queued = false

section
variable {s : XnuScheduler}

theorem Balanced.inOneList (balanced : s.Balanced) {t : XnuThreadId} {r : ThreadRecord}
    (found : s.threads.lookup t = some r) (queued : r.queued = true) : s.InOneList t r := by
  have ranged := balanced.ranged t r found
  have placed := balanced.placed t r found
  obtain ⟨q, here⟩ := runQueueAt_bound s ranged.bound
  have priority := placed.priority queued
  have processor := placed.processor queued
  refine ⟨priority, ⟨q, here, ?_⟩, ?_⟩
  · refine List.count_eq_one_of_mem ((balanced.queues.summarized _ q here).nodup _) ?_
    refine (balanced.queues.listed _ q here _ t).mpr ⟨r, found, queued, processor, ?_⟩
    rw [priority, Int.toNat_of_nonneg ranged.scheduled.1]
  · intro place q' i at_place member
    obtain ⟨r', found', -, processor', priority'⟩ :=
      (balanced.queues.listed place q' at_place i t).mp member
    obtain rfl := Option.some.inj (found.symm.trans found')
    exact ⟨processor'.symm.trans processor, priority'.symm.trans priority⟩

/-- In every reachable state the queues hold the queued threads and nobody else, and
every summary of them is exact. -/
theorem reachable_queues (reachable : s.Reachable) : s.QueuesExact := by
  have balanced := reachable.invariant.settled.balanced
  refine ⟨?_, ?_, ?_, ?_, balanced.queues.total⟩
  · intro t r found queued
    exact balanced.inOneList found queued
  · intro place q i t here member
    obtain ⟨r, found, queued, -⟩ := (balanced.queues.listed place q here i t).mp member
    exact ⟨r, found, queued⟩
  · intro place q here
    exact (balanced.queues.summarized place q here).recomputed
  · intro place q k here
    rw [balanced.queues.ordered place q here]
    constructor
    · rintro ⟨r, found, queued, processor, key⟩
      have bound := (balanced.placed _ r found).processor queued
      exact ⟨k.thread, r, found, queued, bound.symm.trans processor, key⟩
    · rintro ⟨t, r, found, queued, bound, key⟩
      obtain ⟨named, -⟩ := (balanced.placed t r found).key k key
      have processor := (balanced.placed t r found).processor queued
      refine ⟨r, ?_, queued, processor.trans bound, key⟩
      rw [named, balanced.ids t r found]
      exact found

/-- Two threads on the same processor, one of them realtime. -/
theorem reachable_queues_realtime : QueuesExact (run after (initialState {})
    [.registerThread ⟨1, 1⟩ 31 true, .setRealtime ⟨1, 1⟩ 0 40000 80000 true,
      .registerThread ⟨1, 2⟩ 40 true, .bindThread ⟨1, 2⟩ (some 0)]) :=
  reachable_queues ⟨{}, _, _, rfl, rfl⟩

theorem isActive_eq (state : XnuThreadState) : state.isActive = (state != .waiting) := by
  cases state with
  | waiting => rfl
  | _ => rfl

theorem isRunnable_eq (state : XnuThreadState) :
    state.isRunnable = (state == .runnable || state == .running) := by
  cases state with
  | runnable => rfl
  | running => rfl
  | hostAwait => rfl
  | waiting => rfl

theorem Invariant.counters (invariant : s.Invariant) : s.CountersExact := by
  have counters := invariant.settled.balanced.counters
  refine ⟨invariant.settled.waiting, counters.hostAwait, ?_, ?_, ?_, ?_⟩
  · intro p n found
    have count := counters.runnable p
    rw [found] at count
    simpa only [Option.getD_some, isRunnable_eq] using count
  · intro b
    simpa only [isActive_eq] using counters.load b
  · intro t r found
    exact (invariant.sound t r found).holds
  · intro t r found held
    have sound := invariant.sound t r found
    have waiting := sound.held held
    exact ⟨waiting, sound.unqueued waiting⟩

/-- In every reachable state each counter counts what it is for, and no operation
takes one below zero. -/
theorem reachable_counters (reachable : s.Reachable) :
    s.CountersExact ∧ ∀ operation, s.perform operation ≠ .error .underflow ∧
      s.perform operation ≠ .error (.logicError .processRunnableCountInconsistent) := by
  have invariant := reachable.invariant
  refine ⟨invariant.counters, fun operation => ⟨?_, ?_⟩⟩
  · intro thrown
    have fault := (perform_error invariant thrown).1
    contradiction
  · intro thrown
    have fault := (perform_error invariant thrown).1
    contradiction

/-- A thread is held while it waits for the host, and another execs during the hold. -/
def heldHistory : List Operation :=
  [.registerThread ⟨1, 1⟩ 31 true, .chooseNext 0 none,
    .completeSlice ⟨1, 1⟩ 5 .hostAwait .advance, .suspendThread ⟨1, 1⟩ .user,
    .makeRunnable ⟨1, 1⟩, .registerThread ⟨1, 2⟩ 31 false,
    .replaceProcessThreads ⟨1, 2⟩ 31 (fun _ => 0) []]

theorem reachable_counters_held : (run after (initialState {}) heldHistory).CountersExact ∧
    ∀ operation, (run after (initialState {}) heldHistory).perform operation ≠ .error .underflow ∧
      (run after (initialState {}) heldHistory).perform operation ≠
        .error (.logicError .processRunnableCountInconsistent) :=
  reachable_counters ⟨{}, _, heldHistory, rfl, rfl⟩

end
end XnuScheduler
end ILEmu
