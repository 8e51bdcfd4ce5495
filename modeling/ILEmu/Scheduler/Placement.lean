import ILEmu.Scheduler.Balance
import ILEmu.Scheduler.Life

/-! The record in hand enters and leaves its run queue. -/
namespace ILEmu
open Foundation Xnu.Scheduler
namespace XnuScheduler

/-- What the primitive steps of an operation leave alone. -/
structure Frame (s s' : XnuScheduler) : Prop where
  threads : s'.threads = s.threads
  taskHistory : s'.taskHistory = s.taskHistory
  processThreads : s'.processThreads = s.processThreads
  processors : s'.processorRunQueues.length = s.processorRunQueues.length
  quantumTicks : s'.quantumTicks = s.quantumTicks

theorem Frame.refl (s : XnuScheduler) : Frame s s := ⟨rfl, rfl, rfl, rfl, rfl⟩

theorem Frame.trans {a b c : XnuScheduler} (first : Frame a b) (second : Frame b c) : Frame a c :=
  ⟨second.threads.trans first.threads, second.taskHistory.trans first.taskHistory,
    second.processThreads.trans first.processThreads, second.processors.trans first.processors,
    second.quantumTicks.trans first.quantumTicks⟩

def isWaiting (r : ThreadRecord) : Bool := r.info.state == .waiting

/-- An operation in progress: the scheduler agrees with its records once the
record in hand is stored back, and the waiting count includes that record or not. -/
structure Holding (s : XnuScheduler) (r : ThreadRecord) (counted : Bool) : Prop where
  balanced : (s.store r).Balanced
  scheduled : ∀ t r₀, t ≠ r.id → s.threads.lookup t = some r₀ → r₀.Scheduled
  waiting : s.waitingCount = counted.toNat + Table.tally isWaiting (s.threads.erase r.id)

section
variable {s s' : XnuScheduler} {r r' : ThreadRecord} {counted : Bool}

theorem Holding.step (holding : Holding s r counted) (threads : s'.threads = s.threads)
    (waitingCount : s'.waitingCount = s.waitingCount) (id : r'.id = r.id)
    (balanced : (s'.store r').Balanced) : Holding s' r' counted := by
  refine ⟨balanced, ?_, ?_⟩
  · rw [id, threads]
    exact holding.scheduled
  · rw [id, threads, waitingCount]
    exact holding.waiting

/-- Fields that no book is compared with may change in the middle of an operation. -/
theorem Holding.aside (holding : Holding s r counted) (same : s'.ledger = s.ledger)
    (threads : s'.threads = s.threads) (usage : s'.usageRecords = s.usageRecords)
    (waitingCount : s'.waitingCount = s.waitingCount)
    (history : ∀ p, (s.taskHistory.lookup p).isSome → (s'.taskHistory.lookup p).isSome)
    (configured : s'.Configured) : Holding s' r counted := by
  refine holding.step threads waitingCount rfl
    (holding.balanced.aside same (fun t => ?_) usage history { configured with })
  rw [lookup_store, lookup_store, threads]

theorem Holding.ranged (holding : Holding s r counted) :
    r.Ranged s.processorRunQueues.length :=
  holding.balanced.ranged r.id r (lookup_store_self s r)

theorem Holding.placed (holding : Holding s r counted) : r.Placed :=
  holding.balanced.placed r.id r (lookup_store_self s r)

theorem Holding.configured (holding : Holding s r counted) : s.Configured :=
  holding.balanced.configured_unstored

/-- A change of the record in hand that no book records. -/
theorem Holding.touch (holding : Holding s r counted) (books : r'.books = r.books)
    (ranged : r'.Ranged s.processorRunQueues.length) (placed : r'.Placed) :
    Holding s r' counted :=
  holding.step rfl rfl (congrArg ThreadRecord.Books.id books)
    (holding.balanced.touch books ranged placed)

theorem exists_store (s : XnuScheduler) (r : ThreadRecord) (P : ThreadRecord → Prop)
    (t : XnuThreadId) :
    (∃ r₀, (s.store r).threads.lookup t = some r₀ ∧ P r₀) ↔
      (t = r.id ∧ P r) ∨ (t ≠ r.id ∧ ∃ r₀, s.threads.lookup t = some r₀ ∧ P r₀) := by
  rw [lookup_store]
  by_cases same : t = r.id
  · simp [same]
  · simp [same]

end

section places
variable {s : XnuScheduler} {place : Option Nat} {q : RunQueue}

theorem runQueueAt_withRunQueue (found : s.runQueueAt place = some q) (q' : RunQueue)
    (place' : Option Nat) :
    (s.withRunQueue place q').runQueueAt place' =
      if place' = place then some q' else s.runQueueAt place' := by
  cases place with
  | none =>
    cases place' with
    | none => rfl
    | some p => rfl
  | some p =>
    simp only [runQueueAt] at found
    cases place' with
    | none => rfl
    | some p' =>
      simp only [withRunQueue, runQueueAt, List.getElem?_set, Option.some.injEq]
      obtain ⟨inside, -⟩ := List.getElem?_eq_some_iff.mp found
      by_cases same : p' = p
      · simp [same, inside]
      · simp [same, Ne.symm same]

theorem queuedTotal_withRunQueue (found : s.runQueueAt place = some q) (q' : RunQueue) :
    (s.withRunQueue place q').queuedTotal + q.count = s.queuedTotal + q'.count := by
  cases place with
  | none =>
    obtain rfl := Option.some.inj found
    simp only [queuedTotal, withRunQueue]
    omega
  | some p =>
    have moved := sum_map_set RunQueue.count q' (by simpa only [runQueueAt] using found)
    simp only [queuedTotal, withRunQueue]
    omega

theorem length_withRunQueue (s : XnuScheduler) (place : Option Nat) (q : RunQueue) :
    (s.withRunQueue place q).processorRunQueues.length = s.processorRunQueues.length := by
  cases place with
  | none => rfl
  | some p => exact List.length_set

theorem runQueueAt_bound (s : XnuScheduler)
    (bound : ∀ p, place = some p → p < s.processorRunQueues.length) :
    ∃ q, s.runQueueAt place = some q := by
  cases place with
  | none => exact ⟨_, rfl⟩
  | some p => exact ⟨_, List.getElem?_eq_getElem (bound p rfl)⟩

end places

/-- Everything beside the run queues is as it was. -/
structure Beside (s s' : XnuScheduler) : Prop where
  frame : Frame s s'
  waitingCount : s'.waitingCount = s.waitingCount
  hostAwaitCount : s'.hostAwaitCount = s.hostAwaitCount
  processRunnableCounts : s'.processRunnableCounts = s.processRunnableCounts
  schedulerLoad : s'.schedulerLoad = s.schedulerLoad
  usageRecords : s'.usageRecords = s.usageRecords
  failsafeOrder : s'.failsafeOrder = s.failsafeOrder
  depressionOrder : s'.depressionOrder = s.depressionOrder
  configured : s.Configured → s'.Configured

theorem withRunQueue_beside (s : XnuScheduler) (place : Option Nat) (q : RunQueue) :
    Beside s (s.withRunQueue place q) := by
  cases place with
  | none =>
    exact ⟨⟨rfl, rfl, rfl, rfl, rfl⟩, rfl, rfl, rfl, rfl, rfl, rfl, rfl, fun valid => { valid with }⟩
  | some p =>
    have length := length_withRunQueue s (some p) q
    exact ⟨⟨rfl, rfl, rfl, length, rfl⟩, rfl, rfl, rfl, rfl, rfl, rfl, rfl, fun valid =>
      { valid with
        processors := length ▸ valid.processors
        contexts := valid.contexts.trans length.symm }⟩

/-- Only the place on a queue changes, so only the queues need to be looked at again. -/
theorem Holding.requeue {s s' : XnuScheduler} {r r' : ThreadRecord} {counted : Bool}
    (holding : Holding s r counted) (beside : Beside s s')
    (books : { r'.books with placement := r.placement } = r.books)
    (ranged : r'.Ranged s.processorRunQueues.length) (placed : r'.Placed)
    (queues : (s'.store r').QueuesAgree) : Holding s' r' counted := by
  have id : r'.id = r.id := congrArg ThreadRecord.Books.id books
  have threads := beside.frame.threads
  have balanced := holding.balanced
  refine holding.step threads beside.waitingCount id (balanced.replace threads id
    beside.frame.processors ranged placed queues ?_ ?_ ?_ (beside.configured holding.configured))
  · exact balanced.counters.replace threads id beside.hostAwaitCount beside.processRunnableCounts
      (congrArg _ beside.schedulerLoad) (congrArg ThreadRecord.Books.hostAwait books)
      (congrArg ThreadRecord.Books.state books) (congrArg ThreadRecord.Books.loadBucket books)
  · refine balanced.owners.replace threads id beside.frame.processThreads ?_ ?_
    · rw [beside.frame.taskHistory]
      exact fun _ here => here
    · rw [beside.processRunnableCounts]
      exact fun _ => rfl
  · exact balanced.indexes.replace threads id beside.usageRecords beside.failsafeOrder
      beside.depressionOrder (congrArg ThreadRecord.Books.usageIndex books)
      (congrArg ThreadRecord.Books.failsafe books)
      (congrArg ThreadRecord.Books.depressionDeadline books)

section agree
variable {s s' : XnuScheduler} {r r' : ThreadRecord} {place : Option Nat} {q q' : RunQueue}

theorem QueuesAgree.enter (agree : (s.store r).QueuesAgree) (threads : s'.threads = s.threads)
    (id : r'.id = r.id) (idle : r.queued = false) (found : s.runQueueAt place = some q)
    (queues : ∀ place', s'.runQueueAt place' = if place' = place then some q' else s.runQueueAt place')
    (total : s'.queuedTotal + q.count = s.queuedTotal + q'.count)
    (grown : q'.count = q.count + 1) (count : s'.runnableCount = s.runnableCount + 1)
    (summarized : q'.Summarized)
    (mem : ∀ t i, t ∈ q'.queues i ↔ (t = r.id ∧ i = r'.queuedPriority.toNat) ∨ t ∈ q.queues i)
    (order : ∀ k, k ∈ q'.realtimeOrder ↔ r'.realtimeQueueKey = some k ∨ k ∈ q.realtimeOrder)
    (nonneg : 0 ≤ r'.queuedPriority) (queued : r'.queued = true)
    (processor : r'.queuedProcessor = place)
    (key : ∀ k, r'.realtimeQueueKey = some k → k.thread = r.id) : (s'.store r').QueuesAgree := by
  have old : ∀ place q, (s.store r).runQueueAt place = some q ↔ s.runQueueAt place = some q :=
    fun _ _ => Iff.rfl
  have listed : ∀ place q, s.runQueueAt place = some q → ∀ (i : Nat) t, t ∈ q.queues i ↔
      t ≠ r.id ∧ ∃ r₀, s.threads.lookup t = some r₀ ∧
        r₀.queued = true ∧ r₀.queuedProcessor = place ∧ r₀.queuedPriority = i := by
    intro place q here i t
    rw [agree.listed place q here, exists_store]
    simp only [idle, Bool.false_eq_true, false_and, and_false, false_or]
  have ordered : ∀ place q, s.runQueueAt place = some q → ∀ k, k ∈ q.realtimeOrder ↔
      k.thread ≠ r.id ∧ ∃ r₀, s.threads.lookup k.thread = some r₀ ∧
        r₀.queued = true ∧ r₀.queuedProcessor = place ∧ r₀.realtimeQueueKey = some k := by
    intro place q here k
    rw [agree.ordered place q here, exists_store]
    simp only [idle, Bool.false_eq_true, false_and, and_false, false_or]
  refine ⟨?_, ?_, ?_, ?_⟩
  · intro place' q₀ here
    change s'.runQueueAt place' = some q₀ at here
    rw [queues] at here
    split at here
    · exact Option.some.inj here ▸ summarized
    · exact agree.summarized place' q₀ here
  · intro place' q₀ here i t
    change s'.runQueueAt place' = some q₀ at here
    rw [queues] at here
    rw [exists_store, id, threads]
    split at here
    · rename_i same
      obtain rfl := Option.some.inj here
      subst place'
      rw [mem, listed place q found]
      simp only [queued, processor, true_and]
      have : i = r'.queuedPriority.toNat ↔ r'.queuedPriority = i := by omega
      rw [this]
    · rename_i other
      rw [listed place' q₀ here]
      simp only [processor, Ne.symm other, false_and, and_false, false_or]
  · intro place' q₀ here k
    change s'.runQueueAt place' = some q₀ at here
    rw [queues] at here
    rw [exists_store, id, threads]
    split at here
    · rename_i same
      obtain rfl := Option.some.inj here
      subst place'
      rw [order, ordered place q found]
      simp only [queued, processor, true_and]
      constructor
      · rintro (new | kept)
        · exact .inl ⟨key k new, new⟩
        · exact .inr kept
      · rintro (⟨-, new⟩ | kept)
        · exact .inl new
        · exact .inr kept
    · rename_i other
      rw [ordered place' q₀ here]
      simp only [processor, Ne.symm other, false_and, and_false, false_or]
  · have before : s.runnableCount = s.queuedTotal := agree.total
    change s'.runnableCount = s'.queuedTotal
    omega

theorem QueuesAgree.leave (agree : (s.store r).QueuesAgree) (threads : s'.threads = s.threads)
    (id : r'.id = r.id) (found : s.runQueueAt r.queuedProcessor = some q)
    (queues : ∀ place', s'.runQueueAt place' =
      if place' = r.queuedProcessor then some q' else s.runQueueAt place')
    (total : s'.queuedTotal + q.count = s.queuedTotal + q'.count)
    (shrunk : q'.count + 1 = q.count) (count : s'.runnableCount + 1 = s.runnableCount)
    (summarized : q'.Summarized)
    (mem : ∀ t i, t ∈ q'.queues i ↔ t ∈ q.queues i ∧ ¬(t = r.id ∧ i = r.queuedPriority.toNat))
    (order : ∀ k, k ∈ q'.realtimeOrder ↔ k ∈ q.realtimeOrder ∧ r.realtimeQueueKey ≠ some k)
    (key : ∀ k, r.realtimeQueueKey = some k → k.thread = r.id) (idle : r'.queued = false) :
    (s'.store r').QueuesAgree := by
  refine ⟨?_, ?_, ?_, ?_⟩
  · intro place' q₀ here
    change s'.runQueueAt place' = some q₀ at here
    rw [queues] at here
    split at here
    · exact Option.some.inj here ▸ summarized
    · exact agree.summarized place' q₀ here
  · intro place' q₀ here i t
    change s'.runQueueAt place' = some q₀ at here
    rw [queues] at here
    rw [exists_store, id, threads]
    simp only [idle, Bool.false_eq_true, false_and, and_false, false_or]
    split at here
    · rename_i same
      obtain rfl := Option.some.inj here
      subst place'
      rw [mem, agree.listed r.queuedProcessor q found, exists_store]
      constructor
      · rintro ⟨⟨same, -, -, priority⟩ | kept, out⟩
        · exact absurd ⟨same, by omega⟩ out
        · exact kept
      · intro kept
        exact ⟨.inr kept, fun gone => kept.1 gone.1⟩
    · rename_i other
      rw [agree.listed place' q₀ here, exists_store]
      simp only [Ne.symm other, false_and, and_false, false_or]
  · intro place' q₀ here k
    change s'.runQueueAt place' = some q₀ at here
    rw [queues] at here
    rw [exists_store, id, threads]
    simp only [idle, Bool.false_eq_true, false_and, and_false, false_or]
    split at here
    · rename_i same
      obtain rfl := Option.some.inj here
      subst place'
      rw [order, agree.ordered r.queuedProcessor q found, exists_store]
      constructor
      · rintro ⟨⟨-, -, -, key⟩ | kept, out⟩
        · exact absurd key out
        · exact kept
      · intro kept
        exact ⟨.inr kept, fun mine => kept.1 (key k mine)⟩
    · rename_i other
      rw [agree.ordered place' q₀ here, exists_store]
      simp only [Ne.symm other, false_and, and_false, false_or]
  · have before : s.runnableCount = s.queuedTotal := agree.total
    change s'.runnableCount = s'.queuedTotal
    omega

end agree

section yields
variable {s : XnuScheduler} {r : ThreadRecord} {counted : Bool}

theorem realtimeKey_eq_some {sequence : Nat} {key : RealtimeQueueKey} :
    realtimeKey r sequence = some key ↔
      (r.info.realtime = true ∧ realtimeQueuePriority ≤ r.info.scheduledPriority) ∧
        ⟨r.info.realtimeDeadline, sequence, r.id⟩ = key := by
  simp only [realtimeKey, Option.ite_none_right_eq_some, Option.some.injEq]

theorem enqueue_yields (holding : Holding s r counted) (idle : r.queued = false)
    (scheduled : r.Scheduled) (position : QueuePosition) :
    Yields (s.enqueue r position) fun (s', r') =>
      Holding s' r' counted ∧ Frame s s' ∧ r'.id = r.id ∧ r'.info = r.info ∧
        r'.life = { r.life with queued := true } := by
  have ranged := holding.ranged
  have placed := holding.placed
  have queues := holding.balanced.queues
  obtain ⟨nonneg, small⟩ := ranged.scheduled
  obtain ⟨q, found⟩ := runQueueAt_bound s ranged.bound
  obtain ⟨noProcessor, noKey⟩ := placed.idle idle
  have summarized : q.Summarized := queues.summarized _ q found
  have fresh : ∀ i, r.id ∉ q.queues i := by
    intro i member
    rw [queues.listed _ q found, exists_store] at member
    simp [idle] at member
  have below : r.info.scheduledPriority.toNat < runQueueCount := by
    have : r.info.scheduledPriority ≤ 127 := small
    simp only [runQueueCount]
    omega
  unfold enqueue
  rw [if_neg (by simp [idle])]
  simp only [found]
  generalize keyed : realtimeKey r s.nextEnqueueSequence = key
  generalize (if key.isSome then QueuePosition.back else position) = position'
  generalize grown : q.link r.id r.info.scheduledPriority position' key = q'
  have summarized' : q'.Summarized :=
    grown ▸ RunQueue.link_summarized summarized nonneg below (fresh _) _ _
  have at' := runQueueAt_withRunQueue found q'
  have total := queuedTotal_withRunQueue found q'
  have beside := withRunQueue_beside s r.info.boundProcessor q'
  generalize s.withRunQueue r.info.boundProcessor q' = s₁ at at' total beside ⊢
  have frame := beside.frame
  refine Yields.ok ⟨holding.requeue ?_ rfl ?_ ?_ ?_, ?_, rfl, rfl, rfl⟩
  · exact ⟨{ frame with }, beside.waitingCount, beside.hostAwaitCount,
      beside.processRunnableCounts, beside.schedulerLoad, beside.usageRecords,
      beside.failsafeOrder, beside.depressionOrder,
      fun valid => { beside.configured valid with }⟩
  · exact { ranged with }
  · refine ⟨fun _ => rfl, fun _ => rfl, nofun, ?_, ?_⟩
    · intro _ realtime band
      dsimp only at realtime band ⊢
      rw [← keyed, realtimeKey_eq_some.mpr ⟨⟨realtime, band⟩, rfl⟩]
      rfl
    · intro k here
      dsimp only at here ⊢
      rw [noKey, Option.or_none, ← keyed] at here
      obtain ⟨⟨realtime, band⟩, rfl⟩ := realtimeKey_eq_some.mp here
      exact ⟨rfl, scheduled.in_band realtime band⟩
  · refine queues.enter frame.threads rfl idle found at' total (by rw [← grown]; rfl) rfl
      summarized' ?_ ?_ nonneg rfl rfl ?_
    · intro t i
      rw [← grown]
      exact RunQueue.mem_link _ _
    · intro k
      dsimp only
      rw [← grown, noKey, Option.or_none]
      exact RunQueue.mem_link_order _ _
    · intro k here
      dsimp only at here
      rw [noKey, Option.or_none, ← keyed] at here
      obtain ⟨-, rfl⟩ := realtimeKey_eq_some.mp here
      rfl
  · exact { frame with }

/-- Nothing but the place on a queue changes when a record leaves it. -/
theorem removeFromQueue_yields (holding : Holding s r counted) :
    Yields (s.removeFromQueue r) fun (s', r') =>
      Holding s' r' counted ∧ Frame s s' ∧
        r' = { r with queued := false, queuedProcessor := none, realtimeQueueKey := none } := by
  have ranged := holding.ranged
  have placed := holding.placed
  have queues := holding.balanced.queues
  unfold removeFromQueue
  refine Yields.ite (fun queued => ?_) (fun idle => ?_)
  · obtain ⟨nonneg, small⟩ := ranged.scheduled
    have bound : ∀ p, r.queuedProcessor = some p → p < s.processorRunQueues.length := by
      rw [placed.processor queued]
      exact ranged.bound
    obtain ⟨q, found⟩ := runQueueAt_bound s bound
    simp only [found]
    rw [← placed.priority queued] at nonneg
    have member : r.id ∈ q.queues r.queuedPriority.toNat := by
      rw [queues.listed _ q found, exists_store]
      exact .inl ⟨rfl, queued, rfl, (Int.toNat_of_nonneg nonneg).symm⟩
    refine (RunQueue.unlink_yields (queues.summarized _ q found) nonneg member _).bind ?_
    rintro q' ⟨summarized, shrunk, mem, order⟩
    have total := queuedTotal_withRunQueue found q'
    have positive : 0 < s.runnableCount := by
      have counted : s.runnableCount = s.queuedTotal := queues.total
      omega
    refine (decrement_yields Fault.underflow positive).bind fun count fewer => ?_
    have at' := runQueueAt_withRunQueue found q'
    have beside := withRunQueue_beside s r.queuedProcessor q'
    generalize s.withRunQueue r.queuedProcessor q' = s₁ at at' total beside ⊢
    have frame := beside.frame
    refine Yields.ok ⟨holding.requeue ?_ rfl ?_ ?_ ?_, ?_, rfl⟩
    · exact ⟨{ frame with }, beside.waitingCount, beside.hostAwaitCount,
        beside.processRunnableCounts, beside.schedulerLoad, beside.usageRecords,
        beside.failsafeOrder, beside.depressionOrder,
        fun valid => { beside.configured valid with }⟩
    · exact { ranged with }
    · exact ⟨nofun, nofun, fun _ => ⟨rfl, rfl⟩, nofun, nofun⟩
    · refine queues.leave frame.threads rfl found at' total shrunk fewer summarized mem order ?_ rfl
      intro k here
      obtain ⟨rfl, -⟩ := placed.key k here
      rfl
    · exact { frame with }
  · have idle : r.queued = false := by simpa using idle
    obtain ⟨noProcessor, noKey⟩ := placed.idle idle
    have same : r = { r with queued := false, queuedProcessor := none, realtimeQueueKey := none } := by
      rw [← idle, ← noProcessor, ← noKey]
    exact Yields.ok ⟨holding, Frame.refl s, same⟩

end yields

end XnuScheduler
end ILEmu
