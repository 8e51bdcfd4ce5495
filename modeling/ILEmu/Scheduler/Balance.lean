import ILEmu.Scheduler.QueueProofs
import ILEmu.Scheduler.Dispatch

/-! Agreement of the run queues, counters and indexes with the thread records.
It holds between the primitive steps of an operation too, for the scheduler with
the record in hand stored back. -/
namespace ILEmu
open Foundation Xnu.Scheduler

abbrev Threads := Table XnuThreadId ThreadRecord

namespace ThreadRecord

/-- Ranges and flag combinations that hold at every step of a change. -/
structure Ranged (processors : Nat) (r : ThreadRecord) : Prop where
  base : 0 ≤ r.info.basePriority ∧ r.info.basePriority ≤ maximumPriority
  legacy : 0 ≤ r.legacyBasePriority ∧ r.legacyBasePriority ≤ maximumPriority
  saved : 0 ≤ r.failsafeSavedBasePriority ∧ r.failsafeSavedBasePriority ≤ maximumPriority
  qos : r.info.requestedQos.valid = true
  scheduled : 0 ≤ r.info.scheduledPriority ∧ r.info.scheduledPriority ≤ maximumPriority
  bound : ∀ p, r.info.boundProcessor = some p → p < processors
  last : ∀ p, r.info.lastProcessor = some p → p < processors
  computation : (r.info.realtime = true ∨ r.info.failsafe = true ∧ r.failsafeSavedRealtime = true) →
    0 < r.info.realtimeComputation
  failsafe : r.info.failsafe = true → r.info.realtime = false ∧ r.info.timeshare = true
  deadline : r.depressionDeadline.isSome = true → r.info.depressed = true

/-- What a record says about the place it has on a run queue. -/
structure Placed (r : ThreadRecord) : Prop where
  priority : r.queued = true → r.queuedPriority = r.info.scheduledPriority
  processor : r.queued = true → r.queuedProcessor = r.info.boundProcessor
  idle : r.queued = false → r.queuedProcessor = none ∧ r.realtimeQueueKey = none
  keyed : r.queued = true → r.info.realtime = true →
    realtimeQueuePriority ≤ r.info.scheduledPriority →
    r.realtimeQueueKey = some ⟨r.info.realtimeDeadline, r.enqueueSequence, r.id⟩
  key : ∀ k, r.realtimeQueueKey = some k →
    k = ⟨r.info.realtimeDeadline, r.enqueueSequence, r.id⟩ ∧
      r.queuedPriority = realtimeQueuePriority

/-- The scheduled priority is in the band that the record's policy imposes. -/
structure Scheduled (r : ThreadRecord) : Prop where
  depressed : r.info.depressed = true → r.info.scheduledPriority = minimumPriority
  realtime : r.info.depressed = false → r.info.realtime = true →
    r.info.scheduledPriority = realtimeQueuePriority
  timeshare : r.info.depressed = false → r.info.realtime = false → r.info.timeshare = true →
    r.info.scheduledPriority ≤ maximumKernelPriority

/-- What decides the band a record is scheduled in. -/
def band (r : ThreadRecord) : Bool × Bool × Bool × Int :=
  (r.info.depressed, r.info.realtime, r.info.timeshare, r.info.scheduledPriority)

theorem Scheduled.of_band {r r' : ThreadRecord} (scheduled : r.Scheduled)
    (same : r'.band = r.band) : r'.Scheduled := by
  simp only [ThreadRecord.band, Prod.mk.injEq] at same
  obtain ⟨depressed, realtime, timeshare, priority⟩ := same
  exact ⟨by rw [depressed, priority]; exact scheduled.depressed,
    by rw [depressed, realtime, priority]; exact scheduled.realtime,
    by rw [depressed, realtime, timeshare, priority]; exact scheduled.timeshare⟩

theorem Scheduled.of_info {r r' : ThreadRecord} (scheduled : r.Scheduled) (same : r'.info = r.info) :
    r'.Scheduled :=
  scheduled.of_band (by rw [ThreadRecord.band, same]; rfl)

/-- A record in a realtime bucket for its policy is not depressed. -/
theorem Scheduled.in_band {r : ThreadRecord} (scheduled : r.Scheduled)
    (realtime : r.info.realtime = true) (band : realtimeQueuePriority ≤ r.info.scheduledPriority) :
    r.info.scheduledPriority = realtimeQueuePriority := by
  cases depressed : r.info.depressed with
  | false => exact scheduled.realtime depressed realtime
  | true =>
    rw [scheduled.depressed depressed] at band
    contradiction

def placement (r : ThreadRecord) : Bool × Option Nat × Int × Option RealtimeQueueKey :=
  (r.queued, r.queuedProcessor, r.queuedPriority, r.realtimeQueueKey)

/-- Everything that run queues, counters and indexes record about a thread. -/
structure Books where
  id : XnuThreadId
  placement : Bool × Option Nat × Int × Option RealtimeQueueKey
  hostAwait : Bool
  state : XnuThreadState
  loadBucket : XnuSchedulerLoad.Bucket
  usageIndex : Option Nat
  failsafe : Option Nat
  depressionDeadline : Option Nat
  deriving DecidableEq

def failsafeEntry (r : ThreadRecord) : Option Nat :=
  if r.info.failsafe then some r.info.failsafeReleaseTick else none

def books (r : ThreadRecord) : Books where
  id := r.id
  placement := r.placement
  hostAwait := r.hostAwait
  state := r.info.state
  loadBucket := r.loadBucket
  usageIndex := r.usageIndex
  failsafe := r.failsafeEntry
  depressionDeadline := r.depressionDeadline

end ThreadRecord

namespace XnuScheduler

/-- The number of threads on all queues. -/
def queuedTotal (s : XnuScheduler) : Nat :=
  s.processorSetRunQueue.count + (s.processorRunQueues.map RunQueue.count).sum

structure QueuesAgree (s : XnuScheduler) : Prop where
  summarized : ∀ place q, s.runQueueAt place = some q → q.Summarized
  listed : ∀ place q, s.runQueueAt place = some q → ∀ (i : Nat) t, t ∈ q.queues i ↔
    ∃ r, s.threads.lookup t = some r ∧
      r.queued = true ∧ r.queuedProcessor = place ∧ r.queuedPriority = i
  ordered : ∀ place q, s.runQueueAt place = some q → ∀ k, k ∈ q.realtimeOrder ↔
    ∃ r, s.threads.lookup k.thread = some r ∧
      r.queued = true ∧ r.queuedProcessor = place ∧ r.realtimeQueueKey = some k
  total : s.runnableCount = s.queuedTotal

structure CountersAgree (s : XnuScheduler) : Prop where
  hostAwait : s.hostAwaitCount = s.threads.tally (·.hostAwait)
  runnable : ∀ p, (s.processRunnableCounts.lookup p).getD 0 =
    s.threads.tally fun r => r.info.state.isRunnable && r.id.process == p
  load : ∀ b, s.schedulerLoad.counts b =
    s.threads.tally fun r => r.info.state.isActive && r.loadBucket == b

structure OwnersAgree (s : XnuScheduler) : Prop where
  owned : ∀ p owned, s.processThreads.lookup p = some owned → owned ≠ [] ∧ owned.Nodup ∧
    ∀ t, t ∈ owned ↔ t.process = p ∧ (s.threads.lookup t).isSome
  owner : ∀ t, (s.threads.lookup t).isSome → (s.processThreads.lookup t.process).isSome
  history : ∀ p, (s.processThreads.lookup p).isSome → (s.taskHistory.lookup p).isSome
  counted : ∀ p, (s.processRunnableCounts.lookup p).isSome ↔ (s.processThreads.lookup p).isSome

structure IndexesAgree (s : XnuScheduler) : Prop where
  usage : ∀ (i : Nat) t, s.usageRecords[i]? = some t ↔
    ∃ r, s.threads.lookup t = some r ∧ r.usageIndex = some i
  failsafe : ∀ tick t, toLex (tick, t) ∈ s.failsafeOrder ↔
    ∃ r, s.threads.lookup t = some r ∧ r.failsafeEntry = some tick
  depression : ∀ deadline t, toLex (deadline, t) ∈ s.depressionOrder ↔
    ∃ r, s.threads.lookup t = some r ∧ r.depressionDeadline = some deadline

structure Configured (s : XnuScheduler) : Prop where
  quantum : 0 < s.quantumTicks
  tick : 0 < s.schedulerTickTicks
  processors : 0 < s.processorRunQueues.length
  contexts : s.processorContexts.length = s.processorRunQueues.length
  computation : 0 < s.minimumRealtimeComputationTicks
  floor : minimumPriority ≤ s.minimumUserPriority ∧ s.minimumUserPriority ≤ maximumUserPriority

/-- Every cached structure agrees with the records. Only the waiting count is left
out, which operations adjust apart from the state it counts. -/
structure Balanced (s : XnuScheduler) : Prop where
  ids : ∀ t r, s.threads.lookup t = some r → r.id = t
  ranged : ∀ t r, s.threads.lookup t = some r → r.Ranged s.processorRunQueues.length
  placed : ∀ t r, s.threads.lookup t = some r → r.Placed
  queues : s.QueuesAgree
  counters : s.CountersAgree
  owners : s.OwnersAgree
  indexes : s.IndexesAgree
  configured : s.Configured

theorem lookup_store (s : XnuScheduler) (r : ThreadRecord) (t : XnuThreadId) :
    (s.store r).threads.lookup t = if t = r.id then some r else s.threads.lookup t :=
  Table.lookup_insert_eq ..

@[simp] theorem lookup_store_self (s : XnuScheduler) (r : ThreadRecord) :
    (s.store r).threads.lookup r.id = some r :=
  AList.lookup_insert _

theorem tally_store (p : ThreadRecord → Bool) (s : XnuScheduler) (r : ThreadRecord) :
    (s.store r).threads.tally p = (p r).toNat + Table.tally p (s.threads.erase r.id) :=
  Table.total_insert ..

section congr
variable {s s' : XnuScheduler}

theorem QueuesAgree.congr (agree : s.QueuesAgree)
    (shared : s'.processorSetRunQueue = s.processorSetRunQueue)
    (own : s'.processorRunQueues = s.processorRunQueues)
    (count : s'.runnableCount = s.runnableCount)
    (alike : Table.Alike ThreadRecord.placement s.threads s'.threads) : s'.QueuesAgree := by
  have at_eq : ∀ place, s'.runQueueAt place = s.runQueueAt place := by
    intro place
    cases place with
    | none => exact congrArg some shared
    | some p => simp only [runQueueAt, own]
  refine ⟨?_, ?_, ?_, ?_⟩
  · intro place q found
    exact agree.summarized place q (at_eq place ▸ found)
  · intro place q found i t
    rw [agree.listed place q (at_eq place ▸ found)]
    exact alike.exists_iff (fun x => x.1 = true ∧ x.2.1 = place ∧ x.2.2.1 = i) t
  · intro place q found k
    rw [agree.ordered place q (at_eq place ▸ found)]
    exact alike.exists_iff (fun x => x.1 = true ∧ x.2.1 = place ∧ x.2.2.2 = some k) k.thread
  · rw [count, agree.total, queuedTotal, queuedTotal, shared, own]

theorem OwnersAgree.congr (agree : s.OwnersAgree)
    (owned : s'.processThreads = s.processThreads)
    (history : ∀ p, (s.taskHistory.lookup p).isSome → (s'.taskHistory.lookup p).isSome)
    (counts : ∀ p, (s'.processRunnableCounts.lookup p).isSome =
      (s.processRunnableCounts.lookup p).isSome)
    (same : ∀ t, (s'.threads.lookup t).isSome = (s.threads.lookup t).isSome) : s'.OwnersAgree := by
  refine ⟨?_, ?_, ?_, ?_⟩
  · intro p threads found
    simp only [same]
    exact agree.owned p threads (owned ▸ found)
  · intro t here
    rw [owned]
    exact agree.owner t (same t ▸ here)
  · intro p here
    rw [owned] at here
    exact history p (agree.history p here)
  · intro p
    rw [counts, owned]
    exact agree.counted p

theorem IndexesAgree.congr (agree : s.IndexesAgree)
    (usage : s'.usageRecords = s.usageRecords) (failsafe : s'.failsafeOrder = s.failsafeOrder)
    (depression : s'.depressionOrder = s.depressionOrder)
    (alikeUsage : Table.Alike ThreadRecord.usageIndex s.threads s'.threads)
    (alikeFailsafe : Table.Alike ThreadRecord.failsafeEntry s.threads s'.threads)
    (alikeDepression : Table.Alike ThreadRecord.depressionDeadline s.threads s'.threads) :
    s'.IndexesAgree := by
  refine ⟨?_, ?_, ?_⟩
  · intro i t
    rw [usage, agree.usage]
    exact alikeUsage.exists_iff (· = some i) t
  · intro tick t
    rw [failsafe, agree.failsafe]
    exact alikeFailsafe.exists_iff (· = some tick) t
  · intro deadline t
    rw [depression, agree.depression]
    exact alikeDepression.exists_iff (· = some deadline) t

end congr

/-- The fields that `Balanced` compares with the records, histories and the usage
index apart. -/
def ledger (s : XnuScheduler) :=
  (s.processorSetRunQueue, s.processorRunQueues, s.processThreads, s.processRunnableCounts,
    s.depressionOrder, s.failsafeOrder, s.runnableCount, s.hostAwaitCount, s.schedulerLoad.counts)

/-- The place of a record in the usage index is nobody's concern but the index's. -/
def unindexed (r : ThreadRecord) : ThreadRecord := { r with usageIndex := none }

theorem Balanced.congr {s s' : XnuScheduler} (balanced : s.Balanced) (same : s'.ledger = s.ledger)
    (alike : Table.Alike unindexed s.threads s'.threads)
    (history : ∀ p, (s.taskHistory.lookup p).isSome → (s'.taskHistory.lookup p).isSome)
    (usage : ∀ (i : Nat) t, s'.usageRecords[i]? = some t ↔
      ∃ r, s'.threads.lookup t = some r ∧ r.usageIndex = some i)
    (configured : s'.Configured) : s'.Balanced := by
  simp only [ledger, Prod.mk.injEq] at same
  obtain ⟨shared, own, owned, counts, depression, failsafe, runnable, hostAwait, load⟩ := same
  refine ⟨?_, ?_, ?_, ?_, ⟨?_, ?_, ?_⟩, ?_, ⟨usage, ?_, ?_⟩, configured⟩
  · intro t r found
    obtain ⟨r', found', same⟩ := alike.symm.forward found
    exact (congrArg ThreadRecord.id same).symm.trans (balanced.ids t r' found')
  · intro t r found
    obtain ⟨r', found', same⟩ := alike.symm.forward found
    have ranged : (unindexed r').Ranged _ := { balanced.ranged t r' found' with }
    rw [same] at ranged
    rw [own]
    exact { ranged with }
  · intro t r found
    obtain ⟨r', found', same⟩ := alike.symm.forward found
    have placed : (unindexed r').Placed := { balanced.placed t r' found' with }
    rw [same] at placed
    exact { placed with }
  · exact balanced.queues.congr shared own runnable (alike.through ThreadRecord.placement)
  · rw [hostAwait, balanced.counters.hostAwait]
    exact alike.tally (·.hostAwait)
  · intro p
    rw [counts, balanced.counters.runnable]
    exact alike.tally fun r => r.info.state.isRunnable && r.id.process == p
  · intro b
    rw [load, balanced.counters.load]
    exact alike.tally fun r => r.info.state.isActive && r.loadBucket == b
  · exact balanced.owners.congr owned history (by simp [counts]) alike.isSome
  · intro tick t
    rw [failsafe, balanced.indexes.failsafe]
    exact (alike.through ThreadRecord.failsafeEntry).exists_iff (· = some tick) t
  · intro deadline t
    rw [depression, balanced.indexes.depression]
    exact (alike.through ThreadRecord.depressionDeadline).exists_iff (· = some deadline) t

theorem Balanced.aside {s s' : XnuScheduler} (balanced : s.Balanced) (same : s'.ledger = s.ledger)
    (lookups : ∀ t, s'.threads.lookup t = s.threads.lookup t)
    (usage : s'.usageRecords = s.usageRecords)
    (history : ∀ p, (s.taskHistory.lookup p).isSome → (s'.taskHistory.lookup p).isSome)
    (configured : s'.Configured) : s'.Balanced := by
  refine balanced.congr same (fun t => by rw [lookups]) history ?_ configured
  intro i t
  rw [usage, lookups]
  exact balanced.indexes.usage i t

theorem isSome_store (s : XnuScheduler) (r : ThreadRecord) (t : XnuThreadId) :
    ((s.store r).threads.lookup t).isSome = (decide (t = r.id) || (s.threads.lookup t).isSome) := by
  rw [lookup_store]
  split <;> simp [*]

section replace
variable {s s' : XnuScheduler} {r r' : ThreadRecord}

theorem alike_store {X : Type} (view : ThreadRecord → X) (threads : s'.threads = s.threads)
    (id : r'.id = r.id) (same : view r' = view r) :
    Table.Alike view (s.store r).threads (s'.store r').threads := by
  simp only [store, id, threads]
  exact Table.Alike.insert same.symm (Table.Alike.refl _ _) _

theorem tally_replace {p : ThreadRecord → Bool} (threads : s'.threads = s.threads)
    (id : r'.id = r.id) (same : p r' = p r) :
    (s'.store r').threads.tally p = (s.store r).threads.tally p := by
  rw [tally_store, tally_store, threads, id, same]

theorem forall_store {P : ThreadRecord → Prop}
    (old : ∀ t r₀, (s.store r).threads.lookup t = some r₀ → P r₀)
    (threads : s'.threads = s.threads) (id : r'.id = r.id) (new : P r') :
    ∀ t r₀, (s'.store r').threads.lookup t = some r₀ → P r₀ := by
  intro t r₀ found
  rw [lookup_store, id, threads] at found
  split at found
  · exact Option.some.inj found ▸ new
  · rename_i other
    refine old t r₀ ?_
    rw [lookup_store, if_neg other]
    exact found

theorem CountersAgree.replace (agree : (s.store r).CountersAgree) (threads : s'.threads = s.threads)
    (id : r'.id = r.id) (hostAwaitCount : s'.hostAwaitCount = s.hostAwaitCount)
    (counts : s'.processRunnableCounts = s.processRunnableCounts)
    (load : s'.schedulerLoad.counts = s.schedulerLoad.counts) (hostAwait : r'.hostAwait = r.hostAwait)
    (state : r'.info.state = r.info.state) (bucket : r'.loadBucket = r.loadBucket) :
    (s'.store r').CountersAgree := by
  refine ⟨?_, ?_, ?_⟩
  · rw [tally_replace threads id hostAwait]
    exact hostAwaitCount.trans agree.hostAwait
  · intro p
    rw [tally_replace threads id (by rw [state, id]), ← agree.runnable]
    simp only [store, counts]
  · intro b
    rw [tally_replace threads id (by rw [state, bucket]), ← agree.load]
    simp only [store, load]

theorem OwnersAgree.replace (agree : (s.store r).OwnersAgree) (threads : s'.threads = s.threads)
    (id : r'.id = r.id) (owned : s'.processThreads = s.processThreads)
    (history : ∀ p, (s.taskHistory.lookup p).isSome → (s'.taskHistory.lookup p).isSome)
    (counts : ∀ p, (s'.processRunnableCounts.lookup p).isSome =
      (s.processRunnableCounts.lookup p).isSome) :
    (s'.store r').OwnersAgree := by
  refine agree.congr owned history counts ?_
  intro t
  rw [isSome_store, isSome_store, threads, id]

theorem IndexesAgree.replace (agree : (s.store r).IndexesAgree) (threads : s'.threads = s.threads)
    (id : r'.id = r.id) (usageRecords : s'.usageRecords = s.usageRecords)
    (failsafeOrder : s'.failsafeOrder = s.failsafeOrder)
    (depressionOrder : s'.depressionOrder = s.depressionOrder)
    (usage : r'.usageIndex = r.usageIndex) (failsafe : r'.failsafeEntry = r.failsafeEntry)
    (depression : r'.depressionDeadline = r.depressionDeadline) :
    (s'.store r').IndexesAgree :=
  agree.congr usageRecords failsafeOrder depressionOrder (alike_store _ threads id usage)
    (alike_store _ threads id failsafe) (alike_store _ threads id depression)

theorem Balanced.replace (balanced : (s.store r).Balanced) (threads : s'.threads = s.threads)
    (id : r'.id = r.id) (processors : s'.processorRunQueues.length = s.processorRunQueues.length)
    (ranged : r'.Ranged s.processorRunQueues.length) (placed : r'.Placed)
    (queues : (s'.store r').QueuesAgree) (counters : (s'.store r').CountersAgree)
    (owners : (s'.store r').OwnersAgree) (indexes : (s'.store r').IndexesAgree)
    (configured : s'.Configured) : (s'.store r').Balanced := by
  refine ⟨?_, ?_, ?_, queues, counters, owners, indexes, ?_⟩
  · intro t r₀ found
    rw [lookup_store] at found
    split at found
    · rename_i same
      exact Option.some.inj found ▸ same.symm
    · rename_i other
      refine balanced.ids t r₀ ?_
      rw [lookup_store, ← id, if_neg other, ← threads, found]
  · change ∀ t (r₀ : ThreadRecord), _ → r₀.Ranged s'.processorRunQueues.length
    rw [processors]
    exact forall_store balanced.ranged threads id ranged
  · exact forall_store balanced.placed threads id placed
  · exact ⟨configured.quantum, configured.tick, configured.processors, configured.contexts,
      configured.computation, configured.floor⟩

theorem Balanced.configured_unstored (balanced : (s.store r).Balanced) : s.Configured :=
  ⟨balanced.configured.quantum, balanced.configured.tick, balanced.configured.processors,
    balanced.configured.contexts, balanced.configured.computation, balanced.configured.floor⟩

/-- A change of the record in hand that no book records. -/
theorem Balanced.touch (balanced : (s.store r).Balanced) (books : r'.books = r.books)
    (ranged : r'.Ranged s.processorRunQueues.length) (placed : r'.Placed) :
    (s.store r').Balanced := by
  have id : r'.id = r.id := congrArg ThreadRecord.Books.id books
  refine balanced.replace rfl id rfl ranged placed ?_ ?_ ?_ ?_ balanced.configured_unstored
  · exact balanced.queues.congr rfl rfl rfl
      (alike_store _ rfl id (congrArg ThreadRecord.Books.placement books))
  · exact balanced.counters.replace rfl id rfl rfl rfl
      (congrArg ThreadRecord.Books.hostAwait books) (congrArg ThreadRecord.Books.state books)
      (congrArg ThreadRecord.Books.loadBucket books)
  · exact balanced.owners.replace rfl id rfl (fun _ here => here) (fun _ => rfl)
  · exact balanced.indexes.replace rfl id rfl rfl rfl
      (congrArg ThreadRecord.Books.usageIndex books) (congrArg ThreadRecord.Books.failsafe books)
      (congrArg ThreadRecord.Books.depressionDeadline books)

end replace

end XnuScheduler
end ILEmu
