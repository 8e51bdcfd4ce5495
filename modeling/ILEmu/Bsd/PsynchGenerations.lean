import ILEmu.Bsd.PsynchMutex
import ILEmu.Bsd.PsynchRwLock

/-! The generation that a dropped mutex returns: the greatest of the queued sequences as numbers,
against the latest of them around the end of the generation space. -/
namespace ILEmu.Bsd.Psynch
open Foundation QueueState DarwinPsynchRuntime

/-- No sequence of the queue is after it. -/
structure IsLatest (waiters : List Waiter) (sequence : Word) : Prop where
  queued : ∃ waiter ∈ waiters, waiter.sequence = sequence
  notAfter : ∀ waiter ∈ waiters, sequenceNotAfter waiter.sequence sequence = true

/-- As numbers, no two sequences are half the generation space apart. -/
def Unwrapped (waiters : List Waiter) : Prop :=
  ∀ early ∈ waiters, ∀ late ∈ waiters, late.sequence.toNat - early.sequence.toNat < 2 ^ 31

instance (waiters : List Waiter) : Decidable (Unwrapped waiters) :=
  List.decidableBAll _ _

/-- The sequences of a queue are generations. -/
def WholeQueue (queue : QueueState) : Prop := ∀ waiter ∈ queue.waiters, Whole waiter.sequence

section Highest
variable {waiters : List Waiter}

/-- The fold keeps the greatest of its start and the sequences that it has passed. -/
theorem foldl_highest (waiters : List Waiter) (start : Word) :
    let highest := waiters.foldl (fun highest waiter =>
      if highest < waiter.sequence then waiter.sequence else highest) start
    (highest = start ∨ ∃ waiter ∈ waiters, waiter.sequence = highest) ∧ start ≤ highest ∧
      ∀ waiter ∈ waiters, waiter.sequence ≤ highest := by
  induction waiters generalizing start with
  | nil => exact ⟨.inl rfl, BitVec.le_refl _, fun _ member => absurd member List.not_mem_nil⟩
  | cons first rest ih =>
    obtain ⟨origin, above, greatest⟩ := ih (if start < first.sequence then first.sequence else start)
    simp only [List.foldl_cons]
    generalize rest.foldl _ _ = highest at origin above greatest ⊢
    have bounds : start ≤ highest ∧ first.sequence ≤ highest := by
      split at above
      · exact ⟨by bv_omega, above⟩
      · exact ⟨above, by bv_omega⟩
    refine ⟨?_, bounds.1, List.forall_mem_cons.mpr ⟨bounds.2, greatest⟩⟩
    rcases origin with same | ⟨waiter, member, same⟩
    · split at same
      · exact .inr ⟨first, List.mem_cons_self, same.symm⟩
      · exact .inl same
    · exact .inr ⟨waiter, List.mem_cons_of_mem _ member, same⟩

theorem highestSequence_mem (queued : waiters ≠ []) :
    ∃ waiter ∈ waiters, waiter.sequence = highestSequence waiters := by
  obtain ⟨origin, -, greatest⟩ := foldl_highest waiters 0
  rcases origin with zero | found
  · obtain ⟨first, member⟩ := List.exists_mem_of_ne_nil _ queued
    have below := greatest first member
    rw [zero] at below
    refine ⟨first, member, ?_⟩
    change first.sequence = waiters.foldl _ 0
    rw [zero]
    bv_omega
  · exact found

theorem le_highestSequence {waiter : Waiter} (member : waiter ∈ waiters) :
    waiter.sequence ≤ highestSequence waiters :=
  (foldl_highest waiters 0).2.2 waiter member

/-- Below a greater number, the generations between are those of the difference. -/
theorem sequenceNotAfter_iff_sub {low high : Word} (whole : Whole low) (whole' : Whole high)
    (below : low ≤ high) : sequenceNotAfter low high = true ↔ high.toNat - low.toNat < 2 ^ 31 := by
  unfold Whole at whole whole'
  have below : low.toNat ≤ high.toNat := below
  have bound := high.isLt
  rw [sequenceNotAfter_iff whole, BitVec.toNat_sub, generation_toNat, generation_toNat]
  omega

/-- The greatest sequence is the latest exactly as long as the numbers of the queue lie within
half the space. -/
theorem highestSequence_latest (queued : waiters ≠ [])
    (whole : ∀ waiter ∈ waiters, Whole waiter.sequence) :
    IsLatest waiters (highestSequence waiters) ↔ Unwrapped waiters := by
  obtain ⟨top, here, same⟩ := highestSequence_mem queued
  have apart : ∀ waiter ∈ waiters, sequenceNotAfter waiter.sequence (highestSequence waiters) = true ↔
      (highestSequence waiters).toNat - waiter.sequence.toNat < 2 ^ 31 := by
    intro waiter member
    apply sequenceNotAfter_iff_sub (whole waiter member) _ (le_highestSequence member)
    rw [← same]
    exact whole top here
  constructor
  · intro latest early member late member'
    have near := (apart early member).mp (latest.notAfter early member)
    have below : late.sequence.toNat ≤ (highestSequence waiters).toNat := le_highestSequence member'
    omega
  · intro unwrapped
    refine ⟨⟨top, here, same⟩, fun waiter member => (apart waiter member).mpr ?_⟩
    rw [← same]
    exact unwrapped waiter member top here

end Highest

/-! ### The sequences of a run -/

section Run
variable {runtime : DarwinPsynchRuntime} {key : QueueKey} {expired : Nat → Bool}

theorem WholeQueue.shared (whole : WholeQueue (runtime.queues key)) (object : DarwinPsynchObject) :
    WholeQueue ((runtime.sharedOperation object expired).queues key) := by
  unfold sharedOperation
  dsimp only
  split
  · split
    · unfold pruneExpiredSharedQueues
      dsimp only
      split
      · exact fun _ member => absurd member List.not_mem_nil
      · exact whole
    · exact whole
  · exact whole

theorem WholeQueue.set {own : QueueKey} {queue : QueueState}
    (whole : WholeQueue (runtime.queues key)) (mine : own = key → WholeQueue queue) :
    WholeQueue ((runtime.setQueue own queue).queues key) := by
  rw [setQueue_queues]
  split
  · exact mine ‹_›
  · exact whole

theorem WholeQueue.erase (whole : WholeQueue (runtime.queues key)) (gone : Waiter → Bool) :
    WholeQueue (runtime.eraseWaiters gone expired key) := by
  unfold eraseWaiters
  dsimp only
  split
  · exact fun _ member => absurd member List.not_mem_nil
  · exact fun waiter member => whole waiter (List.mem_of_mem_filter member)

theorem WholeQueue.wait {queue : QueueState} (whole : WholeQueue queue) {waiter : Waiter}
    (fresh : Whole waiter.sequence) (firstFit : Bool) :
    WholeQueue (queue.waitMutex waiter firstFit).1 := by
  rcases waitMutex_cases queue waiter firstFit with ⟨left, -, after, -⟩ | ⟨-, after, -⟩
  · rw [after]
    exact whole
  · rw [after]
    intro other member
    rcases List.mem_append.mp member with old | new
    · exact whole other old
    · rw [List.mem_singleton.mp new]
      exact fresh

theorem WholeQueue.drop {queue : QueueState} (whole : WholeQueue queue)
    (lockGeneration unlockGeneration : Word) (firstFit : Bool) :
    WholeQueue (queue.dropMutex lockGeneration unlockGeneration firstFit).1 := by
  rcases dropMutex_cases queue lockGeneration unlockGeneration firstFit with
    ⟨before, first, behind, result, split, after, -⟩ | ⟨sequence, -, after, -⟩
  · rw [after]
    intro waiter member
    apply whole waiter
    rw [split]
    rcases List.mem_append.mp member with ahead | later
    · exact List.mem_append_left _ ahead
    · exact List.mem_append_right _ (List.mem_cons_of_mem _ later)
  · rw [after]
    exact whole

theorem WholeQueue.dropCall (whole : WholeQueue (runtime.queues key)) (processId : Word)
    (drop : MutexDrop) (flags : Word) :
    WholeQueue ((runtime.dropMutex expired processId drop flags).1.queues key) := by
  unfold DarwinPsynchRuntime.dropMutex
  dsimp only
  rw [completeWaits_queues]
  refine (whole.shared drop.object).set ?_
  rintro rfl
  exact (whole.shared drop.object).drop _ _ _

/-- A mutex queues whole sequences, whatever is called. -/
theorem WholeQueue.next (whole : WholeQueue (runtime.queues key)) (family : key.family = .mutex)
    (call : Call) : WholeQueue ((runtime.next call).queues key) := by
  obtain ⟨operation, expired⟩ := call
  -- The queues of the other families are not this one.
  have elsewhere : ∀ {processId object} {other : QueueFamily} {P : Prop}, other ≠ .mutex →
      objectKey processId object other = key → P :=
    fun different same => absurd (by rw [← family, ← same]; rfl) different
  unfold DarwinPsynchRuntime.next step
  cases operation with
  | waitMutex thread object lockGeneration flags =>
    refine (whole.shared object).set ?_
    rintro rfl
    exact (whole.shared object).wait (whole_masked lockGeneration) _
  | dropMutex processId drop flags => exact whole.dropCall processId drop flags
  | waitCondition thread object lockAndSignalGeneration mutexDrop flags =>
    cases mutexDrop with
    | none => exact (whole.shared object).set (elsewhere (by decide))
    | some drop =>
      exact ((whole.dropCall thread.processId drop flags).shared object).set (elsewhere (by decide))
  | signalCondition processId object lockAndSignalGeneration unlockGeneration target =>
    dsimp only [DarwinPsynchRuntime.signalCondition]
    rw [completeWaits_queues]
    exact (whole.shared object).set (elsewhere (by decide))
  | broadcastCondition processId object lockAndSignalGeneration =>
    dsimp only [DarwinPsynchRuntime.broadcastCondition]
    rw [completeWaits_queues]
    exact (whole.shared object).set (elsewhere (by decide))
  | clearPreposts processId object mutexObject =>
    refine (whole.shared object).set ?_
    rintro rfl
    exact whole.shared object
  | waitRwlock thread object lockGeneration sequenceWord kind =>
    have set : ∀ queue, WholeQueue (((runtime.sharedOperation object expired).setQueue
        (objectKey thread.processId object .rwLock) queue).queues key) :=
      fun queue => (whole.shared object).set (elsewhere (by decide))
    unfold DarwinPsynchRuntime.waitRwlock
    dsimp only
    split
    · exact set _
    · exact set _
    · split
      · rw [setResult_queues, completeWaits_queues]
        exact set _
      · rw [completeWaits_queues]
        exact set _
  | unlockRwlock processId object lockGeneration unlockGeneration sequenceWord =>
    have set : ∀ queue, WholeQueue (((runtime.sharedOperation object expired).setQueue
        (objectKey processId object .rwLock) queue).queues key) :=
      fun queue => (whole.shared object).set (elsewhere (by decide))
    unfold DarwinPsynchRuntime.unlockRwlock
    dsimp only
    split
    · exact set _
    · exact set _
    · rw [completeWaits_queues]
      exact set _
  | takeResult thread =>
    dsimp only [DarwinPsynchRuntime.takeResult]
    split
    · exact whole
    · exact whole
  | cancelWait thread => exact whole.erase _
  | clearProcess processId =>
    dsimp only [DarwinPsynchRuntime.clearProcess]
    split
    · exact fun _ member => absurd member List.not_mem_nil
    · exact whole.erase _

theorem wholeQueue_run (family : key.family = .mutex) (calls : List Call) :
    WholeQueue ((run DarwinPsynchRuntime.next {} calls).queues key) := by
  have preserves : ∀ (runtime : DarwinPsynchRuntime) (call : Call),
      WholeQueue (runtime.queues key) → WholeQueue ((runtime.next call).queues key) :=
    fun _ call whole => whole.next family call
  have start : WholeQueue (({} : DarwinPsynchRuntime).queues key) :=
    fun _ member => absurd member List.not_mem_nil
  exact run_invariant preserves start calls

/-- Pruning leaves every waiter. -/
theorem sharedOperation_waiters (object : DarwinPsynchObject) :
    ((runtime.sharedOperation object expired).queues key).waiters = (runtime.queues key).waiters := by
  unfold sharedOperation
  dsimp only
  split
  · split
    · unfold pruneExpiredSharedQueues
      dsimp only
      split
      · rename_i gone
        exact (List.isEmpty_iff.mp (Bool.and_eq_true_iff.mp gone).2).symm
      · rfl
    · rfl
  · rfl

theorem dropMutex_completes (processId : Word) (drop : MutexDrop) (flags : Word) :
    let shared := runtime.sharedOperation drop.object expired
    let key := objectKey processId drop.object .mutex
    let dropped := (shared.queues key).dropMutex drop.lockGeneration drop.unlockGeneration
      (flags &&& firstFitPolicy ≠ 0)
    (runtime.dropMutex expired processId drop flags).1 =
      (shared.setQueue key dropped.1).completeWaits dropped.2.2 := rfl

theorem completeWaits_singleton (completion : Completion) :
    (runtime.completeWaits [completion]).completedResults completion.waiter.thread =
      some completion.result :=
  Function.update_self ..

end Run

/-- The generation in the result of a wait for a mutex. -/
theorem granted_generation {sequence : Word} (whole : Whole sequence) :
    (sequence ||| kernelBit ||| exclusiveBit) &&& generationMask = sequence := by
  have low : ∀ i < 8, sequence.getLsbD i = false := by
    intro i small
    have zero : (sequence.toNat % 2 ^ 8).testBit i = false := by
      rw [show sequence.toNat % 2 ^ 8 = 0 from whole, Nat.zero_testBit]
    rw [Nat.testBit_mod_two_pow, decide_eq_true small, Bool.true_and] at zero
    exact zero
  have masks : ∀ i < 32, generationMask.getLsbD i = decide (8 ≤ i) := by decide
  have flags : ∀ i < 32, 8 ≤ i → (kernelBit.getLsbD i || exclusiveBit.getLsbD i) = false := by
    decide
  apply BitVec.eq_of_getLsbD_eq
  intro i inside
  rw [BitVec.getLsbD_and, BitVec.getLsbD_or, BitVec.getLsbD_or, masks i inside]
  by_cases small : i < 8
  · rw [low i small, decide_eq_false (Nat.not_le.mpr small), Bool.and_false]
  · rw [Bool.or_assoc, flags i inside (Nat.not_lt.mp small), decide_eq_true (Nat.not_lt.mp small),
      Bool.or_false, Bool.and_true]

theorem dropMutex_result {queue : QueueState} (queued : queue.waiters ≠ [])
    (lockGeneration unlockGeneration : Word) (firstFit : Bool) :
    ∃ waiter, (queue.dropMutex lockGeneration unlockGeneration firstFit).2.2 =
      [{ waiter, result := highestSequence queue.waiters ||| kernelBit ||| exclusiveBit }] := by
  unfold QueueState.dropMutex
  dsimp only
  split
  · exact ⟨_, rfl⟩
  · rename_i missed
    exact absurd (mutexSuccessor_none missed) queued

/-- The drop of a mutex that is waited for returns the latest of the queued generations exactly as
long as their numbers lie within half the generation space. -/
theorem dropMutex_latest_iff (calls : List Call) (expired : Nat → Bool) (processId : Word)
    (drop : MutexDrop) (flags : Word) :
    let runtime := run DarwinPsynchRuntime.next {} calls
    let waiters := (runtime.queues (objectKey processId drop.object .mutex)).waiters
    let dropped := runtime.dropMutex expired processId drop flags
    waiters ≠ [] → ∃ thread result, dropped.2.wokenThreads = [thread] ∧
      dropped.1.completedResults thread = some result ∧
      (IsLatest waiters (result &&& generationMask) ↔ Unwrapped waiters) := by
  intro runtime waiters dropped queued
  have same : ((runtime.sharedOperation drop.object expired).queues
      (objectKey processId drop.object .mutex)).waiters = waiters :=
    sharedOperation_waiters drop.object
  have whole : WholeQueue (runtime.queues (objectKey processId drop.object .mutex)) :=
    wholeQueue_run rfl calls
  obtain ⟨top, member, highest⟩ := highestSequence_mem queued
  obtain ⟨waiter, completed⟩ := dropMutex_result (fun empty => queued (same.symm.trans empty))
    drop.lockGeneration drop.unlockGeneration (flags &&& firstFitPolicy ≠ 0)
  rw [same] at completed
  refine ⟨waiter.thread, highestSequence waiters ||| kernelBit ||| exclusiveBit,
    congrArg woken completed, ?_, ?_⟩
  · change (runtime.dropMutex expired processId drop flags).1.completedResults waiter.thread = _
    rw [dropMutex_completes, completed]
    exact completeWaits_singleton _
  · rw [granted_generation]
    · exact highestSequence_latest queued whole
    · rw [← highest]
      exact whole top member

def valve : MutexDrop :=
  { object := { address := 0x5000 }, lockGeneration := 0x300, unlockGeneration := 0 }

/-- Two waiters of one mutex. -/
def waitedTwice (first second : Word) : List Call :=
  [{ operation := .waitMutex ⟨1, 0⟩ valve.object first 0 },
    { operation := .waitMutex ⟨1, 1⟩ valve.object second 0 }]

theorem dropMutex_latest_iff_twice :
    let waiters := ((run DarwinPsynchRuntime.next {} (waitedTwice 0x100 0x200)).queues
      (objectKey 1 valve.object .mutex)).waiters
    ∃ thread result, ((run DarwinPsynchRuntime.next {} (waitedTwice 0x100 0x200)).dropMutex
        (fun _ => false) 1 valve 0).2.wokenThreads = [thread] ∧
      ((run DarwinPsynchRuntime.next {} (waitedTwice 0x100 0x200)).dropMutex
        (fun _ => false) 1 valve 0).1.completedResults thread = some result ∧
      (IsLatest waiters (result &&& generationMask) ↔ Unwrapped waiters) :=
  dropMutex_latest_iff (waitedTwice 0x100 0x200) (fun _ => false) 1 valve 0 (by decide)

/-- The counter wraps between two waiters, and the drop returns the earlier of them. -/
theorem dropMutex_wrapped : ¬∀ (calls : List Call) (expired : Nat → Bool) (processId : Word)
    (drop : MutexDrop) (flags : Word),
    let runtime := run DarwinPsynchRuntime.next {} calls
    let waiters := (runtime.queues (objectKey processId drop.object .mutex)).waiters
    let dropped := runtime.dropMutex expired processId drop flags
    WithinHalf (waiters.map Waiter.sequence) → ∀ thread ∈ dropped.2.wokenThreads,
      ∀ result, dropped.1.completedResults thread = some result →
        IsLatest waiters (result &&& generationMask) := by
  intro latest
  have queued : ((run DarwinPsynchRuntime.next {} (waitedTwice 0xffffff00 0)).queues
      (objectKey 1 valve.object .mutex)).waiters =
        [⟨⟨1, 0⟩, 0xffffff00, .mutex⟩, ⟨⟨1, 1⟩, 0, .mutex⟩] := by
    decide +kernel
  have granted := latest (waitedTwice 0xffffff00 0) (fun _ => false) 1 valve 0
  dsimp only at granted
  rw [queued] at granted
  have within : WithinHalf [0xffffff00, 0] := ⟨generation 0xffffff00, by simp [generation]⟩
  have last := granted within ⟨1, 0⟩ (by decide +kernel) 0xffffff03 (by decide +kernel)
  have later := last.notAfter ⟨⟨1, 1⟩, 0, .mutex⟩ (by decide)
  exact absurd later (by decide)

end ILEmu.Bsd.Psynch
