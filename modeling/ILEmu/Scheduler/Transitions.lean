import ILEmu.Foundation.Counters
import ILEmu.Scheduler.Placement

/-! The record in hand changes state: the counters follow. -/
namespace ILEmu
open Foundation Xnu.Scheduler
namespace XnuScheduler

/-- The scheduler with other per-state counters. -/
def recounted (s : XnuScheduler) (hostAwaitCount : Nat) (counts : Table Nat Nat)
    (load : XnuSchedulerLoad) : XnuScheduler :=
  { s with hostAwaitCount, processRunnableCounts := counts, schedulerLoad := load }

/-- The load bucket that counts a record. -/
def loadClass (r : ThreadRecord) : Option XnuSchedulerLoad.Bucket :=
  if r.info.state.isActive then some r.loadBucket else none

/-- The process that counts a record as runnable. -/
def runnableClass (r : ThreadRecord) : Option Nat :=
  if r.info.state.isRunnable then some r.id.process else none

section
variable {s s' : XnuScheduler} {r r' : ThreadRecord} {counted : Bool}

/-- The counters are those of the other records and of the record in hand. -/
structure Counting (s : XnuScheduler) (r : ThreadRecord) : Prop where
  hostAwait : s.hostAwaitCount =
    r.hostAwait.toNat + Table.tally (·.hostAwait) (s.threads.erase r.id)
  runnable : Counts (countOf s.processRunnableCounts)
    (fun p => Table.tally (fun r => r.info.state.isRunnable && r.id.process == p)
      (s.threads.erase r.id)) (runnableClass r)
  load : Counts s.schedulerLoad.counts
    (fun b => Table.tally (fun r => r.info.state.isActive && r.loadBucket == b)
      (s.threads.erase r.id)) (loadClass r)

theorem loadClass_beq (r : ThreadRecord) (b : XnuSchedulerLoad.Bucket) :
    (loadClass r == some b) = (r.info.state.isActive && r.loadBucket == b) := by
  unfold loadClass
  split <;> simp [*]

theorem runnableClass_beq (r : ThreadRecord) (p : Nat) :
    (runnableClass r == some p) = (r.info.state.isRunnable && r.id.process == p) := by
  unfold runnableClass
  split <;> simp [*]

theorem countersAgree_iff : (s.store r).CountersAgree ↔ Counting s r := by
  constructor
  · intro agree
    refine ⟨?_, ?_, ?_⟩
    · exact agree.hostAwait.trans (tally_store _ s r)
    · intro p
      rw [runnableClass_beq]
      exact (agree.runnable p).trans (tally_store _ s r)
    · intro b
      rw [loadClass_beq]
      exact (agree.load b).trans (tally_store _ s r)
  · intro counting
    refine ⟨?_, ?_, ?_⟩
    · exact counting.hostAwait.trans (tally_store _ s r).symm
    · intro p
      have count := counting.runnable p
      rw [runnableClass_beq] at count
      exact count.trans (tally_store (fun r => r.info.state.isRunnable && r.id.process == p) s r).symm
    · intro b
      have count := counting.load b
      rw [loadClass_beq] at count
      exact count.trans (tally_store (fun r => r.info.state.isActive && r.loadBucket == b) s r).symm

theorem Holding.counting (holding : Holding s r counted) : Counting s r :=
  countersAgree_iff.mp holding.balanced.counters

theorem recounted_frame (s : XnuScheduler) (h : Nat) (counts : Table Nat Nat)
    (load : XnuSchedulerLoad) : Frame s (s.recounted h counts load) :=
  ⟨rfl, rfl, rfl, rfl, rfl⟩

/-- Only state, load bucket and host ticket change, so only the counters need to
be looked at again. -/
theorem Holding.recount {h : Nat} {counts : Table Nat Nat} {load : XnuSchedulerLoad}
    (holding : Holding s r counted)
    (books : { r'.books with
      hostAwait := r.hostAwait, state := r.info.state, loadBucket := r.loadBucket } = r.books)
    (ranged : r'.Ranged s.processorRunQueues.length) (placed : r'.Placed)
    (present : ∀ p, (counts.lookup p).isSome = (s.processRunnableCounts.lookup p).isSome)
    (counting : Counting (s.recounted h counts load) r') :
    Holding (s.recounted h counts load) r' counted := by
  have id : r'.id = r.id := congrArg ThreadRecord.Books.id books
  have balanced := holding.balanced
  have valid := holding.configured
  refine holding.step rfl rfl id (balanced.replace rfl id rfl ranged placed ?_
    (countersAgree_iff.mpr counting) ?_ ?_ { valid with })
  · exact balanced.queues.congr rfl rfl rfl
      (alike_store _ rfl id (congrArg ThreadRecord.Books.placement books))
  · exact balanced.owners.replace rfl id rfl (fun _ here => here) present
  · exact balanced.indexes.replace rfl id rfl rfl rfl
      (congrArg ThreadRecord.Books.usageIndex books) (congrArg ThreadRecord.Books.failsafe books)
      (congrArg ThreadRecord.Books.depressionDeadline books)

theorem enterProcessRunnable_counts {counts : Table Nat Nat} {rest : Nat → Nat} (process : Nat)
    (before : Counts (countOf counts) rest none) :
    Counts (countOf (enterProcessRunnable counts process)) rest (some process) := by
  simp only [enterProcessRunnable, countOf_insert]
  exact before.enter

theorem leaveProcessRunnable_yields {counts : Table Nat Nat} {rest : Nat → Nat} {process : Nat}
    (before : Counts (countOf counts) rest (some process)) :
    Yields (leaveProcessRunnable counts process) fun counts' =>
      Counts (countOf counts') rest none ∧
        ∀ p, (counts'.lookup p).isSome = (counts.lookup p).isSome := by
  have positive := before.positive
  unfold leaveProcessRunnable
  cases found : counts.lookup process with
  | none => simp [countOf, found] at positive
  | some value =>
    cases value with
    | zero => simp [countOf, found] at positive
    | succ count =>
      refine Yields.ok ⟨?_, ?_⟩
      · rw [countOf_insert]
        exact before.leave (by simp [countOf, found])
      · intro p
        rw [Table.lookup_insert_eq]
        split
        · rename_i same
          subst p
          simp [found]
        · rfl

theorem leave_yields {load : XnuSchedulerLoad} {rest : XnuSchedulerLoad.Bucket → Nat}
    {bucket : XnuSchedulerLoad.Bucket} (before : Counts load.counts rest (some bucket)) :
    Yields (load.leave Fault.underflow bucket) fun load' => Counts load'.counts rest none := by
  refine (decrement_yields Fault.underflow before.positive).bind fun count fewer => ?_
  exact Yields.ok (before.leave fewer)

/-- The process of a stored record has a runnable count. -/
theorem Holding.process_counted (holding : Holding s r counted) :
    (s.processRunnableCounts.lookup r.id.process).isSome := by
  have owners := holding.balanced.owners
  have owner := owners.owner r.id (by rw [lookup_store_self]; rfl)
  exact (owners.counted r.id.process).mpr owner

theorem shiftLoad_yields (counting : Counting s r) (state : XnuThreadState) :
    Yields (s.shiftLoad r state) fun load => Counts load.counts
      (fun b => Table.tally (fun r => r.info.state.isActive && r.loadBucket == b)
        (s.threads.erase r.id)) (loadClass { r with info.state := state }) := by
  have before := counting.load
  unfold shiftLoad loadClass at *
  refine Yields.ite (fun same => Yields.ok ?_)
    (fun other => Yields.ite (fun active => Yields.ok ?_) fun idle => ?_)
  · rwa [← same]
  · have idle : r.info.state.isActive = false := by simpa [active] using other
    rw [if_neg (by simp [idle])] at before
    rw [if_pos active]
    exact before.enter
  · have active : r.info.state.isActive = true := by simpa [idle] using other
    rw [if_pos active] at before
    rw [if_neg idle]
    exact leave_yields before

theorem shiftRunnable_yields (counting : Counting s r)
    (process : (s.processRunnableCounts.lookup r.id.process).isSome) (state : XnuThreadState) :
    Yields (s.shiftRunnable r state) fun counts => Counts (countOf counts)
      (fun p => Table.tally (fun r => r.info.state.isRunnable && r.id.process == p)
        (s.threads.erase r.id)) (runnableClass { r with info.state := state }) ∧
      ∀ p, (counts.lookup p).isSome = (s.processRunnableCounts.lookup p).isSome := by
  have before := counting.runnable
  unfold shiftRunnable runnableClass at *
  refine Yields.ite (fun same => Yields.ok ⟨?_, fun _ => rfl⟩)
    (fun other => Yields.ite (fun runnable => Yields.ok ⟨?_, ?_⟩) fun idle => ?_)
  · rwa [← same]
  · have idle : r.info.state.isRunnable = false := by simpa [runnable] using other
    rw [if_neg (by simp [idle])] at before
    rw [if_pos runnable]
    exact enterProcessRunnable_counts r.id.process before
  · intro p
    rw [enterProcessRunnable, Table.lookup_insert_eq]
    split
    · rename_i same
      subst p
      simp [process]
    · rfl
  · have runnable : r.info.state.isRunnable = true := by simpa [idle] using other
    rw [if_pos runnable] at before
    rw [if_neg idle]
    exact leaveProcessRunnable_yields before

theorem transitionState_yields (holding : Holding s r counted) (state : XnuThreadState) :
    Yields (s.transitionState r state) fun (s', r') =>
      Holding s' r' counted ∧ Frame s s' ∧ r' = { r with info.state := state } := by
  have counting := holding.counting
  have ranged := holding.ranged
  have placed := holding.placed
  refine (shiftLoad_yields counting state).bind fun load loaded => ?_
  refine (shiftRunnable_yields counting holding.process_counted state).bind ?_
  rintro counts ⟨runnable, present⟩
  refine Yields.ok ⟨?_, recounted_frame s s.hostAwaitCount counts load, rfl⟩
  exact holding.recount rfl { ranged with } { placed with } present
    ⟨counting.hostAwait, runnable, loaded⟩

theorem finishHostAwait_yields (holding : Holding s r counted) :
    Yields (s.finishHostAwait r) fun (s', r') =>
      Holding s' r' counted ∧ Frame s s' ∧ r' = { r with hostAwait := false } := by
  have counting := holding.counting
  unfold finishHostAwait
  refine Yields.ite (fun awaiting => ?_) (fun idle => ?_)
  · have ranged := holding.ranged
    have placed := holding.placed
    have count := counting.hostAwait
    rw [awaiting, Bool.toNat_true] at count
    refine (decrement_yields Fault.underflow (by omega)).bind fun h fewer => ?_
    refine Yields.ok ⟨?_, recounted_frame s h _ _, rfl⟩
    refine holding.recount rfl { ranged with } { placed with } (fun _ => rfl)
      ⟨?_, counting.runnable, counting.load⟩
    simp only [recounted, Bool.toNat_false]
    omega
  · have same : r = { r with hostAwait := false } := by
      rw [← Bool.eq_false_iff.mpr idle]
    exact Yields.ok ⟨holding, Frame.refl s, same⟩

theorem Holding.enterWaiting (holding : Holding s r false) : Holding s.enterWaiting r true := by
  refine ⟨holding.balanced.aside rfl (fun _ => rfl) rfl (fun _ here => here)
    { holding.configured with },
    holding.scheduled, ?_⟩
  have waiting := holding.waiting
  simp only [XnuScheduler.enterWaiting, Bool.toNat_false, Bool.toNat_true] at waiting ⊢
  omega

theorem enterWaiting_frame (s : XnuScheduler) : Frame s s.enterWaiting := ⟨rfl, rfl, rfl, rfl, rfl⟩

theorem leaveWaiting_yields (holding : Holding s r true) :
    Yields s.leaveWaiting fun s' => Holding s' r false ∧ Frame s s' := by
  have waiting := holding.waiting
  rw [Bool.toNat_true] at waiting
  refine (decrement_yields Fault.underflow (by omega)).bind fun count fewer => ?_
  refine Yields.ok ⟨⟨holding.balanced.aside rfl (fun _ => rfl) rfl (fun _ here => here)
    { holding.configured with },
    holding.scheduled, ?_⟩, ⟨rfl, rfl, rfl, rfl, rfl⟩⟩
  simp only [Bool.toNat_false]
  omega

theorem leaveWaitingOf_yields (holding : Holding s r (isWaiting r)) :
    Yields (s.leaveWaitingOf r) fun s' => Holding s' r false ∧ Frame s s' := by
  unfold leaveWaitingOf
  refine Yields.ite (fun waiting => ?_) (fun other => ?_)
  · rw [show isWaiting r = true by simp [isWaiting, waiting]] at holding
    exact leaveWaiting_yields holding
  · rw [show isWaiting r = false by simp [isWaiting, other]] at holding
    exact Yields.ok ⟨holding, Frame.refl s⟩

theorem releaseProcessorContext_frame (s : XnuScheduler) (r : ThreadRecord) :
    Frame s (s.releaseProcessorContext r) := by
  unfold releaseProcessorContext
  split
  · exact Frame.refl s
  · split
    · exact ⟨rfl, rfl, rfl, rfl, rfl⟩
    · exact Frame.refl s

theorem Configured.withContexts (valid : s.Configured) {contexts : List (Option XnuThreadId)}
    (length : contexts.length = s.processorContexts.length) :
    Configured { s with processorContexts := contexts } :=
  { valid with contexts := length.trans valid.contexts }

theorem Holding.releaseProcessorContext (holding : Holding s r counted) (r₁ : ThreadRecord) :
    Holding (s.releaseProcessorContext r₁) r counted := by
  unfold XnuScheduler.releaseProcessorContext
  split
  · exact holding
  · split
    · exact holding.aside rfl rfl rfl rfl (fun _ here => here)
        (holding.configured.withContexts List.length_set)
    · exact holding

end
end XnuScheduler
end ILEmu
