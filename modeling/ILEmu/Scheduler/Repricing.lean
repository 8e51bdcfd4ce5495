import ILEmu.Scheduler.Transitions
import ILEmu.Scheduler.Dispatch

/-! The record in hand is repriced: load bucket, scheduled priority, depression
and failsafe, with the indexes of the last two. -/
namespace ILEmu
open Foundation Xnu.Scheduler

/-- Neither the life of a thread changes nor is its quantum used up. -/
structure Drift (r r' : ThreadRecord) : Prop where
  ident : r'.id = r.id
  life : r'.life = r.life
  quantum : r'.info.remainingQuantum = r.info.remainingQuantum ∨ 0 < r'.info.remainingQuantum

theorem Drift.refl (r : ThreadRecord) : Drift r r := ⟨rfl, rfl, .inl rfl⟩

theorem Drift.trans {a b c : ThreadRecord} (first : Drift a b) (second : Drift b c) : Drift a c := by
  refine ⟨second.ident.trans first.ident, second.life.trans first.life, ?_⟩
  rcases second.quantum with same | filled
  · rw [same]
    exact first.quantum
  · exact .inr filled

namespace XnuScheduler
section
variable {s s' : XnuScheduler} {r r' : ThreadRecord} {counted : Bool}

theorem moveLoad_yields (counting : Counting s r) (bucket : XnuSchedulerLoad.Bucket) :
    Yields (s.moveLoad r bucket) fun load => Counts load.counts
      (fun b => Table.tally (fun r => r.info.state.isActive && r.loadBucket == b)
        (s.threads.erase r.id)) (loadClass { r with loadBucket := bucket }) := by
  have before := counting.load
  unfold moveLoad loadClass at *
  refine Yields.ite (fun active => ?_) (fun idle => Yields.ok ?_)
  · rw [if_pos active] at before
    rw [if_pos active]
    refine (leave_yields before).bind fun load left => ?_
    exact Yields.ok left.enter
  · rw [if_neg idle] at before ⊢
    exact before

theorem rebucket_yields (holding : Holding s r counted) :
    Yields (s.rebucket r) fun (s', r') =>
      Holding s' r' counted ∧ Frame s s' ∧
        ∃ bucket shift, r' = { r with loadBucket := bucket, priorityUsageShift := shift } := by
  have counting := holding.counting
  have ranged := holding.ranged
  have placed := holding.placed
  unfold rebucket
  refine Yields.ite (fun _ => Yields.ok ⟨holding, Frame.refl s, _, _, rfl⟩) (fun _ => ?_)
  refine (moveLoad_yields counting _).bind fun load moved => ?_
  refine Yields.ok ⟨?_, recounted_frame s s.hostAwaitCount s.processRunnableCounts load, _, _, rfl⟩
  exact holding.recount rfl { ranged with } { placed with } (fun _ => rfl)
    ⟨counting.hostAwait, counting.runnable, moved⟩

theorem requeue_yields (holding : Holding s r counted) (idle : r.queued = false)
    (scheduled : r.Scheduled) (wasQueued : Bool) :
    Yields (s.requeue r wasQueued) fun (s', r') =>
      Holding s' r' counted ∧ Frame s s' ∧ r'.id = r.id ∧ r'.info = r.info ∧
        r'.life = { r.life with queued := wasQueued } := by
  unfold requeue
  refine Yields.ite (fun queued => ?_) (fun still => ?_)
  · rw [queued]
    exact enqueue_yields holding idle scheduled .back
  · refine Yields.ok ⟨holding, Frame.refl s, rfl, rfl, ?_⟩
    rw [Bool.eq_false_iff.mpr still, ← idle]
    rfl

/-- A record that is on no queue can be given any priority of its band. -/
theorem Holding.reprice (holding : Holding s r counted) (idle : r.queued = false) {priority : Int}
    (range : 0 ≤ priority ∧ priority ≤ maximumPriority) :
    Holding s { r with info.scheduledPriority := priority } counted := by
  have ranged := holding.ranged
  obtain ⟨_, noKey⟩ := holding.placed.idle idle
  refine holding.touch rfl { ranged with scheduled := range } ⟨?_, ?_, holding.placed.idle, ?_, ?_⟩
  · intro queued
    rw [idle] at queued
    contradiction
  · intro queued
    rw [idle] at queued
    contradiction
  · intro queued
    rw [idle] at queued
    contradiction
  · intro k here
    rw [noKey] at here
    contradiction

theorem reschedule_yields (holding : Holding s r counted) {priority : Int}
    (range : 0 ≤ priority ∧ priority ≤ maximumPriority)
    (scheduled : ThreadRecord.Scheduled { r with info.scheduledPriority := priority }) :
    Yields (s.reschedule r priority) fun (s', r') =>
      Holding s' r' counted ∧ Frame s s' ∧ r'.id = r.id ∧
        r'.info = { r.info with scheduledPriority := priority } ∧ r'.life = r.life := by
  refine (removeFromQueue_yields holding).bind ?_
  rintro ⟨s₁, r₁⟩ ⟨holding₁, frame₁, rfl⟩
  refine (requeue_yields (holding₁.reprice rfl range) rfl (scheduled.of_info rfl) r.queued).mono ?_
  rintro ⟨s₂, r₂⟩ ⟨holding₂, frame₂, id, info, life⟩
  exact ⟨holding₂, frame₁.trans frame₂, id, info, life⟩

theorem effectiveBase_range {n : Nat} (ranged : r.Ranged n) :
    0 ≤ r.effectiveBase ∧ r.effectiveBase ≤ maximumPriority := by
  have base := ranged.base
  unfold ThreadRecord.effectiveBase
  split
  · exact base
  · obtain ⟨nonneg, capped⟩ := XnuTaskQosPolicy.effectivePriority_range r.taskQos
      r.info.qosOverridePriority ranged.qos base.1
    simp only [maximumPriority] at base ⊢
    omega

theorem computedPriority_range {n : Nat} (ranged : r.Ranged n) :
    0 ≤ r.computedPriority ∧ r.computedPriority ≤ maximumPriority := by
  have base := effectiveBase_range ranged
  unfold ThreadRecord.computedPriority
  split
  · decide
  · split
    · simp only [minimumPriority, maximumKernelPriority, maximumPriority]
      omega
    · exact base

theorem computedPriority_scheduled (awake : r.info.depressed = false) {r' : ThreadRecord}
    (info : r'.info = { r.info with scheduledPriority := r.computedPriority }) : r'.Scheduled := by
  refine ⟨?_, ?_, ?_⟩
  · intro depressed
    rw [info] at depressed
    simp [awake] at depressed
  · intro _ realtime
    rw [info] at realtime ⊢
    simp only [ThreadRecord.computedPriority] at realtime ⊢
    rw [if_pos realtime]
  · intro _ ordinary timeshare
    rw [info] at ordinary timeshare ⊢
    simp only [ThreadRecord.computedPriority] at ordinary timeshare ⊢
    rw [if_neg (by simp [ordinary]), if_pos timeshare]
    simp only [minimumPriority, maximumKernelPriority]
    omega

/-- Nothing but the scheduled priority changes in what policy says of a record. -/
theorem recomputePriority_yields (holding : Holding s r counted)
    (depressed : r.info.depressed = true → r.info.scheduledPriority = minimumPriority) :
    Yields (s.recomputePriority r) fun (s', r') =>
      Holding s' r' counted ∧ Frame s s' ∧ r'.id = r.id ∧ r'.Scheduled ∧ r'.life = r.life ∧
        r'.info = { r.info with scheduledPriority := r'.info.scheduledPriority } := by
  refine (rebucket_yields holding).bind ?_
  rintro ⟨s₁, r₁⟩ ⟨holding₁, frame₁, bucket, shift, same⟩
  have info : r₁.info = r.info := by rw [same]
  have id : r₁.id = r.id := by rw [same]
  have life : r₁.life = r.life := by rw [same]; rfl
  clear same
  refine Yields.ite (fun low => ?_) (fun awake => Yields.ite (fun same => ?_) fun moved => ?_)
  · refine Yields.ok ⟨holding₁, frame₁, id, ⟨?_, ?_, ?_⟩, life, by rw [info]⟩
    · rw [info]
      exact depressed
    · intro awake
      rw [low] at awake
      contradiction
    · intro awake
      rw [low] at awake
      contradiction
  · have awake : r₁.info.depressed = false := Bool.eq_false_iff.mpr awake
    refine Yields.ok ⟨holding₁, frame₁, id, computedPriority_scheduled awake ?_, life, by rw [info]⟩
    rw [same]
  · have awake : r₁.info.depressed = false := Bool.eq_false_iff.mpr awake
    have range := computedPriority_range holding₁.ranged
    have scheduled : ThreadRecord.Scheduled
        { r₁ with info.scheduledPriority := r₁.computedPriority } :=
      computedPriority_scheduled awake rfl
    refine (reschedule_yields holding₁ range scheduled).mono ?_
    rintro ⟨s₂, r₂⟩ ⟨holding₂, frame₂, id₂, info₂, life₂⟩
    exact ⟨holding₂, frame₁.trans frame₂, id₂.trans id, scheduled.of_info info₂,
      life₂.trans life, by rw [info₂, info]⟩

/-- Only what the depression and failsafe orders index changes. -/
theorem Holding.reindex {failsafe depression : Finset (Nat ×ₗ XnuThreadId)}
    (holding : Holding s r counted)
    (books : { r'.books with
      failsafe := r.failsafeEntry, depressionDeadline := r.depressionDeadline } = r.books)
    (ranged : r'.Ranged s.processorRunQueues.length) (placed : r'.Placed)
    (failsafes : ∀ tick t, toLex (tick, t) ∈ failsafe ↔
      t = r.id ∧ r'.failsafeEntry = some tick ∨ t ≠ r.id ∧ toLex (tick, t) ∈ s.failsafeOrder)
    (depressions : ∀ deadline t, toLex (deadline, t) ∈ depression ↔
      t = r.id ∧ r'.depressionDeadline = some deadline ∨
        t ≠ r.id ∧ toLex (deadline, t) ∈ s.depressionOrder) :
    Holding { s with failsafeOrder := failsafe, depressionOrder := depression } r' counted := by
  have id : r'.id = r.id := congrArg ThreadRecord.Books.id books
  have balanced := holding.balanced
  have indexes := balanced.indexes
  refine holding.step rfl rfl id (balanced.replace rfl id rfl ranged placed ?_ ?_ ?_ ⟨?_, ?_, ?_⟩
    { holding.configured with })
  · exact balanced.queues.congr rfl rfl rfl
      (alike_store _ rfl id (congrArg ThreadRecord.Books.placement books))
  · exact balanced.counters.replace rfl id rfl rfl rfl
      (congrArg ThreadRecord.Books.hostAwait books) (congrArg ThreadRecord.Books.state books)
      (congrArg ThreadRecord.Books.loadBucket books)
  · exact balanced.owners.replace rfl id rfl (fun _ here => here) (fun _ => rfl)
  · intro i t
    exact (indexes.usage i t).trans ((alike_store ThreadRecord.usageIndex rfl id
      (congrArg ThreadRecord.Books.usageIndex books)).exists_iff (· = some i) t)
  · intro tick t
    have before := indexes.failsafe tick t
    rw [exists_store] at before ⊢
    change toLex (tick, t) ∈ s.failsafeOrder ↔ _ at before
    change toLex (tick, t) ∈ failsafe ↔ _
    rw [failsafes, id, before]
    by_cases same : t = r.id
    · simp [same]
    · simp [same]
  · intro deadline t
    have before := indexes.depression deadline t
    rw [exists_store] at before ⊢
    change toLex (deadline, t) ∈ s.depressionOrder ↔ _ at before
    change toLex (deadline, t) ∈ depression ↔ _
    rw [depressions, id, before]
    by_cases same : t = r.id
    · simp [same]
    · simp [same]

theorem Holding.failsafe_entry (holding : Holding s r counted) (tick : Nat) :
    toLex (tick, r.id) ∈ s.failsafeOrder ↔ r.failsafeEntry = some tick := by
  refine (holding.balanced.indexes.failsafe tick r.id).trans ?_
  rw [exists_store]
  simp

theorem Holding.depression_entry (holding : Holding s r counted) (deadline : Nat) :
    toLex (deadline, r.id) ∈ s.depressionOrder ↔ r.depressionDeadline = some deadline := by
  refine (holding.balanced.indexes.depression deadline r.id).trans ?_
  rw [exists_store]
  simp

theorem Holding.failsafes_kept (holding : Holding s r counted)
    (same : r'.failsafeEntry = r.failsafeEntry) (tick : Nat) (t : XnuThreadId) :
    toLex (tick, t) ∈ s.failsafeOrder ↔
      t = r.id ∧ r'.failsafeEntry = some tick ∨ t ≠ r.id ∧ toLex (tick, t) ∈ s.failsafeOrder := by
  by_cases mine : t = r.id
  · subst t
    simp [holding.failsafe_entry, same]
  · simp [mine]

theorem Holding.depressions_kept (holding : Holding s r counted)
    (same : r'.depressionDeadline = r.depressionDeadline) (deadline : Nat) (t : XnuThreadId) :
    toLex (deadline, t) ∈ s.depressionOrder ↔
      t = r.id ∧ r'.depressionDeadline = some deadline ∨
        t ≠ r.id ∧ toLex (deadline, t) ∈ s.depressionOrder := by
  by_cases mine : t = r.id
  · subst t
    simp [holding.depression_entry, same]
  · simp [mine]

/-- An order without the entry of a record holds the entries of the other records. -/
theorem mem_erase_entry {order : Finset (Nat ×ₗ XnuThreadId)} {entry : Option Nat}
    {id t : XnuThreadId} {n m : Nat} (indexed : ∀ n, toLex (n, id) ∈ order ↔ entry = some n)
    (here : entry = some n) :
    toLex (m, t) ∈ order.erase (toLex (n, id)) ↔ t ≠ id ∧ toLex (m, t) ∈ order := by
  rw [Finset.mem_erase, ne_eq, toLex_inj, Prod.mk.injEq]
  constructor
  · rintro ⟨other, member⟩
    refine ⟨?_, member⟩
    rintro rfl
    have := (indexed m).mp member
    rw [here] at this
    exact other ⟨(Option.some.inj this).symm, rfl⟩
  · rintro ⟨other, member⟩
    exact ⟨fun same => other same.2, member⟩

theorem mem_insert_entry {order : Finset (Nat ×ₗ XnuThreadId)} {id t : XnuThreadId} {n m : Nat}
    (absent : ∀ n, toLex (n, id) ∉ order) :
    toLex (m, t) ∈ insert (toLex (n, id)) order ↔
      t = id ∧ some n = some m ∨ t ≠ id ∧ toLex (m, t) ∈ order := by
  rw [Finset.mem_insert, toLex_inj, Prod.mk.injEq, Option.some.injEq]
  by_cases same : t = id
  · subst t
    simp [absent, eq_comm]
  · simp [same]

theorem unindexDepression_frame (s : XnuScheduler) (r : ThreadRecord) :
    Frame s (s.unindexDepression r) := by
  unfold unindexDepression
  split
  · exact ⟨rfl, rfl, rfl, rfl, rfl⟩
  · exact Frame.refl s

theorem indexFailsafe_frame (s : XnuScheduler) (r : ThreadRecord) : Frame s (s.indexFailsafe r) := by
  unfold indexFailsafe
  split
  · exact ⟨rfl, rfl, rfl, rfl, rfl⟩
  · exact Frame.refl s

theorem unindexFailsafe_frame (s : XnuScheduler) (r : ThreadRecord) :
    Frame s (s.unindexFailsafe r) := by
  unfold unindexFailsafe
  split
  · exact ⟨rfl, rfl, rfl, rfl, rfl⟩
  · exact Frame.refl s

theorem Holding.undepress (holding : Holding s r counted) :
    Holding (s.unindexDepression r)
      { r with info.depressed := false, depressionDeadline := none } counted := by
  have ranged := holding.ranged
  have placed := holding.placed
  have awake : ThreadRecord.Ranged s.processorRunQueues.length
      { r with info.depressed := false, depressionDeadline := none } :=
    { ranged with deadline := nofun }
  unfold unindexDepression
  cases deadline : r.depressionDeadline with
  | none =>
    exact holding.touch (by simp [ThreadRecord.books, deadline, ThreadRecord.placement,
      ThreadRecord.failsafeEntry]) awake { placed with }
  | some deadline' =>
    refine holding.reindex rfl awake { placed with } (holding.failsafes_kept rfl) ?_
    intro deadline₁ t
    rw [mem_erase_entry holding.depression_entry deadline]
    simp

theorem restoreDepression_yields (holding : Holding s r counted) (scheduled : r.Scheduled) :
    Yields (s.restoreDepression r) fun (s', r') =>
      Holding s' r' counted ∧ Frame s s' ∧ r'.Scheduled ∧ Drift r r' := by
  unfold restoreDepression
  refine Yields.ite (fun _ => ?_) (fun _ => Yields.ok ⟨holding, Frame.refl s, scheduled, Drift.refl r⟩)
  refine (recomputePriority_yields holding.undepress nofun).mono ?_
  rintro ⟨s', r'⟩ ⟨holding', frame, id, scheduled', life, info⟩
  refine ⟨holding', (unindexDepression_frame s r).trans frame, scheduled', id, life, .inl ?_⟩
  rw [info]

theorem demoted_eq (r : ThreadRecord) (tick : Nat) :
    r.demoted tick = { r with
      failsafeSavedBasePriority := r.info.basePriority
      failsafeSavedTimeshare := r.info.timeshare
      failsafeSavedRealtime := r.info.realtime
      info := { r.info with
        realtime := false
        basePriority := if r.info.realtime then minimumPriority else r.info.basePriority
        timeshare := true
        failsafe := true
        failsafeReleaseTick := tick } } := by
  unfold ThreadRecord.demoted
  cases realtime : r.info.realtime with
  | true => rfl
  | false => simp [realtime]

theorem Holding.demote (holding : Holding s r counted) (free : r.info.failsafe = false) (tick : Nat) :
    Holding (s.indexFailsafe (r.demoted tick)) (r.demoted tick) counted := by
  have ranged := holding.ranged
  have placed := holding.placed
  rw [demoted_eq]
  have unindexed : ∀ n, toLex (n, r.id) ∉ s.failsafeOrder := by
    intro n
    rw [holding.failsafe_entry]
    simp [ThreadRecord.failsafeEntry, free]
  simp only [indexFailsafe, if_true]
  refine holding.reindex rfl ?_ ?_ ?_ (holding.depressions_kept rfl)
  · refine { ranged with base := ?_, saved := ranged.base, computation := ?_, failsafe := ?_ }
    · dsimp only
      split
      · decide
      · exact ranged.base
    · rintro (realtime | ⟨-, saved⟩)
      · contradiction
      · exact ranged.computation (.inl saved)
    · exact fun _ => ⟨rfl, rfl⟩
  · exact { placed with keyed := nofun }
  · intro tick' t
    rw [mem_insert_entry unindexed]
    simp [ThreadRecord.failsafeEntry]

theorem applyFailsafe_yields (holding : Holding s r counted) (scheduled : r.Scheduled) :
    Yields (s.applyFailsafe r) fun (s', r') =>
      Holding s' r' counted ∧ Frame s s' ∧ r'.Scheduled ∧ Drift r r' := by
  unfold applyFailsafe
  refine Yields.ite (fun _ => Yields.ok ⟨holding, Frame.refl s, scheduled, Drift.refl r⟩) (fun free => ?_)
  have demoted := holding.demote (Bool.eq_false_iff.mpr free)
    (saturatingAdd s.schedulerTick failsafeReleaseSchedulerTicks)
  refine (recomputePriority_yields demoted ?_).mono ?_
  · rw [demoted_eq]
    exact scheduled.depressed
  · rintro ⟨s', r'⟩ ⟨holding', frame, id, scheduled', life, info⟩
    rw [demoted_eq] at id life info
    refine ⟨holding', (indexFailsafe_frame s _).trans frame, scheduled', id, life, .inl ?_⟩
    rw [info]

theorem meterSlice_yields (holding : Holding s r counted) (scheduled : r.Scheduled) :
    Yields (s.meterSlice r) fun (s', r') =>
      Holding s' r' counted ∧ Frame s s' ∧ r'.Scheduled ∧ Drift r r' := by
  unfold meterSlice
  refine Yields.ite (fun _ => applyFailsafe_yields holding scheduled) (fun _ => ?_)
  exact Yields.ok ⟨holding, Frame.refl s, scheduled, Drift.refl r⟩

theorem quantumFor_pos (configured : s.Configured) {n : Nat} (ranged : r.Ranged n) :
    0 < s.quantumFor r := by
  unfold quantumFor
  split
  · exact ranged.computation (.inl ‹_›)
  · exact configured.quantum

theorem Holding.release (holding : Holding s r counted) (scheduled : r.Scheduled)
    (failsafe : r.info.failsafe = true) (quantum : Nat) :
    Holding (s.unindexFailsafe r)
      { r.released with info.remainingQuantum := quantum } counted := by
  have ranged := holding.ranged
  have placed := holding.placed
  obtain ⟨ordinary, timeshare⟩ := ranged.failsafe failsafe
  have entry : r.failsafeEntry = some r.info.failsafeReleaseTick := by
    simp [ThreadRecord.failsafeEntry, failsafe]
  simp only [unindexFailsafe, failsafe, if_true]
  refine holding.reindex rfl ?_ ?_ ?_ (holding.depressions_kept rfl)
  · refine { ranged with base := ranged.saved, computation := ?_, failsafe := nofun }
    rintro (saved | ⟨released, -⟩)
    · exact ranged.computation (.inr ⟨failsafe, saved⟩)
    · contradiction
  · -- a demoted record is below the realtime band, so no key is missing
    refine { placed with keyed := ?_ }
    intro _ _ band
    exfalso
    change realtimeQueuePriority ≤ r.info.scheduledPriority at band
    cases depressed : r.info.depressed with
    | true =>
      rw [scheduled.depressed depressed] at band
      contradiction
    | false =>
      have := scheduled.timeshare depressed ordinary timeshare
      have := band.trans this
      contradiction
  · intro tick t
    rw [mem_erase_entry holding.failsafe_entry entry]
    simp [ThreadRecord.failsafeEntry, ThreadRecord.released]

theorem releaseFailsafe_yields (holding : Holding s r counted) (scheduled : r.Scheduled) :
    Yields (s.releaseFailsafe r) fun (s', r') =>
      Holding s' r' counted ∧ Frame s s' ∧ r'.Scheduled ∧ Drift r r' := by
  unfold releaseFailsafe
  refine Yields.ite (fun failsafe => ?_)
    (fun _ => Yields.ok ⟨holding, Frame.refl s, scheduled, Drift.refl r⟩)
  have released := holding.release scheduled failsafe (s.quantumFor r.released)
  refine (recomputePriority_yields released scheduled.depressed).mono ?_
  rintro ⟨s', r'⟩ ⟨holding', frame, id, scheduled', life, info⟩
  refine ⟨holding', (unindexFailsafe_frame s _).trans frame, scheduled', id, life, .inr ?_⟩
  rw [info]
  exact quantumFor_pos holding.configured { released.ranged with }

end
end XnuScheduler
end ILEmu
