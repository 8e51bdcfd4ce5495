import ILEmu.Scheduler.Settlement

/-! A thread leaves the scheduler: every counter, queue and index forgets its
record, and its task keeps its ticks. -/
namespace ILEmu
open Foundation Xnu.Scheduler
namespace XnuScheduler

/-- The owners and the runnable counts without one thread. -/
def disown (s : XnuScheduler) (thread : XnuThreadId) :
    Table Nat (List XnuThreadId) × Table Nat Nat :=
  match s.processThreads.lookup thread.process with
  | none => (s.processThreads, s.processRunnableCounts)
  | some owned =>
    if (owned.erase thread).isEmpty then
      (s.processThreads.erase thread.process, s.processRunnableCounts.erase thread.process)
    else (s.processThreads.insert thread.process (owned.erase thread), s.processRunnableCounts)

def withOwners (s : XnuScheduler) (owners : Table Nat (List XnuThreadId) × Table Nat Nat) :
    XnuScheduler :=
  { s with processThreads := owners.1, processRunnableCounts := owners.2 }

section
variable {s s' : XnuScheduler} {r r' : ThreadRecord} {t : XnuThreadId} {counted : Bool}

theorem unindexThread_eq (s : XnuScheduler) (r : ThreadRecord) :
    s.unindexThread r = ((s.unindexDepression r).unindexFailsafe r).withOwners
      (((s.unindexDepression r).unindexFailsafe r).disown r.id) := by
  unfold unindexThread disown
  dsimp only
  generalize (s.unindexDepression r).unindexFailsafe r = s₁
  cases s₁.processThreads.lookup r.id.process with
  | none => rfl
  | some owned =>
    dsimp only
    split
    · rfl
    · rfl

/-- The usage index does not look at the owners. -/
theorem untrackUsage_withOwners (s : XnuScheduler) (r : ThreadRecord)
    (owners : Table Nat (List XnuThreadId) × Table Nat Nat) :
    (s.withOwners owners).untrackUsage r =
      (s.untrackUsage r).map fun (s', r') => (s'.withOwners owners, r') := by
  unfold untrackUsage withOwners
  dsimp only
  cases r.usageIndex with
  | none => rfl
  | some index =>
    dsimp only
    cases s.usageRecords.getLast? with
    | none => rfl
    | some last =>
      dsimp only
      split
      · rfl
      · cases s.threads.lookup last with
        | none => rfl
        | some moved => rfl

/-- Of a record, the usage index uses nothing but its place and its name. -/
theorem untrackUsage_of_place (s : XnuScheduler) (r r' : ThreadRecord)
    (place : r'.usageIndex = r.usageIndex) (id : r'.id = r.id) :
    ((s.untrackUsage r').map fun (s₁, r₁) => (s₁, r₁.id)) =
      (s.untrackUsage r).map fun (s₁, r₁) => (s₁, r₁.id) := by
  unfold untrackUsage
  rw [place, id]
  cases r.usageIndex with
  | none => exact congrArg (fun i => Except.ok (s, i)) id
  | some index =>
    dsimp only
    cases s.usageRecords.getLast? with
    | none => rfl
    | some last =>
      dsimp only
      split
      · simp only [Except.map]
      · cases s.threads.lookup last with
        | none => rfl
        | some moved => simp only [Except.map]

theorem OwnersAgree.disown (agree : (s.store r).OwnersAgree) {threads : Threads}
    (same : ∀ t, (threads.lookup t).isSome = (decide (t ≠ r.id) && (s.threads.lookup t).isSome)) :
    OwnersAgree { s.withOwners (s.disown r.id) with threads := threads } := by
  have member : ∀ p owned, s.processThreads.lookup p = some owned → owned ≠ [] ∧ owned.Nodup ∧
      ∀ t, t ∈ owned ↔ t.process = p ∧ (t = r.id ∨ (s.threads.lookup t).isSome) := by
    intro p owned found
    obtain ⟨some, nodup, mem⟩ := agree.owned p owned found
    refine ⟨some, nodup, fun t => ?_⟩
    rw [mem, isSome_store, Bool.or_eq_true, decide_eq_true_eq]
  have owner : ∀ t, t = r.id ∨ (s.threads.lookup t).isSome →
      (s.processThreads.lookup t.process).isSome := by
    intro t here
    refine agree.owner t ?_
    rw [isSome_store, Bool.or_eq_true, decide_eq_true_eq]
    exact here
  obtain ⟨owned, found⟩ := Option.isSome_iff_exists.mp (owner r.id (.inl rfl))
  obtain ⟨-, nodup, mem⟩ := member _ owned found
  have rest : ∀ t, t ∈ owned.erase r.id ↔ t.process = r.id.process ∧ (threads.lookup t).isSome := by
    intro t
    rw [nodup.mem_erase_iff, mem, same, Bool.and_eq_true, decide_eq_true_eq]
    constructor
    · rintro ⟨other, process, rfl | here⟩
      · exact absurd rfl other
      · exact ⟨process, other, here⟩
    · rintro ⟨process, other, here⟩
      exact ⟨other, process, .inr here⟩
  have elsewhere : ∀ p owned, p ≠ r.id.process → s.processThreads.lookup p = some owned →
      owned ≠ [] ∧ owned.Nodup ∧ ∀ t, t ∈ owned ↔ t.process = p ∧ (threads.lookup t).isSome := by
    intro p owned other found
    obtain ⟨some, nodup, mem⟩ := member p owned found
    refine ⟨some, nodup, fun t => ?_⟩
    rw [mem, same, Bool.and_eq_true, decide_eq_true_eq]
    constructor
    · rintro ⟨rfl, rfl | here⟩
      · exact absurd rfl other
      · exact ⟨rfl, fun mine => other (by rw [mine]), here⟩
    · rintro ⟨process, -, here⟩
      exact ⟨process, .inr here⟩
  have before : ∀ t, (threads.lookup t).isSome → (s.processThreads.lookup t.process).isSome := by
    intro t here
    rw [same, Bool.and_eq_true] at here
    exact owner t (.inr here.2)
  unfold XnuScheduler.disown withOwners
  simp only [found]
  split
  · rename_i empty
    have empty : owned.erase r.id = [] := by simpa using empty
    have gone : ∀ t, (threads.lookup t).isSome → t.process ≠ r.id.process := by
      intro t here process
      have listed := (rest t).mpr ⟨process, here⟩
      rw [empty] at listed
      contradiction
    refine ⟨?_, ?_, ?_, ?_⟩
    · intro p owned' found'
      dsimp only at found'
      rw [Table.lookup_erase_eq] at found'
      split at found'
      · contradiction
      · exact elsewhere p owned' ‹_› found'
    · intro t here
      dsimp only
      rw [Table.lookup_erase_eq, if_neg (gone t here)]
      exact before t here
    · intro p here
      dsimp only at here
      rw [Table.lookup_erase_eq] at here
      split at here
      · contradiction
      · exact agree.history p here
    · intro p
      dsimp only
      rw [Table.lookup_erase_eq, Table.lookup_erase_eq]
      split
      · rfl
      · exact agree.counted p
  · rename_i some
    refine ⟨?_, ?_, ?_, ?_⟩
    · intro p owned' found'
      dsimp only at found'
      rw [Table.lookup_insert_eq] at found'
      split at found'
      · rename_i process
        obtain rfl := Option.some.inj found'
        subst p
        exact ⟨by simpa using some, nodup.erase _, rest⟩
      · exact elsewhere p owned' ‹_› found'
    · intro t here
      dsimp only
      rw [Table.lookup_insert_eq]
      split
      · rfl
      · exact before t here
    · intro p here
      dsimp only at here
      rw [Table.lookup_insert_eq] at here
      refine agree.history p ?_
      split at here
      · rename_i process
        subst p
        exact Option.isSome_iff_exists.mpr ⟨owned, found⟩
      · exact here
    · intro p
      dsimp only
      rw [Table.lookup_insert_eq]
      split
      · rename_i process
        subst p
        refine ⟨fun _ => rfl, fun _ => (agree.counted _).mpr ?_⟩
        exact Option.isSome_iff_exists.mpr ⟨owned, found⟩
      · exact agree.counted p

/-- A record that nothing outside the table of threads and their owners mentions. -/
structure Untracked (r : ThreadRecord) : Prop where
  queued : r.queued = false
  hostAwait : r.hostAwait = false
  state : r.info.state = .waiting
  usage : r.usageIndex = none
  failsafe : r.failsafeEntry = none
  depression : r.depressionDeadline = none

/-- The scheduler without the record of one thread. -/
def without (s : XnuScheduler) (t : XnuThreadId) : XnuScheduler :=
  { s.withOwners (s.disown t) with threads := s.threads.erase t }

theorem exists_left (s : XnuScheduler) {P : ThreadRecord → Prop} (absent : ¬P r)
    (t : XnuThreadId) :
    (∃ r₀, (s.store r).threads.lookup t = some r₀ ∧ P r₀) ↔
      ∃ r₀, (s.threads.erase r.id).lookup t = some r₀ ∧ P r₀ := by
  rw [exists_store, Table.exists_erase]
  constructor
  · rintro (⟨-, here⟩ | left)
    · exact absurd here absent
    · exact left
  · exact .inr

theorem disown_count (s : XnuScheduler) (t : XnuThreadId) (p : Nat) :
    (s.disown t).2.lookup p = none ∨
      (s.disown t).2.lookup p = s.processRunnableCounts.lookup p := by
  unfold disown
  split
  · exact .inr rfl
  · split
    · dsimp only
      rw [Table.lookup_erase_eq]
      split
      · exact .inl rfl
      · exact .inr rfl
    · exact .inr rfl

/-- An untracked record can be erased. -/
theorem Holding.erase (holding : Holding s r false) (untracked : Untracked r) :
    (s.without r.id).Settled := by
  have balanced := holding.balanced
  have counting := holding.counting
  have left : ∀ t r₀, (s.threads.erase r.id).lookup t = some r₀ →
      t ≠ r.id ∧ s.threads.lookup t = some r₀ ∧ (s.store r).threads.lookup t = some r₀ := by
    intro t r₀ found
    rw [Table.lookup_erase_eq] at found
    split at found
    · contradiction
    · rename_i other
      refine ⟨other, found, ?_⟩
      rw [lookup_store, if_neg other]
      exact found
  have owners : (s.without r.id).OwnersAgree := by
    refine balanced.owners.disown fun t => ?_
    rw [Table.lookup_erase_eq]
    split
    · rename_i same
      simp [same]
    · rename_i other
      simp [other]
  refine ⟨⟨?_, ?_, ?_, ⟨?_, ?_, ?_, ?_⟩, ⟨?_, ?_, ?_⟩, owners, ⟨?_, ?_, ?_⟩,
    { holding.configured with }⟩, ?_, ?_⟩
  · intro t r₀ found
    exact balanced.ids t r₀ (left t r₀ found).2.2
  · intro t r₀ found
    exact balanced.ranged t r₀ (left t r₀ found).2.2
  · intro t r₀ found
    exact balanced.placed t r₀ (left t r₀ found).2.2
  · exact balanced.queues.summarized
  · intro place q here i t
    refine (balanced.queues.listed place q here i t).trans (exists_left s ?_ t)
    simp [untracked.queued]
  · intro place q here k
    refine (balanced.queues.ordered place q here k).trans (exists_left s ?_ k.thread)
    simp [untracked.queued]
  · exact balanced.queues.total
  · have count := counting.hostAwait
    rw [untracked.hostAwait, Bool.toNat_false, Nat.zero_add] at count
    exact count
  · intro p
    have count := counting.runnable p
    have asleep : runnableClass r = none := by simp [runnableClass, untracked.state,
      XnuThreadState.isRunnable]
    rw [asleep, show ((none : Option Nat) == some p) = false from rfl, Bool.toNat_false,
      Nat.zero_add] at count
    rcases s.disown_count r.id p with gone | kept
    · have empty : (s.without r.id).threads.tally
          (fun r => r.info.state.isRunnable && r.id.process == p) = 0 := by
        refine Table.tally_eq_zero ?_
        rintro ⟨t, r₀⟩ stored
        have found := AList.mem_lookup_iff.mpr stored
        have known := owners.owner t (Option.isSome_iff_exists.mpr ⟨r₀, found⟩)
        have mine : r₀.id = t := balanced.ids t r₀ (left t r₀ found).2.2
        have other : t.process ≠ p := by
          rintro rfl
          have counted := (owners.counted t.process).mpr known
          change ((s.disown r.id).2.lookup t.process).isSome = true at counted
          rw [gone] at counted
          contradiction
        simp [mine, other]
      rw [empty]
      change ((s.disown r.id).2.lookup p).getD 0 = 0
      rw [gone]
      rfl
    · change ((s.disown r.id).2.lookup p).getD 0 = _
      rw [kept]
      exact count
  · intro b
    have count := counting.load b
    have asleep : loadClass r = none := by simp [loadClass, untracked.state,
      XnuThreadState.isActive]
    rw [asleep, show ((none : Option XnuSchedulerLoad.Bucket) == some b) = false from rfl,
      Bool.toNat_false, Nat.zero_add] at count
    exact count
  · intro i t
    refine (balanced.indexes.usage i t).trans (exists_left s ?_ t)
    simp [untracked.usage]
  · intro tick t
    refine (balanced.indexes.failsafe tick t).trans (exists_left s ?_ t)
    simp [untracked.failsafe]
  · intro deadline t
    refine (balanced.indexes.depression deadline t).trans (exists_left s ?_ t)
    simp [untracked.depression]
  · intro t r₀ found
    obtain ⟨other, known, -⟩ := left t r₀ found
    exact holding.scheduled t r₀ other known
  · have waiting := holding.waiting
    rw [Bool.toNat_false, Nat.zero_add] at waiting
    exact waiting

/-- A failsafe that is no longer indexed is no longer in force. -/
theorem Holding.forgetFailsafe (holding : Holding s r counted) :
    Holding (s.unindexFailsafe r) { r with info.failsafe := false } counted := by
  have ranged := holding.ranged
  have placed := holding.placed
  have free : ThreadRecord.Ranged s.processorRunQueues.length
      { r with info.failsafe := false } := by
    refine { ranged with computation := ?_, failsafe := nofun }
    rintro (realtime | ⟨failsafe, -⟩)
    · exact ranged.computation (.inl realtime)
    · contradiction
  cases failsafe : r.info.failsafe with
  | false =>
    rw [show s.unindexFailsafe r = s by simp [unindexFailsafe, failsafe],
      show { r with info.failsafe := false } = r by rw [← failsafe]]
    exact holding
  | true =>
    have entry : r.failsafeEntry = some r.info.failsafeReleaseTick := by
      simp [ThreadRecord.failsafeEntry, failsafe]
    simp only [unindexFailsafe, failsafe, if_true]
    refine holding.reindex rfl free { placed with } ?_ (holding.depressions_kept rfl)
    intro tick t
    rw [mem_erase_entry holding.failsafe_entry entry]
    simp [ThreadRecord.failsafeEntry]

/-- The last steps of a removal: the indexes and the table forget the record. -/
theorem forget_yields (holding : Holding s r false) (idle : r.queued = false)
    (free : r.hostAwait = false) (waiting : r.info.state = .waiting) :
    Yields (do
      let (s, record) ← (s.unindexThread r).untrackUsage r
      return { s with threads := s.threads.erase record.id }) fun s' =>
      s'.Settled ∧ Table.Alike unindexed (s.threads.erase r.id) s'.threads ∧
        s'.taskHistory = s.taskHistory ∧ s'.processorRunQueues.length = s.processorRunQueues.length := by
  have forgotten : Holding ((s.unindexDepression r).unindexFailsafe r) { r with
      info.depressed := false, depressionDeadline := none, info.failsafe := false } false :=
    holding.undepress.forgetFailsafe
  have frame := (unindexDepression_frame s r).trans
    (unindexFailsafe_frame (s.unindexDepression r) r)
  rw [unindexThread_eq, untrackUsage_withOwners]
  generalize (s.unindexDepression r).unindexFailsafe r = s₁ at *
  obtain ⟨⟨s₂, r₂⟩, untracked, holding₂, rfl, usage, threads, rfl, alike⟩ := forgotten.untrackUsage
  have same := untrackUsage_of_place s₁ { r with
    info.depressed := false, depressionDeadline := none, info.failsafe := false } r rfl rfl
  rw [untracked] at same
  cases actual : s₁.untrackUsage r with
  | error fault =>
    rw [actual] at same
    cases same
  | ok result =>
    rw [actual] at same
    obtain ⟨scheduler, id⟩ := Prod.mk.inj (Except.ok.inj same)
    refine Yields.ok ?_
    dsimp only
    dsimp only at scheduler id
    rw [scheduler, id]
    refine ⟨holding₂.erase ⟨idle, free, waiting, rfl, rfl, rfl⟩, ?_, frame.taskHistory,
      frame.processors⟩
    change Table.Alike unindexed (s.threads.erase r.id) (threads.erase r.id)
    rw [← frame.threads]
    exact alike.erase r.id

theorem retireState_yields (holding : Holding s r (isWaiting r)) :
    Yields (s.retireState r) fun (s', r') =>
      Holding s' r' false ∧ Frame s s' ∧ r' = { r with info.state := .waiting } := by
  unfold retireState
  refine Yields.ite (fun waiting => ?_) (fun awake => ?_)
  · rw [show isWaiting r = true by simp [isWaiting, waiting]] at holding
    refine (leaveWaiting_yields holding).bind ?_
    rintro s' ⟨holding', frame⟩
    refine Yields.ok ⟨holding', frame, ?_⟩
    rw [← waiting]
  · rw [show isWaiting r = false by simp [isWaiting, awake]] at holding
    exact transitionState_yields holding .waiting

theorem retireTicks_yields (holding : Holding s r counted) (pending : Nat) :
    Yields (s.retireTicks r pending) fun s' =>
      Holding s' r counted ∧ s'.threads = s.threads ∧
        s'.processorRunQueues = s.processorRunQueues ∧
        ∀ p, s'.retiredTicks p = if p = r.id.process then
          saturatingAdd (s.retiredTicks p) (saturatingAdd r.userTicks pending)
          else s.retiredTicks p := by
  obtain ⟨history, found⟩ := Option.isSome_iff_exists.mp holding.history
  unfold retireTicks
  simp only [found]
  refine Yields.ok ⟨?_, rfl, rfl, ?_⟩
  · refine holding.aside rfl rfl rfl rfl ?_ { holding.configured with }
    intro p here
    dsimp only
    rw [Table.lookup_insert_eq]
    split
    · rfl
    · exact here
  · intro p
    unfold retiredTicks
    dsimp only
    rw [Table.lookup_insert_eq]
    split
    · rename_i same
      rw [same, found]
      rfl
    · rfl

/-- One thread is gone, and its ticks are its task's. -/
structure Retires (t : XnuThreadId) (ticks : Nat) (s s' : XnuScheduler) : Prop where
  turns : Turns (fun u l => if u = t then none else l) s s'
  retired : ∀ p, s'.retiredTicks p =
    if p = t.process then saturatingAdd (s.retiredTicks p) ticks else s.retiredTicks p

theorem lifeOf_alike (alike : Table.Alike unindexed s.threads s'.threads) (t : XnuThreadId) :
    s'.lifeOf t = s.lifeOf t := by
  have same := alike.through ThreadRecord.life t
  exact same.symm

theorem fuelledAt_alike (alike : Table.Alike unindexed s.threads s'.threads) (t : XnuThreadId)
    (fuelled : s.FuelledAt t) : s'.FuelledAt t := by
  intro r' found'
  obtain ⟨r, found, same⟩ := alike.symm.forward found'
  exact (drift_of_unindexed same.symm).moves.fuelled (fuelled r found)

theorem removeRecord_yields (settled : s.Settled) (found : s.threads.lookup t = some r)
    (pending : Nat) :
    Yields (s.removeRecord r pending) (Retires t (saturatingAdd r.userTicks pending) s) := by
  have id := settled.balanced.ids t r found
  refine (finishHostAwait_yields (settled.hold found)).bind ?_
  rintro ⟨s₁, r₁⟩ ⟨holding₁, frame₁, rfl⟩
  refine (retireState_yields holding₁).bind ?_
  rintro ⟨s₂, r₂⟩ ⟨holding₂, frame₂, rfl⟩
  have holding₃ := holding₂.releaseProcessorContext
    { r with hostAwait := false, info.state := .waiting }
  have frame₃ := releaseProcessorContext_frame s₂
    { r with hostAwait := false, info.state := .waiting }
  have frame := frame₁.trans (frame₂.trans frame₃)
  dsimp only
  generalize s₂.releaseProcessorContext _ = s₃ at holding₃ frame ⊢
  refine (retireTicks_yields holding₃ pending).bind ?_
  rintro s₄ ⟨holding₄, threads₄, queues₄, retired₄⟩
  refine (removeFromQueue_yields holding₄).bind ?_
  rintro ⟨s₅, r₅⟩ ⟨holding₅, frame₅, rfl⟩
  refine (forget_yields holding₅ rfl rfl rfl).mono ?_
  rintro s' ⟨settled', alike, history, processors⟩
  have threads : s₅.threads = s.threads :=
    frame₅.threads.trans (threads₄.trans frame.threads)
  have alike : Table.Alike unindexed (s.threads.erase t) s'.threads := by
    rw [← id, ← threads]
    exact alike
  have erased : ∀ u, (s.threads.erase t).lookup u =
      if u = t then none else s.threads.lookup u := Table.lookup_erase_eq s.threads t
  refine ⟨⟨settled', ?_, ?_, ?_⟩, ?_⟩
  · intro u
    refine (lifeOf_alike (s := { s with threads := s.threads.erase t }) alike u).trans ?_
    unfold lifeOf
    dsimp only
    rw [erased]
    split
    · rfl
    · rfl
  · intro u fuelled
    refine fuelledAt_alike (s := { s with threads := s.threads.erase t }) alike u ?_
    intro r₀ found₀
    dsimp only at found₀
    rw [erased] at found₀
    split at found₀
    · contradiction
    · exact fuelled r₀ found₀
  · exact processors.trans (frame₅.processors.trans
      ((congrArg List.length queues₄).trans frame.processors))
  · intro p
    have kept : s'.retiredTicks p = s₅.retiredTicks p := by rw [retiredTicks, retiredTicks, history]
    rw [kept, frame₅.stable.retired, retired₄, frame.stable.retired]
    dsimp only
    rw [id]

theorem lifeOf_none (missing : s.threads.lookup t = none) : s.lifeOf t = none := by
  rw [lifeOf, missing]
  rfl

/-- The ticks that the task of a thread is credited with when the thread goes. -/
def dueTicks (s : XnuScheduler) (pending : XnuThreadId → Nat) (t : XnuThreadId) : Nat :=
  ((s.lifeOf t).map fun l => saturatingAdd l.userTicks (pending t)).getD 0

theorem saturatingAdd_zero (n : Nat) : saturatingAdd n 0 = n := by
  unfold saturatingAdd
  rw [if_neg (by omega)]
  rfl

theorem removeThread_yields (settled : s.Settled) (t : XnuThreadId)
    (pending : XnuThreadId → Nat) :
    Yields (s.removeThread t (pending t)) fun (s', removed) =>
      Retires t (s.dueTicks pending t) s s' ∧ removed = (s.lifeOf t).isSome := by
  unfold removeThread
  cases found : s.threads.lookup t with
  | none =>
    have missing := lifeOf_none found
    refine Yields.ok ⟨⟨⟨settled, ?_, fun _ fuelled => fuelled, rfl⟩, ?_⟩, by rw [missing]; rfl⟩
    · intro u
      split
      · rename_i same
        rw [same, missing]
      · rfl
    · intro p
      rw [dueTicks, missing]
      simp only [Option.map_none, Option.getD_none, saturatingAdd_zero, ite_self]
  | some r =>
    have due : s.dueTicks pending t = saturatingAdd r.userTicks (pending t) := by
      rw [dueTicks, lifeOf, found]
      rfl
    have here : (s.lifeOf t).isSome = true := by
      rw [lifeOf, found]
      rfl
    refine (removeRecord_yields settled found (pending t)).bind fun s' retires => ?_
    exact Yields.ok ⟨due ▸ retires, here.symm⟩

/-- The ticks of a task once a list of threads is gone. -/
def credit (due : XnuThreadId → Nat) (p : Nat) (threads : List XnuThreadId) (ticks : Nat) : Nat :=
  threads.foldl (fun ticks t => if p = t.process then saturatingAdd ticks (due t) else ticks) ticks

theorem credit_congr {due due' : XnuThreadId → Nat} {threads : List XnuThreadId}
    (same : ∀ t ∈ threads, due t = due' t) (p ticks : Nat) :
    credit due p threads ticks = credit due' p threads ticks := by
  refine List.foldl_ext _ _ _ fun ticks t member => ?_
  rw [same t member]

/-- Several threads are gone, and their ticks are their tasks'. -/
structure RetiresAll (threads : List XnuThreadId) (pending : XnuThreadId → Nat)
    (s s' : XnuScheduler) : Prop where
  turns : Turns (fun u l => if u ∈ threads then none else l) s s'
  retired : ∀ p, s'.retiredTicks p = credit (s.dueTicks pending) p threads (s.retiredTicks p)

theorem removeThreads_yields (settled : s.Settled) {threads : List XnuThreadId}
    (distinct : threads.Nodup) (pending : XnuThreadId → Nat) :
    Yields (s.removeThreads threads pending) (RetiresAll threads pending s) := by
  unfold removeThreads
  induction threads generalizing s with
  | nil =>
    refine Yields.ok ⟨⟨settled, ?_, fun _ fuelled => fuelled, rfl⟩, fun _ => rfl⟩
    intro u
    rw [if_neg List.not_mem_nil]
  | cons t rest ih =>
    obtain ⟨fresh, distinct⟩ := List.nodup_cons.mp distinct
    rw [List.foldlM_cons]
    refine Yields.bind ((removeThread_yields settled t pending).bind fun result retires =>
      Yields.ok retires.1) fun s₁ retires => ?_
    refine (ih retires.turns.settled distinct).mono fun s' rests => ⟨⟨?_, ?_, ?_, ?_⟩, ?_⟩
    · exact rests.turns.settled
    · intro u
      rw [rests.turns.lives, retires.turns.lives]
      by_cases first : u = t
      · simp [first]
      · simp [first]
    · exact fun u fuelled => rests.turns.fuelled u (retires.turns.fuelled u fuelled)
    · exact rests.turns.processors.trans retires.turns.processors
    · intro p
      rw [rests.retired, retires.retired]
      refine credit_congr (fun u member => ?_) p _
      have other : u ≠ t := fun same => fresh (same ▸ member)
      rw [dueTicks, dueTicks, retires.turns.lives, if_neg other]

end
end XnuScheduler
end ILEmu
