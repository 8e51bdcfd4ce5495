import ILEmu.Scheduler.Steps

/-! Whether a running thread is to give up its processor, and whether a thread that is not
comes first again once its slice is completed. -/
namespace ILEmu
open Foundation Xnu.Scheduler

def Xnu.Scheduler.preemptPriority : Int := maximumKernelPriority - 2

inductive XnuPreemption where
  | none | preempt | urgent
  deriving DecidableEq, Repr

namespace XnuScheduler

/-- The comparison of a running thread with the candidate for its processor. -/
def preemptionBy (current candidate : ThreadRecord) : XnuPreemption :=
  let firstTimeslice := current.info.remainingQuantum ≠ 0
  let higher :=
    if firstTimeslice then current.info.scheduledPriority < candidate.info.scheduledPriority
    else current.info.scheduledPriority ≤ candidate.info.scheduledPriority
  let earlier := realtimeQueuePriority ≤ candidate.info.scheduledPriority ∧
    current.info.realtime ∧ candidate.info.realtime ∧
    candidate.info.realtimeDeadline < current.info.realtimeDeadline
  if ¬(higher ∨ earlier) then .none
  else if ¬candidate.info.timeshare ∧ preemptPriority ≤ candidate.info.scheduledPriority then
    .urgent
  else .preempt

def preemptionFor (s : XnuScheduler) (runningThread : XnuThreadId) (processor : Nat) :
    Checked XnuPreemption :=
  match s.threads.lookup runningThread with
  | none => .ok .none
  | some current =>
    if s.processorRunQueues.length ≤ processor ∨ current.info.state ≠ .running then .ok .none
    else do
      match ← s.peekNextForProcessor processor with
      | none => return .none
      | some candidateThread =>
        match s.threads.lookup candidateThread with
        | none => return .none
        | some candidate => return preemptionBy current candidate

/-- No thread is bound to a processor. -/
def Unbound (s : XnuScheduler) : Prop :=
  ∀ t r, s.threads.lookup t = some r → r.info.boundProcessor = none

/-- The key that a thread gets when it is queued again. -/
def nextKey (s : XnuScheduler) (r : ThreadRecord) : RealtimeQueueKey :=
  ⟨r.info.realtimeDeadline, s.nextEnqueueSequence, r.id⟩

/-- A running thread comes before the queued ones when it is queued at the front: below the
realtime band as every thread does, and in it only as a realtime thread whose new key is before
those of the threads that are queued. -/
def KeepsTurn (s : XnuScheduler) (r : ThreadRecord) : Prop :=
  r.info.scheduledPriority < realtimeQueuePriority ∨
    r.info.realtime = true ∧ ∀ r' k', s.QueuedAt none r' → r'.realtimeQueueKey = some k' →
      s.nextKey r ≤ k'

section
variable {s : XnuScheduler} {t : XnuThreadId} {r : ThreadRecord} {processor : Nat}

/-! ### Selection without bound threads -/

theorem Unbound.own_empty (unbound : s.Unbound) (balanced : s.Balanced) {own : RunQueue}
    (found : s.processorRunQueues[processor]? = some own) : own.count = 0 := by
  by_contra counted
  have at_own : s.runQueueAt (some processor) = some own := found
  obtain ⟨-, t, rest, bucket⟩ := exists_highest balanced at_own counted
  have member : t ∈ own.queues own.highQueue.toNat := by
    rw [bucket]
    exact List.mem_cons_self
  obtain ⟨r, here, queuedAt, -⟩ := listed_queuedAt balanced at_own member
  have bound := (balanced.placed t r here).processor queuedAt.queued
  rw [queuedAt.processor, unbound t r here] at bound
  contradiction

/-- Without bound threads the next one is the highest of the shared queue. -/
theorem Unbound.peekNext (unbound : s.Unbound) (balanced : s.Balanced)
    (inside : processor < s.processorRunQueues.length) :
    s.peekNextForProcessor processor =
      if s.processorSetRunQueue.count = 0 then .ok none
      else (s.peekHighest s.processorSetRunQueue).map fun r => some r.id := by
  have found := List.getElem?_eq_getElem inside
  generalize s.processorRunQueues[processor] = own at found
  have at_own : s.runQueueAt (some processor) = some own := found
  have at_shared : s.runQueueAt none = some s.processorSetRunQueue := rfl
  have mine : s.candidateForQueue own true = .ok none :=
    if_pos (unbound.own_empty balanced found)
  unfold peekNextForProcessor selectedRunQueue
  simp only [found, mine]
  rcases candidateForQueue_cases balanced at_shared with
    ⟨theirs, empty⟩ | ⟨r, theirs, peeked, top⟩ | ⟨theirs, unindexed⟩
  · rw [show s.candidateForQueue s.processorSetRunQueue false = .ok none from theirs, if_pos empty]
    rfl
  · have counted := top.here.counted balanced at_shared
    rw [show s.candidateForQueue s.processorSetRunQueue false = _ from theirs, if_neg counted,
      peeked]
    dsimp only [bind, Except.bind, pure, Except.pure, Except.map]
    rw [peeked]
  · obtain ⟨r, here, -⟩ := id unindexed
    have counted := here.counted balanced at_shared
    rw [show s.candidateForQueue s.processorSetRunQueue false = _ from theirs, if_neg counted]
    rcases peekHighest_cases balanced at_shared counted with ⟨r', -, top⟩ | ⟨thrown, -⟩
    · exact absurd unindexed (top.indexed balanced at_shared)
    · rw [thrown]
      rfl

theorem peekNext_eq_select (s : XnuScheduler) (processor : Nat) :
    s.peekNextForProcessor processor =
      (s.selectRecord processor none).map fun selected => selected.map ThreadRecord.id := by
  unfold peekNextForProcessor selectRecord
  dsimp only [bind, Except.bind]
  cases s.selectedRunQueue processor with
  | error fault => rfl
  | ok chosen =>
    cases chosen with
    | none => rfl
    | some q =>
      dsimp only
      cases s.peekHighest q with
      | error fault => rfl
      | ok r => rfl

/-- A choice falls on the thread that was looked at. -/
theorem chosen_eq_some (invariant : s.Invariant)
    (inside : processor < s.processorRunQueues.length) :
    s.chosen processor none = some t ↔ s.peekNextForProcessor processor = .ok (some t) := by
  have selected := selectRecord_selected invariant.settled inside none
  rw [peekNext_eq_select]
  unfold XnuScheduler.chosen chooseNext
  rw [if_neg (Nat.not_le.mpr inside)]
  generalize s.selectRecord processor none = result at selected ⊢
  cases selected with
  | nobody unguided guided =>
    constructor
    · exact nofun
    · exact nofun
  | record r eligible unguided guided =>
    have runnable := (invariant.sound r.id r eligible.found).queued.mp eligible.queued
    obtain ⟨⟨s', slice⟩, dispatched, -, thread, -⟩ := dispatchRecord_yields
      invariant.settled eligible.found eligible.queued runnable inside
    dsimp only [bind, Except.bind]
    rw [dispatched]
    dsimp only [Except.map, Option.map, pure, Except.pure]
    rw [thread]
    constructor
    · intro same
      rw [Option.some.inj same]
    · intro same
      exact Except.ok.inj same
  | thrown unguided obstructed =>
    constructor
    · exact nofun
    · exact nofun

/-! ### The slice of a thread that goes on -/

/-- The record of a thread whose slice ended before its quantum. -/
def goesOn (r : ThreadRecord) (consumed : Nat) : ThreadRecord :=
  { chargeSlice r consumed with wakePending := false, info.state := .runnable }.beginRunnableGeneration

theorem completeSlice_continue (found : s.threads.lookup t = some r) (ids : r.id = t)
    (running : r.info.state = .running) (pending : r.executionPending = true) {consumed : Nat}
    (left : consumed < r.info.remainingQuantum) :
    s.completeSlice t consumed .continue .deferred = (do
      let (s', r') ← (s.store (chargeSlice r consumed)).enqueue (goesOn r consumed) .front
      return (s'.store r', true)) := by
  have quantum : (chargeSlice r consumed).info.remainingQuantum ≠ 0 := by
    change r.info.remainingQuantum - min r.info.remainingQuantum consumed ≠ 0
    omega
  have metered : s.meterSlice (chargeSlice r consumed) = .ok (s, chargeSlice r consumed) :=
    if_neg fun metered => quantum metered.1
  have again : (s.store (chargeSlice r consumed)).threads.lookup t =
      some (chargeSlice r consumed) := by
    rw [← ids]
    exact lookup_store_self s (chargeSlice r consumed)
  unfold completeSlice
  rw [found]
  dsimp only
  rw [if_neg (not_not.mpr pending), metered]
  dsimp only [bind, Except.bind, accountTime]
  rw [if_neg (by decide), again]
  dsimp only
  unfold settleSlice
  have ran : (chargeSlice r consumed).info.state = .running := running
  rw [if_neg (by decide), if_neg (not_or.mpr ⟨not_not.mpr rfl, quantum⟩), if_neg (not_not.mpr ran),
    if_neg (by decide)]
  unfold settleRunning
  dsimp only [bind, Except.bind]
  rw [if_neg (fun cooperates => nomatch cooperates.1),
    if_neg (fun yields => yields.elim nofun quantum)]
  have moved : (s.store (chargeSlice r consumed)).transitionState
      { chargeSlice r consumed with wakePending := false } .runnable =
        .ok (s.store (chargeSlice r consumed),
          { chargeSlice r consumed with wakePending := false, info.state := .runnable }) := by
    unfold transitionState shiftLoad shiftRunnable
    rw [if_pos (by dsimp only; rw [ran]; rfl), if_pos (by dsimp only; rw [ran]; rfl)]
    rfl
  rw [moved]
  rfl

/-- A thread that goes on is queued at the front of its bucket, or in the realtime order. -/
structure GoesOn (s s' : XnuScheduler) (r r' : ThreadRecord) : Prop where
  threads : ∀ u, s'.threads.lookup u = if u = r.id then some r' else s.threads.lookup u
  shared : s'.processorSetRunQueue = s.processorSetRunQueue.link r.id r.info.scheduledPriority
    (if (realtimeKey r s.nextEnqueueSequence).isSome then .back else .front)
    (realtimeKey r s.nextEnqueueSequence)
  processors : s'.processorRunQueues = s.processorRunQueues
  ident : r'.id = r.id
  queued : r'.queued = true
  place : r'.queuedProcessor = none
  free : r'.info.boundProcessor = none
  priority : r'.queuedPriority = r.info.scheduledPriority
  key : r'.realtimeQueueKey = realtimeKey r s.nextEnqueueSequence

theorem GoesOn.here {s' : XnuScheduler} {r' : ThreadRecord} (goes : GoesOn s s' r r') :
    s'.QueuedAt none r' := by
  refine ⟨?_, goes.queued, goes.place⟩
  rw [goes.threads, goes.ident, if_pos rfl]

/-- An idle record that is bound to no processor. -/
theorem enqueue_front (idle : r.queued = false) (unkeyed : r.realtimeQueueKey = none)
    (free : r.info.boundProcessor = none) :
    ∃ s' r', s.enqueue r .front = .ok (s', r') ∧ GoesOn s (s'.store r') r r' := by
  have unqueued : ¬r.queued = true := by
    rw [idle]
    exact Bool.false_ne_true
  unfold enqueue
  rw [if_neg unqueued, free]
  refine ⟨_, _, rfl, fun u => lookup_store _ _ u, rfl, rfl, rfl, rfl, rfl, free, rfl, ?_⟩
  dsimp only
  rw [unkeyed, Option.or_none]

theorem completeSlice_goesOn (found : s.threads.lookup t = some r) (ids : r.id = t)
    (running : r.info.state = .running) (pending : r.executionPending = true)
    (idle : r.queued = false) (unkeyed : r.realtimeQueueKey = none)
    (free : r.info.boundProcessor = none) {consumed : Nat}
    (left : consumed < r.info.remainingQuantum) :
    ∃ r', GoesOn s (s.after (.completeSlice t consumed .continue .deferred)) r r' := by
  have completed := completeSlice_continue found ids running pending left
  have quiet : (goesOn r consumed).queued = false := idle
  obtain ⟨s', r', queued, goes⟩ := enqueue_front (s := s.store (chargeSlice r consumed)) quiet
    unkeyed free
  rw [queued] at completed
  have done : s.after (.completeSlice t consumed .continue .deferred) = s'.store r' := by
    unfold after
    rw [show s.perform (.completeSlice t consumed .continue .deferred) =
      answering .flag (s.completeSlice t consumed .continue .deferred) from rfl, completed]
    rfl
  rw [done]
  refine ⟨r', ?_, goes.shared, goes.processors, goes.ident, goes.queued, goes.place, goes.free,
    goes.priority, goes.key⟩
  intro u
  rw [goes.threads u]
  change (if u = r.id then some r' else (s.store (chargeSlice r consumed)).threads.lookup u) = _
  rw [lookup_store]
  change (if u = r.id then some r' else if u = r.id then some (chargeSlice r consumed) else
    s.threads.lookup u) = _
  split
  · rfl
  · rfl

/-- A thread that goes on is chosen again if and only if it keeps its turn. -/
theorem GoesOn.chosen_iff {s' : XnuScheduler} {r' : ThreadRecord} (goes : GoesOn s s' r r')
    (invariant' : s'.Invariant) (unbound : s.Unbound)
    (found : s.threads.lookup r.id = some r) (idle : r.queued = false)
    (inside : processor < s.processorRunQueues.length)
    (highest : s.processorSetRunQueue.highQueue ≤ r.info.scheduledPriority) :
    s'.chosen processor none = some r.id ↔ s.KeepsTurn r := by
  have balanced' := invariant'.settled.balanced
  have inside' : processor < s'.processorRunQueues.length := by
    rw [goes.processors]
    exact inside
  have unbound' : s'.Unbound := by
    intro u other lookup
    rw [goes.threads] at lookup
    split at lookup
    · cases lookup
      exact goes.free
    · exact unbound u other lookup
  have at_shared : s'.runQueueAt none = some s'.processorSetRunQueue := rfl
  have counted := goes.here.counted balanced' at_shared
  have high : s'.processorSetRunQueue.highQueue = r.info.scheduledPriority := by
    rw [goes.shared]
    exact max_eq_right highest
  have table : s'.threads.lookup r.id = some r' := by rw [goes.threads, if_pos rfl]
  have others : ∀ other, s'.QueuedAt none other → other = r' ∨ s.QueuedAt none other := by
    intro other here
    have lookup := here.found
    rw [goes.threads] at lookup
    split at lookup
    · exact .inl (Option.some.inj lookup).symm
    · exact .inr ⟨lookup, here.queued, here.processor⟩
  have back : ∀ other, s.QueuedAt none other → s'.QueuedAt none other := by
    intro other here
    refine ⟨?_, here.queued, here.processor⟩
    rw [goes.threads, if_neg]
    · exact here.found
    · intro same
      have lookup := here.found
      rw [same, found] at lookup
      have quiet := here.queued
      rw [← Option.some.inj lookup, idle] at quiet
      contradiction
  rw [chosen_eq_some invariant' inside', unbound'.peekNext balanced' inside', if_neg counted]
  by_cases low : r.info.scheduledPriority < realtimeQueuePriority
  · refine ⟨fun _ => .inl low, fun _ => ?_⟩
    have keyless : realtimeKey r s.nextEnqueueSequence = none :=
      if_neg fun keyed => absurd keyed.2 (Int.not_le.mpr low)
    have bucket : s'.processorSetRunQueue.queues r.info.scheduledPriority.toNat =
        r.id :: s.processorSetRunQueue.queues r.info.scheduledPriority.toNat := by
      rw [goes.shared, keyless]
      exact Function.update_self ..
    have nonneg : ¬(s'.processorSetRunQueue.count = 0 ∨
        s'.processorSetRunQueue.highQueue < minimumPriority) := by
      have positive := goes.here.nonneg balanced'
      rw [goes.priority] at positive
      rw [high]
      exact not_or.mpr ⟨counted, Int.not_lt.mpr positive⟩
    unfold peekHighest
    rw [if_neg nonneg, if_neg (by rw [high]; exact Int.not_le.mpr low), high, bucket]
    dsimp only
    rw [table]
    dsimp only [Except.map]
    rw [goes.ident]
  · have band : realtimeQueuePriority ≤ s'.processorSetRunQueue.highQueue := by
      rw [high]
      exact Int.not_lt.mp low
    rcases peekHighest_cases balanced' at_shared counted with
      ⟨first, peeked, top⟩ | ⟨thrown, unindexed⟩
    · rw [peeked]
      constructor
      · intro same
        have named : first.id = r.id := Option.some.inj (Except.ok.inj same)
        have lookup := top.here.found
        rw [named, table] at lookup
        obtain rfl := Option.some.inj lookup
        obtain ⟨-, k, key, least⟩ := top.leads band
        rw [goes.key] at key
        unfold realtimeKey at key
        split at key
        · rename_i realtime
          refine .inr ⟨realtime.1, fun other k' here key' => ?_⟩
          unfold nextKey
          rw [Option.some.inj key]
          exact least other k' (back other here) key'
        · contradiction
      · rintro (absurd_ | ⟨realtime, least⟩)
        · exact absurd absurd_ low
        · have key : r'.realtimeQueueKey = some (s.nextKey r) := by
            rw [goes.key]
            exact if_pos ⟨realtime, Int.not_lt.mp low⟩
          have leads : s'.Leads none r' := by
            refine ⟨goes.here, _, key, fun other k' here key' => ?_⟩
            rcases others other here with rfl | before
            · rw [key] at key'
              exact le_of_eq (Option.some.inj key')
            · exact least other k' before key'
          rw [Leads.unique balanced' (top.leads band) leads]
          dsimp only [Except.map]
          rw [goes.ident]
    · rw [thrown]
      refine ⟨nofun, ?_⟩
      rintro (absurd_ | ⟨realtime, -⟩)
      · exact absurd absurd_ low
      · -- The thread itself is in the realtime order.
        obtain ⟨r₀, here₀, -, highest₀⟩ := unindexed
        have below := here₀.below balanced' at_shared
        obtain ⟨above, keyless⟩ := highest₀ r' goes.here
        have same : r'.queuedPriority = r₀.queuedPriority := by
          rw [high, ← goes.priority] at below
          exact Int.le_antisymm above below
        have keyed := keyless same
        rw [goes.key] at keyed
        unfold realtimeKey at keyed
        rw [if_pos ⟨realtime, Int.not_lt.mp low⟩] at keyed
        contradiction

/-- A candidate that does not preempt a thread within its timeslice is not above it. -/
theorem preemptionBy_none {candidate : ThreadRecord} (left : r.info.remainingQuantum ≠ 0)
    (stays : preemptionBy r candidate = .none) :
    candidate.info.scheduledPriority ≤ r.info.scheduledPriority := by
  by_contra higher
  have preempts : preemptionBy r candidate ≠ .none := by
    simp only [preemptionBy, if_pos left, Int.not_le.mp higher, true_or, not_true, if_false]
    split
    · exact nofun
    · exact nofun
  exact preempts stays

theorem highQueue_le (invariant : s.Invariant) (unbound : s.Unbound)
    (found : s.threads.lookup t = some r) (running : r.info.state = .running)
    (inside : processor < s.processorRunQueues.length) (left : r.info.remainingQuantum ≠ 0)
    (stays : s.preemptionFor t processor = .ok .none) :
    s.processorSetRunQueue.highQueue ≤ r.info.scheduledPriority := by
  have balanced := invariant.settled.balanced
  have at_shared : s.runQueueAt none = some s.processorSetRunQueue := rfl
  have active : ¬(s.processorRunQueues.length ≤ processor ∨ r.info.state ≠ .running) :=
    not_or.mpr ⟨Nat.not_le.mpr inside, not_not.mpr running⟩
  by_cases empty : s.processorSetRunQueue.count = 0
  · have nonneg : (0 : Int) ≤ r.info.scheduledPriority := (balanced.ranged t r found).scheduled.1
    rcases (balanced.queues.summarized none _ at_shared).high.1 with none | ⟨i, -, filled⟩
    · have none : s.processorSetRunQueue.highQueue = -1 := none
      omega
    · obtain ⟨u, member⟩ := List.exists_mem_of_ne_nil _ filled
      obtain ⟨other, -, here, -⟩ := listed_queuedAt balanced at_shared member
      exact absurd empty (here.counted balanced at_shared)
  · unfold preemptionFor at stays
    rw [found] at stays
    dsimp only at stays
    rw [if_neg active, unbound.peekNext balanced inside, if_neg empty] at stays
    rcases peekHighest_cases balanced at_shared empty with ⟨c, peeked, top⟩ | ⟨thrown, -⟩
    · rw [peeked] at stays
      dsimp only [Except.map, bind, Except.bind] at stays
      rw [top.here.found] at stays
      rw [← top.priority, ← top.here.scheduled balanced]
      exact preemptionBy_none left (Except.ok.inj stays)
    · rw [thrown] at stays
      contradiction

end
end XnuScheduler

/-- The operation neither holds nor blocks the thread, nor retires it or ends its slice. -/
def Operation.LeavesRunning (t : XnuThreadId) : Operation → Prop
  | .removeThread thread _ | .suspendThread thread _ | .block thread |
    .completeSlice thread _ _ _ => thread ≠ t
  | .replaceProcessThreads survivor _ _ _ => survivor.process ≠ t.process
  | .removeProcess process _ | .suspendProcess process _ => process ≠ t.process
  | _ => True

/-- The life of a thread that runs. -/
structure Life.Runs (l : Life) : Prop where
  state : l.state = .running
  queued : l.queued = false
  pending : l.executionPending = true
  free : l.suspendCount = 0

namespace Life
variable {l : Life}

theorem Runs.of_running (sound : l.Sound) (running : l.state = .running) : l.Runs := by
  refine ⟨running, ?_, sound.running running, ?_⟩
  · by_contra queued
    have runnable := sound.queued.mp (by simpa using queued)
    rw [running] at runnable
    contradiction
  · by_contra held
    have waits := sound.held (Nat.pos_of_ne_zero held)
    rw [running] at waits
    contradiction

theorem Runs.makeRunnable (runs : l.Runs) : l.makeRunnable.Runs := by
  unfold Life.makeRunnable
  rw [if_neg (not_not.mpr runs.free), if_pos (.inl runs.state)]
  exact ⟨runs.state, runs.queued, runs.pending, runs.free⟩

theorem Runs.wake (runs : l.Runs) : l.wake.Runs := by
  unfold Life.wake
  split
  · exact runs
  · rw [if_pos runs.pending]
    exact ⟨runs.state, runs.queued, runs.pending, runs.free⟩

theorem Runs.resume (runs : l.Runs) (sound : l.Sound) (reason : XnuThreadSuspension) :
    (l.resume reason).Runs := by
  have none : l.suspensionCounts reason = 0 := by
    have total := sound.holds
    rw [runs.free] at total
    cases reason <;> omega
  unfold Life.resume
  rw [if_pos none]
  exact runs

end Life

namespace XnuScheduler

/-- The thread is on a processor. -/
def Runs (s : XnuScheduler) (t : XnuThreadId) : Prop :=
  ∃ l, s.lifeOf t = some l ∧ l.Runs

section
variable {s : XnuScheduler} {t : XnuThreadId} {operation : Operation}

theorem solely_runs {u : XnuThreadId} {f : Life → Life} {l : Life} (running : l.Runs)
    (keeps : l.Runs → (f l).Runs) : (solely u f t l).Runs := by
  by_cases same : t = u
  · rw [same, solely_self]
    exact keeps running
  · rw [solely_of_ne same]
    exact running

/-- A thread that is spared goes on running. -/
theorem Runs.after (runs : s.Runs t) (invariant : s.Invariant) (spares : operation.LeavesRunning t) :
    (s.after operation).Runs t := by
  have lives := (after_performs invariant operation).lives t
  obtain ⟨l, known, running⟩ := runs
  have sound : l.Sound := by
    obtain ⟨r, found, rfl⟩ := Option.map_eq_some_iff.mp known
    exact invariant.sound t r found
  have lookup : ∀ l' : Life, operation.step s t (some l) = some l' → l'.Runs →
      (s.after operation).Runs t := by
    intro l' step running'
    exact ⟨l', by rw [lives, known, step], running'⟩
  cases operation with
  | registerThread thread base runnable =>
    refine lookup l ?_ running
    simp only [Operation.step]
    split
    · rfl
    · rfl
  | removeThread thread pending =>
    exact lookup l (if_neg (Ne.symm spares)) running
  | replaceProcessThreads survivor base pending order =>
    refine lookup l ?_ running
    simp only [Operation.step]
    split
    · rfl
    · unfold replaced
      rw [if_neg (fun same => spares (congrArg XnuThreadId.process same.symm)),
        if_neg (fun same => spares same.symm)]
  | removeProcess process order =>
    exact lookup l (if_neg (Ne.symm spares)) running
  | makeRunnable thread => exact lookup _ rfl (solely_runs running Life.Runs.makeRunnable)
  | suspendProcess process order =>
    refine lookup l ?_ running
    simp only [Operation.step]
    rw [if_neg (Ne.symm spares)]
    rfl
  | resumeProcess process order =>
    refine lookup _ rfl ?_
    split
    · exact running.resume sound .process
    · exact running
  | wakeThread thread => exact lookup _ rfl (solely_runs running Life.Runs.wake)
  | block thread =>
    refine lookup l ?_ running
    simp only [Operation.step]
    rw [solely_of_ne (Ne.symm spares)]
    rfl
  | suspendThread thread reason =>
    refine lookup l ?_ running
    simp only [Operation.step]
    rw [solely_of_ne (Ne.symm spares)]
    rfl
  | resumeThread thread reason =>
    exact lookup _ rfl (solely_runs running fun running => running.resume sound reason)
  | chooseNext processor preferred =>
    refine lookup l ?_ running
    simp only [Operation.step]
    split
    · rfl
    · rename_i thread chosen
      -- The thread is on no queue, so the choice is another one.
      have other : t ≠ thread := by
        rintro rfl
        obtain ⟨r, found, queued⟩ := chosen_queued invariant chosen
        rw [lifeOf, found] at known
        obtain rfl := Option.some.inj known
        exact absurd (running.queued.symm.trans queued) Bool.false_ne_true
      rw [solely_of_ne other]
      rfl
  | completeSlice thread consumed completion accounting =>
    exact lookup l (if_neg (Ne.symm spares)) running
  | _ => exact lookup l rfl running

theorem Runs.run {operations : List Operation} (runs : s.Runs t) (invariant : s.Invariant)
    (spares : ∀ operation ∈ operations, operation.LeavesRunning t) :
    (run XnuScheduler.after s operations).Runs t := by
  induction operations generalizing s with
  | nil => exact runs
  | cons operation rest ih =>
    obtain ⟨head, tail⟩ := List.forall_mem_cons.mp spares
    exact ih (runs.after invariant head) (after_invariant invariant operation) tail

/-- A thread runs once it is chosen. -/
theorem chosen_runs (invariant : s.Invariant) {processor : Nat} {preferred : Option XnuThreadId}
    (chosen : s.chosen processor preferred = some t) :
    (s.after (.chooseNext processor preferred)).Runs t := by
  obtain ⟨r, found, queued⟩ := chosen_queued invariant chosen
  have here : s.lifeOf t = some r.life := by rw [lifeOf, found]; rfl
  have dispatched : (s.after (.chooseNext processor preferred)).lifeOf t = some r.life.dispatch := by
    rw [(after_performs invariant _).lives, here]
    simp only [Operation.step, chosen]
    rw [solely_self]
    rfl
  have sound : r.life.dispatch.Sound := Life.dispatch_sound (invariant.sound t r found) queued
  exact ⟨_, dispatched, Life.Runs.of_running sound rfl⟩

theorem Unbound.of_all
    (free : s.threads.entries.all fun entry => entry.2.info.boundProcessor.isNone) :
    s.Unbound := by
  intro t r found
  have member := AList.mem_lookup_iff.mp found
  exact Option.isNone_iff_eq_none.mp (List.all_eq_true.mp free ⟨t, r⟩ member)

/-- A thread that was dispatched and not held or blocked since then, and that is not to be
preempted, is chosen again after a part of its slice if and only if it keeps its turn. -/
theorem chosen_iff_keepsTurn (reachable : s.Reachable) {processor : Nat}
    {preferred : Option XnuThreadId} (chosen : s.chosen processor preferred = some t)
    {operations : List Operation} (spares : ∀ operation ∈ operations, operation.LeavesRunning t)
    {later : XnuScheduler}
    (reached : later = run after (s.after (.chooseNext processor preferred)) operations)
    (unbound : later.Unbound) {r : ThreadRecord} (found : later.threads.lookup t = some r)
    (stays : later.preemptionFor t processor = .ok .none) {consumed : Nat}
    (left : consumed < r.info.remainingQuantum) :
    (later.after (.completeSlice t consumed .continue .deferred)).chosen processor none = some t ↔
      later.KeepsTurn r := by
  have invariant := after_invariant reachable.invariant (.chooseNext processor preferred)
  have invariant' : later.Invariant := by
    rw [reached]
    exact run_after_invariant invariant operations
  have inside : processor < later.processorRunQueues.length := by
    rw [reached, run_processors invariant,
      (after_performs reachable.invariant (.chooseNext processor preferred)).processors]
    by_contra outside
    unfold XnuScheduler.chosen chooseNext at chosen
    rw [if_pos (Nat.not_lt.mp outside)] at chosen
    contradiction
  have runs := (chosen_runs reachable.invariant chosen).run invariant spares
  rw [← reached] at runs
  obtain ⟨l, known, running⟩ := runs
  rw [lifeOf, found] at known
  obtain rfl := Option.some.inj known
  have balanced := invariant'.settled.balanced
  obtain rfl := balanced.ids t r found
  have idle : r.queued = false := running.queued
  have unkeyed : r.realtimeQueueKey = none := ((balanced.placed _ r found).idle idle).2
  obtain ⟨r', goes⟩ := completeSlice_goesOn found rfl running.state running.pending idle unkeyed
    (unbound _ r found) left
  exact goes.chosen_iff (after_invariant invariant' _) unbound found idle inside
    (highQueue_le invariant' unbound found running.state inside (Nat.ne_zero_of_lt left) stays)

/-- Two threads of one priority. -/
def peers : XnuScheduler :=
  run after (initialState {}) [.registerThread ⟨1, 1⟩ 31 true, .registerThread ⟨1, 2⟩ 31 true]

/-- Two threads with one realtime constraint. -/
def realtimePeers : XnuScheduler :=
  run after (initialState {})
    [.registerThread ⟨1, 1⟩ 31 true, .registerThread ⟨1, 2⟩ 31 true,
      .setRealtime ⟨1, 1⟩ 0 1000000 2000000 true, .setRealtime ⟨1, 2⟩ 0 1000000 2000000 true]

theorem peers_reachable : peers.Reachable := ⟨{}, _, _, rfl, rfl⟩

theorem realtimePeers_reachable : realtimePeers.Reachable := ⟨{}, _, _, rfl, rfl⟩

/-- A thread goes on before a peer of its priority. -/
theorem chosen_iff_keepsTurn_peer :
    ∃ r, ((peers.after (.chooseNext 0 none)).after
        (.completeSlice ⟨1, 1⟩ 5 .continue .deferred)).chosen 0 none = some ⟨1, 1⟩ ↔
      (peers.after (.chooseNext 0 none)).KeepsTurn r := by
  have chosen : peers.chosen 0 none = some ⟨1, 1⟩ := by decide +kernel
  have unbound : (peers.after (.chooseNext 0 none)).Unbound := Unbound.of_all (by decide +kernel)
  have stays : (peers.after (.chooseNext 0 none)).preemptionFor ⟨1, 1⟩ 0 = .ok .none := by
    decide +kernel
  have budget : ((peers.after (.chooseNext 0 none)).threads.lookup ⟨1, 1⟩).any
      (5 < ·.info.remainingQuantum) := by
    decide +kernel
  obtain ⟨r, found, left⟩ := (Option.any_eq_true _ _).mp budget
  have idle : ∀ operation ∈ ([] : List Operation), operation.LeavesRunning ⟨1, 1⟩ := nofun
  exact ⟨r, chosen_iff_keepsTurn peers_reachable chosen idle rfl unbound found stays
    (of_decide_eq_true left)⟩

/-- It does not go on before a peer of its deadline that was queued earlier. -/
theorem displaced_by_equal_deadline : ¬∀ (s : XnuScheduler) (t : XnuThreadId) (processor : Nat)
    (operations : List Operation) (later : XnuScheduler) (r : ThreadRecord) (consumed : Nat),
    s.Reachable → s.chosen processor none = some t →
    (∀ operation ∈ operations, operation.LeavesRunning t) →
    later = run after (s.after (.chooseNext processor none)) operations → later.Unbound →
    later.threads.lookup t = some r → later.preemptionFor t processor = .ok .none →
    consumed < r.info.remainingQuantum →
    (later.after (.completeSlice t consumed .continue .deferred)).chosen processor none =
      some t := by
  intro keeps
  have chosen : realtimePeers.chosen 0 none = some ⟨1, 1⟩ := by decide +kernel
  have unbound : (realtimePeers.after (.chooseNext 0 none)).Unbound :=
    Unbound.of_all (by decide +kernel)
  have stays : (realtimePeers.after (.chooseNext 0 none)).preemptionFor ⟨1, 1⟩ 0 = .ok .none := by
    decide +kernel
  have budget : ((realtimePeers.after (.chooseNext 0 none)).threads.lookup ⟨1, 1⟩).any
      (5 < ·.info.remainingQuantum) := by
    decide +kernel
  obtain ⟨r, found, left⟩ := (Option.any_eq_true _ _).mp budget
  have again := keeps realtimePeers ⟨1, 1⟩ 0 [] (realtimePeers.after (.chooseNext 0 none)) r 5
    realtimePeers_reachable chosen nofun rfl unbound found stays (of_decide_eq_true left)
  have other : ((realtimePeers.after (.chooseNext 0 none)).after
      (.completeSlice ⟨1, 1⟩ 5 .continue .deferred)).chosen 0 none = some ⟨1, 2⟩ := by
    decide +kernel
  rw [other] at again
  contradiction

end
end XnuScheduler
end ILEmu
