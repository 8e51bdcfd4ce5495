import ILEmu.Foundation.Arrivals
import ILEmu.Bsd.PsynchRuntime

/-! One mutex over every history of its waits and drops: no drop is lost, and none counts
twice. -/
namespace ILEmu.Bsd.Psynch
open Foundation

variable {queue : QueueState} {key : QueueKey}

/-! ### Preposts and waiters -/

def outstanding (preposts : List Prepost) : Nat :=
  (preposts.map fun prepost => prepost.count.toNat).sum

/-- No prepost has lost its last count. -/
def Counted (preposts : List Prepost) : Prop :=
  ∀ prepost ∈ preposts, prepost.count ≠ 0 ∧ prepost.kind = .mutex

theorem consume_none {suits : Prepost → Bool} {preposts : List Prepost}
    (missed : consume suits preposts = none) : ∀ prepost ∈ preposts, suits prepost = false := by
  induction preposts with
  | nil => exact fun _ member => absurd member List.not_mem_nil
  | cons candidate rest ih =>
    unfold consume at missed
    split at missed
    · contradiction
    · rename_i differs
      rw [Option.map_eq_none_iff] at missed
      rw [List.forall_mem_cons]
      exact ⟨by simpa using differs, ih missed⟩

theorem toNat_sub_one {count : Word} (some : count ≠ 0) : (count - 1).toNat + 1 = count.toNat := by
  bv_omega

theorem consume_some {suits : Prepost → Bool} {preposts left : List Prepost}
    (used : consume suits preposts = some left) (counted : Counted preposts) :
    outstanding preposts = outstanding left + 1 ∧ Counted left := by
  induction preposts generalizing left with
  | nil => contradiction
  | cons candidate rest ih =>
    obtain ⟨⟨positive, kind⟩, others⟩ := List.forall_mem_cons.mp counted
    have less := toNat_sub_one positive
    unfold consume at used
    split at used
    · dsimp only at used
      split at used
      · rename_i last
        cases used
        rw [last] at less
        refine ⟨?_, others⟩
        simp only [outstanding, List.map_cons, List.sum_cons]
        simp at less
        omega
      · rename_i more
        cases used
        refine ⟨?_, List.forall_mem_cons.mpr ⟨⟨more, kind⟩, others⟩⟩
        simp only [outstanding, List.map_cons, List.sum_cons]
        omega
    · obtain ⟨after, later, rfl⟩ := Option.map_eq_some_iff.mp used
      obtain ⟨sum, kept⟩ := ih later others
      refine ⟨?_, List.forall_mem_cons.mpr ⟨⟨positive, kind⟩, kept⟩⟩
      simp only [outstanding, List.map_cons, List.sum_cons] at sum ⊢
      omega

theorem extract_some {suits : Waiter → Bool} {waiters rest : List Waiter} {waiter : Waiter}
    (found : extract suits waiters = some (waiter, rest)) :
    ∃ before after, waiters = before ++ waiter :: after ∧ rest = before ++ after := by
  induction waiters generalizing rest with
  | nil => contradiction
  | cons candidate others ih =>
    unfold extract at found
    split at found
    · cases found
      exact ⟨[], others, rfl, rfl⟩
    · obtain ⟨⟨same, behind⟩, later, equal⟩ := Option.map_eq_some_iff.mp found
      cases equal
      obtain ⟨before, after, rfl, rfl⟩ := ih later
      exact ⟨candidate :: before, after, rfl, rfl⟩

theorem mutexSuccessor_some {nextSequence : Word} {firstFit : Bool} {waiter : Waiter}
    {rest : List Waiter} (found : queue.mutexSuccessor nextSequence firstFit = some (waiter, rest)) :
    ∃ before after, queue.waiters = before ++ waiter :: after ∧ rest = before ++ after := by
  unfold QueueState.mutexSuccessor at found
  dsimp only at found
  split at found
  · exact extract_some found
  · rcases Option.or_eq_some_iff.mp found with next | ⟨-, oldest⟩
    · exact extract_some next
    · exact extract_some oldest

/-- A mutex without a successor has no waiters. -/
theorem mutexSuccessor_none {nextSequence : Word} {firstFit : Bool}
    (missed : queue.mutexSuccessor nextSequence firstFit = none) : queue.waiters = [] := by
  unfold QueueState.mutexSuccessor at missed
  dsimp only at missed
  have oldest : extract (fun _ => true) queue.waiters = none := by
    split at missed
    · exact missed
    · exact (Option.or_eq_none_iff.mp missed).2
  cases waiters : queue.waiters with
  | nil => rfl
  | cons first others =>
    rw [waiters] at oldest
    contradiction

/-! ### One step of the queue -/

/-- What a call asks of one mutex. -/
inductive MutexAction where
  | wait (waiter : Waiter) (firstFit : Bool)
  | drop (lockGeneration unlockGeneration : Word) (firstFit : Bool)

def dropAction (drop : MutexDrop) (flags : Word) : MutexAction :=
  .drop drop.lockGeneration drop.unlockGeneration (flags &&& firstFitPolicy ≠ 0)

def mutexAction (key : QueueKey) : Operation → Option MutexAction
  | .waitMutex thread object lockGeneration flags =>
    if objectKey thread.processId object .mutex = key then
      some (.wait { thread, sequence := lockGeneration &&& generationMask, kind := .mutex }
        (flags &&& firstFitPolicy ≠ 0))
    else none
  | .dropMutex processId drop flags =>
    if objectKey processId drop.object .mutex = key then some (dropAction drop flags) else none
  | .waitCondition thread _ _ (some drop) flags =>
    if objectKey thread.processId drop.object .mutex = key then some (dropAction drop flags)
    else none
  | _ => none

/-- The tokens of one mutex: each drop has been used by a wait that did not block, has completed
a waiter, or is left in a prepost. -/
structure Tokens (queue : QueueState) (blocked : List Waiter) (unblocked drops : Nat)
    (woken : List DarwinPsynchThread) : Prop where
  conserved : drops = unblocked + woken.length + outstanding queue.preposts
  counted : Counted queue.preposts
  turns : ∃ served waiting, Turns blocked queue.waiters served waiting ∧
    served.map (fun entry => entry.1.thread) = woken ∧
    waiting.Pairwise fun first second => first.2 < second.2

variable {blocked : List Waiter} {unblocked drops : Nat} {woken : List DarwinPsynchThread}

theorem Tokens.start : Tokens {} [] 0 0 [] where
  conserved := rfl
  counted := fun _ member => absurd member List.not_mem_nil
  turns := ⟨[], [], Turns.start, rfl, List.Pairwise.nil⟩

theorem waitMutex_cases (queue : QueueState) (waiter : Waiter) (firstFit : Bool) :
    (∃ left, consume (fun candidate => candidate.kind = .mutex &&
        (firstFit || candidate.sequence = waiter.sequence)) queue.preposts = some left ∧
      (queue.waitMutex waiter firstFit).1 = { queue with preposts := left } ∧
      (queue.waitMutex waiter firstFit).2.blocked = false) ∨
    (∀ prepost ∈ queue.preposts, (prepost.kind = .mutex &&
        (firstFit || prepost.sequence = waiter.sequence)) = false) ∧
      (queue.waitMutex waiter firstFit).1 = { queue with waiters := queue.waiters ++ [waiter] } ∧
      (queue.waitMutex waiter firstFit).2.blocked = true := by
  unfold QueueState.waitMutex
  dsimp only
  split
  · rename_i left used
    exact .inl ⟨left, used, rfl, rfl⟩
  · rename_i missed
    exact .inr ⟨consume_none missed, rfl, rfl⟩

theorem Tokens.wait (tokens : Tokens queue blocked unblocked drops woken) (waiter : Waiter)
    (firstFit : Bool) :
    let (after, outcome) := queue.waitMutex waiter firstFit
    Tokens after (blocked ++ if outcome.blocked then [waiter] else [])
      (unblocked + if outcome.blocked then 0 else 1) drops woken := by
  obtain ⟨served, waiting, turns, same, ordered⟩ := tokens.turns
  rcases waitMutex_cases queue waiter firstFit with
    ⟨left, used, after, returns⟩ | ⟨-, after, blocks⟩
  · obtain ⟨sum, kept⟩ := consume_some used tokens.counted
    have conserved := tokens.conserved
    simp only [after, returns, Bool.false_eq_true, if_false, List.append_nil]
    refine ⟨?_, kept, served, waiting, turns, same, ordered⟩
    dsimp only
    omega
  · simp only [after, blocks, if_true, Nat.add_zero]
    refine ⟨tokens.conserved, tokens.counted, ?_⟩
    rw [← List.append_nil queue.waiters] at turns
    obtain ⟨ahead, behind, rfl, -, nothing, joined⟩ := turns.arrive waiter
    rw [List.map_eq_nil_iff] at nothing
    subst nothing
    rw [List.append_nil ahead] at turns ordered
    refine ⟨served, _, joined, same, ?_⟩
    rw [List.pairwise_append]
    refine ⟨ordered, List.pairwise_singleton .., ?_⟩
    intro entry member last singleton
    rw [List.mem_singleton] at singleton
    subst singleton
    exact turns.number_lt member

theorem dropMutex_cases (queue : QueueState) (lockGeneration unlockGeneration : Word) (firstFit : Bool) :
    (∃ before waiter after result, queue.waiters = before ++ waiter :: after ∧
      (queue.dropMutex lockGeneration unlockGeneration firstFit).1 =
        { queue with waiters := before ++ after } ∧
      (queue.dropMutex lockGeneration unlockGeneration firstFit).2.2 = [{ waiter, result }]) ∨
    ∃ sequence, queue.waiters = [] ∧
      (queue.dropMutex lockGeneration unlockGeneration firstFit).1 =
        { queue with preposts := queue.preposts ++ [{ sequence, count := 1, kind := .mutex }] } ∧
      (queue.dropMutex lockGeneration unlockGeneration firstFit).2.2 = [] := by
  unfold QueueState.dropMutex
  dsimp only
  split
  · rename_i waiter waiters found
    obtain ⟨before, after, split, rfl⟩ := mutexSuccessor_some found
    exact .inl ⟨before, waiter, after, _, split, rfl, rfl⟩
  · rename_i missed
    exact .inr ⟨_, mutexSuccessor_none missed, rfl, rfl⟩

theorem Tokens.drop (tokens : Tokens queue blocked unblocked drops woken)
    (lockGeneration unlockGeneration : Word) (firstFit : Bool) :
    let (after, _, completions) := queue.dropMutex lockGeneration unlockGeneration firstFit
    Tokens after blocked unblocked (drops + 1)
      (woken ++ DarwinPsynchRuntime.woken completions) := by
  have conserved := tokens.conserved
  rcases dropMutex_cases queue lockGeneration unlockGeneration firstFit with
    ⟨before, waiter, after, result, split, next, completed⟩ | ⟨sequence, -, next, completed⟩
  · simp only [next, completed, DarwinPsynchRuntime.woken, List.map_cons, List.map_nil]
    refine ⟨?_, tokens.counted, ?_⟩
    · rw [List.length_append, List.length_singleton]
      dsimp only
      omega
    · obtain ⟨served, waiting, turns, same, ordered⟩ := tokens.turns
      rw [split, show waiter :: after = [waiter] ++ after from rfl] at turns
      obtain ⟨ahead, now, behind, rfl, -, one, left⟩ := turns.serve
      refine ⟨_, _, left, ?_, ?_⟩
      · have last : (now.map Prod.fst).map Waiter.thread = [waiter.thread] :=
          congrArg (List.map Waiter.thread) one
        rw [List.map_map] at last
        rw [List.map_append, same]
        exact congrArg (woken ++ ·) last
      · exact ordered.sublist (List.Sublist.append_left (List.sublist_append_right now behind) ahead)
  · simp only [next, completed, DarwinPsynchRuntime.woken, List.map_nil, List.append_nil]
    refine ⟨?_, ?_, tokens.turns⟩
    · simp only [outstanding, List.map_append, List.map_cons, List.map_nil, List.sum_append,
        List.sum_cons, List.sum_nil] at conserved ⊢
      simp
      omega
    · intro prepost member
      rcases List.mem_append.mp member with old | new
      · exact tokens.counted prepost old
      · rw [List.mem_singleton] at new
        subst new
        simp

/-! ### The mutex within the runtime -/

/-- A call that the tokens of a mutex do not outlive. -/
def disturbs (key : QueueKey) : Operation → Bool
  | .clearPreposts processId object mutexObject =>
    objectKey processId object (if mutexObject then .mutex else .condition) = key
  | .cancelWait _ | .clearProcess _ => true
  | _ => false

open DarwinPsynchRuntime in
/-- A call does to the queue of a mutex what it asks of that mutex, and returns what the queue
does. -/
theorem step_mutex (family : key.family = .mutex) (runtime : DarwinPsynchRuntime) {call : Call}
    (live : key.expired call.expired = false) (calm : disturbs key call.operation = false) :
    match mutexAction key call.operation with
    | none => (runtime.next call).queues key = runtime.queues key
    | some (.wait waiter firstFit) =>
      (runtime.next call).queues key = ((runtime.queues key).waitMutex waiter firstFit).1 ∧
        (runtime.step call).2 = ((runtime.queues key).waitMutex waiter firstFit).2
    | some (.drop lockGeneration unlockGeneration firstFit) =>
      (runtime.next call).queues key =
          ((runtime.queues key).dropMutex lockGeneration unlockGeneration firstFit).1 ∧
        (runtime.step call).2.wokenThreads =
          DarwinPsynchRuntime.woken
            ((runtime.queues key).dropMutex lockGeneration unlockGeneration firstFit).2.2 := by
  obtain ⟨operation, expired⟩ := call
  have elsewhere : ∀ processId object, objectKey processId object .condition ≠ key :=
    fun _ _ => objectKey_ne (by simp [family])
  have apart : ∀ processId object, objectKey processId object .rwLock ≠ key :=
    fun _ _ => objectKey_ne (by simp [family])
  have kept := fun runtime : DarwinPsynchRuntime => sharedOperation_queues runtime live
  cases operation with
  | waitMutex thread object lockGeneration flags =>
    by_cases own : objectKey thread.processId object .mutex = key
    · simp [mutexAction, next, step, DarwinPsynchRuntime.waitMutex, own, kept]
    · simp [mutexAction, next, step, DarwinPsynchRuntime.waitMutex, own, kept]
  | dropMutex processId drop flags =>
    by_cases own : objectKey processId drop.object .mutex = key
    · simp only [mutexAction, own, if_true, dropAction, next, step]
      exact ⟨by rw [dropMutex_queues _ live, if_pos own], dropMutex_woken _ live flags own⟩
    · simp only [mutexAction, own, if_false, next, step]
      rw [dropMutex_queues _ live, if_neg own]
  | waitCondition thread object lockAndSignalGeneration mutexDrop flags =>
    cases mutexDrop with
    | none =>
      simp [mutexAction, next, step, DarwinPsynchRuntime.waitCondition, elsewhere, kept]
    | some drop =>
      by_cases own : objectKey thread.processId drop.object .mutex = key
      · have after := dropMutex_queues runtime live thread.processId drop flags
        have shown := dropMutex_woken runtime live flags own
        rw [if_pos own] at after
        simp [mutexAction, dropAction, next, step, DarwinPsynchRuntime.waitCondition, elsewhere,
          kept, own, after, shown]
      · have after := dropMutex_queues runtime live thread.processId drop flags
        rw [if_neg own] at after
        simp [mutexAction, next, step, DarwinPsynchRuntime.waitCondition, elsewhere, kept, own,
          after]
  | signalCondition processId object lockAndSignalGeneration unlockGeneration target =>
    simp [mutexAction, next, step, DarwinPsynchRuntime.signalCondition, elsewhere, kept]
  | broadcastCondition processId object lockAndSignalGeneration =>
    simp [mutexAction, next, step, DarwinPsynchRuntime.broadcastCondition, elsewhere, kept]
  | clearPreposts processId object mutexObject =>
    have other := of_decide_eq_false calm
    simp [mutexAction, next, step, DarwinPsynchRuntime.clearPreposts, other, kept]
  | waitRwlock thread object lockGeneration sequenceWord kind =>
    simp only [mutexAction, next, step]
    rw [waitRwlock_queues _ live, if_neg (apart _ _)]
  | unlockRwlock processId object lockGeneration unlockGeneration sequenceWord =>
    simp only [mutexAction, next, step]
    rw [unlockRwlock_queues _ live, if_neg (apart _ _)]
  | takeResult thread =>
    simp only [mutexAction, next, step, DarwinPsynchRuntime.takeResult]
    split <;> rfl
  | cancelWait thread => contradiction
  | clearProcess processId => contradiction

section Shown
variable (key : QueueKey) (runtime : DarwinPsynchRuntime) (call : Call)

def isDrop : Bool :=
  match mutexAction key call.operation with
  | some (.drop ..) => true
  | _ => false

/-- The waiter of a wait on the mutex, when it blocks as asked. -/
def waited (blocks : Bool) : List Waiter :=
  match mutexAction key call.operation with
  | some (.wait waiter _) => if (runtime.step call).2.blocked = blocks then [waiter] else []
  | _ => []

/-- The threads that a drop of the mutex completes. -/
def dropWoken : List DarwinPsynchThread :=
  if isDrop key call then (runtime.step call).2.wokenThreads else []

end Shown

/-- The waits on the mutex follow the first-fit policy. -/
def firstFitWaits (key : QueueKey) (call : Call) : Bool :=
  match mutexAction key call.operation with
  | some (.wait _ firstFit) => firstFit
  | _ => true

theorem dropMutex_woken_length_le (lockGeneration unlockGeneration : Word) (firstFit : Bool) :
    (DarwinPsynchRuntime.woken
      (queue.dropMutex lockGeneration unlockGeneration firstFit).2.2).length ≤ 1 := by
  rcases dropMutex_cases queue lockGeneration unlockGeneration firstFit with
    ⟨_, _, _, _, -, -, completed⟩ | ⟨_, -, -, completed⟩
  · simp [completed, DarwinPsynchRuntime.woken]
  · simp [completed, DarwinPsynchRuntime.woken]

/-- With first fit, the queue has no waiters or no preposts. -/
def Exclusive (queue : QueueState) : Prop := queue.waiters = [] ∨ queue.preposts = []

theorem Exclusive.wait (exclusive : Exclusive queue) (counted : Counted queue.preposts)
    (waiter : Waiter) : Exclusive (queue.waitMutex waiter true).1 := by
  rcases waitMutex_cases queue waiter true with
    ⟨left, used, after, -⟩ | ⟨missed, after, -⟩
  · rw [after]
    refine .inl ?_
    rcases exclusive with empty | empty
    · exact empty
    · rw [empty] at used
      contradiction
  · rw [after]
    refine .inr (List.eq_nil_iff_forall_not_mem.mpr fun prepost member => ?_)
    have suits := missed prepost member
    simp [(counted prepost member).2] at suits

theorem Exclusive.drop (exclusive : Exclusive queue) (lockGeneration unlockGeneration : Word)
    (firstFit : Bool) : Exclusive (queue.dropMutex lockGeneration unlockGeneration firstFit).1 := by
  rcases dropMutex_cases queue lockGeneration unlockGeneration firstFit with
    ⟨before, waiter, after, result, split, next, -⟩ | ⟨sequence, none, next, -⟩
  · rw [next]
    rcases exclusive with empty | empty
    · rw [empty] at split
      exact absurd split.symm (by simp)
    · exact .inr empty
  · rw [next]
    exact .inl none

/-! ### Runs -/

variable {runtime : DarwinPsynchRuntime} {call : Call}

theorem Tokens.step (family : key.family = .mutex)
    (tokens : Tokens (runtime.queues key) blocked unblocked drops woken)
    (live : key.expired call.expired = false) (calm : disturbs key call.operation = false) :
    Tokens ((runtime.next call).queues key) (blocked ++ waited key runtime call true)
      (unblocked + (waited key runtime call false).length)
      (drops + if isDrop key call then 1 else 0) (woken ++ dropWoken key runtime call) := by
  have now := step_mutex family runtime live calm
  unfold waited dropWoken isDrop
  split at now
  · rename_i other
    simpa [other, now] using tokens
  · rename_i waiter firstFit asked
    have after := tokens.wait waiter firstFit
    simp only [asked, now.1, now.2]
    cases blocks : ((runtime.queues key).waitMutex waiter firstFit).2.blocked
    · simpa [blocks] using after
    · simpa [blocks] using after
  · rename_i lockGeneration unlockGeneration firstFit asked
    have after := tokens.drop lockGeneration unlockGeneration firstFit
    simpa [asked, now.1, now.2] using after

theorem Exclusive.step (family : key.family = .mutex) (exclusive : Exclusive (runtime.queues key))
    (counted : Counted (runtime.queues key).preposts) (live : key.expired call.expired = false)
    (calm : disturbs key call.operation = false) (firstFit : firstFitWaits key call = true) :
    Exclusive ((runtime.next call).queues key) := by
  have now := step_mutex family runtime live calm
  unfold firstFitWaits at firstFit
  split at now
  · rwa [now]
  · rename_i waiter policy asked
    rw [asked] at firstFit
    dsimp only at firstFit
    rw [now.1, firstFit]
    exact exclusive.wait counted waiter
  · rename_i lockGeneration unlockGeneration policy asked
    rw [now.1]
    exact exclusive.drop lockGeneration unlockGeneration policy

/-- A drop completes one waiter at most. -/
theorem dropWoken_length_le (family : key.family = .mutex)
    (live : key.expired call.expired = false) (calm : disturbs key call.operation = false) :
    (dropWoken key runtime call).length ≤ 1 := by
  have now := step_mutex family runtime live calm
  unfold dropWoken isDrop
  split at now
  · rename_i other
    simp [other]
  · rename_i waiter firstFit asked
    simp [asked]
  · rename_i lockGeneration unlockGeneration firstFit asked
    rw [now.2]
    simpa [asked] using dropMutex_woken_length_le lockGeneration unlockGeneration firstFit

/-- The call leaves the mutex to its waits and drops. -/
def Undisturbed (key : QueueKey) (call : Call) : Prop :=
  key.expired call.expired = false ∧ disturbs key call.operation = false

/-- Every history keeps the tokens of the mutex. -/
theorem tokens_run (family : key.family = .mutex) (calls : List Call)
    (undisturbed : ∀ call ∈ calls, Undisturbed key call) :
    Tokens ((run DarwinPsynchRuntime.next {} calls).queues key)
      (observed DarwinPsynchRuntime.next (waited key · · true) {} calls)
      (observed DarwinPsynchRuntime.next (waited key · · false) {} calls).length
      (calls.countP (isDrop key)) (observed DarwinPsynchRuntime.next (dropWoken key) {} calls) := by
  induction calls using List.reverseRecOn with
  | nil => exact Tokens.start
  | append_singleton earlier call ih =>
    obtain ⟨past, last⟩ := List.forall_mem_append.mp undisturbed
    obtain ⟨live, calm⟩ := last call (List.mem_singleton_self call)
    rw [run_concat, observed_concat, observed_concat, observed_concat, List.countP_append,
      List.countP_singleton, List.length_append]
    exact (ih past).step family live calm

theorem exclusive_run (family : key.family = .mutex) (calls : List Call)
    (undisturbed : ∀ call ∈ calls, Undisturbed key call)
    (firstFit : ∀ call ∈ calls, firstFitWaits key call = true) :
    Exclusive ((run DarwinPsynchRuntime.next {} calls).queues key) := by
  induction calls using List.reverseRecOn with
  | nil => exact .inl rfl
  | append_singleton earlier call ih =>
    obtain ⟨past, last⟩ := List.forall_mem_append.mp undisturbed
    obtain ⟨pastFit, lastFit⟩ := List.forall_mem_append.mp firstFit
    obtain ⟨live, calm⟩ := last call (List.mem_singleton_self call)
    have counted := (tokens_run family earlier past).counted
    rw [run_concat]
    exact (ih past pastFit).step family counted live calm (lastFit call (List.mem_singleton_self call))

/-- Over every history of a private mutex, each drop has admitted a wait that did not block, has
completed a waiter that had blocked, or is left in a prepost. No arrival is completed twice, no
drop completes two, and under first fit no prepost is left while a waiter is queued. -/
theorem private_mutex_tokens (key : QueueKey) (unshared : key.processShared = false)
    (family : key.family = .mutex) (calls : List Call)
    (calm : ∀ call ∈ calls, disturbs key call.operation = false) :
    let queue := (run DarwinPsynchRuntime.next {} calls).queues key
    let woken := observed DarwinPsynchRuntime.next (dropWoken key) {} calls
    let unblocked := observed DarwinPsynchRuntime.next (waited key · · false) {} calls
    let blocked := observed DarwinPsynchRuntime.next (waited key · · true) {} calls
    calls.countP (isDrop key) = unblocked.length + woken.length + outstanding queue.preposts ∧
    (∃ served waiting, Turns blocked queue.waiters served waiting ∧
      (served.map Prod.snd).Nodup ∧ served.map (fun entry => entry.1.thread) = woken ∧
      waiting.Pairwise fun first second => first.2 < second.2) ∧
    (∀ earlier call later, calls = earlier ++ call :: later →
      (dropWoken key (run DarwinPsynchRuntime.next {} earlier) call).length ≤ 1) ∧
    ((∀ call ∈ calls, firstFitWaits key call = true) →
      ¬(queue.waiters ≠ [] ∧ queue.preposts ≠ [])) := by
  have undisturbed : ∀ call ∈ calls, Undisturbed key call :=
    fun call member => ⟨expired_of_private unshared call.expired, calm call member⟩
  have tokens := tokens_run family calls undisturbed
  obtain ⟨served, waiting, turns, same, ordered⟩ := tokens.turns
  refine ⟨tokens.conserved, ⟨served, waiting, turns, turns.served_once, same, ordered⟩, ?_, ?_⟩
  · intro earlier call later split
    have member : call ∈ calls := by
      rw [split]
      exact List.mem_append_right _ List.mem_cons_self
    exact dropWoken_length_le family (undisturbed call member).1 (calm call member)
  · rintro firstFit ⟨waiters, preposts⟩
    rcases exclusive_run family calls undisturbed firstFit with none | none
    · exact waiters none
    · exact preposts none

def door : DarwinPsynchObject := { address := 0x2000 }

/-- A drop ahead of its wait, a wait that blocks, and a drop that completes it within the wait for
a condition. -/
def handoff : List Call :=
  let drop : MutexDrop := { object := door, lockGeneration := 0x100, unlockGeneration := 0 }
  [{ operation := .dropMutex 1 drop 0 },
    { operation := .waitMutex ⟨1, 0⟩ door 0x100 0 },
    { operation := .waitMutex ⟨1, 1⟩ door 0x200 0 },
    { operation := .waitCondition ⟨1, 0⟩ { address := 0x3000 } 0
        (some { drop with unlockGeneration := 0x100 }) 0 }]

theorem private_mutex_tokens_handoff :
    let key := objectKey 1 door .mutex
    let queue := (run DarwinPsynchRuntime.next {} handoff).queues key
    (handoff.countP (isDrop key) = 2 ∧
      observed DarwinPsynchRuntime.next (dropWoken key) {} handoff = [⟨1, 1⟩]) ∧
    handoff.countP (isDrop key) =
      (observed DarwinPsynchRuntime.next (waited key · · false) {} handoff).length +
        (observed DarwinPsynchRuntime.next (dropWoken key) {} handoff).length +
        outstanding queue.preposts :=
  ⟨by decide, (private_mutex_tokens (objectKey 1 door .mutex) rfl rfl handoff (by decide)).1⟩

end ILEmu.Bsd.Psynch
