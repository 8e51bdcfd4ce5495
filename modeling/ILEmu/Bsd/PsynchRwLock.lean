import ILEmu.Foundation.Arrivals
import ILEmu.Bsd.PsynchRuntime
import Mathlib.Data.List.TakeWhile

/-! One read-write lock over every history of its waits and unlocks: the order of its queue, what
a grant takes, and when an unlock is met that came ahead of its waiters. -/
namespace ILEmu.Bsd.Psynch
open Foundation QueueState

/-! ### Generations -/

def generation (sequence : Word) : BitVec 24 := (sequence >>> 8).setWidth 24

/-- A sequence without the bits below its generation. -/
def Whole (sequence : Word) : Prop := sequence.toNat % 256 = 0

/-- The sequences lie within half the generation space. -/
def WithinHalf (sequences : List Word) : Prop :=
  ∃ base : BitVec 24, ∀ sequence ∈ sequences, (generation sequence - base).toNat < 2 ^ 23

theorem masked_shift (value : Word) : ((value &&& generationMask) >>> 8) = value >>> 8 := by
  apply BitVec.eq_of_toNat_eq
  rw [BitVec.ushiftRight_and_distrib, BitVec.toNat_and]
  have mask : (generationMask >>> 8).toNat = 2 ^ 24 - 1 := by decide
  rw [mask, Nat.and_two_pow_sub_one_eq_mod, BitVec.toNat_ushiftRight, Nat.shiftRight_eq_div_pow]
  have bound := value.isLt
  omega

theorem whole_masked (value : Word) : Whole (value &&& generationMask) := by
  unfold Whole
  have low : (value &&& generationMask).toNat % 2 ^ 8 = 0 := by
    rw [BitVec.toNat_and, Nat.and_mod_two_pow]
    have mask : generationMask.toNat % 2 ^ 8 = 0 := by decide
    rw [mask, Nat.and_zero]
  exact low

theorem generation_toNat (sequence : Word) : (generation sequence).toNat = sequence.toNat / 256 := by
  unfold generation
  rw [BitVec.toNat_setWidth, BitVec.toNat_ushiftRight, Nat.shiftRight_eq_div_pow]
  have bound := sequence.isLt
  omega

theorem generationCount_toNat {upper lower : Word} (whole : Whole lower) :
    (generationCount upper lower).toNat = (generation upper - generation lower).toNat := by
  unfold Whole at whole
  have high := upper.isLt
  have low := lower.isLt
  unfold generationCount
  rw [masked_shift, BitVec.toNat_ushiftRight, Nat.shiftRight_eq_div_pow, BitVec.toNat_sub,
    BitVec.toNat_sub, generation_toNat, generation_toNat]
  omega

theorem generation_inj {first second : Word} (firstWhole : Whole first) (secondWhole : Whole second)
    (same : generation first = generation second) : first = second := by
  unfold Whole at firstWhole secondWhole
  apply BitVec.eq_of_toNat_eq
  have equal := congrArg BitVec.toNat same
  rw [generation_toNat, generation_toNat] at equal
  omega

theorem sequenceNotAfter_iff {sequence upperBound : Word} (whole : Whole sequence) :
    sequenceNotAfter sequence upperBound = true ↔
      (generation upperBound - generation sequence).toNat < 2 ^ 23 := by
  unfold sequenceNotAfter
  rw [decide_eq_true_eq, BitVec.lt_def, generationCount_toNat whole]
  exact Iff.rfl

/-- Within half the space, the comparison is that of the distances from the base. -/
theorem sequenceNotAfter_iff_le {base : BitVec 24} {first second : Word} (whole : Whole first)
    (near : (generation first - base).toNat < 2 ^ 23)
    (other : (generation second - base).toNat < 2 ^ 23) :
    sequenceNotAfter first second = true ↔
      (generation first - base).toNat ≤ (generation second - base).toNat := by
  rw [sequenceNotAfter_iff whole]
  bv_omega

/-! ### The order of the queue -/

/-- Strictly earlier, so that a new waiter overtakes. -/
def Overtakes (waiter candidate : Waiter) : Prop :=
  waiter.sequence ≠ candidate.sequence ∧
    sequenceNotAfter waiter.sequence candidate.sequence = true

/-- The waiter of an earlier generation, and of one generation the waiter that arrived first. -/
def Precedes (first second : Waiter × Nat) : Prop :=
  Overtakes first.1 second.1 ∨ (first.1.sequence = second.1.sequence ∧ first.2 < second.2)

section Order
variable {base : BitVec 24} {waiter candidate : Waiter} {first second : Waiter × Nat}

/-- The waiter's generation is within half the space from the base. -/
structure Near (base : BitVec 24) (waiter : Waiter) : Prop where
  whole : Whole waiter.sequence
  half : (generation waiter.sequence - base).toNat < 2 ^ 23

theorem overtakes_iff (near : Near base waiter) (other : Near base candidate) :
    Overtakes waiter candidate ↔
      (generation waiter.sequence - base).toNat < (generation candidate.sequence - base).toNat := by
  unfold Overtakes
  rw [sequenceNotAfter_iff_le near.whole near.half other.half]
  constructor
  · rintro ⟨different, le⟩
    refine Nat.lt_of_le_of_ne le fun equal => different ?_
    apply generation_inj near.whole other.whole
    have same := BitVec.eq_of_toNat_eq equal
    bv_omega
  · intro less
    refine ⟨fun same => ?_, Nat.le_of_lt less⟩
    rw [same] at less
    exact Nat.lt_irrefl _ less

theorem Precedes.le (precedes : Precedes first second) (near : Near base first.1)
    (other : Near base second.1) :
    (generation first.1.sequence - base).toNat ≤ (generation second.1.sequence - base).toNat := by
  rcases precedes with strictly | ⟨same, -⟩
  · exact Nat.le_of_lt ((overtakes_iff near other).mp strictly)
  · rw [same]

theorem Precedes.overtaken (overtakes : Overtakes waiter first.1) (precedes : Precedes first second)
    (new : Near base waiter) (near : Near base first.1) (other : Near base second.1) :
    Overtakes waiter second.1 := by
  have less := (overtakes_iff new near).mp overtakes
  have le := precedes.le near other
  exact (overtakes_iff new other).mpr (Nat.lt_of_lt_of_le less le)

end Order

theorem insertRwWaiter_spec (waiter : Waiter) (waiters : List Waiter) :
    ∃ before after, waiters = before ++ after ∧
      insertRwWaiter waiter waiters = before ++ waiter :: after ∧
      (∀ candidate ∈ before, ¬Overtakes waiter candidate) ∧
      ∀ candidate ∈ after.head?, Overtakes waiter candidate := by
  induction waiters with
  | nil => exact ⟨[], [], rfl, rfl, by simp, by simp⟩
  | cons candidate rest ih =>
    unfold insertRwWaiter
    split
    · rename_i overtakes
      refine ⟨[], candidate :: rest, rfl, rfl, by simp, ?_⟩
      simpa [Overtakes] using overtakes
    · rename_i stays
      obtain ⟨before, after, rfl, inserted, ahead, behind⟩ := ih
      refine ⟨candidate :: before, after, rfl, by rw [inserted, List.cons_append], ?_, behind⟩
      rw [List.forall_mem_cons]
      refine ⟨?_, ahead⟩
      simpa [Overtakes] using stays

/-- Entering before the first waiter of a later generation keeps the order. -/
theorem ordered_insert {base : BitVec 24} {ahead behind : List (Waiter × Nat)} {waiter : Waiter}
    {number : Nat} (ordered : (ahead ++ behind).Pairwise Precedes) (new : Near base waiter)
    (near : ∀ entry ∈ ahead ++ behind, Near base entry.1)
    (numbered : ∀ entry ∈ ahead ++ behind, entry.2 < number)
    (stays : ∀ entry ∈ ahead, ¬Overtakes waiter entry.1)
    (overtakes : ∀ entry ∈ behind.head?, Overtakes waiter entry.1) :
    (ahead ++ (waiter, number) :: behind).Pairwise Precedes := by
  obtain ⟨left, right, across⟩ := List.pairwise_append.mp ordered
  have later : ∀ entry ∈ behind, Precedes (waiter, number) entry := by
    cases behind with
    | nil => exact fun _ member => absurd member List.not_mem_nil
    | cons next rest =>
      have strictly : Overtakes waiter next.1 := overtakes next rfl
      have nextNear := near next (List.mem_append_right _ List.mem_cons_self)
      rw [List.forall_mem_cons]
      refine ⟨.inl strictly, fun entry member => .inl ?_⟩
      have entryNear := near entry (List.mem_append_right _ (List.mem_cons_of_mem _ member))
      exact (List.rel_of_pairwise_cons right member).overtaken strictly new nextNear entryNear
  rw [List.pairwise_append]
  refine ⟨left, List.pairwise_cons.mpr ⟨later, right⟩, ?_⟩
  intro entry member other inserted
  rcases List.mem_cons.mp inserted with rfl | old
  · have entryNear := near entry (List.mem_append_left _ member)
    have here := stays entry member
    rw [overtakes_iff new entryNear, Nat.not_lt] at here
    by_cases same : entry.1.sequence = waiter.sequence
    · exact .inr ⟨same, numbered entry (List.mem_append_left _ member)⟩
    · refine .inl ⟨same, ?_⟩
      exact (sequenceNotAfter_iff_le entryNear.whole entryNear.half new.half).mpr here
  · exact across entry member other old

/-! ### Grants -/

/-- What a grant takes from the head of the queue: one writer, or all the readers up to the first
waiter that is none. -/
def IsGrant (granted left : List Waiter) : Prop :=
  (∃ writer, granted = [writer] ∧ writer.kind = .writeLock) ∨
    (∀ reader ∈ granted, reader.kind = .readLock) ∧
      ∀ next ∈ left.head?, next.kind ≠ .readLock

theorem grantRwlock_spec (queue : QueueState) (sequenceWord : Word) :
    queue.waiters = (queue.grantRwlock sequenceWord).2.map Completion.waiter ++
        (queue.grantRwlock sequenceWord).1.waiters ∧
      IsGrant ((queue.grantRwlock sequenceWord).2.map Completion.waiter)
        (queue.grantRwlock sequenceWord).1.waiters ∧
      ((queue.grantRwlock sequenceWord).1.rw.getD {}).prepostCount =
        (queue.rw.getD {}).prepostCount := by
  unfold grantRwlock
  cases waiting : queue.waiters with
  | nil =>
    simp only [List.map_nil, List.nil_append, Option.getD_some, and_true, true_and]
    exact .inr ⟨by simp, by simp⟩
  | cons first others =>
    dsimp only
    split
    · rename_i writer
      simp only [List.map_cons, List.map_nil, List.singleton_append, Option.getD_some, and_true,
        true_and]
      exact .inl ⟨first, rfl, by simpa [isWriter] using writer⟩
    · have taken : ((first :: others).takeWhile isReader).map (fun waiter : Waiter => waiter) =
          (first :: others).takeWhile isReader := List.map_id' _
      simp only [List.map_map, Function.comp_def, Option.getD_some, and_true, taken,
        List.takeWhile_append_dropWhile, true_and]
      refine .inr ⟨fun reader member => ?_, fun next head => ?_⟩
      · simpa [isReader] using List.mem_takeWhile_imp member
      · intro reads
        have none := List.head?_dropWhile_not isReader (first :: others)
        rw [Option.mem_def.mp head] at none
        simp [isReader, reads] at none

/-! ### One step of the queue -/

/-- What a call asks of one lock. -/
inductive RwAction where
  | wait (thread : DarwinPsynchThread) (lockGeneration sequenceWord : Word)
      (kind : DarwinPsynchWaitKind)
  | unlock (lockGeneration unlockGeneration sequenceWord : Word)
  deriving DecidableEq, Repr

def QueueState.Admission.completions : Admission → Option (List Completion)
  | .granted completions => some completions
  | _ => none

def QueueState.Release.completions : Release → Option (List Completion)
  | .granted completions => some completions
  | _ => none

namespace RwAction

def after (queue : QueueState) : RwAction → QueueState
  | .wait thread lockGeneration sequenceWord kind =>
    (queue.waitRwlock thread lockGeneration sequenceWord kind).1
  | .unlock lockGeneration unlockGeneration sequenceWord =>
    (queue.unlockRwlock lockGeneration unlockGeneration sequenceWord).1

/-- The grant of the action, if it makes one. -/
def grant (queue : QueueState) : RwAction → Option (List Completion)
  | .wait thread lockGeneration sequenceWord kind =>
    (queue.waitRwlock thread lockGeneration sequenceWord kind).2.completions
  | .unlock lockGeneration unlockGeneration sequenceWord =>
    (queue.unlockRwlock lockGeneration unlockGeneration sequenceWord).2.completions

/-- The waiter that the action queues, if it queues one. -/
def arrival (queue : QueueState) : RwAction → Option Waiter
  | .wait thread lockGeneration sequenceWord kind =>
    match (queue.waitRwlock thread lockGeneration sequenceWord kind).2 with
    | .overlap _ => none
    | _ => some { thread, sequence := lockGeneration &&& generationMask, kind }
  | .unlock .. => none

/-- The unlock is not a stale one. -/
def releases (queue : QueueState) : RwAction → Bool
  | .wait .. => false
  | .unlock lockGeneration unlockGeneration sequenceWord =>
    (queue.unlockRwlock lockGeneration unlockGeneration sequenceWord).2 ≠ .stale

end RwAction

/-- The queue as a grant of the action finds it. -/
def enqueued (queue : QueueState) (arrival : Option Waiter) : List Waiter :=
  match arrival with
  | some waiter => insertRwWaiter waiter queue.waiters
  | none => queue.waiters

variable {queue : QueueState}

/-- The waiters that an unlock still has to wait for. -/
def Owes (queue : QueueState) (missing : Nat) (lockSequence : Word) : Prop :=
  ((queue.rw.getD {}).prepostCount.toNat = missing) ∧
    (missing ≠ 0 → (queue.rw.getD {}).prepostLockSequence = lockSequence)

/-- The four ways of a wait. -/
theorem waitRwlock_cases (queue : QueueState) (thread : DarwinPsynchThread)
    (lockGeneration sequenceWord : Word) (kind : DarwinPsynchWaitKind) :
    let rw := queue.rw.getD {}
    let waiter : Waiter := { thread, sequence := lockGeneration &&& generationMask, kind }
    let waiters := insertRwWaiter waiter queue.waiters
    let (after, admission) := queue.waitRwlock thread lockGeneration sequenceWord kind
    (∃ result nextSequenceWord, admission = .overlap result ∧
      after = { queue with rw := some { rw with nextSequenceWord } }) ∨
    ((rw.prepostCount = 0 ∨ sequenceNotAfter waiter.sequence rw.prepostLockSequence = false) ∧
      admission = .queued ∧ after = { queue with waiters, rw := some rw }) ∨
    (rw.prepostCount - 1 ≠ 0 ∧ rw.prepostCount ≠ 0 ∧
      sequenceNotAfter waiter.sequence rw.prepostLockSequence = true ∧ admission = .queued ∧
      after = { queue with waiters, rw := some { rw with prepostCount := rw.prepostCount - 1 } }) ∨
    (rw.prepostCount - 1 = 0 ∧ rw.prepostCount ≠ 0 ∧
      sequenceNotAfter waiter.sequence rw.prepostLockSequence = true ∧
      ∃ before : QueueState, before.waiters = waiters ∧ (before.rw.getD {}).prepostCount = 0 ∧
        after = (before.grantRwlock rw.prepostSequenceWord).1 ∧
        admission = .granted (before.grantRwlock rw.prepostSequenceWord).2) := by
  dsimp only
  unfold waitRwlock
  dsimp only
  split
  · exact .inl ⟨_, _, rfl, rfl⟩
  · refine .inr ?_
    split
    · rename_i unowed
      exact .inl ⟨by simpa using unowed, rfl, rfl⟩
    · rename_i owed
      simp only [Bool.or_eq_true, decide_eq_true_eq, Bool.not_eq_true', not_or,
        Bool.not_eq_false] at owed
      refine .inr ?_
      split
      · rename_i more
        exact .inl ⟨more, owed.1, owed.2, rfl, rfl⟩
      · rename_i last
        rw [not_not] at last
        refine .inr ⟨last, owed.1, owed.2, _, ?_, ?_, rfl, rfl⟩
        · rfl
        · exact last

/-- The three ways of an unlock. -/
theorem unlockRwlock_cases (queue : QueueState)
    (lockGeneration unlockGeneration sequenceWord : Word) :
    let rw := queue.rw.getD {}
    let lockSequence := lockGeneration &&& generationMask
    let expected := generationCount lockSequence (unlockGeneration &&& generationMask)
    let queued := BitVec.ofNat 32 (queue.queuedWaiters lockSequence)
    let (after, release) := queue.unlockRwlock lockGeneration unlockGeneration sequenceWord
    (release = .stale ∧ after = { queue with rw := some rw }) ∨
    (queued < expected ∧ release = .preposted ∧
      after = { queue with
        rw := some { rw with
          prepostCount := expected - queued, prepostLockSequence := lockSequence,
          prepostSequenceWord := sequenceWord } }) ∨
    (¬queued < expected ∧
      ∃ before : QueueState, before.waiters = queue.waiters ∧
        after = (before.grantRwlock sequenceWord).1 ∧
        release = .granted (before.grantRwlock sequenceWord).2) := by
  dsimp only
  unfold unlockRwlock
  dsimp only
  split
  · exact .inl ⟨rfl, rfl⟩
  · refine .inr ?_
    split
    · rename_i short
      exact .inl ⟨short, rfl, rfl⟩
    · rename_i enough
      refine .inr ⟨enough, _, ?_, rfl, rfl⟩
      rfl

/-- The waiters that an action completes. -/
def completed (grant : Option (List Completion)) : List Waiter :=
  (grant.getD []).map Completion.waiter

/-- An action queues its waiter, if it has one, and a grant takes its waiters from the head. -/
theorem RwAction.spec (queue : QueueState) (action : RwAction) :
    enqueued queue (action.arrival queue) =
        completed (action.grant queue) ++ (action.after queue).waiters ∧
      ∀ completions ∈ action.grant queue,
        IsGrant (completions.map Completion.waiter) (action.after queue).waiters := by
  cases action with
  | wait thread lockGeneration sequenceWord kind =>
    have cases := waitRwlock_cases queue thread lockGeneration sequenceWord kind
    unfold RwAction.arrival RwAction.grant RwAction.after
    dsimp only at cases ⊢
    rcases cases with ⟨_, _, admission, after⟩ | ⟨-, admission, after⟩ | ⟨-, -, -, admission, after⟩ |
      ⟨-, -, -, before, waiters, -, after, admission⟩
    · rw [admission, after]
      exact ⟨rfl, fun _ grant => by contradiction⟩
    · rw [admission, after]
      exact ⟨rfl, fun _ grant => by contradiction⟩
    · rw [admission, after]
      exact ⟨rfl, fun _ grant => by contradiction⟩
    · obtain ⟨split, shape, -⟩ := grantRwlock_spec before (queue.rw.getD {}).prepostSequenceWord
      rw [admission, after]
      refine ⟨waiters.symm.trans split, fun completions grant => ?_⟩
      cases grant
      exact shape
  | unlock lockGeneration unlockGeneration sequenceWord =>
    have cases := unlockRwlock_cases queue lockGeneration unlockGeneration sequenceWord
    unfold RwAction.arrival RwAction.grant RwAction.after
    dsimp only at cases ⊢
    rcases cases with ⟨release, after⟩ | ⟨-, release, after⟩ | ⟨-, before, waiters, after, release⟩
    · rw [release, after]
      exact ⟨rfl, fun _ grant => by contradiction⟩
    · rw [release, after]
      exact ⟨rfl, fun _ grant => by contradiction⟩
    · obtain ⟨split, shape, -⟩ := grantRwlock_spec before sequenceWord
      rw [release, after]
      refine ⟨waiters.symm.trans split, fun completions grant => ?_⟩
      cases grant
      exact shape

/-- The arrivals of a lock, those that grants have completed and those that are queued, with the
queue in its order. -/
structure RwTurns (waiters arrived completed : List Waiter) : Prop where
  whole : ∀ waiter ∈ waiters, Whole waiter.sequence
  turns : ∃ served waiting, Turns arrived waiters served waiting ∧
    served.map Prod.fst = completed ∧ waiting.Pairwise Precedes

variable {waiters arrived past : List Waiter} {waiter : Waiter} {action : RwAction}

theorem RwTurns.start : RwTurns [] [] [] where
  whole := fun _ member => absurd member List.not_mem_nil
  turns := ⟨[], [], Turns.start, rfl, List.Pairwise.nil⟩

theorem RwTurns.enqueue (turns : RwTurns waiters arrived past) (whole : Whole waiter.sequence)
    (within : WithinHalf (waiter.sequence :: waiters.map Waiter.sequence)) :
    RwTurns (insertRwWaiter waiter waiters) (arrived ++ [waiter]) past := by
  obtain ⟨base, half⟩ := within
  obtain ⟨new, others⟩ := List.forall_mem_cons.mp half
  have near : ∀ candidate ∈ waiters, Near base candidate := fun candidate member =>
    ⟨turns.whole candidate member, others _ (List.mem_map_of_mem member)⟩
  obtain ⟨served, waiting, parted, same, ordered⟩ := turns.turns
  obtain ⟨before, after, rfl, inserted, stays, overtakes⟩ := insertRwWaiter_spec waiter waiters
  rw [inserted]
  obtain ⟨ahead, behind, rfl, rfl, rfl, joined⟩ := parted.arrive waiter
  constructor
  · intro candidate member
    rcases List.mem_append.mp member with old | later
    · exact turns.whole candidate (List.mem_append_left _ old)
    · rcases List.mem_cons.mp later with rfl | old
      · exact whole
      · exact turns.whole candidate (List.mem_append_right _ old)
  · refine ⟨served, _, joined, same, ?_⟩
    have entries : ∀ entry ∈ ahead ++ behind, Near base entry.1 := by
      intro entry member
      apply near
      rw [← List.map_append]
      exact List.mem_map_of_mem member
    refine ordered_insert ordered ⟨whole, new⟩ entries (fun entry => parted.number_lt) ?_ ?_
    · exact fun entry member => stays entry.1 (List.mem_map_of_mem member)
    · intro entry first
      apply overtakes
      rw [List.head?_map, Option.mem_def.mp first]
      rfl

theorem RwTurns.serve {taken left : List Waiter} (turns : RwTurns (taken ++ left) arrived past) :
    RwTurns left arrived (past ++ taken) := by
  obtain ⟨served, waiting, parted, same, ordered⟩ := turns.turns
  rw [← List.nil_append (taken ++ left)] at parted
  obtain ⟨ahead, now, behind, rfl, nothing, rfl, after⟩ := parted.serve
  rw [List.map_eq_nil_iff] at nothing
  subst nothing
  refine ⟨fun waiter member => turns.whole waiter (List.mem_append_right _ member),
    _, behind, after, ?_, ?_⟩
  · rw [List.map_append, same]
  · exact ordered.sublist (List.sublist_append_right now behind)

theorem RwAction.arrival_whole {queue : QueueState} (waits : action.arrival queue = some waiter) :
    Whole waiter.sequence := by
  unfold RwAction.arrival at waits
  split at waits
  · split at waits
    · contradiction
    · cases waits
      exact whole_masked _
  · contradiction

/-- The waiter that the action queues is within half the space of those that are queued. -/
def RwAction.Within (queue : QueueState) (action : RwAction) : Prop :=
  ∀ waiter ∈ action.arrival queue,
    WithinHalf (waiter.sequence :: queue.waiters.map Waiter.sequence)

theorem RwTurns.step (turns : RwTurns queue.waiters arrived past) (within : action.Within queue) :
    RwTurns (action.after queue).waiters (arrived ++ (action.arrival queue).toList)
      (past ++ completed (action.grant queue)) := by
  have split := (action.spec queue).1
  have joined : RwTurns (enqueued queue (action.arrival queue))
      (arrived ++ (action.arrival queue).toList) past := by
    cases waits : action.arrival queue with
    | none => simpa [enqueued] using turns
    | some waiter => exact turns.enqueue (RwAction.arrival_whole waits) (within waiter waits)
  rw [split] at joined
  exact joined.serve

/-! ### Deferred grants -/

/-- The waiters of an arrival that an unlock waits for. -/
def awaited (lockSequence : Word) (arrivals : List Waiter) : Nat :=
  arrivals.countP fun waiter => sequenceNotAfter waiter.sequence lockSequence

theorem grantRwlock_owes {before : QueueState} {lockSequence : Word}
    (spent : (before.rw.getD {}).prepostCount = 0) (sequenceWord : Word) :
    Owes (before.grantRwlock sequenceWord).1 0 lockSequence := by
  have kept := (grantRwlock_spec before sequenceWord).2.2
  refine ⟨?_, fun absurd => (absurd rfl).elim⟩
  rw [kept, spent]
  rfl

@[simp] theorem awaited_nil (lockSequence : Word) : awaited lockSequence [] = 0 := rfl

@[simp] theorem awaited_singleton (lockSequence : Word) :
    awaited lockSequence [waiter] =
      if sequenceNotAfter waiter.sequence lockSequence then 1 else 0 :=
  List.countP_singleton

/-- What an unlock still waits for shrinks with each awaited arrival, and the last makes the
grant. -/
theorem Owes.step {missing : Nat} {lockSequence : Word} (owes : Owes queue missing lockSequence)
    (calm : action.releases queue = false) :
    Owes (action.after queue) (missing - awaited lockSequence (action.arrival queue).toList)
        lockSequence ∧
      (action.grant queue).toList.length =
        if missing = 1 ∧ awaited lockSequence (action.arrival queue).toList = 1 then 1 else 0 := by
  obtain ⟨counted, upTo⟩ := owes
  cases action with
  | wait thread lockGeneration sequenceWord kind =>
    have cases := waitRwlock_cases queue thread lockGeneration sequenceWord kind
    unfold RwAction.arrival RwAction.grant RwAction.after
    dsimp only at cases ⊢
    rcases cases with ⟨_, _, admission, after⟩ | ⟨unowed, admission, after⟩ |
      ⟨more, owed, early, admission, after⟩ |
      ⟨last, owed, early, before, -, spent, after, admission⟩
    · simp only [admission, after, Option.toList_none, awaited_nil, Nat.sub_zero]
      exact ⟨⟨counted, upTo⟩, by simp [Admission.completions]⟩
    · simp only [admission, after, Option.toList_some, awaited_singleton]
      by_cases nothing : missing = 0
      · subst nothing
        rw [Nat.zero_sub]
        exact ⟨⟨counted, upTo⟩, by simp [Admission.completions]⟩
      · have some : (queue.rw.getD {}).prepostCount ≠ 0 := by
          intro zero
          rw [zero] at counted
          exact nothing counted.symm
        have late := unowed.resolve_left some
        rw [upTo nothing] at late
        simp only [late, Bool.false_eq_true, if_false, Nat.sub_zero]
        exact ⟨⟨counted, upTo⟩, by simp [Admission.completions]⟩
    · have some : missing ≠ 0 := by bv_omega
      rw [upTo some] at early
      simp only [admission, after, Option.toList_some, awaited_singleton, early, if_true]
      refine ⟨⟨?_, fun _ => upTo some⟩, ?_⟩
      · rw [Option.getD_some]
        bv_omega
      · have less : missing ≠ 1 := by bv_omega
        simp [less, Admission.completions]
    · have one : missing = 1 := by bv_omega
      rw [upTo (by omega)] at early
      simp only [admission, after, Option.toList_some, awaited_singleton, early, if_true, one,
        Nat.sub_self]
      exact ⟨grantRwlock_owes spent _, by simp [Admission.completions]⟩
  | unlock lockGeneration unlockGeneration sequenceWord =>
    have cases := unlockRwlock_cases queue lockGeneration unlockGeneration sequenceWord
    have stale := of_decide_eq_false calm
    rw [not_not] at stale
    unfold RwAction.arrival RwAction.grant RwAction.after
    dsimp only at cases ⊢
    rcases cases with ⟨release, after⟩ | ⟨-, release, -⟩ | ⟨-, before, -, -, release⟩
    · simp only [release, after, Option.toList_none, awaited_nil, Nat.sub_zero]
      exact ⟨⟨counted, upTo⟩, by simp [Release.completions]⟩
    · rw [release] at stale
      contradiction
    · rw [release] at stale
      contradiction

/-- An unlock that is not stale and finds too few waiters makes no grant yet. -/
theorem unlockRwlock_owes {lockGeneration unlockGeneration sequenceWord : Word}
    (fresh : (RwAction.unlock lockGeneration unlockGeneration sequenceWord).releases queue = true)
    (short : queue.queuedWaiters (lockGeneration &&& generationMask) <
      (generationCount (lockGeneration &&& generationMask)
        (unlockGeneration &&& generationMask)).toNat) :
    let action := RwAction.unlock lockGeneration unlockGeneration sequenceWord
    Owes (action.after queue)
        ((generationCount (lockGeneration &&& generationMask)
          (unlockGeneration &&& generationMask)).toNat -
            queue.queuedWaiters (lockGeneration &&& generationMask))
        (lockGeneration &&& generationMask) ∧
      action.grant queue = none := by
  have cases := unlockRwlock_cases queue lockGeneration unlockGeneration sequenceWord
  have notStale := of_decide_eq_true fresh
  unfold RwAction.grant RwAction.after
  dsimp only at cases ⊢
  generalize generationCount _ _ = expected at cases short ⊢
  generalize queue.queuedWaiters _ = queued at cases short ⊢
  have bound := expected.isLt
  have same : (BitVec.ofNat 32 queued).toNat = queued := by
    rw [BitVec.toNat_ofNat]
    exact Nat.mod_eq_of_lt (by omega)
  rcases cases with ⟨release, -⟩ | ⟨-, release, after⟩ | ⟨enough, -⟩
  · exact absurd release notStale
  · simp only [release, after]
    refine ⟨⟨?_, fun _ => rfl⟩, rfl⟩
    rw [Option.getD_some]
    dsimp only
    rw [BitVec.toNat_sub, same]
    omega
  · rw [BitVec.lt_def, same] at enough
    exact absurd short enough

/-! ### The lock within the runtime -/

def rwAction (key : QueueKey) : Operation → Option RwAction
  | .waitRwlock thread object lockGeneration sequenceWord kind =>
    if objectKey thread.processId object .rwLock = key then
      some (.wait thread lockGeneration sequenceWord kind)
    else none
  | .unlockRwlock processId object lockGeneration unlockGeneration sequenceWord =>
    if objectKey processId object .rwLock = key then
      some (.unlock lockGeneration unlockGeneration sequenceWord)
    else none
  | _ => none

/-- A call that takes waiters out of every queue. -/
def interrupts : Operation → Bool
  | .cancelWait _ | .clearProcess _ => true
  | _ => false

variable {key : QueueKey} {runtime : DarwinPsynchRuntime} {call : Call}

open DarwinPsynchRuntime in
/-- A call does to the queue of a lock what it asks of that lock. -/
theorem step_rwlock (family : key.family = .rwLock) (live : key.expired call.expired = false)
    (calm : interrupts call.operation = false) :
    (runtime.next call).queues key =
      match rwAction key call.operation with
      | none => runtime.queues key
      | some action => action.after (runtime.queues key) := by
  obtain ⟨operation, expired⟩ := call
  have elsewhere : ∀ processId object, objectKey processId object .condition ≠ key :=
    fun _ _ => objectKey_ne (by simp [family])
  have apart : ∀ processId object, objectKey processId object .mutex ≠ key :=
    fun _ _ => objectKey_ne (by simp [family])
  have kept := fun runtime : DarwinPsynchRuntime => sharedOperation_queues runtime live
  cases operation with
  | waitMutex thread object lockGeneration flags =>
    simp [rwAction, next, step, DarwinPsynchRuntime.waitMutex, apart, kept]
  | dropMutex processId drop flags =>
    simp only [rwAction, next, step]
    rw [dropMutex_queues _ live, if_neg (apart _ _)]
  | waitCondition thread object lockAndSignalGeneration mutexDrop flags =>
    cases mutexDrop with
    | none => simp [rwAction, next, step, DarwinPsynchRuntime.waitCondition, elsewhere, kept]
    | some drop =>
      have after := dropMutex_queues runtime live thread.processId drop flags
      rw [if_neg (apart _ _)] at after
      simp [rwAction, next, step, DarwinPsynchRuntime.waitCondition, elsewhere, kept, after]
  | signalCondition processId object lockAndSignalGeneration unlockGeneration target =>
    simp [rwAction, next, step, DarwinPsynchRuntime.signalCondition, elsewhere, kept]
  | broadcastCondition processId object lockAndSignalGeneration =>
    simp [rwAction, next, step, DarwinPsynchRuntime.broadcastCondition, elsewhere, kept]
  | clearPreposts processId object mutexObject =>
    have other : objectKey processId object (if mutexObject = true then .mutex else .condition) ≠
        key := by
      split
      · exact apart _ _
      · exact elsewhere _ _
    simp [rwAction, next, step, DarwinPsynchRuntime.clearPreposts, other, kept]
  | waitRwlock thread object lockGeneration sequenceWord kind =>
    simp only [rwAction, next, step]
    rw [waitRwlock_queues _ live]
    split <;> rfl
  | unlockRwlock processId object lockGeneration unlockGeneration sequenceWord =>
    simp only [rwAction, next, step]
    rw [unlockRwlock_queues _ live]
    split <;> rfl
  | takeResult thread =>
    simp only [rwAction, next, step, DarwinPsynchRuntime.takeResult]
    split <;> rfl
  | cancelWait thread => contradiction
  | clearProcess processId => contradiction

section Shown
variable (key : QueueKey) (runtime : DarwinPsynchRuntime) (call : Call)

/-- The waiter that the call queues on the lock. -/
def rwArrival : Option Waiter :=
  (rwAction key call.operation).bind fun action => action.arrival (runtime.queues key)

/-- The grant that the call makes. -/
def rwGrant : Option (List Completion) :=
  (rwAction key call.operation).bind fun action => action.grant (runtime.queues key)

/-- The call is an unlock of the lock, and not a stale one. -/
def rwReleases : Bool :=
  (rwAction key call.operation).any fun action => action.releases (runtime.queues key)

/-- The waiter that the call queues is within half the space of those that are queued. -/
def RwWithin : Prop :=
  ∀ waiter ∈ rwArrival key runtime call,
    WithinHalf (waiter.sequence :: (runtime.queues key).waiters.map Waiter.sequence)

/-- The call leaves the lock to its waits and unlocks. -/
def RwCalm : Prop := key.expired call.expired = false ∧ interrupts call.operation = false

end Shown

/-- The call, seen from the lock. -/
theorem rwStep_spec (family : key.family = .rwLock) (runtime : DarwinPsynchRuntime)
    (calm : RwCalm key call) :
    enqueued (runtime.queues key) (rwArrival key runtime call) =
        completed (rwGrant key runtime call) ++ ((runtime.next call).queues key).waiters ∧
      ∀ completions ∈ rwGrant key runtime call,
        IsGrant (completions.map Completion.waiter) ((runtime.next call).queues key).waiters := by
  rw [step_rwlock family calm.1 calm.2]
  unfold rwArrival rwGrant
  cases rwAction key call.operation with
  | none => exact ⟨rfl, fun _ grant => by contradiction⟩
  | some action => exact action.spec (runtime.queues key)

theorem RwTurns.onCall (turns : RwTurns (runtime.queues key).waiters arrived past)
    (family : key.family = .rwLock) (calm : RwCalm key call) (within : RwWithin key runtime call) :
    RwTurns ((runtime.next call).queues key).waiters
      (arrived ++ (rwArrival key runtime call).toList)
      (past ++ completed (rwGrant key runtime call)) := by
  rw [step_rwlock family calm.1 calm.2]
  unfold RwWithin rwArrival at within
  unfold rwArrival rwGrant
  cases asked : rwAction key call.operation with
  | none => simpa [completed] using turns
  | some action =>
    rw [asked] at within
    exact turns.step within

/-- Every history keeps the order of the queue, and completes no arrival twice. -/
theorem rwTurns_run (family : key.family = .rwLock) (calls : List Call)
    (calm : ∀ call ∈ calls, RwCalm key call)
    (within : Along DarwinPsynchRuntime.next (RwWithin key) {} calls) :
    RwTurns ((run DarwinPsynchRuntime.next {} calls).queues key).waiters
      (observed DarwinPsynchRuntime.next (fun runtime call => (rwArrival key runtime call).toList)
        {} calls)
      (observed DarwinPsynchRuntime.next (fun runtime call => completed (rwGrant key runtime call))
        {} calls) := by
  induction calls using List.reverseRecOn with
  | nil => exact RwTurns.start
  | append_singleton earlier call ih =>
    obtain ⟨past, last⟩ := List.forall_mem_append.mp calm
    obtain ⟨before, now⟩ := along_append.mp within
    rw [run_concat, observed_concat, observed_concat]
    exact (ih past before).onCall family (last call (List.mem_singleton_self call)) now.1

theorem Owes.onCall {missing : Nat} {lockSequence : Word}
    (owes : Owes (runtime.queues key) missing lockSequence) (family : key.family = .rwLock)
    (calm : RwCalm key call) (quiet : rwReleases key runtime call = false) :
    Owes ((runtime.next call).queues key)
        (missing - awaited lockSequence (rwArrival key runtime call).toList) lockSequence ∧
      (rwGrant key runtime call).toList.length =
        if missing = 1 ∧ awaited lockSequence (rwArrival key runtime call).toList = 1 then 1
        else 0 := by
  rw [step_rwlock family calm.1 calm.2]
  unfold rwReleases at quiet
  unfold rwArrival rwGrant
  cases asked : rwAction key call.operation with
  | none => exact ⟨owes, by simp⟩
  | some action =>
    rw [asked] at quiet
    exact owes.step quiet

/-- The arrivals, the grants and the completions of some calls on a lock. -/
def rwArrivals (key : QueueKey) : DarwinPsynchRuntime → List Call → List Waiter :=
  observed DarwinPsynchRuntime.next fun runtime call => (rwArrival key runtime call).toList

def rwGrants (key : QueueKey) : DarwinPsynchRuntime → List Call → List (List Completion) :=
  observed DarwinPsynchRuntime.next fun runtime call => (rwGrant key runtime call).toList

def rwCompletions (key : QueueKey) : DarwinPsynchRuntime → List Call → List Completion :=
  observed DarwinPsynchRuntime.next fun runtime call => (rwGrant key runtime call).getD []

/-- Until another unlock, an unlock that waits for arrivals makes no grant before the last of them
and one with it. -/
theorem owes_run {missing : Nat} {lockSequence : Word}
    (owes : Owes (runtime.queues key) missing lockSequence) (some : missing ≠ 0)
    (family : key.family = .rwLock) (calls : List Call) (calm : ∀ call ∈ calls, RwCalm key call)
    (quiet : Along DarwinPsynchRuntime.next (fun runtime call => rwReleases key runtime call = false)
      runtime calls) :
    Owes ((run DarwinPsynchRuntime.next runtime calls).queues key)
        (missing - awaited lockSequence (rwArrivals key runtime calls)) lockSequence ∧
      (rwGrants key runtime calls).length =
        if missing ≤ awaited lockSequence (rwArrivals key runtime calls) then 1 else 0 := by
  induction calls using List.reverseRecOn with
  | nil => exact ⟨owes, by simp [rwGrants, rwArrivals, observed, some]⟩
  | append_singleton earlier call ih =>
    obtain ⟨past, last⟩ := List.forall_mem_append.mp calm
    obtain ⟨before, now⟩ := along_append.mp quiet
    obtain ⟨left, made⟩ := ih past before
    obtain ⟨less, more⟩ := Owes.onCall left family (last call (List.mem_singleton_self call)) now.1
    unfold rwArrivals rwGrants at made ⊢
    rw [run_concat, observed_concat, observed_concat, List.length_append, made, more]
    unfold awaited at less ⊢
    rw [List.countP_append]
    unfold rwArrivals at less
    rw [Nat.sub_sub] at less
    refine ⟨less, ?_⟩
    have single : (rwArrival key (run DarwinPsynchRuntime.next runtime earlier) call).toList.countP
        (fun waiter => sequenceNotAfter waiter.sequence lockSequence) ≤ 1 :=
      List.countP_le_length.trans (Option.length_toList_le)
    unfold rwArrivals
    split <;> split <;> split <;> omega

/-- The generation of an unlock that finds too few waiters, with the number that it misses. -/
def rwMissing (key : QueueKey) (runtime : DarwinPsynchRuntime) (call : Call) :
    Option (Word × Nat) :=
  match rwAction key call.operation with
  | some (.unlock lockGeneration unlockGeneration sequenceWord) =>
    let queue := runtime.queues key
    let lockSequence := lockGeneration &&& generationMask
    let expected := (generationCount lockSequence (unlockGeneration &&& generationMask)).toNat
    let queued := queue.queuedWaiters lockSequence
    if (RwAction.unlock lockGeneration unlockGeneration sequenceWord).releases queue &&
        queued < expected then
      some (lockSequence, expected - queued)
    else none
  | _ => none

theorem rwMissing_owes (family : key.family = .rwLock) (calm : RwCalm key call)
    {lockSequence : Word} {missing : Nat}
    (short : rwMissing key runtime call = some (lockSequence, missing)) :
    Owes ((runtime.next call).queues key) missing lockSequence ∧ missing ≠ 0 ∧
      rwGrant key runtime call = none := by
  rw [step_rwlock family calm.1 calm.2]
  unfold rwMissing at short
  unfold rwGrant
  split at short
  · rename_i lockGeneration unlockGeneration sequenceWord asked
    dsimp only at short
    split at short
    · rename_i few
      rw [Bool.and_eq_true, decide_eq_true_eq] at few
      obtain ⟨rfl, rfl⟩ := Prod.mk.inj (Option.some.inj short)
      obtain ⟨owes, silent⟩ := unlockRwlock_owes few.1 few.2
      rw [asked]
      exact ⟨owes, by omega, silent⟩
    · contradiction
  · contradiction

def gate : DarwinPsynchObject := { address := 0x4000 }

/-- Two unlocks ahead of the two writers that they are for. -/
def racingUnlocks : List Call :=
  [{ operation := .unlockRwlock 1 gate 0x200 0 0 },
    { operation := .unlockRwlock 1 gate 0x200 0x100 0x100 },
    { operation := .waitRwlock ⟨1, 1⟩ gate 0x100 0 .writeLock },
    { operation := .waitRwlock ⟨1, 2⟩ gate 0x200 0 .writeLock }]

/-- The unlocks that found too few waiters, and for which as many as they missed have arrived. -/
def dueUnlocks (key : QueueKey) : DarwinPsynchRuntime → List Call → Nat
  | _, [] => 0
  | runtime, call :: later =>
    let due := (rwMissing key runtime call).any fun (lockSequence, missing) =>
      missing ≤ awaited lockSequence (rwArrivals key (runtime.next call) later)
    due.toNat + dueUnlocks key (runtime.next call) later

/-- The waiter that the call queues, and all that are queued, are in the lower half. -/
def rwLow (key : QueueKey) (runtime : DarwinPsynchRuntime) (call : Call) : Bool :=
  (rwArrival key runtime call).all fun waiter =>
    (waiter :: (runtime.queues key).waiters).all fun candidate => candidate.sequence < 0x80000000

theorem rwWithin_of_low (low : rwLow key runtime call = true) : RwWithin key runtime call := by
  intro waiter arrives
  unfold rwLow at low
  rw [Option.mem_def.mp arrives, Option.all_some, List.all_eq_true] at low
  refine ⟨0, fun sequence member => ?_⟩
  rw [show waiter.sequence :: (runtime.queues key).waiters.map Waiter.sequence =
    (waiter :: (runtime.queues key).waiters).map Waiter.sequence from rfl] at member
  obtain ⟨candidate, queued, rfl⟩ := List.mem_map.mp member
  have bound := of_decide_eq_true (low candidate queued)
  have distance : generation candidate.sequence - 0 = generation candidate.sequence :=
    BitVec.sub_zero _
  rw [distance, generation_toNat]
  rw [BitVec.lt_def] at bound
  have half : candidate.sequence.toNat < 2 ^ 31 := bound
  omega

end ILEmu.Bsd.Psynch
