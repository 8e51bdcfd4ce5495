import ILEmu.Foundation.Run
import Mathlib.Data.BitVec
import Mathlib.Logic.Function.Basic

/-! The kernel side of the generation-counted pthread waits: the queues, the preposts of missed
wakeups and the results of completed waits. -/
namespace ILEmu.Bsd.Psynch

abbrev Word := BitVec 32

structure DarwinPsynchThread where
  processId : Word
  processor : Word
  deriving DecidableEq, Repr

/-- A byte of a backing. The backing may have expired. -/
structure SharedMemoryIdentity where
  backing : Nat
  offset : Nat
  deriving DecidableEq, Repr

structure DarwinPsynchObject where
  address : Word
  shared : Option SharedMemoryIdentity := none
  deriving DecidableEq, Repr

inductive DarwinPsynchWaitKind where
  | mutex | condition | readLock | writeLock
  deriving DecidableEq, Repr

inductive QueueFamily where
  | mutex | condition | rwLock
  deriving DecidableEq, Repr

structure QueueKey where
  processShared : Bool
  processId : Word
  address : Word
  family : QueueFamily
  sharedIdentity : Option SharedMemoryIdentity
  deriving DecidableEq, Repr

structure Waiter where
  thread : DarwinPsynchThread
  sequence : Word
  kind : DarwinPsynchWaitKind
  deriving DecidableEq, Repr

structure Prepost where
  sequence : Word
  count : Word
  kind : DarwinPsynchWaitKind
  deriving DecidableEq, Repr

structure RwState where
  nextSequenceWord : Word := 0x01
  lastSequenceWord : Word := 0x01
  lastUnlockSequence : Word := 0
  prepostCount : Word := 0
  prepostLockSequence : Word := 0
  prepostSequenceWord : Word := 0x01
  hasLastUnlock : Bool := false
  overlapWatch : Bool := false
  deriving DecidableEq, Repr

structure QueueState where
  waiters : List Waiter := []
  preposts : List Prepost := []
  rw : Option RwState := none
  deriving DecidableEq, Repr

structure MutexDrop where
  object : DarwinPsynchObject
  lockGeneration : Word
  unlockGeneration : Word
  deriving DecidableEq, Repr

/-- The waiter that is taken out of its queue, with the result of its wait. -/
structure Completion where
  waiter : Waiter
  result : Word
  deriving DecidableEq, Repr

/-- What a call returns. A wait that blocks has no result, nor has a thread without one. -/
structure Outcome where
  blocked : Bool := false
  result : Word := 0
  wokenThreads : List DarwinPsynchThread := []
  deriving DecidableEq, Repr

def generationIncrement : Word := 0x100
def generationMask : Word := 0xffffff00
def kernelBit : Word := 0x01
def exclusiveBit : Word := 0x02
def writeWaiterBit : Word := 0x04
def sequenceSaveMask : Word := 0x1c
def overlapBit : Word := 0x40
def conditionPrepostBit : Word := 0x02
def mutexPrepostBit : Word := 0x04
def firstFitPolicy : Word := 0x80

/-- The generations from one sequence up to another, around the end of the space. -/
def generationCount (upper lower : Word) : Word := ((upper - lower) &&& generationMask) >>> 8

def sequenceNotAfter (sequence upperBound : Word) : Bool :=
  generationCount upperBound sequence < (1 : Word) <<< 23

/-- Use up one count of the first matching prepost, and the prepost with its last count. -/
def consume (suits : Prepost → Bool) : List Prepost → Option (List Prepost)
  | [] => none
  | candidate :: rest =>
    if suits candidate then
      let count := candidate.count - 1
      some (if count = 0 then rest else { candidate with count } :: rest)
    else (consume suits rest).map (candidate :: ·)

/-- The first waiter that matches, and the queue without it. -/
def extract (suits : Waiter → Bool) : List Waiter → Option (Waiter × List Waiter)
  | [] => none
  | candidate :: rest =>
    if suits candidate then some (candidate, rest)
    else (extract suits rest).map fun (found, others) => (found, candidate :: others)

namespace QueueState

def waitMutex (queue : QueueState) (waiter : Waiter) (firstFit : Bool) : QueueState × Outcome :=
  let suits (candidate : Prepost) :=
    candidate.kind = .mutex && (firstFit || candidate.sequence = waiter.sequence)
  match consume suits queue.preposts with
  | some preposts =>
    ({ queue with preposts }, { result := waiter.sequence ||| kernelBit ||| exclusiveBit })
  | none => ({ queue with waiters := queue.waiters ++ [waiter] }, { blocked := true })

def highestSequence (waiters : List Waiter) : Word :=
  waiters.foldl (fun highest waiter =>
    if highest < waiter.sequence then waiter.sequence else highest) 0

/-- Under first fit the oldest waiter. Otherwise the next in sequence, and the oldest when an
interrupted waiter has been skipped. -/
def mutexSuccessor (queue : QueueState) (nextSequence : Word) (firstFit : Bool) :
    Option (Waiter × List Waiter) :=
  let oldest := extract (fun _ => true) queue.waiters
  if firstFit then oldest
  else
    (extract (fun candidate => candidate.kind = .mutex && candidate.sequence = nextSequence)
      queue.waiters).or oldest

def dropMutex (queue : QueueState) (lockGeneration unlockGeneration : Word) (firstFit : Bool) :
    QueueState × Word × List Completion :=
  let nextSequence := (unlockGeneration + generationIncrement) &&& generationMask
  match queue.mutexSuccessor nextSequence firstFit with
  | some (waiter, waiters) =>
    let result := highestSequence queue.waiters ||| kernelBit ||| exclusiveBit
    ({ queue with waiters }, 0, [{ waiter, result }])
  | none =>
    let preposts := queue.preposts ++ [{ sequence := nextSequence, count := 1, kind := .mutex }]
    ({ queue with preposts },
      if firstFit then (lockGeneration &&& generationMask) ||| mutexPrepostBit else 0, [])

def waitCondition (queue : QueueState) (waiter : Waiter) : QueueState × Outcome :=
  let suits (candidate : Prepost) :=
    candidate.kind = .condition && sequenceNotAfter waiter.sequence candidate.sequence
  match consume suits queue.preposts with
  | some preposts => ({ queue with preposts }, { result := generationIncrement })
  | none => ({ queue with waiters := queue.waiters ++ [waiter] }, { blocked := true })

/-- One more count for the prepost of a sequence, unless it has all that fit. -/
def addPrepost (sequence : Word) : List Prepost → List Prepost
  | [] => [{ sequence, count := 1, kind := .condition }]
  | candidate :: rest =>
    if candidate.kind = .condition && candidate.sequence = sequence then
      (if candidate.count < BitVec.allOnes 32 then { candidate with count := candidate.count + 1 }
        else candidate) :: rest
    else candidate :: addPrepost sequence rest

def signalCondition (queue : QueueState) (upperSequence signalSequence : Word)
    (target : Option DarwinPsynchThread) : QueueState × Word × List Completion :=
  let bounded (candidate : Waiter) :=
    candidate.kind = .condition && sequenceNotAfter candidate.sequence upperSequence
  let directed (candidate : Waiter) :=
    bounded candidate && target.all (candidate.thread = ·) &&
      sequenceNotAfter signalSequence candidate.sequence
  let found := extract directed queue.waiters
  match if target.isSome then found.or (extract bounded queue.waiters) else found with
  | some (waiter, waiters) => ({ queue with waiters }, generationIncrement, [{ waiter, result := 0 }])
  | none =>
    ({ queue with preposts := addPrepost upperSequence queue.preposts }, conditionPrepostBit, [])

def broadcastCondition (queue : QueueState) (upperSequence signaledSequence : Word) :
    QueueState × Word × List Completion :=
  let reached (candidate : Waiter) :=
    candidate.kind = .condition && sequenceNotAfter candidate.sequence upperSequence
  let (woken, waiters) := queue.waiters.partition reached
  let result := BitVec.ofNat 32 woken.length * generationIncrement
  let outstanding := generationCount upperSequence signaledSequence
  let completions := woken.map fun waiter => { waiter, result := 0 }
  if woken.length < outstanding.toNat then
    let missed : Prepost :=
      { sequence := upperSequence, count := outstanding - BitVec.ofNat 32 woken.length,
        kind := .condition }
    ({ queue with waiters, preposts := queue.preposts ++ [missed] },
      result ||| conditionPrepostBit, completions)
  else ({ queue with waiters }, result, completions)

/-- Before the first waiter of a later generation. -/
def insertRwWaiter (waiter : Waiter) : List Waiter → List Waiter
  | [] => [waiter]
  | candidate :: rest =>
    if waiter.sequence ≠ candidate.sequence &&
        sequenceNotAfter waiter.sequence candidate.sequence then
      waiter :: candidate :: rest
    else candidate :: insertRwWaiter waiter rest

def isWriter (candidate : Waiter) : Bool := candidate.kind = .writeLock
def isReader (candidate : Waiter) : Bool := candidate.kind = .readLock

def grantRwlock (queue : QueueState) (sequenceWord : Word) : QueueState × List Completion :=
  let rw : RwState :=
    { queue.rw.getD {} with
      lastSequenceWord := sequenceWord
      lastUnlockSequence := sequenceWord &&& generationMask
      hasLastUnlock := true
      overlapWatch := false }
  match queue.waiters with
  | [] => ({ queue with rw := some { rw with nextSequenceWord := sequenceWord } }, [])
  | first :: others =>
    if isWriter first then
      let result := generationIncrement ||| kernelBit ||| exclusiveBit |||
        (if others.any isWriter then writeWaiterBit else 0)
      let nextSequenceWord := (sequenceWord &&& generationMask) + result
      ({ queue with waiters := others, rw := some { rw with nextSequenceWord } },
        [{ waiter := first, result }])
    else
      let granted := queue.waiters.takeWhile isReader
      let waiters := queue.waiters.dropWhile isReader
      let writerPending := waiters.any isWriter
      let result := BitVec.ofNat 32 granted.length * generationIncrement |||
        (if writerPending then kernelBit ||| writeWaiterBit else 0)
      let nextSequenceWord := (sequenceWord &&& generationMask) + result
      let overlapWatch := !writerPending
      ({ queue with waiters, rw := some { rw with nextSequenceWord, overlapWatch } },
        granted.map fun waiter => { waiter, result })

/-- How a lock request is met: by the overlap with a running grant of readers, by the queue, or
by the queue with the grant of an earlier unlock that had to wait for it. -/
inductive Admission where
  | overlap (result : Word)
  | queued
  | granted (completions : List Completion)
  deriving DecidableEq, Repr

def waitRwlock (queue : QueueState) (thread : DarwinPsynchThread)
    (lockGeneration sequenceWord : Word) (kind : DarwinPsynchWaitKind) :
    QueueState × Admission :=
  let rw := queue.rw.getD {}
  let lockSequence := lockGeneration &&& generationMask
  let currentSequence := sequenceWord &&& generationMask
  if kind = .readLock && rw.overlapWatch && sequenceWord &&& sequenceSaveMask = 0 &&
      lockGeneration &&& writeWaiterBit = 0 &&
      (sequenceNotAfter currentSequence (rw.nextSequenceWord &&& generationMask) ||
        sequenceNotAfter currentSequence (rw.lastSequenceWord &&& generationMask)) then
    let nextSequenceWord := rw.nextSequenceWord + generationIncrement
    ({ queue with rw := some { rw with nextSequenceWord } },
      .overlap (generationIncrement ||| (nextSequenceWord &&& ~~~generationMask) ||| overlapBit))
  else
    let waiters := insertRwWaiter { thread, sequence := lockSequence, kind } queue.waiters
    if rw.prepostCount = 0 || !sequenceNotAfter lockSequence rw.prepostLockSequence then
      ({ queue with waiters, rw := some rw }, .queued)
    else
      let prepostCount := rw.prepostCount - 1
      if prepostCount ≠ 0 then
        ({ queue with waiters, rw := some { rw with prepostCount } }, .queued)
      else
        let cleared : RwState :=
          { rw with prepostCount, prepostLockSequence := 0, prepostSequenceWord := 0x01 }
        let (queue, completions) :=
          { queue with waiters, rw := some cleared }.grantRwlock rw.prepostSequenceWord
        (queue, .granted completions)

/-- How an unlock is met: not at all when a later one has been, by a prepost for the waiters that
have not arrived, or by a grant. -/
inductive Release where
  | stale
  | preposted
  | granted (completions : List Completion)
  deriving DecidableEq, Repr

def queuedWaiters (queue : QueueState) (lockSequence : Word) : Nat :=
  queue.waiters.countP fun waiter => sequenceNotAfter waiter.sequence lockSequence

def unlockRwlock (queue : QueueState) (lockGeneration unlockGeneration sequenceWord : Word) :
    QueueState × Release :=
  let rw := queue.rw.getD {}
  let lockSequence := lockGeneration &&& generationMask
  let unlockSequence := unlockGeneration &&& generationMask
  if rw.hasLastUnlock && !sequenceNotAfter rw.lastUnlockSequence unlockSequence then
    ({ queue with rw := some rw }, .stale)
  else
    let expectedWaiters := generationCount lockSequence unlockSequence
    let queuedWaiters := BitVec.ofNat 32 (queue.queuedWaiters lockSequence)
    if queuedWaiters < expectedWaiters then
      let rw : RwState :=
        { rw with
          prepostCount := expectedWaiters - queuedWaiters
          prepostLockSequence := lockSequence
          prepostSequenceWord := sequenceWord }
      ({ queue with rw := some rw }, .preposted)
    else
      let cleared : RwState :=
        { rw with prepostCount := 0, prepostLockSequence := 0, prepostSequenceWord := 0x01 }
      let (queue, completions) := { queue with rw := some cleared }.grantRwlock sequenceWord
      (queue, .granted completions)

end QueueState

abbrev Results := DarwinPsynchThread → Option Word

structure DarwinPsynchRuntime where
  sharedOperations : Word := 0
  /-- A queue without an entry is empty, and an entry that is pruned becomes so. -/
  queues : QueueKey → QueueState := fun _ => {}
  completedResults : Results := fun _ => none

inductive Operation where
  | waitMutex (thread : DarwinPsynchThread) (object : DarwinPsynchObject)
      (lockGeneration flags : Word)
  | dropMutex (processId : Word) (drop : MutexDrop) (flags : Word)
  | waitCondition (thread : DarwinPsynchThread) (object : DarwinPsynchObject)
      (lockAndSignalGeneration : BitVec 64) (mutexDrop : Option MutexDrop) (flags : Word)
  | signalCondition (processId : Word) (object : DarwinPsynchObject)
      (lockAndSignalGeneration : BitVec 64) (unlockGeneration : Word)
      (target : Option DarwinPsynchThread)
  | broadcastCondition (processId : Word) (object : DarwinPsynchObject)
      (lockAndSignalGeneration : BitVec 64)
  | clearPreposts (processId : Word) (object : DarwinPsynchObject) (mutexObject : Bool)
  | waitRwlock (thread : DarwinPsynchThread) (object : DarwinPsynchObject)
      (lockGeneration sequenceWord : Word) (kind : DarwinPsynchWaitKind)
  | unlockRwlock (processId : Word) (object : DarwinPsynchObject)
      (lockGeneration unlockGeneration sequenceWord : Word)
  | takeResult (thread : DarwinPsynchThread)
  | cancelWait (thread : DarwinPsynchThread)
  | clearProcess (processId : Word)

/-- An operation, with the backings that have expired when it is called. -/
structure Call where
  operation : Operation
  expired : Nat → Bool := fun _ => false

def objectKey (processId : Word) (object : DarwinPsynchObject) (family : QueueFamily) : QueueKey :=
  let processShared := object.shared.isSome
  { processShared
    processId := if processShared then 0 else processId
    address := if processShared then 0 else object.address
    family
    sharedIdentity := object.shared }

def QueueKey.expired (key : QueueKey) (expired : Nat → Bool) : Bool :=
  key.processShared && key.sharedIdentity.all fun identity => expired identity.backing

namespace DarwinPsynchRuntime

def pruneExpiredSharedQueues (runtime : DarwinPsynchRuntime) (expired : Nat → Bool) :
    DarwinPsynchRuntime :=
  { runtime with
    queues := fun key =>
      if key.expired expired && (runtime.queues key).waiters.isEmpty then {}
      else runtime.queues key }

/-- The accounting of a call on a shared object: every 64th prunes. -/
def sharedOperation (runtime : DarwinPsynchRuntime) (object : DarwinPsynchObject)
    (expired : Nat → Bool) : DarwinPsynchRuntime :=
  if object.shared.isSome then
    let counted := { runtime with sharedOperations := runtime.sharedOperations + 1 }
    if counted.sharedOperations % 64 = 0 then counted.pruneExpiredSharedQueues expired else counted
  else runtime

def setQueue (runtime : DarwinPsynchRuntime) (key : QueueKey) (queue : QueueState) :
    DarwinPsynchRuntime :=
  { runtime with queues := Function.update runtime.queues key queue }

def setResult (runtime : DarwinPsynchRuntime) (thread : DarwinPsynchThread)
    (result : Option Word) : DarwinPsynchRuntime :=
  { runtime with completedResults := Function.update runtime.completedResults thread result }

def completeWaits (runtime : DarwinPsynchRuntime) (completions : List Completion) :
    DarwinPsynchRuntime :=
  completions.foldl
    (fun runtime completion => runtime.setResult completion.waiter.thread (some completion.result))
    runtime

def woken (completions : List Completion) : List DarwinPsynchThread :=
  completions.map fun completion => completion.waiter.thread

def dropMutex (runtime : DarwinPsynchRuntime) (expired : Nat → Bool) (processId : Word)
    (drop : MutexDrop) (flags : Word) : DarwinPsynchRuntime × Outcome :=
  let runtime := runtime.sharedOperation drop.object expired
  let key := objectKey processId drop.object .mutex
  let (queue, result, completions) :=
    (runtime.queues key).dropMutex drop.lockGeneration drop.unlockGeneration
      (flags &&& firstFitPolicy ≠ 0)
  ((runtime.setQueue key queue).completeWaits completions,
    { result, wokenThreads := woken completions })

def waitMutex (runtime : DarwinPsynchRuntime) (expired : Nat → Bool) (thread : DarwinPsynchThread)
    (object : DarwinPsynchObject) (lockGeneration flags : Word) :
    DarwinPsynchRuntime × Outcome :=
  let runtime := runtime.sharedOperation object expired
  let key := objectKey thread.processId object .mutex
  let waiter : Waiter :=
    { thread, sequence := lockGeneration &&& generationMask, kind := .mutex }
  let (queue, outcome) := (runtime.queues key).waitMutex waiter (flags &&& firstFitPolicy ≠ 0)
  (runtime.setQueue key queue, outcome)

def waitCondition (runtime : DarwinPsynchRuntime) (expired : Nat → Bool)
    (thread : DarwinPsynchThread) (object : DarwinPsynchObject)
    (lockAndSignalGeneration : BitVec 64) (mutexDrop : Option MutexDrop) (flags : Word) :
    DarwinPsynchRuntime × Outcome :=
  let (runtime, dropped) :=
    match mutexDrop with
    | some drop => runtime.dropMutex expired thread.processId drop flags
    | none => (runtime, {})
  let runtime := runtime.sharedOperation object expired
  let key := objectKey thread.processId object .condition
  let sequence := lockAndSignalGeneration.setWidth 32 &&& generationMask
  let (queue, outcome) :=
    (runtime.queues key).waitCondition { thread, sequence, kind := .condition }
  (runtime.setQueue key queue, { outcome with wokenThreads := dropped.wokenThreads })

def signalCondition (runtime : DarwinPsynchRuntime) (expired : Nat → Bool) (processId : Word)
    (object : DarwinPsynchObject) (lockAndSignalGeneration : BitVec 64) (unlockGeneration : Word)
    (target : Option DarwinPsynchThread) : DarwinPsynchRuntime × Outcome :=
  let runtime := runtime.sharedOperation object expired
  let key := objectKey processId object .condition
  let (queue, result, completions) :=
    (runtime.queues key).signalCondition
      (lockAndSignalGeneration.setWidth 32 &&& generationMask)
      ((unlockGeneration + generationIncrement) &&& generationMask) target
  ((runtime.setQueue key queue).completeWaits completions,
    { result, wokenThreads := woken completions })

def broadcastCondition (runtime : DarwinPsynchRuntime) (expired : Nat → Bool) (processId : Word)
    (object : DarwinPsynchObject) (lockAndSignalGeneration : BitVec 64) :
    DarwinPsynchRuntime × Outcome :=
  let runtime := runtime.sharedOperation object expired
  let key := objectKey processId object .condition
  let (queue, result, completions) :=
    (runtime.queues key).broadcastCondition
      (lockAndSignalGeneration.setWidth 32 &&& generationMask)
      ((lockAndSignalGeneration >>> 32).setWidth 32 &&& generationMask)
  ((runtime.setQueue key queue).completeWaits completions,
    { result, wokenThreads := woken completions })

def clearPreposts (runtime : DarwinPsynchRuntime) (expired : Nat → Bool) (processId : Word)
    (object : DarwinPsynchObject) (mutexObject : Bool) : DarwinPsynchRuntime :=
  let runtime := runtime.sharedOperation object expired
  let key := objectKey processId object (if mutexObject then .mutex else .condition)
  runtime.setQueue key { runtime.queues key with preposts := [] }

/-- The thread that completes a grant may find a result of its own. -/
def waitRwlock (runtime : DarwinPsynchRuntime) (expired : Nat → Bool) (thread : DarwinPsynchThread)
    (object : DarwinPsynchObject) (lockGeneration sequenceWord : Word)
    (kind : DarwinPsynchWaitKind) : DarwinPsynchRuntime × Outcome :=
  let runtime := runtime.sharedOperation object expired
  let key := objectKey thread.processId object .rwLock
  let (queue, admission) :=
    (runtime.queues key).waitRwlock thread lockGeneration sequenceWord kind
  let runtime := runtime.setQueue key queue
  match admission with
  | .overlap result => (runtime, { result })
  | .queued => (runtime, { blocked := true })
  | .granted completions =>
    let runtime := runtime.completeWaits completions
    match runtime.completedResults thread with
    | some result =>
      (runtime.setResult thread none,
        { result, wokenThreads := (woken completions).filter (· ≠ thread) })
    | none => (runtime, { blocked := true, wokenThreads := woken completions })

def unlockRwlock (runtime : DarwinPsynchRuntime) (expired : Nat → Bool) (processId : Word)
    (object : DarwinPsynchObject) (lockGeneration unlockGeneration sequenceWord : Word) :
    DarwinPsynchRuntime × Outcome :=
  let runtime := runtime.sharedOperation object expired
  let key := objectKey processId object .rwLock
  let (queue, release) :=
    (runtime.queues key).unlockRwlock lockGeneration unlockGeneration sequenceWord
  let runtime := runtime.setQueue key queue
  match release with
  | .stale => (runtime, {})
  | .preposted => (runtime, { result := lockGeneration })
  | .granted completions =>
    (runtime.completeWaits completions, { wokenThreads := woken completions })

def takeResult (runtime : DarwinPsynchRuntime) (thread : DarwinPsynchThread) :
    DarwinPsynchRuntime × Outcome :=
  match runtime.completedResults thread with
  | none => (runtime, { blocked := true })
  | some result => (runtime.setResult thread none, { result })

/-- The waiters that match are gone, and with them the entry of a queue that nothing needs. -/
def eraseWaiters (runtime : DarwinPsynchRuntime) (gone : Waiter → Bool) (expired : Nat → Bool) :
    QueueKey → QueueState := fun key =>
  let queue := runtime.queues key
  let waiters := queue.waiters.filter fun waiter => !gone waiter
  if waiters.isEmpty && key.expired expired then {} else { queue with waiters }

def cancelWait (runtime : DarwinPsynchRuntime) (expired : Nat → Bool)
    (thread : DarwinPsynchThread) : DarwinPsynchRuntime :=
  let gone (waiter : Waiter) := waiter.thread = thread
  { runtime.setResult thread none with queues := runtime.eraseWaiters gone expired }

def clearProcess (runtime : DarwinPsynchRuntime) (expired : Nat → Bool) (processId : Word) :
    DarwinPsynchRuntime :=
  let gone (waiter : Waiter) := waiter.thread.processId = processId
  { runtime with
    completedResults := fun thread =>
      if thread.processId = processId then none else runtime.completedResults thread
    queues := fun key =>
      if !key.processShared && key.processId = processId then {}
      else runtime.eraseWaiters gone expired key }

def step (runtime : DarwinPsynchRuntime) (call : Call) : DarwinPsynchRuntime × Outcome :=
  match call.operation with
  | .waitMutex thread object lockGeneration flags =>
    runtime.waitMutex call.expired thread object lockGeneration flags
  | .dropMutex processId drop flags => runtime.dropMutex call.expired processId drop flags
  | .waitCondition thread object lockAndSignalGeneration mutexDrop flags =>
    runtime.waitCondition call.expired thread object lockAndSignalGeneration mutexDrop flags
  | .signalCondition processId object lockAndSignalGeneration unlockGeneration target =>
    runtime.signalCondition call.expired processId object lockAndSignalGeneration
      unlockGeneration target
  | .broadcastCondition processId object lockAndSignalGeneration =>
    runtime.broadcastCondition call.expired processId object lockAndSignalGeneration
  | .clearPreposts processId object mutexObject =>
    (runtime.clearPreposts call.expired processId object mutexObject, {})
  | .waitRwlock thread object lockGeneration sequenceWord kind =>
    runtime.waitRwlock call.expired thread object lockGeneration sequenceWord kind
  | .unlockRwlock processId object lockGeneration unlockGeneration sequenceWord =>
    runtime.unlockRwlock call.expired processId object lockGeneration unlockGeneration sequenceWord
  | .takeResult thread => runtime.takeResult thread
  | .cancelWait thread => (runtime.cancelWait call.expired thread, {})
  | .clearProcess processId => (runtime.clearProcess call.expired processId, {})

def next (runtime : DarwinPsynchRuntime) (call : Call) : DarwinPsynchRuntime :=
  (runtime.step call).1

/-! ### The queues after a call -/

section Queues
variable {runtime : DarwinPsynchRuntime} {expired : Nat → Bool} {key : QueueKey}

@[simp] theorem setQueue_queues (own : QueueKey) (queue : QueueState) :
    (runtime.setQueue own queue).queues key = if own = key then queue else runtime.queues key := by
  simp only [setQueue, Function.update_apply, eq_comm]

@[simp] theorem setResult_queues (thread : DarwinPsynchThread) (result : Option Word) :
    (runtime.setResult thread result).queues = runtime.queues := rfl

@[simp] theorem completeWaits_queues (completions : List Completion) :
    (runtime.completeWaits completions).queues = runtime.queues := by
  unfold completeWaits
  induction completions generalizing runtime with
  | nil => rfl
  | cons completion rest ih => exact ih

@[simp] theorem setQueue_results (own : QueueKey) (queue : QueueState) :
    (runtime.setQueue own queue).completedResults = runtime.completedResults := rfl

variable (runtime)

/-- Pruning spares the queue of a private object, and that of a backing that is alive. -/
theorem sharedOperation_queues (live : key.expired expired = false) (object : DarwinPsynchObject) :
    (runtime.sharedOperation object expired).queues key = runtime.queues key := by
  unfold sharedOperation
  dsimp only
  split
  · split
    · simp [pruneExpiredSharedQueues, live]
    · rfl
  · rfl

/-- What a call does to its own queue, seen from any queue. -/
theorem setQueue_act (live : key.expired expired = false) (object : DarwinPsynchObject)
    (own : QueueKey) (act : QueueState → QueueState) :
    ((runtime.sharedOperation object expired).setQueue own
        (act ((runtime.sharedOperation object expired).queues own))).queues key =
      if own = key then act (runtime.queues key) else runtime.queues key := by
  rw [setQueue_queues]
  split
  · rename_i same
    rw [same, sharedOperation_queues _ live]
  · exact sharedOperation_queues _ live object

theorem dropMutex_queues (live : key.expired expired = false) (processId : Word)
    (drop : MutexDrop) (flags : Word) :
    (runtime.dropMutex expired processId drop flags).1.queues key =
      if objectKey processId drop.object .mutex = key then
        ((runtime.queues key).dropMutex drop.lockGeneration drop.unlockGeneration
          (flags &&& firstFitPolicy ≠ 0)).1
      else runtime.queues key := by
  unfold dropMutex
  simp only [completeWaits_queues]
  exact setQueue_act _ live drop.object _ fun queue => (queue.dropMutex _ _ _).1

theorem dropMutex_woken (live : key.expired expired = false) {processId : Word}
    {drop : MutexDrop} (flags : Word) (own : objectKey processId drop.object .mutex = key) :
    (runtime.dropMutex expired processId drop flags).2.wokenThreads =
      woken ((runtime.queues key).dropMutex drop.lockGeneration drop.unlockGeneration
        (flags &&& firstFitPolicy ≠ 0)).2.2 := by
  unfold dropMutex
  simp only [own, sharedOperation_queues _ live]

theorem waitRwlock_queues (live : key.expired expired = false) (thread : DarwinPsynchThread)
    (object : DarwinPsynchObject) (lockGeneration sequenceWord : Word)
    (kind : DarwinPsynchWaitKind) :
    (runtime.waitRwlock expired thread object lockGeneration sequenceWord kind).1.queues key =
      if objectKey thread.processId object .rwLock = key then
        ((runtime.queues key).waitRwlock thread lockGeneration sequenceWord kind).1
      else runtime.queues key := by
  have own := setQueue_act runtime live object
    (objectKey thread.processId object .rwLock)
    fun queue => (queue.waitRwlock thread lockGeneration sequenceWord kind).1
  unfold waitRwlock
  dsimp only
  split
  · exact own
  · exact own
  · split
    · simpa only [setResult_queues, completeWaits_queues] using own
    · simpa only [completeWaits_queues] using own

theorem unlockRwlock_queues (live : key.expired expired = false) (processId : Word)
    (object : DarwinPsynchObject) (lockGeneration unlockGeneration sequenceWord : Word) :
    (runtime.unlockRwlock expired processId object lockGeneration unlockGeneration
        sequenceWord).1.queues key =
      if objectKey processId object .rwLock = key then
        ((runtime.queues key).unlockRwlock lockGeneration unlockGeneration sequenceWord).1
      else runtime.queues key := by
  have own := setQueue_act runtime live object (objectKey processId object .rwLock)
    fun queue => (queue.unlockRwlock lockGeneration unlockGeneration sequenceWord).1
  unfold unlockRwlock
  dsimp only
  split
  · exact own
  · exact own
  · simpa only [completeWaits_queues] using own

end Queues

end DarwinPsynchRuntime

theorem expired_of_private {key : QueueKey} (unshared : key.processShared = false)
    (expired : Nat → Bool) : key.expired expired = false := by
  simp [QueueKey.expired, unshared]

@[simp] theorem objectKey_family (processId : Word) (object : DarwinPsynchObject)
    (family : QueueFamily) : (objectKey processId object family).family = family := rfl

theorem objectKey_ne {processId : Word} {object : DarwinPsynchObject} {family : QueueFamily}
    {key : QueueKey} (other : family ≠ key.family) : objectKey processId object family ≠ key := by
  rintro rfl
  exact other rfl

end ILEmu.Bsd.Psynch
