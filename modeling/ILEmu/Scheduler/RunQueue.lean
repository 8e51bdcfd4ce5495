import ILEmu.Scheduler.Types

/-! Priority-bitmap, FIFO and deadline run queues. A record is passed beside the
scheduler while it is being changed and stored back when an operation ends. -/
namespace ILEmu
open Foundation Xnu.Scheduler

abbrev Checked (α : Type) := Except Fault α

namespace RunQueue

/-- Add a thread to one bucket and to every summary of the bucket. -/
def link (q : RunQueue) (thread : XnuThreadId) (priority : Int) (position : QueuePosition)
    (key : Option RealtimeQueueKey) : RunQueue :=
  let i := priority.toNat
  { queues := Function.update q.queues i
      (match position with
        | .front => thread :: q.queues i
        | .back => q.queues i ++ [thread])
    counts := Function.update q.counts i (q.counts i + 1)
    realtimeOrder := match key with
      | some key => insert key q.realtimeOrder
      | none => q.realtimeOrder
    bitmap := q.bitmap.set i
    highQueue := max q.highQueue priority
    count := q.count + 1 }

def refreshHighQueue (q : RunQueue) : RunQueue :=
  { q with highQueue := match q.bitmap.highest with
      | some i => i
      | none => -1 }

/-- Drop a bucket that has just become empty from the bitmap. -/
def retireBucket (q : RunQueue) (priority : Int) : RunQueue :=
  if (q.queues priority.toNat).isEmpty then
    let q := { q with bitmap := q.bitmap.clear priority.toNat }
    if priority = q.highQueue then q.refreshHighQueue else q
  else q

def orderWithout (q : RunQueue) : Option RealtimeQueueKey → Finset RealtimeQueueKey
  | some key => q.realtimeOrder.erase key
  | none => q.realtimeOrder

def unlink (q : RunQueue) (thread : XnuThreadId) (priority : Int)
    (key : Option RealtimeQueueKey) : Checked RunQueue := do
  let i := priority.toNat
  let count ← decrement .underflow q.count
  let bucket ← decrement .underflow (q.counts i)
  return RunQueue.retireBucket
    { q with
      queues := Function.update q.queues i ((q.queues i).erase thread)
      counts := Function.update q.counts i bucket
      realtimeOrder := q.orderWithout key
      count } priority

end RunQueue

namespace XnuScheduler

/-- The processor-set queue, or the queue of one processor. -/
def runQueueAt (s : XnuScheduler) : Option Nat → Option RunQueue
  | none => some s.processorSetRunQueue
  | some processor => s.processorRunQueues[processor]?

def withRunQueue (s : XnuScheduler) (place : Option Nat) (q : RunQueue) : XnuScheduler :=
  match place with
  | none => { s with processorSetRunQueue := q }
  | some processor => { s with processorRunQueues := s.processorRunQueues.set processor q }

def store (s : XnuScheduler) (record : ThreadRecord) : XnuScheduler :=
  { s with threads := s.threads.insert record.id record }

/-- The ordering key of a record that enters a realtime bucket. -/
def realtimeKey (record : ThreadRecord) (sequence : Nat) : Option RealtimeQueueKey :=
  if record.info.realtime ∧ realtimeQueuePriority ≤ record.info.scheduledPriority then
    some ⟨record.info.realtimeDeadline, sequence, record.id⟩
  else none

def enqueue (s : XnuScheduler) (record : ThreadRecord) (position : QueuePosition) :
    Checked (XnuScheduler × ThreadRecord) :=
  if record.queued then .ok (s, record)
  else
    let priority := record.info.scheduledPriority
    let place := record.info.boundProcessor
    match s.runQueueAt place with
    | none => .error .outOfRange
    | some runQueue =>
      let sequence := s.nextEnqueueSequence
      let key := realtimeKey record sequence
      let position' := if key.isSome then .back else position
      .ok ({ s.withRunQueue place (runQueue.link record.id priority position' key) with
              nextEnqueueSequence := (sequence + 1) % 2 ^ 64
              runnableCount := s.runnableCount + 1 },
        { record with
          enqueueSequence := sequence
          -- aging can move a queued thread without executing it
          runnableEnqueueSequence :=
            if record.runnableEnqueueSequence = 0 then (sequence + 1) % 2 ^ 64
            else record.runnableEnqueueSequence
          realtimeQueueKey := key.or record.realtimeQueueKey
          queued := true
          queuedPriority := priority
          frontContinuation := position == .front
          queuedProcessor := place
          enqueuedAt :=
            if s.dispatchDiagnosticsEnabled ∧ record.enqueuedAt = 0 then s.steadyClock
            else record.enqueuedAt })

def removeFromQueue (s : XnuScheduler) (record : ThreadRecord) :
    Checked (XnuScheduler × ThreadRecord) :=
  if record.queued then
    match s.runQueueAt record.queuedProcessor with
    | none => .error .outOfRange
    | some runQueue => do
      let runQueue ← runQueue.unlink record.id record.queuedPriority record.realtimeQueueKey
      let count ← decrement .underflow s.runnableCount
      return ({ s.withRunQueue record.queuedProcessor runQueue with runnableCount := count },
        { record with queued := false, queuedProcessor := none, realtimeQueueKey := none })
  else .ok (s, record)

def peekHighest (s : XnuScheduler) (q : RunQueue) : Checked ThreadRecord :=
  if q.count = 0 ∨ q.highQueue < minimumPriority then .error (.logicError .emptyRunQueue)
  else if realtimeQueuePriority ≤ q.highQueue then
    match first q.realtimeOrder with
    | none => .error (.logicError .realtimeIndexInconsistent)
    | some key =>
      match s.threads.lookup key.thread with
      | none => .error (.logicError .realtimeIndexInconsistent)
      | some record =>
        if record.queued ∧ record.queuedPriority = q.highQueue then .ok record
        else .error (.logicError .realtimeIndexInconsistent)
  else
    match q.queues q.highQueue.toNat with
    | [] => .error (.logicError .bitmapInconsistent)
    | thread :: _ =>
      match s.threads.lookup thread with
      | none => .error .dangling
      | some record => .ok record

def candidateForQueue (s : XnuScheduler) (q : RunQueue) (isLocal : Bool) :
    Checked (Option QueueCandidate) :=
  if q.count = 0 then .ok none
  else do
    let record ← s.peekHighest q
    if record.queued ∧ record.queuedPriority = q.highQueue ∧
        record.queuedProcessor.isSome = isLocal then
      return some
        { thread := record.id
          priority := record.info.scheduledPriority
          realtimeDeadline := record.info.realtimeDeadline
          enqueueSequence := record.enqueueSequence
          realtime := record.info.realtime
          frontContinuation := record.frontContinuation
          isLocal }
    else throw (.logicError .candidateInconsistent)

def candidateIsBetter (left right : QueueCandidate) : Bool :=
  if left.priority ≠ right.priority then right.priority < left.priority
  else if left.realtime ≠ right.realtime then left.realtime
  else if left.realtime ∧ left.realtimeDeadline ≠ right.realtimeDeadline then
    left.realtimeDeadline < right.realtimeDeadline
  -- a thread that owns the rest of its quantum keeps its place in the joint order
  else if left.frontContinuation ≠ right.frontContinuation then left.frontContinuation
  else if left.enqueueSequence ≠ right.enqueueSequence then
    left.enqueueSequence < right.enqueueSequence
  else if left.isLocal ≠ right.isLocal then left.isLocal
  else left.thread < right.thread

def selectedRunQueue (s : XnuScheduler) (processor : Nat) : Checked (Option RunQueue) :=
  match s.processorRunQueues[processor]? with
  | none => .ok none
  | some localRunQueue => do
    let own ← s.candidateForQueue localRunQueue true
    let shared ← s.candidateForQueue s.processorSetRunQueue false
    return match own, shared with
      | none, none => none
      | none, some _ => some s.processorSetRunQueue
      | some _, none => some localRunQueue
      | some own, some shared =>
        if candidateIsBetter own shared then some localRunQueue
        else some s.processorSetRunQueue

def peekNextForProcessor (s : XnuScheduler) (processor : Nat) : Checked (Option XnuThreadId) := do
  match ← s.selectedRunQueue processor with
  | none => return none
  | some q =>
    let record ← s.peekHighest q
    return some record.id

end XnuScheduler
end ILEmu
