import ILEmu.Scheduler.Time

/-! Thread registration, removal and exec, wakeups, blocking and holds. -/
namespace ILEmu
open Foundation Xnu.Scheduler
namespace XnuScheduler

/-- The order in which an unordered container is visited is unspecified: any
rearrangement of its contents may be given, anything else falls back to insertion order. -/
def iterationOrder (order owned : List XnuThreadId) : List XnuThreadId :=
  if order.isPerm owned then order else owned

def ownedThreads (s : XnuScheduler) (process : Nat) : List XnuThreadId :=
  (s.processThreads.lookup process).getD []

/-- `process_threads_[thread.process].insert(thread)` and the two per-process entries. -/
def adopt (s : XnuScheduler) (thread : XnuThreadId) : XnuScheduler :=
  let owned := s.ownedThreads thread.process
  { s with
    processThreads := s.processThreads.insert thread.process
      (if thread ∈ owned then owned else owned ++ [thread])
    processRunnableCounts :=
      if (s.processRunnableCounts.lookup thread.process).isSome then s.processRunnableCounts
      else s.processRunnableCounts.insert thread.process 0
    taskHistory :=
      if (s.taskHistory.lookup thread.process).isSome then s.taskHistory
      else s.taskHistory.insert thread.process {} }

def freshRecord (s : XnuScheduler) (thread : XnuThreadId) (basePriority : Int) : ThreadRecord :=
  let base := clampPriority basePriority
  { id := thread
    info := {
      basePriority := base
      scheduledPriority := base
      remainingQuantum := s.quantumTicks
      schedulerStamp := s.schedulerTick }
    legacyBasePriority := base
    taskQos := (s.taskQosPolicies.lookup thread.process).getD {} }

def registerThread (s : XnuScheduler) (thread : XnuThreadId) (basePriority : Int)
    (runnable : Bool) : Checked (XnuScheduler × Bool) :=
  if (s.threads.lookup thread).isSome then .ok (s, false)
  else do
    let (s, record) ← s.recomputePriority (s.freshRecord thread basePriority)
    let s := s.adopt thread
    if runnable then do
      let (s, record) ← s.transitionState record .runnable
      let (s, record) ← s.enqueue record.beginRunnableGeneration .back
      return (s.store record, true)
    else return (s.enterWaiting.store record, true)

def unindexThread (s : XnuScheduler) (record : ThreadRecord) : XnuScheduler :=
  let s := (s.unindexDepression record).unindexFailsafe record
  let process := record.id.process
  match s.processThreads.lookup process with
  | none => s
  | some owned =>
    let rest := owned.erase record.id
    if rest.isEmpty then
      { s with
        processRunnableCounts := s.processRunnableCounts.erase process
        processThreads := s.processThreads.erase process }
    else { s with processThreads := s.processThreads.insert process rest }

/-- Credit a retired record's ticks to its task. -/
def retireTicks (s : XnuScheduler) (record : ThreadRecord) (pendingTicks : Nat) :
    Checked XnuScheduler :=
  match s.taskHistory.lookup record.id.process with
  | none => .error .outOfRange
  | some history =>
    let retired := saturatingAdd history.terminatedUserTicks
      (saturatingAdd record.userTicks pendingTicks)
    let history := { history with terminatedUserTicks := retired }
    .ok { s with taskHistory := s.taskHistory.insert record.id.process history }

/-- Take a record that is about to be erased out of the per-state counts. -/
def retireState (s : XnuScheduler) (record : ThreadRecord) :
    Checked (XnuScheduler × ThreadRecord) :=
  if record.info.state = .waiting then do
    let s ← s.leaveWaiting
    return (s, record)
  else s.transitionState record .waiting

def removeRecord (s : XnuScheduler) (record : ThreadRecord) (pendingTicks : Nat) :
    Checked XnuScheduler := do
  let (s, record) ← s.finishHostAwait record
  let (s, record) ← s.retireState record
  let s := s.releaseProcessorContext record
  let s ← s.retireTicks record pendingTicks
  let (s, record) ← s.removeFromQueue record
  let s := s.unindexThread record
  let (s, record) ← s.untrackUsage record
  return { s with threads := s.threads.erase record.id }

def removeThread (s : XnuScheduler) (thread : XnuThreadId) (pendingTicks : Nat) :
    Checked (XnuScheduler × Bool) :=
  match s.threads.lookup thread with
  | none => .ok (s, false)
  | some record => do
    let s ← s.removeRecord record pendingTicks
    return (s, true)

def removeThreads (s : XnuScheduler) (threads : List XnuThreadId)
    (pendingTicks : XnuThreadId → Nat) : Checked XnuScheduler :=
  threads.foldlM (fun s thread => do
    let (s, _) ← s.removeThread thread (pendingTicks thread)
    return s) s

def forgetProcess (s : XnuScheduler) (process : Nat) : XnuScheduler :=
  { s with
    taskHistory := s.taskHistory.erase process
    taskQosPolicies := s.taskQosPolicies.erase process }

def removeProcess (s : XnuScheduler) (process : Nat) (order : List XnuThreadId) :
    Checked (XnuScheduler × Nat) :=
  match s.processThreads.lookup process with
  | none => .ok (s.forgetProcess process, 0)
  | some owned => do
    let threads := iterationOrder order owned
    let s ← s.removeThreads threads fun _ => 0
    return (s.forgetProcess process, threads.length)

/-- Put the caller's processor context back on the record that replaces it. -/
def reinstall (s : XnuScheduler) (survivor : XnuThreadId) (userTicks : Nat)
    (processor : Option Nat) : Checked XnuScheduler :=
  match s.threads.lookup survivor with
  | none => .error .outOfRange
  | some record =>
    let record := { record with userTicks }
    match processor with
    | none => .ok (s.store record)
    | some processor =>
      .ok ({ s with processorContexts := s.processorContexts.set processor (some survivor) }.store
        { record with info.lastProcessor := some processor })

def replaceProcessThreads (s : XnuScheduler) (survivor : XnuThreadId) (basePriority : Int)
    (pendingTicks : XnuThreadId → Nat) (order : List XnuThreadId) :
    Checked (XnuScheduler × Bool) :=
  match s.threads.lookup survivor with
  | none => .ok (s, false)
  | some current =>
    -- exec retains its caller's CPU history and retires the other threads
    let installed := current.info.lastProcessor.filter fun processor =>
      s.processorContexts[processor]? = some (some survivor)
    let s := s.store { current with userTicks := 0 }
    match s.processThreads.lookup survivor.process with
    | none => .error .outOfRange
    | some owned => do
      let s ← s.removeThreads (iterationOrder order owned) fun thread =>
        if thread ≠ survivor then pendingTicks thread else 0
      let (s, _) ← s.registerThread survivor basePriority true
      let s ← s.reinstall survivor current.userTicks installed
      return (s, true)

def refill (s : XnuScheduler) (record : ThreadRecord) : ThreadRecord :=
  { record with
    info.remainingQuantum := s.quantumFor record
    info.computationMetered := 0 }

/-- A thread that waited starts a new quantum, and a realtime thread a new constraint. -/
def startQuantum (s : XnuScheduler) (record : ThreadRecord) : ThreadRecord :=
  let record := s.refill record
  if record.info.realtime then
    { record with info.realtimeDeadline :=
        saturatingAdd s.realtimeClockTicks record.info.realtimeConstraint }
  else record

def makeRunnableRecord (s : XnuScheduler) (record : ThreadRecord) :
    Checked (XnuScheduler × ThreadRecord) := do
  let hostContinuation := record.hostAwait
  let (s, record) ← s.finishHostAwait record
  if record.suspendCount ≠ 0 then return (s, { record with resumeRunnable := true })
  else if record.info.state = .running ∨ record.queued then return (s, record)
  else do
    let s ← s.leaveWaitingOf record
    let (s, record) ← s.transitionState record .runnable
    let record := record.beginRunnableGeneration
    s.enqueue (if hostContinuation then record else s.startQuantum record) .back

def makeRunnable (s : XnuScheduler) (thread : XnuThreadId) : Checked (XnuScheduler × Bool) :=
  match s.threads.lookup thread with
  | none => .ok (s, false)
  | some record => do
    let (s, record) ← s.makeRunnableRecord record
    return (s.store record, true)

/-- A hold keeps the wakeup for the time it is released. -/
def keepWake (record : ThreadRecord) : ThreadRecord :=
  if record.suspendCount ≠ 0 then { record with resumeRunnable := true } else record

def wakeThread (s : XnuScheduler) (thread : XnuThreadId) :
    Checked (XnuScheduler × XnuThreadWakeResult) :=
  match s.threads.lookup thread with
  | none => .ok (s, {})
  | some record =>
    -- guest events cannot complete a host implementation ticket
    if record.hostAwait then .ok (s, { handled := true })
    else if record.executionPending then
      let record := keepWake record
      if record.wakePending then .ok (s.store record, { handled := true })
      else
        .ok (s.store { record with wakePending := true },
          { handled := true, preemptionNeeded := record.suspendCount = 0 })
    else if record.queued ∨ record.suspendCount ≠ 0 then
      .ok (s.store (keepWake record), { handled := true })
    else do
      let (s, made) ← s.makeRunnable thread
      return (s, { handled := made, preemptionNeeded := made })

/-- Take a record off its queue and into the waiting state. -/
def park (s : XnuScheduler) (record : ThreadRecord) : Checked (XnuScheduler × ThreadRecord) := do
  let (s, record) ← s.removeFromQueue record
  s.transitionState { record with enqueuedAt := 0 } .waiting

def blockRecord (s : XnuScheduler) (record : ThreadRecord) :
    Checked (XnuScheduler × ThreadRecord) := do
  let record := { record with hostResumeAllowed := false }
  let (s, record) ← s.finishHostAwait record
  let s := if record.executionPending then s else s.releaseProcessorContext record
  let wasWaiting := record.info.state = .waiting
  let (s, record) ← s.park record
  let s := if wasWaiting then s else s.enterWaiting
  let record := s.refill record
  return (s, if record.suspendCount ≠ 0 then { record with resumeRunnable := false } else record)

def block (s : XnuScheduler) (thread : XnuThreadId) : Checked (XnuScheduler × Bool) :=
  match s.threads.lookup thread with
  | none => .ok (s, false)
  | some record => do
    let (s, record) ← s.blockRecord record
    return (s.store record, true)

/-- The first hold takes a thread to the waiting state, wherever it is. -/
def enterHold (s : XnuScheduler) (record : ThreadRecord) :
    Checked (XnuScheduler × ThreadRecord) :=
  if record.info.state = .waiting then .ok (s, record)
  else do
    let s := if record.executionPending then s else s.releaseProcessorContext record
    let (s, record) ← s.park record
    return (s.enterWaiting, record)

def suspendThread (s : XnuScheduler) (thread : XnuThreadId) (reason : XnuThreadSuspension) :
    Checked (XnuScheduler × Bool) :=
  match s.threads.lookup thread with
  | none => .ok (s, false)
  | some record =>
    if record.suspendCount = uint32Max then .ok (s, false)
    else
      let held := { record with
        hostResumeAllowed := false
        suspensionCounts := Function.update record.suspensionCounts reason
          (record.suspensionCounts reason + 1)
        suspendCount := record.suspendCount + 1 }
      if record.suspendCount ≠ 0 then .ok (s.store held, true)
      else do
        let (s, held) ← s.enterHold { held with resumeRunnable := record.info.state.isRunnable }
        return (s.store held, true)

/-- The last hold is gone: a thread held while runnable, or woken meanwhile, is
queued, and one held during a host wait goes back to it. -/
def leaveHold (s : XnuScheduler) (record : ThreadRecord) :
    Checked (XnuScheduler × ThreadRecord) :=
  if record.resumeRunnable then do
    let s ← s.leaveWaiting
    let (s, record) ← s.transitionState { record with resumeRunnable := false } .runnable
    s.enqueue (s.refill record.beginRunnableGeneration) .back
  else if record.hostAwait then do
    let s ← s.leaveWaiting
    s.transitionState record .hostAwait
  else .ok (s, record)

def resumeThread (s : XnuScheduler) (thread : XnuThreadId) (reason : XnuThreadSuspension) :
    Checked (XnuScheduler × Bool) :=
  match s.threads.lookup thread with
  | none => .ok (s, false)
  | some record =>
    if record.suspensionCounts reason = 0 then .ok (s, false)
    else do
      let reasonCount ← decrement .underflow (record.suspensionCounts reason)
      let suspendCount ← decrement .underflow record.suspendCount
      let record := { record with
        suspensionCounts := Function.update record.suspensionCounts reason reasonCount
        suspendCount }
      if record.suspendCount ≠ 0 then return (s.store record, true)
      else do
        let (s, record) ← s.leaveHold record
        return (s.store record, true)

/-- Apply an operation to every thread of a process, counting the threads it changed. -/
def overProcess (s : XnuScheduler) (process : Nat) (order : List XnuThreadId)
    (f : XnuScheduler → XnuThreadId → Checked (XnuScheduler × Bool)) :
    Checked (XnuScheduler × Nat) :=
  match s.processThreads.lookup process with
  | none => .ok (s, 0)
  | some owned =>
    (iterationOrder order owned).foldlM (fun (s, changed) thread => do
      let (s, applied) ← f s thread
      return (s, if applied then changed + 1 else changed)) (s, 0)

def suspendProcess (s : XnuScheduler) (process : Nat) (order : List XnuThreadId) :
    Checked (XnuScheduler × Nat) :=
  s.overProcess process order fun s thread => s.suspendThread thread .process

def resumeProcess (s : XnuScheduler) (process : Nat) (order : List XnuThreadId) :
    Checked (XnuScheduler × Nat) :=
  s.overProcess process order fun s thread => s.resumeThread thread .process

end XnuScheduler
end ILEmu
