import ILEmu.Scheduler.Policy

/-! Dispatch: selection of the next thread and completion of its slice. -/
namespace ILEmu
open Foundation Xnu.Scheduler
namespace XnuScheduler

def timeshareQuanta (s : XnuScheduler) : Nat :=
  let processorCount := s.processorRunQueues.length
  let runQueueCount := s.processorSetRunQueue.count
  if processorCount ≤ runQueueCount then 1
  else if runQueueCount ≤ 1 then processorCount
  else (processorCount + runQueueCount / 2) / runQueueCount

/-- Charge the incoming thread's task for a context switch and install its context. -/
def switchContext (s : XnuScheduler) (record : ThreadRecord) (processor : Nat) :
    Checked XnuScheduler :=
  if s.processorContexts[processor]? = some (some record.id) then .ok s
  else
    match s.taskHistory.lookup record.id.process with
    | none => .error .outOfRange
    | some history =>
      let switched := { history with contextSwitches := (history.contextSwitches + 1) % 2 ^ 32 }
      let s := { s with taskHistory := s.taskHistory.insert record.id.process switched }
      let s := s.releaseProcessorContext record
      .ok { s with processorContexts := s.processorContexts.set processor (some record.id) }

def selectRecord (s : XnuScheduler) (processor : Nat) (preferred : Option XnuThreadId) :
    Checked (Option ThreadRecord) :=
  match preferred with
  | some thread =>
    match s.threads.lookup thread with
    | none => .ok none
    | some record =>
      if record.queued ∧ (record.info.boundProcessor = none ∨
          record.info.boundProcessor = some processor) then .ok (some record)
      else .ok none
  | none => do
    match ← s.selectedRunQueue processor with
    | none => return none
    | some q =>
      let record ← s.peekHighest q
      return some record

/-- What a record remembers of the processor it starts to run on. -/
def startSlice (s : XnuScheduler) (processor : Nat) (record : ThreadRecord) : ThreadRecord :=
  let record := { record with info.lastProcessor := some processor }
  let record :=
    if record.info.timeshare ∧ (record.info.remainingTimeslices = 0 ∨
        record.info.timesliceProcessor ≠ some processor) then
      { record with
        info.remainingTimeslices := s.timeshareQuanta
        info.timesliceProcessor := some processor }
    else record
  { record with
    priorityUsageShift := s.processorSetPriorityShift record
    enqueuedAt := 0 }

/-- Take a queued record off its queue and make it the processor's running thread. -/
def dispatchRecord (s : XnuScheduler) (processor : Nat) (record : ThreadRecord) :
    Checked (XnuScheduler × XnuScheduledSlice) := do
  let runnableSince := record.enqueuedAt
  let frontContinuation := record.frontContinuation
  let (s, record) ← s.removeFromQueue record
  let (s, record) ← s.restoreDepression record
  let (s, record) ← s.transitionState record .running
  let (s, record) := s.trackUsage { record with executionPending := true }
  let s ← s.switchContext record processor
  let record := s.startSlice processor record
  return (s.store record,
    { thread := record.id
      processor
      tickBudget := record.info.remainingQuantum
      runnableSince
      runnableGeneration := record.runnableGeneration
      frontContinuation })

def chooseNext (s : XnuScheduler) (processor : Nat) (preferred : Option XnuThreadId) :
    Checked (XnuScheduler × Option XnuScheduledSlice) :=
  if s.processorRunQueues.length ≤ processor then .ok (s, none)
  else do
    match ← s.selectRecord processor preferred with
    | none => return (s, none)
    | some record => do
      let (s, slice) ← s.dispatchRecord processor record
      return (s, some slice)

/-- The accounting every completed slice starts with. -/
def chargeSlice (record : ThreadRecord) (consumedTicks : Nat) : ThreadRecord :=
  { record with
    executionPending := false
    info.schedulingUsage :=
      if record.priorityUsageShift.isSome ∧ record.info.timeshare then
        saturatingAdd record.info.schedulingUsage consumedTicks
      else record.info.schedulingUsage
    info.cpuUsage := saturatingAdd record.info.cpuUsage consumedTicks
    userTicks := saturatingAdd record.userTicks consumedTicks
    info.remainingQuantum :=
      record.info.remainingQuantum - min record.info.remainingQuantum consumedTicks
    info.computationMetered :=
      if record.info.timeshare then record.info.computationMetered
      else saturatingAdd record.info.computationMetered consumedTicks }

def endTimeslices (record : ThreadRecord) : ThreadRecord :=
  { record with info.remainingTimeslices := 0, info.timesliceProcessor := none }

/-- A concurrent hold continues to own the waiting state. -/
def enterHostAwait (s : XnuScheduler) (record : ThreadRecord) :
    Checked (XnuScheduler × ThreadRecord) :=
  if record.suspendCount = 0 then do
    let s ← s.leaveWaitingOf record
    s.transitionState record .hostAwait
  else .ok (s, record)

/-- `XnuSliceCompletion::HostAwait` -/
def awaitHost (s : XnuScheduler) (record : ThreadRecord) :
    Checked (XnuScheduler × ThreadRecord) := do
  let hostResumeAllowed := record.info.remainingQuantum ≠ 0 ∧ record.suspendCount = 0 ∧
    record.info.state = .running
  let s := if record.hostAwait then s else { s with hostAwaitCount := s.hostAwaitCount + 1 }
  let (s, record) ← s.removeFromQueue { record with
    hostResumeAllowed
    hostAwait := true
    wakePending := false
    resumeRunnable := false }
  let (s, record) ← s.enterHostAwait record
  if record.info.remainingQuantum = 0 then
    s.recomputePriority
      (endTimeslices { record with info.remainingQuantum := s.quantumFor record })
  else return (s, record)

/-- Only a completed guest wait may remove the runnable continuation. -/
def settleWait (s : XnuScheduler) (record : ThreadRecord) (completion : XnuSliceCompletion) :
    Checked (XnuScheduler × ThreadRecord) :=
  if completion = .block ∧ ¬record.wakePending then do
    let (s, record) ← s.blockRecord record
    return (s, endTimeslices record)
  else if record.wakePending then s.makeRunnableRecord record
  else .ok (s, record)

/-- A hold, possibly already released, changed the state while the slice was in flight. -/
def settleHeld (s : XnuScheduler) (record : ThreadRecord) (completion : XnuSliceCompletion) :
    Checked (XnuScheduler × ThreadRecord) := do
  let (s, record) ← s.settleWait record completion
  let s := if record.info.state = .waiting then s.releaseProcessorContext record else s
  return (s, { record with wakePending := false })

def settleBlock (s : XnuScheduler) (record : ThreadRecord) :
    Checked (XnuScheduler × ThreadRecord) :=
  if record.wakePending then do
    let (s, record) ← s.transitionState { record with wakePending := false } .runnable
    let record := record.beginRunnableGeneration
    s.enqueue (endTimeslices { record with info.remainingQuantum := s.quantumFor record }) .back
  else do
    let (s, record) ← s.transitionState record .waiting
    let s := (s.releaseProcessorContext record).enterWaiting
    return (s, endTimeslices { record with info.remainingQuantum := s.quantumFor record })

/-- Requeue a thread that goes on running. -/
def settleRunning (s : XnuScheduler) (record : ThreadRecord) (completion : XnuSliceCompletion) :
    Checked (XnuScheduler × ThreadRecord) := do
  let record := { record with wakePending := false }
  let quantumExpired := record.info.remainingQuantum = 0
  if completion = .hostCooperate ∧ ¬quantumExpired then do
    let (s, record) ← s.transitionState record .runnable
    s.enqueue record.beginRunnableGeneration .back
  else if completion = .yield ∨ quantumExpired then do
    let record :=
      if completion = .yield then { record with info.computationMetered := 0 } else record
    let (s, record) ← s.recomputePriority
      { record with info.remainingQuantum := s.quantumFor record }
    let (s, record) ← s.transitionState record .runnable
    let record := record.beginRunnableGeneration
    if completion ≠ .yield ∧ record.info.timeshare ∧ 1 < record.info.remainingTimeslices then
      s.enqueue { record with
        info.remainingTimeslices := record.info.remainingTimeslices - 1 } .front
    else s.enqueue (endTimeslices record) .back
  else do
    let (s, record) ← s.transitionState record .runnable
    s.enqueue record.beginRunnableGeneration .front

def settleSlice (s : XnuScheduler) (record : ThreadRecord) (completion : XnuSliceCompletion) :
    Checked (XnuScheduler × ThreadRecord) :=
  if completion = .hostAwait then s.awaitHost record
  else
    let record :=
      if completion ≠ .continue ∨ record.info.remainingQuantum = 0 then
        { record with hostResumeAllowed := false }
      else record
    if record.info.state ≠ .running then s.settleHeld record completion
    else if completion = .block then s.settleBlock record
    else s.settleRunning record completion

/-- A fixed-priority or realtime thread that overruns its quanta is demoted. -/
def meterSlice (s : XnuScheduler) (record : ThreadRecord) :
    Checked (XnuScheduler × ThreadRecord) :=
  if record.info.remainingQuantum = 0 ∧ ¬record.info.timeshare ∧
      maximumUnsafeQuanta * s.quantumTicks % 2 ^ 64 < record.info.computationMetered then
    s.applyFailsafe record
  else .ok (s, record)

def accountTime (s : XnuScheduler) (consumedTicks : Nat) : XnuTimeAccounting → Checked XnuScheduler
  | .advance => s.advanceSchedulerTime consumedTicks
  | .deferred => .ok s

def completeSlice (s : XnuScheduler) (thread : XnuThreadId) (consumedTicks : Nat)
    (completion : XnuSliceCompletion) (timeAccounting : XnuTimeAccounting) :
    Checked (XnuScheduler × Bool) :=
  match s.threads.lookup thread with
  | none => .ok (s, false)
  | some record =>
    if ¬record.executionPending then .ok (s, false)
    else do
      let (s, record) ← s.meterSlice (chargeSlice record consumedTicks)
      let s ← (s.store record).accountTime consumedTicks timeAccounting
      if completion = .terminate then s.removeThread thread 0
      else
        match s.threads.lookup thread with
        | none => throw .dangling
        | some record => do
          let (s, record) ← s.settleSlice record completion
          return (s.store record, true)

structure XnuTaskStatistics where
  terminatedUserTicks : Nat
  liveUserTicks : Nat := 0
  liveUserMicroseconds : Nat := 0
  ticksPerSecond : Nat
  contextSwitches : Nat
  deriving DecidableEq, Repr

/-- One thread's truncated microtime. -/
def userMicroseconds (s : XnuScheduler) (ticks : Nat) : Nat :=
  min (ticks / s.guestTicksPerSecond * microsecondsPerSecond +
    ticks % s.guestTicksPerSecond * microsecondsPerSecond / s.guestTicksPerSecond) uint64Max

def addLiveTicks (s : XnuScheduler) (pendingTicks : XnuThreadId → Nat)
    (result : XnuTaskStatistics) (thread : XnuThreadId) : Checked XnuTaskStatistics :=
  match s.threads.lookup thread with
  | none => .error .outOfRange
  | some record =>
    let ticks := saturatingAdd record.userTicks (pendingTicks thread)
    .ok { result with
      liveUserTicks := saturatingAdd result.liveUserTicks ticks
      liveUserMicroseconds :=
        saturatingAdd result.liveUserMicroseconds (s.userMicroseconds ticks) }

def taskStatistics (s : XnuScheduler) (process : Nat) (includeLive : Bool)
    (pendingTicks : XnuThreadId → Nat) (order : List XnuThreadId) :
    Checked (Option XnuTaskStatistics) :=
  match s.taskHistory.lookup process with
  | none => .ok none
  | some retired =>
    let result : XnuTaskStatistics :=
      { terminatedUserTicks := retired.terminatedUserTicks
        ticksPerSecond := s.guestTicksPerSecond
        contextSwitches := retired.contextSwitches }
    if ¬includeLive then .ok (some result)
    else
      match s.processThreads.lookup process with
      | none => .ok (some result)
      | some owned => do
        let result ← (iterationOrder order owned).foldlM (s.addLiveTicks pendingTicks) result
        return some result

end XnuScheduler
end ILEmu
