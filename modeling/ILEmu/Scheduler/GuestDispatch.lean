import ILEmu.Scheduler.RunnableQueries

/-! The dispatch policy above the scheduler: hints of the thread that runs next, each of them
bounded, and the turns that a passed-over thread is owed. -/
namespace ILEmu
open Foundation

/-- Facts of the simulator at one decision. Times are nanoseconds. -/
structure GuestDispatchObservation where
  now : Int
  debuggerThread : Option XnuThreadId := none
  explicitHandoffThread : Option XnuThreadId := none
  realtimeProcess : Option Nat := none
  realtimeCallbackThread : Option XnuThreadId := none
  realtimeReceiverThread : Option XnuThreadId := none
  realtimeYieldedThread : Option XnuThreadId := none
  realtimeInflightThread : Option XnuThreadId := none
  frameDependencyThread : Option XnuThreadId := none
  inputTargetThread : Option XnuThreadId := none
  inputReceiverProcess : Option Nat := none
  foregroundTransitionProcess : Option Nat := none
  activeProcess : Option Nat := none
  foregroundProcesses : List Nat := []
  interactionGeneration : Nat := 0
  realtimeNotificationPending : Bool := false
  realtimeWorkPending : Bool := false
  realtimeInflight : Bool := false
  realtimeLeaseActive : Bool := false

inductive GuestDispatchReason where
  | ordinary | debugger | explicitHandoff | realtimeYieldDependency | realtimeInflight
  | realtimeReceiver | realtimeCallback | realtimeDependency | inputTarget | foregroundTransition
  | inputProcess | interactiveProcess | frameDependency | hostContinuation | foregroundProcess
  deriving DecidableEq, Repr

structure GuestDispatchDecision where
  preferredThread : Option XnuThreadId := none
  reason : GuestDispatchReason := .ordinary
  explicitHandoffStale : Bool := false
  deriving DecidableEq, Repr

/-- The constructor throws on a period that is not positive. -/
structure ResponsePeriod where
  nanoseconds : Int
  positive : 0 < nanoseconds

namespace GuestDispatchPolicy

def preferredProcessBurstLimit : Nat := 3

/-- The bursts and the deadlines behind the hints. -/
structure Hints where
  realtimeBurstDeadline : Option Int := none
  interactionDeadline : Int := 0
  observedInteractionGeneration : Nat := 0
  inputProcess : Option Nat := none
  preferredProcess : Option Nat := none
  lastForegroundPreference : Option Nat := none
  preferredProcessBurst : Nat := 0
  inputTargetBurst : Nat := 0
  frameDependencyBurst : Nat := 0

structure PreferenceTurn where
  ordinaryHead : XnuThreadId
  deadline : Option Int
  bypasses : Nat := 0

/-- A hint changes the bursts also when it ends in an exception. -/
abbrev Hinting := EStateM Fault Hints

end GuestDispatchPolicy

structure GuestDispatchPolicy where
  responsePeriod : ResponsePeriod
  hints : GuestDispatchPolicy.Hints := {}
  preferenceTurns : List (List GuestDispatchPolicy.PreferenceTurn) := []

namespace GuestDispatchPolicy

def realtimeBurstPeriod (period : ResponsePeriod) : Int := period.nanoseconds

def interactionLease (period : ResponsePeriod) : Int := period.nanoseconds * 8

variable (period : ResponsePeriod) (scheduler : XnuScheduler)
  (observation : GuestDispatchObservation)

def runnable (thread : XnuThreadId) : Bool :=
  (scheduler.info thread).any (·.state = .runnable)

/-- The optionals that the source takes the value of are those of queued threads. -/
def outrankedByRunQueue (thread : XnuThreadId) : Checked Bool :=
  match scheduler.info thread with
  | none => .error .dangling
  | some info => do
    match ← scheduler.peekNextForProcessor (info.boundProcessor.getD 0) with
    | none => return false
    | some head =>
      match scheduler.info head with
      | none => throw .dangling
      | some first => return info.scheduledPriority < first.scheduledPriority

/-! ### Hints -/

def decideInteractiveProcess (process : Nat) (reason : GuestDispatchReason) :
    Hinting GuestDispatchDecision := do
  match scheduler.highestPriorityRunnableThread process with
  | none =>
    modify fun hints => { hints with preferredProcess := none, preferredProcessBurst := 0 }
    return {}
  | some candidate =>
    if reason = .foregroundProcess then
      if ← MonadExcept.ofExcept (outrankedByRunQueue scheduler candidate) then
        return {}
    modify fun hints =>
      if hints.preferredProcess ≠ some process then
        { hints with preferredProcess := some process, preferredProcessBurst := 0 }
      else hints
    if preferredProcessBurstLimit ≤ (← get).preferredProcessBurst then
      -- one selection goes back to the ordinary queue after every burst
      modify fun hints => { hints with preferredProcessBurst := 0 }
      return {}
    modify fun hints => { hints with preferredProcessBurst := hints.preferredProcessBurst + 1 }
    return { preferredThread := some candidate, reason }

def observeInteraction (hints : Hints) : Hints :=
  if observation.interactionGeneration ≠ 0 ∧
      observation.interactionGeneration ≠ hints.observedInteractionGeneration then
    { hints with
      observedInteractionGeneration := observation.interactionGeneration
      interactionDeadline := observation.now + interactionLease period
      inputProcess := observation.inputReceiverProcess }
  else hints

def direct (thread : Option XnuThreadId) (reason : GuestDispatchReason) :
    Hinting GuestDispatchDecision := do
  modify fun hints => { hints with preferredProcess := none, preferredProcessBurst := 0 }
  return { preferredThread := thread, reason }

def startRealtimeBurst (hints : Hints) : Hints :=
  if hints.realtimeBurstDeadline.isNone then
    { hints with realtimeBurstDeadline := some (observation.now + realtimeBurstPeriod period) }
  else hints

/-- The burst is over: its deadline is taken away, and the next burst sets another. -/
def realtimeBurstOver : Hinting Bool := do
  modify (startRealtimeBurst period observation)
  if (← get).realtimeBurstDeadline.any (· ≤ observation.now) then
    modify fun hints => { hints with realtimeBurstDeadline := none }
    return true
  return false

def realtime (thread : XnuThreadId) (reason : GuestDispatchReason) :
    Hinting GuestDispatchDecision := do
  if observation.activeProcess = some thread.process ∧
      (observation.foregroundTransitionProcess = none ∨
        observation.foregroundTransitionProcess = some thread.process) then
    -- the settled foreground owner keeps its callback
    modify fun hints => { hints with realtimeBurstDeadline := none }
    direct (some thread) reason
  else if ← realtimeBurstOver period observation then
    match scheduler.oldestRunnableThreadExcept (some thread) with
    | some dependency => direct (some dependency) .realtimeDependency
    | none => direct none .ordinary
  else direct (some thread) reason

/-! Each of these is one source of hints. A source that has none leaves the decision to the
next. -/

def inputTarget : Hinting (Option GuestDispatchDecision) := do
  match observation.inputTargetThread.filter (runnable scheduler) with
  | none =>
    modify fun hints => { hints with inputTargetBurst := 0 }
    return none
  | some thread =>
    modify fun hints =>
      { hints with
        inputProcess := some thread.process
        interactionDeadline := observation.now + interactionLease period
        inputTargetBurst := hints.inputTargetBurst + 1 }
    let burst := (← get).inputTargetBurst
    if burst ≤ preferredProcessBurstLimit then
      return some (← direct (some thread) .inputTarget)
    if burst = preferredProcessBurstLimit + 1 then
      -- the callback can wait for work of another thread of its process
      if let some dependency := scheduler.oldestRunnableThread thread.process (some thread) then
        return some (← direct (some dependency) .inputProcess)
    modify fun hints => { hints with inputTargetBurst := 0 }
    return some (← direct none .ordinary)

def frameDependency : Hinting (Option GuestDispatchDecision) := do
  if let some thread := observation.frameDependencyThread.filter (runnable scheduler) then
    modify fun hints => { hints with frameDependencyBurst := hints.frameDependencyBurst + 1 }
    if (← get).frameDependencyBurst ≤ preferredProcessBurstLimit then
      return some (← direct (some thread) .frameDependency)
  modify fun hints => { hints with frameDependencyBurst := 0 }
  return none

/-- Without a foreground owner the oldest thread has a turn once in a period. -/
def unownedForeground : Hinting (Option GuestDispatchDecision) := do
  if observation.activeProcess.isNone then
    if ← realtimeBurstOver period observation then
      match scheduler.oldestRunnableThreadExcept with
      | some dependency => return some (← direct (some dependency) .foregroundTransition)
      | none => return some (← direct none .ordinary)
  return none

def yieldDependency : Hinting (Option GuestDispatchDecision) := do
  match observation.realtimeYieldedThread, observation.realtimeProcess with
  | some yielded, some process =>
    if observation.realtimeWorkPending then
      if let some dependency := scheduler.highestPriorityRunnableThread process (some yielded) then
        return some (← realtime period scheduler observation dependency .realtimeYieldDependency)
    return none
  | _, _ => return none

/-- A runnable thread that has not yielded. -/
def unyielded (thread : Option XnuThreadId) : Option XnuThreadId :=
  thread.filter fun thread =>
    observation.realtimeYieldedThread ≠ some thread && runnable scheduler thread

def inflight : Hinting (Option GuestDispatchDecision) := do
  if observation.realtimeInflight then
    if let some thread := unyielded scheduler observation observation.realtimeInflightThread then
      -- locality, and no gift of priority
      if ← MonadExcept.ofExcept (outrankedByRunQueue scheduler thread) then
        return some (← direct none .ordinary)
      return some (← realtime period scheduler observation thread .realtimeInflight)
  return none

def receiver : Hinting (Option GuestDispatchDecision) := do
  if observation.realtimeNotificationPending then
    if let some thread := unyielded scheduler observation observation.realtimeReceiverThread then
      return some (← realtime period scheduler observation thread .realtimeReceiver)
  return none

def callback : Hinting (Option GuestDispatchDecision) := do
  if let some thread := unyielded scheduler observation observation.realtimeCallbackThread then
    return some (← realtime period scheduler observation thread .realtimeCallback)
  return none

/-- The scheduler knows the thread, and it cannot run. -/
def stopped (thread : XnuThreadId) : Bool :=
  (scheduler.info thread).any (·.state ≠ .runnable)

def callbackDependency : Hinting (Option GuestDispatchDecision) := do
  match observation.realtimeCallbackThread, observation.realtimeProcess with
  | some thread, some process =>
    if (observation.realtimeNotificationPending || observation.realtimeLeaseActive) &&
        stopped scheduler thread then
      if let some receiver := observation.realtimeReceiverThread.filter (runnable scheduler) then
        return some (← realtime period scheduler observation receiver .realtimeReceiver)
      if let some dependency := scheduler.highestPriorityRunnableThread process (some thread) then
        return some (← realtime period scheduler observation dependency .realtimeDependency)
    return none
  | _, _ => return none

def inflightDependency : Hinting (Option GuestDispatchDecision) := do
  match observation.realtimeInflightThread, observation.realtimeProcess with
  | some thread, some process =>
    if observation.realtimeInflight && stopped scheduler thread then
      if let some dependency := scheduler.highestPriorityRunnableThread process (some thread) then
        return some (← realtime period scheduler observation dependency .realtimeDependency)
    return none
  | _, _ => return none

/-- From here on no hint is of the realtime chain. -/
def foregroundTransition : Hinting (Option GuestDispatchDecision) := do
  if observation.activeProcess.isSome then
    modify fun hints => { hints with realtimeBurstDeadline := none }
  match observation.foregroundTransitionProcess with
  | none => return none
  | some process =>
    return some (← decideInteractiveProcess scheduler process .foregroundTransition)

def interaction : Hinting (Option GuestDispatchDecision) := do
  let hints ← get
  match hints.inputProcess with
  | none => return none
  | some process =>
    if observation.now < hints.interactionDeadline then
      if (scheduler.highestPriorityRunnableThread process).isSome then
        return some (← decideInteractiveProcess scheduler process .inputProcess)
      modify fun hints => { hints with inputProcess := none }
    return none

/-- The processes in the order of their turns, the one after the last preferred first. -/
def foregroundOrder (last : Option Nat) : List Nat :=
  let foreground := observation.foregroundProcesses
  match last.bind foreground.idxOf? with
  | none => foreground
  | some previous => foreground.rotate (previous + 1)

def foreground : Hinting (Option GuestDispatchDecision) := do
  let order := foregroundOrder observation (← get).lastForegroundPreference
  match order.find? fun process => (scheduler.highestPriorityRunnableThread process).isSome with
  | none => return none
  | some process =>
    return some (← decideInteractiveProcess scheduler process .foregroundProcess)

def activeProcess : Hinting (Option GuestDispatchDecision) := do
  match observation.activeProcess with
  | none => return none
  | some process =>
    if observation.now < (← get).interactionDeadline then
      return some (← decideInteractiveProcess scheduler process .interactiveProcess)
    return none

/-- The sources in the order in which they are asked. -/
def sources : List (Hinting (Option GuestDispatchDecision)) :=
  [inputTarget period scheduler observation, frameDependency scheduler observation,
    unownedForeground period scheduler observation, yieldDependency period scheduler observation,
    inflight period scheduler observation, receiver period scheduler observation,
    callback period scheduler observation, callbackDependency period scheduler observation,
    inflightDependency period scheduler observation, foregroundTransition scheduler observation,
    interaction scheduler observation, foreground scheduler observation,
    activeProcess scheduler observation]

def ask : List (Hinting (Option GuestDispatchDecision)) → Hinting GuestDispatchDecision
  | [] => direct none .ordinary
  | source :: rest => do
    match ← source with
    | some decision => return decision
    | none => ask rest

def decideHint : Hinting GuestDispatchDecision := do
  modify (observeInteraction period observation)
  match observation.debuggerThread with
  | some thread => direct (some thread) .debugger
  | none =>
    match observation.explicitHandoffThread.filter (runnable scheduler) with
    | some thread => direct (some thread) .explicitHandoff
    | none =>
      let decision ← ask (sources period scheduler observation)
      return { decision with explicitHandoffStale := observation.explicitHandoffThread.isSome }

/-! ### Turns -/

def isGuestControl (reason : GuestDispatchReason) : Bool :=
  reason = .debugger || reason = .explicitHandoff

def continueHost (hostContinuation : Option XnuThreadId) (decision : GuestDispatchDecision) :
    GuestDispatchDecision :=
  match hostContinuation with
  | none => decision
  | some thread =>
    if isGuestControl decision.reason then decision
    else { decision with preferredThread := some thread, reason := .hostContinuation }

/-- The processor whose turns a preference is of. -/
def processorOf (thread : Option XnuThreadId) : Nat :=
  ((thread.bind scheduler.info).bind (·.boundProcessor)).getD 0

/-- Threads in a guest wait and retired ones are owed nothing. -/
def isAway (thread : XnuThreadId) : Bool :=
  (scheduler.info thread).all (·.state = .waiting)

/-- A head without a turn opens one. -/
def openTurn (head : XnuThreadId) (turns : List PreferenceTurn) : List PreferenceTurn :=
  if turns.any (·.ordinaryHead = head) then turns
  else
    turns.filter (fun turn => !isAway scheduler turn.ordinaryHead) ++
      [⟨head, some (observation.now + realtimeBurstPeriod period), 0⟩]

def isSpent (turn : PreferenceTurn) : Bool :=
  preferredProcessBurstLimit ≤ turn.bypasses || turn.deadline.any (· ≤ observation.now)

def charge (head : XnuThreadId) (turns : List PreferenceTurn) : List PreferenceTurn :=
  turns.modify (turns.findIdx (·.ordinaryHead = head))
    fun turn => { turn with bypasses := turn.bypasses + 1 }

/-- What becomes of a preference that passes over the ordinary head. -/
def passOver (head : XnuThreadId) (decision : GuestDispatchDecision)
    (turns : List PreferenceTurn) : GuestDispatchDecision × List PreferenceTurn :=
  if decision.preferredThread.isNone ∧ ¬turns.any (·.ordinaryHead = head) then (decision, turns)
  else
    let turns := openTurn period scheduler observation head turns
    match turns.find? (·.ordinaryHead = head) with
    | none => (decision, turns)
    | some turn =>
      if isSpent observation turn then
        ({ decision with preferredThread := none, reason := .ordinary }, turns)
      else if decision.preferredThread.isSome then (decision, charge head turns)
      else (decision, turns)

def finish (policy : GuestDispatchPolicy) (decision : GuestDispatchDecision) :
    GuestDispatchPolicy :=
  match decision.reason, decision.preferredThread with
  | .foregroundProcess, some thread =>
    { policy with hints.lastForegroundPreference := some thread.process }
  | _, _ => policy

/-- `std::vector::resize` -/
def resize (count : Nat) (turns : List (List PreferenceTurn)) : List (List PreferenceTurn) :=
  turns.take count ++ List.replicate (count - turns.length) []

def settle (policy : GuestDispatchPolicy) (decision : GuestDispatchDecision) :
    Checked GuestDispatchDecision × GuestDispatchPolicy :=
  let policy :=
    { policy with preferenceTurns := resize scheduler.processorCount policy.preferenceTurns }
  let processor := processorOf scheduler decision.preferredThread
  match scheduler.peekNextForProcessor processor with
  | .error fault => (.error fault, policy)
  | .ok none => (.ok decision, finish policy decision)
  | .ok (some head) =>
    if isGuestControl decision.reason ∨ decision.preferredThread = some head then
      (.ok decision, finish policy decision)
    else
      -- there is no head on a processor that the scheduler does not have
      let turns := policy.preferenceTurns.getD processor []
      let (decision, turns) :=
        passOver policy.responsePeriod scheduler observation head decision turns
      let policy :=
        { policy with preferenceTurns := policy.preferenceTurns.set processor turns }
      (.ok decision, finish policy decision)

def decide (policy : GuestDispatchPolicy) (hostContinuation : Option XnuThreadId) :
    Checked GuestDispatchDecision × GuestDispatchPolicy :=
  match decideHint policy.responsePeriod scheduler observation policy.hints with
  | .error fault hints => (.error fault, { policy with hints := hints })
  | .ok decision hints =>
    settle scheduler observation { policy with hints := hints }
      (continueHost hostContinuation decision)

/-- Only progress of the thread itself ends what it is owed, on every processor. -/
def observeExecution (policy : GuestDispatchPolicy) (thread : XnuThreadId) (ticksConsumed : Nat) :
    GuestDispatchPolicy :=
  if ticksConsumed = 0 then policy
  else
    { policy with
      preferenceTurns :=
        policy.preferenceTurns.map (·.filter fun turn => turn.ordinaryHead ≠ thread) }

end GuestDispatchPolicy
end ILEmu
