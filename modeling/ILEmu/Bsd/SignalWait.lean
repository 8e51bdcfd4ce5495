import ILEmu.Foundation.Containers
import ILEmu.Foundation.Run
import ILEmu.Bsd.SignalState

/-! Signals that are delivered to the threads of a process, and the threads that wait for
signals. -/
namespace ILEmu
open Foundation

structure SignalAction where
  handler : Nat := 0
  /-- `SA_RESTART` -/
  restart : Bool := false
  deriving DecidableEq, Repr

def defaultAction : Nat := 0
def ignoreAction : Nat := 1

structure PendingSignalWait where
  signals : SignalSet
  selected : Option Nat := none
  /-- Zero if the call would be restarted. -/
  interruptionResult : Option Nat := none
  deriving DecidableEq, Repr

/-- What has happened to the signals of each thread: those that were put on its list, those
that were taken off it by an opposing one, and those whose default action was taken. -/
structure SignalRecord where
  queued : List (Nat × Nat) := []
  cancelled : List (Nat × Nat) := []
  defaulted : List (Nat × Nat) := []
  deriving DecidableEq, Repr

/-- `record` is what the model keeps of a run; no operation reads it. -/
structure SignalProcess where
  signals : DarwinSignalState
  actions : Nat → SignalAction := fun _ => {}
  pendingSignalWaits : Table Nat PendingSignalWait := ∅
  disabledThreadSignals : List Nat := []
  stopped : Bool := false
  exited : Bool := false
  record : SignalRecord := {}

def interruptedError : Nat := 4
def badAddressError : Nat := 14
def invalidArgumentError : Nat := 22

/-- How a wait ends: the signal that it returns, and its error. -/
structure SignalWaitOutcome where
  signal : Option Nat
  error : Nat
  deriving DecidableEq, Repr

namespace Signal

def defaultIsIgnored (signal : Nat) : Bool := signal ∈ [16, 20, 23, 28, 29, 19]

def defaultStops (signal : Nat) : Bool := signal ∈ [17, 18, 21, 22]

end Signal

namespace SignalProcess
variable (state : SignalProcess) (processor : Nat)

/-- The action of a signal is to ignore it. -/
def ignores (signal : Nat) : Bool :=
  (state.actions signal).handler = ignoreAction ||
    ((state.actions signal).handler = defaultAction && Signal.defaultIsIgnored signal)

def caught (signal : Nat) : Bool :=
  (state.actions signal).handler ≠ defaultAction && (state.actions signal).handler ≠ ignoreAction

def queue (signal : Nat) : SignalProcess :=
  let bit := Signal.bit signal
  let opposed := (state.signals.pending processor &&& DarwinSignalState.opposed bit).signals
  if (state.signals.thread processor).any (·.active) then
    { state with
      signals := state.signals.queue processor bit
      record := { state.record with
        queued := (processor, signal) :: state.record.queued
        cancelled := opposed.map (processor, ·) ++ state.record.cancelled } }
  else state

def noteDefault (signal : Nat) : SignalProcess :=
  { state with
    record := { state.record with defaulted := (processor, signal) :: state.record.defaulted } }

/-- The wait of a thread has found its signal. -/
def accept (wait : PendingSignalWait) (signal : Nat) : SignalProcess :=
  { state with
    pendingSignalWaits := state.pendingSignalWaits.insert processor { wait with selected := some signal }
    signals := state.signals.acceptWaitSignal processor (Signal.bit signal) }

/-- A signal with a handler stays pending, and interrupts the wait of its thread. -/
def interrupt (signal : Nat) : SignalProcess :=
  match state.pendingSignalWaits.lookup processor with
  | none => state
  | some wait =>
    if wait.interruptionResult.isSome then state
    else
      { state with
        pendingSignalWaits := state.pendingSignalWaits.insert processor
          { wait with
            interruptionResult :=
              some (if (state.actions signal).restart then 0 else interruptedError) } }

/-- The body of the loop of `process_pending_signals`; a stop ends the loop. -/
def react (signal : Nat) : SignalProcess × Bool :=
  let wait := (state.pendingSignalWaits.lookup processor).filter
    fun _ => (state.signals.waitingFor processor).has signal
  match wait with
  | some wait => (state.accept processor wait signal, false)
  | none =>
    if state.caught signal then (state.interrupt processor signal, false)
    else
      let consumed :=
        { state with signals := state.signals.consume processor (Signal.bit signal) }
      if state.ignores signal then (consumed, false)
      else if Signal.defaultStops signal then
        ({ consumed.noteDefault processor signal with stopped := true }, true)
      else ({ consumed.noteDefault processor signal with exited := true }, false)

def reactAll (processor : Nat) : SignalProcess → List Nat → SignalProcess
  | state, [] => state
  | state, signal :: rest =>
    if state.exited then state
    else
      match state.react processor signal with
      | (state, true) => state
      | (state, false) => reactAll processor state rest

def processPendingSignals : SignalProcess :=
  reactAll processor state (state.signals.ready processor).signals

/-- A signal that nobody would notice is not delivered. -/
def dropped (signal : Nat) : Bool :=
  signal = 0 || Signal.count ≤ signal || state.exited ||
    (signal ≠ Signal.resume && state.ignores signal)

def deliverSignalToThread (signal : Nat) (target : Option Nat) : SignalProcess :=
  if state.dropped signal then state
  else
    let target := target.or (state.signals.select (Signal.bit signal)
      fun candidate => candidate ∉ state.disabledThreadSignals)
    let resumed := if signal = Signal.resume then { state with stopped := false } else state
    match target with
    | none => resumed
    | some processor => (resumed.queue processor signal).processPendingSignals processor

/-- What `return_waited_signal` makes of the signal, by whether it can be copied out. -/
def returnWaitedSignal (signal : Nat) (copied : Bool) : SignalWaitOutcome :=
  { signal := some signal, error := if copied then 0 else badAddressError }

/-- `dispatch_bsd_signal_wait`, of a set that has been read. -/
def dispatchSignalWait (set : SignalSet) (copied : Bool) :
    SignalProcess × Option SignalWaitOutcome :=
  let signals := set &&& ~~~SignalSet.unmaskable
  if signals = 0 then (state, some { signal := none, error := invalidArgumentError })
  else
    match state.signals.takePending processor signals with
    | some (signal, taken) =>
      ({ state with signals := taken }, some (returnWaitedSignal signal copied))
    | none =>
      ({ state with
          signals := state.signals.beginWait processor signals
          pendingSignalWaits := state.pendingSignalWaits.insert processor { signals } }, none)

/-- `complete_signal_wait` -/
def completeSignalWait (interrupted copied : Bool) : Option (SignalProcess × SignalWaitOutcome) :=
  match state.pendingSignalWaits.lookup processor with
  | none => none
  | some wait =>
    if wait.selected = none && wait.interruptionResult = none && !interrupted then none
    else
      let resumed :=
        { state with
          signals := state.signals.resume processor
          pendingSignalWaits := state.pendingSignalWaits.erase processor }
      let error := wait.interruptionResult.getD (if interrupted then interruptedError else 0)
      if error ≠ 0 && state.signals.waitReportsInterrupt then
        some (resumed, { signal := none, error })
      else
        let signal := wait.selected.getD (SignalSet.lowest wait.signals)
        some ({ resumed with
            signals := resumed.signals.consume processor (Signal.bit signal) },
          returnWaitedSignal signal copied)

/-- `interrupt_thread_wait`, of a thread that waits for signals only: what the wait has come to
so far goes first. -/
def interruptThreadWait (copied : Bool) : Option (SignalProcess × SignalWaitOutcome) :=
  ((state.completeSignalWait processor false copied).or
    (state.completeSignalWait processor true copied)).map fun (completed, outcome) =>
      ({ completed with signals := completed.signals.resume processor }, outcome)

end SignalProcess
end ILEmu
