import Mathlib.Data.Fintype.Basic
import Mathlib.Data.Fintype.Card

/-! The channels of guest execution: one control thread that submits and collects, and one worker
for each channel. Every critical section is a step of its own. -/
namespace ILEmu.Execution

/-- A request is known by its address, and its processor by that of the processor. -/
structure GuestExecutionRequest where
  address : Nat
  cpu : Option Nat
  executionSlot : Nat
  cooperationSignal : Bool := false
  completionGeneration : BitVec 64 := 0
  deriving DecidableEq, Repr

namespace GuestExecutionCoordinator

inductive State where
  | idle | submitted | running | completed
  deriving DecidableEq, Repr

/-- A channel, with the number of the submission that it took last. -/
structure Channel where
  request : Option GuestExecutionRequest := none
  state : State := .idle
  ticket : Nat := 0
  exited : Bool := false
  deriving DecidableEq, Repr

inductive Failure where
  | invalidArgument | stopping | occupied | cpuOutstanding | overlap | duplicate | serviceHost
  deriving DecidableEq, Repr

/-- How the last operation of the control thread ended. -/
inductive Outcome where
  | none
  | submitted (failure : Option Failure)
  | waited (request : Option GuestExecutionRequest)
  | ran (requests : List (Option GuestExecutionRequest)) (failure : Option Failure)
  deriving DecidableEq, Repr

/-- Where the control thread is between two critical sections. -/
inductive Caller where
  | done (outcome : Outcome)
  | waiting
  | submitting (requests : List (Option GuestExecutionRequest))
      (remaining : List GuestExecutionRequest) (service : Bool)
  | looping (requests : List (Option GuestExecutionRequest)) (service : Bool)
  | blocked (requests : List (Option GuestExecutionRequest)) (service : Bool)
  | servicing (requests : List (Option GuestExecutionRequest))
  | draining (requests : List (Option GuestExecutionRequest)) (failure : Failure)
  | drainWaiting (requests : List (Option GuestExecutionRequest)) (failure : Failure)
  deriving DecidableEq, Repr

/-- What has become of the submissions, by their numbers. -/
structure Ledger where
  submissions : List GuestExecutionRequest := []
  begun : List Nat := []
  ended : List Nat := []
  returned : List (Nat × Option GuestExecutionRequest) := []

end GuestExecutionCoordinator

open GuestExecutionCoordinator in
structure GuestExecutionCoordinator (workers : Nat) where
  channels : Fin workers → Channel := fun _ => {}
  outstanding : Nat := 0
  stopping : Bool := false
  hostCompletionPending : Bool := false
  polledCompletionGeneration : BitVec 64 := 0
  hostCompletions : BitVec 64 := 0
  caller : Caller := .done .none
  ledger : Ledger := {}

namespace GuestExecutionCoordinator
variable {workers : Nat} (coordinator : GuestExecutionCoordinator workers)

def setChannel (index : Fin workers) (channel : Channel) : GuestExecutionCoordinator workers :=
  { coordinator with channels := Function.update coordinator.channels index channel }

def cpuOutstanding (cpu : Option Nat) : Bool :=
  (List.finRange workers).any fun index =>
    (coordinator.channels index).request.any (·.cpu = cpu)

/-- The request in its channel, or why it is not taken. -/
def submit (request : GuestExecutionRequest) :
    Except Failure (GuestExecutionCoordinator workers) :=
  if slot : request.cpu.isSome ∧ request.executionSlot < workers then
    if coordinator.stopping then .error .stopping
    else
      let index : Fin workers := ⟨request.executionSlot, slot.2⟩
      let channel := coordinator.channels index
      if channel.state ≠ .idle then .error .occupied
      else if coordinator.cpuOutstanding request.cpu then .error .cpuOutstanding
      else
        let request := { request with
          cooperationSignal := coordinator.hostCompletionPending
          completionGeneration := coordinator.polledCompletionGeneration }
        .ok { coordinator.setChannel index
                { channel with
                  request := some request
                  state := .submitted
                  ticket := coordinator.ledger.submissions.length } with
              outstanding := coordinator.outstanding + 1
              ledger := { coordinator.ledger with
                submissions := coordinator.ledger.submissions ++ [request] } }
  else .error .invalidArgument

/-- The request of a completed channel returns to the caller. -/
def collect (index : Fin workers) : GuestExecutionCoordinator workers :=
  let channel := coordinator.channels index
  { coordinator.setChannel index { channel with request := none, state := .idle } with
    outstanding := coordinator.outstanding - 1
    ledger := { coordinator.ledger with
      returned := coordinator.ledger.returned ++ [(channel.ticket, channel.request)] } }

def firstCompleted : Option (Fin workers) :=
  (List.finRange workers).find? fun index => (coordinator.channels index).state = .completed

/-- The pass of `run` over the channels. -/
def collectAll : GuestExecutionCoordinator workers :=
  (List.finRange workers).foldl
    (fun coordinator index =>
      if (coordinator.channels index).state = .completed then coordinator.collect index
      else coordinator)
    coordinator

def andThen (caller : Caller) : GuestExecutionCoordinator workers := { coordinator with caller }

/-- The first critical section of `wait`, that goes on at once if a channel is completed. -/
def wait (finished : Option GuestExecutionRequest → Caller) (blocked : Caller) :
    GuestExecutionCoordinator workers :=
  if coordinator.outstanding = 0 then coordinator.andThen (finished none)
  else
    match coordinator.firstCompleted with
    | none => coordinator.andThen blocked
    | some index =>
      (coordinator.collect index).andThen (finished (coordinator.channels index).request)

/-- The check of a window before any of it is dispatched. -/
def validWindow (workers : Nat) :
    List GuestExecutionRequest → List (Option GuestExecutionRequest) → Option Failure
  | _, [] => none
  | _, none :: _ => some .invalidArgument
  | earlier, some request :: rest =>
    if request.cpu.isNone ∨ workers ≤ request.executionSlot then some .invalidArgument
    else if earlier.any fun other =>
        request.cpu = other.cpu || request.executionSlot = other.executionSlot then
      some .duplicate
    else validWindow workers (earlier ++ [request]) rest

/-- The beginning of `run`, up to its first dispatch. -/
def run (requests : List (Option GuestExecutionRequest)) (service : Bool) :
    GuestExecutionCoordinator workers :=
  if coordinator.outstanding ≠ 0 then coordinator.andThen (.done (.ran requests (some .overlap)))
  else
    match validWindow workers [] requests with
    | some failure => coordinator.andThen (.done (.ran requests (some failure)))
    | none =>
      if requests.isEmpty then coordinator.andThen (.done (.ran requests none))
      else coordinator.andThen (.submitting requests (requests.filterMap id) service)

/-- What the loop of `run` does with the completed channels. -/
def settle (requests : List (Option GuestExecutionRequest)) (service : Bool) :
    GuestExecutionCoordinator workers :=
  let coordinator := coordinator.collectAll
  coordinator.andThen
    (if coordinator.outstanding ≠ 0 ∧ service then .servicing requests
     else .looping requests service)

/-- After a drained request `wait` is called again; after none the failure is thrown. -/
def drained (requests : List (Option GuestExecutionRequest)) (failure : Failure) :
    Option GuestExecutionRequest → Caller
  | some _ => .draining requests failure
  | none => .done (.ran requests (some failure))

/-- The next critical section of an operation that has begun. With a callback the wait of `run`
ends by itself, and the callback may throw. -/
def advance (throws : Bool) : Option (GuestExecutionCoordinator workers) :=
  match coordinator.caller with
  | .done _ => none
  | .waiting =>
    coordinator.firstCompleted.map fun index =>
      (coordinator.collect index).andThen
        (.done (.waited (coordinator.channels index).request))
  | .submitting requests [] service => some (coordinator.andThen (.looping requests service))
  | .submitting requests (request :: remaining) service =>
    match coordinator.submit request with
    | .ok coordinator => some (coordinator.andThen (.submitting requests remaining service))
    | .error failure => some (coordinator.andThen (.draining requests failure))
  | .looping requests service =>
    if coordinator.outstanding = 0 then some (coordinator.andThen (.done (.ran requests none)))
    else if coordinator.firstCompleted.isSome then some (coordinator.settle requests service)
    else some (coordinator.andThen (.blocked requests service))
  | .blocked requests service =>
    if service || coordinator.firstCompleted.isSome then some (coordinator.settle requests service)
    else none
  | .servicing requests =>
    if throws then some (coordinator.andThen (.draining requests .serviceHost))
    else some (coordinator.andThen (.looping requests true))
  | .draining requests failure =>
    some (coordinator.wait (drained requests failure) (.drainWaiting requests failure))
  | .drainWaiting requests failure =>
    coordinator.firstCompleted.map fun index =>
      (coordinator.collect index).andThen
        (drained requests failure (coordinator.channels index).request)

/-- The worker of a channel takes what was submitted and leaves the lock to execute it. -/
def take (index : Fin workers) : Option (GuestExecutionCoordinator workers) :=
  let channel := coordinator.channels index
  if ¬channel.exited ∧ channel.state = .submitted then
    some { coordinator.setChannel index { channel with state := .running } with
      ledger := { coordinator.ledger with begun := coordinator.ledger.begun ++ [channel.ticket] } }
  else none

/-- The worker has executed its request. -/
def complete (index : Fin workers) : Option (GuestExecutionCoordinator workers) :=
  let channel := coordinator.channels index
  if channel.state = .running then
    some { coordinator.setChannel index { channel with state := .completed } with
      ledger := { coordinator.ledger with ended := coordinator.ledger.ended ++ [channel.ticket] } }
  else none

/-- The worker ends. -/
def leave (index : Fin workers) : Option (GuestExecutionCoordinator workers) :=
  let channel := coordinator.channels index
  if coordinator.stopping ∧ channel.state ≠ .submitted ∧ channel.state ≠ .running then
    some (coordinator.setChannel index { channel with exited := true })
  else none

/-- What one of the threads does next. -/
inductive Action (workers : Nat) where
  | submit (request : GuestExecutionRequest)
  | wait
  | run (requests : List (Option GuestExecutionRequest)) (service : Bool)
  | advance (throws : Bool)
  | pollHostCompletions
  | armHostCompletions (pending : Bool)
  | notifyHostCompletion
  | stop
  | take (index : Fin workers)
  | complete (index : Fin workers)
  | leave (index : Fin workers)

def Caller.free : Caller → Bool
  | .done _ => true
  | _ => false

/-- The operations of the control thread begin when the one before has ended. -/
def perform : Action workers → Option (GuestExecutionCoordinator workers)
  | .submit request =>
    if coordinator.caller.free then
      match coordinator.submit request with
      | .ok coordinator => some (coordinator.andThen (.done (.submitted none)))
      | .error failure => some (coordinator.andThen (.done (.submitted (some failure))))
    else none
  | .wait =>
    if coordinator.caller.free then
      some (coordinator.wait (fun request => .done (.waited request)) .waiting)
    else none
  | .run requests service =>
    if coordinator.caller.free then some (coordinator.run requests service) else none
  | .advance throws => coordinator.advance throws
  | .pollHostCompletions =>
    if coordinator.caller.free then
      some { coordinator with polledCompletionGeneration := coordinator.hostCompletions }
    else none
  | .armHostCompletions pending =>
    if coordinator.caller.free then some { coordinator with hostCompletionPending := pending }
    else none
  | .notifyHostCompletion =>
    some { coordinator with hostCompletions := coordinator.hostCompletions + 1 }
  | .stop => some { coordinator with stopping := true }
  | .take index => coordinator.take index
  | .complete index => coordinator.complete index
  | .leave index => coordinator.leave index

/-- An action that is not enabled leaves the state. -/
def next (action : Action workers) : GuestExecutionCoordinator workers :=
  (coordinator.perform action).getD coordinator

end GuestExecutionCoordinator
end ILEmu.Execution
