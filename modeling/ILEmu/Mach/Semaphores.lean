import ILEmu.Foundation.Arrivals
import ILEmu.Foundation.Run

/-! Semaphores: their counts, the threads that wait on them and the signals that wake these. -/
namespace ILEmu.Mach.Semaphores
open Foundation

/-- A process and one of its processors. -/
abbrev Thread := BitVec 32 × BitVec 32

/-- How a wait has left its semaphore. -/
inductive Departure where
  | signaled
  | directed
  | all
  | timedOut
  deriving DecidableEq

/-- What has become of a semaphore: the waits in the order of their arrival, those that have left,
with the number of their arrival, the signals that woke a wait or were kept as a count, the waits
that took from the count, and what was thrown away of it. -/
structure History where
  arrivals : List Thread := []
  departures : List ((Thread × Nat) × Departure) := []
  signals : Nat := 0
  taken : Nat := 0
  discarded : Int := 0
  deriving DecidableEq

/-- The waiters stand with the number of their arrival, which is history as well. The count is not
bounded: it has 64 bits and goes up by one. -/
structure SemaphoreState where
  count : Int
  waiters : List (Thread × Nat) := []
  history : History := {}
  deriving DecidableEq

structure PendingWait (O : Type) where
  semaphore : O
  deadline : Option Nat

structure World (O : Type) where
  semaphores : O → Option SemaphoreState
  wakeups : List Thread := []
  pending : Thread → Option (PendingWait O) := fun _ => none
  clock : Nat := 0

def kernSuccess : Nat := 0
def kernInvalidArgument : Nat := 4
def kernNotWaiting : Nat := 48
def kernOperationTimedOut : Nat := 49

namespace SemaphoreState

/-- A signal is delivered to a waiter. -/
def wake (waiter : Thread × Nat) (departure : Departure) (rest : List (Thread × Nat))
    (semaphore : SemaphoreState) : SemaphoreState :=
  { semaphore with
    waiters := rest
    history := { semaphore.history with
      departures := semaphore.history.departures ++ [(waiter, departure)]
      signals := semaphore.history.signals + 1 } }

/-- `signal_semaphore_state_locked`: the threads that are woken, and what is left. -/
def signal (all prepost : Bool) (semaphore : SemaphoreState) : List Thread × SemaphoreState :=
  if all then
    (semaphore.waiters.map (·.1), { semaphore with
      waiters := []
      count := 0
      history := { semaphore.history with
        departures := semaphore.history.departures ++ semaphore.waiters.map ((·, .all))
        discarded := semaphore.history.discarded + semaphore.count } })
  else
    match semaphore.waiters with
    | waiter :: rest => ([waiter.1], semaphore.wake waiter .signaled rest)
    | [] =>
      if prepost then
        ([], { semaphore with
          count := semaphore.count + 1
          history := { semaphore.history with signals := semaphore.history.signals + 1 } })
      else ([], semaphore)

/-- A directed signal wakes the first waiter, or the first that is the target. -/
def signalThread (target : Option Thread) (semaphore : SemaphoreState) :
    Option (Thread × SemaphoreState) :=
  match target with
  | none =>
    match semaphore.waiters with
    | waiter :: rest => some (waiter.1, semaphore.wake waiter .signaled rest)
    | [] => none
  | some target =>
    match semaphore.waiters.find? (·.1 = target) with
    | some waiter =>
      some (target, semaphore.wake waiter .directed (semaphore.waiters.eraseP (·.1 = target)))
    | none => none

def takeCount (semaphore : SemaphoreState) : SemaphoreState :=
  { semaphore with
    count := semaphore.count - 1
    history := { semaphore.history with taken := semaphore.history.taken + 1 } }

def enter (thread : Thread) (semaphore : SemaphoreState) : SemaphoreState :=
  { semaphore with
    waiters := semaphore.waiters ++ [(thread, semaphore.history.arrivals.length)]
    history := { semaphore.history with arrivals := semaphore.history.arrivals ++ [thread] } }

/-- A wait that has timed out leaves the queue. -/
def expire (thread : Thread) (semaphore : SemaphoreState) : SemaphoreState :=
  { semaphore with
    waiters := semaphore.waiters.filter (·.1 ≠ thread)
    history := { semaphore.history with
      departures := semaphore.history.departures ++
        (semaphore.waiters.filter (·.1 = thread)).map ((·, .timedOut)) } }

end SemaphoreState

namespace World
variable {O : Type} [DecidableEq O]

/-- Semaphores with the counts that they are created with. -/
def initial (counts : O → Option Nat) : World O where
  semaphores object := (counts object).map fun count : Nat => { count := count }

def put (object : O) (semaphore : SemaphoreState) (world : World O) : World O :=
  { world with semaphores := Function.update world.semaphores object (some semaphore) }

def wakeAll (threads : List Thread) (world : World O) : World O :=
  { world with wakeups := threads.foldl (fun wakeups thread => wakeups.insert thread) world.wakeups }

def signalObject (object : O) (all prepost : Bool) (world : World O) : Nat × World O :=
  match world.semaphores object with
  | none => (kernInvalidArgument, world)
  | some semaphore =>
    let (woken, semaphore) := semaphore.signal all prepost
    (kernSuccess, (world.put object semaphore).wakeAll woken)

def signalThread (object : O) (target : Option Thread) (world : World O) : Nat × World O :=
  match world.semaphores object with
  | none => (kernInvalidArgument, world)
  | some semaphore =>
    match semaphore.signalThread target with
    | none => (kernNotWaiting, world)
    | some (woken, semaphore) => (kernSuccess, (world.put object semaphore).wakeAll [woken])

/-- What a wait does to its own semaphore, before the paired signal. -/
def beginWait (thread : Thread) (object : O) (semaphore : SemaphoreState)
    (timeoutInterval : Option Nat) (world : World O) : Nat × World O :=
  if 0 < semaphore.count then (kernSuccess, world.put object semaphore.takeCount)
  else if timeoutInterval = some 0 then (kernOperationTimedOut, world)
  else
    (kernSuccess, { world.put object (semaphore.enter thread) with
      pending := Function.update world.pending thread
        (some ⟨object, timeoutInterval.map (world.clock + ·)⟩) })

/-- `wait_on_semaphore_object`. A thread that waits already is not running and calls nothing. -/
def wait (thread : Thread) (object : O) (signalObject? : Option O)
    (timeoutInterval : Option Nat) (world : World O) : Nat × World O :=
  if (world.pending thread).isSome then (kernInvalidArgument, world)
  else
    match world.semaphores object with
    | none => (kernInvalidArgument, world)
    | some semaphore =>
      if signalObject?.any fun signaled => (world.semaphores signaled).isNone then
        (kernInvalidArgument, world)
      else
        let (result, world) := world.beginWait thread object semaphore timeoutInterval
        match signalObject? with
        | none => (result, world)
        | some signaled => (result, (world.signalObject signaled false true).2)

/-- The nonblocking wait of a POSIX semaphore. -/
def tryWait (object : O) (world : World O) : Bool × World O :=
  match world.semaphores object with
  | none => (false, world)
  | some semaphore =>
    if 0 < semaphore.count then (true, world.put object semaphore.takeCount) else (false, world)

/-- A thread that waits is looked at: it has been awakened, or its time is over, or it goes on
waiting. -/
def complete (thread : Thread) (world : World O) : Option Nat × World O :=
  match world.pending thread with
  | none => (none, world)
  | some pending =>
    let resumed := { world with pending := Function.update world.pending thread none }
    if thread ∈ world.wakeups then
      (some kernSuccess, { resumed with wakeups := world.wakeups.filter (· ≠ thread) })
    else if pending.deadline.any (· ≤ world.clock) then
      match world.semaphores pending.semaphore with
      | none => (some kernOperationTimedOut, resumed)
      | some semaphore =>
        (some kernOperationTimedOut, resumed.put pending.semaphore (semaphore.expire thread))
    else (none, world)

end World

inductive Action (O : Type) where
  | wait (thread : Thread) (object : O) (signaled : Option O) (timeoutInterval : Option Nat)
  | tryWait (object : O)
  | signal (object : O) (prepost : Bool)
  | signalAll (object : O)
  | signalThread (object : O) (target : Option Thread)
  | complete (thread : Thread)
  | tick (interval : Nat)

def step {O : Type} [DecidableEq O] (world : World O) : Action O → World O
  | .wait thread object signaled timeoutInterval =>
    (world.wait thread object signaled timeoutInterval).2
  | .tryWait object => (world.tryWait object).2
  | .signal object prepost => (world.signalObject object false prepost).2
  | .signalAll object => (world.signalObject object true false).2
  | .signalThread object target => (world.signalThread object target).2
  | .complete thread => (world.complete thread).2
  | .tick interval => { world with clock := world.clock + interval }

end ILEmu.Mach.Semaphores
