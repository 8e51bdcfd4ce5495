import ILEmu.Foundation.Condensing
import ILEmu.Foundation.Run

/-! The queues of input events, one for the consumer of the display and one for each observer. -/
namespace ILEmu.Input.HidEventQueue
open Foundation

inductive TouchPhase where
  | down
  | move
  | up
  | cancel
  deriving DecidableEq

/-- The bits of two coordinates. -/
abbrev Position := BitVec 32 × BitVec 32

structure TouchInput where
  phase : TouchPhase
  position : Position
  deriving DecidableEq

structure Consumer where
  process : BitVec 32
  processor : Nat
  system : BitVec 32
  keyboardEvents : Bool := false
  digitizerEvents : Bool := true
  deriving DecidableEq

structure Observer where
  process : BitVec 32
  processor : Nat
  client : BitVec 32
  callback : BitVec 32
  target : BitVec 32
  refcon : BitVec 32
  digitizerEvents : Bool := false
  deriving DecidableEq

inductive Payload where
  | touch (input : TouchInput)
  | keyboard (usagePage usage : BitVec 32) (down : Bool)
  | acceleration (x y z : BitVec 32)
  deriving DecidableEq

structure Event where
  input : Payload
  timestamp : BitVec 64
  identity : BitVec 32 := 1
  contactOrigin : Option Position := none
  inputSequence : BitVec 64 := 0
  deriving DecidableEq

namespace Event

def touch? (event : Event) : Option TouchInput :=
  match event.input with
  | .touch input => some input
  | _ => none

def isTouch (event : Event) : Bool := event.touch?.isSome

def isKeyboard (event : Event) : Bool :=
  match event.input with
  | .keyboard .. => true
  | _ => false

def hasPhase (event : Event) (phase : TouchPhase) : Bool := event.touch?.any (·.phase = phase)

/-- A position supersedes an undelivered position of the same contact. -/
def supersedes (last next : Event) : Bool :=
  last.hasPhase .move && next.hasPhase .move && last.identity = next.identity

end Event

/-- An event as it was given to a receiver, with the latest `Down` of its identity where that
contact was in progress. -/
structure Entry where
  event : Event
  down : Option Position
  deriving DecidableEq

/-- A queue, and its history since it was opened: what it was given and what was taken from it. -/
structure Feed where
  events : List Event := []
  given : List Entry := []
  taken : List Event := []
  deriving DecidableEq

namespace Feed

def append (feed : Feed) (entry : Entry) : Feed :=
  let events :=
    match feed.events.getLast? with
    | some last =>
      if last.supersedes entry.event then feed.events.dropLast ++ [entry.event]
      else feed.events ++ [entry.event]
    | none => feed.events ++ [entry.event]
  { feed with events, given := feed.given ++ [entry] }

def take (feed : Feed) : Option (Event × Feed) :=
  match feed.events with
  | [] => none
  | event :: rest => some (event, { feed with events := rest, taken := feed.taken ++ [event] })

end Feed

structure ObserverState where
  observer : Observer
  feed : Feed := {}
  deriving DecidableEq

/-- The contacts that are in progress, with their latest `Down`, are history as well. -/
structure State where
  consumer : Option Consumer := none
  feed : Feed := {}
  observers : List ObserverState := []
  contactOrigin : Option Position := none
  receiverGeneration : Nat := 1
  contacts : List (BitVec 32 × Position) := []
  deriving DecidableEq

namespace State

def open_ (consumer : Consumer) (state : State) : State :=
  { state with
    consumer := some consumer
    feed := {}
    contactOrigin := none
    receiverGeneration := state.receiverGeneration + 1 }

def consumes (state : State) (process : BitVec 32) : Bool :=
  state.consumer.any (·.process = process)

def close (process : BitVec 32) (state : State) : State :=
  let changed := state.consumes process
  let observers := state.observers.filter (·.observer.process ≠ process)
  let removed := state.observers.length - observers.length
  { state with
    consumer := if changed then none else state.consumer
    feed := if changed then {} else state.feed
    observers
    contactOrigin := if changed then none else state.contactOrigin
    receiverGeneration := state.receiverGeneration + (changed || removed ≠ 0).toNat }

def isSame (first second : Observer) : Bool :=
  first.process = second.process && first.client = second.client

/-- An observer that is registered again keeps its events, unless another processor is to run
its callback. -/
def register (observer : Observer) : List ObserverState → List ObserverState
  | [] => [{ observer }]
  | existing :: rest =>
    if isSame existing.observer observer then
      { observer
        feed := if existing.observer.processor ≠ observer.processor then {} else existing.feed }
        :: rest
    else existing :: register observer rest

def observe (observer : Observer) (state : State) : State :=
  { state with
    observers := register observer state.observers
    receiverGeneration := state.receiverGeneration + 1 }

def unobserve (process client : BitVec 32) (state : State) : State :=
  let observers := state.observers.filter fun existing =>
    ¬(existing.observer.process = process ∧ existing.observer.client = client)
  let removed := state.observers.length - observers.length
  { state with
    observers
    receiverGeneration := state.receiverGeneration + (decide (removed ≠ 0)).toNat }

def primary (state : State) (event : Event) : Bool :=
  state.consumer.any fun consumer =>
    (!event.isTouch || consumer.digitizerEvents) && (!event.isKeyboard || consumer.keyboardEvents)

def observed (state : State) (event : Event) : Bool :=
  state.observers.any fun existing => event.isTouch && existing.observer.digitizerEvents

def accepts (state : State) (event : Event) : Bool := state.primary event || state.observed event

/-- The latest `Down` of the event's contact, the event itself included. -/
def latestDown (state : State) (event : Event) : Option Position :=
  match event.touch? with
  | some input =>
    if input.phase = .down then some input.position else state.contacts.lookup event.identity
  | none => none

/-- The contacts in progress after an event, whether anyone receives it or not. -/
def contactsAfter (state : State) (event : Event) : List (BitVec 32 × Position) :=
  let others := state.contacts.filter (·.1 ≠ event.identity)
  match event.touch? with
  | some ⟨.down, position⟩ => (event.identity, position) :: others
  | some ⟨.up, _⟩ | some ⟨.cancel, _⟩ => others
  | some ⟨.move, _⟩ | none => state.contacts

/-- The origin that the event carries. -/
def originFor (state : State) (event : Event) : Option Position :=
  match event.touch? with
  | some ⟨.down, position⟩ => some position
  | _ => state.contactOrigin

def originAfter (state : State) (event : Event) : Option Position :=
  match event.touch? with
  | some ⟨.down, position⟩ => some position
  | some ⟨.up, _⟩ | some ⟨.cancel, _⟩ => none
  | some ⟨.move, _⟩ | none => state.contactOrigin

/-- What the receivers are given of an event. -/
def entryFor (state : State) (event : Event) : Entry where
  event := if event.isTouch then { event with contactOrigin := state.originFor event } else event
  down := state.latestDown event

def enqueue (event : Event) (state : State) : Bool × State :=
  let contacts := state.contactsAfter event
  if state.accepts event then
    let entry := state.entryFor event
    let feed := if state.primary event then state.feed.append entry else state.feed
    let observers := state.observers.map fun existing =>
      if event.isTouch && existing.observer.digitizerEvents then
        { existing with feed := existing.feed.append entry }
      else existing
    (true, { state with feed, observers, contactOrigin := state.originAfter event, contacts })
  else (false, { state with contacts })

def take (process : BitVec 32) (processor : Nat) (state : State) : Option Event × State :=
  if state.consumer.any fun consumer =>
      consumer.process = process && consumer.processor = processor then
    match state.feed.take with
    | some (event, feed) => (some event, { state with feed })
    | none => (none, state)
  else (none, state)

/-- The first observer of the processor that has an event gives it out. -/
def takeFrom (process : BitVec 32) (processor : Nat) :
    List ObserverState → Option (Observer × Event) × List ObserverState
  | [] => (none, [])
  | existing :: rest =>
    let others := takeFrom process processor rest
    if existing.observer.process = process && existing.observer.processor = processor then
      match existing.feed.take with
      | some (event, feed) => (some (existing.observer, event), { existing with feed } :: rest)
      | none => (others.1, existing :: others.2)
    else (others.1, existing :: others.2)

def takeObserver (process : BitVec 32) (processor : Nat) (state : State) :
    Option (Observer × Event) × State :=
  let (delivery, observers) := takeFrom process processor state.observers
  (delivery, { state with observers })

end State

inductive Action where
  | open_ (consumer : Consumer)
  | close (process : BitVec 32)
  | observe (observer : Observer)
  | unobserve (process client : BitVec 32)
  | enqueue (event : Event)
  | take (process : BitVec 32) (processor : Nat)
  | takeObserver (process : BitVec 32) (processor : Nat)
  deriving DecidableEq

def step (state : State) : Action → State
  | .open_ consumer => state.open_ consumer
  | .close process => state.close process
  | .observe observer => state.observe observer
  | .unobserve process client => state.unobserve process client
  | .enqueue event => (state.enqueue event).2
  | .take process processor => (state.take process processor).2
  | .takeObserver process processor => (state.takeObserver process processor).2

end ILEmu.Input.HidEventQueue
