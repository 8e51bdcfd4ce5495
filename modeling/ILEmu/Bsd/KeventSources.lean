import ILEmu.Bsd.Workqueue
import ILEmu.Scheduler.Qos

/-! The knotes of the work queue's kqueue and the sources that make them ready. Whether a
knote is ready is asked without using up its event. -/
namespace ILEmu

inductive KeventFilter where
  | read | write | vnode | process | timer | machPort | user | other
  deriving DecidableEq, Repr

def eventAdd : BitVec 16 := 0x0001
def eventDelete : BitVec 16 := 0x0002
def eventEnable : BitVec 16 := 0x0004
def eventOneShot : BitVec 16 := 0x0010
def eventClear : BitVec 16 := 0x0020
def eventDispatch : BitVec 16 := 0x0080
def eventUdataSpecific : BitVec 16 := 0x0100
def eventEndOfFile : BitVec 16 := 0x8000

def processNoteExec : BitVec 32 := 0x20000000
def processNoteExit : BitVec 32 := 0x80000000
def optionReceive : BitVec 32 := 0x2

structure KeventTimer where
  deadline : Option Nat
  interval : Nat
  deriving DecidableEq, Repr

namespace KeventTimer

def maximum : Nat := 2 ^ 64 - 1

def expirations (timer : KeventTimer) (now : Nat) : Nat :=
  match timer.deadline with
  | none => 0
  | some deadline =>
    if now < deadline then 0
    else
      let additional := if timer.interval = 0 then 0 else (now - deadline) / timer.interval
      min additional (2 ^ 63 - 2) + 1

def consume (timer : KeventTimer) (now : Nat) : KeventTimer :=
  match timer.deadline with
  | none => timer
  | some deadline =>
    if now < deadline then timer
    else if timer.interval = 0 then { timer with deadline := none }
    else
      let delay := timer.interval - (now - deadline) % timer.interval
      if maximum - now < delay then { timer with deadline := none }
      else { timer with deadline := some (now + delay) }

/-- A timer that was consumed waits for a later time. -/
theorem expirations_consume (timer : KeventTimer) (now : Nat) :
    (timer.consume now).expirations now = 0 := by
  unfold consume
  cases set : timer.deadline with
  | none => simp [expirations, set]
  | some deadline =>
    by_cases early : now < deadline
    · simp [expirations, set, early]
    · by_cases single : timer.interval = 0
      · simp [expirations, early, single]
      · have rest := Nat.mod_lt (now - deadline) (Nat.pos_of_ne_zero single)
        by_cases far : maximum - now < timer.interval - (now - deadline) % timer.interval
        · simp [expirations, early, single, far]
        · have later : now < now + (timer.interval - (now - deadline) % timer.interval) := by omega
          simp [expirations, early, single, far, later]

end KeventTimer

/-- A knote. The notes that a watched file has pending are those of `vnodeWatch`. -/
structure KeventRegistration where
  ident : Nat
  filter : KeventFilter
  flags : BitVec 16 := 0
  filterFlags : BitVec 32 := 0
  data : Int := 0
  userData : Nat := 0
  qos : BitVec 32 := 0
  userTriggered : Bool := false
  enabled : Bool := true
  clearDelivered : Bool := false
  deferredDelete : Bool := false
  clearAvailable : Nat := 0
  processExecGeneration : Nat := 0
  processExitGeneration : Nat := 0
  vnodeWatch : Option (BitVec 32) := none
  extension : Nat × Nat := (0, 0)
  timer : Option KeventTimer := none
  workqueueServicer : Option Nat := none
  deriving DecidableEq, Repr

structure ProcessKeventState where
  execGeneration : Nat
  exitGeneration : Nat
  waitStatus : Nat
  deriving DecidableEq, Repr

/-- What the knotes observe while events are collected. For a descriptor that is a defunct
listener, the number of its preserved connections is known. -/
structure KeventSources where
  now : Nat := 0
  processes : Nat → Option ProcessKeventState := fun _ => none
  terminalListener : Nat → Option Nat := fun _ => none
  readable : Nat → Bool := fun _ => false
  writable : Nat → Bool := fun _ => false
  /-- The bytes or connections that a descriptor has for a filter. -/
  pending : KeventFilter → Nat → Nat := fun _ _ => 0
  /-- Whether a descriptor's stream has ended for a filter. -/
  ended : KeventFilter → Nat → Bool := fun _ _ => false

/-- The message queues of the ports that a process may receive from. A name stands for the
ports in the order in which a receive asks them: one port, or the ready members of a set. -/
structure KeventPorts where
  members : Nat → List Nat := fun _ => []
  queues : Nat → List XnuQosTier := fun _ => []

namespace KeventPorts

def hasMessage (ports : KeventPorts) (port : Nat) : Bool := !(ports.queues port).isEmpty

/-- `ready_mach_kevent_name`: the first port with a message, and the QoS of that message. -/
def ready (ports : KeventPorts) (name : Nat) : Option (Nat × XnuQosTier) :=
  (ports.members name).findSome? fun port => (ports.queues port).head?.map (port, ·)

/-- The member that a receive selects goes behind the others. -/
def rotate (ports : KeventPorts) (name port : Nat) : KeventPorts :=
  if port ∈ ports.members name then
    { ports with
      members := Function.update ports.members name ((ports.members name).erase port ++ [port]) }
  else ports

def dequeue (ports : KeventPorts) (port : Nat) : KeventPorts :=
  { ports with queues := Function.update ports.queues port (ports.queues port).tail }

end KeventPorts

def workqueueQosBucket (qos : BitVec 32) : Nat :=
  if qos &&& BitVec.ofNat 32 eventManagerQosFlag ≠ 0 then eventManagerQosFlag
  else (qos &&& 0x003fff00).toNat

/-- `qos_bucket` of a tier. -/
def tierQosBucket (contract : PthreadContract) (tier : XnuQosTier) : Nat :=
  if tier = .unspecified then 0
  else
    2 ^ (tier.rank + if contract.priorityEncoding = .fineClassBitsWithMaintenance then 7 else 6)

namespace KeventRegistration

def has (registration : KeventRegistration) (flag : BitVec 16) : Bool :=
  registration.flags &&& flag ≠ 0

/-- A knote of a port that receives the message itself. -/
def receives (registration : KeventRegistration) : Bool :=
  registration.filter = .machPort && registration.filterFlags &&& optionReceive ≠ 0

/-- The bucket of `workqueue_kevent_qos`. -/
def bucket (registration : KeventRegistration) (contract : PthreadContract) (message : XnuQosTier) :
    Nat :=
  let bucket := workqueueQosBucket registration.qos
  if contract.priorityEncoding = .queueIndex then bucket
  else if bucket = 0 ∨ bucket = eventManagerQosFlag then bucket
  else if !registration.receives then bucket
  else max bucket (tierQosBucket contract message)

/-- The bucket in which a collection of events finds the knote. -/
def currentBucket (registration : KeventRegistration) (contract : PthreadContract)
    (ports : KeventPorts) : Nat :=
  if registration.enabled && !registration.deferredDelete && registration.receives then
    registration.bucket contract
      (((ports.ready registration.ident).map Prod.snd).getD .unspecified)
  else registration.bucket contract .unspecified

end KeventRegistration

structure KeventSourceState where
  ready : Bool := false
  filterFlags : BitVec 32 := 0
  available : Nat := 0
  resultFlags : BitVec 16 := 0
  processExecGeneration : Nat := 0
  processExitGeneration : Nat := 0
  deriving DecidableEq, Repr

/-- `kevent_source_state` -/
def keventSourceState (sources : KeventSources) (registration : KeventRegistration) :
    Option KeventSourceState :=
  match registration.filter with
  | .process =>
    match sources.processes registration.ident with
    | none => some { resultFlags := eventClear }
    | some process =>
      let execed := registration.filterFlags &&& processNoteExec ≠ 0 ∧
        process.execGeneration ≠ registration.processExecGeneration
      let exited := registration.filterFlags &&& processNoteExit ≠ 0 ∧
        process.exitGeneration ≠ registration.processExitGeneration
      let filterFlags :=
        (if execed then processNoteExec else 0) ||| (if exited then processNoteExit else 0)
      some
        { ready := filterFlags ≠ 0
          filterFlags
          available := if exited then process.waitStatus else 0
          resultFlags := (if exited then eventEndOfFile ||| eventOneShot else 0) ||| eventClear
          processExecGeneration := process.execGeneration
          processExitGeneration := process.exitGeneration }
  | .vnode =>
    let flags := registration.vnodeWatch.getD 0 &&& registration.filterFlags
    some { ready := flags ≠ 0, filterFlags := flags }
  | .timer => some { ready := registration.timer.any fun timer => timer.expirations sources.now ≠ 0 }
  | .user =>
    some
      { ready := registration.userTriggered
        filterFlags := registration.filterFlags
        available := (registration.data % 2 ^ 32).toNat }
  | .read | .write | .machPort => none
  | .other => some {}

/-- What a collection of events sees of a knote's source. -/
def observeKevent (sources : KeventSources) (ports : KeventPorts)
    (registration : KeventRegistration) : KeventSourceState :=
  let state := (keventSourceState sources registration).getD {}
  match registration.filter with
  | .read =>
    { state with
      ready :=
        match sources.terminalListener registration.ident with
        | some connections => connections ≠ 0
        | none => sources.readable registration.ident
      available := (sources.terminalListener registration.ident).getD
        (sources.pending .read registration.ident)
      resultFlags := if sources.ended .read registration.ident then eventEndOfFile else 0 }
  | .write =>
    { state with
      ready := sources.writable registration.ident
      available := sources.pending .write registration.ident
      resultFlags := if sources.ended .write registration.ident then eventEndOfFile else 0 }
  | .machPort =>
    let found := ports.ready registration.ident
    { state with ready := found.isSome, available := (found.map Prod.fst).getD 0 }
  | _ => state

namespace KeventRegistration

/-- Whether a delivery that nothing followed keeps the knote from being reported again. -/
def suppressed (registration : KeventRegistration) (available : Nat) : Bool :=
  registration.has eventClear && registration.filter ≠ .process && registration.filter ≠ .timer &&
    registration.filter ≠ .vnode && registration.filter ≠ .machPort &&
    registration.clearDelivered && registration.clearAvailable = available

/-- An enabled knote whose source has an event that was not delivered. -/
def pending (registration : KeventRegistration) (sources : KeventSources) (ports : KeventPorts) :
    Bool :=
  let seen := observeKevent sources ports registration
  registration.enabled && (registration.deferredDelete ||
    seen.ready && !registration.suppressed seen.available)

end KeventRegistration
end ILEmu
