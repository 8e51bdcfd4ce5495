import ILEmu.Foundation.Checked
import ILEmu.Foundation.Containers
import ILEmu.Foundation.Run

/-! The table of port objects: who owns each receive right, and the edge from a right in
transit to the port whose message carries it. -/
namespace ILEmu
open Foundation

abbrev PortObjectId := Nat
abbrev TaskIdentity := Nat

namespace Xnu.Ipc

def basicQueueLimit : Nat := 5
def largeQueueLimit : Nat := 1024
def defaultQueueLimit : Nat := basicQueueLimit
def maximumQueueLimit : Nat := largeQueueLimit

end Xnu.Ipc

open Xnu.Ipc

structure PortObject where
  /-- Zero for a kernel port and for a receive right in transit or in limbo. -/
  receiveOwner : TaskIdentity := 0
  kernelOwned : Bool := false
  makeSendCount : Nat := 0
  sendOnceRights : Nat := 0
  sequenceNumber : Nat := 0
  queueLimit : Nat := defaultQueueLimit
  temporaryOwner : Bool := false
  importanceReceiver : Bool := false
  guarded : Option Nat := none
  strictGuard : Bool := false
  transitDestination : PortObjectId := 0
  deriving DecidableEq, Repr

inductive PortFault where
  | assertion (text : String)
  /-- `objects_.at(object)` -/
  | noObject (object : PortObjectId)
  /-- A loop that would not end. -/
  | endless
  deriving DecidableEq, Repr

structure PortObjectTable where
  objects : Table PortObjectId PortObject := ∅
  deriving DecidableEq

namespace PortObjectTable

def lookup (table : PortObjectTable) (object : PortObjectId) : Option PortObject :=
  table.objects.lookup object

def contains (table : PortObjectTable) (object : PortObjectId) : Bool :=
  (table.lookup object).isSome

def create (table : PortObjectTable) (object : PortObjectId) (receiveOwner : TaskIdentity) :
    PortObjectTable × Bool :=
  if object = 0 ∨ object = 0xffffffff then (table, false)
  else if table.contains object then (table, false)
  else
    let port : PortObject := { receiveOwner, kernelOwned := receiveOwner = 0 }
    ({ table with objects := table.objects.insert object port }, true)

/-- The shape of every setter: find the object, change it, report whether it was there. -/
def modify (table : PortObjectTable) (object : PortObjectId) (change : PortObject → PortObject) :
    PortObjectTable × Bool :=
  match table.lookup object with
  | none => (table, false)
  | some port => ({ table with objects := table.objects.insert object (change port) }, true)

def setReceiveOwner (table : PortObjectTable) (object : PortObjectId)
    (receiveOwner : TaskIdentity) : PortObjectTable × Bool :=
  table.modify object fun port =>
    { port with
      receiveOwner
      transitDestination := 0
      temporaryOwner := if receiveOwner ≠ 0 then false else port.temporaryOwner }

def setTemporaryOwner (table : PortObjectTable) (object : PortObjectId) :
    PortObjectTable × Bool :=
  if (table.lookup object).any PortObject.kernelOwned then (table, false)
  else table.modify object fun port =>
    { port with temporaryOwner := true, importanceReceiver := true }

def setImportanceReceiver (table : PortObjectTable) (object : PortObjectId) :
    PortObjectTable × Bool :=
  if (table.lookup object).any PortObject.kernelOwned then (table, false)
  else table.modify object fun port => { port with importanceReceiver := true }

def clearReceiver (table : PortObjectTable) (object : PortObjectId) : PortObjectTable × Bool :=
  table.modify object fun port =>
    { port with
      receiveOwner := 0
      transitDestination := 0
      makeSendCount := 0
      sequenceNumber := 0
      guarded := none
      strictGuard := false }

/-- The loop of `check_circularity`, which has no bound of its own: whether the chain from
`base` comes to the object. -/
def comesTo (table : PortObjectTable) (object : PortObjectId) :
    Nat → PortObjectId → Except PortFault Bool
  | 0, _ => .error .endless
  | steps + 1, base =>
    if base = object then .ok true
    else
      match table.lookup base with
      | none => .ok false
      | some port =>
        if port.receiveOwner ≠ 0 ∨ port.transitDestination = 0 then .ok false
        else table.comesTo object steps port.transitDestination

/-- The steps that a chain without a cycle can take at most. -/
def stepBound (table : PortObjectTable) : Nat := table.objects.keys.length + 1

def checkCircularity (table : PortObjectTable) (object destination : PortObjectId) :
    Except PortFault (PortObjectTable × Bool) :=
  match table.lookup object with
  | none => .ok (table, false)
  | some source => do
    if ← table.comesTo object table.stepBound destination then return (table, true)
    let objects := table.objects.insert object { source with transitDestination := destination }
    if table.contains destination then return ({ table with objects }, false)
    else throw (.noObject destination)

def setMakeSendCount (table : PortObjectTable) (object : PortObjectId) (count : Nat) :
    PortObjectTable × Bool :=
  table.modify object fun port => { port with makeSendCount := count }

def setGuard (table : PortObjectTable) (object : PortObjectId) (guarded : Option Nat)
    (strict : Bool) : PortObjectTable × Bool :=
  table.modify object fun port => { port with guarded, strictGuard := guarded.isSome && strict }

def incrementMakeSendCount (table : PortObjectTable) (object : PortObjectId) :
    PortObjectTable × Bool :=
  table.modify object fun port => { port with makeSendCount := (port.makeSendCount + 1) % 2 ^ 32 }

def makeSendOnce (table : PortObjectTable) (object : PortObjectId) : PortObjectTable :=
  (table.modify object fun port =>
    { port with sendOnceRights := (port.sendOnceRights + 1) % 2 ^ 32 }).1

def releaseSendOnce (table : PortObjectTable) (object : PortObjectId) :
    Except PortFault PortObjectTable :=
  if (table.lookup object).any fun port => port.sendOnceRights = 0 then
    .error (.assertion "found->second.send_once_rights != 0U")
  else .ok (table.modify object fun port =>
    { port with sendOnceRights := port.sendOnceRights - 1 }).1

def setSequenceNumber (table : PortObjectTable) (object : PortObjectId) (sequence : Nat) :
    PortObjectTable × Bool :=
  table.modify object fun port => { port with sequenceNumber := sequence }

def incrementSequenceNumber (table : PortObjectTable) (object : PortObjectId) :
    PortObjectTable × Bool :=
  table.modify object fun port =>
    { port with sequenceNumber := (port.sequenceNumber + 1) % 2 ^ 32 }

def setQueueLimit (table : PortObjectTable) (object : PortObjectId) (queueLimit : Nat) :
    PortObjectTable × Bool :=
  if maximumQueueLimit < queueLimit then (table, false)
  else table.modify object fun port => { port with queueLimit }

def erase (table : PortObjectTable) (object : PortObjectId) : PortObjectTable × Bool :=
  if table.contains object then ({ table with objects := table.objects.erase object }, true)
  else (table, false)

end PortObjectTable

/-- The operations that can change a table. -/
inductive PortOperation where
  | create (object : PortObjectId) (receiveOwner : TaskIdentity)
  | setReceiveOwner (object : PortObjectId) (receiveOwner : TaskIdentity)
  | setTemporaryOwner (object : PortObjectId)
  | setImportanceReceiver (object : PortObjectId)
  | clearReceiver (object : PortObjectId)
  | checkCircularity (object destination : PortObjectId)
  | setMakeSendCount (object : PortObjectId) (count : Nat)
  | setGuard (object : PortObjectId) (guarded : Option Nat) (strict : Bool)
  | incrementMakeSendCount (object : PortObjectId)
  | makeSendOnce (object : PortObjectId)
  | releaseSendOnce (object : PortObjectId)
  | setSequenceNumber (object : PortObjectId) (sequence : Nat)
  | incrementSequenceNumber (object : PortObjectId)
  | setQueueLimit (object : PortObjectId) (queueLimit : Nat)
  | erase (object : PortObjectId)
  deriving DecidableEq, Repr

namespace PortObjectTable

def perform (table : PortObjectTable) : PortOperation → Except PortFault PortObjectTable
  | .create object owner => .ok (table.create object owner).1
  | .setReceiveOwner object owner => .ok (table.setReceiveOwner object owner).1
  | .setTemporaryOwner object => .ok (table.setTemporaryOwner object).1
  | .setImportanceReceiver object => .ok (table.setImportanceReceiver object).1
  | .clearReceiver object => .ok (table.clearReceiver object).1
  | .checkCircularity object destination =>
    Prod.fst <$> table.checkCircularity object destination
  | .setMakeSendCount object count => .ok (table.setMakeSendCount object count).1
  | .setGuard object guarded strict => .ok (table.setGuard object guarded strict).1
  | .incrementMakeSendCount object => .ok (table.incrementMakeSendCount object).1
  | .makeSendOnce object => .ok (table.makeSendOnce object)
  | .releaseSendOnce object => table.releaseSendOnce object
  | .setSequenceNumber object sequence => .ok (table.setSequenceNumber object sequence).1
  | .incrementSequenceNumber object => .ok (table.incrementSequenceNumber object).1
  | .setQueueLimit object queueLimit => .ok (table.setQueueLimit object queueLimit).1
  | .erase object => .ok (table.erase object).1

/-- The state after an operation; the runs that are considered meet no fault. -/
def after (table : PortObjectTable) (operation : PortOperation) : PortObjectTable :=
  match table.perform operation with
  | .ok table => table
  | .error _ => table

end PortObjectTable
end ILEmu
