import ILEmu.Foundation.Containers
import Mathlib.Data.BitVec
import Mathlib.Data.Fintype.Pi

/-! Mach rights and the entry that one name of a task holds. -/
namespace ILEmu
open Foundation

abbrev TaskId := Nat
abbrev MachName := Nat
abbrev MachObject := Nat
abbrev MachTypeMask := BitVec 32

namespace Xnu.Ipc

def nullName : MachName := 0
def deadName : MachName := 0xffffffff
def firstDynamicName : MachName := 0x00010003
def nameIndexStride : MachName := 0x100
/-- `std::numeric_limits<MachName>::max()` -/
def maximumName : MachName := 0xffffffff
def maximumUserReferences : Nat := 0xffff
def maximumSendUserReferences : Nat := maximumUserReferences - 1

end Xnu.Ipc

open Xnu.Ipc

inductive Right where
  | send | receive | sendOnce | portSet | deadName
  deriving DecidableEq, Repr

instance : Fintype Right where
  elems := {.send, .receive, .sendOnce, .portSet, .deadName}
  complete := fun right => by cases right <;> decide

namespace Right

def index : Right → Nat
  | send => 0
  | receive => 1
  | sendOnce => 2
  | portSet => 3
  | deadName => 4

def typeMask (right : Right) : MachTypeMask := BitVec.twoPow 32 (right.index + 16)

/-- `(type & type_mask(right)) != 0` -/
def isIn (right : Right) (type : MachTypeMask) : Bool := type &&& right.typeMask != BitVec.ofNat 32 0

/-- The rights of `reference_counted_types`. -/
def referenceCounted (right : Right) : Bool := right = send || right = deadName

def maximumReferences (right : Right) : Nat :=
  if right = send then maximumSendUserReferences else maximumUserReferences

theorem isIn_eq (right : Right) (type : MachTypeMask) :
    right.isIn type = type.getLsbD (right.index + 16) := by
  have nonzero : right.typeMask ≠ BitVec.ofNat 32 0 := by cases right <;> decide
  unfold isIn
  unfold typeMask at nonzero ⊢
  rw [BitVec.and_twoPow]
  cases type.getLsbD (right.index + 16) with
  | false => simp
  | true => simpa using nonzero

@[simp] theorem isIn_zero (right : Right) : right.isIn (BitVec.ofNat 32 0) = false := by
  rw [isIn_eq]
  exact BitVec.getLsbD_zero

@[simp] theorem isIn_or (right : Right) (type more : MachTypeMask) :
    right.isIn (type ||| more) = (right.isIn type || right.isIn more) := by
  simp only [isIn_eq, BitVec.getLsbD_or]

@[simp] theorem isIn_and (right : Right) (type more : MachTypeMask) :
    right.isIn (type &&& more) = (right.isIn type && right.isIn more) := by
  simp only [isIn_eq, BitVec.getLsbD_and]

@[simp] theorem isIn_not (right : Right) (type : MachTypeMask) :
    right.isIn (~~~type) = !right.isIn type := by
  have inside : right.index + 16 < 32 := by cases right <;> decide
  simp only [isIn_eq, BitVec.getLsbD_not, inside, decide_true, Bool.true_and]

@[simp] theorem isIn_typeMask (right other : Right) :
    right.isIn other.typeMask = decide (right = other) := by
  cases right <;> cases other <;> decide

end Right

structure NameEntry where
  object : MachObject
  type : MachTypeMask
  userReferences : Right → Nat
  deriving DecidableEq

structure NamedEntry where
  task : TaskId
  name : MachName
  entry : NameEntry
  deriving DecidableEq

namespace NameEntry

def makeEntry (object : MachObject) (type : MachTypeMask) (references : Nat) : NameEntry where
  object := object
  type := type
  userReferences := fun right => if right.isIn type then max 1 references else 0

def addTypes (entry : NameEntry) (type : MachTypeMask) (references : Nat) (copyout : Bool) :
    NameEntry :=
  { entry with
    type := entry.type ||| type
    userReferences := fun right =>
      let held := entry.userReferences right
      if ¬ right.isIn type then held
      else if ¬ right.isIn entry.type then max 1 references
      else if right.referenceCounted && copyout then
        -- a copied-out right leaves its references pegged at the maximum
        if held < right.maximumReferences then held + 1 else held
      else max held references }

/-- `entry.type &= ~mask` -/
def dropType (entry : NameEntry) (mask : MachTypeMask) : NameEntry :=
  { entry with type := entry.type &&& ~~~mask }

/-- The loop of `remove_type` that clears the counters of the rights in the mask. -/
def clearReferences (entry : NameEntry) (mask : MachTypeMask) : NameEntry :=
  { entry with
    userReferences := fun right => if right.isIn mask then 0 else entry.userReferences right }

def without (entry : NameEntry) (mask : MachTypeMask) : NameEntry :=
  (entry.dropType mask).clearReferences mask

def setReferences (entry : NameEntry) (right : Right) (references : Nat) : NameEntry :=
  { entry with userReferences := Function.update entry.userReferences right references }

def converted : MachTypeMask := Right.send.typeMask ||| Right.sendOnce.typeMask

/-- The body of the loop in `mark_object_dead` on an entry with a send right. -/
def killed (entry : NameEntry) : NameEntry :=
  let combined := entry.userReferences .send + entry.userReferences .sendOnce
  let references := min (max combined 1) 0xffffffff
  { entry with
    type := entry.type &&& ~~~converted ||| Right.deadName.typeMask
    userReferences := fun
      | .send => 0
      | .sendOnce => 0
      | .deadName => references
      | right => entry.userReferences right }

@[simp] theorem makeEntry_object (object : MachObject) (type : MachTypeMask) (references : Nat) :
    (makeEntry object type references).object = object := rfl

@[simp] theorem makeEntry_type (object : MachObject) (type : MachTypeMask) (references : Nat) :
    (makeEntry object type references).type = type := rfl

section
variable (entry : NameEntry) (type : MachTypeMask) (right : Right) (references : Nat)

@[simp] theorem addTypes_object (copyout : Bool) :
    (entry.addTypes type references copyout).object = entry.object := rfl

@[simp] theorem addTypes_type (copyout : Bool) :
    (entry.addTypes type references copyout).type = entry.type ||| type := rfl

@[simp] theorem without_object : (entry.without type).object = entry.object := rfl

@[simp] theorem without_type : (entry.without type).type = entry.type &&& ~~~type := rfl

@[simp] theorem setReferences_object :
    (entry.setReferences right references).object = entry.object := rfl

@[simp] theorem setReferences_type :
    (entry.setReferences right references).type = entry.type := rfl

/-- A right whose counter reaches zero leaves the entry as `remove_type` takes it out. -/
theorem dropType_setReferences :
    (entry.setReferences right 0).dropType right.typeMask = entry.without right.typeMask := by
  simp only [without, dropType, clearReferences, setReferences, NameEntry.mk.injEq, true_and]
  funext other
  by_cases same : other = right
  · subst other
    simp
  · simp [same]

@[simp] theorem killed_object : entry.killed.object = entry.object := rfl

@[simp] theorem killed_type :
    entry.killed.type = entry.type &&& ~~~converted ||| Right.deadName.typeMask := rfl

end
end NameEntry
end ILEmu
