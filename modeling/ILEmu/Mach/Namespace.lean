import ILEmu.Foundation.Checked
import ILEmu.Foundation.Postings
import ILEmu.Foundation.Run
import ILEmu.Mach.Names

/-! The table of Mach name spaces: one space for each task, its names, and the
index of the names by the object they denote. -/
namespace ILEmu
open Foundation Xnu.Ipc

/-- What `std::unordered_map::at` throws on. -/
inductive NamespaceFault where
  | noName (name : MachName)
  | noObject (object : MachObject)
  deriving DecidableEq, Repr

abbrev Guarded (α : Type) := Except NamespaceFault α

structure ObjectNames where
  names : List MachName := []
  rights : MachTypeMask := BitVec.ofNat 32 0
  deriving DecidableEq

structure Space where
  nextName : MachName := firstDynamicName
  entries : Table MachName NameEntry := ∅
  namesByObject : Table MachObject ObjectNames := ∅
  deriving DecidableEq

def validName (name : MachName) : Bool := name ≠ nullName && name ≠ deadName

namespace Space

/-- `space.entries.at(name)` -/
def entryAt (space : Space) (name : MachName) : Guarded NameEntry :=
  match space.entries.lookup name with
  | some entry => .ok entry
  | none => .error (.noName name)

/-- `space.names_by_object.at(object)` -/
def namesAt (space : Space) (object : MachObject) : Guarded ObjectNames :=
  match space.namesByObject.lookup object with
  | some indexed => .ok indexed
  | none => .error (.noObject object)

def setEntry (space : Space) (name : MachName) (entry : NameEntry) : Space :=
  { space with entries := space.entries.insert name entry }

def eraseEntry (space : Space) (name : MachName) : Space :=
  { space with entries := space.entries.erase name }

def setNames (space : Space) (object : MachObject) (indexed : ObjectNames) : Space :=
  { space with namesByObject := space.namesByObject.insert object indexed }

def indexName (space : Space) (object : MachObject) (name : MachName) : Guarded Space := do
  let indexed := (space.namesByObject.lookup object).getD {}
  let entry ← space.entryAt name
  return space.setNames object
    { names := insertSorted name indexed.names, rights := indexed.rights ||| entry.type }

/-- The loop of `refresh_indexed_rights`: once every previous right is found, no further
alias can add one. -/
def gatherRights (space : Space) (previous : MachTypeMask) :
    List MachName → MachTypeMask → Guarded MachTypeMask
  | [], rights => .ok rights
  | name :: rest, rights => do
    let entry ← space.entryAt name
    let rights := rights ||| entry.type
    if rights &&& previous = previous then return rights
    else space.gatherRights previous rest rights

def refreshIndexedRights (space : Space) (object : MachObject) : Guarded Space :=
  match space.namesByObject.lookup object with
  | none => .ok space
  | some indexed => do
    let rights ← space.gatherRights indexed.rights indexed.names (BitVec.ofNat 32 0)
    return space.setNames object { indexed with rights }

def unindexName (space : Space) (object : MachObject) (name : MachName) : Guarded Space :=
  match space.namesByObject.lookup object with
  | none => .ok space
  | some indexed =>
    let names := eraseSorted name indexed.names
    if names = [] then
      .ok { space with namesByObject := space.namesByObject.erase object }
    else (space.setNames object { indexed with names }).refreshIndexedRights object

def indexedNames (space : Space) (object : MachObject) : Option (List MachName) :=
  (space.namesByObject.lookup object).map ObjectNames.names

/-- `space.names_by_object.at(object).rights |= type` -/
def addIndexedRights (space : Space) (object : MachObject) (type : MachTypeMask) :
    Guarded Space := do
  let indexed ← space.namesAt object
  return space.setNames object { indexed with rights := indexed.rights ||| type }

/-- The search loop of `allocate`. It steps at most once past each multiple of the stride
below the top of the range, which is what the fuel counts. -/
def freeName (space : Space) : Nat → MachName → Option MachName
  | 0, _ => none
  | fuel + 1, candidate =>
    if ¬ validName candidate ∨ (space.entries.lookup candidate).isSome then
      if maximumName - nameIndexStride < candidate then none
      else space.freeName fuel (candidate + nameIndexStride)
    else some candidate

def searchLength (candidate : MachName) : Nat := (maximumName - candidate) / nameIndexStride + 1

def allocate (space : Space) (object : MachObject) (type : MachTypeMask) :
    Guarded (Space × Option MachName) :=
  match space.freeName (searchLength space.nextName) space.nextName with
  | none => .ok (space, none)
  | some candidate => do
    let space ← (space.setEntry candidate (.makeEntry object type 1)).indexName object candidate
    let space :=
      if candidate ≤ maximumName - nameIndexStride then
        { space with nextName := candidate + nameIndexStride }
      else space
    return (space, some candidate)

/-- The loop of `copyout` over the names of the object: the first name that is not a
send-once alias, which never takes an ordinary capability. -/
def reusableName (space : Space) : List MachName → Guarded (Option (MachName × NameEntry))
  | [] => .ok none
  | name :: rest => do
    let entry ← space.entryAt name
    if Right.sendOnce.isIn entry.type then space.reusableName rest
    else return some (name, entry)

/-- The part of `copyout` and `copyout_at_name` that adds the right to a name of the object. -/
def coalesce (space : Space) (object : MachObject) (type : MachTypeMask) :
    Guarded (Option (Space × MachName)) := do
  match ← space.reusableName ((space.indexedNames object).getD []) with
  | none => return none
  | some (name, entry) =>
    let space ← (space.setEntry name (entry.addTypes type 1 true)).addIndexedRights object type
    return some (space, name)

/-- An entry that lost rights leaves the space with its last one. -/
def settleEntry (space : Space) (name : MachName) (entry : NameEntry) : Guarded Space :=
  let space := space.setEntry name entry
  if entry.type = BitVec.ofNat 32 0 then do
    let space ← space.unindexName entry.object name
    return space.eraseEntry name
  else space.refreshIndexedRights entry.object

/-- The loop of `mark_object_dead` over the names of the object in one space. -/
def killNames (task : TaskId) : Space → List MachName → Guarded (Space × List NamedEntry)
  | space, [] => .ok (space, [])
  | space, name :: rest => do
    let entry ← space.entryAt name
    if entry.type &&& NameEntry.converted = BitVec.ofNat 32 0 then killNames task space rest
    else
      let (space, affected) ← killNames task (space.setEntry name entry.killed) rest
      return (space, { task, name, entry } :: affected)

/-- `mark_object_dead` on one space. -/
def killObject (space : Space) (task : TaskId) (object : MachObject) :
    Guarded (Space × List NamedEntry) :=
  match space.indexedNames object with
  | none => .ok (space, [])
  | some names => do
    let (space, affected) ← space.killNames task names
    let indexed ← space.namesAt object
    if indexed.rights &&& NameEntry.converted = BitVec.ofNat 32 0 then return (space, affected)
    else
      let rights := indexed.rights &&& ~~~NameEntry.converted ||| Right.deadName.typeMask
      return (space.setNames object { indexed with rights }, affected)

end Space

structure MachNamespaceTable where
  spaces : Table TaskId Space := ∅
  deriving DecidableEq

namespace MachNamespaceTable

def setSpace (table : MachNamespaceTable) (task : TaskId) (space : Space) : MachNamespaceTable :=
  { table with spaces := table.spaces.insert task space }

/-- `spaces_[task]`, which makes an empty space for a task without one. -/
def openSpace (table : MachNamespaceTable) (task : TaskId) : Space :=
  (table.spaces.lookup task).getD {}

def createTask (table : MachNamespaceTable) (task : TaskId) : MachNamespaceTable :=
  if (table.spaces.lookup task).isSome then table else table.setSpace task {}

def destroyTask (table : MachNamespaceTable) (task : TaskId) : MachNamespaceTable :=
  { table with spaces := table.spaces.erase task }

def install (table : MachNamespaceTable) (task : TaskId) (name : MachName) (object : MachObject)
    (type : MachTypeMask) (userReferences : Nat) : Guarded (MachNamespaceTable × Bool) :=
  if ¬ validName name ∨ object = nullName ∨ type = BitVec.ofNat 32 0 then .ok (table, false)
  else
    let space := table.openSpace task
    match space.entries.lookup name with
    | some entry =>
      if entry.object ≠ object then .ok (table.setSpace task space, false)
      else do
        let space := space.setEntry name (entry.addTypes type userReferences true)
        let space ← space.addIndexedRights object type
        return (table.setSpace task space, true)
    | none => do
      let space := space.setEntry name (.makeEntry object type userReferences)
      let space ← space.indexName object name
      return (table.setSpace task space, true)

def allocate (table : MachNamespaceTable) (task : TaskId) (object : MachObject)
    (type : MachTypeMask) : Guarded (MachNamespaceTable × Option MachName) :=
  if object = nullName ∨ type = BitVec.ofNat 32 0 then .ok (table, none)
  else do
    let (space, name) ← (table.openSpace task).allocate object type
    return (table.setSpace task space, name)

def copyout (table : MachNamespaceTable) (task : TaskId) (object : MachObject)
    (type : MachTypeMask) : Guarded (MachNamespaceTable × Option MachName) := do
  let space := table.openSpace task
  let table := table.setSpace task space
  -- send-once rights never coalesce: each outstanding reply right has a name of its own
  if Right.sendOnce.isIn type then table.allocate task object type
  else
    match ← space.coalesce object type with
    | some (space, name) => return (table.setSpace task space, some name)
    | none => table.allocate task object type

/-- The tail of `copyout_at_name`: the preferred name if it is free, any name otherwise. -/
def placeAtName (table : MachNamespaceTable) (task : TaskId) (object : MachObject)
    (type : MachTypeMask) (preferredName : MachName) :
    Guarded (MachNamespaceTable × Option MachName) :=
  let space := table.openSpace task
  if object = nullName ∨ type = BitVec.ofNat 32 0 ∨ ¬ validName preferredName ∨
      (space.entries.lookup preferredName).isSome then table.allocate task object type
  else do
    let space := space.setEntry preferredName (.makeEntry object type 1)
    let space ← space.indexName object preferredName
    return (table.setSpace task space, some preferredName)

def copyoutAtName (table : MachNamespaceTable) (task : TaskId) (object : MachObject)
    (type : MachTypeMask) (preferredName : MachName) :
    Guarded (MachNamespaceTable × Option MachName) := do
  let space := table.openSpace task
  let table := table.setSpace task space
  if Right.sendOnce.isIn type then table.placeAtName task object type preferredName
  else
    match ← space.coalesce object type with
    | some (space, name) => return (table.setSpace task space, some name)
    | none => table.placeAtName task object type preferredName

def lookup (table : MachNamespaceTable) (task : TaskId) (name : MachName) : Option NameEntry := do
  let space ← table.spaces.lookup task
  space.entries.lookup name

def resolve (table : MachNamespaceTable) (task : TaskId) (name : MachName) : Option MachObject :=
  (table.lookup task name).map NameEntry.object

def nameFor (table : MachNamespaceTable) (task : TaskId) (object : MachObject) :
    Option MachName := do
  let space ← table.spaces.lookup task
  let names ← space.indexedNames object
  names.head?

def nameForRight (table : MachNamespaceTable) (task : TaskId) (object : MachObject)
    (right : Right) : Option MachName := do
  let space ← table.spaces.lookup task
  let names ← space.indexedNames object
  names.find? fun name => (space.entries.lookup name).any fun entry => right.isIn entry.type

def type (table : MachNamespaceTable) (task : TaskId) (name : MachName) : Option MachTypeMask :=
  if name = deadName then some Right.deadName.typeMask
  else (table.lookup task name).map NameEntry.type

def ownsRight (table : MachNamespaceTable) (task : TaskId) (object : MachObject)
    (right : Right) : Bool :=
  (table.spaces.lookup task).any fun space =>
    (space.namesByObject.lookup object).any fun indexed => right.isIn indexed.rights

def entriesOf (task : TaskId) (space : Space) : List NamedEntry :=
  (space.entries.entries.map fun stored => { task, name := stored.1, entry := stored.2 })
    |>.insertionSort fun left right => left.name ≤ right.name

def entries (table : MachNamespaceTable) (task : TaskId) : List NamedEntry :=
  match table.spaces.lookup task with
  | none => []
  | some space => entriesOf task space

/-- The references to the object in one space, as `right_reference_count` adds them up. -/
def countIn (right : Right) (space : Space) : List MachName → Nat → Guarded Nat
  | [], count => .ok count
  | name :: rest, count => do
    let entry ← space.entryAt name
    if right.isIn entry.type then
      countIn right space rest ((count + entry.userReferences right) % 2 ^ 64)
    else countIn right space rest count

def countSpace (object : MachObject) (right : Right) (count : Nat) (space : Space) : Guarded Nat :=
  match space.indexedNames object with
  | none => .ok count
  | some names => countIn right space names count

def rightReferenceCount (table : MachNamespaceTable) (object : MachObject) (right : Right) :
    Guarded Nat :=
  (table.spaces.entries.map fun stored => stored.2).foldlM (countSpace object right) 0

def userReferences (table : MachNamespaceTable) (task : TaskId) (name : MachName)
    (right : Right) : Option Nat := do
  let entry ← table.lookup task name
  if right.isIn entry.type then some (entry.userReferences right) else none

def rename (table : MachNamespaceTable) (task : TaskId) (oldName newName : MachName) :
    Guarded (MachNamespaceTable × Bool) :=
  if ¬ validName oldName ∨ ¬ validName newName then .ok (table, false)
  else
    match table.spaces.lookup task with
    | none => .ok (table, false)
    | some space =>
      if (space.entries.lookup newName).isSome then .ok (table, false)
      else
        match space.entries.lookup oldName with
        | none => .ok (table, false)
        | some entry => do
          let space := (space.eraseEntry oldName).setEntry newName entry
          let space ← space.unindexName entry.object oldName
          let space ← space.indexName entry.object newName
          return (table.setSpace task space, true)

/-- The guard of `modify_references` on a positive delta, and the counter after it. -/
def raised (right : Right) (references amount : Nat) : Option Nat :=
  if right.maximumReferences < references ∨ right.maximumReferences - references < amount then none
  else some (references + amount)

def modifyReferences (table : MachNamespaceTable) (task : TaskId) (name : MachName)
    (right : Right) (delta : Int) : Guarded (MachNamespaceTable × Bool) :=
  match table.spaces.lookup task with
  | none => .ok (table, false)
  | some space =>
    match space.entries.lookup name with
    | none => .ok (table, false)
    | some entry =>
      let references := entry.userReferences right
      if ¬ right.isIn entry.type then .ok (table, false)
      else if 0 < delta then
        if ¬ right.referenceCounted then .ok (table, false)
        else
          match raised right references delta.toNat with
          | none => .ok (table, false)
          | some references =>
            .ok (table.setSpace task (space.setEntry name (entry.setReferences right references)),
              true)
      else
        let magnitude := (-delta).toNat
        if references < magnitude then .ok (table, false)
        else do
          let references := references - magnitude
          let entry := entry.setReferences right references
          if references = 0 then
            let space ← space.settleEntry name (entry.dropType right.typeMask)
            return (table.setSpace task space, true)
          else return (table.setSpace task (space.setEntry name entry), true)

def destroyName (table : MachNamespaceTable) (task : TaskId) (name : MachName) :
    Guarded (MachNamespaceTable × Option NameEntry) :=
  match table.spaces.lookup task with
  | none => .ok (table, none)
  | some space =>
    match space.entries.lookup name with
    | none => .ok (table, none)
    | some removed => do
      let space ← space.unindexName removed.object name
      return (table.setSpace task (space.eraseEntry name), some removed)

def killIn (object : MachObject) (state : MachNamespaceTable × List NamedEntry) (task : TaskId) :
    Guarded (MachNamespaceTable × List NamedEntry) :=
  match state.1.spaces.lookup task with
  | none => .ok state
  | some space => do
    let (space, affected) ← space.killObject task object
    return (state.1.setSpace task space, state.2 ++ affected)

def markObjectDead (table : MachNamespaceTable) (object : MachObject) :
    Guarded (MachNamespaceTable × List NamedEntry) := do
  let (table, affected) ← table.spaces.keys.foldlM (killIn object) (table, [])
  return (table, affected.insertionSort fun left right =>
    left.task < right.task ∨ left.task = right.task ∧ left.name ≤ right.name)

def removeType (table : MachNamespaceTable) (task : TaskId) (name : MachName)
    (type : MachTypeMask) : Guarded (MachNamespaceTable × Bool) :=
  match table.spaces.lookup task with
  | none => .ok (table, false)
  | some space =>
    match space.entries.lookup name with
    | none => .ok (table, false)
    | some entry =>
      if entry.type &&& type = BitVec.ofNat 32 0 then .ok (table, false)
      else do
        let space ← space.settleEntry name ((entry.dropType type).clearReferences type)
        return (table.setSpace task space, true)

def releasable : MachTypeMask :=
  Right.send.typeMask ||| Right.sendOnce.typeMask ||| Right.deadName.typeMask

/-- The right that `deallocate` releases a reference of. -/
def released (type : MachTypeMask) : Right :=
  if Right.send.isIn type then .send
  else if Right.sendOnce.isIn type then .sendOnce
  else .deadName

def deallocate (table : MachNamespaceTable) (task : TaskId) (name : MachName) :
    Guarded (MachNamespaceTable × Bool) :=
  match table.spaces.lookup task with
  | none => .ok (table, false)
  | some space =>
    match space.entries.lookup name with
    | none => .ok (table, false)
    | some entry =>
      let available := entry.type &&& releasable
      if available = BitVec.ofNat 32 0 then .ok (table, false)
      else
        let right := released available
        let references := entry.userReferences right
        if 1 < references then
          .ok (table.setSpace task
            (space.setEntry name (entry.setReferences right (references - 1))), true)
        else do
          let entry := (entry.setReferences right 0).dropType right.typeMask
          let space ← space.settleEntry name entry
          return (table.setSpace task space, true)

end MachNamespaceTable

/-- The operations that can change a table. -/
inductive NamespaceOperation where
  | createTask (task : TaskId)
  | destroyTask (task : TaskId)
  | install (task : TaskId) (name : MachName) (object : MachObject) (type : MachTypeMask)
      (userReferences : Nat)
  | allocate (task : TaskId) (object : MachObject) (type : MachTypeMask)
  | copyout (task : TaskId) (object : MachObject) (type : MachTypeMask)
  | copyoutAtName (task : TaskId) (object : MachObject) (type : MachTypeMask)
      (preferredName : MachName)
  | rename (task : TaskId) (oldName newName : MachName)
  | modifyReferences (task : TaskId) (name : MachName) (right : Right) (delta : Int)
  | destroyName (task : TaskId) (name : MachName)
  | markObjectDead (object : MachObject)
  | removeType (task : TaskId) (name : MachName) (type : MachTypeMask)
  | deallocate (task : TaskId) (name : MachName)
  deriving DecidableEq

namespace MachNamespaceTable

/-- The table that an operation leaves behind; what the operation answers is dropped. -/
def perform (table : MachNamespaceTable) : NamespaceOperation → Guarded MachNamespaceTable
  | .createTask task => .ok (table.createTask task)
  | .destroyTask task => .ok (table.destroyTask task)
  | .install task name object type references =>
    Prod.fst <$> table.install task name object type references
  | .allocate task object type => Prod.fst <$> table.allocate task object type
  | .copyout task object type => Prod.fst <$> table.copyout task object type
  | .copyoutAtName task object type name =>
    Prod.fst <$> table.copyoutAtName task object type name
  | .rename task oldName newName => Prod.fst <$> table.rename task oldName newName
  | .modifyReferences task name right delta =>
    Prod.fst <$> table.modifyReferences task name right delta
  | .destroyName task name => Prod.fst <$> table.destroyName task name
  | .markObjectDead object => Prod.fst <$> table.markObjectDead object
  | .removeType task name type => Prod.fst <$> table.removeType task name type
  | .deallocate task name => Prod.fst <$> table.deallocate task name

/-- The state after an operation; no operation on a reachable table throws. -/
def after (table : MachNamespaceTable) (operation : NamespaceOperation) : MachNamespaceTable :=
  match table.perform operation with
  | .ok table => table
  | .error _ => table

def Reachable (table : MachNamespaceTable) : Prop :=
  ∃ operations, table = run after {} operations

theorem reachable_empty : Reachable {} := ⟨[], rfl⟩

theorem reachable_after (table : MachNamespaceTable) (operation : NamespaceOperation)
    (reachable : table.Reachable) : (table.after operation).Reachable := by
  obtain ⟨operations, rfl⟩ := reachable
  refine ⟨operations ++ [operation], ?_⟩
  rw [run_append]
  rfl

end MachNamespaceTable
end ILEmu
