import ILEmu.Memory.FilePageCache
import Mathlib.Data.List.AList
import Mathlib.Data.List.Sort

/-! The generations of the pathnames of one emulator, and the queue of their mutations. -/
namespace ILEmu.Memory

open FilePageCache (Generation)

/-- The bytes of a pathname, or of one of its elements. -/
structure Path where
  bytes : List (BitVec 8)
  deriving DecidableEq, Repr

namespace Path

instance : LE Path := ⟨fun a b => a.bytes ≤ b.bytes⟩

instance : DecidableLE Path := fun a b => inferInstanceAs (Decidable (a.bytes ≤ b.bytes))

def separator : BitVec 8 := 0x2f
def root : Path := ⟨[separator]⟩
def dot : Path := ⟨[0x2e]⟩
def dotDot : Path := ⟨[0x2e, 0x2e]⟩

def isAbsolute (path : Path) : Bool := path.bytes.head? = some separator

/-- The names between separators; a trailing separator leaves an empty last name. -/
def names (relative : List (BitVec 8)) : List Path :=
  if relative = [] then []
  else
    let parts := relative.splitOn separator
    (parts.dropLast.filter (· ≠ []) ++ parts.getLast?.toList).map Path.mk

/-- The elements of a path as they are iterated over: the root, then the names. -/
def elements (path : Path) : List Path :=
  let relative := path.bytes.dropWhile (· = separator)
  if path.isAbsolute then root :: names relative else names relative

/-- What two lists of elements have after their common beginning. -/
def mismatch : List Path → List Path → List Path × List Path
  | a :: as, b :: bs => if a = b then mismatch as bs else (a :: as, b :: bs)
  | as, bs => (as, bs)

/-- `lexically_relative`, as the elements of its result. -/
def lexicallyRelative (path base : Path) : List Path :=
  if path.isAbsolute ≠ base.isAbsolute then []
  else
    let (ours, theirs) := mismatch path.elements base.elements
    if ours.isEmpty ∧ theirs.isEmpty then [dot]
    else
      let up : Int := theirs.foldl
        (fun count name =>
          if name = dotDot then count - 1
          else if name.bytes ≠ [] ∧ name ≠ dot then count + 1
          else count)
        0
      if up = 0 ∧ ours.head?.all (·.bytes.isEmpty) then [dot]
      else if 0 ≤ up then List.replicate up.toNat dotDot ++ ours
      else []

/-- The path is the subtree's or lies under it. -/
def inside (subtree candidate : Path) : Bool :=
  let relative := candidate.lexicallyRelative subtree
  candidate.elements = subtree.elements ||
    (relative ≠ [] && relative ≠ [dot] && relative.head? ≠ some dotDot)

example : inside ⟨[0x2f, 0x61]⟩ ⟨[0x2f, 0x61, 0x2f, 0x62]⟩ = true := by decide
example : inside ⟨[0x2f, 0x61]⟩ ⟨[0x2f, 0x61, 0x62]⟩ = false := by decide

end Path

inductive GuestFileMutationKind where
  | observation | write | truncate | rename | unlink | sharedWriteback | installReplace
  | subtreeCreate | subtreeRemove
  deriving DecidableEq, Repr

def mutationPriority : GuestFileMutationKind → Nat
  | .observation => 0
  | .sharedWriteback | .write => 1
  | .truncate => 2
  | .installReplace => 3
  | .rename | .unlink => 4
  | .subtreeCreate | .subtreeRemove => 5

structure GuestFileGenerationSnapshot where
  revision : Nat := 0
  generation : Option Generation := none
  mutation : GuestFileMutationKind := .observation
  contentIdentity : Option (BitVec 256) := none
  deriving DecidableEq

structure GuestFileMutationEvent where
  sequence : Nat
  path : Path
  mutation : GuestFileMutationKind
  dirtySubtree : Bool := false
  deriving DecidableEq, Repr

/-- The device and the inode of a vnode. -/
abbrev VnodeIdentity := BitVec 64 × BitVec 64

def GuestFileGenerationSnapshot.vnode (snapshot : GuestFileGenerationSnapshot) :
    Option VnodeIdentity :=
  snapshot.generation.map fun generation => (generation.device, generation.inode)

/-- What has been published, with the sequence number that came next, and what has been drained. -/
inductive HistoryItem where
  | published (path : Path) (mutation : GuestFileMutationKind) (sequence : Nat)
  | drained (event : GuestFileMutationEvent)
  deriving DecidableEq, Repr

def maximumTrackedPaths : Nat := 32 * 1024
def maximumPendingMutations : Nat := 512

/-- Revisions and sequence numbers are counted without a bound. -/
structure GuestFileGenerationRegistry where
  nextRevision : Nat := 1
  nextMutationSequence : Nat := 1
  mutationGeneration : Nat := 1
  entries : AList (fun _ : Path => GuestFileGenerationSnapshot) := ∅
  vnodeAliases : VnodeIdentity → List Path := fun _ => []
  entryLru : List Path := []
  pendingMutations : List GuestFileMutationEvent := []
  history : List HistoryItem := []

namespace GuestFileGenerationRegistry
variable (registry : GuestFileGenerationRegistry)

def touchEntry (path : Path) : GuestFileGenerationRegistry :=
  { registry with entryLru := registry.entryLru.erase path ++ [path] }

def ensureEntry (path : Path) : GuestFileGenerationRegistry :=
  if path ∈ registry.entries then registry.touchEntry path
  else
    { registry with
      entries := registry.entries.insert path {}
      entryLru := registry.entryLru ++ [path] }

/-- The aliases of a vnode are a set in the order of their paths. -/
def insertAlias (path : Path) (aliases : List Path) : List Path :=
  if path ∈ aliases then aliases else aliases.orderedInsert (· ≤ ·) path

def setSnapshot (path : Path) (snapshot : GuestFileGenerationSnapshot) :
    GuestFileGenerationRegistry :=
  let previous := (registry.entries.lookup path).bind (·.vnode)
  let next := snapshot.vnode
  let aliases : VnodeIdentity → List Path :=
    if previous ≠ next then fun vnode =>
      if next = some vnode then insertAlias path (registry.vnodeAliases vnode)
      else if previous = some vnode then (registry.vnodeAliases vnode).erase path
      else registry.vnodeAliases vnode
    else registry.vnodeAliases
  { registry with
    entries := registry.entries.insert path snapshot
    vnodeAliases := aliases }

def eraseEntry (path : Path) : GuestFileGenerationRegistry :=
  let registry := registry.setSnapshot path {}
  { registry with
    entryLru := registry.entryLru.erase path
    entries := registry.entries.erase path }

def eraseSubtreeEntries (subtree : Path) : GuestFileGenerationRegistry :=
  (registry.entries.keys.filter (Path.inside subtree)).foldl eraseEntry registry

/-- One turn of the loop of the eviction. -/
def evictEntry : GuestFileGenerationRegistry :=
  match registry.entryLru with
  | [] => registry
  | oldest :: _ =>
    if maximumTrackedPaths < registry.entries.entries.length then registry.eraseEntry oldest
    else registry

/-- Every turn that goes on takes a path from the list. -/
def evictEntries : GuestFileGenerationRegistry :=
  evictEntry^[registry.entryLru.length] registry

/-- The event of the path is found from the end of the queue, which is given reversed. -/
def coalesce (path : Path) (mutation : GuestFileMutationKind) :
    List GuestFileMutationEvent → Option (List GuestFileMutationEvent)
  | [] => none
  | event :: rest =>
    if event.path = path then
      some ((if mutationPriority event.mutation < mutationPriority mutation then
        { event with mutation } else event) :: rest)
    else (coalesce path mutation rest).map (event :: ·)

def enqueueMutation (path : Path) (mutation : GuestFileMutationKind) :
    GuestFileGenerationRegistry :=
  if mutation = .observation then registry
  else
    let registry : GuestFileGenerationRegistry := { registry with
      mutationGeneration := registry.mutationGeneration + 1
      history := registry.history ++ [.published path mutation registry.nextMutationSequence] }
    match coalesce path mutation registry.pendingMutations.reverse with
    | some reversed => { registry with pendingMutations := reversed.reverse }
    | none =>
      if maximumPendingMutations ≤ registry.pendingMutations.length then
        -- the queue no longer describes the tree, one structural marker replaces it
        { registry with
          pendingMutations :=
            [{ sequence := registry.nextMutationSequence
               path := Path.root
               mutation := .rename
               dirtySubtree := true }]
          nextMutationSequence := registry.nextMutationSequence + 1 }
      else
        { registry with
          pendingMutations := registry.pendingMutations ++
            [{ sequence := registry.nextMutationSequence, path, mutation }]
          nextMutationSequence := registry.nextMutationSequence + 1 }

/-- The next revision of a path that has an entry. -/
def revise (path : Path) (generation : Option Generation) (mutation : GuestFileMutationKind)
    (contentIdentity : Option (BitVec 256)) : GuestFileGenerationRegistry :=
  { registry.setSnapshot path
      { revision := registry.nextRevision, generation, mutation, contentIdentity } with
    nextRevision := registry.nextRevision + 1 }

def snapshotOf (path : Path) : GuestFileGenerationSnapshot :=
  (registry.entries.lookup path).getD {}

def record (path : Path) (generation : Option Generation) (mutation : GuestFileMutationKind)
    (forceRevision : Bool) (contentIdentity : Option (BitVec 256)) :
    GuestFileGenerationSnapshot × GuestFileGenerationRegistry :=
  let registry := registry.ensureEntry path
  let snapshot := registry.snapshotOf path
  if ¬forceRevision ∧ snapshot.revision ≠ 0 ∧ snapshot.generation = generation then
    (snapshot, registry)
  else
    let registry := registry.revise path generation mutation contentIdentity
    let registry := (registry.enqueueMutation path mutation).evictEntries
    (registry.snapshotOf path, registry)

def observeNormalized (path : Path) (generation : Generation) :
    GuestFileGenerationSnapshot × GuestFileGenerationRegistry :=
  let registry := registry.ensureEntry path
  let snapshot := registry.snapshotOf path
  if snapshot.revision ≠ 0 ∧ snapshot.generation = some generation then (snapshot, registry)
  else
    let registry := (registry.revise path (some generation) .observation none).evictEntries
    (registry.snapshotOf path, registry)

/-- What a descriptor's mutation does to the entry of one path. -/
def mutate (path : Path) (generation : Generation) (mutation : GuestFileMutationKind)
    (contentIdentity : Option (BitVec 256)) : GuestFileGenerationRegistry :=
  (registry.revise path (some generation) mutation contentIdentity).enqueueMutation path mutation

def recordDescriptor (path : Path) (generation : Generation) (mutation : GuestFileMutationKind)
    (contentIdentity : Option (BitVec 256)) (currentPathGeneration : Option Generation) :
    GuestFileGenerationSnapshot × GuestFileGenerationRegistry :=
  if currentPathGeneration ≠ some generation then (registry.snapshotOf path, registry)
  else
    let aliases := registry.vnodeAliases (generation.device, generation.inode)
    let (registry, result) := aliases.foldl
      (fun (registry, result) entryPath =>
        let registry := (registry.touchEntry entryPath).mutate entryPath generation mutation
          contentIdentity
        (registry,
          if entryPath = path ∨ result.isNone then some (registry.snapshotOf entryPath)
          else result))
      (registry, none)
    if path ∈ aliases then (result.getD {}, registry.evictEntries)
    else
      let registry := (registry.ensureEntry path).mutate path generation mutation contentIdentity
      (registry.snapshotOf path, registry.evictEntries)

def takeMutations (maximumEvents : Nat) :
    List GuestFileMutationEvent × GuestFileGenerationRegistry :=
  let taken := registry.pendingMutations.take maximumEvents
  (taken,
    { registry with
      pendingMutations := registry.pendingMutations.drop maximumEvents
      history := registry.history ++ taken.map .drained })

/-- The critical sections. The generations that are read of the host come with them. -/
inductive Operation where
  | record (path : Path) (generation : Option Generation) (mutation : GuestFileMutationKind)
      (forceRevision : Bool) (contentIdentity : Option (BitVec 256))
  | observeNormalized (path : Path) (generation : Generation)
  | recordDescriptor (path : Path) (generation : Generation) (mutation : GuestFileMutationKind)
      (contentIdentity : Option (BitVec 256)) (currentPathGeneration : Option Generation)
  | eraseSubtreeEntries (path : Path)
  | takeMutations (maximumEvents : Nat)
  deriving DecidableEq

def next : Operation → GuestFileGenerationRegistry
  | .record path generation mutation forceRevision contentIdentity =>
    (registry.record path generation mutation forceRevision contentIdentity).2
  | .observeNormalized path generation => (registry.observeNormalized path generation).2
  | .recordDescriptor path generation mutation contentIdentity current =>
    (registry.recordDescriptor path generation mutation contentIdentity current).2
  | .eraseSubtreeEntries path => registry.eraseSubtreeEntries path
  | .takeMutations maximumEvents => (registry.takeMutations maximumEvents).2

/-! ### The public operations, as the critical sections that they go through -/

def observe (path : Path) (generation : Option Generation) : List Operation :=
  [.record path generation .observation false none]

def publish (path : Path) (generation : Option Generation) (mutation : GuestFileMutationKind) :
    List Operation :=
  [.record path generation mutation true none]

/-- Without the status of its descriptor the path is published. -/
def publishDescriptor (path : Path) (descriptor current : Option Generation)
    (mutation : GuestFileMutationKind) (contentIdentity : Option (BitVec 256)) : List Operation :=
  match descriptor with
  | none => publish path current mutation
  | some generation => [.recordDescriptor path generation mutation contentIdentity current]

def publishRename (source destination : Path) (sourceGeneration destinationGeneration :
    Option Generation) : List Operation :=
  publish source sourceGeneration .rename ++ publish destination destinationGeneration .rename

def publishSubtreeCreate (path : Path) (generation : Option Generation) : List Operation :=
  .eraseSubtreeEntries path :: publish path generation .subtreeCreate

def publishSubtreeRemove (path : Path) (generation : Option Generation) : List Operation :=
  .eraseSubtreeEntries path :: publish path generation .subtreeRemove

def publishSubtreeRename (source destination : Path) (sourceGeneration destinationGeneration :
    Option Generation) : List Operation :=
  publishSubtreeRemove source sourceGeneration ++
    publishSubtreeCreate destination destinationGeneration

end GuestFileGenerationRegistry
end ILEmu.Memory
