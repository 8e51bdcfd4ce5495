import ILEmu.Arm64.InstructionWindow
import ILEmu.Foundation.Containers

/-! The translations of one executor, by the identity of their code, within a budget of bytes. -/
namespace ILEmu.Arm64
open Foundation

abbrev CodeIdentity := Nat

/-- The configuration of a translation: the profiles of its source stand as a list of values. -/
structure TranslationKey where
  pc : BitVec 32
  step : Bool := false
  bigEndian : Bool := false
  thumb : Bool := false
  itState : Nat := 0
  hasMemory : Bool := false
  timingLimit : BitVec 64 := -1
  profiles : List Nat := []
  deriving DecidableEq, Repr

/-- The budget and the sizes that the compiler gives the parts. -/
structure CodeLayout where
  budget : Nat
  domainBytes : Nat
  entryBytes : Nat
  viewBytes : Nat
  /-- `Arm64Executor::minimum_cache_bytes` -/
  minimum : 256 * 1024 ≤ budget
  small : entryBytes + viewBytes + domainBytes ≤ 256 * 1024

/-- A compiled or a shared trace, with the hull of its views if it has any. -/
structure PublishedTrace where
  capacity : Nat
  dependency : InstructionRegion
  views : Bool := false
  code : Bool := true
  stop : Bool := false
  maximumTicks : Nat := 1

namespace CodeCache

structure Entry where
  accountedBytes : Nat
  dependency : InstructionRegion
  views : Bool
  code : Bool
  stop : Bool
  maximumTicks : Nat
  continuationRevision : Nat := 0
  continuationCooldown : Nat := 0

structure Domain where
  identity : Option CodeIdentity := none
  generation : Option (BitVec 64) := none
  entries : Table TranslationKey Entry := ∅
  retainedBytes : Nat := 0

/-- What an instruction lease tells of its code. -/
structure Lease where
  identity : Option CodeIdentity := none
  generation : Option (BitVec 64) := none
  continuationRegion : Option InstructionRegion := none
  cachedContinuation : BitVec 32 → Option (Option CodeIdentity × Option (BitVec 64)) := fun _ => none

structure Binding where
  identity : Option CodeIdentity
  generation : Option (BitVec 64)
  leased : Bool
  deriving DecidableEq, Repr

/-- The last one is of a loop that does not end. -/
inductive CacheError where
  | inconsistentAccounting | duplicateEntry | endless
  deriving DecidableEq, Repr

end CodeCache

/-- A domain is referred to by its identity, and the anonymous one by none. -/
structure CodeCache where
  retainedBytes : Nat := 0
  /-- The bytes that the continuations retain. -/
  continuations : Option Nat := none
  revision : Nat := 1
  continuationCookie : Nat := 0
  anonymous : CodeCache.Domain := {}
  domains : Table CodeIdentity CodeCache.Domain := ∅
  recent : List (Option CodeIdentity × TranslationKey) := []

namespace CodeCache
variable (layout : CodeLayout) (cache : CodeCache)

/-! ### Domains -/

def find : Option CodeIdentity → Option Domain
  | none => some cache.anonymous
  | some identity => cache.domains.lookup identity

def put (domain : Domain) : Option CodeIdentity → CodeCache
  | none => { cache with anonymous := domain }
  | some identity => { cache with domains := cache.domains.insert identity domain }

@[simp] theorem recent_put (domain : Domain) (reference : Option CodeIdentity) :
    (cache.put domain reference).recent = cache.recent := by cases reference <;> rfl

@[simp] theorem retainedBytes_put (domain : Domain) (reference : Option CodeIdentity) :
    (cache.put domain reference).retainedBytes = cache.retainedBytes := by cases reference <;> rfl

@[simp] theorem continuations_put (domain : Domain) (reference : Option CodeIdentity) :
    (cache.put domain reference).continuations = cache.continuations := by cases reference <;> rfl

/-- The metadata of a persistent domain is given back. -/
def dropDomain (identity : CodeIdentity) : CodeCache :=
  { cache with
    domains := cache.domains.erase identity
    retainedBytes := cache.retainedBytes - layout.domainBytes }

def invalidate (reference : Option CodeIdentity) : CodeCache :=
  match cache.find reference with
  | none => cache
  | some domain =>
    { cache.put { domain with entries := ∅, retainedBytes := 0, generation := none } reference with
      revision := if domain.entries.keys.isEmpty then cache.revision else cache.revision + 1
      recent := cache.recent.diff (domain.entries.keys.map fun key => (reference, key))
      retainedBytes := cache.retainedBytes - domain.retainedBytes }

def eraseEntry (reference : Option CodeIdentity) (key : TranslationKey) : CodeCache :=
  match cache.find reference with
  | none => cache
  | some domain =>
    match domain.entries.lookup key with
    | none => cache
    | some entry =>
      { cache.put { domain with
            entries := domain.entries.erase key
            retainedBytes := domain.retainedBytes - entry.accountedBytes } reference with
        revision := cache.revision + 1
        recent := cache.recent.erase (reference, key)
        retainedBytes := cache.retainedBytes - entry.accountedBytes }

def isVacant (reference : Option CodeIdentity) : Bool :=
  (cache.find reference).any (·.entries.keys.isEmpty)

def reclaimDomain (identity : CodeIdentity) : CodeCache :=
  if cache.isVacant (some identity) then cache.dropDomain layout identity else cache

/-! ### The operations -/

def clear : CodeCache := { revision := cache.revision + 1 }

def beginRun : CodeCache := cache.invalidate none

def addressLimit : Nat := 2 ^ 32

/-- The fetch of the entry may go around the end of the address space. -/
def touches (first last : Nat) (key : TranslationKey) (entry : Entry) : Bool :=
  let overlaps (start finish : Nat) := first < finish && start < last
  let fetchEnd := key.pc.toNat + 4
  overlaps entry.dependency.begin entry.dependency.finish ||
    overlaps key.pc.toNat (min fetchEnd addressLimit) ||
    (addressLimit < fetchEnd && overlaps 0 (fetchEnd - addressLimit))

def invalidateEntries (first last : Nat) (reference : Option CodeIdentity) : CodeCache :=
  match cache.find reference with
  | none => cache
  | some domain =>
    (domain.entries.keys.filter fun key => (domain.entries.lookup key).any (touches first last key)).foldl
      (fun cache key => cache.eraseEntry reference key) cache

def invalidateRange (address : BitVec 32) (size : Nat) : CodeCache :=
  if size = 0 then cache
  else
    let first := address.toNat
    let last := first + min size (addressLimit - first)
    cache.domains.keys.foldl
      (fun cache identity =>
        (cache.invalidateEntries first last (some identity)).reclaimDomain layout identity)
      (cache.invalidateEntries first last none)

def dropContinuations : CodeCache :=
  { cache with
    retainedBytes := cache.retainedBytes - cache.continuations.getD 0
    continuations := none
    revision := cache.revision + 1 }

def metadataBytes (identity : Option CodeIdentity) : Nat :=
  if identity.isSome then layout.domainBytes else 0

def creationBytes (binding : Binding) : Nat :=
  if binding.identity.isSome ∧ (cache.find binding.identity).isNone then layout.domainBytes else 0

def fits (binding : Binding) (accounted : Nat) : Bool :=
  cache.retainedBytes ≤ layout.budget - (accounted + cache.creationBytes layout binding)

/-- Domains that an invalidation has left empty. -/
def reclaimDomains : CodeCache :=
  cache.domains.keys.foldl (fun cache identity => cache.reclaimDomain layout identity) cache

def evict (reference : Option CodeIdentity) (key : TranslationKey) : CodeCache :=
  let cache := cache.eraseEntry reference key
  match cache.find reference with
  | none => cache
  | some domain =>
    match domain.identity with
    | some identity =>
      if domain.entries.keys.isEmpty then cache.dropDomain layout identity else cache
    | none => cache

/-- Each turn evicts the front of the list of use. -/
def evictUntilFits (binding : Binding) (accounted turns : Nat) (cache : CodeCache) :
    Except CacheError CodeCache :=
  if cache.fits layout binding accounted then .ok cache
  else
    match cache.recent with
    | [] => .error .inconsistentAccounting
    | (reference, key) :: _ =>
      match turns with
      | 0 => .error .endless
      | turns + 1 => evictUntilFits binding accounted turns (cache.evict layout reference key)

def trim (binding : Binding) (accounted : Nat) : Except CacheError CodeCache :=
  -- optional continuation storage yields before any entry
  let cache :=
    if cache.continuations.any fun bytes =>
        layout.budget - bytes < accounted + metadataBytes layout binding.identity then
      cache.dropContinuations
    else cache
  if cache.fits layout binding accounted then .ok cache
  else
    let cache := cache.reclaimDomains layout
    evictUntilFits layout binding accounted cache.recent.length cache

def obtain (binding : Binding) : CodeCache :=
  match cache.find binding.identity with
  | some domain => cache.put { domain with generation := binding.generation } binding.identity
  | none =>
    { cache.put { identity := binding.identity, generation := binding.generation }
        binding.identity with
      retainedBytes := cache.retainedBytes + layout.domainBytes }

def bind (lease : Lease) : Binding × CodeCache :=
  match lease.generation with
  | none =>
    let cache := match lease.identity with
      | none => cache
      | some identity =>
        if (cache.domains.lookup identity).isSome then
          (cache.invalidate (some identity)).dropDomain layout identity
        else cache
    (⟨none, none, false⟩, cache.invalidate none)
  | some generation =>
    (⟨lease.identity, some generation, true⟩,
      if (cache.find lease.identity).any (·.generation ≠ some generation) then
        cache.invalidate lease.identity
      else cache)

/-- The translation that a binding has for a key. -/
def translation (binding : Binding) (key : TranslationKey) : Option Entry :=
  (cache.find binding.identity).bind (·.entries.lookup key)

def overhead (binding : Binding) (trace : PublishedTrace) : Nat :=
  layout.entryBytes + (if trace.views then layout.viewBytes else 0) +
    metadataBytes layout binding.identity

/-- The trace replaces the translation of its key. -/
def publish (binding : Binding) (key : TranslationKey) (trace : PublishedTrace) :
    Except CacheError CodeCache := do
  let accounted := trace.capacity + layout.entryBytes + if trace.views then layout.viewBytes else 0
  let cache ← (cache.eraseEntry binding.identity key).trim layout binding accounted
  let cache := cache.obtain layout binding
  match cache.find binding.identity with
  | none => .ok cache
  | some domain =>
    if key ∈ domain.entries then .error .duplicateEntry
    else
      .ok { cache.put { domain with
              entries := domain.entries.insert key
                { accountedBytes := accounted
                  dependency := trace.dependency
                  views := trace.views
                  code := trace.code
                  stop := trace.stop
                  maximumTicks := trace.maximumTicks }
              retainedBytes := domain.retainedBytes + accounted } binding.identity with
            recent := cache.recent ++ [(binding.identity, key)]
            revision := cache.revision + 1
            retainedBytes := cache.retainedBytes + accounted }

/-- What a request for an entry finds around it. The heat of a translation, the views that can be
pinned and what the compiler makes of the code are not of the cache. -/
structure Answers where
  pinned : Bool
  /-- The translation is hot, or views are to be added to it. -/
  replaces : Bool
  /-- An extension is tried, with what became of it. -/
  extension : Option (Option PublishedTrace)
  /-- The trace that was compiled or is shared, none if the compiler has thrown. -/
  compiled : Option PublishedTrace

def hit (binding : Binding) (key : TranslationKey) : CodeCache :=
  { cache with
    recent := cache.recent.erase (binding.identity, key) ++ [(binding.identity, key)] }

def withinBudget (binding : Binding) (trace : PublishedTrace) : Bool :=
  trace.capacity ≤ layout.budget - overhead layout binding trace

/-- A trace over the budget is thrown out, and the cache stays. -/
def install (binding : Binding) (key : TranslationKey) : Option PublishedTrace →
    Except CacheError CodeCache
  | none => .ok cache
  | some trace =>
    if withinBudget layout binding trace then cache.publish layout binding key trace else .ok cache

def entry (binding : Binding) (key : TranslationKey) (answers : Answers) :
    Except CacheError CodeCache :=
  let stale := (cache.translation binding key).any fun entry =>
    entry.views && (!binding.leased || !answers.pinned)
  let cache := if stale then cache.eraseEntry binding.identity key else cache
  let previous := cache.translation binding key
  if previous.isSome ∧ ¬answers.replaces then .ok (cache.hit binding key)
  else
    match answers.extension with
    | none => cache.install layout binding key answers.compiled
    | some extension =>
      match extension.filter (withinBudget layout binding) with
      | some trace => cache.publish layout binding key trace
      | none =>
        -- a failed extension falls back to the entry, or to a translation without it
        if previous.isSome then .ok (cache.hit binding key)
        else cache.install layout binding key answers.compiled

/-- What the continuation of a translation leaves out of its key. -/
def contains (region : InstructionRegion) (first last : Nat) : Bool :=
  region.begin ≤ first && last ≤ region.finish

def updateEntry (reference : Option CodeIdentity) (key : TranslationKey) (entry : Entry) : CodeCache :=
  match cache.find reference with
  | none => cache
  | some domain => cache.put { domain with entries := domain.entries.insert key entry } reference

/-- Whether a native invocation may go on from the root to other translations. -/
def continuable (root : Option CodeIdentity) (key : TranslationKey) (domain : Domain) (entry : Entry)
    (region : InstructionRegion) (remaining : Nat) : Bool :=
  cache.continuationCookie ≠ 2 ^ 64 - 1 && root.isSome && domain.generation.isSome && !entry.stop
    && entry.code && entry.maximumTicks ≠ 0 && !key.step && key.timingLimit = -1
    && entry.maximumTicks < remaining
    && contains region key.pc.toNat (key.pc.toNat + 4)
    && (entry.views || contains region entry.dependency.begin entry.dependency.finish)

/-- The tables of the continuations are not of the account. The storage that is allocated for them
is given with its bytes, unless the allocation fails. -/
def prepareContinuations (root : Option CodeIdentity) (key : TranslationKey) (lease : Lease)
    (remaining : Nat) (allocated : Option Nat) : CodeCache :=
  match cache.find root with
  | none => cache
  | some domain =>
    match domain.entries.lookup key with
    | none => cache
    | some entry =>
      if entry.continuationRevision = cache.revision ∧ entry.continuationCooldown ≠ 0 then
        cache.updateEntry root key
          { entry with continuationCooldown := entry.continuationCooldown - 1 }
      else
        match lease.continuationRegion with
        | none => cache
        | some region =>
          if cache.continuable root key domain entry region remaining then
            let resolvable := (lease.cachedContinuation key.pc).any fun (identity, generation) =>
              identity = domain.identity && generation.isSome && generation = domain.generation
            let candidates :=
              if resolvable then cache.recent.length else domain.entries.keys.length
            let prepared : CodeCache :=
              { cache with continuationCookie := cache.continuationCookie + 1 }
            if cache.continuations.isSome then prepared
            else if layout.budget - cache.retainedBytes < 16384 ∨ candidates < 2 then cache
            else
              match allocated with
              | none => cache
              | some bytes =>
                if layout.budget - cache.retainedBytes < bytes then cache
                else
                  { prepared with
                    continuations := some bytes
                    retainedBytes := cache.retainedBytes + bytes }
          else cache

inductive Operation where
  | clear
  | beginRun
  | invalidateRange (address : BitVec 32) (size : Nat)
  | bind (lease : Lease)
  | entry (binding : Binding) (key : TranslationKey) (answers : Answers)
  | prepareContinuations (root : Option CodeIdentity) (key : TranslationKey) (lease : Lease)
      (remaining : Nat) (allocated : Option Nat)

def perform : Operation → Except CacheError CodeCache
  | .clear => .ok cache.clear
  | .beginRun => .ok cache.beginRun
  | .invalidateRange address size => .ok (cache.invalidateRange layout address size)
  | .bind lease => .ok (cache.bind layout lease).2
  | .entry binding key answers => cache.entry layout binding key answers
  | .prepareContinuations root key lease remaining allocated =>
    .ok (cache.prepareContinuations layout root key lease remaining allocated)

def performAll : CodeCache → List Operation → Except CacheError CodeCache
  | cache, [] => .ok cache
  | cache, operation :: rest => do
    let cache ← cache.perform layout operation
    performAll cache rest

end CodeCache
end ILEmu.Arm64
