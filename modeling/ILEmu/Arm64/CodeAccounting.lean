import ILEmu.Arm64.CodeCache

/-! The account of the code cache: what it retains is what its parts retain, and the list of use is
of the entries of all domains. -/
namespace ILEmu.Arm64.CodeCache
open Foundation

/-- The bytes that the parts of the cache retain. -/
def total (layout : CodeLayout) (cache : CodeCache) : Nat :=
  cache.anonymous.retainedBytes +
    cache.domains.total (fun domain => domain.retainedBytes + layout.domainBytes) +
      cache.continuations.getD 0

structure Accounted (layout : CodeLayout) (cache : CodeCache) : Prop where
  total : cache.retainedBytes = cache.total layout
  retained : ∀ reference domain, cache.find reference = some domain →
    domain.retainedBytes = domain.entries.total (·.accountedBytes)
  identities : ∀ reference domain, cache.find reference = some domain →
    domain.identity = reference
  distinct : cache.recent.Nodup
  listed : ∀ reference key, (reference, key) ∈ cache.recent ↔
    ∃ domain, cache.find reference = some domain ∧ key ∈ domain.entries

/-- Nothing is in the cache that was not in it before. -/
def Shrinks (before after : CodeCache) : Prop :=
  ∀ reference domain, after.find reference = some domain →
    ∃ old, before.find reference = some old ∧
      ∀ key entry, domain.entries.lookup key = some entry → old.entries.lookup key = some entry

theorem Shrinks.refl (cache : CodeCache) : Shrinks cache cache :=
  fun _ domain found => ⟨domain, found, fun _ _ => id⟩

theorem Shrinks.trans {first second third : CodeCache} (shrinks : Shrinks first second)
    (further : Shrinks second third) : Shrinks first third := by
  intro reference domain found
  obtain ⟨middle, found', kept'⟩ := further reference domain found
  obtain ⟨old, found'', kept⟩ := shrinks reference middle found'
  exact ⟨old, found'', fun key entry here => kept key entry (kept' key entry here)⟩

section
variable {layout : CodeLayout} {cache : CodeCache} {reference : Option CodeIdentity}

/-! ### One domain -/

theorem find_put (domain : Domain) (other : Option CodeIdentity) :
    (cache.put domain reference).find other =
      if other = reference then some domain else cache.find other := by
  cases reference with
  | none =>
    cases other with
    | none => rfl
    | some identity => rfl
  | some identity =>
    cases other with
    | none => rfl
    | some other =>
      simp only [put, find, Table.lookup_insert_eq, Option.some.injEq]

theorem find_dropDomain (identity : CodeIdentity) (other : Option CodeIdentity) :
    (cache.dropDomain layout identity).find other =
      if other = some identity then none else cache.find other := by
  cases other with
  | none => rfl
  | some other => simp only [dropDomain, find, Table.lookup_erase_eq, Option.some.injEq]

/-- A domain that changes moves the total with it. -/
theorem total_put {old new : Domain} (found : cache.find reference = some old) :
    (cache.put new reference).total layout + old.retainedBytes =
      cache.total layout + new.retainedBytes := by
  cases reference with
  | none =>
    obtain rfl := Option.some.inj found
    simp only [total, put]
    omega
  | some identity =>
    have moved := Table.total_replace (fun domain => domain.retainedBytes + layout.domainBytes) new
      found
    simp only [total, put]
    omega

theorem total_create {new : Domain} {identity : CodeIdentity}
    (absent : cache.find (some identity) = none) :
    (cache.put new (some identity)).total layout =
      cache.total layout + new.retainedBytes + layout.domainBytes := by
  have added := Table.total_insert (fun domain => domain.retainedBytes + layout.domainBytes)
    cache.domains identity new
  rw [Table.total_erase_absent _ absent] at added
  simp only [total, put]
  omega

theorem total_dropDomain {identity : CodeIdentity} {old : Domain}
    (found : cache.find (some identity) = some old) :
    (cache.dropDomain layout identity).total layout + (old.retainedBytes + layout.domainBytes) =
      cache.total layout := by
  have removed := Table.total_of_lookup (fun domain => domain.retainedBytes + layout.domainBytes)
    found
  simp only [total, dropDomain]
  omega

theorem retained_le_total {domain : Domain} (found : cache.find reference = some domain) :
    domain.retainedBytes ≤ cache.total layout := by
  cases reference with
  | none =>
    obtain rfl := Option.some.inj found
    simp only [total]
    omega
  | some identity =>
    have part := Table.weight_le_total
      (fun domain : Domain => domain.retainedBytes + layout.domainBytes) found
    simp only [total]
    omega

theorem isVacant_iff : cache.isVacant reference = true ↔
    ∃ domain, cache.find reference = some domain ∧ ∀ key, key ∉ domain.entries := by
  unfold isVacant
  cases cache.find reference with
  | none => simp
  | some domain =>
    simp only [Option.any_some, List.isEmpty_iff, Option.some.injEq, exists_eq_left']
    exact List.eq_nil_iff_forall_not_mem

theorem total_empty_domain {domain : Domain} (vacant : ∀ key, key ∉ domain.entries)
    (weight : Entry → Nat) : domain.entries.total weight = 0 := by
  have none : domain.entries.entries = [] := by
    have keys : domain.entries.keys = [] := List.eq_nil_iff_forall_not_mem.mpr vacant
    exact List.map_eq_nil_iff.mp keys
  unfold Table.total
  rw [none]
  rfl

/-! ### Steps that change one domain -/

/-- One domain is changed, and the list of use follows it. -/
theorem Accounted.replaced (accounted : Accounted layout cache) {next : CodeCache} {new : Domain}
    (finds : ∀ other, next.find other = if other = reference then some new else cache.find other)
    (whole : next.retainedBytes = next.total layout)
    (same : new.identity = reference)
    (retained : new.retainedBytes = new.entries.total (·.accountedBytes))
    (distinct : next.recent.Nodup)
    (own : ∀ key, (reference, key) ∈ next.recent ↔ key ∈ new.entries)
    (others : ∀ other key, other ≠ reference →
      ((other, key) ∈ next.recent ↔ (other, key) ∈ cache.recent)) : Accounted layout next := by
  constructor
  · exact whole
  · intro other domain here
    rw [finds] at here
    split_ifs at here
    · obtain rfl := Option.some.inj here
      exact retained
    · exact accounted.retained other domain here
  · intro other domain here
    rw [finds] at here
    split_ifs at here with which
    · obtain rfl := Option.some.inj here
      rw [which]
      exact same
    · exact accounted.identities other domain here
  · exact distinct
  · intro other key
    rw [finds]
    by_cases which : other = reference
    · subst which
      rw [own]
      simp
    · rw [others other key which, accounted.listed, if_neg which]

/-- A step that only takes things out of the cache. -/
structure Reduces (layout : CodeLayout) (before after : CodeCache) : Prop where
  accounted : Accounted layout before → Accounted layout after
  retained : after.retainedBytes ≤ before.retainedBytes
  shrinks : Shrinks before after

theorem Reduces.refl (layout : CodeLayout) (cache : CodeCache) : Reduces layout cache cache :=
  ⟨id, le_refl _, Shrinks.refl cache⟩

theorem Reduces.trans {first second third : CodeCache} (reduces : Reduces layout first second)
    (further : Reduces layout second third) : Reduces layout first third :=
  ⟨fun accounted => further.accounted (reduces.accounted accounted),
    further.retained.trans reduces.retained, reduces.shrinks.trans further.shrinks⟩

theorem Reduces.foldl {α : Type*} {step : CodeCache → α → CodeCache}
    (each : ∀ cache item, Reduces layout cache (step cache item)) (items : List α)
    (cache : CodeCache) : Reduces layout cache (items.foldl step cache) := by
  induction items generalizing cache with
  | nil => exact Reduces.refl layout cache
  | cons item rest ih => exact (each cache item).trans (ih (step cache item))

/-- A domain that loses entries. -/
theorem Shrinks.replaced {next : CodeCache} {old new : Domain}
    (found : cache.find reference = some old)
    (finds : ∀ other, next.find other = if other = reference then some new else cache.find other)
    (fewer : ∀ key entry, new.entries.lookup key = some entry →
      old.entries.lookup key = some entry) : Shrinks cache next := by
  intro other domain here
  rw [finds] at here
  split_ifs at here with which
  · obtain rfl := Option.some.inj here
    subst which
    exact ⟨old, found, fewer⟩
  · exact ⟨domain, here, fun _ _ => id⟩

theorem mem_diff_marks (accounted : Accounted layout cache) {domain : Domain}
    (found : cache.find reference = some domain) (other : Option CodeIdentity)
    (key : TranslationKey) :
    (other, key) ∈ cache.recent.diff (domain.entries.keys.map fun key => (reference, key)) ↔
      other ≠ reference ∧ (other, key) ∈ cache.recent := by
  rw [accounted.distinct.mem_sdiff_iff]
  constructor
  · rintro ⟨here, unmarked⟩
    refine ⟨?_, here⟩
    rintro rfl
    obtain ⟨domain', found', stored⟩ := (accounted.listed other key).mp here
    rw [found] at found'
    obtain rfl := Option.some.inj found'
    exact unmarked (List.mem_map_of_mem stored)
  · rintro ⟨apart, here⟩
    refine ⟨here, fun marked => ?_⟩
    obtain ⟨_, _, same⟩ := List.mem_map.mp marked
    exact apart (congrArg Prod.fst same).symm

theorem find_invalidate {domain : Domain} (found : cache.find reference = some domain)
    (other : Option CodeIdentity) :
    (cache.invalidate reference).find other =
      if other = reference then
        some { domain with entries := ∅, retainedBytes := 0, generation := none }
      else cache.find other := by
  unfold invalidate
  rw [found]
  exact find_put _ other

theorem reduces_invalidate (reference : Option CodeIdentity) :
    Reduces layout cache (cache.invalidate reference) := by
  cases found : cache.find reference with
  | none =>
    have same : cache.invalidate reference = cache := by
      unfold invalidate
      rw [found]
    rw [same]
    exact Reduces.refl layout cache
  | some domain =>
    have finds := find_invalidate found
    constructor
    · intro accounted
      have listing := mem_diff_marks accounted found
      refine accounted.replaced finds ?_ (accounted.identities reference domain found) rfl ?_ ?_ ?_
      · have moved : CodeCache.total layout (cache.put { domain with
            entries := ∅, retainedBytes := 0, generation := none } reference) +
              domain.retainedBytes = cache.total layout + 0 := total_put found
        have part : domain.retainedBytes ≤ cache.total layout := retained_le_total found
        have whole := accounted.total
        unfold invalidate
        rw [found]
        change cache.retainedBytes - domain.retainedBytes = CodeCache.total layout (cache.put _ _)
        omega
      · unfold invalidate
        rw [found]
        exact accounted.distinct.diff
      · intro key
        unfold invalidate
        rw [found]
        simp [listing]
      · intro other key apart
        unfold invalidate
        rw [found]
        simp [listing, apart]
    · unfold invalidate
      rw [found]
      exact Nat.sub_le _ _
    · exact Shrinks.replaced found finds (fun key entry here => by simp at here)

/-! ### Erasure of an entry -/

theorem eraseEntry_of_absent {key : TranslationKey}
    (absent : (cache.find reference).bind (·.entries.lookup key) = none) :
    cache.eraseEntry reference key = cache := by
  unfold eraseEntry
  split
  · rfl
  · rename_i domain found
    rw [found, Option.bind_some] at absent
    rw [absent]

section
variable {domain : Domain} {key : TranslationKey} {entry : Entry}
  (found : cache.find reference = some domain) (stored : domain.entries.lookup key = some entry)
include found stored

theorem find_eraseEntry (other : Option CodeIdentity) :
    (cache.eraseEntry reference key).find other =
      if other = reference then
        some { domain with
          entries := domain.entries.erase key
          retainedBytes := domain.retainedBytes - entry.accountedBytes }
      else cache.find other := by
  simp only [eraseEntry, found, stored]
  exact find_put _ other

theorem recent_eraseEntry :
    (cache.eraseEntry reference key).recent = cache.recent.erase (reference, key) := by
  simp only [eraseEntry, found, stored]

theorem retained_eraseEntry :
    (cache.eraseEntry reference key).retainedBytes = cache.retainedBytes - entry.accountedBytes := by
  simp only [eraseEntry, found, stored]

theorem total_eraseEntry (accounted : Accounted layout cache) :
    (cache.eraseEntry reference key).total layout + entry.accountedBytes = cache.total layout := by
  have part : entry.accountedBytes ≤ domain.retainedBytes := by
    rw [accounted.retained reference domain found]
    exact Table.weight_le_total (·.accountedBytes) stored
  have moved : CodeCache.total layout (cache.put { domain with
        entries := domain.entries.erase key
        retainedBytes := domain.retainedBytes - entry.accountedBytes } reference) +
      domain.retainedBytes =
        cache.total layout + (domain.retainedBytes - entry.accountedBytes) := total_put found
  have same : (cache.eraseEntry reference key).total layout =
      CodeCache.total layout (cache.put { domain with
        entries := domain.entries.erase key
        retainedBytes := domain.retainedBytes - entry.accountedBytes } reference) := by
    simp only [eraseEntry, found, stored]
    rfl
  omega

end

theorem reduces_eraseEntry (reference : Option CodeIdentity) (key : TranslationKey) :
    Reduces layout cache (cache.eraseEntry reference key) := by
  cases looked : (cache.find reference).bind (·.entries.lookup key) with
  | none =>
    rw [eraseEntry_of_absent looked]
    exact Reduces.refl layout cache
  | some entry =>
    obtain ⟨domain, found, stored⟩ := Option.bind_eq_some_iff.mp looked
    have finds := find_eraseEntry found stored
    constructor
    · intro accounted
      refine accounted.replaced finds ?_ (accounted.identities reference domain found) ?_ ?_ ?_ ?_
      · have moved := total_eraseEntry found stored accounted
        have whole := accounted.total
        rw [retained_eraseEntry found stored]
        omega
      · have split := Table.total_of_lookup (·.accountedBytes) stored
        have sum := accounted.retained reference domain found
        change domain.retainedBytes - entry.accountedBytes =
          Table.total (·.accountedBytes) (domain.entries.erase key)
        omega
      · rw [recent_eraseEntry found stored]
        exact accounted.distinct.erase _
      · intro other
        rw [recent_eraseEntry found stored, accounted.distinct.mem_erase_iff, accounted.listed,
          found]
        simp [AList.mem_erase]
      · intro other other' apart
        rw [recent_eraseEntry found stored, accounted.distinct.mem_erase_iff]
        simp [apart]
    · rw [retained_eraseEntry found stored]
      exact Nat.sub_le _ _
    · refine Shrinks.replaced found finds fun other entry' here => ?_
      simp only [Table.lookup_erase_eq] at here
      split_ifs at here
      exact here

theorem reduces_invalidateEntries (first last : Nat) (reference : Option CodeIdentity) :
    Reduces layout cache (cache.invalidateEntries first last reference) := by
  unfold invalidateEntries
  split
  · exact Reduces.refl layout cache
  · exact Reduces.foldl (fun _ _ => reduces_eraseEntry _ _) _ _

/-! ### Domains without entries -/

theorem reduces_dropDomain {identity : CodeIdentity}
    (vacant : cache.isVacant (some identity) = true) :
    Reduces layout cache (cache.dropDomain layout identity) := by
  obtain ⟨domain, found, empty⟩ := isVacant_iff.mp vacant
  have finds : ∀ other, (cache.dropDomain layout identity).find other =
      if other = some identity then none else cache.find other := find_dropDomain identity
  constructor
  · intro accounted
    have nothing : domain.retainedBytes = 0 := by
      rw [accounted.retained _ domain found]
      exact total_empty_domain empty _
    constructor
    · have moved : (cache.dropDomain layout identity).total layout +
          (domain.retainedBytes + layout.domainBytes) = cache.total layout :=
        total_dropDomain found
      have whole := accounted.total
      change cache.retainedBytes - layout.domainBytes = _
      omega
    · intro other domain' here
      rw [finds] at here
      split_ifs at here
      exact accounted.retained other domain' here
    · intro other domain' here
      rw [finds] at here
      split_ifs at here
      exact accounted.identities other domain' here
    · exact accounted.distinct
    · intro other key
      rw [finds]
      change (other, key) ∈ cache.recent ↔ _
      rw [accounted.listed]
      split_ifs with same
      · subst same
        simp [found, empty]
      · rfl
  · exact Nat.sub_le _ _
  · intro other domain' here
    rw [finds] at here
    split_ifs at here
    exact ⟨domain', here, fun _ _ => id⟩

theorem reduces_reclaimDomain (identity : CodeIdentity) :
    Reduces layout cache (cache.reclaimDomain layout identity) := by
  unfold reclaimDomain
  split_ifs with vacant
  · exact reduces_dropDomain vacant
  · exact Reduces.refl layout cache

theorem reduces_reclaimDomains : Reduces layout cache (cache.reclaimDomains layout) :=
  Reduces.foldl (fun _ _ => reduces_reclaimDomain _) _ _

theorem reduces_invalidateRange (address : BitVec 32) (size : Nat) :
    Reduces layout cache (cache.invalidateRange layout address size) := by
  unfold invalidateRange
  split_ifs
  · exact Reduces.refl layout cache
  · exact (reduces_invalidateEntries _ _ none).trans
      (Reduces.foldl (fun _ _ => (reduces_invalidateEntries _ _ _).trans
        (reduces_reclaimDomain _)) _ _)

theorem reduces_dropContinuations : Reduces layout cache cache.dropContinuations := by
  constructor
  · intro accounted
    refine ⟨?_, accounted.retained, accounted.identities, accounted.distinct, accounted.listed⟩
    have whole := accounted.total
    simp only [CodeCache.total] at whole
    simp only [CodeCache.total, dropContinuations, Option.getD_none]
    omega
  · exact Nat.sub_le _ _
  · exact Shrinks.refl cache

theorem isVacant_invalidate {domain : Domain} (found : cache.find reference = some domain) :
    (cache.invalidate reference).isVacant reference = true := by
  refine isVacant_iff.mpr ⟨_, (find_invalidate found reference).trans (if_pos rfl), fun key => ?_⟩
  exact AList.notMem_empty key

theorem reduces_bind (lease : Lease) : Reduces layout cache (cache.bind layout lease).2 := by
  unfold bind
  cases lease.generation with
  | none =>
    refine Reduces.trans ?_ (reduces_invalidate none)
    cases lease.identity with
    | none => exact Reduces.refl layout cache
    | some identity =>
      dsimp only
      split_ifs with bound
      · obtain ⟨domain, found⟩ := Option.isSome_iff_exists.mp bound
        have vacant : (cache.invalidate (some identity)).isVacant (some identity) = true :=
          isVacant_invalidate found
        exact (reduces_invalidate _).trans (reduces_dropDomain vacant)
      · exact Reduces.refl layout cache
  | some generation =>
    dsimp only
    split_ifs
    · exact reduces_invalidate _
    · exact Reduces.refl layout cache

theorem reduces_evict (accounted : Accounted layout cache) (reference : Option CodeIdentity)
    (key : TranslationKey) : Reduces layout cache (cache.evict layout reference key) := by
  have erased : Reduces layout cache (cache.eraseEntry reference key) :=
    reduces_eraseEntry reference key
  unfold evict
  dsimp only
  split
  · exact erased
  · rename_i domain found
    have same := (erased.accounted accounted).identities reference domain found
    split
    · rename_i identity here
      obtain rfl : reference = some identity := same.symm.trans here
      split_ifs with empty
      · refine erased.trans (reduces_dropDomain ?_)
        simp only [isVacant, found, Option.any_some, empty]
      · exact erased
    · exact erased

end
end ILEmu.Arm64.CodeCache
