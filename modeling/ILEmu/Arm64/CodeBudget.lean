import ILEmu.Arm64.CodeAccounting

/-! The budget of the code cache: the eviction ends with room for the translation it makes room for,
and every run of operations keeps the account within the budget. -/
namespace ILEmu.Arm64.CodeCache
open Foundation

/-- Every persistent domain has a translation. -/
def Occupied (cache : CodeCache) : Prop :=
  ∀ identity domain, cache.find (some identity) = some domain → ∃ key, key ∈ domain.entries

section
variable {layout : CodeLayout} {cache : CodeCache} {binding : Binding}

theorem creation_le_metadata :
    cache.creationBytes layout binding ≤ metadataBytes layout binding.identity := by
  unfold creationBytes metadataBytes
  split_ifs with absent known
  · exact le_refl _
  · exact absurd absent.1 known
  · exact Nat.zero_le _
  · exact le_refl _

theorem fits_iff {accounted : Nat}
    (room : accounted + metadataBytes layout binding.identity ≤ layout.budget) :
    cache.fits layout binding accounted = true ↔
      cache.retainedBytes + accounted + cache.creationBytes layout binding ≤ layout.budget := by
  have creation : cache.creationBytes layout binding ≤ metadataBytes layout binding.identity :=
    creation_le_metadata
  unfold fits
  rw [decide_eq_true_eq]
  omega

/-! ### Reclaimed domains -/

theorem find_reclaimDomain (identity : CodeIdentity) (other : Option CodeIdentity) :
    (cache.reclaimDomain layout identity).find other =
      if other = some identity ∧ cache.isVacant (some identity) = true then none
      else cache.find other := by
  unfold reclaimDomain
  by_cases vacant : cache.isVacant (some identity) = true
  · rw [if_pos vacant, find_dropDomain]
    simp only [vacant, and_true]
  · rw [if_neg vacant, if_neg fun both => vacant both.2]

theorem reclaimed (layout : CodeLayout) (identities : List CodeIdentity) (cache : CodeCache) :
    let after := identities.foldl (fun cache identity => cache.reclaimDomain layout identity) cache
    (∀ reference domain, after.find reference = some domain → cache.find reference = some domain) ∧
      ∀ identity ∈ identities, after.isVacant (some identity) = false := by
  induction identities generalizing cache with
  | nil => exact ⟨fun _ _ found => found, fun _ absent => absurd absent List.not_mem_nil⟩
  | cons identity rest ih =>
    obtain ⟨kept, gone⟩ := ih (cache.reclaimDomain layout identity)
    have before : ∀ reference domain,
        (cache.reclaimDomain layout identity).find reference = some domain →
          cache.find reference = some domain := by
      intro reference domain found
      rw [find_reclaimDomain] at found
      split_ifs at found
      exact found
    refine ⟨fun reference domain found => before _ _ (kept _ _ found), fun other member => ?_⟩
    rcases List.mem_cons.mp member with rfl | later
    · rw [List.foldl_cons, Bool.eq_false_iff]
      intro vacant
      obtain ⟨domain, found, empty⟩ := isVacant_iff.mp vacant
      have here := kept _ _ found
      have vacant' := isVacant_iff.mpr ⟨domain, before _ _ here, empty⟩
      rw [find_reclaimDomain, if_pos ⟨rfl, vacant'⟩] at here
      exact absurd here (by simp)
    · exact gone other later

theorem occupied_reclaimDomains : Occupied (cache.reclaimDomains layout) := by
  intro identity domain found
  obtain ⟨kept, gone⟩ := reclaimed layout cache.domains.keys cache
  have stored : identity ∈ cache.domains.keys := by
    have here : cache.domains.lookup identity = some domain := kept _ _ found
    exact AList.mem_keys.mp (Table.mem_iff_lookup.mpr ⟨domain, here⟩)
  by_contra vacant
  have claimed := isVacant_iff.mpr ⟨domain, found, fun key member => vacant ⟨key, member⟩⟩
  rw [reclaimDomains, gone identity stored] at claimed
  exact Bool.noConfusion claimed

theorem continuations_reclaimDomains :
    (cache.reclaimDomains layout).continuations = cache.continuations := by
  unfold reclaimDomains
  induction cache.domains.keys generalizing cache with
  | nil => rfl
  | cons identity rest ih =>
    rw [List.foldl_cons, ih]
    unfold reclaimDomain
    split_ifs
    · rfl
    · rfl

/-! ### Eviction -/

theorem find_evict (accounted : Accounted layout cache) {reference : Option CodeIdentity}
    {key : TranslationKey} (listed : (reference, key) ∈ cache.recent) :
    ∃ domain, (cache.eraseEntry reference key).find reference = some domain ∧
      ∀ other, (cache.evict layout reference key).find other =
        if other = reference ∧ other.isSome ∧ domain.entries.keys = [] then none
        else (cache.eraseEntry reference key).find other := by
  obtain ⟨old, found, stored⟩ := (accounted.listed reference key).mp listed
  obtain ⟨entry, looked⟩ := Table.mem_iff_lookup.mp stored
  have erased : Reduces layout cache (cache.eraseEntry reference key) :=
    reduces_eraseEntry reference key
  have here := (find_eraseEntry found looked reference).trans (if_pos rfl)
  refine ⟨_, here, fun other => ?_⟩
  have same := (erased.accounted accounted).identities reference _ here
  unfold evict
  simp only [here, List.isEmpty_iff]
  dsimp only at same
  cases reference with
  | none =>
    rw [same]
    dsimp only
    rw [if_neg]
    rintro ⟨rfl, known, _⟩
    exact Bool.noConfusion known
  | some identity =>
    rw [same]
    dsimp only
    split_ifs with empty both both
    · rw [find_dropDomain, if_pos both.1]
    · rw [find_dropDomain, if_neg]
      rintro rfl
      exact both ⟨rfl, rfl, empty⟩
    · exact absurd both.2.2 empty
    · rfl

theorem recent_eraseEntry_of_listed (accounted : Accounted layout cache)
    {reference : Option CodeIdentity} {key : TranslationKey}
    (listed : (reference, key) ∈ cache.recent) :
    (cache.eraseEntry reference key).recent = cache.recent.erase (reference, key) := by
  obtain ⟨old, found, stored⟩ := (accounted.listed reference key).mp listed
  obtain ⟨entry, looked⟩ := Table.mem_iff_lookup.mp stored
  exact recent_eraseEntry found looked

theorem recent_evict {reference : Option CodeIdentity} {key : TranslationKey} :
    (cache.evict layout reference key).recent = (cache.eraseEntry reference key).recent := by
  unfold evict
  dsimp only
  split
  · rfl
  · split
    · split_ifs
      · rfl
      · rfl
    · rfl

theorem continuations_evict {reference : Option CodeIdentity} {key : TranslationKey} :
    (cache.evict layout reference key).continuations = cache.continuations := by
  have erased : (cache.eraseEntry reference key).continuations = cache.continuations := by
    unfold eraseEntry
    split
    · rfl
    · split
      · rfl
      · exact continuations_put _ _ _
  unfold evict
  dsimp only
  split
  · exact erased
  · split
    · split_ifs
      · exact erased
      · exact erased
    · exact erased

theorem occupied_evict (accounted : Accounted layout cache) (occupied : Occupied cache)
    {reference : Option CodeIdentity} {key : TranslationKey}
    (listed : (reference, key) ∈ cache.recent) :
    Occupied (cache.evict layout reference key) := by
  obtain ⟨domain, here, finds⟩ := find_evict accounted listed
  intro identity found stored
  rw [finds] at stored
  split_ifs at stored with emptied
  by_cases same : some identity = reference
  · rw [same, here] at stored
    obtain rfl := Option.some.inj stored
    have filled : domain.entries.keys ≠ [] := fun empty => emptied ⟨same, rfl, empty⟩
    exact List.exists_mem_of_ne_nil _ filled
  · obtain ⟨old, found', stored'⟩ := (accounted.listed reference key).mp listed
    obtain ⟨entry, looked⟩ := Table.mem_iff_lookup.mp stored'
    rw [find_eraseEntry found' looked, if_neg same] at stored
    exact occupied identity found stored

/-- When nothing is left to evict, only the continuations retain bytes. -/
theorem total_idle (accounted : Accounted layout cache) (occupied : Occupied cache)
    (idle : cache.recent = []) : cache.total layout = cache.continuations.getD 0 := by
  have vacant : ∀ reference domain, cache.find reference = some domain →
      ∀ key, key ∉ domain.entries := by
    intro reference domain found key stored
    have listed := (accounted.listed reference key).mpr ⟨domain, found, stored⟩
    rw [idle] at listed
    exact absurd listed List.not_mem_nil
  have code : cache.anonymous.retainedBytes = 0 := by
    rw [accounted.retained none _ rfl]
    exact total_empty_domain (vacant none _ rfl) _
  have none : cache.domains.entries = [] := by
    have keys : cache.domains.keys = [] := by
      refine List.eq_nil_iff_forall_not_mem.mpr fun identity stored => ?_
      obtain ⟨domain, found⟩ := Table.mem_iff_lookup.mp (AList.mem_keys.mpr stored)
      obtain ⟨key, here⟩ := occupied identity domain found
      exact vacant (some identity) domain found key here
    exact List.map_eq_nil_iff.mp keys
  unfold CodeCache.total Table.total
  rw [code, none]
  simp

theorem fits_idle {accounted : Nat} (sound : Accounted layout cache) (occupied : Occupied cache)
    (room : accounted + metadataBytes layout binding.identity + cache.continuations.getD 0 ≤
      layout.budget)
    (idle : cache.recent = []) : cache.fits layout binding accounted = true := by
  have retained : cache.retainedBytes = cache.continuations.getD 0 :=
    sound.total.trans (total_idle sound occupied idle)
  have creation : cache.creationBytes layout binding ≤ metadataBytes layout binding.identity :=
    creation_le_metadata
  rw [fits_iff (by omega), retained]
  omega

/-- Each turn takes an entry out, and without entries there is room. -/
theorem evictUntilFits_ok {accounted : Nat} (turns : Nat) (cache : CodeCache)
    (sound : Accounted layout cache) (occupied : Occupied cache)
    (room : accounted + metadataBytes layout binding.identity + cache.continuations.getD 0 ≤
      layout.budget)
    (enough : cache.recent.length ≤ turns) :
    ∃ result, evictUntilFits layout binding accounted turns cache = .ok result ∧
      Reduces layout cache result ∧ result.fits layout binding accounted = true := by
  induction turns generalizing cache with
  | zero =>
    have idle : cache.recent = [] := List.length_eq_zero_iff.mp (Nat.le_zero.mp enough)
    have fits : cache.fits layout binding accounted = true := fits_idle sound occupied room idle
    refine ⟨cache, ?_, Reduces.refl layout cache, fits⟩
    unfold evictUntilFits
    rw [if_pos fits]
  | succ turns ih =>
    unfold evictUntilFits
    by_cases fits : cache.fits layout binding accounted = true
    · rw [if_pos fits]
      exact ⟨cache, rfl, Reduces.refl layout cache, fits⟩
    · rw [if_neg fits]
      cases oldest : cache.recent with
      | nil => exact absurd (fits_idle sound occupied room oldest) fits
      | cons front rest =>
        obtain ⟨reference, key⟩ := front
        have listed : (reference, key) ∈ cache.recent := by
          rw [oldest]
          exact List.mem_cons_self
        have evicted := reduces_evict sound reference key
        have fewer : (cache.evict layout reference key).recent = rest := by
          rw [recent_evict, recent_eraseEntry_of_listed sound listed, oldest,
            List.erase_cons_head]
        obtain ⟨result, turned, reduces, fits'⟩ := ih (cache.evict layout reference key)
          (evicted.accounted sound) (occupied_evict sound occupied listed)
          (by rw [continuations_evict]; exact room)
          (by
            rw [oldest, List.length_cons] at enough
            rw [fewer]
            omega)
        exact ⟨result, turned, evicted.trans reduces, fits'⟩

/-- The eviction ends with room for the translation. -/
theorem trim_ok {accounted : Nat} (sound : Accounted layout cache)
    (bounded : cache.retainedBytes ≤ layout.budget)
    (room : accounted + metadataBytes layout binding.identity ≤ layout.budget) :
    ∃ result, cache.trim layout binding accounted = .ok result ∧ Reduces layout cache result ∧
      result.fits layout binding accounted = true := by
  unfold trim
  extract_lets yielded
  have yields : Reduces layout cache yielded ∧
      accounted + metadataBytes layout binding.identity + yielded.continuations.getD 0 ≤
        layout.budget := by
    unfold yielded
    cases storage : cache.continuations with
    | none =>
      refine ⟨Reduces.refl layout cache, ?_⟩
      simp only [Option.any_none, Bool.false_eq_true, if_false, storage, Option.getD_none]
      exact room
    | some bytes =>
      simp only [Option.any_some, decide_eq_true_eq]
      split_ifs with full
      · exact ⟨reduces_dropContinuations, room⟩
      · refine ⟨Reduces.refl layout cache, ?_⟩
        have part : bytes ≤ cache.retainedBytes := by
          rw [sound.total, CodeCache.total, storage, Option.getD_some]
          omega
        rw [storage, Option.getD_some]
        omega
  obtain ⟨yielding, room'⟩ := yields
  split_ifs with fits
  · exact ⟨yielded, rfl, yielding, fits⟩
  · have claimed : Reduces layout yielded (yielded.reclaimDomains layout) := reduces_reclaimDomains
    obtain ⟨result, turned, reduces, fits'⟩ := evictUntilFits_ok _ _
      (claimed.accounted (yielding.accounted sound)) occupied_reclaimDomains
      (by rw [continuations_reclaimDomains]; exact room') (le_refl _)
    exact ⟨result, turned, yielding.trans (claimed.trans reduces), fits'⟩

/-! ### Publication -/

/-- A change of one domain that leaves its translations and its bytes. -/
theorem Accounted.touched (accounted : Accounted layout cache) {reference : Option CodeIdentity}
    {old new : Domain} (found : cache.find reference = some old)
    (identity : new.identity = old.identity) (retained : new.retainedBytes = old.retainedBytes)
    (sum : Table.total (·.accountedBytes) new.entries = Table.total (·.accountedBytes) old.entries)
    (keys : ∀ key, key ∈ new.entries ↔ key ∈ old.entries) :
    Accounted layout (cache.put new reference) := by
  have moved : (cache.put new reference).total layout + old.retainedBytes =
      cache.total layout + new.retainedBytes := total_put found
  refine accounted.replaced (find_put new) ?_
    (identity.trans (accounted.identities reference old found)) ?_ ?_ ?_ ?_
  · have whole := accounted.total
    rw [retainedBytes_put]
    omega
  · rw [retained, sum]
    exact accounted.retained reference old found
  · rw [recent_put]
    exact accounted.distinct
  · intro key
    rw [recent_put, accounted.listed, found, keys]
    simp
  · intro other key _
    rw [recent_put]

theorem obtain_of_found {domain : Domain} (found : cache.find binding.identity = some domain) :
    cache.obtain layout binding =
      cache.put { domain with generation := binding.generation } binding.identity := by
  unfold obtain
  rw [found]

theorem obtain_of_absent (absent : cache.find binding.identity = none) :
    cache.obtain layout binding =
      { cache.put { identity := binding.identity, generation := binding.generation }
          binding.identity with
        retainedBytes := cache.retainedBytes + layout.domainBytes } := by
  unfold obtain
  rw [absent]

theorem find_created {identity : Option CodeIdentity} (domain : Domain) (bytes : Nat)
    (other : Option CodeIdentity) :
    ({ cache.put domain identity with retainedBytes := bytes } : CodeCache).find other =
      if other = identity then some domain else cache.find other :=
  find_put domain other

theorem accounted_obtain (accounted : Accounted layout cache) :
    Accounted layout (cache.obtain layout binding) := by
  cases found : cache.find binding.identity with
  | some domain =>
    rw [obtain_of_found found]
    exact accounted.touched found rfl rfl rfl fun _ => Iff.rfl
  | none =>
    rw [obtain_of_absent found]
    obtain ⟨identity, persistent⟩ : ∃ identity, binding.identity = some identity := by
      cases which : binding.identity with
      | none =>
        rw [which] at found
        exact absurd found (by simp [find])
      | some identity => exact ⟨identity, rfl⟩
    refine accounted.replaced (find_created _ _) ?_ rfl rfl ?_ ?_ ?_
    · rw [persistent] at found ⊢
      have whole := accounted.total
      have added : CodeCache.total layout (cache.put
          { identity := some identity, generation := binding.generation } (some identity)) =
            cache.total layout + 0 + layout.domainBytes := total_create found
      change cache.retainedBytes + layout.domainBytes = CodeCache.total layout (cache.put _ _)
      omega
    · exact (recent_put cache _ _).symm ▸ accounted.distinct
    · intro key
      change (binding.identity, key) ∈ (cache.put _ _).recent ↔ key ∈ (∅ : Table _ Entry)
      rw [recent_put, accounted.listed, found]
      simp
    · intro other key _
      change (other, key) ∈ (cache.put _ _).recent ↔ _
      rw [recent_put]

theorem retained_obtain : (cache.obtain layout binding).retainedBytes =
    cache.retainedBytes + cache.creationBytes layout binding := by
  unfold creationBytes
  cases found : cache.find binding.identity with
  | some domain =>
    rw [obtain_of_found found, retainedBytes_put]
    simp
  | none =>
    rw [obtain_of_absent found]
    cases which : binding.identity with
    | none =>
      rw [which] at found
      exact absurd found (by simp [find])
    | some identity => simp

theorem find_obtain (layout : CodeLayout) (cache : CodeCache) (binding : Binding) :
    ∃ domain, (cache.obtain layout binding).find binding.identity = some domain ∧
    ∀ key, key ∈ domain.entries →
      ∃ old, cache.find binding.identity = some old ∧ key ∈ old.entries := by
  cases found : cache.find binding.identity with
  | some domain =>
    rw [obtain_of_found found]
    exact ⟨_, (find_put _ _).trans (if_pos rfl), fun key stored => ⟨domain, rfl, stored⟩⟩
  | none =>
    rw [obtain_of_absent found]
    refine ⟨_, (find_created _ _ _).trans (if_pos rfl), fun key stored => ?_⟩
    exact absurd stored (AList.notMem_empty key)

/-- A reachable cache. -/
structure Sound (layout : CodeLayout) (cache : CodeCache) : Prop extends Accounted layout cache where
  bounded : cache.retainedBytes ≤ layout.budget

theorem Reduces.sound {after : CodeCache} (reduces : Reduces layout cache after)
    (sound : Sound layout cache) : Sound layout after :=
  ⟨reduces.accounted sound.toAccounted, reduces.retained.trans sound.bounded⟩

theorem not_mem_eraseEntry {reference : Option CodeIdentity} {key : TranslationKey} {domain : Domain}
    (found : (cache.eraseEntry reference key).find reference = some domain) :
    domain.entries.lookup key = none := by
  cases looked : (cache.find reference).bind (·.entries.lookup key) with
  | none =>
    rw [eraseEntry_of_absent looked] at found
    rwa [found, Option.bind_some] at looked
  | some entry =>
    obtain ⟨old, found', stored⟩ := Option.bind_eq_some_iff.mp looked
    rw [find_eraseEntry found' stored, if_pos rfl] at found
    obtain rfl := Option.some.inj found
    exact AList.lookup_erase key old.entries

/-- A new translation stands last in the list of use. -/
theorem Accounted.inserted (accounted : Accounted layout cache) {reference : Option CodeIdentity}
    {key : TranslationKey} {domain : Domain} (found : cache.find reference = some domain)
    (absent : domain.entries.lookup key = none) (entry : Entry) (revision : Nat) :
    Accounted layout { cache.put { domain with
          entries := domain.entries.insert key entry
          retainedBytes := domain.retainedBytes + entry.accountedBytes } reference with
        recent := cache.recent ++ [(reference, key)]
        revision := revision
        retainedBytes := cache.retainedBytes + entry.accountedBytes } := by
  have new : key ∉ domain.entries := by
    rw [Table.mem_iff_lookup, absent]
    simp
  have unlisted : (reference, key) ∉ cache.recent := by
    rw [accounted.listed, found]
    simpa using new
  have finds : ∀ other, find { cache.put { domain with
          entries := domain.entries.insert key entry
          retainedBytes := domain.retainedBytes + entry.accountedBytes } reference with
        recent := cache.recent ++ [(reference, key)]
        revision := revision
        retainedBytes := cache.retainedBytes + entry.accountedBytes } other = _ :=
    find_put _
  refine accounted.replaced finds ?_ (accounted.identities reference domain found) ?_ ?_ ?_ ?_
  · have moved : CodeCache.total layout (cache.put { domain with
          entries := domain.entries.insert key entry
          retainedBytes := domain.retainedBytes + entry.accountedBytes } reference) +
        domain.retainedBytes =
          cache.total layout + (domain.retainedBytes + entry.accountedBytes) := total_put found
    have whole := accounted.total
    change cache.retainedBytes + entry.accountedBytes = CodeCache.total layout (cache.put _ _)
    omega
  · have sum := accounted.retained reference domain found
    have added := Table.total_insert (·.accountedBytes) domain.entries key entry
    rw [Table.total_erase_absent _ absent] at added
    change domain.retainedBytes + entry.accountedBytes =
      Table.total (·.accountedBytes) (domain.entries.insert key entry)
    omega
  · refine List.nodup_append.mpr ⟨accounted.distinct, List.nodup_singleton _, ?_⟩
    rintro mark here _ last rfl
    rw [List.mem_singleton.mp last] at here
    exact unlisted here
  · intro other
    rw [List.mem_append, List.mem_singleton, accounted.listed, found]
    simp [AList.mem_insert, or_comm]
  · intro other other' apart
    rw [List.mem_append, List.mem_singleton]
    simp [apart]

theorem publish_ok (sound : Sound layout cache) (key : TranslationKey) {trace : PublishedTrace}
    (within : withinBudget layout binding trace = true) :
    ∃ result, cache.publish layout binding key trace = .ok result ∧ Sound layout result := by
  obtain ⟨accounted, worth⟩ : ∃ accounted,
      accounted = trace.capacity + layout.entryBytes + if trace.views then layout.viewBytes else 0 :=
    ⟨_, rfl⟩
  have room : accounted + metadataBytes layout binding.identity ≤ layout.budget := by
    have small := layout.small
    have minimum := layout.minimum
    have overhead : overhead layout binding trace ≤
        layout.entryBytes + layout.viewBytes + layout.domainBytes := by
      unfold CodeCache.overhead metadataBytes
      split_ifs <;> omega
    unfold withinBudget at within
    rw [decide_eq_true_eq] at within
    have split : accounted + metadataBytes layout binding.identity =
        trace.capacity + CodeCache.overhead layout binding trace := by
      rw [worth, CodeCache.overhead]
      omega
    omega
  have erasing : Reduces layout cache (cache.eraseEntry binding.identity key) :=
    reduces_eraseEntry binding.identity key
  have erased := erasing.sound sound
  obtain ⟨trimmed, trims, trimming, fits⟩ := trim_ok erased.toAccounted erased.bounded room
  have account := trimming.accounted erased.toAccounted
  have obtained : Accounted layout (trimmed.obtain layout binding) := accounted_obtain account
  have retained : (trimmed.obtain layout binding).retainedBytes =
      trimmed.retainedBytes + trimmed.creationBytes layout binding := retained_obtain
  obtain ⟨domain, found, olds⟩ :=
    find_obtain layout trimmed binding
  have absent : domain.entries.lookup key = none := by
    by_contra stored
    have known : key ∈ domain.entries :=
      AList.lookup_isSome.mp (Option.isSome_iff_ne_none.mpr stored)
    obtain ⟨old, found', here⟩ := olds key known
    obtain ⟨entry, looked⟩ := Table.mem_iff_lookup.mp here
    obtain ⟨former, found'', kept⟩ := trimming.shrinks _ _ found'
    have missing := not_mem_eraseEntry found''
    rw [kept _ _ looked] at missing
    exact absurd missing (by simp)
  have new : key ∉ domain.entries := by
    rw [Table.mem_iff_lookup, absent]
    simp
  rw [fits_iff room] at fits
  unfold publish
  extract_lets worth'
  obtain rfl : accounted = worth' := worth
  rw [trims]
  simp only [Bind.bind, Except.bind, found, if_neg new]
  have inserted := obtained.inserted found absent
    { accountedBytes := worth'
      dependency := trace.dependency
      views := trace.views
      code := trace.code
      stop := trace.stop
      maximumTicks := trace.maximumTicks }
  refine ⟨_, rfl, inserted _, ?_⟩
  change (trimmed.obtain layout binding).retainedBytes + worth' ≤ layout.budget
  omega

/-! ### The operations -/

theorem accounted_empty (revision : Nat) :
    Accounted layout { revision := revision } := by
  constructor
  · rfl
  · intro reference domain found
    cases reference with
    | none =>
      obtain rfl := Option.some.inj found
      rfl
    | some identity => exact absurd found (by simp [find])
  · intro reference domain found
    cases reference with
    | none =>
      obtain rfl := Option.some.inj found
      rfl
    | some identity => exact absurd found (by simp [find])
  · exact List.nodup_nil
  · intro reference key
    cases reference with
    | none => simp [find]
    | some identity => simp [find]

theorem sound_empty (revision : Nat) : Sound layout { revision := revision } :=
  ⟨accounted_empty revision, Nat.zero_le _⟩

theorem sound_hit (sound : Sound layout cache) {key : TranslationKey}
    (known : (cache.translation binding key).isSome) : Sound layout (cache.hit binding key) := by
  obtain ⟨entry, looked⟩ := Option.isSome_iff_exists.mp known
  obtain ⟨domain, found, stored⟩ := Option.bind_eq_some_iff.mp looked
  have listed : (binding.identity, key) ∈ cache.recent :=
    (sound.listed _ _).mpr ⟨domain, found, Table.mem_iff_lookup.mpr ⟨entry, stored⟩⟩
  have moved : (cache.hit binding key).recent.Perm cache.recent :=
    (List.perm_append_singleton _ _).trans (List.perm_cons_erase listed).symm
  refine ⟨⟨sound.total, sound.retained, sound.identities, ?_, ?_⟩, sound.bounded⟩
  · exact moved.nodup_iff.mpr sound.distinct
  · intro reference other
    rw [moved.mem_iff]
    exact sound.listed reference other

theorem install_ok (sound : Sound layout cache) (key : TranslationKey)
    (compiled : Option PublishedTrace) :
    ∃ result, cache.install layout binding key compiled = .ok result ∧ Sound layout result := by
  cases compiled with
  | none => exact ⟨cache, rfl, sound⟩
  | some trace =>
    unfold install
    dsimp only
    split_ifs with within
    · exact publish_ok sound key within
    · exact ⟨cache, rfl, sound⟩

theorem entry_ok (sound : Sound layout cache) (key : TranslationKey) (answers : Answers) :
    ∃ result, cache.entry layout binding key answers = .ok result ∧ Sound layout result := by
  unfold entry
  extract_lets stale fresh previous
  have sound' : Sound layout fresh := by
    unfold fresh
    split_ifs
    · exact (reduces_eraseEntry _ _).sound sound
    · exact sound
  by_cases held : previous.isSome ∧ ¬answers.replaces
  · rw [if_pos held]
    exact ⟨_, rfl, sound_hit sound' held.1⟩
  · rw [if_neg held]
    cases answers.extension with
    | none => exact install_ok sound' key answers.compiled
    | some extension =>
      dsimp only
      cases tried : extension.filter (withinBudget layout binding) with
      | some trace => exact publish_ok sound' key (Option.filter_eq_some_iff.mp tried).2
      | none =>
        dsimp only
        split_ifs with known
        · exact ⟨_, rfl, sound_hit sound' known⟩
        · exact install_ok sound' key answers.compiled

theorem sound_updateEntry (sound : Sound layout cache) {reference : Option CodeIdentity}
    {key : TranslationKey} {domain : Domain} {entry new : Entry}
    (found : cache.find reference = some domain) (stored : domain.entries.lookup key = some entry)
    (same : new.accountedBytes = entry.accountedBytes) :
    Sound layout (cache.updateEntry reference key new) := by
  unfold updateEntry
  rw [found]
  refine ⟨sound.touched found rfl rfl ?_ fun other => ?_, ?_⟩
  · have moved := Table.total_replace (·.accountedBytes) new stored
    simp only [same] at moved
    exact Nat.add_right_cancel moved
  · rw [AList.mem_insert]
    constructor
    · rintro (rfl | here)
      · exact Table.mem_iff_lookup.mpr ⟨entry, stored⟩
      · exact here
    · exact Or.inr
  · rw [retainedBytes_put]
    exact sound.bounded

theorem sound_allocated (sound : Sound layout cache) (unkept : cache.continuations = none)
    {bytes : Nat} (room : bytes ≤ layout.budget - cache.retainedBytes) (cookie : Nat) :
    Sound layout { cache with
      continuationCookie := cookie
      continuations := some bytes
      retainedBytes := cache.retainedBytes + bytes } := by
  have whole := sound.total
  have bounded := sound.bounded
  refine ⟨⟨?_, sound.retained, sound.identities, sound.distinct, sound.listed⟩, ?_⟩
  · simp only [CodeCache.total, unkept, Option.getD_none] at whole
    simp only [CodeCache.total, Option.getD_some]
    omega
  · dsimp only
    omega

theorem sound_prepareContinuations (sound : Sound layout cache) (root : Option CodeIdentity)
    (key : TranslationKey) (lease : Lease) (remaining : Nat) (allocated : Option Nat) :
    Sound layout (cache.prepareContinuations layout root key lease remaining allocated) := by
  have prepared : Sound layout
      { cache with continuationCookie := cache.continuationCookie + 1 } :=
    ⟨⟨sound.total, sound.retained, sound.identities, sound.distinct, sound.listed⟩, sound.bounded⟩
  unfold prepareContinuations
  split
  · exact sound
  · rename_i domain found
    split
    · exact sound
    · rename_i entry stored
      split
      · exact sound_updateEntry sound found stored rfl
      · split
        · exact sound
        · split
          · extract_lets resolvable candidates next
            split
            · exact prepared
            · rename_i unkept
              split
              · exact sound
              · cases allocated with
                | none => exact sound
                | some bytes =>
                  dsimp only
                  split
                  · exact sound
                  · exact sound_allocated sound (by simpa using unkept) (by omega) _
          · exact sound

/-- Every operation ends without an error of the cache's own logic. -/
theorem perform_ok (sound : Sound layout cache) (operation : Operation) :
    ∃ result, cache.perform layout operation = .ok result ∧ Sound layout result := by
  cases operation with
  | clear => exact ⟨_, rfl, sound_empty _⟩
  | beginRun => exact ⟨_, rfl, (reduces_invalidate none).sound sound⟩
  | invalidateRange address size =>
    exact ⟨_, rfl, (reduces_invalidateRange address size).sound sound⟩
  | bind lease => exact ⟨_, rfl, (reduces_bind lease).sound sound⟩
  | entry binding key answers => exact entry_ok sound key answers
  | prepareContinuations root key lease remaining allocated =>
    exact ⟨_, rfl, sound_prepareContinuations sound root key lease remaining allocated⟩

theorem performAll_ok (operations : List Operation) (sound : Sound layout cache) :
    ∃ result, cache.performAll layout operations = .ok result ∧ Sound layout result := by
  induction operations generalizing cache with
  | nil => exact ⟨cache, rfl, sound⟩
  | cons operation rest ih =>
    obtain ⟨next, performed, sound'⟩ := perform_ok sound operation
    obtain ⟨result, runs, final⟩ := ih sound'
    refine ⟨result, ?_, final⟩
    unfold performAll
    rw [performed]
    exact runs

end
end ILEmu.Arm64.CodeCache
