import ILEmu.Arm64.CodeBudget

/-! What bindings and invalidations take out of the code cache, over every run of operations. -/
namespace ILEmu.Arm64.CodeCache
open Foundation

/-- The bytes of all translations. -/
def codeBytes (cache : CodeCache) : Nat :=
  Table.total (·.accountedBytes) cache.anonymous.entries +
    cache.domains.total fun domain => Table.total (·.accountedBytes) domain.entries

/-- A domain is not there, or it has no translations. -/
def Emptied (cache : CodeCache) (reference : Option CodeIdentity) : Prop :=
  ∀ domain, cache.find reference = some domain → ∀ key, key ∉ domain.entries

/-- A translation depends on a byte of its source, or its first instruction is fetched from it. -/
def Reads (key : TranslationKey) (entry : Entry) (byte : Nat) : Prop :=
  (entry.dependency.begin ≤ byte ∧ byte < entry.dependency.finish) ∨
    ∃ offset < 4, byte = (key.pc.toNat + offset) % addressLimit

section
variable {layout : CodeLayout} {cache : CodeCache} {reference : Option CodeIdentity}

theorem retained_eq (accounted : Accounted layout cache) :
    cache.retainedBytes = cache.codeBytes + layout.domainBytes * cache.domains.keys.length +
      cache.continuations.getD 0 := by
  have same : cache.domains.total (fun domain => domain.retainedBytes + layout.domainBytes) =
      cache.domains.total (fun domain =>
        Table.total (·.accountedBytes) domain.entries + layout.domainBytes) :=
    Table.total_congr fun identity domain found =>
      congrArg (· + layout.domainBytes) (accounted.retained (some identity) domain found)
  rw [accounted.total, CodeCache.total, accounted.retained none _ rfl, same, Table.total_add,
    Table.total_const, codeBytes, Nat.add_assoc]
  omega

theorem Emptied.of_shrinks {after : CodeCache} (emptied : Emptied cache reference)
    (shrinks : Shrinks cache after) : Emptied after reference := by
  intro domain found key stored
  obtain ⟨old, found', kept⟩ := shrinks reference domain found
  obtain ⟨entry, looked⟩ := Table.mem_iff_lookup.mp stored
  exact emptied old found' key (Table.mem_iff_lookup.mpr ⟨entry, kept key entry looked⟩)

theorem emptied_invalidate : Emptied (cache.invalidate reference) reference := by
  cases found : cache.find reference with
  | none =>
    have same : cache.invalidate reference = cache := by
      unfold invalidate
      rw [found]
    intro domain found'
    rw [same, found] at found'
    exact absurd found' (by simp)
  | some old =>
    obtain ⟨domain, found', empty⟩ := isVacant_iff.mp (isVacant_invalidate found)
    intro other found''
    rw [found'] at found''
    obtain rfl := Option.some.inj found''
    exact empty

/-! ### Bindings -/

/-- A binding of another generation leaves none of the translations of the domain. -/
theorem bind_revokes (layout : CodeLayout) (cache : CodeCache) {lease : Lease} {domain : Domain}
    (found : cache.find lease.identity = some domain)
    (renewed : domain.generation ≠ (cache.bind layout lease).1.generation) :
    Emptied (cache.bind layout lease).2 lease.identity := by
  unfold bind at renewed ⊢
  cases fresh : lease.generation with
  | none =>
    cases which : lease.identity with
    | none =>
      dsimp only
      exact emptied_invalidate
    | some identity =>
      rw [which] at found
      dsimp only
      have known : (cache.domains.lookup identity).isSome := Option.isSome_iff_exists.mpr ⟨_, found⟩
      rw [if_pos known]
      have shrunk : Reduces layout ((cache.invalidate (some identity)).dropDomain layout identity) _ :=
        reduces_invalidate none
      refine Emptied.of_shrinks ?_ shrunk.shrinks
      intro domain' found'
      rw [find_dropDomain, if_pos rfl] at found'
      exact absurd found' (by simp)
  | some generation =>
    rw [fresh] at renewed
    dsimp only at renewed ⊢
    rw [found, Option.any_some, if_pos (decide_eq_true renewed)]
    exact emptied_invalidate

/-- Without a generation nothing anonymous is left either. -/
theorem bind_revokes_anonymous (layout : CodeLayout) (cache : CodeCache) {lease : Lease}
    (lost : (cache.bind layout lease).1.generation = none) :
    Emptied (cache.bind layout lease).2 (cache.bind layout lease).1.identity := by
  unfold bind at lost ⊢
  cases fresh : lease.generation with
  | none =>
    dsimp only
    exact emptied_invalidate
  | some generation =>
    rw [fresh] at lost
    exact absurd lost (by simp)

/-! ### Invalidated ranges -/

/-- What the step of one item establishes, and what later steps keep, holds after all of them. -/
theorem foldl_establishes {α : Type*} {step : CodeCache → α → CodeCache} {P : CodeCache → Prop}
    (shrinks : ∀ cache item, Shrinks cache (step cache item))
    (kept : ∀ {before after}, Shrinks before after → P before → P after) {item : α}
    (does : ∀ cache, P (step cache item)) {items : List α} (member : item ∈ items)
    (cache : CodeCache) : P (items.foldl step cache) := by
  have rest : ∀ (items : List α) (cache : CodeCache), P cache → P (items.foldl step cache) := by
    intro items
    induction items with
    | nil => exact fun _ => id
    | cons item items ih => exact fun cache holds => ih _ (kept (shrinks cache item) holds)
  induction items generalizing cache with
  | nil => exact absurd member List.not_mem_nil
  | cons other items ih =>
    rcases List.mem_cons.mp member with rfl | later
    · exact rest items _ (does cache)
    · exact ih later _

/-- No translation of a domain has a property. -/
def Lacks (property : TranslationKey → Entry → Prop) (reference : Option CodeIdentity)
    (cache : CodeCache) : Prop :=
  ∀ domain key entry, cache.find reference = some domain →
    domain.entries.lookup key = some entry → ¬property key entry

theorem Lacks.of_shrinks {property : TranslationKey → Entry → Prop} {before after : CodeCache}
    (shrinks : Shrinks before after) (lacks : Lacks property reference before) :
    Lacks property reference after := by
  intro domain key entry found stored
  obtain ⟨old, found', kept⟩ := shrinks reference domain found
  exact lacks old key entry found' (kept key entry stored)

theorem lacks_invalidateEntries (layout : CodeLayout) (first last : Nat) :
    Lacks (fun key entry => touches first last key entry = true) reference
      (cache.invalidateEntries first last reference) := by
  intro domain key entry found stored touched
  have whole : Reduces layout cache (cache.invalidateEntries first last reference) :=
    reduces_invalidateEntries first last reference
  have erases : ∀ (cache : CodeCache) key, Reduces layout cache (cache.eraseEntry reference key) :=
    fun _ key => reduces_eraseEntry reference key
  obtain ⟨old, found', kept⟩ := whole.shrinks reference domain found
  have looked := kept key entry stored
  have marked : key ∈ old.entries.keys.filter
      fun key => (old.entries.lookup key).any (touches first last key) := by
    refine List.mem_filter.mpr ⟨AList.mem_keys.mp (Table.mem_iff_lookup.mpr ⟨entry, looked⟩), ?_⟩
    rw [looked]
    exact touched
  have gone : Lacks (fun other _ => other = key) reference
      (cache.invalidateEntries first last reference) := by
    unfold invalidateEntries
    rw [found']
    refine foldl_establishes (fun cache key => (erases cache key).shrinks) Lacks.of_shrinks ?_
      marked cache
    rintro before domain' other entry' here there rfl
    rw [not_mem_eraseEntry here] at there
    exact absurd there (by simp)
  exact gone domain key entry found stored rfl

theorem lacks_invalidateRange (layout : CodeLayout) (cache : CodeCache) {address : BitVec 32}
    {size : Nat} (proper : size ≠ 0) (reference : Option CodeIdentity) :
    Lacks (fun key entry => touches address.toNat
      (address.toNat + min size (addressLimit - address.toNat)) key entry = true) reference
        (cache.invalidateRange layout address size) := by
  have whole : Reduces layout cache (cache.invalidateRange layout address size) :=
    reduces_invalidateRange address size
  unfold invalidateRange at whole ⊢
  rw [if_neg proper] at whole ⊢
  dsimp only at whole ⊢
  generalize address.toNat + min size (addressLimit - address.toNat) = last at whole ⊢
  have reclaims : ∀ (cache : CodeCache) identity,
      Reduces layout cache (cache.reclaimDomain layout identity) :=
    fun _ identity => reduces_reclaimDomain identity
  have each : ∀ (cache : CodeCache) identity, Reduces layout cache
      ((cache.invalidateEntries address.toNat last (some identity)).reclaimDomain layout identity) :=
    fun _ identity => (reduces_invalidateEntries _ _ _).trans (reclaims _ identity)
  cases reference with
  | none =>
    have later := Reduces.foldl each cache.domains.keys
      (cache.invalidateEntries address.toNat last none)
    exact (lacks_invalidateEntries layout address.toNat last).of_shrinks later.shrinks
  | some identity =>
    by_cases member : identity ∈ cache.domains.keys
    · refine foldl_establishes (fun cache identity => (each cache identity).shrinks)
        Lacks.of_shrinks (fun before => ?_) member _
      exact (lacks_invalidateEntries layout address.toNat last).of_shrinks
        (reclaims _ identity).shrinks
    · intro domain key entry found
      obtain ⟨old, found', -⟩ := whole.shrinks (some identity) domain found
      exact absurd (AList.mem_keys.mp (Table.mem_iff_lookup.mpr ⟨old, found'⟩)) member

/-- A fetch of four bytes around the end of the address space is two intervals. -/
theorem touches_of_reads {key : TranslationKey} {entry : Entry} {first last byte : Nat}
    (reads : Reads key entry byte) (low : first ≤ byte) (high : byte < last) :
    touches first last key entry = true := by
  have limit : addressLimit = 4294967296 := rfl
  unfold touches
  simp only [Bool.or_eq_true, Bool.and_eq_true, decide_eq_true_eq]
  rcases reads with depends | ⟨offset, near, rfl⟩
  · exact Or.inl (Or.inl (by omega))
  · by_cases inside : key.pc.toNat + offset < addressLimit
    · rw [Nat.mod_eq_of_lt inside] at low high
      exact Or.inl (Or.inr (by omega))
    · have wrapped : (key.pc.toNat + offset) % addressLimit =
          key.pc.toNat + offset - addressLimit := by
        rw [Nat.mod_eq_sub_mod (by omega), Nat.mod_eq_of_lt (by omega)]
      rw [wrapped] at low high
      exact Or.inr (by omega)

/-- No translation is left that reads a byte of an invalidated range. -/
theorem invalidateRange_unread (layout : CodeLayout) (cache : CodeCache) (address : BitVec 32)
    (size byte : Nat) (low : address.toNat ≤ byte)
    (high : byte < address.toNat + min size (addressLimit - address.toNat))
    (reference : Option CodeIdentity) :
    Lacks (fun key entry => Reads key entry byte) reference
      (cache.invalidateRange layout address size) := by
  have proper : size ≠ 0 := by
    rintro rfl
    omega
  intro domain key entry found stored reads
  exact lacks_invalidateRange layout cache proper reference domain key entry found stored
    (touches_of_reads reads low high)

end
end ILEmu.Arm64.CodeCache
