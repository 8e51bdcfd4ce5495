import ILEmu.Memory.FileGenerations

/-! The indexes of the registry name its entries, and the revision of a path only goes up. -/
namespace ILEmu.Memory.GuestFileGenerationRegistry

open FilePageCache (Generation)

/-- The vnode that the entry of the path names. -/
def vnodeOf (registry : GuestFileGenerationRegistry) (path : Path) : Option VnodeIdentity :=
  (registry.entries.lookup path).bind (·.vnode)

/-- The aliases of a vnode are the entries that name it, and the list of use is of the entries. -/
structure Indexed (registry : GuestFileGenerationRegistry) : Prop where
  aliases : ∀ vnode path, path ∈ registry.vnodeAliases vnode ↔ registry.vnodeOf path = some vnode
  distinct : ∀ vnode, (registry.vnodeAliases vnode).Nodup
  lru : registry.entryLru.Perm registry.entries.keys
  revisions : ∀ path snapshot, registry.entries.lookup path = some snapshot →
    snapshot.revision < registry.nextRevision
  positive : 0 < registry.nextRevision

theorem Indexed.start : Indexed {} where
  aliases _ _ := iff_of_false List.not_mem_nil nofun
  distinct _ := List.nodup_nil
  lru := List.Perm.refl []
  revisions _ _ found := nomatch found
  positive := Nat.one_pos

/-- Every snapshot is an earlier one or of a later revision. -/
structure Grows (before after : GuestFileGenerationRegistry) : Prop where
  revision : before.nextRevision ≤ after.nextRevision
  snapshots : ∀ path new, after.entries.lookup path = some new →
    before.entries.lookup path = some new ∨ before.nextRevision ≤ new.revision

theorem Grows.refl (registry : GuestFileGenerationRegistry) : Grows registry registry :=
  ⟨Nat.le_refl _, fun _ _ found => .inl found⟩

theorem Grows.trans {first second third : GuestFileGenerationRegistry}
    (grows : Grows first second) (later : Grows second third) : Grows first third where
  revision := grows.revision.trans later.revision
  snapshots path new found := by
    rcases later.snapshots path new found with kept | above
    · exact grows.snapshots path new kept
    · exact .inr (grows.revision.trans above)

section
variable {registry : GuestFileGenerationRegistry} {path : Path}

theorem mem_lru (indexed : Indexed registry) : path ∈ registry.entryLru ↔ path ∈ registry.entries :=
  indexed.lru.mem_iff

/-- A list with one of its elements moved to the end. -/
theorem perm_touch {paths : List Path} (listed : path ∈ paths) :
    (paths.erase path ++ [path]).Perm paths :=
  (List.perm_append_singleton path _).trans (List.perm_cons_erase listed).symm

theorem Indexed.touchEntry (indexed : Indexed registry) (here : path ∈ registry.entries) :
    Indexed (registry.touchEntry path) where
  __ := indexed
  lru := (perm_touch ((mem_lru indexed).mpr here)).trans indexed.lru

theorem Indexed.ensureEntry (indexed : Indexed registry) (path : Path) :
    Indexed (registry.ensureEntry path) := by
  unfold GuestFileGenerationRegistry.ensureEntry
  split
  · rename_i here
    exact indexed.touchEntry here
  · rename_i absent
    have none : registry.entries.lookup path = none := AList.lookup_eq_none.mpr absent
    refine ⟨?_, indexed.distinct, ?_, ?_, indexed.positive⟩
    · intro vnode other
      rw [indexed.aliases]
      unfold vnodeOf
      dsimp only
      by_cases same : other = path
      · rw [same, AList.lookup_insert, none]
        exact Iff.rfl
      · rw [AList.lookup_insert_ne same]
    · dsimp only
      rw [AList.keys_insert, List.erase_of_not_mem absent]
      exact (List.perm_append_singleton path _).trans (indexed.lru.cons path)
    · intro other snapshot found
      dsimp only at found
      by_cases same : other = path
      · rw [same, AList.lookup_insert] at found
        obtain rfl := Option.some.inj found
        exact indexed.positive
      · rw [AList.lookup_insert_ne same] at found
        exact indexed.revisions other snapshot found

theorem mem_ensureEntry (path : Path) : path ∈ (registry.ensureEntry path).entries := by
  unfold GuestFileGenerationRegistry.ensureEntry
  split
  · rename_i here
    exact here
  · exact (AList.mem_insert _).mpr (.inl rfl)

/-! ### The snapshot of an entry -/

theorem mem_insertAlias {paths : List Path} {other : Path} :
    other ∈ insertAlias path paths ↔ other = path ∨ other ∈ paths := by
  unfold insertAlias
  split
  · rename_i here
    constructor
    · exact .inr
    · rintro (rfl | listed)
      · exact here
      · exact listed
  · exact List.mem_orderedInsert _

theorem insertAlias_nodup {paths : List Path} (distinct : paths.Nodup) :
    (insertAlias path paths).Nodup := by
  unfold insertAlias
  split
  · exact distinct
  · rename_i absent
    exact (List.perm_orderedInsert _ path paths).nodup_iff.mpr (distinct.cons absent)

theorem mem_setSnapshot_aliases (indexed : Indexed registry) (snapshot : GuestFileGenerationSnapshot)
    (vnode : VnodeIdentity) (other : Path) :
    other ∈ (registry.setSnapshot path snapshot).vnodeAliases vnode ↔
      if other = path then snapshot.vnode = some vnode
      else registry.vnodeOf other = some vnode := by
  unfold setSnapshot
  dsimp only
  change other ∈ (if registry.vnodeOf path ≠ snapshot.vnode then _ else _ : VnodeIdentity → List Path)
    vnode ↔ _
  by_cases moved : registry.vnodeOf path ≠ snapshot.vnode
  · rw [if_pos moved]
    change other ∈ (if snapshot.vnode = some vnode then _ else
      if registry.vnodeOf path = some vnode then _ else _ : List Path) ↔ _
    by_cases joins : snapshot.vnode = some vnode
    · rw [if_pos joins, mem_insertAlias, indexed.aliases]
      split_ifs with same
      · exact iff_of_true (.inl same) joins
      · exact or_iff_right same
    · rw [if_neg joins]
      by_cases leaves : registry.vnodeOf path = some vnode
      · rw [if_pos leaves, (indexed.distinct vnode).mem_erase_iff, indexed.aliases]
        split_ifs with same
        · exact iff_of_false (fun both => both.1 same) joins
        · exact and_iff_right same
      · rw [if_neg leaves, indexed.aliases]
        split_ifs with same
        · rw [same]
          exact iff_of_false leaves joins
        · exact Iff.rfl
  · rw [if_neg moved, indexed.aliases]
    rw [not_not] at moved
    split_ifs with same
    · rw [same, moved]
    · exact Iff.rfl

theorem setSnapshot_aliases_nodup (indexed : Indexed registry)
    (snapshot : GuestFileGenerationSnapshot) (vnode : VnodeIdentity) :
    ((registry.setSnapshot path snapshot).vnodeAliases vnode).Nodup := by
  have distinct := indexed.distinct vnode
  unfold setSnapshot
  dsimp only
  split
  · dsimp only
    split
    · exact insertAlias_nodup distinct
    · split
      · exact distinct.erase path
      · exact distinct
  · exact distinct

theorem setSnapshot_lookup (snapshot : GuestFileGenerationSnapshot) (other : Path) :
    (registry.setSnapshot path snapshot).entries.lookup other =
      if other = path then some snapshot else registry.entries.lookup other := by
  unfold setSnapshot
  dsimp only
  split_ifs with same
  · rw [same, AList.lookup_insert]
  · rw [AList.lookup_insert_ne same]

theorem Indexed.revise (indexed : Indexed registry) (here : path ∈ registry.entries)
    (generation : Option Generation) (mutation : GuestFileMutationKind)
    (contentIdentity : Option (BitVec 256)) :
    Indexed (registry.revise path generation mutation contentIdentity) := by
  unfold GuestFileGenerationRegistry.revise
  generalize snapshot : (⟨registry.nextRevision, generation, mutation, contentIdentity⟩ :
    GuestFileGenerationSnapshot) = new
  have revision : new.revision = registry.nextRevision := by
    rw [← snapshot]
  refine ⟨?_, setSnapshot_aliases_nodup indexed new, ?_, ?_, Nat.succ_pos _⟩
  · intro vnode other
    refine (mem_setSnapshot_aliases indexed new vnode other).trans ?_
    unfold vnodeOf
    dsimp only
    rw [setSnapshot_lookup]
    split_ifs
    · exact Iff.rfl
    · exact Iff.rfl
  · refine indexed.lru.trans ?_
    change List.Perm _ (registry.entries.insert path new).keys
    rw [AList.keys_insert]
    exact List.perm_cons_erase here
  · intro other found same
    dsimp only at same ⊢
    rw [setSnapshot_lookup] at same
    split_ifs at same
    · obtain rfl := Option.some.inj same
      rw [revision]
      exact Nat.lt_succ_self _
    · exact (indexed.revisions other found same).trans (Nat.lt_succ_self _)

/-- The erased path may have been tracked or not. -/
theorem Indexed.eraseEntry (indexed : Indexed registry) (path : Path) :
    Indexed (registry.eraseEntry path) := by
  unfold GuestFileGenerationRegistry.eraseEntry
  have lookup : ∀ other, ((registry.setSnapshot path {}).entries.erase path).lookup other =
      if other = path then none else registry.entries.lookup other := by
    intro other
    split_ifs with same
    · rw [same, AList.lookup_erase]
    · rw [AList.lookup_erase_ne same, setSnapshot_lookup, if_neg same]
  refine ⟨?_, setSnapshot_aliases_nodup indexed _, ?_, ?_, indexed.positive⟩
  · intro vnode other
    refine (mem_setSnapshot_aliases indexed _ vnode other).trans ?_
    unfold vnodeOf
    dsimp only
    rw [lookup]
    split_ifs
    · exact Iff.rfl
    · exact Iff.rfl
  · change (registry.entryLru.erase path).Perm ((registry.entries.insert path {}).erase path).keys
    rw [AList.keys_erase, AList.keys_insert, List.erase_cons_head]
    exact indexed.lru.erase path
  · intro other snapshot found
    dsimp only at found
    rw [lookup] at found
    split_ifs at found
    exact indexed.revisions other snapshot found

/-! ### The revisions -/

theorem grows_of_lookup {after : GuestFileGenerationRegistry}
    (revision : after.nextRevision = registry.nextRevision)
    (kept : ∀ path new, after.entries.lookup path = some new →
      registry.entries.lookup path = some new) : Grows registry after :=
  ⟨revision.ge, fun path new found => .inl (kept path new found)⟩

theorem ensureEntry_lookup {other : Path} (ne : other ≠ path) :
    (registry.ensureEntry path).entries.lookup other = registry.entries.lookup other := by
  unfold GuestFileGenerationRegistry.ensureEntry
  split
  · rfl
  · exact AList.lookup_insert_ne ne

theorem ensureEntry_revision : (registry.ensureEntry path).nextRevision = registry.nextRevision := by
  unfold GuestFileGenerationRegistry.ensureEntry
  split
  · rfl
  · rfl

theorem grows_revise (generation : Option Generation) (mutation : GuestFileMutationKind)
    (contentIdentity : Option (BitVec 256)) :
    Grows registry (registry.revise path generation mutation contentIdentity) := by
  refine ⟨Nat.le_succ _, fun other new found => ?_⟩
  unfold revise at found
  dsimp only at found
  rw [setSnapshot_lookup] at found
  split_ifs at found
  · obtain rfl := Option.some.inj found
    exact .inr (Nat.le_refl _)
  · exact .inl found

/-- An entry that is made is given a revision at once. -/
theorem grows_ensure_revise (generation : Option Generation) (mutation : GuestFileMutationKind)
    (contentIdentity : Option (BitVec 256)) :
    Grows registry ((registry.ensureEntry path).revise path generation mutation
      contentIdentity) := by
  refine ⟨?_, fun other new found => ?_⟩
  · change _ ≤ (registry.ensureEntry path).nextRevision + 1
    rw [ensureEntry_revision]
    exact Nat.le_succ _
  · unfold revise at found
    dsimp only at found
    rw [setSnapshot_lookup] at found
    split_ifs at found with same
    · obtain rfl := Option.some.inj found
      rw [ensureEntry_revision]
      exact .inr (Nat.le_refl _)
    · rw [ensureEntry_lookup same] at found
      exact .inl found

theorem grows_eraseEntry : Grows registry (registry.eraseEntry path) := by
  refine grows_of_lookup rfl fun other new found => ?_
  unfold eraseEntry at found
  dsimp only at found
  by_cases same : other = path
  · rw [same, AList.lookup_erase] at found
    contradiction
  · rw [AList.lookup_erase_ne same, setSnapshot_lookup, if_neg same] at found
    exact found

/-! ### The queue aside -/

theorem enqueueMutation_index (registry : GuestFileGenerationRegistry) (path : Path)
    (mutation : GuestFileMutationKind) :
    (registry.enqueueMutation path mutation).entries = registry.entries ∧
      (registry.enqueueMutation path mutation).vnodeAliases = registry.vnodeAliases ∧
      (registry.enqueueMutation path mutation).entryLru = registry.entryLru ∧
      (registry.enqueueMutation path mutation).nextRevision = registry.nextRevision := by
  unfold enqueueMutation
  split
  · exact ⟨rfl, rfl, rfl, rfl⟩
  · dsimp only
    split
    · exact ⟨rfl, rfl, rfl, rfl⟩
    · split
      · exact ⟨rfl, rfl, rfl, rfl⟩
      · exact ⟨rfl, rfl, rfl, rfl⟩

theorem Indexed.congr {after : GuestFileGenerationRegistry} (indexed : Indexed registry)
    (entries : after.entries = registry.entries)
    (aliases : after.vnodeAliases = registry.vnodeAliases)
    (lru : after.entryLru = registry.entryLru)
    (revision : after.nextRevision = registry.nextRevision) : Indexed after := by
  refine ⟨?_, ?_, ?_, ?_, ?_⟩
  · unfold vnodeOf
    rw [entries, aliases]
    exact indexed.aliases
  · rw [aliases]
    exact indexed.distinct
  · rw [entries, lru]
    exact indexed.lru
  · rw [entries, revision]
    exact indexed.revisions
  · rw [revision]
    exact indexed.positive

theorem Indexed.enqueueMutation (indexed : Indexed registry) (path : Path)
    (mutation : GuestFileMutationKind) : Indexed (registry.enqueueMutation path mutation) := by
  obtain ⟨entries, aliases, lru, revision⟩ :=
    enqueueMutation_index registry path mutation
  exact indexed.congr entries aliases lru revision

theorem grows_enqueueMutation (path : Path) (mutation : GuestFileMutationKind) :
    Grows registry (registry.enqueueMutation path mutation) := by
  obtain ⟨entries, -, -, revision⟩ :=
    enqueueMutation_index registry path mutation
  refine grows_of_lookup revision fun other new found => ?_
  rw [entries] at found
  exact found

end
end ILEmu.Memory.GuestFileGenerationRegistry
