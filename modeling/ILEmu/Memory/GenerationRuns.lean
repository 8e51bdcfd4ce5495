import ILEmu.Foundation.Run
import ILEmu.Memory.GenerationIndex
import ILEmu.Memory.MutationQueue

/-! The registry after any sequence of its critical sections. -/
namespace ILEmu.Memory.GuestFileGenerationRegistry

open FilePageCache (Generation)
open Foundation

/-- A registry that is well indexed and covered, and what it has grown from. -/
structure Advance (before after : GuestFileGenerationRegistry) : Prop where
  indexed : Indexed after
  covered : AllCovered after
  grows : Grows before after

theorem Advance.trans {first second third : GuestFileGenerationRegistry}
    (advance : Advance first second) (later : Advance second third) : Advance first third :=
  ⟨later.indexed, later.covered, advance.grows.trans later.grows⟩

section
variable {registry : GuestFileGenerationRegistry} {path : Path}

/-! ### Evictions -/

theorem Advance.eraseEntry (indexed : Indexed registry) (covered : AllCovered registry)
    (path : Path) : Advance registry (registry.eraseEntry path) :=
  ⟨indexed.eraseEntry path, covered.congr rfl rfl rfl, grows_eraseEntry⟩

theorem Advance.refl (indexed : Indexed registry) (covered : AllCovered registry) :
    Advance registry registry :=
  ⟨indexed, covered, Grows.refl registry⟩

theorem Advance.eraseSubtreeEntries (indexed : Indexed registry) (covered : AllCovered registry)
    (subtree : Path) : Advance registry (registry.eraseSubtreeEntries subtree) := by
  unfold GuestFileGenerationRegistry.eraseSubtreeEntries
  refine List.foldlRecOn (motive := Advance registry) _ _ (Advance.refl indexed covered) ?_
  intro after advance path _
  exact advance.trans (Advance.eraseEntry advance.indexed advance.covered path)

theorem Advance.evictEntry (indexed : Indexed registry) (covered : AllCovered registry) :
    Advance registry registry.evictEntry := by
  unfold GuestFileGenerationRegistry.evictEntry
  split
  · exact Advance.refl indexed covered
  · split
    · exact Advance.eraseEntry indexed covered _
    · exact Advance.refl indexed covered

theorem Advance.iterate (indexed : Indexed registry) (covered : AllCovered registry) (turns : Nat) :
    Advance registry (GuestFileGenerationRegistry.evictEntry^[turns] registry) := by
  induction turns with
  | zero => exact Advance.refl indexed covered
  | succ turns ih =>
    rw [Function.iterate_succ_apply']
    exact ih.trans (Advance.evictEntry ih.indexed ih.covered)

theorem Advance.evictEntries (indexed : Indexed registry) (covered : AllCovered registry) :
    Advance registry registry.evictEntries :=
  Advance.iterate indexed covered _

/-! ### The critical sections -/

theorem AllCovered.ensureEntry (covered : AllCovered registry) (path : Path) :
    AllCovered (registry.ensureEntry path) := by
  unfold GuestFileGenerationRegistry.ensureEntry
  split
  · exact covered.congr rfl rfl rfl
  · exact covered.congr rfl rfl rfl

theorem AllCovered.revise (covered : AllCovered registry) (path : Path)
    (generation : Option Generation) (mutation : GuestFileMutationKind)
    (contentIdentity : Option (BitVec 256)) :
    AllCovered (registry.revise path generation mutation contentIdentity) :=
  covered.congr rfl rfl rfl

theorem Advance.enqueueMutation (indexed : Indexed registry) (covered : AllCovered registry)
    (path : Path) (mutation : GuestFileMutationKind) :
    Advance registry (registry.enqueueMutation path mutation) :=
  ⟨indexed.enqueueMutation path mutation, covered.enqueueMutation path mutation,
    grows_enqueueMutation path mutation⟩

/-- An entry is made where there is none and takes the next revision. -/
theorem Advance.ensureRevise (indexed : Indexed registry) (covered : AllCovered registry)
    (path : Path) (generation : Option Generation) (mutation : GuestFileMutationKind)
    (contentIdentity : Option (BitVec 256)) :
    Advance registry ((registry.ensureEntry path).revise path generation mutation
      contentIdentity) :=
  ⟨(indexed.ensureEntry path).revise (mem_ensureEntry path) generation mutation contentIdentity,
    (covered.ensureEntry path).revise path generation mutation contentIdentity,
    grows_ensure_revise generation mutation contentIdentity⟩

/-- An entry that is left as it is was there before. -/
theorem Advance.ensureTracked (indexed : Indexed registry) (covered : AllCovered registry)
    (tracked : ((registry.ensureEntry path).snapshotOf path).revision ≠ 0) :
    Advance registry (registry.ensureEntry path) := by
  refine ⟨indexed.ensureEntry path, covered.ensureEntry path, ?_⟩
  have here : path ∈ registry.entries := by
    by_contra absent
    unfold GuestFileGenerationRegistry.ensureEntry snapshotOf at tracked
    rw [if_neg absent] at tracked
    dsimp only at tracked
    rw [AList.lookup_insert] at tracked
    exact tracked rfl
  unfold GuestFileGenerationRegistry.ensureEntry
  rw [if_pos here]
  exact grows_of_lookup rfl fun _ _ found => found

theorem Advance.record (indexed : Indexed registry) (covered : AllCovered registry)
    (generation : Option Generation) (mutation : GuestFileMutationKind) (forceRevision : Bool)
    (contentIdentity : Option (BitVec 256)) :
    Advance registry (registry.record path generation mutation forceRevision contentIdentity).2 := by
  unfold GuestFileGenerationRegistry.record
  dsimp only
  split
  · rename_i unchanged
    exact Advance.ensureTracked indexed covered unchanged.2.1
  · have revised := Advance.ensureRevise indexed covered path generation mutation contentIdentity
    have queued := Advance.enqueueMutation revised.indexed revised.covered path mutation
    have evicted := Advance.evictEntries queued.indexed queued.covered
    exact (revised.trans queued).trans evicted

theorem Advance.observeNormalized (indexed : Indexed registry) (covered : AllCovered registry)
    (generation : Generation) :
    Advance registry (registry.observeNormalized path generation).2 := by
  unfold GuestFileGenerationRegistry.observeNormalized
  dsimp only
  split
  · rename_i unchanged
    exact Advance.ensureTracked indexed covered unchanged.1
  · have revised := Advance.ensureRevise indexed covered path (some generation) .observation none
    exact revised.trans (Advance.evictEntries revised.indexed revised.covered)

/-- An alias of the vnode is in use and takes the next revision. -/
theorem Advance.touchMutate (indexed : Indexed registry) (covered : AllCovered registry)
    (here : path ∈ registry.entries) (generation : Generation) (mutation : GuestFileMutationKind)
    (contentIdentity : Option (BitVec 256)) :
    Advance registry ((registry.touchEntry path).mutate path generation mutation
      contentIdentity) := by
  have touched : Advance registry (registry.touchEntry path) :=
    ⟨indexed.touchEntry here, covered.congr rfl rfl rfl, grows_of_lookup rfl fun _ _ found => found⟩
  have revised : Advance (registry.touchEntry path)
      ((registry.touchEntry path).revise path (some generation) mutation contentIdentity) :=
    ⟨touched.indexed.revise here _ _ _, touched.covered.revise _ _ _ _, grows_revise _ _ _⟩
  exact (touched.trans revised).trans
    (Advance.enqueueMutation revised.indexed revised.covered path mutation)

theorem mem_mutate {other : Path} (here : other ∈ registry.entries) (generation : Generation)
    (mutation : GuestFileMutationKind) (contentIdentity : Option (BitVec 256)) :
    other ∈ ((registry.touchEntry path).mutate path generation mutation
      contentIdentity).entries := by
  unfold mutate
  rw [(enqueueMutation_index _ path mutation).1]
  exact (AList.mem_insert _).mpr (.inr here)

theorem Advance.recordDescriptor (indexed : Indexed registry) (covered : AllCovered registry)
    (generation : Generation) (mutation : GuestFileMutationKind)
    (contentIdentity : Option (BitVec 256)) (current : Option Generation) :
    Advance registry
      (registry.recordDescriptor path generation mutation contentIdentity current).2 := by
  unfold GuestFileGenerationRegistry.recordDescriptor
  split
  · exact Advance.refl indexed covered
  · dsimp only
    generalize listed : registry.vnodeAliases (generation.device, generation.inode) = aliases
    have tracked : ∀ entryPath ∈ aliases, entryPath ∈ registry.entries := by
      intro entryPath member
      rw [← listed, indexed.aliases] at member
      obtain ⟨snapshot, found, -⟩ := Option.bind_eq_some_iff.mp member
      rw [← AList.lookup_isSome, found]
      rfl
    generalize looped : List.foldl _ (registry, none) aliases = step
    -- every alias goes on being tracked while the earlier ones are revised
    have advance : Advance registry step.1 := by
      rw [← looped]
      refine (List.foldlRecOn (motive := fun step : GuestFileGenerationRegistry ×
          Option GuestFileGenerationSnapshot => Advance registry step.1 ∧
        ∀ entryPath ∈ aliases, entryPath ∈ step.1.entries) aliases _
        ⟨Advance.refl indexed covered, tracked⟩ ?_).1
      rintro ⟨after, result⟩ ⟨advance, kept⟩ entryPath member
      refine ⟨advance.trans (Advance.touchMutate advance.indexed advance.covered
        (kept entryPath member) generation mutation contentIdentity), fun other here => ?_⟩
      exact mem_mutate (kept other here) generation mutation contentIdentity
    split
    · exact advance.trans (Advance.evictEntries advance.indexed advance.covered)
    · have revised := Advance.ensureRevise advance.indexed advance.covered path (some generation)
        mutation contentIdentity
      have queued := Advance.enqueueMutation revised.indexed revised.covered path mutation
      have evicted := Advance.evictEntries queued.indexed queued.covered
      exact ((advance.trans revised).trans queued).trans evicted

end

theorem Advance.next {registry : GuestFileGenerationRegistry} (indexed : Indexed registry)
    (covered : AllCovered registry) (operation : Operation) :
    Advance registry (registry.next operation) := by
  cases operation with
  | record path generation mutation forceRevision contentIdentity =>
    exact Advance.record indexed covered generation mutation forceRevision contentIdentity
  | observeNormalized path generation =>
    exact Advance.observeNormalized indexed covered generation
  | recordDescriptor path generation mutation contentIdentity current =>
    exact Advance.recordDescriptor indexed covered generation mutation contentIdentity current
  | eraseSubtreeEntries path => exact Advance.eraseSubtreeEntries indexed covered path
  | takeMutations maximumEvents =>
    exact ⟨indexed.congr rfl rfl rfl rfl, covered.takeMutations maximumEvents,
      grows_of_lookup rfl fun _ _ found => found⟩

theorem Advance.run {registry : GuestFileGenerationRegistry} (indexed : Indexed registry)
    (covered : AllCovered registry) (operations : List Operation) :
    Advance registry (Foundation.run GuestFileGenerationRegistry.next registry operations) := by
  induction operations generalizing registry with
  | nil => exact Advance.refl indexed covered
  | cons operation rest ih =>
    have advance := Advance.next indexed covered operation
    exact advance.trans (ih advance.indexed advance.covered)

end ILEmu.Memory.GuestFileGenerationRegistry
