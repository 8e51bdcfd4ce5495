import ILEmu.Memory.FileGenerations

/-! A mutation that was published is still in the queue, was drained, or is behind a marker that
asks for the whole tree to be read again. -/
namespace ILEmu.Memory.GuestFileGenerationRegistry

/-- The event tells of the mutation of the path, or of one that matters more. -/
def Tells (path : Path) (mutation : GuestFileMutationKind) (event : GuestFileMutationEvent) : Prop :=
  event.path = path ∧ mutationPriority mutation ≤ mutationPriority event.mutation

/-- A later event of the same path, with what the first one told. -/
def Upgrades (event later : GuestFileMutationEvent) : Prop :=
  Tells event.path event.mutation later ∧ later.dirtySubtree = event.dirtySubtree ∧
    later.sequence = event.sequence

theorem Upgrades.refl (event : GuestFileMutationEvent) : Upgrades event event :=
  ⟨⟨rfl, Nat.le_refl _⟩, rfl, rfl⟩

theorem Tells.upgrade {path : Path} {mutation : GuestFileMutationKind}
    {event later : GuestFileMutationEvent} (tells : Tells path mutation event)
    (upgrades : Upgrades event later) : Tells path mutation later :=
  ⟨upgrades.1.1.trans tells.1, tells.2.trans upgrades.1.2⟩

/-- A mutation and the sequence number at its publication, with what happened after it. -/
structure Covered (registry : GuestFileGenerationRegistry) (path : Path)
    (mutation : GuestFileMutationKind) (sequence : Nat) (later : List HistoryItem) : Prop where
  /-- The path has a pending event or was drained since, or a later event makes the tree dirty. -/
  cases : (∃ event ∈ registry.pendingMutations, Tells path mutation event) ∨
    (∃ event, .drained event ∈ later ∧ Tells path mutation event) ∨
    ∃ event, (event ∈ registry.pendingMutations ∨ .drained event ∈ later) ∧
      event.dirtySubtree = true ∧ sequence ≤ event.sequence

/-- Everything that was published is covered. -/
structure AllCovered (registry : GuestFileGenerationRegistry) : Prop where
  covered : ∀ earlier path mutation sequence later,
    registry.history = earlier ++ .published path mutation sequence :: later →
      Covered registry path mutation sequence later
  sequences : ∀ path mutation sequence, .published path mutation sequence ∈ registry.history →
    sequence ≤ registry.nextMutationSequence

theorem AllCovered.start : AllCovered {} where
  covered earlier path mutation sequence later same :=
    absurd (congrArg List.length same) (by simp)
  sequences := nofun

section
variable {registry : GuestFileGenerationRegistry} {path : Path} {mutation : GuestFileMutationKind}

/-! ### One publication -/

theorem coalesce_some {events after : List GuestFileMutationEvent}
    (found : coalesce path mutation events = some after) :
    (∀ event ∈ events, ∃ later ∈ after, Upgrades event later) ∧
      ∃ event ∈ after, Tells path mutation event := by
  induction events generalizing after with
  | nil => contradiction
  | cons event rest ih =>
    unfold coalesce at found
    split at found
    · rename_i same
      obtain rfl := Option.some.inj found
      have others : ∀ other ∈ rest, ∃ later ∈
          (if mutationPriority event.mutation < mutationPriority mutation then
            { event with mutation } else event) :: rest, Upgrades other later :=
        fun other member => ⟨other, List.mem_cons_of_mem _ member, Upgrades.refl other⟩
      refine ⟨List.forall_mem_cons.mpr ⟨?_, others⟩, ?_⟩
      · refine ⟨_, List.mem_cons_self, ?_⟩
        split
        · rename_i above
          exact ⟨⟨rfl, above.le⟩, rfl, rfl⟩
        · exact Upgrades.refl event
      · refine ⟨_, List.mem_cons_self, ?_⟩
        split
        · exact ⟨same, Nat.le_refl _⟩
        · rename_i below
          exact ⟨same, Nat.le_of_not_lt below⟩
    · obtain ⟨rest', inner, rfl⟩ := Option.map_eq_some_iff.mp found
      obtain ⟨kept, ⟨told, member, tells⟩⟩ := ih inner
      refine ⟨List.forall_mem_cons.mpr ⟨?_, ?_⟩, told, List.mem_cons_of_mem _ member, tells⟩
      · exact ⟨event, List.mem_cons_self, Upgrades.refl event⟩
      · intro other here
        obtain ⟨later, listed, upgrades⟩ := kept other here
        exact ⟨later, List.mem_cons_of_mem _ listed, upgrades⟩

/-- What a publication leaves in the queue. -/
structure Enqueued (registry : GuestFileGenerationRegistry) (path : Path)
    (mutation : GuestFileMutationKind) (after : GuestFileGenerationRegistry) : Prop where
  history : after.history =
    registry.history ++ [.published path mutation registry.nextMutationSequence]
  sequence : registry.nextMutationSequence ≤ after.nextMutationSequence
  /-- The events stay, or one marker stands for them and for the new one. -/
  events : ((∀ event ∈ registry.pendingMutations, ∃ later ∈ after.pendingMutations,
      Upgrades event later) ∧ ∃ event ∈ after.pendingMutations, Tells path mutation event) ∨
    ∃ marker ∈ after.pendingMutations, marker.dirtySubtree = true ∧
      marker.sequence = registry.nextMutationSequence

theorem enqueueMutation_enqueued (notable : mutation ≠ .observation) :
    Enqueued registry path mutation (registry.enqueueMutation path mutation) := by
  unfold enqueueMutation
  rw [if_neg notable]
  dsimp only
  split
  · rename_i reversed found
    obtain ⟨kept, ⟨told, member, tells⟩⟩ := coalesce_some found
    refine ⟨rfl, Nat.le_refl _, .inl ⟨fun event here => ?_, told, ?_, tells⟩⟩
    · obtain ⟨later, listed, upgrades⟩ := kept event (List.mem_reverse.mpr here)
      exact ⟨later, List.mem_reverse.mpr listed, upgrades⟩
    · exact List.mem_reverse.mpr member
  · split
    · exact ⟨rfl, Nat.le_succ _, .inr ⟨_, List.mem_singleton_self _, rfl, rfl⟩⟩
    · refine ⟨rfl, Nat.le_succ _, .inl ⟨fun event here => ?_, _, List.mem_append_right _
        (List.mem_singleton_self _), rfl, Nat.le_refl _⟩⟩
      exact ⟨event, List.mem_append_left _ here, Upgrades.refl event⟩

theorem mem_later_append {later more : List HistoryItem} {item : HistoryItem} (member : item ∈ later) :
    item ∈ later ++ more :=
  List.mem_append_left more member

/-- An old publication is covered after a new one. -/
theorem Covered.enqueue {after : GuestFileGenerationRegistry} {other : Path}
    {earlier : GuestFileMutationKind} {sequence : Nat} {later : List HistoryItem}
    (covered : Covered registry other earlier sequence later)
    (bound : sequence ≤ registry.nextMutationSequence)
    (enqueued : Enqueued registry path mutation after) (item : HistoryItem) :
    Covered after other earlier sequence (later ++ [item]) := by
  rcases enqueued.events with ⟨kept, -⟩ | ⟨marker, pending, dirty, number⟩
  · rcases covered.cases with ⟨event, here, tells⟩ | ⟨event, gone, tells⟩ |
      ⟨event, here | gone, dirty, above⟩
    · obtain ⟨event', listed, upgrades⟩ := kept event here
      exact ⟨.inl ⟨event', listed, tells.upgrade upgrades⟩⟩
    · exact ⟨.inr (.inl ⟨event, mem_later_append gone, tells⟩)⟩
    · obtain ⟨event', listed, -, same, number⟩ := kept event here
      exact ⟨.inr (.inr ⟨event', .inl listed, same.trans dirty, number ▸ above⟩)⟩
    · exact ⟨.inr (.inr ⟨event, .inr (mem_later_append gone), dirty, above⟩)⟩
  · exact ⟨.inr (.inr ⟨marker, .inl pending, dirty, number ▸ bound⟩)⟩

/-- A split of a history that has grown by one item is a split before it or at it. -/
theorem append_singleton_eq {history earlier later : List HistoryItem} {last item : HistoryItem}
    (same : history ++ [last] = earlier ++ item :: later) :
    (later = [] ∧ item = last ∧ earlier = history) ∨
      ∃ before, later = before ++ [last] ∧ history = earlier ++ item :: before := by
  rcases List.eq_nil_or_concat later with rfl | ⟨before, final, rfl⟩
  · obtain ⟨rfl, tail⟩ := List.append_inj' same rfl
    exact .inl ⟨rfl, (List.cons.inj tail).1.symm, rfl⟩
  · rw [List.concat_eq_append, ← List.cons_append, ← List.append_assoc] at same
    obtain ⟨rfl, tail⟩ := List.append_inj' same rfl
    obtain rfl := (List.cons.inj tail).1
    exact .inr ⟨before, List.concat_eq_append, rfl⟩

theorem AllCovered.enqueue (all : AllCovered registry) {after : GuestFileGenerationRegistry}
    (enqueued : Enqueued registry path mutation after) : AllCovered after where
  covered earlier other kind sequence later same := by
    rw [enqueued.history] at same
    rcases append_singleton_eq same with ⟨rfl, new, -⟩ | ⟨before, rfl, old⟩
    · obtain ⟨rfl, rfl, rfl⟩ := HistoryItem.published.inj new
      rcases enqueued.events with ⟨-, event, pending, tells⟩ | ⟨marker, pending, dirty, number⟩
      · exact ⟨.inl ⟨event, pending, tells⟩⟩
      · exact ⟨.inr (.inr ⟨marker, .inl pending, dirty, number.ge⟩)⟩
    · have bound := all.sequences other kind sequence (by
        rw [old]
        exact List.mem_append_right _ List.mem_cons_self)
      exact (all.covered earlier other kind sequence before old).enqueue bound enqueued _
  sequences other kind sequence member := by
    rw [enqueued.history] at member
    refine le_trans ?_ enqueued.sequence
    rcases List.mem_append.mp member with old | new
    · exact all.sequences other kind sequence old
    · obtain ⟨rfl, rfl, rfl⟩ := HistoryItem.published.inj (List.mem_singleton.mp new)
      exact Nat.le_refl _

theorem AllCovered.enqueueMutation (all : AllCovered registry) (path : Path)
    (mutation : GuestFileMutationKind) : AllCovered (registry.enqueueMutation path mutation) := by
  by_cases observed : mutation = .observation
  · unfold GuestFileGenerationRegistry.enqueueMutation
    rw [if_pos observed]
    exact all
  · exact all.enqueue (enqueueMutation_enqueued observed)

/-! ### Draining -/

/-- Only drained events follow what is published before them. -/
theorem append_drained_eq {history earlier later : List HistoryItem}
    {events : List GuestFileMutationEvent} {sequence : Nat}
    (same : history ++ events.map .drained = earlier ++ .published path mutation sequence :: later) :
    ∃ before, later = before ++ events.map .drained ∧
      history = earlier ++ .published path mutation sequence :: before := by
  induction events using List.reverseRecOn generalizing later with
  | nil =>
    rw [List.map_nil, List.append_nil] at same
    exact ⟨later, (List.append_nil _).symm, same⟩
  | append_singleton events event ih =>
    rw [List.map_append, List.map_singleton, ← List.append_assoc] at same
    rcases append_singleton_eq same with ⟨-, impossible, -⟩ | ⟨before, rfl, shorter⟩
    · contradiction
    · obtain ⟨middle, rfl, old⟩ := ih shorter
      refine ⟨middle, ?_, old⟩
      rw [List.map_append, List.map_singleton, List.append_assoc]

theorem AllCovered.takeMutations (all : AllCovered registry) (maximumEvents : Nat) :
    AllCovered (registry.takeMutations maximumEvents).2 where
  covered earlier other kind sequence later same := by
    obtain ⟨before, rfl, old⟩ := append_drained_eq same
    have divided : ∀ event ∈ registry.pendingMutations,
        .drained event ∈ before ++
          (registry.pendingMutations.take maximumEvents).map HistoryItem.drained ∨
        event ∈ registry.pendingMutations.drop maximumEvents := by
      intro event here
      rw [← List.take_append_drop maximumEvents registry.pendingMutations] at here
      rcases List.mem_append.mp here with taken | left
      · exact .inl (List.mem_append_right _ (List.mem_map_of_mem taken))
      · exact .inr left
    rcases (all.covered earlier other kind sequence before old).cases with
      ⟨event, here, tells⟩ | ⟨event, gone, tells⟩ | ⟨event, here | gone, dirty, above⟩
    · rcases divided event here with taken | left
      · exact ⟨.inr (.inl ⟨event, taken, tells⟩)⟩
      · exact ⟨.inl ⟨event, left, tells⟩⟩
    · exact ⟨.inr (.inl ⟨event, mem_later_append gone, tells⟩)⟩
    · rcases divided event here with taken | left
      · exact ⟨.inr (.inr ⟨event, .inr taken, dirty, above⟩)⟩
      · exact ⟨.inr (.inr ⟨event, .inl left, dirty, above⟩)⟩
    · exact ⟨.inr (.inr ⟨event, .inr (mem_later_append gone), dirty, above⟩)⟩
  sequences other kind sequence member := by
    rcases List.mem_append.mp member with old | drained
    · exact all.sequences other kind sequence old
    · obtain ⟨event, -, same⟩ := List.mem_map.mp drained
      contradiction

/-- What leaves the queue alone leaves it covered. -/
theorem AllCovered.congr (all : AllCovered registry) {after : GuestFileGenerationRegistry}
    (pending : after.pendingMutations = registry.pendingMutations)
    (history : after.history = registry.history)
    (sequence : after.nextMutationSequence = registry.nextMutationSequence) : AllCovered after where
  covered earlier other kind number later same := by
    rw [history] at same
    have covered := (all.covered earlier other kind number later same).cases
    rw [← pending] at covered
    exact ⟨covered⟩
  sequences := by
    rw [history, sequence]
    exact all.sequences

end
end ILEmu.Memory.GuestFileGenerationRegistry
