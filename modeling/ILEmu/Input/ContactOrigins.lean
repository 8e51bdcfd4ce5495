import ILEmu.Input.HidEventQueue

/-! What receivers get of the events: all of them in order but for superseded positions, and the
origin of their own contact as long as contacts do not overlap. -/
namespace ILEmu.Input.HidEventQueue
open Foundation

/-- A property of queues that survives everything that is done to a single one. -/
structure Kept (property : Feed → Prop) (admitted : Entry → Prop) : Prop where
  empty : property {}
  append : ∀ feed entry, property feed → admitted entry → property (feed.append entry)
  take : ∀ feed event rest, property feed → feed.take = some (event, rest) → property rest

def State.All (property : Feed → Prop) (state : State) : Prop :=
  property state.feed ∧ ∀ existing ∈ state.observers, property existing.feed

instance (property : Feed → Prop) [DecidablePred property] (state : State) :
    Decidable (state.All property) :=
  inferInstanceAs (Decidable (_ ∧ _))

section
variable {property : Feed → Prop} {admitted : Entry → Prop}

theorem register_all (empty : property {}) (observer : Observer) {observers : List ObserverState}
    (all : ∀ existing ∈ observers, property existing.feed) :
    ∀ existing ∈ State.register observer observers, property existing.feed := by
  induction observers with
  | nil =>
    intro existing member
    obtain rfl := List.mem_singleton.mp member
    exact empty
  | cons first rest ih =>
    obtain ⟨here, others⟩ := List.forall_mem_cons.mp all
    unfold State.register
    split
    · refine List.forall_mem_cons.mpr ⟨?_, others⟩
      dsimp only
      split
      · exact empty
      · exact here
    · exact List.forall_mem_cons.mpr ⟨here, ih others⟩

theorem takeFrom_all (kept : Kept property admitted) (process : BitVec 32) (processor : Nat)
    {observers : List ObserverState} (all : ∀ existing ∈ observers, property existing.feed) :
    ∀ existing ∈ (State.takeFrom process processor observers).2, property existing.feed := by
  induction observers with
  | nil => exact all
  | cons first rest ih =>
    obtain ⟨here, others⟩ := List.forall_mem_cons.mp all
    unfold State.takeFrom
    dsimp only
    split
    · split
      · rename_i event feed taken
        exact List.forall_mem_cons.mpr ⟨kept.take _ _ _ here taken, others⟩
      · exact List.forall_mem_cons.mpr ⟨here, ih others⟩
    · exact List.forall_mem_cons.mpr ⟨here, ih others⟩

/-- Every queue of the state keeps the property, if what is enqueued is admitted. -/
theorem step_all (kept : Kept property admitted) {state : State} (all : state.All property)
    (action : Action)
    (admits : ∀ event, action = .enqueue event → state.accepts event = true →
      admitted (state.entryFor event)) : (step state action).All property := by
  obtain ⟨own, others⟩ := all
  cases action with
  | open_ consumer => exact ⟨kept.empty, others⟩
  | close process =>
    refine ⟨?_, fun existing member => others existing (List.mem_filter.mp member).1⟩
    change property (if state.consumes process then {} else state.feed)
    split
    · exact kept.empty
    · exact own
  | observe observer => exact ⟨own, register_all kept.empty observer others⟩
  | unobserve process client =>
    exact ⟨own, fun existing member => others existing (List.mem_filter.mp member).1⟩
  | enqueue event =>
    change (state.enqueue event).2.All property
    unfold State.enqueue
    dsimp only
    split
    · rename_i accepted
      have entry := admits event rfl accepted
      refine ⟨?_, fun existing member => ?_⟩
      · dsimp only
        split
        · exact kept.append _ _ own entry
        · exact own
      · obtain ⟨former, present, rfl⟩ := List.mem_map.mp member
        split
        · exact kept.append _ _ (others former present) entry
        · exact others former present
    · exact ⟨own, others⟩
  | take process processor =>
    change (state.take process processor).2.All property
    unfold State.take
    split
    · split
      · rename_i event feed taken
        exact ⟨kept.take _ _ _ own taken, others⟩
      · exact ⟨own, others⟩
    · exact ⟨own, others⟩
  | takeObserver process processor => exact ⟨own, takeFrom_all kept process processor others⟩

end

/-- What was taken and what is still queued is everything that was given, in order, but for
positions that the next one superseded. -/
def Feed.Ordered (feed : Feed) : Prop :=
  Condensed (fun last next => Event.supersedes last next = true) (feed.given.map (·.event))
    (feed.taken ++ feed.events)

theorem ordered_kept : Kept Feed.Ordered (fun _ => True) where
  empty := Condensed.nil
  append feed entry ordered _ := by
    unfold Feed.Ordered Feed.append at *
    rw [List.map_append, List.map_singleton]
    cases last : feed.events.getLast? with
    | none =>
      dsimp only
      rw [← List.append_assoc]
      exact ordered.keep entry.event
    | some event =>
      dsimp only
      split
      · rename_i newer
        obtain ⟨front, whole⟩ := List.getLast?_eq_some_iff.mp last
        rw [whole, List.dropLast_concat, ← List.append_assoc]
        rw [whole, ← List.append_assoc] at ordered
        exact ordered.supersede newer
      · rw [← List.append_assoc]
        exact ordered.keep entry.event
  take feed event rest ordered taken := by
    unfold Feed.take at taken
    split at taken
    · contradiction
    · rename_i first others events
      obtain ⟨rfl, rfl⟩ := Prod.mk.inj (Option.some.inj taken)
      unfold Feed.Ordered at *
      rw [events] at ordered
      rw [List.append_assoc]
      exact ordered

/-- An event of a contact in progress carries the latest `Down` of its own contact. -/
def Entry.Right (entry : Entry) : Prop :=
  entry.down.isSome → entry.event.contactOrigin = entry.down

instance (entry : Entry) : Decidable entry.Right := inferInstanceAs (Decidable (_ → _))

def Feed.Right (feed : Feed) : Prop := ∀ entry ∈ feed.given, entry.Right

instance : DecidablePred Feed.Right := fun _ => inferInstanceAs (Decidable (∀ _ ∈ _, _))

theorem right_kept : Kept Feed.Right Entry.Right where
  empty _ member := absurd member List.not_mem_nil
  append feed entry right admitted other member := by
    obtain before | last := List.mem_append.mp member
    · exact right other before
    · rw [List.mem_singleton.mp last]
      exact admitted
  take feed event rest right taken := by
    unfold Feed.take at taken
    split at taken
    · contradiction
    · obtain ⟨rfl, rfl⟩ := Prod.mk.inj (Option.some.inj taken)
      exact right

/-- A step leaves the contacts apart: `Down`, `Up` and `Cancel` come while no other contact is
in progress, no `Down` is refused, and the consumer comes and goes between contacts. -/
def Apart (state : State) : Action → Prop
  | .open_ _ => state.contacts = []
  | .close process => state.consumes process = true → state.contacts = []
  | .enqueue event =>
    (event.hasPhase .down = true → state.accepts event = true) ∧
      (event.isTouch = true → event.hasPhase .move = false → state.accepts event = true →
        ∀ contact ∈ state.contacts, contact.1 = event.identity)
  | _ => True

instance (state : State) : ∀ action, Decidable (Apart state action)
  | .open_ _ => inferInstanceAs (Decidable (_ = _))
  | .close _ => inferInstanceAs (Decidable (_ → _))
  | .enqueue event =>
    -- The list is searched, not the type of its contacts.
    have : Decidable (∀ contact ∈ state.contacts, contact.1 = event.identity) :=
      List.decidableBAll _ _
    inferInstanceAs (Decidable (_ ∧ _))
  | .observe _ | .unobserve _ _ | .take _ _ | .takeObserver _ _ =>
    inferInstanceAs (Decidable True)

/-- The one origin is that of every contact in progress. -/
def State.Held (state : State) : Prop :=
  ∀ contact ∈ state.contacts, state.contactOrigin = some contact.2

theorem lookup_mem {contacts : List (BitVec 32 × Position)} {identity : BitVec 32}
    {position : Position} (found : contacts.lookup identity = some position) :
    (identity, position) ∈ contacts := by
  induction contacts with
  | nil => contradiction
  | cons first rest ih =>
    obtain ⟨other, down⟩ := first
    rw [List.lookup_cons] at found
    split at found
    · rename_i same
      rw [beq_iff_eq.mp same, Option.some.inj found]
      exact List.mem_cons_self
    · exact List.mem_cons_of_mem _ (ih found)

theorem entryFor_right {state : State} (held : state.Held) (event : Event) :
    (state.entryFor event).Right := by
  unfold Entry.Right State.entryFor State.latestDown State.originFor Event.isTouch
  cases touch : event.touch? with
  | none => simp
  | some input =>
    obtain ⟨phase, position⟩ := input
    cases phase with
    | down => simp
    | move | up | cancel =>
      intro known
      simp only [reduceCtorEq, if_false, Option.isSome_some, if_true] at known ⊢
      obtain ⟨down, found⟩ := Option.isSome_iff_exists.mp known
      rw [found]
      exact held _ (lookup_mem found)

/-- Where a contact has begun or ended apart from the others, no other is in progress. -/
theorem others_nil {state : State} {event : Event}
    (alone : ∀ contact ∈ state.contacts, contact.1 = event.identity) :
    state.contacts.filter (·.1 ≠ event.identity) = [] := by
  rw [List.filter_eq_nil_iff]
  intro contact member
  simp [alone contact member]

theorem held_enqueue {state : State} (held : state.Held) {event : Event}
    (apart : Apart state (.enqueue event)) : (state.enqueue event).2.Held := by
  obtain ⟨received, alone⟩ := apart
  have touch_of : ∀ input, event.touch? = some input → event.isTouch = true := by
    intro input touch
    rw [Event.isTouch, touch]
    rfl
  unfold State.enqueue
  dsimp only
  split
  · rename_i accepted
    intro contact member
    change contact ∈ state.contactsAfter event at member
    change state.originAfter event = some contact.2
    unfold State.contactsAfter at member
    unfold State.originAfter
    cases touch : event.touch? with
    | none =>
      rw [touch] at member
      exact held contact member
    | some input =>
      obtain ⟨phase, position⟩ := input
      rw [touch] at member
      have phased : ∀ other, event.hasPhase other = decide (phase = other) := by
        intro other
        rw [Event.hasPhase, touch]
        rfl
      cases phase with
      | move => exact held contact member
      | down =>
        rw [others_nil (alone (touch_of _ touch) (phased .move) accepted)] at member
        obtain rfl := List.mem_singleton.mp member
        rfl
      | up | cancel =>
        rw [others_nil (alone (touch_of _ touch) (phased .move) accepted)] at member
        exact absurd member List.not_mem_nil
  · rename_i refused
    intro contact member
    change contact ∈ state.contactsAfter event at member
    refine held contact ?_
    unfold State.contactsAfter at member
    split at member
    · rename_i position touch
      have down : event.hasPhase .down = true := by
        rw [Event.hasPhase, touch]
        rfl
      exact absurd (received down) refused
    · exact (List.mem_filter.mp member).1
    · exact (List.mem_filter.mp member).1
    · exact member
    · exact member

theorem held_step {state : State} (held : state.Held) {action : Action}
    (apart : Apart state action) : (step state action).Held := by
  cases action with
  | open_ consumer =>
    intro contact member
    change contact ∈ state.contacts at member
    rw [show state.contacts = [] from apart] at member
    exact absurd member List.not_mem_nil
  | close process =>
    intro contact member
    change contact ∈ state.contacts at member
    change (if state.consumes process then none else state.contactOrigin) = some contact.2
    split
    · rename_i closes
      rw [apart closes] at member
      exact absurd member List.not_mem_nil
    · exact held contact member
  | observe | unobserve | takeObserver => exact held
  | enqueue event => exact held_enqueue held apart
  | take process processor =>
    change (state.take process processor).2.Held
    unfold State.take
    split
    · split <;> exact held
    · exact held

end ILEmu.Input.HidEventQueue
