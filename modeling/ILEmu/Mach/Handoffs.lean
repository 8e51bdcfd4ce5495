import ILEmu.Mach.Receivers

/-! The loop that hands a message to a receiver: what it does to the receivers it refuses,
that it ends, and what the posts of messages leave as it was. -/
namespace ILEmu
open Foundation
namespace MachReceivers
variable {Content : Type} {state state' : MachReceivers Content} {longContext : Bool}
  {destination : PortObjectId} {message : MachMessage (MachPayload Content)}

/-- The state in which the first receiver of a message has been refused. -/
def refuse (state : MachReceivers Content) (ticket : MachReceiveTicket Content)
    (message : MachMessage (MachPayload Content)) (reason : MachReceiveState) :
    MachReceivers Content :=
  { state with waiters := state.waiters.complete (sized ticket message (some reason)) reason }

/-- The state in which the first receiver has got the message. -/
def accept (state : MachReceivers Content) (ticket : MachReceiveTicket Content)
    (destination : PortObjectId) (message : MachMessage (MachPayload Content)) :
    MachReceivers Content :=
  let ready :=
    { sized ticket message none with
      destination
      sequenceNumber := state.sequenceNumber destination
      message := some message }
  let selected := state.select destination ticket.receive.waitQueueSequence message.body
  { selected with waiters := selected.waiters.complete ready .messageReady }

/-- One receiver after the other is refused a message. -/
inductive Refuses (longContext : Bool) (destination : PortObjectId)
    (message : MachMessage (MachPayload Content)) :
    MachReceivers Content → MachReceivers Content → Prop where
  | refl (state : MachReceivers Content) : Refuses longContext destination message state state
  | next {state state' : MachReceivers Content} {ticket : MachReceiveTicket Content}
      {reason : MachReceiveState}
      (first : state.firstReceiver destination = some ticket)
      (refused : state.refusal longContext ticket message = some reason)
      (rest : Refuses longContext destination message (state.refuse ticket message reason) state') :
      Refuses longContext destination message state state'

theorem handoffLoop_spec {rounds : Nat} {handed : Bool}
    (looped : handoffLoop longContext destination message rounds state = some (state', handed)) :
    ∃ middle, Refuses longContext destination message state middle ∧
      (handed = false ∧ middle.firstReceiver destination = none ∧ state' = middle ∨
        handed = true ∧ ∃ ticket, middle.firstReceiver destination = some ticket ∧
          middle.refusal longContext ticket message = none ∧
          state' = middle.accept ticket destination message) := by
  induction rounds generalizing state with
  | zero => contradiction
  | succ rounds ih =>
    unfold handoffLoop at looped
    split at looped
    · rename_i none
      cases looped
      exact ⟨_, .refl _, .inl ⟨rfl, none, rfl⟩⟩
    · rename_i ticket first
      dsimp only at looped
      split at looped
      · rename_i reason refused
        rw [refused] at looped
        obtain ⟨middle, refuses, cases⟩ := ih looped
        exact ⟨middle, .next first refused refuses, cases⟩
      · rename_i accepted
        rw [accepted] at looped
        cases looped
        exact ⟨_, .refl _, .inr ⟨rfl, ticket, first, accepted, rfl⟩⟩

theorem refusal_ne_waiting {ticket : MachReceiveTicket Content} {reason : MachReceiveState}
    (refused : state.refusal longContext ticket message = some reason) :
    reason ≠ .waiting ∧ reason ≠ .messageReady := by
  unfold refusal at refused
  split at refused
  · cases refused
    exact ⟨nofun, nofun⟩
  · split at refused
    · cases refused
      exact ⟨nofun, nofun⟩
    · split at refused
      · cases refused
        exact ⟨nofun, nofun⟩
      · contradiction

theorem sized_receive (ticket : MachReceiveTicket Content) (refused : Option MachReceiveState) :
    (sized ticket message refused).receive = ticket.receive := by
  unfold sized
  split <;> rfl

/-- What the walk over the links finds is what it began with, or what the earliest link has. -/
theorem foldl_considerLink (links : List MachPortSetLink)
    (best : Option (MachReceiveTicket Content) × Nat) :
    let found := links.foldl state.considerLink best
    (found = best ∨ ∃ link ∈ links, found.1 = state.waiters.first link.setObject ∧
      found.1.isSome = true ∧ found.2 = link.waitQueueSequence ∧
      link.waitQueueSequence < best.2) ∧
    found.2 ≤ best.2 ∧
    ∀ link ∈ links, (state.waiters.first link.setObject).isSome = true →
      found.2 ≤ link.waitQueueSequence := by
  induction links generalizing best with
  | nil => exact ⟨.inl rfl, Nat.le_refl _, nofun⟩
  | cons link rest ih =>
    obtain ⟨origin, below, least⟩ := ih (state.considerLink best link)
    have one : state.considerLink best link = best ∧
          ((state.waiters.first link.setObject).isSome = true → best.2 ≤ link.waitQueueSequence) ∨
        (state.considerLink best link).1 = state.waiters.first link.setObject ∧
          (state.considerLink best link).1.isSome = true ∧
          (state.considerLink best link).2 = link.waitQueueSequence ∧
          link.waitQueueSequence < best.2 := by
      unfold considerLink
      split
      · rename_i late
        exact .inl ⟨rfl, fun _ => late⟩
      · rename_i early
        split
        · rename_i receiver here
          exact .inr ⟨here.symm, rfl, rfl, Nat.not_le.mp early⟩
        · rename_i none
          exact .inl ⟨rfl, fun some => absurd some (by simp [none])⟩
    rw [List.foldl_cons]
    rcases one with ⟨same, late⟩ | ⟨here, some, place, early⟩
    · rw [same] at origin below least ⊢
      refine ⟨origin.imp_right ?_, below, ?_⟩
      · rintro ⟨other, member, rest⟩
        exact ⟨other, List.mem_cons_of_mem _ member, rest⟩
      · intro other member some
        rcases List.mem_cons.mp member with rfl | later
        · exact below.trans (late some)
        · exact least other later some
    · rw [place] at below origin
      refine ⟨.inr ?_, below.trans early.le, ?_⟩
      · rcases origin with same | ⟨other, member, there, found, its, earlier⟩
        · exact ⟨link, List.mem_cons_self, by rw [same, here], by rw [same, some],
            by rw [same, place], early⟩
        · exact ⟨other, List.mem_cons_of_mem _ member, there, found, its, earlier.trans early⟩
      · intro other member some
        rcases List.mem_cons.mp member with rfl | later
        · exact below
        · exact least other later some

/-- A receiver that a message finds waits on its object, or on a set with a link from it. -/
theorem firstReceiver_first {ticket : MachReceiveTicket Content}
    (found : state.firstReceiver destination = some ticket) :
    ∃ object, state.waiters.first object = some ticket := by
  obtain ⟨origin, _⟩ := state.foldl_considerLink (state.ports.linksByMember.bucket destination)
    (state.waiters.first destination,
      (state.waiters.first destination).elim (2 ^ 64 - 1) (·.receive.waitQueueSequence))
  unfold firstReceiver at found
  dsimp only at found
  rcases origin with same | ⟨link, _, here, _⟩
  · rw [same] at found
    exact ⟨destination, found⟩
  · rw [here] at found
    exact ⟨link.setObject, found⟩

/-- Each refusal takes a receiver off the queue, so that the loop ends. -/
theorem handoffLoop_ends (indexed : state.waiters.Indexed) {rounds : Nat}
    (enough : state.waiters.waiting.total List.length < rounds) :
    ∃ result, handoffLoop longContext destination message rounds state = some result := by
  induction rounds generalizing state with
  | zero => contradiction
  | succ rounds ih =>
    unfold handoffLoop
    split
    · exact ⟨_, rfl⟩
    · rename_i ticket first
      dsimp only
      split
      · rename_i reason refused
        obtain ⟨object, here⟩ := firstReceiver_first first
        obtain ⟨found, waits, there, _⟩ := indexed.first_spec here
        have same : (sized ticket message (some reason)).receive = ticket.receive :=
      sized_receive ticket _
        have inside := (indexed.mem _ _).mpr ⟨ticket, found, waits, rfl⟩
        rw [refused]
        apply ih (indexed.complete found same (refusal_ne_waiting refused).1)
        have fewer := Table.total_prune_lt (· ≠ ticket.receive.waitQueueSequence) inside (by simp)
        unfold MachReceiveWaitQueue.complete MachReceiveWaitQueue.detach
        dsimp only
        rw [same]
        omega
      · exact ⟨_, rfl⟩

theorem handoff_ends (indexed : state.waiters.Indexed) :
    ∃ result, state.handoff longContext destination message = some result := by
  unfold handoff
  split
  · exact ⟨_, rfl⟩
  · exact handoffLoop_ends indexed (Nat.lt_succ_self _)

/-- What the posts of messages leave as it was. -/
structure Later (state state' : MachReceivers Content) : Prop where
  sets : state'.ports.sets = state.ports.sets
  links : state'.ports.linksByMember = state.ports.linksByMember
  next : state'.ports.nextWaitQueueSequence = state.ports.nextWaitQueueSequence
  owners : state'.setOwners = state.setOwners
  pending : state'.pending = state.pending
  now : state'.now = state.now
  objects : Table.Alike MachReceivePort.receiver state.objects state'.objects
  tickets : Table.Alike (fun ticket => (ticket.task, ticket.receive)) state.waiters.tickets
    state'.waiters.tickets
  indexed : state.waiters.Indexed → state'.waiters.Indexed

theorem Later.refl (state : MachReceivers Content) : Later state state :=
  ⟨rfl, rfl, rfl, rfl, rfl, rfl, .refl _ _, .refl _ _, id⟩

theorem Later.trans {last : MachReceivers Content} (first : Later state state')
    (second : Later state' last) : Later state last where
  sets := second.sets.trans first.sets
  links := second.links.trans first.links
  next := second.next.trans first.next
  owners := second.owners.trans first.owners
  pending := second.pending.trans first.pending
  now := second.now.trans first.now
  objects := first.objects.trans second.objects
  tickets := first.tickets.trans second.tickets
  indexed := fun indexed => second.indexed (first.indexed indexed)

/-- A waiting ticket is completed, and nothing else is touched. -/
theorem Later.complete (indexed : state.waiters.Indexed) {before after : MachReceiveTicket Content}
    {sequence : Nat} (here : state.waiters.find sequence = some before)
    (task : after.task = before.task) (receive : after.receive = before.receive)
    {reason : MachReceiveState} (done : reason ≠ .waiting) :
    Later state { state with waiters := state.waiters.complete after reason } where
  sets := rfl
  links := rfl
  next := rfl
  owners := rfl
  pending := rfl
  now := rfl
  objects := .refl _ _
  tickets := by
    have number := indexed.keyed sequence before here
    unfold MachReceiveWaitQueue.complete MachReceiveWaitQueue.detach
    dsimp only
    apply Table.Alike.replace (b := before)
    · rw [receive, number]
      exact here
    · exact Prod.ext task receive
  indexed := fun _ => indexed.complete here receive done

theorem Refuses.later (indexed : state.waiters.Indexed)
    (refuses : Refuses longContext destination message state state') : Later state state' := by
  induction refuses with
  | refl => exact .refl _
  | @next state _ ticket reason first refused _ ih =>
    obtain ⟨object, here⟩ := firstReceiver_first first
    obtain ⟨found, _⟩ := indexed.first_spec here
    have task : (sized ticket message (some reason)).task = ticket.task := by
      unfold sized
      split <;> rfl
    have one := Later.complete indexed found task (sized_receive ticket (some reason))
      (refusal_ne_waiting refused).1
    exact one.trans (ih (one.indexed indexed))

theorem later_select (state : MachReceivers Content) (object : PortObjectId) (receive : Nat)
    (payload : MachPayload Content) : Later state (state.select object receive payload) := by
  unfold select incrementSequenceNumber
  split
  · exact ⟨rfl, rfl, rfl, rfl, rfl, rfl, .refl _ _, .refl _ _, id⟩
  · rename_i port found
    exact ⟨rfl, rfl, rfl, rfl, rfl, rfl, .replace found rfl, .refl _ _, id⟩

theorem Later.accept (indexed : state.waiters.Indexed) {ticket : MachReceiveTicket Content}
    {object : PortObjectId} (first : state.waiters.first object = some ticket) :
    Later state (state.accept ticket destination message) := by
  have selected := later_select state destination ticket.receive.waitQueueSequence message.body
  have same : (state.select destination ticket.receive.waitQueueSequence message.body).waiters =
      state.waiters := by
    unfold select incrementSequenceNumber
    split <;> rfl
  obtain ⟨found, _⟩ := indexed.first_spec first
  apply selected.trans
  unfold MachReceivers.accept
  have still : (state.select destination ticket.receive.waitQueueSequence
      message.body).waiters.find ticket.receive.waitQueueSequence = some ticket := by
    rw [same]
    exact found
  apply Later.complete (selected.indexed indexed) still
  · rfl
  · rfl
  · exact nofun

/-- What the arrival of a message does. -/
inductive Arrival (longContext : Bool) (destination : PortObjectId)
    (message : MachMessage (MachPayload Content)) (state : MachReceivers Content) :
    MachReceivers Content × Bool → Prop where
  | passed {middle : MachReceivers Content}
      (refuses : Refuses longContext destination message
        (state.notePosted destination message.body) middle) :
      Arrival longContext destination message state (middle, false)
  | handed {middle : MachReceivers Content} {ticket : MachReceiveTicket Content}
      (empty : state.ports.queues.bucket destination = [])
      (refuses : Refuses longContext destination message
        (state.notePosted destination message.body) middle)
      (first : middle.firstReceiver destination = some ticket)
      (accepted : middle.refusal longContext ticket message = none) :
      Arrival longContext destination message state
        (middle.accept ticket destination message, true)

theorem arrive_spec (indexed : state.waiters.Indexed) :
    Arrival longContext destination message state
      (state.arrive longContext destination message) := by
  have indexed' : (state.notePosted destination message.body).waiters.Indexed := indexed
  obtain ⟨⟨last, handed⟩, ends⟩ :
      ∃ result, (state.notePosted destination message.body).handoff longContext destination message =
        some result := handoff_ends indexed'
  unfold arrive
  dsimp only
  rw [ends, Option.getD_some]
  unfold handoff at ends
  split at ends
  · cases ends
    exact .passed (.refl _)
  · rename_i idle
    rw [not_or, not_not] at idle
    obtain ⟨middle, refuses, ⟨rfl, _, rfl⟩ | ⟨rfl, ticket, first, accepted, rfl⟩⟩ :=
      handoffLoop_spec ends
    · exact .passed refuses
    · exact .handed idle.2 refuses first accepted

theorem later_notePosted (state : MachReceivers Content) (object : PortObjectId)
    (payload : MachPayload Content) : Later state (state.notePosted object payload) :=
  ⟨rfl, rfl, rfl, rfl, rfl, rfl, .refl _ _, .refl _ _, id⟩

theorem Arrival.later (indexed : state.waiters.Indexed) {result : MachReceivers Content × Bool}
    (arrival : Arrival longContext destination message state result) : Later state result.1 := by
  have noted := later_notePosted state destination message.body
  cases arrival with
  | passed refuses => exact noted.trans (refuses.later (noted.indexed indexed))
  | handed _ refuses first _ =>
    have middle := noted.trans (refuses.later (noted.indexed indexed))
    obtain ⟨object, here⟩ := firstReceiver_first first
    exact middle.trans (.accept (middle.indexed indexed) here)

/-- What every arrival keeps, queued or handed over, the posts of messages keep. -/
structure PostRule (longContext : Bool) (P : MachReceivers Content → Prop) : Prop where
  queued : ∀ {state middle : MachReceivers Content} {destination message}, P state →
    Arrival longContext destination message state (middle, false) →
    P { middle with ports := middle.ports.enqueue destination message }
  handed : ∀ {state after : MachReceivers Content} {destination message}, P state →
    Arrival longContext destination message state (after, true) → P after
  settled : ∀ {state : MachReceivers Content} destination, P state →
    P { state with ports := (state.ports.settle destination).touch destination }
  indexed : ∀ {state : MachReceivers Content}, P state → state.waiters.Indexed

mutual

theorem PostRule.post {P : MachReceivers Content → Prop} (rule : PostRule longContext P)
    {state : MachReceivers Content} (holds : P state) :
    ∀ send : MachSend Content, P (state.post longContext send)
  | .message destination message notifications => by
    have arrival : Arrival longContext destination message state
        (state.arrive longContext destination message) := arrive_spec (rule.indexed holds)
    unfold MachReceivers.post
    split
    · rename_i after arrived
      rw [arrived] at arrival
      apply rule.settled
      exact rule.posts (rule.handed holds arrival) notifications
    · rename_i middle arrived
      rw [arrived] at arrival
      exact rule.queued holds arrival

theorem PostRule.posts {P : MachReceivers Content → Prop} (rule : PostRule longContext P)
    {state : MachReceivers Content} (holds : P state) :
    ∀ sends : List (MachSend Content), P (state.posts longContext sends)
  | [] => holds
  | first :: rest => rule.posts (rule.post holds first) rest

end

theorem postRule_later (longContext : Bool) (indexed : state.waiters.Indexed) :
    PostRule longContext (Later state) where
  queued later arrival := by
    have next := later.trans (arrival.later (later.indexed indexed))
    exact ⟨next.sets, next.links, next.next, next.owners, next.pending, next.now, next.objects,
      next.tickets, next.indexed⟩
  handed later arrival := later.trans (arrival.later (later.indexed indexed))
  settled _ later := ⟨later.sets, later.links, later.next, later.owners, later.pending, later.now,
    later.objects, later.tickets, later.indexed⟩
  indexed later := later.indexed indexed

theorem later_posts (longContext : Bool) (indexed : state.waiters.Indexed)
    (sends : List (MachSend Content)) : Later state (state.posts longContext sends) :=
  (postRule_later longContext indexed).posts (.refl state) sends

end MachReceivers
end ILEmu
