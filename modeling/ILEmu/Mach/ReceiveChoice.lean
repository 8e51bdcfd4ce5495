import ILEmu.Mach.Handoffs
import ILEmu.Mach.Preposts

/-! Which receiver a message goes to: the first of those that wait, in the order of their
places in the queue of the port and then of their own. -/
namespace ILEmu
open Foundation
namespace MachReceivers
variable {Content : Type} {state state' : MachReceivers Content} {longContext : Bool}
  {destination port : PortObjectId} {message : MachMessage (MachPayload Content)}
  {ticket other : MachReceiveTicket Content} {key key' : ℕ ×ₗ ℕ} {task : Nat}

/-- A ticket waits where a message to an object looks for receivers; its key is its place in
the queue of the object and its own number. -/
inductive Attached (state : MachReceivers Content) (destination : PortObjectId) :
    ℕ ×ₗ ℕ → MachReceiveTicket Content → Prop where
  | direct {ticket : MachReceiveTicket Content}
      (found : state.waiters.find ticket.receive.waitQueueSequence = some ticket)
      (waits : ticket.state = .waiting) (here : ticket.receive.receiveObject = destination) :
      Attached state destination
        (toLex (ticket.receive.waitQueueSequence, ticket.receive.waitQueueSequence)) ticket
  | linked {ticket : MachReceiveTicket Content} {link : MachPortSetLink}
      (found : state.waiters.find ticket.receive.waitQueueSequence = some ticket)
      (waits : ticket.state = .waiting)
      (member : link ∈ state.ports.linksByMember.bucket destination)
      (here : ticket.receive.receiveObject = link.setObject) :
      Attached state destination
        (toLex (link.waitQueueSequence, ticket.receive.waitQueueSequence)) ticket

theorem Attached.found (attached : state.Attached destination key ticket) :
    state.waiters.find ticket.receive.waitQueueSequence = some ticket ∧ ticket.state = .waiting ∧
      (ofLex key).2 = ticket.receive.waitQueueSequence := by
  cases attached with
  | direct found waits _ => exact ⟨found, waits, rfl⟩
  | linked found waits _ _ => exact ⟨found, waits, rfl⟩

/-- The numbers of the links and of the waits are given out once. -/
structure Ordered (state : MachReceivers Content) : Prop where
  positive : 0 < state.ports.nextWaitQueueSequence
  bound : state.ports.nextWaitQueueSequence ≤ 2 ^ 64 - 1
  links : ∀ member, ∀ link ∈ state.ports.linksByMember.bucket member,
    link.waitQueueSequence < state.ports.nextWaitQueueSequence
  tickets : ∀ sequence, (state.waiters.find sequence).isSome = true →
    sequence < state.ports.nextWaitQueueSequence
  apart : ∀ member,
    ((state.ports.linksByMember.bucket member).map (·.waitQueueSequence)).Nodup
  unmixed : ∀ member, ∀ link ∈ state.ports.linksByMember.bucket member,
    state.waiters.find link.waitQueueSequence = none

theorem firstReceiver_none (indexed : state.waiters.Indexed) (ordered : state.Ordered)
    (none : state.firstReceiver destination = none) :
    ¬ state.Attached destination key ticket := by
  obtain ⟨origin, _, least⟩ := state.foldl_considerLink
    (state.ports.linksByMember.bucket destination) (state.waiters.first destination,
      (state.waiters.first destination).elim (2 ^ 64 - 1) (·.receive.waitQueueSequence))
  unfold firstReceiver at none
  dsimp only at none
  rcases origin with same | ⟨link, _, _, some, _⟩
  · rw [same] at none least
    dsimp only at none least
    rw [none] at least
    intro attached
    cases attached with
    | direct found waits here => exact indexed.first_none none found waits here
    | @linked _ link found waits member here =>
      cases first : state.waiters.first link.setObject with
      | none => exact indexed.first_none first found waits here
      | some receiver =>
        have late := least link member (by simp [first])
        have early := ordered.links destination link member
        have bound := ordered.bound
        simp only [Option.elim_none] at late
        omega
  · rw [none] at some
    contradiction

/-- The receiver that a message finds first has the least key. -/
theorem firstReceiver_least (indexed : state.waiters.Indexed) (ordered : state.Ordered)
    (found : state.firstReceiver destination = some ticket) :
    ∃ key, state.Attached destination key ticket ∧
      ∀ key' other, state.Attached destination key' other → key ≤ key' := by
  obtain ⟨origin, _, least⟩ := state.foldl_considerLink
    (state.ports.linksByMember.bucket destination) (state.waiters.first destination,
      (state.waiters.first destination).elim (2 ^ 64 - 1) (·.receive.waitQueueSequence))
  unfold firstReceiver at found
  dsimp only at found
  rcases origin with same | ⟨link, member, here, _, place, early⟩
  · rw [same] at found least
    dsimp only at found least
    obtain ⟨its, waits, there, first⟩ := indexed.first_spec found
    rw [found, Option.elim_some] at least
    refine ⟨_, .direct its waits there, ?_⟩
    intro key' other attached
    rw [Prod.Lex.le_iff]
    cases attached with
    | direct found' waits' here' =>
      have before := first _ other found' waits' here'
      rcases before.lt_or_eq with less | equal
      · exact .inl less
      · exact .inr ⟨equal, equal.le⟩
    | @linked _ link found' waits' member here' =>
      have some : (state.waiters.first link.setObject).isSome = true := by
        cases nobody : state.waiters.first link.setObject with
        | none => exact absurd here' (indexed.first_none nobody found' waits')
        | some => rfl
      have before := least link member some
      have different : ticket.receive.waitQueueSequence ≠ link.waitQueueSequence := by
        intro equal
        have absent := ordered.unmixed destination link member
        rw [← equal, its] at absent
        contradiction
      exact .inl (lt_of_le_of_ne before different)
  · rw [found] at here
    obtain ⟨its, waits, there, first⟩ := indexed.first_spec here.symm
    rw [place] at least
    refine ⟨_, .linked its waits member there, ?_⟩
    intro key' other attached
    rw [Prod.Lex.le_iff]
    cases attached with
    | direct found' waits' here' =>
      left
      cases nobody : state.waiters.first destination with
      | none => exact absurd here' (indexed.first_none nobody found' waits')
      | some head =>
        obtain ⟨_, _, _, least'⟩ := indexed.first_spec nobody
        rw [nobody] at early
        exact lt_of_lt_of_le early (least' _ other found' waits' here')
    | @linked _ link' found' waits' member' here' =>
      have some : (state.waiters.first link'.setObject).isSome = true := by
        cases nobody : state.waiters.first link'.setObject with
        | none => exact absurd here' (indexed.first_none nobody found' waits')
        | some => rfl
      rcases (least link' member' some).lt_or_eq with less | equal
      · exact .inl less
      · obtain rfl := List.inj_on_of_nodup_map (ordered.apart destination) member member' equal
        exact .inr ⟨rfl, first _ other found' waits' here'⟩

theorem Later.ordered (later : Later state state') (ordered : state.Ordered) : state'.Ordered := by
  have tickets : ∀ sequence, (state'.waiters.find sequence).isSome =
      (state.waiters.find sequence).isSome := later.tickets.isSome
  constructor
  · rw [later.next]
    exact ordered.positive
  · rw [later.next]
    exact ordered.bound
  · rw [later.links, later.next]
    exact ordered.links
  · intro sequence some
    rw [later.next]
    exact ordered.tickets sequence ((tickets sequence) ▸ some)
  · rw [later.links]
    exact ordered.apart
  · intro member link inside
    rw [later.links] at inside
    have absent := ordered.unmixed member link inside
    have same := tickets link.waitQueueSequence
    rw [absent] at same
    exact Option.isNone_iff_eq_none.mp (by simpa using same)

/-- A refused receiver waits no more, and the others wait as before. -/
theorem attached_refuse {reason : MachReceiveState}
    (refused : state.refusal longContext ticket message = some reason) :
    (state.refuse ticket message reason).Attached destination key other ↔
      state.Attached destination key other ∧
        other.receive.waitQueueSequence ≠ ticket.receive.waitQueueSequence := by
  obtain ⟨done, _⟩ := refusal_ne_waiting refused
  have same : (sized ticket message (some reason)).receive = ticket.receive :=
    sized_receive ticket _
  have finds : ∀ sequence, (state.refuse ticket message reason).waiters.find sequence =
      if sequence = ticket.receive.waitQueueSequence then
        some { sized ticket message (some reason) with state := reason }
      else state.waiters.find sequence :=
    MachReceiveWaitQueue.find_complete (congrArg _ same) reason
  have waiting : ∀ now : MachReceiveTicket Content, now.state = .waiting →
      ((state.refuse ticket message reason).waiters.find now.receive.waitQueueSequence = some now ↔
        state.waiters.find now.receive.waitQueueSequence = some now ∧
          now.receive.waitQueueSequence ≠ ticket.receive.waitQueueSequence) := by
    intro now waits
    rw [finds]
    split
    · rename_i equal
      apply iff_of_false
      · intro is
        have state := congrArg MachReceiveTicket.state (Option.some.inj is)
        exact done (state.trans waits)
      · exact fun both => both.2 equal
    · rename_i different
      exact (and_iff_left different).symm
  constructor
  · intro attached
    cases attached with
    | direct found waits here =>
      obtain ⟨found', different⟩ := (waiting _ waits).mp found
      exact ⟨.direct found' waits here, different⟩
    | linked found waits member here =>
      obtain ⟨found', different⟩ := (waiting _ waits).mp found
      exact ⟨.linked found' waits member here, different⟩
  · rintro ⟨attached, different⟩
    cases attached with
    | direct found waits here => exact .direct ((waiting _ waits).mpr ⟨found, different⟩) waits here
    | linked found waits member here =>
      exact .linked ((waiting _ waits).mpr ⟨found, different⟩) waits member here

/-- Refusals do not change who could get the message. -/
theorem Refuses.candidates (indexed : state.waiters.Indexed)
    (refuses : Refuses longContext destination message state state') :
    (∀ ticket, state'.refusal longContext ticket message =
      state.refusal longContext ticket message) ∧
    ∀ key ticket, state.refusal longContext ticket message = none →
      (state'.Attached destination key ticket ↔ state.Attached destination key ticket) := by
  induction refuses with
  | refl => exact ⟨fun _ => rfl, fun _ _ _ => Iff.rfl⟩
  | @next state _ refusedTicket reason first refused _ ih =>
    obtain ⟨object, here⟩ := firstReceiver_first first
    obtain ⟨found, _⟩ := indexed.first_spec here
    have same : (sized refusedTicket message (some reason)).receive = refusedTicket.receive :=
      sized_receive refusedTicket _
    obtain ⟨refusals, attached⟩ := ih (indexed.complete found same (refusal_ne_waiting refused).1)
    refine ⟨refusals, fun key ticket accepted => ?_⟩
    rw [attached key ticket accepted, attached_refuse refused]
    refine and_iff_left_of_imp fun before equal => ?_
    have its := before.found.1
    rw [equal, found] at its
    cases its
    rw [refused] at accepted
    contradiction

theorem refuses_numbers (refuses : Refuses longContext destination message state state') :
    state'.sequenceNumber = state.sequenceNumber := by
  induction refuses with
  | refl => rfl
  | next _ _ _ ih => exact ih

/-- The outcome of a handoff: a receiver that may have the message gets it, the one with the
least key, or there is none. -/
inductive Choice (longContext : Bool) (state : MachReceivers Content) (destination : PortObjectId)
    (message : MachMessage (MachPayload Content)) : MachReceivers Content × Bool → Prop where
  | nobody {after : MachReceivers Content}
      (none : ∀ key ticket, state.Attached destination key ticket →
        state.refusal longContext ticket message ≠ none) :
      Choice longContext state destination message (after, false)
  | chosen {after : MachReceivers Content} {key : ℕ ×ₗ ℕ} {ticket : MachReceiveTicket Content}
      (attached : state.Attached destination key ticket)
      (accepted : state.refusal longContext ticket message = none)
      (least : ∀ key' other, state.Attached destination key' other →
        state.refusal longContext other message = none → key ≤ key')
      (given : after.waiters.find ticket.receive.waitQueueSequence = some
        { ticket with
          state := .messageReady
          messageSize := message.body.byteSize % 2 ^ 32
          destination
          sequenceNumber := state.sequenceNumber destination
          message := some message }) :
      Choice longContext state destination message (after, true)

theorem handoff_choice (indexed : state.waiters.Indexed) (ordered : state.Ordered)
    (idle : state.ports.queues.bucket destination = []) {result : MachReceivers Content × Bool}
    (ends : state.handoff longContext destination message = some result) :
    Choice longContext state destination message result := by
  unfold handoff at ends
  split at ends
  · rename_i stops
    cases ends
    have empty := stops.resolve_right fun busy => busy idle
    apply Choice.nobody
    intro key ticket attached _
    have inside := (indexed.mem _ _).mpr
      ⟨ticket, attached.found.1, attached.found.2.1, rfl⟩
    have missing : state.waiters.waiting.lookup ticket.receive.receiveObject = none := by
      unfold AList.lookup
      rw [empty]
      rfl
    rw [Table.bucket_of_missing missing] at inside
    contradiction
  · obtain ⟨last, handed⟩ := result
    obtain ⟨middle, refuses, ⟨rfl, none, rfl⟩ | ⟨rfl, ticket, first, accepted, rfl⟩⟩ :=
      handoffLoop_spec ends
    · obtain ⟨_, attached⟩ := refuses.candidates indexed
      have later := refuses.later indexed
      apply Choice.nobody
      intro key ticket here accepted
      exact firstReceiver_none (later.indexed indexed) (later.ordered ordered) none
        ((attached key ticket accepted).mpr here)
    · obtain ⟨refusals, candidates⟩ := refuses.candidates indexed
      have later := refuses.later indexed
      obtain ⟨key, here, least⟩ := firstReceiver_least (later.indexed indexed)
        (later.ordered ordered) first
      rw [refusals] at accepted
      apply Choice.chosen ((candidates key ticket accepted).mp here) accepted
      · intro key' other there accepted'
        exact least key' other ((candidates key' other accepted').mpr there)
      · unfold accept
        dsimp only
        rw [MachReceiveWaitQueue.find_complete rfl, refuses_numbers refuses]
        exact if_pos rfl

/-- Members of a set belong to the owner of the set, and no object is a port and a set. -/
structure Owned (loose : PortObjectId → Prop) (state : MachReceivers Content) : Prop where
  consistent : state.ports.Consistent loose
  owned : ∀ set member, member ∈ state.ports.sets.bucket set →
    ∃ port owner, state.objects.lookup member = some port ∧ port.receiver = some owner ∧
      state.setOwners.lookup set = some owner
  disjoint : ∀ object, (state.objects.lookup object).isSome = true →
    state.ports.sets.lookup object = none

/-- The pending receives are those of the tickets. -/
structure Paired (state : MachReceivers Content) : Prop where
  ticketed : ∀ task processor receive, state.pending.lookup (task, processor) = some receive →
    receive.processor = processor ∧
      ∃ ticket, state.waiters.find receive.waitQueueSequence = some ticket ∧
        ticket.task = task ∧ ticket.receive = receive
  pending : ∀ sequence ticket, state.waiters.find sequence = some ticket →
    state.pending.lookup (ticket.task, ticket.receive.processor) = some ticket.receive

theorem mem_pendingOf {receive : PendingMachReceive} :
    receive ∈ state.pendingOf task ↔
      ∃ processor, state.pending.lookup (task, processor) = some receive := by
  unfold pendingOf
  rw [List.mem_insertionSort]
  simp only [List.mem_map, List.mem_filter, decide_eq_true_eq]
  constructor
  · rintro ⟨⟨⟨owner, processor⟩, stored⟩, ⟨member, rfl⟩, rfl⟩
    exact ⟨processor, List.mem_dlookup state.pending.nodupKeys member⟩
  · rintro ⟨processor, found⟩
    exact ⟨⟨(task, processor), receive⟩, ⟨List.of_mem_dlookup found, rfl⟩, rfl⟩

/-- The usable pending receives of a task are those of its waiting tickets. -/
theorem mem_usable (paired : state.Paired) {receive : PendingMachReceive} :
    receive ∈ state.usableOf task ↔
      ∃ ticket, state.waiters.find receive.waitQueueSequence = some ticket ∧
        ticket.state = .waiting ∧ ticket.task = task ∧ ticket.receive = receive ∧
        state.usable task receive = true := by
  unfold usableOf
  rw [List.mem_filter, mem_pendingOf, Bool.and_eq_true]
  unfold eligible
  constructor
  · rintro ⟨⟨processor, found⟩, waits, good⟩
    obtain ⟨_, ticket, here, owner, its⟩ := paired.ticketed task processor receive found
    rw [here] at waits
    exact ⟨ticket, here, of_decide_eq_true waits, owner, its, good⟩
  · rintro ⟨ticket, here, waits, rfl, rfl, good⟩
    refine ⟨⟨_, paired.pending _ ticket here⟩, ?_, good⟩
    rw [here]
    exact decide_eq_true waits

/-- A usable receiver of a port is one of the task that owns it. -/
theorem Attached.owner (owned : state.Owned loose)
    {port' : MachReceivePort} (found : state.objects.lookup port = some port')
    (receiver : port'.receiver = some task) (attached : state.Attached port key ticket)
    (good : state.usable ticket.task ticket.receive = true) :
    ticket.task = task ∧ (ticket.receive.receiveIsPortSet = false ∧
        ticket.receive.receiveObject = port ∧
        key = toLex (ticket.receive.waitQueueSequence, ticket.receive.waitQueueSequence) ∨
      ticket.receive.receiveIsPortSet = true ∧ ∃ link ∈ state.ports.linksByMember.bucket port,
        ticket.receive.receiveObject = link.setObject ∧
        key = toLex (link.waitQueueSequence, ticket.receive.waitQueueSequence)) := by
  unfold usable at good
  cases attached with
  | direct its waits here =>
    cases kind : ticket.receive.receiveIsPortSet with
    | false =>
      rw [kind, here, found] at good
      simp only [Bool.false_eq_true, if_false, Option.any_some, receiver, decide_eq_true_eq,
        Option.some.injEq] at good
      exact ⟨good.symm, .inl ⟨rfl, here, rfl⟩⟩
    | true =>
      rw [kind, here, owned.disjoint port (by simp [found])] at good
      simp at good
  | @linked _ link its waits member here =>
    have joined : port ∈ state.ports.sets.bucket link.setObject :=
      (owned.consistent.agree.linked _ _).mp (List.mem_map_of_mem member)
    obtain ⟨port'', owner, found', receiver', owns⟩ := owned.owned _ _ joined
    cases found.symm.trans found'
    cases receiver.symm.trans receiver'
    have set : (state.ports.sets.lookup link.setObject).isSome = true := by
      cases missing : state.ports.sets.lookup link.setObject with
      | none =>
        rw [Table.bucket_of_missing missing] at joined
        contradiction
      | some => rfl
    cases kind : ticket.receive.receiveIsPortSet with
    | true =>
      rw [kind, here, owns] at good
      simp only [if_true, set, Bool.true_and, decide_eq_true_eq, Option.some.injEq] at good
      exact ⟨good.symm, .inr ⟨rfl, link, member, here, rfl⟩⟩
    | false =>
      rw [kind, here] at good
      cases object : state.objects.lookup link.setObject with
      | none =>
        rw [object] at good
        simp at good
      | some =>
        rw [owned.disjoint _ (by simp [object])] at set
        contradiction

/-- A waiting receiver of a port that its task may still use. -/
structure Usable (state : MachReceivers Content) (port : PortObjectId) (key : ℕ ×ₗ ℕ)
    (ticket : MachReceiveTicket Content) : Prop where
  attached : state.Attached port key ticket
  good : state.usable ticket.task ticket.receive = true

/-- A receiver is the candidate with its key. -/
theorem Usable.of_direct (paired : state.Paired) {candidate : Candidate}
    (member : candidate ∈ state.directCandidates task port) :
    ∃ ticket, state.Usable port candidate.key ticket ∧ ticket.task = task ∧
      ticket.receive.processor = candidate.processor := by
  obtain ⟨receive, chosen, rfl⟩ := List.mem_map.mp member
  obtain ⟨usable, kind⟩ := List.mem_filter.mp chosen
  obtain ⟨ticket, found, waits, rfl, rfl, good⟩ := (mem_usable paired).mp usable
  rw [Bool.and_eq_true, decide_eq_true_eq] at kind
  exact ⟨ticket, ⟨.direct found waits kind.2, good⟩, rfl, rfl⟩

theorem Usable.of_link (paired : state.Paired) {candidate : Candidate} {link : MachPortSetLink}
    (joined : link ∈ state.ports.linksByMember.bucket port)
    (chosen : state.linkCandidate task link = some candidate) :
    ∃ ticket, state.Usable port candidate.key ticket ∧ ticket.task = task ∧
      ticket.receive.processor = candidate.processor := by
  obtain ⟨receive, picked, rfl⟩ := List.mem_map.mp (List.argmin_mem chosen)
  obtain ⟨usable, kind⟩ := List.mem_filter.mp picked
  obtain ⟨ticket, found, waits, rfl, rfl, good⟩ := (mem_usable paired).mp usable
  rw [Bool.and_eq_true, decide_eq_true_eq] at kind
  exact ⟨ticket, ⟨.linked found waits joined kind.2, good⟩, rfl, rfl⟩

/-- A candidate comes no later than a given receiver of the port. -/
theorem Usable.candidate (owned : state.Owned loose) (paired : state.Paired)
    {port' : MachReceivePort} (found : state.objects.lookup port = some port')
    (receiver : port'.receiver = some task) (usable : state.Usable port key ticket) :
    ∃ candidate ∈ state.directCandidates task port ++
        (state.ports.linksByMember.bucket port).filterMap (state.linkCandidate task),
      candidate.key ≤ key := by
  obtain ⟨its, waits, _⟩ := usable.attached.found
  obtain ⟨rfl, place⟩ := usable.attached.owner owned found receiver usable.good
  have member : ticket.receive ∈ state.usableOf ticket.task :=
    (mem_usable paired).mpr ⟨ticket, its, waits, rfl, rfl, usable.good⟩
  rcases place with ⟨kind, here, rfl⟩ | ⟨kind, link, joined, here, rfl⟩
  · refine ⟨_, List.mem_append_left _ (List.mem_map_of_mem ?_), le_refl _⟩
    exact List.mem_filter.mpr ⟨member, by simp [kind, here]⟩
  · have inside : ticket.receive ∈ (state.usableOf ticket.task).filter fun receive =>
        receive.receiveIsPortSet && receive.receiveObject = link.setObject :=
      List.mem_filter.mpr ⟨member, by simp [kind, here]⟩
    cases chosen : state.linkCandidate ticket.task link with
    | none =>
      have empty := List.map_eq_nil_iff.mp (List.argmin_eq_none.mp chosen)
      rw [empty] at inside
      contradiction
    | some candidate =>
      refine ⟨candidate, List.mem_append_right _ (List.mem_filterMap.mpr ⟨link, joined, chosen⟩), ?_⟩
      have first := List.le_of_mem_argmin (List.mem_map_of_mem inside) chosen
      obtain ⟨receive, _, rfl⟩ := List.mem_map.mp (List.argmin_mem chosen)
      exact Prod.Lex.le_iff.mpr (.inr ⟨rfl, first⟩)

/-- The preferred receiver of a port is the usable one with the least key. -/
theorem preferred_least (owned : state.Owned loose) (paired : state.Paired)
    {port' : MachReceivePort} (found : state.objects.lookup port = some port')
    (receiver : port'.receiver = some task) {processor : Nat}
    (preferred : state.preferred task port = some processor) :
    ∃ key ticket, state.Usable port key ticket ∧ ticket.task = task ∧
      ticket.receive.processor = processor ∧
      ∀ key' other, state.Usable port key' other → key ≤ key' := by
  obtain ⟨candidate, chosen, rfl⟩ := Option.map_eq_some_iff.mp preferred
  have is : ∃ ticket, state.Usable port candidate.key ticket ∧ ticket.task = task ∧
      ticket.receive.processor = candidate.processor := by
    rcases List.mem_append.mp (List.argmin_mem chosen) with direct | linked
    · exact Usable.of_direct paired direct
    · obtain ⟨link, joined, first⟩ := List.mem_filterMap.mp linked
      exact Usable.of_link paired joined first
  obtain ⟨ticket, usable, owner, its⟩ := is
  refine ⟨candidate.key, ticket, usable, owner, its, fun key' other usable' => ?_⟩
  obtain ⟨candidate', member, before⟩ := usable'.candidate owned paired found receiver
  exact (List.le_of_mem_argmin member chosen).trans before

theorem preferred_none (owned : state.Owned loose) (paired : state.Paired)
    {port' : MachReceivePort} (found : state.objects.lookup port = some port')
    (receiver : port'.receiver = some task) (none : state.preferred task port = none) :
    ¬ state.Usable port key ticket := by
  intro usable
  obtain ⟨candidate, member, _⟩ := usable.candidate owned paired found receiver
  have empty := List.argmin_eq_none.mp (Option.map_eq_none_iff.mp none)
  rw [empty] at member
  contradiction

theorem usable_of_accepted (accepted : state.refusal longContext ticket message = none) :
    state.usable ticket.task ticket.receive = true := by
  unfold refusal at accepted
  split at accepted
  · contradiction
  · rename_i good
    simpa using good

end MachReceivers
end ILEmu
