import ILEmu.Mach.ReceiveChoice

/-! What the choice of a receiver rests on, kept by every operation: members of a set are
owned with the set, numbers are given out once, and waits and pending receives are pairs. -/
namespace ILEmu
open Foundation
namespace MachReceivers
variable {Content : Type} {state state' : MachReceivers Content} {longContext : Bool}
  {loose : PortObjectId → Prop} {object : PortObjectId} {task processor : Nat}
  {receive : PendingMachReceive}

/-- Nothing is loose between operations. -/
structure Standing (state : MachReceivers Content) : Prop where
  owned : state.Owned fun _ => False
  ordered : state.Ordered
  paired : state.Paired

theorem Refuses.ports {destination : PortObjectId} {message : MachMessage (MachPayload Content)}
    (refuses : Refuses longContext destination message state state') :
    state'.ports = state.ports := by
  induction refuses with
  | refl => rfl
  | next _ _ _ ih => exact ih

theorem ports_select (payload : MachPayload Content) (number : Nat) :
    (state.select object number payload).ports = state.ports := by
  unfold select incrementSequenceNumber
  split <;> rfl

theorem waiters_select (payload : MachPayload Content) (number : Nat) :
    (state.select object number payload).waiters = state.waiters := by
  unfold select incrementSequenceNumber
  split <;> rfl

theorem Arrival.ports {destination : PortObjectId} {message : MachMessage (MachPayload Content)}
    {result : MachReceivers Content × Bool}
    (arrival : Arrival longContext destination message state result) :
    result.1.ports = state.ports := by
  cases arrival with
  | passed refuses => exact refuses.ports
  | handed _ refuses _ _ => exact (ports_select _ _).trans refuses.ports

theorem postRule_consistent (longContext : Bool) (loose : PortObjectId → Prop) :
    PostRule longContext fun state : MachReceivers Content =>
      state.waiters.Indexed ∧ state.ports.Consistent loose where
  queued := by
    rintro state middle destination message ⟨indexed, consistent⟩ arrival
    refine ⟨(arrival.later indexed).indexed indexed, ?_⟩
    have same : middle.ports = state.ports := arrival.ports
    dsimp only
    rw [same]
    exact consistent.enqueue destination message
  handed := by
    rintro state after destination message ⟨indexed, consistent⟩ arrival
    refine ⟨(arrival.later indexed).indexed indexed, ?_⟩
    have same : after.ports = state.ports := arrival.ports
    rw [same]
    exact consistent
  settled := by
    rintro state destination ⟨indexed, consistent⟩
    exact ⟨indexed, ((consistent.settle destination).mono fun _ => And.left).touch destination⟩
  indexed holds := holds.1

theorem consistent_posts (longContext : Bool) (indexed : state.waiters.Indexed)
    (consistent : state.ports.Consistent loose) (sends : List (MachSend Content)) :
    (state.posts longContext sends).ports.Consistent loose :=
  ((postRule_consistent longContext loose).posts ⟨indexed, consistent⟩ sends).2

/-- The pairs of a state are those of one in which tickets and receives look the same. -/
theorem Later.paired (later : Later state state') (paired : state.Paired) : state'.Paired := by
  constructor
  · intro task processor receive found
    rw [later.pending] at found
    obtain ⟨its, ticket, here, owner, same⟩ := paired.ticketed task processor receive found
    obtain ⟨ticket', here', alike⟩ := later.tickets.forward here
    have owner' : ticket'.task = ticket.task := congrArg Prod.fst alike
    have same' : ticket'.receive = ticket.receive := congrArg Prod.snd alike
    exact ⟨its, ticket', here', owner'.trans owner, same'.trans same⟩
  · intro sequence ticket' here'
    obtain ⟨ticket, here, alike⟩ := later.tickets.symm.forward here'
    have owner : ticket.task = ticket'.task := congrArg Prod.fst alike
    have same : ticket.receive = ticket'.receive := congrArg Prod.snd alike
    rw [later.pending, ← owner, ← same]
    exact paired.pending sequence ticket here

theorem Later.owned (later : Later state state') (owned : state.Owned loose)
    {loose' : PortObjectId → Prop} (consistent : state'.ports.Consistent loose') :
    state'.Owned loose' := by
  refine ⟨consistent, ?_, ?_⟩
  · intro set member inside
    rw [later.sets] at inside
    obtain ⟨port, owner, found, receiver, owns⟩ := owned.owned set member inside
    obtain ⟨port', found', same⟩ := later.objects.forward found
    rw [later.owners]
    exact ⟨port', owner, found', same.trans receiver, owns⟩
  · intro object some
    rw [later.sets]
    rw [later.objects.isSome] at some
    exact owned.disjoint object some

theorem Later.standing (later : Later state state') (standing : state.Standing)
    (consistent : state'.ports.Consistent fun _ => False) : state'.Standing :=
  ⟨later.owned standing.owned consistent, later.ordered standing.ordered,
    later.paired standing.paired⟩

theorem Standing.posts (standing : state.Standing) (indexed : state.waiters.Indexed)
    (sends : List (MachSend Content)) : (state.posts longContext sends).Standing :=
  (later_posts longContext indexed sends).standing standing
    (consistent_posts longContext indexed standing.owned.consistent sends)

/-- Queues, the members that are ready and the number of the next message do not matter. -/
theorem Later.ports (ports : MachPortSets (MachPayload Content))
    (sets : ports.sets = state.ports.sets) (links : ports.linksByMember = state.ports.linksByMember)
    (next : ports.nextWaitQueueSequence = state.ports.nextWaitQueueSequence) :
    Later state { state with ports } :=
  ⟨sets, links, next, rfl, rfl, rfl, .refl _ _, .refl _ _, id⟩

theorem Later.popFront (state : MachReceivers Content) (object : PortObjectId) :
    Later state (state.popFront object) := .ports _ rfl rfl rfl

theorem Later.consume (longContext : Bool) (indexed : state.waiters.Indexed)
    (object : PortObjectId) (number : Nat) (copyout slot : List (MachSend Content)) :
    Later state (state.consume longContext object number copyout slot) := by
  unfold MachReceivers.consume
  split
  · exact .refl state
  · rename_i message _ _
    have selected := later_select state object number message.body
    have copied := selected.trans (later_posts longContext (selected.indexed indexed) copyout)
    have freed := copied.trans (.popFront _ object)
    have notified := freed.trans (later_posts longContext (freed.indexed indexed) slot)
    exact notified.trans (.ports _ rfl rfl rfl)

theorem consistent_popFront (consistent : state.ports.Consistent fun _ => False)
    (object : PortObjectId) : (state.popFront object).ports.Consistent (· = object) := by
  unfold MachReceivers.popFront
  cases queued : state.ports.queues.bucket object with
  | nil =>
    have touched : (state.ports.touch object).Consistent fun _ => False := consistent.touch object
    unfold MachPortSets.touch at touched
    rw [queued] at touched
    exact touched.mono fun _ => False.elim
  | cons first rest => exact (consistent.loosen queued).mono fun _ => (Or.resolve_left · id)

theorem consistent_consume (indexed : state.waiters.Indexed)
    (consistent : state.ports.Consistent fun _ => False) (number : Nat)
    (copyout slot : List (MachSend Content)) :
    (state.consume longContext object number copyout slot).ports.Consistent fun _ => False := by
  unfold MachReceivers.consume
  split
  · exact consistent
  · rename_i message _ _
    have selected := later_select state object number message.body
    have consistent' : (state.select object number message.body).ports.Consistent fun _ => False := by
      rw [ports_select]
      exact consistent
    have copied := consistent_posts longContext (selected.indexed indexed)
      consistent' copyout
    have indexed' := (later_posts longContext (selected.indexed indexed) copyout).indexed
      (selected.indexed indexed)
    have notified := consistent_posts longContext
      ((Later.popFront _ object).indexed indexed') (consistent_popFront copied object) slot
    exact (notified.settle object).mono fun _ both => both.2 both.1

/-- A set that a port was found through has the port moved to the end of its ready members. -/
def turn (state : MachReceivers Content) (set : Option PortObjectId) (object : PortObjectId) :
    MachReceivers Content :=
  { state with ports := set.elim state.ports fun set => state.ports.rotate set object }

theorem Later.turn (state : MachReceivers Content) (set : Option PortObjectId)
    (object : PortObjectId) : Later state (state.turn set object) := by
  have rotated : ∀ set, (state.ports.rotate set object).sets = state.ports.sets ∧
      (state.ports.rotate set object).linksByMember = state.ports.linksByMember ∧
      (state.ports.rotate set object).nextWaitQueueSequence =
        state.ports.nextWaitQueueSequence := by
    intro set
    unfold MachPortSets.rotate
    split
    · exact ⟨rfl, rfl, rfl⟩
    · split <;> exact ⟨rfl, rfl, rfl⟩
  cases set with
  | none => exact .refl state
  | some set => exact .ports _ (rotated set).1 (rotated set).2.1 (rotated set).2.2

theorem consistent_turn (consistent : state.ports.Consistent loose) (set : Option PortObjectId)
    (object : PortObjectId) : (state.turn set object).ports.Consistent loose := by
  cases set with
  | none => exact consistent
  | some set => exact consistent.rotate set object

theorem Later.finish (later : Later state state') (indexed : state'.waiters.Indexed) (task : Nat)
    (receive : PendingMachReceive) : Later (state.finish task receive) (state'.finish task receive) where
  sets := later.sets
  links := later.links
  next := later.next
  owners := later.owners
  pending := by
    unfold MachReceivers.finish
    rw [later.pending]
  now := later.now
  objects := later.objects
  tickets := by
    intro sequence
    have before := @MachReceiveWaitQueue.find_retire _ state.waiters
      receive.waitQueueSequence sequence
    have after := @MachReceiveWaitQueue.find_retire _ state'.waiters
      receive.waitQueueSequence sequence
    unfold MachReceiveWaitQueue.find at before after
    unfold MachReceivers.finish
    rw [before, after]
    split
    · rfl
    · exact later.tickets sequence
  indexed := fun _ => indexed.retire _

def retired (state : MachReceivers Content) (receive : PendingMachReceive) :
    MachReceivers Content :=
  { state with waiters := state.waiters.retire receive.waitQueueSequence }

/-- A receive that is over has been taken off the queue, before or after what it has done. -/
theorem Later.finish_retired (task : Nat) (receive : PendingMachReceive)
    (indexed : state.waiters.Indexed) :
    Later (state.finish task receive) ((state.retired receive).finish task receive) where
  sets := rfl
  links := rfl
  next := rfl
  owners := rfl
  pending := rfl
  now := rfl
  objects := .refl _ _
  tickets := by
    intro sequence
    have once := @MachReceiveWaitQueue.find_retire _ state.waiters
      receive.waitQueueSequence
    have twice := @MachReceiveWaitQueue.find_retire _
      (state.waiters.retire receive.waitQueueSequence) receive.waitQueueSequence sequence
    have first := once sequence
    unfold MachReceiveWaitQueue.find at first twice
    unfold MachReceivers.finish retired
    rw [first, twice, first]
    split <;> rfl
  indexed := fun _ => (indexed.retire _).retire _

/-- A delivery does nothing, or it ends the receive and does no more than posts do. -/
theorem deliver_spec (indexed : state.waiters.Indexed)
    (consistent : state.ports.Consistent fun _ => False) (copyout slot : List (MachSend Content)) :
    state.deliver longContext task processor copyout slot = (state, none) ∨
      ∃ receive status after, state.pending.lookup (task, processor) = some receive ∧
        state.deliver longContext task processor copyout slot = (after, some status) ∧
        Later (state.finish task receive) after ∧ after.ports.Consistent fun _ => False := by
  unfold MachReceivers.deliver
  cases found : state.pending.lookup (task, processor) with
  | none => exact .inl rfl
  | some receive =>
    have ended : ∀ status, ∃ receive' status' after, some receive = some receive' ∧
        (state.finish task receive, some status) = (after, some (status' : MachReceiveStatus)) ∧
        Later (state.finish task receive') after ∧ after.ports.Consistent fun _ => False :=
      fun status => ⟨receive, status, _, rfl, rfl, .refl _, consistent⟩
    dsimp only
    split
    · split
      · have later := later_posts longContext indexed copyout
        exact .inr ⟨receive, _, _, rfl, rfl, later.finish (later.indexed indexed) task receive,
          consistent_posts longContext indexed consistent copyout⟩
      · exact .inr (ended _)
      · exact .inr (ended _)
      · exact .inr (ended _)
    · split
      · exact .inr (ended _)
      · split
        · split
          · exact .inr (ended _)
          · exact .inl rfl
        · rename_i object set _
          split
          · exact .inl rfl
          · right
            have retired := Later.finish_retired task receive indexed
            have before_indexed : (state.retired receive).waiters.Indexed :=
              indexed.retire receive.waitQueueSequence
            have before_consistent : (state.retired receive).ports.Consistent fun _ => False :=
              consistent
            have rotated := Later.turn (state.retired receive) set object
            have turned : ((state.retired receive).turn set object).ports.Consistent fun _ => False :=
              consistent_turn before_consistent set object
            have indexed' := rotated.indexed before_indexed
            split
            · exact ⟨receive, _, _, rfl, rfl, retired.trans (rotated.finish indexed' task receive),
                turned⟩
            · have consumed := rotated.trans (Later.consume longContext indexed' object
                receive.waitQueueSequence copyout slot)
              exact ⟨receive, _, _, rfl, rfl, retired.trans (consumed.finish
                (consumed.indexed before_indexed) task receive),
                consistent_consume indexed' turned _ copyout slot⟩

/-- Only what the pairs look like matters for them. -/
theorem Paired.congr (paired : state.Paired)
    (pending : ∀ key, state'.pending.lookup key = state.pending.lookup key)
    (tickets : ∀ sequence, state'.waiters.find sequence = state.waiters.find sequence) :
    state'.Paired := by
  constructor
  · intro task processor receive found
    rw [pending] at found
    rw [tickets]
    exact paired.ticketed task processor receive found
  · intro sequence ticket found
    rw [tickets] at found
    rw [pending]
    exact paired.pending sequence ticket found

/-- A receive ends together with its ticket. -/
theorem Paired.finish (paired : state.Paired) (indexed : state.waiters.Indexed)
    (found : state.pending.lookup (task, processor) = some receive) :
    (state.finish task receive).Paired := by
  obtain ⟨rfl, own, here, owner, same⟩ := paired.ticketed task processor receive found
  have tickets : ∀ sequence, (state.finish task receive).waiters.find sequence =
      if sequence = receive.waitQueueSequence then none else state.waiters.find sequence :=
    MachReceiveWaitQueue.find_retire _
  have pending : ∀ key, (state.finish task receive).pending.lookup key =
      if key = (task, receive.processor) then none else state.pending.lookup key :=
    Table.lookup_erase_eq _ _
  constructor
  · intro task' processor' other stored
    rw [pending] at stored
    split at stored
    · contradiction
    · rename_i different
      obtain ⟨its, ticket, there, owner', same'⟩ := paired.ticketed task' processor' other stored
      refine ⟨its, ticket, ?_, owner', same'⟩
      rw [tickets, if_neg]
      · exact there
      · intro equal
        rw [equal, here] at there
        cases there
        apply different
        rw [← owner', ← its, ← same', owner, same]
  · intro sequence ticket stored
    rw [tickets] at stored
    split at stored
    · contradiction
    · rename_i different
      have paired' := paired.pending sequence ticket stored
      rw [pending, if_neg]
      · exact paired'
      · intro equal
        rw [equal, found] at paired'
        apply different
        rw [Option.some.inj paired']
        exact (indexed.keyed sequence ticket stored).symm

theorem Ordered.fewer (ordered : state.Ordered)
    (ports : state'.ports = state.ports)
    (tickets : ∀ sequence, (state'.waiters.find sequence).isSome = true →
      (state.waiters.find sequence).isSome = true) : state'.Ordered := by
  constructor
  · rw [ports]
    exact ordered.positive
  · rw [ports]
    exact ordered.bound
  · rw [ports]
    exact ordered.links
  · intro sequence some
    rw [ports]
    exact ordered.tickets sequence (tickets sequence some)
  · rw [ports]
    exact ordered.apart
  · intro member link inside
    rw [ports] at inside
    have absent := ordered.unmixed member link inside
    rw [← Option.not_isSome_iff_eq_none]
    intro some
    have there := tickets _ some
    rw [absent] at there
    contradiction

theorem isSome_retire {queue : MachReceiveWaitQueue Content} {retired sequence : Nat}
    (some : ((queue.retire retired).find sequence).isSome = true) :
    (queue.find sequence).isSome = true := by
  rw [MachReceiveWaitQueue.find_retire] at some
  split at some
  · contradiction
  · exact some

theorem Standing.finish (standing : state.Standing) (indexed : state.waiters.Indexed)
    (found : state.pending.lookup (task, processor) = some receive) :
    (state.finish task receive).Standing :=
  ⟨⟨standing.owned.consistent, standing.owned.owned, standing.owned.disjoint⟩,
    standing.ordered.fewer rfl fun _ => isSome_retire, standing.paired.finish indexed found⟩

theorem Standing.deliver (standing : state.Standing) (indexed : state.waiters.Indexed)
    (copyout slot : List (MachSend Content)) :
    (state.deliver longContext task processor copyout slot).1.Standing := by
  rcases deliver_spec indexed standing.owned.consistent copyout slot with same |
    ⟨receive, status, after, found, ends, later, consistent⟩
  · rw [same]
    exact standing
  · rw [ends]
    exact later.standing (standing.finish indexed found) consistent

end MachReceivers
end ILEmu
