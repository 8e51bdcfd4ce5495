import ILEmu.Mach.Handoffs

/-! The messages of a port leave it in the order in which they were posted, and are numbered
as they leave. -/
namespace ILEmu
open Foundation

namespace MachHistory
variable {Content : Type} {history : MachHistory Content}

/-- What was posted has left the queue or still waits in it. -/
structure Line (history : MachHistory Content) (waiting : List (MachPayload Content)) : Prop where
  fifo : history.posted = history.taken.map (·.payload) ++ waiting
  since : history.since ≤ history.taken.length

/-- Messages are numbered from zero, modulo the width of a number, and `next` is the number
of the next one. -/
structure Numbered (history : MachHistory Content) (next : Nat) : Prop where
  numbers : ∀ i selection, history.since ≤ i → history.taken[i]? = some selection →
    selection.sequenceNumber = (i - history.since) % 2 ^ 32
  next : next = (history.taken.length - history.since) % 2 ^ 32

theorem Line.post {waiting : List (MachPayload Content)} (line : history.Line waiting)
    (payload : MachPayload Content) :
    Line { history with posted := history.posted ++ [payload] } (waiting ++ [payload]) := by
  refine ⟨?_, line.since⟩
  dsimp only
  rw [line.fifo, List.append_assoc]

theorem Line.take {waiting rest : List (MachPayload Content)} (line : history.Line waiting)
    {selections : List (MachSelection Content)}
    (front : waiting = selections.map (·.payload) ++ rest) :
    Line { history with taken := history.taken ++ selections } rest := by
  constructor
  · dsimp only
    rw [line.fifo, front, List.map_append, List.append_assoc]
  · dsimp only
    rw [List.length_append]
    exact line.since.trans (Nat.le_add_right _ _)

theorem Line.move {waiting : List (MachPayload Content)} (line : history.Line waiting) :
    Line { history with since := history.taken.length } waiting :=
  ⟨line.fifo, Nat.le_refl _⟩

theorem numbered_moved (history : MachHistory Content) :
    Numbered { history with since := history.taken.length } 0 := by
  constructor
  · intro i selection late found
    have bound := (List.getElem?_eq_some_iff.mp found).1
    exact absurd bound (Nat.not_lt.mpr late)
  · simp

theorem Numbered.take {next : Nat} (numbered : history.Numbered next)
    (since : history.since ≤ history.taken.length) {selection : MachSelection Content}
    (number : selection.sequenceNumber = next) :
    Numbered { history with taken := history.taken ++ [selection] } ((next + 1) % 2 ^ 32) := by
  have length : (history.taken ++ [selection]).length = history.taken.length + 1 := by simp
  constructor
  · intro i other late found
    dsimp only at late found ⊢
    rcases Nat.lt_or_ge i history.taken.length with before | after
    · rw [List.getElem?_append_left before] at found
      exact numbered.numbers i other late found
    · have bound := (List.getElem?_eq_some_iff.mp found).1
      rw [length] at bound
      obtain rfl : i = history.taken.length := by omega
      rw [List.getElem?_concat_length] at found
      cases found
      rw [number, numbered.next]
  · dsimp only
    rw [length, numbered.next]
    omega

end MachHistory

namespace MachReceivers
variable {Content : Type} {state state' : MachReceivers Content} {longContext : Bool}
  {destination : PortObjectId} {message : MachMessage (MachPayload Content)}
  {waiting : PortObjectId → List (MachPayload Content)} {object : PortObjectId}

/-- Every port has its messages in line, the ones that wait as given. -/
structure Recorded (waiting : PortObjectId → List (MachPayload Content))
    (state : MachReceivers Content) : Prop where
  line : ∀ object, (state.historyOf object).Line (waiting object)
  numbered : ∀ object port, state.objects.lookup object = some port →
    (state.historyOf object).Numbered port.sequenceNumber

theorem historyOf_insert (history : MachHistory Content) (other : PortObjectId) :
    historyOf { state with history := state.history.insert object history } other =
      if other = object then history else state.historyOf other := by
  unfold historyOf
  rw [Table.lookup_insert_eq]
  split <;> rfl

theorem Recorded.notePosted (recorded : state.Recorded waiting) (object : PortObjectId)
    (payload : MachPayload Content) :
    (state.notePosted object payload).Recorded
      (Function.update waiting object (waiting object ++ [payload])) := by
  unfold MachReceivers.notePosted
  constructor
  · intro other
    rw [historyOf_insert]
    by_cases same : other = object
    · subst same
      rw [if_pos rfl, Function.update_self]
      exact (recorded.line other).post payload
    · rw [if_neg same, Function.update_of_ne same]
      exact recorded.line other
  · intro other port found
    have numbered := recorded.numbered other port found
    rw [historyOf_insert]
    by_cases same : other = object
    · subst same
      rw [if_pos rfl]
      exact ⟨numbered.numbers, numbered.next⟩
    · rw [if_neg same]
      exact numbered

theorem sequenceNumber_of_lookup {port : MachReceivePort}
    (found : state.objects.lookup object = some port) :
    state.sequenceNumber object = port.sequenceNumber := by
  unfold sequenceNumber
  rw [found]
  rfl

theorem historyOf_select (receive : Nat) (payload : MachPayload Content) (other : PortObjectId) :
    (state.select object receive payload).historyOf other =
      if other = object then
        { state.historyOf object with
          taken := (state.historyOf object).taken ++
            [{ payload, receive := some receive, sequenceNumber := state.sequenceNumber object }] }
      else state.historyOf other := by
  have noted := @historyOf_insert _ state object
    { state.historyOf object with
      taken := (state.historyOf object).taken ++
        [{ payload, receive := some receive, sequenceNumber := state.sequenceNumber object }] } other
  unfold select incrementSequenceNumber
  split
  · exact noted
  · exact noted

theorem lookup_select (receive : Nat) (payload : MachPayload Content) (other : PortObjectId) :
    (state.select object receive payload).objects.lookup other =
      if other = object then (state.objects.lookup object).map fun port =>
        { port with sequenceNumber := (port.sequenceNumber + 1) % 2 ^ 32 }
      else state.objects.lookup other := by
  unfold select incrementSequenceNumber noteTaken
  dsimp only
  split
  · rename_i none
    split
    · subst other
      rw [none]
      rfl
    · rfl
  · rename_i port found
    rw [found]
    exact Table.lookup_insert_eq _ _ _ _

/-- The first message that waits is selected. -/
theorem Recorded.select (recorded : state.Recorded waiting) {payload : MachPayload Content}
    {rest : List (MachPayload Content)} (front : waiting object = payload :: rest) (receive : Nat) :
    (state.select object receive payload).Recorded (Function.update waiting object rest) := by
  constructor
  · intro other
    rw [historyOf_select]
    by_cases same : other = object
    · subst same
      rw [if_pos rfl, Function.update_self]
      exact (recorded.line other).take front
    · rw [if_neg same, Function.update_of_ne same]
      exact recorded.line other
  · intro other port found
    rw [lookup_select] at found
    rw [historyOf_select]
    by_cases same : other = object
    · subst same
      rw [if_pos rfl] at found ⊢
      obtain ⟨before, here, rfl⟩ := Option.map_eq_some_iff.mp found
      exact (recorded.numbered other before here).take (recorded.line other).since
        (sequenceNumber_of_lookup here)
    · rw [if_neg same] at found ⊢
      exact recorded.numbered other port found

/-- What is recorded depends on the history and the numbers only. -/
theorem Recorded.same (recorded : state.Recorded waiting)
    (history : state'.history = state.history) (objects : state'.objects = state.objects) :
    state'.Recorded waiting := by
  have histories : ∀ object, state'.historyOf object = state.historyOf object := by
    intro object
    unfold historyOf
    rw [history]
  constructor
  · intro object
    rw [histories]
    exact recorded.line object
  · intro object port found
    rw [histories]
    rw [objects] at found
    exact recorded.numbered object port found

/-- A ticket that is ready holds a message that was selected for it, with its number. -/
def Held (state : MachReceivers Content) : Prop :=
  ∀ sequence ticket, state.waiters.find sequence = some ticket → ticket.state = .messageReady →
    ∃ message selection, ticket.message = some message ∧
      selection ∈ (state.historyOf ticket.destination).taken ∧
      selection.payload = message.body ∧ selection.receive = some sequence ∧
      selection.sequenceNumber = ticket.sequenceNumber

/-- Tickets that were ready before hold on to what is recorded of them. -/
theorem Held.mono (held : state.Held)
    (tickets : ∀ sequence ticket, state'.waiters.find sequence = some ticket →
      ticket.state = .messageReady → state.waiters.find sequence = some ticket)
    (grows : ∀ object, (state.historyOf object).taken ⊆ (state'.historyOf object).taken) :
    state'.Held := by
  intro sequence ticket found ready
  obtain ⟨message, selection, holds, member, rest⟩ :=
    held sequence ticket (tickets sequence ticket found ready) ready
  exact ⟨message, selection, holds, grows _ member, rest⟩

theorem Held.notePosted (held : state.Held) (object : PortObjectId)
    (payload : MachPayload Content) : (state.notePosted object payload).Held := by
  refine held.mono (fun _ _ found _ => found) fun other => ?_
  unfold MachReceivers.notePosted
  rw [historyOf_insert]
  split
  · rename_i same
    rw [same]
    exact List.Subset.refl _
  · exact List.Subset.refl _

theorem Refuses.recorded (indexed : state.waiters.Indexed) (held : state.Held)
    (refuses : Refuses longContext destination message state state') :
    state'.history = state.history ∧ state'.objects = state.objects ∧
      state'.ports = state.ports ∧ state'.Held := by
  induction refuses with
  | refl => exact ⟨rfl, rfl, rfl, held⟩
  | @next state _ ticket reason first refused _ ih =>
    obtain ⟨object, here⟩ := firstReceiver_first first
    obtain ⟨found, _⟩ := indexed.first_spec here
    have same : (sized ticket message (some reason)).receive = ticket.receive :=
      sized_receive ticket _
    obtain ⟨done, unready⟩ := refusal_ne_waiting refused
    have held' : (state.refuse ticket message reason).Held := by
      apply held.mono
      · intro sequence other found' ready
        unfold refuse at found'
        rw [MachReceiveWaitQueue.find_complete (congrArg _ same)] at found'
        split at found'
        · cases found'
          exact absurd ready unready
        · exact found'
      · exact fun _ => List.Subset.refl _
    exact ih (indexed.complete found same done) held'

/-- The payloads that wait in the queues, but for the first of a queue that is being copied
out. -/
def visible (copying : Option PortObjectId) (ports : MachPortSets (MachPayload Content))
    (object : PortObjectId) : List (MachPayload Content) :=
  let queued := (ports.queues.bucket object).map (·.body)
  if copying = some object then queued.tail else queued

@[simp] theorem visible_none (ports : MachPortSets (MachPayload Content)) (object : PortObjectId) :
    visible none ports object = (ports.queues.bucket object).map (·.body) := rfl

/-- What the posts of messages keep of the record, while one queue may be copied out. -/
structure Kept (copying : Option PortObjectId) (state : MachReceivers Content) : Prop where
  indexed : state.waiters.Indexed
  recorded : state.Recorded (visible copying state.ports)
  held : state.Held
  busy : ∀ object ∈ copying, state.ports.queues.bucket object ≠ []

theorem map_body_raiseOlder (tier : Nat) (queue : List (MachMessage (MachPayload Content))) :
    (raiseOlder tier queue).map (·.body) = queue.map (·.body) := by
  induction queue with
  | nil => rfl
  | cons older rest ih =>
    unfold raiseOlder
    split
    · rw [List.map_cons, List.map_cons, ih]
    · rfl

theorem bucket_enqueue (ports : MachPortSets (MachPayload Content)) (other : PortObjectId) :
    ((ports.enqueue destination message).queues.bucket other).map (·.body) =
      if other = destination then
        (ports.queues.bucket destination).map (·.body) ++ [message.body]
      else (ports.queues.bucket other).map (·.body) := by
  unfold MachPortSets.enqueue
  dsimp only
  rw [Table.bucket_insert]
  split
  · rw [List.map_append, List.map_reverse, map_body_raiseOlder, List.map_reverse,
      List.reverse_reverse]
    rfl
  · rfl

theorem visible_enqueue {copying : Option PortObjectId}
    {ports : MachPortSets (MachPayload Content)}
    (busy : ∀ object ∈ copying, ports.queues.bucket object ≠ []) :
    visible copying (ports.enqueue destination message) =
      Function.update (visible copying ports) destination
        (visible copying ports destination ++ [message.body]) := by
  funext other
  unfold visible
  rw [bucket_enqueue]
  by_cases same : other = destination
  · subst same
    rw [if_pos rfl, Function.update_self]
    split
    · rename_i here
      apply List.tail_append_of_ne_nil
      simpa using busy other here
    · rfl
  · rw [if_neg same, Function.update_of_ne same]

theorem Recorded.accept (recorded : state.Recorded waiting) {ticket : MachReceiveTicket Content}
    {rest : List (MachPayload Content)} (front : waiting destination = message.body :: rest) :
    (state.accept ticket destination message).Recorded (Function.update waiting destination rest) :=
  (recorded.select front ticket.receive.waitQueueSequence).same rfl rfl

theorem Held.accept (indexed : state.waiters.Indexed) (held : state.Held)
    {ticket : MachReceiveTicket Content} {object : PortObjectId}
    (first : state.waiters.first object = some ticket) :
    (state.accept ticket destination message).Held := by
  obtain ⟨found, _⟩ := indexed.first_spec first
  have same : (state.select destination ticket.receive.waitQueueSequence message.body).waiters =
      state.waiters := by
    unfold MachReceivers.select incrementSequenceNumber
    split <;> rfl
  intro sequence other found' ready
  unfold MachReceivers.accept at found' ⊢
  dsimp only at found'
  rw [MachReceiveWaitQueue.find_complete rfl, same] at found'
  have histories : ∀ object, historyOf
      { state.select destination ticket.receive.waitQueueSequence message.body with
        waiters := (state.select destination ticket.receive.waitQueueSequence
          message.body).waiters.complete
            { sized ticket message none with
              destination, sequenceNumber := state.sequenceNumber destination
              message := some message } .messageReady } object =
      (state.select destination ticket.receive.waitQueueSequence message.body).historyOf object :=
    fun _ => rfl
  split at found'
  · rename_i here
    cases found'
    refine ⟨message, ⟨message.body, some sequence, state.sequenceNumber destination⟩, rfl, ?_, rfl,
      rfl, rfl⟩
    rw [histories, historyOf_select, if_pos rfl, here]
    exact List.mem_append_right _ (List.mem_singleton_self _)
  · obtain ⟨held', selection, holds, member, rest⟩ := held sequence other found' ready
    refine ⟨held', selection, holds, ?_, rest⟩
    rw [histories, historyOf_select]
    split
    · rename_i here
      rw [here] at member
      exact List.mem_append_left _ member
    · exact member

theorem postRule_kept (longContext : Bool) (copying : Option PortObjectId) :
    PostRule longContext fun state : MachReceivers Content => state.Kept copying where
  queued := by
    intro state middle destination message kept arrival
    have later := arrival.later kept.indexed
    cases arrival with
    | passed refuses =>
      have noted := kept.recorded.notePosted destination message.body
      obtain ⟨history, objects, ports, held⟩ := refuses.recorded
        (later_notePosted state destination message.body |>.indexed kept.indexed)
        (kept.held.notePosted destination message.body)
      have ports' : middle.ports = state.ports := ports
      refine ⟨later.indexed kept.indexed, ?_, held, ?_⟩
      · dsimp only
        rw [ports', visible_enqueue kept.busy]
        exact noted.same history objects
      · intro object copied
        have some := kept.busy object copied
        dsimp only
        rw [ports']
        intro none
        have bodies := congrArg (List.map (·.body)) none
        rw [bucket_enqueue] at bodies
        split at bodies
        · simp at bodies
        · exact some (by simpa using bodies)
  handed := by
    intro state after destination message kept arrival
    have later := arrival.later kept.indexed
    cases arrival with
    | @handed middle ticket empty refuses first accepted =>
      have noted := kept.recorded.notePosted destination message.body
      have indexed := (later_notePosted state destination message.body).indexed kept.indexed
      obtain ⟨history, objects, ports, held⟩ := refuses.recorded indexed
        (kept.held.notePosted destination message.body)
      have ports' : middle.ports = state.ports := ports
      have indexed' := (refuses.later indexed).indexed indexed
      obtain ⟨object, here⟩ := firstReceiver_first first
      have queues : (middle.accept ticket destination message).ports = state.ports := by
        rw [← ports']
        unfold accept select incrementSequenceNumber
        split <;> rfl
      have idle : visible copying state.ports destination = [] := by
        unfold visible
        rw [empty]
        simp
      refine ⟨later.indexed kept.indexed, ?_, held.accept indexed' here, ?_⟩
      · rw [queues]
        have front : Function.update (visible copying state.ports) destination
            (visible copying state.ports destination ++ [message.body]) destination =
              message.body :: [] := by
          rw [Function.update_self, idle]
          rfl
        have same : middle.Recorded _ := noted.same history objects
        have taken : (middle.accept ticket destination message).Recorded _ := same.accept front
        rw [Function.update_idem, ← idle, Function.update_eq_self] at taken
        exact taken
      · rw [queues]
        exact kept.busy
  settled := by
    intro state destination kept
    have queues : ∀ object, ((state.ports.settle destination).touch destination).queues.bucket
        object = state.ports.queues.bucket object := by
      intro object
      unfold MachPortSets.touch
      rw [Table.bucket_insert]
      split
      · rename_i same
        rw [same]
        rfl
      · rfl
    have same : visible copying ((state.ports.settle destination).touch destination) =
        visible copying state.ports := by
      funext object
      unfold visible
      rw [queues]
    refine ⟨kept.indexed, ?_, kept.held.mono (fun _ _ found _ => found) fun _ =>
      List.Subset.refl _, ?_⟩
    · rw [same]
      exact kept.recorded.same rfl rfl
    · intro object copied
      dsimp only
      rw [queues]
      exact kept.busy object copied
  indexed kept := kept.indexed

theorem Kept.posts {copying : Option PortObjectId} (kept : state.Kept copying)
    (sends : List (MachSend Content)) : (state.posts longContext sends).Kept copying :=
  (postRule_kept longContext copying).posts kept sends

/-- Waiters and pending receives may go, as long as the queue of tickets stays indexed. -/
theorem Kept.retire (kept : state.Kept none) (waiters : MachReceiveWaitQueue Content)
    (indexed : waiters.Indexed)
    (fewer : ∀ sequence ticket, waiters.find sequence = some ticket → ticket.state = .messageReady →
      state.waiters.find sequence = some ticket)
    (pending : Table (Nat × Nat) PendingMachReceive) :
    Kept none { state with waiters, pending } :=
  ⟨indexed, kept.recorded.same rfl rfl, kept.held.mono fewer fun _ => List.Subset.refl _, nofun⟩

theorem Kept.finish (kept : state.Kept none) (task : Nat) (receive : PendingMachReceive) :
    (state.finish task receive).Kept none := by
  unfold MachReceivers.finish
  apply kept.retire _ (kept.indexed.retire _)
  intro sequence ticket found _
  rw [MachReceiveWaitQueue.find_retire] at found
  split at found
  · contradiction
  · exact found

theorem Held.grow (held : state.Held) (tickets : state'.waiters = state.waiters)
    (grows : ∀ object, ∃ more, (state'.historyOf object).taken =
      (state.historyOf object).taken ++ more) : state'.Held := by
  apply held.mono
  · intro _ _ found _
    rw [tickets] at found
    exact found
  · intro object
    obtain ⟨more, same⟩ := grows object
    rw [same]
    exact List.subset_append_left _ _

theorem Kept.consume (kept : state.Kept none) (receive : Nat)
    (copyout slot : List (MachSend Content)) :
    (state.consume longContext object receive copyout slot).Kept none := by
  unfold MachReceivers.consume
  split
  · exact kept
  · rename_i message rest queued
    have same : (state.select object receive message.body).ports = state.ports ∧
        (state.select object receive message.body).waiters = state.waiters := by
      unfold select incrementSequenceNumber
      split <;> exact ⟨rfl, rfl⟩
    have front : visible none state.ports object = message.body :: rest.map (·.body) := by
      unfold visible
      rw [queued]
      rfl
    have copying : Kept (some object) (state.select object receive message.body) := by
      refine ⟨by rw [same.2]; exact kept.indexed, ?_, kept.held.grow same.2 ?_, ?_⟩
      · have rest' : Function.update (visible none state.ports) object (rest.map (·.body)) =
            visible (some object) state.ports := by
          funext other
          unfold visible
          by_cases here : other = object
          · subst here
            rw [Function.update_self, if_pos rfl, queued]
            rfl
          · rw [Function.update_of_ne here, if_neg nofun,
              if_neg fun same => here (Option.some.inj same).symm]
        rw [same.1, ← rest']
        exact kept.recorded.select front receive
      · intro other
        rw [historyOf_select]
        split
        · rename_i here
          subst here
          exact ⟨_, rfl⟩
        · exact ⟨[], (List.append_nil _).symm⟩
      · intro other here
        cases here
        rw [same.1, queued]
        exact List.cons_ne_nil _ _
    have copied : ((state.select object receive message.body).posts longContext copyout).Kept
        (some object) := copying.posts copyout
    generalize (state.select object receive message.body).posts longContext copyout = copied'
      at copied
    have freed : Kept none (copied'.popFront object) := by
      refine ⟨copied.indexed, ?_, copied.held.mono (fun _ _ found _ => found) fun _ =>
        List.Subset.refl _, nofun⟩
      have rest' : visible none (copied'.popFront object).ports =
          visible (some object) copied'.ports := by
        funext other
        unfold visible popFront
        rw [if_neg nofun, Table.bucket_insert]
        by_cases here : other = object
        · subst here
          rw [if_pos rfl, if_pos rfl, List.map_tail]
        · rw [if_neg here, if_neg fun same => here (Option.some.inj same).symm]
      rw [rest']
      exact copied.recorded.same rfl rfl
    have notified : (MachReceivers.posts longContext _ slot).Kept none := freed.posts slot
    exact ⟨notified.indexed, notified.recorded.same rfl rfl, notified.held.mono
      (fun _ _ found _ => found) fun _ => List.Subset.refl _, nofun⟩

theorem Kept.deliver (kept : state.Kept none) (task processor : Nat)
    (copyout slot : List (MachSend Content)) :
    (state.deliver longContext task processor copyout slot).1.Kept none := by
  unfold MachReceivers.deliver
  split
  · exact kept
  · rename_i receive _
    split
    · split
      · exact (kept.posts copyout).finish task receive
      · exact kept.finish task receive
      · exact kept.finish task receive
      · exact kept.finish task receive
    · split
      · exact kept.finish task receive
      · split
        · split
          · exact kept.finish task receive
          · exact kept
        · rename_i object set _
          split
          · exact kept
          · have retired := kept.retire (state.waiters.retire receive.waitQueueSequence)
              (kept.indexed.retire _) (fun sequence ticket found _ => by
                rw [MachReceiveWaitQueue.find_retire] at found
                split at found
                · contradiction
                · exact found) state.pending
            have queues : ∀ ports : MachPortSets (MachPayload Content),
                (set.elim ports fun set => ports.rotate set object).queues = ports.queues := by
              intro ports
              cases set with
              | none => rfl
              | some set =>
                dsimp only [Option.elim_some]
                unfold MachPortSets.rotate
                split
                · rfl
                · split <;> rfl
            have rotated : Kept none
                { state with
                  waiters := state.waiters.retire receive.waitQueueSequence
                  ports := set.elim state.ports fun set => state.ports.rotate set object } := by
              refine ⟨retired.indexed, ?_, retired.held, nofun⟩
              have same : visible none (set.elim state.ports fun set =>
                  state.ports.rotate set object) = visible none state.ports := by
                funext other
                unfold visible
                rw [queues]
              dsimp only
              rw [same]
              exact retired.recorded.same rfl rfl
            dsimp only
            split
            · exact rotated.finish task receive
            · exact (rotated.consume _ copyout slot).finish task receive

/-- Whatever changes besides the queues, the history, the numbers and the tickets. -/
theorem Kept.same (kept : state.Kept none) (queues : state'.ports.queues = state.ports.queues)
    (history : state'.history = state.history) (objects : state'.objects = state.objects)
    (waiters : state'.waiters = state.waiters) : state'.Kept none := by
  have shown : visible none state'.ports = visible none state.ports := by
    funext object
    unfold visible
    rw [queues]
  refine ⟨by rw [waiters]; exact kept.indexed, ?_, kept.held.grow waiters fun object => ?_, nofun⟩
  · rw [shown]
    exact kept.recorded.same history objects
  · refine ⟨[], ?_⟩
    unfold historyOf
    rw [history, List.append_nil]

/-- The receive right of a port moves, or the port is made or destroyed. -/
theorem Kept.move (kept : state.Kept none) (object : PortObjectId)
    {ports : MachPortSets (MachPayload Content)} (queues : ports.queues = state.ports.queues)
    {objects : Table PortObjectId MachReceivePort}
    (others : ∀ other, other ≠ object → objects.lookup other = state.objects.lookup other)
    (fresh : ∀ port, objects.lookup object = some port → port.sequenceNumber = 0) :
    Kept none { state.noteMoved object with ports, objects } := by
  have shown : visible none ports = visible none state.ports := by
    funext object
    unfold visible
    rw [queues]
  have histories : ∀ other, historyOf { state.noteMoved object with ports, objects } other =
      if other = object then
        { state.historyOf object with since := (state.historyOf object).taken.length }
      else state.historyOf other := historyOf_insert _
  refine ⟨kept.indexed, ⟨?_, ?_⟩, kept.held.grow rfl fun other => ⟨[], ?_⟩, nofun⟩
  · intro other
    dsimp only
    rw [histories, shown]
    split
    · subst other
      exact (kept.recorded.line object).move
    · exact kept.recorded.line other
  · intro other port found
    rw [histories]
    split
    · subst other
      rw [fresh port found]
      exact MachHistory.numbered_moved _
    · rename_i different
      exact kept.recorded.numbered other port ((others other different).symm.trans found)
  · rw [histories, List.append_nil]
    split
    · subst other
      rfl
    · rfl

theorem queues_createSet (ports : MachPortSets (MachPayload Content)) (set : PortObjectId) :
    (ports.createSet set).1.queues = ports.queues := by
  unfold MachPortSets.createSet
  split <;> rfl

theorem queues_insertMember (ports : MachPortSets (MachPayload Content))
    (set member : PortObjectId) : (ports.insertMember set member).1.queues = ports.queues := by
  unfold MachPortSets.insertMember
  split
  · rfl
  · split <;> rfl

theorem queues_extractMember (ports : MachPortSets (MachPayload Content))
    (set member : PortObjectId) : (ports.extractMember set member).1.queues = ports.queues := by
  unfold MachPortSets.extractMember
  split
  · rfl
  · split <;> rfl

theorem queues_removeMemberFromAll (ports : MachPortSets (MachPayload Content))
    (member : PortObjectId) : (ports.removeMemberFromAll member).1.queues = ports.queues := by
  unfold MachPortSets.removeMemberFromAll
  split <;> rfl

theorem queues_eraseSet (ports : MachPortSets (MachPayload Content)) (set : PortObjectId) :
    (ports.eraseSet set).1.queues = ports.queues := by
  unfold MachPortSets.eraseSet
  split <;> rfl

theorem Kept.destroyPort (kept : state.Kept none) (object : PortObjectId)
    (notifications : List (MachSend Content)) :
    (state.destroyPort longContext object notifications).Kept none := by
  let dropped := (state.ports.queues.bucket object).map fun message =>
    { payload := message.body, receive := none, sequenceNumber := 0 : MachSelection Content }
  have ended : Kept none
      { (state.noteTaken object dropped).noteMoved object with
        ports :=
          { (state.ports.removeMemberFromAll object).1 with
            queues := (state.ports.removeMemberFromAll object).1.queues.erase object }
        objects := state.objects.erase object } := by
    have first : ∀ other, (state.noteTaken object dropped).historyOf other =
        if other = object then
          { state.historyOf object with taken := (state.historyOf object).taken ++ dropped }
        else state.historyOf other := historyOf_insert _
    have histories : ∀ other, historyOf
        { (state.noteTaken object dropped).noteMoved object with
          ports :=
            { (state.ports.removeMemberFromAll object).1 with
              queues := (state.ports.removeMemberFromAll object).1.queues.erase object }
          objects := state.objects.erase object } other =
        if other = object then
          { (state.noteTaken object dropped).historyOf object with
            since := ((state.noteTaken object dropped).historyOf object).taken.length }
        else (state.noteTaken object dropped).historyOf other := historyOf_insert _
    refine ⟨kept.indexed, ⟨?_, ?_⟩, kept.held.grow rfl fun other => ?_, nofun⟩
    · intro other
      rw [histories, visible_none]
      dsimp only
      rw [queues_removeMemberFromAll, Table.bucket_erase]
      have line := kept.recorded.line other
      rw [visible_none] at line
      split
      · subst other
        rw [first, if_pos rfl]
        apply MachHistory.Line.move
        apply line.take
        rw [List.map_nil, List.append_nil, List.map_map]
        rfl
      · rename_i different
        rw [first, if_neg different]
        exact line
    · intro other port found
      rw [histories]
      have still := (Table.lookup_erase_eq _ _ _).symm.trans found
      split at still
      · contradiction
      · rename_i different
        rw [if_neg different, first, if_neg different]
        exact kept.recorded.numbered other port still
    · rw [histories]
      split
      · subst other
        rw [first, if_pos rfl]
        exact ⟨dropped, rfl⟩
      · rename_i different
        rw [first, if_neg different]
        exact ⟨[], (List.append_nil _).symm⟩
  exact ended.posts notifications

theorem Kept.wait (kept : state.Kept none) (task : Nat) (receive : PendingMachReceive) :
    Kept none { state with waiters := state.waiters.wait task receive } := by
  cases found : state.waiters.find receive.waitQueueSequence with
  | some ticket =>
    rw [MachReceiveWaitQueue.wait_taken (by simp [found])]
    exact kept.same rfl rfl rfl rfl
  | none =>
    apply kept.retire _ (kept.indexed.wait found task) ?_ state.pending
    intro sequence ticket here ready
    rw [MachReceiveWaitQueue.find_wait found] at here
    split at here
    · cases here
      contradiction
    · exact here

theorem Kept.beginReceive (kept : state.Kept none) (task processor : Nat) (call : MachReceiveCall)
    (copyout slot : List (MachSend Content)) :
    (state.beginReceive longContext task processor call copyout slot).Kept none := by
  have begun : (state.begun task processor call).Kept none := kept.same rfl rfl rfl rfl
  have kept' : ((state.begun task processor call).deliver longContext task processor copyout
      slot).1.Kept none := begun.deliver task processor copyout slot
  unfold MachReceivers.beginReceive
  dsimp only
  split
  · exact kept
  · split
    · rename_i done _ delivered
      rw [delivered] at kept'
      exact kept'
    · rename_i undone delivered
      rw [delivered] at kept'
      split
      · exact kept'.same rfl rfl rfl rfl
      · exact kept'.wait task _

theorem Kept.after (kept : state.Kept none) (operation : MachReceiveOperation Content) :
    (state.after longContext operation).Kept none := by
  cases operation with
  | createPort object task =>
    simp only [MachReceivers.after]
    split
    · exact kept
    · refine kept.move object rfl (fun other different => ?_) fun port found => ?_
      · exact (Table.lookup_insert_eq _ _ _ _).trans (if_neg different)
      · have new := (Table.lookup_insert_eq _ _ _ _).symm.trans found
        rw [if_pos rfl] at new
        cases new
        rfl
  | createSet set task =>
    simp only [MachReceivers.after]
    split
    · exact kept
    · exact kept.same (queues_createSet _ _) rfl rfl rfl
  | insertMember set member =>
    simp only [MachReceivers.after]
    split
    · split
      · exact kept.same (queues_insertMember _ _ _) rfl rfl rfl
      · exact kept
    · exact kept
  | extractMember set member => exact kept.same (queues_extractMember _ _ _) rfl rfl rfl
  | removeFromAll member => exact kept.same (queues_removeMemberFromAll _ _) rfl rfl rfl
  | eraseSet set => exact kept.same (queues_eraseSet _ _) rfl rfl rfl
  | clearReceiver object =>
    simp only [MachReceivers.after]
    split
    · exact kept
    · refine kept.move object (queues_removeMemberFromAll _ _) (fun other different => ?_)
        fun port found => ?_
      · exact (Table.lookup_insert_eq _ _ _ _).trans (if_neg different)
      · have new := (Table.lookup_insert_eq _ _ _ _).symm.trans found
        rw [if_pos rfl] at new
        cases new
        rfl
  | landReceiver object task =>
    simp only [MachReceivers.after]
    split
    · rename_i number here
      refine ⟨kept.indexed, ⟨kept.recorded.line, ?_⟩, kept.held, nofun⟩
      intro other port found
      have new := (Table.lookup_insert_eq _ _ _ _).symm.trans found
      split at new
      · cases new
        subst other
        have before := kept.recorded.numbered object _ here
        exact ⟨before.numbers, before.next⟩
      · exact kept.recorded.numbered other port new
    · exact kept
  | destroyPort object notifications =>
    simp only [MachReceivers.after]
    split
    · exact kept.destroyPort object notifications
    · exact kept
  | enqueue send => exact (postRule_kept longContext none).post kept send
  | receive task processor call copyout slot =>
    exact kept.beginReceive task processor call copyout slot
  | deliver task processor copyout slot => exact kept.deliver task processor copyout slot
  | cancel task processor notifications =>
    apply Kept.posts
    apply kept.retire _ (kept.indexed.cancel task processor)
    intro sequence ticket found _
    unfold MachReceiveWaitQueue.cancel at found
    rw [MachReceiveWaitQueue.find_foldl_retire] at found
    split at found
    · contradiction
    · exact found
  | advance ticks => exact kept.same rfl rfl rfl rfl

theorem kept_empty : Kept none ({} : MachReceivers Content) := by
  refine ⟨MachReceiveWaitQueue.indexed_empty, ⟨fun object => ⟨rfl, Nat.le_refl _⟩, nofun⟩, nofun,
    nofun⟩

end MachReceivers
end ILEmu
