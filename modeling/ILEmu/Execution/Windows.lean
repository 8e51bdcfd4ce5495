import ILEmu.Execution.Accounting
import Mathlib.Algebra.Order.BigOperators.Group.Finset

/-! The operations of the control thread keep the account, and a window ends with its channels
free. -/
namespace ILEmu.Execution.GuestExecutionCoordinator
open Foundation

variable {workers : Nat} {coordinator : GuestExecutionCoordinator workers}

theorem Sound.leave (sound : Sound coordinator) {index : Fin workers}
    {after : GuestExecutionCoordinator workers} (done : coordinator.leave index = some after) :
    Sound after := by
  unfold GuestExecutionCoordinator.leave at done
  dsimp only at done
  split at done
  · rename_i ends
    obtain rfl := Option.some.inj done
    -- nothing but the worker's own end changes
    have view : ∀ i, ∃ exited, (coordinator.setChannel index
        { coordinator.channels index with exited := true }).channels i =
          { coordinator.channels i with exited } ∧
          (exited = true → (coordinator.channels i).exited = true ∨ i = index) := by
      intro i
      by_cases same : i = index
      · rw [same, setChannel_self]
        exact ⟨true, rfl, fun _ => .inr rfl⟩
      · rw [setChannel_other same]
        exact ⟨(coordinator.channels i).exited, rfl, .inl⟩
    have request : ∀ i, ((coordinator.setChannel index
        { coordinator.channels index with exited := true }).channels i).request =
          (coordinator.channels i).request := by
      intro i
      obtain ⟨_, same, _⟩ := view i
      rw [same]
    have state : ∀ i, ((coordinator.setChannel index
        { coordinator.channels index with exited := true }).channels i).state =
          (coordinator.channels i).state := by
      intro i
      obtain ⟨_, same, _⟩ := view i
      rw [same]
    have ticket : ∀ i, ((coordinator.setChannel index
        { coordinator.channels index with exited := true }).channels i).ticket =
          (coordinator.channels i).ticket := by
      intro i
      obtain ⟨_, same, _⟩ := view i
      rw [same]
    constructor
    · unfold busy
      simp only [state]
      exact sound.outstanding
    · simp only [request, state]
      exact sound.request
    · simp only [request]
      exact sound.cpus
    · simp only [request, state, ticket]
      exact sound.number
    · simp only [state, ticket]
      exact sound.stages
    · simp only [state, ticket]
      exact sound.apart
    · simp only [state, ticket]
      exact sound.settled
    · exact sound.fresh
    · exact sound.returned
    · intro i
      rw [state]
      obtain ⟨_, same, before⟩ := view i
      rw [same]
      intro exited
      rcases before exited with earlier | rfl
      · exact sound.exited i earlier
      · exact ends
  · contradiction

/-! ### A submission -/

theorem cpuOutstanding_eq_false {cpu : Option Nat} : coordinator.cpuOutstanding cpu = false ↔
    ∀ i request, (coordinator.channels i).request = some request → request.cpu ≠ cpu := by
  unfold cpuOutstanding
  rw [List.any_eq_false]
  constructor
  · intro none i request found same
    refine none i (List.mem_finRange i) ?_
    rw [found, Option.any_some]
    exact decide_eq_true same
  · intro apart i _ outstanding
    cases found : (coordinator.channels i).request with
    | none =>
      rw [found] at outstanding
      contradiction
    | some request =>
      rw [found, Option.any_some] at outstanding
      exact apart i request found (of_decide_eq_true outstanding)

theorem Sound.submit (sound : Sound coordinator) {request : GuestExecutionRequest}
    {after : GuestExecutionCoordinator workers} (done : coordinator.submit request = .ok after) :
    Sound after := by
  unfold GuestExecutionCoordinator.submit at done
  split at done
  · rename_i slot
    split at done
    · contradiction
    · rename_i running
      dsimp only at done
      split at done
      · contradiction
      · rename_i idle
        rw [not_not] at idle
        split at done
        · contradiction
        · rename_i apart
          have cpu := cpuOutstanding_eq_false.mp (Bool.eq_false_iff.mpr apart)
          obtain rfl := Except.ok.inj done
          generalize (⟨request.executionSlot, slot.2⟩ : Fin workers) = index at idle ⊢
          exact sound.enter idle (Bool.eq_false_iff.mpr running) cpu rfl rfl rfl rfl
  · contradiction

/-! ### Collecting -/

theorem firstCompleted_completed {index : Fin workers}
    (first : coordinator.firstCompleted = some index) :
    (coordinator.channels index).state = .completed := by
  have found := List.find?_some first
  exact of_decide_eq_true found

theorem Sound.collectAll (sound : Sound coordinator) : Sound coordinator.collectAll := by
  unfold GuestExecutionCoordinator.collectAll
  refine List.foldlRecOn (motive := Sound) _ _ sound ?_
  intro coordinator sound index _
  split
  · rename_i completed
    exact sound.collect completed
  · exact sound

theorem Sound.wait (sound : Sound coordinator) (finished : Option GuestExecutionRequest → Caller)
    (blocked : Caller) : Sound (coordinator.wait finished blocked) := by
  unfold GuestExecutionCoordinator.wait
  split
  · exact sound.andThen _
  · split
    · exact sound.andThen _
    · rename_i first
      exact (sound.collect (firstCompleted_completed first)).andThen _

theorem Sound.run (sound : Sound coordinator) (requests : List (Option GuestExecutionRequest))
    (service : Bool) : Sound (coordinator.run requests service) := by
  unfold GuestExecutionCoordinator.run
  split
  · exact sound.andThen _
  · split
    · exact sound.andThen _
    · split
      · exact sound.andThen _
      · exact sound.andThen _

theorem Sound.settle (sound : Sound coordinator) (requests : List (Option GuestExecutionRequest))
    (service : Bool) : Sound (coordinator.settle requests service) :=
  sound.collectAll.andThen _

/-- The request of a completed channel, once its channel is collected. -/
theorem Sound.collected (sound : Sound coordinator) {f : Option GuestExecutionRequest → Caller}
    {after : GuestExecutionCoordinator workers}
    (done : coordinator.firstCompleted.map (fun index => (coordinator.collect index).andThen
      (f (coordinator.channels index).request)) = some after) :
    Sound after ∧ ∃ request, after.caller = f (some request) := by
  obtain ⟨index, first, rfl⟩ := Option.map_eq_some_iff.mp done
  have completed := firstCompleted_completed first
  refine ⟨(sound.collect completed).andThen _, ?_⟩
  cases held : (coordinator.channels index).request with
  | none =>
    rw [(sound.request index).mp held] at completed
    contradiction
  | some request => exact ⟨request, rfl⟩

/-! ### The end of a window -/

/-- A window that was not refused for those before it has left no request outstanding. -/
def Finished (coordinator : GuestExecutionCoordinator workers) : Prop :=
  ∀ requests failure, coordinator.caller = .done (.ran requests failure) →
    failure ≠ some .overlap → coordinator.outstanding = 0

theorem finished_of_caller {caller : Caller} (at_ : coordinator.caller = caller)
    (elsewhere : ∀ requests failure, caller ≠ .done (.ran requests failure)) :
    Finished coordinator := by
  intro requests failure same
  rw [at_] at same
  exact absurd same (elsewhere requests failure)

theorem finished_of_outstanding (none : coordinator.outstanding = 0) : Finished coordinator :=
  fun _ _ _ _ => none

theorem run_finished (coordinator : GuestExecutionCoordinator workers)
    (requests : List (Option GuestExecutionRequest)) (service : Bool) :
    Finished (coordinator.run requests service) := by
  unfold GuestExecutionCoordinator.run
  split
  · intro _ failure same ne
    cases same
    contradiction
  · rename_i none
    rw [not_not] at none
    split
    · exact finished_of_outstanding none
    · split
      · exact finished_of_outstanding none
      · exact finished_of_caller rfl nofun

theorem settle_finished (coordinator : GuestExecutionCoordinator workers)
    (requests : List (Option GuestExecutionRequest)) (service : Bool) :
    Finished (coordinator.settle requests service) := by
  unfold GuestExecutionCoordinator.settle
  dsimp only
  split
  · exact finished_of_caller rfl nofun
  · exact finished_of_caller rfl nofun

theorem wait_finished (sound : Sound coordinator)
    {finished : Option GuestExecutionRequest → Caller} {blocked : Caller}
    (elsewhere : ∀ request requests failure,
      finished (some request) ≠ .done (.ran requests failure))
    (waits : ∀ requests failure, blocked ≠ .done (.ran requests failure)) :
    Finished (coordinator.wait finished blocked) := by
  unfold GuestExecutionCoordinator.wait
  split
  · rename_i none
    exact finished_of_outstanding none
  · split
    · exact finished_of_caller rfl waits
    · rename_i index first
      cases held : (coordinator.channels index).request with
      | none =>
        have completed := firstCompleted_completed first
        rw [(sound.request index).mp held] at completed
        contradiction
      | some request => exact finished_of_caller rfl (elsewhere request)

theorem advance_kept (sound : Sound coordinator) {throws : Bool}
    {after : GuestExecutionCoordinator workers} (done : coordinator.advance throws = some after) :
    Sound after ∧ Finished after := by
  unfold advance at done
  split at done
  case h_1 => contradiction
  case h_2 =>
    obtain ⟨kept, request, same⟩ := sound.collected (f := fun request =>
      .done (.waited request)) done
    exact ⟨kept, finished_of_caller same nofun⟩
  case h_3 =>
    obtain rfl := Option.some.inj done
    exact ⟨sound.andThen _, finished_of_caller rfl nofun⟩
  case h_4 =>
    split at done
    · rename_i accepted
      obtain rfl := Option.some.inj done
      exact ⟨(sound.submit accepted).andThen _, finished_of_caller rfl nofun⟩
    · obtain rfl := Option.some.inj done
      exact ⟨sound.andThen _, finished_of_caller rfl nofun⟩
  case h_5 =>
    split at done
    · rename_i none
      obtain rfl := Option.some.inj done
      exact ⟨sound.andThen _, finished_of_outstanding none⟩
    · split at done
      · obtain rfl := Option.some.inj done
        exact ⟨sound.settle _ _, settle_finished _ _ _⟩
      · obtain rfl := Option.some.inj done
        exact ⟨sound.andThen _, finished_of_caller rfl nofun⟩
  case h_6 =>
    split at done
    · obtain rfl := Option.some.inj done
      exact ⟨sound.settle _ _, settle_finished _ _ _⟩
    · contradiction
  case h_7 =>
    split at done
    · obtain rfl := Option.some.inj done
      exact ⟨sound.andThen _, finished_of_caller rfl nofun⟩
    · obtain rfl := Option.some.inj done
      exact ⟨sound.andThen _, finished_of_caller rfl nofun⟩
  case h_8 =>
    obtain rfl := Option.some.inj done
    exact ⟨sound.wait _ _, wait_finished sound nofun nofun⟩
  case h_9 requests failure _ =>
    obtain ⟨kept, request, same⟩ := sound.collected (f := drained requests failure) done
    exact ⟨kept, finished_of_caller same nofun⟩

/-! ### Every step -/

/-- The worker's own steps leave the control thread where it is. -/
theorem Finished.frame (finished : Finished coordinator)
    {after : GuestExecutionCoordinator workers} (caller : after.caller = coordinator.caller)
    (outstanding : after.outstanding = coordinator.outstanding) : Finished after := by
  intro requests failure same apart
  rw [caller] at same
  rw [outstanding]
  exact finished requests failure same apart

theorem take_finished {index : Fin workers} {after : GuestExecutionCoordinator workers}
    (finished : Finished coordinator) (done : coordinator.take index = some after) :
    Finished after := by
  unfold GuestExecutionCoordinator.take at done
  dsimp only at done
  split at done
  · obtain rfl := Option.some.inj done
    exact finished.frame rfl rfl
  · contradiction

theorem complete_finished {index : Fin workers} {after : GuestExecutionCoordinator workers}
    (finished : Finished coordinator) (done : coordinator.complete index = some after) :
    Finished after := by
  unfold GuestExecutionCoordinator.complete at done
  dsimp only at done
  split at done
  · obtain rfl := Option.some.inj done
    exact finished.frame rfl rfl
  · contradiction

theorem leave_finished {index : Fin workers} {after : GuestExecutionCoordinator workers}
    (finished : Finished coordinator) (done : coordinator.leave index = some after) :
    Finished after := by
  unfold GuestExecutionCoordinator.leave at done
  dsimp only at done
  split at done
  · obtain rfl := Option.some.inj done
    exact finished.frame rfl rfl
  · contradiction

theorem perform_kept (sound : Sound coordinator) (finished : Finished coordinator)
    {action : Action workers} {after : GuestExecutionCoordinator workers}
    (done : coordinator.perform action = some after) : Sound after ∧ Finished after := by
  cases action with
  | submit request =>
    simp only [perform] at done
    split at done
    · split at done
      · rename_i accepted
        obtain rfl := Option.some.inj done
        exact ⟨(sound.submit accepted).andThen _, finished_of_caller rfl nofun⟩
      · obtain rfl := Option.some.inj done
        exact ⟨sound.andThen _, finished_of_caller rfl nofun⟩
    · contradiction
  | wait =>
    simp only [perform] at done
    split at done
    · obtain rfl := Option.some.inj done
      exact ⟨sound.wait _ _, wait_finished sound nofun nofun⟩
    · contradiction
  | run requests service =>
    simp only [perform] at done
    split at done
    · obtain rfl := Option.some.inj done
      exact ⟨sound.run requests service, run_finished coordinator requests service⟩
    · contradiction
  | advance throws => exact advance_kept sound done
  | pollHostCompletions =>
    simp only [perform] at done
    split at done
    · obtain rfl := Option.some.inj done
      exact ⟨{ sound with }, finished.frame rfl rfl⟩
    · contradiction
  | armHostCompletions pending =>
    simp only [perform] at done
    split at done
    · obtain rfl := Option.some.inj done
      exact ⟨{ sound with }, finished.frame rfl rfl⟩
    · contradiction
  | notifyHostCompletion =>
    obtain rfl := Option.some.inj done
    exact ⟨{ sound with }, finished.frame rfl rfl⟩
  | stop =>
    obtain rfl := Option.some.inj done
    refine ⟨{ sound with exited := ?_ }, finished.frame rfl rfl⟩
    exact fun i exited => ⟨rfl, (sound.exited i exited).2⟩
  | take index => exact ⟨sound.take done, take_finished finished done⟩
  | complete index => exact ⟨sound.complete done, complete_finished finished done⟩
  | leave index => exact ⟨sound.leave done, leave_finished finished done⟩

theorem next_kept (coordinator : GuestExecutionCoordinator workers) (action : Action workers)
    (kept : Sound coordinator ∧ Finished coordinator) :
    Sound (coordinator.next action) ∧ Finished (coordinator.next action) := by
  unfold next
  cases done : coordinator.perform action with
  | none => exact kept
  | some after => exact perform_kept kept.1 kept.2 done

/-! ### Progress of the workers -/

def remaining : State → Nat
  | .submitted => 2
  | .running => 1
  | .completed | .idle => 0

/-- The steps that the workers have before them. -/
def pending (coordinator : GuestExecutionCoordinator workers) : Nat :=
  ∑ index, remaining (coordinator.channels index).state

theorem pending_lt (index : Fin workers) (channel : Channel)
    (less : remaining channel.state < remaining (coordinator.channels index).state) :
    (coordinator.setChannel index channel).pending < coordinator.pending := by
  refine Finset.sum_lt_sum (fun other _ => ?_) ⟨index, Finset.mem_univ _, ?_⟩
  · by_cases same : other = index
    · rw [same, setChannel_self]
      exact less.le
    · rw [setChannel_other same]
  · rw [setChannel_self]
    exact less

/-- A request that is outstanding is completed, or its worker can go on. -/
theorem Sound.progress (sound : Sound coordinator) (outstanding : coordinator.outstanding ≠ 0) :
    coordinator.firstCompleted.isSome = true ∨ ∃ index after,
      (coordinator.take index = some after ∨ coordinator.complete index = some after) ∧
        after.pending < coordinator.pending := by
  rw [sound.outstanding, Finset.card_ne_zero] at outstanding
  obtain ⟨index, busy⟩ := outstanding
  rw [mem_busy] at busy
  cases state : (coordinator.channels index).state with
  | idle => exact absurd state busy
  | completed =>
    left
    unfold firstCompleted
    rw [List.find?_isSome]
    exact ⟨index, List.mem_finRange index, decide_eq_true state⟩
  | submitted =>
    have alive : ¬(coordinator.channels index).exited = true :=
      fun exited => (sound.exited index exited).2.1 state
    refine .inr ⟨index, _, .inl (if_pos ⟨alive, state⟩), ?_⟩
    refine pending_lt index { coordinator.channels index with state := .running } ?_
    rw [state]
    exact Nat.one_lt_two
  | running =>
    refine .inr ⟨index, _, .inr (if_pos state), ?_⟩
    refine pending_lt index { coordinator.channels index with state := .completed } ?_
    rw [state]
    exact Nat.zero_lt_one

/-! ### Every run -/

/-- What the caller can rely on in every state that the threads reach. -/
structure Faithful (coordinator : GuestExecutionCoordinator workers) : Prop where
  outstanding : coordinator.outstanding =
    (Finset.univ.filter fun index => (coordinator.channels index).state ≠ .idle).card
  cpus : ∀ i j first second, (coordinator.channels i).request = some first →
    (coordinator.channels j).request = some second → first.cpu = second.cpu → i = j
  /-- A submission has been executed once and returned once, or it is in one channel, executed as
  often as the state of the channel says and not returned. -/
  accounted : ∀ ticket < coordinator.ledger.submissions.length,
    (coordinator.ledger.tally ticket = (1, 1, 1) ∧
      ∀ i, (coordinator.channels i).state ≠ .idle → (coordinator.channels i).ticket ≠ ticket) ∨
    ∃ i, (coordinator.channels i).state ≠ .idle ∧ (coordinator.channels i).ticket = ticket ∧
      (coordinator.channels i).request = coordinator.ledger.submissions[ticket]? ∧
      coordinator.ledger.tally ticket = stage (coordinator.channels i).state ∧
      ∀ j, (coordinator.channels j).state ≠ .idle → (coordinator.channels j).ticket = ticket → j = i
  /-- What is returned is what was submitted. -/
  returned : ∀ entry ∈ coordinator.ledger.returned, ∃ request,
    entry.2 = some request ∧ coordinator.ledger.submissions[entry.1]? = some request
  progress : coordinator.outstanding ≠ 0 →
    coordinator.firstCompleted.isSome = true ∨ ∃ index after,
      (coordinator.take index = some after ∨ coordinator.complete index = some after) ∧
        after.pending < coordinator.pending
  /-- A window that was not refused for the requests before it has left every channel. -/
  window : ∀ requests failure, coordinator.caller = .done (.ran requests failure) →
    failure ≠ some .overlap → ∀ i, (coordinator.channels i).request = none

theorem Sound.faithful (sound : Sound coordinator) (finished : Finished coordinator) :
    Faithful coordinator where
  outstanding := sound.outstanding
  cpus := sound.cpus
  accounted := by
    intro ticket bound
    by_cases held : ∃ i, (coordinator.channels i).state ≠ .idle ∧
        (coordinator.channels i).ticket = ticket
    · obtain ⟨i, busy, rfl⟩ := held
      refine .inr ⟨i, busy, rfl, (sound.number i busy).symm, sound.stages i busy, ?_⟩
      exact fun j busy' same => sound.apart j i busy' busy same
    · have free : ∀ i, (coordinator.channels i).state ≠ .idle →
          (coordinator.channels i).ticket ≠ ticket :=
        fun i busy same => held ⟨i, busy, same⟩
      exact .inl ⟨sound.settled ticket bound free, free⟩
  returned := sound.returned
  progress := sound.progress
  window := by
    intro requests failure same apart i
    have none := finished requests failure same apart
    rw [sound.outstanding, Finset.card_eq_zero] at none
    rw [sound.request]
    by_contra busy
    have member := mem_busy.mpr busy
    rw [none] at member
    exact absurd member (Finset.notMem_empty i)

def firstRequest : GuestExecutionRequest where
  address := 0x1000
  cpu := some 0x2000
  executionSlot := 0

end ILEmu.Execution.GuestExecutionCoordinator
