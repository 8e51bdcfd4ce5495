import ILEmu.Foundation.FirstEntries
import ILEmu.Scheduler.GuestDispatch

/-! The turns of the dispatch policy: a thread at the head of a queue is passed over a bounded
number of times before it makes progress, whatever the hints are. -/
namespace ILEmu
open Foundation

namespace GuestDispatchPolicy

/-- A call on the policy, against the present state of a scheduler of so many processors. -/
inductive Event (processors : Nat) where
  | decide (scheduler : XnuScheduler) (sized : scheduler.processorCount = processors)
      (observation : GuestDispatchObservation) (hostContinuation : Option XnuThreadId)
  | observeExecution (processor : Nat) (thread : XnuThreadId) (ticksConsumed : Nat)

variable {processors : Nat}

def step (policy : GuestDispatchPolicy) : Event processors → GuestDispatchPolicy
  | .decide scheduler _ observation hostContinuation =>
    (decide scheduler observation policy hostContinuation).2
  | .observeExecution _ thread ticksConsumed => policy.observeExecution thread ticksConsumed

def run (policy : GuestDispatchPolicy) (events : List (Event processors)) : GuestDispatchPolicy :=
  events.foldl step policy

/-- The decision finds the thread at the head of the processor and prefers another one. -/
def passes (head : XnuThreadId) (processor : Nat) (scheduler : XnuScheduler) :
    Checked GuestDispatchDecision → Bool
  | .error _ => false
  | .ok decision =>
    decision.preferredThread.any (· ≠ head) && !isGuestControl decision.reason &&
      processorOf scheduler decision.preferredThread = processor &&
      (scheduler.peekNextForProcessor processor).toOption = some (some head)

def Event.passes (head : XnuThreadId) (processor : Nat) (policy : GuestDispatchPolicy) :
    Event processors → Bool
  | .decide scheduler _ observation hostContinuation =>
    GuestDispatchPolicy.passes head processor scheduler
      (GuestDispatchPolicy.decide scheduler observation policy hostContinuation).1
  | .observeExecution .. => false

/-- How often the thread is passed over in a run. -/
def passesIn (head : XnuThreadId) (processor : Nat) :
    GuestDispatchPolicy → List (Event processors) → Nat
  | _, [] => 0
  | policy, event :: rest =>
    (event.passes head processor policy).toNat + passesIn head processor (policy.step event) rest

/-- The thread makes progress, or it is seen in a guest wait or retired. -/
def Event.serves (thread : XnuThreadId) : Event processors → Bool
  | .decide scheduler _ _ _ => isAway scheduler thread
  | .observeExecution _ progressed ticksConsumed => progressed = thread && ticksConsumed ≠ 0

/-! ### The turns of one processor -/

/-- How often the turns have let others pass a thread. -/
def debt (head : XnuThreadId) (turns : List PreferenceTurn) : Nat :=
  worthOf (·.ordinaryHead) (·.bypasses) head turns

def Bounded (turns : List PreferenceTurn) : Prop :=
  ∀ turn ∈ turns, turn.bypasses ≤ preferredProcessBurstLimit

theorem debt_le {turns : List PreferenceTurn} (bounded : Bounded turns) (head : XnuThreadId) :
    debt head turns ≤ preferredProcessBurstLimit := by
  unfold debt worthOf
  cases found : turns.find? (·.ordinaryHead = head) with
  | none => exact Nat.zero_le _
  | some turn => exact bounded turn (List.mem_of_find?_eq_some found)

section
variable {period : ResponsePeriod} {scheduler : XnuScheduler}
  {observation : GuestDispatchObservation} {head thread : XnuThreadId}
  {turns : List PreferenceTurn}

theorem openTurn_bounded (bounded : Bounded turns) :
    Bounded (openTurn period scheduler observation head turns) := by
  unfold openTurn
  split_ifs
  · exact bounded
  · intro turn member
    rcases List.mem_append.mp member with old | new
    · exact bounded turn (List.mem_of_mem_filter old)
    · rw [List.mem_singleton.mp new]
      exact Nat.zero_le _

theorem debt_openTurn (present : isAway scheduler thread = false) :
    debt thread (openTurn period scheduler observation head turns) = debt thread turns := by
  unfold openTurn debt
  split_ifs with opened
  · rfl
  · have absent : ∀ turn ∈ turns, turn.ordinaryHead ≠ head := by simpa using opened
    rw [worthOf_append]
    · rw [worthOf_filter]
      · simp
      · intro turn _ same
        rw [same, present]
        rfl
    · exact fun turn member => absent turn (List.mem_of_mem_filter member)

theorem charge_bounded {turn : PreferenceTurn} (bounded : Bounded turns)
    (found : turns.find? (·.ordinaryHead = head) = some turn)
    (unspent : isSpent observation turn = false) : Bounded (charge head turns) := by
  intro other member
  rcases mem_modify_findIdx found member with old | rfl
  · exact bounded other old
  · unfold isSpent at unspent
    simp only [Bool.or_eq_false_iff, decide_eq_false_iff_not] at unspent
    dsimp only
    omega

theorem debt_charge {turn : PreferenceTurn}
    (found : turns.find? (·.ordinaryHead = head) = some turn) :
    debt thread (charge head turns) = debt thread turns + if thread = head then 1 else 0 := by
  have keeps : ∀ turn : PreferenceTurn,
      { turn with bypasses := turn.bypasses + 1 }.ordinaryHead = turn.ordinaryHead := fun _ => rfl
  exact worthOf_modify keeps (fun _ => rfl) found thread

theorem find?_openTurn (period : ResponsePeriod) (scheduler : XnuScheduler)
    (observation : GuestDispatchObservation) (head : XnuThreadId) (turns : List PreferenceTurn) :
    ∃ turn, (openTurn period scheduler observation head turns).find? (·.ordinaryHead = head) =
      some turn := by
  rw [← Option.isSome_iff_exists, List.find?_isSome]
  unfold openTurn
  split_ifs with opened
  · simpa using opened
  · exact ⟨_, List.mem_append_right _ (List.mem_singleton_self _), by simp⟩

/-- A preference that passes over the head is charged to its turn, or it is not kept. -/
theorem passOver_cases {decision decided : GuestDispatchDecision} {after : List PreferenceTurn}
    (passed : passOver period scheduler observation head decision turns = (decided, after)) :
    (decided.preferredThread = none ∧
      (after = turns ∨ after = openTurn period scheduler observation head turns)) ∨
    ∃ turn, (openTurn period scheduler observation head turns).find? (·.ordinaryHead = head) =
        some turn ∧ isSpent observation turn = false ∧ decided = decision ∧
      decision.preferredThread.isSome ∧
      after = charge head (openTurn period scheduler observation head turns) := by
  unfold passOver at passed
  by_cases nothing : decision.preferredThread.isNone ∧ ¬turns.any (·.ordinaryHead = head)
  · rw [if_pos nothing] at passed
    obtain ⟨rfl, rfl⟩ := Prod.mk.inj passed
    exact Or.inl ⟨Option.isNone_iff_eq_none.mp nothing.1, Or.inl rfl⟩
  · obtain ⟨turn, found⟩ := find?_openTurn period scheduler observation head turns
    rw [if_neg nothing] at passed
    simp only [found] at passed
    by_cases spent : isSpent observation turn = true
    · rw [if_pos spent] at passed
      obtain ⟨rfl, rfl⟩ := Prod.mk.inj passed
      exact Or.inl ⟨rfl, Or.inr rfl⟩
    · rw [if_neg spent] at passed
      by_cases preferred : decision.preferredThread.isSome
      · rw [if_pos preferred] at passed
        obtain ⟨rfl, rfl⟩ := Prod.mk.inj passed
        exact Or.inr ⟨turn, found, by simpa using spent, rfl, preferred, rfl⟩
      · rw [if_neg preferred] at passed
        obtain ⟨rfl, rfl⟩ := Prod.mk.inj passed
        exact Or.inl ⟨by simpa using preferred, Or.inr rfl⟩

theorem passOver_charges {decision decided : GuestDispatchDecision} {after : List PreferenceTurn}
    (passed : passOver period scheduler observation head decision turns = (decided, after))
    (present : isAway scheduler thread = false) :
    debt thread after = debt thread turns +
      if thread = head ∧ decided.preferredThread.isSome then 1 else 0 := by
  have opened : debt thread (openTurn period scheduler observation head turns) =
      debt thread turns := debt_openTurn present
  rcases passOver_cases passed with ⟨nothing, rfl | rfl⟩ | ⟨turn, found, -, rfl, preferred, rfl⟩
  · simp [nothing]
  · simp [nothing, opened]
  · rw [debt_charge found, opened]
    simp [preferred]

theorem passOver_bounded {decision decided : GuestDispatchDecision} {after : List PreferenceTurn}
    (passed : passOver period scheduler observation head decision turns = (decided, after))
    (bounded : Bounded turns) : Bounded after := by
  have opened : Bounded (openTurn period scheduler observation head turns) :=
    openTurn_bounded bounded
  rcases passOver_cases passed with ⟨-, rfl | rfl⟩ | ⟨turn, found, unspent, -, -, rfl⟩
  · exact bounded
  · exact opened
  · exact charge_bounded opened found unspent

theorem passOver_reason {decision decided : GuestDispatchDecision} {after : List PreferenceTurn}
    (passed : passOver period scheduler observation head decision turns = (decided, after))
    (preferred : decided.preferredThread.isSome) : decided = decision := by
  rcases passOver_cases passed with ⟨nothing, -⟩ | ⟨turn, -, -, same, -, -⟩
  · rw [nothing] at preferred
    exact Bool.noConfusion preferred
  · exact same

end

/-! ### Decisions -/

/-- The turns of a processor. -/
def turnsOf (policy : GuestDispatchPolicy) (processor : Nat) : List PreferenceTurn :=
  policy.preferenceTurns.getD processor []

/-- No more processors than the scheduler has, and no budget exceeded. -/
structure Owed (processors : Nat) (policy : GuestDispatchPolicy) : Prop where
  sized : policy.preferenceTurns.length ≤ processors
  bounded : ∀ turns ∈ policy.preferenceTurns, Bounded turns

theorem Owed.turnsOf {policy : GuestDispatchPolicy} (owed : Owed processors policy)
    (processor : Nat) : Bounded (policy.turnsOf processor) := by
  unfold GuestDispatchPolicy.turnsOf
  rw [List.getD_eq_getElem?_getD]
  cases found : policy.preferenceTurns[processor]? with
  | none => exact fun turn member => absurd member List.not_mem_nil
  | some turns => exact owed.bounded turns (List.mem_of_getElem? found)

theorem getD_resize {count : Nat} {turns : List (List PreferenceTurn)}
    (fits : turns.length ≤ count) (processor : Nat) :
    (resize count turns).getD processor [] = turns.getD processor [] := by
  unfold resize
  rw [List.take_of_length_le fits, List.getD_eq_getElem?_getD, List.getD_eq_getElem?_getD]
  by_cases inside : processor < turns.length
  · rw [List.getElem?_append_left inside]
  · rw [List.getElem?_append_right (by omega), List.getElem?_replicate,
      List.getElem?_eq_none (by omega)]
    split_ifs
    · rfl
    · rfl

theorem length_resize (count : Nat) (turns : List (List PreferenceTurn)) :
    (resize count turns).length = count := by
  unfold resize
  rw [List.length_append, List.length_take, List.length_replicate]
  omega

theorem preferenceTurns_finish (policy : GuestDispatchPolicy) (decision : GuestDispatchDecision) :
    (finish policy decision).preferenceTurns = policy.preferenceTurns := by
  unfold finish
  split
  · rfl
  · rfl

section
variable {scheduler : XnuScheduler} {observation : GuestDispatchObservation}
  {policy : GuestDispatchPolicy} {thread : XnuThreadId}

theorem head_processor {processor : Nat} {head : XnuThreadId}
    (peeked : scheduler.peekNextForProcessor processor = .ok (some head)) :
    processor < scheduler.processorCount := by
  by_contra outside
  unfold XnuScheduler.peekNextForProcessor XnuScheduler.selectedRunQueue at peeked
  rw [List.getElem?_eq_none (by unfold XnuScheduler.processorCount at outside; omega)] at peeked
  exact absurd peeked (by simp [Bind.bind, Except.bind, pure, Except.pure])

theorem passes_iff {processor : Nat} {decision : GuestDispatchDecision} :
    passes thread processor scheduler (.ok decision) = true ↔
      (∃ preferred, decision.preferredThread = some preferred ∧ preferred ≠ thread) ∧
        isGuestControl decision.reason = false ∧
        processorOf scheduler decision.preferredThread = processor ∧
        scheduler.peekNextForProcessor processor = .ok (some thread) := by
  unfold passes
  cases peeked : scheduler.peekNextForProcessor processor with
  | error fault => simp [Except.toOption]
  | ok head => simp [Except.toOption, Option.any_eq_true, and_assoc]

theorem turnsOf_set {turns : List (List PreferenceTurn)} {place : Nat}
    (inside : place < turns.length) (new : List PreferenceTurn) (processor : Nat) :
    (turns.set place new).getD processor [] =
      if processor = place then new else turns.getD processor [] := by
  rw [List.getD_eq_getElem?_getD, List.getD_eq_getElem?_getD, List.getElem?_set]
  by_cases same : place = processor
  · subst same
    simp [inside]
  · rw [if_neg same, if_neg (Ne.symm same)]

/-- What a settled decision does to the turns. -/
theorem settle_cases (owed : Owed processors policy)
    (sized : scheduler.processorCount = processors) {decision : GuestDispatchDecision}
    {decided : Checked GuestDispatchDecision} {after : GuestDispatchPolicy}
    (settled : settle scheduler observation policy decision = (decided, after)) :
    (after.preferenceTurns = resize processors policy.preferenceTurns ∧
      ∀ thread processor, passes thread processor scheduler decided = false) ∨
    ∃ head result turns,
      scheduler.peekNextForProcessor (processorOf scheduler decision.preferredThread) =
        .ok (some head) ∧
      isGuestControl decision.reason = false ∧ decision.preferredThread ≠ some head ∧
      passOver policy.responsePeriod scheduler observation head decision
        (policy.turnsOf (processorOf scheduler decision.preferredThread)) = (result, turns) ∧
      decided = .ok result ∧
      after.preferenceTurns = (resize processors policy.preferenceTurns).set
        (processorOf scheduler decision.preferredThread) turns := by
  unfold settle at settled
  rw [sized] at settled
  dsimp only at settled
  cases peeked : scheduler.peekNextForProcessor
      (processorOf scheduler decision.preferredThread) with
  | error fault =>
    rw [peeked] at settled
    obtain ⟨rfl, rfl⟩ := Prod.mk.inj settled
    exact Or.inl ⟨rfl, fun _ _ => rfl⟩
  | ok found =>
    rw [peeked] at settled
    cases found with
    | none =>
      obtain ⟨rfl, rfl⟩ := Prod.mk.inj settled
      refine Or.inl ⟨preferenceTurns_finish _ _, fun thread processor => ?_⟩
      rw [Bool.eq_false_iff]
      intro passed
      obtain ⟨-, -, rfl, here⟩ := passes_iff.mp passed
      rw [peeked] at here
      exact absurd here (by simp)
    | some head =>
      dsimp only at settled
      by_cases kept : isGuestControl decision.reason ∨ decision.preferredThread = some head
      · rw [if_pos kept] at settled
        obtain ⟨rfl, rfl⟩ := Prod.mk.inj settled
        refine Or.inl ⟨preferenceTurns_finish _ _, fun thread processor => ?_⟩
        rw [Bool.eq_false_iff]
        intro passed
        obtain ⟨⟨preferred, which, other⟩, free, rfl, here⟩ := passes_iff.mp passed
        rw [peeked] at here
        rcases kept with control | same
        · rw [free] at control
          exact Bool.noConfusion control
        · rw [which] at same
          refine other ?_
          simp_all
      · rw [if_neg kept, getD_resize owed.sized] at settled
        push Not at kept
        obtain ⟨rfl, rfl⟩ := Prod.mk.inj settled
        exact Or.inr ⟨head, _, _, rfl, by simpa using kept.1, kept.2, rfl, rfl,
          preferenceTurns_finish _ _⟩

/-- A decision charges a thread that is there for nothing else than passing over it. -/
theorem settle_charges (owed : Owed processors policy)
    (sized : scheduler.processorCount = processors) {decision : GuestDispatchDecision}
    {decided : Checked GuestDispatchDecision} {after : GuestDispatchPolicy}
    (settled : settle scheduler observation policy decision = (decided, after))
    (present : isAway scheduler thread = false) (processor : Nat) :
    debt thread (after.turnsOf processor) =
      debt thread (policy.turnsOf processor) + (passes thread processor scheduler decided).toNat := by
  unfold turnsOf
  rcases settle_cases owed sized settled with
    ⟨turned, unpassed⟩ | ⟨head, result, turns, peeked, free, other, passed, rfl, turned⟩
  · rw [turned, getD_resize owed.sized, unpassed, Bool.toNat_false, Nat.add_zero]
  · have inside := head_processor peeked
    have charged := passOver_charges passed present
    have counted : passes thread processor scheduler (.ok result) = true ↔
        processor = processorOf scheduler decision.preferredThread ∧ thread = head ∧
          result.preferredThread.isSome := by
      rw [passes_iff]
      constructor
      · rintro ⟨⟨preferred, which, -⟩, -, rfl, here⟩
        have kept : result.preferredThread.isSome := by rw [which]; rfl
        rw [passOver_reason passed kept] at here ⊢
        rw [peeked] at here
        exact ⟨rfl, (Option.some.inj (Except.ok.inj here)).symm,
          by rw [← passOver_reason passed kept]; exact kept⟩
      · rintro ⟨rfl, rfl, kept⟩
        obtain ⟨preferred, which⟩ := Option.isSome_iff_exists.mp kept
        obtain rfl := passOver_reason passed kept
        refine ⟨⟨preferred, which, ?_⟩, free, rfl, peeked⟩
        rintro rfl
        exact other which
    rw [turned, turnsOf_set (by rw [length_resize, ← sized]; exact inside),
      getD_resize owed.sized]
    by_cases here : processor = processorOf scheduler decision.preferredThread
    · rw [if_pos here, charged, ← here]
      by_cases due : thread = head ∧ result.preferredThread.isSome
      · rw [if_pos due, counted.mpr ⟨here, due⟩]
        rfl
      · have unpassed := Bool.eq_false_iff.mpr fun passed => due (counted.mp passed).2
        rw [if_neg due, unpassed]
        rfl
    · have unpassed := Bool.eq_false_iff.mpr fun passed => here (counted.mp passed).1
      rw [if_neg here, unpassed]
      rfl

theorem settle_owed (owed : Owed processors policy)
    (sized : scheduler.processorCount = processors) {decision : GuestDispatchDecision}
    {decided : Checked GuestDispatchDecision} {after : GuestDispatchPolicy}
    (settled : settle scheduler observation policy decision = (decided, after)) :
    Owed processors after := by
  have resized : ∀ turns ∈ resize processors policy.preferenceTurns, Bounded turns := by
    intro turns member
    rcases List.mem_append.mp member with old | new
    · exact owed.bounded turns (List.mem_of_mem_take old)
    · rw [List.eq_of_mem_replicate new]
      exact fun turn absent => absurd absent List.not_mem_nil
  rcases settle_cases owed sized settled with
    ⟨turned, -⟩ | ⟨head, result, turns, -, -, -, passed, -, turned⟩
  · constructor
    · rw [turned, length_resize]
    · rw [turned]
      exact resized
  · constructor
    · rw [turned, List.length_set, length_resize]
    · intro other member
      rw [turned] at member
      rcases List.mem_or_eq_of_mem_set member with old | rfl
      · exact resized other old
      · exact passOver_bounded passed (owed.turnsOf _)

/-- A decision keeps what threads are owed, apart from the one it passes over. -/
theorem decide_charges (owed : Owed processors policy)
    (sized : scheduler.processorCount = processors) {hostContinuation : Option XnuThreadId}
    (present : isAway scheduler thread = false) (processor : Nat) :
    debt thread ((decide scheduler observation policy hostContinuation).2.turnsOf processor) =
      debt thread (policy.turnsOf processor) +
        (passes thread processor scheduler
          (decide scheduler observation policy hostContinuation).1).toNat := by
  unfold decide
  cases decideHint policy.responsePeriod scheduler observation policy.hints with
  | error fault hints => rfl
  | ok decision hints =>
    have hinted : Owed processors { policy with hints := hints } := ⟨owed.sized, owed.bounded⟩
    exact settle_charges hinted sized rfl present processor

theorem decide_owed (owed : Owed processors policy)
    (sized : scheduler.processorCount = processors) {hostContinuation : Option XnuThreadId} :
    Owed processors (decide scheduler observation policy hostContinuation).2 := by
  unfold decide
  cases decideHint policy.responsePeriod scheduler observation policy.hints with
  | error fault hints => exact ⟨owed.sized, owed.bounded⟩
  | ok decision hints =>
    have hinted : Owed processors { policy with hints := hints } := ⟨owed.sized, owed.bounded⟩
    exact settle_owed hinted sized rfl

theorem observeExecution_owed (owed : Owed processors policy) (progressed : XnuThreadId)
    (ticksConsumed : Nat) : Owed processors (policy.observeExecution progressed ticksConsumed) := by
  unfold observeExecution
  split_ifs
  · exact owed
  · constructor
    · rw [List.length_map]
      exact owed.sized
    · intro turns member
      obtain ⟨old, here, rfl⟩ := List.mem_map.mp member
      exact fun turn kept => owed.bounded old here turn (List.mem_of_mem_filter kept)

theorem debt_observeExecution {progressed : XnuThreadId} {ticksConsumed : Nat}
    (unserved : ¬(progressed = thread ∧ ticksConsumed ≠ 0)) (processor : Nat) :
    debt thread ((policy.observeExecution progressed ticksConsumed).turnsOf processor) =
      debt thread (policy.turnsOf processor) := by
  unfold observeExecution turnsOf
  split_ifs with idle
  · rfl
  · have other : thread ≠ progressed := fun same => unserved ⟨same.symm, idle⟩
    rw [List.getD_eq_getElem?_getD, List.getD_eq_getElem?_getD, List.getElem?_map]
    cases policy.preferenceTurns[processor]? with
    | none => rfl
    | some turns =>
      refine worthOf_filter fun turn _ same => ?_
      simpa [same] using other

/-! ### Runs -/

theorem step_owed (owed : Owed processors policy) (event : Event processors) :
    Owed processors (policy.step event) := by
  cases event with
  | decide scheduler sized observation hostContinuation => exact decide_owed owed sized
  | observeExecution processor thread ticksConsumed =>
    exact observeExecution_owed owed thread ticksConsumed

theorem step_charges (owed : Owed processors policy) {event : Event processors}
    (unserved : event.serves thread = false) (processor : Nat) :
    debt thread ((policy.step event).turnsOf processor) =
      debt thread (policy.turnsOf processor) + (event.passes thread processor policy).toNat := by
  cases event with
  | decide scheduler sized observation hostContinuation =>
    exact decide_charges owed sized unserved processor
  | observeExecution place progressed ticksConsumed =>
    refine debt_observeExecution ?_ processor
    simpa [Event.serves] using unserved

theorem run_owed (owed : Owed processors policy) (events : List (Event processors)) :
    Owed processors (policy.run events) := by
  induction events generalizing policy with
  | nil => exact owed
  | cons event rest ih => exact ih (step_owed owed event)

/-- While a thread is not served, what it is owed grows by what passes it over. -/
theorem run_charges (owed : Owed processors policy) {events : List (Event processors)}
    (unserved : ∀ event ∈ events, event.serves thread = false) (processor : Nat) :
    debt thread ((policy.run events).turnsOf processor) =
      debt thread (policy.turnsOf processor) + passesIn thread processor policy events := by
  induction events generalizing policy with
  | nil => rfl
  | cons event rest ih =>
    have later := ih (step_owed owed event)
      fun event member => unserved event (List.mem_cons_of_mem _ member)
    have now := step_charges owed (unserved event List.mem_cons_self) processor
    simp only [run, List.foldl_cons] at later ⊢
    rw [later, now, passesIn, Nat.add_assoc]

theorem owed_new (period : ResponsePeriod) :
    Owed processors { responsePeriod := period } :=
  ⟨Nat.zero_le _, fun _ absent => absurd absent List.not_mem_nil⟩

/-- Between two events that serve a thread, it is passed over at the head of a processor's queue no
more often than the limit, whatever the scheduler and the hints are. -/
theorem passes_bounded (period : ResponsePeriod) (before events : List (Event processors))
    (thread : XnuThreadId) (processor : Nat)
    (unserved : ∀ event ∈ events, event.serves thread = false) :
    passesIn thread processor (run { responsePeriod := period } before) events ≤
      preferredProcessBurstLimit := by
  have owed : Owed processors (run { responsePeriod := period } before) :=
    run_owed (owed_new period) before
  have charged := run_charges owed unserved processor
  have kept := debt_le ((run_owed owed events).turnsOf processor) thread
  omega

end

def queuedThread (id : XnuThreadId) (sequence : Nat) : ThreadRecord where
  id := id
  info := { state := .runnable }
  queued := true
  queuedPriority := 31
  enqueueSequence := sequence

/-- A waiting head and a thread that the host goes on with, both in the queue of all processors. -/
def contended : XnuScheduler where
  processorSetRunQueue :=
    { queues := fun priority => if priority = 31 then [⟨1, 1⟩, ⟨1, 2⟩] else []
      highQueue := 31
      count := 2 }
  processorRunQueues := [{}]
  threads := ((∅ : Table XnuThreadId ThreadRecord).insert ⟨1, 1⟩ (queuedThread ⟨1, 1⟩ 1)).insert
    ⟨1, 2⟩ (queuedThread ⟨1, 2⟩ 2)
  processorContexts := [none]
  quantumTicks := Xnu.Scheduler.standardQuantumTicks
  schedulerTickTicks := Xnu.Scheduler.schedulerTickInterval
  guestTicksPerSecond := Xnu.Scheduler.defaultGuestTicksPerSecond
  minimumUserPriority := 0
  minimumRealtimeComputationTicks := 0
  maximumRealtimeComputationTicks := 0

def continued : Event 1 := .decide contended rfl { now := 0 } (some ⟨1, 2⟩)

theorem passes_bounded_continued :
    passesIn ⟨1, 1⟩ 0 (run { responsePeriod := ⟨16666667, by omega⟩ } [continued])
      [continued, continued, continued] ≤ preferredProcessBurstLimit :=
  passes_bounded ⟨16666667, by omega⟩ [continued] [continued, continued, continued] ⟨1, 1⟩ 0
    (by decide)

example : passesIn ⟨1, 1⟩ 0 { responsePeriod := ⟨16666667, by omega⟩ }
    (List.replicate 4 continued) = 3 := by rfl

end GuestDispatchPolicy
end ILEmu
