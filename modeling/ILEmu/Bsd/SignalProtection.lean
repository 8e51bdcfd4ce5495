import ILEmu.Bsd.SignalRuns

/-! What a thread that waits for signals comes to: a second signal of its set, after the one
that it has accepted, does harm unless it has a handler that does not end the wait. -/
namespace ILEmu
open Foundation
namespace SignalProcess
variable {state state' : SignalProcess} {processor signal : Nat} {set : SignalSet}
  {thread thread' : SignalThread} {wait wait' : PendingSignalWait}

/-- A thread waits for a set of signals: nothing else gets through, except what cannot be
masked, which has no handler. -/
structure Waits (state : SignalProcess) (processor : Nat) (set : SignalSet)
    (thread : SignalThread) (wait : PendingSignalWait) : Prop where
  found : state.signals.thread processor = some thread
  active : thread.active = true
  mask : thread.mask = ~~~set &&& ~~~SignalSet.unmaskable
  waited : state.pendingSignalWaits.lookup processor = some wait
  maskable : ∀ s, set.has s = true → SignalSet.unmaskable.has s = false
  prompt : ∀ s, 0 < s → SignalSet.unmaskable.has s = true → thread.pending.has s = false
  fatal : ∀ s, SignalSet.unmaskable.has s = true →
    state.caught s = false ∧ state.ignores s = false

/-- No signal of the set has arrived yet. -/
structure Idle (state : SignalProcess) (processor : Nat) (set : SignalSet)
    (thread : SignalThread) (wait : PendingSignalWait) : Prop where
  selected : wait.selected = none
  uninterrupted : wait.interruptionResult = none
  awaited : thread.waitMask = set
  quiet : ∀ s, 0 < s → set.has s = true → thread.pending.has s = false ∧
    (processor, s) ∉ state.record.queued ∧ (processor, s) ∉ state.record.cancelled ∧
      (processor, s) ∉ state.record.defaulted

/-- A signal of the set has been accepted, and waits for the thread to run. -/
structure Accepted (state : SignalProcess) (processor : Nat) (set : SignalSet)
    (thread : SignalThread) (wait : PendingSignalWait) (accepted : Nat) : Prop where
  selected : wait.selected = some accepted
  positive : 0 < accepted
  bounded : accepted ≤ 32
  member : set.has accepted = true
  awaited : thread.waitMask = Signal.bit accepted
  consumed : thread.pending.has accepted = false
  arrived : (processor, accepted) ∈ state.record.queued
  held : (processor, accepted) ∉ state.record.cancelled
  settled : ∀ s, 0 < s → set.has s = true → thread.pending.has s = true →
    state.caught s = true ∧ wait.interruptionResult.isSome = true
  accounted : ∀ s, 0 < s → set.has s = true → state.ignores s = false →
    (processor, s) ∈ state.record.queued → s = accepted ∨ thread.pending.has s = true ∨
      (processor, s) ∈ state.record.cancelled ∨ (processor, s) ∈ state.record.defaulted

def Waiting (state : SignalProcess) (processor : Nat) (set : SignalSet) : Prop :=
  ∃ thread wait, state.Waits processor set thread wait ∧
    (state.Idle processor set thread wait ∨ ∃ a, state.Accepted processor set thread wait a)

/-- What comes of a signal that is put on the list of a thread. -/
inductive Reaction (state state' : SignalProcess) (processor signal : Nat) (set : SignalSet)
    (thread thread' : SignalThread) (wait wait' : PendingSignalWait) : Prop
  | held (outside : set.has signal = false) (maskable : SignalSet.unmaskable.has signal = false)
      (unawaited : thread.waitMask.has signal = false) (awaiting : thread'.waitMask = thread.waitMask)
      (waits : wait' = wait) (pending : thread'.pending.has signal = true)
      (defaulted : state'.record.defaulted = state.record.defaulted)
  | accepted (awaited : thread.waitMask.has signal = true)
      (awaiting : thread'.waitMask = Signal.bit signal)
      (waits : wait' = { wait with selected := some signal })
      (pending : thread'.pending.has signal = false)
      (defaulted : state'.record.defaulted = state.record.defaulted)
  | caught (through : set.has signal = true ∨ SignalSet.unmaskable.has signal = true)
      (unawaited : thread.waitMask.has signal = false) (caught : state.caught signal = true)
      (awaiting : thread'.waitMask = thread.waitMask)
      (waits : wait' = { wait with
        interruptionResult := wait.interruptionResult.or
          (some (if (state.actions signal).restart then 0 else interruptedError)) })
      (pending : thread'.pending.has signal = true)
      (defaulted : state'.record.defaulted = state.record.defaulted)
  | taken (through : set.has signal = true ∨ SignalSet.unmaskable.has signal = true)
      (unawaited : thread.waitMask.has signal = false) (uncaught : state.caught signal = false)
      (awaiting : thread'.waitMask = thread.waitMask) (waits : wait' = wait)
      (pending : thread'.pending.has signal = false)
      (defaulted : state'.record.defaulted =
        if state.ignores signal then state.record.defaulted
        else (processor, signal) :: state.record.defaulted)

/-- What a delivery to a thread that waits does to it. -/
structure Delivered (state state' : SignalProcess) (processor signal : Nat) (set : SignalSet)
    (thread thread' : SignalThread) (wait wait' : PendingSignalWait) : Prop where
  found : state'.signals.thread processor = some thread'
  waited : state'.pendingSignalWaits.lookup processor = some wait'
  actions : state'.actions = state.actions
  reports : state'.signals.waitReportsInterrupt = state.signals.waitReportsInterrupt
  active : thread'.active = thread.active
  mask : thread'.mask = thread.mask
  queued : ∀ s, (processor, s) ∈ state'.record.queued ↔
    s = signal ∨ (processor, s) ∈ state.record.queued
  cancelled : ∀ s, (processor, s) ∈ state'.record.cancelled ↔
    (0 < s ∧ thread.pending.has s = true ∧
      (DarwinSignalState.opposed (Signal.bit signal)).has s = true) ∨
    (processor, s) ∈ state.record.cancelled
  pending : ∀ s, 0 < s → s ≠ signal → thread'.pending.has s =
    (thread.pending.has s && !(DarwinSignalState.opposed (Signal.bit signal)).has s)
  reaction : Reaction state state' processor signal set thread thread' wait wait'

/-! ### A delivery -/

section reactions
variable (found : state.signals.thread processor = some thread)
  (waited : state.pendingSignalWaits.lookup processor = some wait)
include found waited

theorem react_accept (awaited : thread.waitMask.has signal = true) :
    state.react processor signal = (state.accept processor wait signal, false) := by
  unfold react
  rw [waited, DarwinSignalState.waitingFor_of_thread found, awaited]
  rfl

theorem react_caught (unawaited : thread.waitMask.has signal = false)
    (caught : state.caught signal = true) :
    state.react processor signal = (state.interrupt processor signal, false) := by
  unfold react
  rw [waited, DarwinSignalState.waitingFor_of_thread found, unawaited, caught]
  rfl

/-- A signal without a handler is taken off the list. -/
theorem react_taken (unawaited : thread.waitMask.has signal = false)
    (uncaught : state.caught signal = false) :
    ∃ stopped exited, (state.react processor signal).1 =
      { state with
        signals := state.signals.consume processor (Signal.bit signal)
        stopped, exited
        record := if state.ignores signal then state.record
          else { state.record with
            defaulted := (processor, signal) :: state.record.defaulted } } := by
  unfold react
  rw [waited, DarwinSignalState.waitingFor_of_thread found, unawaited, uncaught]
  cases ignored : state.ignores signal with
  | true => exact ⟨_, _, rfl⟩
  | false =>
    cases stops : Signal.defaultStops signal with
    | true => exact ⟨_, _, rfl⟩
    | false => exact ⟨_, _, rfl⟩

end reactions

section interruption
variable (waited : state.pendingSignalWaits.lookup processor = some wait)
include waited

theorem interrupt_eq (signal : Nat) :
    state.interrupt processor signal =
      { state with
        pendingSignalWaits := if wait.interruptionResult.isSome then state.pendingSignalWaits else
          state.pendingSignalWaits.insert processor { wait with
            interruptionResult :=
              some (if (state.actions signal).restart then 0 else interruptedError) } } := by
  unfold interrupt
  simp only [waited]
  split
  · rfl
  · rfl

theorem interrupt_waited (signal : Nat) :
    (state.interrupt processor signal).pendingSignalWaits.lookup processor =
      some { wait with
        interruptionResult := wait.interruptionResult.or
          (some (if (state.actions signal).restart then 0 else interruptedError)) } := by
  obtain ⟨signals, selected, interruption⟩ := wait
  rw [interrupt_eq waited signal]
  cases interruption with
  | none => exact AList.lookup_insert _
  | some result => exact waited

end interruption

theorem Waits.settled (waits : state.Waits processor set thread wait)
    (phase : state.Idle processor set thread wait ∨
      ∃ a, state.Accepted processor set thread wait a) {s : Nat} (positive : 0 < s)
    (pending : thread.pending.has s = true)
    (through : set.has s = true ∨ SignalSet.unmaskable.has s = true ∨
      thread.waitMask.has s = true) :
    state.caught s = true ∧ thread.waitMask.has s = false ∧
      wait.interruptionResult.isSome = true := by
  have mild : SignalSet.unmaskable.has s ≠ true := by
    intro strong
    rw [waits.prompt s positive strong] at pending
    contradiction
  rcases phase with idle | ⟨a, accepted⟩
  · have member : set.has s = true := by
      rcases through with member | strong | awaited
      · exact member
      · exact absurd strong mild
      · rwa [idle.awaited] at awaited
    rw [(idle.quiet s positive member).1] at pending
    contradiction
  · have other : s ≠ a := by
      rintro rfl
      rw [accepted.consumed] at pending
      contradiction
    have unawaited : thread.waitMask.has s = false := by
      rw [accepted.awaited, SignalSet.has_bit accepted.bounded positive accepted.positive]
      exact decide_eq_false other
    have member : set.has s = true := by
      rcases through with member | strong | awaited
      · exact member
      · exact absurd strong mild
      · rw [unawaited] at awaited
        contradiction
    obtain ⟨caught, interrupted⟩ := accepted.settled s positive member pending
    exact ⟨caught, unawaited, interrupted⟩

/-- The list of a thread after a signal has been put on it. -/
def queuedThread (thread : SignalThread) (signal : Nat) : SignalThread :=
  { thread with
    pending := (thread.pending &&& ~~~DarwinSignalState.opposed (Signal.bit signal)) |||
      Signal.bit signal }

theorem valid_of_kept (kept : state.dropped signal = false) :
    0 < signal ∧ signal ≤ 32 ∧ state.exited = false := by
  simp only [dropped, Signal.count, Bool.or_eq_false_iff] at kept
  obtain ⟨⟨⟨some, few⟩, running⟩, _⟩ := kept
  have positive := of_decide_eq_false some
  have bounded := of_decide_eq_false few
  exact ⟨by omega, by omega, running⟩

theorem has_queued (positive : 0 < signal) (bounded : signal ≤ 32) {s : Nat} (some : 0 < s) :
    (queuedThread thread signal).pending.has s =
      ((thread.pending.has s && !(DarwinSignalState.opposed (Signal.bit signal)).has s) ||
        decide (s = signal)) := by
  unfold queuedThread
  rw [SignalSet.has_or, SignalSet.has_and_not, SignalSet.has_bit bounded some positive]

theorem mem_cancelled {s : Nat} {record : List (Nat × Nat)} :
    (processor, s) ∈ (thread.pending &&& DarwinSignalState.opposed
        (Signal.bit signal)).signals.map (processor, ·) ++ record ↔
      (0 < s ∧ thread.pending.has s = true ∧
        (DarwinSignalState.opposed (Signal.bit signal)).has s = true) ∨
      (processor, s) ∈ record := by
  rw [List.mem_append, List.mem_map]
  apply or_congr_left
  constructor
  · rintro ⟨_, listed, same⟩
    cases same
    rw [SignalSet.mem_signals, SignalSet.has_and, Bool.and_eq_true] at listed
    exact listed
  · intro listed
    refine ⟨s, ?_, rfl⟩
    rwa [SignalSet.mem_signals, SignalSet.has_and, Bool.and_eq_true]

/-- A signal has been put on the list of a thread, and nothing has come of it yet. -/
structure Listed (state queued : SignalProcess) (processor signal : Nat)
    (thread : SignalThread) (wait : PendingSignalWait) : Prop where
  found : queued.signals.thread processor = some (queuedThread thread signal)
  waited : queued.pendingSignalWaits.lookup processor = some wait
  running : queued.exited = false
  actions : queued.actions = state.actions
  reports : queued.signals.waitReportsInterrupt = state.signals.waitReportsInterrupt
  arrived : queued.record.queued = (processor, signal) :: state.record.queued
  cancelled : queued.record.cancelled =
    (thread.pending &&& DarwinSignalState.opposed (Signal.bit signal)).signals.map
      (processor, ·) ++ state.record.cancelled
  defaulted : queued.record.defaulted = state.record.defaulted

theorem deliver_listed (waits : state.Waits processor set thread wait) {given : Option Nat}
    (kept : state.dropped signal = false) (goes : state.target signal given = some processor) :
    ∃ queued, state.Listed queued processor signal thread wait ∧
      state.deliver (signal, given) = queued.processPendingSignals processor := by
  have here : (state.signals.thread processor).any (·.active) = true := by
    rw [waits.found]
    exact waits.active
  have list := DarwinSignalState.pending_of_thread waits.found
  have changed := DarwinSignalState.thread_edit_self waits.found fun thread =>
    if thread.active then
      { thread with
        pending := (thread.pending &&& ~~~DarwinSignalState.opposed (Signal.bit signal)) |||
          Signal.bit signal }
    else thread
  rw [if_pos waits.active] at changed
  have running := (valid_of_kept kept).2.2
  unfold target at goes
  unfold deliver deliverSignalToThread
  simp only [kept, Bool.false_eq_true, if_false]
  rw [goes]
  unfold queue
  by_cases resumes : signal = Signal.resume
  · simp only [if_pos resumes, here, if_true, list]
    refine ⟨_, ?_, rfl⟩
    exact ⟨changed, waits.waited, running, rfl, rfl, rfl, rfl, rfl⟩
  · simp only [if_neg resumes, here, if_true, list]
    refine ⟨_, ?_, rfl⟩
    exact ⟨changed, waits.waited, running, rfl, rfl, rfl, rfl, rfl⟩

namespace Listed
variable {queued : SignalProcess} (listed : state.Listed queued processor signal thread wait)
  (waits : state.Waits processor set thread wait)
include listed

theorem caught (s : Nat) : queued.caught s = state.caught s := by
  unfold SignalProcess.caught
  rw [listed.actions]

theorem ignores (s : Nat) : queued.ignores s = state.ignores s := by
  unfold SignalProcess.ignores
  rw [listed.actions]

include waits

theorem mem_ready {s : Nat} : s ∈ (queued.signals.ready processor).signals ↔
    0 < s ∧ (queuedThread thread signal).pending.has s = true ∧
      (set.has s = true ∨ SignalSet.unmaskable.has s = true ∨ thread.waitMask.has s = true) := by
  rw [SignalSet.mem_signals]
  unfold DarwinSignalState.ready
  rw [DarwinSignalState.pending_of_thread listed.found,
    DarwinSignalState.mask_of_thread listed.found,
    DarwinSignalState.waitingFor_of_thread listed.found]
  unfold queuedThread
  rw [waits.mask, SignalSet.has_open]

variable (positive : 0 < signal) (bounded : signal ≤ 32)
  (phase : state.Idle processor set thread wait ∨
    ∃ a, state.Accepted processor set thread wait a)
include positive bounded phase

/-- Every other signal on the list that gets through has been there before. -/
theorem settled {s : Nat} (member : s ∈ (queued.signals.ready processor).signals)
    (other : s ≠ signal) : state.caught s = true ∧ thread.waitMask.has s = false ∧
      wait.interruptionResult.isSome = true := by
  obtain ⟨some, pending, through⟩ := (listed.mem_ready waits).mp member
  rw [has_queued positive bounded some, decide_eq_false other, Bool.or_false,
    Bool.and_eq_true] at pending
  exact waits.settled phase some pending.1 through

theorem settled_before {s : Nat} (member : s ∈ (queued.signals.ready processor).signals)
    (other : s ≠ signal) : queued.Settled processor s := by
  obtain ⟨caught, unawaited, interrupted⟩ :=
    listed.settled waits positive bounded phase member other
  constructor
  · rw [listed.caught]
    exact caught
  · rw [DarwinSignalState.waitingFor_of_thread listed.found]
    exact unawaited
  · exact ⟨wait, listed.waited, interrupted⟩

/-- A reaction that leaves the others settled is all there is to the loop. -/
theorem process_eq {after : SignalProcess} {thread' : SignalThread} {wait' : PendingSignalWait}
    (reacted : (queued.react processor signal).1 = after)
    (through : set.has signal = true ∨ SignalSet.unmaskable.has signal = true ∨
      thread.waitMask.has signal = true)
    (found' : after.signals.thread processor = some thread')
    (waited' : after.pendingSignalWaits.lookup processor = some wait')
    (actions' : after.actions = queued.actions)
    (unawaited : ∀ s, 0 < s → s ≠ signal → thread.waitMask.has s = false →
      thread'.waitMask.has s = false)
    (interrupted : wait.interruptionResult.isSome = true →
      wait'.interruptionResult.isSome = true) :
    queued.processPendingSignals processor = after := by
  subst reacted
  have here : signal ∈ (queued.signals.ready processor).signals := by
    refine (listed.mem_ready waits).mpr ⟨positive, ?_, through⟩
    rw [has_queued positive bounded positive, decide_eq_true rfl, Bool.or_true]
  apply reactAll_one (SignalSet.signals_nodup _) here listed.running
  intro s member other
  refine ⟨listed.settled_before waits positive bounded phase member other, ?_, ?_, ?_⟩
  · have caught := (listed.settled_before waits positive bounded phase member other).caught
    unfold SignalProcess.caught at caught ⊢
    rwa [actions']
  · have some := ((listed.mem_ready waits).mp member).1
    have before := (listed.settled waits positive bounded phase member other).2.1
    rw [DarwinSignalState.waitingFor_of_thread found']
    exact unawaited s some other before
  · have before := (listed.settled waits positive bounded phase member other).2.2
    exact ⟨wait', waited', interrupted before⟩

end Listed

/-- What every reaction leaves of a signal that has been put on a list. -/
theorem Listed.delivered {queued after : SignalProcess}
    (listed : state.Listed queued processor signal thread wait) (positive : 0 < signal)
    (bounded : signal ≤ 32) (found' : after.signals.thread processor = some thread')
    (waited' : after.pendingSignalWaits.lookup processor = some wait')
    (actions' : after.actions = queued.actions)
    (reports' : after.signals.waitReportsInterrupt = queued.signals.waitReportsInterrupt)
    (arrived' : after.record.queued = queued.record.queued)
    (cancelled' : after.record.cancelled = queued.record.cancelled)
    (active' : thread'.active = thread.active) (mask' : thread'.mask = thread.mask)
    (pending' : thread'.pending = (queuedThread thread signal).pending ∨
      thread'.pending = (queuedThread thread signal).pending &&& ~~~Signal.bit signal)
    (reaction : Reaction state after processor signal set thread thread' wait wait') :
    state.Delivered after processor signal set thread thread' wait wait' where
  found := found'
  waited := waited'
  actions := actions'.trans listed.actions
  reports := reports'.trans listed.reports
  active := active'
  mask := mask'
  reaction := reaction
  queued := by
    intro s
    rw [arrived', listed.arrived, List.mem_cons, Prod.mk.injEq, and_iff_right rfl]
  cancelled := by
    intro s
    rw [cancelled', listed.cancelled]
    exact mem_cancelled
  pending := by
    intro s some other
    have list : (queuedThread thread signal).pending.has s =
        (thread.pending.has s && !(DarwinSignalState.opposed (Signal.bit signal)).has s) := by
      rw [has_queued positive bounded some, decide_eq_false other, Bool.or_false]
    rcases pending' with same | taken
    · rw [same, list]
    · rw [taken, SignalSet.has_and_not, SignalSet.has_bit bounded some positive,
        decide_eq_false other, Bool.not_false, Bool.and_true, list]

theorem delivered_of_kept (waits : state.Waits processor set thread wait)
    (phase : state.Idle processor set thread wait ∨
      ∃ a, state.Accepted processor set thread wait a) {given : Option Nat}
    (kept : state.dropped signal = false) (goes : state.target signal given = some processor) :
    ∃ thread' wait', state.Delivered (state.deliver (signal, given)) processor signal set
      thread thread' wait wait' := by
  obtain ⟨positive, bounded, -⟩ := valid_of_kept kept
  obtain ⟨queued, listed, delivery⟩ := deliver_listed waits kept goes
  rw [delivery]
  have here : (queuedThread thread signal).pending.has signal = true := by
    rw [has_queued positive bounded positive, decide_eq_true rfl, Bool.or_true]
  have gone : ((queuedThread thread signal).pending &&& ~~~Signal.bit signal).has signal = false := by
    rw [SignalSet.has_and_not, SignalSet.has_bit bounded positive positive, decide_eq_true rfl,
      Bool.not_true, Bool.and_false]
  by_cases through : set.has signal = true ∨ SignalSet.unmaskable.has signal = true ∨
      thread.waitMask.has signal = true
  · cases awaited : thread.waitMask.has signal with
    | true =>
      have reacted := react_accept listed.found listed.waited awaited
      have found' : (queued.accept processor wait signal).signals.thread processor =
          some { queuedThread thread signal with
            waitMask := Signal.bit signal
            pending := (queuedThread thread signal).pending &&& ~~~Signal.bit signal } :=
        DarwinSignalState.thread_edit_self (DarwinSignalState.thread_edit_self listed.found _) _
      have waited' : (queued.accept processor wait signal).pendingSignalWaits.lookup processor =
          some { wait with selected := some signal } := AList.lookup_insert _
      have narrowed : ∀ s, 0 < s → s ≠ signal → thread.waitMask.has s = false →
          (Signal.bit signal).has s = false := by
        intro s some other _
        rw [SignalSet.has_bit bounded some positive]
        exact decide_eq_false other
      rw [listed.process_eq waits positive bounded phase (congrArg Prod.fst reacted) through found'
        waited' rfl narrowed id]
      exact ⟨_, _, listed.delivered positive bounded found' waited' rfl rfl rfl rfl rfl rfl
        (.inr rfl) (.accepted awaited rfl rfl gone listed.defaulted)⟩
    | false =>
      have through' : set.has signal = true ∨ SignalSet.unmaskable.has signal = true := by
        rcases through with member | strong | awaits
        · exact .inl member
        · exact .inr strong
        · rw [awaited] at awaits
          contradiction
      cases caught : state.caught signal with
      | true =>
        have reacted := react_caught listed.found listed.waited awaited
          ((listed.caught signal).trans caught)
        have view := interrupt_eq listed.waited signal
        have waited' := interrupt_waited listed.waited signal
        rw [view] at waited' reacted
        rw [listed.process_eq waits positive bounded phase (congrArg Prod.fst reacted) through
          listed.found waited' rfl (fun _ _ _ unawaited => unawaited) ?_]
        · refine ⟨_, _, listed.delivered positive bounded listed.found waited' rfl rfl rfl rfl rfl rfl
            (.inl rfl) (.caught through' awaited caught rfl ?_ here listed.defaulted)⟩
          rw [listed.actions]
        · intro interrupted
          rw [Option.isSome_or, interrupted, Bool.true_or]
      | false =>
        obtain ⟨stopped, exited, reacted⟩ := react_taken listed.found listed.waited awaited
          ((listed.caught signal).trans caught)
        have found' := DarwinSignalState.thread_edit_self listed.found fun thread =>
          { thread with pending := thread.pending &&& ~~~Signal.bit signal }
        rw [listed.process_eq waits positive bounded phase reacted through found' listed.waited rfl
          (fun _ _ _ unawaited => unawaited) id]
        rw [listed.ignores]
        refine ⟨_, _, listed.delivered positive bounded found' listed.waited rfl rfl ?_ ?_ rfl rfl
          (.inr rfl) (.taken through' awaited caught rfl rfl gone ?_)⟩
        · split
          · rfl
          · rfl
        · split
          · rfl
          · rfl
        · rw [← listed.defaulted]
          split
          · rfl
          · rfl
  · have passed : queued.processPendingSignals processor = queued := by
      apply reactAll_settled
      intro s member
      apply listed.settled_before waits positive bounded phase member
      rintro rfl
      exact through ((listed.mem_ready waits).mp member).2.2
    rw [passed]
    simp only [not_or, Bool.not_eq_true] at through
    obtain ⟨outside, maskable, unawaited⟩ := through
    exact ⟨_, _, listed.delivered positive bounded listed.found listed.waited rfl rfl rfl rfl rfl rfl
      (.inl rfl) (.held outside maskable unawaited rfl rfl here listed.defaulted)⟩

/-! ### What a delivery keeps -/

theorem caught_not_ignored (caught : state.caught signal = true) :
    state.ignores signal = false := by
  unfold SignalProcess.caught at caught
  unfold ignores
  obtain ⟨set, unignored⟩ := Bool.and_eq_true _ _ ▸ caught
  have other := of_decide_eq_true set
  have different := of_decide_eq_true unignored
  simp [other, different]

namespace Delivered
variable (delivered : state.Delivered state' processor signal set thread thread' wait wait')
include delivered

theorem caught (s : Nat) : state'.caught s = state.caught s := by
  unfold SignalProcess.caught
  rw [delivered.actions]

theorem ignores (s : Nat) : state'.ignores s = state.ignores s := by
  unfold SignalProcess.ignores
  rw [delivered.actions]

theorem pending_before {s : Nat} (positive : 0 < s) (other : s ≠ signal)
    (pending : thread'.pending.has s = true) : thread.pending.has s = true := by
  rw [delivered.pending s positive other, Bool.and_eq_true] at pending
  exact pending.1

theorem pending_or_cancelled {s : Nat} (positive : 0 < s) (other : s ≠ signal)
    (pending : thread.pending.has s = true) :
    thread'.pending.has s = true ∨ (processor, s) ∈ state'.record.cancelled := by
  rw [delivered.pending s positive other, pending, Bool.true_and]
  cases opposed : (DarwinSignalState.opposed (Signal.bit signal)).has s with
  | true => exact .inr ((delivered.cancelled s).mpr (.inl ⟨positive, pending, opposed⟩))
  | false => exact .inl rfl

theorem defaulted_before {s : Nat} (member : (processor, s) ∈ state.record.defaulted) :
    (processor, s) ∈ state'.record.defaulted := by
  cases delivered.reaction with
  | held _ _ _ _ _ _ defaulted => exact defaulted ▸ member
  | accepted _ _ _ _ defaulted => exact defaulted ▸ member
  | caught _ _ _ _ _ _ defaulted => exact defaulted ▸ member
  | taken _ _ _ _ _ _ defaulted =>
    rw [defaulted]
    split
    · exact member
    · exact List.mem_cons_of_mem _ member

theorem waits (waits : state.Waits processor set thread wait) :
    state'.Waits processor set thread' wait' where
  found := delivered.found
  active := delivered.active.trans waits.active
  mask := delivered.mask.trans waits.mask
  waited := delivered.waited
  maskable := waits.maskable
  fatal := by
    intro s strong
    rw [delivered.caught, delivered.ignores]
    exact waits.fatal s strong
  prompt := by
    intro s positive strong
    by_cases here : s = signal
    · subst here
      cases delivered.reaction with
      | held _ maskable => exact absurd strong (Bool.eq_false_iff.mp maskable)
      | accepted _ _ _ pending => exact pending
      | caught _ _ caught =>
        rw [(waits.fatal s strong).1] at caught
        contradiction
      | taken _ _ _ _ _ pending => exact pending
    · rw [delivered.pending s positive here, waits.prompt s positive strong, Bool.false_and]

/-- No signal of the set has arrived before, and none arrives now. -/
theorem still_idle (idle : state.Idle processor set thread wait)
    (outside : set.has signal = false) (same : wait' = wait)
    (awaiting : thread'.waitMask = thread.waitMask)
    (defaulted : ∀ s, (processor, s) ∈ state'.record.defaulted →
      s = signal ∨ (processor, s) ∈ state.record.defaulted) :
    state'.Idle processor set thread' wait' where
  selected := by
    rw [same]
    exact idle.selected
  uninterrupted := by
    rw [same]
    exact idle.uninterrupted
  awaited := awaiting.trans idle.awaited
  quiet := by
    intro s positive member
    have other : s ≠ signal := by
      rintro rfl
      rw [outside] at member
      contradiction
    obtain ⟨unlisted, absent, uncancelled, spared⟩ := idle.quiet s positive member
    refine ⟨?_, ?_, ?_, ?_⟩
    · rw [delivered.pending s positive other, unlisted, Bool.false_and]
    · rw [delivered.queued]
      exact fun arrived => arrived.elim other absent
    · rw [delivered.cancelled, unlisted]
      simpa using uncancelled
    · exact fun now => (defaulted s now).elim other spared

/-- The accepted signal stays accepted when another one arrives. -/
theorem still_accepted {a : Nat} (accepted : state.Accepted processor set thread wait a)
    (other : a ≠ signal) (selected : wait'.selected = wait.selected)
    (awaiting : thread'.waitMask = thread.waitMask)
    (interrupted : wait.interruptionResult.isSome = true →
      wait'.interruptionResult.isSome = true)
    (settled : set.has signal = true → thread'.pending.has signal = true →
      state.caught signal = true ∧ wait'.interruptionResult.isSome = true)
    (accounted : set.has signal = true → state.ignores signal = false →
      thread'.pending.has signal = true ∨ (processor, signal) ∈ state'.record.defaulted) :
    state'.Accepted processor set thread' wait' a where
  selected := selected.trans accepted.selected
  positive := accepted.positive
  bounded := accepted.bounded
  member := accepted.member
  awaited := awaiting.trans accepted.awaited
  consumed := by
    rw [delivered.pending a accepted.positive other, accepted.consumed, Bool.false_and]
  arrived := (delivered.queued a).mpr (.inr accepted.arrived)
  held := by
    rw [delivered.cancelled, accepted.consumed]
    simpa using accepted.held
  settled := by
    intro s positive member pending
    rw [delivered.caught]
    by_cases here : s = signal
    · subst here
      exact settled member pending
    · have before := delivered.pending_before positive here pending
      obtain ⟨caught, interruption⟩ := accepted.settled s positive member before
      exact ⟨caught, interrupted interruption⟩
  accounted := by
    intro s positive member serious arrived
    rw [delivered.ignores] at serious
    by_cases here : s = signal
    · subst here
      rcases accounted member serious with pending | defaulted
      · exact .inr (.inl pending)
      · exact .inr (.inr (.inr defaulted))
    · rcases accepted.accounted s positive member serious
        (((delivered.queued s).mp arrived).resolve_left here) with same | pending | gone | defaulted
      · exact .inl same
      · rcases delivered.pending_or_cancelled positive here pending with pending | cancelled
        · exact .inr (.inl pending)
        · exact .inr (.inr (.inl cancelled))
      · exact .inr (.inr (.inl ((delivered.cancelled s).mpr (.inr gone))))
      · exact .inr (.inr (.inr (delivered.defaulted_before defaulted)))

end Delivered
end SignalProcess
end ILEmu
