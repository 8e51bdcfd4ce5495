import ILEmu.Bsd.SignalWait

/-! Signals that are delivered to a process while one of its threads waits for some of them. -/
namespace ILEmu
open Foundation

theorem SignalSet.signals_nodup (set : SignalSet) : set.signals.Nodup :=
  (List.nodup_range.filter _).map fun _ _ same => Nat.succ.inj same

theorem SignalSet.le_of_has {set : SignalSet} {signal : Nat} (inside : set.has signal = true) :
    signal ≤ 32 := by
  have bound : signal - 1 < 32 := BitVec.lt_of_getLsbD inside
  omega

namespace SignalProcess
variable (state : SignalProcess) (processor : Nat)

/-- The thread that a signal is delivered to. -/
def target (signal : Nat) (given : Option Nat) : Option Nat :=
  given.or (state.signals.select (Signal.bit signal)
    fun candidate => candidate ∉ state.disabledThreadSignals)

/-- The signals of a run: each is for one thread, or for whichever takes it. -/
def deliver (delivery : Nat × Option Nat) : SignalProcess :=
  state.deliverSignalToThread delivery.1 delivery.2

/-- A delivery leaves the set of a thread alone that has accepted a signal: the signal is not
of the set, or it is the accepted one, or else it has a handler and does not end the wait
with an error. -/
def harmless (set : SignalSet) (delivery : Nat × Option Nat) : Prop :=
  state.dropped delivery.1 = false → state.target delivery.1 delivery.2 = some processor →
    set.has delivery.1 = true → ∀ wait accepted,
      state.pendingSignalWaits.lookup processor = some wait → wait.selected = some accepted →
        accepted = delivery.1 ∨ state.ignores delivery.1 = true ∨
          (state.caught delivery.1 = true ∧
            (state.signals.waitReportsInterrupt = false ∨ state.ignores accepted = true ∨
              wait.interruptionResult.isSome = true ∨
              (state.actions delivery.1).restart = true))

/-- No signal of the set that is not ignored has met with its default action, and however the
wait ends now, each that has arrived is returned by it or stays pending, unless an opposing
one took it off. -/
structure Protected (set : SignalSet) : Prop where
  spared : ∀ signal, 0 < signal → set.has signal = true → state.ignores signal = false →
    (processor, signal) ∉ state.record.defaulted
  kept : ∀ copied completed outcome,
    (state.completeSignalWait processor false copied = some (completed, outcome) ∨
      state.interruptThreadWait processor copied = some (completed, outcome)) →
    ∀ signal, 0 < signal → set.has signal = true → state.ignores signal = false →
      (processor, signal) ∈ state.record.queued →
        outcome.signal = some signal ∨ (completed.signals.pending processor).has signal = true ∨
          (processor, signal) ∈ state.record.cancelled

variable {state processor}

/-! ### What one thread sees of the others' signals -/

/-- Nothing has happened to a thread, its wait and its signals. -/
structure Unmoved (processor : Nat) (state state' : SignalProcess) : Prop where
  thread : state'.signals.thread processor = state.signals.thread processor
  wait : state'.pendingSignalWaits.lookup processor = state.pendingSignalWaits.lookup processor
  actions : state'.actions = state.actions
  reports : state'.signals.waitReportsInterrupt = state.signals.waitReportsInterrupt
  queued : ∀ signal, (processor, signal) ∈ state'.record.queued ↔
    (processor, signal) ∈ state.record.queued
  cancelled : ∀ signal, (processor, signal) ∈ state'.record.cancelled ↔
    (processor, signal) ∈ state.record.cancelled
  defaulted : ∀ signal, (processor, signal) ∈ state'.record.defaulted ↔
    (processor, signal) ∈ state.record.defaulted

namespace Unmoved
variable {other signal : Nat} {state' state'' : SignalProcess}

theorem refl (state : SignalProcess) : Unmoved processor state state :=
  ⟨rfl, rfl, rfl, rfl, fun _ => Iff.rfl, fun _ => Iff.rfl, fun _ => Iff.rfl⟩

theorem trans (first : Unmoved processor state state') (second : Unmoved processor state' state'') :
    Unmoved processor state state'' where
  thread := second.thread.trans first.thread
  wait := second.wait.trans first.wait
  actions := second.actions.trans first.actions
  reports := second.reports.trans first.reports
  queued := fun signal => (second.queued signal).trans (first.queued signal)
  cancelled := fun signal => (second.cancelled signal).trans (first.cancelled signal)
  defaulted := fun signal => (second.defaulted signal).trans (first.defaulted signal)

theorem ignores (unmoved : Unmoved processor state state') (signal : Nat) :
    state'.ignores signal = state.ignores signal := by
  unfold SignalProcess.ignores
  rw [unmoved.actions]

theorem caught (unmoved : Unmoved processor state state') (signal : Nat) :
    state'.caught signal = state.caught signal := by
  unfold SignalProcess.caught
  rw [unmoved.actions]

theorem queue (different : processor ≠ other) :
    Unmoved processor state (state.queue other signal) := by
  unfold SignalProcess.queue
  dsimp only
  split
  · constructor
    · exact DarwinSignalState.thread_edit_other different _
    · rfl
    · rfl
    · rfl
    · intro signal
      simp [different]
    · intro signal
      simp [Ne.symm different]
    · exact fun _ => Iff.rfl
  · exact refl state

theorem consume (state : SignalProcess) (different : processor ≠ other) (bits : SignalSet) :
    Unmoved processor state { state with signals := state.signals.consume other bits } :=
  { refl state with thread := DarwinSignalState.thread_edit_other different _ }

theorem interrupt (different : processor ≠ other) :
    Unmoved processor state (state.interrupt other signal) := by
  unfold SignalProcess.interrupt
  split
  · exact refl state
  · split
    · exact refl state
    · exact { refl state with wait := AList.lookup_insert_ne different }

theorem noteDefault (signal : Nat) (different : processor ≠ other) :
    Unmoved processor state (state.noteDefault other signal) :=
  { refl state with
    defaulted := by
      intro signal
      simp [SignalProcess.noteDefault, different] }

theorem accept (different : processor ≠ other) (wait : PendingSignalWait) :
    Unmoved processor state (state.accept other wait signal) :=
  { refl state with
    wait := AList.lookup_insert_ne different
    thread := by
      unfold SignalProcess.accept DarwinSignalState.acceptWaitSignal DarwinSignalState.consume
      rw [DarwinSignalState.thread_edit_other different,
        DarwinSignalState.thread_edit_other different] }

theorem react (state : SignalProcess) (signal : Nat) (different : processor ≠ other) :
    Unmoved processor state (state.react other signal).1 := by
  have taken := consume state different (Signal.bit signal)
  unfold SignalProcess.react
  dsimp only
  split
  · exact accept different _
  · split
    · exact interrupt different
    · split
      · exact taken
      · have noted := taken.trans (noteDefault signal different)
        split
        · exact { noted with }
        · exact { noted with }

theorem reactAll (different : processor ≠ other) (signals : List Nat) :
    ∀ state, Unmoved processor state (SignalProcess.reactAll other state signals) := by
  induction signals with
  | nil => exact refl
  | cons signal rest ih =>
    intro state
    have first := react state signal different
    unfold SignalProcess.reactAll
    split
    · exact refl state
    · split
      · rename_i found
        rwa [found] at first
      · rename_i found
        rw [found] at first
        exact first.trans (ih _)

theorem resumed (signal : Nat) :
    Unmoved processor state
      (if signal = Signal.resume then { state with stopped := false } else state) := by
  split
  · exact { refl state with }
  · exact refl state

theorem processPendingSignals (different : processor ≠ other) :
    Unmoved processor state (state.processPendingSignals other) :=
  reactAll different _ state

end Unmoved

/-! ### The loop over the ready signals of a thread -/

/-- The loop passes a signal by: it has a handler, and has interrupted the wait. -/
structure Settled (state : SignalProcess) (processor signal : Nat) : Prop where
  caught : state.caught signal = true
  awaited : (state.signals.waitingFor processor).has signal = false
  interrupted : ∃ wait, state.pendingSignalWaits.lookup processor = some wait ∧
    wait.interruptionResult.isSome = true

section loop
variable {signal : Nat} {thread : SignalThread} {wait : PendingSignalWait}

theorem Settled.react (settled : state.Settled processor signal) :
    state.react processor signal = (state, false) := by
  obtain ⟨wait, found, interrupted⟩ := settled.interrupted
  unfold SignalProcess.react interrupt
  rw [found, settled.awaited, Option.filter_some]
  simp [settled.caught, interrupted]

theorem reactAll_append {before : List Nat} (settled : ∀ s ∈ before, state.Settled processor s)
    (running : state.exited = false) (after : List Nat) :
    reactAll processor state (before ++ after) = reactAll processor state after := by
  induction before with
  | nil => rfl
  | cons signal rest ih =>
    have skipped := (settled signal List.mem_cons_self).react
    have others := ih fun s member => settled s (List.mem_cons_of_mem _ member)
    rw [List.cons_append, reactAll, running, skipped]
    exact others

theorem reactAll_settled {signals : List Nat} (settled : ∀ s ∈ signals, state.Settled processor s) :
    reactAll processor state signals = state := by
  by_cases running : state.exited = false
  · have passed := reactAll_append settled running []
    rw [List.append_nil] at passed
    exact passed
  · cases signals with
    | nil => rfl
    | cons signal rest => rw [reactAll, if_pos (eq_true_of_ne_false running)]

/-- Among signals that are settled, and stay so, only one is reacted to. -/
theorem reactAll_one {signals : List Nat} (distinct : signals.Nodup) (listed : signal ∈ signals)
    (running : state.exited = false)
    (settled : ∀ s ∈ signals, s ≠ signal →
      state.Settled processor s ∧ (state.react processor signal).1.Settled processor s) :
    reactAll processor state signals = (state.react processor signal).1 := by
  obtain ⟨before, after, rfl⟩ := List.append_of_mem listed
  obtain ⟨_, unlisted, apart⟩ := List.nodup_append.mp distinct
  have earlier : ∀ s ∈ before, state.Settled processor s := by
    intro s member
    have other : s ≠ signal := apart s member signal List.mem_cons_self
    exact (settled s (List.mem_append_left _ member) other).1
  have later : ∀ s ∈ after, (state.react processor signal).1.Settled processor s := by
    intro s member
    have other : s ≠ signal := fun same => (List.nodup_cons.mp unlisted).1 (same ▸ member)
    exact (settled s (List.mem_append_right _ (List.mem_cons_of_mem _ member)) other).2
  rw [reactAll_append earlier running, reactAll, running]
  cases reacted : state.react processor signal with
  | mk next ended =>
    rw [reacted] at later
    cases ended with
    | true => rfl
    | false => exact reactAll_settled later

end loop
end SignalProcess
end ILEmu
