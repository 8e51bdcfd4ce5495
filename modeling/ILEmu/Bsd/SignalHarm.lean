import ILEmu.Bsd.SignalProtection

/-! The harm that a run of deliveries does to a thread that waits for signals: there is none
exactly if every delivery is harmless. -/
namespace ILEmu
open Foundation
namespace SignalProcess
variable {state state' : SignalProcess} {processor signal : Nat} {set : SignalSet}
  {thread thread' : SignalThread} {wait wait' : PendingSignalWait}

/-- A signal of the set has met with its default action. -/
def Spoiled (state : SignalProcess) (processor : Nat) (set : SignalSet) : Prop :=
  ∃ s, 0 < s ∧ set.has s = true ∧ state.ignores s = false ∧
    (processor, s) ∈ state.record.defaulted

/-- The wait will end with an error, although it has accepted a signal. -/
def Lost (state : SignalProcess) (processor : Nat) : Prop :=
  ∃ wait a error, state.pendingSignalWaits.lookup processor = some wait ∧
    wait.selected = some a ∧ state.ignores a = false ∧
      state.signals.waitReportsInterrupt = true ∧
        wait.interruptionResult = some error ∧ error ≠ 0

def Harmed (state : SignalProcess) (processor : Nat) (set : SignalSet) : Prop :=
  state.Spoiled processor set ∨ state.Lost processor

theorem Idle.unharmed (idle : state.Idle processor set thread wait)
    (waits : state.Waits processor set thread wait) : ¬state.Harmed processor set := by
  rintro (⟨s, positive, member, -, defaulted⟩ | ⟨other, a, -, found, selected, -⟩)
  · exact (idle.quiet s positive member).2.2.2 defaulted
  · cases waits.waited.symm.trans found
    rw [idle.selected] at selected
    contradiction

/-- A signal that is no longer waited for is not the accepted one. -/
theorem Accepted.other {a : Nat} (accepted : state.Accepted processor set thread wait a)
    (positive : 0 < signal) (unawaited : thread.waitMask.has signal = false) : a ≠ signal := by
  rintro rfl
  rw [accepted.awaited, SignalSet.has_bit accepted.bounded positive positive,
    decide_eq_true rfl] at unawaited
  contradiction

/-! ### The harm of one delivery -/

namespace Delivered
variable (delivered : state.Delivered state' processor signal set thread thread' wait wait')
  (waits : state.Waits processor set thread wait)
include delivered

theorem spoiled_of_same (same : state'.record.defaulted = state.record.defaulted) :
    state'.Spoiled processor set ↔ state.Spoiled processor set := by
  unfold Spoiled
  simp only [same, delivered.ignores]

include waits

theorem lost_of_same (selected : wait'.selected = wait.selected)
    (interruption : wait'.interruptionResult = wait.interruptionResult) :
    state'.Lost processor ↔ state.Lost processor := by
  unfold Lost
  simp only [delivered.waited, waits.waited, Option.some.injEq, exists_and_left,
    exists_eq_left', selected, interruption, delivered.ignores, delivered.reports]

theorem phase (positive : 0 < signal) (phase : state.Idle processor set thread wait ∨
      ∃ a, state.Accepted processor set thread wait a) :
    state'.Idle processor set thread' wait' ∨
      ∃ a, state'.Accepted processor set thread' wait' a := by
  cases delivered.reaction with
  | held outside maskable unawaited awaiting same pending defaulted =>
    have kept : ∀ s, (processor, s) ∈ state'.record.defaulted →
        s = signal ∨ (processor, s) ∈ state.record.defaulted :=
      fun s member => .inr (defaulted ▸ member)
    rcases phase with idle | ⟨a, accepted⟩
    · exact .inl (delivered.still_idle idle outside same awaiting kept)
    · have other : a ≠ signal := by
        rintro rfl
        rw [accepted.member] at outside
        contradiction
      refine .inr ⟨a, delivered.still_accepted accepted other (by rw [same]) awaiting ?_ ?_ ?_⟩
      · exact fun interrupted => same ▸ interrupted
      · exact fun member => absurd member (Bool.eq_false_iff.mp outside)
      · exact fun member => absurd member (Bool.eq_false_iff.mp outside)
  | accepted awaited awaiting same pending defaulted =>
    -- Whether it is the first of the set or the accepted one again, it is accepted now.
    have before : set.has signal = true ∧ 0 < signal ∧ signal ≤ 32 ∧
        thread.pending.has signal = false ∧ (processor, signal) ∉ state.record.cancelled ∧
        (∀ s, 0 < s → set.has s = true → thread.pending.has s = true → state.caught s = true ∧
          wait.interruptionResult.isSome = true) ∧
        (∀ s, 0 < s → set.has s = true → state.ignores s = false →
          (processor, s) ∈ state.record.queued → s = signal ∨ thread.pending.has s = true ∨
            (processor, s) ∈ state.record.cancelled ∨
            (processor, s) ∈ state.record.defaulted) := by
      rcases phase with idle | ⟨a, accepted⟩
      · rw [idle.awaited] at awaited
        obtain ⟨unlisted, absent, uncancelled, -⟩ := idle.quiet signal positive awaited
        refine ⟨awaited, positive, SignalSet.le_of_has awaited, unlisted, uncancelled, ?_, ?_⟩
        · intro s some member pending
          rw [(idle.quiet s some member).1] at pending
          contradiction
        · intro s some member _ arrived
          exact absurd arrived (idle.quiet s some member).2.1
      · have same : signal = a := by
          rw [accepted.awaited, SignalSet.has_bit accepted.bounded positive accepted.positive]
            at awaited
          exact of_decide_eq_true awaited
        subst same
        exact ⟨accepted.member, positive, accepted.bounded, accepted.consumed, accepted.held,
          accepted.settled, accepted.accounted⟩
    obtain ⟨member, positive, bounded, unlisted, uncancelled, settled, accounted⟩ := before
    refine .inr ⟨signal, ?_⟩
    constructor
    · rw [same]
    · exact positive
    · exact bounded
    · exact member
    · exact awaiting
    · exact pending
    · exact (delivered.queued signal).mpr (.inl rfl)
    · rw [delivered.cancelled, unlisted]
      simpa using uncancelled
    · intro s some inside list
      have other : s ≠ signal := by
        rintro rfl
        rw [pending] at list
        contradiction
      rw [delivered.caught, same]
      exact settled s some inside (delivered.pending_before some other list)
    · intro s some inside serious arrived
      rw [delivered.ignores] at serious
      by_cases other : s = signal
      · exact .inl other
      · rcases accounted s some inside serious
          (((delivered.queued s).mp arrived).resolve_left other) with here | list | gone | noted
        · exact .inl here
        · rcases delivered.pending_or_cancelled some other list with list | cancelled
          · exact .inr (.inl list)
          · exact .inr (.inr (.inl cancelled))
        · exact .inr (.inr (.inl ((delivered.cancelled s).mpr (.inr gone))))
        · exact .inr (.inr (.inr (delivered.defaulted_before noted)))
  | caught through unawaited caught awaiting same pending defaulted =>
    have member : set.has signal = true := through.resolve_right fun strong => by
      rw [(waits.fatal signal strong).1] at caught
      contradiction
    rcases phase with idle | ⟨a, accepted⟩
    · rw [idle.awaited, member] at unawaited
      contradiction
    · have interrupted : wait'.interruptionResult.isSome = true := by
        rw [same, Option.isSome_or, Option.isSome_some, Bool.or_true]
      refine .inr ⟨a, delivered.still_accepted accepted (accepted.other positive unawaited)
        (by rw [same]) awaiting ?_ ?_ ?_⟩
      · exact fun _ => interrupted
      · exact fun _ _ => ⟨caught, interrupted⟩
      · exact fun _ _ => .inl pending
  | taken through unawaited uncaught awaiting same pending defaulted =>
    rcases phase with idle | ⟨a, accepted⟩
    · have outside : set.has signal = false := by
        rw [← idle.awaited]
        exact unawaited
      refine .inl (delivered.still_idle idle outside same awaiting ?_)
      intro s member
      rw [defaulted] at member
      split at member
      · exact .inr member
      · simpa using member
    · refine .inr ⟨a, delivered.still_accepted accepted (accepted.other positive unawaited)
        (by rw [same]) awaiting ?_ ?_ ?_⟩
      · exact fun interrupted => same ▸ interrupted
      · intro _ list
        rw [pending] at list
        contradiction
      · intro _ serious
        rw [defaulted, serious]
        exact .inr List.mem_cons_self

end Delivered

theorem harmless_iff (waits : state.Waits processor set thread wait) {given : Option Nat}
    (kept : state.dropped signal = false) (goes : state.target signal given = some processor) :
    state.harmless processor set (signal, given) ↔
      (set.has signal = true → ∀ a, wait.selected = some a → a = signal ∨
        state.ignores signal = true ∨ (state.caught signal = true ∧
          (state.signals.waitReportsInterrupt = false ∨ state.ignores a = true ∨
            wait.interruptionResult.isSome = true ∨
              (state.actions signal).restart = true))) := by
  constructor
  · intro harmless member a selected
    exact harmless kept goes member wait a waits.waited selected
  · intro harmless _ _ member other a found selected
    cases waits.waited.symm.trans found
    exact harmless member a selected

namespace Delivered
variable (delivered : state.Delivered state' processor signal set thread thread' wait wait')
  (waits : state.Waits processor set thread wait)
include delivered

theorem spoiled_of_default (positive : 0 < signal) (serious : state.ignores signal = false)
    (defaulted : state'.record.defaulted = (processor, signal) :: state.record.defaulted) :
    state'.Spoiled processor set ↔ state.Spoiled processor set ∨ set.has signal = true := by
  unfold Spoiled
  simp only [defaulted, delivered.ignores, List.mem_cons, Prod.mk.injEq, true_and]
  constructor
  · rintro ⟨s, some, member, unignored, rfl | noted⟩
    · exact .inr member
    · exact .inl ⟨s, some, member, unignored, noted⟩
  · rintro (⟨s, some, member, unignored, noted⟩ | member)
    · exact ⟨s, some, member, unignored, .inr noted⟩
    · exact ⟨signal, positive, member, serious, .inl rfl⟩

theorem lost_of_interrupted {a : Nat} (selected : wait.selected = some a) {result : Nat}
    (same : wait' = { wait with interruptionResult := some result }) :
    state'.Lost processor ↔ state.ignores a = false ∧
      state.signals.waitReportsInterrupt = true ∧ result ≠ 0 := by
  unfold Lost
  rw [delivered.waited, delivered.reports]
  constructor
  · rintro ⟨_, b, error, found, chosen, serious, reports, interruption, nonzero⟩
    cases found
    rw [same] at chosen interruption
    cases selected.symm.trans chosen
    cases interruption
    rw [delivered.ignores] at serious
    exact ⟨serious, reports, nonzero⟩
  · rintro ⟨serious, reports, nonzero⟩
    rw [← delivered.ignores] at serious
    exact ⟨wait', a, result, rfl, by rw [same]; exact selected, serious, reports, by rw [same],
      nonzero⟩

include waits

/-- A delivery does harm exactly if it is not harmless. -/
theorem harmed_iff (positive : 0 < signal)
    (phase : state.Idle processor set thread wait ∨
      ∃ a, state.Accepted processor set thread wait a) {given : Option Nat}
    (kept : state.dropped signal = false) (goes : state.target signal given = some processor) :
    state'.Harmed processor set ↔
      state.Harmed processor set ∨ ¬state.harmless processor set (signal, given) := by
  rw [harmless_iff waits kept goes]
  unfold Harmed
  cases delivered.reaction with
  | held outside maskable unawaited awaiting same pending defaulted =>
    rw [delivered.spoiled_of_same defaulted, delivered.lost_of_same waits (by rw [same]) (by rw [same]),
      outside]
    simp
  | accepted awaited awaiting same pending defaulted =>
    rw [delivered.spoiled_of_same defaulted]
    rcases phase with idle | ⟨a, accepted⟩
    · have lost : ¬state'.Lost processor := by
        rintro ⟨_, _, _, found, -, -, -, interruption, -⟩
        cases delivered.waited.symm.trans found
        rw [same, idle.uninterrupted] at interruption
        contradiction
      have before : ¬state.Lost processor := fun lost => idle.unharmed waits (.inr lost)
      simp [lost, before, idle.selected]
    · have here : signal = a := by
        rw [accepted.awaited, SignalSet.has_bit accepted.bounded positive accepted.positive]
          at awaited
        exact of_decide_eq_true awaited
      have chosen : wait'.selected = wait.selected := by
        rw [same, accepted.selected, here]
      rw [delivered.lost_of_same waits chosen (by rw [same]), accepted.selected, here]
      simp
  | caught through unawaited caught awaiting same pending defaulted =>
    have member : set.has signal = true := through.resolve_right fun strong => by
      rw [(waits.fatal signal strong).1] at caught
      contradiction
    rw [delivered.spoiled_of_same defaulted]
    rcases phase with idle | ⟨a, accepted⟩
    · rw [idle.awaited, member] at unawaited
      contradiction
    · have other := accepted.other positive unawaited
      have serious := caught_not_ignored caught
      cases interruption : wait.interruptionResult with
      | some result =>
        have again : wait'.interruptionResult = wait.interruptionResult := by
          rw [same, interruption, Option.some_or]
        rw [delivered.lost_of_same waits (by rw [same]) again]
        simp [caught]
      | none =>
        rw [interruption, Option.none_or] at same
        have lost : ¬state.Lost processor := by
          rintro ⟨_, _, _, found, -, -, -, interrupted, -⟩
          cases waits.waited.symm.trans found
          rw [interruption] at interrupted
          contradiction
        rw [delivered.lost_of_interrupted accepted.selected same]
        cases restart : (state.actions signal).restart with
        | true => simp [lost, caught]
        | false =>
          simp [lost, caught, member, accepted.selected, other, serious, interruptedError]
          tauto
  | taken through unawaited uncaught awaiting same pending defaulted =>
    rw [delivered.lost_of_same waits (by rw [same]) (by rw [same])]
    cases serious : state.ignores signal with
    | true =>
      rw [if_pos serious] at defaulted
      rw [delivered.spoiled_of_same defaulted]
      simp
    | false =>
      rw [if_neg (Bool.eq_false_iff.mp serious)] at defaulted
      rw [delivered.spoiled_of_default positive serious defaulted]
      cases member : set.has signal with
      | false => simp
      | true =>
        rcases phase with idle | ⟨a, accepted⟩
        · rw [idle.awaited, member] at unawaited
          contradiction
        · have other := accepted.other positive unawaited
          simp [accepted.selected, other, uncaught]

end Delivered
/-! ### Runs -/

theorem Unmoved.waiting (unmoved : Unmoved processor state state')
    (waiting : state.Waiting processor set) : state'.Waiting processor set := by
  obtain ⟨thread, wait, waits, phase⟩ := waiting
  refine ⟨thread, wait, ?_, ?_⟩
  · exact { waits with
      found := unmoved.thread.trans waits.found
      waited := unmoved.wait.trans waits.waited
      fatal := by
        intro s strong
        rw [unmoved.caught, unmoved.ignores]
        exact waits.fatal s strong }
  · rcases phase with idle | ⟨a, accepted⟩
    · refine .inl { idle with quiet := ?_ }
      intro s positive member
      rw [unmoved.queued, unmoved.cancelled, unmoved.defaulted]
      exact idle.quiet s positive member
    · refine .inr ⟨a, { accepted with
        arrived := (unmoved.queued a).mpr accepted.arrived
        held := (unmoved.cancelled a).not.mpr accepted.held
        settled := ?_
        accounted := ?_ }⟩
      · intro s positive member pending
        rw [unmoved.caught]
        exact accepted.settled s positive member pending
      · intro s positive member
        rw [unmoved.ignores, unmoved.queued, unmoved.cancelled, unmoved.defaulted]
        exact accepted.accounted s positive member

theorem Unmoved.harmed (unmoved : Unmoved processor state state') :
    state'.Harmed processor set ↔ state.Harmed processor set := by
  unfold Harmed Spoiled Lost
  simp only [unmoved.ignores, unmoved.defaulted, unmoved.wait, unmoved.reports]

/-- A signal that is dropped, or goes elsewhere. -/
theorem deliver_unmoved {delivery : Nat × Option Nat}
    (elsewhere : state.dropped delivery.1 = false →
      state.target delivery.1 delivery.2 ≠ some processor) :
    Unmoved processor state (state.deliver delivery) := by
  unfold deliver deliverSignalToThread
  cases dropped : state.dropped delivery.1 with
  | true => exact Unmoved.refl state
  | false =>
    have resumed := @Unmoved.resumed state processor delivery.1
    have away := elsewhere dropped
    unfold target at away
    simp only [Bool.false_eq_true, if_false]
    split
    · exact resumed
    · rename_i other goes
      have different : processor ≠ other := by
        rintro rfl
        exact away goes
      exact (resumed.trans (Unmoved.queue different)).trans (Unmoved.processPendingSignals different)

theorem deliver_step (waiting : state.Waiting processor set) (delivery : Nat × Option Nat) :
    (state.deliver delivery).Waiting processor set ∧
      ((state.deliver delivery).Harmed processor set ↔
        state.Harmed processor set ∨ ¬state.harmless processor set delivery) := by
  by_cases here : state.dropped delivery.1 = false ∧
      state.target delivery.1 delivery.2 = some processor
  · obtain ⟨kept, goes⟩ := here
    obtain ⟨thread, wait, waits, phase⟩ := waiting
    obtain ⟨thread', wait', delivered⟩ := delivered_of_kept waits phase kept goes
    have positive := (valid_of_kept kept).1
    constructor
    · exact ⟨thread', wait', delivered.waits waits, delivered.phase waits positive phase⟩
    · exact delivered.harmed_iff waits positive phase kept goes
  · have unmoved : Unmoved processor state (state.deliver delivery) :=
      deliver_unmoved fun kept goes => here ⟨kept, goes⟩
    have harmless : state.harmless processor set delivery :=
      fun kept goes => absurd ⟨kept, goes⟩ here
    constructor
    · exact unmoved.waiting waiting
    · rw [unmoved.harmed]
      exact ⟨Or.inl, fun either => either.resolve_right (not_not.mpr harmless)⟩

theorem run_step (waiting : state.Waiting processor set) (deliveries : List (Nat × Option Nat)) :
    (run deliver state deliveries).Waiting processor set ∧
      ((run deliver state deliveries).Harmed processor set ↔
        state.Harmed processor set ∨
          ¬Along deliver (fun s => s.harmless processor set) state deliveries) := by
  induction deliveries generalizing state with
  | nil => exact ⟨waiting, by simp [Along]⟩
  | cons delivery rest ih =>
    obtain ⟨first, harm⟩ := deliver_step waiting delivery
    obtain ⟨last, later⟩ := ih first
    refine ⟨last, ?_⟩
    rw [run_cons, later, harm]
    simp only [Along, not_and_or, or_assoc]

/-! ### The end of a wait -/

theorem pending_resume (other : Nat) :
    (state.signals.resume processor).pending other = state.signals.pending other := by
  unfold DarwinSignalState.resume DarwinSignalState.pending
  rw [DarwinSignalState.thread_edit]
  split
  · cases state.signals.thread other with
    | none => rfl
    | some thread => rfl
  · rfl

/-- A wait that has accepted a signal ends with an error, and returns nothing, or it returns
the signal and takes it off the list. -/
theorem complete_cases (waits : state.Waits processor set thread wait) {a : Nat}
    (selected : wait.selected = some a) {copied : Bool} {completed : SignalProcess}
    {outcome : SignalWaitOutcome}
    (completes : state.completeSignalWait processor false copied = some (completed, outcome)) :
    (state.signals.waitReportsInterrupt = true ∧
      (∃ error, wait.interruptionResult = some error ∧ error ≠ 0) ∧
        completed.signals.pending processor = thread.pending) ∨
    (outcome.signal = some a ∧
      completed.signals.pending processor = thread.pending &&& ~~~Signal.bit a) := by
  have resumed : (state.signals.resume processor).pending processor = thread.pending :=
    pending_resume processor |>.trans (DarwinSignalState.pending_of_thread waits.found)
  unfold completeSignalWait at completes
  simp only [waits.waited, selected, reduceCtorEq, decide_false, Bool.false_and,
    Bool.false_eq_true, if_false] at completes
  split at completes
  · rename_i fails
    cases completes
    obtain ⟨nonzero, reports⟩ := Bool.and_eq_true _ _ ▸ fails
    refine .inl ⟨reports, ?_, resumed⟩
    cases interruption : wait.interruptionResult with
    | none => simp [interruption] at nonzero
    | some error => exact ⟨error, rfl, by simpa [interruption] using nonzero⟩
  · cases completes
    refine .inr ⟨rfl, ?_⟩
    have found : (state.signals.resume processor).thread processor = some { thread with
        mask := thread.savedMask.getD thread.mask, savedMask := none, waitMask := 0 } :=
      DarwinSignalState.thread_edit_self waits.found _
    exact DarwinSignalState.pending_of_thread (DarwinSignalState.thread_edit_self found _)

/-- An interruption is what the wait has come to, if that is anything. -/
theorem interrupt_cases {copied : Bool} {completed : SignalProcess} {outcome : SignalWaitOutcome}
    (interrupted : state.interruptThreadWait processor copied = some (completed, outcome))
    (ends : (state.completeSignalWait processor false copied).isSome = true) :
    ∃ before, state.completeSignalWait processor false copied = some (before, outcome) ∧
      completed.signals.pending processor = before.signals.pending processor := by
  unfold interruptThreadWait at interrupted
  obtain ⟨⟨before, result⟩, completes⟩ := Option.isSome_iff_exists.mp ends
  rw [completes, Option.some_or, Option.map_some] at interrupted
  cases interrupted
  exact ⟨before, completes, pending_resume processor⟩

theorem complete_isSome (waits : state.Waits processor set thread wait) {a : Nat}
    (selected : wait.selected = some a) (copied : Bool) :
    (state.completeSignalWait processor false copied).isSome = true := by
  unfold completeSignalWait
  simp only [waits.waited, selected, reduceCtorEq, decide_false, Bool.false_and,
    Bool.false_eq_true, if_false]
  split
  · rfl
  · rfl

/-- The two ways in which a wait that has accepted a signal ends. -/
theorem ended_cases (waits : state.Waits processor set thread wait) {a : Nat}
    (selected : wait.selected = some a) {copied : Bool} {completed : SignalProcess}
    {outcome : SignalWaitOutcome}
    (ends : state.completeSignalWait processor false copied = some (completed, outcome) ∨
      state.interruptThreadWait processor copied = some (completed, outcome)) :
    (state.signals.waitReportsInterrupt = true ∧
      (∃ error, wait.interruptionResult = some error ∧ error ≠ 0) ∧
        completed.signals.pending processor = thread.pending) ∨
    (outcome.signal = some a ∧
      completed.signals.pending processor = thread.pending &&& ~~~Signal.bit a) := by
  rcases ends with completes | interrupted
  · exact complete_cases waits selected completes
  · obtain ⟨before, completes, same⟩ :=
      interrupt_cases interrupted (complete_isSome waits selected copied)
    rw [same]
    exact complete_cases waits selected completes

theorem Accepted.protected {a : Nat} (accepted : state.Accepted processor set thread wait a)
    (waits : state.Waits processor set thread wait) (unharmed : ¬state.Harmed processor set) :
    state.Protected processor set where
  spared := fun s positive member serious noted =>
    unharmed (.inl ⟨s, positive, member, serious, noted⟩)
  kept := by
    intro copied completed outcome ends s positive member serious arrived
    have where_ := accepted.accounted s positive member serious arrived
    rcases ended_cases waits accepted.selected ends with
      ⟨reports, ⟨error, interruption, nonzero⟩, list⟩ | ⟨returned, list⟩
    · rcases where_ with rfl | pending | cancelled | noted
      · exact absurd (.inr ⟨wait, s, error, waits.waited, accepted.selected, serious, reports,
          interruption, nonzero⟩) unharmed
      · rw [list]
        exact .inr (.inl pending)
      · exact .inr (.inr cancelled)
      · exact absurd (.inl ⟨s, positive, member, serious, noted⟩) unharmed
    · rcases where_ with rfl | pending | cancelled | noted
      · exact .inl returned
      · by_cases same : s = a
        · rw [same]
          exact .inl returned
        · rw [list, SignalSet.has_and_not,
            SignalSet.has_bit accepted.bounded positive accepted.positive, decide_eq_false same,
            Bool.not_false, Bool.and_true]
          exact .inr (.inl pending)
      · exact .inr (.inr cancelled)
      · exact absurd (.inl ⟨s, positive, member, serious, noted⟩) unharmed

theorem Idle.protected (idle : state.Idle processor set thread wait) :
    state.Protected processor set where
  spared := fun s positive member _ noted => (idle.quiet s positive member).2.2.2 noted
  kept := fun _ _ _ _ s positive member _ arrived =>
    absurd arrived (idle.quiet s positive member).2.1

/-- A lost signal is neither returned nor pending. -/
theorem Lost.unprotected (lost : state.Lost processor) (waiting : state.Waiting processor set) :
    ¬state.Protected processor set := by
  intro safe
  obtain ⟨wait, a, error, found, selected, serious, reports, interruption, nonzero⟩ := lost
  obtain ⟨thread, other, waits, phase⟩ := waiting
  cases waits.waited.symm.trans found
  rcases phase with idle | ⟨b, accepted⟩
  · rw [idle.selected] at selected
    contradiction
  · cases accepted.selected.symm.trans selected
    have completes : state.completeSignalWait processor false true = some
        ({ state with
          signals := state.signals.resume processor
          pendingSignalWaits := state.pendingSignalWaits.erase processor },
        { signal := none, error }) := by
      unfold completeSignalWait
      simp [waits.waited, accepted.selected, interruption, nonzero, reports]
    rcases safe.kept true _ _ (.inl completes) a accepted.positive accepted.member serious
      accepted.arrived with returned | pending | cancelled
    · contradiction
    · rw [pending_resume, DarwinSignalState.pending_of_thread waits.found,
        accepted.consumed] at pending
      contradiction
    · exact accepted.held cancelled

theorem protected_iff (waiting : state.Waiting processor set) :
    state.Protected processor set ↔ ¬state.Harmed processor set := by
  constructor
  · rintro safe (⟨s, positive, member, serious, noted⟩ | lost)
    · exact safe.spared s positive member serious noted
    · exact lost.unprotected waiting safe
  · intro unharmed
    obtain ⟨thread, wait, waits, idle | ⟨a, accepted⟩⟩ := waiting
    · exact idle.protected
    · exact accepted.protected waits unharmed

/-! ### The beginning of a wait -/

theorem fatal_of_default (default : ∀ s, SignalSet.unmaskable.has s = true →
    (state.actions s).handler = defaultAction) {s : Nat}
    (strong : SignalSet.unmaskable.has s = true) :
    state.caught s = false ∧ state.ignores s = false := by
  have handler := default s strong
  have number : s = Signal.kill ∨ s = Signal.stop := by
    have positive : 0 < s := by
      by_contra zero
      obtain rfl : s = 0 := by omega
      exact absurd strong (by decide)
    unfold SignalSet.unmaskable at strong
    rw [SignalSet.has_or, SignalSet.has_bit (by decide) positive (by decide),
      SignalSet.has_bit (by decide) positive (by decide), Bool.or_eq_true, decide_eq_true_eq,
      decide_eq_true_eq] at strong
    exact strong
  unfold caught ignores
  rw [handler]
  rcases number with rfl | rfl
  · decide
  · decide

/-- A wait that has not found its signal at once begins idle. -/
theorem dispatchSignalWait_waiting {start begun : SignalProcess} {copied : Bool}
    (waits : start.dispatchSignalWait processor set copied = (begun, none))
    (default : ∀ s, SignalSet.unmaskable.has s = true →
      (start.actions s).handler = defaultAction)
    (prompt : start.signals.pending processor &&& SignalSet.unmaskable = 0)
    (fresh : start.record = {}) :
    begun.Waiting processor (set &&& ~~~SignalSet.unmaskable) ∧
      ¬begun.Harmed processor (set &&& ~~~SignalSet.unmaskable) := by
  unfold dispatchSignalWait at waits
  dsimp only at waits
  split at waits
  · cases waits
  · split at waits
    · cases waits
    · rename_i nothing
      obtain ⟨rfl, -⟩ := Prod.mk.inj waits
      have none_pending := DarwinSignalState.takePending_none nothing
      obtain ⟨thread, found, active, mask, -, awaited, list⟩ :=
        @DarwinSignalState.beginWait_thread start.signals processor (set &&& ~~~SignalSet.unmaskable)
      have absent : ∀ {bits : SignalSet}, start.signals.pending processor &&& bits = 0 →
          ∀ s, bits.has s = true → thread.pending.has s = false := by
        intro bits disjoint s member
        rcases list with same | empty
        · have both := congrArg (SignalSet.has · s) disjoint
          rw [SignalSet.has_and, member, Bool.and_true] at both
          rw [same, both]
          exact BitVec.getLsbD_zero
        · rw [empty]
          exact BitVec.getLsbD_zero
      have waiting : SignalProcess.Waits
          { start with
            signals := start.signals.beginWait processor (set &&& ~~~SignalSet.unmaskable)
            pendingSignalWaits := start.pendingSignalWaits.insert processor
              { signals := set &&& ~~~SignalSet.unmaskable } }
          processor (set &&& ~~~SignalSet.unmaskable) thread
            { signals := set &&& ~~~SignalSet.unmaskable } := by
        refine ⟨found, active, mask, AList.lookup_insert _, ?_, ?_, ?_⟩
        · intro s member
          rw [SignalSet.has_and_not, Bool.and_eq_true, Bool.not_eq_true'] at member
          exact member.2
        · exact fun s _ strong => absent prompt s strong
        · exact fun s strong => fatal_of_default default strong
      have idle : SignalProcess.Idle
          { start with
            signals := start.signals.beginWait processor (set &&& ~~~SignalSet.unmaskable)
            pendingSignalWaits := start.pendingSignalWaits.insert processor
              { signals := set &&& ~~~SignalSet.unmaskable } }
          processor (set &&& ~~~SignalSet.unmaskable) thread
            { signals := set &&& ~~~SignalSet.unmaskable } := by
        refine ⟨rfl, rfl, awaited, ?_⟩
        intro s _ member
        refine ⟨absent none_pending s member, ?_, ?_, ?_⟩
        · rw [fresh]
          exact List.not_mem_nil
        · rw [fresh]
          exact List.not_mem_nil
        · rw [fresh]
          exact List.not_mem_nil
      exact ⟨⟨thread, _, waiting, .inl idle⟩, idle.unharmed waiting⟩

/-- While a thread waits for a set of signals, the signals of the set are safe exactly if
every delivery is harmless. Nothing that cannot be masked has a handler, or is left pending
when the wait begins. -/
theorem wait_protects_iff {start begun : SignalProcess} {processor : Nat} {set : SignalSet}
    {copied : Bool} (waits : start.dispatchSignalWait processor set copied = (begun, none))
    (default : ∀ s, SignalSet.unmaskable.has s = true →
      (start.actions s).handler = defaultAction)
    (prompt : start.signals.pending processor &&& SignalSet.unmaskable = 0)
    (fresh : start.record = {}) (deliveries : List (Nat × Option Nat)) :
    (run deliver begun deliveries).Protected processor (set &&& ~~~SignalSet.unmaskable) ↔
      Along deliver (fun s => s.harmless processor (set &&& ~~~SignalSet.unmaskable)) begun
        deliveries := by
  obtain ⟨waiting, unharmed⟩ := dispatchSignalWait_waiting waits default prompt fresh
  obtain ⟨last, harmed⟩ := run_step waiting deliveries
  rw [protected_iff last, harmed, not_or, not_not]
  exact and_iff_right unharmed

/-- A process whose only thread has blocked `SIGUSR1` and `SIGUSR2`, for neither of which it
has a handler. -/
def blockedUser : SignalProcess where
  signals :=
    { waitConsumesOwner := true, waitReportsInterrupt := true
      threads := [{ mask := Signal.bit 30 ||| Signal.bit 31, active := true, order := 1 }] }

theorem wait_protects_one :
    (run deliver (blockedUser.dispatchSignalWait 0 (Signal.bit 30 ||| Signal.bit 31) true).1
      [(30, none)]).Protected 0 ((Signal.bit 30 ||| Signal.bit 31) &&& ~~~SignalSet.unmaskable) ↔
    Along deliver (fun s =>
        s.harmless 0 ((Signal.bit 30 ||| Signal.bit 31) &&& ~~~SignalSet.unmaskable))
      (blockedUser.dispatchSignalWait 0 (Signal.bit 30 ||| Signal.bit 31) true).1
      [(30, none)] :=
  @wait_protects_iff blockedUser _ 0 (Signal.bit 30 ||| Signal.bit 31) true rfl
    (fun _ _ => rfl) rfl rfl [(30, none)]

/-- The thread waits for both signals, and both arrive before it runs: the first is accepted,
and the second ends the process. -/
theorem second_signal_not_spared :
    blockedUser.signals.mask 0 = Signal.bit 30 ||| Signal.bit 31 ∧
      (blockedUser.dispatchSignalWait 0 (Signal.bit 30 ||| Signal.bit 31) true).2 = none ∧
      (run deliver (blockedUser.dispatchSignalWait 0 (Signal.bit 30 ||| Signal.bit 31) true).1
        [(30, some 0), (31, some 0)]).exited = true ∧
      ¬(run deliver (blockedUser.dispatchSignalWait 0 (Signal.bit 30 ||| Signal.bit 31) true).1
        [(30, some 0), (31, some 0)]).Protected 0
          ((Signal.bit 30 ||| Signal.bit 31) &&& ~~~SignalSet.unmaskable) := by
  refine ⟨rfl, rfl, by decide, ?_⟩
  intro safe
  exact safe.spared 31 (by decide) (by decide) (by decide) (by decide)

end SignalProcess
end ILEmu
