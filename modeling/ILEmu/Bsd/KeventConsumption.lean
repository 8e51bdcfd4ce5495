import ILEmu.Bsd.KeventCollection

/-! Which knotes a report uses up. A collection leaves every other knote as ready as it was,
but for the messages that are received from its port. -/
namespace ILEmu
variable {contract : PthreadContract} {sources : KeventSources} {answers : CollectAnswers}
  {processor bucket eventCount : Nat}

namespace KeventRegistration
variable {registration registration' : KeventRegistration} {ports ports' : KeventPorts}
  {seen : KeventSourceState}

/-- A knote that a collection of the bucket's events would report. -/
def Reportable (contract : PthreadContract) (sources : KeventSources) (bucket : Nat)
    (ports : KeventPorts) (registration : KeventRegistration) : Prop :=
  registration.currentBucket contract ports = bucket ∧ registration.pending sources ports = true

instance : Decidable (registration.Reportable contract sources bucket ports) :=
  inferInstanceAs (Decidable (_ ∧ _))

/-- Whether the report of its event leaves nothing of a knote to report. -/
def usedUp (registration : KeventRegistration) : Bool :=
  registration.deferredDelete || registration.has eventOneShot || registration.has eventDispatch ||
    match registration.filter with
    | .process | .timer => true
    | .read | .write | .vnode | .user => registration.has eventClear
    | .machPort | .other => false

/-- Two knotes that are reportable at the same times. -/
def Alike (contract : PthreadContract) (sources : KeventSources)
    (registration registration' : KeventRegistration) : Prop :=
  ∀ bucket ports, registration'.Reportable contract sources bucket ports ↔
    registration.Reportable contract sources bucket ports

/-- What a visit leaves of a knote: nothing that is reportable if the knote is used up, and
otherwise a knote that is reportable as before. -/
def Leaves (contract : PthreadContract) (sources : KeventSources) (used : Bool)
    (registration : KeventRegistration) (left : Option KeventRegistration) : Prop :=
  if used then
    ∀ registration' ∈ left, ∀ bucket ports, ¬ registration'.Reportable contract sources bucket ports
  else ∃ registration', left = some registration' ∧ registration.Alike contract sources registration'

theorem resultFlags_oneShot (seen : KeventSourceState) :
    registration.resultFlags seen &&& eventOneShot ≠ 0 ↔
      seen.resultFlags &&& eventOneShot ≠ 0 ∨ registration.has eventOneShot = true := by
  have kept : registration.resultFlags seen &&& eventOneShot =
      seen.resultFlags &&& eventOneShot ||| registration.flags &&& eventOneShot := by
    unfold resultFlags eventAdd eventEnable eventClear eventDispatch eventUdataSpecific eventOneShot
    rw [BitVec.and_or_distrib_right, BitVec.and_assoc]
    rfl
  rw [kept]
  simp [has, BitVec.or_eq_zero_iff, imp_iff_not_or, or_comm]

/-- Only processes that exited make an event that was not asked for once. -/
theorem observe_oneShot (other : registration.filter ≠ .process) :
    (observeKevent sources ports registration).resultFlags &&& eventOneShot = 0 := by
  unfold observeKevent keventSourceState
  cases filter : registration.filter <;> simp_all <;> split <;> decide

theorem process_notes (execed exited : Prop) [Decidable execed] [Decidable exited] :
    let notes := (if execed then processNoteExec else 0) ||| (if exited then processNoteExit else 0)
    (notes &&& processNoteExec ≠ 0 ↔ execed) ∧ (notes &&& processNoteExit ≠ 0 ↔ exited) ∧
      (notes ≠ 0 ↔ execed ∨ exited) := by
  by_cases execed <;> by_cases exited <;> simp_all <;> decide

theorem machPort_pending (filter : registration.filter = .machPort) :
    registration.pending sources ports =
      (registration.enabled && (registration.deferredDelete ||
        (ports.ready registration.ident).isSome)) := by
  simp [pending, observeKevent, keventSourceState, suppressed, filter]

theorem currentBucket_congr (filter : registration'.filter = registration.filter)
    (filterFlags : registration'.filterFlags = registration.filterFlags)
    (ident : registration'.ident = registration.ident) (qos : registration'.qos = registration.qos)
    (enabled : registration'.enabled = registration.enabled)
    (deferred : registration'.deferredDelete = registration.deferredDelete) :
    registration'.currentBucket contract ports = registration.currentBucket contract ports := by
  have receives : registration'.receives = registration.receives := by
    unfold KeventRegistration.receives
    rw [filter, filterFlags]
  have bucket : registration'.bucket = registration.bucket := by
    funext contract message
    unfold KeventRegistration.bucket
    rw [receives, qos]
  unfold currentBucket
  rw [receives, bucket, ident, enabled, deferred]

/-- The source of a knote that is no port's does not depend on the ports. -/
theorem observe_ports (other : registration.filter ≠ .machPort) (ports ports' : KeventPorts) :
    observeKevent sources ports registration = observeKevent sources ports' registration := by
  unfold observeKevent
  cases filter : registration.filter <;> simp_all

theorem bucket_ports (other : registration.filter ≠ .machPort) (ports ports' : KeventPorts) :
    registration.currentBucket contract ports = registration.currentBucket contract ports' := by
  simp [currentBucket, receives, other]

theorem Reportable.everywhere (other : registration.filter ≠ .machPort)
    (reportable : registration.Reportable contract sources bucket ports) (ports' : KeventPorts) :
    registration.Reportable contract sources bucket ports' := by
  obtain ⟨current, pending⟩ := reportable
  refine ⟨(bucket_ports other ports' ports).trans current, ?_⟩
  unfold KeventRegistration.pending at pending ⊢
  rwa [observe_ports other ports' ports]

/-- A delivery that a knote forgets makes a difference only while its source is ready. -/
theorem alike_forgotten (ports : KeventPorts)
    (idle : registration.enabled = true →
      (observeKevent sources ports registration).ready = false) :
    registration.Alike contract sources { registration with clearDelivered := false } := by
  intro bucket ports'
  unfold Reportable
  have bucket : { registration with clearDelivered := false }.currentBucket contract ports' =
      registration.currentBucket contract ports' :=
    currentBucket_congr rfl rfl rfl rfl rfl rfl
  rw [bucket]
  apply and_congr_right
  intro _
  by_cases enabled : registration.enabled = true
  · by_cases machPort : registration.filter = .machPort
    · rw [machPort_pending machPort, machPort_pending (by exact machPort)]
    · have same : observeKevent sources ports' { registration with clearDelivered := false } =
          observeKevent sources ports' registration := by
        unfold observeKevent keventSourceState
        cases registration.filter <;> rfl
      have quiet := idle enabled
      rw [observe_ports machPort ports ports'] at quiet
      simp [pending, same, quiet]
  · simp [pending, enabled]

theorem Alike.refl : registration.Alike contract sources registration := fun _ _ => Iff.rfl

/-- A knote whose event was copied out, field by field. -/
structure Delivered (sources : KeventSources) (seen : KeventSourceState)
    (registration registration' : KeventRegistration) : Prop where
  ident : registration'.ident = registration.ident
  filter : registration'.filter = registration.filter
  flags : registration'.flags = registration.flags
  filterFlags : registration'.filterFlags = registration.filterFlags
  data : registration'.data = registration.data
  qos : registration'.qos = registration.qos
  enabled : registration'.enabled = (registration.enabled && !registration.has eventDispatch)
  deferred : registration'.deferredDelete =
    (registration.deferredDelete || registration.resultFlags seen &&& eventOneShot ≠ 0)
  once : registration.resultFlags seen &&& eventOneShot ≠ 0 → registration.has eventDispatch = true
  timer : registration'.timer = registration.timer.map (KeventTimer.consume · sources.now)
  cleared : registration.has eventClear = true →
    registration'.clearDelivered = true ∧ registration'.clearAvailable = seen.available ∧
      registration'.userTriggered = (registration.userTriggered && registration.filter ≠ .user) ∧
        registration'.vnodeWatch = registration.vnodeWatch.map (· &&& ~~~seen.filterFlags)
  level : registration.has eventClear = false →
    registration'.clearDelivered = registration.clearDelivered ∧
      registration'.clearAvailable = registration.clearAvailable ∧
        registration'.userTriggered = registration.userTriggered ∧
          registration'.vnodeWatch = registration.vnodeWatch
  execed : registration'.processExecGeneration =
    if registration.filter = .process ∧ seen.filterFlags &&& processNoteExec ≠ 0 then
      seen.processExecGeneration
    else registration.processExecGeneration
  exited : registration'.processExitGeneration =
    if registration.filter = .process ∧ seen.filterFlags &&& processNoteExit ≠ 0 then
      seen.processExitGeneration
    else registration.processExitGeneration

theorem delivered_of_left (left : registration.delivered sources seen = some registration') :
    Delivered sources seen registration registration' := by
  unfold delivered at left
  by_cases clears : registration.has eventClear = true
  all_goals
    simp only [clears, ↓reduceIte, Bool.false_eq_true] at left
    split at left
    · cases left
    · rename_i stays
      cases left
      simp only [Bool.and_eq_true, decide_eq_true_eq, Bool.not_eq_true', Bool.and_eq_false_iff,
        not_and, not_or, Bool.not_eq_false] at stays
      constructor <;> simp_all

theorem delivered_stays (sources : KeventSources)
    (once : registration.resultFlags seen &&& eventOneShot = 0) :
    ∃ registration', registration.delivered sources seen = some registration' := by
  simp [delivered, once]

namespace Delivered
variable (delivered : Delivered sources seen registration registration')
include delivered

theorem has_eq (flag : BitVec 16) : registration'.has flag = registration.has flag := by
  unfold has
  rw [delivered.flags]

/-- Level-triggered sources are seen as before. -/
theorem observe_eq (level : registration.has eventClear = false)
    (process : registration.filter ≠ .process) (timer : registration.filter ≠ .timer) :
    observeKevent sources ports registration' = observeKevent sources ports registration := by
  obtain ⟨-, -, triggered, watch⟩ := delivered.level level
  unfold observeKevent keventSourceState
  rw [delivered.filter, delivered.ident, delivered.filterFlags, delivered.data, triggered, watch]
  cases filter : registration.filter <;> simp_all

/-- A timer that fired waits for a later time. -/
theorem timer_quiet (timer : registration.filter = .timer) (ports' : KeventPorts) :
    (observeKevent sources ports' registration').ready = false := by
  unfold observeKevent keventSourceState
  simp only [delivered.filter, timer, delivered.timer, Option.getD_some]
  cases registration.timer with
  | none => rfl
  | some timer => simp [timer.expirations_consume]

theorem user_quiet (user : registration.filter = .user)
    (clears : registration.has eventClear = true) (ports' : KeventPorts) :
    (observeKevent sources ports' registration').ready = false := by
  obtain ⟨-, -, triggered, -⟩ := delivered.cleared clears
  unfold observeKevent keventSourceState
  simp only [delivered.filter, user, Option.getD_some, triggered]
  simp

end Delivered

/-- The event that `seen` describes, but for the status of a message that was received. -/
structure Seen (sources : KeventSources) (ports : KeventPorts) (registration : KeventRegistration)
    (seen : KeventSourceState) : Prop where
  enabled : registration.enabled = true
  kept : registration.deferredDelete = false
  ready : (observeKevent sources ports registration).ready = true
  same : ∃ filterFlags, seen = { observeKevent sources ports registration with filterFlags } ∧
    (registration.filter ≠ .machPort →
      filterFlags = (observeKevent sources ports registration).filterFlags)

namespace Seen
variable (event : Seen sources ports registration seen)
include event

theorem eq (other : registration.filter ≠ .machPort) :
    seen = observeKevent sources ports registration := by
  obtain ⟨filterFlags, rfl, same⟩ := event.same
  rw [same other]

theorem oneShot (other : registration.filter ≠ .process) :
    registration.resultFlags seen &&& eventOneShot ≠ 0 ↔ registration.has eventOneShot = true := by
  obtain ⟨filterFlags, rfl, _⟩ := event.same
  rw [resultFlags_oneShot]
  simp [observe_oneShot other]

/-- The report of an event that does not use up its knote. -/
theorem leaves_alike (lasts : registration.usedUp = false) :
    ∃ registration', registration.delivered sources seen = some registration' ∧
      registration.Alike contract sources registration' := by
  simp only [usedUp, Bool.or_eq_false_iff] at lasts
  obtain ⟨⟨⟨kept, single⟩, held⟩, filter⟩ := lasts
  have process : registration.filter ≠ .process := by
    intro process
    simp [process] at filter
  have timer : registration.filter ≠ .timer := by
    intro timer
    simp [timer] at filter
  have stays : registration.resultFlags seen &&& eventOneShot = 0 := by
    by_contra once
    rw [(event.oneShot process).mp once] at single
    contradiction
  obtain ⟨registration', left⟩ := delivered_stays sources stays
  have delivered := delivered_of_left left
  have enabled : registration'.enabled = registration.enabled := by
    rw [delivered.enabled, held]
    simp
  have deferred : registration'.deferredDelete = registration.deferredDelete := by
    rw [delivered.deferred, stays]
    simp
  refine ⟨registration', left, fun bucket ports' => ?_⟩
  unfold Reportable
  rw [currentBucket_congr delivered.filter delivered.filterFlags delivered.ident delivered.qos
    enabled deferred]
  apply and_congr_right
  intro _
  by_cases machPort : registration.filter = .machPort
  · rw [machPort_pending machPort, machPort_pending (delivered.filter.trans machPort), enabled,
      deferred, delivered.ident]
  · by_cases level : registration.has eventClear = false
    · obtain ⟨forgotten, available, -, -⟩ := delivered.level level
      unfold pending suppressed
      rw [delivered.observe_eq level process timer, enabled, deferred, delivered.has_eq,
        delivered.filter, forgotten, available]
    · cases form : registration.filter with
      | other =>
        have quiet := event.ready
        simp [observeKevent, keventSourceState, form] at quiet
      | _ => simp_all

/-- The generations that an event of a process reports are not reported again. -/
theorem process_quiet (delivered : Delivered sources seen registration registration')
    (process : registration.filter = .process) (ports' : KeventPorts) :
    (observeKevent sources ports' registration').ready = false := by
  have same := event.eq (by simp [process])
  have execed := delivered.execed
  have exited := delivered.exited
  simp only [process, true_and] at execed exited
  unfold observeKevent keventSourceState
  simp only [delivered.filter, process, delivered.ident, delivered.filterFlags]
  unfold observeKevent keventSourceState at same
  simp only [process] at same
  cases known : sources.processes registration.ident with
  | none => rfl
  | some state =>
    obtain ⟨exec, exit, -⟩ := process_notes
      (registration.filterFlags &&& processNoteExec ≠ 0 ∧
        state.execGeneration ≠ registration.processExecGeneration)
      (registration.filterFlags &&& processNoteExit ≠ 0 ∧
        state.exitGeneration ≠ registration.processExitGeneration)
    simp only [known, Option.getD_some] at same ⊢
    subst same
    simp only at execed exited
    rw [if_congr exec rfl rfl] at execed
    rw [if_congr exit rfl rfl] at exited
    rw [decide_eq_false_iff_not, (process_notes _ _).2.2, execed, exited]
    grind

/-- The notes of a watched file that an event reports are acknowledged. -/
theorem vnode_quiet (delivered : Delivered sources seen registration registration')
    (vnode : registration.filter = .vnode) (clears : registration.has eventClear = true)
    (ports' : KeventPorts) :
    (observeKevent sources ports' registration').ready = false := by
  have same := event.eq (by simp [vnode])
  obtain ⟨-, -, -, watch⟩ := delivered.cleared clears
  have notes : seen.filterFlags = registration.vnodeWatch.getD 0 &&& registration.filterFlags := by
    rw [same]
    simp [observeKevent, keventSourceState, vnode]
  unfold observeKevent keventSourceState
  simp only [delivered.filter, vnode, Option.getD_some, watch, delivered.filterFlags, notes,
    decide_eq_false_iff_not, not_not]
  cases registration.vnodeWatch with
  | none => simp
  | some pending =>
    apply BitVec.eq_of_getElem_eq
    intro i bound
    simp
    grind

/-- A descriptor whose event was delivered has nothing new. -/
theorem descriptor_suppressed (delivered : Delivered sources seen registration registration')
    (descriptor : registration.filter = .read ∨ registration.filter = .write)
    (clears : registration.has eventClear = true) (ports' : KeventPorts) :
    registration'.suppressed (observeKevent sources ports' registration').available = true := by
  have same := event.eq (by rcases descriptor with form | form <;> simp [form])
  obtain ⟨forgotten, available, -, -⟩ := delivered.cleared clears
  have kept : (observeKevent sources ports' registration').available = seen.available := by
    rw [same]
    unfold observeKevent
    rw [delivered.filter, delivered.ident]
    rcases descriptor with form | form <;> simp [form]
  unfold suppressed
  rw [delivered.has_eq, clears, delivered.filter, forgotten, available, kept]
  rcases descriptor with form | form <;> simp [form]

/-- A knote that its event uses up is not reportable when it is left. -/
theorem leaves_nothing (used : registration.usedUp = true)
    (left : registration.delivered sources seen = some registration') (ports' : KeventPorts) :
    registration'.pending sources ports' = false := by
  have delivered := delivered_of_left left
  by_cases held : registration.has eventDispatch = true
  · have disabled : registration'.enabled = false := by
      rw [delivered.enabled, held]
      simp
    simp [pending, disabled]
  · have stays : registration.resultFlags seen &&& eventOneShot = 0 := by
      by_contra once
      exact held (delivered.once once)
    have deferred : registration'.deferredDelete = false := by
      rw [delivered.deferred, stays, event.kept]
      simp
    have single : registration.has eventOneShot = false := by
      rw [← Bool.not_eq_true]
      intro single
      exact (resultFlags_oneShot seen).mpr (.inr single) stays
    simp only [usedUp, event.kept, single, held, Bool.false_or] at used
    suffices quiet : (observeKevent sources ports' registration').ready = false ∨
        registration'.suppressed (observeKevent sources ports' registration').available = true by
      rcases quiet with quiet | quiet <;> simp [pending, deferred, quiet]
    cases form : registration.filter with
    | process => exact .inl (event.process_quiet delivered form ports')
    | timer => exact .inl (delivered.timer_quiet form ports')
    | vnode =>
      rw [form] at used
      exact .inl (event.vnode_quiet delivered form used ports')
    | user =>
      rw [form] at used
      exact .inl (delivered.user_quiet form used ports')
    | read | write =>
      rw [form] at used
      exact .inr (event.descriptor_suppressed delivered (by simp [form]) used ports')
    | machPort | other => simp [form] at used

end Seen
/-- The report of a knote's event. -/
theorem Seen.leaves (event : Seen sources ports registration seen) :
    registration.Leaves contract sources registration.usedUp
      ((registration.serviced contract bucket processor).delivered sources seen) := by
  obtain ⟨servicer, serviced⟩ : ∃ servicer, registration.serviced contract bucket processor =
      { registration with workqueueServicer := servicer } := by
    unfold KeventRegistration.serviced
    split
    · exact ⟨_, rfl⟩
    · exact ⟨registration.workqueueServicer, rfl⟩
  rw [serviced]
  have event' : Seen sources ports { registration with workqueueServicer := servicer } seen :=
    ⟨event.enabled, event.kept, event.ready, event.same⟩
  unfold Leaves
  by_cases used : registration.usedUp = true
  · rw [if_pos used]
    rintro registration' left bucket ports' ⟨-, pending⟩
    rw [event'.leaves_nothing used left ports'] at pending
    contradiction
  · rw [if_neg used]
    exact event'.leaves_alike (Bool.eq_false_iff.mpr used)

end KeventRegistration

section
open KeventRegistration
variable {state : CollectState} {registration : KeventRegistration}

theorem passed_alike {left : KeventRegistration}
    (passed : visitKevent contract sources answers processor bucket eventCount state registration =
      .passed left) :
    registration.Alike contract sources left := by
  unfold visitKevent at passed
  split at passed
  · cases passed
    exact .refl
  split at passed
  · split at passed
    · cases passed
      exact .refl
    · split at passed <;> cases passed
  split at passed
  · rename_i disabled
    cases passed
    exact alike_forgotten state.ports fun enabled => by simp [enabled] at disabled
  dsimp only at passed
  split at passed
  · rename_i quiet
    cases passed
    exact alike_forgotten state.ports fun _ => by simpa using quiet
  split at passed
  · cases passed
    exact .refl
  split at passed
  · cases passed
    exact .refl
  · split at passed <;> cases passed

theorem reported_leaves {left : Option KeventRegistration} {event : KeventValue}
    {next : CollectState}
    (reported : visitKevent contract sources answers processor bucket eventCount state registration =
      .reported left event next) :
    registration.Leaves contract sources registration.usedUp left := by
  unfold visitKevent at reported
  split at reported
  · cases reported
  split at reported
  · rename_i deleted
    rw [Bool.and_eq_true] at deleted
    have used : registration.usedUp = true := by simp [usedUp, deleted.1]
    split at reported
    · cases reported
    · split at reported
      · cases reported
      · cases reported
        rw [Leaves, if_pos used]
        simp
  rename_i kept
  split at reported
  · cases reported
  rename_i enabled
  dsimp only at reported
  split at reported
  · cases reported
  rename_i ready
  split at reported
  · cases reported
  split at reported
  · cases reported
  · rename_i next' value received
    split at reported
    · cases reported
    · cases reported
      simp only [Bool.not_eq_true', Bool.not_eq_false] at enabled ready
      apply @Seen.leaves contract sources processor bucket registration state.ports
      refine ⟨enabled, by simpa [enabled] using kept, ready, _, rfl, fun other => ?_⟩
      rw [if_neg (by simp [receives, other])] at received
      cases received
      rfl

/-- With room in the list and a message to receive, the reportable knotes are those reported. -/
theorem visit_reports_iff (room : state.written ≠ eventCount)
    (copied : answers.written state.written = true)
    (answered : registration.receives = true → ∀ value,
      (collectReceipt answers state registration value).isSome = true) :
    (∃ left event next, visitKevent contract sources answers processor bucket eventCount state
        registration = .reported left event next) ↔
      registration.Reportable contract sources bucket state.ports := by
  unfold Reportable pending visitKevent
  by_cases current : registration.currentBucket contract state.ports = bucket
  · simp only [current, ne_eq, not_true_eq_false, ↓reduceIte, room, copied, Bool.not_true,
      decide_false, Bool.or_false, true_and]
    by_cases enabled : registration.enabled = true
    · by_cases deleted : registration.deferredDelete = true
      · simp [enabled, deleted]
      · simp only [enabled, deleted, Bool.false_and, Bool.not_true, Bool.false_eq_true, ↓reduceIte,
          Bool.false_or, Bool.true_and]
        by_cases ready : (observeKevent sources state.ports registration).ready = true
        · by_cases suppressed : registration.suppressed
              (observeKevent sources state.ports registration).available = true
          · simp [ready, suppressed]
          · simp only [ready, suppressed, Bool.not_true, Bool.false_eq_true, ↓reduceIte,
              Bool.not_false, Bool.true_and, iff_true]
            by_cases receives : registration.receives = true
            · obtain ⟨next, received⟩ := Option.isSome_iff_exists.mp (answered receives
                (registration.value sources (observeKevent sources state.ports registration)))
              simp [receives, received]
            · simp [receives]
        · simp [ready]
    · simp [enabled]
  · simp [current]

end

namespace KeventCollection

/-- Whether the event of the knote in a place was copied out. -/
def reports (collected : KeventCollection) (place : Nat) : Bool :=
  (collected.visits[place]?).any (·.event.isSome)

end KeventCollection

/-- What a collection leaves in each place of the kqueue. -/
theorem collect_leaves (knotes : List (Option KeventRegistration)) (state : CollectState)
    {place : Nat} {registration : KeventRegistration}
    (found : knotes[place]? = some (some registration)) :
    let collected := collectReadyKevents contract sources answers processor bucket eventCount state
      knotes
    ∃ left, collected.knotes[place]? = some left ∧
      registration.Leaves contract sources (collected.reports place && registration.usedUp) left := by
  dsimp only
  induction knotes generalizing state place with
  | nil => simp at found
  | cons knote rest ih =>
    cases place with
    | zero =>
      simp only [List.getElem?_cons_zero, Option.some.injEq] at found
      subst found
      unfold collectReadyKevents
      cases visit : visitKevent contract sources answers processor bucket eventCount state
        registration with
      | passed left => exact ⟨some left, rfl, left, rfl, passed_alike visit⟩
      | faulted ports => exact ⟨some registration, rfl, registration, rfl, .refl⟩
      | reported left event next =>
        exact ⟨left, rfl, by simpa [KeventCollection.reports] using reported_leaves visit⟩
    | succ place =>
      rw [List.getElem?_cons_succ] at found
      cases knote with
      | none => exact ih state found
      | some first =>
        unfold collectReadyKevents
        cases visitKevent contract sources answers processor bucket eventCount state first with
        | passed left => exact ih state found
        | faulted ports =>
          have unmoved : (rest.map fun left => ({ left } : KeventVisit))[place]? =
              some { left := some registration } := by
            simp [found]
          refine ⟨some registration, ?_, ?_⟩
          · simp [KeventCollection.knotes, found]
          · simp only [KeventCollection.reports, List.getElem?_cons_succ, unmoved]
            exact ⟨registration, rfl, .refl⟩
        | reported left event next => exact ih next found

end ILEmu
