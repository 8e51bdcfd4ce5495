import ILEmu.Jit.WorkScheduler
import Mathlib.Data.List.Count
import Mathlib.Data.List.Nodup

/-! What a plan of translation work keeps to, whatever the passes let in. -/
namespace ILEmu.Jit

/-- What is admitted fits what is left of the lanes, of the candidate and of its native target. -/
structure Admitted (schedule : JitWorkSchedule) (candidate : JitWorkCandidate)
    (workClass : JitWorkClass) (lanes : Nat) (work : JitScheduledWork) : Prop where
  identity : work.candidateIdentity = candidate.identity
  ofClass : work.workClass = workClass
  available : lanes ≤ schedule.availableLanes
  capacity : candidate.activeWorkerCount + schedule.plannedWorkerCount candidate.identity + lanes ≤
    candidate.workerCapacity
  native : work.target = .nativeCode → candidate.activeNativeWorkers = 0 ∧
    schedule.plannedNativeCount candidate.identity = 0 ∧ lanes = 1
  exclusive : workClass.exclusivelyIdle = true → candidate.activeWorkerCount = 0 ∧
    schedule.plannedWorkerCount candidate.identity = 0 ∧ lanes = 1

section
variable {request : JitWorkScheduleRequest} {schedule : JitWorkSchedule}
  {candidate : JitWorkCandidate} {workClass : JitWorkClass} {lanes : Nat} {work : JitScheduledWork}

/-- Only portable activation asks for more than one lane. -/
theorem desiredLanes_of_ne (other : workClass ≠ .activationPortable) (room : Nat) :
    desiredLanes workClass room = 1 :=
  if_neg other

theorem desiredLanes_native (target : (selectedWork request candidate workClass).1 = .nativeCode)
    (room : Nat) : desiredLanes workClass room = 1 := by
  apply desiredLanes_of_ne
  rintro rfl
  contradiction

theorem desiredLanes_idle (idle : workClass.exclusivelyIdle = true) (room : Nat) :
    desiredLanes workClass room = 1 := by
  apply desiredLanes_of_ne
  rintro rfl
  contradiction

theorem desiredLanes_le (workClass : JitWorkClass) {capacity active : Nat} (free : ¬capacity ≤ active) :
    desiredLanes workClass (capacity - active) ≤ capacity - active := by
  unfold desiredLanes
  split
  · exact Nat.le_refl _
  · omega

theorem admission_ok
    (admitted : admission request schedule candidate workClass = .ok (lanes, work)) :
    Admitted schedule candidate workClass lanes work := by
  unfold admission at admitted
  dsimp only at admitted
  split at admitted
  · contradiction
  · rename_i room
    rw [not_or, not_or] at room
    obtain ⟨-, free, -⟩ := room
    split at admitted
    · contradiction
    · rename_i phase
      split at admitted
      · contradiction
      · split at admitted
        · contradiction
        · split at admitted
          · contradiction
          · rename_i native
            split at admitted
            · contradiction
            · rename_i exclusive
              split at admitted
              · contradiction
              · rename_i some
                obtain ⟨rfl, rfl⟩ := Prod.mk.inj (Except.ok.inj admitted)
                refine ⟨rfl, rfl, ?_, ?_, ?_, ?_⟩
                · omega
                · have fits := desiredLanes_le workClass free
                  omega
                · intro target
                  have none := not_and.mp native target
                  have single := desiredLanes_native target
                  rw [single] at some ⊢
                  omega
                · intro idle
                  have none := not_and.mp exclusive idle
                  have single := desiredLanes_idle idle
                  rw [single] at some ⊢
                  omega

/-! ### The invariant of a plan -/

/-- What holds of a plan after every admission. -/
structure Plan (request : JitWorkScheduleRequest) (schedule : JitWorkSchedule) : Prop where
  lanes : schedule.entries.length + schedule.availableLanes =
    request.laneLimit - request.occupiedLanes
  capacity : ∀ c ∈ request.candidates, schedule.plannedWorkerCount c.identity ≠ 0 →
    c.activeWorkerCount + schedule.plannedWorkerCount c.identity ≤ c.workerCapacity
  native : ∀ c ∈ request.candidates, schedule.plannedNativeCount c.identity ≠ 0 →
    c.activeNativeWorkers = 0 ∧ schedule.plannedNativeCount c.identity = 1
  exclusive : ∀ entry ∈ schedule.entries, entry.workClass.exclusivelyIdle = true →
    schedule.plannedWorkerCount entry.candidateIdentity = 1 ∧
      ∀ c ∈ request.candidates, c.identity = entry.candidateIdentity → c.activeWorkerCount = 0
  living : ∀ entry ∈ schedule.entries, ∃ c ∈ request.candidates,
    c.identity = entry.candidateIdentity ∧ c.exited = false

/-- The candidate has no work that must stay its only work. -/
def Fresh (schedule : JitWorkSchedule) (candidate : JitWorkCandidate) : Prop :=
  ∀ entry ∈ schedule.entries, entry.candidateIdentity = candidate.identity →
    entry.workClass.exclusivelyIdle = false

def extended (schedule : JitWorkSchedule) (lanes : Nat) (work : JitScheduledWork) :
    JitWorkSchedule :=
  { schedule with
    entries := schedule.entries ++ List.replicate lanes work
    availableLanes := schedule.availableLanes - lanes }

theorem extended_planned (identity : BitVec 64) :
    (extended schedule lanes work).plannedWorkerCount identity =
      schedule.plannedWorkerCount identity +
        if work.candidateIdentity = identity then lanes else 0 := by
  unfold JitWorkSchedule.plannedWorkerCount extended
  rw [List.countP_append, List.countP_replicate]
  simp only [decide_eq_true_eq]

theorem extended_native (identity : BitVec 64) :
    (extended schedule lanes work).plannedNativeCount identity =
      schedule.plannedNativeCount identity +
        if work.candidateIdentity = identity ∧ work.target = .nativeCode then lanes else 0 := by
  unfold JitWorkSchedule.plannedNativeCount extended
  rw [List.countP_append, List.countP_replicate]
  simp only [Bool.and_eq_true, decide_eq_true_eq]

/-- Distinct candidates have distinct identities. -/
theorem eq_of_identity (distinct : (request.candidates.map (·.identity)).Nodup)
    {c c' : JitWorkCandidate} (member : c ∈ request.candidates) (member' : c' ∈ request.candidates)
    (same : c.identity = c'.identity) : c = c' :=
  List.inj_on_of_nodup_map distinct member member' same

theorem Plan.extend (plan : Plan request schedule)
    (distinct : (request.candidates.map (·.identity)).Nodup)
    (member : candidate ∈ request.candidates) (alive : candidate.exited = false)
    (fresh : Fresh schedule candidate)
    (admitted : Admitted schedule candidate workClass lanes work) :
    Plan request (extended schedule lanes work) where
  lanes := by
    have total := plan.lanes
    have available := admitted.available
    unfold extended
    rw [List.length_append, List.length_replicate]
    dsimp only
    omega
  capacity := by
    intro c here planned
    rw [extended_planned] at planned ⊢
    split
    · rename_i same
      obtain rfl := eq_of_identity distinct member here (admitted.identity.symm.trans same)
      have fits := admitted.capacity
      omega
    · rename_i other
      rw [if_neg other, Nat.add_zero] at planned
      rw [Nat.add_zero]
      exact plan.capacity c here planned
  native := by
    intro c here planned
    rw [extended_native] at planned ⊢
    split
    · rename_i same
      obtain rfl := eq_of_identity distinct member here (admitted.identity.symm.trans same.1)
      obtain ⟨idle, none, single⟩ := admitted.native same.2
      rw [none, single]
      exact ⟨idle, rfl⟩
    · rename_i other
      rw [if_neg other, Nat.add_zero] at planned
      rw [Nat.add_zero]
      exact plan.native c here planned
  exclusive := by
    intro entry listed idle
    rw [extended_planned]
    rcases List.mem_append.mp listed with old | new
    · have other : ¬work.candidateIdentity = entry.candidateIdentity := by
        intro same
        rw [fresh entry old (same.symm.trans admitted.identity)] at idle
        contradiction
      rw [if_neg other]
      exact plan.exclusive entry old idle
    · rw [List.eq_of_mem_replicate new] at idle ⊢
      rw [admitted.ofClass] at idle
      obtain ⟨free, none, single⟩ := admitted.exclusive idle
      rw [admitted.identity, none, single, if_pos rfl]
      refine ⟨rfl, fun c here same => ?_⟩
      rw [eq_of_identity distinct here member same]
      exact free
  living := by
    intro entry listed
    rcases List.mem_append.mp listed with old | new
    · exact plan.living entry old
    · rw [List.eq_of_mem_replicate new]
      exact ⟨candidate, member, admitted.identity.symm, alive⟩

theorem Plan.noteSkip (plan : Plan request schedule) (reason : JitWorkScheduleSkip) :
    Plan request (schedule.noteSkip reason) := { plan with }

/-- An admission either leaves the entries or adds entries of its class to a living candidate. -/
theorem admit_cases (request : JitWorkScheduleRequest) (schedule : JitWorkSchedule)
    (selected : Option JitWorkCandidate) (workClass : JitWorkClass) :
    admitWork request schedule selected workClass = schedule ∨
    (∃ reason, admitWork request schedule selected workClass = schedule.noteSkip reason) ∨
    ∃ candidate lanes work, selected = some candidate ∧ candidate.exited = false ∧
      Admitted schedule candidate workClass lanes work ∧
      admitWork request schedule selected workClass = extended schedule lanes work := by
  unfold admitWork
  cases kept : selected.filter (!·.exited) with
  | none => exact .inl rfl
  | some candidate =>
    obtain ⟨here, alive⟩ := Option.filter_eq_some_iff.mp kept
    dsimp only
    cases result : admission request schedule candidate workClass with
    | error reason => exact .inr (.inl ⟨reason, rfl⟩)
    | ok granted =>
      exact .inr (.inr ⟨candidate, granted.1, granted.2, here, by simpa using alive,
        admission_ok result, rfl⟩)

theorem Plan.admitWork (plan : Plan request schedule)
    (distinct : (request.candidates.map (·.identity)).Nodup) {selected : Option JitWorkCandidate}
    (listed : ∀ c ∈ selected, c ∈ request.candidates ∧ Fresh schedule c)
    (workClass : JitWorkClass) : Plan request (admitWork request schedule selected workClass) := by
  rcases admit_cases request schedule selected workClass with
    same | ⟨reason, same⟩ | ⟨candidate, lanes, work, here, alive, admitted, same⟩
  · rw [same]
    exact plan
  · rw [same]
    exact plan.noteSkip reason
  · rw [same]
    obtain ⟨member, fresh⟩ := listed candidate here
    exact plan.extend distinct member alive fresh admitted

/-! ### The passes -/

/-- No work of the plan has to be the only work of its candidate. -/
def Shared (schedule : JitWorkSchedule) : Prop :=
  ∀ entry ∈ schedule.entries, entry.workClass.exclusivelyIdle = false

theorem Shared.fresh (shared : Shared schedule) (candidate : JitWorkCandidate) :
    Fresh schedule candidate :=
  fun entry member _ => shared entry member

theorem Shared.admitWork (shared : Shared schedule) (request : JitWorkScheduleRequest)
    (selected : Option JitWorkCandidate)
    (interactive : workClass.exclusivelyIdle = false) :
    Shared (Jit.admitWork request schedule selected workClass) := by
  rcases admit_cases request schedule selected workClass with
    same | ⟨reason, same⟩ | ⟨candidate, lanes, work, -, -, admitted, same⟩
  · rw [same]
    exact shared
  · rw [same]
    exact shared
  · rw [same]
    intro entry member
    rcases List.mem_append.mp member with old | new
    · exact shared entry old
    · rw [List.eq_of_mem_replicate new, admitted.ofClass]
      exact interactive

theorem activeCandidate_mem (active : request.activeCandidate = some candidate) :
    candidate ∈ request.candidates := by
  unfold JitWorkScheduleRequest.activeCandidate at active
  rcases Option.or_eq_some_iff.mp active with found | ⟨-, found⟩
  · exact List.mem_of_find?_eq_some found
  · exact List.mem_of_find?_eq_some found

theorem Plan.interactive (plan : Plan request schedule)
    (distinct : (request.candidates.map (·.identity)).Nodup) (shared : Shared schedule) :
    Plan request (request.scheduleInteractive schedule) := by
  have listed : ∀ {schedule : JitWorkSchedule}, Shared schedule →
      ∀ c ∈ request.activeCandidate, c ∈ request.candidates ∧ Fresh schedule c :=
    fun shared c active => ⟨activeCandidate_mem active, shared.fresh c⟩
  unfold JitWorkScheduleRequest.scheduleInteractive
  dsimp only
  generalize kind : (if request.activeCandidate.any (·.imageActivationPending) then
    JitWorkClass.activationNative else .interactiveNative) = first
  have interactive : first.exclusivelyIdle = false := by
    rw [← kind]
    split
    · rfl
    · rfl
  have plan₁ := plan.admitWork distinct (listed shared) first
  have shared₁ := shared.admitWork request request.activeCandidate interactive
  generalize Jit.admitWork request schedule request.activeCandidate first = schedule₁ at plan₁ shared₁ ⊢
  have plan₂ := plan₁.admitWork distinct (listed shared₁) .activationPortable
  have shared₂ := shared₁.admitWork request request.activeCandidate
    (rfl : JitWorkClass.exclusivelyIdle .activationPortable = false)
  generalize second : (if request.activeCandidate.any (·.imageActivationPending) then
    Jit.admitWork request schedule₁ request.activeCandidate .activationPortable
      else schedule₁) = schedule₂
  have both : Plan request schedule₂ ∧ Shared schedule₂ := by
    rw [← second]
    split
    · exact ⟨plan₂, shared₂⟩
    · exact ⟨plan₁, shared₁⟩
  cases found : request.scanout with
  | none => exact both.1
  | some scanout =>
    dsimp only
    split
    · refine both.1.admitWork distinct (fun c here => ?_) .interactiveNative
      obtain rfl := Option.some.inj here
      exact ⟨List.mem_of_find?_eq_some found, both.2.fresh scanout⟩
    · exact both.1

/-- A candidate that is selected for idle work has none yet. -/
theorem selectIdle_spec (schedule : JitWorkSchedule) (suits : JitWorkCandidate → Bool)
    (phase : JitWorkCandidate → Option Nat) (candidates : List JitWorkCandidate) :
    ∀ c ∈ (selectIdle schedule suits phase candidates).1,
      c ∈ candidates ∧ schedule.alreadyScheduled c.identity = false := by
  unfold selectIdle
  -- the candidate that is kept is one of those passed so far
  refine List.foldlRecOn (b := (none, false))
    (motive := fun kept : Option JitWorkCandidate × Bool => ∀ c ∈ kept.1,
      c ∈ candidates ∧ schedule.alreadyScheduled c.identity = false) candidates _ ?_ ?_
  · intro c none
    contradiction
  rintro ⟨selected, busy⟩ kept candidate member
  dsimp only
  split
  · exact kept
  · rename_i suitable
    have chosen : ∀ c ∈ some candidate,
        c ∈ candidates ∧ schedule.alreadyScheduled c.identity = false := by
      rintro c ⟨⟩
      simp only [Bool.or_eq_true, not_or, Bool.not_eq_true] at suitable
      exact ⟨member, suitable.2⟩
    split
    · exact kept
    · split
      · exact kept
      · exact chosen
      · dsimp only
        split
        · exact chosen
        · exact kept

theorem fresh_of_unscheduled (unscheduled : schedule.alreadyScheduled candidate.identity = false) :
    Fresh schedule candidate := by
  intro entry member same
  have none := List.any_eq_false.mp unscheduled entry member
  simp only [decide_eq_true_eq] at none
  exact absurd same none

theorem Plan.predictive (plan : Plan request schedule)
    (distinct : (request.candidates.map (·.identity)).Nodup) :
    Plan request (request.schedulePredictive schedule) := by
  unfold JitWorkScheduleRequest.schedulePredictive
  split
  · have selected := selectIdle_spec schedule (!·.guestRunnable) (·.nativePhasePriority)
      request.candidates
    dsimp only
    split
    · refine plan.admitWork distinct (fun c here => ?_) .predictiveNative
      obtain ⟨member, unscheduled⟩ := selected c here
      exact ⟨member, fresh_of_unscheduled unscheduled⟩
    · split
      · exact plan.noteSkip _
      · exact plan
  · exact plan

theorem Plan.offline (plan : Plan request schedule)
    (distinct : (request.candidates.map (·.identity)).Nodup) :
    Plan request (request.scheduleOffline schedule) := by
  unfold JitWorkScheduleRequest.scheduleOffline
  split
  · have selected := selectIdle_spec schedule (fun _ => true) (·.portablePhasePriority)
      request.candidates
    dsimp only
    split
    · refine plan.admitWork distinct (fun c here => ?_) .offlinePortable
      obtain ⟨member, unscheduled⟩ := selected c here
      exact ⟨member, fresh_of_unscheduled unscheduled⟩
    · exact plan.noteSkip _
  · exact plan

theorem Plan.idle (request : JitWorkScheduleRequest) :
    Plan request { availableLanes := request.laneLimit - request.occupiedLanes } where
  lanes := Nat.zero_add _
  capacity := fun _ _ planned => absurd rfl planned
  native := fun _ _ planned => absurd rfl planned
  exclusive := nofun
  living := nofun

/-- Without a transition the plan is that of the passes, one after the other. -/
theorem schedule_plan (distinct : (request.candidates.map (·.identity)).Nodup)
    (still : request.candidates.any (·.foregroundTransitionDestination) = false) :
    Plan request request.schedule := by
  unfold JitWorkScheduleRequest.schedule
  rw [if_neg (by rw [still]; exact Bool.false_ne_true)]
  exact (((Plan.idle request).interactive distinct nofun).predictive distinct).offline distinct

theorem schedule_transition
    (pending : request.candidates.any (·.foregroundTransitionDestination) = true) :
    request.schedule.entries = [] := by
  unfold JitWorkScheduleRequest.schedule
  rw [if_pos pending]
  rfl

end

/-! ### The bounds of a plan -/

/-- The bounds of a plan. A candidate that already has more than one native worker is given no
further one. -/
structure Bounded (request : JitWorkScheduleRequest) (plan : JitWorkSchedule) : Prop where
  lanes : request.occupiedLanes + plan.entries.length ≤ request.laneLimit ∨
    (request.laneLimit < request.occupiedLanes ∧ plan.entries = [])
  capacity : ∀ c ∈ request.candidates,
    c.activeWorkerCount + plan.plannedWorkerCount c.identity ≤ c.workerCapacity ∨
      (c.workerCapacity < c.activeWorkerCount ∧ plan.plannedWorkerCount c.identity = 0)
  native : ∀ c ∈ request.candidates,
    c.activeNativeWorkers + plan.plannedNativeCount c.identity ≤ 1 ∨
      (1 < c.activeNativeWorkers ∧ plan.plannedNativeCount c.identity = 0)
  exclusive : ∀ entry ∈ plan.entries,
    entry.workClass = .predictiveNative ∨ entry.workClass = .offlinePortable →
      plan.plannedWorkerCount entry.candidateIdentity = 1 ∧
        ∀ c ∈ request.candidates, c.identity = entry.candidateIdentity → c.activeWorkerCount = 0
  living : ∀ entry ∈ plan.entries,
    (∃ c ∈ request.candidates, c.identity = entry.candidateIdentity) ∧
      ∀ c ∈ request.candidates, c.identity = entry.candidateIdentity → c.exited = false
  transition : ∀ c ∈ request.candidates, c.foregroundTransitionDestination = true →
    plan.entries = []

theorem Bounded.of_empty {request : JitWorkScheduleRequest} {plan : JitWorkSchedule}
    (empty : plan.entries = []) : Bounded request plan where
  lanes := by
    rw [empty, List.length_nil]
    rcases Nat.lt_or_ge request.laneLimit request.occupiedLanes with full | room
    · exact .inr ⟨full, rfl⟩
    · exact .inl room
  capacity := by
    intro c _
    unfold JitWorkSchedule.plannedWorkerCount
    rw [empty, List.countP_nil]
    omega
  native := by
    intro c _
    unfold JitWorkSchedule.plannedNativeCount
    rw [empty, List.countP_nil]
    omega
  exclusive := by
    rw [empty]
    exact nofun
  living := by
    rw [empty]
    exact nofun
  transition := fun _ _ _ => empty

theorem Plan.bounded {request : JitWorkScheduleRequest} {schedule : JitWorkSchedule}
    (plan : Plan request schedule) (distinct : (request.candidates.map (·.identity)).Nodup)
    (still : request.candidates.any (·.foregroundTransitionDestination) = false) :
    Bounded request schedule where
  lanes := by
    have total := plan.lanes
    by_cases room : request.occupiedLanes ≤ request.laneLimit
    · left
      omega
    · right
      exact ⟨by omega, List.eq_nil_of_length_eq_zero (by omega)⟩
  capacity := by
    intro c member
    by_cases planned : schedule.plannedWorkerCount c.identity = 0
    · omega
    · exact .inl (plan.capacity c member planned)
  native := by
    intro c member
    by_cases planned : schedule.plannedNativeCount c.identity = 0
    · omega
    · obtain ⟨idle, one⟩ := plan.native c member planned
      left
      omega
  exclusive := by
    intro entry listed idle
    apply plan.exclusive entry listed
    rcases idle with same | same
    · rw [same]
      rfl
    · rw [same]
      rfl
  living := by
    intro entry listed
    obtain ⟨c, member, same, alive⟩ := plan.living entry listed
    refine ⟨⟨c, member, same⟩, fun c' member' same' => ?_⟩
    rw [eq_of_identity distinct member' member (same'.trans same.symm)]
    exact alive
  transition := by
    intro c member pending
    have none := List.any_eq_false.mp still c member
    exact absurd pending none

def launching : JitWorkScheduleRequest where
  candidates := [
    { identity := 1, imageActivationPending := true, activeClient := true, workerCapacity := 3,
      nativePhasePriority := some 0, portablePhasePriority := some 1 },
    { identity := 2, workerCapacity := 2, nativePhasePriority := some 2 }]
  maximumTranslationLanes := 4

/-- An image that is activated has one native worker and fills its room with portable ones. -/
example : launching.schedule.entries.map (fun entry => (entry.candidateIdentity, entry.workClass)) =
    [(1, .activationNative), (1, .activationPortable), (1, .activationPortable),
      (2, .predictiveNative)] := by decide

/-- A candidate that comes with two native workers. -/
def twoNative : JitWorkScheduleRequest where
  candidates := [{ identity := 1, activeNativeWorkers := 2, workerCapacity := 2 }]

end ILEmu.Jit
