import ILEmu.Bsd.KeventUpcall

/-! When a failed delivery loses no knote's event. The calls collect the events before they
know that the worker will run, and a failure only brings the item back. -/
namespace ILEmu
open KeventRegistration

/-- The calls that take an item off the work queue. A `thread_return` is that of a worker. -/
inductive KeventCall where
  | service (answers : UpcallAnswers)
  | threadReturn (worker : DarwinWorkqueueWorker) (answers : UpcallAnswers)

namespace WorkqueueKevents
variable {contract : PthreadContract} {sources : KeventSources}
  {state state' : WorkqueueKevents} {answers : UpcallAnswers} {worker : DarwinWorkqueueWorker}
  {item : DarwinWorkqueueItem}

/-- The knote in a place of the kqueue. -/
def knote (state : WorkqueueKevents) (place : Nat) : Option KeventRegistration :=
  state.kqueue.bind fun knotes => knotes[place]?.join

/-- Every knote that a collection of the bucket's events would report is still there for the
next collection. -/
def Keeps (contract : PthreadContract) (sources : KeventSources) (bucket : Nat)
    (before after : WorkqueueKevents) : Prop :=
  ∀ place registration, before.knote place = some registration →
    registration.Reportable contract sources bucket before.ports →
      ∃ registration', after.knote place = some registration' ∧
        registration'.Reportable contract sources bucket after.ports

/-- The collection for a worker's upcall uses up none of the knotes that it reports, and the
knotes of ports still have a message of the bucket when it has received its messages. -/
def Spares (contract : PthreadContract) (sources : KeventSources) (answers : CollectAnswers)
    (bucket : Nat) (state : WorkqueueKevents) (worker : DarwinWorkqueueWorker) : Prop :=
  ∀ knotes ∈ state.kqueue, ∀ place registration, knotes[place]? = some (some registration) →
    registration.Reportable contract sources bucket state.ports →
      let collected := state.collected contract sources answers worker bucket knotes
      (collected.reports place = true → registration.usedUp = false) ∧
        (registration.filter = .machPort →
          registration.Reportable contract sources bucket collected.ports)

theorem keeps_congr (kqueue : state.kqueue = state'.kqueue) (ports : state.ports = state'.ports)
    {before : WorkqueueKevents} {bucket : Nat} :
    Keeps contract sources bucket before state ↔ Keeps contract sources bucket before state' := by
  unfold Keeps knote
  rw [kqueue, ports]

theorem keeps_refl {bucket : Nat} : Keeps contract sources bucket state state :=
  fun _ registration found reportable => ⟨registration, found, reportable⟩

theorem keeps_collected_iff {knotes : List (Option KeventRegistration)} {bucket : Nat}
    {collect : CollectAnswers} (kqueue : state.kqueue = some knotes) :
    let collected := state.collected contract sources collect worker bucket knotes
    Keeps contract sources bucket state
        { state with kqueue := some collected.knotes, ports := collected.ports } ↔
      Spares contract sources collect bucket state worker := by
  unfold Keeps Spares knote
  simp only [kqueue, Option.mem_some_iff, forall_eq', Option.bind_some, Option.join_eq_some_iff]
  refine forall_congr' fun place => forall_congr' fun registration => ?_
  refine forall_congr' fun found => forall_congr' fun reportable => ?_
  obtain ⟨left, kept, leaves⟩ :
      ∃ left, (state.collected contract sources collect worker bucket knotes).knotes[place]? =
          some left ∧
        registration.Leaves contract sources
          ((state.collected contract sources collect worker bucket knotes).reports place &&
            registration.usedUp) left :=
    collect_leaves knotes _ found
  generalize state.collected contract sources collect worker bucket knotes = collected at *
  rw [kept]
  unfold Leaves at leaves
  by_cases used : (collected.reports place && registration.usedUp) = true
  · rw [if_pos used] at leaves
    rw [Bool.and_eq_true] at used
    constructor
    · rintro ⟨registration', same, lasts⟩
      cases same
      exact absurd lasts (leaves registration' rfl bucket collected.ports)
    · rintro ⟨lasts, -⟩
      rw [lasts used.1] at used
      cases used.2
  · rw [if_neg used] at leaves
    obtain ⟨registration', rfl, alike⟩ := leaves
    have stays : collected.reports place = true → registration.usedUp = false := by
      intro reported
      simpa [reported] using used
    simp only [Option.some.injEq, exists_eq_left', alike bucket collected.ports]
    constructor
    · exact fun lasts => ⟨stays, fun _ => lasts⟩
    · rintro ⟨-, messages⟩
      by_cases machPort : registration.filter = .machPort
      · exact messages machPort
      · exact reportable.everywhere machPort collected.ports

/-- What the preparation of an upcall keeps. -/
theorem keeps_prepare_iff {collect : CollectAnswers} (kevent : item.delivery = .kevent) :
    Keeps contract sources item.keventQosBucket state
        (state.prepare contract sources collect worker item).1 ↔
      (hasRoom worker = true → Spares contract sources collect item.keventQosBucket state worker) := by
  unfold prepare prepareWorkqueueKeventUpcall
  rw [if_pos kevent]
  by_cases room : hasRoom worker = true
  · cases kqueue : state.kqueue with
    | none => simp [room, keeps_refl, Spares, kqueue]
    | some knotes => simpa [room] using keeps_collected_iff kqueue
  · simp [room, keeps_refl]

/-- The preparation of an upcall leaves the work queue alone. -/
theorem prepare_workqueue {collect : CollectAnswers} :
    ∃ upcall, (state.prepare contract sources collect worker item).1.workqueue = state.workqueue ∧
      (decide (item.delivery = .kevent) && !upcall) =
        !(state.prepare contract sources collect worker item).2 := by
  refine ⟨(state.prepare contract sources collect worker item).2, ?_⟩
  unfold prepare prepareWorkqueueKeventUpcall
  by_cases kevent : item.delivery = .kevent
  · by_cases room : hasRoom worker = true
    · cases state.kqueue <;> simp [kevent, room]
    · simp [kevent, room]
  · simp [kevent]

/-- The work queue moves as it does when it is only told whether the upcall was prepared. -/
theorem reuse_workqueue :
    ∃ upcall, ((state.reuse contract sources answers worker item).1.workqueue,
        (state.reuse contract sources answers worker item).2) =
      state.workqueue.reuse contract { answers.service with upcall } worker item := by
  obtain ⟨upcall, same, refused⟩ :=
    @prepare_workqueue contract sources state worker item answers.collect
  refine ⟨upcall, ?_⟩
  unfold reuse Workqueue.reuse
  rcases prepared : state.prepare contract sources answers.collect worker item with ⟨after, _ | _⟩
  all_goals
    rw [prepared] at same refused
    simp only at same refused
    simp only [refused, same, requeue]
  · rfl
  · split <;> simp_all

theorem create_workqueue {registration : DarwinPthreadRegistration} :
    ∃ upcall, ((state.create contract sources answers registration item).1.workqueue,
        (state.create contract sources answers registration item).2) =
      state.workqueue.create contract { answers.service with upcall } registration item := by
  unfold create Workqueue.create
  by_cases large :
      2 ^ 32 ≤ Workqueue.guardSize + Workqueue.workqueueStackSize + registration.pthreadSize
  · refine ⟨true, ?_⟩
    rw [if_pos large, if_pos large]
    rfl
  · rw [if_neg large]
    cases region : answers.service.region with
    | none =>
      refine ⟨true, ?_⟩
      simp only [if_neg large, region]
      rfl
    | some base =>
      cases created : answers.service.created with
      | none =>
        refine ⟨true, ?_⟩
        simp only [if_neg large, region, created]
        rfl
      | some thread =>
        obtain ⟨upcall, same, refused⟩ := @prepare_workqueue contract sources state
          (newWorker registration item base thread.1 thread.2) item answers.collect
        refine ⟨upcall, ?_⟩
        simp only [if_neg large, region, created]
        rcases prepared : state.prepare contract sources answers.collect
          (newWorker registration item base thread.1 thread.2) item with ⟨after, _ | _⟩
        all_goals
          rw [prepared] at same refused
          simp only at same refused
          simp only [refused, same, requeue]
        · rfl
        · unfold newWorker
          split
          · simp
          · simp only [Bool.not_true, Bool.false_eq_true, ↓reduceIte]
            split <;> simp_all

theorem service_workqueue :
    ∃ upcall, ((state.serviceBsdWorkqueue contract sources answers).1.workqueue,
        (state.serviceBsdWorkqueue contract sources answers).2) =
      state.workqueue.serviceBsdWorkqueue contract { answers.service with upcall } := by
  unfold serviceBsdWorkqueue Workqueue.serviceBsdWorkqueue
  cases registered : state.workqueue.runtime.registration with
  | none => exact ⟨true, rfl⟩
  | some registration =>
    dsimp only
    by_cases closed : (!state.workqueue.runtime.workqueueOpen) = true
    · exact ⟨true, by rw [if_pos closed, if_pos closed]⟩
    by_cases nothing : (!state.workqueue.runtime.hasPendingWorkitems) = true
    · exact ⟨true, by rw [if_neg closed, if_neg closed, if_pos nothing, if_pos nothing]⟩
    rw [if_neg closed, if_neg nothing]
    simp only [if_neg closed, if_neg nothing]
    cases taken : state.takenItem answers.service with
    | none =>
      refine ⟨true, ?_⟩
      unfold takenItem at taken
      simp only [taken]
    | some found =>
      let held := { state with
        workqueue := Workqueue.taken { state.workqueue with runtime := found.2 } found.1 }
      unfold takenItem at taken
      dsimp only at taken
      cases available : state.workqueue.runtime.idleWorker with
      | some worker =>
        obtain ⟨upcall, same⟩ := @reuse_workqueue contract sources held answers worker found.1
        rw [available] at taken
        refine ⟨upcall, ?_⟩
        simp only [taken]
        exact same
      | none =>
        obtain ⟨upcall, same⟩ :=
          @create_workqueue contract sources held answers found.1 registration
        rw [available] at taken
        refine ⟨upcall, ?_⟩
        simp only [taken]
        exact same

theorem continue_workqueue :
    ∃ upcall, (state.continueWorker contract sources answers worker).1.workqueue =
      state.workqueue.continueWorker contract { policy := answers.service.policy, upcall }
        worker.processor := by
  unfold continueWorker Workqueue.continueWorker
  cases taken : state.workqueue.runtime.takeWorkitem none (some worker.processor) with
  | none => exact ⟨true, rfl⟩
  | some found =>
    obtain ⟨upcall, -, refused⟩ :=
      @prepare_workqueue contract sources state worker found.1 answers.collect
    refine ⟨upcall, ?_⟩
    dsimp only
    split
    · rfl
    · rcases prepared : state.prepare contract sources answers.collect worker found.1 with
        ⟨after, _ | _⟩
      all_goals
        rw [prepared] at refused
        simp only at refused
        simp only [refused]
        rfl

/-- The worker that a service prepares an upcall for. It is idle or new, and a new one first
needs a stack and a thread. -/
def servedWorker (state : WorkqueueKevents) (answers : ServiceAnswers) (item : DarwinWorkqueueItem) :
    Option DarwinWorkqueueWorker :=
  match state.workqueue.runtime.idleWorker, state.workqueue.runtime.registration with
  | some worker, _ => some worker
  | none, none => none
  | none, some registration =>
    if 2 ^ 32 ≤ Workqueue.guardSize + Workqueue.workqueueStackSize + registration.pthreadSize then
      none
    else
      match answers.region, answers.created with
      | some base, some (processor, portName) =>
        some (newWorker registration item base processor portName)
      | _, _ => none

theorem keeps_reuse_iff :
    Keeps contract sources item.keventQosBucket state
        (state.reuse contract sources answers worker item).1 ↔
      Keeps contract sources item.keventQosBucket state
        (state.prepare contract sources answers.collect worker item).1 := by
  unfold reuse
  rcases prepared : state.prepare contract sources answers.collect worker item with ⟨after, _ | _⟩
  · exact keeps_congr rfl rfl
  · dsimp only
    split <;> exact keeps_congr rfl rfl

theorem keeps_create_iff {registration : DarwinPthreadRegistration} {base processor portName : Nat}
    (fits : ¬ 2 ^ 32 ≤
      Workqueue.guardSize + Workqueue.workqueueStackSize + registration.pthreadSize)
    (region : answers.service.region = some base)
    (created : answers.service.created = some (processor, portName)) :
    Keeps contract sources item.keventQosBucket state
        (state.create contract sources answers registration item).1 ↔
      Keeps contract sources item.keventQosBucket state
        (state.prepare contract sources answers.collect
          (newWorker registration item base processor portName) item).1 := by
  unfold create
  rw [if_neg fits, region, created]
  dsimp only
  rcases prepared : state.prepare contract sources answers.collect
    (newWorker registration item base processor portName) item with ⟨after, _ | _⟩
  · exact keeps_congr rfl rfl
  · dsimp only
    split
    · exact keeps_congr rfl rfl
    · split <;> exact keeps_congr rfl rfl

/-- A service without a stack or a thread for the worker only brings the item back. -/
theorem keeps_create {registration : DarwinPthreadRegistration}
    (refused : 2 ^ 32 ≤ Workqueue.guardSize + Workqueue.workqueueStackSize + registration.pthreadSize ∨
      answers.service.region = none ∨ answers.service.created = none) :
    Keeps contract sources item.keventQosBucket state
      (state.create contract sources answers registration item).1 := by
  unfold create
  split
  · exact (keeps_congr rfl rfl).mp keeps_refl
  · rename_i fits
    rcases refused with large | noStack | noThread
    · exact absurd large fits
    · rw [noStack]
      exact (keeps_congr rfl rfl).mp keeps_refl
    · rw [noThread]
      cases answers.service.region <;> exact (keeps_congr rfl rfl).mp keeps_refl

/-- A returning worker asks for the policy of the item before its events. -/
theorem keeps_continue_iff {runtime : DarwinPthreadRuntime}
    (taken : state.workqueue.runtime.takeWorkitem none (some worker.processor) = some (item, runtime)) :
    Keeps contract sources item.keventQosBucket state
        (state.continueWorker contract sources answers worker).1 ↔
      (Workqueue.applyWorkqueueQosPolicy contract item answers.service.policy = true →
        Keeps contract sources item.keventQosBucket state
          (state.prepare contract sources answers.collect worker item).1) := by
  unfold continueWorker
  rw [taken]
  dsimp only
  by_cases policy : Workqueue.applyWorkqueueQosPolicy contract item answers.service.policy = true
  · rw [if_neg (by simp [policy])]
    simp only [policy, forall_const]
    rcases state.prepare contract sources answers.collect worker item with ⟨after, _ | _⟩ <;>
      exact keeps_congr rfl rfl
  · rw [if_pos (by simp [policy])]
    exact iff_of_true ((keeps_congr rfl rfl).mp keeps_refl) fun accepted => absurd accepted policy

/-- A service that takes an item gives it to an idle worker, or to a new one. -/
theorem service_taken {registration : DarwinPthreadRegistration} {runtime : DarwinPthreadRuntime}
    (registered : state.workqueue.runtime.registration = some registration)
    (opened : state.workqueue.runtime.workqueueOpen = true)
    (pending : state.workqueue.runtime.hasPendingWorkitems = true)
    (taken : state.takenItem answers.service = some (item, runtime)) :
    let held := { state with workqueue := Workqueue.taken { state.workqueue with runtime } item }
    state.serviceBsdWorkqueue contract sources answers =
      match state.workqueue.runtime.idleWorker with
      | some worker => held.reuse contract sources answers worker item
      | none => held.create contract sources answers registration item := by
  unfold serviceBsdWorkqueue
  rw [registered, opened, pending, taken]
  rfl

theorem keeps_service_iff {registration : DarwinPthreadRegistration}
    {runtime : DarwinPthreadRuntime}
    (registered : state.workqueue.runtime.registration = some registration)
    (opened : state.workqueue.runtime.workqueueOpen = true)
    (pending : state.workqueue.runtime.hasPendingWorkitems = true)
    (taken : state.takenItem answers.service = some (item, runtime))
    (kevent : item.delivery = .kevent) :
    Keeps contract sources item.keventQosBucket state
        (state.serviceBsdWorkqueue contract sources answers).1 ↔
      ∀ worker ∈ (state.servedWorker answers.service item).filter hasRoom,
        Spares contract sources answers.collect item.keventQosBucket state worker := by
  let held := { state with workqueue := Workqueue.taken { state.workqueue with runtime } item }
  rw [service_taken registered opened pending taken]
  unfold servedWorker
  rw [registered]
  have spares (worker : DarwinWorkqueueWorker) :
      Spares contract sources answers.collect item.keventQosBucket held worker ↔
        Spares contract sources answers.collect item.keventQosBucket state worker := Iff.rfl
  have lost (refused : 2 ^ 32 ≤
        Workqueue.guardSize + Workqueue.workqueueStackSize + registration.pthreadSize ∨
      answers.service.region = none ∨ answers.service.created = none) :
      Keeps contract sources item.keventQosBucket state
        (held.create contract sources answers registration item).1 :=
    @keeps_create contract sources held answers item registration refused
  cases idle : state.workqueue.runtime.idleWorker with
  | some worker =>
    refine (@keeps_reuse_iff contract sources held answers worker item).trans ?_
    rw [keeps_prepare_iff kevent, spares]
    simp
  | none =>
    dsimp only
    split
    · rename_i large
      exact iff_of_true (lost (.inl large)) (by simp)
    · rename_i fits
      cases region : answers.service.region with
      | none => exact iff_of_true (lost (.inr (.inl region))) (by simp)
      | some base =>
        cases created : answers.service.created with
        | none => exact iff_of_true (lost (.inr (.inr created))) (by simp)
        | some thread =>
          refine (@keeps_create_iff contract sources held answers item registration base thread.1
            thread.2 fits region created).trans ?_
          rw [keeps_prepare_iff kevent, spares]
          simp

end WorkqueueKevents

namespace KeventCall
open WorkqueueKevents

/-- The item that a call takes. -/
def item (state : WorkqueueKevents) : KeventCall → Option DarwinWorkqueueItem
  | .service answers =>
    let runtime := state.workqueue.runtime
    if runtime.registration.isSome && runtime.workqueueOpen && runtime.hasPendingWorkitems then
      (state.takenItem answers.service).map Prod.fst
    else none
  | .threadReturn worker _ =>
    (state.workqueue.runtime.takeWorkitem none (some worker.processor)).map Prod.fst

section
variable (contract : PthreadContract) (sources : KeventSources)

def after (state : WorkqueueKevents) : KeventCall → WorkqueueKevents
  | .service answers => (state.serviceBsdWorkqueue contract sources answers).1
  | .threadReturn worker answers => (state.continueWorker contract sources answers worker).1

/-- The service returns false, or `thread_return` reports an error. -/
def Fails (state : WorkqueueKevents) : KeventCall → Prop
  | .service answers => (state.serviceBsdWorkqueue contract sources answers).2 = false
  | .threadReturn worker answers =>
    (state.continueWorker contract sources answers worker).2 = .noSuchProcess ∨
      (state.continueWorker contract sources answers worker).2 = .noMemory

end

def collect : KeventCall → CollectAnswers
  | .service answers | .threadReturn _ answers => answers.collect

/-- The worker for whose upcall the events are collected, when a call has taken an item. A
`thread_return` first applies the policy of the item. -/
def upcallWorker (contract : PthreadContract) (state : WorkqueueKevents) (item : DarwinWorkqueueItem) :
    KeventCall → Option DarwinWorkqueueWorker
  | .service answers => (state.servedWorker answers.service item).filter hasRoom
  | .threadReturn worker answers =>
    if Workqueue.applyWorkqueueQosPolicy contract item answers.service.policy then
      (some worker).filter hasRoom
    else none

variable {contract : PthreadContract} {sources : KeventSources} {state : WorkqueueKevents}
  {item : DarwinWorkqueueItem}

instance (call : KeventCall) : Decidable (call.Fails contract sources state) :=
  match call with
  | .service _ => inferInstanceAs (Decidable (_ = false))
  | .threadReturn _ _ => inferInstanceAs (Decidable (_ ∨ _))

/-- A call keeps the knotes as far as the collection for its upcall does. -/
theorem keeps_iff (call : KeventCall) (taken : call.item state = some item)
    (kevent : item.delivery = .kevent) :
    Keeps contract sources item.keventQosBucket state (call.after contract sources state) ↔
      ∀ worker ∈ call.upcallWorker contract state item,
        Spares contract sources call.collect item.keventQosBucket state worker := by
  cases call with
  | service answers =>
    simp only [KeventCall.item] at taken
    split at taken
    · rename_i admitted
      rw [Option.map_eq_some_iff] at taken
      obtain ⟨⟨item, runtime⟩, taken, rfl⟩ := taken
      simp only [Bool.and_eq_true, Option.isSome_iff_exists] at admitted
      obtain ⟨⟨⟨registration, registered⟩, opened⟩, pending⟩ := admitted
      exact keeps_service_iff registered opened pending taken kevent
    · cases taken
  | threadReturn worker answers =>
    simp only [KeventCall.item, Option.map_eq_some_iff] at taken
    obtain ⟨⟨item, runtime⟩, taken, rfl⟩ := taken
    refine (keeps_continue_iff taken).trans ?_
    rw [keeps_prepare_iff kevent]
    unfold upcallWorker
    split <;> simp_all [collect]

def delivery : DarwinWorkqueueItem :=
  { address := 0, priority := 0, affinity := 0, overcommit := false, delivery := .kevent
    keventQosBucket := 0x800 }

def triggered : KeventRegistration :=
  { ident := 7, filter := .user, flags := eventDispatch, qos := 0x800, userTriggered := true }

/-- An idle worker waits for the event of a triggered knote, which its report disables. -/
def dispatched : WorkqueueKevents :=
  { workqueue :=
      { runtime :=
          { registration := some { workqueueThreadStart := 0x1000, pthreadSize := 4096, tsdOffset := 0 }
            workqueueOpen := true
            workqueuePriorityCount := 4
            workitems := [[delivery], [], [], []]
            workers :=
              [{ processor := 1, allocationBase := 0x1000, allocationSize := 0x82000
                 pthreadAddress := 0x82000, stackBottom := 0x2000, priority := 0, idle := true
                 overcommit := false }]
            targetConcurrency := [1, 1, 1, 1] }
        keventQueued := true }
    kqueue := some [some triggered] }

/-- The worker could not be woken. -/
def unwoken : KeventCall := .service { service := { wake := false } }

/-- The policy of the item was refused to the returning worker. -/
def unserved : KeventCall :=
  .threadReturn
    { processor := 1, allocationBase := 0x1000, allocationSize := 0x82000
      pthreadAddress := 0x82000, stackBottom := 0x2000, priority := 0, overcommit := false }
    { service := { policy := false } }

end KeventCall
end ILEmu
