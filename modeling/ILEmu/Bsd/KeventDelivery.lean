import ILEmu.Bsd.KeventFlag

/-! What becomes of the kevents that a request finds ready, while the flag tells the truth
and after it does not. -/
namespace ILEmu
open Foundation
namespace Workqueue
open DarwinPthreadRuntime
variable {contract : PthreadContract} {workqueue : Workqueue} {item : DarwinWorkqueueItem}
  {bucket : Nat}

/-- A delivery of a bucket's kevents is queued, or a worker has it. -/
def Delivers (workqueue : Workqueue) (bucket : Nat) : Prop :=
  workqueue.kevents = 1 ∨ ∃ processor, (bucket, processor) ∈ workqueue.keventProcessors

/-- An item comes back to its queue, or a worker has it. -/
def Placed (workqueue : Workqueue) (item : DarwinWorkqueueItem) (after : Workqueue) : Prop :=
  after.kevents = workqueue.kevents + item.isKevent.toNat ∨
    after.kevents = workqueue.kevents ∧
      (item.isKevent = true →
        ∃ processor, (item.keventQosBucket, processor) ∈ after.keventProcessors)

theorem Off.placed_requeue {lost : Nat} (off : Off contract lost item workqueue) :
    (workqueue.requeue item).kevents = workqueue.kevents + item.isKevent.toNat := by
  have more := (off.level.sound.push off.room true).2 DarwinWorkqueueItem.isKevent
  unfold kevents Workqueue.requeue
  rw [enqueue_of_room off.room]
  dsimp only
  split
  · exact more
  · exact more

theorem placed_assign (workqueue : Workqueue) {runtime : DarwinPthreadRuntime}
    (items : runtime.workitems = workqueue.runtime.workitems) (processor : Nat) :
    Placed workqueue item (assign { workqueue with runtime } processor item) := by
  right
  unfold assign kevents
  split
  · exact ⟨congrArg (Lanes.tally · _) items, fun _ => ⟨processor, Finset.mem_insert_self _ _⟩⟩
  · rename_i other
    exact ⟨congrArg (Lanes.tally · _) items, fun kind => absurd (of_decide_eq_true kind) other⟩

theorem Off.placed_reuse {lost : Nat} (off : Off contract lost item workqueue)
    (answers : ServiceAnswers) (worker : DarwinWorkqueueWorker) :
    Placed workqueue item (workqueue.reuse contract answers worker item).1 := by
  unfold Workqueue.reuse
  split
  · exact .inl off.placed_requeue
  · split
    · exact .inl off.placed_requeue
    · dsimp only
      apply placed_assign
      rfl

theorem Off.placed_create {lost : Nat} (off : Off contract lost item workqueue)
    (answers : ServiceAnswers) (registration : DarwinPthreadRegistration) :
    Placed workqueue item (workqueue.create contract answers registration item).1 := by
  unfold Workqueue.create
  dsimp only
  split
  · exact .inl off.placed_requeue
  · split
    · split
      · exact .inl off.placed_requeue
      · split
        · exact .inl off.placed_requeue
        · split
          · exact .inl off.placed_requeue
          · rename_i added
            exact placed_assign workqueue (addWorker_queues added).1 _
    · exact .inl off.placed_requeue

/-- A delivery of kevents for another bucket. -/
def isOther (bucket : Nat) (item : DarwinWorkqueueItem) : Bool :=
  item.isKevent && item.keventQosBucket ≠ bucket

/-- Servicing the queue leaves its one delivery of kevents there, or gives it to a worker. -/
theorem Level.delivers {lost : Nat} (level : Level contract lost workqueue)
    (one : workqueue.kevents = 1)
    (only : workqueue.runtime.workitems.tally (isOther bucket) = 0) (answers : ServiceAnswers) :
    (workqueue.serviceBsdWorkqueue contract answers).1.Delivers bucket := by
  unfold serviceBsdWorkqueue
  split
  · exact .inl one
  · split
    · exact .inl one
    · split
      · exact .inl one
      · dsimp only
        split
        · exact .inl one
        · rename_i item runtime chosen
          have off := level.take chosen
          obtain ⟨_, _, fewer⟩ := level.sound.take chosen
          have counted := fewer DarwinWorkqueueItem.isKevent
          have none := fewer (isOther bucket)
          rw [only] at none
          have left : (taken { workqueue with runtime } item).kevents + item.isKevent.toNat = 1 := by
            refine Eq.trans ?_ one
            unfold taken kevents
            split <;> exact counted
          have settles : ∀ after, Placed (taken { workqueue with runtime } item) item after →
              after.Delivers bucket := by
            rintro after (back | ⟨same, given⟩)
            · exact .inl (back.trans left)
            · cases kind : item.isKevent with
              | false =>
                rw [kind] at left
                exact .inl (same.trans left)
              | true =>
                right
                have alike : item.keventQosBucket = bucket := by
                  by_contra different
                  have other : isOther bucket item = true := by simp [isOther, kind, different]
                  rw [other] at none
                  contradiction
                rw [← alike]
                exact given kind
          split
          · exact settles _ (off.placed_reuse answers _)
          · exact settles _ (off.placed_create answers _)

theorem classForKeventQos_priority (contract : PthreadContract) (bucket : Nat)
    (some : 0 < contract.workqueuePriorityCount) :
    (classForKeventQos contract.priorityEncoding bucket).priority <
      contract.workqueuePriorityCount := by
  have fine : ∀ bucket, (keventClass bucket).priority < 4 := by
    intro bucket
    unfold keventClass
    split <;> decide
  rcases contract.levels with four | ⟨coarse, few⟩
  · rw [four]
    unfold classForKeventQos
    split
    · decide
    · exact fine bucket
    · split
      · decide
      · exact fine _
  · rw [coarse]
    have three : contract.workqueuePriorityCount = 3 := few.resolve_left some.ne'
    rw [three]
    exact (by decide : 1 < 3)

/-- A request that finds ready kevents, and room for an item of their priority. -/
structure Asks (contract : PthreadContract) (workqueue : Workqueue) (answers : RequestAnswers)
    (bucket : Nat) : Prop where
  opened : workqueue.runtime.workqueueOpen = true
  kqueue : answers.kqueue = true
  boosted : answers.boosted = true
  selected : workqueue.selectedBucket answers = some bucket
  short : workqueue.runtime.queued (classForKeventQos contract.priorityEncoding bucket).priority <
    maximumWorkqueueItemsPerPriority

theorem Level.request_delivers (level : Level contract 0 workqueue) {answers : RequestAnswers}
    (asks : Asks contract workqueue answers bucket) :
    (workqueue.requestWorkqueueKevents contract answers).1.Delivers bucket := by
  have flag := level.level
  unfold requestWorkqueueKevents
  rw [if_neg (by simp [asks.opened, asks.kqueue]), if_neg (by simp [asks.boosted])]
  split
  · rename_i set
    rw [set] at flag
    exact .inl flag
  · rename_i unset
    rw [Bool.not_eq_true] at unset
    rw [unset, Bool.toNat_false, Nat.add_zero] at flag
    have levels := level.sound.levels asks.opened
    have positive := level.sound.positive asks.opened
    rw [levels] at positive
    let item := keventRequest contract answers bucket
    have room : Room workqueue.runtime item := by
      refine ⟨asks.opened, ?_, asks.short⟩
      rw [levels]
      exact classForKeventQos_priority contract bucket positive
    obtain ⟨sound, more⟩ := level.sound.push room false
    have queued := enqueue_of_room room false
    rw [asks.selected]
    dsimp only
    rw [queued]
    have one : (workqueue.runtime.workitems.push item.priority false item).tally
        DarwinWorkqueueItem.isKevent = 1 := by
      rw [more]
      exact congrArg (· + 1) flag
    have none : isOther bucket item = false := by simp [isOther, item, keventRequest]
    have below : workqueue.runtime.workitems.tally (isOther bucket) ≤ workqueue.kevents :=
      Lanes.tally_le_tally fun item other => (Bool.and_eq_true_iff.mp other).1
    have only : (workqueue.runtime.workitems.push item.priority false item).tally
        (isOther bucket) = 0 := by
      rw [more, none, Bool.toNat_false]
      omega
    let requested : Workqueue :=
      { workqueue with
        runtime := { workqueue.runtime with
          workitems := workqueue.runtime.workitems.push item.priority false item }
        keventQueued := true }
    have level' : Level contract 0 requested := ⟨sound, one⟩
    exact level'.delivers one only answers.service

theorem Level.lost_forever {lost : Nat} (some : 0 < lost) (more : List WorkqueueOperation)
    (level : Level contract lost workqueue) (stays : .exec ∉ more) :
    (run (Workqueue.after contract) workqueue more).keventQueued = true ∧
      (run (Workqueue.after contract) workqueue more).kevents = 0 := by
  induction more generalizing workqueue lost with
  | nil =>
    have flag := level.level
    cases set : workqueue.keventQueued with
    | false =>
      rw [set] at flag
      simp only [Bool.toNat_false] at flag
      omega
    | true =>
      rw [set] at flag
      simp only [Bool.toNat_true] at flag
      exact ⟨set, show workqueue.kevents = 0 by omega⟩
  | cons operation rest ih =>
    have next := level.after fun same => stays (same ▸ List.mem_cons_self)
    exact ih (by omega) next fun later => stays (List.mem_cons_of_mem _ later)

theorem after_mirrors_iff (sound : DarwinPthreadRuntime.Sound contract workqueue.runtime)
    (mirrors : workqueue.Mirrors) (operation : WorkqueueOperation) :
    (workqueue.after contract operation).Mirrors ↔
      workqueue.removesKevent operation = false := by
  by_cases reset : operation = .exec
  · subst reset
    exact iff_of_true rfl rfl
  · have level : Level contract 0 workqueue := ⟨sound, mirrors⟩
    have next := level.after reset
    have flag := next.level
    unfold Mirrors
    cases removed : workqueue.removesKevent operation with
    | false =>
      rw [removed] at flag
      exact iff_of_true flag rfl
    | true =>
      rw [removed] at flag
      simp only [Bool.toNat_true] at flag
      simp only [reduceCtorEq, iff_false]
      omega

variable (contract) in
theorem after_level (workqueue : Workqueue) (operation : WorkqueueOperation)
    (level : ∃ lost, Level contract lost workqueue) :
    ∃ lost, Level contract lost (workqueue.after contract operation) := by
  by_cases reset : operation = .exec
  · subst reset
    exact ⟨0, level_empty none⟩
  · obtain ⟨lost, level⟩ := level
    exact ⟨_, level.after reset⟩

/-- The flag tells the truth all along a run exactly if no operation of the run removes a
queued delivery of kevents by its address. While it does, a request that finds ready kevents
gets them delivered or leaves their delivery queued, if its priority has room for one more
item; once a delivery has been removed, no request queues another until an `exec`. -/
theorem throughout_mirrors_iff (contract : PthreadContract) (operations : List WorkqueueOperation) :
    (Throughout (after contract) Mirrors {} operations ↔
      Along (after contract) (fun workqueue operation => workqueue.removesKevent operation = false)
        {} operations) ∧
    (Throughout (after contract) Mirrors {} operations →
      (∀ answers bucket, Asks contract (run (after contract) {} operations) answers bucket →
        ((run (after contract) {} operations).requestWorkqueueKevents contract
          answers).1.Delivers bucket) ∧
      ∀ operation more, (run (after contract) {} operations).removesKevent operation = true →
        .exec ∉ more →
        (run (after contract) {} (operations ++ operation :: more)).keventQueued = true ∧
          (run (after contract) {} (operations ++ operation :: more)).kevents = 0) := by
  have empty : Level contract 0 {} := level_empty none
  have reached := run_invariant (after_level contract) ⟨0, empty⟩ operations
  constructor
  · exact throughout_iff_along (after_level contract)
      (fun _ operation ⟨_, level⟩ mirrors _ => after_mirrors_iff level.sound mirrors operation)
      ⟨0, empty⟩ empty.level (along_of_forall (fun _ _ => trivial) _ _)
  · intro holds
    obtain ⟨_, sound, _⟩ := reached
    have level : Level contract 0 (run (after contract) {} operations) := ⟨sound, holds.last⟩
    refine ⟨fun answers bucket asks => level.request_delivers asks, ?_⟩
    intro operation more removed stays
    have goes : operation ≠ .exec := by
      rintro rfl
      contradiction
    have next := level.after goes
    rw [run_append, run_cons]
    exact next.lost_forever (by rw [removed]; decide) more stays

/-- A delivery that no worker could be created for is removed by its address. -/
def removal : List WorkqueueOperation :=
  [.register { workqueueThreadStart := 0x1000, pthreadSize := 4096, tsdOffset := 0 }, .workqOpen 1,
    .requestKevents { knotes := [{ bucket := 0x0800 }] }, .queueRemove 0 (BitVec.ofNat 32 1)]

theorem removal_not_mirrored :
    ¬ ∀ contract operations, Throughout (after contract) Mirrors {} operations := by
  intro always
  have holds := always .registerV1Kevent removal
  revert holds
  decide

end Workqueue
end ILEmu
