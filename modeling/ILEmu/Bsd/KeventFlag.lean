import ILEmu.Bsd.Workqueue
import ILEmu.Foundation.Run

/-! When the flag tells whether a delivery of kevents is queued. Every operation moves the
flag with the queue, but for the removal of an item by its address. -/
namespace ILEmu
open Foundation

def DarwinWorkqueueItem.isKevent (item : DarwinWorkqueueItem) : Bool := item.delivery = .kevent

namespace DarwinPthreadRuntime
variable {contract : PthreadContract} {runtime runtime' : DarwinPthreadRuntime}
  {item : DarwinWorkqueueItem}

/-- Every item is in the queue of its priority, and no queue is too long. -/
structure Sound (contract : PthreadContract) (runtime : DarwinPthreadRuntime) : Prop where
  lanes : runtime.workitems.length = maximumWorkqueuePriorityCount
  levels : runtime.workqueueOpen = true →
    runtime.workqueuePriorityCount = contract.workqueuePriorityCount
  positive : runtime.workqueueOpen = true → 0 < runtime.workqueuePriorityCount
  each : runtime.workitems.Each fun i lane => lane.length ≤ maximumWorkqueueItemsPerPriority ∧
    ∀ item ∈ lane, item.priority = i ∧ i < contract.workqueuePriorityCount

theorem PthreadContract.count_le (contract : PthreadContract) :
    contract.workqueuePriorityCount ≤ maximumWorkqueuePriorityCount := by
  unfold maximumWorkqueuePriorityCount
  rcases contract.levels with four | ⟨_, none | three⟩ <;> omega

/-- The queue of an item has room for it. -/
structure Room (runtime : DarwinPthreadRuntime) (item : DarwinWorkqueueItem) : Prop where
  opened : runtime.workqueueOpen = true
  level : item.priority < runtime.workqueuePriorityCount
  short : runtime.queued item.priority < maximumWorkqueueItemsPerPriority

theorem enqueue_of_room (room : Room runtime item) (front : Bool) :
    runtime.enqueueWorkitem item front =
      ({ runtime with workitems := runtime.workitems.push item.priority front item }, true) := by
  unfold enqueueWorkitem
  rw [if_neg]
  simp [room.opened, room.level, room.short]

theorem room_of_enqueue {front : Bool} (queued : runtime.enqueueWorkitem item front = (runtime', true)) :
    Room runtime item := by
  unfold enqueueWorkitem at queued
  split at queued
  · cases queued
  · rename_i admitted
    simp only [Bool.or_eq_true, Bool.not_eq_true', decide_eq_true_eq, not_or, Bool.not_eq_false,
      Nat.not_le] at admitted
    exact ⟨admitted.1.1, admitted.1.2, admitted.2⟩

theorem queued_eq {i : Nat} {lane : List DarwinWorkqueueItem}
    (found : runtime.workitems[i]? = some lane) : runtime.queued i = lane.length := by
  unfold queued
  rw [List.getD_eq_getElem?_getD, found]
  rfl

theorem Sound.push (sound : Sound contract runtime) (room : Room runtime item) (front : Bool) :
    Sound contract { runtime with workitems := runtime.workitems.push item.priority front item } ∧
      ∀ p, Lanes.tally (runtime.workitems.push item.priority front item) p =
        Lanes.tally runtime.workitems p + (p item).toNat := by
  have level := room.level
  rw [sound.levels room.opened] at level
  have bound : item.priority < runtime.workitems.length := by
    rw [sound.lanes]
    exact level.trans_le (PthreadContract.count_le contract)
  have found := List.getElem?_eq_getElem bound
  obtain ⟨short, members⟩ := sound.each _ _ found
  have room' := room.short
  rw [queued_eq found] at room'
  refine ⟨⟨?_, sound.levels, sound.positive, ?_⟩, fun p => Lanes.tally_push bound p front item⟩
  · dsimp only
    rw [Lanes.push_eq found, List.length_set]
    exact sound.lanes
  · dsimp only
    rw [Lanes.push_eq found]
    apply sound.each.set
    constructor
    · cases front <;> simp <;> omega
    · intro other member
      have either : other = item ∨ other ∈ runtime.workitems[item.priority] := by
        cases front <;> simpa [or_comm] using member
      rcases either with rfl | stored
      · exact ⟨rfl, level⟩
      · exact members other stored

/-- Replacing a queue by one without its first item that has a property. -/
theorem Sound.shorten (sound : Sound contract runtime) {i : Nat} {lane : List DarwinWorkqueueItem}
    (found : runtime.workitems[i]? = some lane) (p : DarwinWorkqueueItem → Bool) :
    Sound contract { runtime with workitems := runtime.workitems.set i (lane.eraseP p) } := by
  obtain ⟨short, members⟩ := sound.each i lane found
  refine ⟨?_, sound.levels, sound.positive, ?_⟩
  · dsimp only
    rw [List.length_set]
    exact sound.lanes
  · apply sound.each.set
    exact ⟨(List.length_eraseP_le).trans short,
      fun item member => members item (List.mem_of_mem_eraseP member)⟩

/-- A taken item leaves room for itself. -/
theorem Sound.take (sound : Sound contract runtime) {active returning : Option Nat}
    (taken : runtime.takeWorkitem active returning = some (item, runtime')) :
    Sound contract runtime' ∧ Room runtime' item ∧
      ∀ p, Lanes.tally runtime'.workitems p + (p item).toNat = Lanes.tally runtime.workitems p := by
  unfold takeWorkitem at taken
  split at taken
  · contradiction
  · rename_i opened
    obtain ⟨⟨other, lanes⟩, chosen, same⟩ := Option.map_eq_some_iff.mp taken
    cases same
    obtain ⟨i, lane, found, first, rfl⟩ := Lanes.take_spec chosen
    have member := List.mem_of_find?_eq_some first
    obtain ⟨short, members⟩ := sound.each i lane found
    obtain ⟨rfl, level⟩ := members _ member
    have isOpen : runtime.workqueueOpen = true := by simpa using opened
    refine ⟨sound.shorten found _, ⟨isOpen, ?_, ?_⟩, fun p => Lanes.tally_erase found first⟩
    · dsimp only
      rw [sound.levels isOpen]
      exact level
    · obtain ⟨bound, _⟩ := List.getElem?_eq_some_iff.mp found
      have here := List.getElem?_set_self (a := lane.eraseP (runtime.ready active returning)) bound
      rw [queued_eq here, List.length_eraseP_of_mem member (List.find?_some first)]
      have some : 0 < lane.length := List.length_pos_of_mem member
      omega

/-- Changes of the workers and of the concurrency leave the queues as they are. -/
theorem Sound.same_queues (sound : Sound contract runtime)
    (items : runtime'.workitems = runtime.workitems)
    (opened : runtime'.workqueueOpen = runtime.workqueueOpen)
    (levels : runtime'.workqueuePriorityCount = runtime.workqueuePriorityCount) :
    Sound contract runtime' := by
  obtain ⟨lanes, counted, positive, each⟩ := sound
  rw [← items] at lanes each
  rw [← opened, ← levels] at counted positive
  exact ⟨lanes, counted, positive, each⟩

/-- The loop that queues items of one kind, as long as their queue has room. -/
theorem Sound.pushMany (count : Nat) (sound : Sound contract runtime)
    (opened : runtime.workqueueOpen = true)
    (level : item.priority < runtime.workqueuePriorityCount)
    (fits : runtime.queued item.priority + count ≤ maximumWorkqueueItemsPerPriority)
    (other : item.isKevent = false) :
    let workitems := (fun lanes => lanes.push item.priority false item)^[count] runtime.workitems
    Sound contract { runtime with workitems } ∧
      workitems.tally DarwinWorkqueueItem.isKevent =
        runtime.workitems.tally DarwinWorkqueueItem.isKevent := by
  induction count generalizing runtime with
  | zero => exact ⟨sound, rfl⟩
  | succ count ih =>
    have room : Room runtime item := ⟨opened, level, by omega⟩
    obtain ⟨sound', more⟩ := sound.push room false
    have bound : item.priority < runtime.workitems.length := by
      rw [sound.lanes]
      rw [sound.levels opened] at level
      exact level.trans_le (PthreadContract.count_le contract)
    have found := List.getElem?_eq_getElem bound
    have here : (runtime.workitems.push item.priority false item)[item.priority]? =
        some (runtime.workitems[item.priority] ++ [item]) := by
      rw [Lanes.push_eq found]
      exact List.getElem?_set_self bound
    let next := { runtime with workitems := runtime.workitems.push item.priority false item }
    have longer : next.queued item.priority = (runtime.workitems[item.priority] ++ [item]).length :=
      queued_eq here
    rw [List.length_append, List.length_singleton, ← queued_eq found] at longer
    obtain ⟨last, same⟩ := ih sound' opened level (show next.queued item.priority + count ≤ _ by omega)
    have kept := more DarwinWorkqueueItem.isKevent
    rw [other, Bool.toNat_false, Nat.add_zero] at kept
    simp only [Function.iterate_succ_apply]
    exact ⟨last, same.trans kept⟩

/-- New threads are requested by items that no delivery of kevents is among. -/
theorem Sound.requestDispatchThreads (sound : Sound contract runtime) {count priority : Nat}
    {overcommit : Bool} {threadClass : Nat}
    (requested : runtime.requestDispatchThreads count priority overcommit threadClass =
      (runtime', true)) :
    Sound contract runtime' ∧ runtime'.workitems.tally DarwinWorkqueueItem.isKevent =
      runtime.workitems.tally DarwinWorkqueueItem.isKevent := by
  unfold DarwinPthreadRuntime.requestDispatchThreads at requested
  split at requested
  · cases requested
  · rename_i admitted
    simp only [Bool.or_eq_true, Bool.not_eq_true', decide_eq_true_eq, not_or, Bool.not_eq_false,
      Nat.not_le, Nat.not_lt] at admitted
    obtain ⟨⟨⟨opened, level⟩, more⟩, fits⟩ := admitted
    cases requested
    let item : DarwinWorkqueueItem :=
      { address := 0, priority, affinity := 0, overcommit, delivery := .dispatchThread, threadClass }
    exact pushMany count sound opened (show item.priority < _ from level) (by dsimp only [item]; omega) rfl

end DarwinPthreadRuntime

namespace Workqueue
open DarwinPthreadRuntime
variable {contract : PthreadContract} {workqueue : Workqueue} {lost : Nat}
  {item : DarwinWorkqueueItem}

/-- The number of queued items that ask for a delivery of kevents. -/
def kevents (workqueue : Workqueue) : Nat :=
  workqueue.runtime.workitems.tally DarwinWorkqueueItem.isKevent

/-- The flag is set exactly if one delivery of kevents is queued, and there is no other. -/
def Mirrors (workqueue : Workqueue) : Prop :=
  workqueue.kevents = workqueue.keventQueued.toNat

instance (workqueue : Workqueue) : Decidable workqueue.Mirrors :=
  inferInstanceAs (Decidable (_ = _))

/-- The flag counts the queued deliveries and the lost ones. -/
structure Level (contract : PthreadContract) (lost : Nat) (workqueue : Workqueue) : Prop where
  sound : DarwinPthreadRuntime.Sound contract workqueue.runtime
  level : workqueue.kevents + lost = workqueue.keventQueued.toNat

/-- An item is off the queue, with room to come back, and the flag does not count it. -/
structure Off (contract : PthreadContract) (lost : Nat) (item : DarwinWorkqueueItem)
    (workqueue : Workqueue) : Prop where
  level : Level contract lost workqueue
  room : Room workqueue.runtime item
  spare : item.isKevent = true → workqueue.keventQueued = false

theorem Level.same_queues (level : Level contract lost workqueue) {runtime : DarwinPthreadRuntime}
    (items : runtime.workitems = workqueue.runtime.workitems)
    (opened : runtime.workqueueOpen = workqueue.runtime.workqueueOpen)
    (levels : runtime.workqueuePriorityCount = workqueue.runtime.workqueuePriorityCount) :
    Level contract lost { workqueue with runtime } := by
  refine ⟨level.sound.same_queues items opened levels, ?_⟩
  unfold kevents
  dsimp only
  rw [items]
  exact level.level

theorem Level.assign (level : Level contract lost workqueue) (processor : Nat) :
    Level contract lost (workqueue.assign processor item) := by
  unfold Workqueue.assign
  split
  · exact ⟨level.sound, level.level⟩
  · exact level

theorem Level.take (level : Level contract lost workqueue) {active returning : Option Nat}
    {runtime : DarwinPthreadRuntime}
    (taken : workqueue.runtime.takeWorkitem active returning = some (item, runtime)) :
    Off contract lost item (Workqueue.taken { workqueue with runtime } item) := by
  obtain ⟨sound, room, fewer⟩ := level.sound.take taken
  have count := fewer DarwinWorkqueueItem.isKevent
  have flag := level.level
  have most := Bool.toNat_le workqueue.keventQueued
  unfold kevents at flag
  unfold Workqueue.taken
  by_cases kevent : item.delivery = .kevent
  · rw [if_pos kevent]
    have kind : item.isKevent = true := decide_eq_true kevent
    rw [kind, Bool.toNat_true] at count
    refine ⟨⟨sound, ?_⟩, room, fun _ => rfl⟩
    unfold kevents
    dsimp only [Bool.toNat_false]
    omega
  · rw [if_neg kevent]
    have kind : item.isKevent = false := decide_eq_false kevent
    rw [kind, Bool.toNat_false] at count
    refine ⟨⟨sound, ?_⟩, room, fun is => absurd is (by simp [kind])⟩
    unfold kevents
    dsimp only
    omega

/-- A requeue finds the room that the item left. -/
theorem Off.requeue (off : Off contract lost item workqueue) :
    Level contract lost (workqueue.requeue item) := by
  obtain ⟨sound, more⟩ := off.level.sound.push off.room true
  have flag := off.level.level
  have count := more DarwinWorkqueueItem.isKevent
  unfold kevents at flag
  unfold Workqueue.requeue
  rw [enqueue_of_room off.room]
  dsimp only
  by_cases kevent : item.delivery = .kevent
  · rw [if_pos kevent]
    have kind : item.isKevent = true := decide_eq_true kevent
    rw [off.spare kind, Bool.toNat_false] at flag
    rw [kind, Bool.toNat_true] at count
    refine ⟨sound, ?_⟩
    unfold kevents
    dsimp only [Bool.toNat_true]
    omega
  · rw [if_neg kevent]
    have kind : item.isKevent = false := decide_eq_false kevent
    rw [kind, Bool.toNat_false] at count
    refine ⟨sound, ?_⟩
    unfold kevents
    dsimp only
    omega

theorem Off.reuse (off : Off contract lost item workqueue) (answers : ServiceAnswers)
    (worker : DarwinWorkqueueWorker) :
    Level contract lost (workqueue.reuse contract answers worker item).1 := by
  unfold Workqueue.reuse
  split
  · exact off.requeue
  · split
    · exact off.requeue.same_queues rfl rfl rfl
    · apply Level.assign
      exact off.level.same_queues rfl rfl rfl

theorem addWorker_queues {runtime runtime' : DarwinPthreadRuntime} {worker : DarwinWorkqueueWorker}
    (added : runtime.addWorker worker = (runtime', true)) :
    runtime'.workitems = runtime.workitems ∧ runtime'.workqueueOpen = runtime.workqueueOpen ∧
      runtime'.workqueuePriorityCount = runtime.workqueuePriorityCount := by
  unfold addWorker at added
  split at added
  · cases added
  · cases added
    exact ⟨rfl, rfl, rfl⟩

theorem Off.create (off : Off contract lost item workqueue) (answers : ServiceAnswers)
    (registration : DarwinPthreadRegistration) :
    Level contract lost (workqueue.create contract answers registration item).1 := by
  unfold Workqueue.create
  dsimp only
  split
  · exact off.requeue
  · split
    · split
      · exact off.requeue
      · split
        · exact off.requeue
        · split
          · exact off.requeue
          · rename_i added
            obtain ⟨items, opened, levels⟩ := addWorker_queues added
            exact (off.level.same_queues items opened levels).assign _
    · exact off.requeue

theorem Level.service (level : Level contract lost workqueue) (answers : ServiceAnswers) :
    Level contract lost (workqueue.serviceBsdWorkqueue contract answers).1 := by
  unfold serviceBsdWorkqueue
  split
  · exact level
  · split
    · exact level
    · split
      · exact level
      · dsimp only
        split
        · exact level
        · rename_i item runtime taken
          have off := level.take taken
          split
          · exact off.reuse answers _
          · exact off.create answers _

theorem Level.serviceTimes (answers : List ServiceAnswers) (count : Nat)
    (level : Level contract lost workqueue) :
    Level contract lost (serviceTimes contract workqueue answers count) := by
  induction count generalizing workqueue answers with
  | zero => exact level
  | succ count ih =>
    have serviced := level.service (answers.headD {})
    unfold Workqueue.serviceTimes
    split
    · rename_i done
      rw [done] at serviced
      exact serviced
    · rename_i more
      rw [more] at serviced
      exact ih answers.tail serviced

theorem Level.enqueue (level : Level contract lost workqueue) {front : Bool}
    {runtime : DarwinPthreadRuntime} (other : item.isKevent = false)
    (queued : workqueue.runtime.enqueueWorkitem item front = (runtime, true)) :
    Level contract lost { workqueue with runtime } := by
  have room := room_of_enqueue queued
  obtain ⟨sound, more⟩ := level.sound.push room front
  rw [enqueue_of_room room] at queued
  cases queued
  refine ⟨sound, ?_⟩
  unfold kevents
  dsimp only
  rw [more, other]
  exact level.level

theorem Level.request (level : Level contract lost workqueue) (answers : RequestAnswers) :
    Level contract lost (workqueue.requestWorkqueueKevents contract answers).1 := by
  unfold requestWorkqueueKevents
  split
  · exact level
  · split
    · exact level
    · split
      · exact level
      · rename_i unset
        split
        · exact level
        · split
          · exact level
          · rename_i bucket _ _ runtime queued
            apply Level.service
            have room := room_of_enqueue queued
            obtain ⟨sound, more⟩ := level.sound.push room false
            have flag := level.level
            have count := more DarwinWorkqueueItem.isKevent
            have kind : (keventRequest contract answers bucket).isKevent = true := rfl
            rw [Bool.not_eq_true] at unset
            rw [unset, Bool.toNat_false] at flag
            rw [kind, Bool.toNat_true] at count
            rw [enqueue_of_room room] at queued
            cases queued
            refine ⟨sound, ?_⟩
            unfold kevents at flag ⊢
            dsimp only [Bool.toNat_true]
            omega

theorem Level.continueWorker (level : Level contract lost workqueue) (answers : ReturnAnswers)
    (processor : Nat) :
    Level contract lost (workqueue.continueWorker contract answers processor) := by
  unfold Workqueue.continueWorker
  split
  · exact level.same_queues rfl rfl rfl
  · rename_i item runtime taken
    have off := level.take taken
    have back := off.requeue
    obtain ⟨sound, room, fewer⟩ := level.sound.take taken
    dsimp only
    split
    · -- The flag was not touched, so that the item may come back under it.
      obtain ⟨sound', more⟩ := sound.push room true
      have count := fewer DarwinWorkqueueItem.isKevent
      have count' := more DarwinWorkqueueItem.isKevent
      have flag := level.level
      rw [enqueue_of_room room]
      refine ⟨sound', ?_⟩
      unfold kevents at flag ⊢
      dsimp only
      omega
    · split
      · rename_i refused
        simp only [Bool.and_eq_true, decide_eq_true_eq] at refused
        simpa [Workqueue.taken, Workqueue.requeue, refused.1] using back
      · apply Level.assign
        exact off.level.same_queues rfl rfl rfl

theorem Level.threadReturn (level : Level contract lost workqueue) (answers : ReturnAnswers)
    (processor : Nat) :
    Level contract lost (workqueue.threadReturn contract answers processor) := by
  unfold Workqueue.threadReturn
  split
  · exact level
  · apply Level.continueWorker
    have freed : Level contract lost { workqueue with
        keventProcessors := workqueue.keventProcessors.filter (·.2 ≠ processor) } :=
      ⟨level.sound, level.level⟩
    split
    · exact freed
    · exact freed.request answers.request

/-- Whether an operation takes a queued delivery of kevents out by its address. -/
def removesKevent (workqueue : Workqueue) : WorkqueueOperation → Bool
  | .queueRemove address rawPriority =>
    let priority := withoutOvercommit rawPriority
    workqueue.runtime.workqueueOpen && priority < workqueue.runtime.workqueuePriorityCount &&
      ((workqueue.runtime.workitems.getD priority []).find? (·.address = address)).any (·.isKevent)
  | _ => false

theorem sound_empty (registration : Option DarwinPthreadRegistration) :
    DarwinPthreadRuntime.Sound contract { registration } := by
  refine ⟨rfl, nofun, nofun, ?_⟩
  intro i lane found
  obtain rfl : lane = [] := List.eq_of_mem_replicate (List.mem_of_getElem? found)
  exact ⟨Nat.zero_le _, nofun⟩

theorem level_empty (registration : Option DarwinPthreadRegistration) :
    Level contract 0 { runtime := { registration } } :=
  ⟨sound_empty registration, rfl⟩

/-- Removing an item by its address loses the delivery of kevents that it takes out. -/
theorem Level.queueRemove (level : Level contract lost workqueue) (address : Nat)
    (rawPriority : BitVec 32) :
    Level contract
      (lost + (workqueue.removesKevent (.queueRemove address rawPriority)).toNat)
      (workqueue.after contract (.queueRemove address rawPriority)) := by
  simp only [after, removesKevent]
  unfold removeWorkitem
  split
  · rename_i refused
    have kept : (workqueue.runtime.workqueueOpen &&
        decide (withoutOvercommit rawPriority < workqueue.runtime.workqueuePriorityCount)) =
          false := by
      cases opened : workqueue.runtime.workqueueOpen with
      | false => rfl
      | true => simpa [opened] using refused
    rw [kept, Bool.false_and, Bool.toNat_false, Nat.add_zero]
    exact level
  · rename_i admitted
    have reached : (workqueue.runtime.workqueueOpen &&
        decide (withoutOvercommit rawPriority < workqueue.runtime.workqueuePriorityCount)) =
          true := by
      simpa using admitted
    rw [reached, Bool.true_and, List.getD_eq_getElem?_getD]
    split
    · rename_i missing
      have absent : ((workqueue.runtime.workitems[withoutOvercommit rawPriority]?.getD []).find?
          (·.address = address)) = none := by
        unfold Lanes.remove at missing
        split at missing
        · rename_i nothing
          rw [nothing]
          rfl
        · rename_i lane found
          rw [found, Option.getD_some, List.find?_eq_none]
          intro item member same
          rw [if_pos (List.any_eq_true.mpr ⟨item, member, same⟩)] at missing
          contradiction
      rw [absent]
      exact level
    · rename_i removed
      obtain ⟨lane, item, found, first, rfl⟩ := Lanes.remove_spec removed
      have fewer := Lanes.tally_erase (p := DarwinWorkqueueItem.isKevent) found first
      have flag := level.level
      rw [found, Option.getD_some, first, Option.any_some]
      refine ⟨level.sound.shorten found _, ?_⟩
      unfold kevents at flag ⊢
      dsimp only
      omega

/-- Every operation keeps the count of the flag, with one more lost delivery when it removes
one; only an `exec` finds the lost ones again. -/
theorem Level.after (level : Level contract lost workqueue) {operation : WorkqueueOperation}
    (goes : operation ≠ .exec) :
    Level contract (lost + (workqueue.removesKevent operation).toNat)
      (workqueue.after contract operation) := by
  cases operation with
  | register registration =>
    simp only [Workqueue.after, registerProcess]
    split
    · exact level
    · exact level.same_queues rfl rfl rfl
  | workqOpen processorCount =>
    simp only [Workqueue.after, openWorkqueue]
    split
    · exact level
    · rename_i admitted
      simp only [Bool.or_eq_true, decide_eq_true_eq, not_or] at admitted
      have positive := Nat.pos_of_ne_zero admitted.1.2
      exact ⟨⟨level.sound.lanes, fun _ => rfl, fun _ => positive, level.sound.each⟩, level.level⟩
  | queueAdd address affinity rawPriority answers =>
    simp only [Workqueue.after]
    split
    · exact level
    · rename_i queued
      exact (level.enqueue (by rfl) queued).service answers
  | queueRemove address rawPriority => exact level.queueRemove address rawPriority
  | requestDispatchThreads count rawPriority answers =>
    simp only [Workqueue.after]
    split
    · exact level
    · split
      · exact level
      · split
        · exact level
        · rename_i runtime requested
          obtain ⟨sound, same⟩ := level.sound.requestDispatchThreads requested
          apply Level.serviceTimes answers count
          refine ⟨sound, ?_⟩
          unfold kevents
          dsimp only
          rw [same]
          exact level.level
  | setConcurrency concurrency rawPriority answers =>
    simp only [Workqueue.after]
    split
    · exact level
    · rename_i set
      apply Level.service
      unfold setTargetConcurrency at set
      split at set
      · cases set
      · split at set
        · cases set
          exact level.same_queues rfl rfl rfl
        · cases set
          exact level.same_queues rfl rfl rfl
  | threadReturn processor answers => exact level.threadReturn answers processor
  | requestKevents answers => exact level.request answers
  | service answers => exact level.service answers
  | threadTerminated processor =>
    exact ⟨level.sound.same_queues rfl rfl rfl, level.level⟩
  | exec => contradiction

end Workqueue
end ILEmu
