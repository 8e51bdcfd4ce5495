import ILEmu.Mach.Semaphores

/-! No token of a semaphore is lost but those that a signal of all throws away, and its waiters
are woken once and in order. -/
namespace ILEmu.Mach.Semaphores
open Foundation

/-- The waits that a signal of one has woken. -/
def delivered (departures : List ((Thread × Nat) × Departure)) : Nat :=
  departures.countP fun departure => departure.2 = .signaled ∨ departure.2 = .directed

@[simp]
theorem delivered_append (departures more : List ((Thread × Nat) × Departure)) :
    delivered (departures ++ more) = delivered departures + delivered more :=
  List.countP_append

/-- Waits that leave together for another reason take no signal. -/
theorem delivered_map (waiters : List (Thread × Nat)) {departure : Departure}
    (other : ¬ (departure = .signaled ∨ departure = .directed)) :
    delivered (waiters.map ((·, departure))) = 0 := by
  apply List.countP_eq_zero.mpr
  intro gone member
  obtain ⟨_, _, rfl⟩ := List.mem_map.mp member
  simpa using other

/-- A signal that is not directed finds everybody gone who came before the one it wakes. -/
def InOrder (departures : List ((Thread × Nat) × Departure)) : Prop :=
  ∀ before departure after, departures = before ++ departure :: after →
    departure.2 = .signaled ∨ departure.2 = .all →
    ∀ earlier < departure.1.2, earlier ∈ before.map (·.1.2)

structure Account (initial : Int) (semaphore : SemaphoreState) : Prop where
  nonneg : 0 ≤ semaphore.count
  idle : 0 < semaphore.count → semaphore.waiters = []
  balance : initial + semaphore.history.signals = semaphore.count + semaphore.history.taken +
    delivered semaphore.history.departures + semaphore.history.discarded
  turns : Turns semaphore.history.arrivals (semaphore.waiters.map (·.1))
    (semaphore.history.departures.map (·.1)) semaphore.waiters
  sorted : semaphore.waiters.Pairwise (·.2 < ·.2)
  inOrder : InOrder semaphore.history.departures

theorem InOrder.append {departures more : List ((Thread × Nat) × Departure)}
    (inOrder : InOrder departures)
    (later : ∀ before departure after, more = before ++ departure :: after →
      departure.2 = .signaled ∨ departure.2 = .all →
      ∀ earlier < departure.1.2, earlier ∈ (departures ++ before).map (·.1.2)) :
    InOrder (departures ++ more) := by
  intro before departure after same undirected earlier less
  obtain ⟨rest, rfl, tail⟩ | ⟨rest, rfl, tail⟩ := List.append_eq_append_iff.mp same
  · exact later rest departure after tail undirected earlier less
  · cases rest with
    | nil =>
      have here := later [] departure after tail.symm undirected earlier less
      rw [List.append_nil, List.append_nil] at here
      exact here
    | cons first rest =>
      obtain ⟨rfl, _⟩ := List.cons.inj tail
      exact inOrder before departure rest rfl undirected earlier less

/-- The first waiter that is the target, in the queue and taken out of it. -/
theorem first_target {waiters : List (Thread × Nat)} {target : Thread} {waiter : Thread × Nat}
    (first : waiters.find? (fun other => other.1 = target) = some waiter) :
    ∃ ahead behind, waiters = ahead ++ waiter :: behind ∧
      waiters.eraseP (fun other => other.1 = target) = ahead ++ behind ∧ waiter.1 = target := by
  obtain ⟨suits, ahead, behind, rfl, others⟩ := List.find?_eq_some_iff_append.mp first
  refine ⟨ahead, behind, rfl, ?_, of_decide_eq_true suits⟩
  rw [List.eraseP_append_right _ (by simpa using others)]
  exact congrArg (ahead ++ ·) (List.eraseP_cons_of_pos suits)

namespace Account
variable {initial : Int} {semaphore : SemaphoreState}

theorem fresh (count : Nat) : Account count { count } := by
  refine ⟨Int.natCast_nonneg count, fun _ => rfl, ?_, .start, List.Pairwise.nil, ?_⟩
  · change (count : Int) + 0 = count + 0 + 0 + 0
    omega
  · intro before departure after same
    simp at same

theorem wake (account : Account initial semaphore) {waiter : Thread × Nat}
    {ahead behind : List (Thread × Nat)} (parted : semaphore.waiters = ahead ++ waiter :: behind)
    {departure : Departure} (single : departure = .signaled ∨ departure = .directed)
    (first : departure = .directed ∨ ahead = []) :
    Account initial (semaphore.wake waiter departure (ahead ++ behind)) := by
  have positive : ¬ 0 < semaphore.count := by
    intro positive
    have none_ := account.idle positive
    rw [parted] at none_
    simp at none_
  have turns := account.turns
  have sorted := account.sorted
  rw [parted] at turns sorted
  have leaves : ([waiter] ++ (ahead ++ behind)).Perm (ahead ++ waiter :: behind) := by
    rw [List.singleton_append]
    exact List.perm_middle.symm
  refine ⟨account.nonneg, fun more => absurd more positive, ?_, ?_, ?_, ?_⟩
  · have balance := account.balance
    have one : delivered [(waiter, departure)] = 1 := by
      unfold delivered
      rw [List.countP_singleton, if_pos (decide_eq_true single)]
    change initial + (semaphore.history.signals + 1 : Nat) = semaphore.count +
      semaphore.history.taken + delivered (semaphore.history.departures ++ [(waiter, departure)]) +
      semaphore.history.discarded
    rw [delivered_append, one]
    omega
  · change Turns _ _ ((semaphore.history.departures ++ [(waiter, departure)]).map (·.1)) _
    rw [List.map_append, List.map_singleton]
    exact turns.depart leaves
  · exact sorted.sublist ((List.sublist_cons_self _ _).append_left _)
  · refine account.inOrder.append fun before other after same undirected earlier less => ?_
    obtain ⟨rfl, same⟩ | ⟨_, same⟩ := List.singleton_eq_append_iff.mp same
    · obtain ⟨rfl, rfl⟩ := List.cons.inj same
      obtain rfl | rfl := first
      · obtain undirected | undirected := undirected <;> contradiction
      · have found := turns.before_of_lt sorted less
        rw [List.append_nil, List.map_map] at found
        rw [List.append_nil]
        exact found
    · contradiction

/-- All the waiters leave in their order. -/
theorem wakeAll (account : Account initial semaphore) (prepost : Bool) :
    Account initial (semaphore.signal true prepost).2 := by
  refine ⟨Int.le_refl 0, fun positive => absurd positive (Int.lt_irrefl 0), ?_, ?_,
    List.Pairwise.nil, ?_⟩
  · have balance := account.balance
    change initial + semaphore.history.signals = 0 + semaphore.history.taken +
      delivered (semaphore.history.departures ++ semaphore.waiters.map ((·, .all))) +
      (semaphore.history.discarded + semaphore.count)
    rw [delivered_append, delivered_map semaphore.waiters (by decide)]
    omega
  · change Turns _ _ ((semaphore.history.departures ++ _).map (·.1)) _
    rw [List.map_append, List.map_map]
    have leaves : (semaphore.waiters ++ []).Perm semaphore.waiters := by rw [List.append_nil]
    have same : ∀ waiters : List (Thread × Nat), waiters.map ((fun entry => entry.1) ∘
        fun waiter => (waiter, Departure.all)) = waiters := List.map_id
    rw [same]
    exact account.turns.depart leaves
  · refine account.inOrder.append fun before departure after same _ earlier less => ?_
    obtain ⟨ahead, rest, parted, rfl, tail⟩ := List.map_eq_append_iff.mp same
    obtain ⟨waiter, behind, rfl, rfl, _⟩ := List.map_eq_cons_iff.mp tail
    have turns := account.turns
    have sorted := account.sorted
    rw [parted] at turns sorted
    have found := turns.before_of_lt sorted less
    rw [List.map_append, List.map_map] at found ⊢
    exact found

theorem post (account : Account initial semaphore) (empty : semaphore.waiters = []) :
    Account initial { semaphore with
      count := semaphore.count + 1
      history := { semaphore.history with signals := semaphore.history.signals + 1 } } := by
  obtain ⟨nonneg, _, balance, turns, sorted, inOrder⟩ := account
  refine ⟨?_, fun _ => empty, ?_, turns, sorted, inOrder⟩
  · change 0 ≤ semaphore.count + 1
    omega
  · push_cast
    omega

theorem takeCount (account : Account initial semaphore) (positive : 0 < semaphore.count) :
    Account initial semaphore.takeCount := by
  have empty := account.idle positive
  obtain ⟨_, _, balance, turns, sorted, inOrder⟩ := account
  refine ⟨?_, fun _ => empty, ?_, turns, sorted, inOrder⟩
  · change 0 ≤ semaphore.count - 1
    omega
  · change initial + semaphore.history.signals = semaphore.count - 1 +
      (semaphore.history.taken + 1 : Nat) + delivered semaphore.history.departures +
      semaphore.history.discarded
    omega

theorem enter (account : Account initial semaphore) (none_ : ¬ 0 < semaphore.count)
    (thread : Thread) : Account initial (semaphore.enter thread) := by
  refine ⟨account.nonneg, fun positive => absurd positive none_, account.balance, ?_, ?_,
    account.inOrder⟩
  · change Turns _ ((semaphore.waiters ++ [(thread, _)]).map Prod.fst) _ _
    rw [List.map_append, List.map_singleton]
    exact account.turns.enter thread
  · refine List.pairwise_append.mpr ⟨account.sorted, List.pairwise_singleton _ _, ?_⟩
    intro waiter member last same
    rw [List.mem_singleton.mp same]
    exact account.turns.number_lt member

theorem expire (account : Account initial semaphore) (thread : Thread) :
    Account initial (semaphore.expire thread) := by
  have leaves : (semaphore.waiters.filter (·.1 = thread) ++
      semaphore.waiters.filter (·.1 ≠ thread)).Perm semaphore.waiters := by
    have parts := List.filter_append_perm (fun waiter : Thread × Nat => decide (waiter.1 = thread))
      semaphore.waiters
    simpa using parts
  refine ⟨account.nonneg, fun positive => ?_, ?_, ?_,
    account.sorted.sublist List.filter_sublist, ?_⟩
  · change semaphore.waiters.filter _ = []
    rw [account.idle positive]
    rfl
  · have balance := account.balance
    change initial + semaphore.history.signals = semaphore.count + semaphore.history.taken +
      delivered (semaphore.history.departures ++ List.map ((·, .timedOut)) _) +
      semaphore.history.discarded
    rw [delivered_append, delivered_map _ (by decide)]
    exact balance
  · change Turns _ _ ((semaphore.history.departures ++ _).map (·.1)) _
    rw [List.map_append, List.map_map]
    have same : ∀ waiters : List (Thread × Nat), waiters.map ((fun entry => entry.1) ∘
        fun waiter => (waiter, Departure.timedOut)) = waiters := List.map_id
    rw [same]
    exact account.turns.depart leaves
  · refine account.inOrder.append fun before departure after same undirected => ?_
    have late : departure ∈ (semaphore.waiters.filter (·.1 = thread)).map
        (fun waiter => (waiter, Departure.timedOut)) := by
      rw [same]
      simp
    obtain ⟨_, _, rfl⟩ := List.mem_map.mp late
    obtain undirected | undirected := undirected <;> contradiction

theorem signal (account : Account initial semaphore) (all prepost : Bool) :
    Account initial (semaphore.signal all prepost).2 := by
  cases all with
  | true => exact account.wakeAll prepost
  | false =>
    unfold SemaphoreState.signal
    rw [if_neg Bool.false_ne_true]
    split
    · rename_i waiter rest waiters
      have parted : semaphore.waiters = [] ++ waiter :: rest := waiters
      exact account.wake parted (Or.inl rfl) (Or.inr rfl)
    · rename_i empty
      cases prepost with
      | true => exact account.post empty
      | false => exact account

theorem signalThread (account : Account initial semaphore) {target : Option Thread}
    {woken : Thread} {after : SemaphoreState}
    (found : semaphore.signalThread target = some (woken, after)) : Account initial after := by
  unfold SemaphoreState.signalThread at found
  split at found
  · split at found
    · rename_i waiter rest waiters
      obtain ⟨_, rfl⟩ := Prod.mk.inj (Option.some.inj found)
      have parted : semaphore.waiters = [] ++ waiter :: rest := waiters
      exact account.wake parted (Or.inl rfl) (Or.inr rfl)
    · contradiction
  · split at found
    · rename_i target waiter first
      obtain ⟨_, rfl⟩ := Prod.mk.inj (Option.some.inj found)
      obtain ⟨ahead, behind, parted, erased, _⟩ := first_target first
      rw [erased]
      exact account.wake parted (Or.inr rfl) (Or.inl rfl)
    · contradiction

end Account

/-- The threads that a signal wakes and those that go on waiting are those that waited. -/
theorem signal_parted (semaphore : SemaphoreState) (all prepost : Bool) :
    ((semaphore.signal all prepost).1 ++ (semaphore.signal all prepost).2.waiters.map (·.1)).Perm
      (semaphore.waiters.map (·.1)) := by
  cases all with
  | true =>
    change (semaphore.waiters.map Prod.fst ++ []).Perm _
    rw [List.append_nil]
  | false =>
    unfold SemaphoreState.signal
    rw [if_neg Bool.false_ne_true]
    split
    · rename_i waiter rest waiters
      rw [waiters]
      exact List.Perm.refl _
    · split <;> exact List.Perm.refl _

theorem signalThread_parted {semaphore after : SemaphoreState} {target : Option Thread}
    {woken : Thread} (found : semaphore.signalThread target = some (woken, after)) :
    ([woken] ++ after.waiters.map (·.1)).Perm (semaphore.waiters.map (·.1)) := by
  unfold SemaphoreState.signalThread at found
  split at found
  · split at found
    · rename_i waiter rest waiters
      obtain ⟨rfl, rfl⟩ := Prod.mk.inj (Option.some.inj found)
      rw [waiters]
      exact List.Perm.refl _
    · contradiction
  · split at found
    · rename_i target waiter first
      obtain ⟨rfl, rfl⟩ := Prod.mk.inj (Option.some.inj found)
      obtain ⟨ahead, behind, parted, erased, suits⟩ := first_target first
      rw [erased, parted]
      change (_ :: (ahead ++ behind).map Prod.fst).Perm _
      rw [List.map_append, List.map_append, List.map_cons, suits]
      exact List.perm_middle.symm
    · contradiction

section
variable {O : Type} [DecidableEq O]

def Waits (world : World O) (thread : Thread) (object : O) : Prop :=
  ∃ semaphore, world.semaphores object = some semaphore ∧ thread ∈ semaphore.waiters.map (·.1)

/-- A thread that waits is in the queue of its semaphore or has been awakened, and not both. -/
structure Sound (initial : O → Option Int) (world : World O) : Prop where
  accounts : ∀ object semaphore, world.semaphores object = some semaphore →
    ∃ count, initial object = some count ∧ Account count semaphore
  kept : ∀ object, (initial object).isSome → (world.semaphores object).isSome
  once : ∀ object semaphore, world.semaphores object = some semaphore →
    (semaphore.waiters.map (·.1)).Nodup
  placed : ∀ thread object, Waits world thread object →
    ∃ pending, world.pending thread = some pending ∧ pending.semaphore = object
  awake : ∀ thread ∈ world.wakeups, (world.pending thread).isSome ∧
    ∀ object, ¬ Waits world thread object
  asleep : ∀ thread pending, world.pending thread = some pending →
    thread ∈ world.wakeups ∨ Waits world thread pending.semaphore

namespace Sound
variable {initial : O → Option Int} {world : World O}

omit [DecidableEq O] in
theorem mem_wakeAll {threads : List Thread} {thread : Thread} :
    thread ∈ (world.wakeAll threads).wakeups ↔ thread ∈ threads ∨ thread ∈ world.wakeups := by
  unfold World.wakeAll
  generalize world.wakeups = wakeups
  induction threads generalizing wakeups with
  | nil => simp
  | cons first rest ih =>
    change thread ∈ rest.foldl _ (wakeups.insert first) ↔ _
    rw [ih, List.mem_insert_iff, List.mem_cons]
    tauto

theorem put_semaphores (object : O) (semaphore : SemaphoreState) (threads : List Thread)
    (other : O) : ((world.put object semaphore).wakeAll threads).semaphores other =
      if other = object then some semaphore else world.semaphores other :=
  Function.update_apply ..

theorem waits_put {object : O} {semaphore : SemaphoreState} {threads : List Thread}
    {thread : Thread} {other : O} :
    Waits ((world.put object semaphore).wakeAll threads) thread other ↔
      if other = object then thread ∈ semaphore.waiters.map (·.1) else Waits world thread other := by
  unfold Waits
  rw [put_semaphores]
  split <;> simp

/-- A semaphore changes and some of its waiters are woken, which leave its queue. -/
theorem woken (sound : Sound initial world) {object : O} {semaphore after : SemaphoreState}
    (found : world.semaphores object = some semaphore)
    (account : ∀ count, Account count semaphore → Account count after) {threads : List Thread}
    (parted : (threads ++ after.waiters.map (·.1)).Perm (semaphore.waiters.map (·.1))) :
    Sound initial ((world.put object after).wakeAll threads) := by
  have waits_before : ∀ thread other, Waits ((world.put object after).wakeAll threads) thread other →
      Waits world thread other := by
    intro thread other waits
    rw [waits_put] at waits
    split at waits
    · rename_i same
      subst same
      exact ⟨semaphore, found, parted.subset (List.mem_append_right _ waits)⟩
    · exact waits
  have distinct := parted.nodup_iff.mpr (sound.once object semaphore found)
  refine ⟨?_, ?_, ?_, fun thread other waits =>
    sound.placed thread other (waits_before thread other waits), ?_, ?_⟩
  · intro other other' known
    rw [put_semaphores] at known
    split at known
    · rename_i same
      subst same
      obtain rfl := Option.some.inj known
      obtain ⟨count, first, balanced⟩ := sound.accounts other semaphore found
      exact ⟨count, first, account count balanced⟩
    · exact sound.accounts other other' known
  · intro other listed
    rw [put_semaphores]
    split
    · rfl
    · exact sound.kept other listed
  · intro other other' known
    rw [put_semaphores] at known
    split at known
    · obtain rfl := Option.some.inj known
      exact (List.nodup_append.mp distinct).2.1
    · exact sound.once other other' known
  · intro thread member
    obtain now | before := mem_wakeAll.mp member
    · have waited : Waits world thread object :=
        ⟨semaphore, found, parted.subset (List.mem_append_left _ now)⟩
      obtain ⟨pending, known, same⟩ := sound.placed thread object waited
      refine ⟨Option.isSome_iff_exists.mpr ⟨pending, known⟩, fun other waits => ?_⟩
      obtain ⟨pending', known', same'⟩ := sound.placed thread other (waits_before thread other waits)
      obtain rfl := Option.some.inj (known.symm.trans known')
      rw [waits_put, if_pos (same'.symm.trans same)] at waits
      exact (List.nodup_append.mp distinct).2.2 thread now thread waits rfl
    · obtain ⟨known, nowhere⟩ := sound.awake thread before
      exact ⟨known, fun other waits => nowhere other (waits_before thread other waits)⟩
  · intro thread pending known
    rw [mem_wakeAll, waits_put]
    obtain awake | waits := sound.asleep thread pending known
    · exact Or.inl (Or.inr awake)
    · split
      · rename_i same
        obtain ⟨_, found', member⟩ := waits
        rw [same] at found'
        obtain rfl := Option.some.inj (found.symm.trans found')
        obtain now | later := List.mem_append.mp (parted.symm.subset member)
        · exact Or.inl (Or.inl now)
        · exact Or.inr later
      · exact Or.inr waits

theorem signalObject (sound : Sound initial world) (object : O) (all prepost : Bool) :
    Sound initial (world.signalObject object all prepost).2 := by
  unfold World.signalObject
  split
  · exact sound
  · rename_i semaphore found
    exact sound.woken found (fun _ account => account.signal all prepost)
      (signal_parted semaphore all prepost)

theorem signalThread (sound : Sound initial world) (object : O) (target : Option Thread) :
    Sound initial (world.signalThread object target).2 := by
  unfold World.signalThread
  split
  · exact sound
  · rename_i semaphore found
    split
    · exact sound
    · rename_i woken after signaled
      exact sound.woken found (fun _ account => account.signalThread signaled)
        (signalThread_parted signaled)

/-- A change of the count alone. -/
theorem counted (sound : Sound initial world) {object : O} {semaphore after : SemaphoreState}
    (found : world.semaphores object = some semaphore)
    (account : ∀ count, Account count semaphore → Account count after)
    (same : after.waiters = semaphore.waiters) : Sound initial (world.put object after) :=
  have parted : ([] ++ after.waiters.map Prod.fst).Perm (semaphore.waiters.map Prod.fst) := by
    rw [same, List.nil_append]
  sound.woken found account parted

theorem tryWait (sound : Sound initial world) (object : O) :
    Sound initial (world.tryWait object).2 := by
  unfold World.tryWait
  split
  · exact sound
  · rename_i semaphore found
    split
    · rename_i positive
      exact sound.counted found (fun _ account => account.takeCount positive) rfl
    · exact sound

/-- A thread that does not wait goes to the end of the queue. -/
theorem entered (sound : Sound initial world) {object : O} {semaphore : SemaphoreState}
    (found : world.semaphores object = some semaphore) (none_ : ¬ 0 < semaphore.count)
    {thread : Thread} (free : world.pending thread = none) (deadline : Option Nat) :
    Sound initial { world.put object (semaphore.enter thread) with
      pending := Function.update world.pending thread (some ⟨object, deadline⟩) } := by
  set after : World O := { world.put object (semaphore.enter thread) with
    pending := Function.update world.pending thread (some ⟨object, deadline⟩) } with isAfter
  have nowhere : ∀ other, ¬ Waits world thread other := by
    intro other waits
    obtain ⟨pending, known, _⟩ := sound.placed thread other waits
    rw [free] at known
    contradiction
  have semaphores_after : ∀ other, after.semaphores other =
      if other = object then some (semaphore.enter thread) else world.semaphores other :=
    fun other => Function.update_apply ..
  have queue_after : (semaphore.enter thread).waiters.map Prod.fst =
      semaphore.waiters.map Prod.fst ++ [thread] := List.map_append
  have waits_after : ∀ waiter other, Waits after waiter other ↔
      Waits world waiter other ∨ waiter = thread ∧ other = object := by
    intro waiter other
    unfold Waits
    rw [semaphores_after]
    by_cases same : other = object
    · subst same
      rw [if_pos rfl, found]
      simp only [Option.some.injEq, exists_eq_left', queue_after, List.mem_append,
        List.mem_singleton, and_true]
    · rw [if_neg same]
      simp only [same, and_false, or_false]
  have pending_after : ∀ waiter, after.pending waiter =
      if waiter = thread then some ⟨object, deadline⟩ else world.pending waiter :=
    fun waiter => Function.update_apply ..
  refine ⟨?_, ?_, ?_, ?_, ?_, ?_⟩
  · intro other other' known
    rw [semaphores_after] at known
    split at known
    · rename_i same
      subst same
      obtain rfl := Option.some.inj known
      obtain ⟨count, first, balanced⟩ := sound.accounts other semaphore found
      exact ⟨count, first, balanced.enter none_ thread⟩
    · exact sound.accounts other other' known
  · intro other listed
    rw [semaphores_after]
    split
    · rfl
    · exact sound.kept other listed
  · intro other other' known
    rw [semaphores_after] at known
    split at known
    · obtain rfl := Option.some.inj known
      rw [queue_after]
      refine List.nodup_append.mpr ⟨sound.once object semaphore found, List.nodup_singleton _, ?_⟩
      intro waiter member last same equal
      rw [equal, List.mem_singleton.mp same] at member
      exact nowhere object ⟨semaphore, found, member⟩
    · exact sound.once other other' known
  · intro waiter other waits
    rw [pending_after]
    obtain before | ⟨rfl, rfl⟩ := (waits_after waiter other).mp waits
    · have another : waiter ≠ thread := fun same => nowhere other (same ▸ before)
      rw [if_neg another]
      exact sound.placed waiter other before
    · exact ⟨_, if_pos rfl, rfl⟩
  · intro waiter member
    obtain ⟨known, absent⟩ := sound.awake waiter member
    have another : waiter ≠ thread := by
      rintro rfl
      rw [free] at known
      contradiction
    rw [pending_after, if_neg another]
    refine ⟨known, fun other waits => ?_⟩
    obtain before | ⟨same, _⟩ := (waits_after waiter other).mp waits
    · exact absent other before
    · exact another same
  · intro waiter pending known
    rw [pending_after] at known
    rw [waits_after]
    split at known
    · rename_i same
      obtain rfl := Option.some.inj known
      exact Or.inr (Or.inr ⟨same, rfl⟩)
    · obtain awake | waits := sound.asleep waiter pending known
      · exact Or.inl awake
      · exact Or.inr (Or.inl waits)

theorem beginWait (sound : Sound initial world) {object : O} {semaphore : SemaphoreState}
    (found : world.semaphores object = some semaphore) {thread : Thread}
    (free : world.pending thread = none) (timeoutInterval : Option Nat) :
    Sound initial (world.beginWait thread object semaphore timeoutInterval).2 := by
  unfold World.beginWait
  split
  · rename_i positive
    exact sound.counted found (fun _ account => account.takeCount positive) rfl
  · rename_i none_
    split
    · exact sound
    · exact sound.entered found none_ free _

theorem wait (sound : Sound initial world) (thread : Thread) (object : O) (signaled : Option O)
    (timeoutInterval : Option Nat) :
    Sound initial (world.wait thread object signaled timeoutInterval).2 := by
  unfold World.wait
  split
  · exact sound
  · rename_i running
    have free : world.pending thread = none := by simpa using running
    split
    · exact sound
    · rename_i semaphore found
      split
      · exact sound
      · have begun := sound.beginWait found free timeoutInterval
        cases signaled with
        | none => exact begun
        | some signaled => exact begun.signalObject signaled false true

omit [DecidableEq O] in
/-- A thread that has been awakened, or whose time is over, waits no more. -/
theorem leaves (sound : Sound initial world) {thread : Thread} {after : World O}
    (pending : after.pending = Function.update world.pending thread none)
    (wakeups : ∀ other, other ∈ after.wakeups ↔ other ∈ world.wakeups ∧ other ≠ thread)
    (semaphores : ∀ object, after.semaphores object = world.semaphores object ∧
        ¬ Waits world thread object ∨
      ∃ semaphore, world.semaphores object = some semaphore ∧
        after.semaphores object = some (semaphore.expire thread)) : Sound initial after := by
  have expired : ∀ (semaphore : SemaphoreState),
      (semaphore.expire thread).waiters.map Prod.fst =
        (semaphore.waiters.map Prod.fst).filter (· ≠ thread) := by
    intro semaphore
    rw [List.filter_map]
    rfl
  have waits_after : ∀ waiter object, Waits after waiter object →
      Waits world waiter object ∧ waiter ≠ thread := by
    rintro waiter object ⟨semaphore', known, member⟩
    obtain ⟨same, absent⟩ | ⟨semaphore, found, changed⟩ := semaphores object
    · have before : Waits world waiter object := ⟨semaphore', same ▸ known, member⟩
      exact ⟨before, fun same => absent (same ▸ before)⟩
    · obtain rfl := Option.some.inj (changed.symm.trans known)
      rw [expired] at member
      obtain ⟨member, another⟩ := List.mem_filter.mp member
      exact ⟨⟨semaphore, found, member⟩, of_decide_eq_true another⟩
  have stays : ∀ waiter object, Waits world waiter object → waiter ≠ thread →
      Waits after waiter object := by
    rintro waiter object ⟨semaphore, known, member⟩ another
    obtain ⟨same, _⟩ | ⟨semaphore', found, changed⟩ := semaphores object
    · exact ⟨semaphore, same.trans known, member⟩
    · obtain rfl := Option.some.inj (found.symm.trans known)
      refine ⟨_, changed, ?_⟩
      rw [expired]
      exact List.mem_filter.mpr ⟨member, decide_eq_true another⟩
  have pending_after : ∀ waiter, after.pending waiter =
      if waiter = thread then none else world.pending waiter := by
    intro waiter
    rw [pending]
    exact Function.update_apply ..
  refine ⟨?_, ?_, ?_, ?_, ?_, ?_⟩
  · intro object semaphore' known
    obtain ⟨same, _⟩ | ⟨semaphore, found, changed⟩ := semaphores object
    · exact sound.accounts object semaphore' (same ▸ known)
    · obtain rfl := Option.some.inj (changed.symm.trans known)
      obtain ⟨count, first, balanced⟩ := sound.accounts object semaphore found
      exact ⟨count, first, balanced.expire thread⟩
  · intro object listed
    obtain ⟨same, _⟩ | ⟨semaphore, _, changed⟩ := semaphores object
    · rw [same]
      exact sound.kept object listed
    · rw [changed]
      rfl
  · intro object semaphore' known
    obtain ⟨same, _⟩ | ⟨semaphore, found, changed⟩ := semaphores object
    · exact sound.once object semaphore' (same ▸ known)
    · obtain rfl := Option.some.inj (changed.symm.trans known)
      rw [expired]
      exact (sound.once object semaphore found).filter _
  · intro waiter object waits
    obtain ⟨before, another⟩ := waits_after waiter object waits
    rw [pending_after, if_neg another]
    exact sound.placed waiter object before
  · intro waiter member
    obtain ⟨awake, another⟩ := (wakeups waiter).mp member
    obtain ⟨known, absent⟩ := sound.awake waiter awake
    rw [pending_after, if_neg another]
    exact ⟨known, fun object waits => absent object (waits_after waiter object waits).1⟩
  · intro waiter pending known
    rw [pending_after] at known
    split at known
    · contradiction
    · rename_i another
      obtain awake | waits := sound.asleep waiter pending known
      · exact Or.inl ((wakeups waiter).mpr ⟨awake, another⟩)
      · exact Or.inr (stays waiter _ waits another)

theorem complete (sound : Sound initial world) (thread : Thread) :
    Sound initial (world.complete thread).2 := by
  unfold World.complete
  split
  · exact sound
  · rename_i pending known
    dsimp only
    split
    · rename_i awake
      refine sound.leaves rfl (fun other => ?_) fun object =>
        Or.inl ⟨rfl, (sound.awake thread awake).2 object⟩
      change other ∈ world.wakeups.filter (· ≠ thread) ↔ _
      rw [List.mem_filter, decide_eq_true_iff]
    · rename_i sleeping
      have waits := (sound.asleep thread pending known).resolve_left sleeping
      have kept : ∀ other, other ∈ world.wakeups ↔ other ∈ world.wakeups ∧ other ≠ thread :=
        fun other => ⟨fun member => ⟨member, fun same => sleeping (same ▸ member)⟩, And.left⟩
      split
      · split
        · rename_i missing
          obtain ⟨_, found, _⟩ := waits
          rw [missing] at found
          contradiction
        · rename_i semaphore found
          refine sound.leaves rfl kept fun object => ?_
          by_cases same : object = pending.semaphore
          · subst same
            exact Or.inr ⟨semaphore, found, Function.update_self ..⟩
          · refine Or.inl ⟨Function.update_of_ne same .., fun elsewhere => ?_⟩
            obtain ⟨pending', known', here⟩ := sound.placed thread object elsewhere
            obtain rfl := Option.some.inj (known.symm.trans known')
            exact same here.symm
      · exact sound

theorem step (sound : Sound initial world) (action : Action O) :
    Sound initial (step world action) := by
  cases action with
  | wait thread object signaled timeoutInterval =>
    exact sound.wait thread object signaled timeoutInterval
  | tryWait object => exact sound.tryWait object
  | signal object prepost => exact sound.signalObject object false prepost
  | signalAll object => exact sound.signalObject object true false
  | signalThread object target => exact sound.signalThread object target
  | complete thread => exact sound.complete thread
  | tick interval => exact ⟨sound.accounts, sound.kept, sound.once, sound.placed, sound.awake,
      sound.asleep⟩

omit [DecidableEq O] in
theorem created (counts : O → Option Nat) :
    Sound (fun object => (counts object).map Int.ofNat) (World.initial counts) := by
  have fresh : ∀ object semaphore, (World.initial counts).semaphores object = some semaphore →
      ∃ count, counts object = some count ∧ semaphore = { count } := by
    intro object semaphore known
    obtain ⟨count, first, rfl⟩ := Option.map_eq_some_iff.mp known
    exact ⟨count, first, rfl⟩
  have nowhere : ∀ thread object, ¬ Waits (World.initial counts) thread object := by
    rintro thread object ⟨semaphore, known, member⟩
    obtain ⟨count, _, rfl⟩ := fresh object semaphore known
    contradiction
  refine ⟨?_, ?_, ?_, fun thread object waits => absurd waits (nowhere thread object), ?_, ?_⟩
  · intro object semaphore known
    obtain ⟨count, first, rfl⟩ := fresh object semaphore known
    exact ⟨count, congrArg (Option.map Int.ofNat) first, Account.fresh count⟩
  · intro object listed
    simpa [World.initial] using listed
  · intro object semaphore known
    obtain ⟨count, _, rfl⟩ := fresh object semaphore known
    exact List.nodup_nil
  · intro thread member
    contradiction
  · intro thread pending known
    contradiction

end Sound

/-- A signal of all wakes everybody who waits and nobody else, and throws the count away. -/
theorem signal_all (semaphore : SemaphoreState) (prepost : Bool) :
    (semaphore.signal true prepost).1 = semaphore.waiters.map (·.1) ∧
      (semaphore.signal true prepost).2.waiters = [] ∧
      (semaphore.signal true prepost).2.count = 0 ∧
      (semaphore.signal true prepost).2.history.discarded =
        semaphore.history.discarded + semaphore.count :=
  ⟨rfl, rfl, rfl, rfl⟩

end

end ILEmu.Mach.Semaphores
