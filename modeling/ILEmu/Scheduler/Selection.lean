import ILEmu.Scheduler.Settled

/-! Selection of the next thread: what the highest bucket of a run queue offers,
and how a processor compares its own queue with the shared one. -/
namespace ILEmu
open Foundation Xnu.Scheduler
namespace XnuScheduler

/-- A record of the table that is queued at a place. -/
structure QueuedAt (s : XnuScheduler) (place : Option Nat) (r : ThreadRecord) : Prop where
  found : s.threads.lookup r.id = some r
  queued : r.queued = true
  processor : r.queuedProcessor = place

/-- A record that comes first in the realtime order of the queue it is on. -/
structure Leads (s : XnuScheduler) (place : Option Nat) (r : ThreadRecord) : Prop where
  here : s.QueuedAt place r
  first : ∃ k, r.realtimeQueueKey = some k ∧
    ∀ r' k', s.QueuedAt place r' → r'.realtimeQueueKey = some k' → k ≤ k'

/-- What a run queue offers: a record of its highest bucket, and in the realtime band
the first one of its realtime order. -/
structure Top (s : XnuScheduler) (place : Option Nat) (q : RunQueue) (r : ThreadRecord) :
    Prop where
  here : s.QueuedAt place r
  priority : r.queuedPriority = q.highQueue
  leads : realtimeQueuePriority ≤ q.highQueue → s.Leads place r

/-- The highest bucket of a queue is in the realtime band, and no record of it is in
the realtime order. -/
def Unindexed (s : XnuScheduler) (place : Option Nat) : Prop :=
  ∃ r, s.QueuedAt place r ∧ realtimeQueuePriority ≤ r.queuedPriority ∧
    ∀ r', s.QueuedAt place r' → r'.queuedPriority ≤ r.queuedPriority ∧
      (r'.queuedPriority = r.queuedPriority → r'.realtimeQueueKey = none)

section
variable {s : XnuScheduler} {place : Option Nat} {q : RunQueue} {r : ThreadRecord}

theorem Balanced.queuedAt (balanced : s.Balanced) {t : XnuThreadId} (found : s.threads.lookup t = some r)
    (queued : r.queued = true) (processor : r.queuedProcessor = place) : s.QueuedAt place r := by
  rw [← balanced.ids t r found] at found
  exact ⟨found, queued, processor⟩

theorem QueuedAt.scheduled (here : s.QueuedAt place r) (balanced : s.Balanced) :
    r.info.scheduledPriority = r.queuedPriority :=
  ((balanced.placed r.id r here.found).priority here.queued).symm

theorem QueuedAt.nonneg (here : s.QueuedAt place r) (balanced : s.Balanced) :
    0 ≤ r.queuedPriority := by
  rw [← here.scheduled balanced]
  exact (balanced.ranged r.id r here.found).scheduled.1

theorem QueuedAt.member (here : s.QueuedAt place r) (balanced : s.Balanced)
    (at_place : s.runQueueAt place = some q) : r.id ∈ q.queues r.queuedPriority.toNat :=
  (balanced.queues.listed place q at_place _ _).mpr ⟨r, here.found, here.queued, here.processor,
    (Int.toNat_of_nonneg (here.nonneg balanced)).symm⟩

/-- No record is queued above the highest bucket. -/
theorem QueuedAt.below (here : s.QueuedAt place r) (balanced : s.Balanced)
    (at_place : s.runQueueAt place = some q) : r.queuedPriority ≤ q.highQueue := by
  have member := here.member balanced at_place
  refine (balanced.queues.summarized place q at_place).high.2 (.inr ⟨r.queuedPriority.toNat, ?_, ?_⟩)
  · exact (Int.toNat_of_nonneg (here.nonneg balanced)).symm
  · intro empty
    rw [empty] at member
    contradiction

theorem QueuedAt.counted (here : s.QueuedAt place r) (balanced : s.Balanced)
    (at_place : s.runQueueAt place = some q) : q.count ≠ 0 := by
  have member := here.member balanced at_place
  have summarized := balanced.queues.summarized place q at_place
  have inside : r.queuedPriority.toNat < runQueueCount := by
    by_contra outside
    rw [summarized.bounded _ (by omega)] at member
    contradiction
  rw [summarized.count]
  intro none
  have empty := (Finset.sum_eq_zero_iff.mp none) _ (Finset.mem_range.mpr inside)
  rw [List.length_eq_zero_iff.mp empty] at member
  contradiction

/-- A run queue that counts a thread has one in its highest bucket. -/
theorem exists_highest (balanced : s.Balanced) (at_place : s.runQueueAt place = some q)
    (some : q.count ≠ 0) :
    0 ≤ q.highQueue ∧ ∃ t rest, q.queues q.highQueue.toNat = t :: rest := by
  have summarized := balanced.queues.summarized place q at_place
  obtain ⟨i, member, filled⟩ : ∃ i ∈ Finset.range runQueueCount, (q.queues i).length ≠ 0 := by
    by_contra none
    refine some (summarized.count.trans (Finset.sum_eq_zero fun i member => ?_))
    by_contra filled
    exact none ⟨i, member, filled⟩
  have above : (i : Int) ≤ q.highQueue := by
    refine summarized.high.2 (.inr ⟨i, rfl, ?_⟩)
    intro empty
    rw [empty] at filled
    contradiction
  rcases summarized.high.1 with none | ⟨j, high, filled⟩
  · have none : q.highQueue = -1 := none
    omega
  · refine ⟨by omega, ?_⟩
    rw [high, Int.toNat_natCast]
    exact List.exists_cons_of_ne_nil filled

theorem listed_queuedAt (balanced : s.Balanced) (at_place : s.runQueueAt place = some q)
    {t : XnuThreadId} {i : Nat} (member : t ∈ q.queues i) :
    ∃ r, s.threads.lookup t = some r ∧ s.QueuedAt place r ∧ r.queuedPriority = i := by
  obtain ⟨r, found, queued, processor, priority⟩ :=
    (balanced.queues.listed place q at_place i t).mp member
  exact ⟨r, found, balanced.queuedAt found queued processor, priority⟩

/-- The record that comes first in a realtime order is unique. -/
theorem Leads.unique (balanced : s.Balanced) {r' : ThreadRecord} (leads : s.Leads place r)
    (leads' : s.Leads place r') : r = r' := by
  obtain ⟨here, k, key, first⟩ := leads
  obtain ⟨here', k', key', first'⟩ := leads'
  have same : k = k' := le_antisymm (first r' k' here' key') (first' r k here key)
  have named := ((balanced.placed r.id r here.found).key k key).1
  have named' := ((balanced.placed r'.id r' here'.found).key k' key').1
  have ids : r.id = r'.id := by
    rw [named, named'] at same
    exact congrArg RealtimeQueueKey.thread same
  have found := here.found
  rw [ids] at found
  exact Option.some.inj (found.symm.trans here'.found)

/-- Only the lowest priority of the realtime band has a realtime order. -/
theorem Leads.lowest (balanced : s.Balanced) (leads : s.Leads place r) :
    r.info.scheduledPriority = realtimeQueuePriority := by
  obtain ⟨here, k, key, -⟩ := leads
  rw [here.scheduled balanced]
  exact ((balanced.placed r.id r here.found).key k key).2

/-- The highest bucket offers a record, unless it is in the realtime band and nothing
of it is in the realtime order. -/
theorem peekHighest_cases (balanced : s.Balanced) (at_place : s.runQueueAt place = some q)
    (counted : q.count ≠ 0) :
    (∃ r, s.peekHighest q = .ok r ∧ Top s place q r) ∨
      s.peekHighest q = .error (.logicError .realtimeIndexInconsistent) ∧ s.Unindexed place := by
  obtain ⟨nonneg, t, rest, bucket⟩ := exists_highest balanced at_place counted
  have member : t ∈ q.queues q.highQueue.toNat := by
    rw [bucket]
    exact List.mem_cons_self
  obtain ⟨r, found, here, priority⟩ := listed_queuedAt balanced at_place member
  rw [Int.toNat_of_nonneg nonneg] at priority
  have listed : ∀ r' k', s.QueuedAt place r' → r'.realtimeQueueKey = some k' →
      k' ∈ q.realtimeOrder := by
    intro r' k' here' key'
    have named := ((balanced.placed r'.id r' here'.found).key k' key').1
    apply (balanced.queues.ordered place q at_place k').mpr
    refine ⟨r', ?_, here'.queued, here'.processor, key'⟩
    rw [named]
    exact here'.found
  unfold peekHighest
  rw [if_neg (by simp only [counted, minimumPriority, false_or]; omega)]
  split
  · rename_i band
    have unindexed : (∀ r' k', s.QueuedAt place r' → r'.realtimeQueueKey = some k' →
        r'.queuedPriority ≠ q.highQueue) → s.Unindexed place := by
      intro absent
      refine ⟨r, here, priority ▸ band, fun r' here' => ⟨?_, fun same => ?_⟩⟩
      · rw [priority]
        exact here'.below balanced at_place
      · cases key : r'.realtimeQueueKey with
        | none => rfl
        | some k' => exact absurd (same.trans priority) (absent r' k' here' key)
    cases earliest : first q.realtimeOrder with
    | none =>
      apply Or.inr
      refine ⟨rfl, unindexed fun r' k' here' key' => ?_⟩
      have member := listed r' k' here' key'
      rw [first_none.mp earliest] at member
      exact absurd member (Finset.notMem_empty k')
    | some k =>
      obtain ⟨inside, least⟩ := first_some earliest
      obtain ⟨r₁, found₁, queued₁, processor₁, key₁⟩ :=
        (balanced.queues.ordered place q at_place k).mp inside
      have here₁ := balanced.queuedAt found₁ queued₁ processor₁
      have lowest := ((balanced.placed _ r₁ here₁.found).key k key₁).2
      simp only [found₁]
      split
      · rename_i top
        apply Or.inl
        refine ⟨r₁, rfl, here₁, top.2, fun _ => ⟨here₁, k, key₁, fun r' k' here' key' => ?_⟩⟩
        exact least k' (listed r' k' here' key')
      · rename_i other
        apply Or.inr
        refine ⟨rfl, unindexed fun r' k' here' key' same => ?_⟩
        have lowest' := ((balanced.placed _ r' here'.found).key k' key').2
        exact other ⟨queued₁, lowest.trans (lowest'.symm.trans same)⟩
  · rename_i low
    simp only [bucket, found]
    exact .inl ⟨r, rfl, here, priority, fun band => absurd band low⟩

/-- A queue that offers a record of the realtime band has an indexed one. -/
theorem Top.indexed (balanced : s.Balanced) (at_place : s.runQueueAt place = some q)
    (top : Top s place q r) : ¬s.Unindexed place := by
  rintro ⟨r₀, here₀, band, highest⟩
  have upper := here₀.below balanced at_place
  obtain ⟨lower, unkeyed⟩ := highest r top.here
  have same : r.queuedPriority = r₀.queuedPriority :=
    Int.le_antisymm lower (top.priority ▸ upper)
  obtain ⟨-, k, key, -⟩ := top.leads (by rw [← top.priority, same]; exact band)
  rw [unkeyed same] at key
  contradiction

/-- The candidate that stands for a record. -/
def offered (r : ThreadRecord) (isLocal : Bool) : QueueCandidate where
  thread := r.id
  priority := r.info.scheduledPriority
  realtimeDeadline := r.info.realtimeDeadline
  enqueueSequence := r.enqueueSequence
  realtime := r.info.realtime
  frontContinuation := r.frontContinuation
  isLocal := isLocal

theorem candidateForQueue_cases (balanced : s.Balanced) (at_place : s.runQueueAt place = some q) :
    (s.candidateForQueue q place.isSome = .ok none ∧ q.count = 0) ∨
      (∃ r, s.candidateForQueue q place.isSome = .ok (some (offered r place.isSome)) ∧
        s.peekHighest q = .ok r ∧ Top s place q r) ∨
      s.candidateForQueue q place.isSome = .error (.logicError .realtimeIndexInconsistent) ∧
        s.Unindexed place := by
  unfold candidateForQueue
  by_cases none : q.count = 0
  · exact .inl ⟨if_pos none, none⟩
  · rw [if_neg none]
    rcases peekHighest_cases balanced at_place none with ⟨r, peeked, top⟩ | ⟨thrown, unindexed⟩
    · refine .inr (.inl ⟨r, ?_, peeked, top⟩)
      rw [peeked]
      have agreed : r.queued = true ∧ r.queuedPriority = q.highQueue ∧
          r.queuedProcessor.isSome = place.isSome :=
        ⟨top.here.queued, top.priority, congrArg Option.isSome top.here.processor⟩
      exact if_pos agreed
    · refine .inr (.inr ⟨?_, unindexed⟩)
      rw [thrown]
      rfl

/-- A queued record that a processor may run. -/
structure Eligible (s : XnuScheduler) (processor : Nat) (r : ThreadRecord) : Prop where
  found : s.threads.lookup r.id = some r
  queued : r.queued = true
  bound : r.info.boundProcessor = none ∨ r.info.boundProcessor = some processor

theorem eligible_iff (balanced : s.Balanced) {processor : Nat} :
    s.Eligible processor r ↔ s.QueuedAt none r ∨ s.QueuedAt (some processor) r := by
  constructor
  · rintro ⟨found, queued, bound⟩
    have place := (balanced.placed r.id r found).processor queued
    rcases bound with free | own
    · exact .inl ⟨found, queued, place.trans free⟩
    · exact .inr ⟨found, queued, place.trans own⟩
  · rintro (⟨found, queued, place⟩ | ⟨found, queued, place⟩)
    · have bound := (balanced.placed r.id r found).processor queued
      exact ⟨found, queued, .inl (bound.symm.trans place)⟩
    · have bound := (balanced.placed r.id r found).processor queued
      exact ⟨found, queued, .inr (bound.symm.trans place)⟩

/-- The record that a processor runs next. -/
structure Best (s : XnuScheduler) (processor : Nat) (r : ThreadRecord) : Prop where
  eligible : s.Eligible processor r
  highest : ∀ r', s.Eligible processor r' → r'.info.scheduledPriority ≤ r.info.scheduledPriority
  leads : realtimeQueuePriority ≤ r.info.scheduledPriority → s.Leads r.queuedProcessor r
  urgent : realtimeQueuePriority ≤ r.info.scheduledPriority → ∀ r', s.Eligible processor r' →
    s.Leads r'.queuedProcessor r' → r'.info.realtime = true →
      r.info.realtime = true ∧ r.info.realtimeDeadline ≤ r'.info.realtimeDeadline

/-- What the two run queues of a processor offer, one of them at least. -/
inductive Offers (s : XnuScheduler) (processor : Nat) (own shared : RunQueue) :
    Option RunQueue → Prop where
  | none (nobody : ∀ r, ¬s.Eligible processor r) : Offers s processor own shared none
  | own (r : ThreadRecord) (peeked : s.peekHighest own = .ok r) (best : s.Best processor r) :
    Offers s processor own shared (some own)
  | shared (r : ThreadRecord) (peeked : s.peekHighest shared = .ok r) (best : s.Best processor r) :
    Offers s processor own shared (some shared)

section two
variable {processor : Nat} {own shared : RunQueue} {mine theirs : ThreadRecord}

theorem not_queuedAt (balanced : s.Balanced) (at_place : s.runQueueAt place = some q)
    (empty : q.count = 0) (r : ThreadRecord) : ¬s.QueuedAt place r :=
  fun here => here.counted balanced at_place empty

/-- The offer of a run queue is the best record when no record elsewhere is better. -/
theorem Top.best (balanced : s.Balanced) {place other : Option Nat}
    (places : ∀ r', s.Eligible processor r' ↔ s.QueuedAt place r' ∨ s.QueuedAt other r')
    (at_place : s.runQueueAt place = some q) (top : Top s place q r)
    (higher : ∀ r', s.QueuedAt other r' → r'.info.scheduledPriority ≤ r.info.scheduledPriority)
    (urgent : realtimeQueuePriority ≤ r.info.scheduledPriority → ∀ r', s.Leads other r' →
      r'.info.realtime = true →
        r.info.realtime = true ∧ r.info.realtimeDeadline ≤ r'.info.realtimeDeadline) :
    s.Best processor r := by
  have high : r.info.scheduledPriority = q.highQueue :=
    (top.here.scheduled balanced).trans top.priority
  have place_eq := top.here.processor
  constructor
  · exact (places r).mpr (.inl top.here)
  · intro r' eligible
    rcases (places r').mp eligible with here | there
    · rw [high, here.scheduled balanced]
      exact here.below balanced at_place
    · exact higher r' there
  · intro band
    rw [place_eq]
    exact top.leads (high ▸ band)
  · intro band r' eligible leads realtime
    rcases (places r').mp eligible with here | there
    · rw [here.processor] at leads
      obtain rfl := (top.leads (high ▸ band)).unique balanced leads
      exact ⟨realtime, Nat.le_refl _⟩
    · rw [there.processor] at leads
      exact urgent band r' leads realtime

/-- Of two offers, the one that is no less urgent is the best record. -/
theorem Top.best_of (balanced : s.Balanced) {place other : Option Nat} {q' : RunQueue}
    {r' : ThreadRecord}
    (places : ∀ r', s.Eligible processor r' ↔ s.QueuedAt place r' ∨ s.QueuedAt other r')
    (at_place : s.runQueueAt place = some q) (at_other : s.runQueueAt other = some q')
    (top : Top s place q r) (top' : Top s other q' r')
    (order : r'.info.scheduledPriority ≤ r.info.scheduledPriority)
    (deadlines : r.info.scheduledPriority = r'.info.scheduledPriority → r'.info.realtime = true →
      r.info.realtime = true ∧ r.info.realtimeDeadline ≤ r'.info.realtimeDeadline) :
    s.Best processor r := by
  have high : r'.info.scheduledPriority = q'.highQueue :=
    (top'.here.scheduled balanced).trans top'.priority
  have bounded : ∀ r₁, s.QueuedAt other r₁ →
      r₁.info.scheduledPriority ≤ r'.info.scheduledPriority := by
    intro r₁ here
    rw [high, here.scheduled balanced]
    exact here.below balanced at_other
  apply top.best balanced places at_place
  · intro r₁ here
    exact Int.le_trans (bounded r₁ here) order
  · intro band r₁ leads realtime
    have lowest := leads.lowest balanced
    have band' : realtimeQueuePriority ≤ r'.info.scheduledPriority :=
      lowest ▸ bounded r₁ leads.here
    obtain rfl := (top'.leads (high ▸ band')).unique balanced leads
    have mine : r.info.scheduledPriority = q.highQueue :=
      (top.here.scheduled balanced).trans top.priority
    exact deadlines (((top.leads (mine ▸ band)).lowest balanced).trans lowest.symm) realtime

/-- The better of two offers is no less urgent than the other. -/
theorem candidateIsBetter_priority {left right : QueueCandidate}
    (better : candidateIsBetter left right = true) : right.priority ≤ left.priority := by
  unfold candidateIsBetter at better
  by_cases same : left.priority = right.priority
  · exact Int.le_of_eq same.symm
  · rw [if_pos same] at better
    exact Int.le_of_lt (by simpa using better)

theorem not_candidateIsBetter_priority {left right : QueueCandidate}
    (worse : candidateIsBetter left right = false) : left.priority ≤ right.priority := by
  unfold candidateIsBetter at worse
  by_cases same : left.priority = right.priority
  · exact Int.le_of_eq same
  · rw [if_pos same] at worse
    exact Int.not_lt.mp (by simpa using worse)

theorem candidateIsBetter_deadline {left right : QueueCandidate}
    (same : left.priority = right.priority) (realtime : right.realtime = true)
    (better : candidateIsBetter left right = true) :
    left.realtime = true ∧ left.realtimeDeadline ≤ right.realtimeDeadline := by
  unfold candidateIsBetter at better
  rw [if_neg (by simp [same])] at better
  cases mine : left.realtime with
  | false =>
    rw [if_pos (by simp [mine, realtime]), mine] at better
    contradiction
  | true =>
    rw [if_neg (by simp [mine, realtime])] at better
    refine ⟨rfl, ?_⟩
    by_cases equal : left.realtimeDeadline = right.realtimeDeadline
    · exact Nat.le_of_eq equal
    · rw [if_pos ⟨mine, equal⟩] at better
      exact Nat.le_of_lt (by simpa using better)

theorem not_candidateIsBetter_deadline {left right : QueueCandidate}
    (same : left.priority = right.priority) (realtime : left.realtime = true)
    (worse : candidateIsBetter left right = false) :
    right.realtime = true ∧ right.realtimeDeadline ≤ left.realtimeDeadline := by
  unfold candidateIsBetter at worse
  rw [if_neg (by simp [same])] at worse
  cases theirs : right.realtime with
  | false =>
    rw [if_pos (by simp [theirs, realtime]), realtime] at worse
    contradiction
  | true =>
    rw [if_neg (by simp [theirs, realtime])] at worse
    refine ⟨rfl, ?_⟩
    by_cases equal : left.realtimeDeadline = right.realtimeDeadline
    · exact Nat.le_of_eq equal.symm
    · rw [if_pos ⟨realtime, equal⟩] at worse
      exact Nat.not_lt.mp (by simpa using worse)

end two

/-- What keeps a processor from choosing between its two queues. -/
def Obstructed (s : XnuScheduler) (processor : Nat) : Prop :=
  ∃ place, (place = none ∨ place = some processor) ∧ s.Unindexed place

theorem not_unindexed (balanced : s.Balanced) (at_place : s.runQueueAt place = some q)
    (empty : q.count = 0) : ¬s.Unindexed place := by
  rintro ⟨r, here, -⟩
  exact not_queuedAt balanced at_place empty r here

/-- A processor's choice between its two queues falls on the best record it may run. -/
theorem selectedRunQueue_cases (balanced : s.Balanced) {processor : Nat} {own : RunQueue}
    (found : s.processorRunQueues[processor]? = some own) :
    (∃ chosen, s.selectedRunQueue processor = .ok chosen ∧ ¬s.Obstructed processor ∧
      Offers s processor own s.processorSetRunQueue chosen) ∨
      s.selectedRunQueue processor = .error (.logicError .realtimeIndexInconsistent) ∧
        s.Obstructed processor := by
  have at_own : s.runQueueAt (some processor) = some own := found
  have at_shared : s.runQueueAt none = some s.processorSetRunQueue := rfl
  have places : ∀ r, s.Eligible processor r ↔ s.QueuedAt none r ∨ s.QueuedAt (some processor) r :=
    fun r => eligible_iff balanced
  have places' : ∀ r, s.Eligible processor r ↔ s.QueuedAt (some processor) r ∨ s.QueuedAt none r :=
    fun r => (places r).trans or_comm
  have open_of : ¬s.Unindexed none → ¬s.Unindexed (some processor) → ¬s.Obstructed processor := by
    rintro shared own ⟨place, rfl | rfl, unindexed⟩
    · exact shared unindexed
    · exact own unindexed
  unfold selectedRunQueue
  simp only [found]
  rcases candidateForQueue_cases balanced at_own with
    ⟨mine, noneMine⟩ | ⟨r, mine, peeked, top⟩ | ⟨mine, unindexed⟩
  · rw [show s.candidateForQueue own true = .ok none from mine]
    have clear := not_unindexed balanced at_own noneMine
    rcases candidateForQueue_cases balanced at_shared with
      ⟨theirs, noneTheirs⟩ | ⟨r', theirs, peeked', top'⟩ | ⟨theirs, unindexed⟩
    · rw [show s.candidateForQueue s.processorSetRunQueue false = .ok none from theirs]
      refine .inl ⟨none, rfl, open_of (not_unindexed balanced at_shared noneTheirs) clear,
        .none fun r eligible => ?_⟩
      rcases (places r).mp eligible with here | here
      · exact not_queuedAt balanced at_shared noneTheirs r here
      · exact not_queuedAt balanced at_own noneMine r here
    · rw [show s.candidateForQueue s.processorSetRunQueue false = _ from theirs]
      refine .inl ⟨_, rfl, open_of (top'.indexed balanced at_shared) clear,
        .shared r' peeked' (top'.best balanced places at_shared ?_ ?_)⟩
      · exact fun r here => absurd here (not_queuedAt balanced at_own noneMine r)
      · exact fun _ r leads => absurd leads.here (not_queuedAt balanced at_own noneMine r)
    · rw [show s.candidateForQueue s.processorSetRunQueue false = _ from theirs]
      exact .inr ⟨rfl, none, .inl rfl, unindexed⟩
  · rw [show s.candidateForQueue own true = _ from mine]
    have clear := top.indexed balanced at_own
    rcases candidateForQueue_cases balanced at_shared with
      ⟨theirs, noneTheirs⟩ | ⟨r', theirs, peeked', top'⟩ | ⟨theirs, unindexed⟩
    · rw [show s.candidateForQueue s.processorSetRunQueue false = _ from theirs]
      refine .inl ⟨_, rfl, open_of (not_unindexed balanced at_shared noneTheirs) clear,
        .own r peeked (top.best balanced places' at_own ?_ ?_)⟩
      · exact fun r here => absurd here (not_queuedAt balanced at_shared noneTheirs r)
      · exact fun _ r leads => absurd leads.here (not_queuedAt balanced at_shared noneTheirs r)
    · rw [show s.candidateForQueue s.processorSetRunQueue false = _ from theirs]
      have clear' := open_of (top'.indexed balanced at_shared) clear
      cases better : candidateIsBetter (offered r true) (offered r' false) with
      | true =>
        refine .inl ⟨some own, congrArg Except.ok (if_pos better), clear', .own r peeked ?_⟩
        exact top.best_of balanced places' at_own at_shared top' (candidateIsBetter_priority better)
          fun same realtime => candidateIsBetter_deadline same realtime better
      | false =>
        have worse : ¬candidateIsBetter (offered r true) (offered r' false) = true := by
          rw [better]
          exact Bool.false_ne_true
        refine .inl ⟨some s.processorSetRunQueue, congrArg Except.ok (if_neg worse), clear',
          .shared r' peeked' ?_⟩
        exact top'.best_of balanced places at_shared at_own top
          (not_candidateIsBetter_priority better)
          fun same realtime => not_candidateIsBetter_deadline same.symm realtime better
    · rw [show s.candidateForQueue s.processorSetRunQueue false = _ from theirs]
      exact .inr ⟨rfl, none, .inl rfl, unindexed⟩
  · rw [show s.candidateForQueue own true = _ from mine]
    exact .inr ⟨rfl, some processor, .inr rfl, unindexed⟩

/-- What can come of the selection of a record for a processor. -/
inductive Selected (s : XnuScheduler) (processor : Nat) (preferred : Option XnuThreadId) :
    Checked (Option ThreadRecord) → Prop where
  | nobody (unguided : preferred = none →
        ¬s.Obstructed processor ∧ ∀ r, ¬s.Eligible processor r)
      (guided : ∀ t r, preferred = some t → s.threads.lookup t = some r →
        ¬s.Eligible processor r) : Selected s processor preferred (.ok none)
  | record (r : ThreadRecord) (eligible : s.Eligible processor r)
      (unguided : preferred = none → ¬s.Obstructed processor ∧ s.Best processor r)
      (guided : ∀ t, preferred = some t → r.id = t) :
      Selected s processor preferred (.ok (some r))
  | thrown (unguided : preferred = none) (obstructed : s.Obstructed processor) :
      Selected s processor preferred (.error (.logicError .realtimeIndexInconsistent))

theorem selectRecord_selected (settled : s.Settled) {processor : Nat}
    (inside : processor < s.processorRunQueues.length) (preferred : Option XnuThreadId) :
    Selected s processor preferred (s.selectRecord processor preferred) := by
  unfold selectRecord
  cases preferred with
  | some t =>
    dsimp only
    cases found : s.threads.lookup t with
    | none =>
      refine .nobody (fun none => absurd none (Option.some_ne_none t)) fun u r same known => ?_
      obtain rfl := Option.some.inj same
      rw [found] at known
      contradiction
    | some r =>
      have id := settled.balanced.ids t r found
      dsimp only
      split
      · rename_i ready
        refine .record r ⟨id.symm ▸ found, ready.1, ready.2⟩
          (fun none => absurd none (Option.some_ne_none t)) fun u same => ?_
        exact id.trans (Option.some.inj same)
      · rename_i unready
        refine .nobody (fun none => absurd none (Option.some_ne_none t)) fun u r' same known => ?_
        obtain rfl := Option.some.inj same
        obtain rfl := Option.some.inj (found.symm.trans known)
        exact fun eligible => unready ⟨eligible.queued, eligible.bound⟩
  | none =>
    have found := List.getElem?_eq_getElem inside
    generalize s.processorRunQueues[processor] = own at found
    dsimp only
    rcases selectedRunQueue_cases settled.balanced found with
      ⟨chosen, selected, clear, offers⟩ | ⟨selected, obstructed⟩
    · rw [selected]
      cases offers with
      | none nobody =>
        exact .nobody (fun _ => ⟨clear, nobody⟩) fun t _ same =>
          absurd same.symm (Option.some_ne_none t)
      | own r peeked best =>
        dsimp only [bind, Except.bind]
        rw [peeked]
        exact .record r best.eligible (fun _ => ⟨clear, best⟩) fun t same =>
          absurd same.symm (Option.some_ne_none t)
      | shared r peeked best =>
        dsimp only [bind, Except.bind]
        rw [peeked]
        exact .record r best.eligible (fun _ => ⟨clear, best⟩) fun t same =>
          absurd same.symm (Option.some_ne_none t)
    · rw [selected]
      exact .thrown rfl obstructed

end
end XnuScheduler
end ILEmu
