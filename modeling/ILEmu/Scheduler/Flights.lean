import ILEmu.Scheduler.Steps

/-! Slices in flight: which operations let a thread be dispatched a second time
before the slice it has is completed. -/
namespace ILEmu
open Foundation Xnu.Scheduler

namespace Life

/-- A release of this reason is the last one of a thread that is to run again. -/
def Released (reason : XnuThreadSuspension) (l : Life) : Prop :=
  l.suspensionCounts reason ≠ 0 ∧ l.suspendCount = 1 ∧ l.resumeRunnable = true

section
variable {l : Life}

theorem makeRunnable_queued (idle : l.queued = false) :
    l.makeRunnable.queued = true ↔ l.suspendCount = 0 ∧ l.state ≠ .running := by
  unfold makeRunnable
  by_cases held : l.suspendCount = 0
  · rw [if_neg (Classical.not_not.mpr held)]
    by_cases running : l.state = .running
    · rw [if_pos (.inl running)]
      simp [idle, running]
    · rw [if_neg (by simp [idle, running])]
      simp [held, running]
  · rw [if_pos held]
    simp [idle, held]

theorem wake_queued (sound : l.Sound) (idle : l.queued = false) :
    l.wake.queued = true ↔
      l.hostAwait = false ∧ l.executionPending = false ∧ l.suspendCount = 0 := by
  unfold wake
  cases ticket : l.hostAwait with
  | true => simp [idle]
  | false =>
    rw [if_neg Bool.false_ne_true]
    cases pending : l.executionPending with
    | true => simp [idle]
    | false =>
      rw [if_neg Bool.false_ne_true]
      by_cases held : l.suspendCount = 0
      · have still : l.state ≠ .running := by
          intro running
          rw [sound.running running] at pending
          contradiction
        rw [if_neg (by simp [idle, held]), makeRunnable_queued idle]
        simp [held, still]
      · rw [if_pos (.inr held)]
        simp [idle, held]

theorem suspend_idle (reason : XnuThreadSuspension) (idle : l.queued = false) :
    (l.suspend reason).queued = false := by
  unfold suspend
  split
  · exact idle
  · dsimp only
    split
    · exact idle
    · rfl

theorem resume_queued (reason : XnuThreadSuspension) (sound : l.Sound) (idle : l.queued = false) :
    (l.resume reason).queued = true ↔ l.Released reason := by
  unfold Life.resume Released
  by_cases held : l.suspensionCounts reason = 0
  · simp [held, idle]
  · have positive : 0 < l.suspendCount := by
      rw [sound.holds]
      cases reason <;> omega
    rw [if_neg held]
    dsimp only
    by_cases last : l.suspendCount = 1
    · rw [if_neg (by simp [last])]
      cases resume : l.resumeRunnable with
      | true => simp [held, last]
      | false =>
        rw [if_neg Bool.false_ne_true]
        split
        · simp [idle]
        · simp [idle]
    · rw [if_pos (by omega)]
      simp [idle, last]

end
end Life

/-- The operation puts a thread back on a queue: it is registered or execs, it is made
runnable or woken while nothing keeps it from it, or its last hold is released. -/
def Operation.Requeues (s : XnuScheduler) (t : XnuThreadId) : Operation → Prop
  | .registerThread thread _ runnable => t = thread ∧ s.lifeOf t = none ∧ runnable = true
  | .replaceProcessThreads survivor _ _ _ => t = survivor ∧ s.lifeOf t ≠ none
  | .makeRunnable thread =>
    t = thread ∧ ∃ l, s.lifeOf t = some l ∧ l.suspendCount = 0 ∧ l.state ≠ .running
  | .wakeThread thread =>
    t = thread ∧ ∃ l, s.lifeOf t = some l ∧
      l.hostAwait = false ∧ l.executionPending = false ∧ l.suspendCount = 0
  | .resumeThread thread reason => t = thread ∧ ∃ l, s.lifeOf t = some l ∧ l.Released reason
  | .resumeProcess process _ =>
    t.process = process ∧ ∃ l, s.lifeOf t = some l ∧ l.Released .process
  | _ => False

namespace XnuScheduler

/-- The thread is on a queue. -/
def Queued (s : XnuScheduler) (t : XnuThreadId) : Prop :=
  ∃ l, s.lifeOf t = some l ∧ l.queued = true

section
variable {s : XnuScheduler} {t : XnuThreadId} {operation : Operation}

theorem exists_map_solely {known : Option Life} {f : Life → Life} {P : Life → Prop}
    {u : XnuThreadId} (idle : ∀ l, known = some l → l.queued = false)
    (queued : ∀ l, known = some l → ((f l).queued = true ↔ P l)) :
    (∃ l, known.map (solely u f t) = some l ∧ l.queued = true) ↔
      t = u ∧ ∃ l, known = some l ∧ P l := by
  cases known with
  | none => simp
  | some l =>
    by_cases same : t = u
    · subst u
      simpa using queued l rfl
    · simp [solely_of_ne same, same, idle l rfl]

/-- What puts an idle thread on a queue, but for the completion of its slice. -/
theorem queued_iff_requeues (invariant : s.Invariant) (idle : ¬s.Queued t)
    (other : ∀ consumed completion accounting,
      operation ≠ .completeSlice t consumed completion accounting) :
    (s.after operation).Queued t ↔ operation.Requeues s t := by
  have performs := after_performs invariant operation
  have sound : ∀ l, s.lifeOf t = some l → l.Sound := by
    intro l known
    obtain ⟨r, found, rfl⟩ := Option.map_eq_some_iff.mp known
    exact invariant.sound t r found
  have unqueued : ∀ l, s.lifeOf t = some l → l.queued = false := by
    intro l known
    by_contra queued
    exact idle ⟨l, known, by simpa using queued⟩
  have never : (∃ l, s.lifeOf t = some l ∧ l.queued = true) ↔ False :=
    iff_of_false idle id
  unfold Queued Operation.Requeues
  rw [performs.lives]
  cases operation with
  | registerThread thread base runnable =>
    simp only [Operation.step]
    by_cases same : t = thread
    · rw [if_pos same]
      cases known : s.lifeOf t with
      | none => simp [same, Life.fresh]
      | some l => simp [unqueued l known]
    · rw [if_neg same, never]
      simp [same]
  | removeThread thread pending =>
    simp only [Operation.step]
    split
    · simp
    · exact never
  | replaceProcessThreads survivor base pending order =>
    simp only [Operation.step]
    by_cases same : t = survivor
    · subst t
      cases known : s.lifeOf survivor with
      | none => simp
      | some l => simp [replaced, Life.fresh]
    · split
      · rw [never]
        simp [same]
      · unfold replaced
        rw [if_neg same]
        split
        · simp [same]
        · rw [never]
          simp [same]
  | removeProcess process order =>
    simp only [Operation.step]
    split
    · simp
    · exact never
  | makeRunnable thread =>
    exact exists_map_solely unqueued fun l known => Life.makeRunnable_queued (unqueued l known)
  | suspendProcess process order =>
    simp only [Operation.step, iff_false]
    rintro ⟨l', here, queued⟩
    obtain ⟨l, known, rfl⟩ := Option.map_eq_some_iff.mp here
    split at queued
    · rw [Life.suspend_idle .process (unqueued l known)] at queued
      contradiction
    · exact idle ⟨l, known, queued⟩
  | resumeProcess process order =>
    simp only [Operation.step]
    split
    · rename_i same
      cases known : s.lifeOf t with
      | none => simp
      | some l => simp [same, Life.resume_queued .process (sound l known) (unqueued l known)]
    · rename_i other
      rw [Option.map_id_fun, id, never]
      simp [other]
  | wakeThread thread =>
    exact exists_map_solely unqueued fun l known =>
      Life.wake_queued (sound l known) (unqueued l known)
  | block thread =>
    simp only [Operation.step, iff_false]
    rintro ⟨l', here, queued⟩
    obtain ⟨-, l, known, holds⟩ := (exists_map_solely (P := fun _ => False) unqueued
      fun l known => by simp [Life.block]).mp ⟨l', here, queued⟩
    exact holds
  | suspendThread thread reason =>
    simp only [Operation.step, iff_false]
    rintro ⟨l', here, queued⟩
    obtain ⟨-, l, known, holds⟩ := (exists_map_solely (P := fun _ => False) unqueued
      fun l known => by simp [Life.suspend_idle reason (unqueued l known)]).mp ⟨l', here, queued⟩
    exact holds
  | resumeThread thread reason =>
    exact exists_map_solely unqueued fun l known =>
      Life.resume_queued reason (sound l known) (unqueued l known)
  | chooseNext processor preferred =>
    simp only [Operation.step, iff_false]
    split
    · exact idle
    · rintro ⟨l', here, queued⟩
      obtain ⟨-, l, known, holds⟩ := (exists_map_solely (P := fun _ => False) unqueued
        fun l known => by simp [Life.dispatch]).mp ⟨l', here, queued⟩
      exact holds
  | completeSlice thread consumed completion accounting =>
    simp only [Operation.step, iff_false]
    split
    · rename_i same
      subst t
      exact absurd rfl (other consumed completion accounting)
    · exact idle
  | _ => exact never

/-- A queued thread can be chosen: a processor that may run it may prefer it. -/
theorem exists_chosen (invariant : s.Invariant) (queued : s.Queued t) :
    ∃ processor preferred, s.chosen processor preferred = some t := by
  obtain ⟨l, known, queued⟩ := queued
  obtain ⟨r, found, rfl⟩ := Option.map_eq_some_iff.mp known
  have balanced := invariant.settled.balanced
  have id := balanced.ids t r found
  obtain ⟨processor, inside, bound⟩ : ∃ processor, processor < s.processorRunQueues.length ∧
      (r.info.boundProcessor = none ∨ r.info.boundProcessor = some processor) := by
    cases bound : r.info.boundProcessor with
    | none => exact ⟨0, balanced.configured.processors, .inl rfl⟩
    | some p => exact ⟨p, (balanced.ranged t r found).bound p bound, .inr rfl⟩
  have eligible : s.Eligible processor r := ⟨id.symm ▸ found, queued, bound⟩
  refine ⟨processor, some t, ?_⟩
  have choice := chooseNext_choice invariant processor (some t)
  unfold XnuScheduler.chosen
  generalize s.chooseNext processor (some t) = answer at choice ⊢
  cases choice with
  | outside outside => exact absurd inside (Nat.not_lt.mpr outside)
  | nobody _ _ guided => exact absurd eligible (guided t r rfl found)
  | slice r' _ _ _ guided thread _ _ => exact congrArg some (thread.trans (guided t rfl))
  | thrown _ unguided _ => exact absurd unguided (Option.some_ne_none t)

end
end XnuScheduler

/-- A scheduler and the threads whose dispatch no `completeSlice` has ended yet. -/
structure Flight where
  scheduler : XnuScheduler
  inFlight : Finset XnuThreadId

namespace Flight

def after (σ : Flight) (operation : Operation) : Flight where
  scheduler := σ.scheduler.after operation
  inFlight :=
    match operation with
    | .chooseNext processor preferred =>
      match σ.scheduler.chosen processor preferred with
      | some thread => insert thread σ.inFlight
      | none => σ.inFlight
    | .completeSlice thread _ _ _ => σ.inFlight.erase thread
    | _ => σ.inFlight

/-- No choice on any processor, with or without a preferred thread, falls on a thread
that has a slice in flight. -/
def Exclusive (σ : Flight) : Prop :=
  ∀ t ∈ σ.inFlight, ∀ processor preferred, σ.scheduler.chosen processor preferred ≠ some t

section
variable {σ : Flight} {t : XnuThreadId} {operation : Operation}

theorem exclusive_iff (invariant : σ.scheduler.Invariant) :
    σ.Exclusive ↔ ∀ t ∈ σ.inFlight, ¬σ.scheduler.Queued t := by
  constructor
  · intro exclusive t flying queued
    obtain ⟨processor, preferred, chosen⟩ := XnuScheduler.exists_chosen invariant queued
    exact exclusive t flying processor preferred chosen
  · intro idle t flying processor preferred chosen
    obtain ⟨r, found, queued⟩ := XnuScheduler.chosen_queued invariant chosen
    apply idle t flying
    exact ⟨r.life, by rw [XnuScheduler.lifeOf, found]; rfl, queued⟩

/-- A slice stays in flight until it is completed. -/
theorem mem_after (flying : t ∈ σ.inFlight)
    (other : ∀ consumed completion accounting,
      operation ≠ .completeSlice t consumed completion accounting) :
    t ∈ (σ.after operation).inFlight := by
  unfold after
  cases operation with
  | chooseNext processor preferred =>
    dsimp only
    split
    · exact Finset.mem_insert_of_mem flying
    · exact flying
  | completeSlice thread consumed completion accounting =>
    apply Finset.mem_erase_of_ne_of_mem _ flying
    rintro rfl
    exact other consumed completion accounting rfl
  | _ => exact flying

/-- A thread in flight has been so before, or has just been chosen. -/
theorem of_mem_after (flying : t ∈ (σ.after operation).inFlight) :
    (t ∈ σ.inFlight ∧ ∀ consumed completion accounting,
      operation ≠ .completeSlice t consumed completion accounting) ∨
    ∃ processor preferred, operation = .chooseNext processor preferred ∧
      σ.scheduler.chosen processor preferred = some t := by
  unfold after at flying
  cases operation with
  | chooseNext processor preferred =>
    dsimp only at flying
    split at flying
    · rename_i thread chosen
      rcases Finset.mem_insert.mp flying with rfl | before
      · exact .inr ⟨processor, preferred, rfl, chosen⟩
      · exact .inl ⟨before, nofun⟩
    · exact .inl ⟨flying, nofun⟩
  | completeSlice thread consumed completion accounting =>
    obtain ⟨ne, before⟩ := Finset.mem_erase.mp flying
    refine .inl ⟨before, ?_⟩
    rintro _ _ _ same
    exact ne (Operation.completeSlice.inj same).1.symm
  | _ => exact .inl ⟨flying, nofun⟩

/-- A thread that has just been chosen is on no queue. -/
theorem chosen_idle (invariant : σ.scheduler.Invariant) {processor : Nat}
    {preferred : Option XnuThreadId} (chosen : σ.scheduler.chosen processor preferred = some t) :
    ¬(σ.scheduler.after (.chooseNext processor preferred)).Queued t := by
  rintro ⟨l, known, queued⟩
  rw [(XnuScheduler.after_performs invariant _).lives] at known
  simp only [Operation.step, chosen] at known
  obtain ⟨l₀, -, rfl⟩ := Option.map_eq_some_iff.mp known
  rw [XnuScheduler.solely_self] at queued
  contradiction

/-- An operation keeps choices off the threads in flight exactly if it requeues none. -/
theorem exclusive_after (invariant : σ.scheduler.Invariant) (exclusive : σ.Exclusive) :
    (σ.after operation).Exclusive ↔ ∀ t ∈ σ.inFlight, ¬operation.Requeues σ.scheduler t := by
  have idle := (exclusive_iff invariant).mp exclusive
  rw [exclusive_iff (XnuScheduler.after_invariant invariant operation)]
  constructor
  · intro later t flying requeues
    have other : ∀ consumed completion accounting,
        operation ≠ .completeSlice t consumed completion accounting := by
      rintro consumed completion accounting rfl
      exact requeues
    apply later t (mem_after flying other)
    exact (XnuScheduler.queued_iff_requeues invariant (idle t flying) other).mpr requeues
  · intro spares t flying queued
    rcases of_mem_after flying with ⟨before, other⟩ | ⟨processor, preferred, rfl, chosen⟩
    · apply spares t before
      exact (XnuScheduler.queued_iff_requeues invariant (idle t before) other).mp queued
    · exact chosen_idle invariant chosen queued

/-- No thread has two slices in flight, throughout a run, exactly if no operation of the
run puts a thread with a slice in flight back on a queue. -/
theorem exclusive_iff_along {config : SchedulerConfig} {s : XnuScheduler}
    (built : XnuScheduler.construct config = .ok s) (operations : List Operation) :
    Throughout after Exclusive ⟨s, ∅⟩ operations ↔
      Along after (fun σ operation => ∀ t ∈ σ.inFlight, ¬operation.Requeues σ.scheduler t)
        ⟨s, ∅⟩ operations := by
  have preserves : ∀ (σ : Flight) (operation : Operation), σ.scheduler.Invariant →
      (after σ operation).scheduler.Invariant :=
    fun _ operation invariant => XnuScheduler.after_invariant invariant operation
  have exact_step : ∀ (σ : Flight) (operation : Operation), σ.scheduler.Invariant → σ.Exclusive →
      True → ((after σ operation).Exclusive ↔
        ∀ t ∈ σ.inFlight, ¬operation.Requeues σ.scheduler t) :=
    fun _ _ invariant exclusive _ => exclusive_after invariant exclusive
  have start : Exclusive ⟨s, ∅⟩ := fun t flying => absurd flying (Finset.notMem_empty t)
  exact throughout_iff_along preserves exact_step (XnuScheduler.construct_invariant built) start
    (along_of_forall (fun _ _ => trivial) _ operations)

/-- A thread is held while its slice is in flight, and released after it is completed. -/
theorem exclusive_iff_along_held :
    Throughout after Exclusive ⟨XnuScheduler.initialState {}, ∅⟩
        [.registerThread ⟨1, 1⟩ 31 true, .chooseNext 0 none, .suspendThread ⟨1, 1⟩ .user,
          .completeSlice ⟨1, 1⟩ 5 .continue .advance, .resumeThread ⟨1, 1⟩ .user] ↔
      Along after (fun σ operation => ∀ t ∈ σ.inFlight, ¬operation.Requeues σ.scheduler t)
        ⟨XnuScheduler.initialState {}, ∅⟩
        [.registerThread ⟨1, 1⟩ 31 true, .chooseNext 0 none, .suspendThread ⟨1, 1⟩ .user,
          .completeSlice ⟨1, 1⟩ 5 .continue .advance, .resumeThread ⟨1, 1⟩ .user] := by
  have built : XnuScheduler.construct {} = .ok (XnuScheduler.initialState {}) := rfl
  exact exclusive_iff_along built _

/-- It is released while its slice is in flight, and can be dispatched once more. -/
theorem dispatched_twice : ¬∀ config s operations, XnuScheduler.construct config = .ok s →
    Throughout after Exclusive ⟨s, ∅⟩ operations := by
  intro exclusive
  have last := (exclusive {} (XnuScheduler.initialState {}) [.registerThread ⟨1, 1⟩ 31 true,
    .chooseNext 0 none, .suspendThread ⟨1, 1⟩ .user, .resumeThread ⟨1, 1⟩ .user] rfl).last
  have flying : (⟨1, 1⟩ : XnuThreadId) ∈ (run after ⟨XnuScheduler.initialState {}, ∅⟩
      [.registerThread ⟨1, 1⟩ 31 true, .chooseNext 0 none, .suspendThread ⟨1, 1⟩ .user,
        .resumeThread ⟨1, 1⟩ .user]).inFlight := by
    decide +kernel
  have again : (run after ⟨XnuScheduler.initialState {}, ∅⟩
      [.registerThread ⟨1, 1⟩ 31 true, .chooseNext 0 none, .suspendThread ⟨1, 1⟩ .user,
        .resumeThread ⟨1, 1⟩ .user]).scheduler.chosen 0 none = some ⟨1, 1⟩ := by
    decide +kernel
  exact last _ flying 0 none again

end
end Flight
end ILEmu
