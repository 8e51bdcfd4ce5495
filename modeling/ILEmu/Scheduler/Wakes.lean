import ILEmu.Scheduler.Steps

/-! No wakeup is lost to a racing block: a wakeup of a thread whose slice is in
flight is recorded, survives whatever happens before the slice is completed, and
then makes the thread runnable or waits for its last hold. -/
namespace ILEmu
open Foundation Xnu.Scheduler

namespace Life

/-- The thread is queued, or is to be queued when its last hold is released. -/
def Awake (l : Life) : Prop :=
  l.state = .runnable ∧ l.queued = true ∨ 0 < l.suspendCount ∧ l.resumeRunnable = true

/-- The thread is awake and no slice of it is in flight. -/
def Rested (l : Life) : Prop :=
  l.executionPending = false ∧ l.Awake

/-- A wakeup is recorded for the completion of the slice in flight, or has taken effect. -/
def Recorded (l : Life) : Prop :=
  l.executionPending = true ∧ l.wakePending = true ∨ l.Rested

/-- A property of lives that only the completion of a slice can take away, or a block
or a dispatch that finds no slice in flight. -/
structure Lasting (P : Life → Prop) : Prop where
  makeRunnable : ∀ l, P l → P l.makeRunnable
  wake : ∀ l, l.Sound → P l → P l.wake
  suspend : ∀ reason l, P l → P (l.suspend reason)
  resume : ∀ reason l, l.Sound → P l → P (l.resume reason)
  block : ∀ l, l.executionPending = true → P l → P l.block
  dispatch : ∀ l, l.executionPending = true → P l → P l.dispatch
  exec : ∀ userTicks, P { fresh true with userTicks }

section
variable {l l' : Life}

/-- What an awake thread is once no hold is left. -/
theorem Awake.released (awake : l.Awake) (free : l.suspendCount = 0) :
    l.state = .runnable ∧ l.queued = true := by
  rcases awake with ready | ⟨held, -⟩
  · exact ready
  · omega

theorem Awake.makeRunnable (awake : l.Awake) : l.makeRunnable.Awake := by
  unfold Life.makeRunnable
  split
  · rename_i held
    exact .inr ⟨Nat.pos_of_ne_zero held, rfl⟩
  · rename_i free
    obtain ⟨runnable, queued⟩ := awake.released (Classical.not_not.mp free)
    split
    · exact .inl ⟨runnable, queued⟩
    · exact .inl ⟨rfl, rfl⟩

theorem Awake.suspend (awake : l.Awake) (reason : XnuThreadSuspension) :
    (l.suspend reason).Awake := by
  unfold Life.suspend
  split
  · exact awake
  · dsimp only
    split
    · rcases awake with ⟨runnable, queued⟩ | ⟨_, resume⟩
      · exact .inl ⟨runnable, queued⟩
      · exact .inr ⟨Nat.succ_pos _, resume⟩
    · rename_i free
      have runnable := (awake.released (Classical.not_not.mp free)).1
      exact .inr ⟨Nat.succ_pos _, by simp [runnable, XnuThreadState.isRunnable]⟩

theorem Awake.resume (awake : l.Awake) (sound : l.Sound) (reason : XnuThreadSuspension) :
    (l.resume reason).Awake := by
  unfold Life.resume
  split
  · exact awake
  · dsimp only
    split
    · rename_i held
      rcases awake with ⟨runnable, queued⟩ | ⟨_, resume⟩
      · exact .inl ⟨runnable, queued⟩
      · exact .inr ⟨Nat.pos_of_ne_zero held, resume⟩
    · split
      · exact .inl ⟨rfl, rfl⟩
      · rename_i still
        rcases awake with ⟨runnable, queued⟩ | ⟨_, resume⟩
        · have free : ¬l.hostAwait = true := by
            intro ticket
            rcases (sound.awaiting ticket).2.2 with waits | ⟨waits, -⟩
            · rw [runnable] at waits
              contradiction
            · rw [runnable] at waits
              contradiction
          rw [if_neg free]
          exact .inl ⟨runnable, queued⟩
        · exact absurd resume still

theorem makeRunnable_wakePending (l : Life) : l.makeRunnable.wakePending = l.wakePending := by
  unfold makeRunnable
  split
  · rfl
  · split
    · rfl
    · rfl

theorem suspend_wakePending (reason : XnuThreadSuspension) (l : Life) :
    (l.suspend reason).wakePending = l.wakePending := by
  unfold suspend
  split
  · rfl
  · dsimp only
    split
    · rfl
    · rfl

theorem resume_wakePending (reason : XnuThreadSuspension) (l : Life) :
    (l.resume reason).wakePending = l.wakePending := by
  unfold Life.resume
  split
  · rfl
  · dsimp only
    split
    · rfl
    · split
      · rfl
      · split
        · rfl
        · rfl

theorem executionPending_of_account (same : l'.account = l.account) :
    l'.executionPending = l.executionPending :=
  congrArg Account.inFlight same

theorem Rested.step (rested : l.Rested) (account : l'.account = l.account)
    (keeps : l.Awake → l'.Awake) : l'.Rested :=
  ⟨(executionPending_of_account account).trans rested.1, keeps rested.2⟩

/-- A step that leaves both flags alone keeps a recorded wakeup if it keeps threads awake. -/
theorem Recorded.step (recorded : l.Recorded) (account : l'.account = l.account)
    (wake : l'.wakePending = l.wakePending) (keeps : l.Awake → l'.Awake) : l'.Recorded := by
  rcases recorded with ⟨pending, woken⟩ | rested
  · exact .inl ⟨(executionPending_of_account account).trans pending, wake.trans woken⟩
  · exact .inr (rested.step account keeps)

/-- Without a slice in flight, a wakeup takes effect at once. -/
theorem wake_rested (sound : l.Sound) (idle : l.executionPending = false)
    (free : l.hostAwait = false) : l.wake.Rested := by
  unfold wake
  rw [if_neg (by simp [free]), if_neg (by simp [idle])]
  split
  · rename_i visible
    refine ⟨idle, ?_⟩
    by_cases held : l.suspendCount = 0
    · rcases visible with queued | suspended
      · exact .inl ⟨sound.queued.mp queued, queued⟩
      · exact absurd held suspended
    · exact .inr ⟨Nat.pos_of_ne_zero held, by simp [held]⟩
  · rename_i asleep
    simp only [not_or, Classical.not_not] at asleep
    obtain ⟨unqueued, unheld⟩ := asleep
    refine ⟨(executionPending_of_account (makeRunnable_account l)).trans idle, ?_⟩
    have still : l.state ≠ .running := by
      intro running
      rw [sound.running running] at idle
      contradiction
    unfold makeRunnable
    rw [if_neg (by simp [unheld]), if_neg (by simp [still, unqueued])]
    exact .inl ⟨rfl, rfl⟩

/-- A wakeup of a thread without a host ticket is recorded. -/
theorem wake_recorded (sound : l.Sound) (free : l.hostAwait = false) : l.wake.Recorded := by
  by_cases pending : l.executionPending = true
  · unfold wake
    rw [if_neg (by simp [free]), if_pos pending]
    exact .inl ⟨pending, rfl⟩
  · exact .inr (wake_rested sound (by simpa using pending) free)

theorem wake_ticket (ticket : ¬l.hostAwait = false) : l.wake = l := by
  unfold wake
  rw [if_pos (by simpa using ticket)]

theorem exec_rested (userTicks : Nat) : Rested { fresh true with userTicks } :=
  ⟨rfl, .inl ⟨rfl, rfl⟩⟩

theorem rested_lasting : Lasting Rested where
  makeRunnable l rested := rested.step (makeRunnable_account l) Awake.makeRunnable
  wake l sound := by
    intro rested
    by_cases free : l.hostAwait = false
    · exact wake_rested sound rested.1 free
    · rwa [wake_ticket free]
  suspend reason l rested :=
    rested.step (suspend_account reason l) fun awake => awake.suspend reason
  resume reason l sound rested :=
    rested.step (resume_account reason l) fun awake => awake.resume sound reason
  block _ pending rested := absurd pending (by simp [rested.1])
  dispatch _ pending rested := absurd pending (by simp [rested.1])
  exec := exec_rested

theorem recorded_lasting : Lasting Recorded where
  makeRunnable l recorded :=
    recorded.step (makeRunnable_account l) (makeRunnable_wakePending l) Awake.makeRunnable
  wake l sound := by
    intro recorded
    by_cases free : l.hostAwait = false
    · exact wake_recorded sound free
    · rwa [wake_ticket free]
  suspend reason l recorded :=
    recorded.step (suspend_account reason l) (suspend_wakePending reason l)
      fun awake => awake.suspend reason
  resume reason l sound recorded :=
    recorded.step (resume_account reason l) (resume_wakePending reason l)
      fun awake => awake.resume sound reason
  block l pending recorded := by
    rcases recorded with woken | ⟨idle, -⟩
    · exact .inl woken
    · exact absurd pending (by simp [idle])
  dispatch l pending recorded := by
    rcases recorded with ⟨-, wake⟩ | ⟨idle, -⟩
    · exact .inl ⟨rfl, wake⟩
    · exact absurd pending (by simp [idle])
  exec userTicks := .inr (exec_rested userTicks)

/-- A recorded wakeup beats the block that completes the slice. -/
theorem Recorded.complete (recorded : l.Recorded) (sound : l.Sound) (consumed : Nat) :
    ∃ l', l.complete consumed .block = some l' ∧ l'.Rested := by
  rcases recorded with ⟨pending, wake⟩ | rested
  · refine ⟨(l.charge consumed).settle .block, ?_,
      executionPending_of_account (settle_account .block (l.charge consumed)), ?_⟩
    · unfold Life.complete
      rw [if_neg (by simp [pending]), if_neg nofun]
    · have wake' : (l.charge consumed).wakePending = true := wake
      by_cases running : (l.charge consumed).state = .running
      · rw [settle_running (by decide) running, if_neg (by simp [wake'])]
        exact .inl ⟨rfl, rfl⟩
      · rw [settle_held (by decide) running, if_pos wake']
        unfold Life.makeRunnable
        split
        · rename_i held
          exact .inr ⟨Nat.pos_of_ne_zero held, rfl⟩
        · split
          · rename_i ready
            rcases ready with still | queued
            · exact absurd still running
            · exact .inl ⟨sound.queued.mp queued, queued⟩
          · exact .inl ⟨rfl, rfl⟩
  · refine ⟨l, ?_, rested⟩
    unfold Life.complete
    rw [if_pos (by simp [rested.1])]

end
end Life

namespace XnuScheduler

/-- The life of a thread has a property. -/
def Lives (s : XnuScheduler) (t : XnuThreadId) (P : Life → Prop) : Prop :=
  ∃ l, s.lifeOf t = some l ∧ P l

end XnuScheduler

/-- The operation neither completes a slice of the thread nor ends the thread, and
it does not block or dispatch the thread unless a slice of it is in flight. The
thread may be the survivor of an exec. -/
def Operation.Spares (s : XnuScheduler) (t : XnuThreadId) : Operation → Prop
  | .completeSlice thread _ _ _ | .removeThread thread _ => thread ≠ t
  | .replaceProcessThreads survivor _ _ _ => survivor.process = t.process → survivor = t
  | .removeProcess process _ => process ≠ t.process
  | .block thread => thread = t → s.Lives t fun l => l.executionPending = true
  | .chooseNext processor preferred =>
    s.chosen processor preferred = some t → s.Lives t fun l => l.executionPending = true
  | _ => True

namespace XnuScheduler
section
variable {s : XnuScheduler} {t : XnuThreadId} {operation : Operation}

theorem Lives.solely {P : Life → Prop} {known : Option Life} {f : Life → Life}
    (lives : ∃ l, known = some l ∧ P l) (u : XnuThreadId)
    (keeps : ∀ l, t = u → l ∈ known → P l → P (f l)) :
    ∃ l, known.map (solely u f t) = some l ∧ P l := by
  obtain ⟨l, rfl, holds⟩ := lives
  refine ⟨_, rfl, ?_⟩
  by_cases same : t = u
  · subst u
    rw [solely_self]
    exact keeps l rfl rfl holds
  · rw [solely_of_ne same]
    exact holds

theorem Lives.guarded {P : Life → Prop} {known : Option Life} {f : Life → Life} {c : Prop}
    [Decidable c] (lives : ∃ l, known = some l ∧ P l) (keeps : ∀ l, l ∈ known → P l → P (f l)) :
    ∃ l, known.map (if c then f else id) = some l ∧ P l := by
  obtain ⟨l, rfl, holds⟩ := lives
  refine ⟨_, rfl, ?_⟩
  split
  · exact keeps l rfl holds
  · exact holds

/-- A lasting property survives every operation that spares its thread. -/
theorem spared_lives {P : Life → Prop} (lasting : Life.Lasting P) (invariant : s.Invariant)
    (lives : s.Lives t P) (spares : operation.Spares s t) : (s.after operation).Lives t P := by
  have performs := after_performs invariant operation
  have sound : ∀ l, l ∈ s.lifeOf t → l.Sound := by
    intro l known
    obtain ⟨r, found, rfl⟩ := Option.map_eq_some_iff.mp known
    exact invariant.sound t r found
  unfold Operation.Spares Lives at spares
  unfold Lives at lives ⊢
  rw [performs.lives]
  have flying : ∀ {l : Life}, l ∈ s.lifeOf t →
      (∃ l, s.lifeOf t = some l ∧ l.executionPending = true) → l.executionPending = true := by
    rintro l known ⟨l', known', pending⟩
    obtain rfl := Option.some.inj (known.symm.trans known')
    exact pending
  generalize s.lifeOf t = known at lives sound spares flying
  cases operation with
  | registerThread thread base runnable =>
    obtain ⟨l, rfl, holds⟩ := lives
    simp only [Operation.step]
    split
    · exact ⟨l, rfl, holds⟩
    · exact ⟨l, rfl, holds⟩
  | removeThread thread pending =>
    simp only [Operation.step]
    rw [if_neg fun same => spares same.symm]
    exact lives
  | replaceProcessThreads survivor base pending order =>
    simp only [Operation.step]
    split
    · exact lives
    · unfold replaced
      split
      · exact ⟨_, rfl, lasting.exec _⟩
      · rename_i other
        rw [if_neg fun process => other (spares process.symm).symm]
        exact lives
  | removeProcess process order =>
    simp only [Operation.step]
    rw [if_neg fun same => spares same.symm]
    exact lives
  | makeRunnable thread => exact Lives.solely lives thread fun l _ _ => lasting.makeRunnable l
  | suspendProcess process order =>
    exact Lives.guarded lives fun l _ => lasting.suspend .process l
  | resumeProcess process order =>
    exact Lives.guarded lives fun l here => lasting.resume .process l (sound l here)
  | wakeThread thread =>
    exact Lives.solely lives thread fun l _ here => lasting.wake l (sound l here)
  | block thread =>
    exact Lives.solely lives thread fun l same here =>
      lasting.block l (flying here (spares same.symm))
  | suspendThread thread reason =>
    exact Lives.solely lives thread fun l _ _ => lasting.suspend reason l
  | resumeThread thread reason =>
    exact Lives.solely lives thread fun l _ here => lasting.resume reason l (sound l here)
  | chooseNext processor preferred =>
    simp only [Operation.step]
    split
    · exact lives
    · rename_i thread chosen
      exact Lives.solely lives thread fun l same here =>
        lasting.dispatch l (flying here (spares (same ▸ chosen)))
  | completeSlice thread consumed completion accounting =>
    simp only [Operation.step]
    rw [if_neg fun same => spares same.symm]
    exact lives
  | _ => exact lives

theorem run_lives {P : Life → Prop} (lasting : Life.Lasting P) (invariant : s.Invariant)
    (lives : s.Lives t P) {operations : List Operation}
    (spared : Along after (fun s operation => operation.Spares s t) s operations) :
    (run after s operations).Lives t P := by
  have preserves : ∀ s operation, Invariant s → (after s operation).Invariant :=
    fun _ operation invariant => after_invariant invariant operation
  have step : ∀ s operation, Invariant s → Lives s t P → Operation.Spares s t operation →
      (after s operation).Lives t P := fun _ _ => spared_lives lasting
  have kept := Along.keeps preserves step invariant lives spared
  exact kept

/-- A wakeup of a thread that waits for no host ticket outlives a block that completes
its slice, whatever comes between them: the thread is queued, or a hold keeps it to be
queued, and so it stays while it is held and released. -/
theorem wake_outlives_block {s₁ s₂ : XnuScheduler} {preemptionNeeded : Bool}
    (reachable : s.Reachable)
    (handled : s.answer (.wakeThread t) = some (.wake { handled := true, preemptionNeeded }))
    (free : ∀ r, s.threads.lookup t = some r → r.hostAwait = false)
    {between later : List Operation} {consumed : Nat} {accounting : XnuTimeAccounting}
    (woken : s₁ = s.after (.wakeThread t))
    (spared : Along after (fun s operation => operation.Spares s t) s₁ between)
    (blocked : s₂ = (run after s₁ between).after (.completeSlice t consumed .block accounting))
    (kept : Along after (fun s operation => operation.Spares s t) s₂ later) :
    ∃ r, (run after s₂ later).threads.lookup t = some r ∧
      (r.info.state = .runnable ∧ r.queued = true ∨
        0 < r.suspendCount ∧ r.resumeRunnable = true) := by
  have invariant := reachable.invariant
  obtain ⟨r, found⟩ : ∃ r, s.threads.lookup t = some r := by
    cases found : s.threads.lookup t with
    | some r => exact ⟨r, rfl⟩
    | none =>
            simp [answer, perform, wakeThread, found, answering, bind, Except.bind, pure,
              Except.pure] at handled
  have recorded : s₁.Lives t Life.Recorded := by
    refine ⟨r.life.wake, ?_, Life.wake_recorded (invariant.sound t r found) (free r found)⟩
    rw [woken, (after_performs invariant _).lives, lifeOf, found]
    simp only [Operation.step, solely_self]
    rfl
  have invariant₁ : s₁.Invariant := woken ▸ after_invariant invariant _
  obtain ⟨l, known, here⟩ := run_lives Life.recorded_lasting invariant₁ recorded spared
  have invariant₂ := run_after_invariant invariant₁ between
  have rested : s₂.Lives t Life.Rested := by
    obtain ⟨r', found', rfl⟩ := Option.map_eq_some_iff.mp known
    obtain ⟨l', completed, rested⟩ := here.complete (invariant₂.sound t r' found') consumed
    refine ⟨l', ?_, rested⟩
    rw [blocked, (after_performs invariant₂ _).lives, known]
    simp only [Operation.step, if_true, Option.bind_some, completed]
  have invariant₃ : s₂.Invariant := blocked ▸ after_invariant invariant₂ _
  obtain ⟨l', known', -, awake⟩ := run_lives Life.rested_lasting invariant₃ rested kept
  obtain ⟨r', found', rfl⟩ := Option.map_eq_some_iff.mp known'
  exact ⟨r', found', awake⟩

/-- A thread starts to run. -/
def runningHistory : List Operation := [.registerThread ⟨1, 1⟩ 31 true, .chooseNext 0 none]

/-- It is woken and held, its slice is completed, and it is released. -/
theorem wake_outlives_block_held : ∃ r,
    (run after (after (run after (after (run after (initialState {}) runningHistory)
      (.wakeThread ⟨1, 1⟩)) [.suspendThread ⟨1, 1⟩ .user])
      (.completeSlice ⟨1, 1⟩ 5 .block .advance)) [.resumeThread ⟨1, 1⟩ .user]).threads.lookup ⟨1, 1⟩ =
        some r ∧
    (r.info.state = .runnable ∧ r.queued = true ∨ 0 < r.suspendCount ∧ r.resumeRunnable = true) := by
  have handled : (run after (initialState {}) runningHistory).answer (.wakeThread ⟨1, 1⟩) =
      some (.wake { handled := true, preemptionNeeded := true }) := by
    decide +kernel
  have free : ∀ r, (run after (initialState {}) runningHistory).threads.lookup ⟨1, 1⟩ = some r →
      r.hostAwait = false := by
    intro r found
    have same : ((run after (initialState {}) runningHistory).threads.lookup ⟨1, 1⟩).map
        (·.hostAwait) = some false := by
      decide +kernel
    rw [found] at same
    exact Option.some.inj same
  have spared : Along after (fun s operation => operation.Spares s ⟨1, 1⟩)
      ((run after (initialState {}) runningHistory).after (.wakeThread ⟨1, 1⟩))
      [.suspendThread ⟨1, 1⟩ .user] := ⟨trivial, trivial⟩
  exact wake_outlives_block ⟨{}, _, runningHistory, rfl, rfl⟩ handled free rfl spared rfl
    ⟨trivial, trivial⟩

end
end XnuScheduler
end ILEmu
