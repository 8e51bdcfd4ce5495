import ILEmu.Scheduler.Repricing

/-! States between operations, and what an operation may do to the records. -/
namespace ILEmu
open Foundation Xnu.Scheduler

namespace ThreadRecord

/-- A thread that can be dispatched next, or goes on after a host wait, has quantum left. -/
def Fuelled (r : ThreadRecord) : Prop :=
  r.queued = true ∨ r.hostAwait = true → 0 < r.info.remainingQuantum

/-- The life of a record takes a step. -/
structure Moves (f : Life → Life) (r r' : ThreadRecord) : Prop where
  ident : r'.id = r.id
  life : r'.life = f r.life
  fuelled : r.Fuelled → r'.Fuelled

theorem Moves.trans {f g : Life → Life} {a b c : ThreadRecord} (first : a.Moves f b)
    (second : b.Moves g c) : a.Moves (g ∘ f) c := by
  refine ⟨second.ident.trans first.ident, ?_, second.fuelled ∘ first.fuelled⟩
  rw [second.life, first.life, Function.comp_apply]

end ThreadRecord

theorem Drift.queued {r r' : ThreadRecord} (drift : Drift r r') : r'.queued = r.queued :=
  congrArg Life.queued drift.life

theorem Drift.hostAwait {r r' : ThreadRecord} (drift : Drift r r') : r'.hostAwait = r.hostAwait :=
  congrArg Life.hostAwait drift.life

theorem Drift.moves {r r' : ThreadRecord} (drift : Drift r r') : r.Moves id r' := by
  refine ⟨drift.ident, drift.life, ?_⟩
  intro fuelled ready
  rw [drift.queued, drift.hostAwait] at ready
  rcases drift.quantum with same | filled
  · rw [same]
    exact fuelled ready
  · exact filled

namespace XnuScheduler

/-- The records agree with everything kept beside them, and are scheduled in band. -/
structure Settled (s : XnuScheduler) : Prop where
  balanced : s.Balanced
  scheduled : ∀ t r, s.threads.lookup t = some r → r.Scheduled
  waiting : s.waitingCount = s.threads.tally isWaiting

section
variable {s s' : XnuScheduler} {r r' : ThreadRecord} {t : XnuThreadId}

theorem lookup_store_found (balanced : s.Balanced) (found : s.threads.lookup t = some r)
    (u : XnuThreadId) : (s.store r).threads.lookup u = s.threads.lookup u := by
  rw [lookup_store, balanced.ids t r found]
  split
  · rename_i same
    rw [same, found]
  · rfl

theorem Balanced.hold (balanced : s.Balanced) (found : s.threads.lookup t = some r) :
    (s.store r).Balanced :=
  balanced.aside rfl (lookup_store_found balanced found) rfl (fun _ here => here)
    { balanced.configured with }

/-- An operation takes a record in hand. -/
theorem Settled.hold (settled : s.Settled) (found : s.threads.lookup t = some r) :
    Holding s r (isWaiting r) := by
  have id := settled.balanced.ids t r found
  refine ⟨settled.balanced.hold found, fun u r₀ _ here => settled.scheduled u r₀ here, ?_⟩
  rw [settled.waiting, id]
  exact Table.total_of_lookup (fun b => (isWaiting b).toNat) found

/-- An operation ends by storing the record back. -/
theorem Holding.settle (holding : Holding s r (isWaiting r)) (scheduled : r.Scheduled) :
    (s.store r).Settled := by
  refine ⟨holding.balanced, ?_, ?_⟩
  · intro t r₀ found
    rw [lookup_store] at found
    split at found
    · exact Option.some.inj found ▸ scheduled
    · exact holding.scheduled t r₀ ‹_› found
  · rw [tally_store]
    exact holding.waiting

/-- Clocks and diagnostics may change between operations. -/
theorem Settled.aside (settled : s.Settled) (same : s'.ledger = s.ledger)
    (threads : s'.threads = s.threads) (usage : s'.usageRecords = s.usageRecords)
    (waitingCount : s'.waitingCount = s.waitingCount) (history : s'.taskHistory = s.taskHistory)
    (configured : s'.Configured) : s'.Settled := by
  refine ⟨settled.balanced.aside same (fun t => by rw [threads]) usage ?_ configured, ?_, ?_⟩
  · intro p here
    rwa [history]
  · rw [threads]
    exact settled.scheduled
  · rw [waitingCount, threads]
    exact settled.waiting

/-- The ticks that the retired threads of a process have used. -/
def retiredTicks (s : XnuScheduler) (process : Nat) : Nat :=
  ((s.taskHistory.lookup process).map (·.terminatedUserTicks)).getD 0

/-- No thread retires and nothing is reconfigured. -/
structure Stable (s s' : XnuScheduler) : Prop where
  retired : ∀ p, s'.retiredTicks p = s.retiredTicks p
  processors : s'.processorRunQueues.length = s.processorRunQueues.length
  quantumTicks : s'.quantumTicks = s.quantumTicks

theorem Stable.refl (s : XnuScheduler) : Stable s s := ⟨fun _ => rfl, rfl, rfl⟩

theorem Stable.trans {a b c : XnuScheduler} (first : Stable a b) (second : Stable b c) :
    Stable a c :=
  ⟨fun p => (second.retired p).trans (first.retired p), second.processors.trans first.processors,
    second.quantumTicks.trans first.quantumTicks⟩

theorem Frame.stable (frame : Frame s s') : Stable s s' :=
  ⟨fun p => by rw [retiredTicks, retiredTicks, frame.taskHistory], frame.processors,
    frame.quantumTicks⟩

/-- The same threads are there, each record related to what it was. -/
def Evolves (R : XnuThreadId → ThreadRecord → ThreadRecord → Prop) (s s' : XnuScheduler) : Prop :=
  ∀ t, Option.Rel (R t) (s.threads.lookup t) (s'.threads.lookup t)

/-- Clock ticks and policy leave every life alone. -/
abbrev Drifts : XnuScheduler → XnuScheduler → Prop := Evolves fun _ => Drift

/-- Each thread takes its step. -/
abbrev Acts (f : XnuThreadId → Life → Life) : XnuScheduler → XnuScheduler → Prop :=
  Evolves fun t => ThreadRecord.Moves (f t)

/-- A step of one thread. -/
def solely (t : XnuThreadId) (f : Life → Life) : XnuThreadId → Life → Life :=
  Function.update (fun _ => id) t f

theorem Evolves.refl {R : XnuThreadId → ThreadRecord → ThreadRecord → Prop}
    (reflexive : ∀ t r, R t r r) (s : XnuScheduler) : Evolves R s s := by
  intro t
  cases s.threads.lookup t with
  | none => exact .none
  | some r => exact .some (reflexive t r)

theorem Evolves.trans {P Q R : XnuThreadId → ThreadRecord → ThreadRecord → Prop}
    {a b c : XnuScheduler} (compose : ∀ t x y z, P t x y → Q t y z → R t x z)
    (first : Evolves P a b) (second : Evolves Q b c) : Evolves R a c := by
  intro t
  have before := first t
  have after := second t
  generalize a.threads.lookup t = x at before ⊢
  generalize b.threads.lookup t = y at before after
  generalize c.threads.lookup t = z at after ⊢
  cases before with
  | none =>
    cases after
    exact .none
  | some before =>
    cases after with
    | some after => exact .some (compose t _ _ _ before after)

theorem Evolves.mono {P Q : XnuThreadId → ThreadRecord → ThreadRecord → Prop}
    (weaken : ∀ t x y, P t x y → Q t x y) (evolves : Evolves P s s') : Evolves Q s s' := by
  intro t
  have here := evolves t
  generalize s.threads.lookup t = x at here ⊢
  generalize s'.threads.lookup t = y at here ⊢
  cases here with
  | none => exact .none
  | some related => exact .some (weaken t _ _ related)

theorem Evolves.found {R : XnuThreadId → ThreadRecord → ThreadRecord → Prop}
    (evolves : Evolves R s s') (found : s.threads.lookup t = some r) :
    ∃ r', s'.threads.lookup t = some r' ∧ R t r r' := by
  have here := evolves t
  rw [found] at here
  generalize s'.threads.lookup t = y at here ⊢
  cases here with
  | some related => exact ⟨_, rfl, related⟩

theorem Drifts.trans {a b c : XnuScheduler} (first : Drifts a b) (second : Drifts b c) :
    Drifts a c :=
  Evolves.trans (fun _ x y z (one : Drift x y) (two : Drift y z) => one.trans two) first second

theorem Drifts.acts (drifts : Drifts s s') : Acts (fun _ => id) s s' :=
  drifts.mono fun _ _ _ drift => drift.moves

theorem Acts.trans {a b c : XnuScheduler} {f g : XnuThreadId → Life → Life} (first : Acts f a b)
    (second : Acts g b c) : Acts (fun t => g t ∘ f t) a c :=
  Evolves.trans (fun t x y z (one : x.Moves (f t) y) (two : y.Moves (g t) z) => one.trans two)
    first second

/-- Storing the record in hand changes one entry of the table. -/
theorem evolves_store {R : XnuThreadId → ThreadRecord → ThreadRecord → Prop}
    (found : s.threads.lookup t = some r) (threads : s'.threads = s.threads) (id : r'.id = t)
    (here : R t r r') (elsewhere : ∀ u r₀, u ≠ t → R u r₀ r₀) : Evolves R s (s'.store r') := by
  intro u
  rw [lookup_store, id, threads]
  by_cases same : u = t
  · subst u
    rw [found, if_pos rfl]
    exact .some here
  · rw [if_neg same]
    cases s.threads.lookup u with
    | none => exact .none
    | some r₀ => exact .some (elsewhere u r₀ same)

theorem drifts_store (found : s.threads.lookup t = some r) (threads : s'.threads = s.threads)
    (id : r.id = t) (drift : Drift r r') : Drifts s (s'.store r') :=
  evolves_store found threads (drift.ident.trans id) drift fun _ r₀ _ => Drift.refl r₀

theorem acts_store {f : Life → Life} (found : s.threads.lookup t = some r)
    (threads : s'.threads = s.threads) (id : r.id = t) (moves : r.Moves f r') :
    Acts (solely t f) s (s'.store r') := by
  refine evolves_store found threads (moves.ident.trans id) ?_ ?_
  · simpa only [solely, Function.update_self] using moves
  · intro u r₀ other
    simpa only [solely, Function.update_of_ne other] using (Drift.refl r₀).moves

/-- The scheduler stays settled while no life takes a step. -/
structure Passes (s s' : XnuScheduler) : Prop where
  settled : s'.Settled
  drifts : Drifts s s'
  stable : Stable s s'

theorem Passes.refl (settled : s.Settled) : Passes s s :=
  ⟨settled, Evolves.refl (fun _ => Drift.refl) s, Stable.refl s⟩

theorem Passes.trans {a b c : XnuScheduler} (first : Passes a b) (second : Passes b c) :
    Passes a c :=
  ⟨second.settled, first.drifts.trans second.drifts, first.stable.trans second.stable⟩

theorem Drift.waiting (drift : Drift r r') : isWaiting r' = isWaiting r := by
  have state : r'.info.state = r.info.state := congrArg Life.state drift.life
  rw [isWaiting, isWaiting, state]

theorem passes_store (settled : s.Settled) (found : s.threads.lookup t = some r)
    (holding : Holding s' r' (isWaiting r)) (frame : Frame s s') (scheduled : r'.Scheduled)
    (drift : Drift r r') : Passes s (s'.store r') := by
  have id := settled.balanced.ids t r found
  rw [← Drift.waiting drift] at holding
  exact ⟨holding.settle scheduled, drifts_store found frame.threads id drift,
    { frame.stable with }⟩

/-- The scheduler stays settled while each life takes its step. -/
structure Proceeds (f : XnuThreadId → Life → Life) (s s' : XnuScheduler) : Prop where
  settled : s'.Settled
  acts : Acts f s s'
  stable : Stable s s'

theorem Passes.proceeds (passes : Passes s s') : Proceeds (fun _ => id) s s' :=
  ⟨passes.settled, passes.drifts.acts, passes.stable⟩

theorem Proceeds.trans {a b c : XnuScheduler} {f g : XnuThreadId → Life → Life}
    (first : Proceeds f a b) (second : Proceeds g b c) : Proceeds (fun t => g t ∘ f t) a c :=
  ⟨second.settled, first.acts.trans second.acts, first.stable.trans second.stable⟩

theorem proceeds_stored {f : Life → Life} (settled : s.Settled)
    (found : s.threads.lookup t = some r) (holding : Holding s' r' (isWaiting r'))
    (threads : s'.threads = s.threads) (stable : Stable s s') (scheduled : r'.Scheduled)
    (moves : r.Moves f r') : Proceeds (solely t f) s (s'.store r') :=
  ⟨holding.settle scheduled, acts_store found threads (settled.balanced.ids t r found) moves,
    { stable with }⟩

theorem proceeds_store {f : Life → Life} (settled : s.Settled) (found : s.threads.lookup t = some r)
    (holding : Holding s' r' (isWaiting r')) (frame : Frame s s') (scheduled : r'.Scheduled)
    (moves : r.Moves f r') : Proceeds (solely t f) s (s'.store r') :=
  proceeds_stored settled found holding frame.threads frame.stable scheduled moves

@[simp] theorem solely_self (t : XnuThreadId) (f : Life → Life) : solely t f t = f :=
  Function.update_self ..

theorem solely_of_ne {t u : XnuThreadId} (other : u ≠ t) (f : Life → Life) : solely t f u = id :=
  Function.update_of_ne other ..

/-- An operation that finds nothing to do on its thread, if the thread exists at all. -/
theorem Settled.unchanged (settled : s.Settled) {f : Life → Life}
    (same : ∀ r, s.threads.lookup t = some r → f r.life = r.life) : Proceeds (solely t f) s s := by
  refine ⟨settled, ?_, Stable.refl s⟩
  intro u
  by_cases here : u = t
  · subst u
    dsimp only
    rw [solely_self]
    cases found : s.threads.lookup t with
    | none => exact .none
    | some r => exact .some ⟨rfl, (same r found).symm, fun fuelled => fuelled⟩
  · dsimp only
    rw [solely_of_ne here]
    exact Evolves.refl (fun _ r₀ => (Drift.refl r₀).moves) s u

theorem Settled.missing (settled : s.Settled) (missing : s.threads.lookup t = none)
    (f : Life → Life) : Proceeds (solely t f) s s := by
  refine settled.unchanged fun r found => ?_
  rw [missing] at found
  contradiction

/-- The life of a thread, if the scheduler knows it. -/
def lifeOf (s : XnuScheduler) (t : XnuThreadId) : Option Life :=
  (s.threads.lookup t).map ThreadRecord.life

def FuelledAt (s : XnuScheduler) (t : XnuThreadId) : Prop :=
  ∀ r, s.threads.lookup t = some r → r.Fuelled

/-- The scheduler stays settled while threads come, go and take steps. -/
structure Turns (f : XnuThreadId → Option Life → Option Life) (s s' : XnuScheduler) : Prop where
  settled : s'.Settled
  lives : ∀ t, s'.lifeOf t = f t (s.lifeOf t)
  fuelled : ∀ t, s.FuelledAt t → s'.FuelledAt t
  processors : s'.processorRunQueues.length = s.processorRunQueues.length

theorem Turns.refl (settled : s.Settled) : Turns (fun _ => id) s s :=
  ⟨settled, fun _ => rfl, fun _ => id, rfl⟩

theorem Acts.lifeOf {f : XnuThreadId → Life → Life} (acts : Acts f s s') (t : XnuThreadId) :
    s'.lifeOf t = (s.lifeOf t).map (f t) := by
  have here := acts t
  unfold XnuScheduler.lifeOf
  generalize s.threads.lookup t = x at here ⊢
  generalize s'.threads.lookup t = y at here ⊢
  cases here with
  | none => rfl
  | some moves => exact congrArg some moves.life

theorem Acts.fuelledAt {f : XnuThreadId → Life → Life} (acts : Acts f s s') (t : XnuThreadId)
    (fuelled : s.FuelledAt t) : s'.FuelledAt t := by
  intro r' found'
  have here := acts t
  rw [found'] at here
  generalize known : s.threads.lookup t = x at here
  cases here with
  | some moves => exact moves.fuelled (fuelled _ known)

theorem Proceeds.turns {f : XnuThreadId → Life → Life} (proceeds : Proceeds f s s') :
    Turns (fun t => Option.map (f t)) s s' :=
  ⟨proceeds.settled, proceeds.acts.lifeOf, proceeds.acts.fuelledAt, proceeds.stable.processors⟩

end
end XnuScheduler
end ILEmu
