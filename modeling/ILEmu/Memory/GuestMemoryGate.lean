import ILEmu.Foundation.Run
import Mathlib.Data.BitVec
import Mathlib.Logic.Function.Basic

/-! The gate between native users of guest memory and metadata transactions, one critical
section at a time. -/
namespace ILEmu.Memory.GuestMemoryGate
open Foundation

abbrev Thread := Nat

/-- A conflict predicate with its operation. Null conflicts with every resource. -/
abbrev Conflict (R : Type) := Option (R → Bool)

variable {R : Type}

def conflicts (conflict : Conflict R) (resource : R) : Bool :=
  match conflict with
  | none => true
  | some predicate => predicate resource

structure Lease (R : Type) where
  id : Nat
  owner : Thread
  resource : R
  active : Bool := false
  blocked : Bool := false
  depth : BitVec 32 := 1
  enabled : Bool := true

/-- Where a thread is in its transaction. -/
inductive Phase (R : Type) where
  | outside
  /-- Its own lease is suspended, and it waits for the mutex. -/
  | waiting
  /-- It has the mutex, and has not blocked the leases. -/
  | acquired
  | transaction
  /-- In `quiesce`, until the conflicting leases have drained. -/
  | draining (conflict : Conflict R)
  /-- After the return of `quiesce`. -/
  | quiet (conflict : Conflict R)
  /-- In `unlock`, with the leases unblocked. -/
  | releasing
  /-- In `unlock`, without the mutex, before its own lease is resumed. -/
  | resuming

structure Gate (R : Type) where
  /-- The newest lease first. -/
  leases : List (Lease R) := []
  mutex : Option Thread := none
  transactionActive : Bool := false
  phase : Thread → Phase R := fun _ => .outside

inductive Event (R : Type) where
  | construct (id : Nat) (owner : Thread) (resource : R)
  | destroy (id : Nat)
  | suspend (id : Nat)
  | resume (id : Nat)
  | disable (id : Nat)
  | lockMetadata (thread : Thread)
  | acquire (thread : Thread)
  | blockAll (thread : Thread)
  | quiesce (thread : Thread) (conflict : Conflict R)
  | drained (thread : Thread)
  | unlock (thread : Thread)
  | unlockMutex (thread : Thread)
  | resumeOwn (thread : Thread)

namespace Lease

def suspend (lease : Lease R) : Lease R :=
  { lease with
    active := if lease.depth = 0 ∧ lease.enabled = true then false else lease.active
    depth := lease.depth + 1 }

/-- Nothing while the lease has to wait. -/
def resume (lease : Lease R) : Option (Lease R) :=
  if lease.depth = 1 ∧ lease.enabled = true then
    if lease.blocked then none else some { lease with active := true, depth := lease.depth - 1 }
  else some { lease with depth := lease.depth - 1 }

def resumed (lease : Lease R) : Lease R := lease.resume.getD lease

def disable (lease : Lease R) : Lease R := { lease with enabled := false }

end Lease

namespace Gate

def setPhase (gate : Gate R) (thread : Thread) (phase : Phase R) : Gate R :=
  { gate with phase := Function.update gate.phase thread phase }

def mapLeases (gate : Gate R) (change : Lease R → Lease R) : Gate R :=
  { gate with leases := gate.leases.map change }

def onLease (gate : Gate R) (id : Nat) (change : Lease R → Lease R) : Gate R :=
  gate.mapLeases fun lease => if lease.id = id then change lease else lease

/-- The innermost lease of a thread. -/
def currentLease (gate : Gate R) (thread : Thread) : Option (Lease R) :=
  gate.leases.find? fun lease => lease.owner = thread

def onCurrent (gate : Gate R) (thread : Thread) (change : Lease R → Lease R) : Gate R :=
  match gate.currentLease thread with
  | some lease => gate.onLease lease.id change
  | none => gate

/-- A lease is known by its address, which no other live lease has. -/
def construct (gate : Gate R) (id : Nat) (owner : Thread) (resource : R) : Gate R :=
  if gate.leases.any fun lease => lease.id = id then gate
  else
    { gate with
      leases := { id, owner, resource, blocked := gate.transactionActive } :: gate.leases }

def setBlocked (gate : Gate R) (blocked : R → Bool) : Gate R :=
  gate.mapLeases fun lease => { lease with blocked := blocked lease.resource }

/-- A step of some thread. A step that has to wait, or that the thread is not at, is no step. -/
def step (gate : Gate R) : Event R → Gate R
  | .construct id owner resource => gate.construct id owner resource
  | .destroy id => { gate with leases := gate.leases.filter fun lease => lease.id ≠ id }
  | .suspend id => gate.onLease id Lease.suspend
  | .resume id => gate.onLease id Lease.resumed
  | .disable id => gate.onLease id Lease.disable
  | .lockMetadata thread =>
    match gate.phase thread with
    | .outside => (gate.onCurrent thread Lease.suspend).setPhase thread .waiting
    | _ => gate
  | .acquire thread =>
    match gate.phase thread, gate.mutex with
    | .waiting, none => { gate with mutex := some thread }.setPhase thread .acquired
    | _, _ => gate
  | .blockAll thread =>
    match gate.phase thread with
    | .acquired =>
      ({ gate with transactionActive := true }.setBlocked fun _ => true).setPhase thread .transaction
    | _ => gate
  | .quiesce thread conflict =>
    match gate.phase thread with
    | .transaction | .quiet _ =>
      (gate.setBlocked (conflicts conflict)).setPhase thread (.draining conflict)
    | _ => gate
  | .drained thread =>
    match gate.phase thread with
    | .draining conflict =>
      if gate.leases.any fun lease => lease.blocked && lease.active then gate
      else gate.setPhase thread (.quiet conflict)
    | _ => gate
  | .unlock thread =>
    match gate.phase thread with
    | .transaction | .quiet _ =>
      ({ gate with transactionActive := false }.setBlocked fun _ => false).setPhase thread .releasing
    | _ => gate
  | .unlockMutex thread =>
    match gate.phase thread with
    | .releasing => { gate with mutex := none }.setPhase thread .resuming
    | _ => gate
  | .resumeOwn thread =>
    match gate.phase thread with
    | .resuming =>
      match gate.currentLease thread with
      | none => gate.setPhase thread .outside
      | some lease =>
        match lease.resume with
        | none => gate
        | some _ => (gate.onLease lease.id Lease.resumed).setPhase thread .outside
    | _ => gate

end Gate

/-! ### The invariant -/

/-- The thread has the mutex. -/
def Phase.holds : Phase R → Bool
  | .outside | .waiting | .resuming => false
  | _ => true

/-- The thread has blocked the leases. -/
def Phase.marked : Phase R → Bool
  | .transaction | .draining _ | .quiet _ => true
  | _ => false

/-- The conflicts that a thread has asked to drain. -/
def Phase.draining? : Phase R → Option (Conflict R)
  | .draining conflict | .quiet conflict => some conflict
  | _ => none

structure Safe (gate : Gate R) : Prop where
  mutex : ∀ thread, (gate.phase thread).holds = true → gate.mutex = some thread
  marked : ∀ thread, (gate.phase thread).marked = true → gate.transactionActive = true
  blocked : ∀ thread conflict, (gate.phase thread).draining? = some conflict →
    ∀ lease ∈ gate.leases, conflicts conflict lease.resource = true → lease.blocked = true
  idle : ∀ thread conflict, gate.phase thread = .quiet conflict →
    ∀ lease ∈ gate.leases, conflicts conflict lease.resource = true → lease.active = false

variable {gate : Gate R} {thread other : Thread} {phase : Phase R} {conflict : Conflict R}

theorem holds_of_marked (marked : phase.marked = true) : phase.holds = true := by
  cases phase with
  | transaction => rfl
  | draining => rfl
  | quiet => rfl
  | _ => contradiction

theorem marked_of_draining (asked : phase.draining? = some conflict) : phase.marked = true := by
  cases phase with
  | draining => rfl
  | quiet => rfl
  | _ => contradiction

namespace Safe

theorem start : Safe ({} : Gate R) where
  mutex := nofun
  marked := nofun
  blocked := nofun
  idle := nofun

/-- At most one thread has the mutex. -/
theorem unique (safe : Safe gate) (first : (gate.phase thread).holds = true)
    (second : (gate.phase other).holds = true) : thread = other := by
  have same := (safe.mutex thread first).symm.trans (safe.mutex other second)
  exact Option.some.inj same

/-- A change of one lease that leaves its resource and its block, and does not activate it
while it is blocked. -/
structure Calm (change : Lease R → Lease R) : Prop where
  resource : ∀ lease, (change lease).resource = lease.resource
  blocked : ∀ lease, (change lease).blocked = lease.blocked
  active : ∀ lease, lease.blocked = true → lease.active = false → (change lease).active = false

theorem calm_suspend : Calm (Lease.suspend : Lease R → Lease R) where
  resource := fun _ => rfl
  blocked := fun _ => rfl
  active := by
    intro lease _ idle
    unfold Lease.suspend
    dsimp only
    split
    · rfl
    · exact idle

theorem calm_resumed : Calm (Lease.resumed : Lease R → Lease R) := by
  have cases' : ∀ lease : Lease R, lease.resumed.resource = lease.resource ∧
      lease.resumed.blocked = lease.blocked ∧
      (lease.blocked = true → lease.active = false → lease.resumed.active = false) := by
    intro lease
    unfold Lease.resumed Lease.resume
    split
    · split
      · exact ⟨rfl, rfl, fun _ idle => idle⟩
      · rename_i free
        exact ⟨rfl, rfl, fun blocked => absurd blocked free⟩
    · exact ⟨rfl, rfl, fun _ idle => idle⟩
  exact ⟨fun lease => (cases' lease).1, fun lease => (cases' lease).2.1,
    fun lease => (cases' lease).2.2⟩

theorem calm_disable : Calm (Lease.disable : Lease R → Lease R) where
  resource := fun _ => rfl
  blocked := fun _ => rfl
  active := fun _ _ idle => idle

theorem mapLeases (safe : Safe gate) {change : Lease R → Lease R} (calm : Calm change) :
    Safe (gate.mapLeases change) where
  mutex := safe.mutex
  marked := safe.marked
  blocked := by
    intro thread conflict asked lease member conflicting
    obtain ⟨before, listed, rfl⟩ := List.mem_map.mp member
    rw [calm.resource] at conflicting
    rw [calm.blocked]
    exact safe.blocked thread conflict asked before listed conflicting
  idle := by
    intro thread conflict quiet lease member conflicting
    obtain ⟨before, listed, rfl⟩ := List.mem_map.mp member
    rw [calm.resource] at conflicting
    have asked : (gate.phase thread).draining? = some conflict := by
      rw [show gate.phase thread = .quiet conflict from quiet]
      rfl
    exact calm.active before (safe.blocked thread conflict asked before listed conflicting)
      (safe.idle thread conflict quiet before listed conflicting)

theorem onLease (safe : Safe gate) (id : Nat) {change : Lease R → Lease R} (calm : Calm change) :
    Safe (gate.onLease id change) := by
  apply safe.mapLeases
  constructor
  · intro lease
    split
    · exact calm.resource lease
    · rfl
  · intro lease
    split
    · exact calm.blocked lease
    · rfl
  · intro lease blocked idle
    split
    · exact calm.active lease blocked idle
    · exact idle

theorem onCurrent (safe : Safe gate) (thread : Thread) {change : Lease R → Lease R}
    (calm : Calm change) : Safe (gate.onCurrent thread change) := by
  unfold Gate.onCurrent
  split
  · exact safe.onLease _ calm
  · exact safe

theorem construct (safe : Safe gate) (id : Nat) (owner : Thread) (resource : R) :
    Safe (gate.construct id owner resource) := by
  unfold Gate.construct
  split
  · exact safe
  · refine ⟨safe.mutex, safe.marked, ?_, ?_⟩
    · intro thread conflict asked lease member conflicting
      rcases List.mem_cons.mp member with rfl | listed
      · exact safe.marked thread (marked_of_draining asked)
      · exact safe.blocked thread conflict asked lease listed conflicting
    · intro thread conflict quiet lease member conflicting
      rcases List.mem_cons.mp member with rfl | listed
      · rfl
      · exact safe.idle thread conflict quiet lease listed conflicting

theorem filter (safe : Safe gate) (kept : Lease R → Bool) :
    Safe { gate with leases := gate.leases.filter kept } where
  mutex := safe.mutex
  marked := safe.marked
  blocked := fun thread conflict asked lease member =>
    safe.blocked thread conflict asked lease (List.mem_filter.mp member).1
  idle := fun thread conflict quiet lease member =>
    safe.idle thread conflict quiet lease (List.mem_filter.mp member).1

/-- A thread comes to a phase in which it relies on nothing but the mutex. -/
theorem setPhase (safe : Safe gate) (holds : phase.holds = true → gate.mutex = some thread)
    (plain : phase.marked = false) : Safe (gate.setPhase thread phase) := by
  have unmarked : ∀ c, phase.draining? ≠ some c := by
    intro c asked
    rw [marked_of_draining asked] at plain
    contradiction
  have elsewhere : ∀ u, u ≠ thread → (gate.setPhase thread phase).phase u = gate.phase u :=
    fun u different => Function.update_of_ne different ..
  have here : (gate.setPhase thread phase).phase thread = phase := Function.update_self ..
  constructor
  · intro u held
    by_cases same : u = thread
    · subst same
      rw [here] at held
      exact holds held
    · rw [elsewhere u same] at held
      exact safe.mutex u held
  · intro u marked
    by_cases same : u = thread
    · subst same
      rw [here, plain] at marked
      contradiction
    · rw [elsewhere u same] at marked
      exact safe.marked u marked
  · intro u c asked
    by_cases same : u = thread
    · subst same
      rw [here] at asked
      exact absurd asked (unmarked c)
    · rw [elsewhere u same] at asked
      exact safe.blocked u c asked
  · intro u c quiet
    by_cases same : u = thread
    · subst same
      rw [here] at quiet
      exact absurd (by rw [quiet]; rfl) (unmarked c)
    · rw [elsewhere u same] at quiet
      exact safe.idle u c quiet

/-- The holder of the mutex blocks the leases anew and comes to another phase: what it relies on
then is all that has to hold, since nobody else relies on anything. -/
theorem reblock (safe : Safe gate) (held : (gate.phase thread).holds = true)
    {active : Bool} {blocked : R → Bool}
    (marked : phase.marked = true → active = true)
    (asked : ∀ c, phase.draining? = some c → ∀ r, conflicts c r = true → blocked r = true)
    (waits : ∀ c, phase ≠ .quiet c) :
    Safe (({ gate with transactionActive := active }.setBlocked blocked).setPhase thread phase) := by
  have alone : ∀ u, u ≠ thread → (gate.phase u).holds = false := by
    intro u different
    by_contra other
    exact different (safe.unique (by simpa using other) held)
  have elsewhere : ∀ u, u ≠ thread →
      (({ gate with transactionActive := active }.setBlocked blocked).setPhase thread phase).phase u =
        gate.phase u :=
    fun u different => Function.update_of_ne different ..
  have here : (({ gate with transactionActive := active }.setBlocked blocked).setPhase thread
      phase).phase thread = phase := Function.update_self ..
  have unmarked : ∀ u, u ≠ thread → (gate.phase u).marked ≠ true := by
    intro u different marks
    have none := alone u different
    rw [holds_of_marked marks] at none
    contradiction
  constructor
  · intro u holds'
    by_cases same : u = thread
    · subst same
      exact safe.mutex u held
    · rw [elsewhere u same, alone u same] at holds'
      contradiction
  · intro u marks
    by_cases same : u = thread
    · subst same
      rw [here] at marks
      exact marked marks
    · rw [elsewhere u same] at marks
      exact absurd marks (unmarked u same)
  · intro u c asks lease member conflicting
    by_cases same : u = thread
    · subst same
      rw [here] at asks
      obtain ⟨before, _, rfl⟩ := List.mem_map.mp member
      exact asked c asks _ conflicting
    · rw [elsewhere u same] at asks
      exact absurd (marked_of_draining asks) (unmarked u same)
  · intro u c quiet
    by_cases same : u = thread
    · subst same
      rw [here] at quiet
      exact absurd quiet (waits c)
    · rw [elsewhere u same] at quiet
      exact absurd (by rw [quiet]; rfl) (unmarked u same)

/-- Nobody is active whom the thread has blocked: `quiesce` returns. -/
theorem drained (safe : Safe gate) (asked : gate.phase thread = .draining conflict)
    (idle : ∀ lease ∈ gate.leases, lease.blocked = true → lease.active = false) :
    Safe (gate.setPhase thread (.quiet conflict)) := by
  have elsewhere : ∀ u, u ≠ thread →
      (gate.setPhase thread (.quiet conflict)).phase u = gate.phase u :=
    fun u different => Function.update_of_ne different ..
  have here : (gate.setPhase thread (.quiet conflict)).phase thread = .quiet conflict :=
    Function.update_self ..
  constructor
  · intro u held
    by_cases same : u = thread
    · subst same
      exact safe.mutex u (by rw [asked]; rfl)
    · rw [elsewhere u same] at held
      exact safe.mutex u held
  · intro u marked
    by_cases same : u = thread
    · subst same
      exact safe.marked u (by rw [asked]; rfl)
    · rw [elsewhere u same] at marked
      exact safe.marked u marked
  · intro u c asks
    by_cases same : u = thread
    · subst same
      rw [here] at asks
      cases asks
      exact safe.blocked u conflict (by rw [asked]; rfl)
    · rw [elsewhere u same] at asks
      exact safe.blocked u c asks
  · intro u c quiet
    by_cases same : u = thread
    · subst same
      rw [here] at quiet
      cases quiet
      intro lease member conflicting
      exact idle lease member
        (safe.blocked u conflict (by rw [asked]; rfl) lease member conflicting)
    · rw [elsewhere u same] at quiet
      exact safe.idle u c quiet

/-- The mutex is taken when it is free, and given up by its holder. -/
theorem setMutex (safe : Safe gate) {mutex : Option Thread}
    (free : gate.mutex = none ∨ gate.mutex = some thread)
    (holds : phase.holds = true → mutex = some thread) (plain : phase.marked = false) :
    Safe ({ gate with mutex := mutex }.setPhase thread phase) := by
  have elsewhere : ∀ u, u ≠ thread →
      ({ gate with mutex := mutex }.setPhase thread phase).phase u = gate.phase u :=
    fun u different => Function.update_of_ne different ..
  have here : ({ gate with mutex := mutex }.setPhase thread phase).phase thread = phase :=
    Function.update_self ..
  have others : ∀ u, u ≠ thread → (gate.phase u).holds = false := by
    intro u different
    by_contra held
    have owns := safe.mutex u (by simpa using held)
    rcases free with none | mine
    · rw [none] at owns
      contradiction
    · rw [mine] at owns
      exact different (Option.some.inj owns).symm
  have nobody : ∀ u, (({ gate with mutex := mutex }.setPhase thread phase).phase u).marked = false := by
    intro u
    by_cases same : u = thread
    · rw [same, here, plain]
    · rw [elsewhere u same]
      by_contra marks
      have held := others u same
      rw [holds_of_marked (by simpa using marks)] at held
      contradiction
  constructor
  · intro u held
    by_cases same : u = thread
    · subst same
      rw [here] at held
      exact holds held
    · rw [elsewhere u same, others u same] at held
      contradiction
  · intro u marks
    rw [nobody u] at marks
    contradiction
  · intro u c asks
    have marks := nobody u
    rw [marked_of_draining asks] at marks
    contradiction
  · intro u c quiet
    have marks := nobody u
    rw [quiet] at marks
    contradiction

theorem step (safe : Safe gate) (event : Event R) : Safe (gate.step event) := by
  cases event with
  | construct id owner resource => exact safe.construct id owner resource
  | destroy id => exact safe.filter _
  | suspend id => exact safe.onLease id calm_suspend
  | resume id => exact safe.onLease id calm_resumed
  | disable id => exact safe.onLease id calm_disable
  | lockMetadata thread =>
    simp only [Gate.step]
    split
    · exact (safe.onCurrent thread calm_suspend).setPhase nofun rfl
    · exact safe
  | acquire thread =>
    simp only [Gate.step]
    split
    · rename_i free
      exact safe.setMutex (.inl free) (fun _ => rfl) rfl
    · exact safe
  | blockAll thread =>
    simp only [Gate.step]
    split
    · rename_i here
      exact safe.reblock (by rw [here]; rfl) (fun _ => rfl) nofun nofun
    · exact safe
  | quiesce thread conflict =>
    have blocks : (gate.phase thread).marked = true →
        Safe ((gate.setBlocked (conflicts conflict)).setPhase thread (.draining conflict)) := by
      intro marks
      have active := safe.marked thread marks
      change Safe (({ gate with transactionActive := gate.transactionActive }.setBlocked
        (conflicts conflict)).setPhase thread (.draining conflict))
      refine safe.reblock (holds_of_marked marks) (fun _ => active) ?_ nofun
      rintro _ ⟨⟩ r conflicting
      exact conflicting
    simp only [Gate.step]
    split
    · rename_i here
      exact blocks (by rw [here]; rfl)
    · rename_i here
      exact blocks (by rw [here]; rfl)
    · exact safe
  | drained thread =>
    simp only [Gate.step]
    split
    · rename_i conflict here
      split
      · exact safe
      · rename_i idle
        apply safe.drained here
        intro lease member blocked
        by_contra active
        exact idle (List.any_eq_true.mpr ⟨lease, member, by simp [blocked, active]⟩)
    · exact safe
  | unlock thread =>
    simp only [Gate.step]
    split
    · rename_i here
      exact safe.reblock (by rw [here]; rfl) nofun nofun nofun
    · rename_i here
      exact safe.reblock (by rw [here]; rfl) nofun nofun nofun
    · exact safe
  | unlockMutex thread =>
    simp only [Gate.step]
    split
    · rename_i here
      have owns := safe.mutex thread (by rw [here]; rfl)
      exact safe.setMutex (.inr owns) nofun rfl
    · exact safe
  | resumeOwn thread =>
    simp only [Gate.step]
    split
    · split
      · exact safe.setPhase nofun rfl
      · split
        · exact safe
        · exact (safe.onLease _ calm_resumed).setPhase nofun rfl
    · exact safe

end Safe

/-! ### Every interleaving -/

/-- The events with which a thread ends the period after its `quiesce`. -/
def Ends (thread : Thread) : Event R → Prop
  | .quiesce other _ | .unlock other => other = thread
  | _ => False

theorem quiet_step {event : Event R} (quiet : gate.phase thread = .quiet conflict)
    (goesOn : ¬Ends thread event) : (gate.step event).phase thread = .quiet conflict := by
  have moved : ∀ (other : Thread) (gate' : Gate R) (phase : Phase R), gate'.phase = gate.phase →
      other ≠ thread → (gate'.setPhase other phase).phase thread = .quiet conflict := by
    intro other gate' phase same different
    rw [← quiet, ← same]
    exact Function.update_of_ne different.symm ..
  have lease : ∀ (change : Lease R → Lease R) (other : Thread),
      (gate.onCurrent other change).phase = gate.phase := by
    intro change other
    unfold Gate.onCurrent
    split
    · rfl
    · rfl
  have elsewhere : ∀ {other : Thread} {phase : Phase R}, gate.phase other = phase →
      phase ≠ .quiet conflict → other ≠ thread := by
    rintro other phase here different rfl
    exact different (here.symm.trans quiet)
  cases event with
  | construct id owner resource =>
    simp only [Gate.step, Gate.construct]
    split
    · exact quiet
    · exact quiet
  | destroy | suspend | resume | disable => exact quiet
  | lockMetadata other =>
    simp only [Gate.step]
    split
    · rename_i here
      exact moved other _ _ (lease _ other) (elsewhere here nofun)
    · exact quiet
  | acquire other =>
    simp only [Gate.step]
    split
    · rename_i here _
      exact moved other _ _ rfl (elsewhere here nofun)
    · exact quiet
  | blockAll other =>
    simp only [Gate.step]
    split
    · rename_i here
      exact moved other _ _ rfl (elsewhere here nofun)
    · exact quiet
  | quiesce other _ =>
    simp only [Gate.step]
    split
    · exact moved other _ _ rfl goesOn
    · exact moved other _ _ rfl goesOn
    · exact quiet
  | drained other =>
    simp only [Gate.step]
    split
    · rename_i here
      split
      · exact quiet
      · exact moved other _ _ rfl (elsewhere here nofun)
    · exact quiet
  | unlock other =>
    simp only [Gate.step]
    split
    · exact moved other _ _ rfl goesOn
    · exact moved other _ _ rfl goesOn
    · exact quiet
  | unlockMutex other =>
    simp only [Gate.step]
    split
    · rename_i here
      exact moved other _ _ rfl (elsewhere here nofun)
    · exact quiet
  | resumeOwn other =>
    simp only [Gate.step]
    split
    · rename_i here
      split
      · exact moved other _ _ rfl (elsewhere here nofun)
      · split
        · exact quiet
        · exact moved other _ _ rfl (elsewhere here nofun)
    · exact quiet

/-- In every interleaving one thread at most has the gate, and from the return of its `quiesce`
until its next `quiesce` or `unlock` no lease is active whose resource conflicts. -/
theorem gate_quiesces (events : List (Event R)) :
    let gate := run Gate.step {} events
    (∀ thread other, (gate.phase thread).holds = true → (gate.phase other).holds = true →
      thread = other) ∧
    ∀ thread conflict, gate.phase thread = .quiet conflict →
      (∀ lease ∈ gate.leases, conflicts conflict lease.resource = true → lease.active = false) ∧
      ∀ event, ¬Ends thread event → (gate.step event).phase thread = .quiet conflict := by
  have safe : Safe (run Gate.step ({} : Gate R) events) :=
    run_invariant (fun _ event safe => safe.step event) Safe.start events
  exact ⟨fun _ _ => safe.unique, fun thread conflict quiet =>
    ⟨safe.idle thread conflict quiet, fun _ => quiet_step quiet⟩⟩

/-! ### Scalar accesses -/

/-- The pages of which a native user has a pointer. -/
structure ParallelView where
  reads : Nat → Bool
  writes : Nat → Bool

structure Access where
  index : Nat
  writing : Bool
  deriving DecidableEq, Repr

/-- The predicate of `scalar_access_lock`. -/
def scalarConflict (access : Access) : Conflict ParallelView :=
  some fun view => view.writes access.index || (access.writing && view.reads access.index)

/-- While a checked access has the gate, no active native user writes its page, and none reads
the page that it writes. -/
theorem scalar_access_exclusive (events : List (Event ParallelView)) {thread : Thread}
    {access : Access}
    (quiet : (run Gate.step ({} : Gate ParallelView) events).phase thread =
      .quiet (scalarConflict access))
    {lease : Lease ParallelView} (member : lease ∈ (run Gate.step ({} : Gate ParallelView) events).leases)
    (active : lease.active = true) :
    lease.resource.writes access.index = false ∧
      (access.writing = true → lease.resource.reads access.index = false) := by
  have safe : Safe (run Gate.step ({} : Gate ParallelView) events) :=
    run_invariant (fun _ event safe => safe.step event) Safe.start events
  have free : conflicts (scalarConflict access) lease.resource = false := by
    by_contra conflicting
    rw [safe.idle thread _ quiet lease member (by simpa using conflicting)] at active
    contradiction
  simp only [conflicts, scalarConflict, Bool.or_eq_false_iff, Bool.and_eq_false_imp] at free
  exact free

end ILEmu.Memory.GuestMemoryGate
