import Mathlib.Data.List.MinMax

/-! The signal masks and pending signals of the threads of a process. -/
namespace ILEmu

/-- A signal is the bit below its number. -/
abbrev SignalSet := BitVec 32

namespace Signal

def count : Nat := 32
def kill : Nat := 9
def stop : Nat := 17
def resume : Nat := 19

def bit (signal : Nat) : SignalSet := BitVec.twoPow 32 (signal - 1)

end Signal

namespace SignalSet

def has (set : SignalSet) (signal : Nat) : Bool := set.getLsbD (signal - 1)

/-- `countr_zero + 1`, of a set that is not empty. -/
def lowest (set : SignalSet) : Nat := set.ctz.toNat + 1

/-- The signals of a set as a loop over its lowest bits finds them. -/
def signals (set : SignalSet) : List Nat :=
  ((List.range 32).filter fun i => set.getLsbD i).map (· + 1)

def unmaskable : SignalSet := Signal.bit Signal.kill ||| Signal.bit Signal.stop

def stopMask : SignalSet := Signal.bit 17 ||| Signal.bit 18 ||| Signal.bit 21 ||| Signal.bit 22

def continueMask : SignalSet := Signal.bit 19

variable {set other : SignalSet} {signal : Nat}

theorem has_or : (set ||| other).has signal = (set.has signal || other.has signal) :=
  BitVec.getLsbD_or

theorem has_and : (set &&& other).has signal = (set.has signal && other.has signal) :=
  BitVec.getLsbD_and

theorem has_and_not :
    (set &&& ~~~other).has signal = (set.has signal && !other.has signal) := by
  unfold has
  rw [BitVec.getLsbD_and, BitVec.getLsbD_not]
  by_cases inside : signal - 1 < 32
  · rw [decide_eq_true inside, Bool.true_and]
  · have beyond : set.getLsbD (signal - 1) = false := BitVec.getLsbD_of_ge set _ (by omega)
    rw [beyond, Bool.false_and, Bool.false_and]

/-- What gets through a mask that leaves two sets open, or is awaited. -/
theorem has_open {one two awaited : SignalSet} :
    (set &&& (~~~(~~~one &&& ~~~two) ||| awaited)).has signal = true ↔
      set.has signal = true ∧
        (one.has signal = true ∨ two.has signal = true ∨ awaited.has signal = true) := by
  unfold has
  by_cases inside : signal - 1 < 32
  · simp only [BitVec.getLsbD_and, BitVec.getLsbD_or, BitVec.getLsbD_not, decide_eq_true inside,
      Bool.true_and, Bool.not_and, Bool.not_not, Bool.and_eq_true, Bool.or_eq_true, or_assoc]
  · have beyond : set.getLsbD (signal - 1) = false := BitVec.getLsbD_of_ge set _ (by omega)
    rw [BitVec.getLsbD_and, beyond, Bool.false_and]
    simp

theorem has_bit {other : Nat} (valid : other ≤ 32) (positive : 0 < signal) (positive' : 0 < other) :
    (Signal.bit other).has signal = decide (signal = other) := by
  unfold has Signal.bit
  rw [BitVec.getLsbD_twoPow]
  have bound : other - 1 < 32 := by omega
  rw [decide_eq_true bound, Bool.true_and]
  apply decide_eq_decide.mpr
  omega

theorem mem_signals : signal ∈ set.signals ↔ 0 < signal ∧ set.has signal = true := by
  unfold signals has
  rw [List.mem_map]
  constructor
  · rintro ⟨i, member, rfl⟩
    exact ⟨Nat.succ_pos i, (List.mem_filter.mp member).2⟩
  · rintro ⟨positive, inside⟩
    refine ⟨signal - 1, List.mem_filter.mpr ⟨List.mem_range.mpr ?_, inside⟩, by omega⟩
    exact BitVec.lt_of_getLsbD inside

end SignalSet

structure SignalThread where
  mask : SignalSet
  savedMask : Option SignalSet := none
  active : Bool := false
  pending : SignalSet := 0
  order : Nat := 0
  waitMask : SignalSet := 0
  deriving DecidableEq, Repr

/-- The first two flags tell the versions of the system apart. -/
structure DarwinSignalState where
  waitConsumesOwner : Bool
  waitReportsInterrupt : Bool
  nextOrder : Nat := 2
  threads : List SignalThread := [{ mask := 0, active := true, order := 1 }]
  deriving DecidableEq, Repr

inductive SignalScope where
  | thread | process
  deriving DecidableEq, Repr

/-- The three ways to change a mask. -/
inductive MaskChange where
  | block | unblock | set
  deriving DecidableEq, Repr

namespace DarwinSignalState
variable (state : DarwinSignalState) (processor : Nat)

def thread : Option SignalThread := state.threads[processor]?

def mask : SignalSet := (state.thread processor).elim 0 (·.mask)

def pending : SignalSet := (state.thread processor).elim 0 (·.pending)

def waitingFor : SignalSet := (state.thread processor).elim 0 (·.waitMask)

def ready : SignalSet :=
  state.pending processor &&& (~~~state.mask processor ||| state.waitingFor processor)

/-- What is in the place of a thread is changed. -/
def edit (change : SignalThread → SignalThread) : DarwinSignalState :=
  { state with threads := state.threads.modify processor change }

def initializeThread (value : SignalSet) : DarwinSignalState :=
  let threads := state.threads ++
    List.replicate (processor + 1 - state.threads.length) { mask := 0 }
  { state with
    threads := threads.set processor
      { mask := value &&& ~~~SignalSet.unmaskable, active := true, order := state.nextOrder }
    nextOrder := state.nextOrder + 1 }

def MaskChange.apply (change : MaskChange) (value : SignalSet) (thread : SignalThread) :
    SignalThread :=
  let mask :=
    match change with
    | .block => thread.mask ||| value
    | .unblock => thread.mask &&& ~~~value
    | .set => value
  { thread with mask := mask &&& ~~~SignalSet.unmaskable }

def update (change : MaskChange) (value : SignalSet) (scope : SignalScope) : DarwinSignalState :=
  let ready :=
    if (state.thread processor).any (·.active) then state else state.initializeThread processor 0
  match scope with
  | .thread => ready.edit processor (MaskChange.apply change value)
  | .process =>
    { ready with
      threads := ready.threads.map fun thread =>
        if thread.active then MaskChange.apply change value thread else thread }

def suspend (value : SignalSet) : DarwinSignalState :=
  let previous := state.mask processor
  (state.update processor .set value .thread).edit processor fun thread =>
    { thread with savedMask := some previous }

def resume : DarwinSignalState :=
  state.edit processor fun thread =>
    { thread with mask := thread.savedMask.getD thread.mask, savedMask := none, waitMask := 0 }

def beginWait (signals : SignalSet) : DarwinSignalState :=
  (state.suspend processor (~~~signals)).edit processor fun thread =>
    { thread with waitMask := signals }

def consume (bits : SignalSet) : DarwinSignalState :=
  state.edit processor fun thread => { thread with pending := thread.pending &&& ~~~bits }

def acceptWaitSignal (bit : SignalSet) : DarwinSignalState :=
  (state.edit processor fun thread => { thread with waitMask := bit }).consume processor bit

/-- What `queue` takes from the pending signals: stops and continues cancel each other. -/
def opposed (bit : SignalSet) : SignalSet :=
  (if bit &&& SignalSet.continueMask ≠ 0 then SignalSet.stopMask else 0) |||
    (if bit &&& SignalSet.stopMask ≠ 0 then SignalSet.continueMask else 0)

def queue (bit : SignalSet) : DarwinSignalState :=
  state.edit processor fun thread =>
    if thread.active then
      { thread with pending := (thread.pending &&& ~~~opposed bit) ||| bit }
    else thread

/-- The thread with one of the signals pending that has been active longest. -/
def owner (signals : SignalSet) : Option Nat :=
  ((List.range state.threads.length).filter fun i => state.pending i &&& signals ≠ 0).argmin
    fun i => (state.thread i).elim 0 (·.order)

def takePending (signals : SignalSet) : Option (Nat × DarwinSignalState) :=
  (state.owner signals).map fun owner =>
    let signal := SignalSet.lowest (state.pending owner &&& signals)
    (signal, state.consume (if state.waitConsumesOwner then owner else processor)
      (Signal.bit signal))

/-- The thread that a signal of the process goes to. -/
def select (bit : SignalSet) (eligible : Nat → Bool) : Option Nat :=
  let active := (List.range state.threads.length).filter fun i =>
    (state.thread i).any (·.active)
  let order := fun i => (state.thread i).elim 0 (·.order)
  let unblocked := active.filter fun i =>
    eligible i && (state.mask i &&& bit = 0 || state.waitingFor i &&& bit ≠ 0)
  (unblocked.argmin order).or (active.argmin order)

variable {state processor}

theorem thread_edit (change : SignalThread → SignalThread) (other : Nat) :
    (state.edit processor change).thread other =
      if other = processor then (state.thread other).map change else state.thread other := by
  unfold edit thread
  rw [List.getElem?_modify]
  by_cases same : processor = other
  · simp [same]
  · simp [same, Ne.symm same]

theorem thread_edit_self {thread : SignalThread} (found : state.thread processor = some thread)
    (change : SignalThread → SignalThread) :
    (state.edit processor change).thread processor = some (change thread) := by
  rw [thread_edit, if_pos rfl, found, Option.map_some]

theorem thread_edit_other {other : Nat} (different : other ≠ processor)
    (change : SignalThread → SignalThread) :
    (state.edit processor change).thread other = state.thread other := by
  rw [thread_edit, if_neg different]

theorem pending_of_thread {thread : SignalThread}
    (found : state.thread processor = some thread) : state.pending processor = thread.pending := by
  rw [pending, found, Option.elim_some]

theorem waitingFor_of_thread {thread : SignalThread}
    (found : state.thread processor = some thread) :
    state.waitingFor processor = thread.waitMask := by
  rw [waitingFor, found, Option.elim_some]

theorem mask_of_thread {thread : SignalThread}
    (found : state.thread processor = some thread) : state.mask processor = thread.mask := by
  rw [mask, found, Option.elim_some]

theorem takePending_none {signals : SignalSet}
    (nothing : state.takePending processor signals = none) :
    state.pending processor &&& signals = 0 := by
  have nobody := List.argmin_eq_none.mp (Option.map_eq_none_iff.mp nothing)
  by_contra some
  have member : processor ∈ List.range state.threads.length := by
    rw [List.mem_range]
    by_contra beyond
    apply some
    have outside : state.thread processor = none := List.getElem?_eq_none (Nat.le_of_not_lt beyond)
    rw [pending, outside, Option.elim_none]
    exact BitVec.zero_and
  have empty := List.filter_eq_nil_iff.mp nobody processor member
  exact empty (decide_eq_true some)

theorem initializeThread_self (value : SignalSet) :
    (state.initializeThread processor value).thread processor =
      some { mask := value &&& ~~~SignalSet.unmaskable, active := true, order := state.nextOrder } := by
  unfold initializeThread thread
  simp only
  rw [List.getElem?_set_self]
  rw [List.length_append, List.length_replicate]
  omega

/-- The thread of a wait that has begun: it is active, and what was pending is no more than
what had been. -/
theorem beginWait_thread (signals : SignalSet) :
    ∃ thread, (state.beginWait processor signals).thread processor = some thread ∧
      thread.active = true ∧ thread.mask = ~~~signals &&& ~~~SignalSet.unmaskable ∧
      thread.savedMask = some (state.mask processor) ∧ thread.waitMask = signals ∧
      (thread.pending = state.pending processor ∨ thread.pending = 0) := by
  have edited : ∀ (ready : DarwinSignalState) (thread : SignalThread),
      ready.thread processor = some thread →
      (((ready.edit processor (MaskChange.apply .set (~~~signals))).edit processor fun thread =>
        { thread with savedMask := some (state.mask processor) }).edit processor fun thread =>
        { thread with waitMask := signals }).thread processor =
      some { thread with
        mask := ~~~signals &&& ~~~SignalSet.unmaskable
        savedMask := some (state.mask processor)
        waitMask := signals } := by
    intro ready thread found
    exact thread_edit_self (thread_edit_self (thread_edit_self found _) _) _
  unfold beginWait suspend update
  by_cases ready : (state.thread processor).any (·.active) = true
  · obtain ⟨thread, found, active⟩ := (Option.any_eq_true _ _).mp ready
    rw [if_pos ready]
    exact ⟨_, edited state thread found, active, rfl, rfl, rfl, .inl (pending_of_thread found).symm⟩
  · rw [if_neg ready]
    exact ⟨_, edited _ _ (initializeThread_self 0), rfl, rfl, rfl, rfl, .inr rfl⟩

end DarwinSignalState
end ILEmu
