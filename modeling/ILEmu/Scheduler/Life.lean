import ILEmu.Scheduler.Priority

/-! The life of one thread: the part of its record that waits, holds and slices
act on, as a machine of its own. It knows no queue, no counter and no clock. -/
namespace ILEmu

structure Life where
  state : XnuThreadState
  queued : Bool
  executionPending : Bool
  wakePending : Bool
  resumeRunnable : Bool
  hostAwait : Bool
  suspendCount : Nat
  suspensionCounts : XnuThreadSuspension → Nat
  userTicks : Nat

/-- The part of a life that slices and removals act on, and waits and holds leave alone. -/
structure Account where
  inFlight : Bool
  ticks : Nat

def Life.account (l : Life) : Account := ⟨l.executionPending, l.userTicks⟩

def ThreadRecord.life (r : ThreadRecord) : Life where
  state := r.info.state
  queued := r.queued
  executionPending := r.executionPending
  wakePending := r.wakePending
  resumeRunnable := r.resumeRunnable
  hostAwait := r.hostAwait
  suspendCount := r.suspendCount
  suspensionCounts := r.suspensionCounts
  userTicks := r.userTicks

@[grind =]
theorem XnuThreadState.isRunnable_iff {state : XnuThreadState} :
    state.isRunnable = true ↔ state = .runnable ∨ state = .running := by
  cases state <;> decide

namespace Life

/-- A thread that has just been registered. -/
def fresh (runnable : Bool) : Life where
  state := if runnable then .runnable else .waiting
  queued := runnable
  executionPending := false
  wakePending := false
  resumeRunnable := false
  hostAwait := false
  suspendCount := 0
  suspensionCounts := fun _ => 0
  userTicks := 0

def makeRunnable (l : Life) : Life :=
  if l.suspendCount ≠ 0 then { l with hostAwait := false, resumeRunnable := true }
  else if l.state = .running ∨ l.queued then { l with hostAwait := false }
  else { l with hostAwait := false, state := .runnable, queued := true }

def wake (l : Life) : Life :=
  if l.hostAwait then l
  else if l.executionPending then
    { l with wakePending := true, resumeRunnable := l.resumeRunnable || l.suspendCount != 0 }
  else if l.queued ∨ l.suspendCount ≠ 0 then
    { l with resumeRunnable := l.resumeRunnable || l.suspendCount != 0 }
  else l.makeRunnable

def block (l : Life) : Life :=
  { l with
    hostAwait := false
    queued := false
    state := .waiting
    resumeRunnable := l.resumeRunnable && l.suspendCount == 0 }

def suspend (reason : XnuThreadSuspension) (l : Life) : Life :=
  if l.suspendCount = uint32Max then l
  else
    let held := { l with
      suspensionCounts := Function.update l.suspensionCounts reason (l.suspensionCounts reason + 1)
      suspendCount := l.suspendCount + 1 }
    if l.suspendCount ≠ 0 then held
    else { held with resumeRunnable := l.state.isRunnable, queued := false, state := .waiting }

def resume (reason : XnuThreadSuspension) (l : Life) : Life :=
  if l.suspensionCounts reason = 0 then l
  else
    let freed := { l with
      suspensionCounts := Function.update l.suspensionCounts reason (l.suspensionCounts reason - 1)
      suspendCount := l.suspendCount - 1 }
    if freed.suspendCount ≠ 0 then freed
    else if l.resumeRunnable then
      { freed with resumeRunnable := false, state := .runnable, queued := true }
    else if l.hostAwait then { freed with state := .hostAwait }
    else freed

def dispatch (l : Life) : Life :=
  { l with queued := false, state := .running, executionPending := true }

def charge (ticks : Nat) (l : Life) : Life :=
  { l with executionPending := false, userTicks := saturatingAdd l.userTicks ticks }

def awaitHost (l : Life) : Life :=
  { l with
    hostAwait := true
    wakePending := false
    resumeRunnable := false
    queued := false
    state := if l.suspendCount = 0 then .hostAwait else l.state }

def settle (completion : XnuSliceCompletion) (l : Life) : Life :=
  if completion = .hostAwait then l.awaitHost
  else if l.state ≠ .running then
    if l.wakePending then { l.makeRunnable with wakePending := false }
    else if completion = .block then { l.block with wakePending := false }
    else l
  else if completion = .block ∧ ¬l.wakePending then { l with state := .waiting }
  else { l with wakePending := false, state := .runnable, queued := true }

/-- A completed slice; a terminated thread has no life left. -/
def complete (ticks : Nat) (completion : XnuSliceCompletion) (l : Life) : Option Life :=
  if ¬l.executionPending then some l
  else if completion = .terminate then none
  else some ((l.charge ticks).settle completion)

/-- What holds of every thread between operations. -/
structure Sound (l : Life) : Prop where
  queued : l.queued = true ↔ l.state = .runnable
  running : l.state = .running → l.executionPending = true
  held : 0 < l.suspendCount → l.state = .waiting
  awaiting : l.hostAwait = true → l.executionPending = false ∧ l.resumeRunnable = false ∧
    (l.state = .hostAwait ∨ l.state = .waiting ∧ 0 < l.suspendCount)
  ticket : l.state = .hostAwait → l.hostAwait = true
  resume : l.resumeRunnable = true → 0 < l.suspendCount
  holds : l.suspendCount = l.suspensionCounts .user + l.suspensionCounts .process +
    l.suspensionCounts .preparation
  bounded : l.suspendCount ≤ uint32Max

theorem fresh_sound (runnable : Bool) : (fresh runnable).Sound := by
  cases runnable
  · exact ⟨by decide, nofun, nofun, nofun, nofun, nofun, rfl, by decide⟩
  · exact ⟨by decide, nofun, nofun, nofun, nofun, nofun, rfl, by decide⟩

section
variable {l : Life}

@[simp] theorem makeRunnable_account (l : Life) : l.makeRunnable.account = l.account := by
  unfold makeRunnable
  split
  · rfl
  · split
    · rfl
    · rfl

@[simp] theorem wake_account (l : Life) : l.wake.account = l.account := by
  unfold wake
  split
  · rfl
  · split
    · rfl
    · split
      · rfl
      · exact makeRunnable_account l

@[simp] theorem block_account (l : Life) : l.block.account = l.account := rfl

@[simp] theorem suspend_account (reason : XnuThreadSuspension) (l : Life) :
    (l.suspend reason).account = l.account := by
  unfold suspend
  split
  · rfl
  · dsimp only
    split
    · rfl
    · rfl

@[simp] theorem resume_account (reason : XnuThreadSuspension) (l : Life) :
    (l.resume reason).account = l.account := by
  unfold Life.resume
  split
  · rfl
  · dsimp only
    split
    · rfl
    · split
      · rfl
      · split
        · rfl
        · rfl

@[simp] theorem settle_account (completion : XnuSliceCompletion) (l : Life) :
    (l.settle completion).account = l.account := by
  unfold settle
  split
  · rfl
  · split
    · split
      · exact makeRunnable_account l
      · split
        · rfl
        · rfl
    · split
      · rfl
      · rfl

theorem makeRunnable_sound (sound : l.Sound) : l.makeRunnable.Sound := by
  obtain ⟨queued, running, held, awaiting, ticket, resume, holds, bounded⟩ := sound
  unfold makeRunnable
  split
  · constructor <;> grind
  · split
    · constructor <;> grind
    · constructor <;> grind

theorem wake_sound (sound : l.Sound) : l.wake.Sound := by
  have woken := makeRunnable_sound sound
  unfold wake
  split
  · exact sound
  · obtain ⟨queued, running, held, awaiting, ticket, resume, holds, bounded⟩ := sound
    split
    · constructor <;> grind
    · split
      · constructor <;> grind
      · exact woken

theorem block_sound (sound : l.Sound) : l.block.Sound := by
  obtain ⟨queued, running, held, awaiting, ticket, resume, holds, bounded⟩ := sound
  unfold block
  constructor <;> grind

theorem suspend_sound (reason : XnuThreadSuspension) (sound : l.Sound) :
    (l.suspend reason).Sound := by
  obtain ⟨queued, running, held, awaiting, ticket, resume, holds, bounded⟩ := sound
  unfold suspend
  split
  · constructor <;> assumption
  · have added : l.suspendCount + 1 =
        Function.update l.suspensionCounts reason (l.suspensionCounts reason + 1) .user +
        Function.update l.suspensionCounts reason (l.suspensionCounts reason + 1) .process +
        Function.update l.suspensionCounts reason (l.suspensionCounts reason + 1) .preparation := by
      cases reason <;> simp [Function.update] <;> omega
    split
    · constructor <;> grind
    · constructor <;> grind

theorem resume_sound (reason : XnuThreadSuspension) (sound : l.Sound) :
    (l.resume reason).Sound := by
  obtain ⟨queued, running, held, awaiting, ticket, resume, holds, bounded⟩ := sound
  unfold Life.resume
  split
  · constructor <;> assumption
  · have removed : l.suspendCount - 1 =
        Function.update l.suspensionCounts reason (l.suspensionCounts reason - 1) .user +
        Function.update l.suspensionCounts reason (l.suspensionCounts reason - 1) .process +
        Function.update l.suspensionCounts reason (l.suspensionCounts reason - 1) .preparation := by
      cases reason <;> simp [Function.update] <;> omega
    dsimp only
    split
    · constructor <;> grind
    · split
      · constructor <;> grind
      · split
        · constructor <;> grind
        · constructor <;> grind

theorem dispatch_sound (sound : l.Sound) (queued : l.queued = true) : l.dispatch.Sound := by
  obtain ⟨placed, running, held, awaiting, ticket, resume, holds, bounded⟩ := sound
  unfold dispatch
  constructor <;> grind

/-- A slice can be in flight only while no host ticket is out. -/
theorem Sound.no_ticket (sound : l.Sound) (pending : l.executionPending = true) :
    l.hostAwait = false := by
  by_contra awaiting
  have := (sound.awaiting (by simpa using awaiting)).1
  rw [pending] at this
  contradiction

theorem Sound.unqueued (sound : l.Sound) (waiting : l.state = .waiting) : l.queued = false := by
  by_contra queued
  rw [sound.queued.mp (by simpa using queued)] at waiting
  contradiction

/-- A life whose slice has been charged: sound, but for a state that may still be running. -/
structure Charged (l : Life) : Prop where
  queued : l.queued = true ↔ l.state = .runnable
  held : 0 < l.suspendCount → l.state = .waiting
  idle : l.executionPending = false
  free : l.hostAwait = false
  visible : l.state ≠ .hostAwait
  resume : l.resumeRunnable = true → 0 < l.suspendCount
  holds : l.suspendCount = l.suspensionCounts .user + l.suspensionCounts .process +
    l.suspensionCounts .preparation
  bounded : l.suspendCount ≤ uint32Max

theorem Sound.charge (sound : l.Sound) (pending : l.executionPending = true) (ticks : Nat) :
    (l.charge ticks).Charged := by
  have free := sound.no_ticket pending
  have visible : l.state ≠ .hostAwait := by
    intro here
    rw [sound.ticket here] at free
    contradiction
  exact { sound with idle := rfl, free, visible }

theorem Charged.sound (charged : l.Charged) (still : l.state ≠ .running) : l.Sound := by
  obtain ⟨queued, held, idle, free, visible, resume, holds, bounded⟩ := charged
  constructor
  · exact queued
  · exact fun running => absurd running still
  · exact held
  · simp [free]
  · exact fun here => absurd here visible
  · exact resume
  · exact holds
  · exact bounded

theorem Charged.awaitHost (charged : l.Charged) : l.awaitHost.Sound := by
  obtain ⟨queued, held, idle, free, visible, resume, holds, bounded⟩ := charged
  unfold Life.awaitHost
  by_cases unheld : l.suspendCount = 0
  · simp only [unheld, if_true]
    exact ⟨by simp, by simp, by simp, by simp [idle], by simp, by simp, unheld ▸ holds,
      Nat.zero_le _⟩
  · have waiting := held (Nat.pos_of_ne_zero unheld)
    simp only [unheld, if_false]
    exact ⟨by simp [waiting], by simp [waiting], by simp [waiting],
      by simp [idle, waiting, Nat.pos_of_ne_zero unheld], by simp [waiting], by simp, holds, bounded⟩

/-- A thread that was still running when its slice was charged is not held. -/
theorem Charged.unheld (charged : l.Charged) (running : l.state = .running) :
    l.suspendCount = 0 := by
  by_contra held
  have waiting := charged.held (Nat.pos_of_ne_zero held)
  rw [running] at waiting
  contradiction

theorem Charged.waits (charged : l.Charged) (running : l.state = .running) :
    Sound { l with state := .waiting } := by
  have unqueued : l.queued = false := by
    by_contra queued
    have runnable := charged.queued.mp (by simpa using queued)
    rw [running] at runnable
    contradiction
  constructor
  · simp [unqueued]
  · exact nofun
  · exact fun _ => rfl
  · simp [charged.free]
  · exact nofun
  · exact charged.resume
  · exact charged.holds
  · exact charged.bounded

theorem Charged.goesOn (charged : l.Charged) (running : l.state = .running) :
    Sound { l with wakePending := false, state := .runnable, queued := true } := by
  have unheld := charged.unheld running
  constructor
  · simp
  · exact nofun
  · simp [unheld]
  · simp [charged.free]
  · exact nofun
  · exact charged.resume
  · exact charged.holds
  · exact charged.bounded

theorem settle_held {completion : XnuSliceCompletion} (guest : completion ≠ .hostAwait)
    (held : l.state ≠ .running) :
    l.settle completion =
      if l.wakePending then { l.makeRunnable with wakePending := false }
      else if completion = .block then { l.block with wakePending := false }
      else l :=
  (if_neg guest).trans (if_pos held)

theorem settle_running {completion : XnuSliceCompletion} (guest : completion ≠ .hostAwait)
    (running : l.state = .running) :
    l.settle completion =
      if completion = .block ∧ ¬l.wakePending then { l with state := .waiting }
      else { l with wakePending := false, state := .runnable, queued := true } :=
  (if_neg guest).trans (if_neg fun held => held running)

theorem Charged.settle (charged : l.Charged) (completion : XnuSliceCompletion) :
    (l.settle completion).Sound := by
  by_cases host : completion = .hostAwait
  · unfold Life.settle
    rw [if_pos host]
    exact charged.awaitHost
  · by_cases running : l.state = .running
    · rw [settle_running host running]
      split
      · exact charged.waits running
      · exact charged.goesOn running
    · have sound := charged.sound running
      rw [settle_held host running]
      split
      · exact { makeRunnable_sound sound with }
      · split
        · exact { block_sound sound with }
        · exact sound

theorem complete_sound (ticks : Nat) (completion : XnuSliceCompletion) (sound : l.Sound) :
    ∀ l' ∈ l.complete ticks completion, l'.Sound := by
  intro l' left
  unfold complete at left
  split at left
  · exact Option.some.inj left ▸ sound
  · rename_i pending
    split at left
    · contradiction
    · exact Option.some.inj left ▸ (sound.charge (by simpa using pending) ticks).settle completion

end
end Life
end ILEmu
