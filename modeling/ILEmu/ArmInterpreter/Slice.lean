import ILEmu.Arm64.InstructionWindow

/-! A slice of the reference interpreter: the loop that polls, fetches, decodes, times and executes
one instruction after the other. -/
namespace ILEmu.ArmInterpreter
open Arm hiding Instruction InstructionKind StopReason
open Arm64

/-! ### Requests and results -/

namespace StopReason

def tickBudget : Word := 1
def singleStep : Word := 2
def hostDeadline : Word := 4
def svc : Word := 32
def fetchFault : Word := 64
def unsupportedInstruction : Word := 128
def invalidTiming : Word := 256
def dataFault : Word := 512
def breakpoint : Word := 1024
def backendSwitch : Word := 2048

/-- The reason of an access that has not completed. -/
def ofCompletion : Arm.StopReason → Word
  | .none => 0
  | .dataFault => dataFault
  | .unsupportedInstruction => unsupportedInstruction

end StopReason

structure RunRequest where
  tickBudget : Nat
  singleStep : Bool := false
  blockEndPc : Option Word := none
  stopAtControlFlow : Bool := false

/-- What the host asks for at each poll: reasons to stop, and whether the deadline has come. -/
structure Host where
  stops : Nat → Word := fun _ => 0
  deadline : Nat → Bool := fun _ => false

structure RunResult where
  reason : Word := 0
  ticksConsumed : Nat := 0
  svc : Option Word := none
  pc : Word := 0
  instruction : Option Word := none
  memoryFault : Option MemoryFault := none
  deriving DecidableEq, Repr

/-! ### Fetching -/

/-- A source that prepares fetches, and knows how far a leased view reaches that needs no
preparation. -/
structure LeasedSource extends InstructionSource where
  prepareInstructionFetch : Word → Nat → Option MemoryFault := fun _ _ => none
  cachedContinuation : Word → Option InstructionRegion := fun _ => none

namespace LeasedSource
variable (source : LeasedSource)

def decodeThumb (first : BitVec 16) (second : Option (BitVec 16)) (it : Word) : Instruction :=
  { source.decodeT32 first second it with size := if thumbIsWide first then 4 else 2 }

def decodeArm (word : Word) : Instruction := { source.decodeA32 word with size := 4 }

def prepare (prepares : Bool) (pc : Word) (size : Nat) : Option MemoryFault :=
  if prepares then source.prepareInstructionFetch pc size else none

/-- A word with its instruction, or the fault of its preparation, if that is what failed. -/
def fetch (prepares : Bool) (pc : Word) (thumb : Bool) (it : Word) :
    Option MemoryFault ⊕ Word × Instruction :=
  match source.prepare prepares pc (if thumb then 2 else 4) with
  | some fault => .inl (some fault)
  | none =>
    if thumb then
      match source.fetch16 pc with
      | none => .inl none
      | some first =>
        if thumbIsWide first then
          match source.prepare prepares (pc + 2) 2 with
          | some fault => .inl (some fault)
          | none =>
            match source.fetch16 (pc + 2) with
            | none => .inl none
            | some second =>
              .inr (second ++ first, source.decodeThumb first (some second) it)
        else .inr (first.setWidth 32, source.decodeThumb first none it)
    else
      match source.fetch32 pc with
      | none => .inl none
      | some word => .inr (word, source.decodeArm word)

def ticks (thumb : Bool) (pc word : Word) : Nat :=
  if source.supportsMixedInstructionTiming then source.mixedTicksForInstruction thumb pc word
  else source.ticksForInstruction pc word

end LeasedSource

/-- A lease with an inspectable view, in the mode that it was acquired for. -/
structure Lease where
  region : InstructionRegion
  thumb : Bool
  instructions : Nat

/-- Loops over registers must release pending writers of memory. -/
def leaseLimit : Nat := 32

def Lease.reuses (mixedTiming : Bool) (lease : Lease) (pc : Word) (thumb : Bool) : Bool :=
  decide (lease.instructions < leaseLimit) && (thumb == lease.thumb || mixedTiming) &&
    decide (lease.region.begin ≤ pc.toNat) && decide (pc.toNat + 4 ≤ lease.region.finish)

/-- The instructions that give a lease back before they access memory, and the barriers. -/
def resetsLease (inst : Instruction) : Bool :=
  match inst.kind with
  | .clearExclusive | .swap | .exclusiveTransfer | .vectorTransfer _ | .multipleTransfer
  | .tableBranch | .dualTransfer | .transfer => true
  | .systemControl =>
    match inst.system with
    | .programStatusRegister | .threadPointerReadWrite | .threadPointerReadOnly => false
    | _ => true
  | _ => false

/-! ### A turn of the loop -/

/-- The variables of the loop. -/
structure Slice where
  guest : Guest
  ticksConsumed : Nat := 0
  instructions : Nat := 0
  lease : Option Lease := none

/-- What stays the same during a slice. -/
structure Run where
  units : Units
  profile : Profile
  source : LeasedSource
  request : RunRequest
  host : Host := {}
  instructionLimit : Nat := 2 ^ 64 - 1

/-- The mode of a user and no Java state, and no IT block outside of Thumb. -/
def modeSupported (cpsr : Word) : Bool :=
  decide (cpsr &&& (0x0100001f : Word) = 0x10) && (thumb cpsr || decide (itState cpsr = 0))

def aligned (pc : Word) (thumb : Bool) : Bool := decide (pc &&& (if thumb then 1 else 3) = 0)

namespace Run
variable (run : Run)

def polled (slice : Slice) : Word :=
  run.host.stops slice.instructions |||
    (if run.request.tickBudget ≤ slice.ticksConsumed ∧ run.request.singleStep = false then
      StopReason.tickBudget else 0) |||
    if run.host.deadline slice.instructions then StopReason.hostDeadline else 0

def single (reason : Word) : Word :=
  if run.request.singleStep then reason ||| StopReason.singleStep else reason

/-- Whether a request for a block ends with an instruction that has retired. -/
def leavesBlock (inst : Instruction) (pc : Word) (thumb : Bool) (after : CpuThreadState) : Bool :=
  run.request.stopAtControlFlow &&
    (decide (after.registers programCounter ≠ pc + BitVec.ofNat 32 inst.size) ||
      (ArmInterpreter.thumb after.cpsr != thumb) ||
      decide (run.request.blockEndPc = some (after.registers programCounter)))

/-- The end of a turn whose instruction has been fetched. -/
def finish (slice : Slice) (lease : Option Lease) (word : Word) (inst : Instruction) :
    Slice ⊕ Guest × RunResult :=
  let guest := slice.guest
  let pc := guest.state.registers programCounter
  let result : RunResult :=
    { ticksConsumed := slice.ticksConsumed, pc, instruction := some word }
  let passed := conditionPassed inst.condition guest.state.cpsr
  if inst.condition = 15 ∨ (passed = true ∧ refused run.units run.profile inst guest = true) then
    .inr (guest, { result with reason := StopReason.unsupportedInstruction })
  else
    let ticks := run.source.ticks (thumb guest.state.cpsr) pc word
    if ticks = 0 ∨ 2 ^ 64 - 1 - slice.ticksConsumed < ticks then
      .inr (guest, { result with reason := StopReason.invalidTiming })
    else
      let paid : RunResult := { result with ticksConsumed := slice.ticksConsumed + ticks }
      match step run.units run.profile inst guest with
      | (after, .svc immediate) =>
        .inr (after, { paid with reason := run.single StopReason.svc, svc := some immediate })
      | (after, .breakpoint) =>
        .inr (after, { paid with reason := run.single StopReason.breakpoint })
      | (after, .stopped completion) =>
        .inr (after,
          { result with
            reason := StopReason.ofCompletion completion.reason
            memoryFault := completion.fault })
      | (after, .retired) =>
        if run.request.singleStep then
          .inr (after,
            { paid with
              reason := StopReason.singleStep
              pc := after.state.registers programCounter })
        else if run.leavesBlock inst pc (thumb guest.state.cpsr) after.state then
          .inr (after,
            { paid with
              reason := StopReason.backendSwitch
              pc := after.state.registers programCounter })
        else
          .inl
            { guest := after
              ticksConsumed := slice.ticksConsumed + ticks
              instructions := slice.instructions + 1
              lease := if passed && resetsLease inst then none else lease }

/-- The lease that a fetch goes through: the old one, or a new one that is acquired after it. -/
def leaseAfter (slice : Slice) (pc : Word) (thumb : Bool) : Bool × Option Lease :=
  match slice.lease with
  | some lease =>
    if lease.reuses run.source.supportsMixedInstructionTiming pc thumb then
      (true, some { lease with instructions := lease.instructions + 1 })
    else (false, (run.source.cachedContinuation pc).map fun region => ⟨region, thumb, 1⟩)
  | none => (false, (run.source.cachedContinuation pc).map fun region => ⟨region, thumb, 1⟩)

/-- A turn of the loop: it goes on, or the slice ends with a result. -/
def next (slice : Slice) : Slice ⊕ Guest × RunResult :=
  let guest := slice.guest
  let pc := guest.state.registers programCounter
  let thumb := thumb guest.state.cpsr
  let result : RunResult := { ticksConsumed := slice.ticksConsumed, pc }
  if run.polled slice ≠ 0 then .inr (guest, { result with reason := run.polled slice })
  else if slice.instructions = run.instructionLimit then .inr (guest, result)
  else if !modeSupported guest.state.cpsr then
    .inr (guest, { result with reason := StopReason.unsupportedInstruction })
  else if !aligned pc thumb then .inr (guest, { result with reason := StopReason.fetchFault })
  else
    match run.leaseAfter slice pc thumb with
    | (reuse, lease) =>
      match run.source.fetch (!reuse) pc thumb (itState guest.state.cpsr) with
      | .inl fault =>
        .inr (guest, { result with reason := StopReason.fetchFault, memoryFault := fault })
      | .inr (word, inst) => run.finish slice lease word inst

/-- The slice with a bound on its turns, or `none` if it has not ended within them. -/
def runSlice : Nat → Slice → Option (Guest × RunResult)
  | 0, _ => none
  | turns + 1, slice =>
    match run.next slice with
    | .inl slice => runSlice turns slice
    | .inr ended => some ended

/-- The slice after some turns, if all of them go on. -/
def after : Nat → Slice → Option Slice
  | 0, slice => some slice
  | turns + 1, slice =>
    match run.next slice with
    | .inl slice => after turns slice
    | .inr _ => none

variable {run}

@[simp] theorem after_zero (slice : Slice) : run.after 0 slice = some slice := rfl

theorem after_succ {slice next : Slice} (onward : run.next slice = .inl next) (turns : Nat) :
    run.after (turns + 1) slice = run.after turns next := by
  simp only [after, onward]

theorem runSlice_succ {slice next : Slice} (onward : run.next slice = .inl next) (turns : Nat) :
    run.runSlice (turns + 1) slice = run.runSlice turns next := by
  simp only [runSlice, onward]

theorem runSlice_after {turns : Nat} {slice later : Slice}
    (reached : run.after turns slice = some later) (more : Nat) : run.runSlice (turns + more) slice = run.runSlice more later := by
  induction turns generalizing slice with
  | zero =>
    cases reached
    rw [Nat.zero_add]
  | succ turns ih =>
    cases turn : run.next slice with
    | inl next =>
      rw [after_succ turn] at reached
      rw [Nat.succ_add, runSlice_succ turn, ih reached]
    | inr ended =>
      simp only [after, turn] at reached
      contradiction

end Run
end ILEmu.ArmInterpreter
