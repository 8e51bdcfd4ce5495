import ILEmu.ArmInterpreter.Arithmetic
import ILEmu.ArmMemory.Restart

/-! One instruction of the reference interpreter, from its decoded form on. -/
namespace ILEmu.ArmInterpreter
open Arm ArmMemory

/-- The whole of what a guest thread works on. -/
structure Guest extends Machine where
  fpscr : Word := 0
  threadPointerUserRw : Word := 0
  cthreadSelf : Option Word := none

/-- The extension registers and the status of the floating point unit. -/
structure ExtensionState where
  registers : Nat → Word
  fpscr : Word

/-- The units whose calculations are parameters: a family of vector or floating instructions
reads core registers and the extension state, and changes the extension state; an exclusive
access may do what it likes with the guest. -/
structure Units where
  extension : InstructionKind → (Register → Word) → ExtensionState → ExtensionState
  arithmeticControls : Encoding → Word
  exclusive : Instruction → Guest → Guest × Completion

/-- What the source of the instructions lets the interpreter know. -/
structure Profile where
  memory : MemoryProfile := {}
  access : MemoryAccess := .present
  interworking : Bool := true
  fpscrWriteMask : Word := 0xffffffff

inductive Outcome where
  | retired
  | stopped (completion : Completion)
  | svc (immediate : Word)
  | breakpoint
  deriving DecidableEq, Repr

def floatingVectorControls : Word := 0x00370000
def floatingExceptionEnables : Word := 0x00009f00
def floatingComparisonControls : Word := 0x00008100

/-! ### Data processing -/

def readRegister (state : CpuThreadState) (register : Register) (inst : Instruction) : Word :=
  if register ≠ programCounter then state.registers register
  else
    let pc := state.registers programCounter + inst.pcOffset
    if inst.alignPc then pc &&& ~~~3 else pc

def shiftedOperand (state : CpuThreadState) (inst : Instruction) : ShiftResult :=
  if inst.immediateOperand then
    { value := inst.immediate
      carry := if inst.shiftAmount = 0 then carry state.cpsr else inst.immediate.getLsbD 31 }
  else
    shift (readRegister state inst.rm inst) inst.shift
      (if inst.registerShift then (state.registers inst.rs &&& (255 : Word)).toNat
        else inst.shiftAmount)
      (carry state.cpsr) inst.registerShift

def dataProcessing (state : CpuThreadState) (inst : Instruction) : AluResult :=
  calculateAlu inst.opcode inst.setFlags (readRegister state inst.rn inst)
    (shiftedOperand state inst) state.cpsr

def aluWritesPc (inst : Instruction) : Bool :=
  decide (inst.kind = .dataProcessing) && decide (inst.rd = programCounter) &&
    !isTest inst.opcode

structure PcWrite where
  address : Word
  thumb : Bool
  deriving DecidableEq, Repr

def setThumb (cpsr : Word) (thumb : Bool) : Word := setFlag cpsr 5 thumb

def aluWritePc (value : Word) (thumb interworking : Bool) : Option PcWrite :=
  if !thumb && interworking then
    if value &&& 3 = 2 then none
    else
      let thumb := value.getLsbD 0
      some { address := value &&& if thumb then ~~~1 else ~~~3, thumb }
  else some { address := value &&& if thumb then ~~~1 else ~~~3, thumb }

/-! ### What an instruction does when its condition has passed -/

section
variable (units : Units) (profile : Profile)

/-- The instructions that are refused before they are timed. -/
def refused (inst : Instruction) (guest : Guest) : Bool :=
  let state := guest.state
  match inst.kind with
  | .unsupported => true
  | .floatingArithmetic operands => guest.fpscr &&& units.arithmeticControls operands ≠ 0
  | .floatingImmediate _ => guest.fpscr &&& floatingVectorControls ≠ 0
  | .floatingComparison _ => guest.fpscr &&& floatingComparisonControls ≠ 0
  | .floatingConversion _ => guest.fpscr &&& floatingExceptionEnables ≠ 0
  | .branchExchange => readRegister state inst.rm inst &&& 3 = 2
  | .dataProcessing =>
    aluWritesPc inst &&
      (aluWritePc (dataProcessing state inst).value (thumb state.cpsr) profile.interworking).isNone
  | _ => false

def Guest.setRegister (guest : Guest) (register : Register) (value : Word) : Guest :=
  { guest with state := guest.state.setRegister register value }

def Guest.setCpsr (guest : Guest) (cpsr : Word) : Guest :=
  { guest with state := { guest.state with cpsr } }

def Guest.setMachine (guest : Guest) (machine : Machine) : Guest :=
  { guest with toMachine := machine }

def Guest.extension (guest : Guest) : ExtensionState where
  registers := guest.state.extensionRegisters
  fpscr := guest.fpscr

def Guest.setExtension (guest : Guest) (extension : ExtensionState) : Guest :=
  { guest with
    state := { guest.state with extensionRegisters := extension.registers }
    fpscr := extension.fpscr }

def floatingSystem (operands : FloatingSystemOperands) (guest : Guest) : Guest :=
  if !operands.toCore then
    { guest with fpscr := guest.state.registers operands.core &&& profile.fpscrWriteMask }
  else if operands.core = programCounter then
    guest.setCpsr ((guest.state.cpsr &&& (0x0fffffff : Word)) |||
      (guest.fpscr &&& (0xf0000000 : Word)))
  else guest.setRegister operands.core guest.fpscr

def readProgramStatus (cpsr : Word) : Word := cpsr &&& (0xf8ff03df : Word)

def programStatusWriteMask (bytes : Nat) : Word :=
  (if bytes.testBit 3 then (0xf8000000 : Word) else 0) |||
    (if bytes.testBit 2 then (0x000f0000 : Word) else 0) |||
    if bytes.testBit 1 then (0x00000200 : Word) else 0

def systemControl (inst : Instruction) (guest : Guest) : Guest :=
  let state := guest.state
  match inst.system with
  | .programStatusRegister =>
    if inst.load then guest.setRegister inst.rd (readProgramStatus state.cpsr)
    else
      let mask := programStatusWriteMask inst.opcode
      let value := if inst.immediateOperand then inst.immediate else state.registers inst.rd
      guest.setCpsr ((state.cpsr &&& ~~~mask) ||| (value &&& mask))
  | .threadPointerReadWrite =>
    if inst.load then guest.setRegister inst.rd guest.threadPointerUserRw
    else { guest with threadPointerUserRw := state.registers inst.rd }
  | .threadPointerReadOnly => guest.setRegister inst.rd (guest.cthreadSelf.getD 0)
  | _ => guest

def moveCoreVector (operands : VectorCoreMoveOperands) (guest : Guest) : Guest :=
  let state := guest.state
  let first := operands.firstWord
  if operands.pair then
    if operands.toCore then
      (guest.setRegister operands.core (state.extensionRegisters first)).setRegister
        operands.core2 (state.extensionRegisters (first + 1))
    else
      { guest with
        state := (state.setExtension first (state.registers operands.core)).setExtension
          (first + 1) (state.registers operands.core2) }
  else
    let mask : Word := BitVec.allOnes 32 >>> (32 - operands.elementBits)
    let word := state.extensionRegisters first
    if operands.toCore then
      let value := (word >>> operands.bitOffset) &&& mask
      let sign : Word := if operands.signExtend then BitVec.twoPow 32 (operands.elementBits - 1) else 0
      guest.setRegister operands.core ((value ^^^ sign) - sign)
    else
      { guest with
        state := state.setExtension first ((word &&& ~~~(mask <<< operands.bitOffset)) |||
          ((state.registers operands.core &&& mask) <<< operands.bitOffset)) }

def packHalfword (inst : Instruction) (state : CpuThreadState) : Word :=
  let shifted := (shift (state.registers inst.rm) inst.shift inst.shiftAmount false false).value
  let a := state.registers inst.rn
  if inst.shift = .lsl then (a &&& (0xffff : Word)) ||| (shifted &&& (0xffff0000 : Word))
  else (a &&& (0xffff0000 : Word)) ||| (shifted &&& (0xffff : Word))

def processData (inst : Instruction) (guest : Guest) : Guest :=
  let state := guest.state
  let alu := dataProcessing state inst
  if aluWritesPc inst then
    match aluWritePc alu.value (thumb state.cpsr) profile.interworking with
    | some target =>
      (guest.setRegister programCounter target.address).setCpsr (setThumb alu.cpsr target.thumb)
    | none => guest
  else
    let guest := if isTest inst.opcode then guest else guest.setRegister inst.rd alu.value
    guest.setCpsr alu.cpsr

def multiplyRegisters (inst : Instruction) (guest : Guest) : Guest :=
  let read := guest.state.registers
  let product := calculateMultiply inst (read inst.rm) (read inst.rs) (read inst.rd)
    (read inst.rn) guest.state.cpsr
  let guest := guest.setRegister inst.rd (product.value.setWidth 32)
  let guest :=
    if multiplyWritesPair inst then
      guest.setRegister inst.rn ((product.value >>> 32).setWidth 32)
    else guest
  guest.setCpsr product.cpsr

/-- The address after a call, with the bit that says in which state to come back. -/
def returnAddress (inst : Instruction) (state : CpuThreadState) : Word :=
  (state.registers programCounter + BitVec.ofNat 32 inst.size) |||
    if thumb state.cpsr then 1 else 0

def linkRegister : Register := 14

def linked (inst : Instruction) (guest : Guest) : Guest :=
  if inst.link then guest.setRegister linkRegister (returnAddress inst guest.state) else guest

def setAlu (inst : Instruction) (guest : Guest) (result : AluResult) : Guest :=
  (guest.setRegister inst.rd result.value).setCpsr result.cpsr

/-- The effect of an instruction on all but the program counter and the IT block, unless it is
of a family that sees to these itself. -/
def perform (inst : Instruction) (guest : Guest) : Guest × Completion :=
  let read := guest.state.registers
  let cpsr := guest.state.cpsr
  match inst.kind with
  | .floatingSystem operands => (floatingSystem profile operands guest, {})
  | .clearExclusive | .swap | .exclusiveTransfer => units.exclusive inst guest
  | .systemControl => (systemControl inst guest, {})
  | .vectorTransfer _ | .multipleTransfer | .tableBranch | .dualTransfer | .transfer =>
    let (machine, completion) :=
      execute profile.memory profile.access inst.transfer guest.toMachine
    (guest.setMachine machine, completion)
  | .dataProcessing => (processData profile inst guest, {})
  | .parallelArithmetic =>
    (setAlu inst guest (parallelArithmetic inst (read inst.rn) (read inst.rm) cpsr), {})
  | .saturatingArithmetic =>
    (setAlu inst guest (saturatingArithmetic inst (read inst.rn) (read inst.rm) cpsr), {})
  | .parallelSaturating =>
    (guest.setRegister inst.rd (parallelSaturating inst (read inst.rn) (read inst.rm)), {})
  | .integerTransform =>
    (guest.setRegister inst.rd (integerTransform inst (read inst.rm) (read inst.rn)), {})
  | .integerDivide =>
    (guest.setRegister inst.rd (integerDivide inst (read inst.rn) (read inst.rm)), {})
  | .packHalfword => (guest.setRegister inst.rd (packHalfword inst guest.state), {})
  | .vectorCoreMove operands => (moveCoreVector operands guest, {})
  | .floatingArithmetic _ | .floatingImmediate _ | .floatingComparison _ | .floatingConversion _
  | .vectorDuplicate _ | .vectorFloatingConversion _ | .vectorFloatingArithmetic _
  | .vectorIntegerArithmetic _ | .vectorBitwise _ | .vectorImmediate _ | .vectorExtract _
  | .vectorShiftImmediate _ | .vectorReverse _ =>
    (guest.setExtension (units.extension inst.kind read guest.extension), {})
  | .wideImmediate =>
    (guest.setRegister inst.rd
      (if inst.opcode ≠ 0 then (read inst.rd &&& (0xffff : Word)) ||| (inst.immediate <<< 16)
        else inst.immediate), {})
  | .multiply => (multiplyRegisters inst guest, {})
  | .branch =>
    let guest := linked inst guest
    (if inst.exchange then guest.setCpsr (cpsr ^^^ BitVec.twoPow 32 5) else guest, {})
  | .branchExchange =>
    ((linked inst guest).setCpsr (setThumb cpsr ((readRegister guest.state inst.rm inst).getLsbD 0)),
      {})
  | .unsupported | .svc | .breakpoint | .ifThen | .nop | .compareBranch => (guest, {})

/-! ### Retirement -/

/-- The families that see to the program counter themselves. -/
def writesPc (inst : Instruction) : Bool :=
  match inst.kind with
  | .tableBranch | .transfer | .dualTransfer | .exclusiveTransfer | .swap | .clearExclusive
  | .multipleTransfer | .vectorTransfer _ => true
  | _ => aluWritesPc inst

/-- The target of a branch, from the program counter at the instruction. -/
def branchTarget (inst : Instruction) (pc : Word) : Word :=
  (if inst.alignPc then (pc + inst.pcOffset) &&& ~~~3 else pc + inst.pcOffset) + inst.immediate

/-- Where the instruction leads: the state before it, and the registers after its effect. -/
def nextPc (inst : Instruction) (passed : Bool) (before : CpuThreadState)
    (after : Register → Word) : Word :=
  let pc := before.registers programCounter
  let compares := decide (inst.kind = .compareBranch) &&
    ((after inst.rn ≠ 0) == (inst.opcode ≠ 0))
  if passed && (decide (inst.kind = .branch) || compares) then branchTarget inst pc
  else if passed && decide (inst.kind = .branchExchange) then
    let target := readRegister before inst.rm inst
    target &&& if target.getLsbD 0 then ~~~1 else ~~~3
  else pc + BitVec.ofNat 32 inst.size

def nextIt (inst : Instruction) (passed : Bool) (it : Word) : Word :=
  if passed && decide (inst.kind = .ifThen) then inst.immediate else advanceIt it

/-- The program counter and the IT block after the effect of an instruction. -/
def retire (inst : Instruction) (passed : Bool) (before : CpuThreadState) (guest : Guest) : Guest :=
  let guest :=
    if passed && writesPc inst then guest
    else guest.setRegister programCounter (nextPc inst passed before guest.state.registers)
  if thumb before.cpsr then
    guest.setCpsr (withItState guest.state.cpsr (nextIt inst passed (itState before.cpsr)))
  else guest

/-- The stop of an instruction that leaves to the kernel. -/
def architecturalStop (inst : Instruction) (guest : Guest) : Option (Guest × Outcome) :=
  match inst.kind with
  | .svc =>
    let state := guest.state
    let guest := guest.setRegister programCounter
      (state.registers programCounter + BitVec.ofNat 32 inst.size)
    some (if thumb state.cpsr then
        guest.setCpsr (withItState state.cpsr (advanceIt (itState state.cpsr)))
      else guest, .svc inst.immediate)
  | .breakpoint => some (guest, .breakpoint)
  | _ => none

/-- An instruction that has been fetched, decoded and timed. -/
def step (inst : Instruction) (guest : Guest) : Guest × Outcome :=
  let passed := conditionPassed inst.condition guest.state.cpsr
  if inst.condition = 15 ∨ (passed = true ∧ refused units profile inst guest = true) then
    (guest, .stopped { reason := .unsupportedInstruction })
  else if passed then
    match architecturalStop inst guest with
    | some stop => stop
    | none =>
      match perform units profile inst guest with
      | (after, completion) =>
        if completion.reason = .none then (retire inst true guest.state after, .retired)
        else (after, .stopped completion)
  else (retire inst false guest.state guest, .retired)

/-- The state after some instructions, if all of them retire. -/
def run : List Instruction → Guest → Option Guest
  | [], guest => some guest
  | inst :: rest, guest =>
    match step units profile inst guest with
    | (after, .retired) => run rest after
    | _ => none

end

theorem run_append {units : Units} {profile : Profile} (first second : List Instruction)
    (guest : Guest) :
    run units profile (first ++ second) guest =
      (run units profile first guest).bind (run units profile second) := by
  induction first generalizing guest with
  | nil => rfl
  | cons inst rest ih =>
    simp only [List.cons_append, run]
    split
    · exact ih _
    · rfl

theorem run_singleton {units : Units} {profile : Profile} {inst : Instruction} {guest after : Guest}
    (ran : run units profile [inst] guest = some after) :
    step units profile inst guest = (after, .retired) := by
  simp only [run] at ran
  split at ran
  · rename_i retired
    cases ran
    exact retired
  · contradiction

end ILEmu.ArmInterpreter
