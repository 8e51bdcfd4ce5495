import ILEmu.Arm.Instruction

/-! Transfers of one and of two words, prepared from the registers and completed through
checked accesses. -/
namespace ILEmu.ArmMemory
open Arm

/-- The fields that the source packs into one word. -/
structure TransferControl where
  tableBranch : Bool
  accessSize : AccessSize
  load : Bool
  signExtend : Bool
  writeback : Bool
  dual : Bool
  rd : Register
  rn : Register
  rs : Register
  size : Nat
  deriving DecidableEq, Repr

structure Transfer where
  address : Word
  updatedBase : Word
  value : Word
  secondValue : Word
  control : TransferControl
  deriving DecidableEq, Repr

def control (inst : Instruction) : TransferControl where
  tableBranch := inst.kind = .tableBranch
  accessSize := inst.accessSize
  load := inst.load
  signExtend := inst.signExtend
  writeback := inst.writeback
  dual := inst.kind = .dualTransfer
  rd := inst.rd
  rn := inst.rn
  rs := inst.rs
  size := inst.size

def readOperand (state : CpuThreadState) (inst : Instruction) (register : Register) : Word :=
  if register ≠ programCounter then state.registers register
  else
    let pc := state.registers programCounter + inst.pcOffset
    if inst.alignPc then pc &&& ~~~3 else pc

def transferOffset (state : CpuThreadState) (inst : Instruction) : Word :=
  if inst.immediateOperand then inst.immediate
  else
    (shift (readOperand state inst inst.rm) inst.shift inst.shiftAmount (state.cpsr.getLsbD 29)
      false).value

def prepare (state : CpuThreadState) (inst : Instruction) (pcStoreOffset : Word) : Transfer :=
  let offset := transferOffset state inst
  let base := readOperand state inst inst.rn
  let updated := if inst.add then base + offset else base - offset
  { address := if inst.index then updated else base
    updatedBase := updated
    value :=
      if inst.rd = programCounter then state.registers programCounter + pcStoreOffset
      else readOperand state inst inst.rd
    secondValue := if inst.kind = .dualTransfer then readOperand state inst inst.rs else 0
    control := control inst }

/-- The status of an alignment fault. -/
def alignmentStatus (load : Bool) : Word := 1 ||| if load then 0 else BitVec.twoPow 32 11

/-- Two aligned words. What has been done stays when the second one faults. -/
def transferWords (access : MemoryAccess) (load big : Bool) :
    List (Register × Word) → Word → Machine → Machine × Option MemoryFault
  | [], _, machine => (machine, none)
  | (register, value) :: rest, address, machine =>
    if load then
      match access.readFault address .word with
      | some fault => (machine, some fault)
      | none =>
        let value := endian (machine.memory.value address .word) .word big
        transferWords access load big rest (address + 4)
          { machine with state := machine.state.setRegister register value }
    else
      match access.writeFault address .word with
      | some fault => (machine, some fault)
      | none =>
        transferWords access load big rest (address + 4)
          { machine with memory := machine.memory.store address .word (endian value .word big) }

def completeDual (access : MemoryAccess) (machine : Machine) (transfer : Transfer) :
    Machine × Completion :=
  let control := transfer.control
  if transfer.address &&& 3 ≠ 0 then
    abort machine { address := transfer.address, status := alignmentStatus control.load }
  else
    match transferWords access control.load machine.state.bigEndian
        [(control.rd, transfer.value), (control.rs, transfer.secondValue)] transfer.address
        machine with
    | (machine, some fault) => abort machine fault
    | (machine, none) =>
      let state :=
        if control.writeback then machine.state.setRegister control.rn transfer.updatedBase
        else machine.state
      ({ machine with state := state.advance control.size }, {})

/-- What a load makes of the value that it has read. -/
def loadedValue (value : Word) (size : AccessSize) (big signExtend : Bool) : Word :=
  let value := endian value size big
  match size with
  | .byte =>
    let value := value &&& 0xff
    if signExtend then (value ^^^ 0x80) - 0x80 else value
  | .half =>
    let value := value &&& 0xffff
    if signExtend then (value ^^^ 0x8000) - 0x8000 else value
  | .word => if signExtend then ((value &&& 0xffff) ^^^ 0x8000) - 0x8000 else value

/-- The access has succeeded. -/
def retireTransfer (machine : Machine) (transfer : Transfer) (value : Word) :
    Machine × Completion :=
  let control := transfer.control
  let state := machine.state
  let toPc := control.load && control.rd = programCounter
  if toPc && !control.tableBranch && value &&& 3 = 2 then
    (machine, { reason := .unsupportedInstruction })
  else if control.tableBranch then
    ({ machine with
        state := state.setRegister programCounter
          (state.registers programCounter + ((4 : Word) + value <<< 1)) }, {})
  else
    let state :=
      if control.writeback then state.setRegister control.rn transfer.updatedBase else state
    let state :=
      if control.load && control.rd ≠ programCounter then state.setRegister control.rd value
      else state
    let state :=
      if toPc then
        { state with
          cpsr := (state.cpsr &&& ~~~BitVec.twoPow 32 5) ||| ((value &&& 1) <<< 5)
          registers := Function.update state.registers programCounter
            (value &&& if value.getLsbD 0 then ~~~1 else ~~~3) }
      else state.advance control.size
    ({ machine with state }, {})

def complete (access : MemoryAccess) (machine : Machine) (transfer : Transfer) :
    Machine × Completion :=
  let control := transfer.control
  let big := machine.state.bigEndian
  if control.dual then completeDual access machine transfer
  else if control.load && control.rd = programCounter && !control.tableBranch &&
      transfer.address &&& 3 ≠ 0 then (machine, { reason := .unsupportedInstruction })
  else if control.load then
    match access.readFault transfer.address control.accessSize with
    | some fault => abort machine fault
    | none =>
      retireTransfer machine transfer
        (loadedValue (machine.memory.value transfer.address control.accessSize)
          control.accessSize big control.signExtend)
  else
    match access.writeFault transfer.address control.accessSize with
    | some fault => abort machine fault
    | none =>
      retireTransfer
        { machine with
          memory := machine.memory.store transfer.address control.accessSize
            (endian transfer.value control.accessSize big) }
        transfer transfer.value

end ILEmu.ArmMemory
