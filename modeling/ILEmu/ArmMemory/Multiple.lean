import ILEmu.ArmMemory.Transfer

/-! Transfers of a list of core registers. -/
namespace ILEmu.ArmMemory
open Arm

structure MultipleControl where
  registers : BitVec 16
  load : Bool
  writeback : Bool
  rn : Register
  size : Nat
  deriving DecidableEq, Repr

structure MultipleTransfer where
  address : Word
  base : Word
  updatedBase : Word
  pcValue : Word
  control : MultipleControl
  deriving DecidableEq, Repr

def multipleControl (inst : Instruction) : MultipleControl where
  registers := inst.registers
  load := inst.load
  writeback := inst.writeback
  rn := inst.rn
  size := inst.size

def prepareMultiple (state : CpuThreadState) (inst : Instruction) (pcStoreOffset : Word) :
    MultipleTransfer :=
  let base := state.registers inst.rn
  let length := BitVec.ofNat 32 (4 * ((List.finRange 16).countP fun r => inst.registers.getLsbD r))
  let address := if inst.add then base else base - length
  { address := address + if inst.index = inst.add then 4 else 0
    base
    updatedBase := if inst.add then base + length else base - length
    pcValue := state.registers programCounter + pcStoreOffset
    control := multipleControl inst }

inductive MultipleEnd where
  | finished (target : Word)
  | faulted (fault : MemoryFault)
  | unsupported
  deriving DecidableEq, Repr

/-- The registers of the list, from the lowest one on. -/
def transferRegisters (access : MemoryAccess) (transfer : MultipleTransfer) (big : Bool) :
    List Register → Word → Word → Machine → Machine × MultipleEnd
  | [], _, target, machine => (machine, .finished target)
  | register :: rest, address, target, machine =>
    if transfer.control.registers.getLsbD register = false then
      transferRegisters access transfer big rest address target machine
    else if transfer.control.load then
      match access.readFault address .word with
      | some fault => (machine, .faulted fault)
      | none =>
        let value := endian (machine.memory.value address .word) .word big
        if register = programCounter then
          if value &&& 3 = 2 then (machine, .unsupported)
          else transferRegisters access transfer big rest (address + 4) value machine
        else
          transferRegisters access transfer big rest (address + 4) target
            { machine with state := machine.state.setRegister register value }
    else
      let value :=
        if register = programCounter then transfer.pcValue else machine.state.registers register
      match access.writeFault address .word with
      | some fault => (machine, .faulted fault)
      | none =>
        transferRegisters access transfer big rest (address + 4) target
          { machine with memory := machine.memory.store address .word (endian value .word big) }

def completeMultiple (access : MemoryAccess) (machine : Machine) (transfer : MultipleTransfer) :
    Machine × Completion :=
  let control := transfer.control
  let pc := machine.state.registers programCounter
  let restore (machine : Machine) : Machine :=
    { machine with state := machine.state.setRegister control.rn transfer.base }
  if transfer.address &&& 3 ≠ 0 then
    abort (restore machine)
      { address := transfer.address, status := alignmentStatus control.load }
  else
    match transferRegisters access transfer machine.state.bigEndian (List.finRange 16)
        transfer.address pc machine with
    | (machine, .faulted fault) => abort (restore machine) fault
    | (machine, .unsupported) => (restore machine, { reason := .unsupportedInstruction })
    | (machine, .finished target) =>
      let state :=
        if control.writeback then machine.state.setRegister control.rn transfer.updatedBase
        else machine.state
      let state :=
        if control.load && control.registers.getLsbD 15 then
          { state with
            cpsr := (state.cpsr &&& ~~~BitVec.twoPow 32 5) ||| ((target &&& 1) <<< 5)
            registers := Function.update state.registers programCounter
              (target &&& if target.getLsbD 0 then ~~~1 else ~~~3) }
        else state.setRegister programCounter (pc + BitVec.ofNat 32 control.size)
      ({ machine with state }, {})

end ILEmu.ArmMemory
