import ILEmu.ArmInterpreter.Interpreter
import ILEmu.ArmMemory.Registers

/-! The core registers that an instruction may write, as the compiler lists them. -/
namespace ILEmu.Arm64
open Arm hiding Instruction InstructionKind
open ArmMemory ArmInterpreter

/-- The families that put their result into the destination register. -/
def writesDestination (inst : Instruction) : Bool :=
  match inst.kind with
  | .dataProcessing => !isTest inst.opcode
  | .multiply | .integerDivide | .packHalfword | .integerTransform | .parallelSaturating
  | .parallelArithmetic | .saturatingArithmetic | .wideImmediate | .swap => true
  | .transfer | .dualTransfer | .systemControl => inst.load
  | _ => false

/-- The families that write their base back. -/
def writesBase (inst : Instruction) : Bool :=
  match inst.kind with
  | .transfer | .dualTransfer | .multipleTransfer | .vectorTransfer _ => inst.writeback
  | _ => false

/-- The registers of the operands that are kept beside the kind. -/
def writtenOperands (inst : Instruction) : List Register :=
  match inst.kind with
  | .floatingSystem operands =>
    if operands.toCore && operands.core ≠ programCounter then [operands.core] else []
  | .vectorCoreMove operands =>
    if operands.toCore then
      if operands.pair then [operands.core, operands.core2] else [operands.core]
    else []
  | _ => []

/-- The registers that the source's `for_written_register` visits. -/
def writtenRegisters (inst : Instruction) : List Register :=
  writtenOperands inst ++
    (if writesDestination inst then [inst.rd] else []) ++
    (if inst.kind = .multipleTransfer ∧ inst.load = true then
      (List.finRange 16).filter fun register => inst.registers.getLsbD register.val
    else []) ++
    (if inst.kind = .dualTransfer ∧ inst.load = true then [inst.rs] else []) ++
    (if inst.kind = .multiply ∧ multiplyWritesPair inst = true then [inst.rn] else []) ++
    (if writesBase inst then [inst.rn] else []) ++
    if (inst.kind = .branch ∨ inst.kind = .branchExchange) ∧ inst.link = true then [linkRegister]
    else []

/-- The families that a cycle may consist of: the others end the search for one. -/
def isOrdinary (inst : Instruction) : Bool :=
  match inst.kind with
  | .unsupported | .svc | .breakpoint | .exclusiveTransfer | .swap | .clearExclusive
  | .systemControl => false
  | _ => true

variable {units : Units} {profile : Profile} {inst : Instruction} {guest after : Guest}
  {register : Register}

/-! ### An instruction that has retired -/

/-- What is done when the condition has passed. -/
def effect (units : Units) (profile : Profile) (inst : Instruction) (guest : Guest) : Guest :=
  if conditionPassed inst.condition guest.state.cpsr then (perform units profile inst guest).1
  else guest

/-- A retired instruction has been performed without a fault, or its condition has failed. -/
theorem step_retired (retired : step units profile inst guest = (after, .retired)) :
    inst.condition ≠ 15 ∧
      (conditionPassed inst.condition guest.state.cpsr = true →
        (perform units profile inst guest).2.reason = .none ∧
          refused units profile inst guest = false ∧ architecturalStop inst guest = none) ∧
      after = retire inst (conditionPassed inst.condition guest.state.cpsr) guest.state
        (effect units profile inst guest) := by
  unfold step at retired
  unfold effect
  dsimp only at retired
  split at retired
  · cases retired
  · rename_i accepted
    rw [not_or, not_and] at accepted
    obtain ⟨conditional, accepted⟩ := accepted
    cases passes : conditionPassed inst.condition guest.state.cpsr with
    | false =>
      rw [passes] at retired
      cases retired
      exact ⟨conditional, fun passed => absurd passed (by decide), rfl⟩
    | true =>
      rw [passes, if_pos rfl] at retired
      cases stops : architecturalStop inst guest with
      | some stop =>
        rw [stops] at retired
        subst retired
        unfold architecturalStop at stops
        split at stops
        · cases stops
        · cases stops
        · contradiction
      | none =>
        rw [stops] at retired
        dsimp only at retired
        split at retired
        · rename_i done
          cases retired
          exact ⟨conditional, fun _ => ⟨done, by simpa using accepted passes, rfl⟩, rfl⟩
        · cases retired

@[simp] theorem setCpsr_registers {cpsr : Word} :
    (guest.setCpsr cpsr).state.registers = guest.state.registers := rfl

@[simp] theorem setExtension_registers {extension : ExtensionState} :
    (guest.setExtension extension).state.registers = guest.state.registers := rfl

@[simp] theorem guest_setRegister_of_ne {other : Register} {value : Word}
    (different : register ≠ other) :
    (guest.setRegister other value).state.registers register = guest.state.registers register :=
  setRegister_registers_of_ne different

@[simp] theorem guest_setRegister_self {value : Word} :
    (guest.setRegister register value).state.registers register = value :=
  setRegister_registers_self

/-- Retirement changes no general register. -/
theorem retire_registers {passed : Bool} {before : CpuThreadState}
    (general : register ≠ programCounter) :
    (retire inst passed before guest).state.registers register = guest.state.registers register := by
  have counter : (if passed && writesPc inst then guest
      else guest.setRegister programCounter (nextPc inst passed before guest.state.registers)).state.registers
        register = guest.state.registers register := by
    split
    · rfl
    · exact guest_setRegister_of_ne general
  unfold retire
  dsimp only
  split
  · exact counter
  · exact counter

/-! ### The registers that are left alone -/

/-- The rules of the list, each for a register that it does not name. -/
structure Unwritten (inst : Instruction) (register : Register) : Prop where
  operands : register ∉ writtenOperands inst
  destination : writesDestination inst = true → register ≠ inst.rd
  listed : inst.kind = .multipleTransfer → inst.load = true →
    inst.registers.getLsbD register.val = false
  second : inst.kind = .dualTransfer → inst.load = true → register ≠ inst.rs
  pair : inst.kind = .multiply → multiplyWritesPair inst = true → register ≠ inst.rn
  base : writesBase inst = true → register ≠ inst.rn
  link : inst.kind = .branch ∨ inst.kind = .branchExchange → inst.link = true →
    register ≠ linkRegister

theorem unwritten_of_notMem (free : register ∉ writtenRegisters inst) : Unwritten inst register := by
  unfold writtenRegisters at free
  simp only [List.mem_append, not_or] at free
  obtain ⟨⟨⟨⟨⟨⟨operands, destination⟩, listed⟩, second⟩, pair⟩, base⟩, link⟩ := free
  constructor
  · exact operands
  · intro writes
    rw [if_pos writes] at destination
    simpa using destination
  · intro multiple load
    rw [if_pos ⟨multiple, load⟩] at listed
    simpa using listed
  · intro dual load
    rw [if_pos ⟨dual, load⟩] at second
    simpa using second
  · intro multiplies writes
    rw [if_pos ⟨multiplies, writes⟩] at pair
    simpa using pair
  · intro writes
    rw [if_pos writes] at base
    simpa using base
  · intro branches links
    rw [if_pos ⟨branches, links⟩] at link
    simpa using link

/-- What a transfer writes back to its base. -/
def transferredBase (profile : Profile) (inst : Instruction) (state : CpuThreadState) : Word :=
  match inst.kind with
  | .multipleTransfer =>
    (prepareMultiple state inst.transfer profile.memory.pcStoreOffset).updatedBase
  | .vectorTransfer _ =>
    (prepareVector state inst.transfer profile.memory.permitsUnaligned).updatedBase
  | _ => (prepare state inst.transfer profile.memory.pcStoreOffset).updatedBase

/-- The transfers of the core, a table branch apart. -/
def isTransfer (inst : Instruction) : Bool :=
  match inst.kind with
  | .transfer | .dualTransfer | .multipleTransfer | .vectorTransfer _ => true
  | _ => false

/-- The registers that a load fills. -/
def loadedInto (inst : Instruction) (register : Register) : Prop :=
  match inst.kind with
  | .transfer => register = inst.rd
  | .dualTransfer => register = inst.rd ∨ register = inst.rs
  | .multipleTransfer => inst.registers.getLsbD register.val = true
  | _ => False

/-- A completed transfer changes the base, and what it loads into. -/
theorem perform_transfer (transfers : isTransfer inst = true) (general : register ≠ programCounter)
    (kept : inst.load = true → ¬loadedInto inst register)
    (done : (perform units profile inst guest).2.reason = .none) :
    (perform units profile inst guest).1.state.registers register =
      writtenBack inst.writeback inst.rn (transferredBase profile inst guest.state)
        guest.state.registers register := by
  unfold isTransfer at transfers
  unfold loadedInto at kept
  unfold transferredBase
  cases kind : inst.kind with
  | transfer =>
    unfold perform at done ⊢
    have same : inst.transfer.kind = .transfer := by simp [Instruction.transfer, kind]
    simp only [kind, execute, same] at kept done ⊢
    exact complete_registers general (by simp [prepare, ArmMemory.control, same])
      (fun load => ⟨kept load, by simp [prepare, ArmMemory.control, same]⟩) done
  | dualTransfer =>
    unfold perform at done ⊢
    have same : inst.transfer.kind = .dualTransfer := by simp [Instruction.transfer, kind]
    simp only [kind, execute, same, not_or] at kept done ⊢
    exact complete_registers general (by simp [prepare, ArmMemory.control, same])
      (fun load => ⟨(kept load).1, fun _ => (kept load).2⟩) done
  | multipleTransfer =>
    unfold perform at done ⊢
    have same : inst.transfer.kind = .multipleTransfer := by simp [Instruction.transfer, kind]
    simp only [kind, execute, same] at kept done ⊢
    exact completeMultiple_registers general (fun load => Bool.eq_false_of_not_eq_true (kept load))
      done
  | vectorTransfer operands =>
    unfold perform at done ⊢
    have same : inst.transfer.kind = .vectorTransfer := by simp [Instruction.transfer, kind]
    have base : (prepareVector guest.state inst.transfer
          profile.memory.permitsUnaligned).control.writeback = inst.writeback ∧
        (prepareVector guest.state inst.transfer
          profile.memory.permitsUnaligned).control.rn = inst.rn := by
      unfold prepareVector
      dsimp only
      split
      · exact ⟨rfl, rfl⟩
      · exact ⟨rfl, rfl⟩
    simp only [kind, execute, same] at done ⊢
    have completed := completeVector_registers general done
    rw [base.1, base.2] at completed
    exact completed
  | _ => simp [kind] at transfers

theorem writtenBack_of_ne {writeback : Bool} {rn : Register} {updated : Word}
    {before : Register → Word} (kept : writeback = true → register ≠ rn) :
    writtenBack writeback rn updated before register = before register :=
  if_neg fun ⟨writes, same⟩ => kept writes same

theorem perform_tableBranch (table : inst.kind = .tableBranch)
    (general : register ≠ programCounter)
    (done : (perform units profile inst guest).2.reason = .none) :
    (perform units profile inst guest).1.state.registers register =
      guest.state.registers register := by
  unfold perform at done ⊢
  have same : inst.transfer.kind = .tableBranch := by simp [Instruction.transfer, table]
  simp only [table, execute, same] at done ⊢
  exact complete_tableBranch general (by simp [prepare, ArmMemory.control, same])
    (by simp [prepare, ArmMemory.control, same]) done

theorem linked_registers (kept : inst.link = true → register ≠ linkRegister) :
    (linked inst guest).state.registers register = guest.state.registers register := by
  unfold linked
  split
  · rename_i links
    exact guest_setRegister_of_ne (kept links)
  · rfl

/-- No register outside the list changes. -/
theorem perform_unwritten (ordinary : isOrdinary inst = true) (general : register ≠ programCounter)
    (free : Unwritten inst register)
    (done : (perform units profile inst guest).2.reason = .none) :
    (perform units profile inst guest).1.state.registers register =
      guest.state.registers register := by
  have destination := free.destination
  have base := free.base
  have operands := free.operands
  unfold writesDestination at destination
  unfold writesBase at base
  unfold writtenOperands at operands
  have moved : isTransfer inst = true → (inst.load = true → ¬loadedInto inst register) →
      (inst.writeback = true → register ≠ inst.rn) →
      (perform units profile inst guest).1.state.registers register =
        guest.state.registers register := by
    intro transfers kept back
    rw [perform_transfer transfers general kept done]
    exact writtenBack_of_ne back
  cases kind : inst.kind with
  | transfer =>
    simp only [kind] at destination base
    exact moved (by simp [isTransfer, kind]) (by simpa [loadedInto, kind] using destination) base
  | dualTransfer =>
    simp only [kind] at destination base
    refine moved (by simp [isTransfer, kind]) ?_ base
    intro load
    simp only [loadedInto, kind, not_or]
    exact ⟨destination load, free.second kind load⟩
  | multipleTransfer =>
    simp only [kind] at base
    refine moved (by simp [isTransfer, kind]) ?_ base
    intro load
    simpa [loadedInto, kind] using free.listed kind load
  | vectorTransfer _ =>
    simp only [kind] at base
    exact moved (by simp [isTransfer, kind]) (by simp [loadedInto, kind]) base
  | tableBranch => exact perform_tableBranch kind general done
  | exclusiveTransfer => simp [isOrdinary, kind] at ordinary
  | swap => simp [isOrdinary, kind] at ordinary
  | clearExclusive => simp [isOrdinary, kind] at ordinary
  | dataProcessing =>
    simp only [kind] at destination
    unfold perform
    simp only [kind]
    unfold processData
    dsimp only
    split
    · split
      · simp [general]
      · rfl
    · rw [setCpsr_registers]
      split
      · rfl
      · rename_i compares
        exact guest_setRegister_of_ne (destination (by simpa using compares))
  | multiply =>
    simp only [kind] at destination
    unfold perform
    simp only [kind]
    unfold multiplyRegisters
    dsimp only
    rw [setCpsr_registers]
    split
    · rename_i pairs
      rw [guest_setRegister_of_ne (free.pair kind pairs), guest_setRegister_of_ne (destination trivial)]
    · exact guest_setRegister_of_ne (destination trivial)
  | floatingSystem system =>
    simp only [kind] at operands
    unfold perform
    simp only [kind]
    unfold floatingSystem
    split
    · rfl
    · rename_i toCore
      split
      · rfl
      · rename_i core
        apply guest_setRegister_of_ne
        simpa [core, show system.toCore = true by simpa using toCore] using operands
  | vectorCoreMove move =>
    simp only [kind] at operands
    unfold perform
    simp only [kind]
    unfold moveCoreVector
    dsimp only
    cases toCore : move.toCore with
    | false =>
      simp only [Bool.false_eq_true, if_false]
      split
      · rfl
      · rfl
    | true =>
      rw [toCore] at operands
      simp only [if_true] at operands ⊢
      split
      · rename_i pairs
        rw [if_pos pairs] at operands
        simp only [List.mem_cons, List.not_mem_nil, or_false, not_or] at operands
        rw [guest_setRegister_of_ne operands.2, guest_setRegister_of_ne operands.1]
      · rename_i single
        rw [if_neg single] at operands
        exact guest_setRegister_of_ne (by simpa using operands)
  | systemControl => simp [isOrdinary, kind] at ordinary
  | branch =>
    simp only [perform, kind]
    split
    · exact linked_registers (free.link (.inl kind))
    · exact linked_registers (free.link (.inl kind))
  | branchExchange =>
    simp only [perform, kind]
    exact linked_registers (free.link (.inr kind))
  | unsupported => simp [isOrdinary, kind] at ordinary
  | svc => simp [isOrdinary, kind] at ordinary
  | breakpoint => simp [isOrdinary, kind] at ordinary
  | ifThen => simp [perform, kind]
  | nop => simp [perform, kind]
  | compareBranch => simp [perform, kind]
  | vectorDuplicate => simp [perform, kind]
  | vectorBitwise => simp [perform, kind]
  | vectorExtract => simp [perform, kind]
  | floatingConversion => simp [perform, kind]
  | floatingArithmetic => simp [perform, kind]
  | floatingComparison => simp [perform, kind]
  | floatingImmediate => simp [perform, kind]
  | vectorImmediate => simp [perform, kind]
  | vectorFloatingArithmetic => simp [perform, kind]
  | vectorIntegerArithmetic => simp [perform, kind]
  | vectorReverse => simp [perform, kind]
  | vectorShiftImmediate => simp [perform, kind]
  | vectorFloatingConversion => simp [perform, kind]
  | _ =>
    simp only [kind] at destination
    simp only [perform, kind, setAlu, setCpsr_registers]
    exact guest_setRegister_of_ne (destination trivial)

/-- Retired instructions change no register that is not in their list. -/
theorem retired_unwritten (ordinary : isOrdinary inst = true)
    (retired : step units profile inst guest = (after, .retired))
    (general : register ≠ programCounter) (free : register ∉ writtenRegisters inst) :
    after.state.registers register = guest.state.registers register := by
  obtain ⟨-, performed, rfl⟩ := step_retired retired
  rw [retire_registers general]
  unfold effect
  split
  · rename_i passes
    exact perform_unwritten ordinary general (unwritten_of_notMem free) (performed passes).1
  · rfl

end ILEmu.Arm64
