import ILEmu.Foundation.Overwrites
import ILEmu.ArmMemory.Multiple
import ILEmu.ArmMemory.VectorTransfer

/-! Transfers as attempts: each access is a step that overwrites registers or bytes with
values that do not depend on them. -/
namespace ILEmu.ArmMemory
open Arm Foundation

/-! ### The cells of a state -/

/-- The bits of the registers of a thread. -/
inductive StateCell where
  | register (register : Register) (bit : Nat)
  | extension (index bit : Nat)
  | status (bit : Nat)

def seeState (state : CpuThreadState) : StateCell → Bool
  | .register register bit => (state.registers register).getLsbD bit
  | .extension index bit => (state.extensionRegisters index).getLsbD bit
  | .status bit => state.cpsr.getLsbD bit

theorem state_ext {s t : CpuThreadState} (same : Same seeState s t) : s = t := by
  apply CpuThreadState.ext
  · funext register
    exact BitVec.eq_of_getLsbD_eq fun bit _ => same (.register register bit)
  · funext index
    exact BitVec.eq_of_getLsbD_eq fun bit _ => same (.extension index bit)
  · exact BitVec.eq_of_getLsbD_eq fun bit _ => same (.status bit)

def seeByte (memory : Memory) (place : Word) : BitVec 8 := memory place

theorem overwrites_setRegister (register : Register) (value : Word) :
    Overwrites seeState fun s => s.setRegister register value := by
  intro cell
  cases cell with
  | register other bit =>
    by_cases here : other = register
    · subst here
      refine .inl fun s t => ?_
      simp [seeState, CpuThreadState.setRegister]
    · refine .inr fun s => ?_
      simp [seeState, CpuThreadState.setRegister, here]
  | extension => exact .inr fun _ => rfl
  | status => exact .inr fun _ => rfl

theorem overwrites_setExtension (index : Nat) (value : Word) :
    Overwrites seeState fun s => s.setExtension index value := by
  intro cell
  cases cell with
  | register => exact .inr fun _ => rfl
  | extension other bit =>
    by_cases here : other = index
    · subst here
      refine .inl fun s t => ?_
      simp [seeState, CpuThreadState.setExtension]
    · refine .inr fun s => ?_
      simp [seeState, CpuThreadState.setExtension, here]
  | status => exact .inr fun _ => rfl

/-- Some bits of a word are replaced. -/
theorem overwrites_mask (index shift : Nat) (mask value : Word) :
    Overwrites seeState fun s => s.setExtension index
      ((s.extensionRegisters index &&& ~~~(mask <<< shift)) ||| ((value &&& mask) <<< shift)) := by
  intro cell
  cases cell with
  | register => exact .inr fun _ => rfl
  | status => exact .inr fun _ => rfl
  | extension other bit =>
    by_cases here : other = index
    · subst here
      simp only [Covers, Frames, seeState, CpuThreadState.setExtension, Function.update_self,
        BitVec.getLsbD_or, BitVec.getLsbD_and, BitVec.getLsbD_not, BitVec.getLsbD_shiftLeft]
      by_cases inside : bit < 32
      · cases below : decide (bit < shift) with
        | true => simp [inside]
        | false =>
          cases covered : mask.getLsbD (bit - shift) with
          | true => simp [inside]
          | false => simp [inside]
      · refine .inr fun s => ?_
        rw [BitVec.getLsbD_of_ge (s.extensionRegisters other) bit (Nat.le_of_not_lt inside)]
        simp [inside]
    · refine .inr fun s => ?_
      simp [seeState, CpuThreadState.setExtension, here]

theorem overwrites_store (address : Word) (size : AccessSize) (value : Word) :
    Overwrites seeByte fun memory => memory.store address size value := by
  intro place
  by_cases inside : (place - address).toNat < size.bytes
  · exact .inl fun s t => (if_pos inside).trans (if_pos inside).symm
  · exact .inr fun s => if_neg inside

theorem overwrites_commitElement (control : VectorControl) (register lane : Nat)
    (value : BitVec 64) : Overwrites seeState (commitElement control register lane value) := by
  unfold commitElement
  by_cases replicates : control.mode = .replicate
  · simp only [if_pos replicates]
    have all : ∀ places : List Nat, Overwrites seeState fun state =>
        places.foldl (fun state i =>
          (state.setExtension ((control.first + i) * 2)
            ((replicated control.elementSize value).setWidth 32)).setExtension
            ((control.first + i) * 2 + 1)
            ((replicated control.elementSize value >>> 32).setWidth 32)) state := by
      intro places
      induction places with
      | nil => exact overwrites_id
      | cons i rest ih =>
        exact ((overwrites_setExtension _ _).comp (overwrites_setExtension _ _)).comp ih
    exact all _
  · simp only [if_neg replicates]
    by_cases wide : control.elementSize = 8
    · simp only [if_pos wide]
      exact (overwrites_mask _ _ _ _).comp (overwrites_setExtension _ _)
    · simp only [if_neg wide]
      exact overwrites_mask _ _ _ _

/-! ### The accesses of a transfer -/

variable (access : MemoryAccess) (big : Bool)

abbrev StateStep (F : Type) := Option F × (CpuThreadState → CpuThreadState)

abbrev MemoryStep := Option MemoryFault × (Memory → Memory)

def wordLoads (memory : Memory) : List (Register × Word) → Word → List (StateStep MemoryFault)
  | [], _ => []
  | (register, _) :: rest, address =>
    (access.readFault address .word,
      fun s => s.setRegister register (endian (memory.value address .word) .word big)) ::
        wordLoads memory rest (address + 4)

def wordStores : List (Register × Word) → Word → List MemoryStep
  | [], _ => []
  | (_, value) :: rest, address =>
    (access.writeFault address .word,
      fun memory => memory.store address .word (endian value .word big)) ::
        wordStores rest (address + 4)

theorem transferWords_load (words : List (Register × Word)) (address : Word) (machine : Machine) :
    transferWords access true big words address machine =
      ({ machine with
          state := (attempt (wordLoads access big machine.memory words address) machine.state).1 },
        (attempt (wordLoads access big machine.memory words address) machine.state).2) := by
  induction words generalizing address machine with
  | nil => rfl
  | cons word rest ih =>
    unfold transferWords wordLoads
    cases access.readFault address .word with
    | some fault => rfl
    | none => exact ih _ _

theorem transferWords_store (words : List (Register × Word)) (address : Word)
    (machine : Machine) :
    transferWords access false big words address machine =
      ({ machine with
          memory := (attempt (wordStores access big words address) machine.memory).1 },
        (attempt (wordStores access big words address) machine.memory).2) := by
  induction words generalizing address machine with
  | nil => rfl
  | cons word rest ih =>
    unfold transferWords wordStores
    cases access.writeFault address .word with
    | some fault => rfl
    | none => exact ih _ _

/-- A load of the program counter goes nowhere until all has been read. -/
def registerLoads (control : MultipleControl) (memory : Memory) :
    List Register → Word → List (StateStep MultipleEnd)
  | [], _ => []
  | register :: rest, address =>
    if control.registers.getLsbD register = false then registerLoads control memory rest address
    else
      let value := endian (memory.value address .word) .word big
      (match access.readFault address .word with
        | some fault => some (.faulted fault)
        | none => if register = programCounter ∧ value &&& 3 = 2 then some .unsupported else none,
        fun s => if register = programCounter then s else s.setRegister register value) ::
          registerLoads control memory rest (address + 4)

/-- Where a load of the program counter goes. -/
def loadTarget (control : MultipleControl) (memory : Memory) :
    List Register → Word → Word → Word
  | [], _, target => target
  | register :: rest, address, target =>
    if control.registers.getLsbD register = false then
      loadTarget control memory rest address target
    else
      loadTarget control memory rest (address + 4)
        (if register = programCounter then endian (memory.value address .word) .word big
          else target)

def registerStores (transfer : MultipleTransfer) (state : CpuThreadState) :
    List Register → Word → List MemoryStep
  | [], _ => []
  | register :: rest, address =>
    if transfer.control.registers.getLsbD register = false then
      registerStores transfer state rest address
    else
      let value :=
        if register = programCounter then transfer.pcValue else state.registers register
      (access.writeFault address .word,
        fun memory => memory.store address .word (endian value .word big)) ::
          registerStores transfer state rest (address + 4)

theorem transferRegisters_load {transfer : MultipleTransfer}
    (load : transfer.control.load = true) (registers : List Register) (address target : Word)
    (machine : Machine) :
    transferRegisters access transfer big registers address target machine =
      ({ machine with
          state := (attempt (registerLoads access big transfer.control machine.memory registers
            address) machine.state).1 },
        (attempt (registerLoads access big transfer.control machine.memory registers address)
          machine.state).2.getD
            (.finished (loadTarget big transfer.control machine.memory registers address target))) := by
  induction registers generalizing address target machine with
  | nil => rfl
  | cons register rest ih =>
    unfold transferRegisters registerLoads loadTarget
    split
    · exact ih _ _ _
    · cases access.readFault address .word with
      | some fault => rfl
      | none =>
        by_cases counter : register = programCounter
        · by_cases odd : endian (machine.memory.value address .word) .word big &&& 3 = 2
          · simp only [counter, odd, and_self, if_true]
            rfl
          · simp only [counter, odd, and_false, if_true, if_false]
            exact ih _ _ _
        · simp only [counter, false_and, if_false]
          exact ih _ _ _

theorem transferRegisters_store {transfer : MultipleTransfer}
    (store : transfer.control.load = false) (registers : List Register) (address target : Word)
    (machine : Machine) :
    transferRegisters access transfer big registers address target machine =
      ({ machine with
          memory := (attempt (registerStores access big transfer machine.state registers
            address) machine.memory).1 },
        match (attempt (registerStores access big transfer machine.state registers address)
          machine.memory).2 with
        | some fault => .faulted fault
        | none => .finished target) := by
  induction registers generalizing address target machine with
  | nil => rfl
  | cons register rest ih =>
    unfold transferRegisters registerStores
    split
    · exact ih _ _ _
    · simp only [store, Bool.false_eq_true, if_false]
      cases access.writeFault address .word with
      | some fault => rfl
      | none => exact ih _ _ _

/-- The value of an element, as far as its parts have been read. -/
def elementData (memory : Memory) (address : Word) (size : Nat) :
    List Nat → BitVec 64 → BitVec 64
  | [], value => value
  | part :: rest, value =>
    let place := address + BitVec.ofNat 32 part
    let data := endian (memory.value place (partSize size)) (partSize size) big
    elementData memory address size rest (value ||| (data.setWidth 64 <<< partShift size part big))

def elementFault (address : Word) (size : Nat) (parts : List Nat) : Option MemoryFault :=
  parts.findSome? fun part => access.readFault (address + BitVec.ofNat 32 part) (partSize size)

theorem readElement_eq (memory : Memory) (address : Word) (size : Nat) (parts : List Nat)
    (value : BitVec 64) :
    readElement access memory address size big parts value =
      match elementFault access address size parts with
      | some fault => .error fault
      | none => .ok (elementData big memory address size parts value) := by
  induction parts generalizing value with
  | nil => rfl
  | cons part rest ih =>
    unfold readElement elementFault elementData
    rw [List.findSome?_cons]
    dsimp only
    cases access.readFault (address + BitVec.ofNat 32 part) (partSize size) with
    | some fault => rfl
    | none => exact ih _

def elementLoads (control : VectorControl) (memory : Memory) :
    List (Nat × Nat) → Word → List (StateStep MemoryFault)
  | [], _ => []
  | (register, lane) :: rest, address =>
    let parts := elementParts control.elementSize
    (elementFault access address control.elementSize parts,
      commitElement control register lane
        (elementData big memory address control.elementSize parts 0)) ::
          elementLoads control memory rest (address + BitVec.ofNat 32 control.elementSize)

def partStores (address : Word) (size : Nat) (value : BitVec 64) (parts : List Nat) :
    List MemoryStep :=
  parts.map fun part =>
    let place := address + BitVec.ofNat 32 part
    (access.writeFault place (partSize size), fun memory =>
      memory.store place (partSize size)
        (endian ((value >>> partShift size part big).setWidth 32) (partSize size) big))

theorem writeElement_eq (address : Word) (size : Nat) (value : BitVec 64) (parts : List Nat)
    (memory : Memory) :
    writeElement access address size big value parts memory =
      attempt (partStores access big address size value parts) memory := by
  induction parts generalizing memory with
  | nil => rfl
  | cons part rest ih =>
    unfold writeElement partStores
    rw [List.map_cons]
    dsimp only
    cases access.writeFault (address + BitVec.ofNat 32 part) (partSize size) with
    | some fault => rfl
    | none => exact ih _

def elementStores (control : VectorControl) (state : CpuThreadState) :
    List (Nat × Nat) → Word → List MemoryStep
  | [], _ => []
  | (register, lane) :: rest, address =>
    partStores access big address control.elementSize
        (elementValue state control register lane) (elementParts control.elementSize) ++
      elementStores control state rest (address + BitVec.ofNat 32 control.elementSize)

theorem transferElements_load {control : VectorControl} (load : control.load = true)
    (elements : List (Nat × Nat)) (address : Word) (machine : Machine) :
    transferElements access control big elements address machine =
      ({ machine with
          state := (attempt (elementLoads access big control machine.memory elements address)
            machine.state).1 },
        (attempt (elementLoads access big control machine.memory elements address)
          machine.state).2) := by
  induction elements generalizing address machine with
  | nil => rfl
  | cons element rest ih =>
    obtain ⟨register, lane⟩ := element
    unfold transferElements elementLoads
    simp only [load, if_true, readElement_eq]
    cases elementFault access address control.elementSize (elementParts control.elementSize) with
    | some fault => rfl
    | none => exact ih _ _

theorem transferElements_store {control : VectorControl} (store : control.load = false)
    (elements : List (Nat × Nat)) (address : Word) (machine : Machine) :
    transferElements access control big elements address machine =
      ({ machine with
          memory := (attempt (elementStores access big control machine.state elements address)
            machine.memory).1 },
        (attempt (elementStores access big control machine.state elements address)
          machine.memory).2) := by
  induction elements generalizing address machine with
  | nil => rfl
  | cons element rest ih =>
    obtain ⟨register, lane⟩ := element
    unfold transferElements elementStores
    simp only [store, Bool.false_eq_true, if_false, writeElement_eq, attempt_append]
    cases written : attempt (partStores access big address control.elementSize
        (elementValue machine.state control register lane) (elementParts control.elementSize))
        machine.memory with
    | mk memory outcome =>
      cases outcome with
      | some fault => rfl
      | none => exact ih _ { machine with memory }

/-! ### A second attempt -/

theorem retries_wordStores (words : List (Register × Word)) (address : Word) :
    Retries seeByte (wordStores access big words address)
      (wordStores .present big words address) := by
  induction words generalizing address with
  | nil => exact .nil
  | cons word rest ih =>
    exact .cons ⟨rfl, fun _ => rfl, overwrites_store _ _ _⟩ (ih _)

theorem retries_registerLoads (control : MultipleControl) (memory : Memory)
    (registers : List Register) (address : Word) :
    Retries seeState (registerLoads access big control memory registers address)
      (registerLoads .present big control memory registers address) := by
  induction registers generalizing address with
  | nil => exact .nil
  | cons register rest ih =>
    unfold registerLoads
    split
    · exact ih _
    · refine .cons ⟨rfl, ?_, ?_⟩ (ih _)
      · dsimp only [MemoryAccess.present]
        cases access.readFault address .word with
        | some fault => exact fun failed => absurd failed (by simp)
        | none => exact id
      · dsimp only
        by_cases counter : register = programCounter
        · simp only [if_pos counter]
          exact overwrites_id
        · simp only [if_neg counter]
          exact overwrites_setRegister _ _

theorem retries_registerStores (transfer : MultipleTransfer) (state : CpuThreadState)
    (registers : List Register) (address : Word) :
    Retries seeByte (registerStores access big transfer state registers address)
      (registerStores .present big transfer state registers address) := by
  induction registers generalizing address with
  | nil => exact .nil
  | cons register rest ih =>
    unfold registerStores
    split
    · exact ih _
    · exact .cons ⟨rfl, fun _ => rfl, overwrites_store _ _ _⟩ (ih _)

theorem retries_elementLoads (control : VectorControl) (memory : Memory)
    (elements : List (Nat × Nat)) (address : Word) :
    Retries seeState (elementLoads access big control memory elements address)
      (elementLoads .present big control memory elements address) := by
  have sound : ∀ address size (parts : List Nat),
      elementFault MemoryAccess.present address size parts = none := by
    intro address size parts
    exact List.findSome?_eq_none_iff.mpr fun _ _ => rfl
  induction elements generalizing address with
  | nil => exact .nil
  | cons element rest ih =>
    exact .cons ⟨rfl, fun _ => sound _ _ _, overwrites_commitElement _ _ _ _⟩ (ih _)

theorem retries_partStores (address : Word) (size : Nat) (value : BitVec 64) (parts : List Nat) :
    Retries seeByte (partStores access big address size value parts)
      (partStores .present big address size value parts) := by
  induction parts with
  | nil => exact .nil
  | cons part rest ih =>
    exact .cons ⟨rfl, fun _ => rfl, overwrites_store _ _ _⟩ ih

theorem retries_elementStores (control : VectorControl) (state : CpuThreadState)
    (elements : List (Nat × Nat)) (address : Word) :
    Retries seeByte (elementStores access big control state elements address)
      (elementStores .present big control state elements address) := by
  induction elements generalizing address with
  | nil => exact .nil
  | cons element rest ih =>
    exact (retries_partStores access big _ _ _ _).append (ih _)

end ILEmu.ArmMemory
