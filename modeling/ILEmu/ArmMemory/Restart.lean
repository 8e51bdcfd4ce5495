import ILEmu.Arm.DualTransfer
import ILEmu.ArmMemory.Attempts

/-! A transfer that has met with a data fault is executed again, when its pages are there:
it comes to the same as if there had been no fault, unless it has lost its base. -/
namespace ILEmu.ArmMemory
open Arm Foundation

/-- What a memory lets its clients know. -/
structure MemoryProfile where
  pcStoreOffset : Word := 8
  permitsUnaligned : Bool := false
  deriving DecidableEq, Repr

/-- An instruction is prepared and completed. -/
def execute (profile : MemoryProfile) (access : MemoryAccess) (inst : Instruction)
    (machine : Machine) : Machine × Completion :=
  match inst.kind with
  | .unsupported => (machine, { reason := .unsupportedInstruction })
  | .transfer | .tableBranch | .dualTransfer =>
    complete access machine (prepare machine.state inst profile.pcStoreOffset)
  | .multipleTransfer =>
    completeMultiple access machine (prepareMultiple machine.state inst profile.pcStoreOffset)
  | .vectorTransfer =>
    completeVector access machine (prepareVector machine.state inst profile.permitsUnaligned)

/-- The machine after the instruction has been executed again, with no faults. -/
def restarted (profile : MemoryProfile) (access : MemoryAccess) (inst : Instruction)
    (machine : Machine) : Machine :=
  (execute profile .present inst (execute profile access inst machine).1).1

def undisturbed (profile : MemoryProfile) (inst : Instruction) (machine : Machine) : Machine :=
  (execute profile .present inst machine).1

variable {profile : MemoryProfile} {access : MemoryAccess} {inst : Instruction} {machine : Machine}

/-! ### One word -/

theorem retireTransfer_reason (transfer : Transfer) (value : Word) :
    (retireTransfer machine transfer value).2.reason ≠ .dataFault := by
  unfold retireTransfer
  dsimp only
  split
  · nofun
  · split
    · nofun
    · nofun

/-- A fault of a single access leaves everything as it was. -/
theorem complete_fault {transfer : Transfer} (single : transfer.control.dual = false)
    (faults : (complete access machine transfer).2.reason = .dataFault) :
    (complete access machine transfer).1 = machine := by
  unfold complete at faults ⊢
  dsimp only at faults ⊢
  rw [single] at faults ⊢
  simp only [Bool.false_eq_true, if_false] at faults ⊢
  split at faults
  · contradiction
  · rename_i supported
    rw [if_neg supported]
    cases load : transfer.control.load with
    | true =>
      simp only [load, if_true] at faults ⊢
      cases fault : access.readFault transfer.address transfer.control.accessSize with
      | some fault => rfl
      | none =>
        rw [fault] at faults
        exact absurd faults (retireTransfer_reason _ _)
    | false =>
      simp only [load, Bool.false_eq_true, if_false] at faults ⊢
      cases fault : access.writeFault transfer.address transfer.control.accessSize with
      | some fault => rfl
      | none =>
        rw [fault] at faults
        exact absurd faults (retireTransfer_reason _ _)

/-! ### A list of registers -/

theorem setRegister_self (state : CpuThreadState) (register : Register) :
    state.setRegister register (state.registers register) = state := by
  unfold CpuThreadState.setRegister
  rw [Function.update_eq_self]

theorem registerLoads_keeps (big : Bool) (control : MultipleControl) (memory : Memory)
    (registers : List Register) (address : Word) :
    ∀ step ∈ registerLoads access big control memory registers address, ∀ state,
      ((step.2 state).registers programCounter, (step.2 state).cpsr) =
        (state.registers programCounter, state.cpsr) := by
  induction registers generalizing address with
  | nil => exact fun _ member => absurd member List.not_mem_nil
  | cons register rest ih =>
    unfold registerLoads
    split
    · exact ih _
    · intro step member state
      rcases List.mem_cons.mp member with rfl | later
      · dsimp only
        split
        · rfl
        · rename_i other
          simp only [CpuThreadState.setRegister, Function.update_of_ne (Ne.symm other)]
      · exact ih _ step later state

theorem prepareMultiple_congr {state state' : CpuThreadState} (offset : Word)
    (base : state'.registers inst.rn = state.registers inst.rn)
    (counter : state'.registers programCounter = state.registers programCounter) :
    prepareMultiple state' inst offset = prepareMultiple state inst offset := by
  unfold prepareMultiple
  rw [base, counter]

/-- What a fault leaves of the transfer of a list: the base is as it was. -/
theorem completeMultiple_fault {transfer : MultipleTransfer}
    (based : transfer.base = machine.state.registers transfer.control.rn)
    (faults : (completeMultiple access machine transfer).2.reason = .dataFault) :
    (completeMultiple access machine transfer).1 = machine ∨
      transfer.address &&& 3 = 0 ∧
        ((transfer.control.load = true ∧ (completeMultiple access machine transfer).1 =
          { machine with
            state := (attempt (registerLoads access machine.state.bigEndian transfer.control
              machine.memory (List.finRange 16) transfer.address)
                machine.state).1.setRegister transfer.control.rn transfer.base }) ∨
        (transfer.control.load = false ∧ (completeMultiple access machine transfer).1 =
          { machine with
            memory := (attempt (registerStores access machine.state.bigEndian transfer
              machine.state (List.finRange 16) transfer.address) machine.memory).1 })) := by
  have unchanged : machine.state.setRegister transfer.control.rn transfer.base = machine.state := by
    rw [based]
    exact setRegister_self _ _
  unfold completeMultiple at faults ⊢
  dsimp only at faults ⊢
  by_cases misaligned : transfer.address &&& 3 ≠ 0
  · rw [if_pos misaligned]
    left
    simp only [abort, unchanged]
  · rw [if_neg misaligned] at faults ⊢
    refine .inr ⟨not_not.mp misaligned, ?_⟩
    cases load : transfer.control.load with
    | true =>
      rw [transferRegisters_load access _ load] at faults ⊢
      refine .inl ⟨rfl, ?_⟩
      cases outcome : (attempt (registerLoads access machine.state.bigEndian transfer.control
          machine.memory (List.finRange 16) transfer.address) machine.state).2 with
      | none =>
        rw [outcome] at faults
        contradiction
      | some stop =>
        rw [outcome] at faults
        cases stop with
        | faulted fault => rfl
        | unsupported => contradiction
        | finished target => contradiction
    | false =>
      rw [transferRegisters_store access _ load] at faults ⊢
      refine .inr ⟨rfl, ?_⟩
      cases outcome : (attempt (registerStores access machine.state.bigEndian transfer
          machine.state (List.finRange 16) transfer.address) machine.memory).2 with
      | none =>
        rw [outcome] at faults
        contradiction
      | some fault =>
        simp only [abort, unchanged]

/-- The transfer of a list depends on the machine by the counter, the byte order and what the
attempt comes to. -/
theorem completeMultiple_congr {left : Machine} {transfer : MultipleTransfer}
    (counter : left.state.registers programCounter = machine.state.registers programCounter)
    (order : left.state.bigEndian = machine.state.bigEndian)
    (same : transferRegisters access transfer machine.state.bigEndian (List.finRange 16)
        transfer.address (machine.state.registers programCounter) left =
      transferRegisters access transfer machine.state.bigEndian (List.finRange 16)
        transfer.address (machine.state.registers programCounter) machine)
    (aligned : transfer.address &&& 3 = 0) :
    completeMultiple access left transfer = completeMultiple access machine transfer := by
  unfold completeMultiple
  dsimp only
  rw [if_neg (not_not.mpr aligned), if_neg (not_not.mpr aligned), counter, order, same]

/-- The transfer of a list starts over from its base. -/
theorem completeMultiple_again {offset : Word} {transfer : MultipleTransfer}
    (prepared : prepareMultiple machine.state inst offset = transfer)
    (faults : (completeMultiple access machine transfer).2.reason = .dataFault) :
    completeMultiple .present (completeMultiple access machine transfer).1
        (prepareMultiple (completeMultiple access machine transfer).1.state inst offset) =
      completeMultiple .present machine transfer := by
  have named : transfer.control.rn = inst.rn := by rw [← prepared]; rfl
  have based : transfer.base = machine.state.registers transfer.control.rn := by
    rw [named, ← prepared]
    rfl
  rcases completeMultiple_fault based faults with
    unchanged | ⟨aligned, ⟨load, left⟩ | ⟨store, left⟩⟩
  · rw [unchanged, prepared]
  · rw [left]
    generalize loads : registerLoads access machine.state.bigEndian transfer.control
      machine.memory (List.finRange 16) transfer.address = first
    generalize again : registerLoads .present machine.state.bigEndian transfer.control
      machine.memory (List.finRange 16) transfer.address = second
    have retries : Retries seeState first second := by
      rw [← loads, ← again]
      exact retries_registerLoads _ _ _ _ _ _
    have kept : ((attempt first machine.state).1.registers programCounter,
        (attempt first machine.state).1.cpsr) =
          (machine.state.registers programCounter, machine.state.cpsr) := by
      rw [← loads]
      exact attempt_keeps (fun s : CpuThreadState => (s.registers programCounter, s.cpsr))
        (registerLoads_keeps _ _ _ _ _) machine.state
    obtain ⟨counter, status⟩ := Prod.mk.inj kept
    generalize reached : ((attempt first machine.state).1.setRegister transfer.control.rn
      transfer.base) = state
    have base : state.registers inst.rn = machine.state.registers inst.rn := by
      rw [← reached, ← named, ← based]
      exact Function.update_self _ _ _
    have following : state.registers programCounter = machine.state.registers programCounter := by
      by_cases here : programCounter = inst.rn
      · rw [here, base]
      · rw [← reached, ← counter]
        exact Function.update_of_ne (named ▸ here) _ _
    have order : state.bigEndian = machine.state.bigEndian := by
      rw [← reached]
      exact congrArg (BitVec.getLsbD · 9) status
    have apart : ∀ cell, seeState state cell = seeState machine.state cell ∨
        ∃ f ∈ taken second, Covers seeState f cell := by
      intro cell
      rw [← reached]
      cases cell with
      | register register bit =>
        by_cases here : register = transfer.control.rn
        · subst here
          left
          simp only [seeState, CpuThreadState.setRegister, Function.update_self, based]
        · simp only [seeState, CpuThreadState.setRegister, Function.update_of_ne here]
          exact retries.apart machine.state (.register register bit)
      | extension index bit => exact retries.apart machine.state (.extension index bit)
      | status bit => exact retries.apart machine.state (.status bit)
    obtain ⟨same, outcome⟩ := retries.same apart
    rw [prepareMultiple_congr offset base following, prepared]
    have attempts : attempt second state = attempt second machine.state :=
      Prod.ext (state_ext same) outcome
    have transfers : transferRegisters .present transfer machine.state.bigEndian
        (List.finRange 16) transfer.address (machine.state.registers programCounter)
          { machine with state } =
        transferRegisters .present transfer machine.state.bigEndian
          (List.finRange 16) transfer.address (machine.state.registers programCounter) machine := by
      rw [transferRegisters_load _ _ load, transferRegisters_load _ _ load]
      dsimp only
      rw [again, attempts]
    exact completeMultiple_congr following order transfers aligned
  · rw [left, prepared]
    have transfers : transferRegisters .present transfer machine.state.bigEndian
        (List.finRange 16) transfer.address (machine.state.registers programCounter)
          { machine with
            memory := (attempt (registerStores access machine.state.bigEndian transfer
              machine.state (List.finRange 16) transfer.address) machine.memory).1 } =
        transferRegisters .present transfer machine.state.bigEndian
          (List.finRange 16) transfer.address (machine.state.registers programCounter) machine := by
      obtain ⟨same, outcome⟩ := (retries_registerStores access machine.state.bigEndian transfer
        machine.state (List.finRange 16) transfer.address).again machine.memory
      have stored := Prod.ext (funext same) outcome
      rw [transferRegisters_store _ _ store, transferRegisters_store _ _ store]
      dsimp only
      rw [stored]
    exact completeMultiple_congr rfl rfl transfers aligned

/-! ### Extension registers -/

theorem commitElement_keeps (control : VectorControl) (register lane : Nat) (value : BitVec 64)
    (state : CpuThreadState) :
    ((commitElement control register lane value state).registers,
      (commitElement control register lane value state).cpsr) = (state.registers, state.cpsr) := by
  unfold commitElement
  dsimp only
  split
  · induction List.range control.count generalizing state with
    | nil => rfl
    | cons i rest ih => exact ih _
  · split
    · rfl
    · rfl

theorem elementLoads_keeps (big : Bool) (control : VectorControl) (memory : Memory)
    (elements : List (Nat × Nat)) (address : Word) :
    ∀ step ∈ elementLoads access big control memory elements address, ∀ state,
      ((step.2 state).registers, (step.2 state).cpsr) = (state.registers, state.cpsr) := by
  induction elements generalizing address with
  | nil => exact fun _ member => absurd member List.not_mem_nil
  | cons element rest ih =>
    intro step member state
    rcases List.mem_cons.mp member with rfl | later
    · exact commitElement_keeps _ _ _ _ state
    · exact ih _ step later state

theorem prepareVector_congr {state state' : CpuThreadState} (permitsUnaligned : Bool)
    (same : state'.registers = state.registers) :
    prepareVector state' inst permitsUnaligned = prepareVector state inst permitsUnaligned := by
  unfold prepareVector readOperand
  rw [same]

theorem completeVector_fault {transfer : VectorTransfer}
    (faults : (completeVector access machine transfer).2.reason = .dataFault) :
    (completeVector access machine transfer).1 = machine ∨
      transfer.address &&& (transfer.alignment - 1) = 0 ∧
        (completeVector access machine transfer).1 =
          (transferElements access transfer.control machine.state.bigEndian
            (vectorElements transfer.control) transfer.address machine).1 := by
  unfold completeVector at faults ⊢
  dsimp only at faults ⊢
  by_cases misaligned : transfer.address &&& (transfer.alignment - 1) ≠ 0
  · rw [if_pos misaligned]
    exact .inl rfl
  · rw [if_neg misaligned] at faults ⊢
    refine .inr ⟨not_not.mp misaligned, ?_⟩
    cases outcome : transferElements access transfer.control machine.state.bigEndian
        (vectorElements transfer.control) transfer.address machine with
    | mk left stop =>
      rw [outcome] at faults
      cases stop with
      | some fault => rfl
      | none => contradiction

theorem completeVector_congr {left : Machine} {transfer : VectorTransfer}
    (order : left.state.bigEndian = machine.state.bigEndian)
    (same : transferElements access transfer.control machine.state.bigEndian
        (vectorElements transfer.control) transfer.address left =
      transferElements access transfer.control machine.state.bigEndian
        (vectorElements transfer.control) transfer.address machine)
    (aligned : transfer.address &&& (transfer.alignment - 1) = 0) :
    completeVector access left transfer = completeVector access machine transfer := by
  unfold completeVector
  dsimp only
  rw [if_neg (not_not.mpr aligned), if_neg (not_not.mpr aligned), order, same]

theorem completeVector_again {permitsUnaligned : Bool} {transfer : VectorTransfer}
    (prepared : prepareVector machine.state inst permitsUnaligned = transfer)
    (faults : (completeVector access machine transfer).2.reason = .dataFault) :
    completeVector .present (completeVector access machine transfer).1
        (prepareVector (completeVector access machine transfer).1.state inst permitsUnaligned) =
      completeVector .present machine transfer := by
  rcases completeVector_fault faults with unchanged | ⟨aligned, left⟩
  · rw [unchanged, prepared]
  · rw [left]
    cases load : transfer.control.load with
    | true =>
      rw [transferElements_load _ _ load]
      dsimp only
      generalize loads : elementLoads access machine.state.bigEndian transfer.control
        machine.memory (vectorElements transfer.control) transfer.address = first
      have kept : ((attempt first machine.state).1.registers, (attempt first machine.state).1.cpsr) =
          (machine.state.registers, machine.state.cpsr) := by
        rw [← loads]
        exact attempt_keeps (fun s : CpuThreadState => (s.registers, s.cpsr))
          (elementLoads_keeps _ _ _ _ _) machine.state
      obtain ⟨registers, status⟩ := Prod.mk.inj kept
      have order : (attempt first machine.state).1.bigEndian = machine.state.bigEndian :=
        congrArg (BitVec.getLsbD · 9) status
      rw [prepareVector_congr permitsUnaligned registers, prepared]
      have transfers : transferElements .present transfer.control machine.state.bigEndian
          (vectorElements transfer.control) transfer.address
            { machine with state := (attempt first machine.state).1 } =
          transferElements .present transfer.control machine.state.bigEndian
            (vectorElements transfer.control) transfer.address machine := by
        obtain ⟨same, outcome⟩ := (retries_elementLoads access machine.state.bigEndian
          transfer.control machine.memory (vectorElements transfer.control)
            transfer.address).again machine.state
        rw [loads] at same outcome
        have loaded := Prod.ext (state_ext same) outcome
        rw [transferElements_load _ _ load, transferElements_load _ _ load]
        dsimp only
        rw [loaded]
      exact completeVector_congr order transfers aligned
    | false =>
      rw [transferElements_store _ _ load]
      dsimp only
      rw [prepared]
      have transfers : transferElements .present transfer.control machine.state.bigEndian
          (vectorElements transfer.control) transfer.address
            { machine with
              memory := (attempt (elementStores access machine.state.bigEndian transfer.control
                machine.state (vectorElements transfer.control) transfer.address)
                  machine.memory).1 } =
          transferElements .present transfer.control machine.state.bigEndian
            (vectorElements transfer.control) transfer.address machine := by
        obtain ⟨same, outcome⟩ := (retries_elementStores access machine.state.bigEndian
          transfer.control machine.state (vectorElements transfer.control)
            transfer.address).again machine.memory
        have stored := Prod.ext (funext same) outcome
        rw [transferElements_store _ _ load, transferElements_store _ _ load]
        dsimp only
        rw [stored]
      exact completeVector_congr rfl transfers aligned

/-! ### Two words -/

/-- The word of the base register that the first load leaves. -/
def firstWord (machine : Machine) (address : Word) : Word :=
  endian (machine.memory.value address .word) .word machine.state.bigEndian

def secondWord (machine : Machine) (address : Word) : Word :=
  endian (machine.memory.value (address + 4) .word) .word machine.state.bigEndian

/-- The registers after two words have been loaded. -/
def loadedWords (state : CpuThreadState) (transfer : Transfer) (first second : Word) :
    CpuThreadState :=
  let state := (state.setRegister transfer.control.rd first).setRegister transfer.control.rs second
  CpuThreadState.advance
    (if transfer.control.writeback then
      state.setRegister transfer.control.rn transfer.updatedBase
    else state) transfer.control.size

theorem completeDual_present {transfer : Transfer} (load : transfer.control.load = true)
    (aligned : transfer.address &&& 3 = 0) :
    completeDual .present machine transfer =
      ({ machine with
          state := loadedWords machine.state transfer (firstWord machine transfer.address)
            (secondWord machine transfer.address) }, {}) := by
  unfold completeDual
  dsimp only
  rw [if_neg (not_not.mpr aligned), load, transferWords_load]
  rfl

theorem completeDual_load_fault {transfer : Transfer} (load : transfer.control.load = true)
    (faults : (completeDual access machine transfer).2.reason = .dataFault) :
    (completeDual access machine transfer).1 = machine ∧
        (transfer.address &&& 3 ≠ 0 ∨ access.readFault transfer.address .word ≠ none) ∨
      (transfer.address &&& 3 = 0 ∧ access.readFault transfer.address .word = none ∧
        (completeDual access machine transfer).1 =
          { machine with
            state := machine.state.setRegister transfer.control.rd
              (firstWord machine transfer.address) }) := by
  unfold completeDual at faults ⊢
  dsimp only at faults ⊢
  by_cases misaligned : transfer.address &&& 3 ≠ 0
  · rw [if_pos misaligned]
    exact .inl ⟨rfl, .inl misaligned⟩
  · rw [if_neg misaligned] at faults ⊢
    rw [load, transferWords_load] at faults ⊢
    unfold wordLoads wordLoads at faults ⊢
    cases first : access.readFault transfer.address .word with
    | some fault =>
      rw [first] at faults
      exact .inl ⟨rfl, .inr (by simp)⟩
    | none =>
      refine .inr ⟨not_not.mp misaligned, rfl, ?_⟩
      rw [first] at faults
      dsimp only [attempt] at faults ⊢
      cases second : access.readFault (transfer.address + 4) .word with
      | some fault => rfl
      | none =>
        rw [second] at faults
        contradiction

theorem completeDual_store_fault {transfer : Transfer} (store : transfer.control.load = false)
    (faults : (completeDual access machine transfer).2.reason = .dataFault) :
    (completeDual access machine transfer).1 = machine ∨
      transfer.address &&& 3 = 0 ∧
        (completeDual access machine transfer).1 =
          { machine with
            memory := (attempt (wordStores access machine.state.bigEndian
              [(transfer.control.rd, transfer.value), (transfer.control.rs, transfer.secondValue)]
              transfer.address) machine.memory).1 } := by
  unfold completeDual at faults ⊢
  dsimp only at faults ⊢
  by_cases misaligned : transfer.address &&& 3 ≠ 0
  · rw [if_pos misaligned]
    exact .inl rfl
  · rw [if_neg misaligned] at faults ⊢
    rw [store, transferWords_store] at faults ⊢
    refine .inr ⟨not_not.mp misaligned, ?_⟩
    cases outcome : (attempt (wordStores access machine.state.bigEndian
        [(transfer.control.rd, transfer.value), (transfer.control.rs, transfer.secondValue)]
        transfer.address) machine.memory).2 with
    | some fault => rfl
    | none =>
      rw [outcome] at faults
      contradiction

theorem completeDual_store_again {transfer : Transfer} (store : transfer.control.load = false)
    {offset : Word} (prepared : prepare machine.state inst offset = transfer)
    (faults : (completeDual access machine transfer).2.reason = .dataFault) :
    completeDual .present (completeDual access machine transfer).1
        (prepare (completeDual access machine transfer).1.state inst offset) =
      completeDual .present machine transfer := by
  rcases completeDual_store_fault store faults with unchanged | ⟨aligned, left⟩
  · rw [unchanged, prepared]
  · rw [left]
    dsimp only
    rw [prepared]
    obtain ⟨same, outcome⟩ := (retries_wordStores access machine.state.bigEndian
      [(transfer.control.rd, transfer.value), (transfer.control.rs, transfer.secondValue)]
      transfer.address).again machine.memory
    have stored := Prod.ext (funext same) outcome
    unfold completeDual
    dsimp only
    rw [if_neg (not_not.mpr aligned), if_neg (not_not.mpr aligned), store, transferWords_store,
      transferWords_store]
    dsimp only
    rw [stored]

theorem readOperand_setRegister (state : CpuThreadState) {register other : Register}
    (different : register ≠ other) (counter : other ≠ programCounter) (value : Word) :
    readOperand (state.setRegister other value) inst register = readOperand state inst register := by
  unfold readOperand CpuThreadState.setRegister
  dsimp only
  rw [Function.update_of_ne different, Function.update_of_ne (Ne.symm counter)]

theorem transferOffset_setRegister (state : CpuThreadState) {other : Register}
    (counter : other ≠ programCounter)
    (different : inst.immediateOperand = false → inst.rm ≠ other) (value : Word) :
    transferOffset (state.setRegister other value) inst = transferOffset state inst := by
  unfold transferOffset
  cases immediate : inst.immediateOperand with
  | true => rfl
  | false =>
    rw [readOperand_setRegister state (different immediate) counter]
    rfl

theorem prepare_setRegister (state : CpuThreadState) (offset : Word) (apart : inst.rn ≠ inst.rd)
    (counter : inst.rd ≠ programCounter)
    (different : inst.immediateOperand = false → inst.rm ≠ inst.rd) (value : Word) :
    (prepare (state.setRegister inst.rd value) inst offset).address =
        (prepare state inst offset).address ∧
      (prepare (state.setRegister inst.rd value) inst offset).updatedBase =
        (prepare state inst offset).updatedBase ∧
      (prepare (state.setRegister inst.rd value) inst offset).control =
        (prepare state inst offset).control := by
  unfold prepare
  dsimp only
  rw [readOperand_setRegister state apart counter, transferOffset_setRegister state counter different]
  exact ⟨rfl, rfl, rfl⟩

/-- Loads do not look at the values of the registers that they write. -/
theorem completeDual_load_congr {transfer transfer' : Transfer}
    (load : transfer.control.load = true) (address : transfer'.address = transfer.address)
    (base : transfer'.updatedBase = transfer.updatedBase)
    (control : transfer'.control = transfer.control) :
    completeDual access machine transfer' = completeDual access machine transfer := by
  unfold completeDual
  dsimp only
  rw [address, base, control, load, transferWords_load, transferWords_load]
  rfl

theorem loadedWords_again (state : CpuThreadState) (transfer : Transfer) (first second : Word) :
    loadedWords (state.setRegister transfer.control.rd first) transfer first second =
      loadedWords state transfer first second := by
  unfold loadedWords CpuThreadState.setRegister
  dsimp only
  rw [Function.update_idem]

/-! ### Every transfer -/

/-- What the decoder makes of a word; the other families may have any operands. -/
def Decoded (inst : Instruction) : Prop :=
  inst.kind = .dualTransfer → ∃ out word thumb armv6t2Extensions,
    out.kind = .unsupported ∧ out.size = 4 ∧
      decodeDualTransfer out word thumb armv6t2Extensions = some inst

/-- The registers, the program counter among them, and the memory are those of an execution
without a fault. -/
def Restartable (profile : MemoryProfile) (access : MemoryAccess) (inst : Instruction)
    (machine : Machine) : Prop :=
  let again := restarted profile access inst machine
  let once := undisturbed profile inst machine
  again.state.registers = once.state.registers ∧
    again.state.extensionRegisters = once.state.extensionRegisters ∧ again.memory = once.memory

/-- A load of two words into its base register and another one has loaded the first word. -/
structure LosesBase (profile : MemoryProfile) (access : MemoryAccess) (inst : Instruction)
    (machine : Machine) : Prop where
  dual : inst.kind = .dualTransfer
  load : inst.load = true
  overlaps : inst.rn = inst.rd
  aligned : (prepare machine.state inst profile.pcStoreOffset).address &&& 3 = 0
  loaded : access.readFault (prepare machine.state inst profile.pcStoreOffset).address .word = none

/-- The address that the loaded word leads to as a base. -/
def movedAddress (profile : MemoryProfile) (inst : Instruction) (machine : Machine) : Word :=
  let address := (prepare machine.state inst profile.pcStoreOffset).address
  (prepare (machine.state.setRegister inst.rd (firstWord machine address)) inst
    profile.pcStoreOffset).address

/-- The same two words are there. -/
structure Rereads (profile : MemoryProfile) (inst : Instruction) (machine : Machine) : Prop where
  aligned : movedAddress profile inst machine &&& 3 = 0
  first : machine.memory.value (movedAddress profile inst machine) .word =
    machine.memory.value (prepare machine.state inst profile.pcStoreOffset).address .word
  second : machine.memory.value (movedAddress profile inst machine + 4) .word =
    machine.memory.value ((prepare machine.state inst profile.pcStoreOffset).address + 4) .word

/-- A fault in the first word of a load, or one that leaves the base alone. -/
theorem completeDual_load_again {offset : Word} {transfer : Transfer} {size : Nat}
    (operands : DecodedDual inst size) (prepared : prepare machine.state inst offset = transfer)
    (load : inst.load = true)
    (keeps : ¬(inst.rn = inst.rd ∧ transfer.address &&& 3 = 0 ∧
      access.readFault transfer.address .word = none))
    (faults : (completeDual access machine transfer).2.reason = .dataFault) :
    completeDual .present (completeDual access machine transfer).1
        (prepare (completeDual access machine transfer).1.state inst offset) =
      completeDual .present machine transfer := by
  have loads : transfer.control.load = true := by
    rw [← prepared]
    exact load
  rcases completeDual_load_fault loads faults with ⟨unchanged, -⟩ | ⟨aligned, first, left⟩
  · rw [unchanged, prepared]
  · have apart : inst.rn ≠ inst.rd := fun same => keeps ⟨same, aligned, first⟩
    have named : transfer.control.rd = inst.rd := by
      rw [← prepared]
      rfl
    obtain ⟨address, base, control⟩ := prepare_setRegister machine.state offset apart
      operands.destination (fun register => (operands.offset load register).1)
      (firstWord machine transfer.address)
    rw [prepared] at address base control
    rw [left, named]
    dsimp only
    rw [completeDual_load_congr loads address base control, completeDual_present loads aligned,
      completeDual_present loads aligned]
    have again := loadedWords_again machine.state transfer (firstWord machine transfer.address)
      (secondWord machine transfer.address)
    rw [named] at again
    exact congrArg (fun state => (({ machine with state } : Machine), ({} : Completion))) again

theorem execute_dual (dual : inst.kind = .dualTransfer) :
    execute profile access inst machine =
      completeDual access machine (prepare machine.state inst profile.pcStoreOffset) := by
  have two : (prepare machine.state inst profile.pcStoreOffset).control.dual = true :=
    decide_eq_true dual
  unfold execute
  rw [dual]
  dsimp only
  unfold complete
  dsimp only
  rw [if_pos two]

/-- What the two executions of an instruction that loses its base come to. -/
theorem LosesBase.results (loses : LosesBase profile access inst machine)
    (faults : (execute profile access inst machine).2.reason = .dataFault) :
    let transfer := prepare machine.state inst profile.pcStoreOffset
    let left := machine.state.setRegister inst.rd (firstWord machine transfer.address)
    restarted profile access inst machine =
        (completeDual .present { machine with state := left }
          (prepare left inst profile.pcStoreOffset)).1 ∧
      undisturbed profile inst machine =
        { machine with
          state := loadedWords machine.state transfer (firstWord machine transfer.address)
            (secondWord machine transfer.address) } := by
  dsimp only
  have load : (prepare machine.state inst profile.pcStoreOffset).control.load = true := loses.load
  rw [execute_dual loses.dual] at faults
  constructor
  · unfold restarted
    rw [execute_dual loses.dual, execute_dual loses.dual]
    rcases completeDual_load_fault load faults with
      ⟨-, misaligned | early⟩ | ⟨-, -, left⟩
    · exact absurd loses.aligned misaligned
    · exact absurd loses.loaded early
    · rw [left]
      rfl
  · unfold undisturbed
    rw [execute_dual loses.dual, completeDual_present load loses.aligned]

/-- The registers that two loads without a writeback leave. -/
theorem loadedWords_registers (state : CpuThreadState) (transfer : Transfer)
    (plain : transfer.control.writeback = false) (first second : Word)
    (distinct : transfer.control.rd ≠ transfer.control.rs)
    (destination : transfer.control.rd ≠ programCounter)
    (other : transfer.control.rs ≠ programCounter) :
    (loadedWords state transfer first second).registers transfer.control.rd = first ∧
      (loadedWords state transfer first second).registers transfer.control.rs = second ∧
      (loadedWords state transfer first second).registers programCounter =
        state.registers programCounter + BitVec.ofNat 32 transfer.control.size := by
  unfold loadedWords CpuThreadState.advance CpuThreadState.setRegister
  simp only [plain, Bool.false_eq_true, if_false]
  refine ⟨?_, ?_, ?_⟩
  · rw [Function.update_of_ne destination, Function.update_of_ne distinct, Function.update_self]
  · rw [Function.update_of_ne other, Function.update_self]
  · rw [Function.update_self, Function.update_of_ne (Ne.symm other),
      Function.update_of_ne (Ne.symm destination)]

/-- The base that has been loaded leads to the same words, or the loads are lost. -/
theorem LosesBase.again_iff (loses : LosesBase profile access inst machine) {size : Nat}
    (operands : DecodedDual inst size) (positive : BitVec.ofNat 32 size ≠ 0)
    (faults : (execute profile access inst machine).2.reason = .dataFault) :
    Restartable profile access inst machine ↔ Rereads profile inst machine := by
  obtain ⟨again, once⟩ := loses.results faults
  have plain : inst.writeback = false := by
    by_contra writeback
    exact (operands.base (by simpa using writeback)).1 loses.overlaps
  have distinct := operands.distinct loses.load
  -- The two executions differ by the address only.
  generalize prepared : prepare machine.state inst profile.pcStoreOffset = transfer at again once
  generalize reached : machine.state.setRegister inst.rd (firstWord machine transfer.address) =
    left at again
  generalize moved : prepare left inst profile.pcStoreOffset = transfer' at again
  have control : transfer.control = ArmMemory.control inst := by rw [← prepared]; rfl
  have control' : transfer'.control = ArmMemory.control inst := by rw [← moved]; rfl
  have place : movedAddress profile inst machine = transfer'.address := by
    rw [← moved, ← reached, ← prepared]
    rfl
  have order : left.bigEndian = machine.state.bigEndian := by rw [← reached]; rfl
  obtain ⟨first, second, counter⟩ := loadedWords_registers machine.state
    transfer (by rw [control]; exact plain) (firstWord machine transfer.address)
    (secondWord machine transfer.address) (by rw [control]; exact distinct)
    (by rw [control]; exact operands.destination) (by rw [control]; exact operands.second)
  constructor
  · intro restartable
    have registers : (restarted profile access inst machine).state.registers =
        (undisturbed profile inst machine).state.registers := restartable.1
    rw [again, once] at registers
    by_cases aligned : transfer'.address &&& 3 = 0
    · have load : transfer'.control.load = true := by
        rw [control']
        exact loses.load
      rw [completeDual_present load aligned] at registers
      obtain ⟨first', second', -⟩ := loadedWords_registers left transfer'
        (by rw [control']; exact plain)
        (firstWord { machine with state := left } transfer'.address)
        (secondWord { machine with state := left } transfer'.address)
        (by rw [control']; exact distinct)
        (by rw [control']; exact operands.destination) (by rw [control']; exact operands.second)
      have named : transfer'.control = transfer.control := control'.trans control.symm
      have firsts := first'.symm.trans (congrFun registers transfer'.control.rd)
      have seconds := second'.symm.trans (congrFun registers transfer'.control.rs)
      rw [named] at firsts seconds
      replace firsts := firsts.trans first
      replace seconds := seconds.trans second
      unfold firstWord at firsts
      unfold secondWord at seconds
      dsimp only at firsts seconds
      rw [order] at firsts seconds
      constructor
      · rw [place]
        exact aligned
      · rw [place, prepared]
        exact endian_injective firsts
      · rw [place, prepared]
        exact endian_injective seconds
    · have stopped : (completeDual .present { machine with state := left } transfer').1.state =
          left := by
        unfold completeDual
        dsimp only
        rw [if_pos aligned]
        rfl
      have stays : left.registers programCounter = machine.state.registers programCounter := by
        rw [← reached]
        exact Function.update_of_ne (Ne.symm operands.destination) _ _
      have equal := congrFun registers programCounter
      rw [stopped, stays, counter, control] at equal
      have zero := BitVec.self_eq_add_right.mp equal
      have width : (ArmMemory.control inst).size = size := operands.width
      rw [width] at zero
      exact absurd zero positive
  · intro rereads
    have aligned := rereads.aligned
    have firsts := rereads.first
    have seconds := rereads.second
    rw [place] at aligned firsts seconds
    rw [prepared] at firsts seconds
    have load : transfer'.control.load = true := by
      rw [control']
      exact loses.load
    have same : restarted profile access inst machine = undisturbed profile inst machine := by
      rw [again, once, completeDual_present load aligned]
      have words : loadedWords left transfer'
          (firstWord { machine with state := left } transfer'.address)
          (secondWord { machine with state := left } transfer'.address) =
          loadedWords machine.state transfer (firstWord machine transfer.address)
            (secondWord machine transfer.address) := by
        unfold firstWord secondWord
        dsimp only
        rw [order, firsts, seconds]
        have repeated := loadedWords_again machine.state transfer (firstWord machine transfer.address)
          (secondWord machine transfer.address)
        have named : transfer.control.rd = inst.rd := by rw [control]; rfl
        rw [named, reached] at repeated
        have alike : ∀ state first second, loadedWords state transfer' first second =
            loadedWords state transfer first second := by
          intro state first second
          have unwritten : (ArmMemory.control inst).writeback = false := plain
          unfold loadedWords
          rw [control', control, unwritten]
          rfl
        rw [alike]
        exact repeated
      rw [words]
    unfold Restartable
    rw [same]
    exact ⟨rfl, rfl, rfl⟩

theorem restartable_of_eq
    (same : restarted profile access inst machine = undisturbed profile inst machine) :
    Restartable profile access inst machine := by
  unfold Restartable
  rw [same]
  exact ⟨rfl, rfl, rfl⟩

theorem restarted_single (single : inst.kind = .transfer ∨ inst.kind = .tableBranch)
    (faults : (execute profile access inst machine).2.reason = .dataFault) :
    restarted profile access inst machine = undisturbed profile inst machine := by
  have one : (prepare machine.state inst profile.pcStoreOffset).control.dual = false := by
    rcases single with kind | kind
    · exact decide_eq_false (by rw [kind]; decide)
    · exact decide_eq_false (by rw [kind]; decide)
  have executes : execute profile access inst machine =
      complete access machine (prepare machine.state inst profile.pcStoreOffset) := by
    unfold execute
    rcases single with kind | kind
    · rw [kind]
    · rw [kind]
  rw [executes] at faults
  unfold restarted undisturbed
  rw [executes, complete_fault one faults]

theorem restarted_multiple (multiple : inst.kind = .multipleTransfer)
    (faults : (execute profile access inst machine).2.reason = .dataFault) :
    restarted profile access inst machine = undisturbed profile inst machine := by
  unfold restarted undisturbed execute at *
  rw [multiple] at faults ⊢
  exact congrArg Prod.fst (completeMultiple_again rfl faults)

theorem restarted_vector (vector : inst.kind = .vectorTransfer)
    (faults : (execute profile access inst machine).2.reason = .dataFault) :
    restarted profile access inst machine = undisturbed profile inst machine := by
  unfold restarted undisturbed execute at *
  rw [vector] at faults ⊢
  exact congrArg Prod.fst (completeVector_again rfl faults)

/-- A dual transfer that has not lost its base. -/
theorem restarted_dual {size : Nat} (operands : DecodedDual inst size)
    (dual : inst.kind = .dualTransfer) (keeps : ¬LosesBase profile access inst machine)
    (faults : (execute profile access inst machine).2.reason = .dataFault) :
    restarted profile access inst machine = undisturbed profile inst machine := by
  rw [execute_dual dual] at faults
  unfold restarted undisturbed
  rw [execute_dual dual, execute_dual dual, execute_dual dual]
  cases load : inst.load with
  | true =>
    have kept : ¬(inst.rn = inst.rd ∧
        (prepare machine.state inst profile.pcStoreOffset).address &&& 3 = 0 ∧
        access.readFault (prepare machine.state inst profile.pcStoreOffset).address .word = none) :=
      fun ⟨overlaps, aligned, loaded⟩ => keeps ⟨dual, load, overlaps, aligned, loaded⟩
    exact congrArg Prod.fst (completeDual_load_again operands rfl load kept faults)
  | false => exact congrArg Prod.fst (completeDual_store_again load rfl faults)

/-- A transfer that has met with a data fault can be executed again exactly if it has not
loaded over its base, or the loaded base leads to the same two words. -/
theorem restartable_iff {profile : MemoryProfile} {access : MemoryAccess} {inst : Instruction}
    {machine : Machine} (decoded : Decoded inst)
    (faults : (execute profile access inst machine).2.reason = .dataFault) :
    Restartable profile access inst machine ↔
      (LosesBase profile access inst machine → Rereads profile inst machine) := by
  cases kind : inst.kind with
  | unsupported =>
    unfold execute at faults
    rw [kind] at faults
    contradiction
  | transfer =>
    have same := restartable_of_eq (restarted_single (.inl kind) faults)
    exact ⟨fun _ loses => absurd (kind.symm.trans loses.dual) (by decide), fun _ => same⟩
  | tableBranch =>
    have same := restartable_of_eq (restarted_single (.inr kind) faults)
    exact ⟨fun _ loses => absurd (kind.symm.trans loses.dual) (by decide), fun _ => same⟩
  | multipleTransfer =>
    have same := restartable_of_eq (restarted_multiple kind faults)
    exact ⟨fun _ loses => absurd (kind.symm.trans loses.dual) (by decide), fun _ => same⟩
  | vectorTransfer =>
    have same := restartable_of_eq (restarted_vector kind faults)
    exact ⟨fun _ loses => absurd (kind.symm.trans loses.dual) (by decide), fun _ => same⟩
  | dualTransfer =>
    obtain ⟨out, word, thumb, extensions, fresh, size, found⟩ := decoded kind
    have operands := decodeDualTransfer_decoded fresh found kind
    by_cases loses : LosesBase profile access inst machine
    · have positive : BitVec.ofNat 32 out.size ≠ 0 := by
        rw [size]
        decide
      rw [loses.again_iff operands positive faults]
      exact ⟨fun rereads _ => rereads, fun rereads => rereads loses⟩
    · have same := restartable_of_eq (restarted_dual operands kind loses faults)
      exact ⟨fun _ yes => absurd yes loses, fun _ => same⟩

/-! ### A load over its base -/

/-- `LDRD r0, r1, [r0]` -/
def loadOverBase : Instruction where
  kind := .dualTransfer
  rd := 0
  rs := 1
  load := true
  immediateOperand := true
  accessSize := .word

/-- The second word is on the page that is missing. -/
def missingPage : MemoryAccess where
  readFault := fun address _ => if 0x1000 ≤ address then some { address, status := 7 } else none
  writeFault := fun _ _ => none

def beforePage : Machine where
  state := { registers := fun register => if register = 0 then 0xffc else 0 }
  memory := fun place => if place = 0xffc then 0x20 else 0

theorem restartable_loadOverBase :
    Restartable {} missingPage loadOverBase beforePage ↔
      (LosesBase {} missingPage loadOverBase beforePage → Rereads {} loadOverBase beforePage) :=
  restartable_iff (fun _ => ⟨{}, 0xe1c000d0, false, true, rfl, rfl, by decide⟩) (by decide)

/-- The first word replaces the base, and the second execution loads from elsewhere. -/
theorem loadOverBase_not_restartable :
    decodeDualTransfer {} 0xe1c000d0 false true = some loadOverBase ∧
      (execute {} missingPage loadOverBase beforePage).2.reason = .dataFault ∧
      ¬Restartable {} missingPage loadOverBase beforePage := by
  refine ⟨by decide, by decide, ?_⟩
  intro restartable
  exact absurd (congrFun restartable.1 0) (by decide)

end ILEmu.ArmMemory
