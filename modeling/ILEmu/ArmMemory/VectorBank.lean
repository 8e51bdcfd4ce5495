import ILEmu.ArmMemory.Restart
import ILEmu.ArmMemory.VectorControl

/-! A decoded vector transfer stays within the extension registers, and moves as many elements as
its operands say. -/
namespace ILEmu.ArmMemory
open Arm Foundation

/-- The elements that the operands stand for. -/
def architecturalElements (operands : VectorTransferOperands) : Nat :=
  match operands.mode with
  | .multiple => operands.count * (8 / operands.elementSize)
  | .lane | .replicate => 1
  | .scalarMultiple => operands.count

/-- The words of the extension registers that an element reads or writes. -/
def touchedWords (control : VectorControl) (element : Nat × Nat) : List Nat :=
  if control.mode = .replicate then
    (List.range control.count).flatMap fun i =>
      [(control.first + i) * 2, (control.first + i) * 2 + 1]
  else
    let index := elementIndex control element.1 element.2
    if control.elementSize = 8 then [index, index + 1] else [index]

section
variable (access : MemoryAccess) (control : VectorControl) (big : Bool)

/-- The elements that have been moved when a transfer ends or meets with a fault. -/
def movedElements : List (Nat × Nat) → Word → Machine → List (Nat × Nat)
  | [], _, _ => []
  | element :: rest, address, machine =>
    match transferElements access control big [element] address machine with
    | (_, some _) => []
    | (machine, none) =>
      element :: movedElements rest (address + BitVec.ofNat 32 control.elementSize) machine

/-- A transfer goes on after an element if it has not met with a fault. -/
theorem transferElements_cons (element : Nat × Nat) (rest : List (Nat × Nat)) (address : Word)
    (machine : Machine) :
    transferElements access control big (element :: rest) address machine =
      match transferElements access control big [element] address machine with
      | (machine, some fault) => (machine, some fault)
      | (machine, none) => transferElements access control big rest
          (address + BitVec.ofNat 32 control.elementSize) machine := by
  obtain ⟨register, lane⟩ := element
  simp only [transferElements]
  cases control.load with
  | true =>
    simp only [if_true]
    cases readElement access machine.memory address control.elementSize big
      (elementParts control.elementSize) 0 with
    | error fault => rfl
    | ok value => rfl
  | false =>
    simp only [Bool.false_eq_true, if_false]
    rcases writeElement access address control.elementSize big
      (elementValue machine.state control register lane) (elementParts control.elementSize)
      machine.memory with ⟨memory, _ | fault⟩
    · rfl
    · rfl

/-- Everything is moved, or a fault has come before the end. -/
theorem movedElements_spec (elements : List (Nat × Nat)) (address : Word) (machine : Machine) :
    movedElements access control big elements address machine <+: elements ∧
      ((transferElements access control big elements address machine).2 = none ↔
        movedElements access control big elements address machine = elements) := by
  induction elements generalizing address machine with
  | nil => exact ⟨List.prefix_rfl, fun _ => rfl, fun _ => rfl⟩
  | cons element rest ih =>
    unfold movedElements
    rw [transferElements_cons access control big element rest]
    split
    · exact ⟨List.nil_prefix, nofun, nofun⟩
    · rename_i next _
      obtain ⟨before, all⟩ := ih (address + BitVec.ofNat 32 control.elementSize) next
      refine ⟨(List.prefix_cons_inj element).mpr before, ?_⟩
      rw [List.cons.injEq, all]
      simp

/-! ### One element -/

theorem setExtension_of_ne (state : CpuThreadState) {index i : Nat} (value : Word)
    (other : i ≠ index) :
    (state.setExtension index value).extensionRegisters i = state.extensionRegisters i :=
  Function.update_of_ne other _ _

/-- An element is written to no other words. -/
theorem commitElement_frame (element : Nat × Nat) (value : BitVec 64) (state : CpuThreadState)
    {i : Nat} (untouched : i ∉ touchedWords control element) :
    (commitElement control element.1 element.2 value state).extensionRegisters i =
      state.extensionRegisters i := by
  unfold touchedWords at untouched
  unfold commitElement
  dsimp only at untouched ⊢
  split
  · rename_i replicates
    rw [if_pos replicates, List.mem_flatMap] at untouched
    generalize replicated control.elementSize value = all
    have apart : ∀ j ∈ List.range control.count,
        i ≠ (control.first + j) * 2 ∧ i ≠ (control.first + j) * 2 + 1 := by
      intro j member
      refine ⟨fun same => untouched ⟨j, member, ?_⟩, fun same => untouched ⟨j, member, ?_⟩⟩
      · rw [same]
        exact List.mem_cons_self
      · rw [same]
        exact List.mem_cons_of_mem _ List.mem_cons_self
    clear untouched
    generalize List.range control.count = entries at apart
    induction entries generalizing state with
    | nil => rfl
    | cons j rest ih =>
      obtain ⟨low, high⟩ := apart j List.mem_cons_self
      rw [List.foldl_cons, ih _ fun j member => apart j (List.mem_cons_of_mem _ member),
        setExtension_of_ne _ _ high, setExtension_of_ne _ _ low]
  · rename_i single
    rw [if_neg single] at untouched
    split
    · rename_i double
      rw [if_pos double] at untouched
      simp only [List.mem_cons, List.not_mem_nil, or_false, not_or] at untouched
      rw [setExtension_of_ne _ _ untouched.2, setExtension_of_ne _ _ untouched.1]
    · rename_i narrow
      rw [if_neg narrow, List.mem_singleton] at untouched
      exact setExtension_of_ne _ _ untouched

/-- A step moves an element between its words and memory, and nothing else. -/
theorem element_frame (element : Nat × Nat) (address : Word) (machine : Machine) :
    let after := (transferElements access control big [element] address machine).1.state
    after.registers = machine.state.registers ∧ after.cpsr = machine.state.cpsr ∧
      ∀ i ∉ touchedWords control element,
        after.extensionRegisters i = machine.state.extensionRegisters i := by
  obtain ⟨register, lane⟩ := element
  simp only [transferElements]
  cases control.load with
  | true =>
    simp only [if_true]
    cases readElement access machine.memory address control.elementSize big
      (elementParts control.elementSize) 0 with
    | error fault => exact ⟨rfl, rfl, fun _ _ => rfl⟩
    | ok value =>
      obtain ⟨registers, cpsr⟩ :=
        Prod.mk.inj (commitElement_keeps control register lane value machine.state)
      exact ⟨registers, cpsr,
        fun i untouched => commitElement_frame control (register, lane) value machine.state untouched⟩
  | false =>
    simp only [Bool.false_eq_true, if_false]
    rcases writeElement access address control.elementSize big
      (elementValue machine.state control register lane) (elementParts control.elementSize)
      machine.memory with ⟨memory, _ | fault⟩
    · exact ⟨rfl, rfl, fun _ _ => rfl⟩
    · exact ⟨rfl, rfl, fun _ _ => rfl⟩

end

/-! ### Agreement -/

/-- Machines that agree but for core registers, and for what is not an extension register. -/
structure SameBank (left right : Machine) : Prop where
  memory : left.memory = right.memory
  cpsr : left.state.cpsr = right.state.cpsr
  extension : ∀ i < 64, left.state.extensionRegisters i = right.state.extensionRegisters i

/-- The words that an element touches are extension registers. -/
def InBank (control : VectorControl) (element : Nat × Nat) : Prop :=
  elementIndex control element.1 element.2 < 64 ∧ ∀ i ∈ touchedWords control element, i < 64

section
variable {access : MemoryAccess} {control : VectorControl} {big : Bool} {left right : Machine}

theorem elementValue_congr (same : SameBank left right) {element : Nat × Nat}
    (single : control.elementSize = 8 → control.mode ≠ .replicate)
    (inside : InBank control element) :
    elementValue left.state control element.1 element.2 =
      elementValue right.state control element.1 element.2 := by
  obtain ⟨index, touched⟩ := inside
  unfold elementValue
  dsimp only
  rw [same.extension _ index]
  split
  · rename_i double
    have next : elementIndex control element.1 element.2 + 1 < 64 := by
      apply touched
      unfold touchedWords
      rw [if_neg (single double)]
      dsimp only
      rw [if_pos double]
      simp
    rw [same.extension _ next]
  · rfl

theorem SameBank.setExtension (same : SameBank left right) (index : Nat) (value : Word) :
    SameBank { left with state := left.state.setExtension index value }
      { right with state := right.state.setExtension index value } := by
  refine ⟨same.memory, same.cpsr, fun i inside => ?_⟩
  change Function.update left.state.extensionRegisters index value i =
    Function.update right.state.extensionRegisters index value i
  by_cases here : i = index
  · rw [here, Function.update_self, Function.update_self]
  · rw [Function.update_of_ne here, Function.update_of_ne here]
    exact same.extension i inside

theorem SameBank.commitElement (same : SameBank left right) {element : Nat × Nat}
    (inside : InBank control element) (value : BitVec 64) :
    SameBank { left with state := commitElement control element.1 element.2 value left.state }
      { right with state := commitElement control element.1 element.2 value right.state } := by
  unfold ArmMemory.commitElement
  dsimp only
  split
  · generalize replicated control.elementSize value = all
    induction List.range control.count generalizing left right with
    | nil => exact same
    | cons j rest ih => exact ih ((same.setExtension _ _).setExtension _ _)
  · rw [same.extension _ inside.1]
    split
    · exact (same.setExtension _ _).setExtension _ _
    · exact same.setExtension _ _

/-- A step comes to the same on machines that agree. -/
theorem element_congr (same : SameBank left right) {element : Nat × Nat}
    (single : control.elementSize = 8 → control.mode ≠ .replicate)
    (inside : InBank control element) (address : Word) :
    SameBank (transferElements access control big [element] address left).1
        (transferElements access control big [element] address right).1 ∧
      (transferElements access control big [element] address left).2 =
        (transferElements access control big [element] address right).2 := by
  have value := elementValue_congr same single inside
  have committed := fun value => same.commitElement inside value
  obtain ⟨register, lane⟩ := element
  simp only [transferElements]
  rw [same.memory, value]
  cases control.load with
  | true =>
    simp only [if_true]
    cases readElement access right.memory address control.elementSize big
      (elementParts control.elementSize) 0 with
    | error fault => exact ⟨same, rfl⟩
    | ok value => exact ⟨⟨rfl, (committed value).cpsr, (committed value).extension⟩, rfl⟩
  | false =>
    simp only [Bool.false_eq_true, if_false]
    rcases writeElement access address control.elementSize big
      (elementValue right.state control register lane) (elementParts control.elementSize)
      right.memory with ⟨memory, _ | fault⟩
    · exact ⟨⟨rfl, same.cpsr, same.extension⟩, rfl⟩
    · exact ⟨⟨rfl, same.cpsr, same.extension⟩, rfl⟩

/-! ### A whole transfer -/

theorem transferElements_frame (elements : List (Nat × Nat)) (address : Word) (machine : Machine) :
    let after := (transferElements access control big elements address machine).1.state
    after.registers = machine.state.registers ∧ after.cpsr = machine.state.cpsr ∧
      ∀ i, (∀ element ∈ elements, i ∉ touchedWords control element) →
        after.extensionRegisters i = machine.state.extensionRegisters i := by
  induction elements generalizing address machine with
  | nil => exact ⟨rfl, rfl, fun _ _ => rfl⟩
  | cons element rest ih =>
    dsimp only
    rw [transferElements_cons access control big element rest]
    obtain ⟨registers, cpsr, extension⟩ := element_frame access control big element address machine
    split
    · rename_i next fault stopped
      rw [stopped] at registers cpsr extension
      exact ⟨registers, cpsr,
        fun i untouched => extension i (untouched element List.mem_cons_self)⟩
    · rename_i next moved
      rw [moved] at registers cpsr extension
      obtain ⟨registers', cpsr', extension'⟩ :=
        ih (address + BitVec.ofNat 32 control.elementSize) next
      exact ⟨registers'.trans registers, cpsr'.trans cpsr, fun i untouched =>
        (extension' i fun other member => untouched other (List.mem_cons_of_mem _ member)).trans
          (extension i (untouched element List.mem_cons_self))⟩

theorem transferElements_congr (single : control.elementSize = 8 → control.mode ≠ .replicate)
    {elements : List (Nat × Nat)} (inside : ∀ element ∈ elements, InBank control element)
    (same : SameBank left right) (address : Word) :
    SameBank (transferElements access control big elements address left).1
        (transferElements access control big elements address right).1 ∧
      (transferElements access control big elements address left).2 =
        (transferElements access control big elements address right).2 := by
  induction elements generalizing address left right with
  | nil => exact ⟨same, rfl⟩
  | cons element rest ih =>
    rw [transferElements_cons access control big element rest,
      transferElements_cons access control big element rest]
    obtain ⟨machines, faults⟩ := @element_congr access control big left right same element single
      (inside element List.mem_cons_self) address
    rcases before : transferElements access control big [element] address left with
      ⟨next, _ | fault⟩
    · rcases after : transferElements access control big [element] address right with
        ⟨next', _ | fault'⟩
      · rw [before, after] at machines
        exact ih (fun other member => inside other (List.mem_cons_of_mem _ member)) machines _
      · rw [before, after] at faults
        contradiction
    · rcases after : transferElements access control big [element] address right with
        ⟨next', _ | fault'⟩
      · rw [before, after] at faults
        contradiction
      · rw [before, after] at machines faults
        exact ⟨machines, faults⟩

end

/-! ### Decoded transfers -/

section
variable {inst : Instruction}

/-- An element whose word is in the bank, and the next one if it takes two. -/
theorem inBank_of_index {control : VectorControl} {element : Nat × Nat}
    (single : control.mode ≠ .replicate)
    (inside : elementIndex control element.1 element.2 +
      (if control.elementSize = 8 then 1 else 0) < 64) : InBank control element := by
  refine ⟨by omega, ?_⟩
  unfold touchedWords
  rw [if_neg single]
  intro i member
  dsimp only at member
  split at member
  · rename_i double
    rw [if_pos double] at inside
    simp only [List.mem_cons, List.not_mem_nil, or_false] at member
    omega
  · rename_i narrow
    rw [if_neg narrow] at inside
    rw [List.mem_singleton.mp member]
    exact inside

theorem vectorElements_inBank (decoded : DecodedVector inst) :
    ∀ element ∈ vectorElements (vectorControl inst), InBank (vectorControl inst) element := by
  have bank := decoded.bank
  have positive := decoded.some_
  unfold VectorTransferOperands.InBank at bank
  cases named : inst.vector.mode with
  | multiple =>
    simp only [named, List.mem_cons, List.not_mem_nil, or_false] at bank
    obtain ⟨sizes, room, _⟩ := bank
    simp only [vectorElements, vectorControl, named, List.mem_flatMap, List.mem_range, List.mem_map]
    rintro element ⟨r, less, i, within, rfl⟩
    refine inBank_of_index (by simp) ?_
    simp only [elementIndex, reduceCtorEq, if_false]
    obtain size | size | size | size := sizes <;> rw [size] at within ⊢ <;> simp <;> omega
  | lane =>
    simp only [named, List.mem_cons, List.not_mem_nil, or_false] at bank
    obtain ⟨sizes, room, count, within⟩ := bank
    simp only [vectorElements, vectorControl, named, List.mem_range, List.mem_map]
    rintro element ⟨r, less, rfl⟩
    refine inBank_of_index (by simp) ?_
    simp only [elementIndex, reduceCtorEq, if_false]
    obtain size | size | size := sizes <;> rw [size] at within ⊢ <;> simp <;> omega
  | replicate =>
    simp only [named, List.mem_cons, List.not_mem_nil, or_false] at bank
    obtain ⟨_, _, room, _⟩ := bank
    intro element member
    have first : element = (0, 0) ∨ element.2 = 0 ∧ element.1 < inst.vector.count := by
      simp only [vectorElements, vectorControl, named, List.mem_map] at member
      obtain ⟨r, taken, rfl⟩ := member
      exact .inr ⟨rfl, List.mem_range.mp (List.mem_of_mem_take taken)⟩
    constructor
    · simp only [elementIndex, vectorControl, named, reduceCtorEq, if_false]
      obtain rfl | ⟨lane, less⟩ := first
      · omega
      · rw [lane]
        omega
    · simp only [touchedWords, vectorControl, named, if_true, List.mem_flatMap, List.mem_range,
        List.mem_cons, List.not_mem_nil, or_false]
      rintro i ⟨r, less, rfl | rfl⟩ <;> omega
  | scalarMultiple =>
    simp only [named, List.mem_cons, List.not_mem_nil, or_false] at bank
    obtain ⟨sizes, room, _⟩ := bank
    simp only [vectorElements, vectorControl, named, List.mem_range, List.mem_map]
    rintro element ⟨r, less, rfl⟩
    refine inBank_of_index (by simp) ?_
    simp only [elementIndex, if_true]
    obtain size | size := sizes <;> rw [size] <;> simp <;> omega

theorem vectorElements_length (decoded : DecodedVector inst) :
    (vectorElements (vectorControl inst)).length = architecturalElements inst.vector := by
  have bank := decoded.bank
  have positive := decoded.some_
  unfold VectorTransferOperands.InBank at bank
  cases named : inst.vector.mode with
  | multiple =>
    simp only [named, List.mem_cons, List.not_mem_nil, or_false] at bank
    simp only [vectorElements, vectorControl, architecturalElements, named, List.length_flatMap,
      List.length_map, List.length_range, List.map_const', List.sum_replicate_nat]
    obtain size | size | size | size := bank.1 <;> rw [size]
  | lane =>
    simp only [named] at bank
    simp [vectorElements, vectorControl, architecturalElements, named, bank.2.2.1]
  | replicate =>
    simp only [vectorElements, vectorControl, architecturalElements, named, List.length_map,
      List.length_take, List.length_range]
    omega
  | scalarMultiple => simp [vectorElements, vectorControl, architecturalElements, named]

/-- A decoded element of eight bytes is not replicated. -/
theorem decoded_single (decoded : DecodedVector inst) :
    (vectorControl inst).elementSize = 8 → (vectorControl inst).mode ≠ .replicate := by
  intro double named
  have bank := decoded.bank
  unfold VectorTransferOperands.InBank at bank
  change inst.vector.elementSize = 8 at double
  change inst.vector.mode = .replicate at named
  rw [named] at bank
  dsimp only at bank
  rw [double] at bank
  exact absurd bank.1 (by decide)

/-- What a transfer reads and writes: extension registers, memory, its base, and the counter that
it advances. -/
structure StaysInBank (access : MemoryAccess) (transfer : VectorTransfer) (machine : Machine) :
    Prop where
  touched : ∀ element ∈ vectorElements transfer.control, InBank transfer.control element
  extension : ∀ i, 64 ≤ i → (completeVector access machine transfer).1.state.extensionRegisters i =
    machine.state.extensionRegisters i
  core : ∀ register ≠ programCounter,
    (completeVector access machine transfer).1.state.registers register =
      if (completeVector access machine transfer).2.reason = .none ∧
        transfer.control.writeback = true ∧ register = transfer.control.rn then transfer.updatedBase
      else machine.state.registers register
  counter : (completeVector access machine transfer).1.state.registers programCounter =
    if (completeVector access machine transfer).2.reason = .none then
      machine.state.registers programCounter + BitVec.ofNat 32 transfer.control.size
    else machine.state.registers programCounter
  cpsr : (completeVector access machine transfer).1.state.cpsr = machine.state.cpsr
  reads : ∀ other, SameBank machine other →
    SameBank (completeVector access machine transfer).1 (completeVector access other transfer).1 ∧
      (completeVector access machine transfer).2 = (completeVector access other transfer).2

/-- The words outside of the bank are not touched. -/
theorem outside_untouched {control : VectorControl}
    (inside : ∀ element ∈ vectorElements control, InBank control element) {i : Nat}
    (beyond : 64 ≤ i) : ∀ element ∈ vectorElements control, i ∉ touchedWords control element :=
  fun element member touches =>
    absurd ((inside element member).2 i touches) (Nat.not_lt_of_le beyond)

/-- What is left to do when all elements have been moved. -/
def retireVector (transfer : VectorTransfer) (machine : Machine) : Machine :=
  { machine with
    state := (if transfer.control.writeback then
      machine.state.setRegister transfer.control.rn transfer.updatedBase
      else machine.state).advance transfer.control.size }

/-- A transfer is refused, stops at a fault or comes to its end. -/
theorem completeVector_cases (access : MemoryAccess) (machine : Machine)
    (transfer : VectorTransfer) :
    (transfer.address &&& (transfer.alignment - 1) ≠ 0 ∧
      ∃ fault, completeVector access machine transfer = abort machine fault ∧
        fault = ⟨transfer.address, alignmentStatus transfer.control.load⟩) ∨
    (transfer.address &&& (transfer.alignment - 1) = 0 ∧ ∃ after,
      (∃ fault, transferElements access transfer.control machine.state.bigEndian
          (vectorElements transfer.control) transfer.address machine = (after, some fault) ∧
        completeVector access machine transfer = abort after fault) ∨
      (transferElements access transfer.control machine.state.bigEndian
          (vectorElements transfer.control) transfer.address machine = (after, none) ∧
        completeVector access machine transfer = (retireVector transfer after, {}))) := by
  unfold completeVector
  dsimp only
  split
  · rename_i misaligned
    exact .inl ⟨misaligned, _, rfl, rfl⟩
  · rename_i aligned
    refine .inr ⟨not_not.mp aligned, ?_⟩
    rcases transferElements access transfer.control machine.state.bigEndian
      (vectorElements transfer.control) transfer.address machine with ⟨after, _ | fault⟩
    · exact ⟨after, .inr ⟨rfl, rfl⟩⟩
    · exact ⟨after, .inl ⟨fault, rfl, rfl⟩⟩

theorem SameBank.retire {left right : Machine} (same : SameBank left right)
    (transfer : VectorTransfer) :
    SameBank (retireVector transfer left) (retireVector transfer right) := by
  unfold retireVector
  split
  · exact ⟨same.memory, same.cpsr, same.extension⟩
  · exact ⟨same.memory, same.cpsr, same.extension⟩

theorem retireVector_core {transfer : VectorTransfer} (machine : Machine) {register : Register}
    (other : register ≠ programCounter) :
    (retireVector transfer machine).state.registers register =
      if transfer.control.writeback = true ∧ register = transfer.control.rn then
        transfer.updatedBase
      else machine.state.registers register := by
  refine (Function.update_of_ne other _ _).trans ?_
  cases writeback : transfer.control.writeback with
  | false => simp
  | true =>
    rw [if_pos rfl]
    refine (Function.update_apply _ _ _ _).trans ?_
    simp

theorem retireVector_counter {transfer : VectorTransfer} (machine : Machine)
    (base : transfer.control.writeback = true → transfer.control.rn ≠ programCounter) :
    (retireVector transfer machine).state.registers programCounter =
      machine.state.registers programCounter + BitVec.ofNat 32 transfer.control.size := by
  have kept : (if transfer.control.writeback then
      machine.state.setRegister transfer.control.rn transfer.updatedBase
      else machine.state).registers programCounter = machine.state.registers programCounter := by
    split
    · rename_i writeback
      exact Function.update_of_ne (Ne.symm (base writeback)) _ _
    · rfl
  have advanced : ∀ (state : CpuThreadState) (size : Nat),
      (state.advance size).registers programCounter =
        state.registers programCounter + BitVec.ofNat 32 size :=
    fun state _ => Function.update_self programCounter _ state.registers
  exact (advanced _ _).trans (congrArg (· + _) kept)

theorem retireVector_frame (transfer : VectorTransfer) (machine : Machine) :
    (retireVector transfer machine).state.extensionRegisters = machine.state.extensionRegisters ∧
      (retireVector transfer machine).state.cpsr = machine.state.cpsr := by
  unfold retireVector
  split
  · exact ⟨rfl, rfl⟩
  · exact ⟨rfl, rfl⟩

theorem completeVector_stays (decoded : DecodedVector inst) {transfer : VectorTransfer}
    (controlled : transfer.control = vectorControl inst) (access : MemoryAccess)
    (machine : Machine) : StaysInBank access transfer machine := by
  have inside := vectorElements_inBank decoded
  have single := decoded_single decoded
  have base : transfer.control.writeback = true → transfer.control.rn ≠ programCounter := by
    rw [controlled]
    exact decoded.base
  rw [← controlled] at inside single
  have untouched : ∀ i, 64 ≤ i → ∀ element ∈ vectorElements transfer.control,
      i ∉ touchedWords transfer.control element := fun i => outside_untouched inside
  obtain ⟨registers, cpsr, extension⟩ := @transferElements_frame access transfer.control
    machine.state.bigEndian (vectorElements transfer.control) transfer.address machine
  refine ⟨inside, fun i beyond => ?_, fun register other => ?_, ?_, ?_, fun right same => ?_⟩
  · rcases completeVector_cases access machine transfer with
      ⟨_, fault, result, _⟩ | ⟨_, after, ⟨fault, moved, result⟩ | ⟨moved, result⟩⟩
    · rw [result]
      rfl
    · rw [moved] at extension
      rw [result]
      exact extension i (untouched i beyond)
    · rw [moved] at extension
      rw [result, (retireVector_frame transfer after).1]
      exact extension i (untouched i beyond)
  · rcases completeVector_cases access machine transfer with
      ⟨_, fault, result, _⟩ | ⟨_, after, ⟨fault, moved, result⟩ | ⟨moved, result⟩⟩
    · rw [result, if_neg (fun done => StopReason.noConfusion done.1)]
      rfl
    · rw [moved] at registers
      rw [result, if_neg (fun done => StopReason.noConfusion done.1)]
      exact congrFun registers register
    · rw [moved] at registers
      rw [result, retireVector_core after other, registers]
      simp
  · rcases completeVector_cases access machine transfer with
      ⟨_, fault, result, _⟩ | ⟨_, after, ⟨fault, moved, result⟩ | ⟨moved, result⟩⟩
    · rw [result, if_neg (fun done => StopReason.noConfusion done)]
      rfl
    · rw [moved] at registers
      rw [result, if_neg (fun done => StopReason.noConfusion done)]
      exact congrFun registers programCounter
    · rw [moved] at registers
      rw [result, retireVector_counter after base, registers, if_pos rfl]
  · rcases completeVector_cases access machine transfer with
      ⟨_, fault, result, _⟩ | ⟨_, after, ⟨fault, moved, result⟩ | ⟨moved, result⟩⟩
    · rw [result]
      rfl
    · rw [moved] at cpsr
      rw [result]
      exact cpsr
    · rw [moved] at cpsr
      rw [result, (retireVector_frame transfer after).2]
      exact cpsr
  · have order : right.state.bigEndian = machine.state.bigEndian :=
      congrArg (BitVec.getLsbD · 9) same.cpsr.symm
    obtain ⟨machines, faults⟩ := @transferElements_congr access transfer.control
      machine.state.bigEndian machine right single _ inside same transfer.address
    have others := completeVector_cases access right transfer
    rw [order] at others
    rcases completeVector_cases access machine transfer with
      ⟨refused, fault, result, rfl⟩ | ⟨aligned, after, ⟨fault, moved, result⟩ | ⟨moved, result⟩⟩
    · obtain ⟨_, fault, result', rfl⟩ | ⟨aligned, _⟩ := others
      · rw [result, result']
        exact ⟨same, rfl⟩
      · exact absurd aligned refused
    · rw [moved] at machines faults
      obtain ⟨refused, _⟩ | ⟨_, after', ⟨fault', moved', result'⟩ | ⟨moved', _⟩⟩ := others
      · exact absurd aligned refused
      · rw [moved'] at machines faults
        rw [result, result', Option.some.inj faults]
        exact ⟨machines, rfl⟩
      · rw [moved'] at faults
        contradiction
    · rw [moved] at machines faults
      obtain ⟨refused, _⟩ | ⟨_, after', ⟨fault', moved', _⟩ | ⟨moved', result'⟩⟩ := others
      · exact absurd aligned refused
      · rw [moved'] at faults
        contradiction
      · rw [moved'] at machines
        rw [result, result']
        exact ⟨machines.retire transfer, rfl⟩

/-- A transfer that comes to its end has moved all its elements, any other a part of them. -/
theorem completeVector_moved (access : MemoryAccess) (machine : Machine)
    (transfer : VectorTransfer) (done : (completeVector access machine transfer).2.reason = .none) :
    movedElements access transfer.control machine.state.bigEndian
        (vectorElements transfer.control) transfer.address machine =
      vectorElements transfer.control := by
  rcases completeVector_cases access machine transfer with
    ⟨_, fault, result, _⟩ | ⟨_, after, ⟨fault, moved, result⟩ | ⟨moved, result⟩⟩
  · rw [result] at done
    contradiction
  · rw [result] at done
    contradiction
  · refine (movedElements_spec access transfer.control machine.state.bigEndian _ _ machine).2.mp ?_
    rw [moved]

end

end ILEmu.ArmMemory
