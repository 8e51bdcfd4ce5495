import ILEmu.Dynarmic.Indexing
import ILEmu.Dynarmic.Liveness

/-! What every artifact that is accepted keeps to. -/
namespace ILEmu.Dynarmic
open Foundation

/-- The locations that a terminal links to. -/
def Terminal.links : Terminal → List LocationDescriptor
  | .linkBlock next | .linkBlockFast next => [next]
  | .ifThen _ then_ else_ | .checkBit then_ else_ => then_.links ++ else_.links
  | .checkHalt else_ => else_.links
  | .invalid | .interpret .. | .returnToDispatch | .popRSBHint | .fastDispatchHint => []

namespace Tables
variable (tables : Tables)

def Aligned (location : LocationDescriptor) : Prop :=
  tables.canonicalA32Location location = true ∧ tables.alignedA32Location location = true

/-- The first argument is an immediate location. -/
def LocatedAt (instruction : EncodedInstruction) : Prop :=
  ∃ argument, instruction.arguments[0]? = some argument ∧ argument.isImmediate = true ∧
    tables.Aligned argument.scalar

/-- The parent and the pseudo-operation that reads of it. -/
def PseudoRead (instruction : EncodedInstruction) (key : BitVec 32 × Opcode) : Prop :=
  (tables.name instruction.opcode).associatedPseudo = true ∧ ∃ parent,
    instruction.arguments[0]? = some parent ∧ parent.isImmediate = false ∧
      key = (parent.reference, instruction.opcode)

/-- What holds of every instruction that is accepted, at its place. -/
structure Checked (ir : EncodedIr) (index : Nat) (instruction : EncodedInstruction) : Prop where
  references : ∀ argumentIndex argument, instruction.arguments[argumentIndex]? = some argument →
    argument.isImmediate = false → argument.reference.toNat < index ∧
      ∃ parent, ir.instructions[argument.reference.toNat]? = some parent ∧
        tables.areTypesCompatible (tables.getTypeOf parent.opcode)
          (tables.getArgTypeOf instruction.opcode argumentIndex) = true
  live : tables.liveValues ir.instructions index ≤ maximumLiveValues
  /-- No earlier instruction reads the same of the same parent. -/
  once : ∀ key, tables.PseudoRead instruction key →
    ∀ (earlier : Nat) (other : EncodedInstruction), earlier < index →
      ir.instructions[earlier]? = some other → ¬tables.PseudoRead other key
  memory : (tables.name instruction.opcode).a32MemoryOpcode = true → tables.LocatedAt instruction
  hint : tables.name instruction.opcode = .pushRSB → tables.LocatedAt instruction

section
variable {tables} {ir : EncodedIr} {index : Nat} {instruction : EncodedInstruction}
  {scan next : Scan}

/-! ### One instruction -/

theorem checkArguments_getElem {instructions : List EncodedInstruction} {opcode : Opcode}
    {first : Nat} {arguments : List EncodedValue} {u : Unit}
    (done : tables.checkArguments instructions index opcode first arguments = .ok u)
    {argumentIndex : Nat} {argument : EncodedValue}
    (here : arguments[argumentIndex]? = some argument) :
    tables.checkArgument instructions index opcode (first + argumentIndex) argument = .ok () := by
  induction arguments generalizing first argumentIndex with
  | nil => contradiction
  | cons head rest ih =>
    obtain ⟨_, checked, others⟩ := bind_eq_ok.mp done
    cases argumentIndex with
    | zero =>
      obtain rfl := Option.some.inj here
      exact checked
    | succ argumentIndex =>
      rw [Nat.add_comm argumentIndex 1, ← Nat.add_assoc]
      exact ih others here

/-- A reference is checked against the type of what it refers to. -/
theorem checkArgument_reference {instructions : List EncodedInstruction} {opcode : Opcode}
    {argumentIndex : Nat} {argument : EncodedValue} {u : Unit}
    (done : tables.checkArgument instructions index opcode argumentIndex argument = .ok u)
    (reference : argument.isImmediate = false) :
    argument.reference.toNat < index ∧
      ∃ parent, instructions[argument.reference.toNat]? = some parent ∧
        tables.areTypesCompatible (tables.getTypeOf parent.opcode)
          (tables.getArgTypeOf opcode argumentIndex) = true := by
  simp only [checkArgument, encodedValueType, reference, Bool.false_eq_true, if_false, bind_eq_ok,
    require_eq_ok, Bool.false_or, decide_eq_true_eq, at_eq_ok] at done
  obtain ⟨_, before, type, ⟨parent, found, same⟩, _, compatible, _⟩ := done
  obtain rfl := Except.ok.inj same
  exact ⟨before, parent, found, compatible⟩

theorem immediateScalar_iff {argument : Nat} {admits : BitVec 64 → Bool} :
    instruction.immediateScalar argument admits = true ↔
      ∃ value, instruction.arguments[argument]? = some value ∧ value.isImmediate = true ∧
        admits value.scalar = true := by
  unfold EncodedInstruction.immediateScalar
  cases instruction.arguments[argument]? with
  | none => simp
  | some value => simp

theorem locatedAt_of_memory (valid : tables.validMemory instruction ir.location ir.endLocation = true)
    (memory : (tables.name instruction.opcode).a32MemoryOpcode = true) :
    tables.LocatedAt instruction := by
  unfold validMemory at valid
  rw [memory, Bool.not_true, Bool.false_or, immediateScalar_iff] at valid
  obtain ⟨argument, first, immediate, block⟩ := valid
  simp only [a32LocationInBlock, Bool.and_eq_true] at block
  obtain ⟨⟨⟨location, _⟩, _⟩, _⟩ := block
  exact ⟨argument, first, immediate, location⟩

theorem locatedAt_of_hint (valid : tables.validOperand instruction = true)
    (hint : tables.name instruction.opcode = .pushRSB) : tables.LocatedAt instruction := by
  unfold validOperand at valid
  rw [hint] at valid
  obtain ⟨argument, first, immediate, location⟩ := immediateScalar_iff.mp valid
  exact ⟨argument, first, immediate, Bool.and_eq_true_iff.mp location⟩

/-- Every pseudo-operation before the place has been noted. -/
def Noted (tables : Tables) (instructions : List EncodedInstruction) (index : Nat) (scan : Scan) :
    Prop :=
  ∀ (earlier : Nat) (other : EncodedInstruction), earlier < index →
    instructions[earlier]? = some other → ∀ key, tables.PseudoRead other key →
      key ∈ scan.associatedPseudoOperations

theorem Noted.relate {instructions : List EncodedInstruction} (noted : tables.Noted instructions index scan)
    (here : instructions[index]? = some instruction)
    (done : tables.relate instructions index instruction scan = .ok next) :
    (∀ key, tables.PseudoRead instruction key → key ∉ scan.associatedPseudoOperations) ∧
      tables.Noted instructions (index + 1) next := by
  have extend : (∀ key ∈ scan.associatedPseudoOperations, key ∈ next.associatedPseudoOperations) →
      (∀ key, tables.PseudoRead instruction key → key ∈ next.associatedPseudoOperations) →
      tables.Noted instructions (index + 1) next := by
    intro kept new earlier other before found key read
    rcases Nat.lt_or_eq_of_le (Nat.le_of_lt_succ before) with before | rfl
    · exact kept key (noted earlier other before found key read)
    · obtain rfl := Option.some.inj (here.symm.trans found)
      exact new key read
  rcases tables.relate_cases done with ⟨plain, rfl⟩ | ⟨_, parent, first, _, fresh, rfl⟩
  · have none : ∀ key, ¬tables.PseudoRead instruction key := by
      rintro key ⟨pseudo, _⟩
      rw [plain] at pseudo
      contradiction
    exact ⟨fun key read => absurd read (none key),
      extend (fun _ => id) fun key read => absurd read (none key)⟩
  · have only : ∀ key, tables.PseudoRead instruction key →
        key = (parent.reference, instruction.opcode) := by
      rintro key ⟨_, parent', first', _, rfl⟩
      obtain rfl := Option.some.inj (first.symm.trans first')
      rfl
    constructor
    · intro key read
      rw [only key read]
      exact fresh
    · refine extend (fun key => List.mem_cons_of_mem _) fun key read => ?_
      rw [only key read]
      exact List.mem_cons_self

theorem scanInstruction_checked (counted : tables.Counted ir.instructions index scan)
    (noted : tables.Noted ir.instructions index scan) (ordered : Ordered ir.instructions)
    (here : ir.instructions[index]? = some instruction)
    (done : tables.scanInstruction ir index instruction scan = .ok next) :
    tables.Checked ir index instruction ∧ tables.Counted ir.instructions (index + 1) next ∧
      tables.Noted ir.instructions (index + 1) next := by
  simp only [scanInstruction, bind_eq_ok, require_eq_ok] at done
  obtain ⟨retired, left, named, accepted, allocated, kept, _, checked, _, _, _, _, _, _, _, memory,
    _, operand, related⟩ := done
  simp only [retire, bind_eq_ok] at left
  obtain ⟨_, _, same⟩ := left
  obtain rfl := Except.ok.inj same
  simp only [accept, bind_eq_ok] at accepted
  obtain ⟨_, _, same⟩ := accepted
  obtain rfl := Except.ok.inj same
  obtain ⟨live, counted'⟩ := counted.step tables ordered here kept rfl rfl
  have pseudo : allocated.associatedPseudoOperations = scan.associatedPseudoOperations := by
    unfold allocate at kept
    split at kept
    · obtain ⟨_, _, same⟩ := bind_eq_ok.mp kept
      rw [← Except.ok.inj same]
    · rw [← Except.ok.inj kept]
  have noted' : tables.Noted ir.instructions index
      { allocated with
        hasSetCheckBit := allocated.hasSetCheckBit ||
          tables.name instruction.opcode = .a32SetCheckBit } := by
    intro earlier other before found key read
    change key ∈ allocated.associatedPseudoOperations
    rw [pseudo]
    exact noted earlier other before found key read
  obtain ⟨fresh, last⟩ := noted'.relate here related
  have counts : next.liveValues = allocated.liveValues ∧
      next.liveExpirations = allocated.liveExpirations := by
    rcases tables.relate_cases related with ⟨_, rfl⟩ | ⟨_, _, _, _, _, rfl⟩
    · exact ⟨rfl, rfl⟩
    · exact ⟨rfl, rfl⟩
  refine ⟨⟨?_, live, ?_, locatedAt_of_memory memory, locatedAt_of_hint operand⟩, ?_, last⟩
  · intro argumentIndex argument placed reference
    have each := checkArguments_getElem checked placed
    rw [Nat.zero_add] at each
    exact checkArgument_reference each reference
  · intro key read earlier other before found otherRead
    apply fresh key read
    exact noted' earlier other before found key otherRead
  · refine ⟨?_, ?_⟩
    · rw [counts.1, counts.2]
      exact counted'.frontier
    · rw [counts.1]
      exact counted'.few

/-! ### The whole block -/

theorem scanFrom_checked {rest : List EncodedInstruction}
    (counted : tables.Counted ir.instructions index scan)
    (noted : tables.Noted ir.instructions index scan) (ordered : Ordered ir.instructions)
    (suffix : ir.instructions.drop index = rest)
    (done : tables.scanFrom ir index rest scan = .ok next) :
    ValidFrom (tables.Checked ir) index rest := by
  induction rest generalizing index scan with
  | nil => trivial
  | cons instruction rest ih =>
    obtain ⟨after, first, later⟩ := bind_eq_ok.mp done
    have here : ir.instructions[index]? = some instruction := by
      rw [← List.head?_drop, suffix]
      rfl
    obtain ⟨checked, counted', noted'⟩ := scanInstruction_checked counted noted ordered here first
    refine ⟨checked, ih counted' noted' ?_ later⟩
    rw [← List.tail_drop, suffix]
    rfl

theorem links_aligned {location : LocationDescriptor} {hasSetCheckBit : Bool} {terminal : Terminal}
    (valid : tables.validTerminal location hasSetCheckBit terminal = true) :
    ∀ link ∈ terminal.links, tables.Aligned link := by
  induction terminal with
  | invalid | interpret | returnToDispatch | popRSBHint | fastDispatchHint => exact nofun
  | linkBlock next | linkBlockFast next =>
    intro link member
    rw [List.mem_singleton.mp member]
    exact Bool.and_eq_true_iff.mp valid
  | ifThen condition then_ else_ left right =>
    simp only [validTerminal, Bool.and_eq_true] at valid
    obtain ⟨⟨_, first⟩, second⟩ := valid
    intro link member
    rcases List.mem_append.mp member with here | here
    · exact left first link here
    · exact right second link here
  | checkBit then_ else_ left right =>
    simp only [validTerminal, Bool.and_eq_true] at valid
    obtain ⟨⟨_, first⟩, second⟩ := valid
    intro link member
    rcases List.mem_append.mp member with here | here
    · exact left first link here
    · exact right second link here
  | checkHalt else_ ih => exact ih valid

end

/-- A block whose values are defined before they are used, with few of them live at a time. -/
structure WellFormed (ir : EncodedIr) : Prop where
  references : ∀ (index : Nat) (instruction : EncodedInstruction),
    ir.instructions[index]? = some instruction → ∀ (argumentIndex : Nat) (argument : EncodedValue),
      instruction.arguments[argumentIndex]? = some argument → argument.isImmediate = false →
        argument.reference.toNat < index ∧
          ∃ parent, ir.instructions[argument.reference.toNat]? = some parent ∧
            tables.areTypesCompatible (tables.getTypeOf parent.opcode)
              (tables.getArgTypeOf instruction.opcode argumentIndex) = true
  live : ∀ index < ir.instructions.length,
    tables.liveValues ir.instructions index ≤ maximumLiveValues
  once : ∀ (i j : Nat) (first second : EncodedInstruction) (key : BitVec 32 × Opcode),
    ir.instructions[i]? = some first → ir.instructions[j]? = some second →
      tables.PseudoRead first key → tables.PseudoRead second key → i = j
  links : ∀ link ∈ ir.terminal.links, tables.Aligned link
  located : ∀ instruction ∈ ir.instructions,
    (tables.name instruction.opcode).a32MemoryOpcode = true ∨
      tables.name instruction.opcode = .pushRSB → tables.LocatedAt instruction

theorem wellFormed_of_valid {ir : EncodedIr} (valid : tables.validEncodedIr ir = .ok ()) :
    tables.WellFormed ir := by
  simp only [validEncodedIr, bind_eq_ok, require_eq_ok] at valid
  obtain ⟨_, _, _, _, scan, scanned, terminal⟩ := valid
  have admitted := validFrom_iff.mp (tables.scanFrom_ok scanned).1
  have ordered : Ordered ir.instructions := by
    intro index user here
    obtain ⟨bound, rfl⟩ := List.getElem?_eq_some_iff.mp here
    have before := (admitted index bound).before
    rwa [Nat.zero_add] at before
  have noted : tables.Noted ir.instructions 0 {} :=
    fun earlier _ before => absurd before (Nat.not_lt_zero earlier)
  have all := validFrom_iff.mp (scanFrom_checked (.start tables _) noted ordered List.drop_zero scanned)
  have checked : ∀ (index : Nat) (instruction : EncodedInstruction),
      ir.instructions[index]? = some instruction → tables.Checked ir index instruction := by
    intro index instruction here
    obtain ⟨bound, rfl⟩ := List.getElem?_eq_some_iff.mp here
    have each := all index bound
    rwa [Nat.zero_add] at each
  refine ⟨fun index instruction here => (checked index instruction here).references, ?_, ?_,
    links_aligned terminal, ?_⟩
  · intro index bound
    exact (checked index _ (List.getElem?_eq_getElem bound)).live
  · intro i j first second key here there read read'
    rcases Nat.lt_trichotomy i j with before | same | after
    · exact absurd read ((checked j second there).once key read' i first before here)
    · exact same
    · exact absurd read' ((checked i first here).once key read j second after there)
  · intro instruction listed asked
    obtain ⟨index, here⟩ := List.mem_iff_getElem?.mp listed
    rcases asked with memory | hint
    · exact (checked index instruction here).memory memory
    · exact (checked index instruction here).hint hint

/-- Whatever is accepted is well formed; and with the arguments that its opcodes have, no string
of bytes makes the checks look for an instruction that is not there. -/
theorem accepted_wellFormed (arities : tables.Arities) :
    (∀ bytes block, tables.deserialize bytes = some block →
      ∃ ir, tables.readIr bytes = some (ir, []) ∧ decode ir = some block ∧ tables.WellFormed ir) ∧
    ∀ bytes ir rest, tables.readIr bytes = some (ir, rest) →
      tables.validEncodedIr ir ≠ .error .outside := by
  constructor
  · intro bytes block accepted
    obtain ⟨_, ir, readable, rfl, valid, decoded⟩ := tables.deserialize_eq_some.mp accepted
    refine ⟨ir, ?_, decoded, tables.wellFormed_of_valid valid⟩
    have back := (tables.readIr_inverse (tables.writeIr ir) ir []).mpr
    rw [List.append_nil] at back
    exact back ⟨readable, rfl⟩
  · intro bytes ir rest _
    exact validEncodedIr_inside arities ir

end Tables

/-- The tables for registers and sums with their carries. -/
def carryTables : Tables where
  __ := registerTables
  opcodeCount := 4
  getNumArgsOf opcode := if opcode = 1 then 3 else if opcode = 3 then 2 else 1
  getTypeOf opcode := if opcode = 2 then .u1 else if opcode = 3 then .void else .u32
  getArgTypeOf opcode argument :=
    if opcode = 0 ∨ (opcode = 3 ∧ argument = 0) then .a32Reg
    else if opcode = 1 ∧ argument = 2 then .u1
    else .u32
  name opcode :=
    if opcode = 0 then .a32GetRegister else if opcode = 1 then .add32
    else if opcode = 2 then .getCarryFromOp else .a32SetRegister
  declared opcode := opcode.toNat < 4
  declared_lt _ found := of_decide_eq_true found
  fpAbs16 := 4
  fpVectorToUnsignedFixed64 := 3

theorem carryTables_arities : carryTables.Arities := by
  intro opcode
  simp only [carryTables]
  split_ifs
  all_goals decide

/-- A register is doubled, and its carry added to the sum. -/
def carryIr : EncodedIr :=
  let reference (index : BitVec 32) : EncodedValue :=
    { tag := .reference, type := .opaqueValue, reference := index }
  let register (number : BitVec 64) : EncodedValue :=
    { tag := .immediate, type := .a32Reg, scalar := number }
  { location := 0x1000 <<< 32
    endLocation := 0x1008 <<< 32
    condition := 14
    conditionFailed := none
    conditionFailedCycles := 0
    cycles := 2
    instructions :=
      [⟨0, 1, [register 3]⟩,
       ⟨1, 2, [reference 0, reference 0, { tag := .immediate, type := .u1 }]⟩,
       ⟨2, 3, [reference 1]⟩,
       ⟨1, 4, [reference 1, reference 0, reference 2]⟩,
       ⟨3, 5, [register 4, reference 3]⟩]
    terminal := .linkBlock (0x1008 <<< 32) }

/-- The register, the sum and its carry are live at the carry. -/
example : carryTables.liveValues carryIr.instructions 2 = 3 := by decide

theorem accepted_wellFormed_carry :
    (∃ bytes block, carryTables.deserialize bytes = some block ∧
      ∃ ir, carryTables.readIr bytes = some (ir, []) ∧ decode ir = some block ∧
        carryTables.WellFormed ir) ∧
    carryTables.validEncodedIr carryIr ≠ .error .outside := by
  have read : carryTables.readIr (carryTables.writeIr carryIr) = some (carryIr, []) := by
    decide +kernel
  obtain ⟨block, accepted⟩ : ∃ block,
      carryTables.deserialize (carryTables.writeIr carryIr) = some block := by
    rw [← Option.isSome_iff_exists]
    decide +kernel
  have checked := Tables.accepted_wellFormed carryTables carryTables_arities
  exact ⟨⟨_, block, accepted, checked.1 _ block accepted⟩, checked.2 _ carryIr [] read⟩

end ILEmu.Dynarmic
