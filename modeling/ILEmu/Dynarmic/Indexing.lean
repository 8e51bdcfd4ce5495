import ILEmu.Dynarmic.Validation

/-! The checks of an artifact index its lists only where they have elements. -/
namespace ILEmu.Dynarmic

/-- A computation that indexes no list at an element that it does not have. -/
def Inside {α : Type} (result : Except Failure α) : Prop := result ≠ .error .outside

namespace Inside
variable {α β : Type}

theorem ok (value : α) : Inside (.ok value) := nofun

theorem require (condition : Bool) : Inside (Dynarmic.require condition) := by
  cases condition with
  | true => exact nofun
  | false => exact nofun

theorem at_ {items : List α} {index : Nat} (bound : index < items.length) :
    Inside (Dynarmic.at_ items index) := by
  unfold Dynarmic.at_
  rw [List.getElem?_eq_getElem bound]
  exact nofun

theorem bind {first : Except Failure α} {next : α → Except Failure β} (inside : Inside first)
    (later : ∀ value, first = .ok value → Inside (next value)) : Inside (first >>= next) := by
  cases first with
  | ok value => exact later value rfl
  | error failure => exact fun outside => inside (congrArg Except.error (Except.error.inj outside))

/-- What is asked for holds in what follows. -/
theorem bind_require {condition : Bool} {next : Unit → Except Failure β}
    (later : condition = true → Inside (next ())) :
    Inside (Dynarmic.require condition >>= next) :=
  (require condition).bind fun _ holds => later (require_eq_ok.mp holds)

theorem bind_at {items : List α} {index : Nat} {next : α → Except Failure β}
    (bound : index < items.length) (later : ∀ item, items[index]? = some item → Inside (next item)) :
    Inside (Dynarmic.at_ items index >>= next) :=
  (at_ bound).bind fun item found => later item (at_eq_ok.mp found)

theorem forM {check : α → Check} {items : List α} (each : ∀ item ∈ items, Inside (check item)) :
    Inside (items.forM check) := by
  induction items with
  | nil => exact ok _
  | cons item rest ih =>
    obtain ⟨first, others⟩ := List.forall_mem_cons.mp each
    exact first.bind fun _ _ => ih others

end Inside

namespace OpcodeName

/-- How many arguments the checks read of an opcode without asking whether they are there. -/
def argumentsRead : OpcodeName → Nat
  | .fpRoundInt16 | .fpRoundInt32 | .fpRoundInt64 | .fpVectorRoundInt16 | .fpVectorRoundInt32
  | .fpVectorRoundInt64 | .fpHalfToDouble | .fpHalfToSingle | .fpSingleToDouble
  | .fpDoubleToHalf | .fpDoubleToSingle | .fpVectorFromHalf32 => 2
  | .getCarryFromOp | .getOverflowFromOp | .getGEFromOp | .getUpperFromOp | .getLowerFromOp
  | .getNZCVFromOp | .getNZFromOp => 1
  | .vectorTableLookup64 | .vectorTableLookup128 => 2
  | _ => 0

end OpcodeName

/-- The references of an instruction are into the list. -/
def Referring (instructions : List EncodedInstruction) (instruction : EncodedInstruction) : Prop :=
  ∀ value ∈ instruction.arguments,
    value.isImmediate = true ∨ value.reference.toNat < instructions.length

namespace Tables
variable (tables : Tables)

/-- The opcodes have the arguments that are read of them: one for a pseudo-operation, a rounding
mode after the operand of a conversion, a table after the defaults of a lookup. -/
def Arities : Prop := ∀ opcode, (tables.name opcode).argumentsRead ≤ tables.getNumArgsOf opcode

section
variable {tables} {instructions : List EncodedInstruction} {instruction : EncodedInstruction}

theorem encodedValueType_inside {value : EncodedValue}
    (bound : value.isImmediate = true ∨ value.reference.toNat < instructions.length) :
    Inside (tables.encodedValueType instructions value) := by
  unfold encodedValueType
  split
  · exact Inside.ok _
  · rename_i reference
    exact Inside.bind_at (bound.resolve_left reference) fun _ _ => Inside.ok _

theorem encodedIsScalar_inside {value : EncodedValue}
    (bound : value.isImmediate = true ∨ value.reference.toNat < instructions.length) :
    Inside (tables.encodedIsScalar instructions value) :=
  (encodedValueType_inside bound).bind fun _ _ => Inside.require _

theorem checkArguments_inside {index argumentIndex : Nat} {opcode : Opcode}
    {arguments : List EncodedValue} (bounds : ∀ value ∈ arguments,
      value.isImmediate = true ∨ value.reference.toNat < instructions.length) :
    Inside (tables.checkArguments instructions index opcode argumentIndex arguments) := by
  induction arguments generalizing argumentIndex with
  | nil => exact Inside.ok _
  | cons argument rest ih =>
    obtain ⟨first, others⟩ := List.forall_mem_cons.mp bounds
    refine Inside.bind ?_ fun _ _ => ih others
    unfold checkArgument
    refine Inside.bind_require fun _ => ?_
    refine (encodedValueType_inside first).bind fun _ _ => ?_
    exact Inside.bind_require fun _ => Inside.require _

theorem scalarAt_inside {argument : Nat} {admits : BitVec 64 → Bool}
    (bound : argument < instruction.arguments.length) :
    Inside (instruction.scalarAt argument admits) :=
  Inside.bind_at bound fun _ _ => Inside.require _

theorem validFpInstruction_inside {initialLocation : LocationDescriptor}
    (read : (tables.name instruction.opcode).argumentsRead ≤ instruction.arguments.length) :
    Inside (tables.validFpInstruction instruction initialLocation) := by
  unfold validFpInstruction
  dsimp only
  split
  · refine Inside.bind_require fun _ => ?_
    split
    case h_1 name | h_2 name | h_3 name | h_4 name | h_5 name | h_6 name | h_7 name | h_8 name
      | h_9 name | h_10 name | h_11 name | h_12 name =>
      rw [name] at read
      exact scalarAt_inside read
    all_goals first | exact Inside.require _ | exact Inside.ok _
  · exact Inside.ok _

/-- What is referred to is an instruction of the list, and refers into it itself. -/
theorem source_inside {β : Type} {value : EncodedValue} {next : EncodedInstruction → Except Failure β}
    (bound : value.reference.toNat < instructions.length)
    (later : ∀ source ∈ instructions, Inside (next source)) :
    Inside (at_ instructions value.reference.toNat >>= next) :=
  Inside.bind_at bound fun source found => later source (List.mem_of_getElem? found)

theorem isReference {value : EncodedValue} (referring : Referring instructions instruction)
    (listed : value ∈ instruction.arguments) (reference : (!value.isImmediate) = true) :
    value.reference.toNat < instructions.length := by
  rw [Bool.not_eq_true'] at reference
  rcases referring value listed with immediate | bound
  · rw [reference] at immediate
    contradiction
  · exact bound

theorem validateAssociatedPseudo_inside {predicate : OpcodeName → Bool} {scan : Scan}
    (referring : Referring instructions instruction) (some : 1 ≤ instruction.arguments.length) :
    Inside (tables.validateAssociatedPseudo predicate instructions instruction scan) := by
  refine Inside.bind_at some fun parent first => ?_
  refine Inside.bind_require fun reference => ?_
  refine source_inside (isReference referring (List.mem_of_getElem? first) reference) fun _ _ => ?_
  refine Inside.bind_require fun _ => ?_
  exact Inside.bind_require fun _ => Inside.ok _

theorem validNzcvSource_inside (referring : Referring instructions instruction)
    (some : 1 ≤ instruction.arguments.length) :
    Inside (tables.validNzcvSource instructions instruction) := by
  refine Inside.bind_at some fun value first => ?_
  have bound := referring value (List.mem_of_getElem? first)
  split
  · exact encodedIsScalar_inside bound
  · rename_i reference
    exact source_inside (bound.resolve_left reference) fun _ _ => Inside.require _

theorem validNzSource_inside (referring : Referring instructions instruction)
    (some : 1 ≤ instruction.arguments.length) :
    Inside (tables.validNzSource instructions instruction) :=
  Inside.bind_at some fun value first =>
    encodedIsScalar_inside (referring value (List.mem_of_getElem? first))

theorem validTable_inside {elementType : Option ValueType} {arguments : List EncodedValue}
    (bounds : ∀ value ∈ arguments,
      value.isImmediate = true ∨ value.reference.toNat < instructions.length) :
    Inside (tables.validTable instructions elementType arguments) := by
  induction arguments generalizing elementType with
  | nil => exact Inside.ok _
  | cons value rest ih =>
    obtain ⟨first, others⟩ := List.forall_mem_cons.mp bounds
    refine Inside.bind_require fun _ => ?_
    refine (encodedValueType_inside first).bind fun type _ => ?_
    exact Inside.bind_require fun _ => ih others

theorem validTableLookup_inside {requiredType : ValueType}
    (all : ∀ source ∈ instructions, Referring instructions source)
    (referring : Referring instructions instruction) (two : 2 ≤ instruction.arguments.length) :
    Inside (tables.validTableLookup requiredType instructions instruction) := by
  refine Inside.bind_at two fun table second => ?_
  refine Inside.bind_require fun reference => ?_
  refine source_inside (isReference referring (List.mem_of_getElem? second) reference)
    fun source listed => ?_
  refine Inside.bind_require fun _ => Inside.forM fun value part => ?_
  exact (encodedValueType_inside (all source listed value part)).bind fun _ _ => Inside.require _

theorem relate_inside {index : Nat} {scan : Scan}
    (all : ∀ source ∈ instructions, Referring instructions source)
    (listed : instruction ∈ instructions)
    (read : (tables.name instruction.opcode).argumentsRead ≤ instruction.arguments.length) :
    Inside (tables.relate instructions index instruction scan) := by
  have referring := all instruction listed
  unfold relate
  split
  case h_1 name | h_2 name | h_3 name | h_4 name | h_5 name =>
    rw [name] at read
    exact validateAssociatedPseudo_inside referring read
  case h_6 name =>
    rw [name] at read
    exact (validNzcvSource_inside referring read).bind fun _ _ => Inside.ok _
  case h_7 name =>
    rw [name] at read
    exact (validNzSource_inside referring read).bind fun _ _ => Inside.ok _
  case h_8 =>
    refine Inside.bind_require fun _ => ?_
    exact (validTable_inside referring).bind fun _ _ => Inside.ok _
  case h_9 name | h_10 name =>
    rw [name] at read
    exact (validTableLookup_inside all referring read).bind fun _ _ => Inside.ok _
  case h_11 => exact Inside.ok _

theorem scanInstruction_inside (arities : tables.Arities) {ir : EncodedIr} {index : Nat}
    {scan : Scan} (all : ∀ source ∈ ir.instructions, Referring ir.instructions source)
    (listed : instruction ∈ ir.instructions) :
    Inside (tables.scanInstruction ir index instruction scan) := by
  unfold scanInstruction
  refine Inside.bind ?_ fun retired _ => ?_
  · exact Inside.bind_require fun _ => Inside.ok _
  refine Inside.bind ?_ fun named accepted => ?_
  · exact Inside.bind_require fun _ => Inside.ok _
  have read : (tables.name instruction.opcode).argumentsRead ≤ instruction.arguments.length := by
    simp only [accept, bind_eq_ok, require_eq_ok, Bool.and_eq_true, decide_eq_true_eq] at accepted
    obtain ⟨_, ⟨⟨_, counted⟩, _⟩, _⟩ := accepted
    rw [counted]
    exact arities instruction.opcode
  refine Inside.bind ?_ fun allocated _ => ?_
  · unfold allocate
    split
    · exact Inside.bind_require fun _ => Inside.ok _
    · exact Inside.ok _
  refine (checkArguments_inside (all instruction listed)).bind fun _ _ => ?_
  refine (validFpInstruction_inside read).bind fun _ _ => ?_
  refine Inside.bind_require fun _ => Inside.bind_require fun _ => ?_
  refine Inside.bind_require fun _ => Inside.bind_require fun _ => ?_
  exact relate_inside all listed read

theorem scanFrom_inside (arities : tables.Arities) {ir : EncodedIr} {index : Nat} {scan : Scan}
    (all : ∀ source ∈ ir.instructions, Referring ir.instructions source)
    {rest : List EncodedInstruction} (listed : ∀ instruction ∈ rest, instruction ∈ ir.instructions) :
    Inside (tables.scanFrom ir index rest scan) := by
  induction rest generalizing index scan with
  | nil => exact Inside.ok _
  | cons instruction rest ih =>
    obtain ⟨first, others⟩ := List.forall_mem_cons.mp listed
    exact (scanInstruction_inside arities all first).bind fun _ _ => ih others

/-- Whatever was read, the checks look at no instruction that is not there. -/
theorem validEncodedIr_inside (arities : tables.Arities) (ir : EncodedIr) :
    Inside (tables.validEncodedIr ir) := by
  refine Inside.bind_require fun _ => Inside.bind_require fun referring => ?_
  have all : ∀ source ∈ ir.instructions, Referring ir.instructions source := by
    intro source listed value part
    have bound := List.all_eq_true.mp (List.all_eq_true.mp referring source listed) value part
    rw [Bool.or_eq_true, decide_eq_true_eq] at bound
    exact bound
  refine (scanFrom_inside arities all fun _ listed => listed).bind fun _ _ => ?_
  exact Inside.require _

end
end Tables
end ILEmu.Dynarmic
