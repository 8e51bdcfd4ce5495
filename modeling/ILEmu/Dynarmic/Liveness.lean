import ILEmu.Dynarmic.RoundTrip
import ILEmu.Foundation.Frontier

/-! The spill slots that a block needs: the pass with its deferred expirations counts at every
instruction the values that are live there. -/
namespace ILEmu.Dynarmic
open Foundation

def EncodedInstruction.uses (instruction : EncodedInstruction) (value : Nat) : Bool :=
  instruction.arguments.any (·.refersTo value)

/-- The value is used at the place or after it. -/
def usedFrom (instructions : List EncodedInstruction) (place value : Nat) : Bool :=
  (instructions.drop place).any (·.uses value)

section
variable {instructions : List EncodedInstruction}

theorem useCount_snoc (user : EncodedInstruction) (value : Nat) :
    useCount (instructions ++ [user]) value =
      useCount instructions value + user.arguments.countP (·.refersTo value) := by
  unfold useCount
  rw [List.flatMap_append, List.countP_append, List.flatMap_singleton]

theorem lastUse_snoc (user : EncodedInstruction) (value : Nat) :
    lastUse (instructions ++ [user]) value =
      if user.uses value then instructions.length else lastUse instructions value := by
  unfold lastUse
  rw [List.zipIdx_append, List.foldl_append, Nat.zero_add]
  rfl

theorem usedFrom_snoc (user : EncodedInstruction) (place value : Nat) :
    usedFrom (instructions ++ [user]) place value = true ↔
      usedFrom instructions place value = true ∨
        (place ≤ instructions.length ∧ user.uses value = true) := by
  unfold usedFrom
  rw [List.drop_append, List.any_append, Bool.or_eq_true]
  refine or_congr_right ?_
  rcases Nat.lt_or_ge instructions.length place with past | within
  · rw [List.drop_eq_nil_of_le (by rw [List.length_singleton]; omega)]
    simp [Nat.not_le_of_lt past]
  · rw [Nat.sub_eq_zero_of_le within]
    simp [within]

theorem uses_iff {user : EncodedInstruction} {value : Nat} :
    user.uses value = true ↔ user.arguments.countP (·.refersTo value) ≠ 0 := by
  unfold EncodedInstruction.uses
  rw [List.any_eq_true, Nat.ne_zero_iff_zero_lt, List.countP_pos_iff]

/-- The last use is the last place that the value is used from. -/
theorem usedFrom_iff {place value : Nat} :
    usedFrom instructions place value = true ↔
      useCount instructions value ≠ 0 ∧ place ≤ lastUse instructions value := by
  induction instructions using List.reverseRecOn with
  | nil =>
    unfold usedFrom
    rw [List.drop_nil]
    simp [useCount]
  | append_singleton instructions user ih =>
    rw [usedFrom_snoc, useCount_snoc, lastUse_snoc]
    by_cases here : user.uses value
    · have counted := uses_iff.mp here
      rw [if_pos here]
      constructor
      · rintro (before | ⟨within, -⟩)
        · refine ⟨by omega, ?_⟩
          by_contra past
          unfold usedFrom at before
          rw [List.drop_eq_nil_of_le (by omega)] at before
          contradiction
        · exact ⟨by omega, within⟩
      · rintro ⟨-, within⟩
        exact .inr ⟨within, here⟩
    · have free : user.arguments.countP (·.refersTo value) = 0 := by
        by_contra counted
        exact here (uses_iff.mpr counted)
      rw [if_neg here, free, Nat.add_zero, ← ih]
      constructor
      · rintro (before | ⟨_, used⟩)
        · exact before
        · exact absurd used here
      · exact .inl

theorem usedFrom_of_getElem {user : EncodedInstruction} {index place value : Nat}
    (here : instructions[index]? = some user) (used : user.uses value = true)
    (later : place ≤ index) : usedFrom instructions place value = true := by
  refine List.any_eq_true.mpr ⟨user, List.mem_of_getElem? (i := index - place) ?_, used⟩
  rw [List.getElem?_drop, Nat.add_sub_cancel' later]
  exact here

end

namespace Tables
variable (tables : Tables)

/-- The result of the instruction takes a register or a spill slot. -/
def allocates (instructions : List EncodedInstruction) (value : Nat) : Bool :=
  (instructions[value]?).any fun instruction => allocatedValue (tables.getTypeOf instruction.opcode)

/-- The allocated values that are defined at the place or before it and used there or after it. -/
def liveValues (instructions : List EncodedInstruction) (place : Nat) : Nat :=
  (List.range (place + 1)).countP fun value =>
    tables.allocates instructions value && usedFrom instructions place value

/-- The values that the pass counts. -/
def held (instructions : List EncodedInstruction) (value : Nat) : Bool :=
  useCount instructions value ≠ 0 && tables.allocates instructions value

theorem liveValues_eq (instructions : List EncodedInstruction) (place : Nat) :
    tables.liveValues instructions place =
      liveFrontier (tables.held instructions) (lastUse instructions) (place + 1) place := by
  unfold liveValues liveFrontier
  congr 1
  funext value
  rw [Bool.eq_iff_iff]
  simp only [held, Bool.and_eq_true, decide_eq_true_eq, usedFrom_iff]
  tauto

/-- No instruction uses a value before it is defined. -/
def Ordered (instructions : List EncodedInstruction) : Prop :=
  ∀ (index : Nat) (user : EncodedInstruction), instructions[index]? = some user →
    ∀ value ∈ user.arguments, value.isImmediate = true ∨ value.reference.toNat < index

theorem defined_before_lastUse {instructions : List EncodedInstruction}
    (ordered : Ordered instructions) {value : Nat} (used : useCount instructions value ≠ 0) :
    value ≤ lastUse instructions value := by
  have somewhere := usedFrom_iff.mpr ⟨used, Nat.zero_le (lastUse instructions value)⟩
  obtain ⟨user, listed, uses⟩ := List.any_eq_true.mp somewhere
  obtain ⟨index, here⟩ := List.mem_iff_getElem?.mp listed
  rw [List.drop_zero] at here
  obtain ⟨argument, mentioned, refers⟩ := List.any_eq_true.mp uses
  simp only [EncodedValue.refersTo, Bool.and_eq_true, Bool.not_eq_true', decide_eq_true_eq] at refers
  rcases ordered index user here argument mentioned with immediate | before
  · rw [immediate] at refers
    exact absurd refers.1 (by decide)
  · rw [refers.2] at before
    exact (usedFrom_iff.mp (usedFrom_of_getElem here uses before.le)).2

/-- What the scan counts before it comes to an instruction. -/
structure Counted (instructions : List EncodedInstruction) (index : Nat) (scan : Scan) : Prop where
  frontier : Frontier (tables.held instructions) (lastUse instructions) index scan.liveValues
    scan.liveExpirations
  few : scan.liveValues ≤ maximumLiveValues

theorem Counted.start (instructions : List EncodedInstruction) :
    tables.Counted instructions 0 {} :=
  ⟨Frontier.start _ _, Nat.zero_le _⟩

/-- One instruction keeps the count, and with it the bound at its place. -/
theorem Counted.step {instructions : List EncodedInstruction} {index : Nat}
    {instruction : EncodedInstruction} {scan next : Scan}
    (counted : tables.Counted instructions index scan) (ordered : Ordered instructions)
    (here : instructions[index]? = some instruction) {named : Scan}
    (done : tables.allocate instructions index instruction named = .ok next)
    (live : named.liveValues = scan.liveValues - scan.liveExpirations index)
    (expirations : named.liveExpirations = scan.liveExpirations) :
    tables.liveValues instructions index ≤ maximumLiveValues ∧
      tables.Counted instructions (index + 1) next := by
  rw [tables.liveValues_eq]
  have allocates : tables.allocates instructions index =
      allocatedValue (tables.getTypeOf instruction.opcode) := by
    unfold allocates
    rw [here]
    rfl
  have holds : tables.held instructions index = (decide (useCount instructions index ≠ 0) &&
      allocatedValue (tables.getTypeOf instruction.opcode)) := by
    rw [← allocates]
    rfl
  unfold allocate at done
  split at done
  · rename_i taken
    simp only [bind_eq_ok, require_eq_ok, Bool.and_eq_true, decide_eq_true_eq] at done
    obtain ⟨_, ⟨room, _⟩, same⟩ := done
    obtain rfl := Except.ok.inj same
    have used := of_decide_eq_true (Bool.and_eq_true_iff.mp taken).1
    obtain ⟨count, frontier⟩ := counted.frontier.define (holds.trans taken)
      (defined_before_lastUse ordered used)
    rw [live] at room
    refine ⟨count.trans_le room, ?_, ?_⟩
    · rw [live, expirations]
      exact frontier
    · rw [live]
      exact room
  · rename_i free
    obtain rfl := Except.ok.inj done
    obtain ⟨count, frontier⟩ :=
      counted.frontier.skip (holds.trans (Bool.eq_false_iff.mpr free))
    have room := (Nat.sub_le scan.liveValues (scan.liveExpirations index)).trans counted.few
    refine ⟨count.trans_le room, ?_, ?_⟩
    · rw [live, expirations]
      exact frontier
    · rw [live]
      exact room

end Tables
end ILEmu.Dynarmic
