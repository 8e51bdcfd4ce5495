import ILEmu.ArmMemory.Restart

/-! The core registers that a completed transfer changes, and the accesses that it makes. -/
namespace ILEmu.ArmMemory
open Arm

variable {access : MemoryAccess} {machine : Machine} {register : Register}

@[simp] theorem setRegister_registers_of_ne {state : CpuThreadState} {other : Register}
    {value : Word} (different : register ≠ other) :
    (state.setRegister other value).registers register = state.registers register :=
  Function.update_of_ne different ..

@[simp] theorem setRegister_registers_self {state : CpuThreadState} {value : Word} :
    (state.setRegister register value).registers register = value :=
  Function.update_self ..

@[simp] theorem advance_registers {state : CpuThreadState} {size : Nat}
    (general : register ≠ programCounter) :
    (state.advance size).registers register = state.registers register :=
  setRegister_registers_of_ne general

/-! ### Transfers of one or two words -/

/-- What the base becomes, and what else stays. -/
def writtenBack (writeback : Bool) (rn : Register) (updated : Word) (before : Register → Word)
    (register : Register) : Word :=
  if writeback = true ∧ register = rn then updated else before register

theorem retireTransfer_registers {transfer : Transfer} {value : Word}
    (single : transfer.control.tableBranch = false) (general : register ≠ programCounter)
    (kept : transfer.control.load = true → register ≠ transfer.control.rd)
    (done : (retireTransfer machine transfer value).2.reason = .none) :
    (retireTransfer machine transfer value).1.state.registers register =
      writtenBack transfer.control.writeback transfer.control.rn transfer.updatedBase
        machine.state.registers register := by
  have base : (if transfer.control.writeback then
      machine.state.setRegister transfer.control.rn transfer.updatedBase
      else machine.state).registers register =
      writtenBack transfer.control.writeback transfer.control.rn transfer.updatedBase
        machine.state.registers register := by
    unfold writtenBack
    by_cases here : register = transfer.control.rn
    · cases transfer.control.writeback with
      | true => simp [here]
      | false => simp
    · cases transfer.control.writeback with
      | true => simp [here]
      | false => simp
  unfold retireTransfer at done ⊢
  simp only [single, Bool.not_false, Bool.and_true, Bool.false_eq_true, if_false] at done ⊢
  split at done
  · contradiction
  · rename_i supported
    rw [if_neg supported, ← base]
    have loaded : ∀ state : CpuThreadState,
        (if transfer.control.load && decide (transfer.control.rd ≠ programCounter) then
          state.setRegister transfer.control.rd value else state).registers register =
        state.registers register := by
      intro state
      split
      · rename_i loads
        simp only [Bool.and_eq_true, decide_eq_true_eq] at loads
        exact setRegister_registers_of_ne (kept loads.1)
      · rfl
    dsimp only
    split
    · exact (Function.update_of_ne general ..).trans (loaded _)
    · exact (advance_registers general).trans (loaded _)

theorem retireTransfer_tableBranch {transfer : Transfer} {value : Word}
    (table : transfer.control.tableBranch = true) (general : register ≠ programCounter) :
    (retireTransfer machine transfer value).1.state.registers register =
      machine.state.registers register := by
  unfold retireTransfer
  simp only [table, Bool.not_true, Bool.and_false, Bool.false_and, Bool.false_eq_true, if_false,
    if_true]
  exact setRegister_registers_of_ne general

/-- The words of a dual transfer change the two registers at most. -/
theorem transferWords_registers {load big : Bool} :
    ∀ {places : List (Register × Word)} {address : Word} {machine : Machine},
      (load = true → ∀ place ∈ places, register ≠ place.1) →
      (transferWords access load big places address machine).1.state.registers register =
        machine.state.registers register
  | [], _, _, _ => rfl
  | (other, value) :: rest, address, machine, kept => by
    have later : load = true → ∀ place ∈ rest, register ≠ place.1 :=
      fun loads place member => kept loads place (List.mem_cons_of_mem _ member)
    unfold transferWords
    cases load with
    | true =>
      have different := kept rfl (other, value) List.mem_cons_self
      simp only [if_true]
      split
      · rfl
      · rw [transferWords_registers later]
        exact setRegister_registers_of_ne different
    | false =>
      simp only [Bool.false_eq_true, if_false]
      split
      · rfl
      · exact transferWords_registers later

theorem completeDual_registers {transfer : Transfer} (general : register ≠ programCounter)
    (kept : transfer.control.load = true →
      register ≠ transfer.control.rd ∧ register ≠ transfer.control.rs)
    (done : (completeDual access machine transfer).2.reason = .none) :
    (completeDual access machine transfer).1.state.registers register =
      writtenBack transfer.control.writeback transfer.control.rn transfer.updatedBase
        machine.state.registers register := by
  unfold completeDual at done ⊢
  dsimp only at done ⊢
  split at done
  · contradiction
  · rename_i aligned
    rw [if_neg aligned]
    have words : (transferWords access transfer.control.load machine.state.bigEndian
        [(transfer.control.rd, transfer.value), (transfer.control.rs, transfer.secondValue)]
        transfer.address machine).1.state.registers register = machine.state.registers register := by
      apply transferWords_registers
      intro loads place member
      obtain ⟨first, second⟩ := kept loads
      simp only [List.mem_cons, List.not_mem_nil, or_false] at member
      rcases member with rfl | rfl
      · exact first
      · exact second
    split at done
    · contradiction
    · rename_i after transferred
      rw [transferred] at words
      dsimp only at words ⊢
      rw [advance_registers general, writtenBack]
      cases transfer.control.writeback with
      | false => simpa using words
      | true =>
        by_cases here : register = transfer.control.rn
        · simp [here]
        · simpa [here] using words

theorem complete_registers {transfer : Transfer} (general : register ≠ programCounter)
    (single : transfer.control.tableBranch = false)
    (kept : transfer.control.load = true →
      register ≠ transfer.control.rd ∧
        (transfer.control.dual = true → register ≠ transfer.control.rs))
    (done : (complete access machine transfer).2.reason = .none) :
    (complete access machine transfer).1.state.registers register =
      writtenBack transfer.control.writeback transfer.control.rn transfer.updatedBase
        machine.state.registers register := by
  unfold complete at done ⊢
  dsimp only at done ⊢
  cases dual : transfer.control.dual with
  | true =>
    rw [dual] at done kept
    exact completeDual_registers general (fun loads => ⟨(kept loads).1, (kept loads).2 rfl⟩) done
  | false =>
    simp only [dual, Bool.false_eq_true, if_false] at done ⊢
    split at done
    · contradiction
    · rename_i supported
      rw [if_neg supported]
      have loads := fun load => (kept load).1
      split at done
      · rename_i load
        rw [if_pos load]
        split at done
        · contradiction
        · exact retireTransfer_registers single general loads done
      · rename_i load
        rw [if_neg load]
        split at done
        · contradiction
        · exact retireTransfer_registers single general loads done

theorem complete_tableBranch {transfer : Transfer} (general : register ≠ programCounter)
    (table : transfer.control.tableBranch = true) (one : transfer.control.dual = false)
    (done : (complete access machine transfer).2.reason = .none) :
    (complete access machine transfer).1.state.registers register =
      machine.state.registers register := by
  unfold complete at done ⊢
  dsimp only at done ⊢
  simp only [one, table, Bool.not_true, Bool.and_false, Bool.false_and, Bool.false_eq_true,
    if_false] at done ⊢
  split at done
  · rename_i load
    rw [if_pos load]
    split at done
    · contradiction
    · exact retireTransfer_tableBranch table general
  · rename_i load
    rw [if_neg load]
    split at done
    · contradiction
    · exact retireTransfer_tableBranch table general

/-! ### Transfers of several registers -/

theorem transferRegisters_registers {transfer : MultipleTransfer} {big : Bool}
    (kept : transfer.control.load = true →
      transfer.control.registers.getLsbD register = true → register = programCounter) :
    ∀ {places : List Register} {address target : Word} {machine : Machine},
      (transferRegisters access transfer big places address target machine).1.state.registers
        register = machine.state.registers register
  | [], _, _, _ => rfl
  | other :: rest, address, target, machine => by
    unfold transferRegisters
    split
    · exact transferRegisters_registers kept
    · rename_i listed
      split
      · rename_i load
        split
        · rfl
        · dsimp only
          split
          · split
            · rfl
            · exact transferRegisters_registers kept
          · rename_i general
            rw [transferRegisters_registers kept]
            apply setRegister_registers_of_ne
            rintro rfl
            exact general (kept load (by simpa using listed))
      · dsimp only
        split
        · rfl
        · exact transferRegisters_registers kept

theorem completeMultiple_registers {transfer : MultipleTransfer}
    (general : register ≠ programCounter)
    (kept : transfer.control.load = true →
      transfer.control.registers.getLsbD register = false)
    (done : (completeMultiple access machine transfer).2.reason = .none) :
    (completeMultiple access machine transfer).1.state.registers register =
      writtenBack transfer.control.writeback transfer.control.rn transfer.updatedBase
        machine.state.registers register := by
  have words : (transferRegisters access transfer machine.state.bigEndian (List.finRange 16)
      transfer.address (machine.state.registers programCounter) machine).1.state.registers register =
        machine.state.registers register :=
    transferRegisters_registers fun load listed => absurd listed (by rw [kept load]; decide)
  unfold completeMultiple at done ⊢
  dsimp only at done ⊢
  split at done
  · contradiction
  · rename_i aligned
    rw [if_neg aligned]
    split at done
    · contradiction
    · contradiction
    · rename_i after target transferred
      rw [transferred] at words
      dsimp only at words ⊢
      have base : (if transfer.control.writeback then
          after.state.setRegister transfer.control.rn transfer.updatedBase
          else after.state).registers register =
          writtenBack transfer.control.writeback transfer.control.rn transfer.updatedBase
            machine.state.registers register := by
        unfold writtenBack
        cases transfer.control.writeback with
        | false => simpa using words
        | true =>
          by_cases here : register = transfer.control.rn
          · simp [here]
          · simpa [here] using words
      rw [← base]
      split
      · exact Function.update_of_ne general ..
      · exact setRegister_registers_of_ne general

/-! ### Transfers of extension registers -/

@[simp] theorem setExtension_registers {state : CpuThreadState} {index : Nat} {value : Word} :
    (state.setExtension index value).registers = state.registers := rfl

theorem commitElement_registers {control : VectorControl} {place lane : Nat} {value : BitVec 64}
    {state : CpuThreadState} :
    (commitElement control place lane value state).registers = state.registers := by
  unfold commitElement
  split
  · generalize replicated control.elementSize value = all
    have same : ∀ (places : List Nat) (state : CpuThreadState),
        (places.foldl (fun state i =>
          (state.setExtension ((control.first + i) * 2) (all.setWidth 32)).setExtension
            ((control.first + i) * 2 + 1) ((all >>> 32).setWidth 32)) state).registers =
        state.registers := by
      intro places
      induction places with
      | nil => exact fun _ => rfl
      | cons i rest ih => exact fun state => (ih _).trans rfl
    exact same _ _
  · dsimp only
    split
    · rfl
    · rfl

theorem transferElements_registers {control : VectorControl} {big : Bool} :
    ∀ {places : List (Nat × Nat)} {address : Word} {machine : Machine},
      (transferElements access control big places address machine).1.state.registers =
        machine.state.registers
  | [], _, _ => rfl
  | (place, lane) :: rest, address, machine => by
    unfold transferElements
    dsimp only
    split
    · split
      · rfl
      · rw [transferElements_registers]
        exact commitElement_registers
    · split
      · rfl
      · rw [transferElements_registers]

theorem completeVector_registers {transfer : VectorTransfer} (general : register ≠ programCounter)
    (done : (completeVector access machine transfer).2.reason = .none) :
    (completeVector access machine transfer).1.state.registers register =
      writtenBack transfer.control.writeback transfer.control.rn transfer.updatedBase
        machine.state.registers register := by
  have words : (transferElements access transfer.control machine.state.bigEndian
      (vectorElements transfer.control) transfer.address machine).1.state.registers =
        machine.state.registers := transferElements_registers
  unfold completeVector at done ⊢
  dsimp only at done ⊢
  split at done
  · contradiction
  · rename_i aligned
    rw [if_neg aligned]
    split at done
    · contradiction
    · rename_i after transferred
      rw [transferred] at words
      dsimp only at words ⊢
      rw [advance_registers general]
      unfold writtenBack
      cases transfer.control.writeback with
      | false => simp [words]
      | true =>
        by_cases here : register = transfer.control.rn
        · simp [here]
        · simp [here, words]

end ILEmu.ArmMemory
