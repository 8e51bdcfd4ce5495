import ILEmu.Arm64.WindowReach
import ILEmu.Foundation.FirstEntries

/-! The bounds of accesses and of windows: what is observed once stays within them while they are
widened for others. -/
namespace ILEmu.Arm64
open Arm hiding Instruction InstructionKind
open ArmMemory ArmInterpreter Foundation
open AddressWindows (observeCycle)

/-! ### What is recorded of an access -/

/-- An access with this displacement and this offset is within what is recorded of its key. -/
structure Holds (access : Access) (displacement : Expression) (least most : Int) : Prop where
  room : least + displacement.constant.toInt <
    most + (displacement.constant.toInt + access.key.size)
  first : access.first ≤ least + displacement.constant.toInt
  finish : most + (displacement.constant.toInt + access.key.size) ≤ access.finish
  firstCoefficient : access.firstCoefficient ≤ displacement.coefficient.toInt
  lastCoefficient : displacement.coefficient.toInt ≤ access.lastCoefficient
  residue : access.residue =
    ((least + displacement.constant.toInt) % access.key.stride).toNat
  stride : ∀ index, displacement.index = some index →
    access.stride = some index ∧ (access.key.stride : Int) ∣ displacement.coefficient.toInt

/-- The coefficients are those of words. -/
structure Access.Small (access : Access) : Prop where
  first : -2 ^ 31 ≤ access.firstCoefficient
  last : access.lastCoefficient ≤ 2 ^ 31 - 1

variable {windows : AddressWindows} {inst : Instruction} {key : Key} {access : Access}

theorem low_residue {alignment : Nat} (power : alignment ∈ [1, 2, 4, 8, 16, 32]) (low : Int) :
    (BitVec.ofInt 32 low &&& BitVec.ofNat 32 (alignment - 1)).toNat = (low % alignment).toNat := by
  have divides : alignment ∣ 2 ^ 32 := by
    have all : ∀ a ∈ [1, 2, 4, 8, 16, 32], a ∣ 2 ^ 32 := by decide
    exact all alignment power
  rw [low_bits power, BitVec.toNat_ofInt]
  have nonneg : 0 ≤ low % (2 ^ 32 : Nat) := Int.emod_nonneg _ (by decide)
  have number : (((low % (2 ^ 32 : Nat)).toNat % alignment : Nat) : Int) = low % alignment := by
    rw [Int.natCast_mod, Int.toNat_of_nonneg nonneg]
    exact Int.emod_emod_of_dvd _ (by exact_mod_cast divides)
  omega

section
variable {low high coefficient : Int} {residue : Nat}

theorem merge_key : (access.merge low high coefficient residue).key = access.key := by
  unfold Access.merge
  split <;> rfl

theorem merge_window : (access.merge low high coefficient residue).window = access.window := by
  unfold Access.merge
  split <;> rfl

theorem Access.Small.merge (small : access.Small) (least : -2 ^ 31 ≤ coefficient)
    (most : coefficient ≤ 2 ^ 31 - 1) : (access.merge low high coefficient residue).Small := by
  unfold Access.merge
  split
  · exact ⟨least, most⟩
  · exact ⟨le_min small.first least, max_le small.last most⟩

end

@[simp]
theorem record_key : (windows.record inst key access).key = access.key := by
  unfold AddressWindows.record
  dsimp only
  split
  · exact merge_key
  · rfl

@[simp]
theorem record_window : (windows.record inst key access).window = access.window := by
  unfold AddressWindows.record
  dsimp only
  split
  · exact merge_window
  · rfl

theorem record_stride (general : windows.displacements.General)
    (strides : ∀ index, access.stride = some index → index ≠ programCounter) :
    ∀ index, (windows.record inst key access).stride = some index → index ≠ programCounter := by
  have either : ∀ index, ((windows.displacements.values key.base).bind (·.index)).or access.stride =
      some index → index ≠ programCounter := by
    intro index counted
    rcases Option.or_eq_some_iff.mp counted with now | ⟨-, before⟩
    · obtain ⟨displacement, known, counts⟩ := Option.bind_eq_some_iff.mp now
      exact general _ displacement index known counts
    · exact strides index before
  unfold AddressWindows.record
  dsimp only
  split
  · unfold Access.merge
    split
    · exact either
    · exact either
  · exact either

theorem Access.Small.record (small : access.Small) : (windows.record inst key access).Small := by
  have word : ∀ displacement : Option Expression,
      -2 ^ 31 ≤ (displacement.map fun known => known.coefficient.toInt).getD 0 ∧
        (displacement.map fun known => known.coefficient.toInt).getD 0 ≤ 2 ^ 31 - 1 := by
    intro displacement
    cases displacement with
    | none => decide
    | some known =>
      have low := BitVec.le_toInt known.coefficient
      have high := known.coefficient.toInt_lt
      simp only [Option.map_some, Option.getD_some]
      omega
  obtain ⟨low, high⟩ := word (windows.displacements.values key.base)
  unfold AddressWindows.record
  dsimp only
  split
  · exact Access.Small.merge ⟨small.first, small.last⟩ low high
  · exact ⟨small.first, small.last⟩

theorem offsets_false : (windows.offsets key false).1 = false := by
  unfold AddressWindows.offsets
  dsimp only
  split
  · rfl
  · split
    · rfl
    · rfl

/-- What is observed of a valid access is within its record, with everything that was before. -/
theorem record_valid (same : access.key = key) (power : key.stride ∈ [1, 2, 4, 8, 16, 32])
    (valid : (windows.record inst key access).valid = true) :
    access.valid = true ∧
      (∃ displacement least most, Reaches windows key displacement least most ∧
        Holds (windows.record inst key access) displacement least most) ∧
      ∀ displacement least most, Holds access displacement least most →
        Holds (windows.record inst key access) displacement least most := by
  cases known : windows.displacements.values key.base with
  | none =>
    unfold AddressWindows.record at valid
    simp [known, offsets_false] at valid
  | some displacement =>
    rcases offset : windows.offsets key true with ⟨found, least, most⟩
    have small := low_residue power (least + displacement.constant.toInt)
    unfold AddressWindows.record at valid ⊢
    simp only [known, Option.map_some, Option.getD_some, Option.bind_some, Option.isSome_some,
      offset] at valid ⊢
    rw [small] at valid ⊢
    split at valid
    · rename_i both
      rw [if_pos both]
      simp only [Bool.and_eq_true, Bool.or_eq_true, decide_eq_true_eq] at both
      obtain ⟨before, ⟨⟨rfl, strided⟩, inside⟩, again⟩ := both
      have room : least + displacement.constant.toInt <
          most + (displacement.constant.toInt + key.size) := by
        simp only [fits, Bool.and_eq_true, decide_eq_true_eq] at inside
        exact inside.1.1
      have counted : ∀ index, displacement.index = some index →
          (access.stride = none ∨ access.stride = some index) ∧
            (key.stride : Int) ∣ displacement.coefficient.toInt := by
        intro index counts
        rw [counts] at strided
        simp only [Access.admitsStride, Bool.and_eq_true, Bool.or_eq_true, decide_eq_true_eq,
          Option.isNone_iff_eq_none] at strided
        exact ⟨strided.1.1, Int.dvd_of_tmod_eq_zero strided.2⟩
      have stride : ∀ index, displacement.index = some index →
          displacement.index.or access.stride = some index ∧
            (access.key.stride : Int) ∣ displacement.coefficient.toInt := by
        intro index counts
        rw [counts, same]
        exact ⟨rfl, (counted index counts).2⟩
      refine ⟨before, ⟨displacement, least, most, ⟨known, offset⟩, ?_⟩, ?_⟩
      · unfold Access.merge
        split
        · exact ⟨by rw [same]; exact room, le_refl _, by rw [same], le_refl _, le_refl _,
            by rw [same], stride⟩
        · exact ⟨by rw [same]; exact room, min_le_right _ _, by rw [same]; exact le_max_right _ _,
            min_le_right _ _, le_max_right _ _, by rw [same], stride⟩
      · intro other least' most' holds
        have older : ∀ index, other.index = some index →
            displacement.index.or access.stride = some index ∧
              (access.key.stride : Int) ∣ other.coefficient.toInt := by
          intro index counts
          obtain ⟨strides, whole⟩ := holds.stride index counts
          refine ⟨?_, whole⟩
          cases counts' : displacement.index with
          | none => exact strides
          | some index' =>
            rcases (counted index' counts').1 with absent | present
            · rw [strides] at absent
              contradiction
            · exact present.symm.trans strides
        have recorded : ¬access.fresh = true := by
          intro fresh
          simp only [Access.fresh, Bool.and_eq_true, decide_eq_true_eq] at fresh
          have := holds.room
          have := holds.first
          have := holds.finish
          omega
        have residue := again.resolve_left recorded
        unfold Access.merge
        split
        · rename_i fresh
          exact absurd fresh recorded
        · exact ⟨holds.room, (min_le_left _ _).trans holds.first,
            holds.finish.trans (le_max_left _ _), (min_le_left _ _).trans holds.firstCoefficient,
            holds.lastCoefficient.trans (le_max_left _ _), residue.symm.trans holds.residue, older⟩
    · rename_i neither
      exact absurd valid neither

/-! ### The accesses of a cycle -/

/-- The first access of a key. -/
def AddressWindows.accessOf (windows : AddressWindows) (key : Key) : Option Access :=
  windows.accesses.find? fun access => access.key = key

/-- The keys that are observed. -/
def Key.Observed (key : Key) : Prop := key.base.val < 15 ∧ key.pcBase = none

theorem accessOf_key {access : Access} (found : windows.accessOf key = some access) :
    access.key = key := by
  have := List.find?_some found
  simpa using this

theorem accessOf_appended (other : Key) :
    ((if windows.accesses.any fun access => access.key = key then windows.accesses
      else windows.accesses ++ [({ key := key } : Access)]).find?
        fun access => access.key = other) =
      if other = key then some ((windows.accessOf key).getD { key := key })
      else windows.accessOf other := by
  unfold AddressWindows.accessOf
  split
  · rename_i present
    split
    · rename_i same
      subst same
      obtain ⟨access, member, named⟩ := List.any_eq_true.mp present
      cases found : windows.accesses.find? fun access => access.key = other with
      | none => exact absurd named (List.find?_eq_none.mp found access member)
      | some first => rfl
    · rfl
  · rename_i absent
    rw [List.find?_append]
    have missing : (windows.accesses.find? fun access => access.key = key) = none := by
      rw [List.find?_eq_none]
      intro access member named
      exact absent (List.any_eq_true.mpr ⟨access, member, named⟩)
    split
    · rename_i same
      subst same
      rw [missing]
      simp
    · rename_i different
      have unnamed :
        ([{ key := key }] : List Access).find? (fun access => access.key = other) = none := by
        simpa using Ne.symm different
      rw [unnamed, Option.or_none]

theorem accessOf_observe (observed : key.Observed) (other : Key) :
    (windows.observe inst (some key)).accessOf other =
      if other = key then
        some (windows.record inst key ((windows.accessOf key).getD { key := key }))
      else windows.accessOf other := by
  have changed := @find?_modify_findIdx _ _ _ Access.key key
    (if windows.accesses.any fun access => access.key = key then windows.accesses
      else windows.accesses ++ [({ key := key } : Access)])
    (windows.record inst key) (fun access => record_key) other
  unfold AddressWindows.observe AddressWindows.accessOf
  dsimp only
  rw [if_pos (show key.base.val < 15 ∧ key.pcBase = none from observed)]
  rw [changed, accessOf_appended]
  split
  · rfl
  · exact Option.map_id' ..

theorem accessOf_unobserved {key : Option Key} (unobserved : ∀ k, key = some k → ¬k.Observed)
    (other : Key) : (windows.observe inst key).accessOf other = windows.accessOf other := by
  unfold AddressWindows.observe AddressWindows.accessOf
  dsimp only
  cases key with
  | none => rfl
  | some key =>
    dsimp only
    rw [if_neg (show ¬(key.base.val < 15 ∧ key.pcBase = none) from unobserved key rfl)]

/-- Every observed access of the cycle is within what is recorded of its key, as long as that is
valid. -/
def Covered (cycle : List (Instruction × Word)) : Prop :=
  ∀ before inst pc after key, cycle = before ++ (inst, pc) :: after →
    accessKey inst pc = some key → key.Observed →
      ∃ access, (observeCycle cycle).accessOf key = some access ∧
        (access.valid = true → ∃ displacement least most,
          Reaches (observeCycle before) key displacement least most ∧
            Holds access displacement least most)

theorem observeCycle_concat (cycle : List (Instruction × Word)) (entry : Instruction × Word) :
    observeCycle (cycle ++ [entry]) =
      (observeCycle cycle).observe entry.1 (accessKey entry.1 entry.2) := by
  simp [observeCycle, List.foldl_append]

theorem covered_cycle {cycle : List (Instruction × Word)}
    (decoded : ∀ entry ∈ cycle, Decoded entry.1) : Covered cycle := by
  induction cycle using List.reverseRecOn with
  | nil =>
    intro before inst pc after key split
    simp at split
  | append_singleton cycle entry ih =>
    have ih := ih fun other member => decoded other (List.mem_append_left _ member)
    intro before inst pc after key split found observed
    rw [observeCycle_concat]
    rcases List.eq_nil_or_concat after with rfl | ⟨more, last, rfl⟩
    · -- the access that is observed last
      obtain ⟨rfl, last⟩ := List.append_inj' split rfl
      obtain rfl := List.singleton_inj.mp last
      dsimp only
      rw [found, accessOf_observe observed, if_pos rfl]
      refine ⟨_, rfl, fun valid => ?_⟩
      have member : (inst, pc) ∈ cycle ++ [(inst, pc)] := by simp
      have same : ((observeCycle cycle).accessOf key |>.getD { key := key }).key = key := by
        cases present : (observeCycle cycle).accessOf key with
        | none => rfl
        | some access => exact accessOf_key present
      have power := stride_accessKey (decoded _ member) found
      exact (record_valid same power valid).2.1
    · -- an earlier access, whose record is widened if it is of the same key
      have earlier : cycle = before ++ (inst, pc) :: more ∧ entry = last := by
        have whole : cycle ++ [entry] = (before ++ (inst, pc) :: more) ++ [last] := by
          rw [split]
          simp
        exact ⟨(List.append_inj' whole rfl).1, by simpa using (List.append_inj' whole rfl).2⟩
      obtain ⟨access, present, holds⟩ := ih before inst pc more key earlier.1 found observed
      by_cases unobserved : ∀ k, accessKey entry.1 entry.2 = some k → ¬k.Observed
      · rw [accessOf_unobserved unobserved]
        exact ⟨access, present, holds⟩
      · push Not at unobserved
        obtain ⟨k, named, seen⟩ := unobserved
        rw [named, accessOf_observe seen]
        split
        · rename_i same
          subst same
          rw [present]
          refine ⟨_, rfl, fun valid => ?_⟩
          have member : entry ∈ cycle ++ [entry] := by simp
          have power := stride_accessKey (decoded _ member) named
          obtain ⟨before, -, kept⟩ := record_valid (accessOf_key present) power valid
          obtain ⟨displacement, least, most, reaches, inside⟩ := holds before
          exact ⟨displacement, least, most, reaches, kept _ _ _ inside⟩
        · exact ⟨access, present, holds⟩

theorem general_cycle (cycle : List (Instruction × Word)) :
    (observeCycle cycle).displacements.General := by
  induction cycle using List.reverseRecOn with
  | nil => exact general_entry
  | append_singleton cycle entry ih =>
    rw [observeCycle_concat]
    exact ih.observe _

/-- An access while the cycle is observed: it is in no window, its coefficients are those of words,
and its stride is a general register. -/
structure Access.Noted (access : Access) : Prop where
  observed : access.key.Observed
  window : access.window = none
  small : access.Small
  stride : ∀ index, access.stride = some index → index ≠ programCounter

theorem access_noted {cycle : List (Instruction × Word)} :
    ∀ access ∈ (observeCycle cycle).accesses, access.Noted := by
  induction cycle using List.reverseRecOn with
  | nil => simp [observeCycle]
  | append_singleton cycle entry ih =>
    rw [observeCycle_concat]
    intro access member
    unfold AddressWindows.observe at member
    dsimp only at member
    split at member
    · rename_i key named
      split at member
      · rename_i seen
        have either : ∀ other ∈ (if (observeCycle cycle).accesses.any fun access => access.key = key
            then (observeCycle cycle).accesses
            else (observeCycle cycle).accesses ++ [({ key := key } : Access)]), other.Noted := by
          intro other among
          split at among
          · exact ih other among
          · rcases List.mem_append.mp among with old | new
            · exact ih other old
            · obtain rfl := List.mem_singleton.mp new
              have least : (-2 ^ 31 : Int) ≤ 0 := by decide
              have most : (0 : Int) ≤ 2 ^ 31 - 1 := by decide
              exact ⟨seen, rfl, ⟨least, most⟩, fun _ absent => by cases absent⟩
        rcases of_mem_modify member with old | ⟨old, there, rfl⟩
        · exact either access old
        · have noted := either old there
          refine ⟨?_, record_window.trans noted.window, noted.small.record,
            record_stride (general_cycle cycle) noted.stride⟩
          rw [record_key]
          exact noted.observed
      · exact ih access member
    · exact ih access member

end ILEmu.Arm64
