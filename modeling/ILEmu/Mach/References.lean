import ILEmu.Mach.Steps

/-! Type bits and user-reference counters: while installed entries bring one reference,
a right is held exactly if it is counted, and no counter outgrows its kind. -/
namespace ILEmu
open Foundation Xnu.Ipc

/-- The largest user-reference count of a right. -/
def Right.limit (right : Right) : Nat :=
  if right.referenceCounted then right.maximumReferences else 1

namespace NameEntry

structure Counted (entry : NameEntry) : Prop where
  occupied : entry.type ≠ BitVec.ofNat 32 0
  held : ∀ right : Right, right.isIn entry.type = true ↔ 1 ≤ entry.userReferences right
  bounded : ∀ right : Right, entry.userReferences right ≤ right.limit

variable {entry : NameEntry} {type : MachTypeMask}

theorem one_le_limit (right : Right) : 1 ≤ right.limit := by
  cases right <;> decide

theorem makeEntry_counted (object : MachObject) (occupied : type ≠ BitVec.ofNat 32 0) :
    (makeEntry object type 1).Counted where
  occupied := occupied
  held := by
    intro right
    cases here : right.isIn type <;> simp [makeEntry, here]
  bounded := by
    intro right
    have limit := one_le_limit right
    cases here : right.isIn type <;> simp [makeEntry, here, limit]

theorem addTypes_counted (counted : entry.Counted) (type : MachTypeMask) :
    (entry.addTypes type 1 true).Counted where
  occupied := by
    intro none
    apply counted.occupied
    apply BitVec.eq_of_getLsbD_eq
    intro i _
    have bit := congrArg (fun mask => mask.getLsbD i) none
    rw [addTypes_type, BitVec.getLsbD_or, BitVec.getLsbD_zero] at bit
    rw [BitVec.getLsbD_zero]
    exact (Bool.or_eq_false_iff.mp bit).1
  held := by
    intro right
    have before := counted.held right
    rw [addTypes_type, Right.isIn_or]
    unfold addTypes
    cases given : right.isIn type with
    | false => simpa [given] using before
    | true =>
      cases here : right.isIn entry.type with
      | false => simp [given, here]
      | true =>
        have positive := before.mp here
        simp only [given, here, Bool.or_true, not_true_eq_false, if_false, true_iff]
        split
        · split <;> omega
        · omega
  bounded := by
    intro right
    have before := counted.bounded right
    have limit := one_le_limit right
    unfold addTypes
    dsimp only
    split
    · exact before
    · split
      · omega
      · split
        · rename_i pegged
          have counts : right.referenceCounted := by simpa using pegged
          have same : right.limit = right.maximumReferences := if_pos counts
          split <;> omega
        · omega

theorem setReferences_counted (counted : entry.Counted) {right : Right}
    (here : right.isIn entry.type) {left : Nat} (some : 0 < left)
    (bounded : left ≤ entry.userReferences right ∨
      right.referenceCounted ∧ left ≤ right.maximumReferences) :
    (entry.setReferences right left).Counted where
  occupied := counted.occupied
  held := by
    intro other
    by_cases same : other = right
    · subst other
      simp only [setReferences, Function.update_self, here, true_iff]
      exact some
    · simpa [setReferences, same] using counted.held other
  bounded := by
    intro other
    by_cases same : other = right
    · subst other
      simp only [setReferences, Function.update_self]
      rcases bounded with fewer | ⟨counts, within⟩
      · exact fewer.trans (counted.bounded right)
      · have limit : right.limit = right.maximumReferences := if_pos counts
        omega
    · simpa [setReferences, same] using counted.bounded other

theorem without_counted (counted : entry.Counted)
    (occupied : (entry.without type).type ≠ BitVec.ofNat 32 0) : (entry.without type).Counted where
  occupied := occupied
  held := by
    intro right
    have before := counted.held right
    rw [without_type, Right.isIn_and, Right.isIn_not]
    cases gone : right.isIn type with
    | true => simp [without, clearReferences, gone]
    | false => simpa [without, clearReferences, dropType, gone] using before
  bounded := by
    intro right
    cases gone : right.isIn type with
    | true => simp [without, clearReferences, gone]
    | false => simpa [without, clearReferences, dropType, gone] using counted.bounded right

theorem sendable_iff :
    entry.type &&& converted ≠ BitVec.ofNat 32 0 ↔
      Right.send.isIn entry.type ∨ Right.sendOnce.isIn entry.type := by
  rw [and_ne_zero]
  simp only [converted, Right.typeMask, Right.isIn_eq, BitVec.getLsbD_or, BitVec.getLsbD_twoPow,
    Bool.or_eq_true, Bool.and_eq_true, decide_eq_true_eq]
  constructor
  · rintro ⟨i, bit, ⟨_, rfl⟩ | ⟨_, rfl⟩⟩
    · exact .inl bit
    · exact .inr bit
  · rintro (bit | bit)
    · exact ⟨_, bit, .inl ⟨by decide, rfl⟩⟩
    · exact ⟨_, bit, .inr ⟨by decide, rfl⟩⟩

/-- The counters of an entry that is converted. -/
theorem Counted.combined (counted : entry.Counted)
    (sendable : Right.send.isIn entry.type ∨ Right.sendOnce.isIn entry.type) :
    entry.killed.userReferences .deadName =
        entry.userReferences .send + entry.userReferences .sendOnce ∧
      1 ≤ entry.userReferences .send + entry.userReferences .sendOnce ∧
      entry.userReferences .send + entry.userReferences .sendOnce ≤ maximumUserReferences := by
  have sends : entry.userReferences .send ≤ maximumSendUserReferences := counted.bounded .send
  have once : entry.userReferences .sendOnce ≤ 1 := counted.bounded .sendOnce
  have room : maximumSendUserReferences + 1 = maximumUserReferences := by decide
  have range : maximumUserReferences ≤ 0xffffffff := by decide
  have some : 1 ≤ entry.userReferences .send + entry.userReferences .sendOnce := by
    rcases sendable with here | here
    · have := (counted.held .send).mp here
      omega
    · have := (counted.held .sendOnce).mp here
      omega
  refine ⟨?_, some, by omega⟩
  simp only [killed]
  omega

theorem killed_counted (counted : entry.Counted)
    (sendable : Right.send.isIn entry.type ∨ Right.sendOnce.isIn entry.type) :
    entry.killed.Counted := by
  obtain ⟨combined, some, within⟩ := counted.combined sendable
  have dead : Right.deadName.isIn entry.killed.type := by
    rw [killed_type, Right.isIn_or]
    simp
  refine ⟨?_, ?_, ?_⟩
  · intro none
    rw [none, Right.isIn_zero] at dead
    contradiction
  · intro right
    have before := counted.held right
    cases right with
    | deadName =>
      rw [combined]
      exact ⟨fun _ => some, fun _ => dead⟩
    | send => simp [killed, converted]
    | sendOnce => simp [killed, converted]
    | receive => simpa [killed, converted] using before
    | portSet => simpa [killed, converted] using before
  · intro right
    cases right with
    | deadName =>
      rw [combined]
      exact within
    | send => exact Nat.zero_le _
    | sendOnce => exact Nat.zero_le _
    | receive => exact counted.bounded .receive
    | portSet => exact counted.bounded .portSet

theorem after_counted (counted : entry.Counted) (object : MachObject) :
    (entry.after object).Counted := by
  unfold after
  split
  · rename_i sendable
    exact killed_counted counted (sendable_iff.mp sendable.2)
  · exact counted

/-- What the death of an object makes of an entry: its send rights turn into as many dead
names, its receive and port-set rights stay, and other entries stay as they are. -/
structure Died (object : MachObject) (entry entry' : NameEntry) : Prop where
  sameObject : entry'.object = entry.object
  others : entry.object ≠ object → entry' = entry
  unsendable : ¬ (Right.send.isIn entry.type ∨ Right.sendOnce.isIn entry.type) → entry' = entry
  receive : entry'.userReferences .receive = entry.userReferences .receive ∧
    Right.receive.isIn entry'.type = Right.receive.isIn entry.type
  portSet : entry'.userReferences .portSet = entry.userReferences .portSet ∧
    Right.portSet.isIn entry'.type = Right.portSet.isIn entry.type
  converted : entry.object = object →
    Right.send.isIn entry.type ∨ Right.sendOnce.isIn entry.type →
      entry'.userReferences .deadName =
          entry.userReferences .send + entry.userReferences .sendOnce ∧
        Right.deadName.isIn entry'.type = true ∧
        (Right.send.isIn entry'.type = false ∧ entry'.userReferences .send = 0) ∧
        Right.sendOnce.isIn entry'.type = false ∧ entry'.userReferences .sendOnce = 0

theorem after_died (counted : entry.Counted) (object : MachObject) :
    Died object entry (entry.after object) := by
  unfold after
  split
  · rename_i sendable
    obtain ⟨same, sendable⟩ := sendable
    have sendable := sendable_iff.mp sendable
    refine ⟨rfl, fun other => absurd same other, fun none => absurd sendable none, ?_, ?_, ?_⟩
    · simp [killed, NameEntry.converted]
    · simp [killed, NameEntry.converted]
    · intro _ _
      refine ⟨(counted.combined sendable).1, ?_, ?_, ?_, rfl⟩
      · simp [killed]
      · simp [killed, NameEntry.converted]
      · simp [killed, NameEntry.converted]
  · rename_i kept
    rw [sendable_iff] at kept
    exact ⟨rfl, fun _ => rfl, fun _ => rfl, ⟨rfl, rfl⟩, ⟨rfl, rfl⟩,
      fun same sendable => absurd ⟨same, sendable⟩ kept⟩

end NameEntry

/-- Every entry is counted. -/
def EntriesCounted (entries : Table MachName NameEntry) : Prop :=
  ∀ name entry, entries.lookup name = some entry → entry.Counted

section
variable {entries entries' : Table MachName NameEntry}

theorem EntriesCounted.insert (counted : EntriesCounted entries) {entry : NameEntry}
    (here : entry.Counted) (name : MachName) : EntriesCounted (entries.insert name entry) := by
  intro other entry' found
  rw [Table.lookup_insert_eq] at found
  split at found
  · cases found
    exact here
  · exact counted other entry' found

theorem EntriesCounted.erase (counted : EntriesCounted entries) (name : MachName) :
    EntriesCounted (entries.erase name) := by
  intro other entry found
  rw [Table.lookup_erase_eq] at found
  split at found
  · contradiction
  · exact counted other entry found

/-- An edit that brings single references keeps every entry counted. -/
theorem Edit.counted (edit : Edit 1 entries entries') (counted : EntriesCounted entries) :
    EntriesCounted entries' := by
  cases edit with
  | keep => exact counted
  | enter name object type missing occupied =>
    exact counted.insert (NameEntry.makeEntry_counted object occupied) name
  | grant name entry type found =>
    exact counted.insert (NameEntry.addTypes_counted (counted name entry found) type) name
  | count name entry right left found held some bounded =>
    exact counted.insert
      (NameEntry.setReferences_counted (counted name entry found) held some bounded) name
  | narrow name entry type found occupied =>
    exact counted.insert (NameEntry.without_counted (counted name entry found) occupied) name
  | drop name => exact counted.erase name
  | move oldName newName entry found =>
    exact (counted.erase oldName).insert (counted oldName entry found) newName
  | kill object entries' killed =>
    intro name entry found
    rw [killed] at found
    obtain ⟨old, stored, rfl⟩ := Option.map_eq_some_iff.mp found
    exact NameEntry.after_counted (counted name old stored) object

end

namespace MachNamespaceTable
variable {table table' : MachNamespaceTable}

def Counted (table : MachNamespaceTable) : Prop :=
  ∀ task name entry, table.lookup task name = some entry → entry.Counted

theorem counted_open (counted : table.Counted) (task : TaskId) :
    EntriesCounted (table.openSpace task).entries := by
  intro name entry found
  unfold openSpace at found
  cases stored : table.spaces.lookup task with
  | none =>
    rw [stored] at found
    contradiction
  | some space =>
    rw [stored] at found
    apply counted task name entry
    unfold lookup
    rw [stored]
    exact found

theorem Stepped.counted_after (stepped : Stepped 1 table table') (counted : table.Counted) :
    table'.Counted := by
  intro task name entry found
  unfold lookup at found
  obtain ⟨space, stored, found⟩ := Option.bind_eq_some_iff.mp found
  exact (stepped task space stored).edit.counted (counted_open counted task) name entry found

/-- In every run whose operations bring single references, every entry is counted, and the
death of an object turns each of its send rights into that many dead names. -/
theorem run_counted (operations : List NamespaceOperation)
    (single : ∀ operation ∈ operations, operation.references = 1) :
    (run after {} operations).Counted ∧ ∀ object, ∃ result,
      (run after {} operations).markObjectDead object = .ok result ∧ ∀ task name,
        Option.Rel (NameEntry.Died object) ((run after {} operations).lookup task name)
          (result.1.lookup task name) := by
  have sound : (run after {} operations).Sound := run_invariant after_sound sound_empty operations
  have along : Along after (fun _ operation => operation.references = 1) {} operations :=
    along_of_mem (fun operation member _ => single operation member) _
  have counted : (run after {} operations).Counted := by
    apply Along.keeps after_sound _ sound_empty _ along
    · intro table operation sound counted brings
      have stepped := after_stepped sound operation
      rw [brings] at stepped
      exact stepped.counted_after counted
    · intro task name entry found
      contradiction
  refine ⟨counted, ?_⟩
  intro object
  obtain ⟨result, killed, dead⟩ := markObjectDead_yields sound object
  refine ⟨result, killed, ?_⟩
  intro task name
  have here := dead task
  unfold lookup
  generalize run after {} operations = table at here counted ⊢
  cases before : table.spaces.lookup task with
  | none =>
    rw [before] at here
    cases after : result.1.spaces.lookup task with
    | none => exact Option.Rel.none
    | some space' =>
      rw [after] at here
      contradiction
  | some space =>
    rw [before] at here
    cases after : result.1.spaces.lookup task with
    | none =>
      rw [after] at here
      contradiction
    | some space' =>
      rw [after] at here
      cases here with
      | some killed =>
        simp only [Option.bind_eq_bind, Option.bind_some, killed.entries name]
        cases stored : space.entries.lookup name with
        | none => exact Option.Rel.none
        | some entry =>
          apply Option.Rel.some
          apply NameEntry.after_died
          apply counted task name entry
          simp [lookup, before, stored]

/-- A name with two send references and a send-once name of one object, and its receive right. -/
theorem run_counted_aliases :
    (run after {} [.copyout 1 7 Right.receive.typeMask, .copyout 1 7 Right.send.typeMask,
      .copyout 1 7 Right.send.typeMask, .copyout 1 7 Right.sendOnce.typeMask,
      .install 2 9 7 Right.send.typeMask 1]).Counted :=
  (run_counted _ (by decide)).1

end MachNamespaceTable
end ILEmu
