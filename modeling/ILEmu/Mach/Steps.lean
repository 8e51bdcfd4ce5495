import ILEmu.Mach.DeadNames

/-! Every operation on a table with right indexes returns, and leaves each space with at
most one edit and a right index. -/
namespace ILEmu
open Foundation Xnu.Ipc

namespace Space
variable {space : Space} {object : MachObject} {type : MachTypeMask}

theorem freeName_some {fuel : Nat} {candidate name : MachName} (inside : candidate ≤ maximumName)
    (found : space.freeName fuel candidate = some name) :
    validName name ∧ space.entries.lookup name = none ∧ name ≤ maximumName ∧
      ∃ k : Nat, name = candidate + k * nameIndexStride := by
  induction fuel generalizing candidate with
  | zero => contradiction
  | succ fuel ih =>
    simp only [freeName] at found
    split at found
    · split at found
      · contradiction
      · have below : candidate + nameIndexStride ≤ maximumName := by
          have stride : nameIndexStride ≤ maximumName := by decide
          unfold MachName at *
          omega
        obtain ⟨valid, missing, bounded, k, rfl⟩ := ih below found
        refine ⟨valid, missing, bounded, k + 1, ?_⟩
        unfold MachName at *
        rw [Nat.add_mul]
        omega
    · rename_i free
      obtain rfl := Option.some.inj found
      have free := not_or.mp free
      exact ⟨by simpa using free.1, by simpa using free.2, inside, 0, by simp⟩

theorem allocate_yields (indexed : space.Indexed) (inside : space.nextName ≤ maximumName)
    (occupied : type ≠ BitVec.ofNat 32 0) :
    Yields (space.allocate object type) fun result => Edited 1 space result.1 := by
  unfold allocate
  cases found : space.freeName (searchLength space.nextName) space.nextName with
  | none => exact Yields.ok (Edited.refl indexed)
  | some candidate =>
    obtain ⟨_, missing, bounded, k, place⟩ := freeName_some inside found
    apply Yields.bind (enter_yields indexed missing (.makeEntry object type 1))
    rintro space' ⟨indexed', entries, nextName⟩
    apply Yields.ok
    have edit : Edit 1 space.entries space'.entries := by
      rw [entries]
      exact .enter candidate object type missing occupied
    dsimp only
    split
    · rename_i room
      refine ⟨indexed', edit, .inr ⟨?_, k + 1, ?_⟩⟩
      · have stride : nameIndexStride ≤ maximumName := by decide
        change candidate + nameIndexStride ≤ maximumName
        unfold MachName at *
        omega
      · change candidate + nameIndexStride = space.nextName + (k + 1) * nameIndexStride
        unfold MachName at *
        rw [Nat.add_mul]
        omega
    · exact ⟨indexed', edit, .inl nextName⟩

theorem reusableName_yields {names : List MachName}
    (stored : ∀ name ∈ names, ∃ entry, space.entries.lookup name = some entry ∧
      entry.object = object) :
    Yields (space.reusableName names) fun result => ∀ name entry, result = some (name, entry) →
      space.entries.lookup name = some entry ∧ entry.object = object := by
  induction names with
  | nil => exact Yields.ok (by simp)
  | cons name rest ih =>
    obtain ⟨entry, found, same⟩ := stored name List.mem_cons_self
    apply Yields.bind (entryAt_yields found)
    rintro entry rfl
    apply Yields.ite
    · intro _
      exact ih fun other member => stored other (List.mem_cons_of_mem _ member)
    · intro _
      apply Yields.ok
      rintro _ _ ⟨⟩
      exact ⟨found, same⟩

/-- The names that the index lists for an object are stored with that object. -/
theorem Indexed.stored (indexed : space.Indexed) (object : MachObject) :
    ∀ name ∈ (space.indexedNames object).getD [], ∃ entry,
      space.entries.lookup name = some entry ∧ entry.object = object := by
  intro name member
  have listed := (indexed object).listed
  have member' : name ∈ ((space.namesByObject.lookup object).getD {}).names := by
    unfold indexedNames at member
    cases slot : space.namesByObject.lookup object with
    | none => simp [slot] at member
    | some indexedNames => simpa [slot] using member
  obtain ⟨type, given⟩ := Option.isSome_iff_exists.mp ((listed.keys name).mp member')
  obtain ⟨entry, found, same, _⟩ := typesOf_some.mp given
  exact ⟨entry, found, same⟩

theorem coalesce_yields (indexed : space.Indexed) (object : MachObject) (type : MachTypeMask) :
    Yields (space.coalesce object type) fun result =>
      ∀ space' name, result = some (space', name) → Edited 1 space space' := by
  apply Yields.bind (reusableName_yields (indexed.stored object))
  rintro result reusable
  cases result with
  | none => exact Yields.ok nofun
  | some place =>
    obtain ⟨name, entry⟩ := place
    obtain ⟨found, rfl⟩ := reusable name entry rfl
    apply Yields.bind (grant_yields indexed found type)
    intro space' edited
    apply Yields.ok
    rintro _ _ ⟨⟩
    exact edited

end Space

namespace MachNamespaceTable
variable {table table' : MachNamespaceTable} {references : Nat} {task : TaskId}
  {object : MachObject} {type : MachTypeMask}

/-- Every index is right, and dynamic names stay in the range. -/
structure Sound (table : MachNamespaceTable) : Prop where
  indexed : ∀ task space, table.spaces.lookup task = some space → space.Indexed
  inside : ∀ task space, table.spaces.lookup task = some space → space.nextName ≤ maximumName

/-- Each space of the later table is an edit of the space that the task had, or an empty one. -/
def Stepped (references : Nat) (table table' : MachNamespaceTable) : Prop :=
  ∀ task space, table'.spaces.lookup task = some space →
    Edited references (table.openSpace task) space

theorem sound_empty : Sound {} := ⟨nofun, nofun⟩

theorem Sound.open_indexed (sound : table.Sound) (task : TaskId) :
    (table.openSpace task).Indexed := by
  unfold openSpace
  cases found : table.spaces.lookup task with
  | none => exact Space.indexed_empty
  | some space => exact sound.indexed task space found

theorem Sound.open_inside (sound : table.Sound) (task : TaskId) :
    (table.openSpace task).nextName ≤ maximumName := by
  unfold openSpace
  cases found : table.spaces.lookup task with
  | none => decide
  | some space => exact sound.inside task space found

theorem openSpace_found {space : Space} (found : table.spaces.lookup task = some space) :
    table.openSpace task = space := by
  simp [openSpace, found]

@[simp] theorem openSpace_setSpace (space : Space) :
    (table.setSpace task space).openSpace task = space := by
  simp [openSpace, setSpace]

@[simp] theorem setSpace_setSpace (space space' : Space) :
    (table.setSpace task space).setSpace task space' = table.setSpace task space' := by
  simp [setSpace]

/-- The next name of an edited space is still in the range. -/
theorem Edited.inside {space space' : Space} (edited : Edited references space space')
    (inside : space.nextName ≤ maximumName) : space'.nextName ≤ maximumName := by
  rcases edited.next with same | ⟨bounded, _⟩
  · rw [same]
    exact inside
  · exact bounded

theorem Stepped.sound (stepped : Stepped references table table') (sound : table.Sound) :
    table'.Sound where
  indexed := fun task space found => (stepped task space found).indexed
  inside := fun task space found =>
    Edited.inside (stepped task space found) (sound.open_inside task)

theorem Stepped.refl (sound : table.Sound) : Stepped references table table := by
  intro task space found
  rw [openSpace_found found]
  exact Space.Edited.refl (sound.indexed task space found)

theorem Stepped.setSpace (sound : table.Sound) {space : Space}
    (edited : Edited references (table.openSpace task) space) :
    Stepped references table (table.setSpace task space) := by
  intro other space' found
  simp only [MachNamespaceTable.setSpace, Table.lookup_insert_eq] at found
  split at found
  · subst other
    cases found
    exact edited
  · exact Stepped.refl sound other space' found

/-- A table that opens a space and then edits it has edited the space once. -/
theorem Stepped.opened (stepped : Stepped references
    (table.setSpace task (table.openSpace task)) table') : Stepped references table table' := by
  intro other space found
  have edited := stepped other space found
  by_cases same : other = task
  · subst other
    rwa [openSpace_setSpace] at edited
  · simpa [openSpace, MachNamespaceTable.setSpace, same] using edited

theorem Sound.opened (sound : table.Sound) :
    (table.setSpace task (table.openSpace task)).Sound :=
  have edited : Edited 1 (table.openSpace task) (table.openSpace task) :=
    Space.Edited.refl (sound.open_indexed task)
  (Stepped.setSpace sound edited).sound sound

theorem createTask_stepped (sound : table.Sound) : Stepped 1 table (table.createTask task) := by
  unfold createTask
  split
  · exact Stepped.refl sound
  · rename_i missing
    have fresh : table.openSpace task = {} := by
      unfold openSpace
      rw [Option.not_isSome_iff_eq_none.mp missing]
      rfl
    apply Stepped.setSpace sound
    rw [fresh]
    exact Space.Edited.refl Space.indexed_empty

theorem destroyTask_stepped (sound : table.Sound) : Stepped 1 table (table.destroyTask task) := by
  intro other space found
  simp only [destroyTask, Table.lookup_erase_eq] at found
  split at found
  · contradiction
  · exact Stepped.refl sound other space found

theorem install_yields (sound : table.Sound) (name : MachName) :
    Yields (table.install task name object type references)
      fun result => Stepped references table result.1 := by
  apply Yields.ite
  · intro _
    exact Yields.ok (Stepped.refl sound)
  · intro valid
    have indexed := sound.open_indexed task
    dsimp only
    cases found : (table.openSpace task).entries.lookup name with
    | some entry =>
      dsimp only
      apply Yields.ite
      · intro _
        exact Yields.ok (Stepped.setSpace sound (Space.Edited.refl indexed))
      · intro same
        have same : entry.object = object := by simpa using same
        subst same
        apply Yields.bind (Space.grant_yields indexed found type)
        intro space edited
        exact Yields.ok (Stepped.setSpace sound edited)
    | none =>
      have occupied : type ≠ BitVec.ofNat 32 0 := fun none => valid (.inr (.inr none))
      apply Yields.bind (Space.enter_yields indexed found (.makeEntry object type references))
      rintro space ⟨indexed', entries, nextName⟩
      apply Yields.ok
      apply Stepped.setSpace sound
      refine ⟨indexed', ?_, .inl nextName⟩
      rw [entries]
      exact .enter name object type found occupied

theorem allocate_yields (sound : table.Sound) :
    Yields (table.allocate task object type) fun result => Stepped 1 table result.1 := by
  apply Yields.ite
  · intro _
    exact Yields.ok (Stepped.refl sound)
  · intro valid
    have occupied : type ≠ BitVec.ofNat 32 0 := fun none => valid (.inr none)
    apply Yields.bind
      (Space.allocate_yields (sound.open_indexed task) (sound.open_inside task) occupied)
    rintro ⟨space, name⟩ edited
    exact Yields.ok (Stepped.setSpace sound edited)

theorem copyout_yields (sound : table.Sound) :
    Yields (table.copyout task object type) fun result => Stepped 1 table result.1 := by
  have allocated : Yields ((table.setSpace task (table.openSpace task)).allocate task object type)
      fun result => Stepped 1 table result.1 :=
    (allocate_yields sound.opened).mono fun _ stepped => stepped.opened
  apply Yields.ite
  · intro _
    exact allocated
  · intro _
    apply Yields.bind (Space.coalesce_yields (sound.open_indexed task) object type)
    intro result coalesced
    cases result with
    | none => exact allocated
    | some place =>
      obtain ⟨space, name⟩ := place
      apply Yields.ok
      rw [setSpace_setSpace]
      exact Stepped.setSpace sound (coalesced space name rfl)

theorem placeAtName_yields (sound : table.Sound) (preferredName : MachName) :
    Yields (table.placeAtName task object type preferredName)
      fun result => Stepped 1 table result.1 := by
  apply Yields.ite
  · intro _
    exact allocate_yields sound
  · intro valid
    have occupied : type ≠ BitVec.ofNat 32 0 := fun none => valid (.inr (.inl none))
    have missing : (table.openSpace task).entries.lookup preferredName = none := by
      rw [← Option.not_isSome_iff_eq_none]
      exact fun used => valid (.inr (.inr (.inr used)))
    apply Yields.bind
      (Space.enter_yields (sound.open_indexed task) missing (.makeEntry object type 1))
    rintro space ⟨indexed', entries, nextName⟩
    apply Yields.ok
    apply Stepped.setSpace sound
    refine ⟨indexed', ?_, .inl nextName⟩
    rw [entries]
    exact .enter preferredName object type missing occupied

theorem copyoutAtName_yields (sound : table.Sound) (preferredName : MachName) :
    Yields (table.copyoutAtName task object type preferredName)
      fun result => Stepped 1 table result.1 := by
  have placed : Yields
      ((table.setSpace task (table.openSpace task)).placeAtName task object type preferredName)
      fun result => Stepped 1 table result.1 :=
    (placeAtName_yields sound.opened preferredName).mono fun _ stepped => stepped.opened
  apply Yields.ite
  · intro _
    exact placed
  · intro _
    apply Yields.bind (Space.coalesce_yields (sound.open_indexed task) object type)
    intro result coalesced
    cases result with
    | none => exact placed
    | some place =>
      obtain ⟨space, name⟩ := place
      apply Yields.ok
      rw [setSpace_setSpace]
      exact Stepped.setSpace sound (coalesced space name rfl)

theorem rename_yields (sound : table.Sound) (oldName newName : MachName) :
    Yields (table.rename task oldName newName) fun result => Stepped 1 table result.1 := by
  have unchanged : ∀ answer : Bool, Yields (.ok (table, answer) : Guarded _)
      fun result => Stepped 1 table result.1 := fun _ => Yields.ok (Stepped.refl sound)
  unfold rename
  apply Yields.ite
  · intro _
    exact unchanged false
  · intro _
    cases found : table.spaces.lookup task with
    | none => exact unchanged false
    | some space =>
      apply Yields.ite
      · intro _
        exact unchanged false
      · intro missing
        have missing := Option.not_isSome_iff_eq_none.mp missing
        cases stored : space.entries.lookup oldName with
        | none => exact unchanged false
        | some entry =>
          have indexed := sound.indexed task space found
          obtain ⟨space', moved, edited⟩ : Yields _ (Edited 1 space) :=
            Space.move_yields indexed stored missing
          obtain ⟨middle, unindexed, reindexed⟩ := bind_eq_ok_iff.mp moved
          refine ⟨(table.setSpace task space', true), ?_, ?_⟩
          · dsimp only
            rw [unindexed]
            simp only [bind, Except.bind, reindexed]
            rfl
          · apply Stepped.setSpace sound
            rwa [openSpace_found found]

section entries
variable {space : Space} {name : MachName} {entry : NameEntry}

theorem raised_bounded {right : Right} {held amount left : Nat}
    (within : raised right held amount = some left) :
    held + amount = left ∧ left ≤ right.maximumReferences := by
  unfold raised at within
  split at within
  · contradiction
  · cases within
    omega

/-- Counting an entry up or down leaves one edit of its space. -/
theorem Stepped.counted (sound : table.Sound) (found : table.spaces.lookup task = some space)
    (stored : space.entries.lookup name = some entry) {right : Right}
    (held : right.isIn entry.type) {left : Nat} (some : 0 < left)
    (bounded : left ≤ entry.userReferences right ∨
      right.referenceCounted ∧ left ≤ right.maximumReferences) :
    Stepped references table
      (table.setSpace task (space.setEntry name (entry.setReferences right left))) := by
  apply Stepped.setSpace sound
  rw [openSpace_found found]
  exact Space.count_edited (sound.indexed task space found) stored held some bounded

theorem Stepped.narrowed (sound : table.Sound) (found : table.spaces.lookup task = some space)
    (stored : space.entries.lookup name = some entry) (type : MachTypeMask) :
    Yields (do
      let space ← space.settleEntry name (entry.without type)
      return (table.setSpace task space, true) : Guarded (MachNamespaceTable × Bool))
      fun result => Stepped references table result.1 := by
  have indexed := sound.indexed task space found
  apply Yields.bind (Space.without_yields indexed stored type)
  intro space' edited
  apply Yields.ok
  apply Stepped.setSpace sound
  rwa [openSpace_found found]

end entries

theorem modifyReferences_yields (sound : table.Sound) (name : MachName) (right : Right)
    (delta : Int) :
    Yields (table.modifyReferences task name right delta)
      fun result => Stepped 1 table result.1 := by
  have unchanged : ∀ answer : Bool, Yields (.ok (table, answer) : Guarded _)
      fun result => Stepped 1 table result.1 := fun _ => Yields.ok (Stepped.refl sound)
  unfold modifyReferences
  cases found : table.spaces.lookup task with
  | none => exact unchanged false
  | some space =>
    dsimp only
    cases stored : space.entries.lookup name with
    | none => exact unchanged false
    | some entry =>
      dsimp only
      apply Yields.ite
      · intro _
        exact unchanged false
      · intro held
        have held : right.isIn entry.type := by simpa using held
        apply Yields.ite
        · intro positive
          apply Yields.ite
          · intro _
            exact unchanged false
          · intro counted
            cases within : raised right (entry.userReferences right) delta.toNat with
            | none => exact unchanged false
            | some left =>
              obtain ⟨above, bounded⟩ := raised_bounded within
              apply Yields.ok
              apply Stepped.counted sound found stored held
              · omega
              · exact .inr ⟨by simpa using counted, bounded⟩
        · intro _
          apply Yields.ite
          · intro _
            exact unchanged false
          · intro _
            apply Yields.ite
            · intro none
              rw [none, NameEntry.dropType_setReferences]
              exact Stepped.narrowed sound found stored right.typeMask
            · intro some
              apply Yields.ok
              exact Stepped.counted sound found stored held (Nat.pos_of_ne_zero some)
                (.inl (Nat.sub_le ..))

theorem destroyName_yields (sound : table.Sound) (name : MachName) :
    Yields (table.destroyName task name) fun result => Stepped 1 table result.1 := by
  unfold destroyName
  cases found : table.spaces.lookup task with
  | none => exact Yields.ok (Stepped.refl sound)
  | some space =>
    dsimp only
    cases stored : space.entries.lookup name with
    | none => exact Yields.ok (Stepped.refl sound)
    | some entry =>
      have indexed := sound.indexed task space found
      have dropped : Yields (space.unindexName entry.object name) fun space' =>
          Edited 1 space (space'.eraseEntry name) := Space.drop_yields indexed stored
      apply Yields.bind dropped
      intro space' edited
      apply Yields.ok
      apply Stepped.setSpace sound
      rwa [openSpace_found found]

theorem removeType_yields (sound : table.Sound) (name : MachName) :
    Yields (table.removeType task name type) fun result => Stepped 1 table result.1 := by
  unfold removeType
  cases found : table.spaces.lookup task with
  | none => exact Yields.ok (Stepped.refl sound)
  | some space =>
    dsimp only
    cases stored : space.entries.lookup name with
    | none => exact Yields.ok (Stepped.refl sound)
    | some entry =>
      apply Yields.ite
      · intro _
        exact Yields.ok (Stepped.refl sound)
      · intro _
        exact Stepped.narrowed sound found stored type

theorem getLsbD_releasable {i : Nat} (bit : releasable.getLsbD i = true) :
    ∃ right : Right, i = right.index + 16 ∧ (right = .send ∨ right = .sendOnce ∨ right = .deadName) := by
  simp only [releasable, Right.typeMask, BitVec.getLsbD_or, BitVec.getLsbD_twoPow,
    Bool.or_eq_true, Bool.and_eq_true, decide_eq_true_eq] at bit
  rcases bit with (⟨_, rfl⟩ | ⟨_, rfl⟩) | ⟨_, rfl⟩
  · exact ⟨.send, rfl, .inl rfl⟩
  · exact ⟨.sendOnce, rfl, .inr (.inl rfl)⟩
  · exact ⟨.deadName, rfl, .inr (.inr rfl)⟩

theorem isIn_released {type : MachTypeMask} (available : type &&& releasable ≠ BitVec.ofNat 32 0) :
    (released (type &&& releasable)).isIn type := by
  have masked : ∀ right : Right, right.isIn (type &&& releasable) → right.isIn type := by
    intro right here
    rw [Right.isIn_and] at here
    exact (Bool.and_eq_true_iff.mp here).1
  unfold released
  split
  · exact masked .send ‹_›
  · split
    · exact masked .sendOnce ‹_›
    · -- the rights that are left are those of a dead name
      rename_i noSend noSendOnce
      obtain ⟨i, held, bit⟩ := (and_ne_zero type releasable).mp available
      have both : (type &&& releasable).getLsbD i = true := by
        rw [BitVec.getLsbD_and, held, bit]
        rfl
      obtain ⟨right, rfl, kind⟩ := getLsbD_releasable bit
      rw [← Right.isIn_eq] at both held
      rcases kind with rfl | rfl | rfl
      · exact absurd both noSend
      · exact absurd both noSendOnce
      · exact held

theorem deallocate_yields (sound : table.Sound) (name : MachName) :
    Yields (table.deallocate task name) fun result => Stepped 1 table result.1 := by
  unfold deallocate
  cases found : table.spaces.lookup task with
  | none => exact Yields.ok (Stepped.refl sound)
  | some space =>
    dsimp only
    cases stored : space.entries.lookup name with
    | none => exact Yields.ok (Stepped.refl sound)
    | some entry =>
      apply Yields.ite
      · intro _
        exact Yields.ok (Stepped.refl sound)
      · intro available
        apply Yields.ite
        · intro several
          apply Yields.ok
          apply Stepped.counted sound found stored (isIn_released available)
          · omega
          · exact .inl (Nat.sub_le ..)
        · intro _
          rw [NameEntry.dropType_setReferences]
          exact Stepped.narrowed sound found stored _

/-- The fold over the spaces converts each space it comes to once. -/
theorem killIn_fold {tasks : List TaskId} (distinct : tasks.Nodup) (sound : table.Sound)
    (affected : List NamedEntry) :
    Yields (tasks.foldlM (killIn object) (table, affected)) fun result => ∀ task,
      if task ∈ tasks then
        Option.Rel (Space.Killed object) (table.spaces.lookup task) (result.1.spaces.lookup task)
      else result.1.spaces.lookup task = table.spaces.lookup task := by
  induction tasks generalizing table affected with
  | nil => exact Yields.ok (by simp)
  | cons task rest ih =>
    obtain ⟨outside, tail⟩ := List.nodup_cons.mp distinct
    rw [List.foldlM_cons]
    cases found : table.spaces.lookup task with
    | none =>
      have skipped : Yields (killIn object (table, affected) task) (· = (table, affected)) := by
        unfold killIn
        rw [found]
        exact Yields.ok rfl
      apply Yields.bind skipped
      rintro _ rfl
      apply (ih tail sound affected).mono
      intro result others other
      have at_other := others other
      by_cases here : other = task
      · subst other
        rw [if_neg outside] at at_other
        simp [at_other, found]
      · simpa [here] using at_other
    | some space =>
      have indexed := sound.indexed task space found
      have killed : Yields (killIn object (table, affected) task) fun result =>
          ∃ space', result.1 = table.setSpace task space' ∧ Space.Killed object space space' := by
        unfold killIn
        rw [found]
        apply Yields.bind (Space.killObject_yields indexed task object)
        rintro ⟨space', affected'⟩ dead
        exact Yields.ok ⟨space', rfl, dead⟩
      apply Yields.bind killed
      rintro ⟨_, affected'⟩ ⟨space', rfl, dead⟩
      have edited : Edited 1 (table.openSpace task) space' := by
        rw [openSpace_found found]
        exact ⟨dead.indexed, .kill object _ dead.entries, .inl dead.nextName⟩
      have sound' := (Stepped.setSpace sound edited).sound sound
      apply (ih tail sound' affected').mono
      intro result others other
      have at_other := others other
      by_cases here : other = task
      · subst other
        rw [if_neg outside] at at_other
        rw [at_other]
        simpa [setSpace, found] using Option.Rel.some dead
      · simpa [here, setSpace] using at_other

theorem markObjectDead_yields (sound : table.Sound) (object : MachObject) :
    Yields (table.markObjectDead object) fun result => ∀ task,
      Option.Rel (Space.Killed object) (table.spaces.lookup task)
        (result.1.spaces.lookup task) := by
  apply Yields.bind (killIn_fold table.spaces.keys_nodup sound [])
  rintro ⟨table', affected⟩ dead
  apply Yields.ok
  intro task
  have here := dead task
  by_cases stored : task ∈ table.spaces.keys
  · rwa [if_pos stored] at here
  · rw [if_neg stored] at here
    have missing : table.spaces.lookup task = none := by
      rw [AList.lookup_eq_none]
      exact stored
    dsimp only at here ⊢
    rw [here, missing]
    exact Option.Rel.none

theorem markObjectDead_stepped (sound : table.Sound) (object : MachObject) :
    Yields (table.markObjectDead object) fun result => Stepped 1 table result.1 := by
  apply (markObjectDead_yields sound object).mono
  intro result dead task space found
  have here := dead task
  rw [found] at here
  cases before : table.spaces.lookup task with
  | none =>
    rw [before] at here
    contradiction
  | some old =>
    rw [before] at here
    cases here with
    | some killed =>
      rw [openSpace_found before]
      exact ⟨killed.indexed, .kill object _ killed.entries, .inl killed.nextName⟩

end MachNamespaceTable

/-- The references that an operation brings to the entries it makes or grants. -/
def NamespaceOperation.references : NamespaceOperation → Nat
  | .install _ _ _ _ references => references
  | _ => 1

namespace MachNamespaceTable
variable {table : MachNamespaceTable}

theorem map_yields {α : Type} {x : Guarded (MachNamespaceTable × α)}
    {post : MachNamespaceTable → Prop} (holds : Yields x fun result => post result.1) :
    Yields (Prod.fst <$> x) post := by
  obtain ⟨result, rfl, met⟩ := holds
  exact ⟨result.1, rfl, met⟩

/-- No operation throws, and each leaves every space with at most one edit. -/
theorem perform_yields (sound : table.Sound) (operation : NamespaceOperation) :
    Yields (table.perform operation) (Stepped operation.references table) := by
  cases operation with
  | createTask task => exact Yields.ok (createTask_stepped sound)
  | destroyTask task => exact Yields.ok (destroyTask_stepped sound)
  | install task name object type references => exact map_yields (install_yields sound name)
  | allocate task object type => exact map_yields (allocate_yields sound)
  | copyout task object type => exact map_yields (copyout_yields sound)
  | copyoutAtName task object type name => exact map_yields (copyoutAtName_yields sound name)
  | rename task oldName newName => exact map_yields (rename_yields sound oldName newName)
  | modifyReferences task name right delta =>
    exact map_yields (modifyReferences_yields sound name right delta)
  | destroyName task name => exact map_yields (destroyName_yields sound name)
  | markObjectDead object => exact map_yields (markObjectDead_stepped sound object)
  | removeType task name type => exact map_yields (removeType_yields sound name)
  | deallocate task name => exact map_yields (deallocate_yields sound name)

theorem after_stepped (sound : table.Sound) (operation : NamespaceOperation) :
    Stepped operation.references table (table.after operation) := by
  obtain ⟨table', performed, stepped⟩ := perform_yields sound operation
  unfold after
  rw [performed]
  exact stepped

theorem after_sound (table : MachNamespaceTable) (operation : NamespaceOperation)
    (sound : table.Sound) : (table.after operation).Sound :=
  (after_stepped sound operation).sound sound

theorem Reachable.sound (reachable : table.Reachable) : table.Sound := by
  obtain ⟨operations, rfl⟩ := reachable
  exact run_invariant after_sound sound_empty operations

end MachNamespaceTable
end ILEmu
