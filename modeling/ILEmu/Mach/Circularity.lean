import ILEmu.Foundation.Chains
import ILEmu.Mach.PortObjects

/-! Receive rights in transit never form a cycle: `check_circularity` follows the chain of
the destination to its end and links a right only if the chain does not come back to it. -/
namespace ILEmu
open Foundation
namespace PortObjectTable
variable {table : PortObjectTable} {object destination : PortObjectId} {port : PortObject}

/-- The edge that the loop of `check_circularity` follows. -/
def transit (table : PortObjectTable) (object : PortObjectId) : Option PortObjectId :=
  (table.lookup object).bind fun port =>
    if port.receiveOwner = 0 ∧ port.transitDestination ≠ 0 then some port.transitDestination
    else none

/-- A right without a receiver and without an edge. -/
def InLimbo (table : PortObjectTable) (object : PortObjectId) : Prop :=
  ∃ port, table.lookup object = some port ∧ port.receiveOwner = 0 ∧ port.transitDestination = 0

instance (table : PortObjectTable) (object : PortObjectId) : Decidable (table.InLimbo object) :=
  decidable_of_iff
    (((table.lookup object).any fun port =>
      port.receiveOwner = 0 && port.transitDestination = 0) = true)
    (by simp [InLimbo, Option.any_eq_true])

theorem transit_none_of_limbo (limbo : table.InLimbo object) : table.transit object = none := by
  obtain ⟨port, found, _, free⟩ := limbo
  simp [transit, found, free]

theorem lookup_of_transit {next : PortObjectId} (edge : table.transit object = some next) :
    object ∈ table.objects.keys := by
  obtain ⟨port, found, _⟩ := Option.bind_eq_some_iff.mp edge
  exact AList.lookup_isSome.mp (Option.isSome_of_eq_some found)

/-- The loop ends within its bound and tells whether the chain comes to the object. -/
theorem comesTo_yields {rank : PortObjectId → Nat} (ranked : Ranked table.transit rank)
    {steps : Nat} {base : PortObjectId}
    (enough : (ahead rank table.objects.keys.toFinset base).card < steps) :
    Yields (table.comesTo object steps base) fun circular =>
      (circular = true ↔ Leads table.transit base object) := by
  induction steps generalizing base with
  | zero => exact absurd enough (Nat.not_lt_zero _)
  | succ steps ih =>
    unfold comesTo
    by_cases here : base = object
    · rw [if_pos here, here]
      exact Yields.ok (iff_of_true rfl Relation.ReflTransGen.refl)
    · rw [if_neg here]
      have stops : table.transit base = none →
          (false = true ↔ Leads table.transit base object) := by
        intro stop
        rw [leads_end stop]
        exact iff_of_false Bool.false_ne_true here
      cases found : table.lookup base with
      | none => exact Yields.ok (stops (by simp [transit, found]))
      | some port =>
        dsimp only
        by_cases last : port.receiveOwner ≠ 0 ∨ port.transitDestination = 0
        · rw [if_pos last]
          apply Yields.ok
          apply stops
          unfold transit
          rw [found, Option.bind_some, if_neg]
          rintro ⟨unowned, linked⟩
          exact last.elim (fun owned => owned unowned) linked
        · rw [if_neg last]
          have follow : table.transit base = some port.transitDestination := by
            unfold transit
            rw [found, Option.bind_some, if_pos]
            exact ⟨not_not.mp fun owned => last (.inl owned), fun free => last (.inr free)⟩
          have inside := List.mem_toFinset.mpr (lookup_of_transit follow)
          have shorter := ahead_step ranked inside follow
          have fewer : (ahead rank table.objects.keys.toFinset port.transitDestination).card <
              steps := by omega
          apply (ih fewer).mono
          intro circular tells
          rw [tells, leads_step follow object here]

/-- `check_circularity` on a right in limbo and an existing destination. -/
structure Checked (table : PortObjectTable) (object destination : PortObjectId)
    (table' : PortObjectTable) (circular : Bool) : Prop where
  tells : circular = true ↔ Leads table.transit destination object
  kept : circular = true → table' = table
  linked : circular = false →
    table'.transit = Function.update table.transit object (some destination)
  others : ∀ other, other ≠ object → table'.lookup other = table.lookup other

theorem checkCircularity_yields {rank : PortObjectId → Nat} (ranked : Ranked table.transit rank)
    (limbo : table.InLimbo object) (present : table.contains destination)
    (named : destination ≠ 0) :
    Yields (table.checkCircularity object destination) fun result =>
      Checked table object destination result.1 result.2 := by
  obtain ⟨source, found, unowned, free⟩ := limbo
  have bound : (ahead rank table.objects.keys.toFinset destination).card < table.stepBound := by
    have inside := ahead_card_le rank table.objects.keys.toFinset destination
    have few := table.objects.keys.toFinset_card_le
    unfold stepBound
    omega
  unfold checkCircularity
  rw [found]
  apply Yields.bind (comesTo_yields ranked bound)
  intro circular tells
  cases circular with
  | true => exact Yields.ok ⟨tells, fun _ => rfl, nofun, fun _ _ => rfl⟩
  | false =>
    simp only [Bool.false_eq_true, if_false, present, if_true]
    apply Yields.ok
    refine ⟨tells, nofun, fun _ => ?_, fun other different => by simp [lookup, different]⟩
    funext base
    by_cases same : base = object
    · subst base
      simp [transit, lookup, unowned, named]
    · simp [transit, lookup, same]

/-- Transit edges fall in rank, and zero is no object. -/
structure Sound (table : PortObjectTable) : Prop where
  ranked : ∃ rank, Ranked table.transit rank
  named : table.lookup 0 = none

theorem sound_empty : Sound {} where
  ranked := ⟨fun _ => 0, fun _ _ step => by simp [transit, lookup] at step⟩
  named := rfl

/-- A table with fewer edges and no new object at zero is sound. -/
theorem Sound.fewer {table' : PortObjectTable} (sound : table.Sound)
    (edges : ∀ object, table'.transit object = none ∨ table'.transit object = table.transit object)
    (named : table'.lookup 0 = none) : table'.Sound := by
  obtain ⟨rank, ranked⟩ := sound.ranked
  refine ⟨⟨rank, ranked.mono ?_⟩, named⟩
  intro a b step
  rcases edges a with none | same
  · rw [none] at step
    contradiction
  · rwa [same] at step

/-- A setter that leaves the edge of its port, or removes it, keeps the table sound. -/
theorem Sound.modify (sound : table.Sound) (object : PortObjectId)
    (change : PortObject → PortObject)
    (edge : ∀ port, (change port).transitDestination = 0 ∨
      (change port).transitDestination = port.transitDestination ∧
        (change port).receiveOwner = port.receiveOwner) :
    (table.modify object change).1.Sound := by
  unfold PortObjectTable.modify
  cases found : table.lookup object with
  | none => exact sound
  | some port =>
    apply sound.fewer
    · intro other
      by_cases same : other = object
      · subst other
        rcases edge port with gone | ⟨destination, owner⟩
        · left
          simp [transit, lookup, gone]
        · right
          unfold lookup at found
          simp [transit, lookup, found, destination, owner]
      · right
        simp [transit, lookup, same]
    · have elsewhere : object ≠ 0 := by
        rintro rfl
        rw [sound.named] at found
        contradiction
      have named := sound.named
      unfold lookup at named ⊢
      simpa [Ne.symm elsewhere] using named

theorem Sound.create (sound : table.Sound) (object : PortObjectId) (owner : TaskIdentity) :
    (table.create object owner).1.Sound := by
  unfold PortObjectTable.create
  split
  · exact sound
  · rename_i valid
    split
    · exact sound
    · apply sound.fewer
      · intro other
        by_cases same : other = object
        · subst other
          left
          simp [transit, lookup]
        · right
          simp [transit, lookup, same]
      · have elsewhere : object ≠ 0 := fun zero => valid (.inl zero)
        have named := sound.named
        unfold lookup at named ⊢
        simpa [Ne.symm elsewhere] using named

/-- Erasing a port leaves the edges that point to it dangling, and adds none. -/
theorem Sound.erase (sound : table.Sound) (object : PortObjectId) :
    (table.erase object).1.Sound := by
  unfold PortObjectTable.erase
  split
  · apply sound.fewer
    · intro other
      by_cases same : other = object
      · subst other
        left
        simp [transit, lookup]
      · right
        simp [transit, lookup, same]
    · have named := sound.named
      unfold lookup at named ⊢
      by_cases zero : (0 : PortObjectId) = object
      · subst zero
        simp
      · simpa [zero] using named
  · exact sound

theorem Sound.nonzero (sound : table.Sound) (present : table.contains destination) :
    destination ≠ 0 := by
  rintro rfl
  unfold contains at present
  rw [sound.named] at present
  contradiction

/-- Whether an operation of a run is one of the calls considered: the circularity of a right
is checked only while it is in limbo, against an existing destination. -/
def Admitted (table : PortObjectTable) : PortOperation → Prop
  | .checkCircularity object destination =>
    table.InLimbo object ∧ table.contains destination = true
  | _ => True

instance (table : PortObjectTable) : ∀ operation, Decidable (table.Admitted operation)
  | .checkCircularity _ _ => inferInstanceAs (Decidable (_ ∧ _))
  | .create .. | .setReceiveOwner .. | .setTemporaryOwner .. | .setImportanceReceiver ..
  | .clearReceiver .. | .setMakeSendCount .. | .setGuard .. | .incrementMakeSendCount ..
  | .makeSendOnce .. | .releaseSendOnce .. | .setSequenceNumber ..
  | .incrementSequenceNumber .. | .setQueueLimit .. | .erase .. =>
    inferInstanceAs (Decidable True)

theorem after_ok {operation : PortOperation} {table' : PortObjectTable}
    (performed : table.perform operation = .ok table') : table.after operation = table' := by
  unfold after
  rw [performed]

theorem after_sound (table : PortObjectTable) (operation : PortOperation) (sound : table.Sound)
    (admitted : table.Admitted operation) : (table.after operation).Sound := by
  cases operation with
  | create object owner => exact sound.create object owner
  | setReceiveOwner object owner =>
    exact sound.modify object _ fun _ => .inl rfl
  | setTemporaryOwner object =>
    unfold after perform setTemporaryOwner
    dsimp only
    split
    · exact sound
    · exact sound.modify object _ fun _ => .inr ⟨rfl, rfl⟩
  | setImportanceReceiver object =>
    unfold after perform setImportanceReceiver
    dsimp only
    split
    · exact sound
    · exact sound.modify object _ fun _ => .inr ⟨rfl, rfl⟩
  | clearReceiver object => exact sound.modify object _ fun _ => .inl rfl
  | checkCircularity object destination =>
    obtain ⟨limbo, present⟩ := admitted
    obtain ⟨rank, ranked⟩ := sound.ranked
    obtain ⟨⟨table', circular⟩, returned, checked⟩ :=
      checkCircularity_yields ranked limbo present (sound.nonzero present)
    have performed : table.perform (.checkCircularity object destination) = .ok table' := by
      simp only [perform, returned]
      rfl
    rw [after_ok performed]
    dsimp only at checked
    cases circular with
    | true =>
      rw [checked.kept rfl]
      exact sound
    | false =>
      have away : ¬ Leads table.transit destination object :=
        checked.tells.not.mp Bool.false_ne_true
      have linked := ranked.link away
      rw [← checked.linked rfl] at linked
      have elsewhere : (0 : PortObjectId) ≠ object := by
        rintro rfl
        obtain ⟨port, found, _⟩ := limbo
        rw [sound.named] at found
        contradiction
      exact ⟨linked, (checked.others 0 elsewhere).trans sound.named⟩
  | setMakeSendCount object count => exact sound.modify object _ fun _ => .inr ⟨rfl, rfl⟩
  | setGuard object guarded strict => exact sound.modify object _ fun _ => .inr ⟨rfl, rfl⟩
  | incrementMakeSendCount object => exact sound.modify object _ fun _ => .inr ⟨rfl, rfl⟩
  | makeSendOnce object => exact sound.modify object _ fun _ => .inr ⟨rfl, rfl⟩
  | releaseSendOnce object =>
    unfold after perform releaseSendOnce
    dsimp only
    split
    · rename_i released
      split at released
      · contradiction
      · cases released
        exact sound.modify object _ fun _ => .inr ⟨rfl, rfl⟩
    · exact sound
  | setSequenceNumber object sequence => exact sound.modify object _ fun _ => .inr ⟨rfl, rfl⟩
  | incrementSequenceNumber object => exact sound.modify object _ fun _ => .inr ⟨rfl, rfl⟩
  | setQueueLimit object queueLimit =>
    unfold after perform setQueueLimit
    dsimp only
    split
    · exact sound
    · exact sound.modify object _ fun _ => .inr ⟨rfl, rfl⟩
  | erase object => exact sound.erase object

/-- In every admitted run the transit edges form no cycle, and the check of a right in limbo
ends, tells whether the chain of the destination reaches the right, and leaves such a right
without an edge. -/
theorem run_circularity {operations : List PortOperation}
    (admitted : Along after Admitted {} operations) :
    Acyclic (run after {} operations).transit ∧
      ∀ object destination, (run after {} operations).InLimbo object →
        (run after {} operations).contains destination →
        ∃ table' circular,
          (run after {} operations).checkCircularity object destination = .ok (table', circular) ∧
          (circular = true ↔ Leads (run after {} operations).transit destination object) ∧
          (circular = true → table'.transit object = none) ∧
          (circular = false → table'.transit object = some destination) := by
  have sound : (run after {} operations).Sound := admitted.preserves after_sound sound_empty
  obtain ⟨rank, ranked⟩ := sound.ranked
  refine ⟨ranked.acyclic, ?_⟩
  intro object destination limbo present
  obtain ⟨⟨table', circular⟩, returned, checked⟩ :=
    checkCircularity_yields ranked limbo present (sound.nonzero present)
  dsimp only at checked
  refine ⟨table', circular, returned, checked.tells, ?_, ?_⟩
  · intro reached
    rw [checked.kept reached]
    exact transit_none_of_limbo limbo
  · intro unreached
    rw [checked.linked unreached, Function.update_self]

/-- Two rights in transit, the destination of the first erased and made again, and the
right of the new port checked against a port whose chain leads to it. -/
theorem run_circularity_recreated :
    Acyclic (run after {} [.create 1 10, .create 2 10, .create 3 10, .clearReceiver 1,
      .checkCircularity 1 2, .clearReceiver 2, .checkCircularity 2 3, .erase 3, .create 3 11,
      .clearReceiver 3, .checkCircularity 3 1]).transit :=
  (run_circularity (by decide +kernel)).1

end PortObjectTable
end ILEmu
