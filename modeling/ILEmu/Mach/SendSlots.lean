import ILEmu.Foundation.Run
import ILEmu.Mach.SendWaiters

/-! What one operation does to the waiting senders: slots are counted, and a ticket only
moves on from waiting to a slot and from a slot to its end. -/
namespace ILEmu
open Foundation
variable {Message : Type} {made made' made'' : List (SendTicket Message)}
  {handle other : SendHandle} {handles : List SendHandle} {now : Nat}

/-- The states that a ticket can be in after one operation, from the state it was in. -/
def SendState.Moves (old new : SendState) : Prop :=
  new = old ∨ old = .waiting ∨ (new ≠ .waiting ∧ new ≠ .granted)

theorem SendState.Moves.trans {a b c : SendState} (first : a.Moves b) (second : b.Moves c) :
    a.Moves c := by
  rcases first with rfl | waiting | settled
  · exact second
  · exact .inr (.inl waiting)
  · rcases second with rfl | waiting | settled'
    · exact .inr (.inr settled)
    · exact absurd waiting settled.1
    · exact .inr (.inr settled')

/-- Tickets are never unmade, and keep all they were made with but the state. -/
def Kept (made made' : List (SendTicket Message)) : Prop :=
  ∀ (handle : SendHandle) ticket, made[handle]? = some ticket →
    ∃ state, made'[handle]? = some { ticket with state } ∧ ticket.state.Moves state

theorem Kept.refl (made : List (SendTicket Message)) : Kept made made :=
  fun _ ticket found => ⟨ticket.state, found, .inl rfl⟩

theorem Kept.trans (first : Kept made made') (second : Kept made' made'') : Kept made made'' := by
  intro handle ticket found
  obtain ⟨state, found', moved⟩ := first handle ticket found
  obtain ⟨state', found'', moved'⟩ := second handle _ found'
  exact ⟨state', found'', moved.trans moved'⟩

theorem store_getElem? (made : List (SendTicket Message)) (handle other : SendHandle)
    (state : SendState) : (store made handle state)[other]? =
      if handle = other then made[other]?.map fun ticket => { ticket with state }
      else made[other]? := by
  unfold store
  rw [List.getElem?_modify]
  split
  · rfl
  · exact congrFun Option.map_id _

theorem store_other {state : SendState} (different : handle ≠ other) :
    (store made handle state)[other]? = made[other]? := by
  rw [store_getElem?, if_neg different]

theorem Kept.store {ticket : SendTicket Message} {state : SendState}
    (found : made[handle]? = some ticket) (moves : ticket.state.Moves state) :
    Kept made (store made handle state) := by
  intro other ticket' found'
  rw [store_getElem?]
  by_cases same : handle = other
  · subst other
    cases found.symm.trans found'
    rw [if_pos rfl, found]
    exact ⟨state, rfl, moves⟩
  · rw [if_neg same]
    exact ⟨ticket'.state, found', .inl rfl⟩

def hasSlot (made : List (SendTicket Message)) (handle : SendHandle) : Bool :=
  made[handle]?.any fun ticket => ticket.state = .granted

/-- A waiting ticket whose deadline has not come. -/
def eligible (now : Nat) (made : List (SendTicket Message)) (handle : SendHandle) : Bool :=
  made[handle]?.any fun ticket => ticket.state = .waiting && !ticket.due now

theorem hasSlot_congr (same : made'[handle]? = made[handle]?) :
    hasSlot made' handle = hasSlot made handle := by
  unfold hasSlot
  rw [same]

theorem hasSlot_store {ticket : SendTicket Message} {state : SendState}
    (found : made[handle]? = some ticket) :
    hasSlot (store made handle state) handle = decide (state = .granted) := by
  unfold hasSlot
  rw [store_getElem?, if_pos rfl, found]
  rfl

theorem countP_hasSlot_congr (same : ∀ handle ∈ handles, made'[handle]? = made[handle]?) :
    handles.countP (hasSlot made') = handles.countP (hasSlot made) :=
  List.countP_congr fun handle member => by rw [hasSlot_congr (same handle member)]

theorem countP_cons_hasSlot (made : List (SendTicket Message)) (handle : SendHandle)
    (rest : List SendHandle) : (handle :: rest).countP (hasSlot made) =
      (hasSlot made handle).toNat + rest.countP (hasSlot made) := by
  rw [List.countP_cons, Nat.add_comm]
  cases hasSlot made handle <;> rfl

theorem countP_hasSlot_drop (distinct : handles.Nodup) (member : handle ∈ handles) :
    handles.countP (hasSlot made) =
      (handles.filter (· ≠ handle)).countP (hasSlot made) + (hasSlot made handle).toNat := by
  have erased : handles.filter (· ≠ handle) = handles.erase handle := by
    rw [distinct.erase_eq_filter]
    exact List.filter_congr fun other _ => by simp [bne, beq_eq_decide]
  rw [erased, (List.perm_cons_erase member).countP_eq, countP_cons_hasSlot, Nat.add_comm]

theorem giveBack_yields {ticket : SendTicket Message} {reserved : Nat}
    (found : made[handle]? = some ticket) (enough : (hasSlot made handle).toNat ≤ reserved) :
    Yields (ticket.giveBack reserved) fun left =>
      left + (hasSlot made handle).toNat = reserved := by
  have slotted : hasSlot made handle = decide (ticket.state = .granted) := by
    simp [hasSlot, found]
  apply Yields.ite
  · intro granted
    rw [slotted, decide_eq_true granted] at enough ⊢
    exact decrement_yields _ enough
  · intro other
    rw [slotted, decide_eq_false other]
    exact Yields.ok rfl

/-- Slots that were not there before account for every further one. -/
theorem countP_hasSlot_le (made made' : List (SendTicket Message)) (handles : List SendHandle) :
    handles.countP (hasSlot made') ≤ handles.countP (hasSlot made) +
      (handles.filter fun handle => !hasSlot made handle && hasSlot made' handle).length := by
  induction handles with
  | nil => exact Nat.le_refl _
  | cons handle rest ih =>
    simp only [countP_cons_hasSlot, List.filter_cons]
    cases before : hasSlot made handle <;> cases behind : hasSlot made' handle <;> simp <;> omega

/-- What the loop of `grant` does to the tickets of a queue. -/
structure Granting (now : Nat) (handles : List SendHandle) (made : List (SendTicket Message))
    (count reserved : Nat) (result : List (SendTicket Message) × Nat × Bool) : Prop where
  kept : Kept made result.1
  others : ∀ handle, handle ∉ handles → result.1[handle]? = made[handle]?
  counted : result.2.1 + handles.countP (hasSlot made) =
    reserved + handles.countP (hasSlot result.1)
  granted : handles.filter (fun handle => !hasSlot made handle && hasSlot result.1 handle) =
    (handles.filter (eligible now made)).take count

/-- A ticket that the loop passes over, or one that it has just marked. -/
theorem Granting.cons {count reserved : Nat} {marked : List (SendTicket Message)}
    {result : List (SendTicket Message) × Nat × Bool} {count' reserved' : Nat}
    (fresh : handle ∉ handles)
    (first : Kept made marked)
    (others : ∀ other, other ≠ handle → marked[other]? = made[other]?)
    (counted : reserved' + (hasSlot made handle).toNat =
      reserved + (hasSlot marked handle).toNat)
    (granted : ∀ rest, (if !hasSlot made handle && hasSlot marked handle then
        handle :: rest.take count' else rest.take count') =
      ((if eligible now made handle then handle :: rest else rest).take count))
    (rest : Granting now handles marked count' reserved' result) :
    Granting now (handle :: handles) made count reserved result where
  kept := first.trans rest.kept
  others := by
    intro other outside
    obtain ⟨different, later⟩ := not_or.mp (List.mem_cons.not.mp outside)
    exact (rest.others other later).trans (others other different)
  counted := by
    have same : ∀ other ∈ handles, marked[other]? = made[other]? := by
      intro other member
      apply others
      rintro rfl
      exact fresh member
    have tail := rest.counted
    rw [countP_hasSlot_congr same] at tail
    have here := hasSlot_congr (rest.others handle fresh)
    simp only [countP_cons_hasSlot, here]
    omega
  granted := by
    have same : ∀ other ∈ handles, marked[other]? = made[other]? := by
      intro other member
      apply others
      rintro rfl
      exact fresh member
    have tail := rest.granted
    have alike : handles.filter (fun other => !hasSlot marked other && hasSlot result.1 other) =
        handles.filter (fun other => !hasSlot made other && hasSlot result.1 other) :=
      List.filter_congr fun other member => by rw [hasSlot_congr (same other member)]
    have eligibles : handles.filter (eligible now marked) = handles.filter (eligible now made) :=
      List.filter_congr fun other member => by
        unfold eligible
        rw [same other member]
    rw [alike, eligibles] at tail
    have here := hasSlot_congr (rest.others handle fresh)
    rw [List.filter_cons, List.filter_cons, here, tail]
    exact granted _

theorem grantLoop_granting (now : Nat) (distinct : handles.Nodup)
    (made : List (SendTicket Message)) (count reserved : Nat) (changed : Bool) :
    Granting now handles made count reserved
      (grantLoop now handles made count reserved changed) := by
  induction handles generalizing made count reserved changed with
  | nil => exact ⟨Kept.refl made, fun _ _ => rfl, rfl, by simp⟩
  | cons handle rest ih =>
    obtain ⟨fresh, distinct⟩ := List.nodup_cons.mp distinct
    unfold grantLoop
    cases found : made[handle]? with
    | none =>
      apply Granting.cons fresh (Kept.refl made) (fun _ _ => rfl) rfl ?_ (ih distinct _ _ _ _)
      intro rest
      simp [eligible, found]
    | some ticket =>
      dsimp only
      by_cases waiting : ticket.state = .waiting
      · rw [if_neg (not_not.mpr waiting)]
        have others (state : SendState) : ∀ other, other ≠ handle →
            (store made handle state)[other]? = made[other]? :=
          fun other different => store_other (Ne.symm different)
        have moves (state : SendState) : Kept made (store made handle state) :=
          Kept.store found (.inr (.inl waiting))
        have unslotted : hasSlot made handle = false := by simp [hasSlot, found, waiting]
        by_cases late : ticket.due now = true
        · rw [if_pos late]
          apply Granting.cons fresh (moves _) (others _) ?_ ?_ (ih distinct _ _ _ _)
          · rw [hasSlot_store found, unslotted]
            rfl
          · intro rest
            simp [hasSlot_store found, eligible, found, late]
        · rw [if_neg late]
          cases count with
          | zero => exact ⟨Kept.refl made, fun _ _ => rfl, rfl, by simp⟩
          | succ count =>
            apply Granting.cons fresh (moves _) (others _) ?_ ?_ (ih distinct _ _ _ _)
            · rw [hasSlot_store found, unslotted]
              rfl
            · intro rest
              simp [hasSlot_store found, unslotted, eligible, found, late, waiting]
      · rw [if_pos waiting]
        apply Granting.cons fresh (Kept.refl made) (fun _ _ => rfl) rfl ?_ (ih distinct _ _ _ _)
        intro rest
        simp [eligible, found, waiting]

theorem destroyed_moves (ticket : SendTicket Message) (now : Nat) :
    ticket.state.Moves (ticket.destroyed now) := by
  unfold SendTicket.destroyed
  cases state : ticket.state with
  | waiting => exact .inr (.inl rfl)
  | granted => exact .inr (.inr ⟨nofun, nofun⟩)
  | timedOut | interrupted | destroyed | cancelled => exact .inl rfl

theorem destroyed_unslotted (ticket : SendTicket Message) (now : Nat) :
    ticket.destroyed now ≠ .granted := by
  unfold SendTicket.destroyed
  cases state : ticket.state with
  | waiting =>
    dsimp only
    split <;> exact nofun
  | granted | timedOut | interrupted | destroyed | cancelled => exact nofun

/-- What the loop of `destroy` does to the tickets of a queue: none keeps its slot. -/
structure Destroying (handles : List SendHandle) (made made' : List (SendTicket Message)) :
    Prop where
  kept : Kept made made'
  others : ∀ handle, handle ∉ handles → made'[handle]? = made[handle]?
  freed : ∀ handle ∈ handles, hasSlot made' handle = false

theorem destroyLoop_destroying (now : Nat) (handles : List SendHandle)
    (made : List (SendTicket Message)) :
    Destroying handles made (destroyLoop now handles made) := by
  induction handles generalizing made with
  | nil => exact ⟨Kept.refl made, fun _ _ => rfl, nofun⟩
  | cons handle rest ih =>
    unfold destroyLoop
    cases found : made[handle]? with
    | none =>
      obtain ⟨kept, others, freed⟩ := ih made
      refine ⟨kept, fun other outside => others other (List.not_mem_of_not_mem_cons outside), ?_⟩
      intro other member
      by_cases later : other ∈ rest
      · exact freed other later
      · obtain rfl := (List.mem_cons.mp member).resolve_right later
        rw [hasSlot_congr (others other later)]
        simp [hasSlot, found]
    | some ticket =>
      dsimp only
      obtain ⟨kept, others, freed⟩ := ih (store made handle (ticket.destroyed now))
      constructor
      · exact (Kept.store found (destroyed_moves ticket now)).trans kept
      · intro other outside
        obtain ⟨different, later⟩ := not_or.mp (List.mem_cons.not.mp outside)
        exact (others other later).trans (store_other (Ne.symm different))
      · intro other member
        by_cases later : other ∈ rest
        · exact freed other later
        · obtain rfl := (List.mem_cons.mp member).resolve_right later
          rw [hasSlot_congr (others other later), hasSlot_store found]
          exact decide_eq_false (destroyed_unslotted ticket now)

/-- Whether `cancel` takes the ticket out of its queue. -/
def doomed (task : Nat) (processor : Option Nat) (made : List (SendTicket Message))
    (handle : SendHandle) : Bool :=
  made[handle]?.any fun ticket => ticket.belongs task processor

/-- What the inner loop of `cancel` does to the tickets of a queue. -/
structure Cancelled (task : Nat) (processor : Option Nat) (handles : List SendHandle)
    (made : List (SendTicket Message)) (reserved : Nat) (result : Cancelling Message) : Prop where
  kept : Kept made result.made
  others : ∀ handle, handle ∉ handles → result.made[handle]? = made[handle]?
  counted : reserved + result.kept.countP (hasSlot result.made) =
    result.reserved + handles.countP (hasSlot made)
  left : result.kept = handles.filter fun handle => !doomed task processor made handle
  freed : ∀ handle ∈ handles, handle ∉ result.kept → hasSlot result.made handle = false

theorem cancelLoop_cancelled {task : Nat} {processor : Option Nat} {reserved : Nat}
    (distinct : handles.Nodup) (present : ∀ handle ∈ handles, ∃ ticket, made[handle]? = some ticket)
    (enough : handles.countP (hasSlot made) ≤ reserved) :
    Yields (cancelLoop task processor handles made reserved)
      (Cancelled task processor handles made reserved) := by
  induction handles generalizing made reserved with
  | nil => exact Yields.ok ⟨Kept.refl made, fun _ _ => rfl, rfl, rfl, nofun⟩
  | cons handle rest ih =>
    obtain ⟨fresh, distinct⟩ := List.nodup_cons.mp distinct
    obtain ⟨ticket, found⟩ := present handle List.mem_cons_self
    rw [countP_cons_hasSlot] at enough
    unfold cancelLoop
    rw [found]
    dsimp only
    apply Yields.ite
    · intro belongs
      have same : ∀ other ∈ rest, (store made handle .cancelled)[other]? = made[other]? := by
        intro other member
        apply store_other
        rintro rfl
        exact fresh member
      have alike : rest.countP (hasSlot (store made handle .cancelled)) =
          rest.countP (hasSlot made) := countP_hasSlot_congr same
      have here : doomed task processor made handle = true := by
        simp [doomed, found, belongs]
      apply (giveBack_yields found (by omega)).bind
      intro left fewer
      have remaining : rest.countP (hasSlot (store made handle .cancelled)) ≤ left := by omega
      apply (ih distinct (fun other member => ?_) remaining).bind
      · rintro result ⟨kept, others, counted, stays, freed⟩
        apply Yields.ok
        have spared : rest.filter
              (fun other => !doomed task processor (store made handle .cancelled) other) =
            rest.filter fun other => !doomed task processor made other :=
          List.filter_congr fun other member => by
            unfold doomed
            rw [same other member]
        refine ⟨(Kept.store found ?_).trans kept, ?_, ?_, ?_, ?_⟩
        · exact .inr (.inr ⟨nofun, nofun⟩)
        · intro other outside
          obtain ⟨different, later⟩ := not_or.mp (List.mem_cons.not.mp outside)
          exact (others other later).trans (store_other (Ne.symm different))
        · rw [alike] at counted
          rw [countP_cons_hasSlot]
          dsimp only
          omega
        · simp only [List.filter_cons, here, Bool.not_true, Bool.false_eq_true, if_false]
          exact stays.trans spared
        · intro other member outside
          by_cases later : other ∈ rest
          · exact freed other later outside
          · obtain rfl := (List.mem_cons.mp member).resolve_right later
            rw [hasSlot_congr (others other later), hasSlot_store found]
            rfl
      · rw [same other member]
        exact present other (List.mem_cons_of_mem _ member)
    · intro spared
      have here : doomed task processor made handle = false := by
        simpa [doomed, found] using spared
      have remaining : rest.countP (hasSlot made) ≤ reserved := by omega
      apply (ih distinct (fun other member => present other (List.mem_cons_of_mem _ member))
        remaining).bind
      rintro result ⟨kept, others, counted, stays, freed⟩
      apply Yields.ok
      refine ⟨kept, ?_, ?_, ?_, ?_⟩
      · intro other outside
        exact others other (List.not_mem_of_not_mem_cons outside)
      · have alike := hasSlot_congr (others handle fresh)
        simp only [countP_cons_hasSlot, alike]
        omega
      · simp only [List.filter_cons, here, Bool.not_false, if_true]
        exact congrArg (handle :: ·) stays
      · intro other member outside
        obtain ⟨different, unkept⟩ := not_or.mp (List.mem_cons.not.mp outside)
        exact freed other ((List.mem_cons.mp member).resolve_left different) unkept

end ILEmu
