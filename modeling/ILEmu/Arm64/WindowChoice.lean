import ILEmu.Arm64.WindowBounds

/-! The windows that a cycle is compiled with: their accesses stay within them in every copy of the
cycle. -/
namespace ILEmu.Arm64
open Arm hiding Instruction InstructionKind
open ArmMemory ArmInterpreter Foundation
open AddressWindows (observeCycle admits belongs widen assign assignAll eligible best enable
  expandWindow)

/-! ### Windows and their accesses -/

/-- The access is one of the window. -/
structure Belongs (displacements : AddressDisplacements) (window : Window) (access : Access)
    (advance : Expression) : Prop where
  known : displacements.values access.key.base = some advance
  admitted : admits displacements access advance = true
  base : window.base = access.key.base
  step : window.step = access.key.stride
  residue : window.residue = access.residue
  stride : window.stride = advance.index.or access.stride
  advances : window.advance = advance.constant
  strideAdvances : window.strideAdvance = advance.coefficient

/-- The bounds of the access in each of some copies of the cycle are within those of the window. -/
structure Bounds (window : Window) (access : Access) (advance : Expression) (copies : Nat) :
    Prop where
  first : ∀ copy < copies, window.first ≤ access.first + advance.constant.toInt * copy
  finish : ∀ copy < copies, access.finish + advance.constant.toInt * copy ≤ window.finish
  firstCoefficient : ∀ copy < copies,
    window.firstCoefficient ≤ access.firstCoefficient + advance.coefficient.toInt * copy
  lastCoefficient : ∀ copy < copies,
    access.lastCoefficient + advance.coefficient.toInt * copy ≤ window.lastCoefficient

/-- The second window is the first one with more accesses in it. -/
structure Wider (window wider : Window) : Prop where
  base : wider.base = window.base
  step : wider.step = window.step
  residue : wider.residue = window.residue
  stride : wider.stride = window.stride
  advance : wider.advance = window.advance
  strideAdvance : wider.strideAdvance = window.strideAdvance
  first : wider.first ≤ window.first
  finish : window.finish ≤ wider.finish
  firstCoefficient : wider.firstCoefficient ≤ window.firstCoefficient
  lastCoefficient : window.lastCoefficient ≤ wider.lastCoefficient

/-- A window while the cycle is finished. -/
structure Ready (displacements : AddressDisplacements) (window : Window) : Prop where
  advances : ∀ known, displacements.values window.base = some known →
    window.advance = known.constant ∧ window.strideAdvance = known.coefficient
  first : -2 ^ 31 ≤ window.firstCoefficient
  last : window.lastCoefficient ≤ 2 ^ 31 - 1
  disabled : window.enabled = false

variable {displacements : AddressDisplacements} {window grown grownMore : Window} {access : Access}
  {advance : Expression} {windows : List Window} {copies : Nat}

theorem Wider.refl : Wider window window :=
  ⟨rfl, rfl, rfl, rfl, rfl, rfl, le_refl _, le_refl _, le_refl _, le_refl _⟩

theorem Wider.trans (first : Wider window grown) (second : Wider grown grownMore) :
    Wider window grownMore where
  base := second.base.trans first.base
  step := second.step.trans first.step
  residue := second.residue.trans first.residue
  stride := second.stride.trans first.stride
  advance := second.advance.trans first.advance
  strideAdvance := second.strideAdvance.trans first.strideAdvance
  first := second.first.trans first.first
  finish := first.finish.trans second.finish
  firstCoefficient := second.firstCoefficient.trans first.firstCoefficient
  lastCoefficient := first.lastCoefficient.trans second.lastCoefficient

theorem Belongs.widened (belongs : Belongs displacements window access advance)
    (wider : Wider window grown) : Belongs displacements grown access advance where
  known := belongs.known
  admitted := belongs.admitted
  base := wider.base.trans belongs.base
  step := wider.step.trans belongs.step
  residue := wider.residue.trans belongs.residue
  stride := wider.stride.trans belongs.stride
  advances := wider.advance.trans belongs.advances
  strideAdvances := wider.strideAdvance.trans belongs.strideAdvances

theorem Bounds.widened (bounds : Bounds window access advance copies) (wider : Wider window grown) :
    Bounds grown access advance copies where
  first copy inside := wider.first.trans (bounds.first copy inside)
  finish copy inside := (bounds.finish copy inside).trans wider.finish
  firstCoefficient copy inside := wider.firstCoefficient.trans (bounds.firstCoefficient copy inside)
  lastCoefficient copy inside := (bounds.lastCoefficient copy inside).trans wider.lastCoefficient

theorem wider_widen {modified : Bool} : Wider window (widen modified access window) :=
  ⟨rfl, rfl, rfl, rfl, rfl, rfl, min_le_left _ _, le_max_left _ _, min_le_left _ _, le_max_left _ _⟩

theorem bounds_widen {modified : Bool} :
    Bounds (widen modified access window) access advance 1 := by
  have start : ∀ copy < 1, ((copy : Nat) : Int) = 0 := by omega
  constructor
  · intro copy inside
    rw [start copy inside, mul_zero, add_zero]
    exact min_le_right _ _
  · intro copy inside
    rw [start copy inside, mul_zero, add_zero]
    exact le_max_right _ _
  · intro copy inside
    rw [start copy inside, mul_zero, add_zero]
    exact min_le_right _ _
  · intro copy inside
    rw [start copy inside, mul_zero, add_zero]
    exact le_max_right _ _

theorem Ready.widen {modified : Bool} (ready : Ready displacements window) (small : access.Small) :
    Ready displacements (widen modified access window) :=
  ⟨ready.advances, le_min ready.first small.first, max_le ready.last small.last, ready.disabled⟩

/-! ### One access is put into a window -/

/-- Every window is still there, perhaps wider. -/
def Grows (windows more : List Window) : Prop :=
  ∀ (place : Nat) (window : Window), windows[place]? = some window →
    ∃ grown, more[place]? = some grown ∧ Wider window grown

theorem Grows.trans {more most : List Window} (first : Grows windows more)
    (second : Grows more most) : Grows windows most := by
  intro place window found
  obtain ⟨wider, there, widens⟩ := first place window found
  obtain ⟨widest, last, widens'⟩ := second place wider there
  exact ⟨widest, last, widens.trans widens'⟩

theorem grows_refl : Grows windows windows := fun _ window found => ⟨window, found, Wider.refl⟩

theorem grows_append {new : Window} : Grows windows (windows ++ [new]) := by
  intro place window found
  have inside := (List.getElem?_eq_some_iff.mp found).1
  exact ⟨window, by rw [List.getElem?_append_left inside]; exact found, Wider.refl⟩

theorem grows_modify {place : Nat} {modified : Bool} :
    Grows windows (windows.modify place (widen modified access)) := by
  intro other window found
  rw [List.getElem?_modify, found]
  refine ⟨_, rfl, ?_⟩
  split
  · exact wider_widen
  · exact Wider.refl

/-- What becomes of an access. -/
structure Placed (displacements : AddressDisplacements) (windows : List Window)
    (access placed : Access) : Prop where
  key : placed.key = access.key
  cases : placed = access ∨ ∃ (place : Nat) (window : Window) (advance : Expression),
    placed = { access with window := some place } ∧ windows[place]? = some window ∧
      Belongs displacements window access advance ∧ Bounds window access advance 1

theorem Placed.grows {placed : Access} {more : List Window}
    (is : Placed displacements windows access placed) (grows : Grows windows more) :
    Placed displacements more access placed := by
  refine ⟨is.key, ?_⟩
  rcases is.cases with same | ⟨place, window, advance, into, found, belongs, bounds⟩
  · exact .inl same
  · obtain ⟨wider, there, widens⟩ := grows place window found
    exact .inr ⟨place, wider, advance, into, there, belongs.widened widens, bounds.widened widens⟩

theorem assign_spec (ready : ∀ window ∈ windows, Ready displacements window)
    (small : access.Small) :
    Grows windows (assign displacements windows access).1 ∧
      (∀ window ∈ (assign displacements windows access).1, Ready displacements window) ∧
      Placed displacements (assign displacements windows access).1 access
        (assign displacements windows access).2 := by
  unfold assign
  split
  · exact ⟨grows_refl, ready, rfl, .inl rfl⟩
  · rename_i advance known
    split
    · rename_i admitted
      dsimp only
      generalize made : (Window.mk access.key.base access.key.alignment
        access.key.naturalAlignment access.residue access.key.load access.first access.finish 0
        false false false advance.constant (advance.index.or access.stride)
        access.firstCoefficient access.lastCoefficient advance.coefficient 0) = new
      have fits : belongs access (advance.index.or access.stride) new = true := by
        rw [← made]
        simp [belongs]
      have newReady : Ready displacements new := by
        rw [← made]
        refine ⟨fun other present => ?_, small.first, small.last, rfl⟩
        obtain rfl := Option.some.inj (known.symm.trans present)
        exact ⟨rfl, rfl⟩
      generalize listed : (if windows.any (belongs access (advance.index.or access.stride)) then
        windows else windows ++ [new]) = all
      have grows : Grows windows all := by
        rw [← listed]
        split
        · exact grows_refl
        · exact grows_append
      have allReady : ∀ window ∈ all, Ready displacements window := by
        intro window member
        rw [← listed] at member
        split at member
        · exact ready window member
        · rcases List.mem_append.mp member with old | last
          · exact ready window old
          · obtain rfl := List.mem_singleton.mp last
            exact newReady
      have present :
          ∃ window ∈ all, belongs access (advance.index.or access.stride) window = true := by
        rw [← listed]
        split
        · rename_i any
          exact List.any_eq_true.mp any
        · exact ⟨new, by simp, fits⟩
      have inside := List.findIdx_lt_length_of_exists present
      have chosen := List.findIdx_getElem (w := inside)
      have there := List.getElem?_eq_getElem inside
      generalize all[all.findIdx (belongs access (advance.index.or access.stride))] = window
        at chosen there
      have windowReady := allReady window (List.mem_of_getElem? there)
      simp only [belongs, Bool.and_eq_true, decide_eq_true_eq] at chosen
      obtain ⟨⟨⟨⟨⟨base, -⟩, alignment⟩, natural⟩, residue⟩, stride⟩ := chosen
      obtain ⟨advances, strideAdvances⟩ := windowReady.advances advance (base ▸ known)
      have belongs : Belongs displacements window access advance :=
        ⟨known, admitted, base, by rw [Window.step, Key.stride, alignment, natural], residue,
          stride, advances, strideAdvances⟩
      refine ⟨grows.trans grows_modify, ?_, rfl, .inr ⟨_,
        widen (displacements.modified access.key.base) access window, advance, rfl, ?_,
        belongs.widened wider_widen, bounds_widen⟩⟩
      · intro other member
        rcases of_mem_modify member with old | ⟨old, among, rfl⟩
        · exact allReady other old
        · exact (allReady old among).widen small
      · rw [List.getElem?_modify, there]
        simp
    · exact ⟨grows_refl, ready, rfl, .inl rfl⟩

theorem assignAll_spec {accesses : List Access}
    (ready : ∀ window ∈ windows, Ready displacements window)
    (small : ∀ access ∈ accesses, access.Small) :
    Grows windows (assignAll displacements windows accesses).1 ∧
      (∀ window ∈ (assignAll displacements windows accesses).1, Ready displacements window) ∧
      ∀ key placed, (assignAll displacements windows accesses).2.find?
          (fun access => access.key = key) = some placed →
        ∃ access, accesses.find? (fun access => access.key = key) = some access ∧
          Placed displacements (assignAll displacements windows accesses).1 access placed := by
  induction accesses generalizing windows with
  | nil => exact ⟨grows_refl, ready, fun _ _ found => by cases found⟩
  | cons access rest ih =>
    obtain ⟨grows, made, placed⟩ := assign_spec ready (small access List.mem_cons_self)
    unfold assignAll
    dsimp only
    obtain ⟨more, all, others⟩ :=
      ih made fun other member => small other (List.mem_cons_of_mem _ member)
    refine ⟨grows.trans more, all, ?_⟩
    intro key found
    rw [List.find?_cons, List.find?_cons, placed.key]
    split
    · rintro ⟨⟩
      exact ⟨access, rfl, placed.grows more⟩
    · exact others key found

/-! ### The windows that are enabled -/

theorem best_spec {place : Nat} (chosen : best windows = some (window, place)) :
    windows[place]? = some window ∧ eligible window = true := by
  have either : ∀ candidate, best windows = some candidate →
      windows[candidate.2]? = some candidate.1 ∧ eligible candidate.1 = true := by
    unfold best
    apply List.foldlRecOn (motive := fun choice : Option (Window × Nat) => ∀ candidate,
      choice = some candidate →
        windows[candidate.2]? = some candidate.1 ∧ eligible candidate.1 = true)
    · intro candidate none
      cases none
    · intro choice known candidate member other chosen
      split at chosen
      · rename_i better
        cases chosen
        rw [Bool.and_eq_true] at better
        exact ⟨List.mem_zipIdx_iff_getElem?.mp member, better.1⟩
      · exact known other chosen
  exact either (window, place) chosen

/-- Only windows that fit are enabled, and nothing else of them changes. -/
theorem enable_spec {slots place : Nat} (found : (enable slots windows)[place]? = some window) :
    ∃ before, windows[place]? = some before ∧ window = { before with enabled := window.enabled } ∧
      (window.enabled = true → before.enabled = true ∨ fits before.first before.finish = true) := by
  induction slots generalizing windows with
  | zero => exact ⟨window, found, rfl, .inl⟩
  | succ slots ih =>
    unfold enable at found
    split at found
    · exact ⟨window, found, rfl, .inl⟩
    · rename_i chosen here best
      obtain ⟨there, eligible⟩ := best_spec best
      obtain ⟨before, found, same, enabled⟩ := ih found
      rw [List.getElem?_modify] at found
      obtain ⟨old, present, changed⟩ := Option.map_eq_some_iff.mp found
      refine ⟨old, present, ?_⟩
      split at changed
      · rename_i place
        subst place
        obtain rfl := Option.some.inj (there.symm.trans present)
        subst changed
        refine ⟨same, fun _ => .inr ?_⟩
        simp only [AddressWindows.eligible, Bool.and_eq_true] at eligible
        exact eligible.2
      · subst changed
        exact ⟨same, enabled⟩

/-! ### Several copies of the cycle -/

/-- A window that has been chosen, for some copies of the cycle. -/
structure Chosen (displacements : AddressDisplacements) (window : Window) (access : Access)
    (advance : Expression) (copies : Nat) : Prop where
  belongs : Belongs displacements window access advance
  bounds : Bounds window access advance copies
  fits : fits window.first window.finish = true
  firstCoefficient : -2 ^ 31 ≤ window.firstCoefficient
  lastCoefficient : window.lastCoefficient ≤ 2 ^ 31 - 1

/-- A window that stays where it is holds every copy. -/
theorem Bounds.still (bounds : Bounds window access advance 1) (constant : advance.constant = 0)
    (coefficient : advance.coefficient = 0) : Bounds window access advance copies := by
  have start : ((0 : Nat) : Int) = 0 := rfl
  have first := bounds.first 0 one_pos
  have finish := bounds.finish 0 one_pos
  have firstCoefficient := bounds.firstCoefficient 0 one_pos
  have lastCoefficient := bounds.lastCoefficient 0 one_pos
  have none : ((0 : Word).toInt) = 0 := rfl
  constructor
  · intro copy _
    rw [constant, none, zero_mul] at first ⊢
    exact first
  · intro copy _
    rw [constant, none, zero_mul] at finish ⊢
    exact finish
  · intro copy _
    rw [coefficient, none, zero_mul] at firstCoefficient ⊢
    exact firstCoefficient
  · intro copy _
    rw [coefficient, none, zero_mul] at lastCoefficient ⊢
    exact lastCoefficient

theorem expandWindow_spec (belongs : Belongs displacements window access advance)
    (bounds : Bounds window access advance 1) (fits : Arm64.fits window.first window.finish = true)
    (firstCoefficient : -2 ^ 31 ≤ window.firstCoefficient)
    (lastCoefficient : window.lastCoefficient ≤ 2 ^ 31 - 1)
    (enabled : (expandWindow copies window).enabled = true) :
    Chosen displacements (expandWindow copies window) access advance copies := by
  unfold expandWindow at enabled ⊢
  split
  · rename_i stays
    rw [if_pos stays] at enabled
    simp only [enabled, Bool.not_true, Bool.false_or, Bool.and_eq_true, decide_eq_true_eq] at stays
    rw [belongs.advances, belongs.strideAdvances] at stays
    exact ⟨belongs, bounds.still stays.1 stays.2, fits, firstCoefficient, lastCoefficient⟩
  · rename_i moves
    rw [if_neg moves] at enabled
    split
    · rename_i none
      rw [if_pos none] at enabled
      contradiction
    · rename_i some
      rw [if_neg some] at enabled
      simp only [Bool.and_eq_true, decide_eq_true_eq] at enabled
      obtain ⟨⟨inside, least⟩, most⟩ := enabled
      have first := bounds.first 0 one_pos
      have finish := bounds.finish 0 one_pos
      have firstCoefficient := bounds.firstCoefficient 0 one_pos
      have lastCoefficient := bounds.lastCoefficient 0 one_pos
      have start : ∀ word : Word, word.toInt * ((0 : Nat) : Int) = 0 := fun word => by simp
      rw [start, add_zero] at first finish firstCoefficient lastCoefficient
      refine ⟨⟨belongs.known, belongs.admitted, belongs.base, belongs.step, belongs.residue,
        belongs.stride, belongs.advances, belongs.strideAdvances⟩, ⟨?_, ?_, ?_, ?_⟩, inside, least,
        most⟩
      · intro copy here
        have := (@step_bounds window.advance.toInt _ _ here).1
        rw [belongs.advances] at this
        dsimp only
        rw [belongs.advances]
        linarith
      · intro copy here
        have := (@step_bounds window.advance.toInt _ _ here).2
        rw [belongs.advances] at this
        dsimp only
        rw [belongs.advances]
        linarith
      · intro copy here
        have := (@step_bounds window.strideAdvance.toInt _ _ here).1
        rw [belongs.strideAdvances] at this
        dsimp only
        rw [belongs.strideAdvances]
        linarith
      · intro copy here
        have := (@step_bounds window.strideAdvance.toInt _ _ here).2
        rw [belongs.strideAdvances] at this
        dsimp only
        rw [belongs.strideAdvances]
        linarith

theorem expandWindow_enabled (enabled : (expandWindow copies window).enabled = true) :
    window.enabled = true := by
  unfold expandWindow at enabled
  split at enabled
  · exact enabled
  · rename_i moves
    simp only [Bool.or_eq_true, Bool.not_eq_true', not_or, Bool.not_eq_false] at moves
    exact moves.1

/-- The windows for some instructions of a cycle. -/
def windowsOf (cycle : List (Instruction × Word)) (slots instructions : Nat) : AddressWindows :=
  ((observeCycle cycle).finish slots cycle.length).expand instructions

/-- A key that is found belongs to a window that holds its accesses in every copy. -/
theorem find_spec {cycle : List (Instruction × Word)} {slots instructions place : Nat} {key : Key}
    (found : (windowsOf cycle slots instructions).find key = some place) :
    ∃ window access advance, (windowsOf cycle slots instructions).windows[place]? = some window ∧
      window.enabled = true ∧ (observeCycle cycle).accessOf key = some access ∧
      Chosen (observeCycle cycle).displacements window access advance
        (instructions / cycle.length) := by
  unfold AddressWindows.find at found
  split at found
  · rename_i placed present
    obtain ⟨into, enabled⟩ := Option.filter_eq_some_iff.mp found
    obtain ⟨window, there, on⟩ := (Option.any_eq_true _ _).mp enabled
    unfold windowsOf AddressWindows.expand at there present
    split at there
    · simp only [List.getElem?_map, Option.map_eq_some_iff] at there
      obtain ⟨_, -, rfl⟩ := there
      contradiction
    · rename_i whole
      rw [if_neg whole] at present
      simp only [List.getElem?_map, Option.map_eq_some_iff] at there
      obtain ⟨before, there, rfl⟩ := there
      unfold AddressWindows.finish at there present
      have empty : (observeCycle cycle).windows = [] := by
        unfold observeCycle
        apply List.foldlRecOn (motive := fun windows : AddressWindows => windows.windows = [])
        · rfl
        · intro windows none _ _
          exact none
      have start : ∀ window ∈ (observeCycle cycle).windows,
          Ready (observeCycle cycle).displacements window := by simp [empty]
      have small : ∀ access ∈ (observeCycle cycle).accesses, access.Small :=
        fun access member => (access_noted access member).small
      obtain ⟨-, ready, places⟩ := assignAll_spec start small
      obtain ⟨access, known, is⟩ := places key placed present
      rcases is.cases with same | ⟨place', window', advance, same, at_, belongs, bounds⟩
      · have none := (access_noted access (List.mem_of_find?_eq_some known)).window
        rw [same, none] at into
        contradiction
      · rw [same] at into
        obtain rfl := Option.some.inj into
        obtain ⟨old, first, rest, chosen⟩ := enable_spec there
        obtain rfl := Option.some.inj (at_.symm.trans first)
        have wasReady := ready _ (List.mem_of_getElem? first)
        have eligible := (chosen (expandWindow_enabled on)).resolve_left (by
          rw [wasReady.disabled]
          exact Bool.false_ne_true)
        refine ⟨_, access, advance, ?_, on, known, ?_⟩
        · unfold windowsOf AddressWindows.expand
          rw [if_neg whole]
          simp only [List.getElem?_map, Option.map_eq_some_iff]
          exact ⟨before, there, rfl⟩
        · have length : (AddressWindows.finish (observeCycle cycle) slots
              cycle.length).cycleInstructions = cycle.length := rfl
          rw [length] at on ⊢
          rw [rest] at on ⊢
          exact expandWindow_spec ⟨belongs.known, belongs.admitted, belongs.base, belongs.step,
            belongs.residue, belongs.stride, belongs.advances, belongs.strideAdvances⟩
            ⟨bounds.first, bounds.finish, bounds.firstCoefficient, bounds.lastCoefficient⟩ eligible
            wasReady.first wasReady.last on
  · contradiction

end ILEmu.Arm64
