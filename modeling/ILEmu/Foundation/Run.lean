import Mathlib.Tactic.Common

/-! Finite runs of a deterministic system whose every action is a total step.
A property can be required of the states along a run, a condition of its steps. -/
namespace ILEmu.Foundation
variable {S A : Type*} (next : S → A → S)

def run (s : S) (actions : List A) : S :=
  actions.foldl next s

/-- Every state of the run, the first and the last included, has the property. -/
def Throughout (property : S → Prop) : S → List A → Prop
  | s, [] => property s
  | s, a :: rest => property s ∧ Throughout property (next s a) rest

/-- Every step of the run meets the condition in the state it is taken from. -/
def Along (condition : S → A → Prop) : S → List A → Prop
  | _, [] => True
  | s, a :: rest => condition s a ∧ Along condition (next s a) rest

variable {next}

@[simp] theorem run_nil (s : S) : run next s [] = s := rfl

@[simp] theorem run_cons (s : S) (a : A) (rest : List A) :
    run next s (a :: rest) = run next (next s a) rest := rfl

theorem run_append (s : S) (first second : List A) :
    run next s (first ++ second) = run next (run next s first) second :=
  List.foldl_append

theorem run_invariant {inv : S → Prop} (preserves : ∀ s a, inv s → inv (next s a)) {s : S}
    (initial : inv s) (actions : List A) : inv (run next s actions) := by
  induction actions generalizing s with
  | nil => exact initial
  | cons a rest ih => exact ih (preserves s a initial)

theorem throughout_invariant {inv : S → Prop} (preserves : ∀ s a, inv s → inv (next s a)) {s : S}
    (initial : inv s) (actions : List A) : Throughout next inv s actions := by
  induction actions generalizing s with
  | nil => exact initial
  | cons a rest ih => exact ⟨initial, ih (preserves s a initial)⟩

/-- Steps that keep a property when they meet a condition keep it all along. -/
theorem Along.keeps {inv property : S → Prop} {condition : S → A → Prop}
    (preserves : ∀ s a, inv s → inv (next s a))
    (step : ∀ s a, inv s → property s → condition s a → property (next s a)) {s : S}
    (initial : inv s) (start : property s) {actions : List A}
    (along : Along next condition s actions) : property (run next s actions) := by
  induction actions generalizing s with
  | nil => exact start
  | cons a rest ih =>
    obtain ⟨met, later⟩ := along
    exact ih (preserves s a initial) (step s a initial start met) later

theorem Along.preserves {property : S → Prop} {condition : S → A → Prop}
    (step : ∀ s a, property s → condition s a → property (next s a)) {s : S}
    (start : property s) {actions : List A} (along : Along next condition s actions) :
    property (run next s actions) := by
  have unconditional : ∀ s a, (fun _ : S => True) s → (fun _ : S => True) (next s a) :=
    fun _ _ _ => trivial
  exact Along.keeps unconditional (fun s a _ => step s a) trivial start along

/-- They keep it in every state of the run. -/
theorem Along.throughout {inv property : S → Prop} {condition : S → A → Prop}
    (preserves : ∀ s a, inv s → inv (next s a))
    (step : ∀ s a, inv s → property s → condition s a → property (next s a)) {s : S}
    (initial : inv s) (start : property s) {actions : List A}
    (along : Along next condition s actions) : Throughout next property s actions := by
  induction actions generalizing s with
  | nil => exact start
  | cons a rest ih =>
    obtain ⟨met, later⟩ := along
    exact ⟨start, ih (preserves s a initial) (step s a initial start met) later⟩

theorem along_append {condition : S → A → Prop} {s : S} {first second : List A} :
    Along next condition s (first ++ second) ↔
      Along next condition s first ∧ Along next condition (run next s first) second := by
  induction first generalizing s with
  | nil => exact (and_iff_right trivial).symm
  | cons a rest ih =>
    simp only [List.cons_append, Along, run_cons, ih, and_assoc]

theorem Along.imp {condition weaker : S → A → Prop}
    (weakens : ∀ s a, condition s a → weaker s a) {s : S} {actions : List A}
    (along : Along next condition s actions) : Along next weaker s actions := by
  induction actions generalizing s with
  | nil => trivial
  | cons a rest ih => exact ⟨weakens s a along.1, ih along.2⟩

theorem Throughout.last {property : S → Prop} {s : S} {actions : List A}
    (holds : Throughout next property s actions) : property (run next s actions) := by
  induction actions generalizing s with
  | nil => exact holds
  | cons a rest ih => exact ih holds.2

theorem Throughout.head {property : S → Prop} {s : S} {actions : List A}
    (holds : Throughout next property s actions) : property s := by
  cases actions with
  | nil => exact holds
  | cons a rest => exact holds.1

theorem Throughout.imp {property weaker : S → Prop} (weakens : ∀ s, property s → weaker s) {s : S}
    {actions : List A} (holds : Throughout next property s actions) :
    Throughout next weaker s actions := by
  induction actions generalizing s with
  | nil => exact weakens s holds
  | cons a rest ih => exact ⟨weakens s holds.1, ih holds.2⟩

/-- Properties that agree on every reached state agree along every run. -/
theorem throughout_congr {inv property other : S → Prop}
    (preserves : ∀ s a, inv s → inv (next s a)) (same : ∀ s, inv s → (property s ↔ other s))
    {s : S} (initial : inv s) (actions : List A) :
    Throughout next property s actions ↔ Throughout next other s actions := by
  induction actions generalizing s with
  | nil => exact same s initial
  | cons a rest ih => exact and_congr (same s initial) (ih (preserves s a initial))

instance Throughout.decidable {property : S → Prop} [DecidablePred property] :
    ∀ s actions, Decidable (Throughout next property s actions)
  | s, [] => inferInstanceAs (Decidable (property s))
  | s, a :: rest =>
    @instDecidableAnd _ _ _ (Throughout.decidable (next s a) rest)

instance Along.decidable {condition : S → A → Prop} [∀ s a, Decidable (condition s a)] :
    ∀ s actions, Decidable (Along next condition s actions)
  | _, [] => inferInstanceAs (Decidable True)
  | s, a :: rest => @instDecidableAnd _ _ _ (Along.decidable (next s a) rest)

theorem along_of_mem {condition : S → A → Prop} {actions : List A}
    (met : ∀ a ∈ actions, ∀ s, condition s a) (s : S) : Along next condition s actions := by
  induction actions generalizing s with
  | nil => trivial
  | cons a rest ih =>
    exact ⟨met a List.mem_cons_self s, ih (fun b member => met b (List.mem_cons_of_mem _ member)) _⟩

theorem along_of_forall {condition : S → A → Prop} (met : ∀ s a, condition s a) (s : S)
    (actions : List A) : Along next condition s actions :=
  along_of_mem (fun a _ s => met s a) s

/-- When an admitted step keeps a property exactly if it meets a condition, the property
holds in every state of an admitted run exactly if every step of the run meets it. -/
theorem throughout_iff_along {inv property : S → Prop} {admitted condition : S → A → Prop}
    (preserves : ∀ s a, inv s → inv (next s a))
    (exact_step : ∀ s a, inv s → property s → admitted s a →
      (property (next s a) ↔ condition s a))
    {s : S} (initial : inv s) (start : property s) {actions : List A}
    (all : Along next admitted s actions) :
    Throughout next property s actions ↔ Along next condition s actions := by
  induction actions generalizing s with
  | nil => exact ⟨fun _ => trivial, fun _ => start⟩
  | cons a rest ih =>
    obtain ⟨first, others⟩ := all
    have here := exact_step s a initial start first
    simp only [Throughout, Along]
    constructor
    · rintro ⟨_, later⟩
      have kept := later.head
      exact ⟨here.mp kept, (ih (preserves s a initial) kept others).mp later⟩
    · rintro ⟨met, later⟩
      have kept := here.mpr met
      exact ⟨start, (ih (preserves s a initial) kept others).mpr later⟩

/-- What the steps of a run show, in their order. -/
def observed {B : Type*} (next : S → A → S) (shown : S → A → List B) : S → List A → List B
  | _, [] => []
  | s, a :: rest => shown s a ++ observed next shown (next s a) rest

theorem observed_append {B : Type*} (shown : S → A → List B) (s : S) (first second : List A) :
    observed next shown s (first ++ second) =
      observed next shown s first ++ observed next shown (run next s first) second := by
  induction first generalizing s with
  | nil => rfl
  | cons a rest ih =>
    have later := ih (next s a)
    simp only [List.cons_append, observed, run_cons, later, List.append_assoc]

theorem observed_concat {B : Type*} (shown : S → A → List B) (s : S) (first : List A) (a : A) :
    observed next shown s (first ++ [a]) =
      observed next shown s first ++ shown (run next s first) a := by
  rw [observed_append]
  simp only [observed, List.append_nil]

theorem observed_map {B C : Type*} (view : B → C) (shown : S → A → List B) (s : S)
    (actions : List A) :
    (observed next shown s actions).map view =
      observed next (fun s a => (shown s a).map view) s actions := by
  induction actions generalizing s with
  | nil => rfl
  | cons a rest ih => simp only [observed, List.map_append, ih]

theorem run_concat (s : S) (first : List A) (a : A) :
    run next s (first ++ [a]) = next (run next s first) a :=
  run_append s first [a]

/-- The number of steps of a run at which a flag goes down. -/
def drops (next : S → A → S) (flag : S → Bool) : S → List A → Nat
  | _, [] => 0
  | s, a :: rest => (flag s && !flag (next s a)).toNat + drops next flag (next s a) rest

variable (next) in
/-- A flag that is raised once more often than it is lowered is up at the end. -/
theorem rises_eq_drops (flag : S → Bool) (s : S) (actions : List A) :
    drops next (fun s => !flag s) s actions + (flag s).toNat =
      drops next flag s actions + (flag (run next s actions)).toNat := by
  induction actions generalizing s with
  | nil => simp only [drops, run_nil]
  | cons a rest ih =>
    have later := ih (next s a)
    simp only [drops, run_cons]
    cases before : flag s <;> cases behind : flag (next s a) <;>
      simp only [behind] at later <;> simp <;> simp at later <;> omega

/-- A flag that stays down once it has been lowered is lowered once at most. -/
theorem drops_le_one {inv spent : S → Prop} {flag : S → Bool}
    (preserves : ∀ s a, inv s → inv (next s a))
    (stays : ∀ s a, inv s → spent s → spent (next s a)) (down : ∀ s, spent s → flag s = false)
    (lowered : ∀ s a, inv s → flag s = true → flag (next s a) = false → spent (next s a))
    {s : S} (initial : inv s) (actions : List A) : drops next flag s actions ≤ 1 := by
  have never : ∀ (actions : List A) s, inv s → spent s → drops next flag s actions = 0 := by
    intro actions
    induction actions with
    | nil => exact fun _ _ _ => rfl
    | cons a rest ih =>
      intro s holds past
      simp only [drops, down s past, Bool.false_and, Bool.toNat_false, Nat.zero_add]
      exact ih (next s a) (preserves s a holds) (stays s a holds past)
  induction actions generalizing s with
  | nil => exact Nat.zero_le 1
  | cons a rest ih =>
    simp only [drops]
    by_cases falls : flag s = true ∧ flag (next s a) = false
    · obtain ⟨up, low⟩ := falls
      have past := lowered s a initial up low
      rw [never rest (next s a) (preserves s a initial) past]
      exact Bool.toNat_le _
    · have level : (flag s && !flag (next s a)) = false := by
        cases before : flag s <;> cases behind : flag (next s a) <;> simp [before, behind] at falls ⊢
      rw [level, Bool.toNat_false, Nat.zero_add]
      exact ih (preserves s a initial)

end ILEmu.Foundation
