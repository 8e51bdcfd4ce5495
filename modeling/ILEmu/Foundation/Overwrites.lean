import Mathlib.Data.List.Forall2

/-! Steps that overwrite cells of a state with values of their own. Running such steps again
from the start, after some of them have been taken, comes to the same as running them once. -/
namespace ILEmu.Foundation
variable {S C V F : Type*}

def runAll (steps : List (S → S)) (s : S) : S := steps.foldl (fun s step => step s) s

@[simp] theorem runAll_nil (s : S) : runAll [] s = s := rfl

@[simp] theorem runAll_cons (step : S → S) (steps : List (S → S)) (s : S) :
    runAll (step :: steps) s = runAll steps (step s) := rfl

variable (see : S → C → V)

/-- What a cell holds after the step does not depend on the state before. -/
def Covers (step : S → S) (c : C) : Prop := ∀ s t, see (step s) c = see (step t) c

def Frames (step : S → S) (c : C) : Prop := ∀ s, see (step s) c = see s c

def Overwrites (step : S → S) : Prop := ∀ c, Covers see step c ∨ Frames see step c

/-- The states look the same. -/
def Same (s t : S) : Prop := ∀ c, see s c = see t c

variable {see}

theorem Overwrites.comp {f g : S → S} (first : Overwrites see f) (second : Overwrites see g) :
    Overwrites see fun s => g (f s) := by
  intro c
  rcases second c with covers | frames
  · exact .inl fun s t => covers (f s) (f t)
  · rcases first c with covers | framed
    · refine .inl fun s t => ?_
      rw [frames, frames]
      exact covers s t
    · refine .inr fun s => ?_
      rw [frames, framed]

theorem overwrites_id : Overwrites see fun s => s := fun _ => .inr fun _ => rfl

/-- States that differ in cells only that some step covers look the same in the end. -/
theorem runAll_same {steps : List (S → S)} (all : ∀ f ∈ steps, Overwrites see f) {s t : S}
    (apart : ∀ c, see s c = see t c ∨ ∃ f ∈ steps, Covers see f c) :
    Same see (runAll steps s) (runAll steps t) := by
  induction steps generalizing s t with
  | nil =>
    intro c
    exact (apart c).resolve_right fun ⟨_, member, _⟩ => List.not_mem_nil member
  | cons f rest ih =>
    apply ih fun g member => all g (List.mem_cons_of_mem _ member)
    intro c
    rcases all f List.mem_cons_self c with covers | frames
    · exact .inl (covers s t)
    · rw [frames, frames]
      rcases apart c with same | ⟨g, member, covers⟩
      · exact .inl same
      · rcases List.mem_cons.mp member with rfl | later
        · left
          rw [← frames s, ← frames t]
          exact covers s t
        · exact .inr ⟨g, later, covers⟩

theorem runAll_apart {steps taken : List (S → S)} (all : ∀ f ∈ steps, Overwrites see f)
    (part : taken ⊆ steps) (s : S) (c : C) :
    see (runAll taken s) c = see s c ∨ ∃ f ∈ steps, Covers see f c := by
  induction taken generalizing s with
  | nil => exact .inl rfl
  | cons f rest ih =>
    obtain ⟨member, others⟩ := List.cons_subset.mp part
    rcases all f member c with covers | frames
    · exact .inr ⟨f, member, covers⟩
    · rw [runAll_cons]
      rcases ih others (f s) with same | covered
      · rw [same]
        exact .inl (frames s)
      · exact .inr covered

/-! ### Steps that can fail -/

/-- The steps are taken in order, up to the first that fails. -/
def attempt : List (Option F × (S → S)) → S → S × Option F
  | [], s => (s, none)
  | (some fault, _) :: _, s => (s, some fault)
  | (none, f) :: rest, s => attempt rest (f s)

/-- The steps before the first that fails. -/
def taken (steps : List (Option F × (S → S))) : List (S → S) :=
  (steps.takeWhile fun step => step.1.isNone).map Prod.snd

theorem attempt_eq (steps : List (Option F × (S → S))) (s : S) :
    attempt steps s = (runAll (taken steps) s, steps.findSome? Prod.fst) := by
  induction steps generalizing s with
  | nil => rfl
  | cons step rest ih =>
    obtain ⟨fault, f⟩ := step
    cases fault with
    | some fault => rfl
    | none => exact ih (f s)

theorem attempt_append (first second : List (Option F × (S → S))) (s : S) :
    attempt (first ++ second) s =
      match attempt first s with
      | (s, some fault) => (s, some fault)
      | (s, none) => attempt second s := by
  induction first generalizing s with
  | nil => rfl
  | cons step rest ih =>
    obtain ⟨fault, f⟩ := step
    cases fault with
    | some fault => rfl
    | none => exact ih (f s)

/-- Steps keep what none of them changes. -/
theorem attempt_keeps {X : Type*} (view : S → X) {steps : List (Option F × (S → S))}
    (keeps : ∀ step ∈ steps, ∀ s, view (step.2 s) = view s) (s : S) :
    view (attempt steps s).1 = view s := by
  induction steps generalizing s with
  | nil => rfl
  | cons step rest ih =>
    obtain ⟨fault, f⟩ := step
    cases fault with
    | some fault => rfl
    | none =>
      have later := ih (fun step member => keeps step (List.mem_cons_of_mem _ member)) (f s)
      exact later.trans (keeps _ List.mem_cons_self s)

variable (see) in
/-- A second attempt takes the same steps, which overwrite cells, and fails only where the
first one did. -/
def Retries (first second : List (Option F × (S → S))) : Prop :=
  List.Forall₂ (fun a b => a.2 = b.2 ∧ (a.1 = none → b.1 = none) ∧ Overwrites see b.2)
    first second

namespace Retries
variable {first second : List (Option F × (S → S))} (retries : Retries see first second)
include retries

theorem taken_subset : taken first ⊆ taken second := by
  induction retries with
  | nil => exact List.Subset.refl _
  | @cons a b first second here _ ih =>
    obtain ⟨failure, f⟩ := a
    obtain ⟨again, g⟩ := b
    obtain ⟨rfl, sound, -⟩ := here
    cases failure with
    | some fault => exact List.nil_subset _
    | none =>
      obtain rfl : again = none := sound rfl
      exact List.cons_subset_cons _ ih

theorem overwrites {f : S → S} (member : f ∈ taken second) : Overwrites see f := by
  obtain ⟨step, listed, rfl⟩ := List.mem_map.mp member
  have within := List.takeWhile_subset _ listed
  clear listed member
  induction retries with
  | nil => exact absurd within List.not_mem_nil
  | cons here _ ih =>
    rcases List.mem_cons.mp within with rfl | later
    · exact here.2.2
    · exact ih later

/-- What the first attempt leaves differs only in cells that the second one covers. -/
theorem apart (s : S) (c : C) :
    see (attempt first s).1 c = see s c ∨ ∃ f ∈ taken second, Covers see f c := by
  rw [attempt_eq]
  exact runAll_apart (fun f member => retries.overwrites member) retries.taken_subset s c

/-- An attempt from a state that differs in such cells only ends as from the start. -/
theorem same {left s : S}
    (apart : ∀ c, see left c = see s c ∨ ∃ f ∈ taken second, Covers see f c) :
    Same see (attempt second left).1 (attempt second s).1 ∧
      (attempt second left).2 = (attempt second s).2 := by
  rw [attempt_eq, attempt_eq]
  exact ⟨runAll_same (fun f member => retries.overwrites member) apart, rfl⟩

theorem again (s : S) :
    Same see (attempt second (attempt first s).1).1 (attempt second s).1 ∧
      (attempt second (attempt first s).1).2 = (attempt second s).2 :=
  retries.same fun c => retries.apart s c

theorem append {first' second' : List (Option F × (S → S))}
    (others : Retries see first' second') : Retries see (first ++ first') (second ++ second') :=
  List.rel_append retries others

end Retries
end ILEmu.Foundation
