import ILEmu.Foundation.Containers
import Mathlib.Algebra.Order.BigOperators.Group.List
import Mathlib.Algebra.Order.Group.Nat

/-! Queues by priority: the first lane is served first, and each lane in its own order.
Every operation replaces one lane, so a number counted over all lanes moves with it. -/
namespace ILEmu.Foundation

abbrev Lanes (α : Type*) := List (List α)

namespace Lanes
variable {α : Type*} (lanes : Lanes α)

/-- How many stored elements have a property. -/
def tally (p : α → Bool) : Nat :=
  (lanes.map (List.countP p)).sum

def push (i : Nat) (front : Bool) (a : α) : Lanes α :=
  lanes.modify i fun lane => if front then a :: lane else lane ++ [a]

/-- The first element that is ready, in the first lane that has one. -/
def take (ready : α → Bool) : Lanes α → Option (α × Lanes α)
  | [] => none
  | lane :: rest =>
    match lane.find? ready with
    | some a => some (a, lane.eraseP ready :: rest)
    | none => (take ready rest).map fun (a, rest) => (a, lane :: rest)

def remove (i : Nat) (p : α → Bool) : Option (Lanes α) :=
  match lanes[i]? with
  | none => none
  | some lane => if lane.any p then some (lanes.set i (lane.eraseP p)) else none

/-- What holds of every lane under its number. -/
def Each (P : Nat → List α → Prop) : Prop :=
  ∀ i lane, lanes[i]? = some lane → P i lane

variable {lanes}

theorem Each.set {P : Nat → List α → Prop} (each : lanes.Each P) {i : Nat} {lane : List α}
    (new : P i lane) : Each (lanes.set i lane) P := by
  intro j other found
  rw [List.getElem?_set] at found
  split at found
  · obtain rfl := ‹i = j›
    split at found
    · obtain rfl := Option.some.inj found
      exact new
    · contradiction
  · exact each j other found

theorem push_eq {i : Nat} {lane : List α} (found : lanes[i]? = some lane) (front : Bool) (a : α) :
    lanes.push i front a = lanes.set i (if front then a :: lane else lane ++ [a]) := by
  obtain ⟨bound, rfl⟩ := List.getElem?_eq_some_iff.mp found
  exact List.modify_eq_set_get _ bound

theorem tally_push {i : Nat} (bound : i < lanes.length) (p : α → Bool) (front : Bool) (a : α) :
    tally (lanes.push i front a) p = tally lanes p + (p a).toNat := by
  have found : lanes[i]? = some lanes[i] := List.getElem?_eq_getElem bound
  have moved := sum_map_set (List.countP p) (if front then a :: lanes[i] else lanes[i] ++ [a]) found
  rw [push_eq found]
  unfold tally
  cases front <;> cases kind : p a <;> simp [kind] at moved ⊢ <;> omega

/-- A taken element was the first ready one of its lane, which keeps the others. -/
theorem take_spec {ready : α → Bool} {a : α} {lanes' : Lanes α}
    (taken : take ready lanes = some (a, lanes')) :
    ∃ i lane, lanes[i]? = some lane ∧ lane.find? ready = some a ∧
      lanes' = lanes.set i (lane.eraseP ready) := by
  induction lanes generalizing lanes' with
  | nil => contradiction
  | cons lane rest ih =>
    unfold take at taken
    split at taken
    · rename_i found
      cases taken
      exact ⟨0, lane, rfl, found, rfl⟩
    · obtain ⟨⟨b, rest'⟩, later, same⟩ := Option.map_eq_some_iff.mp taken
      cases same
      obtain ⟨i, other, here, found, rfl⟩ := ih later
      exact ⟨i + 1, other, here, found, rfl⟩

theorem remove_spec {i : Nat} {p : α → Bool} {lanes' : Lanes α}
    (removed : lanes.remove i p = some lanes') :
    ∃ lane a, lanes[i]? = some lane ∧ lane.find? p = some a ∧
      lanes' = lanes.set i (lane.eraseP p) := by
  unfold remove at removed
  split at removed
  · contradiction
  · rename_i lane found
    split at removed
    · rename_i some
      obtain ⟨a, member, holds⟩ := List.any_eq_true.mp some
      obtain ⟨first, here⟩ := Option.isSome_iff_exists.mp
        (List.find?_isSome.mpr ⟨a, member, holds⟩)
      exact ⟨lane, first, found, here, (Option.some.inj removed).symm⟩
    · contradiction

/-- Taking the first element with a property out of a list takes its share of a count. -/
theorem countP_eraseP {p q : α → Bool} {lane : List α} {a : α} (found : lane.find? q = some a) :
    (lane.eraseP q).countP p + (p a).toNat = lane.countP p := by
  induction lane with
  | nil => contradiction
  | cons b rest ih =>
    cases chosen : q b with
    | true =>
      obtain rfl : b = a := by simpa [chosen] using found
      rw [List.eraseP_cons_of_pos chosen, List.countP_cons]
      cases p b <;> rfl
    | false =>
      have later : rest.find? q = some a := by simpa [chosen] using found
      rw [List.eraseP_cons_of_neg (by simp [chosen]), List.countP_cons, List.countP_cons]
      have shorter := ih later
      omega

theorem tally_erase {p q : α → Bool} {i : Nat} {lane : List α} {a : α}
    (found : lanes[i]? = some lane) (first : lane.find? q = some a) :
    tally (lanes.set i (lane.eraseP q)) p + (p a).toNat = tally lanes p := by
  have moved := sum_map_set (List.countP p) (lane.eraseP q) found
  have share := countP_eraseP (p := p) first
  unfold tally
  omega

theorem tally_le_tally {p q : α → Bool} (below : ∀ a, p a = true → q a = true) :
    tally lanes p ≤ tally lanes q := by
  apply List.sum_le_sum
  intro lane _
  exact List.countP_mono_left fun a _ => below a

end Lanes
end ILEmu.Foundation
