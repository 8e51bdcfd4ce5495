import Mathlib.Data.List.Basic

/-! Sequences in which an item may take the place of the one directly before it. -/
namespace ILEmu.Foundation
variable {α : Type*} (supersedes : α → α → Prop)

/-- What is shown of the items that were given: all of them in order, but for items that were
superseded by the item directly after them. -/
inductive Condensed : List α → List α → Prop
  | nil : Condensed [] []
  | keep {given shown : List α} (before : Condensed given shown) (next : α) :
      Condensed (given ++ [next]) (shown ++ [next])
  | supersede {given shown : List α} {last next : α} (before : Condensed given (shown ++ [last]))
      (newer : supersedes last next) : Condensed (given ++ [next]) (shown ++ [next])

namespace Condensed
variable {supersedes} {given shown : List α}

theorem sublist (condensed : Condensed supersedes given shown) : shown.Sublist given := by
  induction condensed with
  | nil => exact List.Sublist.refl _
  | keep _ next ih => exact ih.append (List.Sublist.refl _)
  | supersede _ _ ih =>
    exact ((List.sublist_append_left _ _).trans ih).append (List.Sublist.refl _)

/-- The last item is never missing, so what it superseded stood directly before it. -/
theorem getLast? (condensed : Condensed supersedes given shown) :
    shown.getLast? = given.getLast? := by
  cases condensed with
  | nil => rfl
  | keep _ next => rw [List.getLast?_concat, List.getLast?_concat]
  | supersede _ _ => rw [List.getLast?_concat, List.getLast?_concat]

end Condensed
end ILEmu.Foundation
