import Mathlib.Data.List.Basic
import Mathlib.Data.List.Nodup

/-! Queues whose members arrive once and are served once. Members are told apart by the number of
their arrival, so that equal members are not confused. -/
namespace ILEmu.Foundation
variable {α : Type*}

/-- The arrivals with their numbers, parted into those that have been served, in the order of
service, and those that are still in the queue, in its order. -/
structure Turns (arrivals queue : List α) (served waiting : List (α × Nat)) : Prop where
  queue_eq : waiting.map Prod.fst = queue
  perm : (served ++ waiting).Perm arrivals.zipIdx

namespace Turns
variable {arrivals queue before taken after : List α} {served waiting : List (α × Nat)}

theorem start : Turns ([] : List α) [] [] [] where
  queue_eq := rfl
  perm := List.Perm.nil

/-- A member that arrives may enter the queue anywhere. -/
theorem arrive (turns : Turns arrivals (before ++ after) served waiting) (a : α) :
    ∃ ahead behind, waiting = ahead ++ behind ∧ ahead.map Prod.fst = before ∧
      behind.map Prod.fst = after ∧
      Turns (arrivals ++ [a]) (before ++ a :: after) served
        (ahead ++ (a, arrivals.length) :: behind) := by
  obtain ⟨ahead, behind, rfl, rfl, rfl⟩ := List.map_eq_append_iff.mp turns.queue_eq
  refine ⟨ahead, behind, rfl, rfl, rfl, ?_, ?_⟩
  · rw [List.map_append, List.map_cons]
  · have moved : (served ++ (ahead ++ (a, arrivals.length) :: behind)).Perm
        ((a, arrivals.length) :: (served ++ (ahead ++ behind))) := by
      rw [← List.append_assoc, ← List.append_assoc]
      exact List.perm_middle
    have last : (arrivals.zipIdx ++ [(a, arrivals.length)]).Perm
        ((a, arrivals.length) :: arrivals.zipIdx) := List.perm_append_singleton _ _
    rw [List.zipIdx_append, List.zipIdx_singleton, Nat.zero_add]
    exact moved.trans ((turns.perm.cons _).trans last.symm)

/-- Any stretch of the queue may be served next. -/
theorem serve (turns : Turns arrivals (before ++ (taken ++ after)) served waiting) :
    ∃ ahead now behind, waiting = ahead ++ (now ++ behind) ∧ ahead.map Prod.fst = before ∧
      now.map Prod.fst = taken ∧
      Turns arrivals (before ++ after) (served ++ now) (ahead ++ behind) := by
  obtain ⟨ahead, rest, rfl, rfl, right⟩ := List.map_eq_append_iff.mp turns.queue_eq
  obtain ⟨now, behind, rfl, rfl, rfl⟩ := List.map_eq_append_iff.mp right
  refine ⟨ahead, now, behind, rfl, rfl, rfl, List.map_append, ?_⟩
  have moved : (served ++ now ++ (ahead ++ behind)).Perm (served ++ (ahead ++ (now ++ behind))) := by
    rw [List.append_assoc, List.perm_append_left_iff]
    exact List.perm_append_comm_assoc _ _ _
  exact moved.trans turns.perm

/-- Any members of the queue may leave it together, the others in a new order. -/
theorem depart (turns : Turns arrivals queue served waiting) {now rest : List (α × Nat)}
    (parted : (now ++ rest).Perm waiting) :
    Turns arrivals (rest.map Prod.fst) (served ++ now) rest where
  queue_eq := rfl
  perm := by
    rw [List.append_assoc]
    exact (parted.append_left served).trans turns.perm

/-- A member that arrives at the end of the queue. -/
theorem enter (turns : Turns arrivals queue served waiting) (a : α) :
    Turns (arrivals ++ [a]) (queue ++ [a]) served (waiting ++ [(a, arrivals.length)]) where
  queue_eq := by
    rw [List.map_append, turns.queue_eq, List.map_singleton]
  perm := by
    rw [List.zipIdx_append, List.zipIdx_singleton, Nat.zero_add, ← List.append_assoc]
    exact turns.perm.append_right _

/-- In a queue that is in the order of arrival, everybody who came before a member has been
served or stands before it. -/
theorem before_of_lt {ahead behind : List (α × Nat)} {entry : α × Nat}
    (turns : Turns arrivals queue served (ahead ++ entry :: behind))
    (sorted : (ahead ++ entry :: behind).Pairwise (·.2 < ·.2)) {earlier : Nat}
    (less : earlier < entry.2) : earlier ∈ (served ++ ahead).map Prod.snd := by
  have bound : entry.2 < arrivals.length := by
    have numbered : entry ∈ arrivals.zipIdx := turns.perm.subset (by simp)
    exact List.snd_lt_of_mem_zipIdx numbered
  have listed : earlier ∈ (arrivals.zipIdx).map Prod.snd := by
    rw [List.zipIdx_map_snd]
    simp only [List.mem_range', Nat.one_mul, Nat.zero_add]
    exact ⟨earlier, Nat.lt_trans less bound, rfl⟩
  obtain ⟨other, member, rfl⟩ := List.mem_map.mp ((turns.perm.map Prod.snd).mem_iff.mpr listed)
  rw [← List.append_assoc] at member
  obtain here | later := List.mem_append.mp member
  · exact List.mem_map_of_mem here
  · obtain rfl | behind' := List.mem_cons.mp later
    · exact absurd less (Nat.lt_irrefl _)
    · have after := (List.pairwise_cons.mp (List.pairwise_append.mp sorted).2.1).1 other behind'
      exact absurd less (Nat.not_lt_of_lt after)

theorem nodup_zipIdx (arrivals : List α) (first : Nat) :
    ((arrivals.zipIdx first).map Prod.snd).Nodup := by
  rw [List.zipIdx_map_snd]
  exact List.nodup_range'

/-- No arrival is served twice, and none is served that is still in the queue. -/
theorem once (turns : Turns arrivals queue served waiting) :
    ((served ++ waiting).map Prod.snd).Nodup :=
  (turns.perm.map Prod.snd).nodup_iff.mpr (nodup_zipIdx arrivals 0)

theorem served_once (turns : Turns arrivals queue served waiting) :
    (served.map Prod.snd).Nodup := by
  have once := turns.once
  rw [List.map_append] at once
  exact once.of_append_left

theorem number_lt (turns : Turns arrivals queue served waiting) {entry : α × Nat}
    (member : entry ∈ waiting) : entry.2 < arrivals.length := by
  have numbered : entry ∈ arrivals.zipIdx := turns.perm.subset (List.mem_append_right _ member)
  exact List.snd_lt_of_mem_zipIdx numbered

end Turns
end ILEmu.Foundation
