import ILEmu.Scheduler.RunQueue
import Mathlib.Algebra.BigOperators.Group.Finset.Basic
import Mathlib.Algebra.BigOperators.Group.Finset.Piecewise
import Mathlib.Algebra.Order.BigOperators.Group.Finset
import Mathlib.Order.Bounds.Basic

/-! One run queue: adding and removing a thread keep every summary field equal
to what the bucket lists determine. -/
namespace ILEmu
open Foundation Xnu.Scheduler
namespace RunQueue

/-- The summary fields are the values recomputed from the lists. -/
structure Summarized (q : RunQueue) : Prop where
  bounded : ∀ i, runQueueCount ≤ i → q.queues i = []
  nodup : ∀ i, (q.queues i).Nodup
  counts : ∀ i, q.counts i = (q.queues i).length
  count : q.count = ∑ i ∈ Finset.range runQueueCount, (q.queues i).length
  words : q.bitmap.length = runQueueCount / 32
  bitmap : ∀ i, q.bitmap.test i = true ↔ q.queues i ≠ []
  high : IsGreatest (insert (-1) {h : Int | ∃ i : Nat, h = i ∧ q.queues i ≠ []}) q.highQueue

theorem sum_update (f : Nat → List XnuThreadId) {i : Nat} (bucket : List XnuThreadId)
    (inside : i < runQueueCount) :
    ∑ j ∈ Finset.range runQueueCount, (Function.update f i bucket j).length + (f i).length =
      ∑ j ∈ Finset.range runQueueCount, (f j).length + bucket.length := by
  have member : i ∈ Finset.range runQueueCount := Finset.mem_range.mpr inside
  rw [← Finset.add_sum_erase _ _ member, ← Finset.add_sum_erase _ (fun j => (f j).length) member]
  have rest : ∑ j ∈ (Finset.range runQueueCount).erase i, (Function.update f i bucket j).length =
      ∑ j ∈ (Finset.range runQueueCount).erase i, (f j).length := by
    apply Finset.sum_congr rfl
    intro j other
    rw [Function.update_of_ne (Finset.ne_of_mem_erase other)]
  rw [rest, Function.update_self]
  omega

theorem initial_summarized : Summarized {} where
  bounded := fun _ _ => rfl
  nodup := fun _ => List.nodup_nil
  counts := fun _ => rfl
  count := by simp
  words := by simp
  bitmap := by
    intro i
    simp only [Bitmap.test, ne_eq, not_true_eq_false, iff_false, Bool.not_eq_true]
    rcases Nat.lt_or_ge (i / 32) (runQueueCount / 32) with inside | outside
    · rw [List.getD_eq_getElem?_getD, List.getElem?_replicate, if_pos inside]
      exact BitVec.getLsbD_zero
    · rw [List.getD_eq_getElem?_getD, List.getElem?_replicate, if_neg (by omega)]
      exact BitVec.getLsbD_zero
  high := by
    refine ⟨Set.mem_insert _ _, ?_⟩
    rintro h (rfl | ⟨i, -, occupied⟩)
    · exact Int.le_refl _
    · exact absurd rfl occupied

section
variable {q : RunQueue} {thread : XnuThreadId} {priority : Int}

theorem Summarized.inside_bitmap (valid : q.Summarized) {i : Nat} (inside : i < runQueueCount) :
    i < q.bitmap.length * 32 := by
  rw [valid.words]
  exact inside

theorem link_summarized (valid : q.Summarized) (nonneg : 0 ≤ priority)
    (below : priority.toNat < runQueueCount) (fresh : thread ∉ q.queues priority.toNat)
    (position : QueuePosition) (key : Option RealtimeQueueKey) :
    (q.link thread priority position key).Summarized := by
  obtain ⟨i, rfl⟩ := Int.eq_ofNat_of_zero_le nonneg
  simp only [Int.toNat_natCast] at below fresh
  have grown : ∃ bucket : List XnuThreadId,
      (q.link thread i position key).queues = Function.update q.queues i bucket ∧
      bucket.Nodup ∧ bucket.length = (q.queues i).length + 1 := by
    cases position with
    | front =>
      exact ⟨thread :: q.queues i, rfl, List.nodup_cons.mpr ⟨fresh, valid.nodup i⟩, rfl⟩
    | back =>
      refine ⟨q.queues i ++ [thread], rfl, ?_, by simp⟩
      exact List.nodup_append.mpr ⟨valid.nodup i, List.nodup_singleton _, by
        rintro a member b single rfl
        exact fresh (List.mem_singleton.mp single ▸ member)⟩
  obtain ⟨bucket, queues, distinct, longer⟩ := grown
  have occupied : bucket ≠ [] := by
    rintro rfl
    simp at longer
  have bits := Bitmap.test_set (by omega) q.bitmap (valid.inside_bitmap below)
  refine ⟨?_, ?_, ?_, ?_, ?_, ?_, ?_⟩
  · intro j outside
    rw [queues, Function.update_of_ne (by omega)]
    exact valid.bounded j outside
  · intro j
    rw [queues]
    by_cases same : j = i
    · rwa [same, Function.update_self]
    · rw [Function.update_of_ne same]
      exact valid.nodup j
  · intro j
    rw [queues]
    simp only [link, Int.toNat_natCast]
    by_cases same : j = i
    · rw [same, Function.update_self, Function.update_self, longer, valid.counts]
    · rw [Function.update_of_ne same, Function.update_of_ne same]
      exact valid.counts j
  · have total := sum_update q.queues bucket below
    rw [queues]
    simp only [link]
    rw [valid.count]
    omega
  · simp only [link, Bitmap.length_set]
    exact valid.words
  · intro j
    rw [queues]
    simp only [link, Int.toNat_natCast, bits]
    by_cases same : j = i
    · simp [same, occupied]
    · simp only [same, decide_false, Bool.false_or, Function.update_of_ne same]
      exact valid.bitmap j
  · simp only [link]
    refine ⟨?_, ?_⟩
    · rcases max_choice q.highQueue (i : Int) with old | new
      · rw [old]
        rcases valid.high.1 with none | ⟨j, eq, here⟩
        · exact Or.inl none
        · refine Or.inr ⟨j, eq, ?_⟩
          change (q.link thread i position key).queues j ≠ []
          rw [queues]
          by_cases same : j = i
          · rwa [same, Function.update_self]
          · rwa [Function.update_of_ne same]
      · rw [new]
        refine Or.inr ⟨i, rfl, ?_⟩
        change (q.link thread i position key).queues i ≠ []
        rwa [queues, Function.update_self]
    · rintro h (rfl | ⟨j, rfl, here⟩)
      · exact le_max_of_le_right (by omega)
      · change (q.link thread i position key).queues j ≠ [] at here
        rw [queues] at here
        by_cases same : j = i
        · exact same ▸ le_max_right _ _
        · rw [Function.update_of_ne same] at here
          exact le_max_of_le_left (valid.high.2 (Or.inr ⟨j, rfl, here⟩))

theorem mem_link {t : XnuThreadId} {i : Nat} (position : QueuePosition)
    (key : Option RealtimeQueueKey) :
    t ∈ (q.link thread priority position key).queues i ↔
      (t = thread ∧ i = priority.toNat) ∨ t ∈ q.queues i := by
  by_cases same : i = priority.toNat
  · subst i
    cases position with
    | front => simp [link]
    | back => simp [link, or_comm]
  · simp [link, same]

theorem mem_link_order {k : RealtimeQueueKey} (position : QueuePosition)
    (key : Option RealtimeQueueKey) :
    k ∈ (q.link thread priority position key).realtimeOrder ↔
      key = some k ∨ k ∈ q.realtimeOrder := by
  cases key with
  | none => simp [link]
  | some key => simp [link, eq_comm]

/-- Every summary but the bitmap and the high queue holds, and these still
describe the bucket as it was before its last thread left. -/
theorem retireBucket_summarized {before : RunQueue} {i : Nat} (valid : before.Summarized)
    (below : i < runQueueCount) (bucket : List XnuThreadId)
    (sub : bucket.Sublist (before.queues i)) (here : before.queues i ≠ [])
    (queues : q.queues = Function.update before.queues i bucket)
    (counts : ∀ j, q.counts j = (q.queues j).length)
    (count : q.count = ∑ j ∈ Finset.range runQueueCount, (q.queues j).length)
    (bitmap : q.bitmap = before.bitmap) (high : q.highQueue = before.highQueue) :
    (q.retireBucket i).Summarized ∧ (q.retireBucket i).queues = q.queues ∧
      (q.retireBucket i).realtimeOrder = q.realtimeOrder ∧ (q.retireBucket i).count = q.count := by
  have bounded : ∀ j, runQueueCount ≤ j → q.queues j = [] := by
    intro j outside
    rw [queues, Function.update_of_ne (by omega)]
    exact valid.bounded j outside
  have nodup : ∀ j, (q.queues j).Nodup := by
    intro j
    rw [queues]
    by_cases same : j = i
    · subst j
      rw [Function.update_self]
      exact (valid.nodup i).sublist sub
    · rw [Function.update_of_ne same]
      exact valid.nodup j
  have atBucket : q.queues i = bucket := by rw [queues, Function.update_self]
  have elsewhere : ∀ j, j ≠ i → q.queues j = before.queues j := by
    intro j other
    rw [queues, Function.update_of_ne other]
  have bits := Bitmap.test_clear (by omega) before.bitmap (valid.inside_bitmap below)
  simp only [retireBucket, Int.toNat_natCast]
  split
  · rename_i empty
    rw [atBucket, List.isEmpty_iff] at empty
    have cleared : ∀ j, (before.bitmap.clear i).test j = true ↔ q.queues j ≠ [] := by
      intro j
      rw [bits]
      by_cases same : j = i
      · simp [same, atBucket, empty]
      · simp only [same, decide_false, Bool.not_false, Bool.true_and, elsewhere j same]
        exact valid.bitmap j
    split
    · -- the emptied bucket was the highest: search the bitmap again
      refine ⟨⟨bounded, nodup, counts, count, ?_, ?_, ?_⟩, rfl, rfl, rfl⟩
      · simp only [refreshHighQueue, bitmap, Bitmap.length_clear]
        exact valid.words
      · intro j
        simp only [refreshHighQueue, bitmap]
        exact cleared j
      · simp only [refreshHighQueue, bitmap]
        cases found : (before.bitmap.clear i).highest with
        | none =>
          refine ⟨Or.inl rfl, ?_⟩
          rintro h (rfl | ⟨j, -, occupied⟩)
          · exact Int.le_refl _
          · have unset := Bitmap.highest_none _ found j
            rw [(cleared j).mpr occupied] at unset
            contradiction
        | some top =>
          obtain ⟨set, largest⟩ := Bitmap.highest_some (by omega) _ found
          refine ⟨Or.inr ⟨top, rfl, (cleared top).mp set⟩, ?_⟩
          rintro h (rfl | ⟨j, rfl, occupied⟩)
          · dsimp only
            omega
          · exact Int.ofNat_le.mpr (largest j ((cleared j).mpr occupied))
    · rename_i lower
      refine ⟨⟨bounded, nodup, counts, count, ?_, ?_, ?_⟩, rfl, rfl, rfl⟩
      · simp only [bitmap, Bitmap.length_clear]
        exact valid.words
      · intro j
        simp only [bitmap]
        exact cleared j
      · simp only [high] at lower ⊢
        refine ⟨?_, ?_⟩
        · rcases valid.high.1 with none | ⟨j, eq, occupied⟩
          · exact Or.inl none
          · have other : j ≠ i := by
              rintro rfl
              exact lower eq.symm
            exact Or.inr ⟨j, eq, by rwa [elsewhere j other]⟩
        · rintro h (rfl | ⟨j, rfl, occupied⟩)
          · exact valid.high.2 (Or.inl rfl)
          · have other : j ≠ i := by
              rintro rfl
              exact occupied (atBucket.trans empty)
            rw [elsewhere j other] at occupied
            exact valid.high.2 (Or.inr ⟨j, rfl, occupied⟩)
  · rename_i occupied
    rw [atBucket, List.isEmpty_iff] at occupied
    have same : ∀ j, q.queues j ≠ [] ↔ before.queues j ≠ [] := by
      intro j
      by_cases here' : j = i
      · subst j
        rw [atBucket]
        exact ⟨fun _ => here, fun _ => occupied⟩
      · rw [elsewhere j here']
    refine ⟨⟨bounded, nodup, counts, count, bitmap ▸ valid.words, ?_, ?_⟩, rfl, rfl, rfl⟩
    · intro j
      rw [bitmap, valid.bitmap, same]
    · simp only [high, same]
      exact valid.high

theorem unlink_yields (valid : q.Summarized) (nonneg : 0 ≤ priority)
    (member : thread ∈ q.queues priority.toNat) (key : Option RealtimeQueueKey) :
    Yields (q.unlink thread priority key) fun q' =>
      q'.Summarized ∧ q'.count + 1 = q.count ∧
      (∀ t i, t ∈ q'.queues i ↔ t ∈ q.queues i ∧ ¬(t = thread ∧ i = priority.toNat)) ∧
      (∀ k, k ∈ q'.realtimeOrder ↔ k ∈ q.realtimeOrder ∧ key ≠ some k) := by
  obtain ⟨i, rfl⟩ := Int.eq_ofNat_of_zero_le nonneg
  simp only [Int.toNat_natCast] at member ⊢
  have below : i < runQueueCount := by
    by_contra outside
    rw [valid.bounded i (by omega)] at member
    contradiction
  have here : q.queues i ≠ [] := List.ne_nil_of_mem member
  have shorter : ((q.queues i).erase thread).length + 1 = (q.queues i).length := by
    have := List.length_pos_of_mem member
    rw [List.length_erase_of_mem member]
    omega
  have total := sum_update q.queues ((q.queues i).erase thread) below
  have positive : 0 < q.count := by
    rw [valid.count]
    omega
  unfold unlink
  simp only [Int.toNat_natCast]
  refine (decrement_yields Fault.underflow positive).bind fun count fewer => ?_
  have bucketPositive : 0 < q.counts i := by
    rw [valid.counts]
    omega
  refine (decrement_yields Fault.underflow bucketPositive).bind fun bucket fewer' => ?_
  rw [valid.counts] at fewer'
  have result := retireBucket_summarized (q :=
    { q with
      queues := Function.update q.queues i ((q.queues i).erase thread)
      counts := Function.update q.counts i bucket
      realtimeOrder := q.orderWithout key
      count := count }) valid below _ List.erase_sublist here rfl
    (by
      intro j
      by_cases same : j = i
      · subst j
        simp only [Function.update_self]
        omega
      · simp only [Function.update_of_ne same]
        exact valid.counts j)
    (by
      rw [valid.count] at fewer
      simp only
      omega)
    rfl rfl
  obtain ⟨summarized, queues, order, sameCount⟩ := result
  refine Yields.ok ⟨summarized, ?_, ?_, ?_⟩
  · rw [sameCount]
    exact fewer
  · intro t j
    rw [queues]
    by_cases same : j = i
    · subst j
      simp only [Function.update_self, and_true, (valid.nodup i).mem_erase_iff]
      exact and_comm
    · simp only [Function.update_of_ne same, same, and_false, not_false_eq_true, and_true]
  · intro k
    rw [order]
    cases key with
    | none => simp [orderWithout]
    | some key => simp [orderWithout, and_comm, eq_comm]

end
end RunQueue
end ILEmu
