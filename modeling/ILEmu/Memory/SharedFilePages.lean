import ILEmu.Memory.FilePageCache
import Mathlib.Data.List.Flatten

/-! One physical page for each shared file page, as long as its byte count stays. -/
namespace ILEmu.Memory.FilePageCache
open Foundation

namespace World

/-- What the identity of a page in the cache rests on. -/
def kind (w : World) (p : PageId) : Bool × Option MutablePageKey × BitVec 32 :=
  ((w.heap p).sharedVnode, (w.heap p).filePage, (w.heap p).fileByteCount)

def Shared (w : World) (p : PageId) : Prop := (w.heap p).sharedVnode = true

def filePage (w : World) (p : PageId) : Option MutablePageKey := (w.heap p).filePage

def byteCount (w : World) (p : PageId) : BitVec 32 := (w.heap p).fileByteCount

/-- The entries of both indexes by key. -/
def records (w : World) : List (Key × PageId) := w.pages ++ w.evictedPages

/-- The pages of the batches that have not been published. -/
def candidates (w : World) : List PageId := w.prepared.flatMap (·.pages)

theorem live_iff (w : World) (p : PageId) :
    w.live p = true ↔ (∃ key, (key, p) ∈ w.pages) ∨ (∃ r ∈ w.resident, r.page = p)
      ∨ p ∈ w.candidates ∨ p ∈ w.held := by
  simp [live, candidates, or_assoc]

theorem kind_eq {w w' : World} {p : PageId} (same : w'.kind p = w.kind p) :
    (w'.Shared p ↔ w.Shared p) ∧ w'.filePage p = w.filePage p ∧ w'.byteCount p = w.byteCount p := by
  simp only [kind, Prod.mk.injEq] at same
  obtain ⟨shared, page, count⟩ := same
  exact ⟨by rw [Shared, Shared, shared], page, count⟩

/-- The live pages are indexed by their vnode, and what an index says of a page is so. -/
structure Inv (w : World) : Prop where
  live_lt : ∀ p, w.live p = true → p < w.next
  indexed_lt : ∀ entry ∈ w.mutablePages, entry.2 < w.next
  recorded_lt : ∀ r ∈ w.records, r.2 < w.next
  unmade : ∀ p, w.next ≤ p → ¬w.Shared p
  indexed : ∀ entry ∈ w.mutablePages, w.filePage entry.2 = some entry.1
  found : ∀ p, w.live p = true → w.Shared p → ∃ page, (page, p) ∈ w.mutablePages
  recorded : ∀ r ∈ w.records, r.1.sharedVnode = true →
    w.Shared r.2 ∧ w.filePage r.2 = some r.1.page
  unique : ∀ p q, w.live p = true → w.live q = true → w.Shared p → w.Shared q →
    w.filePage p = w.filePage q → w.byteCount p = w.byteCount q → p = q
  unpublished : ∀ batch ∈ w.prepared, ∀ c ∈ batch.pages, ¬w.Shared c
    ∧ ∃ offset, w.filePage c = some (batch.mapping.backing.page offset)
  distinct : w.candidates.Nodup
  mapped : ∀ r ∈ w.resident, r.sharedWritable = true → r.fileCached = false ∧ w.Shared r.page
    ∧ w.filePage r.page = some (r.mapping.backing.page r.fileOffset)

/-- Any two live pages that mappings of one file page share are the same. -/
def OnePhysicalPage (w : World) : Prop :=
  ∀ p q, w.live p = true → w.live q = true → w.Shared p → w.Shared q →
    w.filePage p = w.filePage q → p = q

/-- No page is made, and none gets an owner or an index entry that it did not have. -/
structure Shrinks (w w' : World) : Prop where
  next : w'.next = w.next
  kind : ∀ p, w'.kind p = w.kind p
  live : ∀ p, w'.live p = true → w.live p = true
  indexed : ∀ entry ∈ w'.mutablePages, entry ∈ w.mutablePages
  keeps : ∀ entry ∈ w.mutablePages, w'.live entry.2 = true → entry ∈ w'.mutablePages
  recorded : ∀ r ∈ w'.records, r ∈ w.records
  prepared : w'.prepared.Sublist w.prepared
  mapped : ∀ r ∈ w'.resident, r.sharedWritable = true → ∃ q ∈ w.resident,
    q.sharedWritable = true ∧ q.page = r.page ∧ q.mapping = r.mapping
      ∧ q.fileOffset = r.fileOffset ∧ (q.fileCached = false → r.fileCached = false)

namespace Shrinks
variable {w w' w'' : World}

theorem refl (w : World) : Shrinks w w where
  next := rfl
  kind _ := rfl
  live _ alive := alive
  indexed _ member := member
  keeps _ member _ := member
  recorded _ member := member
  prepared := .refl _
  mapped r member writable := ⟨r, member, writable, rfl, rfl, rfl, id⟩

theorem trans (first : Shrinks w w') (second : Shrinks w' w'') : Shrinks w w'' where
  next := second.next.trans first.next
  kind p := (second.kind p).trans (first.kind p)
  live p alive := first.live p (second.live p alive)
  indexed entry member := first.indexed entry (second.indexed entry member)
  keeps entry member alive :=
    second.keeps entry (first.keeps entry member (second.live _ alive)) alive
  recorded r member := first.recorded r (second.recorded r member)
  prepared := second.prepared.trans first.prepared
  mapped r member writable := by
    obtain ⟨q, inside, shared, page, mapping, offset, cached⟩ := second.mapped r member writable
    obtain ⟨o, origin, sharing, page', mapping', offset', cached'⟩ := first.mapped q inside shared
    exact ⟨o, origin, sharing, page'.trans page, mapping'.trans mapping, offset'.trans offset,
      fun clear => cached (cached' clear)⟩

theorem inv (shrinks : Shrinks w w') (inv : Inv w) : Inv w' where
  live_lt p alive := by
    rw [shrinks.next]
    exact inv.live_lt p (shrinks.live p alive)
  indexed_lt entry member := by
    rw [shrinks.next]
    exact inv.indexed_lt entry (shrinks.indexed entry member)
  recorded_lt r member := by
    rw [shrinks.next]
    exact inv.recorded_lt r (shrinks.recorded r member)
  unmade p beyond := by
    rw [(kind_eq (shrinks.kind p)).1]
    exact inv.unmade p (shrinks.next ▸ beyond)
  indexed entry member := by
    rw [(kind_eq (shrinks.kind entry.2)).2.1]
    exact inv.indexed entry (shrinks.indexed entry member)
  found p alive shared := by
    obtain ⟨page, member⟩ :=
      inv.found p (shrinks.live p alive) ((kind_eq (shrinks.kind p)).1.mp shared)
    exact ⟨page, shrinks.keeps _ member alive⟩
  recorded r member asks := by
    obtain ⟨shared, page⟩ := inv.recorded r (shrinks.recorded r member) asks
    obtain ⟨sharing, filePage, _⟩ := kind_eq (shrinks.kind r.2)
    exact ⟨sharing.mpr shared, filePage.trans page⟩
  unique p q aliveP aliveQ sharedP sharedQ pages counts := by
    obtain ⟨sharingP, pageP, countP⟩ := kind_eq (shrinks.kind p)
    obtain ⟨sharingQ, pageQ, countQ⟩ := kind_eq (shrinks.kind q)
    rw [pageP, pageQ] at pages
    rw [countP, countQ] at counts
    exact inv.unique p q (shrinks.live p aliveP) (shrinks.live q aliveQ) (sharingP.mp sharedP)
      (sharingQ.mp sharedQ) pages counts
  unpublished batch member c inside := by
    obtain ⟨shared, page⟩ := inv.unpublished batch (shrinks.prepared.subset member) c inside
    obtain ⟨sharing, filePage, _⟩ := kind_eq (shrinks.kind c)
    rw [sharing, filePage]
    exact ⟨shared, page⟩
  distinct := inv.distinct.sublist (shrinks.prepared.flatMap (·.pages))
  mapped r member writable := by
    obtain ⟨q, inside, shared, page, mapping, offset, cached⟩ := shrinks.mapped r member writable
    obtain ⟨clear, sharing, filePage⟩ := inv.mapped q inside shared
    obtain ⟨sharing', filePage', _⟩ := kind_eq (shrinks.kind r.page)
    rw [page, mapping, offset] at *
    exact ⟨cached clear, sharing'.mpr sharing, filePage'.trans filePage⟩

theorem onePhysicalPage (shrinks : Shrinks w w') (one : OnePhysicalPage w) : OnePhysicalPage w' := by
  intro p q aliveP aliveQ sharedP sharedQ pages
  obtain ⟨sharingP, pageP, _⟩ := kind_eq (shrinks.kind p)
  obtain ⟨sharingQ, pageQ, _⟩ := kind_eq (shrinks.kind q)
  rw [pageP, pageQ] at pages
  exact one p q (shrinks.live p aliveP) (shrinks.live q aliveQ) (sharingP.mp sharedP)
    (sharingQ.mp sharedQ) pages

end Shrinks

/-- One page that nobody shared gets an owner, and is indexed if it is shared now. -/
structure Adds (w w' : World) (p : PageId) : Prop where
  next : w.next ≤ w'.next
  made : p < w'.next
  unshared : ¬w.Shared p
  kind : ∀ q, q ≠ p → w'.kind q = w.kind q
  live : ∀ q, w'.live q = true → w.live q = true ∨ q = p
  indexed : ∀ entry ∈ w'.mutablePages,
    (entry ∈ w.mutablePages ∧ entry.2 ≠ p) ∨ entry.2 = p ∧ w'.filePage p = some entry.1
  keeps : ∀ entry ∈ w.mutablePages, w'.live entry.2 = true → entry ∈ w'.mutablePages
  recorded : ∀ r ∈ w'.records, r ∈ w.records
    ∨ r.2 = p ∧ (r.1.sharedVnode = true → w'.Shared p ∧ w'.filePage p = some r.1.page)
  prepared : w'.prepared.Sublist w.prepared
  candidate : p ∉ w.candidates
  mapped : ∀ r ∈ w'.resident, r.sharedWritable = true → r ∈ w.resident
  shared : w'.Shared p → (∃ page, (page, p) ∈ w'.mutablePages) ∧
    ∀ q, w.live q = true → w.Shared q → w.filePage q = w'.filePage p →
      w.byteCount q ≠ w'.byteCount p

namespace Adds
variable {w w' : World} {p : PageId}

/-- A shared page of the new world that is not the new one was there before. -/
theorem before (adds : Adds w w' p) {q : PageId} (alive : w'.live q = true)
    (shared : w'.Shared q) (other : q ≠ p) :
    w.live q = true ∧ w.Shared q ∧ w'.filePage q = w.filePage q
      ∧ w'.byteCount q = w.byteCount q := by
  obtain ⟨sharing, page, count⟩ := kind_eq (adds.kind q other)
  have old := (adds.live q alive).resolve_right other
  exact ⟨old, sharing.mp shared, page, count⟩

theorem inv (adds : Adds w w' p) (inv : Inv w) : Inv w' where
  live_lt q alive := by
    obtain before | rfl := adds.live q alive
    · exact Nat.lt_of_lt_of_le (inv.live_lt q before) adds.next
    · exact adds.made
  indexed_lt entry member := by
    obtain ⟨before, _⟩ | ⟨same, _⟩ := adds.indexed entry member
    · exact Nat.lt_of_lt_of_le (inv.indexed_lt entry before) adds.next
    · exact same ▸ adds.made
  recorded_lt r member := by
    obtain before | ⟨same, _⟩ := adds.recorded r member
    · exact Nat.lt_of_lt_of_le (inv.recorded_lt r before) adds.next
    · exact same ▸ adds.made
  unmade q beyond := by
    have other : q ≠ p := fun same => Nat.not_lt.mpr beyond (same ▸ adds.made)
    rw [(kind_eq (adds.kind q other)).1]
    exact inv.unmade q (Nat.le_trans adds.next beyond)
  indexed entry member := by
    obtain ⟨before, other⟩ | ⟨same, page⟩ := adds.indexed entry member
    · rw [(kind_eq (adds.kind _ other)).2.1]
      exact inv.indexed entry before
    · exact same ▸ page
  found q alive shared := by
    by_cases same : q = p
    · subst q
      exact (adds.shared shared).1
    · obtain before | here := adds.live q alive
      · obtain ⟨page, member⟩ := inv.found q before ((kind_eq (adds.kind q same)).1.mp shared)
        exact ⟨page, adds.keeps _ member alive⟩
      · exact absurd here same
  recorded r member asks := by
    obtain before | ⟨same, new⟩ := adds.recorded r member
    · obtain ⟨shared, page⟩ := inv.recorded r before asks
      have other : r.2 ≠ p := fun same => adds.unshared (same ▸ shared)
      obtain ⟨sharing, filePage, _⟩ := kind_eq (adds.kind r.2 other)
      exact ⟨sharing.mpr shared, filePage.trans page⟩
    · exact same ▸ new asks
  unique q r aliveQ aliveR sharedQ sharedR pages counts := by
    by_cases first : q = p
    · by_cases second : r = p
      · exact first.trans second.symm
      · subst q
        obtain ⟨old, shared, page, count⟩ := adds.before aliveR sharedR second
        have differ := (adds.shared sharedQ).2 r old shared (page.symm.trans pages.symm)
        exact absurd (count.symm.trans counts.symm) differ
    · obtain ⟨oldQ, sharedQ', pageQ, countQ⟩ := adds.before aliveQ sharedQ first
      by_cases second : r = p
      · subst r
        have differ := (adds.shared sharedR).2 q oldQ sharedQ' (pageQ.symm.trans pages)
        exact absurd (countQ.symm.trans counts) differ
      · obtain ⟨oldR, sharedR', pageR, countR⟩ := adds.before aliveR sharedR second
        rw [pageQ, pageR] at pages
        rw [countQ, countR] at counts
        exact inv.unique q r oldQ oldR sharedQ' sharedR' pages counts
  unpublished batch member c inside := by
    have before := adds.prepared.subset member
    have other : c ≠ p := by
      rintro rfl
      exact adds.candidate (List.mem_flatMap.mpr ⟨batch, before, inside⟩)
    obtain ⟨sharing, filePage, _⟩ := kind_eq (adds.kind c other)
    rw [sharing, filePage]
    exact inv.unpublished batch before c inside
  distinct := inv.distinct.sublist (adds.prepared.flatMap (·.pages))
  mapped r member writable := by
    obtain ⟨clear, shared, page⟩ := inv.mapped r (adds.mapped r member writable) writable
    have other : r.page ≠ p := fun same => adds.unshared (same ▸ shared)
    obtain ⟨sharing, filePage, _⟩ := kind_eq (adds.kind r.page other)
    exact ⟨clear, sharing.mpr shared, filePage.trans page⟩

/-- The new page is the only one of its file page, if the byte counts of the others agree
with its own. -/
theorem onePhysicalPage (adds : Adds w w' p) (one : OnePhysicalPage w)
    (agree : w'.Shared p → ∀ q, w.live q = true → w.Shared q → w.filePage q = w'.filePage p →
      w.byteCount q = w'.byteCount p) : OnePhysicalPage w' := by
  have alone : w'.Shared p → ∀ q, w'.live q = true → w'.Shared q →
      w'.filePage q = w'.filePage p → q = p := by
    intro sharedP q alive shared pages
    by_contra other
    obtain ⟨old, sharing, page, _⟩ := adds.before alive shared other
    have same := page.symm.trans pages
    exact (adds.shared sharedP).2 q old sharing same (agree sharedP q old sharing same)
  intro q r aliveQ aliveR sharedQ sharedR pages
  by_cases first : q = p
  · subst q
    exact (alone sharedQ r aliveR sharedR pages.symm).symm
  · by_cases second : r = p
    · subst r
      exact alone sharedR q aliveQ sharedQ pages
    · obtain ⟨oldQ, sharingQ, pageQ, _⟩ := adds.before aliveQ sharedQ first
      obtain ⟨oldR, sharingR, pageR, _⟩ := adds.before aliveR sharedR second
      rw [pageQ, pageR] at pages
      exact one q r oldQ oldR sharingQ sharingR pages

end Adds

/-- A change of the indexes by key, and of the holders, that names nothing new. -/
theorem shrinks_of_indexes {w w' : World} (heap : w'.heap = w.heap) (next : w'.next = w.next)
    (vnodes : w'.mutablePages = w.mutablePages) (resident : w'.resident = w.resident)
    (prepared : w'.prepared = w.prepared) (recorded : ∀ r ∈ w'.records, r ∈ w.records)
    (owned : ∀ key p, (key, p) ∈ w'.pages → w.live p = true)
    (held : ∀ p ∈ w'.held, w.live p = true) : Shrinks w w' where
  next := next
  kind p := by rw [kind, kind, heap]
  live p alive := by
    rw [live_iff, resident, candidates, prepared] at alive
    obtain ⟨key, member⟩ | mapped | candidate | holder := alive
    · exact owned key p member
    · exact (live_iff w p).mpr (.inr (.inl mapped))
    · exact (live_iff w p).mpr (.inr (.inr (.inl candidate)))
    · exact held p holder
  indexed entry member := vnodes ▸ member
  keeps entry member _ := vnodes ▸ member
  recorded := recorded
  prepared := prepared ▸ .refl _
  mapped r member writable := ⟨r, resident ▸ member, writable, rfl, rfl, rfl, id⟩

section
variable {w : World} {key : Key} {p : PageId}

theorem live_of_pages (w : World) {key : Key} {p : PageId} (member : (key, p) ∈ w.pages) : w.live p = true :=
  (live_iff w p).mpr (.inl ⟨key, member⟩)

theorem live_of_held (w : World) {p : PageId} (member : p ∈ w.held) : w.live p = true :=
  (live_iff w p).mpr (.inr (.inr (.inr member)))

theorem retain_shrinks (alive : w.live p = true) : Shrinks w (w.retain p) := by
  refine shrinks_of_indexes rfl rfl rfl rfl rfl (fun _ member => member) ?_ ?_
  · exact fun _ _ => live_of_pages w
  · intro q member
    obtain rfl | before := List.mem_cons.mp member
    · exact alive
    · exact live_of_held w before

theorem release_shrinks (w : World) (p : PageId) : Shrinks w (w.release p) := by
  refine shrinks_of_indexes rfl rfl rfl rfl rfl (fun _ member => member) ?_ ?_
  · exact fun _ _ => live_of_pages w
  · exact fun q member => live_of_held w (List.mem_of_mem_erase member)

theorem touch_shrinks (member : (key, p) ∈ w.pages) : Shrinks w (w.touch key p) := by
  have inside : ∀ r ∈ (w.touch key p).pages, r ∈ w.pages := by
    intro r found
    obtain kept | moved := List.mem_append.mp found
    · exact List.mem_of_mem_filter kept
    · exact List.mem_singleton.mp moved ▸ member
  refine shrinks_of_indexes rfl rfl rfl rfl rfl ?_ ?_ ?_
  · intro r found
    obtain page | evicted := List.mem_append.mp found
    · exact List.mem_append_left _ (inside r page)
    · exact List.mem_append_right _ evicted
  · exact fun _ _ found => live_of_pages w (inside _ found)
  · exact fun _ => live_of_held w

theorem pruneEvicted_shrinks (w : World) : Shrinks w w.pruneEvicted := by
  refine shrinks_of_indexes rfl rfl rfl rfl rfl ?_ ?_ ?_
  · intro r found
    obtain page | evicted := List.mem_append.mp found
    · exact List.mem_append_left _ page
    · exact List.mem_append_right _ (List.mem_of_mem_filter evicted)
  · exact fun _ _ => live_of_pages w
  · exact fun _ => live_of_held w

theorem evictOne_shrinks (w : World) : Shrinks w w.evictOne := by
  unfold evictOne
  split
  · exact .refl w
  · rename_i key p rest victims
    dsimp only
    generalize evicted_eq : (if w.useCount p ≠ 1 then
      (key, p) :: w.evictedPages.filter (fun r => r.1 ≠ key) else w.evictedPages) = evicted
    have known : ∀ r ∈ evicted, r ∈ w.records := by
      subst evicted
      intro r member
      split at member
      · obtain rfl | before := List.mem_cons.mp member
        · exact List.mem_append_left _ (victims ▸ List.mem_cons_self)
        · exact List.mem_append_right _ (List.mem_of_mem_filter before)
      · exact List.mem_append_right _ member
    have fewer : ∀ r ∈ rest, r ∈ w.pages := fun r member =>
      victims ▸ List.mem_cons_of_mem _ member
    have popped : Shrinks w { w with
        pages := rest, evictedPages := evicted
        evictionsSincePrune := w.evictionsSincePrune + 1 } := by
      refine shrinks_of_indexes rfl rfl rfl rfl rfl ?_ ?_ ?_
      · intro r found
        obtain page | old := List.mem_append.mp found
        · exact List.mem_append_left _ (fewer r page)
        · exact known r old
      · exact fun _ _ found => live_of_pages w (fewer _ found)
      · exact fun _ => live_of_held w
    split
    · exact popped.trans (pruneEvicted_shrinks _)
    · exact popped

theorem iterate_shrinks {turn : World → World} (each : ∀ w, Shrinks w (turn w)) (n : Nat)
    (w : World) : Shrinks w (turn^[n] w) := by
  induction n generalizing w with
  | zero => exact .refl w
  | succ n ih => exact (each w).trans (ih (turn w))

theorem evict_shrinks (w : World) : Shrinks w w.evict := by
  unfold evict
  split
  · exact .refl w
  · exact iterate_shrinks evictOne_shrinks _ w

theorem pruneMutablePages_shrinks (w : World) : Shrinks w w.pruneMutablePages where
  next := rfl
  kind _ := rfl
  live _ alive := alive
  indexed _ member := List.mem_of_mem_filter member
  keeps _ member alive := List.mem_filter.mpr ⟨member, alive⟩
  recorded _ member := member
  prepared := .refl _
  mapped r member writable := ⟨r, member, writable, rfl, rfl, rfl, id⟩

theorem maintainPages_shrinks (w : World) : Shrinks w w.maintainPages := by
  unfold maintainPages
  split
  · exact (pruneMutablePages_shrinks w).trans (evict_shrinks _)
  · exact evict_shrinks w

theorem recorded_some {records : List (Key × PageId)} (found : recorded records key = some p) :
    (key, p) ∈ records := by
  obtain ⟨⟨other, q⟩, first, rfl⟩ := Option.map_eq_some_iff.mp found
  have same : other = key := by simpa using List.find?_some first
  exact same ▸ List.mem_of_find?_eq_some first

theorem findShared_some (found : w.findShared key = some p) :
    (key.page, p) ∈ w.mutablePages ∧ w.live p = true ∧ w.Shared p := by
  obtain ⟨⟨page, q⟩, first, rfl⟩ := Option.map_eq_some_iff.mp found
  have chosen := List.find?_some first
  simp only [decide_eq_true_eq] at chosen
  obtain ⟨rfl, alive, shared, _⟩ := chosen
  exact ⟨List.mem_of_find?_eq_some first, alive, shared⟩

theorem findShared_none (missed : w.findShared key = none) (inv : Inv w) {q : PageId}
    (alive : w.live q = true) (shared : w.Shared q) (same : w.filePage q = some key.page) :
    w.byteCount q ≠ key.byteCount := by
  intro count
  obtain ⟨page, member⟩ := inv.found q alive shared
  have indexed := inv.indexed _ member
  rw [same, Option.some.injEq] at indexed
  have absent := List.find?_eq_none.mp (Option.map_eq_none_iff.mp missed) _ member
  simp only [decide_eq_true_eq] at absent
  exact absent ⟨indexed.symm, alive, shared, count⟩

@[simp] theorem evictOne_held (w : World) : w.evictOne.held = w.held := by
  unfold evictOne
  split
  · rfl
  · dsimp only
    split <;> split <;> rfl

@[simp] theorem evict_held (w : World) : w.evict.held = w.held := by
  unfold evict
  split
  · rfl
  · clear * -
    generalize w.pages.length - w.maximumPages = turns
    induction turns generalizing w with
    | zero => rfl
    | succ n ih => exact (ih w.evictOne).trans (evictOne_held w)

theorem forget_shrinks (w : World) (key : Key) :
    Shrinks w { w with evictedPages := w.evictedPages.filter fun r => r.1 ≠ key } := by
  refine shrinks_of_indexes rfl rfl rfl rfl rfl ?_ ?_ ?_
  · intro r found
    obtain page | evicted := List.mem_append.mp found
    · exact List.mem_append_left _ page
    · exact List.mem_append_right _ (List.mem_of_mem_filter evicted)
  · exact fun _ _ => live_of_pages w
  · exact fun _ => live_of_held w

/-- A page with an owner comes back from the index of evicted pages. -/
theorem revive_shrinks (alive : w.live p = true) (evicted : (key, p) ∈ w.evictedPages) :
    Shrinks w { w with
      evictedPages := w.evictedPages.filter fun r => r.1 ≠ key
      pages := w.pages ++ [(key, p)], held := p :: w.held } := by
  refine shrinks_of_indexes rfl rfl rfl rfl rfl ?_ ?_ ?_
  · intro r found
    obtain page | old := List.mem_append.mp found
    · obtain before | new := List.mem_append.mp page
      · exact List.mem_append_left _ before
      · exact List.mem_append_right _ (List.mem_singleton.mp new ▸ evicted)
    · exact List.mem_append_right _ (List.mem_of_mem_filter old)
  · intro other q found
    obtain before | new := List.mem_append.mp found
    · exact live_of_pages w before
    · have same : q = p := congrArg Prod.snd (List.mem_singleton.mp new)
      exact same ▸ alive
  · intro q member
    obtain rfl | before := List.mem_cons.mp member
    · exact alive
    · exact live_of_held w before

/-- What a search does, and what it says of the page it finds. -/
structure Finds (w : World) (key : Key) (result : World × Option PageId) : Prop where
  shrinks : Shrinks w result.1
  held : ∀ p, result.2 = some p → p ∈ result.1.held
  known : key.sharedVnode = true → ∀ p, result.2 = some p →
    w.findShared key = some p ∨ (key, p) ∈ w.records
  missed : key.sharedVnode = true → result.2 = none → w.findShared key = none

theorem Finds.nothing {w' : World} (shrinks : Shrinks w w')
    (missed : key.sharedVnode = true → w.findShared key = none) : Finds w key (w', none) where
  shrinks := shrinks
  held _ found := nomatch found
  known _ _ found := nomatch found
  missed asks _ := missed asks

theorem findPage_finds (w : World) (key : Key) : Finds w key (w.findPage key) := by
  unfold findPage
  generalize first : (if key.sharedVnode then w.findShared key else none) = hit
  have shared_hit : key.sharedVnode = true → w.findShared key = hit := by
    intro asks
    rw [if_pos asks] at first
    exact first
  cases hit with
  | some p =>
    have found : w.findShared key = some p := by
      by_cases asks : key.sharedVnode = true
      · exact shared_hit asks
      · rw [if_neg asks] at first
        contradiction
    refine ⟨retain_shrinks (findShared_some found).2.1, ?_, ?_, ?_⟩
    · rintro q ⟨rfl⟩
      exact List.mem_cons_self
    · rintro _ q ⟨rfl⟩
      exact .inl found
    · rintro _ ⟨⟩
  | none =>
    dsimp only
    cases cached : recorded w.pages key with
    | some p =>
      dsimp only
      have member := recorded_some cached
      have touched := touch_shrinks member
      have alive : (w.touch key p).live p = true :=
        live_of_pages _ (List.mem_append_right _ (List.mem_singleton_self _))
      refine ⟨touched.trans (retain_shrinks alive), ?_, ?_, ?_⟩
      · rintro q ⟨rfl⟩
        exact List.mem_cons_self
      · rintro _ q ⟨rfl⟩
        exact .inr (List.mem_append_left _ member)
      · rintro _ ⟨⟩
    | none =>
      dsimp only
      cases evicted : recorded w.evictedPages key with
      | none => exact .nothing (.refl w) shared_hit
      | some p =>
        have member := recorded_some evicted
        dsimp only
        split
        · rename_i alive
          refine ⟨(revive_shrinks alive member).trans (evict_shrinks _), ?_, ?_, ?_⟩
          · rintro q ⟨rfl⟩
            rw [evict_held]
            exact List.mem_cons_self
          · rintro _ q ⟨rfl⟩
            exact .inr (List.mem_append_right _ member)
          · rintro _ ⟨⟩
        · exact .nothing (forget_shrinks w key) shared_hit

/-- A page found for a shared key is a shared page of its file page. -/
theorem Finds.shared {result : World × Option PageId} (finds : Finds w key result) (inv : Inv w)
    (asks : key.sharedVnode = true) (found : result.2 = some p) :
    w.Shared p ∧ w.filePage p = some key.page := by
  obtain hit | member := finds.known asks p found
  · obtain ⟨indexed, _, shared⟩ := findShared_some hit
    exact ⟨shared, inv.indexed _ indexed⟩
  · exact inv.recorded _ member asks

theorem erasePath_shrinks (w : World) (path : String) : Shrinks w (w.erasePath path) := by
  refine shrinks_of_indexes rfl rfl rfl rfl rfl ?_ ?_ ?_
  · intro r found
    obtain page | evicted := List.mem_append.mp found
    · exact List.mem_append_left _ (List.mem_of_mem_filter page)
    · exact List.mem_append_right _ (List.mem_of_mem_filter evicted)
  · exact fun _ _ found => live_of_pages w (List.mem_of_mem_filter found)
  · exact fun _ => live_of_held w

end

/-- The live shared pages of a file page have this byte count. -/
def Agrees (w : World) (page : MutablePageKey) (count : BitVec 32) : Prop :=
  ∀ q, w.live q = true → w.Shared q → w.filePage q = some page → w.byteCount q = count

theorem Shrinks.agrees {w w' : World} {page : MutablePageKey} {count : BitVec 32}
    (shrinks : Shrinks w w') (agrees : Agrees w page count) : Agrees w' page count := by
  intro q alive shared same
  obtain ⟨sharing, filePage, counts⟩ := kind_eq (shrinks.kind q)
  rw [filePage] at same
  rw [counts]
  exact agrees q (shrinks.live q alive) (sharing.mp shared) same

/-- No live shared page of the file page has the byte count that was asked for. -/
def Missed (w : World) (key : Key) : Prop :=
  ∀ q, w.live q = true → w.Shared q → w.filePage q = some key.page →
    w.byteCount q ≠ key.byteCount

theorem Finds.alone {w : World} {key : Key} {result : World × Option PageId}
    (finds : Finds w key result) (inv : Inv w) (asks : key.sharedVnode = true)
    (none_found : result.2 = none) : Missed result.1 key := by
  intro q alive shared same
  obtain ⟨sharing, filePage, counts⟩ := kind_eq (finds.shrinks.kind q)
  rw [filePage] at same
  rw [counts]
  exact findShared_none (finds.missed asks none_found) inv (finds.shrinks.live q alive)
    (sharing.mp shared) same

/-- A page in the making has its contents, and the indexes do not know it. -/
structure Makes (w made : World) (key : Key) (p : PageId) : Prop where
  next : w.next ≤ made.next
  lt : p < made.next
  unshared : ¬w.Shared p
  heap : ∀ q, q ≠ p → made.heap q = w.heap q
  live : ∀ q, made.live q = true → w.live q = true ∨ q = p
  vnodes : made.mutablePages = w.mutablePages
  records : made.records = w.records
  resident : made.resident = w.resident
  prepared : made.prepared = w.prepared
  candidate : p ∉ w.candidates
  indexed : ∀ page, (page, p) ∈ w.mutablePages → page = key.page
  kind : made.kind p = (key.sharedVnode, some key.page, key.byteCount)

section
variable (w : World) (key : Key) (p : PageId)

@[simp] theorem insertPage_heap : (w.insertPage key p).heap = w.heap := by
  unfold insertPage
  split <;> rfl

@[simp] theorem insertPage_next : (w.insertPage key p).next = w.next := by
  unfold insertPage
  split <;> rfl

@[simp] theorem insertPage_resident : (w.insertPage key p).resident = w.resident := by
  unfold insertPage
  split <;> rfl

@[simp] theorem insertPage_prepared : (w.insertPage key p).prepared = w.prepared := by
  unfold insertPage
  split <;> rfl

@[simp] theorem insertPage_held : (w.insertPage key p).held = w.held := by
  unfold insertPage
  split <;> rfl

@[simp] theorem insertPage_pages : (w.insertPage key p).pages = w.pages ++ [(key, p)] := by
  unfold insertPage
  split <;> rfl

@[simp] theorem insertPage_evictedPages : (w.insertPage key p).evictedPages = w.evictedPages := by
  unfold insertPage
  split <;> rfl

theorem insertPage_mutablePages : (w.insertPage key p).mutablePages =
    w.mutablePages ++ if key.immutableSnapshot then [] else [(key.page, p)] := by
  unfold insertPage
  split
  · exact (List.append_nil _).symm
  · rfl

theorem insertPage_kind (q : PageId) : (w.insertPage key p).kind q = w.kind q := by
  rw [kind, insertPage_heap, kind]

variable {w key p}

theorem insertPage_live {q : PageId} (alive : (w.insertPage key p).live q = true) :
    w.live q = true ∨ q = p := by
  rw [live_iff, insertPage_pages, insertPage_resident, candidates, insertPage_prepared,
    insertPage_held] at alive
  obtain ⟨other, member⟩ | rest := alive
  · obtain before | new := List.mem_append.mp member
    · exact .inl (live_of_pages w before)
    · exact .inr (congrArg Prod.snd (List.mem_singleton.mp new))
  · exact .inl ((live_iff w q).mpr (.inr rest))

theorem insertPage_records {r : Key × PageId} (member : r ∈ (w.insertPage key p).records) :
    r ∈ w.records ∨ r = (key, p) := by
  simp only [records, insertPage_pages, insertPage_evictedPages, List.mem_append,
    List.mem_singleton] at member ⊢
  obtain (before | new) | evicted := member
  · exact .inl (.inl before)
  · exact .inr new
  · exact .inl (.inr evicted)

end

theorem Makes.adds {w made : World} {key : Key} {p : PageId} (makes : Makes w made key p)
    (vnode : key.sharedVnode = true → key.immutableSnapshot = false)
    (missed : key.sharedVnode = true → Missed w key) : Adds w (made.insertPage key p) p := by
  have facts := (insertPage_kind made key p p).trans makes.kind
  simp only [World.kind, Prod.mk.injEq] at facts
  obtain ⟨shared, page, count⟩ := facts
  refine
    { next := by simpa using makes.next
      made := by simpa using makes.lt
      unshared := makes.unshared
      kind := ?_
      live := fun q alive => (insertPage_live alive).elim (makes.live q) .inr
      indexed := ?_
      keeps := ?_
      recorded := ?_
      prepared := by rw [insertPage_prepared, makes.prepared]
      candidate := makes.candidate
      mapped := ?_
      shared := ?_ }
  · intro q other
    rw [insertPage_kind, World.kind, makes.heap q other, World.kind]
  · rintro ⟨index, q⟩ member
    rw [insertPage_mutablePages, makes.vnodes] at member
    obtain before | new := List.mem_append.mp member
    · by_cases same : q = p
      · subst q
        exact .inr ⟨rfl, by rw [filePage, page, makes.indexed index before]⟩
      · exact .inl ⟨before, same⟩
    · split at new
      · contradiction
      · obtain ⟨rfl, rfl⟩ := Prod.mk.inj (List.mem_singleton.mp new)
        exact .inr ⟨rfl, page⟩
  · intro entry member _
    rw [insertPage_mutablePages, makes.vnodes]
    exact List.mem_append_left _ member
  · intro r member
    obtain before | rfl := insertPage_records member
    · exact .inl (makes.records ▸ before)
    · exact .inr ⟨rfl, fun asks => ⟨shared.trans asks, page⟩⟩
  · intro r member _
    rw [insertPage_resident, makes.resident] at member
    exact member
  · intro sharing
    have asks := shared.symm.trans sharing
    refine ⟨⟨key.page, ?_⟩, ?_⟩
    · rw [insertPage_mutablePages, vnode asks]
      exact List.mem_append_right _ (List.mem_singleton_self _)
    · intro q alive sharedQ same
      have counts : (made.insertPage key p).byteCount p = key.byteCount := count
      rw [counts]
      exact missed asks q alive sharedQ (same.trans page)

/-- A step keeps the invariant, and one page for each file page if the byte counts agree. -/
structure Sound (w w' : World) (agrees : Prop) : Prop where
  inv : Inv w'
  one : OnePhysicalPage w → agrees → OnePhysicalPage w'

theorem Shrinks.sound {w w' : World} (shrinks : Shrinks w w') (inv : Inv w) (agrees : Prop) :
    Sound w w' agrees :=
  ⟨shrinks.inv inv, fun one _ => shrinks.onePhysicalPage one⟩

theorem Sound.shrinks {w w' w'' : World} {agrees : Prop} (sound : Sound w w' agrees)
    (shrinks : Shrinks w' w'') : Sound w w'' agrees :=
  ⟨shrinks.inv sound.inv, fun one agree => shrinks.onePhysicalPage (sound.one one agree)⟩

theorem Sound.after {w w' w'' : World} {agrees later : Prop} (sound : Sound w' w'' later)
    (shrinks : Shrinks w w') (weakens : agrees → later) : Sound w w'' agrees :=
  ⟨sound.inv, fun one agree => sound.one (shrinks.onePhysicalPage one) (weakens agree)⟩

theorem Makes.sound {w made : World} {key : Key} {p : PageId} (makes : Makes w made key p)
    (inv : Inv w) (vnode : key.sharedVnode = true → key.immutableSnapshot = false)
    (missed : key.sharedVnode = true → Missed w key) :
    Sound w (made.insertPage key p)
      (key.sharedVnode = true → Agrees w key.page key.byteCount) := by
  have adds := makes.adds vnode missed
  refine ⟨adds.inv inv, fun one agree => adds.onePhysicalPage one ?_⟩
  have facts := (insertPage_kind made key p p).trans makes.kind
  simp only [World.kind, Prod.mk.injEq] at facts
  obtain ⟨shared, page, count⟩ := facts
  intro sharing q alive sharedQ same
  have counts : (made.insertPage key p).byteCount p = key.byteCount := count
  rw [counts]
  exact agree (shared.symm.trans sharing) q alive sharedQ (same.trans page)

@[simp] theorem filePageKey_page (file : File) (offset : BitVec 64) (count : BitVec 32)
    (shared : Bool) : (filePageKey file offset count shared).page = file.page offset := rfl

/-- The page under construction is unknown to a world that keeps the invariant. -/
theorem construct_makes {w : World} (inv : Inv w) (key : Key) (page : GuestPageBacking)
    (kind : (page.sharedVnode, page.filePage, page.fileByteCount)
      = (key.sharedVnode, some key.page, key.byteCount)) :
    Makes w (w.construct page) key w.next where
  next := Nat.le_succ _
  lt := Nat.lt_succ_self _
  unshared := inv.unmade _ (Nat.le_refl _)
  heap q other := Function.update_of_ne other _ _
  live q alive := by
    obtain member | mapped | candidate | holder := (live_iff _ q).mp alive
    · exact .inl ((live_iff w q).mpr (.inl member))
    · exact .inl ((live_iff w q).mpr (.inr (.inl mapped)))
    · exact .inl ((live_iff w q).mpr (.inr (.inr (.inl candidate))))
    · obtain rfl | before := List.mem_cons.mp holder
      · exact .inr rfl
      · exact .inl (live_of_held w before)
  vnodes := rfl
  records := rfl
  resident := rfl
  prepared := rfl
  candidate member :=
    absurd (inv.live_lt _ ((live_iff w _).mpr (.inr (.inr (.inl member))))) (Nat.lt_irrefl _)
  indexed _ member := absurd (inv.indexed_lt _ member) (Nat.lt_irrefl _)
  kind := by
    rw [World.kind]
    simp only [construct, Function.update_self]
    exact kind

@[simp] theorem pruneMutablePages_held (w : World) : w.pruneMutablePages.held = w.held := rfl

@[simp] theorem maintainPages_held (w : World) : w.maintainPages.held = w.held := by
  unfold maintainPages
  rw [evict_held]
  split <;> rfl

/-- What a loaded page is, for the caller that holds it. -/
structure Loads (w : World) (file : File) (offset : BitVec 64) (count : BitVec 32) (shared : Bool)
    (result : World × PageId) : Prop where
  sound : Sound w result.1 (shared = true → Agrees w (file.page offset) count)
  held : result.2 ∈ result.1.held
  shared : shared = true → result.1.Shared result.2
    ∧ result.1.filePage result.2 = some (file.page offset)

theorem Loads.found {w w' : World} {file : File} {offset : BitVec 64} {count : BitVec 32}
    {shared : Bool} {result : World × Option PageId} {p : PageId} (before : Shrinks w w')
    (inv : Inv w) (finds : Finds w' (filePageKey file offset count shared) result)
    (found : result.2 = some p) : Loads w file offset count shared (result.1, p) where
  sound := (before.trans finds.shrinks).sound inv _
  held := finds.held p found
  shared asks := by
    obtain ⟨sharing, page⟩ := finds.shared (before.inv inv) asks found
    obtain ⟨sharing', page', _⟩ := kind_eq (finds.shrinks.kind p)
    exact ⟨sharing'.mpr sharing, page'.trans page⟩

theorem loadPage_loads {w : World} (inv : Inv w) {file : File} (offset : BitVec 64)
    (count : BitVec 32) {shared : Bool} (vnode : shared = true → file.immutable = false) :
    Loads w file offset count shared (w.loadPage file offset count shared) := by
  unfold loadPage
  dsimp only
  have once := findPage_finds w (filePageKey file offset count shared)
  generalize w.findPage (filePageKey file offset count shared) = first at once ⊢
  obtain ⟨first, hit⟩ := first
  cases hit with
  | some p => exact .found (.refl w) inv once rfl
  | none =>
    dsimp only
    have inv₁ := once.shrinks.inv inv
    have twice := findPage_finds first (filePageKey file offset count shared)
    generalize first.findPage (filePageKey file offset count shared) = second at twice ⊢
    obtain ⟨second, hit⟩ := second
    cases hit with
    | some p => exact .found once.shrinks inv twice rfl
    | none =>
      dsimp only
      have inv₂ := twice.shrinks.inv inv₁
      have before := once.shrinks.trans twice.shrinks
      generalize page_eq : ({ fileBacking := some file, fileWriteback := some file
                              fileOffset := offset, fileByteCount := count
                              sharedVnode := shared } : GuestPageBacking) = page
      have makes := construct_makes inv₂ (filePageKey file offset count shared) page
        (by subst page; rfl)
      have sound := makes.sound inv₂ vnode fun asks => twice.alone inv₁ asks rfl
      have maintained := maintainPages_shrinks
        ((second.construct page).insertPage (filePageKey file offset count shared) second.next)
      refine ⟨(sound.shrinks maintained).after before ?_, ?_, ?_⟩
      · exact fun agree asks => before.agrees (agree asks)
      · rw [maintainPages_held, insertPage_held]
        exact List.mem_cons_self
      · intro asks
        have facts := (maintained.kind _).trans ((insertPage_kind _ _ _ _).trans makes.kind)
        simp only [World.kind, Prod.mk.injEq] at facts
        exact ⟨facts.1.trans asks, facts.2.1⟩

/-- Other contents of a page leave its identity. -/
theorem setPage_shrinks {w : World} {p : PageId} {page : GuestPageBacking}
    (same : (page.sharedVnode, page.filePage, page.fileByteCount) = w.kind p) :
    Shrinks w (w.setPage p page) where
  next := rfl
  kind q := by
    by_cases here : q = p
    · subst q
      rw [← same, kind]
      simp only [setPage, Function.update_self]
    · simp only [kind, setPage, Function.update_of_ne here]
  live _ alive := alive
  indexed _ member := member
  keeps _ member _ := member
  recorded _ member := member
  prepared := .refl _
  mapped r member writable := ⟨r, member, writable, rfl, rfl, rfl, id⟩

/-- The pages of a batch that is being published, before their turn. -/
structure Pending (w : World) (file : File) (rest : List PageId) : Prop where
  lt : ∀ c ∈ rest, c < w.next
  unshared : ∀ c ∈ rest, ¬w.Shared c
  page : ∀ c ∈ rest, ∃ offset, w.filePage c = some (file.page offset)
  candidate : ∀ c ∈ rest, c ∉ w.candidates
  nodup : rest.Nodup

theorem filePage_offset {page : GuestPageBacking} {file : File} {offset : BitVec 64}
    (here : page.filePage = some (file.page offset)) : page.fileOffset = offset := by
  obtain ⟨own, _, same⟩ := Option.map_eq_some_iff.mp here
  exact congrArg MutablePageKey.fileOffset same

/-- The live shared pages of a candidate's file page have its byte count. -/
def AgreesWith (w : World) (c : PageId) : Prop :=
  ∀ q, w.live q = true → w.Shared q → w.filePage q = w.filePage c → w.byteCount q = w.byteCount c

/-- A candidate is dropped for a page the cache has, or becomes the page of the cache. -/
inductive Publishes (w : World) (shared : Bool) (c : PageId) : World → Prop where
  | dropped {w' : World} (shrinks : Shrinks w w') : Publishes w shared c w'
  | adopted {found w' : World} (before : Shrinks w found) (adds : Adds found w' c)
      (sound : Sound found w' (shared = true → AgreesWith found c))
      (kind : w'.kind c = (shared, w.filePage c, w.byteCount c)) : Publishes w shared c w'

theorem publishPage_publishes {w : World} (inv : Inv w) {file : File} {c : PageId}
    {rest : List PageId} (pending : Pending w file (c :: rest)) {shared : Bool}
    (vnode : shared = true → file.immutable = false) (images : BitVec 64 → Option PageBytes) :
    Publishes w shared c (publishPage file shared images w c) := by
  have here := List.mem_cons_self (a := c) (l := rest)
  obtain ⟨offset, page⟩ := pending.page c here
  have own : (w.heap c).fileOffset = offset := filePage_offset page
  unfold publishPage
  dsimp only
  generalize key_eq : filePageKey file (w.heap c).fileOffset (w.heap c).fileByteCount shared = key
  have keyed : w.filePage c = some key.page := by
    rw [← key_eq, filePageKey_page, own]
    exact page
  generalize GuestPageBacking.overlayPending _ _ _ = overlaid
  have finds := findPage_finds w key
  generalize w.findPage key = result at finds ⊢
  obtain ⟨found, hit⟩ := result
  have before := finds.shrinks
  cases hit with
  | none =>
    dsimp only
    have kind := before.kind c
    have makes : Makes found (found.setPage c
        { w.heap c with sharedVnode := shared, bytes := overlaid }) key c :=
      { next := Nat.le_refl _
        lt := before.next ▸ pending.lt c here
        unshared := fun shared => pending.unshared c here ((kind_eq kind).1.mp shared)
        heap := fun q other => Function.update_of_ne other _ _
        live := fun q alive => .inl alive
        vnodes := rfl
        records := rfl
        resident := rfl
        prepared := rfl
        candidate := fun member =>
          pending.candidate c here ((before.prepared.flatMap (·.pages)).subset member)
        indexed := by
          intro index member
          have indexed := inv.indexed _ (before.indexed _ member)
          exact Option.some.inj (indexed.symm.trans keyed)
        kind := by
          rw [World.kind]
          simp only [setPage, Function.update_self]
          rw [← keyed]
          subst key
          rfl }
    have known : key.sharedVnode = shared := key_eq ▸ rfl
    have image : key.sharedVnode = true → key.immutableSnapshot = false := by
      intro asks
      rw [← key_eq]
      exact vnode (known.symm.trans asks)
    have missed : key.sharedVnode = true → Missed found key :=
      fun asks => finds.alone inv asks rfl
    refine .adopted before (makes.adds image missed) ?_ ?_
    · have sound := makes.sound (before.inv inv) image missed
      refine ⟨sound.inv, fun one agree => sound.one one fun asks q alive sharedQ same => ?_⟩
      obtain ⟨_, filePage, count⟩ := kind_eq kind
      have counted : key.byteCount = w.byteCount c := key_eq ▸ rfl
      rw [counted, ← count]
      exact agree (known.symm.trans asks) q alive sharedQ
        (same.trans (filePage.trans keyed).symm)
    · rw [insertPage_kind, makes.kind, known, ← keyed]
      subst key
      rfl
  | some p =>
    dsimp only
    refine .dropped (before.trans ?_)
    split
    · have read : Shrinks found (found.setPage p
          { found.heap p with bytes := overlaid, fileBacking := none }) := setPage_shrinks rfl
      exact read.trans (release_shrinks _ p)
    · exact release_shrinks found p

/-- The candidates agree with the live pages and with each other. -/
def BatchAgrees (w : World) (batch : List PageId) : Prop :=
  ∀ c ∈ batch, AgreesWith w c ∧ ∀ d ∈ batch, w.filePage d = w.filePage c →
    w.byteCount d = w.byteCount c

theorem Shrinks.agreesWith {w w' : World} {c : PageId} (shrinks : Shrinks w w')
    (agrees : AgreesWith w c) : AgreesWith w' c := by
  obtain ⟨_, filePage, counts⟩ := kind_eq (shrinks.kind c)
  intro q alive shared same
  obtain ⟨sharing, filePage', counts'⟩ := kind_eq (shrinks.kind q)
  rw [counts, counts']
  rw [filePage, filePage'] at same
  exact agrees q (shrinks.live q alive) (sharing.mp shared) same

theorem Shrinks.pending {w w' : World} {file : File} {rest : List PageId}
    (shrinks : Shrinks w w') (pending : Pending w file rest) : Pending w' file rest where
  lt c member := shrinks.next ▸ pending.lt c member
  unshared c member shared :=
    pending.unshared c member ((kind_eq (shrinks.kind c)).1.mp shared)
  page c member := by
    rw [(kind_eq (shrinks.kind c)).2.1]
    exact pending.page c member
  candidate c member inside :=
    pending.candidate c member ((shrinks.prepared.flatMap (·.pages)).subset inside)
  nodup := pending.nodup

theorem Shrinks.batchAgrees {w w' : World} {batch : List PageId} (shrinks : Shrinks w w')
    (agrees : BatchAgrees w batch) : BatchAgrees w' batch := by
  intro c member
  obtain ⟨others, each⟩ := agrees c member
  refine ⟨shrinks.agreesWith others, fun d inside same => ?_⟩
  obtain ⟨_, pageC, countC⟩ := kind_eq (shrinks.kind c)
  obtain ⟨_, pageD, countD⟩ := kind_eq (shrinks.kind d)
  rw [pageC, pageD] at same
  rw [countC, countD]
  exact each d inside same

theorem Publishes.step {w w' : World} {file : File} {shared : Bool} {c : PageId}
    {rest : List PageId} (publishes : Publishes w shared c w') (inv : Inv w)
    (pending : Pending w file (c :: rest)) :
    Sound w w' (shared = true → BatchAgrees w (c :: rest)) ∧ Pending w' file rest ∧
      ((shared = true → BatchAgrees w (c :: rest)) → shared = true → BatchAgrees w' rest) := by
  have tail : Pending w file rest :=
    { lt := fun d member => pending.lt d (List.mem_cons_of_mem _ member)
      unshared := fun d member => pending.unshared d (List.mem_cons_of_mem _ member)
      page := fun d member => pending.page d (List.mem_cons_of_mem _ member)
      candidate := fun d member => pending.candidate d (List.mem_cons_of_mem _ member)
      nodup := (List.nodup_cons.mp pending.nodup).2 }
  have shorter : BatchAgrees w (c :: rest) → BatchAgrees w rest := by
    intro agrees d member
    obtain ⟨others, each⟩ := agrees d (List.mem_cons_of_mem _ member)
    exact ⟨others, fun e inside => each e (List.mem_cons_of_mem _ inside)⟩
  cases publishes with
  | dropped shrinks =>
    exact ⟨shrinks.sound inv _, shrinks.pending tail,
      fun agrees asks => shrinks.batchAgrees (shorter (agrees asks))⟩
  | @adopted found w' before adds sound kind =>
    have other : ∀ d ∈ rest, d ≠ c := by
      rintro d member rfl
      exact (List.nodup_cons.mp pending.nodup).1 member
    have pending' := before.pending tail
    refine ⟨sound.after before fun agrees asks => ?_, ?_, fun agrees asks d member => ?_⟩
    · exact before.agreesWith (agrees asks c List.mem_cons_self).1
    · refine ⟨fun d member => ?_, fun d member shared' => ?_, fun d member => ?_,
        fun d member inside => ?_, pending'.nodup⟩
      · exact Nat.lt_of_lt_of_le (pending'.lt d member) adds.next
      · exact pending'.unshared d member ((kind_eq (adds.kind d (other d member))).1.mp shared')
      · rw [(kind_eq (adds.kind d (other d member))).2.1]
        exact pending'.page d member
      · exact pending'.candidate d member ((adds.prepared.flatMap (·.pages)).subset inside)
    · obtain ⟨_, pageD, countD⟩ := kind_eq (adds.kind d (other d member))
      obtain ⟨_, pageD', countD'⟩ := kind_eq (before.kind d)
      obtain ⟨others, each⟩ := agrees asks d (List.mem_cons_of_mem _ member)
      have facts := kind
      simp only [World.kind, Prod.mk.injEq] at facts
      obtain ⟨_, pageC, countC⟩ := facts
      refine ⟨fun q alive sharedQ same => ?_, fun e inside same => ?_⟩
      · rw [countD, countD']
        rw [pageD, pageD'] at same
        by_cases here : q = c
        · subst q
          exact countC.trans (each c List.mem_cons_self (pageC.symm.trans same))
        · obtain ⟨old, sharing, pageQ, countQ⟩ := adds.before alive sharedQ here
          obtain ⟨sharing', pageQ', countQ'⟩ := kind_eq (before.kind q)
          rw [countQ, countQ']
          rw [pageQ, pageQ'] at same
          exact others q (before.live q old) (sharing'.mp sharing) same
      · obtain ⟨_, pageE, countE⟩ := kind_eq (adds.kind e (other e inside))
        obtain ⟨_, pageE', countE'⟩ := kind_eq (before.kind e)
        rw [countD, countD', countE, countE']
        rw [pageD, pageD', pageE, pageE'] at same
        exact each e (List.mem_cons_of_mem _ inside) same

theorem publish_sound {file : File} {shared : Bool}
    (vnode : shared = true → file.immutable = false) (images : BitVec 64 → Option PageBytes)
    {w : World} (inv : Inv w) {batch : List PageId} (pending : Pending w file batch) :
    Sound w (batch.foldl (publishPage file shared images) w)
      (shared = true → BatchAgrees w batch) := by
  induction batch generalizing w with
  | nil => exact (Shrinks.refl w).sound inv _
  | cons c rest ih =>
    obtain ⟨sound, pending', agrees⟩ :=
      (publishPage_publishes inv pending vnode images).step inv pending
    have later := ih sound.inv pending'
    exact ⟨later.inv, fun one agree => later.one (sound.one one agree) (agrees agree)⟩

theorem releaseAll_shrinks (pages : List PageId) (w : World) :
    Shrinks w (pages.foldl release w) := by
  induction pages generalizing w with
  | nil => exact .refl w
  | cons p rest ih => exact (release_shrinks w p).trans (ih (w.release p))

/-- A batch that leaves the queue is known to nobody else. -/
theorem take_pending {w : World} (inv : Inv w) {index : Nat} {batch : PreparedFilePages}
    (here : w.prepared[index]? = some batch) :
    Shrinks w { w with prepared := w.prepared.eraseIdx index, held := batch.pages ++ w.held } ∧
      Pending { w with prepared := w.prepared.eraseIdx index, held := batch.pages ++ w.held }
        batch.mapping.backing batch.pages := by
  obtain ⟨bound, rfl⟩ := List.getElem?_eq_some_iff.mp here
  have inside := List.getElem_mem bound
  have apart : (w.prepared[index].pages ++ (w.prepared.eraseIdx index).flatMap (·.pages)).Nodup := by
    have moved := (List.getElem_cons_eraseIdx_perm bound).flatMap_right PreparedFilePages.pages
    exact moved.nodup_iff.mpr inv.distinct
  have queued : ∀ c ∈ w.prepared[index].pages, w.live c = true := fun c member =>
    (live_iff w c).mpr (.inr (.inr (.inl (List.mem_flatMap.mpr ⟨_, inside, member⟩))))
  have fewer := List.eraseIdx_sublist w.prepared index
  constructor
  · refine
      { next := rfl, kind := fun _ => rfl, indexed := fun _ member => member
        live := ?_, keeps := fun _ member _ => member, recorded := fun _ member => member
        prepared := fewer
        mapped := fun r member writable => ⟨r, member, writable, rfl, rfl, rfl, id⟩ }
    intro p alive
    obtain page | mapped | candidate | holder := (live_iff _ p).mp alive
    · exact (live_iff w p).mpr (.inl page)
    · exact (live_iff w p).mpr (.inr (.inl mapped))
    · have before := (fewer.flatMap (·.pages)).subset candidate
      exact (live_iff w p).mpr (.inr (.inr (.inl before)))
    · obtain taken | before := List.mem_append.mp holder
      · exact queued p taken
      · exact live_of_held w before
  · exact
      { lt := fun c member => inv.live_lt c (queued c member)
        unshared := fun c member => (inv.unpublished _ inside c member).1
        page := fun c member => (inv.unpublished _ inside c member).2
        candidate := fun c member again => (List.nodup_append.mp apart).2.2 c member c again rfl
        nodup := (List.nodup_append.mp apart).1 }

theorem shared_vnode (mapping : FileMapping) (shared : mapping.shared = true) :
    mapping.backing.immutable = false :=
  mapping.shares_vnode (of_decide_eq_true shared)

theorem commit_sound {w : World} (inv : Inv w) (index : Nat)
    (images : BitVec 64 → Option PageBytes) :
    Sound w (w.commit index images) (∀ batch, w.prepared[index]? = some batch →
      batch.mapping.shared = true → BatchAgrees w batch.pages) := by
  unfold commit
  cases here : w.prepared[index]? with
  | none => exact (Shrinks.refl w).sound inv _
  | some batch =>
    dsimp only
    obtain ⟨before, pending⟩ := take_pending inv here
    have published := publish_sound (shared_vnode batch.mapping) images
      (before.inv inv) pending
    have sound := (published.shrinks (maintainPages_shrinks _)).shrinks
      (releaseAll_shrinks batch.pages _)
    exact sound.after before fun agrees asks => before.batchAgrees (agrees batch rfl asks)

theorem discard_shrinks (w : World) (index : Nat) : Shrinks w (w.discard index) where
  next := rfl
  kind _ := rfl
  live p alive := by
    obtain page | mapped | candidate | holder := (live_iff _ p).mp alive
    · exact (live_iff w p).mpr (.inl page)
    · exact (live_iff w p).mpr (.inr (.inl mapped))
    · have before := ((List.eraseIdx_sublist w.prepared index).flatMap (·.pages)).subset candidate
      exact (live_iff w p).mpr (.inr (.inr (.inl before)))
    · exact live_of_held w holder
  indexed _ member := member
  keeps _ member _ := member
  recorded _ member := member
  prepared := List.eraseIdx_sublist w.prepared index
  mapped r member writable := ⟨r, member, writable, rfl, rfl, rfl, id⟩

theorem needsFileRead_shrinks (w : World) (mapping : FileMapping) (offset : BitVec 64) :
    Shrinks w (w.needsFileRead mapping offset) := by
  unfold needsFileRead
  split
  · exact .refl w
  · have finds := findPage_finds w
      (filePageKey mapping.backing offset (mapping.byteCount offset) mapping.shared)
    generalize w.findPage _ = result at finds ⊢
    obtain ⟨found, hit⟩ := result
    cases hit with
    | some p => exact finds.shrinks.trans (release_shrinks found p)
    | none => exact finds.shrinks

/-- A new page without a vnode. `extra` is its record in the strong index. -/
theorem construct_adds {w : World} (inv : Inv w) (page : GuestPageBacking)
    (unshared : page.sharedVnode = false) (extra : List (Key × PageId))
    (own : ∀ r ∈ extra, r.2 = w.next ∧ r.1.sharedVnode = false) :
    Adds w { w.construct page with pages := w.pages ++ extra } w.next where
  next := Nat.le_succ _
  made := Nat.lt_succ_self _
  unshared := inv.unmade _ (Nat.le_refl _)
  kind q other := by simp only [kind, construct, Function.update_of_ne other]
  live q alive := by
    obtain ⟨key, member⟩ | mapped | candidate | holder := (live_iff _ q).mp alive
    · obtain before | new := List.mem_append.mp member
      · exact .inl (live_of_pages w before)
      · exact .inr (own _ new).1
    · exact .inl ((live_iff w q).mpr (.inr (.inl mapped)))
    · exact .inl ((live_iff w q).mpr (.inr (.inr (.inl candidate))))
    · obtain rfl | before := List.mem_cons.mp holder
      · exact .inr rfl
      · exact .inl (live_of_held w before)
  indexed entry member :=
    .inl ⟨member, fun same => absurd (inv.indexed_lt entry member) (same ▸ Nat.lt_irrefl _)⟩
  keeps _ member _ := member
  recorded r member := by
    obtain page | evicted := List.mem_append.mp member
    · obtain before | new := List.mem_append.mp page
      · exact .inl (List.mem_append_left _ before)
      · have known := own r new
        exact .inr ⟨known.1, fun asks => absurd (known.2.symm.trans asks) Bool.false_ne_true⟩
    · exact .inl (List.mem_append_right _ evicted)
  prepared := .refl _
  candidate member :=
    absurd (inv.live_lt _ ((live_iff w _).mpr (.inr (.inr (.inl member))))) (Nat.lt_irrefl _)
  mapped _ member _ := member
  shared sharing := by
    simp only [Shared, construct, Function.update_self, unshared] at sharing
    contradiction

theorem construct_sound {w : World} (inv : Inv w) (page : GuestPageBacking)
    (unshared : page.sharedVnode = false) (extra : List (Key × PageId))
    (own : ∀ r ∈ extra, r.2 = w.next ∧ r.1.sharedVnode = false) (agrees : Prop) :
    Sound w { w.construct page with pages := w.pages ++ extra } agrees := by
  have adds := construct_adds inv page unshared extra own
  refine ⟨adds.inv inv, fun one _ => adds.onePhysicalPage one fun sharing => ?_⟩
  simp only [Shared, construct, Function.update_self, unshared] at sharing
  contradiction

theorem intern_sound {w : World} (inv : Inv w) (digest : BitVec 256) (bytes : PageBytes)
    (agrees : Prop) : Sound w (w.internImmutablePage digest bytes).1 agrees := by
  unfold internImmutablePage
  dsimp only
  generalize key_eq : ({ contentIdentity := digest, byteCount := 4096, immutableSnapshot := true
                         derivedImmutable := true } : Key) = key
  have finds := findPage_finds w key
  generalize w.findPage key = result at finds ⊢
  obtain ⟨found, hit⟩ := result
  have before := finds.shrinks
  cases hit with
  | some cached =>
    dsimp only
    split
    · exact before.sound inv _
    · have released := before.trans (release_shrinks found cached)
      have made := construct_sound (released.inv inv) { bytes } rfl []
        (fun _ impossible => nomatch impossible) agrees
      rw [List.append_nil] at made
      exact made.after released id
  | none =>
    dsimp only
    have made := construct_sound (before.inv inv) { bytes } rfl [(key, found.next)]
      (fun r member => by
        obtain rfl := List.mem_singleton.mp member
        exact ⟨rfl, key_eq ▸ rfl⟩) agrees
    exact (made.shrinks (evict_shrinks _)).after before id

theorem reflectDescriptorWrite_shrinks (w : World) (device inode offset : BitVec 64)
    (bytes : List Byte) : Shrinks w (w.reflectDescriptorWrite device inode offset bytes) := by
  unfold reflectDescriptorWrite
  split
  · exact .refl w
  · refine
      { next := rfl
        kind := ?_
        live := fun _ alive => alive
        indexed := fun _ member => List.mem_of_mem_filter member
        keeps := ?_
        recorded := fun _ member => member
        prepared := .refl _
        mapped := fun r member writable => ⟨r, member, writable, rfl, rfl, rfl, id⟩ }
    · intro p
      simp only [kind]
      split <;> rfl
    · intro entry member alive
      have kept : w.live entry.2 = true := alive
      exact List.mem_filter.mpr ⟨member, by rw [kept, Bool.or_true]⟩

/-- Entries that only lose permissions keep the pages they had. -/
theorem resident_shrinks {w : World} {resident : List Resident}
    (owned : ∀ r ∈ resident, w.live r.page = true)
    (mapped : ∀ r ∈ resident, r.sharedWritable = true → ∃ q ∈ w.resident,
      q.sharedWritable = true ∧ q.page = r.page ∧ q.mapping = r.mapping
        ∧ q.fileOffset = r.fileOffset ∧ (q.fileCached = false → r.fileCached = false)) :
    Shrinks w { w with resident } where
  next := rfl
  kind _ := rfl
  live p alive := by
    obtain page | ⟨r, member, rfl⟩ | rest := (live_iff _ p).mp alive
    · exact (live_iff w p).mpr (.inl page)
    · exact owned r member
    · exact (live_iff w p).mpr (.inr (.inr rest))
  indexed _ member := member
  keeps _ member _ := member
  recorded _ member := member
  prepared := .refl _
  mapped := mapped

theorem live_of_resident (w : World) {r : Resident} (member : r ∈ w.resident) :
    w.live r.page = true :=
  (live_iff w r.page).mpr (.inr (.inl ⟨r, member, rfl⟩))

theorem setResident_shrinks (w : World) (entry : Resident) (alive : w.live entry.page = true)
    (mapped : entry.sharedWritable = true → ∃ q ∈ w.resident,
      q.sharedWritable = true ∧ q.page = entry.page ∧ q.mapping = entry.mapping
        ∧ q.fileOffset = entry.fileOffset ∧ (q.fileCached = false → entry.fileCached = false)) :
    Shrinks w (w.setResident entry) := by
  have origin : ∀ r ∈ (w.setResident entry).resident, r = entry ∨ r ∈ w.resident := by
    intro r member
    obtain ⟨q, inside, rfl⟩ := List.mem_map.mp member
    split
    · exact .inl rfl
    · exact .inr inside
  apply resident_shrinks
  · intro r member
    obtain rfl | before := origin r member
    · exact alive
    · exact live_of_resident w before
  · intro r member writable
    obtain rfl | before := origin r member
    · exact mapped writable
    · exact ⟨r, before, writable, rfl, rfl, rfl, id⟩

theorem residentAt_some {w : World} {space : Nat} {address : BitVec 32} {r : Resident}
    (found : w.residentAt space address = some r) :
    r ∈ w.resident ∧ r.space = space ∧ r.address = address := by
  have chosen := List.find?_some found
  simp only [decide_eq_true_eq] at chosen
  exact ⟨List.mem_of_find?_eq_some found, chosen⟩

theorem writableBacking_sound {w : World} (inv : Inv w) {r : Resident} (member : r ∈ w.resident)
    (agrees : Prop) : Sound w (w.writableBacking r).1 agrees := by
  unfold writableBacking
  split
  · rename_i detaches
    have made := construct_sound inv (w.heap r.page).copy rfl []
      (fun _ impossible => nomatch impossible) agrees
    rw [List.append_nil] at made
    have alive : (w.construct (w.heap r.page).copy).live w.next = true :=
      live_of_held _ List.mem_cons_self
    -- A page that detaches is not one that mappings share.
    have moved := setResident_shrinks (w.construct (w.heap r.page).copy)
      { r with page := w.next, fileCached := false, copyOnWritePossible := false }
      alive fun writable => by
        obtain cached | ⟨_, private_, _⟩ := detaches
        · have clear := (inv.mapped r member writable).1
          rw [clear] at cached
          contradiction
        · exact absurd writable private_
    exact made.shrinks (moved.trans (release_shrinks _ _))
  · have alive := live_of_resident w member
    have kept := setResident_shrinks w
      { r with fileCached := false, copyOnWritePossible := false } alive
      fun writable => ⟨r, member, writable, rfl, rfl, rfl, fun _ => rfl⟩
    exact kept.sound inv agrees

theorem store_sound {w : World} (inv : Inv w) (space : Nat) (address : BitVec 32)
    (offset : Fin guestMemoryPageSize) (byte : Byte) (agrees : Prop) :
    Sound w (w.store space address offset byte) agrees := by
  unfold store
  cases found : w.residentAt space address with
  | none => exact (Shrinks.refl w).sound inv agrees
  | some r =>
    have writable := writableBacking_sound inv (residentAt_some found).1 agrees
    exact writable.shrinks (setPage_shrinks rfl)

theorem fork_shrinks (w : World) (parent child : Nat) : Shrinks w (w.fork parent child) := by
  unfold fork
  split
  · exact .refl w
  · dsimp only
    generalize mark_eq : (fun r : Resident => if r.space = parent then
      { r with copyOnWritePossible := r.copyOnWritePossible || !r.sharedWritable } else r) = mark
    have marked : ∀ r, (mark r).page = r.page ∧ (mark r).sharedWritable = r.sharedWritable
        ∧ (mark r).mapping = r.mapping ∧ (mark r).fileOffset = r.fileOffset
        ∧ (mark r).fileCached = r.fileCached := by
      subst mark
      intro r
      dsimp only
      split <;> exact ⟨rfl, rfl, rfl, rfl, rfl⟩
    have origin : ∀ r ∈ ((w.resident.map mark).filter (fun r => r.space = parent)).map
        (fun r => { r with space := child }) ++ w.resident.map mark, ∃ q ∈ w.resident,
        r.page = q.page ∧ r.sharedWritable = q.sharedWritable ∧ r.mapping = q.mapping
          ∧ r.fileOffset = q.fileOffset ∧ r.fileCached = q.fileCached := by
      intro r member
      obtain copied | kept := List.mem_append.mp member
      · obtain ⟨p, inside, rfl⟩ := List.mem_map.mp copied
        obtain ⟨q, before, rfl⟩ := List.mem_map.mp (List.mem_of_mem_filter inside)
        exact ⟨q, before, marked q⟩
      · obtain ⟨q, before, rfl⟩ := List.mem_map.mp kept
        exact ⟨q, before, marked q⟩
    apply resident_shrinks
    · intro r member
      obtain ⟨q, before, page, _⟩ := origin r member
      exact page ▸ live_of_resident w before
    · intro r member writable
      obtain ⟨q, before, page, sharing, mapping, offset, cached⟩ := origin r member
      exact ⟨q, before, sharing ▸ writable, page.symm, mapping.symm, offset.symm,
        fun clear => cached.trans clear⟩

theorem unmap_shrinks (w : World) (space : Nat) (address : BitVec 32) :
    Shrinks w { w with
      resident := w.resident.filter fun r => !decide (r.space = space ∧ r.address = address) } := by
  apply resident_shrinks
  · exact fun r member => live_of_resident w (List.mem_of_mem_filter member)
  · exact fun r member writable =>
      ⟨r, List.mem_of_mem_filter member, writable, rfl, rfl, rfl, id⟩

theorem preparePage_adds {w : World} (inv : Inv w) (file : File) (made : List PageId)
    (read : BitVec 64 × BitVec 32 × PageBytes) :
    Adds w (preparePage file (w, made) read).1 w.next where
  next := Nat.le_succ _
  made := Nat.lt_succ_self _
  unshared := inv.unmade _ (Nat.le_refl _)
  kind q other := by simp only [kind, preparePage, Function.update_of_ne other]
  live _ alive := .inl alive
  indexed entry member :=
    .inl ⟨member, fun same => absurd (inv.indexed_lt entry member) (same ▸ Nat.lt_irrefl _)⟩
  keeps _ member _ := member
  recorded _ member := .inl member
  prepared := .refl _
  candidate member :=
    absurd (inv.live_lt _ ((live_iff w _).mpr (.inr (.inr (.inl member))))) (Nat.lt_irrefl _)
  mapped _ member _ := member
  shared sharing := by
    simp only [Shared, preparePage, Function.update_self] at sharing
    contradiction

theorem prepare_pending {w : World} (inv : Inv w) {file : File} {made : List PageId}
    (pending : Pending w file made) (reads : List (BitVec 64 × BitVec 32 × PageBytes)) :
    Sound w (reads.foldl (preparePage file) (w, made)).1 True ∧
      Pending (reads.foldl (preparePage file) (w, made)).1 file
        (reads.foldl (preparePage file) (w, made)).2 := by
  induction reads generalizing w made with
  | nil => exact ⟨(Shrinks.refl w).sound inv True, pending⟩
  | cons read rest ih =>
    have adds := preparePage_adds inv file made read
    have own : (preparePage file (w, made) read).1.filePage w.next = some (file.page read.1) := by
      simp only [filePage, preparePage, Function.update_self]
      rfl
    have unshared : ¬(preparePage file (w, made) read).1.Shared w.next := by
      simp only [Shared, preparePage, Function.update_self]
      exact Bool.false_ne_true
    have other : ∀ c ∈ made, c ≠ w.next := fun c member => Nat.ne_of_lt (pending.lt c member)
    have grown : Pending (preparePage file (w, made) read).1 file (w.next :: made) := by
      refine ⟨fun c member => ?_, fun c member shared => ?_, fun c member => ?_,
        fun c member inside => ?_, ?_⟩
      · obtain rfl | before := List.mem_cons.mp member
        · exact adds.made
        · exact Nat.lt_of_lt_of_le (pending.lt c before) adds.next
      · obtain rfl | before := List.mem_cons.mp member
        · exact unshared shared
        · exact pending.unshared c before
            ((kind_eq (adds.kind c (other c before))).1.mp shared)
      · obtain rfl | before := List.mem_cons.mp member
        · exact ⟨read.1, own⟩
        · rw [(kind_eq (adds.kind c (other c before))).2.1]
          exact pending.page c before
      · obtain rfl | before := List.mem_cons.mp member
        · exact adds.candidate inside
        · exact pending.candidate c before inside
      · exact List.nodup_cons.mpr ⟨fun member => other _ member rfl, pending.nodup⟩
    obtain ⟨sound, later⟩ := ih (adds.inv inv) grown
    refine ⟨⟨sound.inv, fun one _ => sound.one (adds.onePhysicalPage one ?_) trivial⟩, later⟩
    exact fun sharing => absurd sharing unshared

/-- A batch that is queued gives its pages an owner, and shares none. -/
theorem enqueue_sound {w : World} (inv : Inv w) {mapping : FileMapping} {pages : List PageId}
    (pending : Pending w mapping.backing pages) :
    Sound w { w with prepared := ⟨mapping, pages⟩ :: w.prepared } True := by
  have alive_before : ∀ p, World.live
      { w with prepared := ⟨mapping, pages⟩ :: w.prepared } p = true → w.Shared p →
      w.live p = true := by
    intro p alive shared
    obtain page | mapped | candidate | holder := (live_iff _ p).mp alive
    · exact (live_iff w p).mpr (.inl page)
    · exact (live_iff w p).mpr (.inr (.inl mapped))
    · obtain queued | before := List.mem_append.mp candidate
      · exact absurd shared (pending.unshared p queued)
      · exact (live_iff w p).mpr (.inr (.inr (.inl before)))
    · exact live_of_held w holder
  constructor
  · refine
      { live_lt := ?_, indexed_lt := inv.indexed_lt, recorded_lt := inv.recorded_lt
        unmade := inv.unmade, indexed := inv.indexed
        found := fun p alive shared => inv.found p (alive_before p alive shared) shared
        recorded := inv.recorded, unique := ?_, unpublished := ?_, distinct := ?_
        mapped := inv.mapped }
    · intro p alive
      obtain page | mapped | candidate | holder := (live_iff _ p).mp alive
      · exact inv.live_lt p ((live_iff w p).mpr (.inl page))
      · exact inv.live_lt p ((live_iff w p).mpr (.inr (.inl mapped)))
      · obtain queued | before := List.mem_append.mp candidate
        · exact pending.lt p queued
        · exact inv.live_lt p ((live_iff w p).mpr (.inr (.inr (.inl before))))
      · exact inv.live_lt p (live_of_held w holder)
    · intro p q aliveP aliveQ sharedP sharedQ
      exact inv.unique p q (alive_before p aliveP sharedP) (alive_before q aliveQ sharedQ)
        sharedP sharedQ
    · intro batch member c inside
      obtain rfl | before := List.mem_cons.mp member
      · exact ⟨pending.unshared c inside, pending.page c inside⟩
      · exact inv.unpublished batch before c inside
    · refine List.nodup_append.mpr ⟨pending.nodup, inv.distinct, ?_⟩
      rintro c member d inside rfl
      exact pending.candidate c member inside
  · intro one _ p q aliveP aliveQ sharedP sharedQ
    exact one p q (alive_before p aliveP sharedP) (alive_before q aliveQ sharedQ) sharedP sharedQ

theorem prepare_sound {w : World} (inv : Inv w) (mapping : FileMapping)
    (reads : List (BitVec 64 × BitVec 32 × PageBytes)) :
    Sound w (w.prepare mapping reads) True := by
  have nothing : Pending w mapping.backing [] := by
    constructor <;> simp
  obtain ⟨sound, pending⟩ := prepare_pending inv nothing reads
  unfold prepare
  dsimp only
  have reversed : Pending _ mapping.backing _ :=
    { lt := fun c member => pending.lt c (List.mem_reverse.mp member)
      unshared := fun c member => pending.unshared c (List.mem_reverse.mp member)
      page := fun c member => pending.page c (List.mem_reverse.mp member)
      candidate := fun c member => pending.candidate c (List.mem_reverse.mp member)
      nodup := List.nodup_reverse.mpr pending.nodup }
  have queued := enqueue_sound sound.inv reversed
  exact ⟨queued.inv, fun one agree => queued.one (sound.one one agree) agree⟩

/-- The entry of a page that is loaded. -/
theorem install_sound {w : World} (inv : Inv w) (entry : Resident)
    (alive : w.live entry.page = true)
    (mapped : entry.sharedWritable = true → entry.fileCached = false ∧ w.Shared entry.page
      ∧ w.filePage entry.page = some (entry.mapping.backing.page entry.fileOffset))
    (agrees : Prop) : Sound w { w with resident := entry :: w.resident } agrees := by
  have alive_before : ∀ p, World.live { w with resident := entry :: w.resident } p = true →
      w.live p = true := by
    intro p alive'
    obtain page | ⟨r, member, rfl⟩ | rest := (live_iff _ p).mp alive'
    · exact (live_iff w p).mpr (.inl page)
    · obtain rfl | before := List.mem_cons.mp member
      · exact alive
      · exact live_of_resident w before
    · exact (live_iff w p).mpr (.inr (.inr rest))
  constructor
  · exact
      { live_lt := fun p alive => inv.live_lt p (alive_before p alive)
        indexed_lt := inv.indexed_lt, recorded_lt := inv.recorded_lt, unmade := inv.unmade
        indexed := inv.indexed
        found := fun p alive => inv.found p (alive_before p alive)
        recorded := inv.recorded
        unique := fun p q aliveP aliveQ =>
          inv.unique p q (alive_before p aliveP) (alive_before q aliveQ)
        unpublished := inv.unpublished, distinct := inv.distinct
        mapped := fun r member writable => (List.mem_cons.mp member).elim
          (fun same => same ▸ mapped (same ▸ writable))
          (fun before => inv.mapped r before writable) }
  · exact fun one _ p q aliveP aliveQ => one p q (alive_before p aliveP) (alive_before q aliveQ)

theorem fault_sound {w : World} (inv : Inv w) (space : Nat) (address : BitVec 32)
    (mapping : FileMapping) (offset : BitVec 64) (image : PageBytes) :
    Sound w (w.fault space address mapping offset image)
      (w.residentAt space address = none → mapping.shared = true →
        Agrees w (mapping.backing.page offset) (mapping.byteCount offset)) := by
  unfold fault
  split
  · exact (Shrinks.refl w).sound inv _
  · rename_i absent
    have empty : w.residentAt space address = none := by simpa using absent
    have loads := loadPage_loads inv offset (mapping.byteCount offset)
      (shared_vnode mapping)
    dsimp only
    generalize w.loadPage mapping.backing offset (mapping.byteCount offset) mapping.shared
      = result at loads ⊢
    obtain ⟨loaded, page⟩ := result
    have materialized : Shrinks loaded
        (loaded.setPage page ((loaded.heap page).materialize image)) := by
      apply setPage_shrinks
      unfold GuestPageBacking.materialize
      split <;> rfl
    have read := loads.sound.shrinks materialized
    have held : (loaded.setPage page ((loaded.heap page).materialize image)).live page = true :=
      live_of_held _ loads.held
    have installed := install_sound read.inv
      { space, address, page, mapping, fileOffset := offset
        fileCached := !mapping.shared || mapping.needsCopy
        copyOnWritePossible := !mapping.shared || mapping.needsCopy
        sharedWritable := mapping.shared && !mapping.needsCopy } held
      (fun writable => by
        obtain ⟨shared, whole⟩ := Bool.and_eq_true_iff.mp writable
        obtain ⟨sharing, filePage⟩ := loads.shared shared
        obtain ⟨sharing', filePage', _⟩ := kind_eq (materialized.kind page)
        refine ⟨?_, sharing'.mpr sharing, filePage'.trans filePage⟩
        rw [shared, Bool.not_true, Bool.false_or]
        exact (Bool.not_eq_true' _).mp whole) True
    have released := installed.shrinks (release_shrinks _ page)
    exact ⟨released.inv, fun one agree => released.one (read.one one (agree empty)) trivial⟩

/-- Shared loads and publications ask for the byte count that the live shared pages of the
file page have: the valid length of the file's last page has not changed since. -/
def Agreeing (w : World) : Event → Prop
  | .fault space address mapping fileOffset _ =>
    w.residentAt space address = none → mapping.shared = true →
      Agrees w (mapping.backing.page fileOffset) (mapping.byteCount fileOffset)
  | .commit index _ => ∀ batch, w.prepared[index]? = some batch →
      batch.mapping.shared = true → BatchAgrees w batch.pages
  | _ => True

theorem step_sound {w : World} (inv : Inv w) (event : Event) :
    Sound w (w.step event) (w.Agreeing event) := by
  cases event with
  | fault space address mapping fileOffset image =>
    exact fault_sound inv space address mapping fileOffset image
  | prepare mapping reads => exact prepare_sound inv mapping reads
  | commit index pending => exact commit_sound inv index pending
  | discard index => exact (discard_shrinks w index).sound inv _
  | needsFileRead mapping fileOffset =>
    exact (needsFileRead_shrinks w mapping fileOffset).sound inv _
  | erasePath path => exact (erasePath_shrinks w path).sound inv _
  | intern digest bytes => exact intern_sound inv digest bytes _
  | release page => exact (release_shrinks w page).sound inv _
  | descriptorWrite device inode fileOffset bytes =>
    exact (reflectDescriptorWrite_shrinks w device inode fileOffset bytes).sound inv _
  | store space address offset byte => exact store_sound inv space address offset byte _
  | unmap space address => exact (unmap_shrinks w space address).sound inv _
  | fork parent child => exact (fork_shrinks w parent child).sound inv _

/-- A write through one shared mapping is read through every other of the file page. -/
def SharedWritesSeen (w : World) : Prop :=
  ∀ space address space' address' r r', w.residentAt space address = some r →
    w.residentAt space' address' = some r' → r.sharedWritable = true → r'.sharedWritable = true →
    r.filePage = r'.filePage → ∀ offset byte,
      (w.store space address offset byte).readByte space' address' offset = some byte

theorem residentAt_setResident {w : World} {space : Nat} {address : BitVec 32}
    {r' : Resident} (entry : Resident) (found : w.residentAt space address = some r') :
    (w.setResident entry).residentAt space address =
      some (if r'.space = entry.space ∧ r'.address = entry.address then entry else r') := by
  unfold residentAt setResident at *
  rw [List.find?_map]
  have same : ((fun r : Resident => decide (r.space = space ∧ r.address = address)) ∘ fun r =>
      if r.space = entry.space ∧ r.address = entry.address then entry else r) =
      fun r => decide (r.space = space ∧ r.address = address) := by
    funext r
    dsimp only [Function.comp_apply]
    split
    · rename_i here
      rw [here.1, here.2]
    · rfl
  rw [same, found]
  rfl

theorem sharedWritesSeen_of_one {w : World} (inv : Inv w) (one : OnePhysicalPage w) :
    SharedWritesSeen w := by
  intro space address space' address' r r' here there sharing sharing' pages offset byte
  obtain ⟨member, _, _⟩ := residentAt_some here
  obtain ⟨member', _, _⟩ := residentAt_some there
  obtain ⟨clear, shared, page⟩ := inv.mapped r member sharing
  obtain ⟨_, shared', page'⟩ := inv.mapped r' member' sharing'
  have same : r'.page = r.page :=
    one r'.page r.page (live_of_resident w member') (live_of_resident w member) shared' shared
      (page'.trans ((congrArg some pages.symm).trans page.symm))
  -- A shared page is written in place.
  have inPlace : w.writableBacking r =
      (w.setResident { r with fileCached := false, copyOnWritePossible := false }, r.page) := by
    unfold writableBacking
    rw [if_neg]
    rintro (cached | ⟨_, private_, _⟩)
    · rw [clear] at cached
      contradiction
    · exact private_ sharing
  have readable := residentAt_setResident
    { r with fileCached := false, copyOnWritePossible := false } there
  unfold store
  rw [here]
  dsimp only
  rw [inPlace]
  unfold readByte
  change ((World.residentAt (w.setResident _) space' address').map _) = _
  rw [readable]
  split
  · simp [setPage]
  · simp [setPage, same]

theorem empty_dead (maximumPages : Nat) (p : PageId) :
    ({ maximumPages } : World).live p = false := rfl

theorem empty_inv (maximumPages : Nat) : Inv { maximumPages } where
  live_lt _ alive := nomatch alive
  indexed_lt _ member := nomatch member
  recorded_lt _ member := nomatch member
  unmade _ _ shared := nomatch shared
  indexed _ member := nomatch member
  found _ alive := nomatch alive
  recorded _ member := nomatch member
  unique _ _ alive := nomatch alive
  unpublished _ member := nomatch member
  distinct := .nil
  mapped _ member := nomatch member

theorem empty_one (maximumPages : Nat) : OnePhysicalPage { maximumPages } :=
  fun _ _ alive => nomatch alive

end World

open World

/-- In every run from the empty cache in which the byte counts agree, the live pages that
mappings of one file page share are one page. -/
theorem shared_file_pages_unique (maximumPages : Nat) (events : List Event)
    (agreeing : Along World.step Agreeing { maximumPages } events) :
    Throughout World.step (fun w => OnePhysicalPage w ∧ SharedWritesSeen w)
      { maximumPages } events := by
  have preserves : ∀ w event, World.Inv w → World.Inv (w.step event) :=
    fun w event inv => (step_sound inv event).inv
  have one : Throughout World.step OnePhysicalPage { maximumPages } events :=
    agreeing.throughout preserves (fun w event inv one => (step_sound inv event).one one)
      (empty_inv maximumPages) (empty_one maximumPages)
  refine (throughout_congr preserves (fun w inv => ?_) (empty_inv maximumPages) events).mp one
  exact ⟨fun one => ⟨one, sharedWritesSeen_of_one inv one⟩, And.left⟩

/-- A file of 100 bytes at its first mapping. -/
def shortFile : FileMapping where
  backing :=
    { cachePath := "f", generation := { device := 1, inode := 7, fileSize := 100 }
      endOffset := 100 }
  mode := .sharedFile
  shares_vnode _ := rfl

/-- The same file, grown to a whole page. -/
def grownFile : FileMapping where
  backing :=
    { cachePath := "f", generation := { device := 1, inode := 7, fileSize := 4096 }
      endOffset := 4096 }
  mode := .sharedFile
  shares_vnode _ := rfl

/-- Two address spaces map the same short file, and one writes to it. -/
def mappedTwice : List Event :=
  [.fault 0 0x1000 shortFile 0 (fun _ => 0), .fault 1 0x5000 shortFile 0 (fun _ => 0),
    .store 0 0x1000 3 65]

theorem shared_file_pages_unique_mapped_twice :
    Along World.step Agreeing { maximumPages := 32768 } mappedTwice ∧
      Throughout World.step (fun w => OnePhysicalPage w ∧ SharedWritesSeen w)
        { maximumPages := 32768 } mappedTwice := by
  have agreeing : Along World.step Agreeing { maximumPages := 32768 } mappedTwice := by
    refine ⟨fun _ _ q alive => ?_, fun _ _ q alive _ _ => ?_, trivial, trivial⟩
    · contradiction
    have first : q = 0 := by
      obtain ⟨key, member⟩ | ⟨r, member, rfl⟩ | member | member := (live_iff _ q).mp alive
      · exact congrArg Prod.snd (List.mem_singleton.mp member)
      · exact congrArg Resident.page (List.mem_singleton.mp member)
      · contradiction
      · contradiction
    subst q
    rfl
  exact ⟨agreeing, shared_file_pages_unique 32768 mappedTwice agreeing⟩

/-- The second mapping is made after the file grew. -/
def mappedAfterGrowth : List Event :=
  [.fault 0 0x1000 shortFile 0 (fun _ => 0), .fault 1 0x5000 grownFile 0 (fun _ => 0)]

/-- After the growth the file page has two live pages, and a write to one is not seen. -/
theorem grown_file_two_pages : ¬∀ (maximumPages : Nat) (events : List Event),
    Throughout World.step (fun w => OnePhysicalPage w ∧ SharedWritesSeen w)
      { maximumPages } events := by
  intro claimed
  have seen := (claimed 32768 mappedAfterGrowth).last.2
  have byte := seen 0 0x1000 1 0x5000 _ _ rfl rfl rfl rfl rfl 3 65
  have stale : ((run World.step { maximumPages := 32768 } mappedAfterGrowth).store
      0 0x1000 3 65).readByte 1 0x5000 3 = some 0 := by decide +kernel
  rw [stale] at byte
  contradiction

end ILEmu.Memory.FilePageCache
