import ILEmu.Memory.AddressSpaceWrites

/-! The moves of the operations that share pages, track their writes, overlay their instructions
and import the pages of others. -/
namespace ILEmu.AddressSpace
open Foundation
open Memory.FilePageCache (Byte PageBytes guestMemoryPageSize)
namespace World
variable {Cache : Type} (pager : FilePager Cache) {w w' : World Cache} {i j k l : Nat} {b : BackingId}

section Silent
variable {pager}

theorem Moves.trackShared (b : BackingId) (aliased : Bool) (sharing : Sharing) :
    Moves pager i [] w (w.trackShared i k b aliased sharing).1 := by
  simp only [World.trackShared]
  split
  · exact .enableSharedWriteTracking b
  · exact .refl w

theorem Moves.edit_mappings {change : AddressSpace → AddressSpace}
    (same : (change (w.spaces i)).mappings = (w.spaces i).mappings) :
    Moves pager i [] w (w.edit i change) :=
  .quiet pager (.of_mappings same)

theorem Moves.refreshJitPageRange (heap : PageHeap) (first stop : Nat) :
    Moves pager i [] w (w.edit i (AddressSpace.refreshJitPageRange heap first stop)) :=
  .edit_mappings mappings_refreshJitPageRange

end Silent

/-! ### Tracked ranges and overlays -/

theorem trackPage_moves (state : World Cache × Sharing) :
    Moves pager i [] state.1 (trackPage i state k).1 := by
  obtain ⟨w, sharing⟩ := state
  have noted : Moves pager i [] w
      (w.edit i fun s => { s with writeTrackedPages := insert k s.writeTrackedPages }) :=
    .quiet pager { Quiet.refl (w.spaces i) with }
  simp only [trackPage]
  split
  · exact noted
  · exact noted.silent pager (.trackShared _ _ _)

theorem trackPages_moves (pages : List Nat) (state : World Cache × Sharing) :
    Moves pager i [] state.1 (pages.foldl (trackPage i) state).1 := by
  induction pages generalizing state with
  | nil => exact .refl _
  | cons k rest ih => exact (trackPage_moves pager state).silent pager (ih _)

theorem trackWriteGeneration_moves (address : BitVec 32) (size : Nat) :
    Moves pager i [] w (w.trackWriteGeneration i address size).1 := by
  simp only [trackWriteGeneration]
  split
  · exact .refl w
  · have tracked := trackPages_moves pager (i := i) (pagesOf address size) (w, {})
    generalize (pagesOf address size).foldl (trackPage i) (w, {}) = state at tracked ⊢
    refine Moves.silent pager ?_ (.refreshJitPageRange _ _ _)
    split
    · exact tracked.silent pager (.finishSharedWriteTracking _ _ _)
    · exact tracked

theorem publishWrites_moves : Moves pager i [] w (publishWrites i w k) := by
  simp only [publishWrites]
  split
  · exact .refl w
  · rename_i b found
    have stamped : Moves pager i [] w (w.edit i (setWriteGeneration k)) :=
      .quiet pager .setWriteGeneration
    refine stamped.silent pager (.tracking w.sharedWriteTrackingEpoch rfl ?_)
    exact modify_same fun _ => ⟨rfl, rfl⟩

theorem publishAll_moves (pages : List Nat) :
    Moves pager i [] w (pages.foldl (publishWrites i) w) := by
  induction pages generalizing w with
  | nil => exact .refl _
  | cons k rest ih => exact (publishWrites_moves pager).silent pager ih

theorem publishWriteGeneration_moves (address : BitVec 32) (size : Nat) :
    Moves pager i [] w (w.publishWriteGeneration i address size).1 := by
  simp only [publishWriteGeneration]
  split
  · exact .refl w
  · split
    · exact .refl w
    · have counted : Moves pager i [] w
          (w.edit i fun s => { s with writeGeneration := s.writeGeneration + 1 }) :=
        .quiet pager (.counted _)
      exact counted.silent pager (publishAll_moves pager _)

theorem overlayInstructions_moves (operations : List (BitVec 32 × List Byte)) :
    Moves pager i [] w (w.overlayInstructions i operations).1 := by
  simp only [overlayInstructions]
  split
  · exact .refl w
  · split
    · exact .refl w
    · dsimp only
      refine Moves.quiet pager ?_
      exact .foldl (fun _ _ => .overlayPage _) _ _

/-! ### Pages that are shared -/

theorem publishPage_moves (kept : Kept pager i w) (mapped : MapsPage (w.spaces i).vmMap k)
    (ensured : w.Ensured i k) :
    Moves pager i [.share k] w (w.publishPage pager i k) ∧
      ((w.publishPage pager i k).page i k).backing.isSome ∧
      ((w.publishPage pager i k).page i k).sharedWritable = true := by
  have own := ownPage_moves pager kept mapped ensured published [.share k]
    (fun _ _ => rfl) (fun _ _ _ => rfl) (fun w₁ b fit contents _ => .share contents rfl)
  have shared (w₁ : World Cache) (b : BackingId) (page : Page) :
      ((w₁.edit i (placed k (published b page))).page i k).backing.isSome ∧
        ((w₁.edit i (placed k (published b page))).page i k).sharedWritable = true := by
    rw [page_placed, if_pos ⟨rfl, rfl⟩]
    exact ⟨rfl, rfl⟩
  simp only [publishPage]
  cases found : (w.page i k).backing with
  | none =>
    rw [found] at own
    have absent : ((w.construct {}).page i k).backing = none := found
    have some : (published w.heap.next (w.page i k)).backing.isSome := rfl
    dsimp only
    rw [recordResidentPage_setPage absent some]
    exact ⟨own, shared _ _ _⟩
  | some b =>
    rw [found] at own
    have present : (w.page i k).backing.isSome := by rw [found]; rfl
    dsimp only
    split
    · have present' : ((w.construct (w.heap.pages b).copy).page i k).backing.isSome := present
      rw [setPage_placed (.inl present')]
      exact ⟨own.1, shared _ _ _⟩
    · rename_i keeps
      rw [setPage_placed (.inl present)]
      refine ⟨own.2 ?_, shared _ _ _⟩
      simpa [Renewed, and_assoc] using keeps

/-- The page is shared, and has a backing. -/
def Published (w : World Cache) (i k : Nat) : Prop :=
  (w.page i k).backing.isSome ∧ (w.page i k).sharedWritable = true

theorem Frame.published (frame : Frame i w w') (published : w.Published i k) : w'.Published i k :=
  ⟨frame.keeps k published.1, frame.shares k published.1 published.2⟩

theorem sharePage_moves (sharing : Sharing) (kept : Kept pager i w)
    (mapped : MapsPage (w.spaces i).vmMap k) (ensured : w.Ensured i k) :
    Moves pager i [.share k] w (sharePage pager i (w, sharing) k).1 ∧
      (sharePage pager i (w, sharing) k).1.Published i k := by
  obtain ⟨moves, backed, shared⟩ := publishPage_moves pager kept mapped ensured
  have published : (w.publishPage pager i k).Published i k := ⟨backed, shared⟩
  have marked : Moves pager i [] (w.publishPage pager i k)
      (if (w.page i k).instructions.isSome = true then
        (w.publishPage pager i k).markWritten i (pageAddress k) pageSize
      else w.publishPage pager i k) := by
    split
    · exact .markWritten _ _
    · exact .refl _
  simp only [sharePage]
  generalize (if (w.page i k).instructions.isSome = true then
        (w.publishPage pager i k).markWritten i (pageAddress k) pageSize
      else w.publishPage pager i k) = w₁ at marked ⊢
  have published₁ := marked.frame.published published
  have first := moves.then_silent pager marked
  split
  · exact ⟨first, published₁⟩
  · rename_i b found
    have tracked : Moves pager i [] w₁ ((w₁.trackShared i k b
        (decide (w₁.useCount pager b ≠ 1)) sharing).1.refreshJitPage i k) :=
      (Moves.trackShared b _ sharing).silent pager .refreshJitPage
    exact ⟨first.then_silent pager tracked, tracked.frame.published published₁⟩

theorem sharePages_fold {pages : List Nat} (sharing : Sharing) (kept : Kept pager i w)
    (mapped : ∀ k ∈ pages, MapsPage (w.spaces i).vmMap k) (ensured : ∀ k ∈ pages, w.Ensured i k) :
    Moves pager i (pages.map .share) w (pages.foldl (sharePage pager i) (w, sharing)).1 ∧
      ∀ k ∈ pages, (pages.foldl (sharePage pager i) (w, sharing)).1.Published i k := by
  induction pages generalizing w sharing with
  | nil => exact ⟨.refl w, fun _ => nofun⟩
  | cons k rest ih =>
    obtain ⟨first, published⟩ := sharePage_moves pager sharing kept
      (mapped k List.mem_cons_self) (ensured k List.mem_cons_self)
    have frame := first.frame
    obtain ⟨later, others⟩ := ih (sharePage pager i (w, sharing) k).2
      (first.kept pager kept)
      (fun other member => by
        rw [frame.vmMap]
        exact mapped other (List.mem_cons_of_mem k member))
      (fun other member => frame.ensured (ensured other (List.mem_cons_of_mem k member)))
    refine ⟨first.trans pager later, fun other member => ?_⟩
    rcases List.mem_cons.mp member with rfl | inner
    · exact later.frame.published published
    · exact others other inner

/-- What `share_pages_locked` does: its pages are shared, or it stops at one that is rejected. -/
theorem sharePagesLocked_moves (kept : Kept pager i w) {first stop : Nat}
    (mapped : ∀ k ∈ pagesBetween first stop, MapsPage (w.spaces i).vmMap k) :
    match (w.sharePagesLocked pager i first stop).2 with
    | none => Moves pager i [] w (w.sharePagesLocked pager i first stop).1
    | some backings =>
      Moves pager i ((pagesBetween first stop).map .share) w
          (w.sharePagesLocked pager i first stop).1 ∧
        (∀ b ∈ backings, ∃ k, ((w.sharePagesLocked pager i first stop).1.page i k).backing = some b ∧
          ((w.sharePagesLocked pager i first stop).1.page i k).sharedWritable = true) ∧
        ∀ k ∈ pagesBetween first stop, (w.sharePagesLocked pager i first stop).1.Published i k := by
  have all := ensureEach_moves pager kept mapped
  simp only [sharePagesLocked]
  cases result : ensureEach pager i (pagesBetween first stop) w with
  | mk w₁ done =>
  rw [result] at all
  cases done with
  | false => exact all.moves
  | true =>
    obtain ⟨moves, published⟩ := sharePages_fold pager {} (all.moves.kept pager kept)
      (fun k member => by
        rw [all.moves.frame.vmMap]
        exact mapped k member) (all.ensured rfl)
    have whole := all.moves.silent pager moves
    dsimp only
    generalize (pagesBetween first stop).foldl (sharePage pager i) (w₁, {}) = state
      at whole published ⊢
    have finished : Moves pager i [] state.1 (if state.2.tracked = true then
        state.1.finishSharedWriteTracking i w₁.sharedWriteTrackingEpoch state.2.transitions
          state.2.aliased
      else state.1) := by
      split
      · exact .finishSharedWriteTracking _ _ _
      · exact .refl _
    generalize (if state.2.tracked = true then
        state.1.finishSharedWriteTracking i w₁.sharedWriteTrackingEpoch state.2.transitions
          state.2.aliased
      else state.1) = w₂ at finished ⊢
    have published₂ (k : Nat) (member : k ∈ pagesBetween first stop) : w₂.Published i k :=
      finished.frame.published (published k member)
    refine ⟨whole.then_silent pager finished, fun b member => ?_, published₂⟩
    obtain ⟨k, inside, found⟩ := List.mem_filterMap.mp member
    exact ⟨k, page_backing.trans found, (published₂ k inside).2⟩

/-- The callers keep the pages that are shared. -/
theorem hold_moves {backings : List BackingId}
    (shared : ∀ b ∈ backings, ∃ k, (w.page i k).backing = some b ∧
      (w.page i k).sharedWritable = true) :
    Moves pager i [] w { w with held := backings ++ w.held } := by
  induction backings with
  | nil => exact .refl w
  | cons b rest ih =>
    have held := ih fun c member => shared c (List.mem_cons_of_mem b member)
    obtain ⟨k, found, published⟩ := shared b List.mem_cons_self
    exact held.silent pager (.single pager
      (Move.held (w := { w with held := rest ++ w.held }) k found published))

theorem ownPage_silent (kept : Kept pager i w) (mapped : MapsPage (w.spaces i).vmMap k) :
    Moves pager i [] w (w.ownPage pager i k).1 := by
  obtain ⟨moves, ensured, -⟩ := ensurePage_moves pager kept mapped
  simp only [ownPage]
  cases result : w.ensurePage pager i k with
  | mk w₁ done =>
  rw [result] at moves ensured
  cases done with
  | false => exact moves
  | true =>
    dsimp only
    split
    · exact moves
    · obtain ⟨moves', -, -⟩ := writableBacking_moves pager (moves.kept pager kept)
        (by rw [moves.frame.vmMap]; exact mapped) (ensured rfl)
      cases result' : w₁.writableBacking pager i k with
      | mk w₂ changed =>
      rw [result'] at moves'
      have both := moves.silent pager moves'
      dsimp only
      split
      · exact both.silent pager .refreshJitPage
      · exact both

theorem sharedMemoryIdentity_moves (kept : Kept pager i w) (address : BitVec 32) :
    Moves pager i [] w (w.sharedMemoryIdentity pager i address).1 := by
  simp only [sharedMemoryIdentity]
  split
  · exact .refl w
  · rename_i allowed
    have piece : PieceOf address 1 (address, []) :=
      ⟨0, Nat.one_pos, (BitVec.add_zero _).symm⟩
    have mapped := mapped_pieces kept.indexed (by simpa using allowed) piece
    have owned := ownPage_silent pager kept mapped
    cases result : w.ownPage pager i (pageIndex address) with
    | mk w₁ done =>
    rw [result] at owned
    split
    · split
      · exact .refl w
      · cases done <;> exact owned
    · cases done <;> exact owned

/-- The effects of sharing a range, or none if it is refused. -/
def SharedRange (w : World Cache) (i first stop : Nat) (w' : World Cache) : Prop :=
  Moves pager i [] w w' ∨ Moves pager i ((pagesBetween first stop).map .share) w w'

theorem sharePages_moves (kept : Kept pager i w) (address size : BitVec 32) :
    SharedRange pager w i (pageIndex address) (endPage address size.toNat)
      (w.sharePages pager i address size).1 := by
  simp only [sharePages]
  split
  · exact .inl (.refl w)
  · rename_i checked
    simp only [Bool.or_eq_true, decide_eq_true_eq, not_or] at checked
    split
    · exact .inl (.refl w)
    · rename_i allowed
      have mapped := (kept.indexed.mapped_of_accessible (by simpa using allowed)
        fun zero => checked.1.1.1 (BitVec.eq_of_toNat_eq zero)).2
      have shared := sharePagesLocked_moves pager kept mapped
      cases result : w.sharePagesLocked pager i (pageIndex address) (endPage address size.toNat) with
      | mk w₁ answer =>
      rw [result] at shared
      cases answer with
      | none => exact .inl shared
      | some backings =>
        obtain ⟨moves, held, -⟩ := shared
        exact .inr (moves.then_silent pager (hold_moves pager held))

/-- What `clippedRegions` finds has no hole. -/
theorem clippedRegions_mapped {map : VmMap} {start stop cursor rounds : Nat}
    {regions : List (Span VmRegion)} (sound : map.Sound) (paged : Vm.Paged map.point)
    (enough : stop - cursor ≤ rounds)
    (found : clippedRegions map start (stop * pageSize) rounds (cursor * pageSize) = some regions) :
    ∀ k, cursor ≤ k → k < stop → MapsPage map k := by
  induction rounds generalizing cursor regions with
  | zero =>
    intro k low high
    omega
  | succ rounds ih =>
    intro k low high
    have more : cursor < stop := low.trans_lt high
    have more' : cursor * pageSize < stop * pageSize :=
      Nat.mul_lt_mul_of_pos_right more (by decide)
    simp only [clippedRegions, if_pos more'] at found
    cases around : map.regionAtOrAfter (cursor * pageSize) with
    | none =>
      rw [around] at found
      contradiction
    | some region =>
      rw [around] at found
      dsimp only at found
      split at found
      · contradiction
      · rename_i begun
        obtain ⟨next, ends, -, further, covered⟩ :=
          region_part sound paged around (Nat.not_lt.mp begun) more
        rw [ends] at found
        obtain ⟨rest, found', -⟩ := Option.map_eq_some_iff.mp found
        by_cases here : k < next
        · rw [MapsPage, covered k low here]
          rfl
        · exact ih (by omega) found' k (Nat.not_lt.mp here) high

theorem shareMapping_moves (kept : Kept pager i w) (address size : BitVec 32) :
    SharedRange pager w i (pageIndex address) (endPage address size.toNat)
      (w.shareMapping pager i address size).1 := by
  simp only [shareMapping]
  split
  · exact .inl (.refl w)
  · rename_i checked
    simp only [Bool.or_eq_true, decide_eq_true_eq, not_or, Bool.not_eq_true, not_not] at checked
    obtain ⟨⟨⟨some, aligned⟩, whole⟩, fits⟩ := checked
    have positive : size.toNat ≠ 0 := fun zero => some (BitVec.eq_of_toNat_eq zero)
    obtain ⟨range, stop⟩ := pageRange_of positive fits
    have starts : address.toNat = pageIndex address * pageSize := by
      simp only [pageIndex, pageSize, guestMemoryPageSize] at *
      omega
    have stops : address.toNat + size.toNat = endPage address size.toNat * pageSize := by
      rw [stop]
      simp only [pageSize, guestMemoryPageSize] at *
      omega
    have rounds : endPage address size.toNat - pageIndex address ≤ size.toNat / pageSize := by
      rw [stop, pageIndex]
      simp only [pageSize, guestMemoryPageSize] at *
      omega
    rw [stops, starts]
    split
    · exact .inl (.refl w)
    · rename_i regions found
      have mapped (k : Nat) (member : k ∈ pagesBetween (pageIndex address)
          (endPage address size.toNat)) : MapsPage (w.spaces i).vmMap k :=
        clippedRegions_mapped kept.indexed.sound kept.indexed.paged rounds found k
          (mem_pagesBetween.mp member).1 (mem_pagesBetween.mp member).2
      have shared := sharePagesLocked_moves pager kept mapped
      cases result : w.sharePagesLocked pager i (pageIndex address) (endPage address size.toNat) with
      | mk w₁ answer =>
      rw [result] at shared
      cases answer with
      | none => exact .inl shared
      | some backings =>
        obtain ⟨moves, held, -⟩ := shared
        exact .inr (moves.then_silent pager (hold_moves pager held))

/-! ### The pages of a parent -/

/-- The pages of regions. -/
def regionPages (regions : List (Span VmRegion)) : List Nat :=
  regions.flatMap fun region => pagesBetween (region.start / pageSize) (region.stop / pageSize)

/-- The regions that a child shares with its parent: all of their pages are shared, or those up to
a region with a page that is rejected. -/
theorem shareRegions_moves (regions : List (Span VmRegion)) (kept : Kept pager i w)
    (inside : ∀ region ∈ regions, region ∈ (w.spaces i).vmMap.regions) :
    ∃ n, Moves pager i ((regionPages (regions.take n)).map .share) w
        (shareRegions pager i regions w).1 ∧
      ((shareRegions pager i regions w).2 = true → n = regions.length ∧
        ∀ k ∈ regionPages regions, (shareRegions pager i regions w).1.Published i k) := by
  induction regions generalizing w with
  | nil => exact ⟨0, .refl w, fun _ => ⟨rfl, fun _ => nofun⟩⟩
  | cons region rest ih =>
    have mapped (k : Nat) (member : k ∈ pagesBetween (region.start / pageSize)
        (region.stop / pageSize)) : MapsPage (w.spaces i).vmMap k := by
      obtain ⟨low, high, starts, stops, -, covered⟩ :=
        Mappings.Indexed.region kept.indexed (inside region List.mem_cons_self)
      rw [starts, stops, Nat.mul_div_cancel _ (by decide), Nat.mul_div_cancel _ (by decide)] at member
      exact Option.isSome_iff_exists.mpr ⟨_, covered k (mem_pagesBetween.mp member)⟩
    have shared := sharePagesLocked_moves pager kept mapped
    simp only [shareRegions]
    cases result : w.sharePagesLocked pager i (region.start / pageSize) (region.stop / pageSize) with
    | mk w₁ answer =>
    rw [result] at shared
    cases answer with
    | none => exact ⟨0, shared, nofun⟩
    | some backings =>
      obtain ⟨moves, -, published⟩ := shared
      obtain ⟨n, later, finished⟩ := ih (moves.kept pager kept) fun other member => by
        rw [moves.frame.vmMap]
        exact inside other (List.mem_cons_of_mem _ member)
      refine ⟨n + 1, ?_, fun done => ⟨congrArg (· + 1) (finished done).1, fun k member => ?_⟩⟩
      · rw [List.take_succ_cons, regionPages, List.flatMap_cons, List.map_append]
        exact moves.trans pager later
      · rw [regionPages, List.flatMap_cons] at member
        rcases List.mem_append.mp member with first | second
        · exact later.frame.published (published k first)
        · exact (finished done).2 k second

theorem markCopied_moves {absent : Nat → Bool} (kept : Kept pager i w)
    (mapped : MapsPage (w.spaces i).vmMap k) : Moves pager i [] w (markCopied i absent w k) := by
  simp only [markCopied]
  split
  · rename_i copied
    simp only [Bool.and_eq_true, Bool.not_eq_true'] at copied
    obtain ⟨⟨-, present⟩, own⟩ := copied
    have unshared : (w.page i k).sharedWritable ≠ true := by
      rw [own]
      exact Bool.false_ne_true
    have fit : w.Fit i k { w.page i k with copyOnWritePossible := true } := by
      exact ⟨fun _ => present, fun _ shared => absurd shared unshared, kept.owned.known i k,
        kept.owned.cached i k, fun b _ _ settled => Bool.noConfusion settled.1.2,
        fun b found _ => .inl found, fun b _ _ shared => absurd shared unshared⟩
    have marked : Moves pager i [] w
        (w.setPage i k { w.page i k with copyOnWritePossible := true }) := by
      rw [setPage_placed (.inl present)]
      exact .single pager (.placed mapped fit (.same rfl .inl (.inl rfl)))
    exact (marked.silent pager (.quiet pager (.keepTranslations _ _ _))).silent pager .refreshJitPage
  · exact .refl w

/-- A page that a child may have is copied before it is written, or shared. -/
def Marked (w : World Cache) (i : Nat) (absent : Nat → Bool) (k : Nat) : Prop :=
  (w.page i k).backing.isSome → absent k = true ∨ (w.page i k).sharedWritable = true ∨
    (w.page i k).copyOnWritePossible = true

theorem markCopied_marks {absent : Nat → Bool} (marked : l = k ∨ w.Marked i absent l) :
    (markCopied i absent w k).Marked i absent l := by
  have quiet (page : Page) : (((w.setPage i k page).edit i
      (keepTranslations k (k + 1) (7 &&& ~~~MemoryPermission.write))).refreshJitPage i k |>.page i
        l).bare = ((w.setPage i k page).page i l).bare :=
    page_refreshJitPage.trans (page_quiet (.keepTranslations _ _ _))
  have stored (page : Page) : (w.setPage i k page).page i l = if l = k then page else w.page i l := by
    simp only [World.page, setPage, edit_spaces_self, Table.lookup_insert_eq]
    split <;> rfl
  simp only [markCopied]
  split
  · intro backed
    have same := quiet { w.page i k with copyOnWritePossible := true }
    rw [stored] at same
    obtain ⟨-, shared, possible⟩ := Page.flags_of_bare same
    rw [shared, possible]
    rw [Page.backing_of_bare same] at backed
    split
    · exact .inr (.inr rfl)
    · rename_i other
      rw [if_neg other] at backed
      exact marked.resolve_left other backed
  · rename_i stays
    intro backed
    rcases marked with rfl | marked
    · simp only [Bool.and_eq_true, Bool.not_eq_true', not_and, Bool.not_eq_false] at stays
      by_cases gone : absent l = true
      · exact .inl gone
      · exact .inr (.inl (stays ⟨by simpa using gone, backed⟩))
    · exact marked backed

theorem markEach_moves (absent : Nat → Bool) (pages : List Nat) (kept : Kept pager i w)
    (mapped : ∀ k ∈ pages, MapsPage (w.spaces i).vmMap k) :
    Moves pager i [] w (pages.foldl (markCopied i absent) w) ∧
      ∀ k, k ∈ pages ∨ w.Marked i absent k → (pages.foldl (markCopied i absent) w).Marked i absent k := by
  induction pages generalizing w with
  | nil => exact ⟨.refl w, fun k marked => marked.resolve_left List.not_mem_nil⟩
  | cons k rest ih =>
    have here : Moves pager i [] w (markCopied i absent w k) :=
      markCopied_moves pager kept (mapped k List.mem_cons_self)
    obtain ⟨later, marks⟩ := ih (here.kept pager kept) fun other member => by
      rw [here.frame.vmMap]
      exact mapped other (List.mem_cons_of_mem k member)
    refine ⟨here.silent pager later, fun other either => marks other ?_⟩
    rcases either with member | marked
    · rcases List.mem_cons.mp member with rfl | inner
      · exact .inr (markCopied_marks (.inl rfl))
      · exact .inl inner
    · exact .inr (markCopied_marks (.inr marked))

end World
end ILEmu.AddressSpace
