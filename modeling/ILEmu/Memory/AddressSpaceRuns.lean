import ILEmu.Memory.AddressSpaceSteps

/-! A clone gives a task a child with its pages, each of which is copied before it is written
unless it is shared. Over any run of events the index of every space and the references to pages
stay as they should be. -/
namespace ILEmu.AddressSpace
open Foundation
open Memory.FilePageCache (Byte PageBytes)

/-! ### Children -/

/-- The highest number of resident pages starts over. -/
def peaked (s : AddressSpace) : AddressSpace :=
  { s with residentPages := { s.residentPages with maximum := s.residentPages.current } }

/-- A region of whole pages. -/
def OnPages (region : Span VmRegion) : Prop :=
  ∃ low high, region.start = low * pageSize ∧ region.stop = high * pageSize ∧ PageRange low high

section Children
variable {s : AddressSpace} {heap : PageHeap} {held : List BackingId} {region : Span VmRegion}
  {regions : List (Span VmRegion)}

theorem Indexed.childOf (indexed : s.Indexed) (epoch : Nat) :
    (peaked (World.childOf s epoch)).Indexed := by
  refine ⟨⟨indexed.pages, indexed.resident, Nat.le_refl _, indexed.tidy, indexed.filed, ?_⟩,
    indexed.sound, indexed.paged, indexed.permissions, fun k => ?_⟩
  · intro token lease found
    obtain ⟨found', -⟩ := Option.filter_eq_some_iff.mp ((Table.lookup_filter _ _ _).symm.trans found)
    exact indexed.leases token lease found'
  · exact BitVec.zero_and

/-- What a region that is not inherited takes with it. -/
theorem dropRegion_spec (onPages : OnPages region) (indexed : (peaked s).Indexed) :
    (peaked (World.dropRegion heap s region)).Indexed ∧
      Changed held (fun k => region.Contains (k * pageSize)) s (World.dropRegion heap s region) ∧
      ∀ k, (World.dropRegion heap s region).vmMap.point (k * pageSize) =
          (if region.Contains (k * pageSize) then none else s.vmMap.point (k * pageSize)) ∧
        (World.dropRegion heap s region).pageAt k =
          if region.Contains (k * pageSize) then {} else s.pageAt k := by
  obtain ⟨low, high, starts, stops, range⟩ := onPages
  have inside (k : Nat) : region.Contains (k * pageSize) ↔ low ≤ k ∧ k < high := by
    rw [Span.Contains, starts, stops, between_pages]
  have same : World.dropRegion heap s region =
      (s.invalidateMappingLeases region.start region.stop).unmapRange heap low high := by
    rw [World.dropRegion, starts, stops, Nat.mul_div_cancel _ (by decide),
      Nat.mul_div_cancel _ (by decide)]
  rw [same]
  have invalidated : (peaked (s.invalidateMappingLeases region.start region.stop)).Indexed :=
    indexed.invalidateMappingLeases region.start region.stop
  have dropped := Mappings.Indexed.without invalidated range
  have mappings : ((s.invalidateMappingLeases region.start region.stop).unmapRange heap low
      high).mappings = _ := mappings_unmapRange
  refine ⟨?_, ?_, fun k => ?_⟩
  · let left := Mappings.without low high
      (peaked (s.invalidateMappingLeases region.start region.stop)).mappings
    let residents : ResidentPageStatistics :=
      { current := left.residentPages.current, maximum := left.residentPages.current }
    have counted : residents.current = left.pages.tally fun page : Page => page.backing.isSome :=
      dropped.resident
    have stored := dropped.stored dropped.pages counted (Nat.le_refl residents.current)
    have whole (s : AddressSpace) : (peaked s).mappings = { s.mappings with
        residentPages :=
          { current := s.mappings.residentPages.current
            maximum := s.mappings.residentPages.current } } := rfl
    rw [Indexed, whole, mappings]
    exact stored
  · have unmapped : Changed held (fun k => low ≤ k ∧ k < high) _
        ((s.invalidateMappingLeases region.start region.stop).unmapRange heap low high) :=
      .unmapRange (s := s.invalidateMappingLeases region.start region.stop) indexed.tidy range
    have cleared : Changed held (fun _ => False) s
        (s.invalidateMappingLeases region.start region.stop) := .of_same rfl rfl
    exact (cleared.still unmapped).congr fun k => (inside k).symm
  · have map : ((s.invalidateMappingLeases region.start region.stop).unmapRange heap low
        high).vmMap = _ := congrArg Mappings.vmMap mappings
    rw [map, if_congr (inside k) rfl rfl, if_congr (inside k) rfl rfl]
    exact ⟨Mappings.Indexed.point_after invalidated range
      (.unmap (low * pageSize) (high * pageSize)) k rfl, pageAt_unmapRange⟩

theorem dropRegions_spec (onPages : ∀ region ∈ regions, OnPages region)
    (indexed : (peaked s).Indexed) :
    (peaked (regions.foldl (World.dropRegion heap) s)).Indexed ∧
      Changed held (fun k => ∃ region ∈ regions, region.Contains (k * pageSize)) s
        (regions.foldl (World.dropRegion heap) s) ∧
      ∀ k, (regions.foldl (World.dropRegion heap) s).vmMap.point (k * pageSize) =
          (if ∃ region ∈ regions, region.Contains (k * pageSize) then none
          else s.vmMap.point (k * pageSize)) ∧
        (regions.foldl (World.dropRegion heap) s).pageAt k =
          if ∃ region ∈ regions, region.Contains (k * pageSize) then {} else s.pageAt k := by
  induction regions generalizing s with
  | nil =>
    exact ⟨indexed, (Changed.refl s).congr fun _ => by simp, fun k => ⟨by simp, by simp⟩⟩
  | cons region rest ih =>
    obtain ⟨indexed', changed, dropped⟩ := @dropRegion_spec s heap held region
      (onPages region List.mem_cons_self) indexed
    obtain ⟨indexed'', changed', dropped'⟩ :=
      ih (fun other member => onPages other (List.mem_cons_of_mem region member)) indexed'
    refine ⟨indexed'', (changed.trans changed').congr fun k => ?_, fun k => ?_⟩
    · let around (other : Span VmRegion) : Prop := other.Contains (k * pageSize)
      exact (List.exists_mem_cons_iff around region rest).symm
    · rw [List.foldl_cons, (dropped' k).1, (dropped' k).2, (dropped k).1, (dropped k).2]
      simp only [List.exists_mem_cons_iff]
      by_cases here : region.Contains (k * pageSize)
      · simp [here]
      · simp [here]

/-- A space with what its parent has at the pages that it inherits, each of which is shared or
copied before it is written. -/
structure Born (gone : Nat → Prop) (parent child : AddressSpace) : Prop where
  indexed : child.Indexed
  changed : Changed [] gone parent child
  mapped : ∀ k, ¬gone k → child.vmMap.point (k * pageSize) = parent.vmMap.point (k * pageSize)
  pages : ∀ k, ¬gone k → child.pageAt k = parent.pageAt k
  dropped : ∀ k, gone k → child.vmMap.point (k * pageSize) = none ∧ child.pageAt k = {}
  marked : ∀ k, (child.pageAt k).backing.isSome → (parent.pageAt k).sharedWritable = true ∨
    (parent.pageAt k).copyOnWritePossible = true

theorem born {parent : AddressSpace} (indexed : parent.Indexed) (epoch : Nat)
    (onPages : ∀ region ∈ regions, OnPages region)
    (marked : ∀ k, (parent.pageAt k).backing.isSome →
      (∃ region ∈ regions, region.Contains (k * pageSize)) ∨
        (parent.pageAt k).sharedWritable = true ∨ (parent.pageAt k).copyOnWritePossible = true) :
    Born (fun k => ∃ region ∈ regions, region.Contains (k * pageSize)) parent
      (peaked (regions.foldl (World.dropRegion heap) (World.childOf parent epoch))) := by
  obtain ⟨indexed', dropping, dropped⟩ :=
    @dropRegions_spec _ heap [] regions onPages (indexed.childOf epoch)
  have made : Changed [] (fun _ => False) parent (World.childOf parent epoch) := .of_same rfl rfl
  have changed : Changed [] _ parent
      (peaked (regions.foldl (World.dropRegion heap) (World.childOf parent epoch))) :=
    (made.still dropping).then_still (.of_same rfl rfl)
  refine ⟨indexed', changed, fun k stays => ?_, fun k stays => ?_, fun k goes => ⟨?_, ?_⟩,
    fun k backed => ?_⟩
  · exact (dropped k).1.trans (if_neg stays)
  · exact (dropped k).2.trans (if_neg stays)
  · exact (dropped k).1.trans (if_pos goes)
  · exact (dropped k).2.trans (if_pos goes)
  · by_cases goes : ∃ region ∈ regions, region.Contains (k * pageSize)
    · obtain ⟨b, found⟩ := Option.isSome_iff_exists.mp backed
      exact absurd (changed.replaced k goes b found).1 List.not_mem_nil
    · rw [(changed.steady k goes).page.backing] at backed
      exact (marked k backed).resolve_left goes

end Children

namespace World
variable {Cache : Type} (pager : FilePager Cache) {w w' w'' : World Cache} {i j k l : Nat}
  {b : BackingId} {gone : Nat → Prop}

/-- The regions of a space that a child inherits in one way. -/
def inheriting (w : World Cache) (i : Nat) (inheritance : VmInheritance) : List (Span VmRegion) :=
  (w.spaces i).vmMap.regions.filter fun region => region.value.inheritance = inheritance

/-- The page is in such a region. -/
def Inherits (w : World Cache) (i k : Nat) (inheritance : VmInheritance) : Prop :=
  ∃ region ∈ w.inheriting i inheritance, region.Contains (k * pageSize)

def bear (w : World Cache) (child : AddressSpace) : World Cache :=
  { w with spaces := Function.update w.spaces w.count child, count := w.count + 1 }

theorem inheriting_onPages (indexed : (w.spaces i).Indexed) {inheritance : VmInheritance}
    {region : Span VmRegion} (member : region ∈ w.inheriting i inheritance) : OnPages region := by
  obtain ⟨low, high, starts, stops, range, -⟩ :=
    Mappings.Indexed.region indexed (List.mem_of_mem_filter member)
  exact ⟨low, high, starts, stops, range⟩

/-- A clone shares the pages of its parent that are to be shared, and gets a child, unless such a
page is rejected. -/
theorem clone_spec (kept : Kept pager i w) :
    match (w.clone pager i).2 with
    | none => ∃ n, Moves pager i ((regionPages ((w.inheriting i .share).take n)).map .share) w
        (w.clone pager i).1
    | some c => c = w.count ∧ ∃ w₁ child,
        Moves pager i ((regionPages (w.inheriting i .share)).map .share) w w₁ ∧
          (∀ k ∈ regionPages (w.inheriting i .share), w₁.Published i k) ∧
            Born (fun k => w.Inherits i k .none) (w₁.spaces i) child ∧
              (w.clone pager i).1 = w₁.bear child := by
  obtain ⟨n, moves, finished⟩ := shareRegions_moves pager (w.inheriting i .share) kept
    fun region member => List.mem_of_mem_filter member
  have same : (w.spaces i).vmMap.regions.filter (fun region =>
    decide (region.value.inheritance = .share)) = w.inheriting i .share := rfl
  simp only [clone, same]
  cases result : shareRegions pager i (w.inheriting i .share) w with
  | mk w₁ done =>
  rw [result] at moves finished
  cases done with
  | false => exact ⟨n, moves⟩
  | true =>
    obtain ⟨whole, published⟩ := finished rfl
    rw [whole, List.take_length] at moves
    have kept₁ := moves.kept pager kept
    dsimp only
    let absent (k : Nat) : Bool :=
      (w.inheriting i .none).any fun region => decide (region.Contains (k * pageSize))
    obtain ⟨marking, marks⟩ := markEach_moves pager absent
      (w₁.spaces i).pages.keys kept₁ fun k member =>
        kept₁.indexed.pages k (AList.mem_keys.mpr member)
    have both := moves.then_silent pager marking
    have kept₂ := marking.kept pager kept₁
    let w₂ := (w₁.spaces i).pages.keys.foldl (markCopied i absent) w₁
    have every (k : Nat) : w₂.Marked i absent k := by
      refine marks k ?_
      by_cases member : k ∈ (w₁.spaces i).pages
      · exact .inl (AList.mem_keys.mp member)
      · refine .inr fun backed => ?_
        rw [page_eq_of_absent member] at backed
        contradiction
    have born : Born (fun k => w.Inherits i k .none) (w₂.spaces i) (peaked ((w.inheriting i .none).foldl
        (dropRegion w₂.heap) (childOf (w₂.spaces i) w.sharedWriteTrackingEpoch))) := by
      refine born kept₂.indexed _ (fun region member => inheriting_onPages kept.indexed member)
        fun k backed => (every k backed).imp_left fun goes => ?_
      obtain ⟨region, member, inside⟩ := List.any_eq_true.mp goes
      exact ⟨region, member, of_decide_eq_true inside⟩
    exact ⟨both.frame.count, w₂, _, both,
      fun k member => marking.frame.published (published k member), born, rfl⟩

/-! ### Events -/

theorem page_bear (child : AddressSpace) :
    (w.bear child).page j l = if j = w.count then child.pageAt l else w.page j l := by
  simp only [World.page, bear, Function.update_apply, pageAt]
  split <;> rfl

theorem born_page {child : AddressSpace} (born : Born gone (w.spaces i) child)
    (backed : (child.pageAt l).backing.isSome) :
    (w.page i l).Less (child.pageAt l) ∧ ¬(w.page i l).Settled := by
  have stays : ¬gone l := by
    intro goes
    obtain ⟨b, found⟩ := Option.isSome_iff_exists.mp backed
    exact absurd (born.changed.replaced l goes b found).1 List.not_mem_nil
  have less : (w.page i l).Less (child.pageAt l) := (born.changed.steady l stays).page
  refine ⟨less, fun settled => ?_⟩
  rcases born.marked l backed with shared | possible
  · exact Bool.noConfusion (shared.symm.trans settled.2)
  · exact Bool.noConfusion (possible.symm.trans settled.1.2)

theorem Owned.bear {child : AddressSpace} (born : Born gone (w.spaces i) child)
    (owned : w.Owned pager) : (w.bear child).Owned pager := by
  have parent {l : Nat} {b : BackingId} (found : (child.pageAt l).backing = some b) :=
    born_page (l := l) born (found ▸ rfl)
  refine ⟨owned.valid, fun j l later => ?_, fun j l b found => ?_, owned.held,
    fun j l b found made => ?_, fun j l b found made settled => ?_⟩
  · have later : w.count + 1 ≤ j := later
    rw [page_bear, if_neg (by omega)]
    exact owned.fresh j l (by omega)
  · rw [page_bear] at found
    split at found
    · exact owned.known i l b ((parent found).1.backing ▸ found)
    · exact owned.known j l b found
  · rw [page_bear] at found ⊢
    split at found
    · rename_i here
      rw [if_pos here]
      obtain ⟨less, -⟩ := parent found
      obtain ⟨cached, own⟩ := owned.cached i l b (less.backing ▸ found) made
      exact ⟨less.cached cached, Bool.eq_false_iff.mpr fun shared =>
        Bool.noConfusion ((less.shared shared).symm.trans own)⟩
    · rename_i there
      rw [if_neg there]
      exact owned.cached j l b found made
  · rw [page_bear] at found settled
    by_cases here : j = w.count
    · rw [if_pos here] at found settled
      obtain ⟨less, unsettled⟩ := parent found
      exact absurd (less.settled settled) unsettled
    · rw [if_neg here] at found settled
      obtain ⟨free, alone⟩ := owned.sole j l b found made settled
      refine ⟨free, fun j' l' other => ?_⟩
      rw [page_bear] at other
      split at other
      · obtain ⟨less, unsettled⟩ := parent other
        obtain ⟨rfl, rfl⟩ := alone i l' (less.backing ▸ other)
        exact absurd settled unsettled
      · exact alone j' l' other

theorem Owned.keep (owned : w.Owned pager) (known : b < w.heap.next)
    (made : ¬(w.heap.pages b).origin.Cached) (nobody : ∀ j l, (w.page j l).backing ≠ some b) :
    ({ w with held := b :: w.held } : World Cache).Owned pager := by
  refine ⟨owned.valid, owned.fresh, owned.known, fun c member => ?_, owned.cached,
    fun j l c found made settled => ?_⟩
  · rcases List.mem_cons.mp member with rfl | old
    · exact ⟨known, made⟩
    · exact owned.held c old
  · obtain ⟨free, alone⟩ := owned.sole j l c found made settled
    refine ⟨fun member => ?_, alone⟩
    rcases List.mem_cons.mp member with rfl | old
    · exact nobody j l found
    · exact free old

theorem Owned.drop (owned : w.Owned pager) (b : BackingId) :
    ({ w with held := w.held.erase b } : World Cache).Owned pager := by
  refine ⟨owned.valid, owned.fresh, owned.known, fun c member => ?_, owned.cached,
    fun j l c found made settled => ?_⟩
  · exact owned.held c (List.mem_of_mem_erase member)
  · obtain ⟨free, alone⟩ := owned.sole j l c found made settled
    exact ⟨fun member => free (List.mem_of_mem_erase member), alone⟩

theorem Sound.moves {effects : List Effect} (sound : w.Sound pager) (existing : i < w.count)
    (moves : Moves pager i effects w w') : w'.Sound pager := by
  have kept := moves.kept pager (sound.kept pager existing)
  refine ⟨kept.owned, fun j => ?_⟩
  by_cases same : j = i
  · exact same ▸ kept.indexed
  · rw [moves.frame.others j same]
    exact sound.indexed j

theorem Sound.finished (sound : w.Sound pager) (finished : Finished i gone w w') :
    w'.Sound pager := by
  refine ⟨finished.altered.owned pager sound.owned, fun j => ?_⟩
  by_cases same : j = i
  · exact same ▸ finished.indexed
  · rw [finished.altered.others j same]
    exact sound.indexed j

theorem Sound.performed {call : Call} (sound : w.Sound pager) (existing : i < w.count)
    (performed : Performed pager w i call w') : w'.Sound pager := by
  cases performed with
  | stored n moves => exact sound.moves pager existing moves
  | shared moves => exact sound.moves pager existing moves
  | remapped gone within finished => exact sound.finished pager finished

/-- A space that is made, or one that is destroyed. -/
theorem finished_clear {s : AddressSpace} (indexed : s.Indexed) (empty : s.pages = ∅) :
    Finished i (fun _ => True) w
      { w with spaces := Function.update w.spaces i s, count := max w.count (i + 1) } where
  altered :=
    { Tracked.refl w with
      others := fun j other => Function.update_of_ne other _ _
      count := Nat.le_max_left _ _
      existing := Nat.lt_of_lt_of_le (Nat.lt_succ_self i) (Nat.le_max_right _ _)
      changed := by
        refine ⟨fun k stays => absurd trivial stays, fun k _ b found => ?_⟩
        simp only [Function.update_self, pageAt, empty] at found
        contradiction }
  indexed := by
    simp only [Function.update_self]
    exact indexed

theorem finished_create :
    Finished w.count (fun _ => True) w (w.step pager .create) := by
  have finished := finished_clear (w := w) (i := w.count)
    (s := { observedSharedWriteTrackingEpoch := w.sharedWriteTrackingEpoch }) indexed_new rfl
  rw [Nat.max_eq_right (Nat.le_succ _)] at finished
  exact finished

theorem finished_destroy (existing : i < w.count) :
    Finished i (fun _ => True) w (w.step pager (.destroy i)) := by
  have finished := finished_clear (w := w) (i := i)
    (s := { observations := ((w.spaces i).invalidateMappingLeases 0 addressSpaceEnd).observations })
    (indexed_new.leased ∅ (fun _ _ => nofun) 1 _) rfl
  rw [Nat.max_eq_left existing] at finished
  simp only [World.step, if_pos existing]
  exact finished

theorem step_absent (event : Event) (absent : match event with
    | .destroy i | .clone i | .call i _ => ¬i < w.count
    | _ => False) : w.step pager event = w := by
  cases event with
  | destroy i => exact if_neg absent
  | clone i => exact if_neg absent
  | call i call => exact if_neg absent
  | create | hold | release | setActor => exact absurd absent id

theorem Sound.step (sound : w.Sound pager) (event : Event) : (w.step pager event).Sound pager := by
  cases event with
  | create => exact sound.finished pager (finished_create pager)
  | destroy i =>
    by_cases existing : i < w.count
    · exact sound.finished pager (finished_destroy pager existing)
    · rw [step_absent pager _ existing]
      exact sound
  | clone i =>
    simp only [World.step]
    split
    · rename_i existing
      have cloned := clone_spec pager (sound.kept pager existing)
      cases answer : (w.clone pager i).2 with
      | none =>
        rw [answer] at cloned
        obtain ⟨n, moves⟩ := cloned
        exact sound.moves pager existing moves
      | some c =>
        rw [answer] at cloned
        obtain ⟨-, w₁, child, moves, -, born, same⟩ := cloned
        have sound₁ := sound.moves pager existing moves
        rw [same]
        refine ⟨sound₁.owned.bear pager born, fun j => ?_⟩
        simp only [bear, Function.update_apply]
        split
        · exact born.indexed
        · exact sound₁.indexed j
    · exact sound
  | hold backing =>
    have more := w.heap.extends_construct { bytes := backing.bytes }
    have made : (w.construct { bytes := backing.bytes }).Owned pager :=
      sound.owned.mono pager (pager.valid_keeps sound.owned.valid (more.keeps _)) more.next
        (fun b known => by rw [World.construct, more.kept b known]) rfl rfl fun _ _ => rfl
    refine ⟨made.keep pager (Nat.lt_succ_self _) ?_ (sound.owned.unused pager), sound.indexed⟩
    rw [construct_fresh]
    rintro (other | other) <;> exact PageOrigin.noConfusion other
  | release b => exact ⟨sound.owned.drop pager b, sound.indexed⟩
  | setActor actor =>
    refine ⟨?_, sound.indexed⟩
    exact sound.owned.mono pager sound.owned.valid (Nat.le_refl _) (fun _ _ => rfl) rfl rfl
      fun _ _ => rfl
  | call i call =>
    simp only [World.step]
    split
    · rename_i existing
      exact sound.performed pager existing (perform_spec pager sound existing call)
    · exact sound

/-- A machine with a page cache, before there is any space. -/
theorem sound_new {cache : Cache} {heap : PageHeap} (valid : pager.Valid cache heap) :
    ({ cache, heap } : World Cache).Sound pager := by
  have empty (i k : Nat) : (({ cache, heap } : World Cache).page i k).backing = none := rfl
  refine ⟨⟨valid, fun i k _ => empty i k, fun i k b found => ?_, fun b => nofun,
    fun i k b found => ?_, fun i k b found => ?_⟩, fun _ => indexed_new⟩
  · rw [empty] at found
    contradiction
  · rw [empty] at found
    contradiction
  · rw [empty] at found
    contradiction

/-- Whatever happens, the invariant holds. -/
theorem Sound.run (sound : w.Sound pager) (events : List Event) :
    (run (World.step pager) w events).Sound pager := by
  have keeps (w : World Cache) (event : Event) (sound : w.Sound pager) :
      (w.step pager event).Sound pager := sound.step pager event
  exact run_invariant keeps sound events

/-- A machine that a run has led to from one without spaces. -/
def Reached (w : World Cache) : Prop :=
  ∃ cache heap events, pager.Valid cache heap ∧
    w = Foundation.run (World.step pager) { cache, heap } events

theorem Reached.sound (reached : Reached pager w) : w.Sound pager := by
  obtain ⟨cache, heap, events, valid, rfl⟩ := reached
  exact (sound_new pager valid).run pager events

/-- A machine with a space of one page. -/
def onePage : World Unit :=
  Foundation.run (World.step (.uncached fun _ _ => 0)) { cache := () }
    [.create, .call 0 (.map 0x1000 0x1000 3 {})]

theorem reached_onePage : Reached (.uncached fun _ _ => 0) onePage :=
  ⟨(), {}, _, trivial, rfl⟩

/-- In every space of a machine the index, the pages, the intervals of files and the installed
rights agree with the map of its memory. -/
theorem index_faithful (reached : Reached pager w) (i : Nat) : (w.spaces i).Faithful :=
  (reached.sound.indexed i).faithful

theorem index_faithful_onePage : (onePage.spaces 0).Faithful :=
  index_faithful _ reached_onePage 0

end World
end ILEmu.AddressSpace
