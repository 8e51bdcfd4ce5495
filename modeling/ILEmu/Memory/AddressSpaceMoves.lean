import ILEmu.Memory.AddressSpaceIndex

/-! The operations on the pages of an address space as sequences of moves, each with its effect on
the contents of a page: none, a store, or that the page becomes shared. What all of them keep is
kept by each move: the index, and who refers to the pages of the machine. -/
namespace ILEmu.AddressSpace
open Foundation
open Memory.FilePageCache (Byte PageBytes)

def overwrite (offset : Nat) (data : List Byte) (bytes : PageBytes) : PageBytes :=
  (GuestPageBacking.write { bytes } offset data).bytes

/-- A page that is written in place: it is nobody else's, or shared. -/
def Page.Ready (page : Page) : Prop := page.fileCached = false ∧ page.copyOnWritePossible = false

/-- A page that is nobody else's. -/
def Page.Settled (page : Page) : Prop := page.Ready ∧ page.sharedWritable = false

/-- Made by the page cache for a page of a vnode. -/
def PageOrigin.Vnode (origin : PageOrigin) : Prop :=
  ∃ source fileOffset, origin = .vnode source fileOffset

theorem Page.backing_of_bare {page page' : Page} (same : page'.bare = page.bare) :
    page'.backing = page.backing := by
  have fields := congrArg Page.backing same
  exact fields

theorem Page.flags_of_bare {page page' : Page} (same : page'.bare = page.bare) :
    page'.fileCached = page.fileCached ∧ page'.sharedWritable = page.sharedWritable ∧
      page'.copyOnWritePossible = page.copyOnWritePossible := by
  have cached := congrArg Page.fileCached same
  have shared := congrArg Page.sharedWritable same
  have possible := congrArg Page.copyOnWritePossible same
  exact ⟨cached, shared, possible⟩

theorem Page.ready_of_bare {page page' : Page} (same : page'.bare = page.bare) :
    page'.Ready ↔ page.Ready := by
  obtain ⟨cached, -, possible⟩ := flags_of_bare same
  simp only [Ready, cached, possible]

theorem Page.settled_of_bare {page page' : Page} (same : page'.bare = page.bare) :
    page'.Settled ↔ page.Settled := by
  obtain ⟨cached, shared, possible⟩ := flags_of_bare same
  simp only [Settled, Ready, cached, shared, possible]

theorem PageHeap.Extends.keeps {before after : PageHeap} (more : before.Extends after)
    (fixed : PageOrigin → Prop) : before.Keeps fixed after :=
  ⟨more.next, fun b known => by rw [more.kept b known], fun b known _ => by rw [more.kept b known]⟩

theorem PageHeap.Extends.refl (heap : PageHeap) : heap.Extends heap :=
  ⟨Nat.le_refl _, fun _ _ => rfl⟩

theorem PageHeap.Extends.trans {first second third : PageHeap} (more : first.Extends second)
    (more' : second.Extends third) : first.Extends third :=
  ⟨more.next.trans more'.next, fun b known => by
    rw [more'.kept b (known.trans_le more.next), more.kept b known]⟩

/-- A page takes its place in a space, and counts if there was none with a backing. -/
def placed (k : Nat) (page : Page) (s : AddressSpace) : AddressSpace :=
  { s with
    pages := s.pages.insert k page
    residentPages :=
      if (s.residentBacking k).isNone ∧ page.backing.isSome then
        { current := s.residentPages.current + 1
          maximum := max s.residentPages.maximum (s.residentPages.current + 1) }
      else s.residentPages }

theorem total_placed {s : AddressSpace} {k : Nat} {page : Page}
    (counted : s.residentPages.current = s.pages.tally fun page => page.backing.isSome)
    (keeps : (s.residentBacking k).isSome → page.backing.isSome) :
    (s.placed k page).residentPages.current =
      Table.tally (fun page => page.backing.isSome) (s.pages.insert k page) := by
  let weight (page : Page) : Nat := (page.backing.isSome).toNat
  have before : s.residentPages.current = Table.total weight s.pages := counted
  have after : Table.total weight (s.pages.insert k page) =
      weight page + Table.total weight (s.pages.erase k) := Table.total_insert weight s.pages k page
  change _ = Table.total weight (s.pages.insert k page)
  rw [after]
  cases found : s.pages.lookup k with
  | none =>
    have absent : s.residentBacking k = none := by simp only [residentBacking, found, Option.bind_none]
    rw [Table.total_erase_absent weight found, ← before]
    cases backing : page.backing with
    | none => simp [AddressSpace.placed, weight, backing]
    | some b => simp [AddressSpace.placed, weight, backing, absent, Nat.add_comm]
  | some old =>
    have present : s.residentBacking k = old.backing := by
      simp only [residentBacking, found, Option.bind_some]
    have split := Table.total_of_lookup weight found
    rw [← before] at split
    rw [present] at keeps
    cases backing : old.backing with
    | none =>
      cases backing' : page.backing with
      | none =>
        simp only [AddressSpace.placed, weight, backing, backing', present] at split ⊢
        simpa using split
      | some b =>
        simp only [AddressSpace.placed, weight, backing, backing', present] at split ⊢
        simp at split ⊢
        omega
    | some b =>
      have kept := keeps (by rw [backing]; rfl)
      simp only [AddressSpace.placed, weight, backing, kept, present] at split ⊢
      simpa using split

theorem Indexed.placed {s : AddressSpace} (indexed : s.Indexed) {k : Nat} {page : Page}
    (mapped : MapsPage s.vmMap k)
    (keeps : (s.residentBacking k).isSome → page.backing.isSome) :
    (s.placed k page).Indexed := by
  refine ⟨⟨?_, total_placed indexed.resident keeps, ?_, indexed.tidy, indexed.filed,
    indexed.leases⟩, indexed.sound, indexed.paged, indexed.permissions, indexed.translations⟩
  · intro other member
    rcases (AList.mem_insert s.pages).mp member with rfl | old
    · exact mapped
    · exact indexed.pages other old
  · change (s.placed k page).residentPages.current ≤ (s.placed k page).residentPages.maximum
    simp only [AddressSpace.placed]
    split
    · exact Nat.le_max_right _ _
    · exact indexed.peak

namespace World
variable {Cache : Type} (pager : FilePager Cache) {w w' : World Cache} {i j k l : Nat} {b : BackingId}

theorem page_backing : (w.page i k).backing = (w.spaces i).residentBacking k := by
  simp only [page, residentBacking]
  cases (w.spaces i).pages.lookup k <;> rfl

theorem page_placed (page : Page) :
    (w.edit i (placed k page)).page j l = if j = i ∧ l = k then page else w.page j l := by
  simp only [World.page, edit_spaces]
  by_cases space : j = i
  · subst space
    simp only [if_pos, true_and, placed, Table.lookup_insert_eq]
    split <;> rfl
  · rw [if_neg space, if_neg fun both => space both.1]

/-- What a page of a file holds where it is mapped, unless its transform rejects it. -/
def fileContents (w : World Cache) (span : Span FileMapping) (k : Nat) : Option PageBytes :=
  let page := FilePage.ofMapping span k
  let bytes := pager.content w.cache w.heap page (span.value.mode ≠ .copyOnWrite)
  match span.value.transform with
  | none => some bytes
  | some transform => pager.transformed transform bytes page.offset

/-- What a page would hold at an address. -/
def contents (w : World Cache) (i k : Nat) (page : Page) : Option PageBytes :=
  match page.backing with
  | some b => some (w.heap.pages b).bytes
  | none =>
    match (w.spaces i).findFileMapping (k * pageSize) with
    | none => some fun _ => 0
    | some span => w.fileContents pager span k

/-- What an access finds in a page: its bytes, those of its file, or zeros. -/
def seen (w : World Cache) (i k : Nat) : Option PageBytes := w.contents pager i k (w.page i k)

/-- The page refers to what the page cache may share, or will when it is faulted. -/
def Shared (w : World Cache) (i k : Nat) : Prop :=
  (w.page i k).sharedWritable = true ∨
    (w.page i k).backing = none ∧ ∃ span,
      (w.spaces i).findFileMapping (k * pageSize) = some span ∧
        span.value.mode ≠ .copyOnWrite ∧ span.value.needsCopy = false

/-- Nobody else refers to a page of memory. -/
def Alone (w : World Cache) (i k : Nat) (b : BackingId) : Prop :=
  ∀ j l, (w.page j l).backing = some b → j = i ∧ l = k

/-- Who refers to the pages of a machine. A page that is written in place and not shared is the
only one with its backing, and nothing is written that the cache has made to stay as it is. -/
structure Owned (w : World Cache) : Prop where
  valid : pager.Valid w.cache w.heap
  fresh : ∀ i k, w.count ≤ i → (w.page i k).backing = none
  known : ∀ i k b, (w.page i k).backing = some b → b < w.heap.next
  held : ∀ b ∈ w.held, b < w.heap.next ∧ ¬(w.heap.pages b).origin.Cached
  cached : ∀ i k b, (w.page i k).backing = some b → (w.heap.pages b).origin.Cached →
    (w.page i k).fileCached = true ∧ (w.page i k).sharedWritable = false
  sole : ∀ i k b, (w.page i k).backing = some b → (w.heap.pages b).origin = .anonymous →
    (w.page i k).Settled → b ∉ w.held ∧ w.Alone i k b

/-- What a page has to be to take a place. -/
structure Fit (w : World Cache) (i k : Nat) (page : Page) : Prop where
  keeps : (w.page i k).backing.isSome → page.backing.isSome
  shares : (w.page i k).backing.isSome → (w.page i k).sharedWritable = true →
    page.sharedWritable = true
  known : ∀ b, page.backing = some b → b < w.heap.next
  cached : ∀ b, page.backing = some b → (w.heap.pages b).origin.Cached →
    page.fileCached = true ∧ page.sharedWritable = false
  sole : ∀ b, page.backing = some b → (w.heap.pages b).origin = .anonymous → page.Settled →
    b ∉ w.held ∧ w.Alone i k b
  others : ∀ b, page.backing = some b → (w.heap.pages b).origin = .anonymous →
    (w.page i k).backing = some b ∨ ∀ j l, (w.page j l).backing ≠ some b
  shared : ∀ b, page.backing = some b → (w.heap.pages b).origin = .anonymous →
    page.sharedWritable = true → (w.page i k).sharedWritable = true ∨ w.Alone i k b

/-- The page keeps its backing, or gets one that nobody else refers to, unless it has its bytes
from a file. -/
def Stays (w : World Cache) (i k : Nat) (page : Page) : Prop :=
  page.backing = (w.page i k).backing ∨
    ((w.page i k).backing = none ∧ ((w.spaces i).findFileMapping (k * pageSize)).isSome) ∨
    ∃ b, page.backing = some b ∧ (w.heap.pages b).origin = .anonymous ∧ b ∉ w.held ∧
      ∀ j l, (w.page j l).backing ≠ some b

inductive Effect where
  | store (page offset : Nat) (data : List Byte)
  | share (page : Nat)

def Effect.page : Effect → Nat
  | .store page _ _ | .share page => page

def Effect.StoresNothing : Effect → Prop
  | .store _ _ _ => False
  | .share _ => True

/-- What it means for the contents that a page takes a place. -/
inductive Placing (w : World Cache) (i k : Nat) (page : Page) : List Effect → Prop where
  | same (contents : w.contents pager i k page = w.seen pager i k)
      (shared : page.sharedWritable = true → w.Shared i k)
      (stays : w.Stays i k page) : Placing w i k page []
  | share (contents : w.contents pager i k page = w.seen pager i k)
      (backing : page.backing.isSome) : Placing w i k page [.share k]
  | replace (data : List Byte) (size : data.length = pageSize)
      (contents : w.contents pager i k page = some (overwrite 0 data fun _ => 0))
      (own : page.sharedWritable = false)
      (made : ∀ b, page.backing = some b → (w.heap.pages b).origin = .immutable)
      (backing : page.backing.isSome) : Placing w i k page [.store k 0 data]

/-- One move in the pages of a space. -/
inductive Move (i : Nat) : List Effect → World Cache → World Cache → Prop where
  | quiet {w : World Cache} {change : AddressSpace → AddressSpace}
      (quiet : Quiet (w.spaces i) (change (w.spaces i))) :
      Move i [] w (w.edit i change)
  | tracked {w : World Cache} {heap : PageHeap} {epoch : Nat} (next : heap.next = w.heap.next)
      (origin : ∀ b, (heap.pages b).origin = (w.heap.pages b).origin)
      (bytes : ∀ b, (heap.pages b).bytes = (w.heap.pages b).bytes) :
      Move i [] w { w with heap, sharedWriteTrackingEpoch := epoch }
  | extended {w : World Cache} {cache : Cache} {heap : PageHeap} (more : w.heap.Extends heap)
      (valid : pager.Valid cache heap)
      (content : pager.content cache heap = pager.content w.cache w.heap) :
      Move i [] w { w with cache, heap }
  | placed {w : World Cache} {k : Nat} {page : Page} {effects : List Effect}
      (mapped : MapsPage (w.spaces i).vmMap k) (fit : w.Fit i k page)
      (placing : Placing pager w i k page effects) : Move i effects w (w.edit i (placed k page))
  | stored {w : World Cache} {k : Nat} {b : BackingId} (offset : Nat) (data : List Byte) (backing : (w.page i k).backing = some b)
      (ready : (w.page i k).Ready) : Move i [.store k offset data] w (w.writePage i k offset data)
  | held {w : World Cache} {b : BackingId} (k : Nat) (backing : (w.page i k).backing = some b)
      (shared : (w.page i k).sharedWritable = true) : Move i [] w { w with held := b :: w.held }

/-- Moves one after the other, with their effects. -/
inductive Moves (i : Nat) : List Effect → World Cache → World Cache → Prop where
  | refl (w : World Cache) : Moves i [] w w
  | next {w w' w'' : World Cache} {effects rest : List Effect} (move : Move pager i effects w w')
      (moves : Moves i rest w' w'') :
      Moves i (effects ++ rest) w w''

/-! ### What every move leaves alone -/

/-- Nothing is mapped or unmapped, and no page loses its backing or is shared no more. -/
structure Frame (i : Nat) (w w' : World Cache) : Prop where
  others : ∀ j, j ≠ i → w'.spaces j = w.spaces j
  count : w'.count = w.count
  vmMap : (w'.spaces i).vmMap = (w.spaces i).vmMap
  fileMappings : (w'.spaces i).fileMappings = (w.spaces i).fileMappings
  pagePermissions : (w'.spaces i).pagePermissions = (w.spaces i).pagePermissions
  mappingLeases : (w'.spaces i).mappingLeases = (w.spaces i).mappingLeases
  nextMappingLeaseToken :
    (w'.spaces i).nextMappingLeaseToken = (w.spaces i).nextMappingLeaseToken
  observations : (w'.spaces i).observations = (w.spaces i).observations
  next : w.heap.next ≤ w'.heap.next
  keeps : ∀ k, (w.page i k).backing.isSome → (w'.page i k).backing.isSome
  shares : ∀ k, (w.page i k).backing.isSome → (w.page i k).sharedWritable = true →
    (w'.page i k).sharedWritable = true

theorem Frame.refl (i : Nat) (w : World Cache) : Frame i w w :=
  ⟨fun _ _ => rfl, rfl, rfl, rfl, rfl, rfl, rfl, rfl, Nat.le_refl _, fun _ some => some,
    fun _ _ shared => shared⟩

theorem Frame.trans {w'' : World Cache} (first : Frame i w w') (second : Frame i w' w'') :
    Frame i w w'' where
  others j other := (second.others j other).trans (first.others j other)
  count := second.count.trans first.count
  vmMap := second.vmMap.trans first.vmMap
  fileMappings := second.fileMappings.trans first.fileMappings
  pagePermissions := second.pagePermissions.trans first.pagePermissions
  mappingLeases := second.mappingLeases.trans first.mappingLeases
  nextMappingLeaseToken := second.nextMappingLeaseToken.trans first.nextMappingLeaseToken
  observations := second.observations.trans first.observations
  next := first.next.trans second.next
  keeps k some := second.keeps k (first.keeps k some)
  shares k some shared := second.shares k (first.keeps k some) (first.shares k some shared)

theorem page_quiet {change : AddressSpace → AddressSpace}
    (quiet : Quiet (w.spaces i) (change (w.spaces i))) :
    ((w.edit i change).page j l).bare = (w.page j l).bare := by
  simp only [World.page, edit_spaces]
  split
  · rename_i same
    subst same
    exact quiet.pages.getD l {}
  · rfl

theorem page_refreshJitPage {m : Nat} :
    ((w.refreshJitPage i m).page j l).bare = (w.page j l).bare := by
  have quiet : Quiet (w.spaces i) ((w.spaces i).refreshJitPage w.heap m) := .refreshJitPage
  exact page_quiet quiet

theorem writePage_spaces (offset : Nat) (data : List Byte) :
    (w.writePage i k offset data).spaces = w.spaces := by
  simp only [writePage]
  split <;> rfl

theorem writePage_held (offset : Nat) (data : List Byte) :
    (w.writePage i k offset data).held = w.held := by
  simp only [writePage]
  split <;> rfl

theorem writePage_count (offset : Nat) (data : List Byte) :
    (w.writePage i k offset data).count = w.count := by
  simp only [writePage]
  split <;> rfl

theorem writePage_cache (offset : Nat) (data : List Byte) :
    (w.writePage i k offset data).cache = w.cache := by
  simp only [writePage]
  split <;> rfl

theorem writePage_heap (offset : Nat) (data : List Byte) (backing : (w.page i k).backing = some b) :
    (w.writePage i k offset data).heap =
      w.heap.modify b fun page => (page.write offset data).markSharedWrite := by
  simp only [writePage, backing]

theorem writePage_page (offset : Nat) (data : List Byte) :
    (w.writePage i k offset data).page j l = w.page j l := by
  rw [World.page, writePage_spaces]
  rfl

theorem Move.frame {effects : List Effect} (move : Move pager i effects w w') : Frame i w w' := by
  cases move with
  | @quiet _ change quiet =>
    refine ⟨fun j other => edit_spaces_other _ other, rfl, ?_, ?_, ?_, ?_, ?_, ?_, Nat.le_refl _,
      ?_, ?_⟩
    · rw [edit_spaces_self, quiet.vmMap]
    · rw [edit_spaces_self, quiet.fileMappings]
    · rw [edit_spaces_self, quiet.pagePermissions]
    · rw [edit_spaces_self, quiet.mappingLeases]
    · rw [edit_spaces_self, quiet.nextMappingLeaseToken]
    · rw [edit_spaces_self, quiet.observations]
    · intro k some
      rw [Page.backing_of_bare (page_quiet quiet)]
      exact some
    · intro k _ shared
      rw [(Page.flags_of_bare (page_quiet quiet)).2.1]
      exact shared
  | tracked next _ _ => exact { Frame.refl i w with next := next.ge }
  | extended more _ _ => exact { Frame.refl i w with next := more.next }
  | @placed _ k page _ mapped fit _ =>
    refine ⟨fun j other => edit_spaces_other _ other, rfl, ?_, ?_, ?_, ?_, ?_, ?_, Nat.le_refl _,
      ?_, ?_⟩
    · rw [edit_spaces_self]; rfl
    · rw [edit_spaces_self]; rfl
    · rw [edit_spaces_self]; rfl
    · rw [edit_spaces_self]; rfl
    · rw [edit_spaces_self]; rfl
    · rw [edit_spaces_self]; rfl
    · intro l some
      rw [page_placed]
      split
      · rename_i same
        rw [same.2] at some
        exact fit.keeps some
      · exact some
    · intro l some shared
      rw [page_placed]
      split
      · rename_i same
        rw [same.2] at some shared
        exact fit.shares some shared
      · exact shared
  | @stored _ k b offset data backing ready =>
    have spaces := writePage_spaces (w := w) (i := i) (k := k) offset data
    refine ⟨fun j _ => by rw [spaces], writePage_count offset data, ?_, ?_, ?_, ?_, ?_, ?_, ?_,
      fun l some => ?_, fun l _ shared => ?_⟩
    · rw [spaces]
    · rw [spaces]
    · rw [spaces]
    · rw [spaces]
    · rw [spaces]
    · rw [spaces]
    · rw [writePage_heap offset data backing]
      exact Nat.le_refl _
    · rw [writePage_page]
      exact some
    · rw [writePage_page]
      exact shared
  | held _ _ _ => exact { Frame.refl i w with }

theorem Move.indexed {effects : List Effect} (move : Move pager i effects w w')
    (indexed : (w.spaces i).Indexed) : (w'.spaces i).Indexed := by
  cases move with
  | quiet quiet =>
    rw [edit_spaces_self]
    exact indexed.quiet quiet
  | tracked _ _ _ => exact indexed
  | extended _ _ _ => exact indexed
  | placed mapped fit _ =>
    rw [edit_spaces_self]
    exact indexed.placed mapped fun some => fit.keeps (page_backing ▸ some)
  | stored offset data _ _ =>
    rw [writePage_spaces]
    exact indexed
  | held _ _ _ => exact indexed

/-! ### Who refers to pages -/

/-- Pages that differ in what nobody is aware of, and backings that keep their makers. -/
theorem Owned.mono (owned : w.Owned pager) (valid : pager.Valid w'.cache w'.heap)
    (next : w.heap.next ≤ w'.heap.next)
    (origin : ∀ b < w.heap.next, (w'.heap.pages b).origin = (w.heap.pages b).origin)
    (held : w'.held = w.held) (count : w'.count = w.count)
    (bare : ∀ j l, (w'.page j l).bare = (w.page j l).bare) : w'.Owned pager := by
  have backing (j l : Nat) : (w'.page j l).backing = (w.page j l).backing :=
    Page.backing_of_bare (bare j l)
  refine ⟨valid, fun i k later => ?_, fun i k b found => ?_, fun b member => ?_,
    fun i k b found made => ?_, fun i k b found made settled => ?_⟩
  · rw [backing]
    exact owned.fresh i k (count ▸ later)
  · rw [backing] at found
    exact (owned.known i k b found).trans_le next
  · rw [held] at member
    obtain ⟨known, made⟩ := owned.held b member
    exact ⟨known.trans_le next, by rw [origin b known]; exact made⟩
  · rw [backing] at found
    rw [origin b (owned.known i k b found)] at made
    obtain ⟨cached, shared, -⟩ := Page.flags_of_bare (bare i k)
    rw [cached, shared]
    exact owned.cached i k b found made
  · rw [backing] at found
    rw [origin b (owned.known i k b found)] at made
    obtain ⟨free, alone⟩ := owned.sole i k b found made ((Page.settled_of_bare (bare i k)).mp settled)
    refine ⟨held ▸ free, fun j l other => alone j l ?_⟩
    rw [← backing]
    exact other

theorem keeps_modify {heap : PageHeap} {change : GuestPageBacking → GuestPageBacking}
    {fixed : PageOrigin → Prop} (origin : ∀ page, (change page).origin = page.origin)
    (free : ¬fixed (heap.pages b).origin) : heap.Keeps fixed (heap.modify b change) := by
  refine ⟨Nat.le_refl _, fun c _ => ?_, fun c _ held => ?_⟩
  · simp only [PageHeap.modify, Function.update_apply]
    split
    · rename_i same
      rw [same, origin]
    · rfl
  · simp only [PageHeap.modify, Function.update_apply]
    split
    · rename_i same
      exact absurd (same ▸ held) free
    · rfl

theorem origin_written (page : GuestPageBacking) (offset : Nat) (data : List Byte) :
    ((page.write offset data).markSharedWrite).origin = page.origin := by
  simp only [GuestPageBacking.markSharedWrite]
  split <;> rfl

theorem Owned.ready_origin (owned : w.Owned pager) (backing : (w.page i k).backing = some b)
    (ready : (w.page i k).Ready) : ¬(w.heap.pages b).origin.Cached := by
  intro made
  have cached := (owned.cached i k b backing made).1
  rw [ready.1] at cached
  contradiction

theorem Owned.placed (owned : w.Owned pager) (existing : i < w.count) {page : Page}
    (fit : w.Fit i k page) : (w.edit i (AddressSpace.placed k page)).Owned pager := by
  have pages (j l : Nat) := page_placed (w := w) (i := i) (k := k) (j := j) (l := l) page
  refine ⟨owned.valid, fun j l later => ?_, fun j l b found => ?_, owned.held,
    fun j l b found made => ?_, fun j l b found made settled => ?_⟩
  · rw [pages, if_neg]
    · exact owned.fresh j l later
    · rintro ⟨rfl, -⟩
      exact absurd existing (Nat.not_lt.mpr later)
  · rw [pages] at found
    split at found
    · exact fit.known b found
    · exact owned.known j l b found
  · rw [pages] at found ⊢
    split at found
    · rename_i here
      rw [if_pos here]
      exact fit.cached b found made
    · rename_i there
      rw [if_neg there]
      exact owned.cached j l b found made
  · rw [pages] at found settled
    by_cases here : j = i ∧ l = k
    · rw [if_pos here] at found settled
      obtain ⟨rfl, rfl⟩ := here
      obtain ⟨free, alone⟩ := fit.sole b found made settled
      refine ⟨free, fun j' l' other => ?_⟩
      rw [pages] at other
      split at other
      · assumption
      · exact alone j' l' other
    · rw [if_neg here] at found settled
      obtain ⟨free, alone⟩ := owned.sole j l b found made settled
      refine ⟨free, fun j' l' other => ?_⟩
      rw [pages] at other
      split at other
      · rename_i there
        -- a page that takes the backing of another had it, or nobody has it
        rcases fit.others b other made with before | nobody
        · obtain ⟨rfl, rfl⟩ := alone i k before
          exact absurd ⟨rfl, rfl⟩ here
        · exact absurd found (nobody j l)
      · exact alone j' l' other

theorem Owned.hold (owned : w.Owned pager) (backing : (w.page i k).backing = some b)
    (shared : (w.page i k).sharedWritable = true) :
    ({ w with held := b :: w.held } : World Cache).Owned pager := by
  refine ⟨owned.valid, owned.fresh, owned.known, fun c member => ?_, owned.cached,
    fun j l c found made settled => ?_⟩
  · rcases List.mem_cons.mp member with rfl | old
    · refine ⟨owned.known i k c backing, fun made => ?_⟩
      have unshared := (owned.cached i k c backing made).2
      rw [shared] at unshared
      contradiction
    · exact owned.held c old
  · obtain ⟨free, alone⟩ := owned.sole j l c found made settled
    refine ⟨fun member => ?_, alone⟩
    rcases List.mem_cons.mp member with rfl | old
    · obtain ⟨rfl, rfl⟩ := alone i k backing
      exact Bool.noConfusion (shared.symm.trans settled.2)
    · exact free old

theorem Move.owned {effects : List Effect} (move : Move pager i effects w w') (existing : i < w.count)
    (owned : w.Owned pager) : w'.Owned pager := by
  cases move with
  | quiet quiet =>
    exact owned.mono pager owned.valid (Nat.le_refl _) (fun _ _ => rfl) rfl rfl
      fun _ _ => page_quiet quiet
  | tracked next origin bytes =>
    refine owned.mono pager ?_ next.ge (fun b _ => origin b) rfl rfl fun _ _ => rfl
    exact pager.valid_keeps owned.valid ⟨next.ge, fun b _ => origin b, fun b _ _ => bytes b⟩
  | extended more valid content =>
    exact owned.mono pager valid more.next (fun b known => by rw [more.kept b known]) rfl rfl
      fun _ _ => rfl
  | placed mapped fit _ => exact owned.placed pager existing fit
  | @stored _ k b offset data backing ready =>
    have heap := writePage_heap offset data backing
    have kept : w.heap.Keeps PageOrigin.Cached (w.writePage i k offset data).heap := by
      rw [heap]
      exact keeps_modify (fun page => origin_written page offset data)
        (owned.ready_origin pager backing ready)
    refine owned.mono pager ?_ kept.next kept.origin (writePage_held offset data)
      (writePage_count offset data) fun j l => by rw [writePage_page]
    rw [writePage_cache]
    exact pager.valid_keeps owned.valid kept
  | held k backing shared => exact owned.hold pager backing shared

/-- What the operations of a space rely on. -/
structure Kept (i : Nat) (w : World Cache) : Prop where
  existing : i < w.count
  indexed : (w.spaces i).Indexed
  owned : w.Owned pager

theorem Move.kept {effects : List Effect} (move : Move pager i effects w w') (kept : Kept pager i w) :
    Kept pager i w' where
  existing := move.frame.count ▸ kept.existing
  indexed := move.indexed pager kept.indexed
  owned := move.owned pager kept.existing kept.owned

namespace Moves
variable {w'' : World Cache} {effects rest : List Effect}

theorem single (move : Move pager i effects w w') : Moves pager i effects w w' := by
  have last := Moves.next move (.refl w')
  rw [List.append_nil] at last
  exact last

theorem trans (first : Moves pager i effects w w') (second : Moves pager i rest w' w'') :
    Moves pager i (effects ++ rest) w w'' := by
  induction first with
  | refl => exact second
  | next move _ ih =>
    rw [List.append_assoc]
    exact .next move (ih second)

theorem silent (first : Moves pager i [] w w') (second : Moves pager i rest w' w'') :
    Moves pager i rest w w'' := first.trans pager second

theorem then_silent (first : Moves pager i effects w w') (second : Moves pager i [] w' w'') :
    Moves pager i effects w w'' := by
  have both := first.trans pager second
  rw [List.append_nil] at both
  exact both

theorem frame (moves : Moves pager i effects w w') : Frame i w w' := by
  induction moves with
  | refl => exact .refl i _
  | next move _ ih => exact (move.frame).trans ih

theorem kept (moves : Moves pager i effects w w') (before : Kept pager i w) : Kept pager i w' := by
  induction moves with
  | refl => exact before
  | next move _ ih => exact ih (move.kept pager before)

theorem quiet {change : AddressSpace → AddressSpace}
    (quiet : Quiet (w.spaces i) (change (w.spaces i))) : Moves pager i [] w (w.edit i change) :=
  single pager (.quiet quiet)

end Moves

/-! ### Contents -/

theorem Frame.files (frame : Frame i w w') (j : Nat) :
    (w'.spaces j).fileMappings = (w.spaces j).fileMappings := by
  by_cases same : j = i
  · rw [same]
    exact frame.fileMappings
  · rw [frame.others j same]

/-- What an access finds depends on the backing of the page, the intervals of its space and the
page cache. -/
theorem contents_congr {page page' : Page} (backing : page'.backing = page.backing)
    (files : (w'.spaces j).fileMappings = (w.spaces j).fileMappings)
    (bytes : ∀ b, page.backing = some b → (w'.heap.pages b).bytes = (w.heap.pages b).bytes)
    (content : pager.content w'.cache w'.heap = pager.content w.cache w.heap) :
    w'.contents pager j l page' = w.contents pager j l page := by
  simp only [contents, backing, findFileMapping, files, fileContents, content]
  split
  · rename_i b found
    rw [bytes b found]
  · rfl

/-- What is not stored is not seen. -/
theorem Move.seen_of_stores_nothing {effects : List Effect} (move : Move pager i effects w w')
    (owned : w.Owned pager) (nothing : ∀ effect ∈ effects, effect.StoresNothing) (j l : Nat) :
    w'.seen pager j l = w.seen pager j l := by
  have files := move.frame.files
  cases move with
  | quiet quiet =>
    exact contents_congr pager (Page.backing_of_bare (page_quiet quiet)) (files j)
      (fun _ _ => rfl) rfl
  | tracked next origin bytes =>
    refine contents_congr pager rfl rfl (fun b _ => bytes b) ?_
    exact pager.content_keeps owned.valid ⟨next.ge, fun b _ => origin b, fun b _ _ => bytes b⟩
  | extended more valid content =>
    refine contents_congr pager rfl rfl (fun b found => ?_) content
    rw [more.kept b (owned.known j l b found)]
  | @placed _ k page _ mapped fit placing =>
    have contents : w.contents pager i k page = w.seen pager i k := by
      cases placing with
      | same contents _ _ => exact contents
      | share contents _ => exact contents
      | replace _ _ _ _ _ _ => exact absurd (nothing _ List.mem_cons_self) id
    by_cases here : j = i ∧ l = k
    · obtain ⟨rfl, rfl⟩ := here
      refine Eq.trans (contents_congr pager ?_ (files j) (fun _ _ => rfl) rfl) contents
      rw [page_placed, if_pos ⟨rfl, rfl⟩]
    · refine contents_congr pager ?_ (files j) (fun _ _ => rfl) rfl
      rw [page_placed, if_neg here]
  | stored _ _ _ _ => exact absurd (nothing _ List.mem_cons_self) id
  | held k backing shared => rfl

theorem Moves.seen_of_stores_nothing {effects : List Effect} (moves : Moves pager i effects w w')
    (nothing : ∀ effect ∈ effects, effect.StoresNothing) (kept : Kept pager i w) (j l : Nat) :
    w'.seen pager j l = w.seen pager j l := by
  induction moves with
  | refl => rfl
  | next move _ ih =>
    obtain ⟨here, rest⟩ := List.forall_mem_append.mp nothing
    rw [ih rest (move.kept pager kept), move.seen_of_stores_nothing pager kept.owned here]

theorem Moves.seen (moves : Moves pager i [] w w') (kept : Kept pager i w) (j l : Nat) :
    w'.seen pager j l = w.seen pager j l :=
  moves.seen_of_stores_nothing pager (fun _ => nofun) kept j l

theorem Moves.seen_of_shares {pages : List Nat} (moves : Moves pager i (pages.map .share) w w')
    (kept : Kept pager i w) (j l : Nat) : w'.seen pager j l = w.seen pager j l := by
  refine moves.seen_of_stores_nothing pager (fun effect member => ?_) kept j l
  obtain ⟨k, -, rfl⟩ := List.mem_map.mp member
  trivial

/-! ### Faults -/

/-- What a page may be that `load_page` and a transform give. -/
structure Given (w w' : World Cache) (span : Span FileMapping) (k : Nat) (b : BackingId) : Prop where
  known : b < w'.heap.next
  bytes : w.fileContents pager span k = some (w'.heap.pages b).bytes
  made : if span.value.mode = .copyOnWrite then (w'.heap.pages b).origin.Cached
    else span.value.transform = none → (w'.heap.pages b).origin.Vnode

theorem supply_spec (valid : pager.Valid w.cache w.heap) (span : Span FileMapping) (k : Nat) :
    ∃ cache heap, (w.supply pager span.value (FilePage.ofMapping span k)).1 =
        { w with cache, heap } ∧ w.heap.Extends heap ∧ pager.Valid cache heap ∧
      pager.content cache heap = pager.content w.cache w.heap ∧
      match (w.supply pager span.value (FilePage.ofMapping span k)).2 with
      | none => w.fileContents pager span k = none
      | some b => Given pager w { w with cache, heap } span k b := by
  have loaded := pager.load_spec valid (FilePage.ofMapping span k) (span.value.mode ≠ .copyOnWrite)
  have made := pager.load_origin valid (FilePage.ofMapping span k) (span.value.mode ≠ .copyOnWrite)
  obtain ⟨valid', content⟩ :=
    pager.load_valid valid (FilePage.ofMapping span k) (span.value.mode ≠ .copyOnWrite)
  cases result : pager.load w.cache w.heap (FilePage.ofMapping span k)
    (span.value.mode ≠ .copyOnWrite) with
  | mk cache rest =>
  obtain ⟨heap, b⟩ := rest
  rw [result] at loaded made valid' content
  have image (mode : span.value.mode = .copyOnWrite) : (heap.pages b).origin = .image := by
    rw [made, mode]
    rfl
  have vnode (mode : span.value.mode ≠ .copyOnWrite) : (heap.pages b).origin.Vnode :=
    ⟨_, _, made.trans (if_pos (decide_eq_true mode))⟩
  cases transform : span.value.transform with
  | none =>
    simp only [supply, result, transform]
    refine ⟨cache, heap, rfl, loaded.heap, valid', content, loaded.known, ?_, ?_⟩
    · simp only [fileContents, transform]
      exact congrArg some loaded.bytes.symm
    · split
      · exact .inr (image ‹_›)
      · exact fun _ => vnode ‹_›
  | some transform' =>
    have applied :=
      pager.apply_spec valid' transform' (FilePage.ofMapping span k).offset (b := b) loaded.known
    obtain ⟨valid'', content'⟩ :=
      pager.apply_valid valid' transform' (FilePage.ofMapping span k).offset (b := b) loaded.known
    cases result' : pager.apply transform' cache heap b (FilePage.ofMapping span k).offset with
    | mk cache' rest' =>
    obtain ⟨heap', found⟩ := rest'
    rw [result'] at applied valid'' content'
    simp only [supply, result, transform, result']
    cases found with
    | none =>
      refine ⟨cache', heap', rfl, loaded.heap.trans applied.1, valid'', content'.trans content, ?_⟩
      simp only [fileContents, transform]
      rw [← applied.2, loaded.bytes]
    | some b' =>
      obtain ⟨bytes, transformed, given, origin⟩ := applied
      refine ⟨cache', heap', rfl, loaded.heap.trans given.heap, valid'', content'.trans content,
        given.known, ?_, ?_⟩
      · simp only [fileContents, transform, given.bytes]
        rw [← transformed, loaded.bytes]
      · split
        · rename_i mode
          rcases origin with same | interned
          · refine .inr ?_
            rw [same, given.heap.kept _ loaded.known]
            exact image mode
          · exact .inl interned
        · intro absent
          rw [transform] at absent
          contradiction

theorem edit_edit (first second : AddressSpace → AddressSpace) :
    (w.edit i first).edit i second = w.edit i fun s => second (first s) := by
  simp only [edit, Function.update_self, Function.update_idem]

theorem edit_congr {first second : AddressSpace → AddressSpace}
    (same : first (w.spaces i) = second (w.spaces i)) : w.edit i first = w.edit i second := by
  simp only [edit, same]

/-- A page with a backing is stored, and counted if there was none. -/
theorem setPage_counted {page : Page} (some : page.backing.isSome) :
    (if (w.page i k).backing.isNone then w.recordResidentPage i else w).setPage i k page =
      w.edit i (placed k page) := by
  rw [page_backing]
  split
  · rename_i absent
    simp only [recordResidentPage, setPage, edit_edit]
    apply edit_congr
    rw [placed, if_pos ⟨absent, some⟩]
  · rename_i present
    apply edit_congr
    rw [placed, if_neg fun both => present both.1]

theorem recordResidentPage_setPage {page : Page} (absent : (w.page i k).backing = none)
    (some : page.backing.isSome) :
    (w.setPage i k page).recordResidentPage i = w.edit i (placed k page) := by
  rw [page_backing] at absent
  simp only [recordResidentPage, setPage, edit_edit]
  apply edit_congr
  rw [placed, if_pos ⟨by rw [absent]; rfl, some⟩]

theorem setPage_placed {page : Page} (same : (w.page i k).backing.isSome ∨ page.backing = none) :
    w.setPage i k page = w.edit i (placed k page) := by
  rw [page_backing] at same
  apply edit_congr
  rw [placed, if_neg]
  rintro ⟨absent, some⟩
  rcases same with present | none
  · rw [Option.isNone_iff_eq_none.mp absent] at present
    contradiction
  · rw [none] at some
    contradiction

section Silent
variable {pager}

theorem Moves.tracking {heap : PageHeap} (epoch : Nat) (next : heap.next = w.heap.next)
    (same : ∀ b, (heap.pages b).origin = (w.heap.pages b).origin ∧
      (heap.pages b).bytes = (w.heap.pages b).bytes) :
    Moves pager i [] w { w with heap, sharedWriteTrackingEpoch := epoch } :=
  .single pager (.tracked next (fun b => (same b).1) fun b => (same b).2)

theorem modify_same {heap : PageHeap} {change : GuestPageBacking → GuestPageBacking}
    (same : ∀ page, (change page).origin = page.origin ∧ (change page).bytes = page.bytes)
    (c : BackingId) : ((heap.modify b change).pages c).origin = (heap.pages c).origin ∧
      ((heap.modify b change).pages c).bytes = (heap.pages c).bytes := by
  simp only [PageHeap.modify, Function.update_apply]
  split
  · rename_i here
    subst here
    exact same _
  · exact ⟨rfl, rfl⟩

theorem Moves.enableSharedWriteTracking (b : BackingId) :
    Moves pager i [] w (w.enableSharedWriteTracking b).1 := by
  simp only [World.enableSharedWriteTracking]
  split
  · exact .refl w
  · exact .tracking _ rfl (modify_same fun _ => ⟨rfl, rfl⟩)

theorem quiet_finishSharedWriteTracking (initialEpoch localTransitions : Nat)
    (mayHaveAliases : Bool) : ∃ change,
      w.finishSharedWriteTracking i initialEpoch localTransitions mayHaveAliases = w.edit i change ∧
        Quiet (w.spaces i) (change (w.spaces i)) := by
  refine ⟨_, rfl, .of_mappings ?_⟩
  have noted (s : AddressSpace) (epoch : Nat) :
      mappings { s with observedSharedWriteTrackingEpoch := epoch } = s.mappings := rfl
  rw [noted]
  split
  · exact mappings_invalidateSharedWriteJitPages
  · rfl

theorem Moves.finishSharedWriteTracking (initialEpoch localTransitions : Nat)
    (mayHaveAliases : Bool) : Moves pager i [] w
      (w.finishSharedWriteTracking i initialEpoch localTransitions mayHaveAliases) := by
  obtain ⟨change, same, quiet⟩ := quiet_finishSharedWriteTracking (w := w) (i := i) initialEpoch
    localTransitions mayHaveAliases
  rw [same]
  exact .quiet pager quiet

theorem Moves.refreshJitPage : Moves pager i [] w (w.refreshJitPage i k) :=
  .quiet pager .refreshJitPage

theorem Moves.trackSharedPage (b : BackingId) : Moves pager i [] w (w.trackSharedPage i b) := by
  have enabled : Moves pager i [] w (w.enableSharedWriteTracking b).1 :=
    .enableSharedWriteTracking b
  simp only [World.trackSharedPage]
  exact enabled.silent pager (.finishSharedWriteTracking _ _ _)

theorem Moves.accountVmAccess (address : BitVec 32) (size : Nat) (access : MemoryPermission)
    (execution : Bool) : Moves pager i [] w (w.accountVmAccess i address size access execution) :=
  .quiet pager (.accountVmAccess _ _ _ _)

end Silent

theorem page_extended {cache : Cache} {heap : PageHeap} :
    ({ w with cache, heap } : World Cache).page i k = w.page i k := rfl

theorem fileContents_extended {cache : Cache} {heap : PageHeap}
    (content : pager.content cache heap = pager.content w.cache w.heap) (span : Span FileMapping) :
    ({ w with cache, heap } : World Cache).fileContents pager span k =
      w.fileContents pager span k := by
  simp only [fileContents, content]

/-- A page of an interval that `fault_file_page_locked` takes from the page cache. -/
theorem Given.fit (kept : Kept pager i w) {cache : Cache} {heap : PageHeap}
    {span : Span FileMapping} (given : Given pager w { w with cache, heap } span k b)
    (found : (w.spaces i).findFileMapping (k * pageSize) = some span)
    (absent : (w.page i k).backing = none) (page : Page) :
    ({ w with cache, heap } : World Cache).Fit i k (faulted span.value b page) := by
  have member := List.mem_of_find?_eq_some found
  have plain (mode : span.value.mode ≠ .copyOnWrite) : span.value.transform = none := by
    by_contra transformed
    exact mode ((kept.indexed.filed span member).transform (Option.isSome_iff_ne_none.mpr transformed))
  have made := given.made
  have foreign : (heap.pages b).origin ≠ .anonymous := by
    intro anonymous
    split at made
    · rcases made with other | other
      · exact PageOrigin.noConfusion (anonymous.symm.trans other)
      · exact PageOrigin.noConfusion (anonymous.symm.trans other)
    · obtain ⟨source, fileOffset, other⟩ := made (plain ‹_›)
      exact PageOrigin.noConfusion (anonymous.symm.trans other)
  have same {c : BackingId} (here : (faulted span.value b page).backing = some c) : c = b :=
    (Option.some.inj here).symm
  have unbacked : ¬(w.page i k).backing.isSome := by
    rw [absent]
    exact Bool.false_ne_true
  refine ⟨fun _ => rfl, fun some => absurd some unbacked,
    fun c here => same here ▸ given.known, fun c here origin => ?_,
    fun c here origin => absurd (same here ▸ origin) foreign,
    fun c here origin => absurd (same here ▸ origin) foreign,
    fun c here origin => absurd (same here ▸ origin) foreign⟩
  · rw [same here] at origin
    have mode : span.value.mode = .copyOnWrite := by
      by_contra mode
      rw [if_neg mode] at made
      obtain ⟨source, fileOffset, vnode⟩ := made (plain mode)
      rcases origin with other | other
      · exact PageOrigin.noConfusion (other.symm.trans vnode)
      · exact PageOrigin.noConfusion (other.symm.trans vnode)
    simp [faulted, mode]

theorem faultFilePage_moves (kept : Kept pager i w) {span : Span FileMapping}
    (found : (w.spaces i).findFileMapping (k * pageSize) = some span)
    (absent : (w.page i k).backing = none) :
    Moves pager i [] w (w.faultFilePage pager i k span).1 ∧
      ((w.faultFilePage pager i k span).2 = true →
        ((w.faultFilePage pager i k span).1.page i k).backing.isSome) ∧
      ((w.faultFilePage pager i k span).2 = true ↔ (w.seen pager i k).isSome) := by
  obtain ⟨cache, heap, supplied, more, valid, content, answer⟩ :=
    supply_spec pager kept.owned.valid span k
  have member := List.mem_of_find?_eq_some found
  have around : span.Contains (k * pageSize) := by simpa using List.find?_some found
  have mapped := (kept.indexed.filed span member).mapped k around
  have seen : w.seen pager i k = w.fileContents pager span k := by
    simp only [World.seen, contents, absent, found]
  cases result : w.supply pager span.value (FilePage.ofMapping span k) with
  | mk w₁ backing =>
  rw [result] at supplied answer
  dsimp only at supplied answer
  have first : Moves pager i [] w w₁ := by
    rw [supplied]
    exact .single pager (.extended more valid content)
  cases backing with
  | none =>
    have rejected : w.fileContents pager span k = none := answer
    simp only [faultFilePage, result]
    refine ⟨first, nofun, iff_of_false Bool.false_ne_true ?_⟩
    rw [seen, rejected]
    exact Bool.false_ne_true
  | some b =>
    have given : Given pager w w₁ span k b := supplied ▸ answer
    have absent' : (w₁.page i k).backing = none := by
      rw [supplied]
      exact absent
    have found' : (w₁.spaces i).findFileMapping (k * pageSize) = some span := by
      rw [supplied]
      exact found
    have second : Moves pager i [] w₁ (w₁.edit i (placed k (faulted span.value b (w₁.page i k)))) := by
      have fit : w₁.Fit i k (faulted span.value b (w₁.page i k)) := by
        rw [supplied]
        exact Given.fit pager kept (supplied ▸ given) found absent _
      refine .single pager (.placed (supplied ▸ mapped) fit (.same ?_ ?_ ?_))
      · have before : w₁.seen pager i k = w.fileContents pager span k := by
          simp only [World.seen, contents, absent', found']
          rw [supplied]
          exact fileContents_extended pager content span
        rw [before, given.bytes]
        rfl
      · intro shared
        simp only [faulted, Bool.and_eq_true, decide_eq_true_eq, Bool.not_eq_true'] at shared
        exact .inr ⟨absent', span, found', shared.1, shared.2⟩
      · exact .inr (.inl ⟨absent', by rw [found']; rfl⟩)
    have stored : ((w₁.edit i (placed k (faulted span.value b (w₁.page i k)))).page i
        k).backing.isSome := by
      rw [page_placed, if_pos ⟨rfl, rfl⟩]
      rfl
    have whole : (w.seen pager i k).isSome := by
      rw [seen, given.bytes]
      rfl
    have both := first.silent pager second
    simp only [faultFilePage, result]
    rw [setPage_counted (show (faulted span.value b (w₁.page i k)).backing.isSome from rfl)]
    split
    · have tracked : Moves pager i [] (w₁.edit i (placed k (faulted span.value b (w₁.page i k))))
          ((w₁.edit i (placed k (faulted span.value b (w₁.page i k)))).trackSharedPage i b) :=
        .trackSharedPage b
      exact ⟨both.silent pager tracked, fun _ => tracked.frame.keeps k stored,
        iff_of_true trivial whole⟩
    · exact ⟨both, fun _ => stored, iff_of_true trivial whole⟩

/-- An access to the page needs no fault. -/
def Ensured (w : World Cache) (i k : Nat) : Prop :=
  (w.page i k).backing.isSome ∨ (w.spaces i).findFileMapping (k * pageSize) = none

theorem Frame.ensured (frame : Frame i w w') (ensured : w.Ensured i k) : w'.Ensured i k := by
  rcases ensured with present | plain
  · exact .inl (frame.keeps k present)
  · refine .inr ?_
    rw [findFileMapping, frame.fileMappings]
    exact plain

theorem page_eq_of_absent (absent : k ∉ (w.spaces i).pages) : w.page i k = {} := by
  rw [World.page, AList.lookup_eq_none.mpr absent]
  rfl

theorem emplacePage_moves (mapped : MapsPage (w.spaces i).vmMap k) :
    Moves pager i [] w (w.emplacePage i k) := by
  simp only [emplacePage]
  split
  · exact .refl w
  · rename_i absent
    have page := page_eq_of_absent absent
    rw [setPage_placed (.inr rfl)]
    refine .single pager (.placed mapped ⟨?_, ?_, nofun, nofun, nofun, nofun, nofun⟩
      (.same ?_ nofun (.inl ?_)))
    · rw [page]
      exact id
    · rw [page]
      exact fun _ => id
    · simp only [World.seen, page]
    · rw [page]

theorem emplacePage_absent (absent : (w.page i k).backing = none) :
    ((w.emplacePage i k).page i k).backing = none := by
  simp only [emplacePage]
  split
  · exact absent
  · simp only [World.page, setPage, edit_spaces_self, AList.lookup_insert]
    rfl

/-- The fault of one page, with the refresh of its tables. -/
theorem faultPage_moves (kept : Kept pager i w) {span : Span FileMapping}
    (found : (w.spaces i).findFileMapping (k * pageSize) = some span)
    (absent : (w.page i k).backing = none) :
    let faulted := (w.emplacePage i k).faultFilePage pager i k span
    Moves pager i [] w faulted.1 ∧ (faulted.2 = true → (faulted.1.page i k).backing.isSome) ∧
      (faulted.2 = true ↔ (w.seen pager i k).isSome) := by
  have member := List.mem_of_find?_eq_some found
  have around : span.Contains (k * pageSize) := by simpa using List.find?_some found
  have mapped := (kept.indexed.filed span member).mapped k around
  have emplaced := emplacePage_moves pager mapped
  have same := emplaced.seen pager kept i k
  have found' : ((w.emplacePage i k).spaces i).findFileMapping (k * pageSize) = some span := by
    rw [findFileMapping, emplaced.frame.fileMappings]
    exact found
  obtain ⟨moves, backed, whole⟩ :=
    faultFilePage_moves pager (emplaced.kept pager kept) found' (emplacePage_absent absent)
  exact ⟨emplaced.silent pager moves, backed, by rw [whole, same]⟩

theorem Ensured.seen (ensured : w.Ensured i k) : (w.seen pager i k).isSome := by
  simp only [World.seen, contents]
  split
  · rfl
  · rename_i absent
    rcases ensured with present | plain
    · rw [absent] at present
      contradiction
    · rw [plain]
      rfl

theorem ensurePage_moves (kept : Kept pager i w) (mapped : MapsPage (w.spaces i).vmMap k) :
    Moves pager i [] w (w.ensurePage pager i k).1 ∧
      ((w.ensurePage pager i k).2 = true → (w.ensurePage pager i k).1.Ensured i k) ∧
      ((w.ensurePage pager i k).2 = true ↔ (w.seen pager i k).isSome) := by
  have emplaced := emplacePage_moves pager mapped
  simp only [ensurePage]
  split
  · rename_i present
    exact ⟨.refl w, fun _ => .inl present,
      iff_of_true rfl (Ensured.seen pager (.inl present))⟩
  · rename_i absent
    have absent : (w.page i k).backing = none := by simpa using absent
    cases found : ((w.emplacePage i k).spaces i).findFileMapping (k * pageSize) with
    | none =>
      have plain : (w.spaces i).findFileMapping (k * pageSize) = none := by
        rw [← found, findFileMapping, findFileMapping, emplaced.frame.fileMappings]
      exact ⟨emplaced, fun _ => .inr found, iff_of_true rfl (Ensured.seen pager (.inr plain))⟩
    | some span =>
      have found' : (w.spaces i).findFileMapping (k * pageSize) = some span := by
        rw [← found, findFileMapping, findFileMapping, emplaced.frame.fileMappings]
      obtain ⟨moves, backed, whole⟩ := faultPage_moves pager kept found' absent
      dsimp only
      cases result : (w.emplacePage i k).faultFilePage pager i k span with
      | mk w' done =>
      rw [result] at moves backed whole
      cases done with
      | false => exact ⟨moves, nofun, whole⟩
      | true =>
        exact ⟨moves.silent pager .refreshJitPage,
          fun _ => .inl ((.refreshJitPage : Moves pager i [] _ _).frame.keeps k (backed rfl)), whole⟩

/-- The pages of a range that is faulted or ensured. -/
structure EnsuredAll (w : World Cache) (i : Nat) (pages : List Nat) (w' : World Cache) (done : Bool) :
    Prop where
  moves : Moves pager i [] w w'
  ensured : done = true → ∀ k ∈ pages, w'.Ensured i k
  whole : done = true ↔ ∀ k ∈ pages, (w.seen pager i k).isSome

/-- A page at a time. -/
theorem EnsuredAll.cons {pages : List Nat} {w₁ w₂ : World Cache} {done : Bool} (kept : Kept pager i w)
    (first : Moves pager i [] w w₁) (ensured : w₁.Ensured i k)
    (rest : EnsuredAll pager w₁ i pages w₂ done) : EnsuredAll pager w i (k :: pages) w₂ done where
  moves := first.silent pager rest.moves
  ensured finished other member := by
    rcases List.mem_cons.mp member with rfl | later
    · exact rest.moves.frame.ensured ensured
    · exact rest.ensured finished other later
  whole := by
    have same := first.seen pager kept i
    rw [rest.whole, List.forall_mem_cons, ← same k]
    have here := Ensured.seen pager ensured
    constructor
    · exact fun later => ⟨here, fun other member => same other ▸ later other member⟩
    · exact fun both other member => (same other).symm ▸ both.2 other member

theorem EnsuredAll.stop {pages : List Nat} {w₁ : World Cache} (first : Moves pager i [] w w₁)
    (rejected : ¬(w.seen pager i k).isSome) : EnsuredAll pager w i (k :: pages) w₁ false where
  moves := first
  ensured := nofun
  whole := iff_of_false Bool.false_ne_true fun all => rejected (all k List.mem_cons_self)

theorem EnsuredAll.nil : EnsuredAll pager w i [] w true :=
  ⟨.refl w, fun _ _ => nofun, iff_of_true rfl fun _ => nofun⟩

theorem ensureEach_moves {pages : List Nat} (kept : Kept pager i w)
    (mapped : ∀ k ∈ pages, MapsPage (w.spaces i).vmMap k) :
    EnsuredAll pager w i pages (ensureEach pager i pages w).1 (ensureEach pager i pages w).2 := by
  induction pages generalizing w with
  | nil => exact .nil pager
  | cons k rest ih =>
    obtain ⟨moves, ensured, whole⟩ := ensurePage_moves pager kept (mapped k List.mem_cons_self)
    simp only [ensureEach]
    cases result : w.ensurePage pager i k with
    | mk w' done =>
    rw [result] at moves ensured whole
    cases done with
    | false => exact .stop pager moves fun found => Bool.false_ne_true (whole.mpr found)
    | true =>
      refine .cons pager kept moves (ensured rfl) (ih (moves.kept pager kept) fun other member => ?_)
      rw [moves.frame.vmMap]
      exact mapped other (List.mem_cons_of_mem k member)

theorem faultEach_moves (pages : List Nat) (kept : Kept pager i w) :
    EnsuredAll pager w i pages (faultEach pager i pages w).1 (faultEach pager i pages w).2 := by
  induction pages generalizing w with
  | nil => exact .nil pager
  | cons k rest ih =>
    simp only [faultEach]
    split
    · rename_i present
      exact .cons pager kept (.refl w) (.inl present) (ih kept)
    · rename_i absent
      have absent : (w.page i k).backing = none := by simpa using absent
      cases found : (w.spaces i).findFileMapping (k * pageSize) with
      | none => exact .cons pager kept (.refl w) (.inr found) (ih kept)
      | some span =>
        obtain ⟨moves, backed, whole⟩ := faultPage_moves pager kept found absent
        dsimp only
        cases result : (w.emplacePage i k).faultFilePage pager i k span with
        | mk w' done =>
        rw [result] at moves backed whole
        cases done with
        | false => exact .stop pager moves fun some => Bool.false_ne_true (whole.mpr some)
        | true =>
          have refreshed := moves.silent pager (.refreshJitPage (k := k))
          refine .cons pager kept refreshed (.inl ?_) (ih (refreshed.kept pager kept))
          exact (.refreshJitPage : Moves pager i [] _ _).frame.keeps k (backed rfl)

/-! ### Reads -/

theorem faultFilePages_moves (kept : Kept pager i w) (address : BitVec 32) (size : Nat) :
    Moves pager i [] w (w.faultFilePages pager i address size).1 := by
  simp only [faultFilePages]
  split
  · exact .refl w
  · split
    · exact .refl w
    · exact (faultEach_moves pager _ kept).moves

theorem readLoop_moves (kept : Kept pager i w) (address : BitVec 32) (size : Nat)
    (access : MemoryPermission) (rounds : Nat) :
    Moves pager i [] w (readLoop pager i address size access rounds w).1 := by
  induction rounds generalizing w with
  | zero => exact .refl w
  | succ rounds ih =>
    have charged : Moves pager i [] w (w.accountVmAccess i address size access false) :=
      .accountVmAccess address size access false
    have kept' := charged.kept pager kept
    simp only [readLoop]
    generalize w.accountVmAccess i address size access false = w' at charged kept' ⊢
    split
    · exact charged
    · split
      · exact charged
      · have faulted := faultFilePages_moves pager kept' address size
        cases result : w'.faultFilePages pager i address size with
        | mk w'' done =>
        rw [result] at faulted
        have both := charged.silent pager faulted
        cases done with
        | false => exact both
        | true => exact both.silent pager (ih (both.kept pager kept))

theorem prepareInstructionFetch_moves (kept : Kept pager i w) (address : BitVec 32) (size : Nat) :
    Moves pager i [] w (w.prepareInstructionFetch pager i address size).1 := by
  have charged : Moves pager i []
      w (w.accountVmAccess i address size MemoryPermission.execute true) :=
    .accountVmAccess address size MemoryPermission.execute true
  have kept' := charged.kept pager kept
  simp only [prepareInstructionFetch]
  generalize w.accountVmAccess i address size MemoryPermission.execute true = w' at charged kept' ⊢
  split
  · exact charged
  · split
    · exact charged
    · exact charged.silent pager (faultFilePages_moves pager kept' address size)

end World

end ILEmu.AddressSpace
