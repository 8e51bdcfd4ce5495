import ILEmu.Memory.AddressSpaceMoves
import Mathlib.Algebra.Order.BigOperators.Group.List
import Mathlib.Algebra.Order.Group.Nat

/-! The moves of writes: a page gets a backing that may be written, and the pieces of a transfer
are stored one after the other. -/
namespace ILEmu.AddressSpace
open Foundation
open Memory.FilePageCache (Byte PageBytes guestMemoryPageSize)
namespace World
variable {Cache : Type} (pager : FilePager Cache) {w w' : World Cache} {i j k l : Nat} {b : BackingId}

/-! ### Backings that are written -/

theorem sum_range_le {f : Nat → Nat} {n j : Nat} (inside : j < n) :
    f j ≤ ((List.range n).map f).sum :=
  List.le_sum_of_mem (List.mem_map_of_mem (List.mem_range.mpr inside))

theorem sum_range_two {f : Nat → Nat} {n j m : Nat} (inside : j < n) (inside' : m < n)
    (different : j ≠ m) : f j + f m ≤ ((List.range n).map f).sum := by
  induction n with
  | zero => exact absurd inside (Nat.not_lt_zero _)
  | succ n ih =>
    rw [List.range_succ, List.map_append, List.sum_append, List.map_singleton, List.sum_singleton]
    by_cases last : j = n
    · have rest := sum_range_le (f := f) (show m < n by omega)
      rw [last]
      omega
    · by_cases last' : m = n
      · have rest := sum_range_le (f := f) (show j < n by omega)
        rw [last']
        omega
      · have rest := ih (by omega) (by omega)
        omega

theorem refers {s : AddressSpace} (found : s.residentBacking k = some b) :
    ∃ page, s.pages.lookup k = some page ∧ page.backing = some b := by
  simp only [residentBacking, Option.bind_eq_some_iff] at found
  exact found

/-- Only one page refers to a backing with one owner. -/
theorem useCount_one (owned : w.Owned pager) (found : (w.page i k).backing = some b)
    (one : w.useCount pager b = 1) : b ∉ w.held ∧ w.Alone i k b := by
  let weight (page : Page) : Nat := (decide (page.backing = some b)).toNat
  let count (j : Nat) : Nat := Table.total weight (w.spaces j).pages
  have total : ((List.range w.count).map count).sum + w.held.count b + pager.owners w.cache b = 1 :=
    one
  have existing {j l : Nat} (refers : (w.page j l).backing = some b) : j < w.count := by
    by_contra later
    rw [owned.fresh j l (Nat.not_lt.mp later)] at refers
    contradiction
  have heavy {page : Page} (backing : page.backing = some b) : weight page = 1 := by
    simp only [weight, backing]
    rfl
  have counts {j l : Nat} (refers' : (w.page j l).backing = some b) : 1 ≤ count j := by
    obtain ⟨page, stored, backing⟩ := refers (page_backing ▸ refers')
    exact heavy backing ▸ Table.weight_le_total weight stored
  have here := counts found
  have inside := existing found
  have first := sum_range_le (f := count) inside
  constructor
  · intro member
    have held := List.count_pos_iff.mpr member
    omega
  · intro j l other
    have space : j = i := by
      by_contra different
      have there := counts other
      have both := sum_range_two (f := count) (existing other) inside different
      omega
    subst space
    refine ⟨rfl, ?_⟩
    by_contra different
    obtain ⟨page, stored, backing⟩ := refers (page_backing ▸ found)
    obtain ⟨page', stored', backing'⟩ := refers (page_backing ▸ other)
    have split : count j = weight page + Table.total weight ((w.spaces j).pages.erase k) :=
      Table.total_of_lookup weight stored
    have rest : weight page' ≤ Table.total weight ((w.spaces j).pages.erase k) := by
      refine Table.weight_le_total (a := l) weight ?_
      rw [Table.lookup_erase_eq, if_neg different]
      exact stored'
    have one := heavy backing
    have one' := heavy backing'
    omega

theorem construct_moves (kept : Kept pager i w) (page : GuestPageBacking) :
    Moves pager i [] w (w.construct page) := by
  have more := w.heap.extends_construct page
  exact .single pager (.extended more
    (pager.valid_keeps kept.owned.valid (more.keeps _))
    (pager.content_keeps kept.owned.valid (more.keeps _)))

theorem construct_fresh (page : GuestPageBacking) :
    ((w.construct page).heap.pages w.heap.next) = page := by
  simp only [World.construct, PageHeap.construct, Function.update_self]

theorem Owned.unused (owned : w.Owned pager) (j l : Nat) :
    (w.page j l).backing ≠ some w.heap.next :=
  fun found => Nat.lt_irrefl _ (owned.known j l _ found)

/-- A page with a new backing. -/
theorem fit_construct (owned : w.Owned pager) {page : GuestPageBacking} {page' : Page}
    (made : page.origin = .anonymous) (backing : page'.backing = some w.heap.next)
    (shares : (w.page i k).sharedWritable = true → page'.sharedWritable = true) :
    (w.construct page).Fit i k page' := by
  have same {c : BackingId} (here : page'.backing = some c) : c = w.heap.next :=
    Option.some.inj (here.symm.trans backing)
  have origin {c : BackingId} (here : page'.backing = some c) :
      ((w.construct page).heap.pages c).origin = .anonymous := by
    rw [same here, construct_fresh]
    exact made
  have nobody {c : BackingId} (here : page'.backing = some c) (j l : Nat) :
      ((w.construct page).page j l).backing ≠ some c := same here ▸ owned.unused pager j l
  refine ⟨fun _ => by rw [backing]; rfl, fun _ => shares,
    fun c here => same here ▸ Nat.lt_succ_self _,
    fun c here cached => ?_, fun c here _ _ => ⟨?_, ?_⟩, fun c here _ => .inr (nobody here),
    fun c here _ _ => .inr ?_⟩
  · rcases cached with other | other
    · exact PageOrigin.noConfusion ((origin here).symm.trans other)
    · exact PageOrigin.noConfusion ((origin here).symm.trans other)
  · exact fun member => Nat.lt_irrefl _ (same here ▸ (owned.held c member).1)
  · exact fun j l other => absurd other (nobody here j l)
  · exact fun j l other => absurd other (nobody here j l)

/-- The test of `writable_backing_locked` and `share_pages_locked` whether a page keeps its backing. -/
def Renewed (w : World Cache) (i k : Nat) (b : BackingId) : Prop :=
  (w.page i k).fileCached = true ∨ (w.page i k).copyOnWritePossible = true ∧
    (w.page i k).sharedWritable = false ∧ w.useCount pager b ≠ 1

/-- A page that keeps its backing and is not shared is nobody else's. -/
theorem kept_alone (owned : w.Owned pager) (found : (w.page i k).backing = some b)
    (kept : ¬Renewed pager w i k b) (made : (w.heap.pages b).origin = .anonymous)
    (own : (w.page i k).sharedWritable = false) : b ∉ w.held ∧ w.Alone i k b := by
  obtain ⟨uncached, uncopied⟩ := not_or.mp kept
  by_cases possible : (w.page i k).copyOnWritePossible = true
  · refine useCount_one pager owned found ?_
    by_contra others
    exact uncopied ⟨possible, own, others⟩
  · exact owned.sole i k b found made
      ⟨⟨by simpa using uncached, by simpa using possible⟩, own⟩

theorem fit_keep (owned : w.Owned pager) (found : (w.page i k).backing = some b)
    (kept : ¬Renewed pager w i k b) {page : Page} (backing : page.backing = some b)
    (shared : (w.page i k).sharedWritable = true → page.sharedWritable = true) :
    w.Fit i k page := by
  have same {c : BackingId} (here : page.backing = some c) : c = b :=
    Option.some.inj (here.symm.trans backing)
  have uncached : (w.page i k).fileCached = false := by simpa using (not_or.mp kept).1
  have unshared (own : page.sharedWritable = false) : (w.page i k).sharedWritable = false := by
    by_contra before
    rw [shared (by simpa using before)] at own
    contradiction
  refine ⟨fun _ => by rw [backing]; rfl, fun _ => shared,
    fun c here => same here ▸ owned.known i k b found,
    fun c here cached => ?_, fun c here made settled => ?_, fun c here _ => .inl (same here ▸ found),
    fun c here made _ => ?_⟩
  · rw [same here] at cached
    rw [(owned.cached i k b found cached).1] at uncached
    contradiction
  · rw [same here] at made ⊢
    exact kept_alone pager owned found kept made (unshared settled.2)
  · rw [same here] at made ⊢
    cases before : (w.page i k).sharedWritable with
    | true => exact .inl rfl
    | false => exact .inr (kept_alone pager owned found kept made before).2

/-- What `writable_backing_locked` and `share_pages_locked` do with a page: it gets a new backing
with its bytes unless it can keep the one that it has. -/
theorem ownPage_moves (kept : Kept pager i w) (mapped : MapsPage (w.spaces i).vmMap k)
    (ensured : w.Ensured i k) (change : BackingId → Page → Page) (effects : List Effect)
    (backing : ∀ b page, (change b page).backing = some b)
    (shared : ∀ b page, page.sharedWritable = true → (change b page).sharedWritable = true)
    (placing : ∀ w₁ : World Cache, ∀ b, w₁.Fit i k (change b (w₁.page i k)) →
      w₁.contents pager i k (change b (w₁.page i k)) = w₁.seen pager i k →
      w₁.Stays i k (change b (w₁.page i k)) →
      Placing pager w₁ i k (change b (w₁.page i k)) effects) :
    let renewed (page : GuestPageBacking) : World Cache :=
      (w.construct page).edit i (placed k (change w.heap.next (w.page i k)))
    match (w.page i k).backing with
    | none => Moves pager i effects w (renewed {})
    | some b =>
      Moves pager i effects w (renewed (w.heap.pages b).copy) ∧
        (¬Renewed pager w i k b →
          Moves pager i effects w (w.edit i (placed k (change b (w.page i k))))) := by
  have renew (page : GuestPageBacking) (made : page.origin = .anonymous)
      (bytes : w.seen pager i k = some page.bytes) :
      Moves pager i effects w
        ((w.construct page).edit i (placed k (change w.heap.next (w.page i k)))) := by
    have constructed := construct_moves pager kept page
    have fit := fit_construct pager (i := i) (k := k) kept.owned made
      (backing w.heap.next (w.page i k)) (shared w.heap.next _)
    refine constructed.silent pager (.single pager (.placed mapped fit ?_))
    refine placing (w.construct page) w.heap.next fit ?_
      (.inr (.inr ⟨w.heap.next, backing w.heap.next (w.page i k), ?_, ?_, ?_⟩))
    · rw [constructed.seen pager kept, bytes]
      simp only [contents, backing, construct_fresh]
    · rw [construct_fresh]
      exact made
    · exact fun member => Nat.lt_irrefl _ (kept.owned.held _ member).1
    · exact kept.owned.unused pager
  cases found : (w.page i k).backing with
  | none =>
    refine renew {} rfl ?_
    rcases ensured with present | plain
    · rw [found] at present
      contradiction
    · simp only [World.seen, contents, found, plain]
  | some b =>
    have bytes : w.seen pager i k = some (w.heap.pages b).bytes := by
      simp only [World.seen, contents, found]
    refine ⟨renew _ rfl bytes, fun keeps => ?_⟩
    have fit := fit_keep pager kept.owned found keeps (backing b (w.page i k)) (shared b _)
    refine .single pager (.placed mapped fit (placing w b fit ?_ ?_))
    · rw [bytes]
      simp only [contents, backing]
    · exact .inl ((backing b _).trans found.symm)

theorem writableBacking_moves (kept : Kept pager i w) (mapped : MapsPage (w.spaces i).vmMap k)
    (ensured : w.Ensured i k) :
    Moves pager i [] w (w.writableBacking pager i k).1 ∧
      ((w.writableBacking pager i k).1.page i k).backing.isSome ∧
      ((w.writableBacking pager i k).1.page i k).Ready := by
  have own := ownPage_moves pager kept mapped ensured settled [] (fun _ _ => rfl)
    (fun _ _ same => same) (fun _ _ _ contents stays => .same contents .inl stays)
  have ready (w₁ : World Cache) (b : BackingId) (page : Page) :
      ((w₁.edit i (placed k (settled b page))).page i k).backing.isSome ∧
        ((w₁.edit i (placed k (settled b page))).page i k).Ready := by
    rw [page_placed, if_pos ⟨rfl, rfl⟩]
    exact ⟨rfl, rfl, rfl⟩
  simp only [writableBacking]
  cases found : (w.page i k).backing with
  | none =>
    rw [found] at own
    have absent : ((w.construct {}).page i k).backing = none := found
    have some : (settled w.heap.next (w.page i k)).backing.isSome := rfl
    dsimp only
    rw [recordResidentPage_setPage absent some]
    exact ⟨own, ready _ _ _⟩
  | some b =>
    rw [found] at own
    dsimp only
    have present : (w.page i k).backing.isSome := by rw [found]; rfl
    split
    · have present' : ((w.construct (w.heap.pages b).copy).page i k).backing.isSome := present
      rw [setPage_placed (.inl present')]
      exact ⟨own.1, ready _ _ _⟩
    · rename_i keeps
      rw [setPage_placed (.inl present)]
      refine ⟨own.2 ?_, ready _ _ _⟩
      simpa [Renewed, and_assoc] using keeps

/-! ### Writes -/

theorem stored_moves (offset : Nat) (data : List Byte) (present : (w.page i k).backing.isSome)
    (ready : (w.page i k).Ready) :
    Moves pager i [.store k offset data] w (w.writePage i k offset data) := by
  obtain ⟨b, backing⟩ := Option.isSome_iff_exists.mp present
  exact .single pager (.stored offset data backing ready)

theorem storeWithin_moves (kept : Kept pager i w) (mapped : MapsPage (w.spaces i).vmMap k)
    (ensured : w.Ensured i k) (offset : Nat) (data : List Byte) :
    Moves pager i [.store k offset data] w (w.storeWithin pager i k offset data) := by
  obtain ⟨moves, present, ready⟩ := writableBacking_moves pager kept mapped ensured
  simp only [storeWithin]
  cases result : w.writableBacking pager i k with
  | mk w' changed =>
  rw [result] at moves present ready
  dsimp only
  split
  · have bare : ((w'.refreshJitPage i k).page i k).bare = (w'.page i k).bare := page_refreshJitPage
    have present' : ((w'.refreshJitPage i k).page i k).backing.isSome := by
      rw [Page.backing_of_bare bare]
      exact present
    have stored := stored_moves pager offset data present' ((Page.ready_of_bare bare).mpr ready)
    exact (moves.silent pager .refreshJitPage).silent pager stored
  · exact moves.silent pager (stored_moves pager offset data present ready)

theorem copyWithin_moves (kept : Kept pager i w) {address : BitVec 32}
    (mapped : MapsPage (w.spaces i).vmMap (pageIndex address))
    (ensured : w.Ensured i (pageIndex address)) (data : List Byte) :
    Moves pager i [.store (pageIndex address) (address.toNat % pageSize) data] w
      (w.copyWithin pager i address data) := by
  obtain ⟨moves, present, ready⟩ := writableBacking_moves pager kept mapped ensured
  have stored := stored_moves pager (address.toNat % pageSize) data present ready
  simp only [copyWithin]
  exact moves.silent pager stored

/-- The store of a piece of a transfer, which lies within one page. -/
def Effect.of (piece : BitVec 32 × List Byte) : Effect :=
  .store (pageIndex piece.1) (piece.1.toNat % pageSize) piece.2

/-- The pieces of a value that is stored byte by byte. -/
def bytePieces : BitVec 32 → List Byte → List (BitVec 32 × List Byte)
  | _, [] => []
  | address, byte :: rest => (address, [byte]) :: bytePieces (address + 1) rest

/-- The first pieces of a transfer are stored: all of them if it is done. -/
def Stored (w : World Cache) (i : Nat) (pieces : List (BitVec 32 × List Byte)) (w' : World Cache)
    (done : Bool) : Prop :=
  ∃ n, Moves pager i ((pieces.take n).map Effect.of) w w' ∧
    (if done then n = pieces.length else n < pieces.length)

theorem Stored.cons {pieces : List (BitVec 32 × List Byte)} {piece : BitVec 32 × List Byte}
    {w₁ w₂ : World Cache} {done : Bool} (first : Moves pager i [Effect.of piece] w w₁)
    (rest : Stored pager w₁ i pieces w₂ done) : Stored pager w i (piece :: pieces) w₂ done := by
  obtain ⟨n, moves, count⟩ := rest
  refine ⟨n + 1, first.trans pager moves, ?_⟩
  cases done with
  | true => exact congrArg (· + 1) count
  | false => exact Nat.succ_lt_succ count

theorem Stored.stop {pieces : List (BitVec 32 × List Byte)} {piece : BitVec 32 × List Byte}
    {w₁ : World Cache} (moves : Moves pager i [] w w₁) :
    Stored pager w i (piece :: pieces) w₁ false :=
  ⟨0, moves, Nat.succ_pos _⟩

theorem Stored.nil : Stored pager w i [] w true := ⟨0, .refl w, rfl⟩

theorem Stored.then_silent {pieces : List (BitVec 32 × List Byte)} {w₁ w₂ : World Cache} {done : Bool}
    (stored : Stored pager w i pieces w₁ done) (silent : Moves pager i [] w₁ w₂) :
    Stored pager w i pieces w₂ done := by
  obtain ⟨n, moves, count⟩ := stored
  exact ⟨n, moves.then_silent pager silent, count⟩

theorem Stored.silent {pieces : List (BitVec 32 × List Byte)} {w₁ w₂ : World Cache} {done : Bool}
    (silent : Moves pager i [] w w₁) (stored : Stored pager w₁ i pieces w₂ done) :
    Stored pager w i pieces w₂ done := by
  obtain ⟨n, moves, count⟩ := stored
  exact ⟨n, silent.silent pager moves, count⟩

theorem storeEach_moves {address : BitVec 32} {data : List Byte} (kept : Kept pager i w)
    (mapped : ∀ piece ∈ bytePieces address data, MapsPage (w.spaces i).vmMap (pageIndex piece.1)) :
    Stored pager w i (bytePieces address data) (storeEach pager i address data w).1
      (storeEach pager i address data w).2 := by
  induction data generalizing w address with
  | nil => exact .nil pager
  | cons byte rest ih =>
    have here := mapped (address, [byte]) List.mem_cons_self
    obtain ⟨moves, ensured, -⟩ := ensurePage_moves pager kept here
    simp only [storeEach]
    cases result : w.ensurePage pager i (pageIndex address) with
    | mk w' done =>
    rw [result] at moves ensured
    cases done with
    | false => exact .stop pager moves
    | true =>
      have kept' := moves.kept pager kept
      have stored := storeWithin_moves pager kept' (by rw [moves.frame.vmMap]; exact here)
        (ensured rfl) (address.toNat % pageSize) [byte]
      have both := moves.silent pager stored
      refine .cons pager both (ih (both.kept pager kept) fun piece member => ?_)
      rw [both.frame.vmMap]
      exact mapped piece (List.mem_cons_of_mem _ member)

theorem copyEach_moves {pieces : List (BitVec 32 × List Byte)} (kept : Kept pager i w)
    (mapped : ∀ piece ∈ pieces, MapsPage (w.spaces i).vmMap (pageIndex piece.1)) :
    Stored pager w i pieces (copyEach pager i pieces w).1 (copyEach pager i pieces w).2 := by
  induction pieces generalizing w with
  | nil => exact .nil pager
  | cons piece rest ih =>
    obtain ⟨address, data⟩ := piece
    have here := mapped (address, data) List.mem_cons_self
    obtain ⟨moves, ensured, -⟩ := ensurePage_moves pager kept here
    simp only [copyEach]
    cases result : w.ensurePage pager i (pageIndex address) with
    | mk w' done =>
    rw [result] at moves ensured
    cases done with
    | false => exact .stop pager moves
    | true =>
      have kept' := moves.kept pager kept
      have stored := copyWithin_moves pager kept' (by rw [moves.frame.vmMap]; exact here)
        (ensured rfl) data
      have both := moves.silent pager stored
      refine .cons pager both (ih (both.kept pager kept) fun other member => ?_)
      rw [both.frame.vmMap]
      exact mapped other (List.mem_cons_of_mem _ member)

/-! ### The addresses of the pieces -/

/-- The address of a piece of a transfer is one of its bytes. -/
def PieceOf (address : BitVec 32) (size : Nat) (piece : BitVec 32 × List Byte) : Prop :=
  ∃ n < size, piece.1 = address + BitVec.ofNat 32 n

theorem add_ofNat (address : BitVec 32) (n m : Nat) :
    address + BitVec.ofNat 32 n + BitVec.ofNat 32 m = address + BitVec.ofNat 32 (n + m) := by
  rw [BitVec.add_assoc, BitVec.ofNat_add]

theorem pieceOf_bytePieces {address : BitVec 32} {data : List Byte} {piece : BitVec 32 × List Byte}
    (member : piece ∈ bytePieces address data) : PieceOf address data.length piece := by
  induction data generalizing address with
  | nil => cases member
  | cons byte rest ih =>
    rcases List.mem_cons.mp member with rfl | later
    · exact ⟨0, Nat.succ_pos _, (BitVec.add_zero _).symm⟩
    · obtain ⟨n, inside, same⟩ := ih later
      refine ⟨n + 1, Nat.succ_lt_succ inside, ?_⟩
      rw [same, Nat.add_comm n 1, ← add_ofNat]
      rfl

theorem pieceOf_pageChunks {rounds : Nat} {address : BitVec 32} {data : List Byte}
    {piece : BitVec 32 × List Byte} (member : piece ∈ pageChunks rounds address data) :
    PieceOf address data.length piece := by
  induction rounds generalizing address data with
  | zero => cases member
  | succ rounds ih =>
    simp only [pageChunks] at member
    split at member
    · cases member
    · rename_i some
      have positive := List.length_pos_iff.mpr some
      rcases List.mem_cons.mp member with rfl | later
      · exact ⟨0, positive, (BitVec.add_zero _).symm⟩
      · obtain ⟨n, inside, same⟩ := ih later
        rw [List.length_drop] at inside
        exact ⟨pageSize - address.toNat % pageSize + n, by omega, by rw [same, add_ofNat]⟩

/-- The pages of the pieces are among those of the range. -/
theorem PieceOf.page {address : BitVec 32} {size : Nat} {piece : BitVec 32 × List Byte}
    (of : PieceOf address size piece) (fits : rangeOverflows address size = false) :
    pageIndex piece.1 ∈ pagesOf address size := by
  obtain ⟨n, inside, same⟩ := of
  have room : ¬(size ≠ 0 ∧ 2 ^ 32 - 1 - address.toNat < size - 1) := of_decide_eq_false fits
  have small := address.isLt
  have value : piece.1.toNat = address.toNat + n := by
    rw [same, BitVec.toNat_add, BitVec.toNat_ofNat]
    omega
  rw [mem_pagesOf, (pageRange_of (by omega) fits).2, pageIndex, pageIndex, value]
  simp only [pageSize, guestMemoryPageSize]
  omega

/-! ### Scalar accesses -/

section Silent
variable {pager}

theorem Moves.markWritten (address : BitVec 32) (size : Nat) :
    Moves pager i [] w (w.markWritten i address size) :=
  .quiet pager (.markWritten address size)

theorem Moves.markScalarWritten (heap : PageHeap) (address : BitVec 32) (size : Nat) :
    Moves pager i [] w (w.edit i (AddressSpace.markScalarWritten heap address size)) :=
  .quiet pager (.markScalarWritten address size)

theorem Moves.markWrittenBatch (heap : PageHeap) (ranges : List (BitVec 32 × Nat)) :
    Moves pager i [] w (w.edit i (AddressSpace.markWrittenBatch heap ranges)) :=
  .quiet pager (.markWrittenBatch ranges)

theorem Moves.refreshJitPages (heap : PageHeap) (pages : List Nat) :
    Moves pager i [] w (w.edit i (AddressSpace.refreshJitPages heap pages)) :=
  .quiet pager (.refreshJitPages pages)

theorem Moves.releaseExclusive (address : BitVec 32) (size : Nat) :
    Moves pager i [] w (w.releaseExclusive i address size) :=
  .quiet pager (.of_mappings (by simp))

end Silent

/-- The pieces in which an integer is stored: whole within a page, else byte by byte. -/
def scalarPieces (address : BitVec 32) (data : List Byte) : List (BitVec 32 × List Byte) :=
  if address.toNat % pageSize + data.length ≤ pageSize then [(address, data)]
  else bytePieces address data

theorem pieceOf_scalarPieces {address : BitVec 32} {data : List Byte} (some : data ≠ [])
    {piece : BitVec 32 × List Byte} (member : piece ∈ scalarPieces address data) :
    PieceOf address data.length piece := by
  simp only [scalarPieces] at member
  split at member
  · obtain rfl := List.mem_singleton.mp member
    exact ⟨0, List.length_pos_iff.mpr some, (BitVec.add_zero _).symm⟩
  · exact pieceOf_bytePieces member

theorem mapped_pieces {s : AddressSpace} (indexed : s.Indexed) {address : BitVec 32} {size : Nat}
    {access : MemoryPermission} (allowed : s.rangeAccessible address size access = true)
    {piece : BitVec 32 × List Byte} (of : PieceOf address size piece) :
    MapsPage s.vmMap (pageIndex piece.1) := by
  have some : size ≠ 0 := by
    obtain ⟨n, inside, -⟩ := of
    omega
  have fits : rangeOverflows address size = false := by
    simp only [rangeAccessible] at allowed
    split at allowed
    · contradiction
    · simpa using ‹¬rangeOverflows address size = true›
  exact (indexed.mapped_of_accessible allowed some).2 _ (of.page fits)

/-- The stores of an integer whose pages are all there. -/
theorem replaceInteger_moves (kept : Kept pager i w) {address : BitVec 32} {data : List Byte}
    (some : data ≠ []) (mapped : ∀ piece, PieceOf address data.length piece →
      MapsPage (w.spaces i).vmMap (pageIndex piece.1))
    (ensured : w.Ensured i (pageIndex address)) :
    Stored pager w i (scalarPieces address data) (w.replaceInteger pager i address data).1
      (w.replaceInteger pager i address data).2 := by
  simp only [replaceInteger, scalarPieces]
  split
  · have here := mapped (address, data) ⟨0, List.length_pos_iff.mpr some, (BitVec.add_zero _).symm⟩
    have stored := storeWithin_moves pager kept here ensured (address.toNat % pageSize) data
    refine ⟨1, ?_, rfl⟩
    exact (stored.then_silent pager (.markScalarWritten _ address data.length)).then_silent pager
      (.releaseExclusive address data.length)
  · have stored := storeEach_moves pager kept fun piece member =>
      mapped piece (pieceOf_bytePieces member)
    cases result : storeEach pager i address data w with
    | mk w' done =>
    rw [result] at stored
    cases done with
    | false => exact stored
    | true =>
      exact (stored.then_silent pager (.markWritten address data.length)).then_silent pager
        (.releaseExclusive address data.length)

theorem Stored.none {pieces : List (BitVec 32 × List Byte)} (some : pieces ≠ [])
    (moves : Moves pager i [] w w') : Stored pager w i pieces w' false :=
  ⟨0, moves, List.length_pos_iff.mpr some⟩

theorem scalarPieces_ne {address : BitVec 32} {data : List Byte} (some : data ≠ []) :
    scalarPieces address data ≠ [] := by
  simp only [scalarPieces]
  split
  · exact List.cons_ne_nil _ _
  · cases data with
    | nil => contradiction
    | cons byte rest => exact List.cons_ne_nil _ _

theorem writeInteger_moves (kept : Kept pager i w) (address : BitVec 32) {data : List Byte}
    (some : data ≠ []) :
    Stored pager w i (scalarPieces address data) (w.writeInteger pager i address data).1
      (w.writeInteger pager i address data).2 := by
  have charged : Moves pager i [] w
      (w.accountVmAccess i address data.length MemoryPermission.write false) :=
    .accountVmAccess _ _ _ _
  have kept' := charged.kept pager kept
  simp only [writeInteger]
  generalize w.accountVmAccess i address data.length MemoryPermission.write false = w₁
    at charged kept' ⊢
  split
  · exact .none pager (scalarPieces_ne some) charged
  · rename_i allowed
    have mapped (piece : BitVec 32 × List Byte) (of : PieceOf address data.length piece) :=
      mapped_pieces kept'.indexed (by simpa using allowed) of
    split
    · rename_i within
      have here := mapped (address, data)
        ⟨0, List.length_pos_iff.mpr some, (BitVec.add_zero _).symm⟩
      obtain ⟨moves, ensured, -⟩ := ensurePage_moves pager kept' here
      cases result : w₁.ensurePage pager i (pageIndex address) with
      | mk w₂ done =>
      rw [result] at moves ensured
      cases done with
      | false => exact .none pager (scalarPieces_ne some) (charged.silent pager moves)
      | true =>
        have kept₂ := moves.kept pager kept'
        have stored := replaceInteger_moves pager kept₂ some
          (fun piece of => by rw [moves.frame.vmMap]; exact mapped piece of) (ensured rfl)
        simp only [replaceInteger, if_pos within] at stored
        exact stored.silent pager (charged.silent pager moves)
    · rename_i crosses
      have stored := storeEach_moves pager kept' fun piece member =>
        mapped piece (pieceOf_bytePieces member)
      simp only [scalarPieces, if_neg crosses]
      cases result : storeEach pager i address data w₁ with
      | mk w' done =>
      rw [result] at stored
      cases done with
      | false => exact stored.silent pager charged
      | true =>
        exact (((stored.then_silent pager (.markWritten address data.length)).then_silent pager
          (.releaseExclusive address data.length))).silent pager charged

theorem pageIndex_mem_pagesOf {address : BitVec 32} {size : Nat} (some : size ≠ 0)
    (fits : rangeOverflows address size = false) : pageIndex address ∈ pagesOf address size :=
  PieceOf.page (⟨0, Nat.pos_of_ne_zero some, (BitVec.add_zero _).symm⟩ :
    PieceOf address size (address, [])) fits

theorem fits_of_accessible {s : AddressSpace} {address : BitVec 32} {size : Nat}
    {access : MemoryPermission} (allowed : s.rangeAccessible address size access = true) :
    rangeOverflows address size = false := by
  simp only [rangeAccessible] at allowed
  split at allowed
  · contradiction
  · simpa using ‹¬rangeOverflows address size = true›

/-- The pages of an atomic access are faulted before it is made. -/
theorem ensured_access (kept : Kept pager i w) {address : BitVec 32} {data : List Byte}
    (some : data ≠ []) {access : MemoryPermission}
    (allowed : (w.spaces i).rangeAccessible address data.length access = true) :
    EnsuredAll pager w i (pagesOf address data.length)
        (ensureEach pager i (pagesOf address data.length) w).1
        (ensureEach pager i (pagesOf address data.length) w).2 ∧
      pageIndex address ∈ pagesOf address data.length ∧
      ∀ piece, PieceOf address data.length piece → MapsPage
        ((ensureEach pager i (pagesOf address data.length) w).1.spaces i).vmMap
          (pageIndex piece.1) := by
  have size : data.length ≠ 0 := (List.length_pos_iff.mpr some).ne'
  have all := ensureEach_moves pager kept
    (kept.indexed.mapped_of_accessible allowed size).2
  refine ⟨all, pageIndex_mem_pagesOf size (fits_of_accessible allowed), fun piece of => ?_⟩
  rw [all.moves.frame.vmMap]
  exact mapped_pieces kept.indexed allowed of

theorem compareExchange_moves (kept : Kept pager i w) (address : BitVec 32) (expected : List Byte)
    {data : List Byte} (some : data ≠ []) :
    Stored pager w i (scalarPieces address data)
      (w.compareExchange pager i address expected data).1
      (w.compareExchange pager i address expected data).2 := by
  have charged : Moves pager i [] w
      (w.accountVmAccess i address data.length MemoryPermission.read false) :=
    .accountVmAccess _ _ _ _
  have kept' := charged.kept pager kept
  have released {w' : World Cache} (moves : Moves pager i [] w w') :
      Stored pager w i (scalarPieces address data) (w'.releaseExclusive i address data.length)
        false :=
    .none pager (scalarPieces_ne some) (moves.silent pager (.releaseExclusive address data.length))
  simp only [compareExchange]
  generalize w.accountVmAccess i address data.length MemoryPermission.read false = w₁
    at charged kept' ⊢
  split
  · exact released charged
  · rename_i allowed
    obtain ⟨all, first, mapped⟩ := ensured_access pager kept' some (by simpa using allowed)
    cases result : ensureEach pager i (pagesOf address data.length) w₁ with
    | mk w₂ done =>
    rw [result] at all mapped
    have both := charged.silent pager all.moves
    cases done with
    | false => exact .none pager (scalarPieces_ne some) both
    | true =>
      dsimp only
      split
      · exact released both
      · have written : Moves pager i [] w₂
            (w₂.accountVmAccess i address data.length MemoryPermission.write false) :=
          .accountVmAccess _ _ _ _
        have kept₂ := (all.moves.silent pager written).kept pager kept'
        have stored := replaceInteger_moves pager kept₂ some (fun piece of => by
          rw [written.frame.vmMap]; exact mapped piece of)
          (written.frame.ensured (all.ensured rfl _ first))
        exact stored.silent pager (both.silent pager written)

theorem exchange_moves (kept : Kept pager i w) (address : BitVec 32) {data : List Byte}
    (some : data ≠ []) :
    Stored pager w i (scalarPieces address data) (w.exchange pager i address data).1
      (w.exchange pager i address data).2.isSome := by
  have charged : Moves pager i [] w (w.accountVmAccess i address data.length
      (MemoryPermission.read ||| MemoryPermission.write) false) :=
    .accountVmAccess _ _ _ _
  have kept' := charged.kept pager kept
  simp only [exchange]
  generalize w.accountVmAccess i address data.length
    (MemoryPermission.read ||| MemoryPermission.write) false = w₁ at charged kept' ⊢
  split
  · exact .none pager (scalarPieces_ne some) charged
  · rename_i allowed
    obtain ⟨all, first, mapped⟩ := ensured_access pager kept' some (by simpa using allowed)
    cases result : ensureEach pager i (pagesOf address data.length) w₁ with
    | mk w₂ done =>
    rw [result] at all mapped
    have both := charged.silent pager all.moves
    cases done with
    | false => exact .none pager (scalarPieces_ne some) both
    | true =>
      have stored := replaceInteger_moves pager (all.moves.kept pager kept') some mapped
        (all.ensured rfl _ first)
      dsimp only
      cases result' : w₂.replaceInteger pager i address data with
      | mk w₃ done =>
      rw [result'] at stored
      cases done with
      | false => exact stored.silent pager both
      | true => exact stored.silent pager both

/-! ### Transfers -/

theorem admitEach_moves (operations : List (BitVec 32 × List Byte)) (kept : Kept pager i w)
    (guestWrite : Bool) :
    Moves pager i [] w (admitEach i guestWrite operations w).1 ∧
      ((admitEach i guestWrite operations w).2 = true → ∀ operation ∈ operations,
        ∃ access, ∃ w' : World Cache, Moves pager i [] w w' ∧
          (w'.spaces i).rangeAccessible operation.1 operation.2.length access = true) := by
  induction operations generalizing w with
  | nil => exact ⟨.refl w, fun _ _ => nofun⟩
  | cons operation rest ih =>
    obtain ⟨address, data⟩ := operation
    have charged : Moves pager i [] w (if guestWrite = true then
        w.accountVmAccess i address data.length MemoryPermission.write false else w) := by
      split
      · exact .accountVmAccess _ _ _ _
      · exact .refl w
    simp only [admitEach]
    generalize (if guestWrite = true then
        w.accountVmAccess i address data.length MemoryPermission.write false else w) = w₁ at charged ⊢
    by_cases checked : (decide (2 ^ 32 - 1 < data.length) || rangeOverflows address data.length ||
        !(w₁.spaces i).rangeAccessible address data.length (transferAccess guestWrite)) = true
    · rw [if_pos checked]
      exact ⟨charged, nofun⟩
    · rw [if_neg checked]
      simp only [Bool.or_eq_true, not_or, Bool.not_eq_true, Bool.not_eq_false'] at checked
      obtain ⟨moves, admitted⟩ := ih (charged.kept pager kept)
      refine ⟨charged.silent pager moves, fun done operation member => ?_⟩
      rcases List.mem_cons.mp member with rfl | later
      · exact ⟨_, w₁, charged, checked.2⟩
      · obtain ⟨access, w', moves', allowed⟩ := admitted done operation later
        exact ⟨access, w', charged.silent pager moves', allowed⟩

/-- The pieces of the operations of a batch. -/
def batchPieces (operations : List (BitVec 32 × List Byte)) : List (BitVec 32 × List Byte) :=
  operations.flatMap fun operation => chunks operation.1 operation.2

theorem copyBatch_moves (kept : Kept pager i w) {operations : List (BitVec 32 × List Byte)}
    (mapped : ∀ piece ∈ batchPieces operations, MapsPage (w.spaces i).vmMap (pageIndex piece.1)) :
    Stored pager w i (batchPieces operations) (w.copyBatch pager i operations).1
      (w.copyBatch pager i operations).2 := by
  have stored := copyEach_moves pager kept mapped
  simp only [copyBatch]
  rw [show (operations.flatMap fun operation => chunks operation.1 operation.2) =
    batchPieces operations from rfl]
  cases result : copyEach pager i (batchPieces operations) w with
  | mk w₁ done =>
  rw [result] at stored
  cases done with
  | false => exact stored
  | true =>
    dsimp only
    exact (stored.then_silent pager (.refreshJitPages _ _)).then_silent pager
      (.markWrittenBatch _ _)

/-- A batch that is refused stores nothing. -/
def Transferred (w : World Cache) (i : Nat) (operations : List (BitVec 32 × List Byte))
    (w' : World Cache) (done : Bool) : Prop :=
  Stored pager w i (batchPieces operations) w' done ∨ done = false ∧ Moves pager i [] w w'

theorem chunks_within {address : BitVec 32} {data : List Byte} (some : data ≠ [])
    (within : data.length ≤ pageSize - address.toNat % pageSize) :
    chunks address data = [(address, data)] := by
  simp only [chunks]
  obtain ⟨rounds, size⟩ := Nat.exists_eq_succ_of_ne_zero (List.length_pos_iff.mpr some).ne'
  rw [size]
  simp only [pageChunks, if_neg some, List.take_of_length_le within, List.drop_of_length_le within]
  cases rounds <;> simp [pageChunks]

theorem copyInBatchLocked_moves (kept : Kept pager i w)
    (operations : List (BitVec 32 × List Byte)) (guestWrite : Bool) :
    Transferred pager w i operations (w.copyInBatchLocked pager i operations guestWrite).1
      (w.copyInBatchLocked pager i operations guestWrite).2 := by
  obtain ⟨moves, admitted⟩ := admitEach_moves pager operations kept guestWrite
  simp only [copyInBatchLocked]
  cases result : admitEach i guestWrite operations w with
  | mk w₁ done =>
  rw [result] at moves admitted
  cases done with
  | false => exact .inr ⟨rfl, moves⟩
  | true =>
    have kept₁ := moves.kept pager kept
    have mapped : ∀ piece ∈ batchPieces operations,
        MapsPage (w₁.spaces i).vmMap (pageIndex piece.1) := by
      intro piece member
      obtain ⟨operation, member', inside⟩ := List.mem_flatMap.mp member
      obtain ⟨access, w', moves', allowed⟩ := admitted rfl operation member'
      have here := mapped_pieces (moves'.kept pager kept).indexed allowed (pieceOf_pageChunks inside)
      rw [moves'.frame.vmMap] at here
      rw [moves.frame.vmMap]
      exact here
    have batch := (copyBatch_moves pager kept₁ mapped).silent pager moves
    dsimp only
    split
    · rename_i address data
      split
      · rename_i within
        obtain ⟨some, inside⟩ := within
        have pieces : batchPieces [(address, data)] = [(address, data)] := by
          simp only [batchPieces, List.flatMap_cons, List.flatMap_nil, List.append_nil]
          exact chunks_within some inside
        have here := mapped (address, data) (by rw [pieces]; exact List.mem_singleton_self _)
        obtain ⟨moves', ensured, -⟩ := ensurePage_moves pager kept₁ here
        refine .inl ?_
        rw [pieces]
        cases result' : w₁.ensurePage pager i (pageIndex address) with
        | mk w₂ done =>
        rw [result'] at moves' ensured
        have both := moves.silent pager moves'
        cases done with
        | false => exact .stop pager both
        | true =>
          have stored := copyWithin_moves pager (both.kept pager kept)
            (by rw [moves'.frame.vmMap]; exact here) (ensured rfl) data
          refine ⟨1, ?_, rfl⟩
          exact (both.silent pager stored).then_silent pager
            (Moves.refreshJitPage.silent pager (.markWritten address data.length))
      · exact .inl batch
    · exact .inl batch

theorem chunk_within {rounds : Nat} {address : BitVec 32} {data : List Byte}
    {piece : BitVec 32 × List Byte} (member : piece ∈ pageChunks rounds address data) :
    piece.2 ≠ [] ∧ piece.2.length ≤ pageSize - piece.1.toNat % pageSize := by
  induction rounds generalizing address data with
  | zero => cases member
  | succ rounds ih =>
    simp only [pageChunks] at member
    split at member
    · cases member
    · rename_i some
      rcases List.mem_cons.mp member with rfl | later
      · have room : address.toNat % pageSize < pageSize := Nat.mod_lt _ (by decide)
        refine ⟨?_, List.length_take_le _ _⟩
        rw [Ne, List.take_eq_nil_iff, not_or]
        exact ⟨by omega, some⟩
      · exact ih later

def pieceBytes (pieces : List (BitVec 32 × List Byte)) : Nat :=
  (pieces.map fun piece => piece.2.length).sum

/-- A transfer chunk by chunk stores what it counts. -/
theorem copyToUserEach_moves {pieces : List (BitVec 32 × List Byte)} (transferred : Nat)
    (kept : Kept pager i w)
    (within : ∀ piece ∈ pieces, piece.2 ≠ [] ∧ piece.2.length ≤ pageSize - piece.1.toNat % pageSize) :
    ∃ n, Moves pager i ((pieces.take n).map Effect.of) w
        (copyToUserEach pager i pieces w transferred).1 ∧
      (copyToUserEach pager i pieces w transferred).2.2 =
        transferred + pieceBytes (pieces.take n) ∧
      ((copyToUserEach pager i pieces w transferred).2.1 = true → n = pieces.length) ∧
      ((copyToUserEach pager i pieces w transferred).2.1 = false → n < pieces.length) := by
  induction pieces generalizing w transferred with
  | nil => exact ⟨0, .refl w, rfl, fun _ => rfl, nofun⟩
  | cons piece rest ih =>
    obtain ⟨address, data⟩ := piece
    obtain ⟨some, inside⟩ := within (address, data) List.mem_cons_self
    have copied := copyInBatchLocked_moves pager kept [(address, data)] true
    have pieces : batchPieces [(address, data)] = [(address, data)] := by
      simp only [batchPieces, List.flatMap_cons, List.flatMap_nil, List.append_nil]
      exact chunks_within some inside
    simp only [copyToUserEach]
    cases result : w.copyInBatchLocked pager i [(address, data)] true with
    | mk w₁ done =>
    rw [result] at copied
    cases done with
    | false =>
      refine ⟨0, ?_, rfl, nofun, fun _ => Nat.succ_pos _⟩
      rcases copied with stored | refused
      · obtain ⟨n, moves, fewer⟩ := stored
        rw [pieces] at moves fewer
        obtain rfl : n = 0 := Nat.lt_one_iff.mp fewer
        exact moves
      · exact refused.2
    | true =>
      rcases copied with stored | refused
      · obtain ⟨n, moves, all⟩ := stored
        rw [pieces] at moves all
        obtain rfl : n = 1 := all
        obtain ⟨m, moves', counted, finished, unfinished⟩ := ih (transferred + data.length)
          (moves.kept pager kept) fun piece member => within piece (List.mem_cons_of_mem _ member)
        refine ⟨m + 1, moves.trans pager moves', ?_, fun whole => congrArg (· + 1) (finished whole),
          fun short => Nat.succ_lt_succ (unfinished short)⟩
        rw [List.take_succ_cons, pieceBytes, List.map_cons, List.sum_cons]
        exact counted.trans (Nat.add_assoc _ _ _)
      · exact absurd refused.1 Bool.true_eq_false_eq_False

theorem overwrite_zero (data : List Byte) :
    overwrite 0 data (fun _ => 0) = fun offset => data.getD offset.val 0 := by
  funext offset
  simp only [overwrite, GuestPageBacking.write, Nat.zero_le, if_true, Nat.sub_zero]

/-- The page takes immutable bytes of the page cache, unless others share it. -/
theorem replacePage_moves (kept : Kept pager i w) (mapped : MapsPage (w.spaces i).vmMap k)
    {data : List Byte} (size : data.length = pageSize)
    (own : (w.page i k).sharedWritable = false) :
    Moves pager i [.store k 0 data] w (w.replacePage pager i k fun offset => data.getD offset 0) := by
  have given := pager.intern_spec kept.owned.valid fun offset => data.getD offset 0
  have made := pager.intern_origin kept.owned.valid fun offset => data.getD offset 0
  obtain ⟨valid, content⟩ := pager.intern_valid kept.owned.valid fun offset => data.getD offset 0
  cases result : pager.intern w.cache w.heap fun offset => data.getD offset 0 with
  | mk cache rest =>
  obtain ⟨heap, b⟩ := rest
  rw [result] at given made valid content
  have first : Moves pager i [] w { w with cache, heap } :=
    .single pager (.extended given.heap valid content)
  have foreign : (heap.pages b).origin ≠ .anonymous := by
    rw [made]
    exact nofun
  have placing : Move pager i [.store k 0 data] { w with cache, heap }
      (({ w with cache, heap } : World Cache).edit i (placed k (interned b (w.page i k)))) := by
    refine .placed mapped ⟨fun _ => rfl, fun _ => id, ?_, fun _ _ _ => ⟨rfl, own⟩, ?_, ?_, ?_⟩
      (.replace data size ?_ own ?_ rfl)
    · rintro c ⟨⟩
      exact given.known
    · rintro c ⟨⟩ anonymous
      exact absurd anonymous foreign
    · rintro c ⟨⟩ anonymous
      exact absurd anonymous foreign
    · rintro c ⟨⟩ anonymous
      exact absurd anonymous foreign
    · rw [overwrite_zero]
      exact congrArg some given.bytes
    · rintro c ⟨⟩
      exact made
  have some : (interned b (w.page i k)).backing.isSome := rfl
  have second := first.silent pager (.single pager placing)
  rw [← setPage_counted some] at second
  simp only [replacePage, result]
  exact second

/-- `copy_in_immutable_page` stores the page at once, as a transfer of its bytes would. -/
theorem copyInImmutablePage_moves (kept : Kept pager i w) (address : BitVec 32)
    (data : List Byte) :
    Transferred pager w i [(address, data)] (w.copyInImmutablePage pager i address data).1
      (w.copyInImmutablePage pager i address data).2 := by
  simp only [copyInImmutablePage]
  split
  · exact .inr ⟨rfl, .refl w⟩
  · rename_i whole
    simp only [Bool.or_eq_true, decide_eq_true_eq, not_or, not_not] at whole
    obtain ⟨aligned, size⟩ := whole
    split
    · exact .inr ⟨rfl, .refl w⟩
    · rename_i allowed
      have allowed : (w.spaces i).rangeAccessible address pageSize MemoryPermission.none = true := by
        simpa using allowed
      have piece : PieceOf address pageSize (address, data) :=
        ⟨0, by decide, (BitVec.add_zero _).symm⟩
      have mapped := mapped_pieces kept.indexed allowed piece
      obtain ⟨moves, ensured, -⟩ := ensurePage_moves pager kept mapped
      cases result : w.ensurePage pager i (pageIndex address) with
      | mk w₁ done =>
      rw [result] at moves ensured
      cases done with
      | false => exact .inr ⟨rfl, moves⟩
      | true =>
        have kept₁ := moves.kept pager kept
        have mapped₁ : MapsPage (w₁.spaces i).vmMap (pageIndex address) := by
          rw [moves.frame.vmMap]
          exact mapped
        dsimp only
        split
        · rcases copyInBatchLocked_moves pager kept₁ [(address, data)] false with stored | refused
          · exact .inl (stored.silent pager moves)
          · exact .inr ⟨refused.1, moves.silent pager refused.2⟩
        · rename_i own
          simp only [Bool.or_eq_true, not_or, Bool.not_eq_true] at own
          have replaced := replacePage_moves pager kept₁ mapped₁ size own.1
          have pieces : batchPieces [(address, data)] = [(address, data)] := by
            simp only [batchPieces, List.flatMap_cons, List.flatMap_nil, List.append_nil]
            refine chunks_within ?_ (by rw [size, aligned]; exact Nat.le_refl _)
            intro empty
            rw [empty] at size
            contradiction
          refine .inl ⟨1, ?_, by rw [pieces]; rfl⟩
          rw [pieces]
          have stored : Effect.of (address, data) = .store (pageIndex address) 0 data := by
            simp only [Effect.of, aligned]
          simp only [List.take_succ_cons, List.take_zero, List.map_cons, List.map_nil, stored]
          exact ((moves.silent pager replaced).then_silent pager .refreshJitPage).then_silent pager
            (.markWritten address pageSize)

end World

end ILEmu.AddressSpace
