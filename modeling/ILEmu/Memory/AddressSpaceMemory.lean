import ILEmu.Foundation.FlatMemory
import ILEmu.Memory.AddressSpaceIsolation

/-! The private pages of a space are a flat memory to all who access them, whatever the other
spaces of the machine do. -/
namespace ILEmu.AddressSpace
open Foundation
open Memory.FilePageCache (Byte PageBytes guestMemoryPageSize)
namespace World
variable {Cache : Type} (pager : FilePager Cache) {w w' : World Cache} {i j k l a : Nat}
  {b : BackingId}

/-- What an access finds at an address. -/
def memory (w : World Cache) (i : Nat) : FlatMemory Byte := fun a =>
  (w.seen pager i (a / pageSize)).map fun bytes => bytes (Fin.ofNat pageSize a)

/-! ### Stores in private pages -/

/-- A page that is written in place and is private is the only one with its backing. -/
theorem Private.alone (owned : w.Owned pager) (priv : w.Private i k)
    (found : (w.page i k).backing = some b) (ready : (w.page i k).Ready) :
    (w.heap.pages b).origin = .anonymous ∧ w.Alone i k b := by
  rcases priv.made b found with anonymous | cached
  · exact ⟨anonymous, (owned.sole i k b found anonymous ⟨ready, priv.own⟩).2⟩
  · exact absurd cached (owned.ready_origin pager found ready)

/-- A store in a page of which nobody else has the backing is seen there only. -/
theorem seen_stored_elsewhere (owned : w.Owned pager) {offset : Nat} {data : List Byte}
    (found : (w.page i k).backing = some b) (made : (w.heap.pages b).origin = .anonymous)
    (alone : w.Alone i k b) (elsewhere : ¬(j = i ∧ l = k)) :
    (w.writePage i k offset data).seen pager j l = w.seen pager j l := by
  have heap := writePage_heap offset data found
  refine contents_congr pager ?_ ?_ (fun c other => ?_) ?_
  · rw [writePage_page]
  · rw [writePage_spaces]
  · have different : c ≠ b := fun same => elsewhere (alone j l (same ▸ other))
    rw [heap, bytes_written, if_neg different]
  · rw [writePage_cache, heap]
    refine pager.content_keeps owned.valid ⟨Nat.le_refl _, fun c _ => ?_, fun c _ other => ?_⟩
    · simp only [PageHeap.modify, Function.update_apply]
      split
      · rename_i same
        rw [origin_written, same]
      · rfl
    · have different : c ≠ b := fun same => other (same ▸ made)
      rw [bytes_written, if_neg different]

/-- Moves that store in private pages only, and share nothing, are seen where they store. -/
structure Confined (w : World Cache) (i : Nat) (effects : List Effect) : Prop where
  own : ∀ effect ∈ effects, w.Private i effect.page
  stores : ∀ effect ∈ effects, ¬effect.StoresNothing

theorem Confined.spares {effects : List Effect} (confined : w.Confined i effects) (l : Nat) :
    .share l ∉ effects := fun member => confined.stores _ member trivial

theorem Move.confined {effects : List Effect} (move : Move pager i effects w w')
    (kept : Kept pager i w) (confined : w.Confined i effects) (j l : Nat) :
    w'.seen pager j l = (w.seen pager j l).map (onPage i j l effects) := by
  have silent := move.seen_of_no_effect pager kept.owned j l
  have here (effect : Effect) (only : effects = [effect]) (same : j = i ∧ l = effect.page) :
      w'.seen pager j l = (w.seen pager j l).map (onPage i j l effects) := by
    refine (move.isolates pager kept ?_ fun _ => confined.spares l).2
    rw [same.1, same.2]
    exact confined.own effect (only ▸ List.mem_singleton_self effect)
  have there (effect : Effect) (only : effects = [effect]) (other : ¬(j = i ∧ l = effect.page))
      (unchanged : w'.seen pager j l = w.seen pager j l) :
      w'.seen pager j l = (w.seen pager j l).map (onPage i j l effects) := by
    subst only
    have same (bytes : PageBytes) : onPage i j l [effect] bytes = bytes :=
      onPage_elsewhere (fun space page => other ⟨space, page.symm⟩) bytes
    rw [unchanged, Option.map_congr fun bytes _ => same bytes, Option.map_id']
  cases move with
  | quiet => exact silent rfl
  | tracked => exact silent rfl
  | extended => exact silent rfl
  | held => exact silent rfl
  | @placed _ k page _ mapped fit placing =>
    cases placing with
    | same => exact silent rfl
    | share => exact absurd List.mem_cons_self (confined.spares k)
    | replace data =>
      by_cases same : j = i ∧ l = k
      · exact here (.store k 0 data) rfl same
      · exact there (.store k 0 data) rfl same (seen_placed pager same)
  | @stored _ k b offset data backing ready =>
    by_cases same : j = i ∧ l = k
    · exact here (.store k offset data) rfl same
    · have priv : w.Private i k := confined.own _ List.mem_cons_self
      obtain ⟨made, alone⟩ := priv.alone pager kept.owned backing ready
      exact there (.store k offset data) rfl same
        (seen_stored_elsewhere pager kept.owned backing made alone same)

theorem Moves.confined {effects : List Effect} (moves : Moves pager i effects w w')
    (kept : Kept pager i w) (confined : w.Confined i effects) (j l : Nat) :
    w'.seen pager j l = (w.seen pager j l).map (onPage i j l effects) := by
  induction moves with
  | refl w => rw [Option.map_congr fun bytes _ => onPage_nil bytes, Option.map_id']
  | @next w w₁ w₂ effects rest move moves ih =>
    have first : w.Confined i effects :=
      ⟨fun effect member => confined.own effect (List.mem_append_left rest member),
        fun effect member => confined.stores effect (List.mem_append_left rest member)⟩
    have later : w₁.Confined i rest := by
      refine ⟨fun effect member => ?_,
        fun effect member => confined.stores effect (List.mem_append_right effects member)⟩
      exact (move.isolates pager kept (confined.own effect (List.mem_append_right effects member))
        fun _ => first.spares _).1
    rw [ih (move.kept pager kept) later, move.confined pager kept first, Option.map_map]
    exact Option.map_congr fun bytes _ => (onPage_append effects rest bytes).symm

/-! ### Pieces -/

/-- A piece lies within a page. -/
def WithinPage (piece : BitVec 32 × List Byte) : Prop :=
  piece.1.toNat % pageSize + piece.2.length ≤ pageSize

def flatPieces (pieces : List (BitVec 32 × List Byte)) : List (Nat × List Byte) :=
  pieces.map fun piece => (piece.1.toNat, piece.2)

theorem onPage_piece {piece : BitVec 32 × List Byte} (within : WithinPage piece)
    (bytes : PageBytes) :
    onPage i i (a / pageSize) [Effect.of piece] bytes (Fin.ofNat pageSize a) =
      if piece.1.toNat ≤ a then
        piece.2.getD (a - piece.1.toNat) (bytes (Fin.ofNat pageSize a))
      else bytes (Fin.ofNat pageSize a) := by
  have offset : (Fin.ofNat pageSize a).val = a % pageSize := rfl
  simp only [WithinPage, pageSize, guestMemoryPageSize] at within offset
  simp only [onPage, if_true, List.foldl_cons, List.foldl_nil, Effect.of, Effect.onPage, pageIndex,
    pageSize, guestMemoryPageSize]
  split
  · rename_i here
    simp only [overwrite, GuestPageBacking.write, offset]
    by_cases low : piece.1.toNat ≤ a
    · rw [if_pos low, if_pos (by omega)]
      congr 1
      omega
    · rw [if_neg low, if_neg (by omega)]
  · rename_i elsewhere
    split
    · rw [List.getD_eq_default _ _ (by omega)]
    · rfl

theorem memory_storeAll {pieces : List (BitVec 32 × List Byte)}
    (within : ∀ piece ∈ pieces, WithinPage piece) {bytes : Option PageBytes} {m : FlatMemory Byte}
    (same : m a = bytes.map fun bytes => bytes (Fin.ofNat pageSize a)) :
    (bytes.map (onPage i i (a / pageSize) (pieces.map Effect.of))).map
        (fun bytes => bytes (Fin.ofNat pageSize a)) =
      FlatMemory.storeAll (flatPieces pieces) m a := by
  induction pieces generalizing bytes m with
  | nil =>
    rw [List.map_nil, Option.map_congr fun bytes _ => onPage_nil bytes, Option.map_id', ← same]
    rfl
  | cons piece rest ih =>
    have stored : FlatMemory.store piece.1.toNat piece.2 m a =
        (bytes.map (onPage i i (a / pageSize) [Effect.of piece])).map
          fun bytes => bytes (Fin.ofNat pageSize a) := by
      rw [FlatMemory.store, same]
      cases bytes with
      | none => exact ite_self _
      | some bytes =>
        simp only [Option.map_some, onPage_piece (within piece List.mem_cons_self)]
        exact (apply_ite some _ _ _).symm
    have later := ih (fun other member => within other (List.mem_cons_of_mem piece member)) stored
    cases bytes with
    | none => exact later
    | some bytes =>
      refine Eq.trans (congrArg some ?_) later
      exact congrFun (onPage_append [Effect.of piece] (rest.map Effect.of) bytes) _

/-- The first bytes of a transfer are stored in a space, and nothing else anywhere. -/
structure Wrote (w : World Cache) (i : Nat) (address : BitVec 32) (data : List Byte)
    (w' : World Cache) : Prop where
  here : w'.memory pager i = FlatMemory.store address.toNat data (w.memory pager i)
  elsewhere : ∀ j, j ≠ i → w'.memory pager j = w.memory pager j

/-- The moves that store the first pieces of a transfer. -/
theorem Moves.wrote {pieces : List (BitVec 32 × List Byte)} {address : BitVec 32}
    {data : List Byte} {n : Nat} (moves : Moves pager i ((pieces.take n).map Effect.of) w w')
    (kept : Kept pager i w) (within : ∀ piece ∈ pieces, WithinPage piece)
    (own : ∀ piece ∈ pieces, w.Private i (pageIndex piece.1))
    (tiles : FlatMemory.Tiles address.toNat data (flatPieces pieces)) :
    Wrote pager w i address (data.take (pieceBytes (pieces.take n))) w' := by
  have confined : w.Confined i ((pieces.take n).map Effect.of) := by
    refine ⟨fun effect member => ?_, fun effect member => ?_⟩
    · obtain ⟨piece, inside, rfl⟩ := List.mem_map.mp member
      exact own piece (List.mem_of_mem_take inside)
    · obtain ⟨piece, -, rfl⟩ := List.mem_map.mp member
      exact id
  have seen := moves.confined pager kept confined
  refine ⟨?_, fun j other => ?_⟩
  · have tiled := FlatMemory.storeAll_tiles (m := w.memory pager i) tiles n
    have count : ((flatPieces pieces).take n |>.map fun piece => piece.2.length).sum =
        pieceBytes (pieces.take n) := by
      rw [flatPieces, ← List.map_take, List.map_map]
      rfl
    rw [count] at tiled
    rw [← tiled, flatPieces, ← List.map_take]
    funext a
    rw [memory, seen]
    exact memory_storeAll (fun piece member => within piece (List.mem_of_mem_take member)) rfl
  · have same (l : Nat) (bytes : PageBytes) :
        onPage i j l ((pieces.take n).map Effect.of) bytes = bytes := if_neg other
    funext a
    rw [memory, seen, Option.map_congr fun bytes _ => same _ bytes, Option.map_id']
    rfl

/-! ### Reads -/

/-- What is allowed depends on what is mapped. -/
theorem rangeAccessible_frame (kept : Kept pager i w) (kept' : Kept pager i w')
    (frame : Frame i w w') (address : BitVec 32) (size : Nat) {access : MemoryPermission}
    (plain : access &&& mappedPageFlag = 0) :
    (w'.spaces i).rangeAccessible address size access =
      (w.spaces i).rangeAccessible address size access := by
  rw [Bool.eq_iff_iff, kept'.indexed.rangeAccessible_iff address size plain,
    kept.indexed.rangeAccessible_iff address size plain, frame.vmMap]

/-- What may be accessed may be looked at. -/
theorem rangeAccessible_none {s : AddressSpace} (indexed : s.Indexed) {address : BitVec 32}
    {size : Nat} {access : MemoryPermission} (plain : access &&& mappedPageFlag = 0)
    (allowed : s.rangeAccessible address size access = true) :
    s.rangeAccessible address size MemoryPermission.none = true := by
  obtain ⟨fits, each⟩ := (indexed.rangeAccessible_iff address size plain).mp allowed
  refine (indexed.rangeAccessible_iff address size (BitVec.zero_and ..)).mpr
    ⟨fits, fun some k member => ?_⟩
  obtain ⟨region, found, -⟩ := each some k member
  exact ⟨region, found, by simp [hasPermission]⟩

/-- A page that needs no fault shows its bytes. -/
theorem memory_byteAt (address : BitVec 32) (ensured : w.Ensured i (pageIndex address))
    {access : MemoryPermission} (data : access ≠ MemoryPermission.execute) :
    w.memory pager i address.toNat = some (w.byteAt i access address) := by
  have found : w.seen pager i (pageIndex address) =
      some ((w.page i (pageIndex address)).backing.elim (fun _ => 0) fun b =>
        (w.heap.pages b).bytes) := by
    simp only [World.seen, contents]
    rcases ensured with present | plain
    · obtain ⟨b, backing⟩ := Option.isSome_iff_exists.mp present
      rw [backing]
      rfl
    · cases (w.page i (pageIndex address)).backing with
      | some b => rfl
      | none =>
        rw [plain]
        rfl
  rw [pageIndex] at found
  simp only [memory, found, Option.map_some, byteAt, pageIndex]
  congr 1
  cases (w.page i (address.toNat / pageSize)).backing with
  | none => rfl
  | some b =>
    cases (w.page i (address.toNat / pageSize)).instructions with
    | none => rfl
    | some instructions => simp only [Option.elim, if_neg data]

theorem toNat_add_ofNat (address : BitVec 32) (n : Nat) (fits : address.toNat + n < 2 ^ 32) :
    (address + BitVec.ofNat 32 n).toNat = address.toNat + n := by
  rw [BitVec.toNat_add, BitVec.toNat_ofNat]
  omega

theorem room_of_fits {address : BitVec 32} {size : Nat}
    (fits : rangeOverflows address size = false) : address.toNat + size ≤ 2 ^ 32 := by
  have room : ¬(size ≠ 0 ∧ 2 ^ 32 - 1 - address.toNat < size - 1) := of_decide_eq_false fits
  have small := address.isLt
  omega

theorem load_bytesAt {address : BitVec 32} {size : Nat}
    (fits : rangeOverflows address size = false)
    (ensured : ∀ k ∈ pagesOf address size, w.Ensured i k) {access : MemoryPermission}
    (data : access ≠ MemoryPermission.execute) :
    (w.memory pager i).load address.toNat size = some (w.bytesAt i access address size) := by
  have room := room_of_fits fits
  refine FlatMemory.load_eq_some_iff.mpr ⟨by simp [bytesAt], fun n inside => ?_⟩
  have page := PieceOf.page
    (⟨n, inside, rfl⟩ : PieceOf address size (address + BitVec.ofNat 32 n, [])) fits
  rw [← toNat_add_ofNat address n (by omega),
    memory_byteAt pager _ (ensured _ page) data, bytesAt, List.getElem?_map,
    List.getElem?_range inside, Option.map_some]

theorem memory_eq_of_seen (same : ∀ l, w'.seen pager i l = w.seen pager i l) :
    w'.memory pager i = w.memory pager i :=
  funext fun a => congrArg (Option.map _) (same (a / pageSize))

theorem load_rejected {address : BitVec 32} {size : Nat} (some : size ≠ 0)
    (fits : rangeOverflows address size = false) (member : k ∈ pagesOf address size)
    (rejected : ¬(w.seen pager i k).isSome) :
    (w.memory pager i).load address.toNat size = none := by
  obtain ⟨a, low, high, rfl⟩ := (mem_pagesOf_iff some fits).mp member
  refine Option.eq_none_iff_forall_ne_some.mpr fun bytes loaded => rejected ?_
  obtain ⟨size, each⟩ := FlatMemory.load_eq_some_iff.mp loaded
  have found := each (a - address.toNat) (by omega)
  rw [Nat.add_sub_cancel' low, List.getElem?_eq_getElem (by omega), memory,
    Option.map_eq_some_iff] at found
  obtain ⟨page, seen, -⟩ := found
  exact seen ▸ rfl

theorem ensured_of_no_fault {address : BitVec 32} {size : Nat} (some : size ≠ 0)
    (fits : rangeOverflows address size = false)
    (present : w.rangeNeedsFileFault i address size = false) :
    ∀ k ∈ pagesOf address size, w.Ensured i k := by
  intro k member
  simp only [rangeNeedsFileFault, some, ne_eq, not_false_eq_true, decide_true, fits, Bool.not_false,
    Bool.and_self, Bool.true_and, List.any_eq_false, Bool.not_eq_true] at present
  have here := present k member
  simp only [needsFileFault, Bool.and_eq_false_iff, Option.isNone_eq_false_iff,
    Option.isSome_eq_false_iff, Option.isNone_iff_eq_none] at here
  exact here

theorem no_fault_of_ensured {address : BitVec 32} {size : Nat}
    (ensured : ∀ k ∈ pagesOf address size, w.Ensured i k) :
    w.rangeNeedsFileFault i address size = false := by
  have none : ((pagesOf address size).any fun k => w.needsFileFault i k) = false := by
    refine List.any_eq_false.mpr fun k member => ?_
    rcases ensured k member with present | plain
    · simp [needsFileFault, Option.isNone_iff_eq_none, Option.isSome_iff_ne_none.mp present]
    · simp [needsFileFault, plain]
  rw [rangeNeedsFileFault, none, Bool.and_false]

/-- A read of a range that may be accessed gives what its pages hold, unless one is rejected. -/
theorem readLoop_loads (kept : Kept pager i w) (address : BitVec 32) (size : Nat)
    (access : MemoryPermission) (plain : access &&& mappedPageFlag = 0)
    (data : access ≠ MemoryPermission.execute) {rounds : Nat}
    (some : rounds ≠ 0) (enough : rounds = 1 → ∀ k ∈ pagesOf address size, w.Ensured i k) :
    (readLoop pager i address size access rounds w).2 =
      if (w.spaces i).rangeAccessible address size access then
        (w.memory pager i).load address.toNat size
      else none := by
  induction rounds generalizing w with
  | zero => contradiction
  | succ rounds ih =>
    have charged : Moves pager i [] w (w.accountVmAccess i address size access false) :=
      .accountVmAccess address size access false
    have kept₁ := charged.kept pager kept
    have allowed₁ := rangeAccessible_frame pager kept kept₁ charged.frame address size plain
    have memory₁ := memory_eq_of_seen pager (charged.seen pager kept i)
    have ensured₁ (k : Nat) := charged.frame.ensured (i := i) (k := k)
    simp only [readLoop]
    generalize w.accountVmAccess i address size access false = w₁
      at charged kept₁ allowed₁ memory₁ ensured₁ ⊢
    rw [← allowed₁, ← memory₁]
    split
    · rename_i refused
      rw [if_neg (by simpa using refused)]
    · rename_i allowed
      have allowed : (w₁.spaces i).rangeAccessible address size access = true := by
        simpa using allowed
      have fits := fits_of_accessible allowed
      rw [if_pos allowed]
      by_cases zero : size = 0
      · subst zero
        rw [if_pos (by simp [rangeNeedsFileFault])]
        rfl
      · split
        · rename_i present
          have ensured := ensured_of_no_fault zero fits (by simpa using present)
          exact (load_bytesAt pager fits ensured data).symm
        · rename_i needed
          have faulted : w₁.faultFilePages pager i address size =
              faultEach pager i (pagesOf address size) w₁ := by
            have checked : (decide (size = 0) || rangeOverflows address size) = false := by
              simp [zero, fits]
            have looked := rangeAccessible_none kept₁.indexed plain allowed
            simp only [faultFilePages, checked, looked, Bool.not_true, Bool.false_eq_true, if_false]
          have all := faultEach_moves pager (pagesOf address size) kept₁
          rw [faulted]
          cases result : faultEach pager i (pagesOf address size) w₁ with
          | mk w₂ done =>
          rw [result] at all
          cases done with
          | false =>
            have rejected := mt all.whole.mpr Bool.false_ne_true
            simp only [not_forall] at rejected
            obtain ⟨k, member, rejected⟩ := rejected
            exact (load_rejected pager zero fits member rejected).symm
          | true =>
            have kept₂ := all.moves.kept pager kept₁
            have more : rounds ≠ 0 := fun last => needed (by
              have present := enough (congrArg (· + 1) last)
              rw [no_fault_of_ensured fun k member => ensured₁ k (present k member)]
              rfl)
            have again := ih kept₂ more fun _ => all.ensured rfl
            rw [again, rangeAccessible_frame pager kept₁ kept₂ all.moves.frame address size plain,
              if_pos allowed, memory_eq_of_seen pager (all.moves.seen pager kept₁ i)]

/-- A read gives the bytes of a range that may be accessed, unless a page of it is rejected, and
nobody sees anything of it. -/
theorem read_loads (reached : Reached pager w) (existing : i < w.count) (address : BitVec 32)
    (size : Nat) {access : MemoryPermission} (plain : access &&& mappedPageFlag = 0)
    (data : access ≠ MemoryPermission.execute) :
    ((w.read pager i address size access).2 =
        if (w.spaces i).rangeAccessible address size access then
          (w.memory pager i).load address.toNat size
        else none) ∧
      ∀ j, (w.read pager i address size access).1.memory pager j = w.memory pager j := by
  have kept := reached.sound.kept pager existing
  refine ⟨readLoop_loads pager kept address size access plain data (by decide) nofun, fun j => ?_⟩
  exact memory_eq_of_seen pager
    ((readLoop_moves pager kept address size access 2).seen pager kept j)

theorem read_loads_onePage :
    ((onePage.read (.uncached fun _ _ => 0) 0 0x1ffe 2 MemoryPermission.read).2 =
        if (onePage.spaces 0).rangeAccessible 0x1ffe 2 MemoryPermission.read then
          (onePage.memory (.uncached fun _ _ => 0) 0).load (0x1ffe : BitVec 32).toNat 2
        else none) ∧
      ∀ j, (onePage.read (.uncached fun _ _ => 0) 0 0x1ffe 2 MemoryPermission.read).1.memory
        (.uncached fun _ _ => 0) j = onePage.memory (.uncached fun _ _ => 0) j :=
  read_loads _ reached_onePage (Nat.lt_succ_self 0) 0x1ffe 2 (by decide) (by decide)

/-! ### The pieces of a transfer -/

theorem flatPieces_cons (address : BitVec 32) (data : List Byte)
    (pieces : List (BitVec 32 × List Byte)) :
    flatPieces ((address, data) :: pieces) = (address.toNat, data) :: flatPieces pieces := rfl

theorem tiles_bytePieces {address : BitVec 32} {data : List Byte}
    (fits : address.toNat + data.length ≤ 2 ^ 32) :
    FlatMemory.Tiles address.toNat data (flatPieces (bytePieces address data)) := by
  induction data generalizing address with
  | nil => rfl
  | cons byte rest ih =>
    refine ⟨rfl, rest, rfl, ?_⟩
    cases rest with
    | nil => rfl
    | cons next rest =>
      have after : (address + 1).toNat = address.toNat + 1 :=
        toNat_add_ofNat address 1 (by simp only [List.length_cons] at fits; omega)
      have later := @ih (address + 1) (by
        simp only [List.length_cons] at fits ⊢
        omega)
      rw [after] at later
      exact later

theorem pageChunks_nil (rounds : Nat) (address : BitVec 32) : pageChunks rounds address [] = [] := by
  cases rounds <;> rfl

theorem tiles_pageChunks {rounds : Nat} {address : BitVec 32} {data : List Byte}
    (enough : data.length ≤ rounds) (fits : address.toNat + data.length ≤ 2 ^ 32) :
    FlatMemory.Tiles address.toNat data (flatPieces (pageChunks rounds address data)) := by
  induction rounds generalizing address data with
  | zero =>
    rw [List.length_eq_zero_iff.mp (Nat.le_zero.mp enough)]
    rfl
  | succ rounds ih =>
    simp only [pageChunks]
    split
    · rename_i empty
      subst empty
      rfl
    · rename_i some
      have room : address.toNat % pageSize < pageSize := Nat.mod_lt _ (by decide)
      generalize size : pageSize - address.toNat % pageSize = count
      refine ⟨rfl, data.drop count, (List.take_append_drop count data).symm, ?_⟩
      by_cases last : data.length ≤ count
      · rw [List.drop_eq_nil_of_le last, pageChunks_nil]
        rfl
      · have after := toNat_add_ofNat address count (by omega)
        have later := @ih (address + BitVec.ofNat 32 count) (data.drop count)
          (by rw [List.length_drop]; omega) (by rw [List.length_drop]; omega)
        rw [after] at later
        dsimp only
        rw [List.length_take_of_le (by omega)]
        exact later

theorem within_bytePieces {address : BitVec 32} {data : List Byte}
    {piece : BitVec 32 × List Byte} (member : piece ∈ bytePieces address data) :
    WithinPage piece := by
  induction data generalizing address with
  | nil => cases member
  | cons byte rest ih =>
    rcases List.mem_cons.mp member with rfl | later
    · exact Nat.mod_lt address.toNat (by decide : 0 < pageSize)
    · exact ih later

theorem within_chunks {address : BitVec 32} {data : List Byte} {piece : BitVec 32 × List Byte}
    (member : piece ∈ chunks address data) : WithinPage piece := by
  have inside := (chunk_within member).2
  have room : piece.1.toNat % pageSize < pageSize := Nat.mod_lt _ (by decide)
  rw [WithinPage]
  omega

/-- The pieces of a transfer follow each other, each within a page of the range. -/
structure Transfer (address : BitVec 32) (data : List Byte)
    (pieces : List (BitVec 32 × List Byte)) : Prop where
  tiles : FlatMemory.Tiles address.toNat data (flatPieces pieces)
  within : ∀ piece ∈ pieces, WithinPage piece
  pages : ∀ piece ∈ pieces, pageIndex piece.1 ∈ pagesOf address data.length

theorem transfer_scalarPieces {address : BitVec 32} {data : List Byte} (some : data ≠ [])
    (fits : rangeOverflows address data.length = false) :
    Transfer address data (scalarPieces address data) := by
  refine ⟨?_, fun piece member => ?_,
    fun piece member => (pieceOf_scalarPieces some member).page fits⟩
  · simp only [scalarPieces]
    split
    · exact ⟨rfl, [], (List.append_nil data).symm, rfl⟩
    · exact tiles_bytePieces (room_of_fits fits)
  · simp only [scalarPieces] at member
    split at member
    · rename_i inside
      obtain rfl := List.mem_singleton.mp member
      exact inside
    · exact within_bytePieces member

theorem transfer_chunks {address : BitVec 32} {data : List Byte}
    (fits : rangeOverflows address data.length = false) :
    Transfer address data (chunks address data) :=
  ⟨tiles_pageChunks (Nat.le_refl _) (room_of_fits fits), fun _ => within_chunks,
    fun _ member => (pieceOf_pageChunks member).page fits⟩

theorem Transfer.bytes {address : BitVec 32} {data : List Byte}
    {pieces : List (BitVec 32 × List Byte)} (transfer : Transfer address data pieces) :
    pieceBytes pieces = data.length := by
  rw [← transfer.tiles.size, flatPieces, List.map_map]
  rfl

/-- A transfer in private pages stores its first bytes, and all of them when it is done. -/
theorem Stored.wrote {address : BitVec 32} {data : List Byte}
    {pieces : List (BitVec 32 × List Byte)} {done : Bool}
    (stored : Stored pager w i pieces w' done) (transfer : Transfer address data pieces)
    (kept : Kept pager i w) (own : ∀ k ∈ pagesOf address data.length, w.Private i k) :
    ∃ n, Wrote pager w i address (data.take n) w' ∧ (done = true → n = data.length) := by
  obtain ⟨n, moves, count⟩ := stored
  refine ⟨_, moves.wrote pager kept transfer.within
    (fun piece member => own _ (transfer.pages piece member)) transfer.tiles, ?_⟩
  rintro rfl
  obtain rfl : n = pieces.length := count
  rw [List.take_length, transfer.bytes]

theorem fits_take (address : BitVec 32) (data : List Byte) :
    rangeOverflows address (data.take (2 ^ 32 - address.toNat)).length = false := by
  have small := address.isLt
  have short := List.length_take_le (2 ^ 32 - address.toNat) data
  refine decide_eq_false fun wraps => ?_
  omega

theorem pieceBytes_take_lt {pieces : List (BitVec 32 × List Byte)} {n : Nat}
    (some : ∀ piece ∈ pieces, piece.2 ≠ []) (fewer : n < pieces.length) :
    pieceBytes (pieces.take n) < pieceBytes pieces := by
  have left : pieces.drop n ≠ [] := by
    rw [Ne, List.drop_eq_nil_iff]
    omega
  obtain ⟨piece, rest, same⟩ := List.exists_cons_of_ne_nil left
  have member : piece ∈ pieces := List.mem_of_mem_drop (same ▸ List.mem_cons_self)
  have size := List.length_pos_iff.mpr (some piece member)
  have whole : pieceBytes pieces = pieceBytes (pieces.take n) + pieceBytes (pieces.drop n) := by
    rw [pieceBytes, pieceBytes, pieceBytes, ← List.sum_append, ← List.map_append,
      List.take_append_drop]
  rw [whole, same, pieceBytes, pieceBytes, List.map_cons, List.sum_cons]
  omega

/-- A transfer to a task stores the bytes that it counts and nothing else, also where it stops
before its end: at the end of the address space, at a page that may not be written, or at one that
is rejected. -/
theorem copyToUser_counts (reached : Reached pager w) (existing : i < w.count)
    (address : BitVec 32) (data : List Byte)
    (own : ∀ a, address.toNat ≤ a → a < address.toNat + data.length → a < 2 ^ 32 →
      w.Private i (a / pageSize)) :
    Wrote pager w i address (data.take (w.copyToUser pager i address data).2.2)
        (w.copyToUser pager i address data).1 ∧
      (w.copyToUser pager i address data).2.2 ≤ data.length ∧
      ((w.copyToUser pager i address data).2.1 = true ↔
        (w.copyToUser pager i address data).2.2 = data.length) := by
  have kept := reached.sound.kept pager existing
  have small := address.isLt
  have fits := fits_take address data
  have transfer := transfer_chunks fits
  have bytes := transfer.bytes
  have within (piece : BitVec 32 × List Byte)
      (member : piece ∈ chunks address (data.take (2 ^ 32 - address.toNat))) := chunk_within member
  obtain ⟨n, moves, counted, finished, unfinished⟩ :=
    copyToUserEach_moves pager 0 kept within
  have wrote := moves.wrote pager kept transfer.within (fun piece member => by
    by_cases empty : data.take (2 ^ 32 - address.toNat) = []
    · rw [empty] at member
      cases member
    · have page := transfer.pages piece member
      obtain ⟨a, low, high, same⟩ :=
        (mem_pagesOf_iff (fun zero => empty (List.length_eq_zero_iff.mp zero)) fits).mp page
      rw [List.length_take] at high
      rw [← same]
      exact own a low (by omega) (by omega)) transfer.tiles
  have most : pieceBytes ((chunks address (data.take (2 ^ 32 - address.toNat))).take n) ≤
      (data.take (2 ^ 32 - address.toNat)).length := by
    rcases Nat.lt_or_ge n (chunks address (data.take (2 ^ 32 - address.toNat))).length with fewer | all
    · have less := pieceBytes_take_lt (fun piece member => (within piece member).1) fewer
      omega
    · rw [List.take_of_length_le all, bytes]
  rw [List.take_take, Nat.min_eq_left (most.trans (List.length_take_le _ _))] at wrote
  simp only [copyToUser]
  rw [Nat.zero_add] at counted
  cases result : copyToUserEach pager i (chunks address (data.take (2 ^ 32 - address.toNat))) w 0 with
  | mk w' answer =>
  obtain ⟨done, transferred⟩ := answer
  rw [result] at wrote counted finished unfinished
  dsimp only at wrote counted finished unfinished ⊢
  subst counted
  have size : (data.take (2 ^ 32 - address.toNat)).length = min (2 ^ 32 - address.toNat) data.length :=
    List.length_take
  refine ⟨wrote, by omega, ?_⟩
  rw [Bool.and_eq_true, decide_eq_true_eq]
  constructor
  · rintro ⟨rfl, room⟩
    rw [finished rfl, List.take_length, bytes]
    omega
  · intro all
    refine ⟨?_, by omega⟩
    by_contra stopped
    have less := pieceBytes_take_lt (fun piece member => (within piece member).1)
      (unfinished (by simpa using stopped))
    omega

theorem copyToUser_counts_onePage :
    Wrote (.uncached fun _ _ => 0) onePage 0 0x1ffe ([1, 2, 3].take
        (onePage.copyToUser (.uncached fun _ _ => 0) 0 0x1ffe [1, 2, 3]).2.2)
      (onePage.copyToUser (.uncached fun _ _ => 0) 0 0x1ffe [1, 2, 3]).1 :=
  (copyToUser_counts _ reached_onePage (Nat.lt_succ_self 0) 0x1ffe [1, 2, 3]
    fun a _ _ _ => private_onePage (a / pageSize)).1

/-! ### Pages that are used as memory -/

/-- A private page that may be read and written, and is not rejected. -/
structure Usable (w : World Cache) (i k : Nat) : Prop where
  rights : ∃ region, (w.spaces i).vmMap.point (k * pageSize) = some region ∧
    hasPermission region.permissions (MemoryPermission.read ||| MemoryPermission.write) = true
  priv : w.Private i k
  whole : (w.seen pager i k).isSome

theorem Usable.maps (usable : Usable pager w i k) : MapsPage (w.spaces i).vmMap k := by
  obtain ⟨region, found, -⟩ := usable.rights
  exact Option.isSome_iff_exists.mpr ⟨region, found⟩

theorem Usable.moves {effects : List Effect} (usable : Usable pager w i k)
    (moves : Moves pager i effects w w') (kept : Kept pager i w) (spared : .share k ∉ effects) :
    Usable pager w' i k := by
  obtain ⟨priv, seen⟩ := moves.isolates pager kept usable.priv fun _ => spared
  refine ⟨?_, priv, ?_⟩
  · rw [moves.frame.vmMap]
    exact usable.rights
  · rw [seen, Option.isSome_map]
    exact usable.whole

theorem Usable.silent (usable : Usable pager w i k) (moves : Moves pager i [] w w')
    (kept : Kept pager i w) : Usable pager w' i k :=
  usable.moves pager moves kept List.not_mem_nil

theorem Usable.stored (usable : Usable pager w i k) (piece : BitVec 32 × List Byte)
    (moves : Moves pager i [Effect.of piece] w w') (kept : Kept pager i w) :
    Usable pager w' i k := by
  refine usable.moves pager moves kept fun member => ?_
  cases List.mem_singleton.mp member

theorem Usable.ensured (usable : Usable pager w i k) : w.Ensured i k := by
  cases absent : (w.page i k).backing with
  | none => exact .inr (usable.priv.plain absent)
  | some b => exact .inl (absent ▸ rfl)

/-- A usable page is there, or comes from its file. -/
theorem Usable.ensurePage (usable : Usable pager w i k) (kept : Kept pager i w) :
    ∃ w', w.ensurePage pager i k = (w', true) ∧ Moves pager i [] w w' ∧ w'.Ensured i k := by
  obtain ⟨moves, ensured, whole⟩ := ensurePage_moves pager kept (usable.maps pager)
  have done := whole.mpr usable.whole
  exact ⟨_, Prod.ext rfl done, moves, ensured done⟩

/-- A range of usable pages. -/
def UsableRange (w : World Cache) (i : Nat) (address : BitVec 32) (size : Nat) : Prop :=
  rangeOverflows address size = false ∧ ∀ k ∈ pagesOf address size, Usable pager w i k

section Ranges
variable {pager} {address : BitVec 32} {size : Nat} {data : List Byte}

theorem UsableRange.silent (usable : UsableRange pager w i address size)
    (moves : Moves pager i [] w w') (kept : Kept pager i w) :
    UsableRange pager w' i address size :=
  ⟨usable.1, fun k member => (usable.2 k member).silent pager moves kept⟩

theorem UsableRange.accessible (usable : UsableRange pager w i address size)
    (kept : Kept pager i w) (access : MemoryPermission)
    (within : access &&& (MemoryPermission.read ||| MemoryPermission.write) = access) :
    (w.spaces i).rangeAccessible address size access = true := by
  have plain : access &&& mappedPageFlag = 0 := by
    rw [← within, BitVec.and_assoc]
    exact BitVec.and_zero
  refine (kept.indexed.rangeAccessible_iff address size plain).mpr ⟨usable.1, fun _ k member => ?_⟩
  obtain ⟨region, found, allowed⟩ := (usable.2 k member).rights
  refine ⟨region, found, ?_⟩
  simp only [hasPermission, decide_eq_true_eq] at allowed ⊢
  rw [← within, BitVec.and_comm access, ← BitVec.and_assoc, allowed]

theorem storeEach_done (kept : Kept pager i w)
    (usable : ∀ piece ∈ bytePieces address data, Usable pager w i (pageIndex piece.1)) :
    ∃ w', storeEach pager i address data w = (w', true) := by
  induction data generalizing w address with
  | nil => exact ⟨w, rfl⟩
  | cons byte rest ih =>
    have here := usable (address, [byte]) List.mem_cons_self
    obtain ⟨w₁, ensures, moves, ensured⟩ := here.ensurePage pager kept
    have kept₁ := moves.kept pager kept
    have stored := storeWithin_moves pager kept₁ ((here.silent pager moves kept).maps pager)
      ensured (address.toNat % pageSize) [byte]
    simp only [storeEach, ensures]
    refine ih (stored.kept pager kept₁) fun piece member => ?_
    exact ((usable piece (List.mem_cons_of_mem _ member)).silent pager moves kept).stored pager
      (address, [byte]) stored kept₁

theorem copyEach_done {pieces : List (BitVec 32 × List Byte)} (kept : Kept pager i w)
    (usable : ∀ piece ∈ pieces, Usable pager w i (pageIndex piece.1)) :
    ∃ w', copyEach pager i pieces w = (w', true) := by
  induction pieces generalizing w with
  | nil => exact ⟨w, rfl⟩
  | cons piece rest ih =>
    obtain ⟨address, data⟩ := piece
    have here := usable (address, data) List.mem_cons_self
    obtain ⟨w₁, ensures, moves, ensured⟩ := here.ensurePage pager kept
    have kept₁ := moves.kept pager kept
    have stored := copyWithin_moves pager kept₁ ((here.silent pager moves kept).maps pager)
      ensured data
    simp only [copyEach, ensures]
    refine ih (stored.kept pager kept₁) fun piece member => ?_
    exact ((usable piece (List.mem_cons_of_mem _ member)).silent pager moves kept).stored pager
      (address, data) stored kept₁

theorem UsableRange.first (usable : UsableRange pager w i address data.length) (some : data ≠ []) :
    Usable pager w i (pageIndex address) :=
  usable.2 _ (pageIndex_mem_pagesOf (List.length_pos_iff.mpr some).ne' usable.1)

theorem UsableRange.storeEach (usable : UsableRange pager w i address data.length)
    (kept : Kept pager i w) : ∃ w', storeEach pager i address data w = (w', true) :=
  storeEach_done kept fun _ member => usable.2 _ ((pieceOf_bytePieces member).page usable.1)

theorem UsableRange.ensureEach (usable : UsableRange pager w i address size)
    (kept : Kept pager i w) :
    ∃ w', ensureEach pager i (pagesOf address size) w = (w', true) ∧ Moves pager i [] w w' := by
  have all := ensureEach_moves pager kept fun k (member : k ∈ pagesOf address size) =>
    (usable.2 k member).maps pager
  have done := all.whole.mpr fun k member => (usable.2 k member).whole
  exact ⟨_, Prod.ext rfl done, all.moves⟩

/-- What counts an access leaves the range as usable as it was. -/
theorem UsableRange.counted (usable : UsableRange pager w i address size) (kept : Kept pager i w)
    (access : MemoryPermission) : ∃ w', w.accountVmAccess i address size access false = w' ∧
      Moves pager i [] w w' ∧ Kept pager i w' ∧ UsableRange pager w' i address size := by
  have moves : Moves pager i [] w (w.accountVmAccess i address size access false) :=
    .accountVmAccess address size access false
  exact ⟨_, rfl, moves, moves.kept pager kept, usable.silent moves kept⟩

theorem replaceInteger_done (kept : Kept pager i w)
    (usable : UsableRange pager w i address data.length) :
    ∃ w', w.replaceInteger pager i address data = (w', true) := by
  simp only [replaceInteger]
  split
  · exact ⟨_, rfl⟩
  · obtain ⟨w₁, stores⟩ := usable.storeEach kept
    rw [stores]
    exact ⟨_, rfl⟩

theorem writeInteger_done (kept : Kept pager i w)
    (usable : UsableRange pager w i address data.length) (some : data ≠ []) :
    (w.writeInteger pager i address data).2 = true := by
  obtain ⟨w₁, counts, -, kept₁, usable₁⟩ := usable.counted kept MemoryPermission.write
  have allowed := usable₁.accessible kept₁ MemoryPermission.write (by decide)
  simp only [writeInteger, counts]
  rw [if_neg (by rw [allowed]; exact Bool.false_ne_true)]
  split
  · obtain ⟨w₂, ensures, -⟩ := (usable₁.first some).ensurePage pager kept₁
    rw [ensures]
  · obtain ⟨w₂, stores⟩ := usable₁.storeEach kept₁
    rw [stores]

theorem load_currentBytes (kept : Kept pager i w) (moves : Moves pager i [] w w')
    (usable : UsableRange pager w i address size) :
    (w.memory pager i).load address.toNat size = some (w'.currentBytes i address size) := by
  rw [← memory_eq_of_seen pager (moves.seen pager kept i)]
  exact load_bytesAt pager usable.1
    (fun k member => ((usable.2 k member).silent pager moves kept).ensured pager) (by decide)

/-- An exchange gives the bytes that were there. -/
theorem exchange_loads (kept : Kept pager i w)
    (usable : UsableRange pager w i address data.length) :
    (w.exchange pager i address data).2 = (w.memory pager i).load address.toNat data.length := by
  obtain ⟨w₁, counts, counted, kept₁, usable₁⟩ :=
    usable.counted kept (MemoryPermission.read ||| MemoryPermission.write)
  have allowed := usable₁.accessible kept₁
    (MemoryPermission.read ||| MemoryPermission.write) (by decide)
  obtain ⟨w₂, ensures, ensured⟩ := usable₁.ensureEach kept₁
  obtain ⟨w₃, replaces⟩ :=
    replaceInteger_done (ensured.kept pager kept₁) (usable₁.silent ensured kept₁)
  simp only [exchange, counts]
  rw [if_neg (by rw [allowed]; exact Bool.false_ne_true)]
  simp only [ensures, replaces]
  exact (load_currentBytes kept (counted.silent pager ensured) usable).symm

/-- A value is exchanged if it is the expected one, and nothing is stored if it is not. -/
theorem compareExchange_compares (kept : Kept pager i w) (expected : List Byte)
    (usable : UsableRange pager w i address data.length) :
    (w.compareExchange pager i address expected data).2 =
        decide ((w.memory pager i).load address.toNat data.length = some expected) ∧
      ((w.compareExchange pager i address expected data).2 = false →
        Moves pager i [] w (w.compareExchange pager i address expected data).1) := by
  obtain ⟨w₁, counts, counted, kept₁, usable₁⟩ := usable.counted kept MemoryPermission.read
  have allowed := usable₁.accessible kept₁
    (MemoryPermission.read ||| MemoryPermission.write) (by decide)
  obtain ⟨w₂, ensures, ensured⟩ := usable₁.ensureEach kept₁
  have silent := counted.silent pager ensured
  simp only [compareExchange, counts]
  rw [if_neg (by rw [allowed]; exact Bool.false_ne_true)]
  simp only [ensures, load_currentBytes kept silent usable]
  split
  · rename_i other
    refine ⟨(decide_eq_false fun same => other (Option.some.inj same)).symm, fun _ => ?_⟩
    exact silent.silent pager (.releaseExclusive address data.length)
  · rename_i same
    obtain ⟨w₃, counts', -, kept₃, usable₃⟩ := (usable₁.silent ensured kept₁).counted
      (ensured.kept pager kept₁) MemoryPermission.write
    obtain ⟨w₄, replaces⟩ := replaceInteger_done kept₃ usable₃
    rw [counts', replaces]
    exact ⟨(decide_eq_true (congrArg some (not_not.mp same))).symm, Bool.noConfusion⟩

/-- A transfer of the kernel is done. -/
theorem copyIn_done (kept : Kept pager i w)
    (usable : UsableRange pager w i address data.length) (short : data.length < 2 ^ 32) :
    (w.copyInBatchLocked pager i [(address, data)] false).2 = true := by
  have allowed := usable.accessible kept MemoryPermission.none (by decide)
  have admitted : admitEach i false [(address, data)] w = (w, true) := by
    have checked : (decide (2 ^ 32 - 1 < data.length) || rangeOverflows address data.length ||
        !(w.spaces i).rangeAccessible address data.length MemoryPermission.none) = false := by
      rw [usable.1, allowed, decide_eq_false (by omega)]
      rfl
    simp only [admitEach, transferAccess, Bool.false_eq_true, if_false, checked]
  have batch : (w.copyBatch pager i [(address, data)]).2 = true := by
    obtain ⟨w₁, copies⟩ : ∃ w₁, copyEach pager i (batchPieces [(address, data)]) w = (w₁, true) :=
      copyEach_done kept fun piece member => by
        simp only [batchPieces, List.flatMap_cons, List.flatMap_nil, List.append_nil] at member
        exact usable.2 _ ((transfer_chunks usable.1).pages piece member)
    simp only [copyBatch]
    rw [show ([(address, data)].flatMap fun operation => chunks operation.1 operation.2) =
      batchPieces [(address, data)] from rfl, copies]
  simp only [copyInBatchLocked, admitted]
  split
  · rename_i within
    obtain ⟨w₁, ensures, -⟩ := (usable.first within.1).ensurePage pager kept
    rw [ensures]
  · exact batch

end Ranges

/-! ### Requests -/

/-- The accesses to the data of a space: those of a task, and the transfers of the kernel. -/
inductive Request where
  | read (address : BitVec 32) (size : Nat)
  | write (address : BitVec 32) (value : Scalar)
  | exchange (address : BitVec 32) (value : Scalar)
  | compareExchange (address : BitVec 32) (expected value : Scalar)
  | copyIn (address : BitVec 32) (data : List Byte)

def Request.address : Request → BitVec 32
  | .read address _ | .write address _ | .exchange address _ | .compareExchange address _ _
  | .copyIn address _ => address

def Request.size : Request → Nat
  | .read _ size => size
  | .write _ value | .exchange _ value | .compareExchange _ _ value => value.bytes.length
  | .copyIn _ data => data.length

/-- What a request means for a flat memory. -/
def Request.access : Request → Access Byte
  | .read address size => .load address.toNat size
  | .write address value => .store address.toNat value.bytes
  | .exchange address value => .exchange address.toNat value.bytes
  | .compareExchange address expected value =>
    .compareExchange address.toNat expected.bytes value.bytes
  | .copyIn address data => .store address.toNat data

theorem Request.touches_access (request : Request) : request.access.Touches a ↔
    request.address.toNat ≤ a ∧ a < request.address.toNat + request.size := by
  cases request <;> exact Iff.rfl

/-- A request that gives no bytes succeeds or fails. -/
def answered (result : World Cache × Bool) : World Cache × Option (List Byte) :=
  (result.1, if result.2 then some [] else none)

def request (w : World Cache) (i : Nat) : Request → World Cache × Option (List Byte)
  | .read address size => w.read pager i address size MemoryPermission.read
  | .write address value => answered (w.writeInteger pager i address value.bytes)
  | .exchange address value => w.exchange pager i address value.bytes
  | .compareExchange address expected value =>
    answered (w.compareExchange pager i address expected.bytes value.bytes)
  | .copyIn address data => answered (w.copyInBatchLocked pager i [(address, data)] false)

/-- A request does to the memory of its space, and answers, what the flat access does. -/
structure Refines (w : World Cache) (i : Nat) (request : Request) : Prop where
  moves : ∃ pieces : List (BitVec 32 × List Byte),
    Moves pager i (pieces.map Effect.of) w (w.request pager i request).1
  answer : (w.request pager i request).2 = ((w.memory pager i).access request.access).2
  memory : (w.request pager i request).1.memory pager i =
    ((w.memory pager i).access request.access).1

section Requests
variable {pager} {address : BitVec 32} {data : List Byte}

/-- The moves of a store of which all pieces are stored, in a range that may be used. -/
theorem Stored.done {pieces : List (BitVec 32 × List Byte)}
    (stored : Stored pager w i pieces w' true) (transfer : Transfer address data pieces)
    (kept : Kept pager i w) (usable : UsableRange pager w i address data.length) :
    (∃ pieces : List (BitVec 32 × List Byte), Moves pager i (pieces.map Effect.of) w w') ∧
      w'.memory pager i = FlatMemory.store address.toNat data (w.memory pager i) := by
  obtain ⟨m, moves, -⟩ := id stored
  obtain ⟨n, wrote, all⟩ :=
    stored.wrote pager transfer kept fun k member => (usable.2 k member).priv
  refine ⟨⟨_, moves⟩, ?_⟩
  rw [wrote.here, all rfl, List.take_length]

theorem request_refines (kept : Kept pager i w) (request : Request)
    (usable : UsableRange pager w i request.address request.size)
    (short : request.size < 2 ^ 32) : Refines pager w i request := by
  cases request with
  | read address size =>
    change UsableRange pager w i address size at usable
    have moves := readLoop_moves pager kept address size MemoryPermission.read 2
    refine ⟨⟨[], moves⟩, ?_, memory_eq_of_seen pager (moves.seen pager kept i)⟩
    have allowed := usable.accessible kept MemoryPermission.read (by decide)
    have loaded := readLoop_loads pager kept address size MemoryPermission.read
      (by decide) (by decide) (by decide : 2 ≠ 0) nofun
    rw [allowed, if_pos rfl] at loaded
    exact loaded
  | write address value =>
    change UsableRange pager w i address value.bytes.length at usable
    have done := writeInteger_done kept usable value.ne
    have stored := writeInteger_moves pager kept address value.ne
    rw [done] at stored
    obtain ⟨moves, memory⟩ :=
      stored.done (transfer_scalarPieces value.ne usable.1) kept usable
    refine ⟨moves, ?_, memory⟩
    simp only [World.request, answered, done, if_true, Request.access, FlatMemory.access]
  | exchange address value =>
    change UsableRange pager w i address value.bytes.length at usable
    have loaded := exchange_loads kept usable
    have stored := exchange_moves pager kept address value.ne
    have present : (w.exchange pager i address value.bytes).2.isSome = true := by
      rw [loaded, load_currentBytes kept (.refl w) usable]
      rfl
    rw [present] at stored
    obtain ⟨moves, memory⟩ :=
      stored.done (transfer_scalarPieces value.ne usable.1) kept usable
    exact ⟨moves, loaded, memory⟩
  | compareExchange address expected value =>
    change UsableRange pager w i address value.bytes.length at usable
    obtain ⟨compared, silent⟩ := compareExchange_compares kept expected.bytes usable
    by_cases same : (w.memory pager i).load address.toNat value.bytes.length = some expected.bytes
    · rw [decide_eq_true same] at compared
      have stored := compareExchange_moves pager kept address expected.bytes value.ne
      rw [compared] at stored
      obtain ⟨moves, memory⟩ :=
        stored.done (transfer_scalarPieces value.ne usable.1) kept usable
      refine ⟨moves, ?_, ?_⟩
      · simp only [World.request, answered, compared, if_true, Request.access, FlatMemory.access, same]
      · simp only [Request.access, FlatMemory.access, same, if_true]
        exact memory
    · rw [decide_eq_false same] at compared
      have moves := silent compared
      refine ⟨⟨[], moves⟩, ?_, ?_⟩
      · simp only [World.request, answered, compared, Bool.false_eq_true, if_false, Request.access,
          FlatMemory.access, same]
      · simp only [Request.access, FlatMemory.access, same, if_false]
        exact memory_eq_of_seen pager (moves.seen pager kept i)
  | copyIn address data =>
    change UsableRange pager w i address data.length at usable
    have done := copyIn_done kept usable short
    rcases copyInBatchLocked_moves pager kept [(address, data)] false with stored | ⟨refused, -⟩
    · rw [done, show batchPieces [(address, data)] = chunks address data by simp [batchPieces]]
        at stored
      obtain ⟨moves, memory⟩ := stored.done (transfer_chunks usable.1) kept usable
      refine ⟨moves, ?_, memory⟩
      simp only [World.request, answered, done, if_true, Request.access, FlatMemory.access]
    · rw [done] at refused
      contradiction

end Requests

/-! ### Runs of requests -/

/-- A space makes requests while other things happen. -/
inductive Action where
  | request (request : Request)
  | other (event : Event)

def act (i : Nat) (w : World Cache) : Action → World Cache
  | .request request => (w.request pager i request).1
  | .other event => w.step pager event

def answers (i : Nat) (w : World Cache) : Action → List (Option (List Byte))
  | .request request => [(w.request pager i request).2]
  | .other _ => []

def flatAct (m : FlatMemory Byte) : Action → FlatMemory Byte
  | .request request => (m.access request.access).1
  | .other _ => m

def flatAnswers (m : FlatMemory Byte) : Action → List (Option (List Byte))
  | .request request => [(m.access request.access).2]
  | .other _ => []

/-- An event of another space, or a clone that does not share the pages. -/
def Leaves (w : World Cache) (i : Nat) (region : Nat → Prop) : Event → Prop
  | .call j _ | .destroy j => j ≠ i
  | .clone j => j = i → ∀ k, region k → ¬w.Inherits i k .share
  | _ => True

/-- The requests are for the pages of a region, and what else happens leaves it alone. -/
def Admits (i : Nat) (region : Nat → Prop) (w : World Cache) : Action → Prop
  | .request request => rangeOverflows request.address request.size = false ∧
      request.size < 2 ^ 32 ∧ ∀ k ∈ pagesOf request.address request.size, region k
  | .other event => w.Leaves i region event

/-- The space is there, and what is mapped in it stays so. -/
theorem Leaves.keeps {region : Nat → Prop} {event : Event} (sound : w.Sound pager)
    (existing : i < w.count) (leaves : w.Leaves i region event) :
    i < (w.step pager event).count ∧
      ((w.step pager event).spaces i).vmMap = (w.spaces i).vmMap := by
  have moved {j : Nat} {w₁ : World Cache} (frame : Frame j w w₁) :
      i < w₁.count ∧ (w₁.spaces i).vmMap = (w.spaces i).vmMap := by
    refine ⟨frame.count ▸ existing, ?_⟩
    by_cases same : i = j
    · exact same ▸ frame.vmMap
    · rw [frame.others i same]
  cases event with
  | create =>
    refine ⟨existing.trans (Nat.lt_succ_self _), ?_⟩
    simp only [World.step, Function.update_of_ne existing.ne]
  | destroy j =>
    simp only [World.step]
    split
    · rw [edit_spaces, if_neg (Ne.symm leaves)]
      exact ⟨existing, rfl⟩
    · exact ⟨existing, rfl⟩
  | clone j =>
    simp only [World.step]
    split
    · rename_i running
      have cloned := clone_spec pager (sound.kept pager running)
      cases answer : (w.clone pager j).2 with
      | none =>
        rw [answer] at cloned
        obtain ⟨n, moves⟩ := cloned
        exact moved moves.frame
      | some c =>
        rw [answer] at cloned
        obtain ⟨-, w₁, child, moves, -, -, same⟩ := cloned
        obtain ⟨older, mapped⟩ := moved moves.frame
        rw [same]
        refine ⟨older.trans (Nat.lt_succ_self _), ?_⟩
        simp only [World.bear, Function.update_of_ne older.ne]
        exact mapped
    · exact ⟨existing, rfl⟩
  | hold backing => exact ⟨existing, rfl⟩
  | release b => exact ⟨existing, rfl⟩
  | setActor actor => exact ⟨existing, rfl⟩
  | call j call =>
    simp only [World.step]
    split
    · rename_i running
      have other : i ≠ j := Ne.symm leaves
      cases perform_spec pager sound running call with
      | stored n moves => exact moved moves.frame
      | shared moves => exact moved moves.frame
      | remapped gone within finished =>
        refine ⟨existing.trans_le finished.altered.count, ?_⟩
        rw [finished.altered.others i other]
    · exact ⟨existing, rfl⟩

theorem Leaves.spares {region : Nat → Prop} {event : Event} (leaves : w.Leaves i region event)
    (inside : region k) : ¬w.Touches i k event ∧ piecesOf i event = [] := by
  cases event with
  | call j call => exact ⟨fun touches => leaves touches.1.symm, if_neg (Ne.symm leaves)⟩
  | destroy j => exact ⟨fun touches => leaves (Eq.symm touches), rfl⟩
  | clone j => exact ⟨fun touches => leaves touches.1.symm k inside (touches.1 ▸ touches.2), rfl⟩
  | create => exact ⟨id, rfl⟩
  | hold backing => exact ⟨id, rfl⟩
  | release b => exact ⟨id, rfl⟩
  | setActor actor => exact ⟨id, rfl⟩

/-- A region of a space and a flat memory that holds the same. -/
structure Mirrors (w : World Cache) (i : Nat) (region : Nat → Prop) (m : FlatMemory Byte) : Prop where
  sound : w.Sound pager
  existing : i < w.count
  usable : ∀ k, region k → Usable pager w i k
  same : ∀ a, region (a / pageSize) → w.memory pager i a = m a

theorem Mirrors.act {region : Nat → Prop} {m : FlatMemory Byte} {action : Action}
    (mirrors : Mirrors pager w i region m) (admitted : Admits i region w action) :
    answers pager i w action = flatAnswers m action ∧
      Mirrors pager (act pager i w action) i region (flatAct m action) := by
  obtain ⟨sound, existing, usable, same⟩ := mirrors
  have kept := sound.kept pager existing
  cases action with
  | request request =>
    obtain ⟨fits, short, inside⟩ := admitted
    obtain ⟨⟨pieces, moves⟩, answer, memory⟩ := request_refines kept request
      ⟨fits, fun k member => usable k (inside k member)⟩ short
    have touched (a : Nat) (touches : request.access.Touches a) : region (a / pageSize) := by
      obtain ⟨low, high⟩ := request.touches_access.mp touches
      exact inside _ ((mem_pagesOf_iff (by omega) fits).mpr ⟨a, low, high, rfl⟩)
    obtain ⟨loaded, stored⟩ := FlatMemory.access_congr same touched
    refine ⟨congrArg (fun answer => [answer]) (answer.trans loaded), ?_⟩
    refine ⟨sound.moves pager existing moves, moves.frame.count ▸ existing, fun k here => ?_,
      fun a here => ?_⟩
    · refine (usable k here).moves pager moves kept fun member => ?_
      obtain ⟨piece, -, other⟩ := List.mem_map.mp member
      cases other
    · exact (congrFun memory a).trans (stored a here)
  | other event =>
    have isolated {k : Nat} (here : region k) : (w.step pager event).Private i k ∧
        (w.step pager event).seen pager i k = w.seen pager i k := by
      obtain ⟨spared, silent⟩ := admitted.spares (k := k) here
      obtain ⟨-, priv, part, stored, seen⟩ := sound.isolates pager existing (usable k here).priv event
        spared
      rw [silent, List.prefix_nil] at stored
      subst stored
      rw [Option.map_congr fun bytes _ => storePieces_nil bytes, Option.map_id'] at seen
      exact ⟨priv, seen⟩
    obtain ⟨count, mapped⟩ := Leaves.keeps pager sound existing admitted
    refine ⟨rfl, sound.step pager event, count, fun k here => ?_, fun a here => ?_⟩
    · obtain ⟨priv, seen⟩ := isolated here
      exact ⟨mapped ▸ (usable k here).rights, priv, seen ▸ (usable k here).whole⟩
    · exact Eq.trans (congrArg (Option.map _) (isolated here).2) (same a here)

/-- The private pages of a space answer its requests as a flat memory does, whatever the other
spaces of the machine do at the same time, and however often the space is cloned. -/
theorem private_pages_are_memory {region : Nat → Prop} {m : FlatMemory Byte} {actions : List Action}
    (reached : Reached pager w) (existing : i < w.count)
    (usable : ∀ k, region k → Usable pager w i k)
    (same : ∀ a, region (a / pageSize) → w.memory pager i a = m a)
    (admitted : Along (act pager i) (Admits i region) w actions) :
    observed (act pager i) (answers pager i) w actions = observed flatAct flatAnswers m actions ∧
      ∀ a, region (a / pageSize) →
        (run (act pager i) w actions).memory pager i a = run flatAct m actions a := by
  have mirrors : Mirrors pager w i region m := ⟨reached.sound, existing, usable, same⟩
  clear reached existing usable same
  induction actions generalizing w m with
  | nil => exact ⟨rfl, mirrors.same⟩
  | cons action rest ih =>
    obtain ⟨here, later⟩ := admitted
    obtain ⟨answer, mirrors'⟩ := mirrors.act pager here
    obtain ⟨others, memory⟩ := ih later mirrors'
    refine ⟨?_, memory⟩
    simp only [observed, answer, others]

theorem usable_onePage : Usable (.uncached fun _ _ => 0) onePage 0 1 where
  rights := ⟨_, rfl, by decide⟩
  priv := private_onePage 1
  whole := rfl

/-- A space writes a value and reads it, while another one writes at the same address. -/
def writeAndRead : List Action :=
  [.request (.write 0x1000 (.byte 7)), .other .create,
    .other (.call 1 (.map 0x1000 0x1000 3 {})),
    .other (.call 1 (.writeInteger 0x1000 (.byte 9))), .request (.read 0x1000 1)]

theorem private_pages_are_memory_written :
    observed (act (.uncached fun _ _ => 0) 0) (answers (.uncached fun _ _ => 0) 0) onePage
        writeAndRead =
      observed flatAct flatAnswers (onePage.memory (.uncached fun _ _ => 0) 0) writeAndRead :=
  (private_pages_are_memory (.uncached fun _ _ => 0) reached_onePage
    (Nat.lt_succ_self 0) (fun k (page : k = 1) => page ▸ usable_onePage) (fun _ _ => rfl)
    (along_of_mem (by
      simp [writeAndRead, Admits, Leaves, Request.address, Request.size, Scalar.byte, rangeOverflows,
        pagesOf, pagesBetween, pageIndex, endPage, pageSize, guestMemoryPageSize]
      omega) onePage)).1

end World
end ILEmu.AddressSpace
