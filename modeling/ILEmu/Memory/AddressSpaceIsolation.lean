import ILEmu.Memory.AddressSpaceRuns

/-! The pages that nobody else can reach: whatever happens elsewhere, they hold what their own
space has stored in them. -/
namespace ILEmu.AddressSpace
open Foundation
open Memory.FilePageCache (Byte PageBytes guestMemoryPageSize)
namespace World
variable {Cache : Type} (pager : FilePager Cache) {w w' : World Cache} {i j k l : Nat}
  {b : BackingId} {gone : Nat → Prop}

/-- No kernel object holds the page of memory behind a page, and nobody shares it. A page without
one is not of a file. -/
structure Private (w : World Cache) (i k : Nat) : Prop where
  own : (w.page i k).sharedWritable = false
  plain : (w.page i k).backing = none → (w.spaces i).findFileMapping (k * pageSize) = none
  made : ∀ b, (w.page i k).backing = some b →
    (w.heap.pages b).origin = .anonymous ∨ (w.heap.pages b).origin.Cached
  free : ∀ b, (w.page i k).backing = some b → (w.heap.pages b).origin = .anonymous →
    b ∉ w.held ∧ ∀ j l, (w.page j l).backing = some b → (w.page j l).sharedWritable = false

/-- What an effect on the pages of a space leaves of one of them. -/
def Effect.onPage (k : Nat) (bytes : PageBytes) : Effect → PageBytes
  | .store page offset data => if page = k then overwrite offset data bytes else bytes
  | .share _ => bytes

/-- What the effects of one space leave of a page of another, or of its own. -/
def onPage (i j k : Nat) (effects : List Effect) (bytes : PageBytes) : PageBytes :=
  if j = i then effects.foldl (Effect.onPage k) bytes else bytes

theorem onPage_nil (bytes : PageBytes) : onPage i j k [] bytes = bytes := by
  simp only [onPage, List.foldl_nil, ite_self]

theorem onPage_append (effects rest : List Effect) (bytes : PageBytes) :
    onPage i j k (effects ++ rest) bytes = onPage i j k rest (onPage i j k effects bytes) := by
  simp only [onPage]
  split
  · rw [List.foldl_append]
  · rfl

theorem Private.seen_none (priv : w.Private j l) (absent : (w.page j l).backing = none) :
    w.seen pager j l = some fun _ => 0 := by
  simp only [World.seen, contents, absent, priv.plain absent]

theorem seen_backed (found : (w.page j l).backing = some b) :
    w.seen pager j l = some (w.heap.pages b).bytes := by
  simp only [World.seen, contents, found]

/-- A page that is as a private one was, in a machine in which no backing is shared or held anew. -/
theorem Private.keep {j' l' : Nat} (priv : w.Private j l)
    (backing : (w'.page j' l').backing = (w.page j l).backing)
    (own : (w'.page j' l').sharedWritable = true → (w.page j l).sharedWritable = true)
    (plain : (w.page j l).backing = none → (w'.spaces j').findFileMapping (l' * pageSize) = none)
    (origin : ∀ b, (w.page j l).backing = some b →
      (w'.heap.pages b).origin = (w.heap.pages b).origin)
    (held : ∀ b, (w.page j l).backing = some b → (w.heap.pages b).origin = .anonymous →
      b ∈ w'.held → b ∈ w.held)
    (shared : ∀ b, (w.page j l).backing = some b → (w.heap.pages b).origin = .anonymous →
      ∀ m n, (w'.page m n).backing = some b → (w'.page m n).sharedWritable = true →
        (∃ m n, (w.page m n).backing = some b ∧ (w.page m n).sharedWritable = true) ∨ b ∈ w.held) :
    w'.Private j' l' := by
  refine ⟨Bool.eq_false_iff.mpr fun published => Bool.noConfusion ((own published).symm.trans priv.own),
    fun absent => plain (backing ▸ absent), fun b found => ?_, fun b found made => ?_⟩
  · rw [backing] at found
    rw [origin b found]
    exact priv.made b found
  · rw [backing] at found
    rw [origin b found] at made
    obtain ⟨free, own⟩ := priv.free b found made
    refine ⟨fun member => free (held b found made member), fun m n other => ?_⟩
    by_contra published
    rcases shared b found made m n other (by simpa using published) with
      ⟨m', n', before, was⟩ | member
    · rw [own m' n' before] at was
      contradiction
    · exact free member

/-- What is written in place is not what a private page elsewhere holds. -/
theorem Private.unwritten (owned : w.Owned pager) (priv : w.Private j l)
    (found : (w.page j l).backing = some b) (written : (w.page i k).backing = some b)
    (ready : (w.page i k).Ready) : j = i ∧ l = k := by
  rcases priv.made b found with anonymous | cached
  · have own := (priv.free b found anonymous).2 i k written
    exact (owned.sole i k b written anonymous ⟨ready, own⟩).2 j l found
  · exact absurd cached (owned.ready_origin pager written ready)

theorem overwrite_whole {data : List Byte} (size : data.length = pageSize) (bytes bytes' : PageBytes) :
    overwrite 0 data bytes = overwrite 0 data bytes' := by
  funext offset
  have inside : offset.val < data.length := size ▸ offset.isLt
  simp only [overwrite, GuestPageBacking.write, Nat.zero_le, if_true, Nat.sub_zero]
  simp [List.getD, inside]

theorem findFileMapping_placed (page : Page) (a : Nat) :
    ((w.edit i (placed k page)).spaces j).findFileMapping a = (w.spaces j).findFileMapping a := by
  simp only [edit_spaces]
  split
  · rename_i same
    rw [same]
    rfl
  · rfl

/-- A page that takes a place elsewhere. -/
theorem Private.placed (priv : w.Private j l) {page : Page} (fit : w.Fit i k page)
    (elsewhere : ¬(j = i ∧ l = k)) : (w.edit i (placed k page)).Private j l := by
  have here : (w.edit i (AddressSpace.placed k page)).page j l = w.page j l := by
    rw [page_placed, if_neg elsewhere]
  refine priv.keep (by rw [here]) (by rw [here]; exact id) (fun absent => ?_) (fun _ _ => rfl)
    (fun _ _ _ => id) fun b found made j' l' other published => ?_
  · rw [findFileMapping_placed]
    exact priv.plain absent
  · rw [page_placed] at other published
    split at other
    · rename_i there
      rw [if_pos there] at published
      obtain ⟨rfl, rfl⟩ := there
      -- the new page was not shared before, and nobody else has what it shares
      have before : (w.page j' l').backing = some b := by
        rcases fit.others b other made with before | nobody
        · exact before
        · exact absurd found (nobody j l)
      rcases fit.shared b other made published with was | alone
      · exact .inl ⟨_, _, before, was⟩
      · exact absurd (alone j l found) elsewhere
    · rename_i there
      rw [if_neg there] at published
      exact .inl ⟨_, _, other, published⟩

/-- A private page gets what nobody else has, or keeps what it has. -/
theorem Private.stays (priv : w.Private i k) {page : Page} (own : page.sharedWritable = false)
    (stays : w.Stays i k page) : (w.edit i (AddressSpace.placed k page)).Private i k := by
  have here : (w.edit i (AddressSpace.placed k page)).page i k = page := by
    rw [page_placed, if_pos ⟨rfl, rfl⟩]
  rcases stays with same | ⟨absent, file⟩ | ⟨b, backing, made, free, nobody⟩
  · refine priv.keep (by rw [here, same]) (by rw [here, own]; exact nofun) (fun absent => ?_)
      (fun _ _ => rfl) (fun _ _ _ => id) fun b _ _ j' l' other published => ?_
    · rw [findFileMapping_placed]
      exact priv.plain absent
    · rw [page_placed] at other published
      split at other
      · rename_i there
        rw [if_pos there, own] at published
        contradiction
      · rename_i there
        rw [if_neg there] at published
        exact .inl ⟨_, _, other, published⟩
  · rw [priv.plain absent] at file
    contradiction
  · refine ⟨by rw [here, own], fun absent => ?_, fun c found => ?_, fun c found _ => ?_⟩
    · rw [here, backing] at absent
      contradiction
    · rw [here, backing] at found
      exact .inl (Option.some.inj found ▸ made)
    · rw [here, backing] at found
      obtain rfl := Option.some.inj found
      refine ⟨free, fun j' l' other => ?_⟩
      rw [page_placed] at other ⊢
      split at other
      · rename_i there
        rw [if_pos there, own]
      · exact absurd other (nobody j' l')

/-- A private page takes bytes that stay as they are. -/
theorem Private.interned {page : Page} (own : page.sharedWritable = false)
    (made : ∀ b, page.backing = some b → (w.heap.pages b).origin = .immutable)
    (backed : page.backing.isSome) : (w.edit i (AddressSpace.placed k page)).Private i k := by
  have here : (w.edit i (AddressSpace.placed k page)).page i k = page := by
    rw [page_placed, if_pos ⟨rfl, rfl⟩]
  refine ⟨by rw [here, own], fun absent => ?_, fun b found => ?_, fun b found anonymous => ?_⟩
  · rw [here] at absent
    rw [absent] at backed
    contradiction
  · rw [here] at found
    exact .inr (.inl (made b found))
  · rw [here] at found
    exact PageOrigin.noConfusion (anonymous.symm.trans (made b found))

theorem bytes_written {heap : PageHeap} {b c : BackingId} (offset : Nat) (data : List Byte) :
    ((heap.modify b fun page => (page.write offset data).markSharedWrite).pages c).bytes =
      if c = b then overwrite offset data (heap.pages c).bytes else (heap.pages c).bytes := by
  simp only [PageHeap.modify, Function.update_apply]
  split
  · rename_i same
    subst same
    simp only [GuestPageBacking.markSharedWrite]
    split <;> rfl
  · rfl

theorem seen_placed {page : Page} (elsewhere : ¬(j = i ∧ l = k)) :
    (w.edit i (AddressSpace.placed k page)).seen pager j l = w.seen pager j l := by
  have here : (w.edit i (AddressSpace.placed k page)).page j l = w.page j l := by
    rw [page_placed, if_neg elsewhere]
  have files : ((w.edit i (AddressSpace.placed k page)).spaces j).findFileMapping (l * pageSize) =
      (w.spaces j).findFileMapping (l * pageSize) := findFileMapping_placed page _
  simp only [World.seen, contents, here, files]
  rfl

theorem onPage_elsewhere {effect : Effect} (elsewhere : j = i → effect.page ≠ l)
    (bytes : PageBytes) : onPage i j l [effect] bytes = bytes := by
  simp only [onPage]
  split
  · rename_i same
    cases effect with
    | store page offset data => exact if_neg (elsewhere same)
    | share page => rfl
  · rfl

theorem Private.isolates_placed (priv : w.Private j l) {page : Page} {effects : List Effect}
    (fit : w.Fit i k page) (placing : Placing pager w i k page effects)
    (spared : j = i → Effect.share l ∉ effects) :
    (w.edit i (AddressSpace.placed k page)).Private j l ∧
      (w.edit i (AddressSpace.placed k page)).seen pager j l =
        (w.seen pager j l).map (onPage i j l effects) := by
  by_cases here : j = i ∧ l = k
  · obtain ⟨rfl, rfl⟩ := here
    have found : (w.edit j (AddressSpace.placed l page)).seen pager j l = w.contents pager j l page := by
      have files : ((w.edit j (AddressSpace.placed l page)).spaces j).findFileMapping
          (l * pageSize) = (w.spaces j).findFileMapping (l * pageSize) :=
        findFileMapping_placed page _
      simp only [World.seen, contents, page_placed, if_pos, files, and_self]
      rfl
    rw [found]
    cases placing with
    | same contents shared stays =>
      refine ⟨priv.stays (Bool.eq_false_iff.mpr fun published => ?_) stays, ?_⟩
      · rcases shared published with was | ⟨absent, span, file, -⟩
        · exact Bool.noConfusion (was.symm.trans priv.own)
        · rw [priv.plain absent] at file
          contradiction
      · rw [contents, Option.map_congr fun bytes _ => onPage_nil bytes, Option.map_id']
    | share contents backing => exact absurd List.mem_cons_self (spared rfl)
    | replace data size contents own made backing =>
      refine ⟨.interned own made backing, ?_⟩
      have whole (bytes : PageBytes) :
          onPage j j l [.store l 0 data] bytes = overwrite 0 data fun _ => 0 := by
        simp only [onPage, if_true, List.foldl_cons, List.foldl_nil, Effect.onPage]
        exact overwrite_whole size _ _
      rw [contents, Option.map_congr fun bytes _ => whole bytes]
      cases absent : (w.page j l).backing with
      | none => rw [priv.seen_none pager absent, Option.map_some]
      | some b => rw [seen_backed pager absent, Option.map_some]
  · refine ⟨priv.placed fit here, ?_⟩
    have apart : j = i → k ≠ l := fun same other => here ⟨same, other.symm⟩
    have same (bytes : PageBytes) : onPage i j l effects bytes = bytes := by
      cases placing with
      | same _ _ _ => exact onPage_nil bytes
      | share _ _ => exact onPage_elsewhere apart bytes
      | replace _ _ _ _ _ _ => exact onPage_elsewhere apart bytes
    rw [seen_placed pager here, Option.map_congr fun bytes _ => same bytes, Option.map_id']

theorem Private.isolates_stored (priv : w.Private j l) (kept : Kept pager i w) {offset : Nat}
    {data : List Byte} (backing : (w.page i k).backing = some b) (ready : (w.page i k).Ready) :
    (w.writePage i k offset data).Private j l ∧
      (w.writePage i k offset data).seen pager j l =
        (w.seen pager j l).map (onPage i j l [.store k offset data]) := by
  have heap := writePage_heap offset data backing
  have pages (j l : Nat) : (w.writePage i k offset data).page j l = w.page j l := writePage_page _ _
  have files : ((w.writePage i k offset data).spaces j).findFileMapping (l * pageSize) =
      (w.spaces j).findFileMapping (l * pageSize) := by
    rw [writePage_spaces]
  constructor
  · refine priv.keep (by rw [pages]) (by rw [pages]; exact id) (fun absent => ?_) (fun c _ => ?_)
      (fun _ _ _ member => ?_) fun c _ _ j' l' other published => ?_
    · rw [files]
      exact priv.plain absent
    · simp only [heap, PageHeap.modify, Function.update_apply]
      split
      · rename_i same
        rw [origin_written, same]
      · rfl
    · rw [writePage_held] at member
      exact member
    · rw [pages] at other published
      exact .inl ⟨_, _, other, published⟩
  · cases found : (w.page j l).backing with
    | none =>
      have elsewhere : j = i → k ≠ l := by
        rintro rfl rfl
        rw [found] at backing
        contradiction
      have same (bytes : PageBytes) : onPage i j l [.store k offset data] bytes = bytes :=
        onPage_elsewhere elsewhere bytes
      have plain : (w.writePage i k offset data).seen pager j l = some fun _ => 0 := by
        simp only [World.seen, contents, pages, found, files, priv.plain found]
      rw [plain, priv.seen_none pager found, Option.map_some, same]
    | some c =>
      have after : (w.writePage i k offset data).seen pager j l = some
          (if c = b then overwrite offset data (w.heap.pages c).bytes
            else (w.heap.pages c).bytes) := by
        rw [seen_backed pager ((pages j l).symm ▸ found), heap, bytes_written]
      rw [after, seen_backed pager found, Option.map_some]
      congr 1
      split
      · rename_i same
        obtain ⟨rfl, rfl⟩ := priv.unwritten pager kept.owned (same ▸ found) backing ready
        simp only [onPage, if_true, List.foldl_cons, List.foldl_nil, Effect.onPage]
      · rename_i other
        refine (onPage_elsewhere (fun same here => other ?_) _).symm
        obtain rfl : k = l := here
        exact Option.some.inj (found.symm.trans (same ▸ backing))

theorem Move.seen_of_no_effect {effects : List Effect} (move : Move pager i effects w w')
    (owned : w.Owned pager) (j l : Nat) (none : effects = []) :
    w'.seen pager j l = (w.seen pager j l).map (onPage i j l effects) := by
  subst none
  rw [move.seen_of_stores_nothing pager owned fun _ => nofun,
    Option.map_congr fun bytes _ => onPage_nil bytes, Option.map_id']

/-- A private page after a move holds what its own space has put there. -/
theorem Move.isolates {effects : List Effect} (move : Move pager i effects w w')
    (kept : Kept pager i w) (priv : w.Private j l) (spared : j = i → Effect.share l ∉ effects) :
    w'.Private j l ∧ w'.seen pager j l = (w.seen pager j l).map (onPage i j l effects) := by
  have silent := move.seen_of_no_effect pager kept.owned j l
  cases move with
  | @quiet _ change quiet =>
    refine ⟨?_, silent rfl⟩
    have same (j l : Nat) : (w.edit i change |>.page j l).backing = (w.page j l).backing ∧
        ((w.edit i change).page j l).sharedWritable = (w.page j l).sharedWritable :=
      ⟨Page.backing_of_bare (page_quiet quiet), (Page.flags_of_bare (page_quiet quiet)).2.1⟩
    refine priv.keep (same j l).1 (same j l).2.symm.trans (fun absent => ?_) (fun _ _ => rfl)
      (fun _ _ _ => id) fun b _ _ j' l' other published => ?_
    · rw [findFileMapping, (.quiet quiet : Move pager i [] w (w.edit i change)).frame.files]
      exact priv.plain absent
    · exact .inl ⟨_, _, (same j' l').1 ▸ other, (same j' l').2 ▸ published⟩
  | @tracked _ heap epoch next origin bytes =>
    refine ⟨?_, silent rfl⟩
    exact priv.keep rfl id priv.plain (fun b _ => origin b) (fun _ _ _ => id)
      fun _ _ _ _ _ other published => .inl ⟨_, _, other, published⟩
  | @extended _ cache heap more valid content =>
    refine ⟨?_, silent rfl⟩
    exact priv.keep rfl id priv.plain
      (fun b found => by rw [more.kept b (kept.owned.known j l b found)]) (fun _ _ _ => id)
      fun _ _ _ _ _ other published => .inl ⟨_, _, other, published⟩
  | @placed _ k page _ mapped fit placing => exact priv.isolates_placed pager fit placing spared
  | @stored _ k b offset data backing ready => exact priv.isolates_stored pager kept backing ready
  | @held _ b k backing shared =>
    refine ⟨?_, silent rfl⟩
    refine priv.keep rfl id priv.plain (fun _ _ => rfl) (fun c found made member => ?_)
      fun _ _ _ _ _ other published => .inl ⟨_, _, other, published⟩
    rcases List.mem_cons.mp member with rfl | old
    · rw [(priv.free c found made).2 i k backing] at shared
      contradiction
    · exact old

theorem Moves.isolates {effects : List Effect} (moves : Moves pager i effects w w')
    (kept : Kept pager i w) (priv : w.Private j l) (spared : j = i → Effect.share l ∉ effects) :
    w'.Private j l ∧ w'.seen pager j l = (w.seen pager j l).map (onPage i j l effects) := by
  induction moves with
  | refl w => exact ⟨priv, by rw [Option.map_congr fun bytes _ => onPage_nil bytes, Option.map_id']⟩
  | @next w w₁ w₂ effects rest move moves ih =>
    obtain ⟨priv₁, seen₁⟩ := move.isolates pager kept priv fun same member =>
      spared same (List.mem_append_left rest member)
    obtain ⟨priv₂, seen₂⟩ := ih (move.kept pager kept) priv₁ fun same member =>
      spared same (List.mem_append_right effects member)
    refine ⟨priv₂, ?_⟩
    rw [seen₂, seen₁, Option.map_map]
    exact Option.map_congr fun bytes _ => (onPage_append effects rest bytes).symm

/-! ### Pages that stay where they are -/

/-- What a page shows depends on its backing, its file, and the page cache. -/
theorem contents_same {page page' : Page} (backing : page'.backing = page.backing)
    (files : SameFiles l (w.spaces i).fileMappings (w'.spaces j).fileMappings)
    (bytes : ∀ b, page.backing = some b → (w'.heap.pages b).bytes = (w.heap.pages b).bytes)
    (content : pager.content w'.cache w'.heap = pager.content w.cache w.heap) :
    w'.contents pager j l page' = w.contents pager i l page := by
  rw [SameFiles] at files
  simp only [contents, backing, findFileMapping]
  cases found : page.backing with
  | some b => exact congrArg some (bytes b found)
  | none =>
    dsimp only
    revert files
    generalize (w.spaces i).fileMappings.find? _ = before
    generalize (w'.spaces j).fileMappings.find? _ = after
    intro files
    cases files with
    | none => rfl
    | @some span part same =>
      simp only [fileContents, same.page, same.mode, same.transform, content]

theorem Altered.seen (altered : Altered i gone w w') (owned : w.Owned pager)
    (stays : ¬(j = i ∧ gone l)) : w'.seen pager j l = w.seen pager j l := by
  have content : pager.content w'.cache w'.heap = pager.content w.cache w.heap := by
    rw [altered.cache]
    exact pager.content_keeps owned.valid (altered.keeps _)
  by_cases same : j = i
  · subst same
    have steady := altered.changed.steady l fun goes => stays ⟨rfl, goes⟩
    exact contents_same pager steady.page.backing steady.file (fun b _ => altered.bytes b) content
  · refine contents_same pager ?_ ?_ (fun b _ => altered.bytes b) content
    · simp only [World.page, altered.others j same]
    · rw [altered.others j same]
      exact .refl l _

theorem none_of_same {files files' : List (Span FileMapping)} (same : SameFiles l files files')
    (plain : files.find? (fun span => decide (span.Contains (l * pageSize))) = none) :
    files'.find? (fun span => decide (span.Contains (l * pageSize))) = none := by
  rw [SameFiles, plain] at same
  generalize files'.find? _ = found at same ⊢
  cases same
  rfl

theorem Altered.isolates (altered : Altered i gone w w') (owned : w.Owned pager)
    (priv : w.Private j l) (stays : ¬(j = i ∧ gone l)) :
    w'.Private j l ∧ w'.seen pager j l = w.seen pager j l := by
  refine ⟨?_, altered.seen pager owned stays⟩
  have less : (w.page j l).Less (w'.page j l) := by
    rcases altered.page j l with less | ⟨goes, -⟩
    · exact less
    · exact absurd goes stays
  refine priv.keep less.backing less.shared (fun absent => ?_) (fun b _ => altered.origin b)
    (fun b _ _ member => altered.held ▸ member) fun b _ _ j' l' other published => ?_
  · have plain := priv.plain absent
    by_cases same : j = i
    · subst same
      exact none_of_same (altered.changed.steady l fun goes => stays ⟨rfl, goes⟩).file plain
    · rw [altered.others j same]
      exact plain
  · rcases altered.page j' l' with less' | ⟨-, replaced⟩
    · exact .inl ⟨_, _, less'.backing ▸ other, less'.shared published⟩
    · exact .inr (replaced b other).1

theorem seen_bear {child : AddressSpace} (existing : j ≠ w.count) :
    (w.bear child).seen pager j l = w.seen pager j l := by
  refine contents_same pager ?_ ?_ (fun _ _ => rfl) rfl
  · rw [page_bear, if_neg existing]
  · simp only [bear, Function.update_of_ne existing]
    exact .refl l _

/-- A page of the machine with the child that is as a private one was. -/
theorem Private.bear {child : AddressSpace} {m n : Nat} (priv : w.Private j l)
    (born : Born gone (w.spaces i) child) (same : (w.bear child).page m n = w.page j l)
    (plain : (w.spaces j).findFileMapping (l * pageSize) = none →
      ((w.bear child).spaces m).findFileMapping (n * pageSize) = none) :
    (w.bear child).Private m n := by
  refine priv.keep (by rw [same]) (by rw [same]; exact id) (fun absent => plain (priv.plain absent))
    (fun _ _ => rfl) (fun _ _ _ => id) fun b _ _ j' l' other published => ?_
  rw [page_bear] at other published
  split at other
  · rename_i there
    rw [if_pos there] at published
    obtain ⟨less, -⟩ := born_page born (l := l') (other ▸ rfl)
    exact .inl ⟨_, _, less.backing ▸ other, less.shared published⟩
  · rename_i there
    rw [if_neg there] at published
    exact .inl ⟨_, _, other, published⟩

theorem Private.older {child : AddressSpace} (priv : w.Private j l)
    (born : Born gone (w.spaces i) child) (existing : j ≠ w.count) : (w.bear child).Private j l := by
  refine priv.bear born (by rw [page_bear, if_neg existing]) fun plain => ?_
  simp only [World.bear, Function.update_of_ne existing]
  exact plain

theorem page_child {child : AddressSpace} (born : Born gone (w.spaces i) child) (stays : ¬gone l) :
    (w.bear child).page w.count l = w.page i l := by
  rw [page_bear, if_pos rfl]
  exact born.pages l stays

theorem bear_self (child : AddressSpace) : (w.bear child).spaces w.count = child :=
  Function.update_self _ _ _

theorem Private.child {child : AddressSpace} (priv : w.Private i l)
    (born : Born gone (w.spaces i) child) (stays : ¬gone l) :
    (w.bear child).Private w.count l := by
  refine priv.bear born (page_child born stays) fun plain => ?_
  rw [bear_self]
  exact none_of_same (born.changed.steady l stays).file plain

theorem seen_child {child : AddressSpace} (born : Born gone (w.spaces i) child) (stays : ¬gone l) :
    (w.bear child).seen pager w.count l = w.seen pager i l := by
  refine contents_same pager ?_ ?_ (fun _ _ => rfl) rfl
  · rw [page_child born stays]
  · rw [bear_self]
    exact (born.changed.steady l stays).file

/-! ### Runs -/

/-- The bytes of a page after pieces have been stored. -/
def storePieces (k : Nat) (pieces : List (BitVec 32 × List Byte)) (bytes : PageBytes) : PageBytes :=
  pieces.foldl (fun bytes piece =>
    if pageIndex piece.1 = k then overwrite (piece.1.toNat % pageSize) piece.2 bytes else bytes) bytes

theorem onPage_of (pieces : List (BitVec 32 × List Byte)) (bytes : PageBytes) :
    onPage i j l (pieces.map Effect.of) bytes =
      storePieces l (if j = i then pieces else []) bytes := by
  simp only [onPage]
  split
  · rw [List.foldl_map]
    rfl
  · rfl

theorem onPage_shares (pages : List Nat) (bytes : PageBytes) :
    onPage i j l (pages.map .share) bytes = bytes := by
  simp only [onPage]
  split
  · induction pages with
    | nil => rfl
    | cons k rest ih => exact ih
  · rfl

theorem storePieces_nil (bytes : PageBytes) : storePieces l [] bytes = bytes := rfl

theorem storePieces_append (first second : List (BitVec 32 × List Byte)) (bytes : PageBytes) :
    storePieces l (first ++ second) bytes = storePieces l second (storePieces l first bytes) :=
  List.foldl_append

/-- The event takes the page away, brings another, or shares it. -/
def Touches (w : World Cache) (j l : Nat) : Event → Prop
  | .call i call => j = i ∧ (call.Remaps (w.spaces i) l ∨ l ∈ call.published)
  | .destroy i => j = i
  | .clone i => j = i ∧ w.Inherits i l .share
  | _ => False

/-- What the space itself stores. -/
def piecesOf (j : Nat) : Event → List (BitVec 32 × List Byte)
  | .call i call => if j = i then call.pieces else []
  | _ => []

/-- A private page after an event: it holds what it held, and what its own space has stored of the
pieces of the event. -/
structure Isolated (w : World Cache) (event : Event) (j l : Nat) (w' : World Cache) : Prop where
  existing : j < w'.count
  priv : w'.Private j l
  seen : ∃ part, part <+: piecesOf j event ∧
    w'.seen pager j l = (w.seen pager j l).map (storePieces l part)

theorem Isolated.still {event : Event} (existing : j < w'.count)
    (same : w'.Private j l ∧ w'.seen pager j l = w.seen pager j l) :
    Isolated pager w event j l w' :=
  ⟨existing, same.1, [], List.nil_prefix, by
    rw [same.2, Option.map_congr fun bytes _ => storePieces_nil bytes, Option.map_id']⟩

theorem Isolated.shared {event : Event} (kept : Kept pager i w) (existing : j < w.count)
    (priv : w.Private j l) {pages : List Nat} (moves : Moves pager i (pages.map .share) w w')
    (spared : j = i → l ∉ pages) : Isolated pager w event j l w' := by
  have isolated := moves.isolates pager kept priv fun same member => by
    obtain ⟨k, inside, shared⟩ := List.mem_map.mp member
    cases shared
    exact spared same inside
  refine .still pager (moves.frame.count ▸ existing) ⟨isolated.1, ?_⟩
  rw [isolated.2, Option.map_congr fun bytes _ => onPage_shares pages bytes, Option.map_id']

theorem Isolated.performed {call : Call} (sound : w.Sound pager) (existing : j < w.count)
    (running : i < w.count) (priv : w.Private j l) (performed : Performed pager w i call w')
    (spared : ¬w.Touches j l (.call i call)) : Isolated pager w (.call i call) j l w' := by
  have kept := sound.kept pager running
  cases performed with
  | stored n moves =>
    have isolated := moves.isolates pager kept priv fun _ member => by
      obtain ⟨piece, -, stored⟩ := List.mem_map.mp member
      cases stored
    refine ⟨moves.frame.count ▸ existing, isolated.1,
      if j = i then call.pieces.take n else [], ?_, ?_⟩
    · simp only [piecesOf]
      split
      · exact List.take_prefix n call.pieces
      · exact List.nil_prefix
    · rw [isolated.2]
      exact Option.map_congr fun bytes _ => onPage_of _ bytes
  | shared moves =>
    exact .shared pager kept existing priv moves fun same member => spared ⟨same, .inr member⟩
  | remapped gone within finished =>
    exact .still pager (existing.trans_le finished.altered.count)
      (finished.altered.isolates pager sound.owned priv fun both =>
        spared ⟨both.1, .inl (within l both.2)⟩)

theorem inherits_of_page (indexed : (w.spaces i).Indexed) {inheritance : VmInheritance}
    {regions : List (Span VmRegion)} (inside : ∀ region ∈ regions, region ∈ w.inheriting i inheritance)
    (member : l ∈ regionPages regions) : w.Inherits i l inheritance := by
  obtain ⟨region, listed, here⟩ := List.mem_flatMap.mp member
  obtain ⟨low, high, starts, stops, -⟩ := inheriting_onPages indexed (inside region listed)
  refine ⟨region, inside region listed, ?_⟩
  rw [starts, stops, Nat.mul_div_cancel _ (by decide), Nat.mul_div_cancel _ (by decide)] at here
  rw [Span.Contains, starts, stops, between_pages]
  exact mem_pagesBetween.mp here

theorem Sound.isolates (sound : w.Sound pager) (existing : j < w.count) (priv : w.Private j l)
    (event : Event) (spared : ¬w.Touches j l event) :
    Isolated pager w event j l (w.step pager event) := by
  cases event with
  | create =>
    exact .still pager (existing.trans (Nat.lt_succ_self _))
      ((finished_create pager).altered.isolates pager sound.owned priv fun both => existing.ne both.1)
  | destroy i =>
    by_cases running : i < w.count
    · have finished := finished_destroy pager running
      exact .still pager (existing.trans_le finished.altered.count)
        (finished.altered.isolates pager sound.owned priv fun both => spared both.1)
    · rw [step_absent pager _ running]
      exact .still pager existing ⟨priv, rfl⟩
  | clone i =>
    simp only [World.step]
    split
    · rename_i running
      have kept := sound.kept pager running
      have cloned := clone_spec pager kept
      cases answer : (w.clone pager i).2 with
      | none =>
        rw [answer] at cloned
        obtain ⟨n, moves⟩ := cloned
        exact .shared pager kept existing priv moves fun same member =>
          spared ⟨same, inherits_of_page kept.indexed
            (fun region inside => List.mem_of_mem_take inside) member⟩
      | some c =>
        rw [answer] at cloned
        obtain ⟨-, w₁, child, moves, -, born, same⟩ := cloned
        obtain ⟨existing₁, priv₁, part, stored, seen₁⟩ : Isolated pager w (.clone i) j l w₁ :=
          .shared pager kept existing priv moves fun same member =>
            spared ⟨same, inherits_of_page kept.indexed (fun _ => id) member⟩
        rw [same]
        refine ⟨existing₁.trans (Nat.lt_succ_self _), priv₁.older born existing₁.ne, part, stored, ?_⟩
        rw [seen_bear pager existing₁.ne, seen₁]
    · exact .still pager existing ⟨priv, rfl⟩
  | hold backing =>
    have kept := sound.kept pager existing
    have made := (construct_moves pager kept { bytes := backing.bytes }).isolates pager kept priv
      fun _ => List.not_mem_nil
    have silent := (construct_moves pager kept { bytes := backing.bytes }).seen pager kept j l
    refine .still pager existing ⟨?_, silent⟩
    refine made.1.keep rfl id made.1.plain (fun _ _ => rfl) (fun b found _ member => ?_)
      fun _ _ _ _ _ other published => .inl ⟨_, _, other, published⟩
    rcases List.mem_cons.mp member with rfl | old
    · exact absurd found (sound.owned.unused pager j l)
    · exact old
  | release b =>
    refine .still pager existing ⟨?_, rfl⟩
    exact priv.keep rfl id priv.plain (fun _ _ => rfl) (fun _ _ _ => List.mem_of_mem_erase)
      fun _ _ _ _ _ other published => .inl ⟨_, _, other, published⟩
  | setActor actor =>
    refine .still pager existing ⟨?_, rfl⟩
    exact priv.keep rfl id priv.plain (fun _ _ => rfl) (fun _ _ _ => id)
      fun _ _ _ _ _ other published => .inl ⟨_, _, other, published⟩
  | call i call =>
    simp only [World.step]
    split
    · rename_i running
      exact .performed pager sound existing running priv (perform_spec pager sound running call) spared
    · exact .still pager existing ⟨priv, rfl⟩

/-! ### Children -/

/-- A child sees what its parent sees at the pages that it inherits. Those that are to be shared
have one backing, and a private one that is copied is private to each of the two. -/
structure Cloned (w : World Cache) (i c : Nat) (w' : World Cache) : Prop where
  count : w'.count = w.count + 1
  seen : ∀ j < w.count, ∀ l, w'.seen pager j l = w.seen pager j l
  mapped : ∀ l, ¬w.Inherits i l .none →
    (w'.spaces c).vmMap.point (l * pageSize) = (w.spaces i).vmMap.point (l * pageSize)
  inherited : ∀ l, ¬w.Inherits i l .none → w'.seen pager c l = w.seen pager i l
  dropped : ∀ l, w.Inherits i l .none →
    (w'.spaces c).vmMap.point (l * pageSize) = none ∧ (w'.page c l).backing = none
  shared : ∀ l, w.Inherits i l .share → w'.Published i l ∧ w'.page c l = w'.page i l
  copied : ∀ l, ¬w.Inherits i l .none → ¬w.Inherits i l .share → w.Private i l →
    w'.Private i l ∧ w'.Private c l

theorem inherits_iff (indexed : (w.spaces i).Indexed) {inheritance : VmInheritance} :
    w.Inherits i l inheritance ↔ l ∈ regionPages (w.inheriting i inheritance) := by
  refine ⟨fun ⟨region, listed, here⟩ => ?_, inherits_of_page indexed fun _ => id⟩
  obtain ⟨low, high, starts, stops, -⟩ := inheriting_onPages indexed listed
  rw [Span.Contains, starts, stops, between_pages] at here
  refine List.mem_flatMap.mpr ⟨region, listed, ?_⟩
  rw [starts, stops, Nat.mul_div_cancel _ (by decide), Nat.mul_div_cancel _ (by decide)]
  exact mem_pagesBetween.mpr here

/-- A page is inherited in one way. -/
theorem Inherits.unique (indexed : (w.spaces i).Indexed) {one other : VmInheritance}
    (first : w.Inherits i l one) (second : w.Inherits i l other) : one = other := by
  have way {inheritance : VmInheritance} (inherits : w.Inherits i l inheritance) :
      ((w.spaces i).vmMap.point (l * pageSize)).map VmRegion.inheritance = some inheritance := by
    obtain ⟨region, listed, here⟩ := inherits
    obtain ⟨inside, same⟩ := List.mem_filter.mp listed
    obtain ⟨low, high, starts, stops, -, covered⟩ := Mappings.Indexed.region indexed inside
    rw [Span.Contains, starts, stops, between_pages] at here
    have found : (w.spaces i).vmMap.point (l * pageSize) = _ := covered l here
    rw [found, Option.map_some, of_decide_eq_true same]
  exact Option.some.inj ((way first).symm.trans (way second))

theorem clone_cloned (sound : w.Sound pager) (existing : i < w.count) {c : Nat}
    (done : (w.clone pager i).2 = some c) :
    c = w.count ∧ Cloned pager w i c (w.clone pager i).1 := by
  have kept := sound.kept pager existing
  have cloned := clone_spec pager kept
  rw [done] at cloned
  obtain ⟨rfl, w₁, child, moves, published, born, same⟩ := cloned
  rw [same]
  have count : w₁.count = w.count := moves.frame.count
  have seen₁ := moves.seen_of_shares pager kept
  have older {j : Nat} (other : j < w.count) : j ≠ w₁.count := by omega
  refine ⟨rfl, ?_, fun j other l => ?_, fun l stays => ?_, fun l stays => ?_, fun l goes => ?_,
    fun l shares => ?_, fun l stays own priv => ?_⟩
  · exact congrArg (· + 1) count
  · rw [seen_bear pager (older other), seen₁]
  · rw [← count, bear_self, born.mapped l stays, moves.frame.vmMap]
  · rw [← count, seen_child pager born stays, seen₁]
  · rw [← count, bear_self, page_bear, if_pos rfl]
    exact ⟨(born.dropped l goes).1, by rw [(born.dropped l goes).2]⟩
  · have stays : ¬w.Inherits i l .none := fun goes =>
      VmInheritance.noConfusion (goes.unique kept.indexed shares)
    have here := published l ((inherits_iff kept.indexed).mp shares)
    have same : (w₁.bear child).page i l = w₁.page i l := by
      rw [page_bear, if_neg (older existing)]
    refine ⟨?_, ?_⟩
    · rw [Published, same]
      exact here
    · rw [← count, page_child born stays, same]
  · have priv₁ := (moves.isolates pager kept priv fun _ member => by
      obtain ⟨k, inside, shared⟩ := List.mem_map.mp member
      cases shared
      exact own ((inherits_iff kept.indexed).mpr inside)).1
    exact ⟨priv₁.older born (older existing), count ▸ priv₁.child born stays⟩

/-! ### Runs of a machine -/

/-- A private page after a run: it holds what it held, and of each event the first pieces that its
own space has stored. -/
structure IsolatedRun (held : Option PageBytes) (events : List Event) (j l : Nat)
    (w' : World Cache) : Prop where
  priv : w'.Private j l
  seen : ∃ parts, List.Forall₂ (fun event part => part <+: piecesOf j event) events parts ∧
    w'.seen pager j l = held.map (storePieces l parts.flatten)

theorem Sound.isolates_run (sound : w.Sound pager) (existing : j < w.count) (priv : w.Private j l)
    {events : List Event}
    (spared : Along (World.step pager) (fun w event => ¬w.Touches j l event) w events) :
    IsolatedRun pager (w.seen pager j l) events j l
      (Foundation.run (World.step pager) w events) := by
  induction events generalizing w with
  | nil =>
    refine ⟨priv, [], .nil, ?_⟩
    rw [run_nil, List.flatten_nil, Option.map_congr fun bytes _ => storePieces_nil bytes,
      Option.map_id']
  | cons event rest ih =>
    obtain ⟨here, later⟩ := spared
    obtain ⟨existing', priv', part, stored, seen'⟩ := sound.isolates pager existing priv event here
    obtain ⟨priv'', parts, each, seen''⟩ := ih (sound.step pager event) existing' priv' later
    refine ⟨priv'', part :: parts, .cons stored each, ?_⟩
    rw [run_cons, seen'', seen', Option.map_map, List.flatten_cons]
    exact Option.map_congr fun bytes _ => (storePieces_append part parts.flatten bytes).symm

/-- Two spaces write to the page. -/
def bothWrite : List Event :=
  [.call 0 (.writeInteger 0x1000 ⟨[7], by decide⟩), .call 1 (.writeInteger 0x1000 ⟨[9], by decide⟩)]

theorem private_onePage (l : Nat) : onePage.Private 0 l where
  own := rfl
  plain _ := rfl
  made _ := nofun
  free _ := nofun

/-- A clone gives a space a child that sees what it sees, and of a private page that is copied each
of the two sees from then on what it has stored itself. -/
theorem clone_isolates (reached : Reached pager w) (existing : i < w.count) {c : Nat}
    (done : (w.clone pager i).2 = some c) :
    Cloned pager w i c (w.step pager (.clone i)) ∧
      ∀ l, ¬w.Inherits i l .none → ¬w.Inherits i l .share → w.Private i l → ∀ events,
        Along (World.step pager) (fun w event => ¬w.Touches i l event ∧ ¬w.Touches c l event)
          (w.step pager (.clone i)) events →
        IsolatedRun pager (w.seen pager i l) events i l
            (Foundation.run (World.step pager) (w.step pager (.clone i)) events) ∧
          IsolatedRun pager (w.seen pager i l) events c l
            (Foundation.run (World.step pager) (w.step pager (.clone i)) events) := by
  have sound := reached.sound.step pager (.clone i)
  have step : w.step pager (.clone i) = (w.clone pager i).1 := if_pos existing
  obtain ⟨rfl, cloned⟩ := clone_cloned pager reached.sound existing done
  rw [← step] at cloned
  refine ⟨cloned, fun l stays own priv events spared => ?_⟩
  obtain ⟨mine, its⟩ := cloned.copied l stays own priv
  constructor
  · have older : i < (w.step pager (.clone i)).count := cloned.count ▸ Nat.lt_succ_of_lt existing
    rw [← cloned.seen i existing l]
    exact sound.isolates_run pager older mine (spared.imp fun _ _ both => both.1)
  · have younger : w.count < (w.step pager (.clone i)).count := cloned.count ▸ Nat.lt_succ_self _
    rw [← cloned.inherited l stays]
    exact sound.isolates_run pager younger its (spared.imp fun _ _ both => both.2)

theorem not_inherits_onePage {inheritance : VmInheritance} (other : inheritance ≠ .copy) :
    ¬onePage.Inherits 0 1 inheritance := by
  have empty : onePage.inheriting 0 inheritance = [] := by
    cases inheritance with
    | copy => contradiction
    | share => exact List.length_eq_zero_iff.mp (by decide +kernel)
    | none => exact List.length_eq_zero_iff.mp (by decide +kernel)
  simp only [Inherits, empty, List.not_mem_nil, false_and, exists_false, not_false_eq_true]

theorem clone_isolates_written :
    IsolatedRun (.uncached fun _ _ => 0) (onePage.seen (.uncached fun _ _ => 0) 0 1) bothWrite 0 1
        (Foundation.run (World.step (.uncached fun _ _ => 0))
          (onePage.step (.uncached fun _ _ => 0) (.clone 0)) bothWrite) ∧
      IsolatedRun (.uncached fun _ _ => 0) (onePage.seen (.uncached fun _ _ => 0) 0 1) bothWrite 1 1
        (Foundation.run (World.step (.uncached fun _ _ => 0))
          (onePage.step (.uncached fun _ _ => 0) (.clone 0)) bothWrite) :=
  (clone_isolates _ (i := 0) reached_onePage (Nat.lt_succ_self 0) (by decide +kernel)).2 1
    (not_inherits_onePage nofun) (not_inherits_onePage nofun) (private_onePage 1) bothWrite
    (along_of_mem (by simp [bothWrite, Touches, Call.Remaps, Call.published]) _)

end World
end ILEmu.AddressSpace
