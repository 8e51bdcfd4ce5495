import ILEmu.Foundation.Words
import ILEmu.Vm.SharedRegionSlide

/-! Which slide infos keep every chain going forward through its page. -/
namespace ILEmu.Vm
open Foundation

namespace Page
variable {page page' : Page} {offset value : Word}

theorem place_val {i : Nat} (inside : offset.toNat + i < pageSize) :
    (place offset i).val = offset.toNat + i :=
  Nat.mod_eq_of_lt inside

/-- A word is stored in its own four bytes. -/
theorem setWord_untouched (inside : offset.toNat + 4 ≤ pageSize) {index : Fin pageSize}
    (outside : index.val < offset.toNat ∨ offset.toNat + 4 ≤ index.val) :
    page.setWord offset value index = page index := by
  have other : ∀ i < 4, index ≠ place offset i := by
    rintro i small rfl
    rw [place_val (by omega)] at outside
    omega
  unfold setWord
  rw [if_neg (other 0 (by decide)), if_neg (other 1 (by decide)), if_neg (other 2 (by decide)),
    if_neg (other 3 (by decide))]

end Page

/-! ### The distances of a chain -/

namespace SlideInfo
variable {info : SlideInfo}

/-- The delta mask is shifted down to words of four bytes. -/
structure Admitted (info : SlideInfo) : Prop where
  nonzero : info.deltaMask ≠ 0
  trailing : 2 ≤ info.deltaMask.ctz.toNat

/-- No distance reaches around the end of the offsets. -/
def Forward (info : SlideInfo) : Prop :=
  info.deltaMask < 0xfffff004 ∨ info.deltaMask.getLsbD 2 = false

instance (info : SlideInfo) : Decidable info.Forward := inferInstanceAs (Decidable (_ ∨ _))

theorem shift_toNat (admitted : info.Admitted) :
    (info.deltaMask.ctz - 2).toNat = info.deltaMask.ctz.toNat - 2 := by
  have trailing := admitted.trailing
  have bound := info.deltaMask.ctz.isLt
  rw [BitVec.toNat_sub]
  change (2 ^ 32 - 2 + _) % 2 ^ 32 = _
  omega

theorem delta_aligned (admitted : info.Admitted) (encoded : Word) :
    (info.delta encoded).toNat % 4 = 0 := by
  have low : ∀ i < 2, (info.delta encoded).getLsbD i = false := by
    intro i small
    have clear : info.deltaMask.getLsbD ((info.deltaMask.ctz - 2).toNat + i) = false := by
      apply BitVec.getLsbD_false_of_lt_ctz
      rw [shift_toNat admitted]
      have trailing := admitted.trailing
      omega
    unfold delta
    rw [BitVec.ushiftRight_eq', BitVec.getLsbD_ushiftRight, BitVec.getLsbD_and, clear,
      Bool.and_false]
  have first := low 0 (by decide)
  have second := low 1 (by decide)
  rw [BitVec.getLsbD, Nat.testBit_eq_decide_div_mod_eq] at first second
  simp only [pow_zero, Nat.div_one, decide_eq_false_iff_not, pow_one] at first second
  omega

theorem delta_le (info : SlideInfo) (encoded : Word) :
    (info.delta encoded).toNat ≤ info.deltaMask.toNat / 2 ^ (info.deltaMask.ctz - 2).toNat := by
  unfold delta
  rw [BitVec.ushiftRight_eq', BitVec.toNat_ushiftRight, Nat.shiftRight_eq_div_pow]
  exact Nat.div_le_div_right (within_and encoded info.deltaMask).toNat_le

theorem delta_lt (admitted : info.Admitted) (forward : info.Forward) (encoded : Word) :
    (info.delta encoded).toNat < 0xfffff004 := by
  have below := delta_le info encoded
  rcases forward with small | clear
  · have small : info.deltaMask.toNat < 0xfffff004 := small
    exact Nat.lt_of_le_of_lt (below.trans (Nat.div_le_self _ _)) small
  · -- The lowest bit of the mask is above the third.
    have lowest := BitVec.getLsbD_true_ctz_of_ne_zero admitted.nonzero
    have above : info.deltaMask.ctz.toNat ≠ 2 := by
      intro same
      rw [same, clear] at lowest
      contradiction
    have trailing := admitted.trailing
    have half : info.deltaMask.toNat / 2 ^ (info.deltaMask.ctz - 2).toNat ≤
        info.deltaMask.toNat / 2 := by
      apply Nat.div_le_div_left _ (by decide)
      rw [shift_toNat admitted]
      exact Nat.le_self_pow (by omega) 2
    have bound := info.deltaMask.isLt
    omega

end SlideInfo

/-! ### One chain -/

/-- The word lies in the page, on a boundary of four bytes. -/
def Slot.Inside (slot : Slot) : Prop :=
  slot.offset.toNat % 4 = 0 ∧ slot.offset.toNat + 4 ≤ pageSize

/-- The word after this one would not lie in the page. -/
def Slot.Leaves (info : SlideInfo) (slot : Slot) : Prop :=
  pageSize < slot.offset.toNat + (info.delta slot.encoded).toNat + 4

/-- A chain that goes forward through the page. -/
structure CleanChain (slots : List Slot) : Prop where
  inside : ∀ slot ∈ slots, slot.Inside
  increasing : slots.Pairwise fun early late => early.offset < late.offset

/-- The byte is one of a word of the chain. -/
def Touches (slots : List Slot) (index : Fin pageSize) : Prop :=
  ∃ slot ∈ slots, slot.offset.toNat ≤ index.val ∧ index.val < slot.offset.toNat + 4

structure Walk.Clean (info : SlideInfo) (before : Page) (walk : Walk) : Prop where
  chain : CleanChain walk.slots
  leaves : (∃ slot ∈ walk.slots, slot.Leaves info) → walk.error ≠ 0
  untouched : ∀ index, ¬Touches walk.slots index → walk.page index = before index

section
variable {info : SlideInfo}

theorem walkChain_outside (slide : Word) (fuel : Nat) (page : Page) {offset : Word}
    (outside : ¬offset ≤ lastPointer) :
    walkChain info slide (fuel + 1) page offset =
      some { page, error := invalidArgument, slots := [] } := by
  unfold walkChain
  rw [if_neg outside]

theorem walkChain_last (slide : Word) (fuel : Nat) (page : Page) {offset : Word}
    (inside : offset ≤ lastPointer) (last : info.delta (page.word offset) = 0) :
    walkChain info slide (fuel + 1) page offset =
      some { page := page.setWord offset (info.pointer slide (page.word offset)), error := 0,
             slots := [{ offset, encoded := page.word offset }] } := by
  unfold walkChain
  rw [if_pos inside]
  dsimp only
  rw [if_pos last]

theorem walkChain_next (slide : Word) (fuel : Nat) (page : Page) {offset : Word}
    (inside : offset ≤ lastPointer) (next : info.delta (page.word offset) ≠ 0) :
    walkChain info slide (fuel + 1) page offset =
      (walkChain info slide fuel (page.setWord offset (info.pointer slide (page.word offset)))
        (offset + info.delta (page.word offset))).map fun walk =>
          { walk with slots := { offset, encoded := page.word offset } :: walk.slots } := by
  rw [walkChain, if_pos inside]
  dsimp only
  rw [if_neg next]

theorem Walk.Clean.none (page : Page) (error : Word) :
    Walk.Clean info page { page, error, slots := [] } where
  chain := ⟨nofun, .nil⟩
  leaves := nofun
  untouched := fun _ _ => rfl

/-- A word before a chain that goes forward. -/
theorem Walk.Clean.cons {before : Page} {slot : Slot} {value : Word} {walk : Walk}
    (clean : walk.Clean info (before.setWord slot.offset value)) (inside : slot.Inside)
    (later : ∀ other ∈ walk.slots, slot.offset < other.offset)
    (leaves : slot.Leaves info → walk.error ≠ 0) :
    Walk.Clean info before { walk with slots := slot :: walk.slots } where
  chain := by
    constructor
    · exact List.forall_mem_cons.mpr ⟨inside, clean.chain.inside⟩
    · exact List.pairwise_cons.mpr ⟨later, clean.chain.increasing⟩
  leaves := by
    rintro ⟨other, member, beyond⟩
    rcases List.mem_cons.mp member with rfl | member
    · exact leaves beyond
    · exact clean.leaves ⟨other, member, beyond⟩
  untouched := by
    intro index untouched
    have rest : ¬Touches walk.slots index := by
      rintro ⟨other, member, touched⟩
      exact untouched ⟨other, List.mem_cons_of_mem _ member, touched⟩
    dsimp only
    rw [clean.untouched index rest]
    apply Page.setWord_untouched inside.2
    by_contra touched
    rw [not_or, Nat.not_lt, Nat.not_le] at touched
    exact untouched ⟨slot, List.mem_cons_self, touched⟩

theorem le_lastPointer {offset : Word} : offset ≤ lastPointer ↔ offset.toNat + 4 ≤ pageSize := by
  have size : pageSize = 4096 := rfl
  have bound : lastPointer.toNat = 4092 := rfl
  rw [BitVec.le_def, bound]
  omega

/-- The offset after a word, and before the end of the offsets. -/
theorem offset_add_delta (admitted : info.Admitted) (forward : info.Forward) {offset : Word}
    (inside : offset.toNat + 4 ≤ pageSize) (encoded : Word) :
    (offset + info.delta encoded).toNat = offset.toNat + (info.delta encoded).toNat := by
  have below := SlideInfo.delta_lt admitted forward encoded
  have size : pageSize = 4096 := rfl
  rw [BitVec.toNat_add]
  omega

/-- Without a distance that goes around, every walk ends, and goes forward until it does. -/
theorem walkChain_clean (admitted : info.Admitted) (forward : info.Forward) (slide : Word)
    (fuel : Nat) (page : Page) (offset : Word) (aligned : offset.toNat % 4 = 0)
    (enough : pageSize ≤ offset.toNat + fuel) :
    ∃ walk, walkChain info slide (fuel + 1) page offset = some walk ∧ walk.Clean info page ∧
      (∀ slot ∈ walk.slots, offset ≤ slot.offset) ∧
      (¬offset ≤ lastPointer → walk.error ≠ 0) := by
  have rejected : invalidArgument ≠ 0 := by decide
  induction fuel generalizing page offset with
  | zero =>
    have outside : ¬offset ≤ lastPointer := by
      rw [le_lastPointer]
      omega
    exact ⟨_, walkChain_outside slide 0 page outside, .none page _, nofun, fun _ => rejected⟩
  | succ fuel ih =>
    by_cases inside : offset ≤ lastPointer
    · have within := le_lastPointer.mp inside
      have here : Slot.Inside { offset, encoded := page.word offset } := ⟨aligned, within⟩
      by_cases last : info.delta (page.word offset) = 0
      · refine ⟨_, walkChain_last slide (fuel + 1) page inside last, ?_, ?_,
          fun outside => absurd inside outside⟩
        · refine (Walk.Clean.none _ 0).cons here nofun fun leaves => ?_
          unfold Slot.Leaves at leaves
          rw [last] at leaves
          exact absurd within (Nat.not_le.mpr leaves)
        · exact List.forall_mem_singleton.mpr (BitVec.le_refl _)
      · have sum := offset_add_delta admitted forward within (page.word offset)
        have step := SlideInfo.delta_aligned admitted (page.word offset)
        have positive : (info.delta (page.word offset)).toNat ≠ 0 := by
          intro zero
          exact last (BitVec.eq_of_toNat_eq zero)
        obtain ⟨walk, walked, clean, above, beyond⟩ := ih
          (page.setWord offset (info.pointer slide (page.word offset)))
          (offset + info.delta (page.word offset)) (by omega) (by omega)
        have next : offset < offset + info.delta (page.word offset) := by
          rw [BitVec.lt_def, sum]
          omega
        have later : ∀ slot ∈ walk.slots, offset < slot.offset := by
          intro slot member
          have after := above slot member
          bv_omega
        rw [walkChain_next slide (fuel + 1) page inside last, walked]
        refine ⟨_, rfl, clean.cons here later fun leaves => beyond ?_, ?_,
          fun outside => absurd inside outside⟩
        · rw [le_lastPointer, sum]
          exact Nat.not_le.mpr leaves
        · refine List.forall_mem_cons.mpr ⟨BitVec.le_refl _, fun slot member => ?_⟩
          exact BitVec.le_of_lt (later slot member)
    · exact ⟨_, walkChain_outside slide (fuel + 1) page inside, .none page _, nofun,
        fun _ => rejected⟩

theorem decodeChain_clean (admitted : info.Admitted) (forward : info.Forward) (slide : Word)
    (page : Page) {start : Word} (aligned : start.toNat % 4 = 0) :
    ∃ walk, decodeChain info slide (pageSize + 1) page start = some walk ∧
      walk.Clean info page := by
  unfold decodeChain
  split
  · exact ⟨_, rfl, .none page _⟩
  · obtain ⟨walk, walked, clean, -⟩ := walkChain_clean admitted forward slide pageSize page start
      aligned (Nat.le_add_left _ _)
    exact ⟨walk, walked, clean⟩

theorem start_aligned (entry : BitVec 16) : (entry.setWidth 32 <<< 2).toNat % 4 = 0 := by
  rw [BitVec.toNat_shiftLeft, Nat.shiftLeft_eq]
  omega

/-! ### One page -/

structure Decoded.Clean (info : SlideInfo) (before : Page) (decoded : Decoded) : Prop where
  chains : ∀ slots ∈ decoded.chains, CleanChain slots
  leaves : (∃ slots ∈ decoded.chains, ∃ slot ∈ slots, slot.Leaves info) → decoded.error ≠ 0
  untouched : ∀ index, (∀ slots ∈ decoded.chains, ¬Touches slots index) →
    decoded.page index = before index

theorem Decoded.Clean.single {before : Page} {walk : Walk} (clean : walk.Clean info before) :
    Decoded.Clean info before { page := walk.page, error := walk.error, chains := [walk.slots] } where
  chains := List.forall_mem_singleton.mpr clean.chain
  leaves := by
    rintro ⟨slots, member, leaves⟩
    rw [List.mem_singleton.mp member] at leaves
    exact clean.leaves leaves
  untouched := fun index untouched => clean.untouched index (untouched _ (List.mem_singleton_self _))

/-- A chain that ends in the page, before others. -/
theorem Decoded.Clean.cons {before : Page} {walk : Walk} {rest : Decoded}
    (clean : walk.Clean info before) (ends : walk.error = 0) (later : rest.Clean info walk.page) :
    Decoded.Clean info before { rest with chains := walk.slots :: rest.chains } where
  chains := List.forall_mem_cons.mpr ⟨clean.chain, later.chains⟩
  leaves := by
    rintro ⟨slots, member, leaves⟩
    rcases List.mem_cons.mp member with rfl | member
    · exact absurd ends (clean.leaves leaves)
    · exact later.leaves ⟨slots, member, leaves⟩
  untouched := by
    intro index untouched
    obtain ⟨first, others⟩ := List.forall_mem_cons.mp untouched
    exact (later.untouched index others).trans (clean.untouched index first)

theorem decodeExtras_clean (admitted : info.Admitted) (forward : info.Forward) (slide : Word)
    (metadata : List Byte) (remaining : Nat) (page : Page) :
    ∃ decoded, decodeExtras info slide (pageSize + 1) metadata remaining page = some decoded ∧
      decoded.Clean info page := by
  induction remaining generalizing page with
  | zero => exact ⟨_, rfl, nofun, nofun, fun _ _ => rfl⟩
  | succ remaining ih =>
    unfold decodeExtras
    dsimp only
    generalize tableEntry metadata _ = extra
    obtain ⟨walk, walked, clean⟩ := decodeChain_clean admitted forward slide page
      (start_aligned (extra &&& chainValue))
    rw [walked]
    dsimp only [bind, Option.bind, pure]
    split
    · exact ⟨_, rfl, .single clean⟩
    · rename_i ends
      have ends : walk.error = 0 := not_not.mp ends
      split
      · refine ⟨_, rfl, ?_⟩
        rw [← ends]
        exact .single clean
      · obtain ⟨rest, decoded, later⟩ := ih walk.page
        rw [decoded]
        exact ⟨_, rfl, later.cons clean ends⟩

theorem decodePage_clean (admitted : info.Admitted) (forward : info.Forward) (slide : Word)
    (metadata : List Byte) (page : Page) (entry : BitVec 16) :
    ∃ decoded, decodePage info slide (pageSize + 1) metadata page entry = some decoded ∧
      decoded.Clean info page := by
  unfold decodePage
  split
  · obtain ⟨walk, walked, clean⟩ := decodeChain_clean admitted forward slide page
      (start_aligned entry)
    rw [walked]
    exact ⟨_, rfl, .single clean⟩
  · exact decodeExtras_clean admitted forward slide metadata _ page

/-! ### The slide infos -/

/-- Every page of every table is decoded to an end, forward along each chain, and is published
only without an error. -/
def DecodesCleanly (info : SlideInfo) : Prop :=
  ∀ (metadata : List Byte) (slide : Word) (page : Page) (entry : BitVec 16),
    ∃ fuel decoded, decodePage info slide fuel metadata page entry = some decoded ∧
      decoded.Clean info page ∧
      ∀ start fileOffset, SharedRegionSlideV2.rebase ⟨metadata, info, start, slide⟩ fileOffset =
          some entry → decoded.error ≠ 0 →
        SharedRegionSlideV2.apply ⟨metadata, info, start, slide⟩ fuel page fileOffset = some none

theorem apply_rejects {transform : SharedRegionSlideV2} {fuel : Nat} {source : Page}
    {fileOffset : BitVec 64} {entry : BitVec 16} {decoded : Decoded}
    (rebased : transform.rebase fileOffset = some entry)
    (result : decodePage transform.info transform.slide fuel transform.metadata source entry =
      some decoded) (error : decoded.error ≠ 0) :
    transform.apply fuel source fileOffset = some none := by
  unfold SharedRegionSlideV2.apply
  rw [rebased]
  dsimp only
  rw [result]
  dsimp only [bind, Option.bind, pure]
  rw [if_pos error]

theorem decodesCleanly_of_forward (admitted : info.Admitted) (forward : info.Forward) :
    DecodesCleanly info := by
  intro metadata slide page entry
  obtain ⟨decoded, result, clean⟩ := decodePage_clean admitted forward slide metadata page entry
  exact ⟨_, decoded, result, clean, fun _ _ rebased error => apply_rejects rebased result error⟩

/-- The last word of a page is the distance from it to an earlier one. -/
def returningPage (info : SlideInfo) : Page := Page.setWord (fun _ => 0) lastPointer info.deltaMask

theorem word_bytes (value : Word) : value.extractLsb' 24 8 ++ value.extractLsb' 16 8 ++
    value.extractLsb' 8 8 ++ value.extractLsb' 0 8 = value := by
  rw [BitVec.extractLsb'_append_extractLsb'_eq_extractLsb' (by rfl),
    BitVec.extractLsb'_append_extractLsb'_eq_extractLsb' (by rfl),
    BitVec.extractLsb'_append_extractLsb'_eq_extractLsb' (by rfl)]
  exact BitVec.extractLsb'_eq_self

theorem returningPage_word (info : SlideInfo) :
    (returningPage info).word lastPointer = info.deltaMask := by
  unfold returningPage Page.word Page.setWord
  rw [if_neg (by decide), if_neg (by decide), if_neg (by decide), if_pos rfl,
    if_neg (by decide), if_neg (by decide), if_pos rfl, if_neg (by decide), if_pos rfl, if_pos rfl]
  exact word_bytes info.deltaMask

/-- Then the distance is the mask itself. -/
theorem delta_deltaMask (admitted : info.Admitted) (around : ¬info.Forward) :
    info.delta info.deltaMask = info.deltaMask := by
  have set : info.deltaMask.getLsbD 2 = true := by
    by_contra clear
    exact around (.inr (by simpa using clear))
  have lowest : info.deltaMask.ctz = 2 := by
    have trailing := admitted.trailing
    have least : ¬2 < info.deltaMask.ctz.toNat := by
      intro above
      rw [BitVec.getLsbD_false_of_lt_ctz above] at set
      contradiction
    bv_omega
  unfold SlideInfo.delta
  rw [lowest, BitVec.and_self]
  exact BitVec.ushiftRight_zero _

theorem walkChain_around (admitted : info.Admitted) (around : ¬info.Forward) {slide : Word}
    {fuel : Nat} {walk : Walk}
    (walked : walkChain info slide fuel (returningPage info) lastPointer = some walk) :
    ¬CleanChain walk.slots := by
  have far : 0xfffff004 ≤ info.deltaMask := by
    by_contra below
    exact around (.inl (by simpa using below))
  have word := returningPage_word info
  have distance := delta_deltaMask admitted around
  have back : lastPointer + info.deltaMask < lastPointer := by
    unfold lastPointer pageSize
    bv_omega
  intro clean
  cases fuel with
  | zero => contradiction
  | succ fuel =>
    rw [walkChain_next slide fuel _ (BitVec.le_refl _) (by
      rw [word, distance]
      exact admitted.nonzero), word, distance] at walked
    obtain ⟨rest, resumed, rfl⟩ := Option.map_eq_some_iff.mp walked
    cases fuel with
    | zero => contradiction
    | succ fuel =>
      have inside : lastPointer + info.deltaMask ≤ lastPointer := BitVec.le_of_lt back
      have first : ∃ slot ∈ rest.slots, slot.offset = lastPointer + info.deltaMask := by
        unfold walkChain at resumed
        rw [if_pos inside] at resumed
        dsimp only at resumed
        split at resumed
        · rw [← Option.some.inj resumed]
          exact ⟨_, List.mem_singleton_self _, rfl⟩
        · obtain ⟨later, -, rfl⟩ := Option.map_eq_some_iff.mp resumed
          exact ⟨_, List.mem_cons_self, rfl⟩
      obtain ⟨slot, member, same⟩ := first
      have later : lastPointer < slot.offset := List.rel_of_pairwise_cons clean.increasing member
      rw [same] at later
      exact absurd back (BitVec.not_lt.mpr (BitVec.le_of_lt later))

/-- A distance that goes around leads from the last word of a page to an earlier one. -/
theorem not_decodesCleanly (admitted : info.Admitted) (around : ¬info.Forward) :
    ¬DecodesCleanly info := by
  intro cleanly
  obtain ⟨fuel, decoded, result, clean, -⟩ := cleanly [] 0 (returningPage info) 1023
  unfold decodePage at result
  rw [if_pos (by decide)] at result
  obtain ⟨walk, walked, single⟩ := Option.bind_eq_some_iff.mp result
  rw [← Option.some.inj single] at clean
  have start : (1023 : BitVec 16).setWidth 32 <<< 2 = lastPointer := by decide
  unfold decodeChain at walked
  rw [if_neg (by decide), start] at walked
  exact walkChain_around admitted around walked (clean.chains _ (List.mem_singleton_self _))

theorem readInfo_admitted {memory : GuestMemory} {address size mappingSize : Word}
    (accepted : readInfo memory address size mappingSize = some info) : info.Admitted := by
  unfold readInfo at accepted
  split at accepted
  · contradiction
  · simp only [Option.bind_eq_bind, Option.bind_eq_some_iff] at accepted
    obtain ⟨version, -, pageSize', -, startsOffset, -, startsCount, -, extrasOffset, -,
      extrasCount, -, deltaMask, -, valueAdd, -, accepted⟩ := accepted
    split at accepted
    · contradiction
    · rename_i admitted
      simp only [Bool.or_eq_true, not_or, decide_eq_true_eq] at admitted
      obtain ⟨⟨⟨⟨-, nonzero⟩, narrow⟩, trailing⟩, -⟩ := admitted
      obtain rfl := Option.some.inj accepted
      constructor
      · intro zero
        apply nonzero
        have zero : (deltaMask.setWidth 32).toNat = 0 := congrArg BitVec.toNat zero
        have narrow : deltaMask.toNat ≤ 2 ^ 32 - 1 := Nat.not_lt.mp narrow
        rw [BitVec.toNat_setWidth, Nat.mod_eq_of_lt (by omega)] at zero
        exact BitVec.eq_of_toNat_eq zero
      · exact BitVec.le_def.mp (BitVec.not_lt.mp trailing)

/-- The pages of an accepted slide info are decoded cleanly exactly as long as its delta mask
reaches no distance around the end of the offsets. -/
theorem decodesCleanly_iff_forward {memory : GuestMemory} {address size mappingSize : Word}
    (accepted : readInfo memory address size mappingSize = some info) :
    DecodesCleanly info ↔ info.Forward := by
  have admitted := readInfo_admitted accepted
  constructor
  · intro cleanly
    by_contra around
    exact not_decodesCleanly admitted around cleanly
  · exact decodesCleanly_of_forward admitted

end

/-! ### Two tables -/

/-- The slide info of one page, which starts a chain at its last word. -/
def slideTable (mask : List Byte) : List Byte :=
  [2, 0, 0, 0, 0, 16, 0, 0, 40, 0, 0, 0, 1, 0, 0, 0, 42, 0, 0, 0, 0, 0, 0, 0] ++ mask ++
    [0, 0, 0, 0, 0, 0, 0, 0, 0, 0, 0, 0, 0xff, 0x03]

theorem decodesCleanly_iff_forward_high :
    DecodesCleanly ⟨40, 1, 42, 0, 0xff000000, 0⟩ ↔
      SlideInfo.Forward ⟨40, 1, 42, 0, 0xff000000, 0⟩ := by
  have accepted : readInfo (.ofBytes 0x1000 (slideTable [0, 0, 0, 0xff])) 0x1000 42 0x1000 =
      some ⟨40, 1, 42, 0, 0xff000000, 0⟩ := by
    decide +kernel
  exact decodesCleanly_iff_forward accepted

/-- A mask of every bit above the lowest two is accepted. -/
theorem decodes_backwards : ¬∀ (memory : GuestMemory) (address size mappingSize : Word)
    (info : SlideInfo), readInfo memory address size mappingSize = some info →
      DecodesCleanly info := by
  intro cleanly
  have accepted : readInfo (.ofBytes 0x1000 (slideTable [0xfc, 0xff, 0xff, 0xff])) 0x1000 42 0x1000 =
      some ⟨40, 1, 42, 0, 0xfffffffc, 0⟩ := by
    decide +kernel
  exact not_decodesCleanly (readInfo_admitted accepted) (by decide) (cleanly _ _ _ _ _ accepted)

end ILEmu.Vm
