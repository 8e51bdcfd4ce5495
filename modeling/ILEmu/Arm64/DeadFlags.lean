import ILEmu.Arm64.FlagQueries
import ILEmu.Arm64.FlagSteps

/-! The queries for dead flags against the reference interpreter: after a positive answer, the
interpreter runs straight on until the flags have been overwritten, and does not look at them
before. -/
namespace ILEmu.Arm64
open Arm hiding Instruction InstructionKind StopReason
open ArmInterpreter FlagEffects InstructionWindow Foundation PricedWalks

/-! ### What a search relies on -/

/-- The interpreter executes the instructions of a view. Within the regions of the view, fetches
have been prepared. -/
structure Runs (run : Run) (view : CodeView) : Prop where
  source : run.source.toInstructionSource = view.source
  decodesA32 : ∀ word, FlagsDecoded (view.source.decodeA32 word)
  decodesT32 : ∀ first second it, FlagsDecoded (view.source.decodeT32 first second it)
  prepared : ∀ region ∈ view.regions.regions, ∀ (address : Word) (size : Nat),
    region.begin ≤ address.toNat → address.toNat + size ≤ region.finish →
      run.source.prepareInstructionFetch address size = none
  keeps : KeepsControls run.units
  whole : run.request.singleStep = false
  blocks : run.request.stopAtControlFlow = false

/-- A guest stands where a search does, and the interpreter would execute it there. -/
structure StandsAt (view : CodeView) (place : Place) (guest : Guest) : Prop where
  pc : guest.state.registers programCounter = BitVec.ofNat 32 place.pc
  mode : modeSupported guest.state.cpsr = true
  thumb : ArmInterpreter.thumb guest.state.cpsr = view.thumb
  it : view.thumb = true → itState guest.state.cpsr = place.it
  aligned : ArmInterpreter.aligned (guest.state.registers programCounter) view.thumb = true
  guarded : Guarded place.guardedControls guest

/-! ### A turn -/

section
variable {run : Run} {view : CodeView} {place : Place} {entry : DecodedInstruction}

theorem FlagsDecoded.resize {inst : Instruction} (decoded : FlagsDecoded inst) (size : Nat) :
    FlagsDecoded { inst with size } := ⟨decoded.ifThen, decoded.multiply⟩

/-- Nothing keeps the interpreter from fetching inside of a region. -/
theorem prepare_inside (runs : Runs run view) {region : InstructionRegion}
    (member : region ∈ view.regions.regions) {address : Word} {size : Nat}
    (low : region.begin ≤ address.toNat) (high : address.toNat + size ≤ region.finish)
    (prepares : Bool) : run.source.prepare prepares address size = none := by
  unfold LeasedSource.prepare
  split
  · exact runs.prepared region member address size low high
  · rfl

/-- An entry that fits its region, as the interpreter fetches it. -/
theorem fetch_decoded (runs : Runs run view) {pc : Nat} {it it' : Word}
    (decoded : view.decode pc it false = some entry) (fits : view.fits pc entry = true)
    (same : view.thumb = true → it' = it) (prepares : Bool) :
    ∃ region ∈ view.regions.regions, region.begin ≤ pc ∧
      pc + entry.instruction.size ≤ region.finish ∧ ∃ word, entry.word = some word ∧
        run.source.fetch prepares (BitVec.ofNat 32 pc) view.thumb it' =
          .inr (word, entry.instruction) ∧ FlagsDecoded entry.instruction ∧
        (entry.instruction.size = 4 ∨ view.thumb = true ∧ entry.instruction.size = 2) := by
  have place := (decode_spec decoded).1
  unfold CodeView.fits at fits
  unfold CodeView.decode at decoded
  cases found : view.regions.containing pc with
  | none =>
    rw [found] at fits
    contradiction
  | some region =>
    have member : region ∈ view.regions.regions := List.mem_of_find?_eq_some found
    have inside := List.find?_some found
    simp only [Bool.and_eq_true, decide_eq_true_eq] at inside
    have small : pc < 2 ^ 32 := Nat.lt_of_lt_of_le inside.2 (view.regions.bounded region member)
    have address : (BitVec.ofNat 32 pc).toNat = pc := Nat.mod_eq_of_lt small
    rw [found] at fits decoded
    dsimp only at fits decoded
    rw [Bool.and_eq_true, decide_eq_true_eq] at fits
    refine ⟨region, member, inside.1, fits.2, ?_⟩
    by_cases mode : view.thumb = true
    · rw [if_pos mode] at decoded
      rw [same mode]
      split at decoded
      · cases decoded
        exact absurd fits.1 Bool.false_ne_true
      · rename_i first fetched
        split at decoded
        · rename_i wide
          split at decoded
          · contradiction
          · split at decoded
            · cases decoded
              exact absurd fits.1 Bool.false_ne_true
            · rename_i second fetched'
              cases decoded
              have whole : pc + 4 ≤ region.finish := by
                have sized := fits.2
                simpa only [CodeView.decodeT32, wide, if_true] using sized
              have next : (BitVec.ofNat 32 pc + 2).toNat = pc + 2 := by
                rw [BitVec.toNat_add, address]
                exact Nat.mod_eq_of_lt (by
                  have bound := view.regions.bounded region member
                  have two : (2 : Word).toNat = 2 := rfl
                  omega)
              refine ⟨_, rfl, ?_, (runs.decodesT32 _ _ _).resize _, .inl (if_pos wide)⟩
              unfold LeasedSource.fetch
              rw [runs.source, if_pos mode, if_pos mode,
                prepare_inside runs member (by omega) (by omega), fetched]
              dsimp only
              rw [if_pos wide, prepare_inside runs member (by omega) (by omega), fetched']
              unfold LeasedSource.decodeThumb CodeView.decodeT32
              rw [runs.source]
        · rename_i narrow
          cases decoded
          have whole : pc + 2 ≤ region.finish := by
            have sized := fits.2
            simpa only [CodeView.decodeT32, narrow, Bool.false_eq_true, if_false] using sized
          refine ⟨_, rfl, ?_, (runs.decodesT32 _ _ _).resize _, .inr ⟨mode, if_neg narrow⟩⟩
          unfold LeasedSource.fetch
          rw [runs.source, if_pos mode, if_pos mode,
            prepare_inside runs member (by omega) (by omega), fetched]
          dsimp only
          rw [if_neg narrow]
          unfold LeasedSource.decodeThumb CodeView.decodeT32
          rw [runs.source]
    · rw [if_neg mode] at decoded
      split at decoded
      · cases decoded
        exact absurd fits.1 Bool.false_ne_true
      · rename_i word fetched
        cases decoded
        refine ⟨word, rfl, ?_, (runs.decodesA32 _).resize _, .inl rfl⟩
        have whole : pc + 4 ≤ region.finish := fits.2
        unfold LeasedSource.fetch
        rw [runs.source, if_neg mode, if_neg mode,
          prepare_inside runs member (by omega) (by omega), fetched]
        unfold LeasedSource.decodeArm CodeView.decodeA32
        rw [runs.source]

theorem aligned_step {pc : Word} {thumb : Bool} {size : Nat} (aligned : aligned pc thumb = true)
    (sized : size = 4 ∨ thumb = true ∧ size = 2) :
    ArmInterpreter.aligned (pc + BitVec.ofNat 32 size) thumb = true := by
  have low : ∀ word : Word, (word &&& 1 = 0 ↔ word.toNat % 2 = 0) ∧
      (word &&& 3 = 0 ↔ word.toNat % 4 = 0) := by
    intro word
    have one : (1 : Word).toNat = 2 ^ 1 - 1 := rfl
    have three : (3 : Word).toNat = 2 ^ 2 - 1 := rfl
    rw [← BitVec.toNat_inj, ← BitVec.toNat_inj, BitVec.toNat_and, BitVec.toNat_and, one, three,
      Nat.and_two_pow_sub_one_eq_mod, Nat.and_two_pow_sub_one_eq_mod]
    exact ⟨Iff.rfl, Iff.rfl⟩
  unfold ArmInterpreter.aligned at aligned ⊢
  rw [decide_eq_true_eq] at aligned ⊢
  cases thumb with
  | false =>
    rw [if_neg Bool.false_ne_true, (low _).2] at aligned ⊢
    have four : size = 4 := sized.resolve_right fun thumb => Bool.false_ne_true thumb.1
    rw [four, BitVec.toNat_add, BitVec.toNat_ofNat]
    omega
  | true =>
    rw [if_pos rfl, (low _).1] at aligned ⊢
    rw [BitVec.toNat_add, BitVec.toNat_ofNat]
    omega

/-- The same slice under another status. -/
def under (slice : Slice) (cpsr : Word) : Slice := { slice with guest := slice.guest.setCpsr cpsr }

/-- A turn that executes an instruction of the view and goes straight on, past its end. -/
structure Executes (run : Run) (view : CodeView) (inst : Instruction) (slice next : Slice) :
    Prop where
  onward : run.next slice = .inl next
  fetched : ∃ word, run.source.fetch false (slice.guest.state.registers programCounter)
    (thumb slice.guest.state.cpsr) (itState slice.guest.state.cpsr) = .inr (word, inst)
  inside : ∃ region ∈ view.regions.regions,
    region.begin ≤ (slice.guest.state.registers programCounter).toNat ∧
      (slice.guest.state.registers programCounter).toNat + inst.size ≤ region.finish
  straight : next.guest.state.registers programCounter =
    slice.guest.state.registers programCounter + BitVec.ofNat 32 inst.size
  counted : next.instructions = slice.instructions + 1

/-- What a turn of the loop needs beside a guest that can be executed. -/
structure Unlimited (run : Run) (slice : Slice) (cost : Nat) : Prop where
  quiet : run.host.stops slice.instructions = 0 ∧ run.host.deadline slice.instructions = false
  instructions : slice.instructions ≠ run.instructionLimit
  ticks : slice.ticksConsumed + cost ≤ run.request.tickBudget
  counter : slice.ticksConsumed + cost ≤ 2 ^ 64 - 1

theorem polled_unlimited {slice : Slice} {cost : Nat} (unlimited : Unlimited run slice cost)
    (priced : cost ≠ 0) : run.polled slice = 0 := by
  have within : ¬(run.request.tickBudget ≤ slice.ticksConsumed ∧ run.request.singleStep = false) :=
    fun exhausted => by
      have ticks := unlimited.ticks
      omega
  unfold Run.polled
  rw [unlimited.quiet.1, unlimited.quiet.2, if_neg within, if_neg Bool.false_ne_true]
  rfl

/-- A turn from a guest that can be executed comes to the step of its instruction. -/
theorem next_eq (runs : Runs run view) {slice : Slice} {word : Word} {inst : Instruction}
    {after : Guest} (mode : modeSupported slice.guest.state.cpsr = true)
    (aligned : aligned (slice.guest.state.registers programCounter)
      (thumb slice.guest.state.cpsr) = true)
    (fetched : ∀ prepares, run.source.fetch prepares (slice.guest.state.registers programCounter)
      (thumb slice.guest.state.cpsr) (itState slice.guest.state.cpsr) = .inr (word, inst))
    (priced : run.source.ticks (thumb slice.guest.state.cpsr)
      (slice.guest.state.registers programCounter) word ≠ 0)
    (unlimited : Unlimited run slice (run.source.ticks (thumb slice.guest.state.cpsr)
      (slice.guest.state.registers programCounter) word))
    (stepped : step run.units run.profile inst slice.guest = (after, .retired)) :
    run.next slice = .inl
      { guest := after
        ticksConsumed := slice.ticksConsumed + run.source.ticks (thumb slice.guest.state.cpsr)
          (slice.guest.state.registers programCounter) word
        instructions := slice.instructions + 1
        lease :=
          if conditionPassed inst.condition slice.guest.state.cpsr && resetsLease inst then none
          else (run.leaseAfter slice (slice.guest.state.registers programCounter)
            (thumb slice.guest.state.cpsr)).2 } := by
  have fits := unlimited.counter
  have accepted : ¬(inst.condition = 15 ∨ (conditionPassed inst.condition slice.guest.state.cpsr =
      true ∧ refused run.units run.profile inst slice.guest = true)) := by
    intro refuses
    unfold step at stepped
    dsimp only at stepped
    rw [if_pos refuses] at stepped
    cases stepped
  unfold Run.next
  dsimp only
  rw [polled_unlimited unlimited priced, if_neg (by decide), if_neg unlimited.instructions, mode,
    aligned, Bool.not_true, if_neg Bool.false_ne_true, if_neg Bool.false_ne_true, fetched]
  dsimp only
  unfold Run.finish
  dsimp only
  rw [if_neg accepted, if_neg (by omega), stepped, runs.whole]
  unfold Run.leavesBlock
  rw [runs.blocks]
  rfl

theorem charge_eq (runs : Runs run view) {pc : Nat} {it : Word}
    (decoded : view.decode pc it false = some entry) {word : Word} (held : entry.word = some word) :
    run.source.ticks view.thumb (BitVec.ofNat 32 pc) word = view.charge entry := by
  have place : entry.pc = BitVec.ofNat 32 pc := by
    rw [← (decode_spec decoded).1, BitVec.ofNat_toNat, BitVec.setWidth_eq]
  unfold CodeView.charge CodeView.ticks LeasedSource.ticks
  rw [held, runs.source, place]
  rfl

theorem stands_alike {live : Word} {guest : Guest} {cpsr : Word}
    (stands : StandsAt view place guest) (alike : Alike live guest.state.cpsr cpsr) : StandsAt view place (guest.setCpsr cpsr) := by
  have mode : ∀ bit, modeBit bit = true → guest.state.cpsr.getLsbD bit = cpsr.getLsbD bit := by
    intro bit told
    refine alike.low ?_
    unfold modeBit at told
    simp only [Bool.or_eq_true, decide_eq_true_eq] at told
    omega
  have block : itState guest.state.cpsr = itState cpsr :=
    itState_congr fun bit told => alike.trans_steady (.refl _) told
  exact
    { pc := stands.pc
      mode := (modeSupported_congr mode fun _ => block).symm.trans stands.mode
      thumb := (mode 5 rfl).symm.trans stands.thumb
      it := fun thumb => block.symm.trans (stands.it thumb)
      aligned := stands.aligned
      guarded := stands.guarded }

/-- A turn from where a search stands executes the entry there. -/
theorem turn_entry (runs : Runs run view) {slice : Slice} {after : Guest}
    (stands : StandsAt view place slice.guest)
    (decoded : view.decode place.pc place.it false = some entry)
    (fits : view.fits place.pc entry = true) (priced : view.charge entry ≠ 0)
    (unlimited : Unlimited run slice (view.charge entry))
    (stepped : step run.units run.profile entry.instruction slice.guest = (after, .retired)) :
    run.next slice = .inl
      { guest := after
        ticksConsumed := slice.ticksConsumed + view.charge entry
        instructions := slice.instructions + 1
        lease :=
          if conditionPassed entry.instruction.condition slice.guest.state.cpsr &&
            resetsLease entry.instruction then none
          else (run.leaseAfter slice (slice.guest.state.registers programCounter)
            (thumb slice.guest.state.cpsr)).2 } := by
  have fetched : ∀ prepares, ∃ word, entry.word = some word ∧
      run.source.fetch prepares (slice.guest.state.registers programCounter)
        (thumb slice.guest.state.cpsr) (itState slice.guest.state.cpsr) =
          .inr (word, entry.instruction) := by
    intro prepares
    obtain ⟨-, -, -, -, word, held, found, -⟩ :=
      fetch_decoded runs decoded fits stands.it prepares
    rw [stands.pc, stands.thumb]
    exact ⟨word, held, found⟩
  obtain ⟨word, held, -⟩ := fetched true
  have charged : run.source.ticks (thumb slice.guest.state.cpsr)
      (slice.guest.state.registers programCounter) word = view.charge entry := by
    rw [stands.pc, stands.thumb]
    exact charge_eq runs decoded held
  rw [← charged] at priced unlimited ⊢
  refine next_eq runs stands.mode ?_ (fun prepares => ?_) priced unlimited stepped
  · rw [stands.thumb]
    exact stands.aligned
  · obtain ⟨other, held', found⟩ := fetched prepares
    rw [held] at held'
    cases held'
    exact found

/-- The flags that are left of the live ones past an instruction. -/
def left (live : Word) (inst : Instruction) : Word := live &&& ~~~(flagEffects inst).guaranteedWrite

theorem effectsUnder_flags (guardedControls : Word) (inst : Instruction) :
    (effectsUnder guardedControls inst).read = (flagEffects inst).read ∧
      (effectsUnder guardedControls inst).guaranteedWrite = (flagEffects inst).guaranteedWrite := by
  unfold effectsUnder
  split
  · split
    · exact ⟨rfl, rfl⟩
    · exact ⟨rfl, rfl⟩
  · exact ⟨rfl, rfl⟩

/-- Where a search is past an entry. -/
def past (view : CodeView) (place : Place) (inst : Instruction) : Place where
  live := left place.live inst
  guardedControls := guardedAfter place.guardedControls inst
  pc := place.pc + inst.size
  it := view.nextIt inst place.it

/-- What a move of a search says of its entry. -/
theorem move_spec {move : Move Place} (taken : view.move place = some move) :
    ∃ entry, view.decode place.pc place.it false = some entry ∧ view.fits place.pc entry = true ∧
      (effectsUnder place.guardedControls entry.instruction).boundary = false ∧
      (effectsUnder place.guardedControls entry.instruction).read &&& place.live = 0 ∧
      view.charge entry ≠ 0 ∧ move.cost = view.charge entry ∧
      move.next =
        if left place.live entry.instruction = 0 then none
        else some (past view place entry.instruction) := by
  obtain ⟨entry, decoded, crossed⟩ := Option.bind_eq_some_iff.mp taken
  unfold CodeView.crossing at crossed
  dsimp only at crossed
  split at crossed
  · contradiction
  · rename_i goes
    split at crossed
    · contradiction
    · rename_i charged
      unfold stops at goes
      simp only [Bool.or_eq_true, Bool.not_eq_true', decide_eq_true_eq, not_or, not_not,
        Bool.not_eq_false, Bool.not_eq_true] at goes
      cases crossed
      rw [(effectsUnder_flags _ _).2]
      exact ⟨entry, decoded, goes.1.1, goes.1.2, goes.2, charged, rfl, rfl⟩

/-- A turn goes past the entry where a search moves on, and slices that differ in live flags only
stay together. -/
theorem turn_past (runs : Runs run view) {move : Move Place} (taken : view.move place = some move)
    {slice : Slice} (stands : StandsAt view place slice.guest)
    (unlimited : Unlimited run slice move.cost) :
    ∃ inst next, Executes run view inst slice next ∧
      next.ticksConsumed = slice.ticksConsumed + move.cost ∧
      (flagEffects inst).read &&& place.live = 0 ∧
      (move.next = if left place.live inst = 0 then none else some (past view place inst)) ∧
      StandsAt view (past view place inst) next.guest ∧
      ∀ cpsr, Alike place.live slice.guest.state.cpsr cpsr → ∃ cpsr',
        Executes run view inst (under slice cpsr) (under next cpsr') ∧
          Alike (left place.live inst) next.guest.state.cpsr cpsr' := by
  obtain ⟨entry, decoded, fits, crossed, unread, priced, cost, onward⟩ := move_spec taken
  rw [cost] at unlimited ⊢
  obtain ⟨region, member, low, high, word, held, fetched, flags, sized⟩ :=
    fetch_decoded runs decoded fits stands.it false
  obtain ⟨after, steps, guards⟩ := @steps_past place.live place.guardedControls entry.instruction
    run.units run.profile slice.guest runs.keeps flags crossed unread stands.guarded
  have turned := turn_entry runs stands decoded fits priced unlimited steps.step
  have condition := (crossed_flows run.units run.profile slice.guest flags crossed unread).1
  rw [(effectsUnder_flags _ _).1] at unread
  have flagged := (effectsUnder_flags place.guardedControls entry.instruction).2
  have bound := view.regions.bounded region member
  have address : (slice.guest.state.registers programCounter).toNat = place.pc := by
    rw [stands.pc]
    exact Nat.mod_eq_of_lt (by omega)
  have executes : ∀ {slice next : Slice}, StandsAt view place slice.guest →
      (slice.guest.state.registers programCounter).toNat = place.pc →
      run.next slice = .inl next → next.guest.state.registers programCounter =
        slice.guest.state.registers programCounter + BitVec.ofNat 32 entry.instruction.size →
      next.instructions = slice.instructions + 1 →
      Executes run view entry.instruction slice next := by
    intro slice next stands address onward straight counted
    obtain ⟨-, -, -, -, word, -, fetched, -⟩ := fetch_decoded runs decoded fits stands.it false
    refine ⟨onward, ⟨word, ?_⟩, ⟨region, member, ?_⟩, straight, counted⟩
    · rw [stands.pc, stands.thumb]
      exact fetched
    · rw [address]
      exact ⟨low, high⟩
  refine ⟨entry.instruction, _, executes stands address turned steps.pc rfl, rfl, unread, onward,
    ?_, fun cpsr alike => ?_⟩
  · have state : thumb after.state.cpsr = view.thumb := (steps.mode 5 rfl).trans stands.thumb
    refine ⟨?_, ?_, state, fun mode => ?_, ?_, guards⟩
    · rw [steps.pc, stands.pc]
      exact (BitVec.ofNat_add ..).symm
    · refine (modeSupported_congr (fun bit told => steps.mode bit told) fun arm => ?_).trans
        stands.mode
      have same : thumb slice.guest.state.cpsr = false := stands.thumb.trans (state.symm.trans arm)
      rw [steps.block, same, if_neg Bool.false_ne_true]
    · have block := steps.block
      rw [stands.thumb, mode, if_pos rfl, stands.it mode] at block
      unfold past CodeView.nextIt
      rw [if_pos mode]
      exact block
    · rw [steps.pc]
      exact aligned_step stands.aligned sized
  · obtain ⟨cpsr', stepped, less⟩ := steps.alike cpsr alike
    have limits : Unlimited run (under slice cpsr) (view.charge entry) :=
      ⟨unlimited.quiet, unlimited.instructions, unlimited.ticks, unlimited.counter⟩
    have there : StandsAt view place (under slice cpsr).guest := stands_alike stands alike
    have turned' := turn_entry runs there decoded fits priced limits stepped
    have passes : conditionPassed entry.instruction.condition (under slice cpsr).guest.state.cpsr =
        conditionPassed entry.instruction.condition slice.guest.state.cpsr :=
      (conditionPassed_alike alike condition).symm
    have state : thumb (under slice cpsr).guest.state.cpsr = thumb slice.guest.state.cpsr :=
      there.thumb.trans stands.thumb.symm
    rw [passes, state] at turned'
    unfold left
    rw [← flagged]
    exact ⟨cpsr', executes there address turned' steps.pc rfl, less⟩

end

/-! ### Runs across dead flags -/

/-- Two slices go straight through the same instructions of the view. Before each they differ in
the flags that are left only, which it does not read, and in the end there is no flag left. -/
inductive Together (run : Run) (view : CodeView) :
    Word → List Instruction → Slice → Slice → Slice → Prop where
  | finish (slice : Slice) : Together run view 0 [] slice slice slice
  | turn {live : Word} {inst : Instruction} {rest : List Instruction} {slice next final : Slice}
      {cpsr : Word} {next' : Slice} (alike : Alike live slice.guest.state.cpsr cpsr)
      (unread : (flagEffects inst).read &&& live = 0) (executes : Executes run view inst slice next)
      (executes' : Executes run view inst (under slice cpsr) next')
      (together : Together run view (left live inst) rest next next' final) :
      Together run view live (inst :: rest) slice (under slice cpsr) final

/-- How long a slice goes on undisturbed. -/
structure Undisturbed (run : Run) (slice : Slice) (instructions ticks : Nat) : Prop where
  quiet : ∀ turn, slice.instructions ≤ turn → turn < slice.instructions + instructions →
    run.host.stops turn = 0 ∧ run.host.deadline turn = false
  limit : slice.instructions + instructions ≤ run.instructionLimit
  budget : slice.ticksConsumed + ticks ≤ run.request.tickBudget
  counter : slice.ticksConsumed + ticks ≤ 2 ^ 64 - 1

section
variable {run : Run} {view : CodeView} {place : Place}

theorem Undisturbed.unlimited {slice : Slice} {instructions ticks cost : Nat}
    (undisturbed : Undisturbed run slice (instructions + 1) ticks) (affordable : cost ≤ ticks) :
    Unlimited run slice cost := by
  obtain ⟨quiet, limit, budget, counter⟩ := undisturbed
  exact ⟨quiet _ (Nat.le_refl _) (by omega), by omega, by omega, by omega⟩

theorem Undisturbed.next {slice next : Slice} {instructions ticks cost : Nat}
    (undisturbed : Undisturbed run slice (instructions + 1) ticks) (affordable : cost ≤ ticks)
    (counted : next.instructions = slice.instructions + 1)
    (paid : next.ticksConsumed = slice.ticksConsumed + cost) :
    Undisturbed run next instructions (ticks - cost) := by
  obtain ⟨quiet, limit, budget, counter⟩ := undisturbed
  exact ⟨fun turn low high => quiet turn (by omega) (by omega), by omega, by omega, by omega⟩

theorem under_own (slice : Slice) : under slice slice.guest.state.cpsr = slice := rfl

/-- Where a search comes to its goal, so does the interpreter, from whatever values of the live
flags. -/
theorem together_of_reaches (runs : Runs run view) (instructions : Nat) :
    ∀ {place : Place} {ticks : Nat} {slice : Slice},
      reaches view.move instructions ticks place = true → StandsAt view place slice.guest →
        Undisturbed run slice instructions ticks →
          ∃ insts final, insts.length ≤ instructions ∧
            final.ticksConsumed ≤ slice.ticksConsumed + ticks ∧
              ∀ cpsr, Alike place.live slice.guest.state.cpsr cpsr →
                Together run view place.live insts slice (under slice cpsr) final := by
  induction instructions with
  | zero =>
    intro place ticks slice reached
    contradiction
  | succ instructions ih =>
    intro place ticks slice reached stands undisturbed
    cases taken : view.move place with
    | none =>
      rw [reaches_blocked taken] at reached
      contradiction
    | some move =>
      have affordable : move.cost ≤ ticks := by
        by_contra broke
        rw [reaches_broke taken (Nat.not_le.mp broke)] at reached
        contradiction
      obtain ⟨inst, next, executes, paid, unread, onward, there, others⟩ :=
        turn_past runs taken stands (undisturbed.unlimited affordable)
      by_cases done : left place.live inst = 0
      · refine ⟨[inst], next, Nat.le_add_left _ _, by omega, fun cpsr alike => ?_⟩
        obtain ⟨cpsr', executes', less⟩ := others cpsr alike
        rw [done] at less
        have same : under next cpsr' = next := by rw [← less.eq, under_own]
        rw [same] at executes'
        refine .turn alike unread executes executes' ?_
        rw [done]
        exact .finish next
      · rw [if_neg done] at onward
        have further : reaches view.move instructions (ticks - move.cost) (past view place inst) =
            true := by
          obtain ⟨cost, goal⟩ := move
          cases onward
          rw [reaches_onward taken, Bool.and_eq_true] at reached
          exact reached.2
        obtain ⟨insts, final, short, cheap, joined⟩ :=
          ih further there (undisturbed.next affordable executes.counted paid)
        refine ⟨inst :: insts, final, Nat.succ_le_succ short, by omega, fun cpsr alike => ?_⟩
        obtain ⟨cpsr', executes', less⟩ := others cpsr alike
        exact .turn alike unread executes executes' (joined cpsr' less)

/-- Slices that have come together are the same from there on. -/
theorem Together.after {live : Word} {insts : List Instruction} {slice other final : Slice}
    (together : Together run view live insts slice other final) :
    run.after insts.length slice = some final ∧ run.after insts.length other = some final := by
  induction together with
  | finish slice => exact ⟨rfl, rfl⟩
  | turn alike unread executes executes' together ih =>
    rw [List.length_cons, Run.after_succ executes.onward, Run.after_succ executes'.onward]
    exact ih

end

/-- After a positive answer to a query for dead flags, the interpreter goes straight on through
instructions of the view, within the limits, and none of them reads a flag that is still left,
until all have been overwritten. With whatever values of the flags it comes to the same state, and
ends in the same way. -/
theorem flagsDead_unobserved {run : Run} {view : CodeView} (runs : Runs run view)
    (retainCycle : Bool) (calls : List Call)
    (along : Along (Session.call view) (Session.Along view) (Session.new retainCycle) calls)
    (live pc it : Word) (remainingInstructions remainingTicks : Nat) (guardedControls : Word)
    (dead : ((Foundation.run (Session.call view) (Session.new retainCycle) calls).window.flagsDead
      view live pc it remainingInstructions remainingTicks guardedControls).1 = true)
    {slice : Slice} (stands : StandsAt view ⟨live, guardedControls, pc.toNat, it⟩ slice.guest)
    (undisturbed : Undisturbed run slice remainingInstructions remainingTicks) :
    ∃ insts final, insts.length ≤ remainingInstructions ∧
      final.ticksConsumed ≤ slice.ticksConsumed + remainingTicks ∧
        ∀ cpsr, Alike live slice.guest.state.cpsr cpsr →
          Together run view live insts slice (under slice cpsr) final ∧
            ∀ more, run.runSlice (insts.length + more) (under slice cpsr) =
              run.runSlice (insts.length + more) slice := by
  have sound := (Session.sound_run view retainCycle along).1
  have told := (sound.flagsDead live pc it remainingInstructions remainingTicks guardedControls).1
  have reached := (Bool.and_eq_true_iff.mp (told.symm.trans dead)).2
  obtain ⟨insts, final, short, cheap, joined⟩ :=
    together_of_reaches runs remainingInstructions reached stands undisturbed
  refine ⟨insts, final, short, cheap, fun cpsr alike => ⟨joined cpsr alike, fun more => ?_⟩⟩
  obtain ⟨own, other⟩ := (joined cpsr alike).after
  rw [Run.runSlice_after own, Run.runSlice_after other]

/-- The interpreter at the move of a view. -/
def atMove : Slice where
  guest :=
    { state := { registers := fun _ => 0, cpsr := 0x30 }
      memory := fun _ => 0 }

def crossing : Run where
  units := ⟨fun _ _ extension => extension, fun _ => 0, fun _ guest => (guest, {})⟩
  profile := {}
  source := { adjoining.source with }
  request := { tickBudget := 8 }

theorem runs_adjoining : Runs crossing adjoining where
  source := rfl
  decodesA32 _ := ⟨InstructionKind.noConfusion, InstructionKind.noConfusion⟩
  decodesT32 first _ _ := by
    change FlagsDecoded (if first = 0x46c0 then _ else if first = 0xf1b0 then _ else _)
    split
    · exact ⟨InstructionKind.noConfusion, InstructionKind.noConfusion⟩
    · split
      · exact ⟨InstructionKind.noConfusion, InstructionKind.noConfusion⟩
      · exact ⟨InstructionKind.noConfusion, InstructionKind.noConfusion⟩
  prepared _ _ _ _ _ _ := rfl
  keeps _ _ _ _ := rfl
  whole := rfl
  blocks := rfl

theorem stands_atMove : StandsAt adjoining ⟨0xf, 0, (0 : Word).toNat, 0⟩ atMove.guest where
  pc := rfl
  mode := by decide
  thumb := rfl
  it _ := by decide
  aligned := by decide
  guarded guard := absurd guard (by decide)

theorem undisturbed_atMove : Undisturbed crossing atMove 8 8 where
  quiet _ _ _ := ⟨rfl, rfl⟩
  limit := by decide
  budget := Nat.le_refl _
  counter := by decide

/-- The move reads no flag, and the comparison after it overwrites all of them. -/
theorem flagsDead_unobserved_move : ∃ insts final, insts.length ≤ 8 ∧ final.ticksConsumed ≤ 0 + 8 ∧
    ∀ cpsr, Alike 0xf 0x30 cpsr → Together crossing adjoining 0xf insts atMove (under atMove cpsr)
        final ∧ ∀ more, crossing.runSlice (insts.length + more) (under atMove cpsr) =
          crossing.runSlice (insts.length + more) atMove :=
  flagsDead_unobserved runs_adjoining true [] trivial 0xf 0 0 8 8 0 (by decide) stands_atMove
    undisturbed_atMove

end ILEmu.Arm64
