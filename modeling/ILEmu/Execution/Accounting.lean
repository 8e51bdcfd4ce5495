import ILEmu.Execution.Coordinator
import ILEmu.Foundation.Run

/-! Every submission goes through its channel once, whatever the order of the threads. -/
namespace ILEmu.Execution.GuestExecutionCoordinator

/-- How often a submission has begun, ended and returned. -/
def Ledger.tally (ledger : Ledger) (ticket : Nat) : Nat × Nat × Nat :=
  (ledger.begun.count ticket, ledger.ended.count ticket,
    (ledger.returned.map (·.1)).count ticket)

/-- The tally of a submission whose channel is in the state; an idle channel has returned it. -/
def stage : State → Nat × Nat × Nat
  | .submitted => (0, 0, 0)
  | .running => (1, 0, 0)
  | .completed => (1, 1, 0)
  | .idle => (1, 1, 1)

variable {workers : Nat} {coordinator : GuestExecutionCoordinator workers}

def busy (coordinator : GuestExecutionCoordinator workers) : Finset (Fin workers) :=
  Finset.univ.filter fun index => (coordinator.channels index).state ≠ .idle

theorem mem_busy {index : Fin workers} :
    index ∈ coordinator.busy ↔ (coordinator.channels index).state ≠ .idle := by
  unfold busy
  rw [Finset.mem_filter, and_iff_right (Finset.mem_univ _)]

/-- What holds of the channels whatever the threads have done. -/
structure Sound (coordinator : GuestExecutionCoordinator workers) : Prop where
  outstanding : coordinator.outstanding = coordinator.busy.card
  request : ∀ i, (coordinator.channels i).request = none ↔ (coordinator.channels i).state = .idle
  cpus : ∀ i j first second, (coordinator.channels i).request = some first →
    (coordinator.channels j).request = some second → first.cpu = second.cpu → i = j
  number : ∀ i, (coordinator.channels i).state ≠ .idle →
    coordinator.ledger.submissions[(coordinator.channels i).ticket]? =
      (coordinator.channels i).request
  stages : ∀ i, (coordinator.channels i).state ≠ .idle →
    coordinator.ledger.tally (coordinator.channels i).ticket =
      stage (coordinator.channels i).state
  apart : ∀ i j, (coordinator.channels i).state ≠ .idle → (coordinator.channels j).state ≠ .idle →
    (coordinator.channels i).ticket = (coordinator.channels j).ticket → i = j
  settled : ∀ ticket < coordinator.ledger.submissions.length,
    (∀ i, (coordinator.channels i).state ≠ .idle → (coordinator.channels i).ticket ≠ ticket) →
      coordinator.ledger.tally ticket = (1, 1, 1)
  fresh : ∀ ticket, coordinator.ledger.submissions.length ≤ ticket →
    coordinator.ledger.tally ticket = (0, 0, 0)
  returned : ∀ entry ∈ coordinator.ledger.returned, ∃ request,
    entry.2 = some request ∧ coordinator.ledger.submissions[entry.1]? = some request
  exited : ∀ i, (coordinator.channels i).exited = true →
    coordinator.stopping = true ∧ (coordinator.channels i).state ≠ .submitted ∧
      (coordinator.channels i).state ≠ .running

theorem Sound.start : Sound ({} : GuestExecutionCoordinator workers) where
  outstanding := by
    unfold busy
    simp
  request _ := ⟨fun _ => rfl, fun _ => rfl⟩
  cpus _ _ _ _ found := nomatch found
  number _ busy := absurd rfl busy
  stages _ busy := absurd rfl busy
  apart _ _ busy := absurd rfl busy
  settled _ bound := absurd bound (Nat.not_lt_zero _)
  fresh _ _ := rfl
  returned := nofun
  exited _ exited := nomatch exited

/-- The control thread is somewhere else. -/
theorem Sound.andThen (sound : Sound coordinator) (caller : Caller) :
    Sound (coordinator.andThen caller) := { sound with }

/-! ### One channel -/

@[simp] theorem setChannel_self (index : Fin workers) (channel : Channel) :
    (coordinator.setChannel index channel).channels index = channel := by
  unfold setChannel
  dsimp only
  rw [Function.update_self]

theorem setChannel_other {i index : Fin workers} (ne : i ≠ index) (channel : Channel) :
    (coordinator.setChannel index channel).channels i = coordinator.channels i := by
  unfold setChannel
  dsimp only
  rw [Function.update_of_ne ne]

theorem busy_update {index : Fin workers} {channel : Channel} {ledger : Ledger} {outstanding : Nat}
    (occupied : (coordinator.channels index).state ≠ .idle) :
    busy { coordinator.setChannel index channel with ledger, outstanding } =
      if channel.state = .idle then coordinator.busy.erase index else coordinator.busy := by
  ext other
  rw [mem_busy]
  change (Function.update coordinator.channels index channel other).state ≠ .idle ↔ _
  rw [Function.update_apply]
  split_ifs with same idle idle
  · subst same
    simp [idle]
  · subst same
    exact ⟨fun _ => mem_busy.mpr occupied, fun _ => idle⟩
  · rw [Finset.mem_erase, mem_busy]
    exact ⟨fun here => ⟨same, here⟩, And.right⟩
  · rw [mem_busy]

/-- A channel goes on with its submission. -/
theorem Sound.move (sound : Sound coordinator) {index : Fin workers} {channel : Channel}
    {ledger : Ledger} {outstanding : Nat} (occupied : (coordinator.channels index).state ≠ .idle)
    (ticket : channel.ticket = (coordinator.channels index).ticket)
    (submissions : ledger.submissions = coordinator.ledger.submissions)
    (others : ∀ other, other ≠ channel.ticket →
      ledger.tally other = coordinator.ledger.tally other)
    (here : ledger.tally channel.ticket = stage channel.state)
    (request : channel.request =
      if channel.state = .idle then none else (coordinator.channels index).request)
    (left : outstanding =
      if channel.state = .idle then coordinator.outstanding - 1 else coordinator.outstanding)
    (returned : ∀ entry ∈ ledger.returned, ∃ request,
      entry.2 = some request ∧ ledger.submissions[entry.1]? = some request)
    (exited : channel.exited = true → coordinator.stopping = true ∧ channel.state ≠ .submitted ∧
      channel.state ≠ .running) :
    Sound { coordinator.setChannel index channel with ledger, outstanding } := by
  have self : (coordinator.setChannel index channel).channels index = channel :=
    setChannel_self index channel
  have other : ∀ {i}, i ≠ index →
      (coordinator.setChannel index channel).channels i = coordinator.channels i :=
    fun ne => setChannel_other ne channel
  have apart : ∀ i, i ≠ index → (coordinator.channels i).state ≠ .idle →
      (coordinator.channels i).ticket ≠ channel.ticket := by
    intro i ne running same
    exact ne (sound.apart i index running occupied (same.trans ticket))
  constructor
  · rw [busy_update occupied, left, sound.outstanding]
    split_ifs
    · exact (Finset.card_erase_of_mem (mem_busy.mpr occupied)).symm
    · rfl
  · intro i
    dsimp only
    by_cases same : i = index
    · rw [same, self, request]
      split_ifs with idle
      · exact iff_of_true rfl idle
      · exact iff_of_false (fun gone => occupied ((sound.request index).mp gone)) idle
    · rw [other same]
      exact sound.request i
  · have kept : ∀ i request, ((coordinator.setChannel index channel).channels i).request =
        some request → (coordinator.channels i).request = some request := by
      intro i found
      by_cases same : i = index
      · rw [same, self, request]
        split_ifs
        · exact nofun
        · exact id
      · rw [other same]
        exact id
    intro i j first second here there
    exact sound.cpus i j first second (kept i first here) (kept j second there)
  · intro i
    dsimp only
    by_cases same : i = index
    · rw [same, self, submissions, ticket, request]
      intro running
      rw [if_neg running]
      exact sound.number index occupied
    · rw [other same, submissions]
      exact sound.number i
  · intro i
    dsimp only
    by_cases same : i = index
    · rw [same, self]
      exact fun _ => here
    · rw [other same]
      intro running
      rw [others _ (apart i same running)]
      exact sound.stages i running
  · intro i j
    dsimp only
    by_cases first : i = index
    · by_cases second : j = index
      · exact fun _ _ _ => first.trans second.symm
      · rw [first, self, other second]
        exact fun _ running same => absurd same.symm (apart j second running)
    · by_cases second : j = index
      · rw [second, self, other first]
        exact fun running _ same => absurd same (apart i first running)
      · rw [other first, other second]
        exact sound.apart i j
  · intro number bound free
    dsimp only at bound free ⊢
    rw [submissions] at bound
    by_cases mine : number = channel.ticket
    · have idle : channel.state = .idle := by
        by_contra running
        refine free index ?_ ?_
        · rw [self]
          exact running
        · rw [self, mine]
      rw [mine, here, idle]
      rfl
    · rw [others number mine]
      refine sound.settled number bound fun i running held => ?_
      by_cases same : i = index
      · rw [same, ← ticket] at held
        exact mine held.symm
      · refine free i ?_ ?_
        · rw [other same]
          exact running
        · rw [other same]
          exact held
  · intro number bound
    dsimp only at bound ⊢
    rw [submissions] at bound
    rw [others number]
    · exact sound.fresh number bound
    · rintro rfl
      have known := sound.number index occupied
      rw [← ticket, List.getElem?_eq_none bound] at known
      exact occupied ((sound.request index).mp known.symm)
  · exact returned
  · intro i
    dsimp only
    by_cases same : i = index
    · rw [same, self]
      exact exited
    · rw [other same]
      exact sound.exited i

theorem count_snoc {numbers : List Nat} {number other : Nat} :
    (numbers ++ [number]).count other = numbers.count other + if number = other then 1 else 0 := by
  rw [List.count_append, List.count_singleton]
  simp only [beq_iff_eq]

theorem Sound.take (sound : Sound coordinator) {index : Fin workers}
    {after : GuestExecutionCoordinator workers} (done : coordinator.take index = some after) :
    Sound after := by
  unfold GuestExecutionCoordinator.take at done
  dsimp only at done
  split at done
  · rename_i submitted
    obtain rfl := Option.some.inj done
    have occupied : (coordinator.channels index).state ≠ .idle := by
      rw [submitted.2]
      exact nofun
    have before := sound.stages index occupied
    rw [submitted.2] at before
    refine sound.move occupied rfl rfl ?_ ?_ rfl rfl sound.returned ?_
    · intro other apart
      unfold Ledger.tally
      rw [count_snoc, if_neg (Ne.symm apart), Nat.add_zero]
    · unfold Ledger.tally at before ⊢
      obtain ⟨begun, rest⟩ := Prod.mk.inj before
      rw [count_snoc, begun, rest, if_pos rfl]
      rfl
    · exact fun exited => absurd exited submitted.1
  · contradiction

theorem Sound.complete (sound : Sound coordinator) {index : Fin workers}
    {after : GuestExecutionCoordinator workers} (done : coordinator.complete index = some after) :
    Sound after := by
  unfold GuestExecutionCoordinator.complete at done
  dsimp only at done
  split at done
  · rename_i running
    obtain rfl := Option.some.inj done
    have occupied : (coordinator.channels index).state ≠ .idle := by
      rw [running]
      exact nofun
    have before := sound.stages index occupied
    rw [running] at before
    refine sound.move occupied rfl rfl ?_ ?_ rfl rfl sound.returned ?_
    · intro other apart
      unfold Ledger.tally
      rw [count_snoc, if_neg (Ne.symm apart), Nat.add_zero]
    · unfold Ledger.tally at before ⊢
      obtain ⟨begun, rest⟩ := Prod.mk.inj before
      obtain ⟨ended, returned⟩ := Prod.mk.inj rest
      rw [count_snoc, begun, ended, returned, if_pos rfl]
      rfl
    · exact fun exited => ⟨(sound.exited index exited).1, nofun, nofun⟩
  · contradiction

theorem Sound.collect (sound : Sound coordinator) {index : Fin workers}
    (completed : (coordinator.channels index).state = .completed) :
    Sound (coordinator.collect index) := by
  have occupied : (coordinator.channels index).state ≠ .idle := by
    rw [completed]
    exact nofun
  have before := sound.stages index occupied
  rw [completed] at before
  refine sound.move occupied rfl rfl ?_ ?_ rfl rfl ?_ ?_
  · intro other apart
    unfold Ledger.tally
    dsimp only
    rw [List.map_append, List.map_singleton, count_snoc, if_neg (Ne.symm apart), Nat.add_zero]
  · unfold Ledger.tally at before ⊢
    obtain ⟨begun, rest⟩ := Prod.mk.inj before
    obtain ⟨ended, returned⟩ := Prod.mk.inj rest
    dsimp only
    rw [List.map_append, List.map_singleton, count_snoc, begun, ended, returned, if_pos rfl]
    rfl
  · intro entry member
    rcases List.mem_append.mp member with old | new
    · exact sound.returned entry old
    · rw [List.mem_singleton.mp new]
      have known := sound.number index occupied
      cases held : (coordinator.channels index).request with
      | none => exact absurd ((sound.request index).mp held) occupied
      | some request =>
        rw [held] at known
        exact ⟨request, rfl, known⟩
  · exact fun exited => ⟨(sound.exited index exited).1, nofun, nofun⟩

/-- An idle channel takes the next submission. -/
theorem Sound.enter (sound : Sound coordinator) {index : Fin workers} {channel : Channel}
    {request : GuestExecutionRequest} (idle : (coordinator.channels index).state = .idle)
    (running : coordinator.stopping = false)
    (cpu : ∀ i other, (coordinator.channels i).request = some other → other.cpu ≠ request.cpu)
    (taken : channel.request = some request) (submitted : channel.state = .submitted)
    (ticket : channel.ticket = coordinator.ledger.submissions.length)
    (exited : channel.exited = (coordinator.channels index).exited) :
    Sound { coordinator.setChannel index channel with
      outstanding := coordinator.outstanding + 1
      ledger := { coordinator.ledger with
        submissions := coordinator.ledger.submissions ++ [request] } } := by
  have self : (coordinator.setChannel index channel).channels index = channel :=
    setChannel_self index channel
  have other : ∀ {i}, i ≠ index →
      (coordinator.setChannel index channel).channels i = coordinator.channels i :=
    fun ne => setChannel_other ne channel
  have before : ∀ i, (coordinator.channels i).state ≠ .idle →
      (coordinator.channels i).ticket < coordinator.ledger.submissions.length := by
    intro i running
    by_contra bound
    have known := sound.number i running
    rw [List.getElem?_eq_none (Nat.le_of_not_lt bound)] at known
    exact running ((sound.request i).mp known.symm)
  have ne_of_busy : ∀ i, (coordinator.channels i).state ≠ .idle → i ≠ index := by
    rintro i running rfl
    exact running idle
  have occupied : channel.state ≠ .idle := by
    rw [submitted]
    exact nofun
  constructor
  · have wider : busy (coordinator.setChannel index channel) = insert index coordinator.busy := by
      ext i
      rw [mem_busy, Finset.mem_insert, mem_busy]
      by_cases same : i = index
      · rw [same, self]
        exact iff_of_true occupied (.inl rfl)
      · rw [other same]
        exact ⟨.inr, fun either => either.resolve_left same⟩
    have count := congrArg Finset.card wider
    rw [Finset.card_insert_of_notMem fun member => mem_busy.mp member idle,
      ← sound.outstanding] at count
    exact count.symm
  · intro i
    dsimp only
    by_cases same : i = index
    · rw [same, self, taken]
      exact iff_of_false nofun occupied
    · rw [other same]
      exact sound.request i
  · intro i j first second
    dsimp only
    by_cases here : i = index
    · by_cases there : j = index
      · exact fun _ _ _ => here.trans there.symm
      · rw [here, self, taken, other there]
        rintro ⟨⟩ found same
        exact absurd same.symm (cpu j second found)
    · by_cases there : j = index
      · rw [there, self, taken, other here]
        rintro found ⟨⟩ same
        exact absurd same (cpu i first found)
      · rw [other here, other there]
        exact sound.cpus i j first second
  · intro i
    dsimp only
    by_cases same : i = index
    · rw [same, self, ticket, taken]
      intro _
      exact List.getElem?_concat_length
    · rw [other same]
      intro running
      rw [List.getElem?_append_left (before i running)]
      exact sound.number i running
  · intro i
    dsimp only
    by_cases same : i = index
    · rw [same, self, ticket, submitted]
      exact fun _ => sound.fresh _ (Nat.le_refl _)
    · rw [other same]
      exact sound.stages i
  · intro i j
    dsimp only
    by_cases here : i = index
    · by_cases there : j = index
      · exact fun _ _ _ => here.trans there.symm
      · rw [here, self, other there, ticket]
        exact fun _ running same => absurd same.symm (before j running).ne
    · by_cases there : j = index
      · rw [there, self, other here, ticket]
        exact fun running _ same => absurd same (before i running).ne
      · rw [other here, other there]
        exact sound.apart i j
  · intro number bound free
    dsimp only at bound free
    rw [List.length_append, List.length_singleton] at bound
    rcases Nat.lt_or_eq_of_le (Nat.le_of_lt_succ bound) with old | rfl
    · refine sound.settled number old fun i running held => ?_
      have apart := ne_of_busy i running
      refine free i ?_ ?_
      · rw [other apart]
        exact running
      · rw [other apart]
        exact held
    · refine absurd ?_ (free index ?_)
      · rw [self, ticket]
      · rw [self]
        exact occupied
  · intro number bound
    dsimp only at bound
    rw [List.length_append] at bound
    exact sound.fresh number (Nat.le_of_add_right_le bound)
  · intro entry member
    obtain ⟨request, same, known⟩ := sound.returned entry member
    exact ⟨request, same, List.getElem?_append_left (List.getElem?_eq_some_iff.mp known).1 ▸ known⟩
  · intro i
    dsimp only
    by_cases same : i = index
    · rw [same, self, exited]
      intro ended
      rw [(sound.exited index ended).1] at running
      contradiction
    · rw [other same]
      exact sound.exited i

end ILEmu.Execution.GuestExecutionCoordinator
