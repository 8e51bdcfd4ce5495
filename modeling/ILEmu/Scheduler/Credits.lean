import ILEmu.Scheduler.Accounts

/-! What an operation adds to the ticks of a process: it only ever moves ticks between
living threads and the history, and adds what it is told of. -/
namespace ILEmu
open Foundation Xnu.Scheduler

namespace XnuScheduler

/-- A slice of the thread is in flight, as its record has it. -/
def inFlight (s : XnuScheduler) (t : XnuThreadId) : Bool :=
  ((s.accountOf t).map Account.inFlight).getD false

end XnuScheduler

/-- The ticks that an operation adds to the account of a process. -/
def Operation.credited (s : XnuScheduler) (p : Nat) : Operation → Nat
  | .completeSlice thread consumed _ _ => if thread.process = p ∧ s.inFlight thread then consumed else 0
  | .removeThread thread pending =>
    if thread.process = p ∧ (s.lifeOf thread).isSome then pending else 0
  | .replaceProcessThreads survivor _ pending _ =>
    if survivor.process = p ∧ (s.lifeOf survivor).isSome then
      (((s.ownedThreads p).erase survivor).map pending).sum
    else 0
  | _ => 0

/-- No addition to the ticks of a process saturates. -/
def Operation.Fits (s : XnuScheduler) (p : Nat) : Operation → Prop
  | .completeSlice thread consumed completion _ =>
    thread.process = p → s.inFlight thread = true → s.ticksOf thread + consumed ≤ uint64Max ∧
      (completion = .terminate → s.retiredTicks p + (s.ticksOf thread + consumed) ≤ uint64Max)
  | .removeThread thread pending =>
    thread.process = p → (s.lifeOf thread).isSome →
      s.retiredTicks p + (s.ticksOf thread + pending) ≤ uint64Max
  | .replaceProcessThreads survivor _ pending _ =>
    survivor.process = p → (s.lifeOf survivor).isSome →
      s.retiredTicks p +
        (((s.ownedThreads p).erase survivor).map fun t => s.ticksOf t + pending t).sum ≤ uint64Max
  | _ => True

/-- The operation ends the history of a process. -/
def Operation.Ends (p : Nat) : Operation → Prop
  | .removeProcess process _ => process = p
  | _ => False

theorem saturatingAdd_of_le {left right : Nat} (fits : left + right ≤ uint64Max) :
    saturatingAdd left right = left + right := by
  unfold saturatingAdd
  rw [if_neg (by omega)]

namespace XnuScheduler
section
variable {s s' : XnuScheduler} {t : XnuThreadId} {operation : Operation} {p : Nat}

theorem after_yields {post : XnuScheduler → Prop}
    (yields : Yields (s.perform operation) fun (s', _) => post s') : post (s.after operation) := by
  obtain ⟨⟨s', response⟩, performed, holds⟩ := yields
  unfold after
  rw [performed]
  exact holds

theorem ticksOf_after (invariant : s.Invariant) {account : Option Account}
    (step : operation.accountStep s t (s.accountOf t) = account) :
    (s.after operation).ticksOf t = (account.map Account.ticks).getD 0 := by
  unfold ticksOf
  rw [accountOf_after invariant, step]

/-- Operations by which no thread retires leave the ticks of every thread alone. -/
theorem ticksOf_kept (invariant : s.Invariant) (retires : operation.retires = false)
    (t : XnuThreadId) : (s.after operation).ticksOf t = s.ticksOf t := by
  rw [ticksOf_after invariant rfl]
  unfold ticksOf
  cases operation with
  | registerThread thread base runnable =>
    simp only [Operation.accountStep]
    split
    · cases s.accountOf t with
      | none => rfl
      | some a => rfl
    · rfl
  | chooseNext processor preferred =>
    simp only [Operation.accountStep]
    split
    · rw [Option.map_map]
      rfl
    · rfl
  | removeThread thread pending => contradiction
  | replaceProcessThreads survivor base pending order => contradiction
  | removeProcess process order => contradiction
  | completeSlice thread consumed completion accounting => contradiction
  | _ => rfl

theorem inFlight_iff : s.inFlight t = true ↔ ∃ ticks, s.accountOf t = some ⟨true, ticks⟩ := by
  unfold inFlight
  cases known : s.accountOf t with
  | none => simp
  | some a =>
    obtain ⟨flying, ticks⟩ := a
    simp

theorem isSome_account : (s.accountOf t).isSome = (s.lifeOf t).isSome := Option.isSome_map

theorem finalTicks_eq (consumed : Nat) : s.finalTicks t consumed =
    if s.inFlight t then saturatingAdd (s.ticksOf t) consumed else 0 := by
  unfold finalTicks inFlight ticksOf accountOf
  cases s.lifeOf t with
  | none => rfl
  | some l => rfl

theorem completeSlice_balance (invariant : s.Invariant) {consumed : Nat}
    {completion : XnuSliceCompletion} {accounting : XnuTimeAccounting}
    (fits : Operation.Fits s p (.completeSlice t consumed completion accounting)) :
    (s.after (.completeSlice t consumed completion accounting)).retiredTicks p +
        (s.after (.completeSlice t consumed completion accounting)).liveTicks p =
      s.retiredTicks p + s.liveTicks p +
        Operation.credited s p (.completeSlice t consumed completion accounting) := by
  have completes : Completes t consumed completion s
      (s.after (.completeSlice t consumed completion accounting)) :=
    after_yields (answering_yields
      (completeSlice_yields invariant t consumed completion accounting))
  have account := accountOf_after invariant (.completeSlice t consumed completion accounting)
  generalize s.after (.completeSlice t consumed completion accounting) = s' at completes account ⊢
  have elsewhere : ∀ u, u ≠ t → s'.ticksOf u = s.ticksOf u := by
    intro u other
    unfold ticksOf
    rw [account]
    simp only [Operation.accountStep, if_neg other]
  simp only [Operation.credited]
  by_cases mine : t.process = p
  · subst p
    have change := liveTicks_change invariant.settled completes.settled t fun u _ => elsewhere u
    have retired := completes.retired t.process
    rw [finalTicks_eq] at retired
    have here : s'.ticksOf t = ((Operation.accountStep s
        (.completeSlice t consumed completion accounting) t (s.accountOf t)).map
          Account.ticks).getD 0 := by
      unfold ticksOf
      rw [account]
    simp only [Operation.accountStep, if_true] at here
    by_cases flying : s.inFlight t = true
    · obtain ⟨fitting, final⟩ := fits rfl flying
      obtain ⟨ticks, known⟩ := inFlight_iff.mp flying
      have before : s.ticksOf t = ticks := by
        unfold ticksOf
        rw [known]
        rfl
      rw [before] at fitting final change
      rw [if_pos flying, before, saturatingAdd_of_le fitting] at retired
      rw [known] at here
      by_cases ends : completion = .terminate
      · rw [if_pos ⟨rfl, ends⟩, saturatingAdd_of_le (final ends)] at retired
        simp only [Option.bind_some, not_true, if_false, ends, if_true, Option.map_none,
          Option.getD_none] at here
        rw [retired, if_pos ⟨rfl, flying⟩]
        omega
      · rw [if_neg fun both => ends both.2] at retired
        simp only [Option.bind_some, not_true, if_false, ends, Option.map_some,
          Option.getD_some, saturatingAdd_of_le fitting] at here
        rw [retired, if_pos ⟨rfl, flying⟩]
        omega
    · have same : s'.ticksOf t = s.ticksOf t := by
        rw [here]
        unfold ticksOf
        cases known : s.accountOf t with
        | none => rfl
        | some a =>
          have idle : ¬a.inFlight = true := by
            intro busy
            apply flying
            unfold inFlight
            rw [known]
            exact busy
          simp [idle]
      rw [if_neg flying, saturatingAdd_zero, ite_self] at retired
      rw [retired, if_neg fun both => flying both.2]
      omega
  · have live : s'.liveTicks p = s.liveTicks p := by
      apply liveTicks_congr invariant.settled completes.settled
      rintro u rfl
      exact elsewhere u fun same => mine (congrArg XnuThreadId.process same.symm)
    rw [live, completes.retired, if_neg fun both => mine both.1.symm, if_neg fun both => mine both.1]
    rfl

theorem removeThread_balance (invariant : s.Invariant) {pending : Nat}
    (fits : Operation.Fits s p (.removeThread t pending)) :
    (s.after (.removeThread t pending)).retiredTicks p +
        (s.after (.removeThread t pending)).liveTicks p =
      s.retiredTicks p + s.liveTicks p + Operation.credited s p (.removeThread t pending) := by
  have retires : Retires t (s.dueTicks (fun _ => pending) t) s (s.after (.removeThread t pending)) :=
    after_yields (answering_yields ((removeThread_yields invariant.settled t fun _ => pending).mono
      fun _ both => both.1))
  generalize s.after (.removeThread t pending) = s' at retires ⊢
  have ticks : ∀ u, s'.ticksOf u = if u = t then 0 else s.ticksOf u := by
    intro u
    unfold ticksOf accountOf
    rw [retires.turns.lives]
    split
    · rfl
    · rfl
  simp only [Operation.credited]
  by_cases mine : t.process = p
  · subst p
    have change := liveTicks_change invariant.settled retires.turns.settled t fun u _ other => by
      rw [ticks, if_neg other]
    have retired := retires.retired t.process
    rw [ticks, if_pos rfl] at change
    cases known : s.lifeOf t with
    | none =>
      have nothing : s.dueTicks (fun _ => pending) t = 0 := by
        rw [dueTicks, known]
        rfl
      rw [if_pos rfl, nothing, saturatingAdd_zero] at retired
      rw [ticksOf_unknown known] at change
      simp only [Option.isSome_none, Bool.false_eq_true, and_false, if_false]
      omega
    | some l =>
      have fitting := fits rfl (by rw [known]; rfl)
      rw [ticksOf_known known] at fitting change
      have due : s.dueTicks (fun _ => pending) t = l.userTicks + pending := by
        rw [dueTicks, known]
        exact saturatingAdd_of_le (by omega)
      rw [if_pos rfl, due, saturatingAdd_of_le fitting] at retired
      simp only [Option.isSome_some, and_self, if_true]
      omega
  · have live : s'.liveTicks p = s.liveTicks p := by
      apply liveTicks_congr invariant.settled retires.turns.settled
      rintro u rfl
      rw [ticks, if_neg fun same => mine (congrArg XnuThreadId.process same.symm)]
    rw [live, retires.retired, if_neg fun same => mine same.symm, if_neg fun both => mine both.1]
    rfl

/-- Threads of one process retire with what they are due. -/
theorem credit_eq {due : XnuThreadId → Nat} {threads : List XnuThreadId} {ticks : Nat}
    (mine : ∀ t ∈ threads, t.process = p) (fits : ticks + (threads.map due).sum ≤ uint64Max) :
    credit due p threads ticks = ticks + (threads.map due).sum := by
  induction threads generalizing ticks with
  | nil => rfl
  | cons t rest ih =>
    simp only [List.map_cons, List.sum_cons] at fits ⊢
    unfold credit
    rw [List.foldl_cons, if_pos (mine t List.mem_cons_self).symm, saturatingAdd_of_le (by omega)]
    have room : ticks + due t + (rest.map due).sum ≤ uint64Max := by omega
    have later := ih (fun u member => mine u (List.mem_cons_of_mem t member)) room
    unfold credit at later
    rw [later]
    omega

theorem sum_erase_update {threads : List XnuThreadId} {survivor : XnuThreadId}
    (distinct : threads.Nodup) (member : survivor ∈ threads) (due : XnuThreadId → Nat) :
    (threads.map (Function.update due survivor 0)).sum = ((threads.erase survivor).map due).sum := by
  rw [← List.sum_map_erase _ member, Function.update_self, Nat.zero_add]
  apply congrArg List.sum
  apply List.map_congr_left
  intro t left
  exact Function.update_of_ne (distinct.mem_erase_iff.mp left).1 0 due

/-- What the threads that an exec retires are due. -/
theorem due_others {pending : XnuThreadId → Nat} {others : List XnuThreadId} {retired : Nat}
    (known : ∀ t ∈ others, (s.lifeOf t).isSome)
    (fits : retired + (others.map fun t => s.ticksOf t + pending t).sum ≤ uint64Max) :
    (others.map (s.dueTicks pending)).sum = (others.map fun t => s.ticksOf t + pending t).sum := by
  apply congrArg List.sum
  apply List.map_congr_left
  intro t member
  obtain ⟨l, life⟩ := Option.isSome_iff_exists.mp (known t member)
  have below := List.single_le_sum (fun _ _ => Nat.zero_le _) _
    (List.mem_map_of_mem (f := fun t => s.ticksOf t + pending t) member)
  rw [ticksOf_known life] at below ⊢
  rw [dueTicks, life]
  exact saturatingAdd_of_le (by omega)

theorem replaceProcessThreads_balance (invariant : s.Invariant) {survivor : XnuThreadId}
    {base : Int} {pending : XnuThreadId → Nat} {order : List XnuThreadId}
    (fits : Operation.Fits s p (.replaceProcessThreads survivor base pending order)) :
    (s.after (.replaceProcessThreads survivor base pending order)).retiredTicks p +
        (s.after (.replaceProcessThreads survivor base pending order)).liveTicks p =
      s.retiredTicks p + s.liveTicks p +
        Operation.credited s p (.replaceProcessThreads survivor base pending order) := by
  simp only [Operation.credited]
  cases found : s.threads.lookup survivor with
  | none =>
    have nobody : s.after (.replaceProcessThreads survivor base pending order) = s := by
      have returned : s.replaceProcessThreads survivor base pending order = .ok (s, false) := by
        unfold replaceProcessThreads
        rw [found]
      simp only [after, perform, returned]
      rfl
    rw [nobody, lifeOf_none found, if_neg (by simp)]
    rfl
  | some r =>
    have alive : s.lifeOf survivor = some r.life := by rw [lifeOf, found]; rfl
    obtain ⟨⟨s', replied⟩, performed, -, turns, threads, distinct, mem, retired⟩ :=
      replaceProcessThreads_yields invariant.settled found base pending order
    have here : s.after (.replaceProcessThreads survivor base pending order) = s' := by
      simp only [after, perform, performed]
      rfl
    rw [here]
    have ticks : ∀ u, s'.ticksOf u = if u = survivor then s.ticksOf survivor
        else if u.process = survivor.process then 0 else s.ticksOf u := by
      intro u
      rw [ticksOf_known alive]
      unfold ticksOf accountOf
      rw [turns.lives, replaced]
      split
      · rfl
      · split
        · rfl
        · rfl
    by_cases mine : survivor.process = p
    · subst p
      have listed : survivor ∈ s.ownedThreads survivor.process := by
        rw [mem_ownedThreads invariant.settled, alive]
        exact ⟨rfl, rfl⟩
      have perm : threads.Perm (s.ownedThreads survivor.process) := by
        apply (List.perm_ext_iff_of_nodup distinct (owned_nodup invariant.settled _)).mpr
        intro u
        rw [mem, mem_ownedThreads invariant.settled]
      have fitting := fits rfl (by rw [alive]; rfl)
      have others := due_others (fun t left => ((mem_ownedThreads invariant.settled _ t).mp
        (List.mem_of_mem_erase left)).2) fitting
      have due : (threads.map (Function.update (s.dueTicks pending) survivor 0)).sum =
          (((s.ownedThreads survivor.process).erase survivor).map fun t =>
            s.ticksOf t + pending t).sum := by
        rw [(perm.map _).sum_eq, sum_erase_update (owned_nodup invariant.settled _) listed, others]
      have live : s'.liveTicks survivor.process = s.ticksOf survivor := by
        rw [liveTicks_only turns.settled survivor, ticks, if_pos rfl]
        intro u same other
        rw [ticks, if_neg other, if_pos same]
      have before : s.liveTicks survivor.process = s.ticksOf survivor +
          (((s.ownedThreads survivor.process).erase survivor).map s.ticksOf).sum :=
        (List.sum_map_erase s.ticksOf listed).symm
      rw [retired, credit_eq (fun t member => ((mem t).mp member).1) (by rw [due]; exact fitting),
        due, live, before, if_pos ⟨rfl, by rw [alive]; rfl⟩, List.sum_map_add]
      omega
    · have same : s'.liveTicks p = s.liveTicks p := by
        apply liveTicks_congr invariant.settled turns.settled
        rintro u rfl
        rw [ticks, if_neg fun same => mine (congrArg XnuThreadId.process same.symm),
          if_neg fun same => mine same.symm]
      have kept : s'.retiredTicks p = s.retiredTicks p := by
        rw [retired]
        apply credit_other
        intro u member same
        exact mine (((mem u).mp member).1.symm.trans same.symm)
      rw [same, kept, if_neg fun both => mine both.1]
      rfl

theorem removeProcess_balance (invariant : s.Invariant) {process : Nat} (other : process ≠ p)
    (order : List XnuThreadId) :
    (s.after (.removeProcess process order)).retiredTicks p +
      (s.after (.removeProcess process order)).liveTicks p = s.retiredTicks p + s.liveTicks p := by
  obtain ⟨⟨s', count⟩, performed, turns, retired⟩ :=
    removeProcess_yields invariant.settled process order
  have here : s.after (.removeProcess process order) = s' := by
    simp only [after, perform, performed]
    rfl
  rw [here]
  have same : s'.liveTicks p = s.liveTicks p := by
    apply liveTicks_congr invariant.settled turns.settled
    rintro u rfl
    unfold ticksOf accountOf
    rw [turns.lives, if_neg (Ne.symm other)]
  rw [same, retired, if_neg (Ne.symm other)]

/-- An operation that neither saturates nor ends the history of a process adds to its
ticks what it credits, and loses none. -/
theorem balance_after (invariant : s.Invariant) (fits : operation.Fits s p)
    (lasting : ¬operation.Ends p) :
    (s.after operation).retiredTicks p + (s.after operation).liveTicks p =
      s.retiredTicks p + s.liveTicks p + operation.credited s p := by
  have quiet : operation.retires = false → operation.credited s p = 0 →
      (s.after operation).retiredTicks p + (s.after operation).liveTicks p =
        s.retiredTicks p + s.liveTicks p + operation.credited s p := by
    intro retires nothing
    have performs := after_performs invariant operation
    have live := liveTicks_congr (p := p) invariant.settled performs.settled
      fun t _ => ticksOf_kept invariant retires t
    rw [performs.retired retires, live, nothing]
    rfl
  cases operation with
  | completeSlice thread consumed completion accounting => exact completeSlice_balance invariant fits
  | removeThread thread pending => exact removeThread_balance invariant fits
  | replaceProcessThreads survivor base pending order =>
    exact replaceProcessThreads_balance invariant fits
  | removeProcess process order => exact removeProcess_balance invariant lasting order
  | _ => exact quiet rfl rfl

end
end XnuScheduler
end ILEmu
