import ILEmu.Scheduler.Registration

/-! The completion of a slice: the charge, the time it took, and what becomes of
its thread. -/
namespace ILEmu
open Foundation Xnu.Scheduler
namespace XnuScheduler

/-- The ticks that a thread retires with when the completion of its slice ends it. -/
def finalTicks (s : XnuScheduler) (t : XnuThreadId) (consumed : Nat) : Nat :=
  match s.lifeOf t with
  | some l => if l.executionPending then saturatingAdd l.userTicks consumed else 0
  | none => 0

/-- The completion of a slice takes its thread's life one step on, and no other's. -/
structure Completes (t : XnuThreadId) (consumed : Nat) (completion : XnuSliceCompletion)
    (s s' : XnuScheduler) : Prop where
  settled : s'.Settled
  lives : ∀ u, s'.lifeOf u =
    if u = t then (s.lifeOf u).bind (Life.complete consumed completion) else s.lifeOf u
  elsewhere : ∀ u, u ≠ t → s.FuelledAt u → s'.FuelledAt u
  fuelled : s.FuelledAt t →
    (∀ r, s.threads.lookup t = some r → r.executionPending = true → completion ≠ .terminate →
      Refills completion r ∨ r.queued = false ∨ consumed < r.info.remainingQuantum) →
    s'.FuelledAt t
  processors : s'.processorRunQueues.length = s.processorRunQueues.length
  retired : ∀ p, s'.retiredTicks p = if p = t.process ∧ completion = .terminate then
    saturatingAdd (s.retiredTicks p) (s.finalTicks t consumed) else s.retiredTicks p

section
variable {s s' : XnuScheduler} {r r' : ThreadRecord} {t : XnuThreadId} {counted : Bool}

/-- No slice of the thread is in flight, so there is nothing to complete. -/
theorem Settled.nothing_pending (settled : s.Settled)
    (idle : ∀ r, s.threads.lookup t = some r → r.executionPending = false) (consumed : Nat)
    (completion : XnuSliceCompletion) : Completes t consumed completion s s := by
  refine ⟨settled, fun u => ?_, fun _ _ fuelled => fuelled, fun fuelled _ => fuelled, rfl, ?_⟩
  · split
    · rename_i same
      subst u
      unfold lifeOf
      cases found : s.threads.lookup t with
      | none => rfl
      | some r =>
        have idle : r.life.executionPending = false := idle r found
        simp [Life.complete, idle]
    · rfl
  · intro p
    have nothing : s.finalTicks t consumed = 0 := by
      unfold finalTicks lifeOf
      cases found : s.threads.lookup t with
      | none => rfl
      | some r =>
        have idle : r.life.executionPending = false := idle r found
        simp [idle]
    rw [nothing, saturatingAdd_zero, ite_self]

theorem Holding.chargeSlice (holding : Holding s r counted) (consumed : Nat) :
    Holding s (chargeSlice r consumed) counted :=
  holding.touch rfl { holding.ranged with } { holding.placed with }

theorem chargeSlice_fuelled (ticket : r.hostAwait = false) {consumed : Nat}
    (left : r.queued = false ∨ consumed < r.info.remainingQuantum) :
    (chargeSlice r consumed).Fuelled := by
  rintro (queued | awaiting)
  · rcases left with idle | less
    · exact absurd (queued.symm.trans idle) nofun
    · change 0 < r.info.remainingQuantum - min r.info.remainingQuantum consumed
      omega
  · exact absurd (awaiting.symm.trans ticket) nofun

/-- After the charge of a slice in flight and the time that passes for it. -/
structure Charged (t : XnuThreadId) (r : ThreadRecord) (s s' : XnuScheduler) : Prop where
  settled : s'.Settled
  stable : Stable s s'
  here : ∃ r', s'.threads.lookup t = some r' ∧ Drift r r'
  elsewhere : ∀ u, u ≠ t → Option.Rel Drift (s.threads.lookup u) (s'.threads.lookup u)

theorem charge_yields {α : Type} {rest : XnuScheduler → Checked α} {post : α → Prop}
    (settled : s.Settled) (found : s.threads.lookup t = some r) (consumed : Nat)
    (accounting : XnuTimeAccounting)
    (continues : ∀ s', Charged t (chargeSlice r consumed) s s' → Yields (rest s') post) :
    Yields (do
      let (s, record) ← s.meterSlice (chargeSlice r consumed)
      let s ← (s.store record).accountTime consumed accounting
      rest s) post := by
  have id := settled.balanced.ids t r found
  have scheduled := settled.scheduled t r found
  refine (meterSlice_yields ((settled.hold found).chargeSlice consumed)
    (scheduled.of_band rfl)).bind ?_
  rintro ⟨s₁, r₁⟩ ⟨holding₁, frame₁, scheduled₁, drift₁⟩
  have waiting : isWaiting r₁ = isWaiting (chargeSlice r consumed) := Drift.waiting drift₁
  have same : isWaiting (chargeSlice r consumed) = isWaiting r := rfl
  rw [← same, ← waiting] at holding₁
  have id₁ : r₁.id = t := drift₁.ident.trans id
  refine (accountTime_yields (holding₁.settle scheduled₁) consumed accounting).bind ?_
  rintro s' passes
  have stored : ∀ u, (s₁.store r₁).threads.lookup u =
      if u = t then some r₁ else s.threads.lookup u := by
    intro u
    rw [lookup_store, id₁, frame₁.threads]
  have stable : Stable s (s₁.store r₁) := { frame₁.stable with }
  refine continues s' ⟨passes.settled, stable.trans passes.stable, ?_, ?_⟩
  · have here := passes.drifts t
    rw [stored, if_pos rfl] at here
    generalize s'.threads.lookup t = x at here ⊢
    cases here with
    | some drift => exact ⟨_, rfl, drift₁.trans drift⟩
  · intro u other
    have here := passes.drifts u
    rw [stored, if_neg other] at here
    exact here

theorem lifeOf_rel (drifted : Option.Rel Drift (s.threads.lookup t) (s'.threads.lookup t)) :
    s'.lifeOf t = s.lifeOf t := by
  unfold lifeOf
  generalize s.threads.lookup t = x at drifted ⊢
  generalize s'.threads.lookup t = y at drifted ⊢
  cases drifted with
  | none => rfl
  | some drift => exact congrArg some drift.life

theorem fuelledAt_rel (drifted : Option.Rel Drift (s.threads.lookup t) (s'.threads.lookup t))
    (fuelled : s.FuelledAt t) : s'.FuelledAt t := by
  intro r' found'
  rw [found'] at drifted
  generalize found : s.threads.lookup t = x at drifted
  cases drifted with
  | some drift => exact drift.moves.fuelled (fuelled _ found)

theorem completeSlice_yields (invariant : s.Invariant) (t : XnuThreadId) (consumed : Nat)
    (completion : XnuSliceCompletion) (accounting : XnuTimeAccounting) :
    Yields (s.completeSlice t consumed completion accounting) fun (s', _) =>
      Completes t consumed completion s s' := by
  have settled := invariant.settled
  unfold completeSlice
  cases found : s.threads.lookup t with
  | none =>
    refine Yields.ok (settled.nothing_pending (fun r known => ?_) consumed completion)
    rw [found] at known
    contradiction
  | some r =>
    have sound : r.life.Sound := invariant.sound t r found
    have id := settled.balanced.ids t r found
    refine Yields.ite (fun idle => Yields.ok ?_) (fun busy => ?_)
    · refine settled.nothing_pending (fun r' known => ?_) consumed completion
      rw [found] at known
      obtain rfl := Option.some.inj known
      exact Bool.eq_false_iff.mpr idle
    · have pending : r.life.executionPending = true := Classical.not_not.mp busy
      have ticket : r.hostAwait = false := sound.no_ticket pending
      have known : s.lifeOf t = some r.life := by rw [lifeOf, found]; rfl
      refine charge_yields settled found consumed accounting fun s₁ charged => ?_
      obtain ⟨r₁, found₁, drift₁⟩ := charged.here
      have settled₁ := charged.settled
      have id₁ := settled₁.balanced.ids t r₁ found₁
      have life₁ : r₁.life = r.life.charge consumed := drift₁.life
      have known₁ : s₁.lifeOf t = some (r.life.charge consumed) := by
        rw [lifeOf, found₁, ← life₁]
        rfl
      refine Yields.ite (fun ends => ?_) (fun goesOn => ?_)
      · refine (removeThread_yields settled₁ t fun _ => 0).mono ?_
        rintro ⟨s', _⟩ ⟨retires, -⟩
        refine ⟨retires.turns.settled, fun u => ?_, fun u other fuelled => ?_, fun _ _ r' found' => ?_,
          retires.turns.processors.trans charged.stable.processors, fun p => ?_⟩
        · rw [retires.turns.lives]
          split
          · rename_i same
            rw [same, known]
            simp [Life.complete, pending, ends]
          · exact lifeOf_rel (charged.elsewhere u ‹_›)
        · exact retires.turns.fuelled u (fuelledAt_rel (charged.elsewhere u other) fuelled)
        · have gone : s'.lifeOf t = none := by rw [retires.turns.lives, if_pos rfl]
          rw [lifeOf, found'] at gone
          contradiction
        · rw [retires.retired, charged.stable.retired]
          have due : s₁.dueTicks (fun _ => 0) t = s.finalTicks t consumed := by
            rw [dueTicks, known₁, finalTicks, known]
            simp only [Option.map_some, Option.getD_some, saturatingAdd_zero, pending, if_true]
            rfl
          rw [due]
          simp only [ends, and_true]
      · simp only [found₁]
        have returned : Returned r₁ := by
          refine ⟨(congrArg Life.hostAwait life₁).trans ticket, ?_, ?_⟩
          · rw [show r₁.queued = r.queued from congrArg Life.queued life₁,
              show r₁.info.state = r.info.state from congrArg Life.state life₁]
            exact sound.queued
          · rw [show r₁.info.state = r.info.state from congrArg Life.state life₁]
            intro waits
            have := sound.ticket waits
            rw [sound.no_ticket pending] at this
            contradiction
        refine (settleSlice_yields (settled₁.hold found₁) (settled₁.scheduled t r₁ found₁) returned
          completion).bind ?_
        rintro ⟨s₂, r₂⟩ ⟨holding₂, frame₂, scheduled₂, moves₂, filled₂⟩
        have id₂ : r₂.id = t := moves₂.ident.trans id₁
        have stored : ∀ u, (s₂.store r₂).threads.lookup u =
            if u = t then some r₂ else s₁.threads.lookup u := by
          intro u
          rw [lookup_store, id₂, frame₂.threads]
        have elsewhere : ∀ u, u ≠ t →
            Option.Rel Drift (s.threads.lookup u) ((s₂.store r₂).threads.lookup u) := by
          intro u other
          rw [stored, if_neg other]
          exact charged.elsewhere u other
        refine Yields.ok ⟨holding₂.settle scheduled₂, fun u => ?_, fun u other fuelled => ?_,
          fun fuelled left r' found' => ?_, frame₂.processors.trans charged.stable.processors,
          fun p => ?_⟩
        · split
          · rename_i same
            subst u
            rw [lifeOf, stored, if_pos rfl, known, Option.map_some, moves₂.life, life₁]
            simp [Life.complete, pending, goesOn]
          · exact lifeOf_rel (elsewhere u ‹_›)
        · exact fuelledAt_rel (elsewhere u other) fuelled
        · rw [stored, if_pos rfl] at found'
          obtain rfl := Option.some.inj found'
          rcases left r found pending goesOn with refills | left
          · refine filled₂ ?_
            rw [Refills, show r₁.info.state = r.info.state from congrArg Life.state life₁,
              show r₁.wakePending = r.wakePending from congrArg Life.wakePending life₁]
            exact refills
          · exact moves₂.fuelled (drift₁.moves.fuelled (chargeSlice_fuelled ticket left))
        · rw [if_neg fun ends => goesOn ends.2]
          exact (frame₂.stable.retired p).trans (charged.stable.retired p)

end
end XnuScheduler
end ILEmu
