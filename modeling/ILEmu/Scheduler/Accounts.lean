import ILEmu.Scheduler.Steps
import Mathlib.Algebra.BigOperators.Group.Finset.Basic

/-! Accounts: what the lives of a process's threads and its history say of the ticks
they have used, and how every operation changes it. -/
namespace ILEmu
open Foundation Xnu.Scheduler

/-- What an operation makes of the account of a thread. -/
def Operation.accountStep (s : XnuScheduler) (operation : Operation) (t : XnuThreadId)
    (known : Option Account) : Option Account :=
  match operation with
  | .registerThread thread _ _ => if t = thread then some (known.getD ⟨false, 0⟩) else known
  | .removeThread thread _ => if t = thread then none else known
  | .replaceProcessThreads survivor _ _ _ =>
    match s.lifeOf survivor with
    | none => known
    | some l =>
      if t = survivor then some ⟨false, l.userTicks⟩
      else if t.process = survivor.process then none
      else known
  | .removeProcess process _ => if t.process = process then none else known
  | .chooseNext processor preferred =>
    if s.chosen processor preferred = some t then known.map fun a => ⟨true, a.ticks⟩ else known
  | .completeSlice thread consumed completion _ =>
    if t = thread then
      known.bind fun a =>
        if ¬a.inFlight then some a
        else if completion = .terminate then none
        else some ⟨false, saturatingAdd a.ticks consumed⟩
    else known
  | _ => known

namespace XnuScheduler

def accountOf (s : XnuScheduler) (t : XnuThreadId) : Option Account :=
  (s.lifeOf t).map Life.account

def ticksOf (s : XnuScheduler) (t : XnuThreadId) : Nat :=
  ((s.accountOf t).map Account.ticks).getD 0

/-- The ticks that the living threads of a process have used. -/
def liveTicks (s : XnuScheduler) (process : Nat) : Nat :=
  ((s.ownedThreads process).map s.ticksOf).sum

section
variable {s s' : XnuScheduler} {t : XnuThreadId} {operation : Operation}

theorem map_solely_account {f : Life → Life} (same : ∀ l, (f l).account = l.account)
    (u : XnuThreadId) (known : Option Life) :
    (known.map (solely u f t)).map Life.account = known.map Life.account := by
  cases known with
  | none => rfl
  | some l =>
    apply congrArg some
    by_cases here : t = u
    · rw [here, solely_self]
      exact same l
    · rw [solely_of_ne here]
      rfl

theorem complete_account (consumed : Nat) (completion : XnuSliceCompletion) (l : Life) :
    (l.complete consumed completion).map Life.account =
      if ¬l.account.inFlight then some l.account
      else if completion = .terminate then none
      else some ⟨false, saturatingAdd l.account.ticks consumed⟩ := by
  unfold Life.complete
  by_cases flying : l.executionPending = true
  · have flying' : l.account.inFlight = true := flying
    rw [if_neg (Classical.not_not.mpr flying), if_neg (Classical.not_not.mpr flying')]
    split
    · rfl
    · exact congrArg some (Life.settle_account completion (l.charge consumed))
  · have flying' : ¬l.account.inFlight = true := flying
    rw [if_pos flying, if_pos flying']
    rfl

/-- The accounts are a machine of their own. -/
theorem accountOf_after (invariant : s.Invariant) (operation : Operation) (t : XnuThreadId) :
    (s.after operation).accountOf t = operation.accountStep s t (s.accountOf t) := by
  unfold accountOf
  rw [(after_performs invariant operation).lives]
  unfold Operation.step Operation.accountStep
  cases operation with
  | registerThread thread base runnable =>
    dsimp only
    split
    · cases s.lifeOf t with
      | none => rfl
      | some l => rfl
    · rfl
  | removeThread thread pending =>
    dsimp only
    split
    · rfl
    · rfl
  | replaceProcessThreads survivor base pending order =>
    dsimp only
    cases s.lifeOf survivor with
    | none => rfl
    | some l =>
      dsimp only [replaced]
      split
      · rfl
      · split
        · rfl
        · rfl
  | removeProcess process order =>
    dsimp only
    split
    · rfl
    · rfl
  | makeRunnable thread => exact map_solely_account Life.makeRunnable_account thread _
  | suspendProcess process order =>
    dsimp only
    split
    · rw [Option.map_map]
      exact congrArg (fun f => Option.map f _) (funext (Life.suspend_account .process))
    · rw [Option.map_id_fun, id]
  | resumeProcess process order =>
    dsimp only
    split
    · rw [Option.map_map]
      exact congrArg (fun f => Option.map f _) (funext (Life.resume_account .process))
    · rw [Option.map_id_fun, id]
  | wakeThread thread => exact map_solely_account Life.wake_account thread _
  | block thread => exact map_solely_account Life.block_account thread _
  | suspendThread thread reason => exact map_solely_account (Life.suspend_account reason) thread _
  | resumeThread thread reason => exact map_solely_account (Life.resume_account reason) thread _
  | chooseNext processor preferred =>
    dsimp only
    cases s.chosen processor preferred with
    | none => rfl
    | some thread =>
      dsimp only
      by_cases here : t = thread
      · subst thread
        rw [solely_self, if_pos rfl]
        cases s.lifeOf t with
        | none => rfl
        | some l => rfl
      · rw [solely_of_ne here, if_neg fun same => here (Option.some.inj same).symm]
        rw [Option.map_id_fun, id]
  | completeSlice thread consumed completion accounting =>
    dsimp only
    split
    · cases s.lifeOf t with
      | none => rfl
      | some l => exact complete_account consumed completion l
    · rfl
  | _ => rfl

theorem owned_nodup (settled : s.Settled) (p : Nat) : (s.ownedThreads p).Nodup := by
  unfold ownedThreads
  cases found : s.processThreads.lookup p with
  | none => exact List.nodup_nil
  | some owned => exact (settled.balanced.owners.owned p owned found).2.1

theorem mem_ownedThreads (settled : s.Settled) (p : Nat) (t : XnuThreadId) :
    t ∈ s.ownedThreads p ↔ t.process = p ∧ (s.lifeOf t).isSome := by
  unfold ownedThreads
  cases found : s.processThreads.lookup p with
  | none =>
    constructor
    · exact fun member => absurd member List.not_mem_nil
    · rintro ⟨mine, known⟩
      rw [lifeOf_unowned settled found t mine] at known
      contradiction
  | some owned => exact mem_owned settled found t

theorem ticksOf_unknown (unknown : s.lifeOf t = none) : s.ticksOf t = 0 := by
  unfold ticksOf accountOf
  rw [unknown]
  rfl

theorem ticksOf_known {l : Life} (known : s.lifeOf t = some l) : s.ticksOf t = l.userTicks := by
  unfold ticksOf accountOf
  rw [known]
  rfl

/-- The live ticks of a process are a sum over any threads that include its own. -/
theorem liveTicks_eq_sum (settled : s.Settled) {p : Nat} {threads : Finset XnuThreadId}
    (covers : ∀ t, t ∈ s.ownedThreads p → t ∈ threads) :
    s.liveTicks p = ∑ t ∈ threads, if t.process = p then s.ticksOf t else 0 := by
  have mine : ∀ t ∈ (s.ownedThreads p).toFinset,
      s.ticksOf t = if t.process = p then s.ticksOf t else 0 := by
    intro t member
    rw [List.mem_toFinset, mem_ownedThreads settled] at member
    rw [if_pos member.1]
  calc s.liveTicks p
      = ∑ t ∈ (s.ownedThreads p).toFinset, s.ticksOf t :=
        (List.sum_toFinset s.ticksOf (owned_nodup settled p)).symm
    _ = ∑ t ∈ (s.ownedThreads p).toFinset, if t.process = p then s.ticksOf t else 0 :=
        Finset.sum_congr rfl mine
    _ = ∑ t ∈ threads, if t.process = p then s.ticksOf t else 0 := by
      apply Finset.sum_subset
      · intro t member
        exact covers t (List.mem_toFinset.mp member)
      · intro t _ unlisted
        rw [List.mem_toFinset, mem_ownedThreads settled] at unlisted
        split
        · rename_i mine
          apply ticksOf_unknown
          by_contra known
          exact unlisted ⟨mine, Option.isSome_iff_ne_none.mpr known⟩
        · rfl

/-- The threads of a process in either of two states. -/
def either (s s' : XnuScheduler) (p : Nat) : Finset XnuThreadId :=
  (s.ownedThreads p).toFinset ∪ (s'.ownedThreads p).toFinset

theorem liveTicks_either (settled : s.Settled) (settled' : s'.Settled) (p : Nat) :
    (s.liveTicks p = ∑ t ∈ either s s' p, if t.process = p then s.ticksOf t else 0) ∧
      s'.liveTicks p = ∑ t ∈ either s s' p, if t.process = p then s'.ticksOf t else 0 := by
  constructor
  · apply liveTicks_eq_sum settled
    intro t member
    exact Finset.mem_union_left _ (List.mem_toFinset.mpr member)
  · apply liveTicks_eq_sum settled'
    intro t member
    exact Finset.mem_union_right _ (List.mem_toFinset.mpr member)

theorem liveTicks_congr (settled : s.Settled) (settled' : s'.Settled) {p : Nat}
    (same : ∀ t, t.process = p → s'.ticksOf t = s.ticksOf t) : s'.liveTicks p = s.liveTicks p := by
  obtain ⟨before, after⟩ := liveTicks_either settled settled' p
  rw [before, after]
  apply Finset.sum_congr rfl
  intro t _
  split
  · exact same t ‹_›
  · rfl

/-- When one thread's ticks change, the live ticks of its process change as much. -/
theorem liveTicks_change (settled : s.Settled) (settled' : s'.Settled) (t : XnuThreadId)
    (same : ∀ u, u.process = t.process → u ≠ t → s'.ticksOf u = s.ticksOf u) :
    s'.liveTicks t.process + s.ticksOf t = s.liveTicks t.process + s'.ticksOf t := by
  obtain ⟨before, after⟩ := liveTicks_either settled settled' t.process
  by_cases member : t ∈ either s s' t.process
  · rw [before, after, ← Finset.add_sum_erase _ _ member, ← Finset.add_sum_erase _ _ member,
      if_pos rfl, if_pos rfl]
    have rest : ∀ u ∈ (either s s' t.process).erase t,
        (if u.process = t.process then s'.ticksOf u else 0) =
          if u.process = t.process then s.ticksOf u else 0 := by
      intro u listed
      split
      · exact same u ‹_› (Finset.ne_of_mem_erase listed)
      · rfl
    rw [Finset.sum_congr rfl rest]
    omega
  · have absent : ∀ {s₁ : XnuScheduler}, s₁.Settled → t ∉ s₁.ownedThreads t.process →
        s₁.ticksOf t = 0 := by
      intro s₁ settled₁ unlisted
      apply ticksOf_unknown
      by_contra known
      apply unlisted
      exact (mem_ownedThreads settled₁ _ t).mpr ⟨rfl, Option.isSome_iff_ne_none.mpr known⟩
    have unlisted : t ∉ s.ownedThreads t.process ∧ t ∉ s'.ownedThreads t.process := by
      constructor
      · exact fun here => member (Finset.mem_union_left _ (List.mem_toFinset.mpr here))
      · exact fun here => member (Finset.mem_union_right _ (List.mem_toFinset.mpr here))
    rw [absent settled unlisted.1, absent settled' unlisted.2]
    apply congrArg (· + 0)
    apply liveTicks_congr settled settled'
    intro u mine
    by_cases same' : u = t
    · rw [same', absent settled unlisted.1, absent settled' unlisted.2]
    · exact same u mine same'

/-- When one thread alone is left, the live ticks of its process are its own. -/
theorem liveTicks_only (settled : s.Settled) (t : XnuThreadId)
    (alone : ∀ u, u.process = t.process → u ≠ t → s.ticksOf u = 0) :
    s.liveTicks t.process = s.ticksOf t := by
  have covers : ∀ u, u ∈ s.ownedThreads t.process →
      u ∈ insert t (s.ownedThreads t.process).toFinset :=
    fun u member => Finset.mem_insert_of_mem (List.mem_toFinset.mpr member)
  rw [liveTicks_eq_sum settled covers, Finset.sum_eq_single t]
  · exact if_pos rfl
  · intro u _ other
    split
    · exact alone u ‹_› other
    · rfl
  · exact fun absent => absurd (Finset.mem_insert_self t _) absent

end
end XnuScheduler
end ILEmu
