import ILEmu.Foundation.Run
import ILEmu.Mach.PortSets

/-! The links of a member and the ready members of a set say the same as the sets and the
message queues do. A queue from which a message has just been taken is out of step with the
ready members until the taking is over. -/
namespace ILEmu
open Foundation Table
variable {Body : Type}

namespace MachPortSets

def Busy (ports : MachPortSets Body) (member : PortObjectId) : Prop :=
  ports.queues.bucket member ≠ []

/-- Sets and links are one relation, and a set lists those of its members that are busy,
apart from loose ones that may be listed although they are not. -/
structure Agree (loose busy : PortObjectId → Prop)
    (members links preposts : PortObjectId → List PortObjectId) : Prop where
  distinct : ∀ set, (members set).Nodup
  single : ∀ member, (links member).Nodup
  linked : ∀ set member, set ∈ links member ↔ member ∈ members set
  once : ∀ set, (preposts set).Nodup
  ready : ∀ set member, member ∈ preposts set →
    member ∈ members set ∧ (loose member ∨ busy member)
  listed : ∀ set member, member ∈ members set → busy member → member ∈ preposts set

structure Consistent (loose : PortObjectId → Prop) (ports : MachPortSets Body) : Prop where
  agree : Agree loose ports.Busy ports.sets.bucket ports.linkedSets ports.preposts.bucket
  noLinks : ports.linksByMember.NoneEmpty
  noPreposts : ports.preposts.NoneEmpty

section agree
variable {loose busy : PortObjectId → Prop}
  {members links preposts members' links' preposts' : PortObjectId → List PortObjectId}
  {set member : PortObjectId}

theorem nodup_push {α : Type*} {a : α} {items : List α} (fresh : a ∉ items)
    (distinct : items.Nodup) : (items ++ [a]).Nodup := by
  rw [← List.concat_eq_append]
  exact distinct.concat fresh

theorem Agree.insert [DecidablePred busy] (agree : Agree loose busy members links preposts)
    (new : member ∉ members set)
    (members_eq : ∀ s, members' s = if s = set then members set ++ [member] else members s)
    (links_eq : ∀ m, links' m = if m = member then links member ++ [set] else links m)
    (preposts_eq : ∀ s, preposts' s =
      if s = set ∧ busy member then preposts set ++ [member] else preposts s) :
    Agree loose busy members' links' preposts' := by
  obtain ⟨distinct, single, linked, once, ready, listed⟩ := agree
  have apart : set ∉ links member := (linked set member).not.mpr new
  have unlisted : member ∉ preposts set := fun inside => new (ready set member inside).1
  have joined : ∀ s m, m ∈ members' s ↔ m ∈ members s ∨ (s = set ∧ m = member) := by
    intro s m
    rw [members_eq]
    split <;> simp [*]
  have posted : ∀ s m, m ∈ preposts' s ↔
      m ∈ preposts s ∨ (s = set ∧ m = member ∧ busy member) := by
    intro s m
    rw [preposts_eq]
    split <;> grind
  constructor
  · intro s
    rw [members_eq]
    split
    · subst s
      exact nodup_push new (distinct set)
    · exact distinct s
  · intro m
    rw [links_eq]
    split
    · subst m
      exact nodup_push apart (single member)
    · exact single m
  · intro s m
    rw [joined, links_eq, ← linked s m]
    split <;> grind
  · intro s
    rw [preposts_eq]
    split
    · obtain ⟨rfl, _⟩ := ‹s = set ∧ busy member›
      exact nodup_push unlisted (once s)
    · exact once s
  · intro s m inside
    rw [joined]
    rcases (posted s m).mp inside with before | ⟨here, same, queued⟩
    · obtain ⟨stays, cause⟩ := ready s m before
      exact ⟨.inl stays, cause⟩
    · exact ⟨.inr ⟨here, same⟩, .inr (same ▸ queued)⟩
  · intro s m inside queued
    rw [posted]
    rcases (joined s m).mp inside with before | ⟨here, same⟩
    · exact .inl (listed s m before queued)
    · exact .inr ⟨here, same, same ▸ queued⟩

/-- Taking away pairs of a set and a member, wherever they are recorded. -/
theorem Agree.remove (agree : Agree loose busy members links preposts)
    (gone : PortObjectId → PortObjectId → Prop)
    (members_sub : ∀ s, (members' s).Sublist (members s))
    (links_sub : ∀ m, (links' m).Sublist (links m))
    (preposts_sub : ∀ s, (preposts' s).Sublist (preposts s))
    (mem_members : ∀ s m, m ∈ members' s ↔ m ∈ members s ∧ ¬ gone s m)
    (mem_links : ∀ s m, s ∈ links' m ↔ s ∈ links m ∧ ¬ gone s m)
    (mem_preposts : ∀ s m, m ∈ preposts' s ↔ m ∈ preposts s ∧ ¬ gone s m) :
    Agree loose busy members' links' preposts' := by
  obtain ⟨distinct, single, linked, once, ready, listed⟩ := agree
  constructor
  · exact fun s => (distinct s).sublist (members_sub s)
  · exact fun m => (single m).sublist (links_sub m)
  · intro s m
    rw [mem_links, mem_members, linked]
  · exact fun s => (once s).sublist (preposts_sub s)
  · intro s m inside
    obtain ⟨before, stays⟩ := (mem_preposts s m).mp inside
    obtain ⟨member, cause⟩ := ready s m before
    exact ⟨(mem_members s m).mpr ⟨member, stays⟩, cause⟩
  · intro s m inside queued
    obtain ⟨before, stays⟩ := (mem_members s m).mp inside
    exact (mem_preposts s m).mpr ⟨listed s m before queued, stays⟩

end agree

variable {loose : PortObjectId → Prop} {ports : MachPortSets Body}

instance (ports : MachPortSets Body) (member : PortObjectId) : Decidable (ports.Busy member) :=
  decidable_of_iff (¬ (ports.queues.bucket member).isEmpty) (by simp [Busy])

theorem consistent_empty : Consistent loose ({} : MachPortSets Body) where
  agree := {
    distinct := fun _ => List.nodup_nil
    single := fun _ => List.nodup_nil
    linked := fun _ _ => iff_of_false List.not_mem_nil List.not_mem_nil
    once := fun _ => List.nodup_nil
    ready := fun _ _ member => absurd member List.not_mem_nil
    listed := fun _ _ member => absurd member List.not_mem_nil }
  noLinks := fun _ => nofun
  noPreposts := fun _ => nofun

theorem Consistent.mono {looser : PortObjectId → Prop} (consistent : ports.Consistent loose)
    (weaker : ∀ member, loose member → looser member) : ports.Consistent looser :=
  { consistent with
    agree := { consistent.agree with
      ready := fun set member inside =>
        (consistent.agree.ready set member inside).imp_right (Or.imp_left (weaker member)) } }

theorem Consistent.createSet (consistent : ports.Consistent loose) (set : PortObjectId) :
    (ports.createSet set).1.Consistent loose := by
  unfold MachPortSets.createSet
  split
  · exact consistent
  · rename_i missing
    have same : bucket (ports.sets.insert set []) = ports.sets.bucket := by
      funext other
      rw [bucket_insert]
      split
      · subst other
        exact (bucket_of_missing (Option.not_isSome_iff_eq_none.mp missing)).symm
      · rfl
    obtain ⟨agree, noLinks, noPreposts⟩ := consistent
    rw [← same] at agree
    exact ⟨agree, noLinks, noPreposts⟩

theorem Consistent.insertMember (consistent : ports.Consistent loose)
    (set member : PortObjectId) : (ports.insertMember set member).1.Consistent loose := by
  unfold MachPortSets.insertMember
  cases found : ports.sets.lookup set with
  | none => exact consistent
  | some members =>
    dsimp only
    split
    · exact consistent
    · rename_i new
      obtain ⟨agree, noLinks, noPreposts⟩ := consistent
      rw [← bucket_of_lookup found] at new ⊢
      refine ⟨agree.insert new (bucket_insert _ _ · _) (fun m => ?_) (fun s => ?_),
        noLinks.push _, ?_⟩
      · unfold linkedSets
        rw [bucket_push]
        split
        · exact List.map_append
        · rfl
      · dsimp only
        split
        · rename_i queued
          rw [bucket_push]
          exact if_congr (and_iff_left queued).symm rfl rfl
        · rename_i idle
          exact (if_neg fun both => idle both.2).symm
      · dsimp only
        split
        · exact noPreposts.push _
        · exact noPreposts

theorem map_setObject_filter (links : List MachPortSetLink) (set : PortObjectId) :
    (links.filter (·.setObject ≠ set)).map MachPortSetLink.setObject =
      (links.map MachPortSetLink.setObject).filter (· ≠ set) := by
  rw [List.filter_map]
  rfl

theorem Consistent.extractMember (consistent : ports.Consistent loose)
    (set member : PortObjectId) : (ports.extractMember set member).1.Consistent loose := by
  unfold MachPortSets.extractMember
  cases found : ports.sets.lookup set with
  | none => exact consistent
  | some members =>
    dsimp only
    split
    · exact consistent
    · obtain ⟨agree, noLinks, noPreposts⟩ := consistent
      rw [← bucket_of_lookup found]
      have distinct := agree.distinct set
      refine ⟨agree.remove (fun s m => s = set ∧ m = member) ?_ ?_ ?_ ?_ ?_ ?_,
        noLinks.prune _, noPreposts.prune _⟩
      · intro s
        rw [bucket_insert]
        split
        · subst s
          exact List.erase_sublist
        · exact List.Sublist.refl _
      · intro m
        unfold linkedSets
        rw [bucket_prune]
        split
        · subst m
          rw [map_setObject_filter]
          exact List.filter_sublist
        · exact List.Sublist.refl _
      · intro s
        rw [bucket_prune]
        split
        · subst s
          exact List.filter_sublist
        · exact List.Sublist.refl _
      · intro s m
        rw [bucket_insert]
        split
        · subst s
          rw [distinct.mem_erase_iff]
          simp [and_comm]
        · simp [*]
      · intro s m
        unfold linkedSets
        rw [bucket_prune]
        split
        · subst m
          rw [map_setObject_filter, List.mem_filter]
          simp
        · simp [*]
      · intro s m
        rw [bucket_prune]
        split
        · subst s
          rw [List.mem_filter]
          simp
        · simp [*]

theorem Consistent.removeMemberFromAll (consistent : ports.Consistent loose)
    (member : PortObjectId) : (ports.removeMemberFromAll member).1.Consistent loose := by
  unfold MachPortSets.removeMemberFromAll
  cases found : ports.linksByMember.lookup member with
  | none => exact consistent
  | some links =>
    obtain ⟨agree, noLinks, noPreposts⟩ := consistent
    have through : ∀ s, s ∈ links.map MachPortSetLink.setObject ↔
        member ∈ ports.sets.bucket s := by
      intro s
      rw [← agree.linked, linkedSets, bucket_of_lookup found]
    have members_eq : ∀ s, bucket (links.foldl
        (fun sets link => sets.trim link.setObject (· ≠ member)) ports.sets) s =
          if s ∈ links.map MachPortSetLink.setObject
            then (ports.sets.bucket s).filter (· ≠ member) else ports.sets.bucket s :=
      bucket_foldl _ MachPortSetLink.setObject _ (fun table _ s => bucket_trim table _ s _) links
        ports.sets
    have preposts_eq : ∀ s, bucket (links.foldl
        (fun preposts link => preposts.prune link.setObject (· ≠ member)) ports.preposts) s =
          if s ∈ links.map MachPortSetLink.setObject
            then (ports.preposts.bucket s).filter (· ≠ member) else ports.preposts.bucket s :=
      bucket_foldl _ MachPortSetLink.setObject _ (fun table _ s => bucket_prune table _ s _) links
        ports.preposts
    refine ⟨agree.remove (fun _ m => m = member) ?_ ?_ ?_ ?_ ?_ ?_, noLinks.erase,
      noPreposts.foldl (fun _ _ none => none.prune _) links⟩
    · intro s
      dsimp only
      rw [members_eq]
      split
      · exact List.filter_sublist
      · exact List.Sublist.refl _
    · intro m
      unfold linkedSets
      rw [bucket_erase]
      split
      · exact List.nil_sublist _
      · exact List.Sublist.refl _
    · intro s
      dsimp only
      rw [preposts_eq]
      split
      · exact List.filter_sublist
      · exact List.Sublist.refl _
    · intro s m
      dsimp only
      rw [members_eq]
      split
      · simp
      · rename_i apart
        constructor
        · intro inside
          refine ⟨inside, ?_⟩
          rintro rfl
          exact apart ((through s).mpr inside)
        · exact And.left
    · intro s m
      unfold linkedSets
      rw [bucket_erase]
      split <;> simp [*]
    · intro s m
      dsimp only
      rw [preposts_eq]
      split
      · simp
      · rename_i apart
        constructor
        · intro inside
          refine ⟨inside, ?_⟩
          rintro rfl
          exact apart ((through s).mpr (agree.ready s m inside).1)
        · exact And.left

theorem Consistent.eraseSet (consistent : ports.Consistent loose) (set : PortObjectId) :
    (ports.eraseSet set).1.Consistent loose := by
  unfold MachPortSets.eraseSet
  cases found : ports.sets.lookup set with
  | none => exact consistent
  | some members =>
    obtain ⟨agree, noLinks, noPreposts⟩ := consistent
    have links_eq : ∀ m, bucket (members.foldl
        (fun links member => links.prune member (·.setObject ≠ set)) ports.linksByMember) m =
          if m ∈ members.map id then (ports.linksByMember.bucket m).filter (·.setObject ≠ set)
          else ports.linksByMember.bucket m :=
      bucket_foldl _ id _ (fun table member m => bucket_prune table _ m _) members
        ports.linksByMember
    rw [List.map_id, ← bucket_of_lookup found] at links_eq
    rw [← bucket_of_lookup found]
    refine ⟨agree.remove (fun s _ => s = set) ?_ ?_ ?_ ?_ ?_ ?_,
      noLinks.foldl (fun _ _ none => none.prune _) _, noPreposts.erase⟩
    · intro s
      rw [bucket_erase]
      split
      · exact List.nil_sublist _
      · exact List.Sublist.refl _
    · intro m
      unfold linkedSets
      dsimp only
      rw [links_eq]
      split
      · exact List.filter_sublist.map _
      · exact List.Sublist.refl _
    · intro s
      rw [bucket_erase]
      split
      · exact List.nil_sublist _
      · exact List.Sublist.refl _
    · intro s m
      rw [bucket_erase]
      split <;> simp [*]
    · intro s m
      unfold linkedSets
      dsimp only
      rw [links_eq]
      split
      · rw [map_setObject_filter, List.mem_filter]
        simp
      · rename_i apart
        constructor
        · intro inside
          refine ⟨inside, ?_⟩
          rintro rfl
          exact apart ((agree.linked s m).mp inside)
        · exact And.left
    · intro s m
      rw [bucket_erase]
      split <;> simp [*]

theorem Consistent.rotate (consistent : ports.Consistent loose) (set member : PortObjectId) :
    (ports.rotate set member).Consistent loose := by
  unfold MachPortSets.rotate
  cases found : ports.preposts.lookup set with
  | none => exact consistent
  | some ready =>
    dsimp only
    split
    · rename_i chosen
      obtain ⟨agree, noLinks, noPreposts⟩ := consistent
      have stored := bucket_of_lookup found
      have order : ∀ s, (bucket (ports.preposts.insert set (ready.erase member ++ [member]))
          s).Perm (ports.preposts.bucket s) := by
        intro s
        rw [bucket_insert]
        split
        · subst s
          rw [stored]
          exact (List.perm_append_singleton _ _).trans (List.perm_cons_erase chosen.2).symm
        · exact List.Perm.refl _
      refine ⟨{ agree with
        once := fun s => (order s).nodup_iff.mpr (agree.once s)
        ready := fun s m inside => agree.ready s m ((order s).mem_iff.mp inside)
        listed := fun s m inside queued =>
          (order s).mem_iff.mpr (agree.listed s m inside queued) }, noLinks, ?_⟩
      exact noPreposts.insert (by simp)
    · exact consistent

/-- Busy members stay busy, and one more member may have become busy. -/
theorem Agree.enqueue {busy busy' : PortObjectId → Prop}
    {members links preposts preposts' : PortObjectId → List PortObjectId}
    {destination : PortObjectId} (agree : Agree loose busy members links preposts)
    (busier : ∀ m, busy' m ↔ busy m ∨ m = destination)
    (preposts_eq : ∀ s, preposts' s = if s ∈ links destination ∧ destination ∉ preposts s
      then preposts s ++ [destination] else preposts s) :
    Agree loose busy' members links preposts' := by
  have posted : ∀ s m, m ∈ preposts' s ↔
      m ∈ preposts s ∨ (m = destination ∧ s ∈ links destination) := by
    intro s m
    rw [preposts_eq]
    split <;> grind
  refine { agree with once := ?_, ready := ?_, listed := ?_ }
  · intro s
    rw [preposts_eq]
    split
    · exact nodup_push ‹_ ∧ _›.2 (agree.once s)
    · exact agree.once s
  · intro s m inside
    rw [busier]
    rcases (posted s m).mp inside with before | ⟨rfl, joined⟩
    · obtain ⟨member, cause⟩ := agree.ready s m before
      exact ⟨member, cause.imp_right Or.inl⟩
    · exact ⟨(agree.linked s m).mp joined, .inr (.inr rfl)⟩
  · intro s m member queued
    rw [posted]
    rcases (busier m).mp queued with before | rfl
    · exact .inl (agree.listed s m member before)
    · exact .inr ⟨rfl, (agree.linked s m).mpr member⟩

theorem Consistent.enqueue (consistent : ports.Consistent loose) (destination : PortObjectId)
    (message : MachMessage Body) : (ports.enqueue destination message).Consistent loose := by
  obtain ⟨agree, noLinks, noPreposts⟩ := consistent
  have busier : ∀ m, (ports.enqueue destination message).Busy m ↔
      ports.Busy m ∨ m = destination := by
    intro m
    unfold Busy MachPortSets.enqueue
    dsimp only
    rw [bucket_insert]
    split <;> simp [*]
  refine ⟨agree.enqueue busier fun s => ?_, noLinks, ?_⟩
  · unfold MachPortSets.enqueue
    dsimp only
    by_cases idle : ports.queues.bucket destination = []
    · rw [if_pos idle]
      exact bucket_foldl_pushNew _ _ _ _
    · rw [if_neg idle]
      symm
      apply if_neg
      rintro ⟨joined, unlisted⟩
      exact unlisted (agree.listed s destination ((agree.linked s destination).mp joined) idle)
  · unfold MachPortSets.enqueue
    dsimp only
    split
    · exact noPreposts.foldl (fun _ _ none => none.pushNew _) _
    · exact noPreposts

theorem Consistent.settle (consistent : ports.Consistent loose) (destination : PortObjectId) :
    (ports.settle destination).Consistent fun member => loose member ∧ member ≠ destination := by
  obtain ⟨agree, noLinks, noPreposts⟩ := consistent
  unfold MachPortSets.settle
  by_cases queued : ports.queues.bucket destination ≠ []
  · simp only [if_pos queued, List.foldl_fixed]
    refine ⟨{ agree with ready := ?_ }, noLinks, noPreposts⟩
    intro s m inside
    obtain ⟨member, cause⟩ := agree.ready s m inside
    refine ⟨member, ?_⟩
    by_cases here : m = destination
    · exact .inr (here ▸ queued)
    · exact cause.imp_left fun spared => ⟨spared, here⟩
  · simp only [if_neg queued]
    have preposts_eq : ∀ s, bucket ((ports.linkedSets destination).foldl
        (fun preposts set => preposts.prune set (· ≠ destination)) ports.preposts) s =
          if s ∈ (ports.linkedSets destination).map id
            then (ports.preposts.bucket s).filter (· ≠ destination) else ports.preposts.bucket s :=
      bucket_foldl _ id _ (fun table _ s => bucket_prune table _ s _) _ ports.preposts
    rw [List.map_id] at preposts_eq
    have posted : ∀ s m, m ∈ bucket ((ports.linkedSets destination).foldl
        (fun preposts set => preposts.prune set (· ≠ destination)) ports.preposts) s ↔
          m ∈ ports.preposts.bucket s ∧ m ≠ destination := by
      intro s m
      rw [preposts_eq]
      split
      · simp
      · rename_i apart
        refine ⟨fun inside => ⟨inside, ?_⟩, And.left⟩
        rintro rfl
        exact apart ((agree.linked s m).mpr (agree.ready s m inside).1)
    refine ⟨{ agree with once := ?_, ready := ?_, listed := ?_ }, noLinks,
      noPreposts.foldl (fun _ _ none => none.prune _) _⟩
    · intro s
      dsimp only
      rw [preposts_eq]
      split
      · exact (agree.once s).filter _
      · exact agree.once s
    · intro s m inside
      obtain ⟨before, other⟩ := (posted s m).mp inside
      obtain ⟨member, cause⟩ := agree.ready s m before
      exact ⟨member, cause.imp_left fun spared => ⟨spared, other⟩⟩
    · intro s m member busy
      apply (posted s m).mpr
      refine ⟨agree.listed s m member busy, ?_⟩
      rintro rfl
      exact queued busy

theorem Consistent.touch (consistent : ports.Consistent loose) (destination : PortObjectId) :
    (ports.touch destination).Consistent loose := by
  have same : (ports.touch destination).Busy = ports.Busy := by
    funext m
    unfold Busy MachPortSets.touch
    rw [bucket_insert]
    split
    · subst m
      rfl
    · rfl
  obtain ⟨agree, noLinks, noPreposts⟩ := consistent
  rw [← same] at agree
  exact ⟨agree, noLinks, noPreposts⟩

/-- A message leaves a queue before the ready members are told. -/
theorem Consistent.loosen (consistent : ports.Consistent loose) {destination : PortObjectId}
    {first : MachMessage Body} {rest : List (MachMessage Body)}
    (queued : ports.queues.bucket destination = first :: rest) :
    Consistent (fun member => loose member ∨ member = destination)
      { ports with queues := ports.queues.insert destination rest } := by
  obtain ⟨agree, noLinks, noPreposts⟩ := consistent
  have fewer : ∀ m, Busy { ports with queues := ports.queues.insert destination rest } m →
      ports.Busy m := by
    intro m busy
    unfold Busy at busy ⊢
    rw [bucket_insert] at busy
    split at busy
    · subst m
      rw [queued]
      exact List.cons_ne_nil _ _
    · exact busy
  have others : ∀ m, m ≠ destination → ports.Busy m →
      Busy { ports with queues := ports.queues.insert destination rest } m := by
    intro m other busy
    unfold Busy
    rw [bucket_insert, if_neg other]
    exact busy
  refine ⟨{ agree with ready := ?_, listed := ?_ }, noLinks, noPreposts⟩
  · intro s m inside
    obtain ⟨member, cause⟩ := agree.ready s m inside
    refine ⟨member, ?_⟩
    by_cases here : m = destination
    · exact .inl (.inr here)
    · exact cause.imp Or.inl (others m here)
  · exact fun s m member busy => agree.listed s m member (fewer m busy)

mutual

theorem Consistent.post {loose : PortObjectId → Prop} {ports : MachPortSets Body}
    (consistent : ports.Consistent loose) :
    ∀ message : MachPost Body, (ports.post message).Consistent loose
  | .queued destination message => consistent.enqueue destination message
  | .handedOff destination message notifications => by
    unfold MachPortSets.post
    split
    · exact consistent.enqueue destination message
    · have notified := consistent.posts notifications
      apply Consistent.touch
      exact (notified.settle destination).mono fun _ => And.left

theorem Consistent.posts {loose : PortObjectId → Prop} {ports : MachPortSets Body}
    (consistent : ports.Consistent loose) :
    ∀ messages : List (MachPost Body), (ports.posts messages).Consistent loose
  | [] => consistent
  | first :: rest => (consistent.post first).posts rest

end

theorem Consistent.dequeue (consistent : ports.Consistent loose) (destination : PortObjectId)
    (notifications : List (MachPost Body)) :
    (ports.dequeue destination notifications).Consistent loose := by
  unfold MachPortSets.dequeue
  cases queued : ports.queues.bucket destination with
  | nil => exact consistent
  | cons first rest =>
    have taken := (consistent.loosen queued).posts notifications
    apply (taken.settle destination).mono
    rintro member ⟨spared | here, other⟩
    · exact spared
    · exact absurd here other

theorem Consistent.after (consistent : ports.Consistent loose)
    (operation : PortSetOperation Body) : (ports.after operation).Consistent loose := by
  cases operation with
  | create set => exact consistent.createSet set
  | insert set member => exact consistent.insertMember set member
  | extract set member => exact consistent.extractMember set member
  | removeFromAll member => exact consistent.removeMemberFromAll member
  | erase set => exact consistent.eraseSet set
  | enqueue message => exact consistent.post message
  | dequeue destination notifications => exact consistent.dequeue destination notifications
  | rotate set member => exact consistent.rotate set member

/-- In every state of every run: a port is in a set exactly if it has one link to the set, and
it is listed once among the ready members of the set exactly if it is in the set and its queue
is not empty; no empty list of links or of ready members is kept. -/
theorem run_mirrors (operations : List (PortSetOperation Body)) :
    (∀ set member, member ∈ (run after {} operations).sets.bucket set ↔
      ((run after {} operations).linksByMember.bucket member).countP (·.setObject = set) = 1) ∧
    (∀ set member, ((run after {} operations).preposts.bucket set).count member =
      if member ∈ (run after {} operations).sets.bucket set ∧
        (run after {} operations).queues.bucket member ≠ [] then 1 else 0) ∧
    (run after {} operations).linksByMember.NoneEmpty ∧
    (run after {} operations).preposts.NoneEmpty := by
  have preserves : ∀ (ports : MachPortSets Body) operation,
      ports.Consistent (fun _ => False) → (ports.after operation).Consistent fun _ => False :=
    fun _ operation consistent => consistent.after operation
  obtain ⟨agree, noLinks, noPreposts⟩ := run_invariant preserves consistent_empty operations
  refine ⟨?_, ?_, noLinks, noPreposts⟩
  · intro set member
    have counted : List.count set ((run after {} operations).linkedSets member) =
        if set ∈ (run after {} operations).linkedSets member then 1 else 0 :=
      (agree.single member).count
    have links : List.count set ((run after {} operations).linkedSets member) =
        ((run after {} operations).linksByMember.bucket member).countP (·.setObject = set) := by
      unfold linkedSets
      rw [List.count_eq_countP, List.countP_map]
      exact List.countP_congr fun link _ => by simp
    rw [← agree.linked, ← links, counted]
    split <;> simp [*]
  · intro set member
    rw [(agree.once set).count]
    apply if_congr _ rfl rfl
    constructor
    · intro inside
      obtain ⟨joined, cause⟩ := agree.ready set member inside
      exact ⟨joined, cause.resolve_left id⟩
    · rintro ⟨joined, busy⟩
      exact agree.listed set member joined busy

end MachPortSets
end ILEmu
