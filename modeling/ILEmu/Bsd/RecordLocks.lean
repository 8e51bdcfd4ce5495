import ILEmu.Foundation.OpenRanges
import ILEmu.Foundation.Run
import Mathlib.Logic.Function.Basic

/-! The registry of byte-range locks: what each request and each unlock does to the bytes of
every owner, over every history. -/
namespace ILEmu.Bsd.RecordLocks
open Foundation

inductive AdvisoryLockKind where
  | shared | exclusive
  deriving DecidableEq, Repr

/-- Process locks and open-description locks occupy distinct ownership domains. -/
inductive RecordLockOwner where
  | process (pid : Nat)
  | openDescription (identifier : Nat)
  deriving DecidableEq, Repr

structure RecordLockRange where
  kind : AdvisoryLockKind
  range : OpenRange
  deriving DecidableEq

structure OwnedRecordLock extends RecordLockRange where
  owner : RecordLockOwner
  deriving DecidableEq

structure RecordLockConflict extends RecordLockRange where
  owner : RecordLockOwner
  deriving DecidableEq

abbrev FileId := Nat

/-- The locks of every file. A file without an entry has none. -/
abbrev Registry := FileId → List OwnedRecordLock

def locksConflict (lhs rhs : AdvisoryLockKind) : Bool := lhs = .exclusive || rhs = .exclusive

/-- The lock is another owner's, and in the way of the request. -/
def opposes (owner : RecordLockOwner) (request : RecordLockRange) (candidate : OwnedRecordLock) :
    Bool :=
  candidate.owner ≠ owner && candidate.range.overlaps request.range &&
    locksConflict candidate.kind request.kind

def recordConflict (registry : Registry) (file : FileId) (owner : RecordLockOwner)
    (request : RecordLockRange) : Option RecordLockConflict :=
  ((registry file).find? (opposes owner request)).map fun candidate =>
    { candidate with }

/-- What is left of a lock when its owner's bytes of a range are taken out. -/
def keep (owner : RecordLockOwner) (range : OpenRange) (candidate : OwnedRecordLock) :
    List OwnedRecordLock :=
  if candidate.owner ≠ owner || !candidate.range.overlaps range then [candidate]
  else (candidate.range.leftovers range).map fun part => { candidate with range := part }

def carve (owner : RecordLockOwner) (range : OpenRange) (locks : List OwnedRecordLock) :
    List OwnedRecordLock :=
  locks.flatMap (keep owner range)

def trySetRecordLock (registry : Registry) (file : FileId) (owner : RecordLockOwner)
    (request : RecordLockRange) : Registry × Bool :=
  if (registry file).any (opposes owner request) then (registry, false)
  else
    (Function.update registry file
      (carve owner request.range (registry file) ++ [{ request with owner }]), true)

def unlockRecordLock (registry : Registry) (file : FileId) (owner : RecordLockOwner)
    (range : OpenRange) : Registry :=
  Function.update registry file (carve owner range (registry file))

def releaseProcessRecordLocks (registry : Registry) (pid : Nat) : Registry :=
  fun file => (registry file).filter fun candidate => candidate.owner ≠ .process pid

inductive Operation where
  | set (file : FileId) (owner : RecordLockOwner) (request : RecordLockRange)
  | unlock (file : FileId) (owner : RecordLockOwner) (range : OpenRange)
  | release (pid : Nat)

def step (registry : Registry) : Operation → Registry
  | .set file owner request => (trySetRecordLock registry file owner request).1
  | .unlock file owner range => unlockRecordLock registry file owner range
  | .release pid => releaseProcessRecordLocks registry pid

/-- The registry after some operations, from the start. -/
def run (operations : List Operation) : Registry := operations.foldl step fun _ => []

/-! ### The bytes of the owners -/

/-- The owner has a lock of this kind on this byte. -/
def Holds (locks : List OwnedRecordLock) (owner : RecordLockOwner) (b : Nat)
    (kind : AdvisoryLockKind) : Prop :=
  ∃ candidate ∈ locks, candidate.owner = owner ∧ candidate.kind = kind ∧
    candidate.range.Contains b

variable {locks : List OwnedRecordLock} {owner other : RecordLockOwner} {b : Nat}
  {kind : AdvisoryLockKind} {range : OpenRange} {request : RecordLockRange}
  {candidate : OwnedRecordLock}

theorem holds_append {more : List OwnedRecordLock} :
    Holds (locks ++ more) owner b kind ↔ Holds locks owner b kind ∨ Holds more owner b kind := by
  unfold Holds
  simp only [List.mem_append, or_and_right, exists_or]

/-- A lock loses the bytes of the range if it is the owner's, and nothing else. -/
theorem mem_keep {left : OwnedRecordLock} (member : left ∈ keep owner range candidate) :
    left.owner = candidate.owner ∧ left.kind = candidate.kind ∧
      ∀ b, left.range.Contains b →
        candidate.range.Contains b ∧ ¬(candidate.owner = owner ∧ range.Contains b) := by
  unfold keep at member
  split at member
  · rename_i whole
    rw [List.mem_singleton] at member
    subst member
    refine ⟨rfl, rfl, fun b inside => ⟨inside, ?_⟩⟩
    rintro ⟨mine, taken⟩
    have overlap := OpenRange.overlaps_iff.mpr ⟨b, inside, taken⟩
    simp [mine, overlap] at whole
  · rename_i cut
    simp only [Bool.or_eq_true, Bool.not_eq_true', not_or, Bool.not_eq_false] at cut
    obtain ⟨part, parts, rfl⟩ := List.mem_map.mp member
    refine ⟨rfl, rfl, fun b inside => ?_⟩
    obtain ⟨within, outside⟩ := OpenRange.leftovers_within cut.2 parts inside
    exact ⟨within, fun taken => outside taken.2⟩

theorem keep_covers (inside : candidate.range.Contains b)
    (kept : ¬(candidate.owner = owner ∧ range.Contains b)) :
    ∃ left ∈ keep owner range candidate, left.range.Contains b := by
  unfold keep
  split
  · exact ⟨candidate, List.mem_singleton_self _, inside⟩
  · rename_i cut
    simp only [Bool.or_eq_true, decide_eq_true_eq, Bool.not_eq_true', not_or, ne_eq, not_not,
      Bool.not_eq_false] at cut
    have outside : ¬range.Contains b := fun taken => kept ⟨cut.1, taken⟩
    obtain ⟨part, parts, covers⟩ := OpenRange.leftovers_covers inside outside
    exact ⟨_, List.mem_map_of_mem parts, covers⟩

/-- Taking out clears exactly the owner's bytes of the range. -/
theorem holds_carve :
    Holds (carve owner range locks) other b kind ↔
      Holds locks other b kind ∧ ¬(other = owner ∧ range.Contains b) := by
  unfold carve
  constructor
  · rintro ⟨left, member, rfl, rfl, inside⟩
    obtain ⟨candidate, listed, kept⟩ := List.mem_flatMap.mp member
    obtain ⟨same, sameKind, within⟩ := mem_keep kept
    obtain ⟨contains, outside⟩ := within b inside
    rw [same, sameKind]
    exact ⟨⟨candidate, listed, rfl, rfl, contains⟩, outside⟩
  · rintro ⟨⟨candidate, listed, rfl, rfl, inside⟩, outside⟩
    obtain ⟨left, kept, covers⟩ := keep_covers inside outside
    obtain ⟨same, sameKind, -⟩ := mem_keep kept
    exact ⟨left, List.mem_flatMap.mpr ⟨candidate, listed, kept⟩, same, sameKind, covers⟩

/-- A request is opposed exactly by a conflicting lock of another owner on one of its bytes. -/
theorem any_opposes_iff :
    locks.any (opposes owner request) = true ↔
      ∃ other b kind, other ≠ owner ∧ request.range.Contains b ∧ Holds locks other b kind ∧
        locksConflict kind request.kind = true := by
  rw [List.any_eq_true]
  unfold opposes
  constructor
  · rintro ⟨candidate, listed, opposed⟩
    simp only [Bool.and_eq_true, decide_eq_true_eq] at opposed
    obtain ⟨⟨different, overlap⟩, conflict⟩ := opposed
    obtain ⟨b, inside, requested⟩ := OpenRange.overlaps_iff.mp overlap
    exact ⟨_, b, _, different, requested, ⟨candidate, listed, rfl, rfl, inside⟩, conflict⟩
  · rintro ⟨_, b, _, different, requested, ⟨candidate, listed, rfl, rfl, inside⟩, conflict⟩
    refine ⟨candidate, listed, ?_⟩
    have overlap := OpenRange.overlaps_iff.mpr ⟨b, inside, requested⟩
    simp [different, overlap, conflict]

/-- The stored ranges of one owner do not meet. -/
def Disjoint (locks : List OwnedRecordLock) : Prop :=
  locks.Pairwise fun first second =>
    first.owner = second.owner → first.range.overlaps second.range = false

/-- A byte that is held exclusively is held by nobody else. -/
def Excludes (locks : List OwnedRecordLock) : Prop :=
  ∀ owner other b kind, Holds locks owner b .exclusive → Holds locks other b kind → owner = other

theorem overlaps_eq_false {first second : OpenRange}
    (apart : ∀ b, first.Contains b → second.Contains b → False) :
    first.overlaps second = false := by
  rw [← Bool.not_eq_true, OpenRange.overlaps_iff]
  rintro ⟨b, left, right⟩
  exact apart b left right

theorem Disjoint.carve (disjoint : Disjoint locks) (owner : RecordLockOwner) (range : OpenRange) :
    Disjoint (carve owner range locks) := by
  unfold Disjoint RecordLocks.carve
  rw [List.pairwise_flatMap]
  constructor
  · intro candidate _
    unfold keep
    split
    · exact List.pairwise_singleton ..
    · rw [List.pairwise_map]
      have parts : (candidate.range.leftovers range).Pairwise _ := OpenRange.leftovers_apart
      refine List.Pairwise.imp ?_ parts
      intro first second apart _
      exact apart
  · apply disjoint.imp
    intro first second apart left leftKept right rightKept same
    obtain ⟨leftOwner, -, leftWithin⟩ := mem_keep leftKept
    obtain ⟨rightOwner, -, rightWithin⟩ := mem_keep rightKept
    have none := apart (by rw [← leftOwner, ← rightOwner, same])
    apply overlaps_eq_false
    intro b inLeft inRight
    have overlap := OpenRange.overlaps_iff.mpr
      ⟨b, (leftWithin b inLeft).1, (rightWithin b inRight).1⟩
    rw [none] at overlap
    contradiction

/-! ### The laws of the operations -/

/-- Another owner holds a lock that is in the way of the request. -/
def Opposed (registry : Registry) (file : FileId) (owner : RecordLockOwner)
    (request : RecordLockRange) : Prop :=
  ∃ other b kind, other ≠ owner ∧ request.range.Contains b ∧
    Holds (registry file) other b kind ∧ locksConflict kind request.kind = true

/-- The owner has exactly the requested kind on the bytes of the range. All else is as before. -/
def Sets (before after : Registry) (file : FileId) (owner : RecordLockOwner)
    (request : RecordLockRange) : Prop :=
  (∀ other b kind, Holds (after file) other b kind ↔
    if other = owner ∧ request.range.Contains b then kind = request.kind
    else Holds (before file) other b kind) ∧
  ∀ elsewhere, elsewhere ≠ file → after elsewhere = before elsewhere

/-- The owner has lost its bytes of the range. All else is as before. -/
def Clears (before after : Registry) (file : FileId) (owner : RecordLockOwner)
    (range : OpenRange) : Prop :=
  (∀ other b kind, Holds (after file) other b kind ↔
    Holds (before file) other b kind ∧ ¬(other = owner ∧ range.Contains b)) ∧
  ∀ elsewhere, elsewhere ≠ file → after elsewhere = before elsewhere

variable {registry : Registry} {file : FileId}

theorem trySetRecordLock_refused :
    (trySetRecordLock registry file owner request).2 = false ↔
      Opposed registry file owner request := by
  rw [show Opposed registry file owner request ↔
    (registry file).any (opposes owner request) = true from any_opposes_iff.symm]
  unfold trySetRecordLock
  split
  · rename_i opposed
    simp [opposed]
  · rename_i free
    simp [free]

theorem trySetRecordLock_unchanged
    (refused : (trySetRecordLock registry file owner request).2 = false) :
    (trySetRecordLock registry file owner request).1 = registry := by
  unfold trySetRecordLock at refused ⊢
  split
  · rfl
  · rename_i free
    rw [if_neg free] at refused
    contradiction

theorem trySetRecordLock_granted
    (granted : (trySetRecordLock registry file owner request).2 = true) :
    (trySetRecordLock registry file owner request).1 =
      Function.update registry file
        (carve owner request.range (registry file) ++ [{ request with owner }]) := by
  unfold trySetRecordLock at granted ⊢
  split
  · rename_i opposed
    rw [if_pos opposed] at granted
    contradiction
  · rfl

theorem holds_granted :
    Holds (carve owner request.range locks ++ [{ request with owner }]) other b kind ↔
      if other = owner ∧ request.range.Contains b then kind = request.kind
      else Holds locks other b kind := by
  rw [holds_append, holds_carve]
  have single : Holds [{ request with owner }] other b kind ↔
      other = owner ∧ kind = request.kind ∧ request.range.Contains b := by
    simp [Holds, eq_comm]
  rw [single]
  split
  · rename_i mine
    constructor
    · rintro (⟨-, outside⟩ | ⟨-, same, -⟩)
      · exact absurd mine outside
      · exact same
    · exact fun same => .inr ⟨mine.1, same, mine.2⟩
  · rename_i outside
    constructor
    · rintro (⟨held, -⟩ | ⟨same, -, inside⟩)
      · exact held
      · exact absurd ⟨same, inside⟩ outside
    · exact fun held => .inl ⟨held, outside⟩

theorem trySetRecordLock_sets
    (granted : (trySetRecordLock registry file owner request).2 = true) :
    Sets registry (trySetRecordLock registry file owner request).1 file owner request := by
  rw [trySetRecordLock_granted granted]
  constructor
  · intro other b kind
    rw [Function.update_self]
    exact holds_granted
  · intro elsewhere different
    exact Function.update_of_ne different ..

theorem unlockRecordLock_clears (registry : Registry) (file : FileId) (owner : RecordLockOwner)
    (range : OpenRange) :
    Clears registry (unlockRecordLock registry file owner range) file owner range := by
  constructor
  · intro other b kind
    unfold unlockRecordLock
    rw [Function.update_self]
    exact holds_carve
  · intro elsewhere different
    exact Function.update_of_ne different ..

theorem holds_release {pid : Nat} :
    Holds (releaseProcessRecordLocks registry pid file) owner b kind ↔
      Holds (registry file) owner b kind ∧ owner ≠ .process pid := by
  unfold releaseProcessRecordLocks Holds
  simp only [List.mem_filter, decide_eq_true_eq]
  constructor
  · rintro ⟨candidate, ⟨listed, different⟩, rfl, rest⟩
    exact ⟨⟨candidate, listed, rfl, rest⟩, different⟩
  · rintro ⟨⟨candidate, listed, rfl, rest⟩, different⟩
    exact ⟨candidate, ⟨listed, different⟩, rfl, rest⟩

/-! ### What every history keeps -/

/-- The stored ranges of an owner are disjoint, and exclusive bytes are nobody else's. -/
structure Sound (registry : Registry) : Prop where
  disjoint : ∀ file, Disjoint (registry file)
  excludes : ∀ file, Excludes (registry file)

theorem Sound.start : Sound fun _ => [] where
  disjoint := fun _ => List.Pairwise.nil
  excludes := by
    rintro _ _ _ _ _ ⟨_, listed, _⟩
    contradiction

theorem Sound.update (sound : Sound registry) {locks : List OwnedRecordLock}
    (disjoint : Disjoint locks) (excludes : Excludes locks) :
    Sound (Function.update registry file locks) := by
  constructor
  · intro elsewhere
    by_cases here : elsewhere = file
    · subst here
      rwa [Function.update_self]
    · rw [Function.update_of_ne here]
      exact sound.disjoint elsewhere
  · intro elsewhere
    by_cases here : elsewhere = file
    · subst here
      rwa [Function.update_self]
    · rw [Function.update_of_ne here]
      exact sound.excludes elsewhere

theorem disjoint_granted (disjoint : Disjoint locks) :
    Disjoint (carve owner request.range locks ++ [{ request with owner }]) := by
  unfold Disjoint
  rw [List.pairwise_append]
  refine ⟨disjoint.carve owner request.range, List.pairwise_singleton .., ?_⟩
  intro left member right singleton same
  rw [List.mem_singleton] at singleton
  subst singleton
  apply overlaps_eq_false
  intro b inside requested
  have held : Holds (carve owner request.range locks) owner b left.kind :=
    ⟨left, member, same, rfl, inside⟩
  exact (holds_carve.mp held).2 ⟨rfl, requested⟩

theorem excludes_granted (excludes : Excludes locks)
    (free : locks.any (opposes owner request) ≠ true) :
    Excludes (carve owner request.range locks ++ [{ request with owner }]) := by
  have alone : ∀ other b kind, request.range.Contains b → Holds locks other b kind →
      locksConflict kind request.kind = true → other = owner := by
    intro other b kind inside held conflict
    by_contra different
    exact free (any_opposes_iff.mpr ⟨other, b, kind, different, inside, held, conflict⟩)
  intro first second b kind exclusive held
  rw [holds_granted] at exclusive held
  split at exclusive
  · rename_i mine
    split at held
    · rename_i yours
      exact mine.1.trans yours.1.symm
    · have conflict : locksConflict kind request.kind = true := by simp [locksConflict, ← exclusive]
      exact mine.1.trans (alone second b kind mine.2 held conflict).symm
  · split at held
    · rename_i yours
      exact (alone first b .exclusive yours.2 exclusive rfl).trans yours.1.symm
    · exact excludes first second b kind exclusive held

theorem Sound.step (sound : Sound registry) (operation : Operation) :
    Sound (step registry operation) := by
  cases operation with
  | set file owner request =>
    change Sound (trySetRecordLock registry file owner request).1
    unfold trySetRecordLock
    split
    · exact sound
    · rename_i free
      exact sound.update (disjoint_granted (sound.disjoint file))
        (excludes_granted (sound.excludes file) free)
  | unlock file owner range =>
    apply sound.update ((sound.disjoint file).carve owner range)
    intro first second b kind exclusive held
    exact sound.excludes file first second b kind (holds_carve.mp exclusive).1
      (holds_carve.mp held).1
  | release pid =>
    constructor
    · intro file
      exact (sound.disjoint file).filter _
    · intro file first second b kind exclusive held
      exact sound.excludes file first second b kind (holds_release.mp exclusive).1
        (holds_release.mp held).1

theorem sound_run (operations : List Operation) : Sound (run operations) := by
  unfold run
  have from' : ∀ registry, Sound registry → Sound (operations.foldl RecordLocks.step registry) := by
    induction operations with
    | nil => exact fun _ sound => sound
    | cons operation rest ih => exact fun _ sound => ih _ (sound.step operation)
  exact from' _ Sound.start

/-- After every history, requests and unlocks do to every byte of every owner what they should,
the stored ranges of an owner stay disjoint, and exclusive bytes stay exclusive. -/
theorem record_locks_pointwise (history : List Operation) (file : FileId)
    (owner : RecordLockOwner) (request : RecordLockRange) (range : OpenRange) :
    let registry := run history
    let requested := trySetRecordLock registry file owner request
    (requested.2 = true → Sets registry requested.1 file owner request) ∧
      (requested.2 = false → requested.1 = registry) ∧
      (requested.2 = false ↔ Opposed registry file owner request) ∧
      Clears registry (unlockRecordLock registry file owner range) file owner range ∧
      Disjoint (registry file) ∧ Excludes (registry file) := by
  have sound := sound_run history
  exact ⟨trySetRecordLock_sets, trySetRecordLock_unchanged, trySetRecordLock_refused,
    unlockRecordLock_clears _ file owner range, sound.disjoint file, sound.excludes file⟩

/-- A lock over the middle of another one of the same owner leaves the front and the back. -/
example :
    let process := RecordLockOwner.process 1
    let whole : RecordLockRange := ⟨.exclusive, ⟨0, none, nofun⟩⟩
    let middle : RecordLockRange := ⟨.shared, ⟨4, some 8, by rintro _ ⟨⟩; decide⟩⟩
    (run [.set 0 process whole, .set 0 process middle] 0).map
        (fun candidate => (candidate.kind, candidate.range.start, candidate.range.stop)) =
      [(.exclusive, 0, some 4), (.exclusive, 8, none), (.shared, 4, some 8)] := by
  decide

end ILEmu.Bsd.RecordLocks
