import ILEmu.Foundation.Containers

/-! Tables of lists, read with the empty list for a missing key. A list that becomes
empty can be taken out of the table with its key. -/
namespace ILEmu.Foundation
namespace Table
variable {K α : Type*} [DecidableEq K] (table : Table K (List α)) (key other : K)

def bucket : List α := (table.lookup key).getD []

/-- `table[key].push_back(a)` -/
def push (a : α) : Table K (List α) := table.insert key (table.bucket key ++ [a])

/-- `std::erase_if` on the list of a key, which stays when it becomes empty. -/
def trim (keep : α → Bool) : Table K (List α) :=
  match table.lookup key with
  | none => table
  | some items => table.insert key (items.filter keep)

/-- `std::erase_if` on the list of a key, and the key with it if the list becomes empty. -/
def prune (keep : α → Bool) : Table K (List α) :=
  match table.lookup key with
  | none => table
  | some items =>
    if items.filter keep = [] then table.erase key else table.insert key (items.filter keep)

/-- `push_back` of what `std::find` does not find. -/
def pushNew [DecidableEq α] (a : α) : Table K (List α) :=
  if a ∈ table.bucket key then table else table.push key a

def NoneEmpty : Prop := ∀ key, table.lookup key ≠ some []

theorem bucket_of_lookup {table : Table K (List α)} {key : K} {items : List α}
    (found : table.lookup key = some items) : table.bucket key = items := by
  unfold bucket
  rw [found]
  rfl

theorem bucket_of_missing {table : Table K (List α)} {key : K}
    (missing : table.lookup key = none) : table.bucket key = [] := by
  unfold bucket
  rw [missing]
  rfl

theorem bucket_insert (items : List α) :
    bucket (table.insert key items) other = if other = key then items else table.bucket other := by
  unfold bucket
  rw [lookup_insert_eq]
  split <;> rfl

theorem bucket_erase :
    bucket (table.erase key) other = if other = key then [] else table.bucket other := by
  unfold bucket
  rw [lookup_erase_eq]
  split <;> rfl

theorem bucket_push (a : α) : bucket (table.push key a) other =
    if other = key then table.bucket key ++ [a] else table.bucket other :=
  bucket_insert _ _ _ _

theorem bucket_trim (keep : α → Bool) : bucket (table.trim key keep) other =
    if other = key then (table.bucket key).filter keep else table.bucket other := by
  unfold trim
  cases found : table.lookup key with
  | none =>
    by_cases same : other = key
    · subst other
      rw [if_pos rfl, bucket_of_missing found]
      rfl
    · rw [if_neg same]
  | some items =>
    dsimp only
    rw [bucket_insert, bucket_of_lookup found]

theorem bucket_prune (keep : α → Bool) : bucket (table.prune key keep) other =
    if other = key then (table.bucket key).filter keep else table.bucket other := by
  unfold prune
  cases found : table.lookup key with
  | none =>
    by_cases same : other = key
    · subst other
      rw [if_pos rfl, bucket_of_missing found]
      rfl
    · rw [if_neg same]
  | some items =>
    dsimp only
    by_cases gone : items.filter keep = []
    · rw [if_pos gone, bucket_erase, bucket_of_lookup found, gone]
    · rw [if_neg gone, bucket_insert, bucket_of_lookup found]

theorem bucket_pushNew [DecidableEq α] (a : α) : bucket (table.pushNew key a) other =
    if other = key ∧ a ∉ table.bucket key then table.bucket key ++ [a]
    else table.bucket other := by
  unfold pushNew
  by_cases inside : a ∈ table.bucket key
  · simp [inside]
  · simp [inside, bucket_push]

variable {table} {key}

/-- Pruning takes the elements that it drops from the number of all of them. -/
theorem total_prune_lt (keep : α → Bool) {a : α} (inside : a ∈ table.bucket key)
    (dropped : keep a = false) :
    total List.length (table.prune key keep) < total List.length table := by
  unfold prune
  cases found : table.lookup key with
  | none =>
    rw [bucket_of_missing found] at inside
    contradiction
  | some items =>
    rw [bucket_of_lookup found] at inside
    have fewer : (items.filter keep).length < items.length := by
      apply List.length_filter_lt_length_iff_exists.mpr
      exact ⟨a, inside, by simp [dropped]⟩
    have whole := total_of_lookup List.length found
    dsimp only
    by_cases gone : items.filter keep = []
    · rw [if_pos gone]
      omega
    · rw [if_neg gone]
      have moved := total_insert List.length table key (items.filter keep)
      omega

theorem NoneEmpty.erase (none : table.NoneEmpty) : NoneEmpty (table.erase key) := by
  intro other
  rw [lookup_erase_eq]
  split
  · exact nofun
  · exact none other

theorem NoneEmpty.insert (none : table.NoneEmpty) {items : List α} (some : items ≠ []) :
    NoneEmpty (table.insert key items) := by
  intro other
  rw [lookup_insert_eq]
  split
  · exact fun same => some (Option.some.inj same)
  · exact none other

theorem NoneEmpty.push (none : table.NoneEmpty) (a : α) : NoneEmpty (table.push key a) :=
  none.insert (by simp)

theorem NoneEmpty.pushNew [DecidableEq α] (none : table.NoneEmpty) (a : α) :
    NoneEmpty (table.pushNew key a) := by
  unfold Table.pushNew
  split
  · exact none
  · exact none.push a

theorem NoneEmpty.prune (none : table.NoneEmpty) (keep : α → Bool) :
    NoneEmpty (table.prune key keep) := by
  unfold Table.prune
  cases table.lookup key with
  | none => exact none
  | some items =>
    dsimp only
    by_cases gone : items.filter keep = []
    · rw [if_pos gone]
      exact none.erase
    · rw [if_neg gone]
      exact none.insert gone

variable {A : Type*}

/-- Lists of several keys filtered one after the other, a key possibly more than once. -/
theorem bucket_foldl (f : Table K (List α) → A → Table K (List α)) (keyOf : A → K)
    (keep : α → Bool)
    (each : ∀ table a key, bucket (f table a) key =
      if key = keyOf a then (table.bucket (keyOf a)).filter keep else table.bucket key)
    (steps : List A) (table : Table K (List α)) (key : K) :
    bucket (steps.foldl f table) key =
      if key ∈ steps.map keyOf then (table.bucket key).filter keep else table.bucket key := by
  induction steps generalizing table with
  | nil => simp
  | cons a rest ih =>
    rw [List.foldl_cons, ih, each]
    by_cases here : key = keyOf a
    · subst key
      rw [if_pos rfl, if_pos (List.mem_map_of_mem List.mem_cons_self)]
      split
      · rw [List.filter_filter]
        simp
      · rfl
    · simp [here]

theorem bucket_foldl_pushNew [DecidableEq α] (a : α) (keys : List K)
    (table : Table K (List α)) (key : K) :
    bucket (keys.foldl (fun table key => table.pushNew key a) table) key =
      if key ∈ keys ∧ a ∉ table.bucket key then table.bucket key ++ [a]
      else table.bucket key := by
  induction keys generalizing table with
  | nil => simp
  | cons k rest ih =>
    rw [List.foldl_cons, ih, bucket_pushNew]
    by_cases here : key = k
    · subst key
      by_cases inside : a ∈ table.bucket k <;> simp [inside]
    · simp [here]

theorem NoneEmpty.foldl {f : Table K (List α) → A → Table K (List α)}
    (each : ∀ table a, table.NoneEmpty → (f table a).NoneEmpty) (none : table.NoneEmpty)
    (steps : List A) : (steps.foldl f table).NoneEmpty := by
  induction steps generalizing table with
  | nil => exact none
  | cons a rest ih => exact ih (each table a none)

end Table
end ILEmu.Foundation
