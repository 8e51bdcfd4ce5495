import Mathlib.Data.List.GetD
import Mathlib.Algebra.BigOperators.Group.List.Basic
import Mathlib.Algebra.GroupWithZero.Nat

/-! A flat memory has a byte at each address, or none. Bytes that follow each other are loaded and
stored together, and an access takes the memory to another one and gives an answer. -/
namespace ILEmu.Foundation

abbrev FlatMemory (B : Type*) := Nat → Option B

/-- The accesses of a program, some of which load and store at once. -/
inductive Access (B : Type*) where
  | load (address size : Nat)
  | store (address : Nat) (data : List B)
  | exchange (address : Nat) (data : List B)
  | compareExchange (address : Nat) (expected data : List B)

/-- The address is one that is accessed. -/
def Access.Touches {B : Type*} (a : Nat) : Access B → Prop
  | .load address size => address ≤ a ∧ a < address + size
  | .store address data | .exchange address data | .compareExchange address _ data =>
    address ≤ a ∧ a < address + data.length

namespace FlatMemory
variable {B : Type*}

/-- There is nothing after a store where there was nothing before. -/
def store (address : Nat) (data : List B) (m : FlatMemory B) : FlatMemory B := fun a =>
  if address ≤ a then (m a).map fun old => data.getD (a - address) old else m a

def load (m : FlatMemory B) : Nat → Nat → Option (List B)
  | _, 0 => some []
  | address, n + 1 => (m address).bind fun byte => (load m (address + 1) n).map (byte :: ·)

/-- The memory after an access, and the answer of the access. -/
def access [DecidableEq B] (m : FlatMemory B) : Access B → FlatMemory B × Option (List B)
  | .load address size => (m, m.load address size)
  | .store address data => (m.store address data, some [])
  | .exchange address data => (m.store address data, m.load address data.length)
  | .compareExchange address expected data =>
    if m.load address data.length = some expected then (m.store address data, some []) else (m, none)

variable {m m' : FlatMemory B} {address a n : Nat} {data rest : List B}

theorem store_nil : store address [] m = m := by
  funext a
  simp only [store, List.getD_nil, Option.map_id', ite_self]

theorem store_outside (outside : a < address ∨ address + data.length ≤ a) :
    store address data m a = m a := by
  simp only [store]
  split
  · rename_i low
    have past : data.length ≤ a - address := by omega
    have same (old : B) : data.getD (a - address) old = old := List.getD_eq_default _ _ past
    rw [Option.map_congr fun old _ => same old, Option.map_id']
  · rfl

theorem store_inside (low : address ≤ a) (high : a < address + data.length) :
    store address data m a = (m a).bind fun _ => data[a - address]? := by
  have inside : a - address < data.length := by omega
  have same (old : B) : data.getD (a - address) old = data[a - address] :=
    List.getD_eq_getElem _ _ inside
  simp only [store, if_pos low, List.getElem?_eq_getElem inside]
  cases m a with
  | none => rfl
  | some old => exact congrArg some (same old)

/-- What is stored in two parts is stored at once. -/
theorem store_append : store address (data ++ rest) m =
    store (address + data.length) rest (store address data m) := by
  funext a
  by_cases low : address ≤ a
  · by_cases first : a < address + data.length
    · rw [store_outside (.inl first), store_inside low first,
        store_inside low (by rw [List.length_append]; omega),
        List.getElem?_append_left (by omega)]
    · have same (old : B) : (data ++ rest).getD (a - address) old =
          rest.getD (a - (address + data.length)) old := by
        rw [List.getD_append_right _ _ _ _ (by omega), Nat.sub_sub]
      rw [store, store, if_pos low, if_pos (by omega), store_outside (.inr (by omega))]
      exact Option.map_congr fun old _ => same old
  · rw [store_outside (.inl (by omega)), store_outside (.inl (by omega)),
      store_outside (.inl (by omega))]

/-- A load gives the bytes at its addresses. -/
theorem load_eq_some_iff {bytes : List B} : m.load address n = some bytes ↔
    bytes.length = n ∧ ∀ k < n, m (address + k) = bytes[k]? := by
  induction n generalizing address bytes with
  | zero =>
    simp only [load, Option.some.injEq, Nat.not_lt_zero, false_imp_iff, implies_true, and_true,
      List.length_eq_zero_iff, eq_comm]
  | succ n ih =>
    simp only [load, Option.bind_eq_some_iff, Option.map_eq_some_iff, ih]
    constructor
    · rintro ⟨byte, here, bytes, ⟨size, later⟩, rfl⟩
      refine ⟨congrArg (· + 1) size, fun k inside => ?_⟩
      cases k with
      | zero => exact here
      | succ k =>
        rw [List.getElem?_cons_succ, ← later k (Nat.lt_of_succ_lt_succ inside), Nat.succ_add_eq_add_succ]
    · rintro ⟨size, each⟩
      cases bytes with
      | nil => contradiction
      | cons byte bytes =>
        refine ⟨byte, each 0 (Nat.succ_pos n), bytes, ⟨Nat.succ_inj.mp size, fun k inside => ?_⟩, rfl⟩
        rw [Nat.succ_add_eq_add_succ]
        exact each (k + 1) (Nat.succ_lt_succ inside)

theorem load_congr (same : ∀ a, address ≤ a → a < address + n → m a = m' a) :
    m.load address n = m'.load address n := by
  apply Option.ext
  intro bytes
  rw [load_eq_some_iff, load_eq_some_iff]
  refine and_congr_right fun _ => forall_congr' fun k => imp_congr_right fun inside => ?_
  rw [same (address + k) (Nat.le_add_right _ _) (by omega)]

theorem store_congr (same : m a = m' a) : store address data m a = store address data m' a := by
  simp only [store, same]

/-- An access depends on the addresses that it touches. -/
theorem access_congr [DecidableEq B] {inside : Nat → Prop} (same : ∀ a, inside a → m a = m' a)
    {access : Access B} (within : ∀ a, access.Touches a → inside a) :
    (m.access access).2 = (m'.access access).2 ∧
      ∀ a, inside a → (m.access access).1 a = (m'.access access).1 a := by
  have stored (address : Nat) (data : List B) (a : Nat) (here : inside a) :
      store address data m a = store address data m' a := store_congr (same a here)
  cases access with
  | load address size =>
    exact ⟨load_congr fun a low high => same a (within a ⟨low, high⟩), same⟩
  | store address data => exact ⟨rfl, stored address data⟩
  | exchange address data =>
    exact ⟨load_congr fun a low high => same a (within a ⟨low, high⟩), stored address data⟩
  | compareExchange address expected data =>
    have loaded : m.load address data.length = m'.load address data.length :=
      load_congr fun a low high => same a (within a ⟨low, high⟩)
    simp only [FlatMemory.access, loaded]
    split
    · exact ⟨rfl, stored address data⟩
    · exact ⟨rfl, same⟩

/-! ### Stores in pieces -/

def storeAll (pieces : List (Nat × List B)) (m : FlatMemory B) : FlatMemory B :=
  pieces.foldl (fun m piece => store piece.1 piece.2 m) m

/-- The pieces follow each other. -/
def Tiles : Nat → List B → List (Nat × List B) → Prop
  | _, data, [] => data = []
  | address, data, piece :: pieces =>
    piece.1 = address ∧ ∃ rest, data = piece.2 ++ rest ∧
      Tiles (address + piece.2.length) rest pieces

theorem storeAll_tiles {pieces : List (Nat × List B)} (tiles : Tiles address data pieces) (n : Nat) :
    storeAll (pieces.take n) m =
      store address (data.take ((pieces.take n).map fun piece => piece.2.length).sum) m := by
  induction pieces generalizing address data n m with
  | nil => simp [storeAll, store_nil]
  | cons piece pieces ih =>
    obtain ⟨rfl, rest, rfl, tiles⟩ := tiles
    cases n with
    | zero => simp [storeAll, store_nil]
    | succ n =>
      rw [List.take_succ_cons, List.map_cons, List.sum_cons, List.take_length_add_append,
        store_append, ← ih tiles]
      rfl

theorem Tiles.size {pieces : List (Nat × List B)} (tiles : Tiles address data pieces) :
    (pieces.map fun piece => piece.2.length).sum = data.length := by
  induction pieces generalizing address data with
  | nil => exact tiles ▸ rfl
  | cons piece pieces ih =>
    obtain ⟨-, rest, rfl, tiles⟩ := tiles
    rw [List.map_cons, List.sum_cons, ih tiles, List.length_append]

end FlatMemory
end ILEmu.Foundation
