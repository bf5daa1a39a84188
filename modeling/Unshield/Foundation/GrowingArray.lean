/-
Module: Unshield.Foundation.GrowingArray
Purpose: An array in a block of memory whose capacity is doubled when it is full: bounds-checked stores,
  capacities that a limit keeps representable, and the list that such an array holds.
Trusted boundary: none
Main exports: GrowingArray, GrowingArray.grow, GrowingArray.store, GrowingArray.entries,
  GrowingArray.makeRoom, GrowingArray.Holds, GrowingArray.Holds.available_le,
  GrowingArray.Holds.exists_makeRoom
-/
import Mathlib.Algebra.Group.Nat.Defs
import Unshield.Foundation.Buffer

/-- The block, the number of slots in use and the capacity that the program remembers for the block; a slot
that was never stored to is `none`. -/
structure GrowingArray (α : Type) where
  block : List (Option α)
  count : Nat
  available : Nat

namespace GrowingArray

variable {α : Type}

/-- A fresh array. -/
def allocate (available : Nat) : GrowingArray α :=
  { block := List.replicate available none, count := 0, available }

/-- The capacity is doubled and the block is reallocated; `none` if the capacity is beyond the limit. -/
def grow (limit : Nat) (array : GrowingArray α) : Option (GrowingArray α) :=
  if 2 * array.available ≤ limit then
    some { array with
      block := array.block ++ List.replicate array.available none
      available := 2 * array.available }
  else none

/-- The entry is stored behind the others; `none` is a store outside the block. -/
def store (array : GrowingArray α) (entry : α) : Option (GrowingArray α) := do
  let block ← Buffer.store array.block array.count (some entry)
  some { array with block, count := array.count + 1 }

/-- What the slots in use hold. -/
def entries (array : GrowingArray α) : List α := (array.block.take array.count).filterMap id

/-- A full array grows before the store. -/
def makeRoom (limit : Nat) (array : GrowingArray α) : Option (GrowingArray α) :=
  if array.count = array.available then array.grow limit else some array

/-- The array holds the entries, in order and from the first slot on, within a block of the capacity that
it remembers; the capacity is a power of two within the limit. -/
structure Holds (limit : Nat) (array : GrowingArray α) (entries : List α) : Prop where
  capacity : array.block.length = array.available
  count : array.count = entries.length
  within : array.count ≤ array.available
  filled : array.block.take array.count = entries.map some
  doubled : ∃ k, array.available = 2 ^ k
  limited : array.available ≤ limit

theorem holds_allocate {limit k : Nat} (limited : 2 ^ k ≤ limit) :
    Holds limit (allocate (2 ^ k) : GrowingArray α) [] where
  capacity := List.length_replicate
  count := rfl
  within := Nat.zero_le _
  filled := rfl
  doubled := ⟨k, rfl⟩
  limited := limited

theorem Holds.entries_eq {limit : Nat} {array : GrowingArray α} {entries : List α}
    (holds : Holds limit array entries) : array.entries = entries := by
  rw [GrowingArray.entries, holds.filled, List.filterMap_map]
  exact List.filterMap_some

/-- Below a limit of `2 ^ (k + 1) - 1` no capacity exceeds `2 ^ k`. -/
theorem Holds.available_le {array : GrowingArray α} {entries : List α} {k : Nat}
    (holds : Holds (2 ^ (k + 1) - 1) array entries) : array.available ≤ 2 ^ k := by
  obtain ⟨j, power⟩ := holds.doubled
  have limited := holds.limited
  rw [power] at limited ⊢
  apply Nat.pow_le_pow_right (by decide)
  by_contra beyond
  have larger : 2 ^ (k + 1) ≤ 2 ^ j := Nat.pow_le_pow_right (by decide) (Nat.lt_of_not_le beyond)
  have positive := Nat.two_pow_pos (k + 1)
  omega

/-- Where room was made the array holds what it held. -/
theorem Holds.makeRoom {limit : Nat} {array roomy : GrowingArray α} {entries : List α}
    (holds : Holds limit array entries) (made : array.makeRoom limit = some roomy) :
    Holds limit roomy entries ∧ roomy.count < roomy.available := by
  have within := holds.within
  obtain ⟨k, power⟩ := holds.doubled
  have positive := Nat.two_pow_pos k
  rw [GrowingArray.makeRoom, grow] at made
  split_ifs at made with full limited
  · obtain rfl := Option.some.inj made
    refine ⟨⟨?_, holds.count, by simp only; omega, ?_, ⟨k + 1, ?_⟩, limited⟩, by simp only; omega⟩
    · rw [List.length_append, List.length_replicate, holds.capacity, Nat.two_mul]
    · rw [List.take_append_of_le_length (by rw [holds.capacity]; exact within), holds.filled]
    · simp only [power]
      rw [Nat.pow_succ, Nat.mul_comm]
  · obtain rfl := Option.some.inj made
    exact ⟨holds, by omega⟩

/-- Room is made for every entry up to the largest capacity. -/
theorem Holds.exists_makeRoom {array : GrowingArray α} {entries : List α} {k : Nat}
    (holds : Holds (2 ^ (k + 1) - 1) array entries) (few : entries.length < 2 ^ k) :
    ∃ roomy, array.makeRoom (2 ^ (k + 1) - 1) = some roomy := by
  rw [GrowingArray.makeRoom]
  split_ifs with full
  · obtain ⟨j, power⟩ := holds.doubled
    have smaller : 2 ^ j < 2 ^ k := by
      rw [← power, ← full, holds.count]
      exact few
    have next : 2 ^ (j + 1) ≤ 2 ^ k :=
      Nat.pow_le_pow_right (by decide) ((Nat.pow_lt_pow_iff_right (by decide)).1 smaller)
    have positive := Nat.two_pow_pos k
    rw [grow, if_pos]
    · exact ⟨_, rfl⟩
    · rw [power]
      rw [Nat.pow_succ] at next ⊢
      omega
  · exact ⟨array, rfl⟩

/-- A store with room for it adds the entry. -/
theorem Holds.store {limit : Nat} {array : GrowingArray α} {entries : List α}
    (holds : Holds limit array entries) (room : array.count < array.available) (entry : α) :
    ∃ stored, array.store entry = some stored ∧ Holds limit stored (entries ++ [entry]) := by
  have inside : array.count < array.block.length := by
    rw [holds.capacity]
    exact room
  refine ⟨_, by rw [GrowingArray.store, Buffer.store, if_pos inside]; rfl, ?_⟩
  refine ⟨?_, ?_, room, ?_, holds.doubled, holds.limited⟩
  · rw [List.length_set, holds.capacity]
  · rw [List.length_append, holds.count]
    rfl
  · rw [List.take_succ_eq_append_getElem (by rw [List.length_set]; exact inside),
      List.take_set_of_le (Nat.le_refl _),
      holds.filled, List.getElem_set_self, List.map_append]
    rfl

end GrowingArray
