/-
Module: Unshield.Foundation.Block
Purpose: Blocks of memory with a size, whose bytes may be uninitialised: bounds-checked loads and
  stores, and what it means that a block holds a string of bytes.
Trusted boundary: none
Main exports: Block, Block.load, Block.store, Block.Holds, Block.load_of_holds, Block.holds_store
-/
import Mathlib.Data.List.Basic

/-- A block of memory.  A byte nobody has stored has some value too, and so has a byte past the
end, which the block gets when it grows. -/
structure Block where
  size : Nat
  byte : Nat → UInt8

namespace Block

/-- The bytes from `offset` on; `none` is a read past the end. -/
def load (block : Block) (offset count : Nat) : Option (List UInt8) :=
  if offset + count ≤ block.size then
    some ((List.range count).map fun i => block.byte (offset + i))
  else none

/-- Put `bytes` in place of what stood from `offset` on; `none` is a store past the end. -/
def store (block : Block) (offset : Nat) (bytes : List UInt8) : Option Block :=
  if offset + bytes.length ≤ block.size then
    some { block with byte := fun i =>
      if offset ≤ i then (bytes[i - offset]?).getD (block.byte i) else block.byte i }
  else none

/-- The block after `realloc`. -/
def resize (block : Block) (size : Nat) : Block := { block with size := size }

/-- The bytes from `offset` on are `bytes`. -/
def Holds (block : Block) (offset : Nat) (bytes : List UInt8) : Prop :=
  offset + bytes.length ≤ block.size ∧
    ∀ i, i < bytes.length → bytes[i]? = some (block.byte (offset + i))

variable {block : Block} {offset : Nat} {bytes first second : List UInt8}

theorem load_of_holds (holds : block.Holds offset bytes) :
    block.load offset bytes.length = some bytes := by
  rw [load, if_pos holds.1, Option.some.injEq]
  apply List.ext_getElem?
  intro i
  rw [List.getElem?_map]
  by_cases inside : i < bytes.length
  · rw [List.getElem?_range inside, holds.2 i inside]
    rfl
  · rw [List.getElem?_eq_none (by simpa using inside), List.getElem?_eq_none (by omega)]
    rfl

theorem length_of_load {count : Nat} (h : block.load offset count = some bytes) :
    bytes.length = count := by
  rw [load] at h
  split at h
  · rw [← Option.some.inj h, List.length_map, List.length_range]
  · cases h

theorem load_isSome (block : Block) {offset count : Nat} (fits : offset + count ≤ block.size) :
    ∃ bytes, block.load offset count = some bytes :=
  ⟨_, if_pos fits⟩

theorem holds_append :
    block.Holds offset (first ++ second) ↔
      block.Holds offset first ∧ block.Holds (offset + first.length) second := by
  constructor
  · rintro ⟨fits, bytes⟩
    rw [List.length_append] at fits bytes
    refine ⟨⟨by omega, ?_⟩, ⟨by omega, ?_⟩⟩
    · intro i inside
      have := bytes i (by omega)
      rwa [List.getElem?_append_left inside] at this
    · intro i inside
      have := bytes (first.length + i) (by omega)
      rwa [List.getElem?_append_right (by omega), Nat.add_sub_cancel_left, ← Nat.add_assoc] at this
  · rintro ⟨⟨_, front⟩, ⟨fits, back⟩⟩
    refine ⟨by rw [List.length_append]; omega, ?_⟩
    intro i inside
    rw [List.length_append] at inside
    by_cases isFront : i < first.length
    · rw [List.getElem?_append_left isFront, front i isFront]
    · rw [List.getElem?_append_right (by omega), back (i - first.length) (by omega)]
      congr 2
      omega

/-- Part of what a block holds can be loaded. -/
theorem load_within {position count : Nat} (holds : block.Holds offset bytes)
    (inside : position + count ≤ bytes.length) :
    block.load (offset + position) count = some ((bytes.drop position).take count) := by
  have split : bytes = bytes.take position ++ ((bytes.drop position).take count ++
      (bytes.drop position).drop count) := by
    rw [List.take_append_drop, List.take_append_drop]
  have front : (bytes.take position).length = position := List.length_take_of_le (by omega)
  have middle : ((bytes.drop position).take count).length = count :=
    List.length_take_of_le (by rw [List.length_drop]; omega)
  rw [split, holds_append, holds_append, front] at holds
  have loaded := load_of_holds holds.2.1
  rwa [middle] at loaded

theorem load_one (block : Block) {offset : Nat} (inside : offset < block.size) :
    block.load offset 1 = some [block.byte offset] := by
  rw [load, if_pos (by omega)]
  rfl

/-- What has been stored is there. -/
theorem holds_store {stored : Block} (h : block.store offset bytes = some stored) :
    stored.Holds offset bytes := by
  rw [store] at h
  split at h
  · rename_i fits
    rw [← Option.some.inj h]
    refine ⟨fits, ?_⟩
    intro i inside
    simp [List.getElem?_eq_getElem inside]
  · cases h

/-- What stands in front of a store stays. -/
theorem holds_append_of_store {stored : Block} (h : block.store (offset + first.length) second = some stored)
    (holds : block.Holds offset first) : stored.Holds offset (first ++ second) := by
  refine holds_append.2 ⟨?_, holds_store h⟩
  rw [store] at h
  split at h
  · rw [← Option.some.inj h]
    refine ⟨holds.1, ?_⟩
    intro i inside
    simp only
    rw [if_neg (by omega)]
    exact holds.2 i inside
  · cases h

theorem size_of_store {stored : Block} (h : block.store offset bytes = some stored) :
    stored.size = block.size := by
  rw [store] at h
  split at h
  · rw [← Option.some.inj h]
  · cases h

theorem store_isSome (block : Block) {offset : Nat} {bytes : List UInt8}
    (fits : offset + bytes.length ≤ block.size) :
    ∃ stored, block.store offset bytes = some stored :=
  ⟨_, if_pos fits⟩

/-- Storing what is there already changes nothing. -/
theorem store_of_holds (holds : block.Holds offset bytes) : block.store offset bytes = some block := by
  rw [store, if_pos holds.1]
  cases block with
  | mk size byte =>
      simp only [Option.some.injEq, mk.injEq, true_and]
      funext i
      by_cases behind : offset ≤ i
      · rw [if_pos behind]
        by_cases inside : i - offset < bytes.length
        · have := holds.2 (i - offset) inside
          simp only at this
          rw [this, Nat.add_sub_cancel' behind]
          rfl
        · rw [List.getElem?_eq_none (by omega)]
          rfl
      · rw [if_neg behind]

end Block
