/-
Module: Unshield.Foundation.BlockStrings
Purpose: Strings with a terminator at the start of a block of memory: what the string functions of the C
  library do to them, and when they stay inside of the block.
Trusted boundary: human-reviewed model of strlen, strcpy and strcat
Main exports: Block.string, Block.strlen, Block.strcpy, Block.strcat, Block.HoldsString,
  Block.HoldsString.of_strcpy, Block.HoldsString.of_strcat, Block.HoldsString.load_last
-/
import Mathlib.Data.List.TakeDrop
import Unshield.Foundation.Block

namespace Block

/-- The bytes in front of the first terminator; `none` is a read past the end. -/
def string (block : Block) : Option (List UInt8) :=
  let bytes := (List.range block.size).map block.byte
  if 0 ∈ bytes then some (bytes.takeWhile (· ≠ 0)) else none

def strlen (block : Block) : Option Nat := block.string.map List.length

/-- `none` is a store past the end. -/
def strcpy (block : Block) (text : List UInt8) : Option Block := block.store 0 (text ++ [0])

def strcat (block : Block) (text : List UInt8) : Option Block := do
  let length ← block.strlen
  block.store length (text ++ [0])

/-- The string at the start of the block is `text`. -/
structure HoldsString (block : Block) (text : List UInt8) : Prop where
  clean : 0 ∉ text
  bytes : block.Holds 0 (text ++ [0])

variable {block stored : Block} {offset : Nat} {bytes front text : List UInt8}

/-- What lies in front of a store stays. -/
theorem Holds.of_store_behind {later : Nat} {kept : List UInt8} (holds : block.Holds offset kept)
    (behind : offset + kept.length ≤ later) (h : block.store later bytes = some stored) :
    stored.Holds offset kept := by
  rw [store] at h
  split at h
  · rw [← Option.some.inj h]
    refine ⟨holds.1, fun i inside => ?_⟩
    rw [holds.2 i inside]
    show _ = some (if later ≤ offset + i then _ else block.byte (offset + i))
    rw [if_neg (by omega)]
  · cases h

theorem store_isSome_iff : (∃ stored, block.store offset bytes = some stored) ↔
    offset + bytes.length ≤ block.size := by
  constructor
  · rintro ⟨stored, h⟩
    rw [store] at h
    split at h
    · assumption
    · cases h
  · exact fun fits => store_isSome block fits

theorem HoldsString.length_lt (holds : block.HoldsString text) : text.length < block.size := by
  have fits := holds.bytes.1
  rw [List.length_append, List.length_singleton] at fits
  omega

theorem HoldsString.string_eq (holds : block.HoldsString text) : block.string = some text := by
  have inside := holds.length_lt
  have split : (List.range block.size).map block.byte = text ++ 0 :: ((List.range block.size).map
      block.byte).drop (text.length + 1) := by
    have front : ((List.range block.size).map block.byte).take (text.length + 1) = text ++ [0] := by
      have loaded := load_of_holds holds.bytes
      rw [load, if_pos holds.bytes.1, List.length_append, List.length_singleton, Option.some.injEq] at loaded
      rw [← loaded, ← List.map_take, List.take_range, Nat.min_eq_left inside]
      simp only [Nat.zero_add]
    conv => lhs; rw [← List.take_append_drop (text.length + 1) ((List.range block.size).map block.byte)]
    rw [front, List.append_assoc, List.singleton_append]
  rw [string, split, if_pos (List.mem_append_right _ List.mem_cons_self), Option.some.injEq,
    List.takeWhile_append_of_pos, List.takeWhile_cons_of_neg, List.append_nil]
  · simp
  · intro byte mem
    exact decide_eq_true fun zero => holds.clean (zero ▸ mem)

theorem HoldsString.strlen_eq (holds : block.HoldsString text) : block.strlen = some text.length := by
  rw [strlen, holds.string_eq]
  rfl

/-- Storing a string behind one that is there, over its terminator, joins them. -/
theorem HoldsString.of_store (holds : block.Holds 0 front) (front_clean : 0 ∉ front) (clean : 0 ∉ text)
    (h : block.store front.length (text ++ [0]) = some stored) : stored.HoldsString (front ++ text) where
  clean := by
    rw [List.mem_append]
    exact not_or.2 ⟨front_clean, clean⟩
  bytes := by
    rw [List.append_assoc, holds_append, Nat.zero_add]
    exact ⟨holds.of_store_behind (by omega) h, holds_store h⟩

theorem HoldsString.of_strcpy (clean : 0 ∉ text) (h : block.strcpy text = some stored) :
    stored.HoldsString text :=
  @HoldsString.of_store block stored [] text ⟨Nat.zero_le _, nofun⟩ List.not_mem_nil clean h

theorem HoldsString.strcat_eq (holds : block.HoldsString front) (text : List UInt8) :
    block.strcat text = block.store front.length (text ++ [0]) := by
  rw [strcat, holds.strlen_eq]
  rfl

theorem HoldsString.of_strcat (holds : block.HoldsString front) (clean : 0 ∉ text)
    (h : block.strcat text = some stored) : stored.HoldsString (front ++ text) :=
  of_store (holds_append.1 holds.bytes).1 holds.clean clean (holds.strcat_eq text ▸ h)

theorem strcpy_isSome_iff : (∃ stored, block.strcpy text = some stored) ↔ text.length < block.size := by
  rw [strcpy, store_isSome_iff, List.length_append, List.length_singleton, Nat.zero_add, Nat.succ_le_iff]

theorem HoldsString.strcat_isSome_iff (holds : block.HoldsString front) :
    (∃ stored, block.strcat text = some stored) ↔ front.length + text.length < block.size := by
  rw [holds.strcat_eq, store_isSome_iff, List.length_append, List.length_singleton, ← Nat.add_assoc,
    Nat.succ_le_iff]

theorem size_of_strcpy (h : block.strcpy text = some stored) : stored.size = block.size := size_of_store h

theorem HoldsString.size_of_strcat (holds : block.HoldsString front) (h : block.strcat text = some stored) :
    stored.size = block.size :=
  size_of_store (holds.strcat_eq text ▸ h)

/-- The last character of a string that is not empty. -/
theorem HoldsString.load_last (holds : block.HoldsString text) (nonempty : text ≠ []) :
    block.load (text.length - 1) 1 = some [text.getLast nonempty] := by
  have length := List.length_pos_iff.2 nonempty
  have last := load_within holds.bytes (by
    show text.length - 1 + 1 ≤ _
    rw [List.length_append]
    omega)
  rw [Nat.zero_add, List.drop_append_of_le_length (by omega), List.drop_length_sub_one nonempty] at last
  exact last

end Block
