/-
Module: Unshield.Foundation.Buffer
Purpose: Bounds-checked stores into a fixed block of memory and the effect of a run of them.
Trusted boundary: none
Main exports: Buffer.store, Buffer.overwrite, Buffer.overwrite_append, Buffer.store_overwrite
-/
import Mathlib.Data.List.Basic

namespace Buffer

variable {α : Type}

/-- Store one unit; `none` is a store outside the block. -/
def store (block : List α) (index : Nat) (value : α) : Option (List α) :=
  if index < block.length then some (block.set index value) else none

/-- The block with `units` in place of what stood from `index` on. -/
def overwrite (block : List α) (index : Nat) (units : List α) : List α :=
  block.take index ++ units ++ block.drop (index + units.length)

@[simp] theorem overwrite_nil (block : List α) (index : Nat) : overwrite block index [] = block := by
  simp [overwrite]

theorem length_overwrite (block : List α) (index : Nat) (units : List α)
    (fits : index + units.length ≤ block.length) :
    (overwrite block index units).length = block.length := by
  simp only [overwrite, List.length_append, List.length_take, List.length_drop]
  omega

theorem overwrite_append {block : List α} {index : Nat} {first second : List α}
    (fits : index + first.length ≤ block.length) :
    overwrite (overwrite block index first) (index + first.length) second =
      overwrite block index (first ++ second) := by
  have front : (block.take index ++ first).length = index + first.length := by
    rw [List.length_append, List.length_take]
    omega
  simp only [overwrite]
  rw [List.take_append_of_le_length (by omega), List.take_of_length_le (by omega),
    List.drop_append, List.drop_of_length_le (by omega), front, List.drop_drop]
  simp only [List.append_assoc, List.nil_append, List.length_append]
  congr 4
  omega

/-- Stores made from the back to the front of a stretch build the same block as overwriting it. -/
theorem store_overwrite (block : List α) (index : Nat) (value : α) (units : List α)
    (fits : index + 1 + units.length ≤ block.length) :
    store (overwrite block (index + 1) units) index value =
      some (overwrite block index (value :: units)) := by
  have size := length_overwrite block (index + 1) units fits
  rw [store, if_pos (by omega)]
  congr 1
  apply List.ext_getElem?
  intro i
  simp only [overwrite, List.getElem?_set, List.append_assoc, List.getElem?_append,
    List.getElem?_take, List.length_take, List.getElem?_drop, List.getElem?_cons, List.length_cons,
    List.length_append, List.length_drop]
  grind

end Buffer
