/-
Module: Unshield.Foundation.BlockStream
Purpose: A stream that is taken in by blocks of one size: the state after the whole blocks of a string,
  the incomplete block behind them, and how both go together when a string comes in pieces.
Trusted boundary: none
Main exports: BlockStream.run, BlockStream.absorb, BlockStream.rest, BlockStream.absorb_append,
  BlockStream.rest_append, BlockStream.absorb_of_lt
-/
import Mathlib.Data.List.Basic

namespace BlockStream

variable {α State : Type} (size : Nat) (process : State → List α → State)

/-- The state after the first `count` blocks. -/
def run : Nat → State → List α → State
  | 0, state, _ => state
  | count + 1, state, data => run count (process state (data.take size)) (data.drop size)

/-- The state after all blocks of a string that are complete. -/
def absorb (state : State) (data : List α) : State := run size process (data.length / size) state data

/-- What is behind the last complete block. -/
def rest (data : List α) : List α := data.drop (data.length / size * size)

variable {size}

/-! ### Incomplete blocks -/

theorem length_rest (data : List α) : (rest size data).length = data.length % size := by
  have split := Nat.div_add_mod data.length size
  rw [Nat.mul_comm] at split
  rw [rest, List.length_drop]
  omega

theorem rest_of_lt {data : List α} (short : data.length < size) : rest size data = data := by
  rw [rest, Nat.div_eq_of_lt short, Nat.zero_mul, List.drop_zero]

variable {process}

theorem absorb_of_lt {data : List α} (short : data.length < size) (state : State) :
    absorb size process state data = state := by
  rw [absorb, Nat.div_eq_of_lt short, run]

/-! ### One block after the other -/

/-- A block that is complete is processed first. -/
theorem absorb_of_le (positive : 0 < size) {data : List α} (full : size ≤ data.length)
    (state : State) :
    absorb size process state data =
      absorb size process (process state (data.take size)) (data.drop size) := by
  rw [absorb, absorb, List.length_drop, Nat.div_eq_sub_div positive full, run]

theorem rest_of_le (positive : 0 < size) {data : List α} (full : size ≤ data.length) :
    rest size data = rest size (data.drop size) := by
  rw [rest, rest, List.drop_drop, List.length_drop, Nat.div_eq_sub_div positive full]
  congr 1
  rw [Nat.add_mul, Nat.one_mul, Nat.add_comm]

theorem absorb_block_append {block data : List α} (positive : 0 < size)
    (full : block.length = size) (state : State) :
    absorb size process state (block ++ data) = absorb size process (process state block) data := by
  rw [absorb_of_le positive (by rw [List.length_append]; omega), ← full, List.take_left,
    List.drop_left]

theorem rest_block_append {block data : List α} (positive : 0 < size) (full : block.length = size) :
    rest size (block ++ data) = rest size data := by
  rw [rest_of_le positive (by rw [List.length_append]; omega), ← full, List.drop_left]

/-- An induction on the number of complete blocks. -/
theorem block_induction {motive : List α → Prop} (positive : 0 < size)
    (short : ∀ data, data.length < size → motive data)
    (block : ∀ block data, block.length = size → motive data → motive (block ++ data)) :
    ∀ data, motive data := by
  intro data
  generalize enough : data.length = length
  induction length using Nat.strongRecOn generalizing data with
  | ind length ih =>
      by_cases full : size ≤ data.length
      · rw [← List.take_append_drop size data]
        refine block _ _ (List.length_take_of_le full) (ih _ ?_ _ rfl)
        rw [List.length_drop]
        omega
      · exact short data (Nat.lt_of_not_le full)

/-! ### Strings in pieces -/

/-- A string that goes on is taken in from the incomplete block on. -/
theorem absorb_append (positive : 0 < size) (one two : List α) : ∀ state : State,
    absorb size process state (one ++ two) =
      absorb size process (absorb size process state one) (rest size one ++ two) := by
  induction one using block_induction positive with
  | short one short =>
      intro state
      rw [rest_of_lt short, absorb_of_lt short]
  | block block one full ih =>
      intro state
      rw [List.append_assoc, absorb_block_append positive full, absorb_block_append positive full,
        rest_block_append positive full]
      exact ih _

theorem rest_append (positive : 0 < size) (one two : List α) :
    rest size (one ++ two) = rest size (rest size one ++ two) := by
  induction one using block_induction positive with
  | short one short => rw [rest_of_lt short]
  | block block one full ih =>
      rw [List.append_assoc, rest_block_append positive full, rest_block_append positive full]
      exact ih

end BlockStream
