/-
Module: Unshield.Foundation.ReadingLoop
Purpose: Loops each of whose turns makes a few reads of a segmented stream: they return when all the
  reads succeed, and do not when one of them fails.
Trusted boundary: none
Main exports: SegmentedStream.iterate_reads, SegmentedStream.iterate_reads_iff
-/
import Unshield.Foundation.Procedure
import Unshield.Foundation.SegmentedStream

namespace SegmentedStream

open Procedure

variable {α S β γ : Type} {body : β → Proc S (Proc.Turn β γ)}
  {invariant : List (List Nat) → List α → List (List α) → β → S → Prop} {post : γ → S → Prop}

/-- The turns of a loop make the groups of reads, one after the other.  A turn whose reads succeed
keeps the invariant for the groups after it. -/
def TurnReads (body : β → Proc S (Proc.Turn β γ))
    (invariant : List (List Nat) → List α → List (List α) → β → S → Prop) : Prop :=
  ∀ {group : List Nat} {groups : List (List Nat)} {current : List α} {rest : List (List α)}
    {vars : β} {s : S}, invariant (group :: groups) current rest vars s →
    (readMany group current rest = none ∧ Proc.NoReturn (body vars) s) ∨
      ∃ data left after vars' t, readMany group current rest = some (data, left, after) ∧
        body vars s = (.ret (.again vars'), t) ∧ invariant groups left after vars' t

/-- After the last group the loop ends with what it is to establish. -/
def EndsWith (body : β → Proc S (Proc.Turn β γ))
    (invariant : List (List Nat) → List α → List (List α) → β → S → Prop) (post : γ → S → Prop) :
    Prop :=
  ∀ {current : List α} {rest : List (List α)} {vars : β} {s : S}, invariant [] current rest vars s →
    ∃ result t, body vars s = (.ret (.done result), t) ∧ post result t

theorem iterate_reads (turn : TurnReads body invariant) (ends : EndsWith body invariant post)
    (groups : List (List Nat)) :
    ∀ {current : List α} {rest : List (List α)} {vars : β} {s : S} {fuel : Nat},
      invariant groups current rest vars s → groups.length < fuel →
      (readMany groups.flatten current rest = none ∧
          Proc.NoReturn (Proc.iterate body fuel vars) s) ∨
        ∃ data left after result t, readMany groups.flatten current rest = some (data, left, after) ∧
          Proc.iterate body fuel vars s = (.ret result, t) ∧ post result t := by
  induction groups with
  | nil =>
      intro current rest vars s fuel holds enough
      obtain ⟨fuel, rfl⟩ := Nat.exists_eq_add_of_lt enough
      rcases ends holds with ⟨result, t, run, established⟩
      exact Or.inr ⟨[], current, rest, result, t, rfl, Proc.iterate_succ_of_done run, established⟩
  | cons group groups ih =>
      intro current rest vars s fuel holds enough
      obtain ⟨fuel, rfl⟩ := Nat.exists_eq_add_of_lt enough
      rw [List.flatten_cons]
      rcases turn holds with ⟨none, never⟩ | ⟨data, left, after, vars', t, some, run, holds'⟩
      · exact Or.inl ⟨readMany_append_of_none _ none, never.iterate _⟩
      · rw [readMany_append_of_some _ some]
        rcases ih holds' (Nat.lt_of_lt_of_le (Nat.lt_succ_self _) (Nat.le_add_right _ _)) with
          ⟨none, never⟩ | ⟨more, left', after', result, t', some', run', established⟩
        · exact Or.inl ⟨by rw [none]; rfl, .iterate_of_again run never⟩
        · rw [Proc.iterate_succ_of_again run]
          exact Or.inr ⟨data ++ more, left', after', result, t', by rw [some']; rfl, run', established⟩

/-- Such a loop over a solid stream returns exactly when no read but the first starts at the end of a
segment. -/
theorem iterate_reads_iff (turn : TurnReads body invariant) (ends : EndsWith body invariant post)
    {groups : List (List Nat)} {current : List α} {rest : List (List α)} {vars : β} {s : S}
    {fuel : Nat} (holds : invariant groups current rest vars s) (enough : groups.length < fuel)
    (positive : ∀ size ∈ groups.flatten, 0 < size) (some_left : current ≠ []) (solid : Solid rest)
    (fits : groups.flatten.sum ≤ (current ++ rest.flatten).length) :
    (AvoidsEnds (current :: rest) groups.flatten 0 ∧
        ∃ result t, Proc.iterate body fuel vars s = (.ret result, t) ∧ post result t) ∨
      (¬ AvoidsEnds (current :: rest) groups.flatten 0 ∧
        Proc.NoReturn (Proc.iterate body fuel vars) s) := by
  rw [← exists_readMany_iff positive some_left solid fits]
  rcases iterate_reads turn ends groups holds enough with
    ⟨none, never⟩ | ⟨data, left, after, result, t, some, run, established⟩
  · apply Or.inr
    refine ⟨?_, never⟩
    rintro ⟨_, _, _, some⟩
    rw [none] at some
    cases some
  · exact Or.inl ⟨⟨data, left, after, some⟩, result, t, run, established⟩

end SegmentedStream
