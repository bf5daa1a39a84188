/-
Module: Unshield.Foundation.CountedLoop
Purpose: Loops that count: every turn hands on the next index until the index is behind the last one.  Such
  a loop comes to each index once and in order, and it returns unless one of its turns does not.
Trusted boundary: none
Main exports: Procedure.Proc.Counts, Counts.index_of_tally, Counts.visits_each, Counts.returns_or_lost
-/
import Unshield.Foundation.Procedure

namespace Procedure.Proc

variable {S β γ : Type}

/-- The loop counts `index` up by one and ends behind `last`. -/
structure Counts (body : β → Proc S (Turn β γ)) (index : β → Int) (last : Int) : Prop where
  /-- A turn that goes on counts. -/
  steps : ∀ vars s next t, body vars s = (.ret (.again next), t) → index next = index vars + 1
  /-- A turn that ends the loop is behind the last index. -/
  late : ∀ vars s result t, body vars s = (.ret (.done result), t) → last < index vars
  /-- Behind the last index the loop ends. -/
  ends : ∀ vars s, last < index vars → ∃ result t, body vars s = (.ret (.done result), t)

namespace Counts

variable {body : β → Proc S (Turn β γ)} {index : β → Int} {last : Int} {vars next : β} {s t : S}

/-- The index says how many turns the loop has taken. -/
theorem index_of_tally (counts : Counts body index last) {turns : Nat}
    (tally : Tally body (fun _ _ => 1) vars s turns next t) : index next = index vars + turns := by
  induction tally with
  | start => exact (Int.add_zero _).symm
  | again _ turn ih =>
      rw [counts.steps _ _ _ _ turn, ih, Int.natCast_add, Int.add_assoc]
      rfl

theorem index_le_of_visits (counts : Counts body index last) (visits : Visits body vars s next t) :
    index vars ≤ index next := by
  obtain ⟨turns, tally⟩ := visits.tally fun _ _ => 1
  have sum := counts.index_of_tally tally
  omega

/-- On its way to an index the loop comes to every index before. -/
theorem visits_each (counts : Counts body index last) (visits : Visits body vars s next t) {i : Int}
    (behind : index vars ≤ i) (before : i ≤ index next) :
    ∃ between u, Visits body vars s between u ∧ index between = i := by
  induction visits with
  | start => exact ⟨vars, s, .start, Int.le_antisymm behind before⟩
  | @again middle next u u' earlier turn ih =>
      have step := counts.steps middle u next u' turn
      by_cases reached : i ≤ index middle
      · exact ih reached
      · exact ⟨next, u', .again earlier turn, by omega⟩

/-- A loop that returns has gone behind the last index. -/
theorem visits_behind (counts : Counts body index last) {fuel : Nat} {result : γ}
    (returned : iterate body fuel vars s = (.ret result, t)) :
    ∃ final u, Visits body vars s final u ∧ last < index final := by
  obtain ⟨final, u, visits, done⟩ := Visits.of_iterate fuel returned
  exact ⟨final, u, visits, counts.late final u result t done⟩

/-- With fuel for each index the loop returns, unless a turn that it comes to does not. -/
theorem returns_or_lost (counts : Counts body index last) (fuel : Nat) : ∀ {vars : β} {s : S},
    (last + 1 - index vars).toNat < fuel →
      (∃ result t, iterate body fuel vars s = (.ret result, t)) ∨
        ∃ next t, Visits body vars s next t ∧ index next ≤ last ∧
          ∀ outcome t', body next t ≠ (.ret outcome, t') := by
  induction fuel with
  | zero => exact fun enough => absurd enough (Nat.not_lt_zero _)
  | succ fuel ih =>
      intro vars s enough
      by_cases behind : last < index vars
      · obtain ⟨result, t, done⟩ := counts.ends vars s behind
        exact .inl ⟨result, t, iterate_succ_of_done done⟩
      by_cases lost : ∀ outcome t', body vars s ≠ (.ret outcome, t')
      · exact .inr ⟨vars, s, .start, Int.not_lt.1 behind, lost⟩
      simp only [ne_eq, not_forall, not_not] at lost
      obtain ⟨outcome, t', turn⟩ := lost
      cases outcome with
      | done result => exact absurd (counts.late vars s result t' turn) behind
      | again next =>
          have step := counts.steps vars s next t' turn
          rw [iterate_succ_of_again turn]
          rcases @ih next t' (by omega) with returned | ⟨later, u, visits, going, lost⟩
          · exact .inl returned
          · exact .inr ⟨later, u, visits.head turn, going, lost⟩

end Counts

end Procedure.Proc
