/-
Module: Unshield.Foundation.TotalCorrectness
Purpose: Procedures that return from every state of a precondition, in a state of the postcondition, with the
  rules that put such procedures together.
Trusted boundary: none
Main exports: Proc.Achieves, Proc.Achieves.bind, Proc.Achieves.iterate
-/
import Unshield.Foundation.Procedure

namespace Procedure

namespace Proc

variable {S α β γ : Type}

/-- Started in a state of `pre`, the procedure returns, with a value and a state of `post`. -/
def Achieves (pre : S → Prop) (proc : Proc S α) (post : α → S → Prop) : Prop :=
  ∀ s, pre s → ∃ value t, proc s = (.ret value, t) ∧ post value t

namespace Achieves

variable {pre : S → Prop} {post : α → S → Prop}

theorem pure {value : α} (holds : ∀ s, pre s → post value s) : Achieves pre (Pure.pure value) post :=
  fun s before => ⟨value, s, rfl, holds s before⟩

theorem bind {middle : α → S → Prop} {post : β → S → Prop} {first : Proc S α} {next : α → Proc S β}
    (one : Achieves pre first middle) (two : ∀ value, Achieves (middle value) (next value) post) :
    Achieves pre (first >>= next) post := by
  intro s before
  obtain ⟨value, between, run, holds⟩ := one s before
  obtain ⟨result, t, last, after⟩ := two value between holds
  exact ⟨result, t, (bind_of_ret run).trans last, after⟩

theorem weaken {pre' : S → Prop} {post' : α → S → Prop} {proc : Proc S α}
    (achieves : Achieves pre proc post) (before : ∀ s, pre' s → pre s)
    (after : ∀ value s, post value s → post' value s) : Achieves pre' proc post' := by
  intro s holds
  obtain ⟨value, t, run, reached⟩ := achieves s (before s holds)
  exact ⟨value, t, run, after value t reached⟩

/-- A loop returns if its turns do and each turn that is not the last one brings it to a smaller number. -/
theorem iterate {invariant : Nat → β → S → Prop} {post : γ → S → Prop} {body : β → Proc S (Turn β γ)}
    (turn : ∀ measure vars, Achieves (invariant measure vars) (body vars)
      (Turn.Meets (fun next t => ∃ smaller < measure, invariant smaller next t) post)) (fuel : Nat) :
    ∀ {measure : Nat} (vars : β), measure < fuel →
      Achieves (invariant measure vars) (Proc.iterate body fuel vars) post := by
  induction fuel with
  | zero =>
      intro measure vars enough
      cases enough
  | succ fuel ih =>
      intro measure vars enough
      apply bind (turn measure vars)
      intro outcome
      cases outcome with
      | again next =>
          rintro t ⟨smaller, lt, holds⟩
          exact ih next (by omega) t holds
      | done result => exact pure fun _ holds => holds

end Achieves

end Proc

end Procedure
