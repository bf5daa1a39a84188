/-
Module: Unshield.Foundation.Halting
Purpose: Procedures that do not end in a given way, such as by a failed assertion or for lack of fuel, and
  the rule for loops: a loop ends if every turn brings it down in some measure and there is fuel for each
  step of it.
Trusted boundary: none
Main exports: Procedure.Stop, Procedure.Proc.Avoids, Avoids.bind, Avoids.iterate, Procedure.Proc.Halts,
  Halts.iterate
-/
import Unshield.Foundation.Procedure

namespace Procedure

/-- The ways to end without a value. -/
inductive Stop where
  | fail
  | abort
  | fault
  | timeout
deriving Repr, DecidableEq

def Stop.exit {α : Type} : Stop → Exit α
  | fail => .fail
  | abort => .abort
  | fault => .fault
  | timeout => .timeout

/-- Not an outcome of the steps that a procedure takes, other than assertions and loops. -/
def Stop.Rare (stop : Stop) : Prop := stop = .abort ∨ stop = .timeout

theorem Stop.abort_rare : Stop.abort.Rare := .inl rfl

theorem Stop.timeout_rare : Stop.timeout.Rare := .inr rfl

theorem Stop.abort_ne_timeout : Stop.abort ≠ .timeout := nofun

namespace Exit

variable {α β : Type} {stop : Stop}

theorem ret_ne_stop (value : α) : (.ret value : Exit α) ≠ stop.exit := by
  cases stop <;> exact nofun

theorem fail_ne_stop (rare : stop.Rare) : (.fail : Exit α) ≠ stop.exit := by
  rcases rare with rfl | rfl <;> exact nofun

theorem fault_ne_stop (rare : stop.Rare) : (.fault : Exit α) ≠ stop.exit := by
  rcases rare with rfl | rfl <;> exact nofun

theorem ofAccess_ne_stop (rare : stop.Rare) (loaded : Option α) : ofAccess loaded ≠ stop.exit := by
  rcases rare with rfl | rfl <;> cases loaded <;> exact nofun

/-- A composition that stops has stopped in its first part or behind it. -/
theorem bind_eq_stop_iff {first : Exit α} {next : α → Exit β} :
    (first >>= next) = stop.exit ↔
      first = stop.exit ∨ ∃ value, first = .ret value ∧ next value = stop.exit := by
  show bind first next = _ ↔ _
  cases stop <;> cases first <;> simp [bind, Stop.exit]

theorem bind_ne_stop {first : Exit α} {next : α → Exit β} (one : first ≠ stop.exit)
    (two : ∀ value, first = .ret value → next value ≠ stop.exit) : (first >>= next) ≠ stop.exit := by
  intro stops
  rcases bind_eq_stop_iff.1 stops with stops | ⟨value, returned, stops⟩
  · exact one stops
  · exact two value returned stops

end Exit

namespace Proc

variable {S α β γ : Type}

/-- Started in a state of `pre`, the procedure does not end like that. -/
def Avoids (stop : Stop) (pre : S → Prop) (proc : Proc S α) : Prop := ∀ s, pre s → (proc s).1 ≠ stop.exit

namespace Avoids

variable {stop : Stop} {pre : S → Prop}

theorem pure (value : α) : Avoids stop pre (Pure.pure value) := fun _ _ => Exit.ret_ne_stop value

theorem gets (view : S → α) : Avoids stop pre (Proc.gets view) := fun s _ => Exit.ret_ne_stop (view s)

theorem modify (update : S → S) : Avoids stop pre (Proc.modify update) := fun _ _ => Exit.ret_ne_stop ()

theorem ofExit {result : Exit α} (other : result ≠ stop.exit) : Avoids stop pre (Proc.ofExit result) :=
  fun _ _ => other

theorem fail (rare : stop.Rare) : Avoids stop pre (Proc.fail : Proc S α) :=
  fun _ _ => Exit.fail_ne_stop rare

theorem access (rare : stop.Rare) (value : Option α) : Avoids stop pre (Proc.access value) :=
  ofExit (Exit.ofAccess_ne_stop rare value)

theorem ite {condition : Prop} [Decidable condition] {one two : Proc S α}
    (first : condition → Avoids stop pre one) (second : ¬ condition → Avoids stop pre two) :
    Avoids stop pre (if condition then one else two) := by
  by_cases holds : condition
  · rw [if_pos holds]
    exact first holds
  · rw [if_neg holds]
    exact second holds

theorem require (rare : stop.Rare) (condition : Prop) [Decidable condition] :
    Avoids stop pre (Proc.require condition) :=
  ite (fun _ => pure ()) fun _ => fail rare

/-- What follows has to avoid the exit only in the states that the first part returns in. -/
theorem bind {middle : α → S → Prop} {first : Proc S α} {next : α → Proc S β}
    (one : Avoids stop pre first) (ensures : Ensures pre first middle)
    (two : ∀ value, Avoids stop (middle value) (next value)) : Avoids stop pre (first >>= next) := by
  intro s holds
  have avoids := one s holds
  have returned := fun value t => ensures s value t holds
  show (Proc.bind first next s).1 ≠ _
  rw [Proc.bind]
  revert avoids returned
  rcases first s with ⟨exit, t⟩
  intro avoids returned
  cases exit with
  | ret value => exact two value t (returned value t rfl)
  | fail =>
      intro stops
      cases stop <;> first | exact avoids rfl | cases stops
  | abort =>
      intro stops
      cases stop <;> first | exact avoids rfl | cases stops
  | fault =>
      intro stops
      cases stop <;> first | exact avoids rfl | cases stops
  | timeout =>
      intro stops
      cases stop <;> first | exact avoids rfl | cases stops

/-- Nothing has to be known of where the first part ends. -/
theorem then_any {first : Proc S α} {next : α → Proc S β} (one : Avoids stop pre first)
    (two : ∀ value, Avoids stop (fun _ => True) (next value)) : Avoids stop pre (first >>= next) :=
  bind one (fun _ _ _ _ _ => trivial) two

theorem onFailure {proc handler : Proc S α} (one : Avoids stop pre proc)
    (two : Avoids stop (fun _ => True) handler) : Avoids stop pre (Proc.onFailure proc handler) := by
  intro s holds
  have avoids := one s holds
  rw [Proc.onFailure]
  rcases run : proc s with ⟨exit, s'⟩
  rw [run] at avoids
  cases exit with
  | fail => exact two s' trivial
  | ret value => exact avoids
  | abort => exact avoids
  | fault => exact avoids
  | timeout => exact avoids

/-- A loop avoids what its turns avoid, unless that is to use up the fuel. -/
theorem iterate {body : β → Proc S (Turn β γ)} (other : stop ≠ .timeout)
    (turn : ∀ vars, Avoids stop (fun _ => True) (body vars)) (fuel : Nat) (vars : β) :
    Avoids stop pre (Proc.iterate body fuel vars) := by
  have any : ∀ vars, Avoids stop (fun _ => True) (Proc.iterate body fuel vars) := by
    induction fuel with
    | zero =>
        intro vars s _ stops
        cases stop <;> first | exact other rfl | cases stops
    | succ fuel ih =>
        intro vars
        refine then_any (turn vars) fun outcome => ?_
        cases outcome with
        | again next => exact ih next
        | done result => exact pure result
  exact fun s _ => any vars s trivial

end Avoids

/-- Started in a state of `pre`, the procedure ends, in whatever way. -/
def Halts (pre : S → Prop) (proc : Proc S α) : Prop := ∀ s, pre s → (proc s).1 ≠ .timeout

theorem halts_iff_avoids {pre : S → Prop} {proc : Proc S α} : Halts pre proc ↔ Avoids .timeout pre proc :=
  Iff.rfl

namespace Halts

variable {pre : S → Prop}

theorem pure (value : α) : Halts pre (Pure.pure value) := halts_iff_avoids.2 (.pure value)

theorem gets (view : S → α) : Halts pre (Proc.gets view) := halts_iff_avoids.2 (.gets view)

theorem ofExit {result : Exit α} (ends : result ≠ .timeout) : Halts pre (Proc.ofExit result) :=
  halts_iff_avoids.2 (.ofExit ends)

theorem access (value : Option α) : Halts pre (Proc.access value) :=
  halts_iff_avoids.2 (.access Stop.timeout_rare value)

theorem require (condition : Prop) [Decidable condition] : Halts pre (Proc.require condition) :=
  halts_iff_avoids.2 (.require Stop.timeout_rare condition)

theorem ite {condition : Prop} [Decidable condition] {one two : Proc S α}
    (first : condition → Halts pre one) (second : ¬ condition → Halts pre two) :
    Halts pre (if condition then one else two) :=
  halts_iff_avoids.2 (.ite first second)

/-- What follows has to end only in the states that the first part returns in. -/
theorem bind {middle : α → S → Prop} {first : Proc S α} {next : α → Proc S β} (one : Halts pre first)
    (ensures : Ensures pre first middle) (two : ∀ value, Halts (middle value) (next value)) :
    Halts pre (first >>= next) :=
  halts_iff_avoids.2 (.bind one ensures two)

/-- Nothing has to be known of where the first part ends. -/
theorem then_any {first : Proc S α} {next : α → Proc S β} (one : Halts pre first)
    (two : ∀ value, Halts (fun _ => True) (next value)) : Halts pre (first >>= next) :=
  halts_iff_avoids.2 (.then_any one two)

theorem onFailure {proc handler : Proc S α} (one : Halts pre proc) (two : Halts (fun _ => True) handler) :
    Halts pre (Proc.onFailure proc handler) :=
  halts_iff_avoids.2 (.onFailure one two)

/-- A loop ends if its turns do and each turn that is not the last one brings it to a smaller number. -/
theorem iterate {invariant : Nat → β → S → Prop} {body : β → Proc S (Turn β γ)}
    (turn : ∀ measure vars, Halts (invariant measure vars) (body vars))
    (less : ∀ measure vars, Ensures (invariant measure vars) (body vars)
      (Turn.Meets (fun next t => ∃ smaller < measure, invariant smaller next t) fun _ _ => True))
    (fuel : Nat) : ∀ {measure : Nat} (vars : β), measure < fuel →
      Halts (invariant measure vars) (Proc.iterate body fuel vars) := by
  induction fuel with
  | zero =>
      intro measure vars enough
      cases enough
  | succ fuel ih =>
      intro measure vars enough
      apply bind (turn measure vars) (less measure vars)
      intro outcome
      cases outcome with
      | again next =>
          rintro t ⟨smaller, lt, holds⟩
          exact ih next (by omega) t holds
      | done result => exact pure result

end Halts

end Proc

end Procedure
