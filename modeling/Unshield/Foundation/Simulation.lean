/-
Module: Unshield.Foundation.Simulation
Purpose: A procedure that simulates another one over a state of another type: from related states on both
  end in the same way, with related values and in related states.
Trusted boundary: none
Main exports: Procedure.Exit.Rel, Procedure.Proc.Simulates, Simulates.bind, Simulates.iterate,
  Simulates.onFailure, Simulates.of_lockstep
-/
import Unshield.Foundation.Coupling

namespace Procedure

/-- Both computations end in the same way, and what they return is related. -/
inductive Exit.Rel {α β : Type} (V : α → β → Prop) : Exit α → Exit β → Prop where
  | ret {value : α} {value' : β} (related : V value value') : Rel V (.ret value) (.ret value')
  | fail : Rel V .fail .fail
  | abort : Rel V .abort .abort
  | fault : Rel V .fault .fault
  | timeout : Rel V .timeout .timeout

theorem Exit.Rel.refl {α : Type} {V : α → α → Prop} (each : ∀ value, V value value) (exit : Exit α) :
    Rel V exit exit := by
  cases exit with
  | ret value => exact .ret (each value)
  | fail => exact .fail
  | abort => exact .abort
  | fault => exact .fault
  | timeout => exact .timeout

theorem Exit.Rel.eq {α : Type} {exit exit' : Exit α} (related : Rel Eq exit exit') : exit = exit' := by
  cases related with
  | ret same => exact congrArg Exit.ret same
  | fail => rfl
  | abort => rfl
  | fault => rfl
  | timeout => rfl

namespace Proc

variable {S S' α α' β β' γ γ' : Type}

/-- From states that `R` relates, both procedures end in the same way, with values that `V` relates and
again in related states. -/
def Simulates (R : S → S' → Prop) (V : α → α' → Prop) (first : Proc S α) (second : Proc S' α') : Prop :=
  ∀ s s', R s s' → Exit.Rel V (first s).1 (second s').1 ∧ R (first s).2 (second s').2

/-- The turns of two loops: both go on with related variables, or both are done. -/
inductive Turn.Rel (B : β → β' → Prop) (C : γ → γ' → Prop) : Turn β γ → Turn β' γ' → Prop where
  | again {next : β} {next' : β'} (related : B next next') : Rel B C (.again next) (.again next')
  | done {result : γ} {result' : γ'} (related : C result result') :
      Rel B C (.done result) (.done result')

namespace Simulates

variable {R : S → S' → Prop} {V : α → α' → Prop} {W : β → β' → Prop}

theorem bind {first : Proc S α} {second : Proc S' α'} {next : α → Proc S β} {next' : α' → Proc S' β'}
    (one : Simulates R V first second)
    (two : ∀ value value', V value value' → Simulates R W (next value) (next' value')) :
    Simulates R W (first >>= next) (second >>= next') := by
  intro s s' related
  obtain ⟨exits, states⟩ := one s s' related
  show Exit.Rel W (Proc.bind first next s).1 (Proc.bind second next' s').1 ∧
    R (Proc.bind first next s).2 (Proc.bind second next' s').2
  rw [Proc.bind, Proc.bind]
  revert exits states
  rcases first s with ⟨exit, t⟩
  rcases second s' with ⟨exit', t'⟩
  intro exits states
  cases exits with
  | ret values => exact two _ _ values t t' states
  | fail => exact ⟨.fail, states⟩
  | abort => exact ⟨.abort, states⟩
  | fault => exact ⟨.fault, states⟩
  | timeout => exact ⟨.timeout, states⟩

theorem pure {value : α} {value' : α'} (related : V value value') :
    Simulates R V (Pure.pure value) (Pure.pure value') :=
  fun _ _ states => ⟨.ret related, states⟩

theorem fail : Simulates R V Proc.fail Proc.fail := fun _ _ states => ⟨.fail, states⟩

theorem ofExit {result : Exit α} {result' : Exit α'} (related : Exit.Rel V result result') :
    Simulates R V (Proc.ofExit result) (Proc.ofExit result') :=
  fun _ _ states => ⟨related, states⟩

/-- A computation that does not touch the state gives the same on both sides. -/
theorem same (result : Exit α) : Simulates R Eq (Proc.ofExit result) (Proc.ofExit result) :=
  ofExit (.refl (fun _ => rfl) result)

/-- What follows a computation that does not touch the state matters only for the value it returns. -/
theorem ofExit_bind {result : Exit α} {next : α → Proc S β} {next' : α → Proc S' β'}
    (each : ∀ value, result = .ret value → Simulates R W (next value) (next' value)) :
    Simulates R W (Proc.ofExit result >>= next) (Proc.ofExit result >>= next') := by
  cases result with
  | ret value => exact each value rfl
  | fail => exact fun _ _ states => ⟨.fail, states⟩
  | abort => exact fun _ _ states => ⟨.abort, states⟩
  | fault => exact fun _ _ states => ⟨.fault, states⟩
  | timeout => exact fun _ _ states => ⟨.timeout, states⟩

theorem access (value : Option α) : Simulates R Eq (Proc.access value) (Proc.access value) := same _

theorem require (condition : Prop) [Decidable condition] :
    Simulates R Eq (Proc.require condition) (Proc.require condition) := by
  by_cases holds : condition
  · rw [Proc.require, Proc.require, if_pos holds, if_pos holds]
    exact pure rfl
  · rw [Proc.require, Proc.require, if_neg holds, if_neg holds]
    exact fail

theorem gets {view : S → α} {view' : S' → α'} (related : ∀ s s', R s s' → V (view s) (view' s')) :
    Simulates R V (Proc.gets view) (Proc.gets view') :=
  fun s s' states => ⟨.ret (related s s' states), states⟩

theorem modify {update : S → S} {update' : S' → S'} (keeps : ∀ s s', R s s' → R (update s) (update' s')) :
    Simulates R Eq (Proc.modify update) (Proc.modify update') :=
  fun s s' states => ⟨.ret rfl, keeps s s' states⟩

theorem ite {condition : Prop} [Decidable condition] {one two : Proc S α} {one' two' : Proc S' α'}
    (first : condition → Simulates R V one one') (second : ¬ condition → Simulates R V two two') :
    Simulates R V (if condition then one else two) (if condition then one' else two') := by
  by_cases holds : condition
  · rw [if_pos holds, if_pos holds]
    exact first holds
  · rw [if_neg holds, if_neg holds]
    exact second holds

/-- Loops with related variables simulate each other if their turns do. -/
theorem iterate {B : β → β' → Prop} {C : γ → γ' → Prop} {body : β → Proc S (Turn β γ)}
    {body' : β' → Proc S' (Turn β' γ')}
    (turn : ∀ vars vars', B vars vars' → Simulates R (Turn.Rel B C) (body vars) (body' vars')) :
    ∀ (fuel : Nat) (vars : β) (vars' : β'), B vars vars' →
      Simulates R C (Proc.iterate body fuel vars) (Proc.iterate body' fuel vars') := by
  intro fuel
  induction fuel with
  | zero => exact fun _ _ _ _ _ states => ⟨.timeout, states⟩
  | succ fuel ih =>
      intro vars vars' related
      refine bind (turn vars vars' related) fun outcome outcome' outcomes => ?_
      cases outcomes with
      | again next => exact ih _ _ next
      | done result => exact pure result

/-- Loops with the same variables. -/
theorem iterate_eq {body : β → Proc S (Turn β γ)} {body' : β → Proc S' (Turn β γ)}
    (turn : ∀ vars, Simulates R Eq (body vars) (body' vars)) (fuel : Nat) (vars : β) :
    Simulates R Eq (Proc.iterate body fuel vars) (Proc.iterate body' fuel vars) := by
  refine iterate (B := Eq) ?_ fuel vars vars rfl
  rintro vars _ rfl s s' states
  obtain ⟨exits, after⟩ := turn vars s s' states
  refine ⟨?_, after⟩
  rw [exits.eq]
  refine .refl (fun outcome => ?_) _
  cases outcome with
  | again next => exact .again rfl
  | done result => exact .done rfl

theorem onFailure {proc handler : Proc S α} {proc' handler' : Proc S' α'}
    (one : Simulates R V proc proc') (two : Simulates R V handler handler') :
    Simulates R V (Proc.onFailure proc handler) (Proc.onFailure proc' handler') := by
  intro s s' related
  obtain ⟨exits, states⟩ := one s s' related
  rw [Proc.onFailure, Proc.onFailure]
  revert exits states
  rcases proc s with ⟨exit, t⟩
  rcases proc' s' with ⟨exit', t'⟩
  intro exits states
  cases exits with
  | fail => exact two t t' states
  | ret values => exact ⟨.ret values, states⟩
  | abort => exact ⟨.abort, states⟩
  | fault => exact ⟨.fault, states⟩
  | timeout => exact ⟨.timeout, states⟩

/-- Procedures in lockstep from which nothing gets lost simulate each other. -/
theorem of_lockstep {first : Proc S α} {second : Proc S' α}
    (lockstep : Lockstep (fun _ => False) R first second) : Simulates R Eq first second := by
  intro s s' related
  obtain ⟨same, states⟩ := lockstep.run related
  rw [same]
  exact ⟨.refl (fun _ => rfl) _, states⟩

theorem toLockstep {first : Proc S α} {second : Proc S' α} (simulates : Simulates R Eq first second) :
    Lockstep (fun _ => False) R first second where
  stays := fun _ gone => gone
  agree := fun s s' related => .inr ⟨(simulates s s' related).1.eq, (simulates s s' related).2⟩

end Simulates

end Proc

end Procedure
