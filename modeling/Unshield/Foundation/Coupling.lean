/-
Module: Unshield.Foundation.Coupling
Purpose: Two procedures side by side: they end in the same way and in related states, unless the second
  one has come into a state that it does not get out of.
Trusted boundary: none
Main exports: Procedure.Proc.Couples, Couples.bind, Lockstep, Lockstep.bind, Lockstep.onFailure,
  Lockstep.iterate, Mirrors
-/
import Unshield.Foundation.Procedure

namespace Procedure

namespace Proc

variable {S S' α β γ : Type}

/-- From states that `pre` relates, both procedures end in the same way and in states that `post`
relates, or else the second one is `lost`, and what is lost stays lost. -/
structure Couples (lost : S' → Prop) (pre : S → S' → Prop) (first : Proc S α) (second : Proc S' α)
    (post : S → S' → Prop) : Prop where
  stays : Preserves lost second
  agree : ∀ s s', pre s s' →
    lost (second s').2 ∨ (first s).1 = (second s').1 ∧ post (first s).2 (second s').2

/-- Both procedures keep their states related. -/
abbrev Lockstep (lost : S' → Prop) (R : S → S' → Prop) (first : Proc S α) (second : Proc S' α) : Prop :=
  Couples lost R first second R

variable {lost : S' → Prop} {pre post : S → S' → Prop}

/-- What follows starts in related states, with a result such as the first procedure can return.  Where
nothing follows, the states have to be enough. -/
theorem Couples.bind_of_ensures {middle : S → S' → Prop} {start : S → Prop} {found : α → Prop}
    {first : Proc S α} {second : Proc S' α} {next : α → Proc S β} {next' : α → Proc S' β}
    (one : Couples lost pre first second middle) (starts : ∀ s s', pre s s' → start s)
    (ensures : Ensures start first fun value _ => found value) (ended : ∀ s s', middle s s' → post s s')
    (stays : ∀ value, Preserves lost (next' value))
    (two : ∀ value, found value → Couples lost middle (next value) (next' value) post) :
    Couples lost pre (first >>= next) (second >>= next') post where
  stays := one.stays.bind stays
  agree := by
    intro s s' related
    have halfway := one.agree s s' related
    have returned := ensures s
    show lost (Proc.bind second next' s').2 ∨
      (Proc.bind first next s).1 = (Proc.bind second next' s').1 ∧
        post (Proc.bind first next s).2 (Proc.bind second next' s').2
    rw [Proc.bind, Proc.bind]
    revert halfway returned
    rcases first s with ⟨exit, t⟩
    rcases second s' with ⟨exit', t'⟩
    rintro (gone | ⟨same, related'⟩) returned
    · apply Or.inl
      cases exit' with
      | ret value => exact stays value t' gone
      | fail => exact gone
      | abort => exact gone
      | fault => exact gone
      | timeout => exact gone
    · simp only at same
      subst same
      cases exit with
      | ret value => exact (two value (returned value t (starts s s' related) rfl)).agree t t' related'
      | fail => exact Or.inr ⟨rfl, ended t t' related'⟩
      | abort => exact Or.inr ⟨rfl, ended t t' related'⟩
      | fault => exact Or.inr ⟨rfl, ended t t' related'⟩
      | timeout => exact Or.inr ⟨rfl, ended t t' related'⟩

theorem Couples.bind {middle : S → S' → Prop} {first : Proc S α} {second : Proc S' α}
    {next : α → Proc S β} {next' : α → Proc S' β} (one : Couples lost pre first second middle)
    (ended : ∀ s s', middle s s' → post s s')
    (two : ∀ value, Couples lost middle (next value) (next' value) post) :
    Couples lost pre (first >>= next) (second >>= next') post :=
  one.bind_of_ensures (fun _ _ _ => trivial) (fun _ _ _ _ _ => trivial) ended
    (fun value => (two value).stays) fun value _ => two value

theorem Couples.ite {condition : Prop} [Decidable condition] {one two : Proc S α} {one' two' : Proc S' α}
    (first : condition → Couples lost pre one one' post)
    (second : ¬ condition → Couples lost pre two two' post) :
    Couples lost pre (if condition then one else two) (if condition then one' else two') post := by
  by_cases holds : condition
  · rw [if_pos holds, if_pos holds]
    exact first holds
  · rw [if_neg holds, if_neg holds]
    exact second holds

theorem Couples.weaken {post' : S → S' → Prop} {first : Proc S α} {second : Proc S' α}
    (couples : Couples lost pre first second post) (ended : ∀ s s', post s s' → post' s s') :
    Couples lost pre first second post' where
  stays := couples.stays
  agree := fun s s' related => (couples.agree s s' related).imp_right fun agreed =>
    ⟨agreed.1, ended _ _ agreed.2⟩

theorem Couples.strengthen {pre' : S → S' → Prop} {first : Proc S α} {second : Proc S' α}
    (couples : Couples lost pre first second post) (starts : ∀ s s', pre' s s' → pre s s') :
    Couples lost pre' first second post where
  stays := couples.stays
  agree := fun s s' related => couples.agree s s' (starts s s' related)

/-- A procedure agrees with itself from the same state on. -/
theorem Couples.refl {lost : S → Prop} {I : S → Prop} {proc : Proc S α} (stays : Preserves lost proc)
    (keeps : Preserves I proc) :
    Lockstep lost (fun s s' => s = s' ∧ I s) proc proc where
  stays := stays
  agree := by
    rintro s _ ⟨rfl, holds⟩
    exact Or.inr ⟨rfl, rfl, keeps s holds⟩

namespace Lockstep

variable {R : S → S' → Prop}

theorem bind {first : Proc S α} {second : Proc S' α} {next : α → Proc S β} {next' : α → Proc S' β}
    (one : Lockstep lost R first second) (two : ∀ value, Lockstep lost R (next value) (next' value)) :
    Lockstep lost R (first >>= next) (second >>= next') :=
  Couples.bind one (fun _ _ related => related) two

theorem pure (value : α) : Lockstep lost R (Pure.pure value) (Pure.pure value) where
  stays := .pure value
  agree := fun _ _ related => Or.inr ⟨rfl, related⟩

theorem fail : Lockstep lost R (Proc.fail : Proc S α) Proc.fail where
  stays := .fail
  agree := fun _ _ related => Or.inr ⟨rfl, related⟩

theorem ofExit (result : Exit α) : Lockstep lost R (Proc.ofExit result) (Proc.ofExit result) where
  stays := .ofExit result
  agree := fun _ _ related => Or.inr ⟨rfl, related⟩

theorem access (value : Option α) : Lockstep lost R (Proc.access value) (Proc.access value) :=
  ofExit _

theorem require (condition : Prop) [Decidable condition] :
    Lockstep lost R (Proc.require condition) (Proc.require condition) := by
  by_cases holds : condition
  · rw [Proc.require, Proc.require, if_pos holds, if_pos holds]
    exact pure ()
  · rw [Proc.require, Proc.require, if_neg holds, if_neg holds]
    exact fail

/-- A projection that does not tell related states apart. -/
theorem gets {view : S → α} {view' : S' → α} (same : ∀ s s', R s s' → view s = view' s') :
    Lockstep lost R (Proc.gets view) (Proc.gets view') where
  stays := .gets view'
  agree := fun s s' related => Or.inr ⟨congrArg Exit.ret (same s s' related), related⟩

theorem modify {update : S → S} {update' : S' → S'} (stays : ∀ s, lost s → lost (update' s))
    (keeps : ∀ s s', R s s' → R (update s) (update' s')) :
    Lockstep lost R (Proc.modify update) (Proc.modify update') where
  stays := .modify stays
  agree := fun s s' related => Or.inr ⟨rfl, keeps s s' related⟩

theorem ite {condition : Prop} [Decidable condition] {one two : Proc S α} {one' two' : Proc S' α}
    (first : condition → Lockstep lost R one one') (second : ¬ condition → Lockstep lost R two two') :
    Lockstep lost R (if condition then one else two) (if condition then one' else two') :=
  Couples.ite first second

theorem onFailure {proc handler : Proc S α} {proc' handler' : Proc S' α}
    (one : Lockstep lost R proc proc') (two : Lockstep lost R handler handler') :
    Lockstep lost R (Proc.onFailure proc handler) (Proc.onFailure proc' handler') where
  stays := .onFailure one.stays two.stays
  agree := by
    intro s s' related
    have halfway := one.agree s s' related
    have stays := two.stays
    rw [Proc.onFailure, Proc.onFailure]
    revert halfway
    rcases proc s with ⟨exit, t⟩
    rcases proc' s' with ⟨exit', t'⟩
    rintro (gone | ⟨same, related'⟩)
    · apply Or.inl
      cases exit' with
      | fail => exact stays t' gone
      | ret value => exact gone
      | abort => exact gone
      | fault => exact gone
      | timeout => exact gone
    · simp only at same
      subst same
      cases exit with
      | fail => exact two.agree t t' related'
      | ret value => exact Or.inr ⟨rfl, related'⟩
      | abort => exact Or.inr ⟨rfl, related'⟩
      | fault => exact Or.inr ⟨rfl, related'⟩
      | timeout => exact Or.inr ⟨rfl, related'⟩

/-- Loops stay in step if their turns do. -/
theorem iterate {body : β → Proc S (Turn β γ)} {body' : β → Proc S' (Turn β γ)}
    (turn : ∀ vars, Lockstep lost R (body vars) (body' vars)) :
    ∀ (fuel : Nat) (vars : β),
      Lockstep lost R (Proc.iterate body fuel vars) (Proc.iterate body' fuel vars) := by
  intro fuel
  induction fuel with
  | zero =>
      exact fun vars => ⟨fun _ gone => gone, fun _ _ related => Or.inr ⟨rfl, related⟩⟩
  | succ fuel ih =>
      intro vars
      apply bind (turn vars)
      intro outcome
      cases outcome with
      | again next => exact ih next
      | done result => exact pure result

/-- Where nothing is lost, related states give the same exit and related states again. -/
theorem run {first : Proc S α} {second : Proc S' α} (lockstep : Lockstep (fun _ => False) R first second)
    {s : S} {s' : S'} (related : R s s') :
    (first s).1 = (second s').1 ∧ R (first s).2 (second s').2 :=
  (lockstep.agree s s' related).resolve_left id

end Lockstep

/-- The second procedure does the same to the part of the state that `view` shows. -/
abbrev Mirrors (view : S → S') (first : Proc S α) (second : Proc S' α) : Prop :=
  Lockstep (fun _ => False) (fun s s' => s' = view s) first second

namespace Mirrors

variable {view : S → S'}

theorem of_run {first : Proc S α} {second : Proc S' α}
    (h : ∀ s, second (view s) = ((first s).1, view (first s).2)) : Mirrors view first second where
  stays := fun _ gone => gone
  agree := by
    rintro s _ rfl
    rw [h]
    exact Or.inr ⟨rfl, rfl⟩

theorem run {first : Proc S α} {second : Proc S' α} (mirrors : Mirrors view first second) (s : S) :
    second (view s) = ((first s).1, view (first s).2) := by
  obtain ⟨same, after⟩ := Lockstep.run mirrors (Eq.refl (view s))
  exact Prod.ext same.symm after

end Mirrors

end Proc

end Procedure
