/-
Module: Unshield.Foundation.Procedure
Purpose: Imperative procedures over an explicit state that can return, fail, abort the program, touch
  memory outside an object or run out of fuel, with the rules that compose them.
Trusted boundary: none
Main exports: Exit, Proc, Proc.iterate, Proc.bind_of_ret, Proc.Ensures,
  Proc.Visits, Proc.visits_iff_tally, Proc.Ensures.iterate, Proc.Leads, Proc.Preserves
-/
import Mathlib.Data.List.Basic

namespace Procedure

/-- How a computation ends. -/
inductive Exit (α : Type) where
  /-- It returns a value. -/
  | ret (value : α)
  /-- It gives up in an orderly way: the error exit of a procedure. -/
  | fail
  /-- An assertion does not hold, or the program calls `abort`. -/
  | abort
  /-- A read or store outside an object, or through a null pointer. -/
  | fault
  /-- A loop needs more iterations than the fuel allows. -/
  | timeout
deriving Repr, DecidableEq, Inhabited

namespace Exit

variable {α β : Type}

/-- Continue with the value of a computation that returns. -/
def bind : Exit α → (α → Exit β) → Exit β
  | .ret value, next => next value
  | .fail, _ => .fail
  | .abort, _ => .abort
  | .fault, _ => .fault
  | .timeout, _ => .timeout

instance : Monad Exit where
  pure := .ret
  bind := bind

@[simp] theorem pure_eq (value : α) : (pure value : Exit α) = .ret value := rfl

@[simp] theorem bind_ret (value : α) (next : α → Exit β) : (Exit.ret value >>= next) = next value :=
  rfl

theorem bind_assoc {γ : Type} (first : Exit α) (next : α → Exit β) (last : β → Exit γ) :
    (first >>= next) >>= last = first >>= fun value => next value >>= last := by
  cases first <;> rfl

/-- What follows matters only for the value that is returned. -/
theorem bind_congr {first : Exit α} {next next' : α → Exit β}
    (same : ∀ value, first = .ret value → next value = next' value) :
    (first >>= next) = (first >>= next') := by
  cases first with
  | ret value => exact same value rfl
  | fail => rfl
  | abort => rfl
  | fault => rfl
  | timeout => rfl

/-- A composition that returns went through a return of its first part. -/
theorem bind_eq_ret_iff {first : Exit α} {next : α → Exit β} {result : β} :
    (first >>= next) = .ret result ↔ ∃ value, first = .ret value ∧ next value = .ret result := by
  show bind first next = _ ↔ _
  cases first <;> simp [bind]

/-- A composition that fails has failed in its first part or behind it. -/
theorem bind_eq_fail_iff {first : Exit α} {next : α → Exit β} :
    (first >>= next) = .fail ↔ first = .fail ∨ ∃ value, first = .ret value ∧ next value = .fail := by
  show bind first next = _ ↔ _
  cases first <;> simp [bind]

/-- It returns or takes the error exit. -/
def Orderly : Exit α → Prop
  | .ret _ => True
  | .fail => True
  | _ => False

/-- A memory access: `none` is an access outside the object. -/
def ofAccess : Option α → Exit α
  | some value => .ret value
  | none => .fault

@[simp] theorem ofAccess_some (value : α) : ofAccess (some value) = .ret value := rfl

/-- What follows an access is orderly only if the access was inside the object. -/
theorem orderly_ofAccess_bind_iff {loaded : Option α} {next : α → Exit β} :
    (ofAccess loaded >>= next).Orderly ↔ ∃ value, loaded = some value ∧ (next value).Orderly := by
  cases loaded with
  | none =>
      constructor
      · exact False.elim
      · rintro ⟨_, absent, _⟩
        cases absent
  | some value =>
      constructor
      · exact fun orderly => ⟨value, rfl, orderly⟩
      · rintro ⟨_, same, orderly⟩
        obtain rfl := Option.some.inj same
        exact orderly

/-- An assertion of the program. -/
def assert (condition : Prop) [Decidable condition] : Exit Unit :=
  if condition then .ret () else .abort

theorem ofAccess_eq_ret_iff {loaded : Option α} {value : α} :
    ofAccess loaded = .ret value ↔ loaded = some value := by
  cases loaded <;> simp [ofAccess]

theorem ret_ne_abort (value : α) : Exit.ret value ≠ .abort := nofun

theorem fail_ne_abort : (.fail : Exit α) ≠ .abort := nofun

theorem fault_ne_abort : (.fault : Exit α) ≠ .abort := nofun

theorem timeout_ne_abort : (.timeout : Exit α) ≠ .abort := nofun

theorem ofAccess_ne_fail (loaded : Option α) : ofAccess loaded ≠ .fail := by
  cases loaded <;> exact nofun

theorem assert_ne_fail (condition : Prop) [Decidable condition] : assert condition ≠ .fail := by
  rw [assert]
  split <;> exact nofun

end Exit

/-- A procedure over the state `S`.  The state reached survives every exit. -/
def Proc (S α : Type) : Type := S → Exit α × S

namespace Proc

variable {S α β γ : Type}

/-- Sequential composition; everything but a return skips what follows. -/
def bind (first : Proc S α) (next : α → Proc S β) : Proc S β := fun s =>
  match first s with
  | (.ret value, s') => next value s'
  | (.fail, s') => (.fail, s')
  | (.abort, s') => (.abort, s')
  | (.fault, s') => (.fault, s')
  | (.timeout, s') => (.timeout, s')

instance : Monad (Proc S) where
  pure value := fun s => (.ret value, s)
  bind := bind

/-- The error exit. -/
def fail : Proc S α := fun s => (.fail, s)

/-- The fuel is used up. -/
def timeout : Proc S α := fun s => (.timeout, s)

/-- A computation that does not touch the state. -/
def ofExit (result : Exit α) : Proc S α := fun s => (result, s)

/-- A memory access. -/
def access (value : Option α) : Proc S α := ofExit (Exit.ofAccess value)

/-- A projection of the state. -/
def gets (view : S → α) : Proc S α := fun s => (.ret (view s), s)

/-- An assignment. -/
def modify (update : S → S) : Proc S Unit := fun s => (.ret (), update s)

/-- Go to the error exit unless the condition holds. -/
def require (condition : Prop) [Decidable condition] : Proc S Unit :=
  if condition then pure () else fail

/-- The outcome of one turn of a loop. -/
inductive Turn (β γ : Type) where
  | again (next : β)
  | done (result : γ)
deriving Repr, DecidableEq

/-- A loop with loop variables `β`, cut off after `fuel` turns. -/
def iterate (body : β → Proc S (Turn β γ)) : Nat → β → Proc S γ
  | 0, _ => timeout
  | fuel + 1, vars => do
      match ← body vars with
      | .again next => iterate body fuel next
      | .done result => pure result

/-- The handler runs where the procedure fails. -/
def onFailure (proc handler : Proc S α) : Proc S α := fun s =>
  match proc s with
  | (.fail, s') => handler s'
  | result => result

/-! ### Running procedures -/

@[simp] theorem pure_run (value : α) (s : S) : (pure value : Proc S α) s = (.ret value, s) := rfl

@[simp] theorem fail_run (s : S) : (fail : Proc S α) s = (.fail, s) := rfl

@[simp] theorem ofExit_run (result : Exit α) (s : S) : ofExit result s = (result, s) := rfl

@[simp] theorem gets_run (view : S → α) (s : S) : gets view s = (.ret (view s), s) := rfl

@[simp] theorem modify_run (update : S → S) (s : S) : modify update s = (.ret (), update s) := rfl

theorem run_eq_ret {proc : Proc S α} {s : S} {value : α} (h : (proc s).1 = .ret value) :
    proc s = (.ret value, (proc s).2) :=
  Prod.ext h rfl

theorem require_run_of {condition : Prop} [Decidable condition] (holds : condition) (s : S) :
    require condition s = (.ret (), s) := by
  rw [require, if_pos holds, pure_run]

theorem require_run_of_not {condition : Prop} [Decidable condition] (fails : ¬ condition) (s : S) :
    require condition s = (.fail, s) := by
  rw [require, if_neg fails, fail_run]

theorem bind_of_ret {first : Proc S α} {next : α → Proc S β} {s s' : S} {value : α}
    (h : first s = (.ret value, s')) : (first >>= next) s = next value s' := by
  show bind first next s = _
  rw [bind, h]

theorem bind_of_fail {first : Proc S α} {next : α → Proc S β} {s s' : S}
    (h : first s = (.fail, s')) : (first >>= next) s = (.fail, s') := by
  show bind first next s = _
  rw [bind, h]

/-- Where the first part never returns, the composition ends where that ends. -/
theorem bind_state_of_never {first : Proc S α} {next : α → Proc S β} {s : S}
    (never : ∀ value s', first s ≠ (.ret value, s')) : ((first >>= next) s).2 = (first s).2 := by
  show (bind first next s).2 = _
  rw [bind]
  rcases run : first s with ⟨exit, s'⟩
  cases exit with
  | ret value => exact absurd run (never value s')
  | fail => rfl
  | abort => rfl
  | fault => rfl
  | timeout => rfl

/-- What follows a procedure matters only where the procedure returns. -/
theorem bind_congr_run {first : Proc S α} {next next' : α → Proc S β} {s : S}
    (h : ∀ value s', first s = (.ret value, s') → next value s' = next' value s') :
    (first >>= next) s = (first >>= next') s := by
  show bind first next s = bind first next' s
  rw [bind, bind]
  rcases run : first s with ⟨exit, s'⟩
  cases exit with
  | ret value => exact h value s' run
  | fail => rfl
  | abort => rfl
  | fault => rfl
  | timeout => rfl

theorem bind_assoc {γ : Type} (first : Proc S α) (next : α → Proc S β) (last : β → Proc S γ) :
    (first >>= next) >>= last = first >>= fun value => next value >>= last := by
  funext s
  show bind (bind first next) last s = bind first (fun value => bind (next value) last) s
  rw [bind, bind, bind]
  rcases first s with ⟨exit, s'⟩
  cases exit <;> rfl

@[simp] theorem gets_bind_run (view : S → α) (next : α → Proc S β) (s : S) :
    (gets view >>= next) s = next (view s) s := rfl

@[simp] theorem modify_bind_run (update : S → S) (next : Unit → Proc S β) (s : S) :
    (modify update >>= next) s = next () (update s) := rfl

@[simp] theorem ofExit_ret_bind_run (value : α) (next : α → Proc S β) (s : S) :
    (ofExit (.ret value) >>= next) s = next value s := rfl

@[simp] theorem access_some_bind_run (value : α) (next : α → Proc S β) (s : S) :
    (access (some value) >>= next) s = next value s := rfl

/-- A composition that returns went through a return of its first part. -/
theorem bind_eq_ret_iff {first : Proc S α} {next : α → Proc S β} {s t : S} {result : β} :
    (first >>= next) s = (.ret result, t) ↔
      ∃ value s', first s = (.ret value, s') ∧ next value s' = (.ret result, t) := by
  show bind first next s = _ ↔ _
  rw [bind]
  rcases first s with ⟨exit, s'⟩
  cases exit <;> simp

/-- A composition that fails has failed in its first part or behind it. -/
theorem bind_eq_fail_iff {first : Proc S α} {next : α → Proc S β} {s t : S} :
    (first >>= next) s = (.fail, t) ↔
      first s = (.fail, t) ∨ ∃ value s', first s = (.ret value, s') ∧ next value s' = (.fail, t) := by
  show bind first next s = _ ↔ _
  rw [bind]
  rcases first s with ⟨exit, s'⟩
  cases exit <;> simp

/-- A composition that ends orderly has returned from its first part, if that never fails. -/
theorem ret_of_bind_orderly {first : Proc S α} {next : α → Proc S β} {s : S}
    (orderly : ((first >>= next) s).1.Orderly) (never : (first s).1 ≠ .fail) :
    ∃ value s', first s = (.ret value, s') ∧ (next value s').1.Orderly := by
  change (bind first next s).1.Orderly at orderly
  rw [bind] at orderly
  rcases run : first s with ⟨exit, s'⟩
  rw [run] at orderly never
  cases exit with
  | ret value => exact ⟨value, s', rfl, orderly⟩
  | fail => exact absurd rfl never
  | abort => exact orderly.elim
  | fault => exact orderly.elim
  | timeout => exact orderly.elim

/-- The first part of a composition that ends orderly does so itself. -/
theorem orderly_of_bind {first : Proc S α} {next : α → Proc S β} {s : S}
    (orderly : ((first >>= next) s).1.Orderly) : (first s).1.Orderly := by
  change (bind first next s).1.Orderly at orderly
  rw [bind] at orderly
  rcases run : first s with ⟨exit, s'⟩
  rw [run] at orderly
  cases exit with
  | ret value => trivial
  | fail => trivial
  | abort => exact orderly
  | fault => exact orderly
  | timeout => exact orderly

theorem ret_of_ofExit_bind_orderly {exit : Exit α} {next : α → Proc S β} {s : S}
    (orderly : ((ofExit exit >>= next) s).1.Orderly) (never : exit ≠ .fail) :
    ∃ value, exit = .ret value ∧ (next value s).1.Orderly := by
  rcases ret_of_bind_orderly orderly never with ⟨value, s', run, rest⟩
  cases run
  exact ⟨value, rfl, rest⟩

theorem pure_eq_ret_iff {value result : α} {s t : S} :
    (pure value : Proc S α) s = (.ret result, t) ↔ result = value ∧ t = s := by
  rw [pure_run, Prod.mk.injEq, Exit.ret.injEq]
  exact ⟨fun same => ⟨same.1.symm, same.2.symm⟩, fun same => ⟨same.1.symm, same.2.symm⟩⟩

theorem ofExit_bind_eq_ret_iff {exit : Exit α} {next : α → Proc S β} {s t : S} {result : β} :
    (ofExit exit >>= next) s = (.ret result, t) ↔
      ∃ value, exit = .ret value ∧ next value s = (.ret result, t) := by
  rw [bind_eq_ret_iff]
  constructor
  · rintro ⟨value, s', run, rest⟩
    rw [ofExit_run, Prod.mk.injEq] at run
    exact ⟨value, run.1, run.2 ▸ rest⟩
  · rintro ⟨value, returned, rest⟩
    exact ⟨value, s, by rw [ofExit_run, returned], rest⟩

theorem access_bind_eq_ret_iff {loaded : Option α} {next : α → Proc S β} {s t : S} {result : β} :
    (access loaded >>= next) s = (.ret result, t) ↔
      ∃ value, loaded = some value ∧ next value s = (.ret result, t) := by
  simp only [access, ofExit_bind_eq_ret_iff, Exit.ofAccess_eq_ret_iff]

/-- What follows an access is reached only if the access was inside the object. -/
theorem access_bind_ne_fault_iff {loaded : Option α} {next : α → Proc S β} {s : S} :
    ((access loaded >>= next) s).1 ≠ .fault ↔ ∃ value, loaded = some value ∧ (next value s).1 ≠ .fault := by
  cases loaded with
  | none =>
      constructor
      · exact fun inside => absurd rfl inside
      · rintro ⟨_, absent, _⟩
        cases absent
  | some value =>
      rw [access_some_bind_run]
      constructor
      · exact fun inside => ⟨value, rfl, inside⟩
      · rintro ⟨_, same, inside⟩
        obtain rfl := Option.some.inj same
        exact inside

/-- A requirement that is passed holds. -/
theorem require_eq_ret_iff {condition : Prop} [Decidable condition] {s t : S} :
    require condition s = (.ret (), t) ↔ condition ∧ t = s := by
  by_cases holds : condition
  · rw [require_run_of holds, Prod.mk.injEq]
    exact ⟨fun same => ⟨holds, same.2.symm⟩, fun same => ⟨rfl, same.2.symm⟩⟩
  · rw [require_run_of_not holds]
    simp [holds]

theorem require_bind_eq_ret_iff {condition : Prop} [Decidable condition] {next : Unit → Proc S β}
    {s t : S} {result : β} :
    (require condition >>= next) s = (.ret result, t) ↔ condition ∧ next () s = (.ret result, t) := by
  by_cases holds : condition
  · rw [bind_of_ret (require_run_of holds s)]
    simp [holds]
  · rw [bind_of_fail (require_run_of_not holds s)]
    simp [holds]

theorem onFailure_eq_ret_iff {proc handler : Proc S α} {s t : S} {result : α} :
    onFailure proc handler s = (.ret result, t) ↔
      proc s = (.ret result, t) ∨ ∃ s', proc s = (.fail, s') ∧ handler s' = (.ret result, t) := by
  rw [onFailure]
  rcases proc s with ⟨exit, s'⟩
  cases exit <;> simp

theorem onFailure_of_fail {proc handler : Proc S α} {s t : S} (run : proc s = (.fail, t)) :
    onFailure proc handler s = handler t := by
  rw [onFailure, run]

theorem iterate_succ_of_again {body : β → Proc S (Turn β γ)} {fuel : Nat} {vars next : β} {s s' : S}
    (h : body vars s = (.ret (.again next), s')) :
    iterate body (fuel + 1) vars s = iterate body fuel next s' := by
  rw [iterate, bind_of_ret h]

theorem iterate_succ_of_done {body : β → Proc S (Turn β γ)} {fuel : Nat} {vars : β} {result : γ}
    {s s' : S} (h : body vars s = (.ret (.done result), s')) :
    iterate body (fuel + 1) vars s = (.ret result, s') := by
  rw [iterate, bind_of_ret h]
  rfl

theorem iterate_succ_of_fail {body : β → Proc S (Turn β γ)} {fuel : Nat} {vars : β} {s s' : S}
    (h : body vars s = (.fail, s')) : iterate body (fuel + 1) vars s = (.fail, s') := by
  rw [iterate, bind_of_fail h]

/-- The procedure fails or stops. -/
def NoReturn (proc : Proc S α) (s : S) : Prop := ∀ value t, proc s ≠ (.ret value, t)

theorem noReturn_of_fail {proc : Proc S α} {s t : S} (run : proc s = (.fail, t)) : NoReturn proc s := by
  intro value u returns
  rw [run] at returns
  cases returns

namespace NoReturn

theorem bind {first : Proc S α} {next : α → Proc S β} {s : S} (never : NoReturn first s) :
    NoReturn (first >>= next) s := by
  intro value u returns
  obtain ⟨middle, t, run, _⟩ := bind_eq_ret_iff.1 returns
  exact never middle t run

theorem bind_of_ret {first : Proc S α} {next : α → Proc S β} {s t : S} {value : α}
    (run : first s = (.ret value, t)) (never : NoReturn (next value) t) : NoReturn (first >>= next) s := by
  intro result u returns
  rw [Proc.bind_of_ret run] at returns
  exact never result u returns

/-- A loop does not return whose turn does not. -/
theorem iterate {body : β → Proc S (Turn β γ)} {vars : β} {s : S} (never : NoReturn (body vars) s)
    (fuel : Nat) : NoReturn (Proc.iterate body (fuel + 1) vars) s := by
  intro result u returns
  rw [Proc.iterate] at returns
  exact bind never result u returns

theorem iterate_of_again {body : β → Proc S (Turn β γ)} {vars next : β} {s t : S} {fuel : Nat}
    (run : body vars s = (.ret (.again next), t)) (never : NoReturn (Proc.iterate body fuel next) t) :
    NoReturn (Proc.iterate body (fuel + 1) vars) s := by
  intro result u returns
  rw [iterate_succ_of_again run] at returns
  exact never result u returns

end NoReturn

/-- A loop that steps through numbered positions up to `last` goes on from there. -/
theorem iterate_passes {body : β → Proc S (Turn β γ)} {At : Nat → β → S → Prop} {last : Nat}
    (pass : ∀ position vars s, position < last → At position vars s →
      ∃ next s', body vars s = (.ret (.again next), s') ∧ At (position + 1) next s') (count : Nat) :
    ∀ {vars : β} {s : S} {position : Nat}, position + count = last → At position vars s →
      ∃ next t, At last next t ∧
        ∀ fuel, iterate body (count + fuel) vars s = iterate body fuel next t := by
  induction count with
  | zero =>
      rintro vars s position rfl here
      exact ⟨vars, s, here, fun fuel => by rw [Nat.zero_add]⟩
  | succ count ih =>
      intro vars s position sum here
      obtain ⟨next, s', turn, there⟩ := pass position vars s (by omega) here
      obtain ⟨final, t, arrived, rest⟩ := ih (by omega) there
      refine ⟨final, t, arrived, fun fuel => ?_⟩
      rw [Nat.add_right_comm, iterate_succ_of_again turn]
      exact rest fuel

/-! ### The turns of a loop -/

/-- The loop, started with `vars` in `s`, comes to a turn with the loop variables `next` in `t`. -/
inductive Visits (body : β → Proc S (Turn β γ)) (vars : β) (s : S) : β → S → Prop where
  | start : Visits body vars s vars s
  | again {next next' : β} {t t' : S} (earlier : Visits body vars s next t)
      (turn : body next t = (.ret (.again next'), t')) : Visits body vars s next' t'

theorem Visits.head {body : β → Proc S (Turn β γ)} {vars next last : β} {s s' t : S}
    (turn : body vars s = (.ret (.again next), s')) (visits : Visits body next s' last t) :
    Visits body vars s last t := by
  induction visits with
  | start => exact .again .start turn
  | again _ turn' ih => exact .again ih turn'

/-- What every turn hands on holds at each turn the loop comes to. -/
theorem Visits.holds {body : β → Proc S (Turn β γ)} {invariant : β → S → Prop} {vars next : β} {s t : S}
    (start : invariant vars s)
    (turn : ∀ next t next' t', invariant next t → body next t = (.ret (.again next'), t') →
      invariant next' t') (visits : Visits body vars s next t) : invariant next t := by
  induction visits with
  | start => exact start
  | again _ run ih => exact turn _ _ _ _ ih run

/-- A loop that returns has come to the turn that is the last one. -/
theorem Visits.of_iterate {body : β → Proc S (Turn β γ)} {result : γ} {t : S} (fuel : Nat) :
    ∀ {vars : β} {s : S}, iterate body fuel vars s = (.ret result, t) →
      ∃ last u, Visits body vars s last u ∧ body last u = (.ret (.done result), t) := by
  induction fuel with
  | zero =>
      intro vars s run
      cases run
  | succ fuel ih =>
      intro vars s run
      rw [iterate] at run
      rcases bind_eq_ret_iff.1 run with ⟨outcome, s', turn, rest⟩
      cases outcome with
      | again next =>
          obtain ⟨last, u, visits, done⟩ := ih rest
          exact ⟨last, u, visits.head turn, done⟩
      | done value =>
          rcases pure_eq_ret_iff.1 rest with ⟨rfl, rfl⟩
          exact ⟨vars, s, .start, turn⟩

/-- The loop comes to a turn, and the turns before weigh `total`. -/
inductive Tally (body : β → Proc S (Turn β γ)) (weight : β → S → Nat) (vars : β) (s : S) :
    Nat → β → S → Prop where
  | start : Tally body weight vars s 0 vars s
  | again {total : Nat} {next next' : β} {t t' : S} (earlier : Tally body weight vars s total next t)
      (turn : body next t = (.ret (.again next'), t')) :
      Tally body weight vars s (total + weight next t) next' t'

theorem Tally.visits {body : β → Proc S (Turn β γ)} {weight : β → S → Nat} {vars next : β} {s t : S}
    {total : Nat} (tally : Tally body weight vars s total next t) : Visits body vars s next t := by
  induction tally with
  | start => exact .start
  | again _ turn ih => exact .again ih turn

theorem Visits.tally {body : β → Proc S (Turn β γ)} (weight : β → S → Nat) {vars next : β} {s t : S}
    (visits : Visits body vars s next t) : ∃ total, Tally body weight vars s total next t := by
  induction visits with
  | start => exact ⟨0, .start⟩
  | again _ turn ih =>
      obtain ⟨total, tally⟩ := ih
      exact ⟨_, .again tally turn⟩

/-- If the invariant of a loop says of each turn that it is sound just in case it fits, and sound turns
keep the invariant, then all turns are sound just in case all of them fit. -/
theorem visits_iff_tally {body : β → Proc S (Turn β γ)} {weight : β → S → Nat} {vars : β} {s : S}
    {invariant fits : Nat → β → S → Prop} {sound : β → S → Prop} (start : invariant 0 vars s)
    (same : ∀ total next t, invariant total next t → (sound next t ↔ fits total next t))
    (turn : ∀ total next t next' t', invariant total next t → sound next t →
      body next t = (.ret (.again next'), t') → invariant (total + weight next t) next' t') :
    (∀ next t, Visits body vars s next t → sound next t) ↔
      ∀ total next t, Tally body weight vars s total next t → fits total next t := by
  have kept : (∀ total next t, Tally body weight vars s total next t → invariant total next t →
      sound next t) → ∀ total next t, Tally body weight vars s total next t → invariant total next t := by
    intro good total next t tally
    induction tally with
    | start => exact start
    | again earlier run ih => exact turn _ _ _ _ _ ih (good _ _ _ earlier ih) run
  constructor
  · intro sound total next t tally
    have holds := kept (fun _ _ _ tally _ => sound _ _ tally.visits) total next t tally
    exact (same total next t holds).1 (sound next t tally.visits)
  · intro fits next t visits
    obtain ⟨total, tally⟩ := visits.tally weight
    have holds := kept (fun _ _ _ tally holds => (same _ _ _ holds).2 (fits _ _ _ tally)) total next t tally
    exact (same total next t holds).2 (fits total next t tally)

/-! ### What holds when a procedure returns -/

/-- Started in a state of `pre`, the procedure satisfies `post` if it returns. -/
def Ensures (pre : S → Prop) (proc : Proc S α) (post : α → S → Prop) : Prop :=
  ∀ s value s', pre s → proc s = (.ret value, s') → post value s'

theorem Ensures.pure {pre : S → Prop} {post : α → S → Prop} {value : α}
    (h : ∀ s, pre s → post value s) : Ensures pre (Pure.pure value) post := by
  intro s result s' holds run
  rw [pure_run, Prod.mk.injEq, Exit.ret.injEq] at run
  obtain ⟨rfl, rfl⟩ := run
  exact h s holds

theorem Ensures.bind {pre : S → Prop} {middle : α → S → Prop} {post : β → S → Prop}
    {first : Proc S α} {next : α → Proc S β} (one : Ensures pre first middle)
    (two : ∀ value, Ensures (middle value) (next value) post) : Ensures pre (first >>= next) post := by
  intro s result t holds run
  obtain ⟨value, s', firstRun, nextRun⟩ := bind_eq_ret_iff.1 run
  exact two value s' result t (one s value s' holds firstRun) nextRun

theorem Ensures.weaken {pre pre' : S → Prop} {post post' : α → S → Prop} {proc : Proc S α}
    (h : Ensures pre proc post) (before : ∀ s, pre' s → pre s)
    (after : ∀ value s, post value s → post' value s) : Ensures pre' proc post' :=
  fun s value s' holds run => after value s' (h s value s' (before s holds) run)

/-- The invariant of a loop holds of the next loop variables, what the loop is to establish of its
result. -/
def Turn.Meets (invariant : β → S → Prop) (post : γ → S → Prop) : Turn β γ → S → Prop
  | .again next => invariant next
  | .done result => post result

/-- A loop that returns satisfies what its last turn establishes from the invariant. -/
theorem Ensures.iterate {invariant : β → S → Prop} {post : γ → S → Prop}
    {body : β → Proc S (Turn β γ)}
    (turn : ∀ vars, Ensures (invariant vars) (body vars) (Turn.Meets invariant post)) :
    ∀ (fuel : Nat) (vars : β), Ensures (invariant vars) (iterate body fuel vars) post := by
  intro fuel
  induction fuel with
  | zero =>
      intro vars s value s' _ run
      cases run
  | succ fuel ih =>
      intro vars
      refine Ensures.bind (turn vars) ?_
      intro outcome
      cases outcome with
      | again next => exact ih next
      | done result => exact Ensures.pure fun _ holds => holds

/-! ### Where a procedure leads -/

/-- From a state of `pre` the procedure ends in one of `post`, whatever the exit. -/
def Leads (pre : S → Prop) (proc : Proc S α) (post : S → Prop) : Prop :=
  ∀ s, pre s → post (proc s).2

/-- The second part starts in the states that the first one returns in. -/
theorem Leads.bind_of_ensures {pre post : S → Prop} {middle : α → S → Prop} {first : Proc S α}
    {next : α → Proc S β} (one : Leads pre first post) (ensures : Ensures pre first middle)
    (two : ∀ value, Leads (middle value) (next value) post) : Leads pre (first >>= next) post := by
  intro s holds
  have ended := one s holds
  have returned := fun value t => ensures s value t holds
  show post (Proc.bind first next s).2
  rw [Proc.bind]
  revert ended returned
  rcases first s with ⟨exit, s'⟩
  intro ended returned
  cases exit with
  | ret value => exact two value s' (returned value s' rfl)
  | fail => exact ended
  | abort => exact ended
  | fault => exact ended
  | timeout => exact ended

/-- The second part starts where the first one ends; where it does not start, that has to be enough. -/
theorem Leads.bind {pre middle post : S → Prop} {first : Proc S α} {next : α → Proc S β}
    (one : Leads pre first middle) (ended : ∀ s, middle s → post s)
    (two : ∀ value, Leads middle (next value) post) : Leads pre (first >>= next) post := by
  refine Leads.bind_of_ensures (fun s holds => ended _ (one s holds)) ?_ two
  intro s value s' holds run
  have halfway := one s holds
  rwa [run] at halfway

/-- A loop leads where each of its turns leads, from states where that is so already. -/
theorem Leads.iterate {invariant : β → S → Prop} {post : S → Prop} {body : β → Proc S (Turn β γ)}
    (turn : ∀ vars, Leads (invariant vars) (body vars) post)
    (kept : ∀ vars, Ensures (invariant vars) (body vars) (Turn.Meets invariant fun _ => post))
    (ended : ∀ vars s, invariant vars s → post s) :
    ∀ (fuel : Nat) (vars : β), Leads (invariant vars) (Proc.iterate body fuel vars) post := by
  intro fuel
  induction fuel with
  | zero => exact ended
  | succ fuel ih =>
      intro vars
      refine Leads.bind_of_ensures (turn vars) (kept vars) fun outcome => ?_
      cases outcome with
      | again next => exact ih next
      | done result => exact fun _ holds => holds

/-! ### What a procedure never breaks -/

/-- A state that satisfies the invariant satisfies it after the procedure, whatever the exit. -/
def Preserves (invariant : S → Prop) (proc : Proc S α) : Prop :=
  ∀ s, invariant s → invariant (proc s).2

namespace Preserves

variable {invariant : S → Prop}

theorem of_run {proc : Proc S α} (h : Preserves invariant proc) {s s' : S} {exit : Exit α}
    (holds : invariant s) (run : proc s = (exit, s')) : invariant s' := by
  have after := h s holds
  rwa [run] at after

theorem pure (value : α) : Preserves invariant (Pure.pure value) := fun _ holds => holds

theorem fail : Preserves invariant (Proc.fail : Proc S α) := fun _ holds => holds

theorem ofExit (result : Exit α) : Preserves invariant (Proc.ofExit result) := fun _ holds => holds

theorem access (value : Option α) : Preserves invariant (Proc.access value) :=
  fun _ holds => holds

theorem gets (view : S → α) : Preserves invariant (Proc.gets view) := fun _ holds => holds

theorem modify {update : S → S} (h : ∀ s, invariant s → invariant (update s)) :
    Preserves invariant (Proc.modify update) := h

theorem require (condition : Prop) [Decidable condition] :
    Preserves invariant (Proc.require condition) := by
  intro s holds
  rw [Proc.require]
  split <;> exact holds

theorem bind {first : Proc S α} {next : α → Proc S β} (one : Preserves invariant first)
    (two : ∀ value, Preserves invariant (next value)) : Preserves invariant (first >>= next) := by
  exact Leads.bind one (fun _ holds => holds) two

theorem ite {condition : Prop} [Decidable condition] {one two : Proc S α}
    (first : condition → Preserves invariant one) (second : ¬ condition → Preserves invariant two) :
    Preserves invariant (if condition then one else two) := by
  by_cases h : condition
  · rw [if_pos h]
    exact first h
  · rw [if_neg h]
    exact second h

theorem onFailure {proc handler : Proc S α} (first : Preserves invariant proc)
    (second : Preserves invariant handler) : Preserves invariant (Proc.onFailure proc handler) := by
  intro s holds
  have after := first s holds
  rw [Proc.onFailure]
  rcases run : proc s with ⟨exit, s'⟩
  rw [run] at after
  cases exit with
  | fail => exact second s' after
  | ret value => exact after
  | abort => exact after
  | fault => exact after
  | timeout => exact after

/-- A loop preserves what each of its turns preserves. -/
theorem iterate {body : β → Proc S (Turn β γ)} (turn : ∀ vars, Preserves invariant (body vars)) :
    ∀ (fuel : Nat) (vars : β), Preserves invariant (Proc.iterate body fuel vars) := by
  intro fuel
  induction fuel with
  | zero => exact fun _ _ holds => holds
  | succ fuel ih =>
      intro vars
      refine bind (turn vars) ?_
      intro outcome
      cases outcome with
      | again next => exact ih next
      | done result => exact pure result

end Preserves

/-- What follows and does not change a view of the state does not show in that view. -/
theorem bind_view (view : S → γ) {first : Proc S α} {next : α → Proc S β}
    (silent : ∀ value seen, Preserves (fun s => view s = seen) (next value)) (s : S) :
    view ((first >>= next) s).2 = view (first s).2 := by
  have leads : Leads (fun t => t = s) (first >>= next) fun t => view t = view (first s).2 := by
    refine Leads.bind_of_ensures ?_ ?_ fun value => silent value (view (first s).2)
    · rintro t rfl
      rfl
    · rintro t value s' rfl run
      rw [run]
  exact leads s rfl

/-- A loop preserves what each of the turns that it comes to preserves. -/
theorem iterate_of_visits {invariant : S → Prop} {body : β → Proc S (Turn β γ)} (fuel : Nat) :
    ∀ {vars : β} {s : S},
      (∀ next t, Visits body vars s next t → invariant t → invariant (body next t).2) → invariant s →
        invariant (iterate body fuel vars s).2 := by
  induction fuel with
  | zero => exact fun _ holds => holds
  | succ fuel ih =>
      intro vars s turns holds
      have after := turns vars s .start holds
      have turn : Ensures (fun t => t = s) (body vars) fun outcome t =>
          body vars s = (.ret outcome, t) ∧ invariant t := by
        rintro t outcome s' rfl run
        rw [run] at after
        exact ⟨run, after⟩
      have leads : Leads (fun t => t = s) (iterate body (fuel + 1) vars) invariant := by
        refine Leads.bind_of_ensures ?_ turn fun outcome => ?_
        · rintro t rfl
          exact after
        · rintro t ⟨run, kept⟩
          cases outcome with
          | again next => exact ih (fun last t visits => turns last t (visits.head run)) kept
          | done result => exact kept
      exact leads s rfl

/-- What is preserved on every exit holds on a return. -/
theorem Ensures.of_preserves {invariant : S → Prop} {proc : Proc S α} (h : Preserves invariant proc) :
    Ensures invariant proc fun _ => invariant :=
  fun _ _ _ holds run => h.of_run holds run

/-- What follows preserves the invariant for every value that can be returned. -/
theorem Preserves.bind_of_ensures {invariant : S → Prop} {returned : α → S → Prop} {first : Proc S α}
    {next : α → Proc S β} (one : Preserves invariant first) (ensures : Ensures invariant first returned)
    (two : ∀ value s, returned value s → invariant s → invariant (next value s).2) :
    Preserves invariant (first >>= next) :=
  Leads.bind_of_ensures one
    (fun s value s' holds run => And.intro (ensures s value s' holds run) (one.of_run holds run))
    fun value s holds => two value s holds.1 holds.2

end Proc

end Procedure
