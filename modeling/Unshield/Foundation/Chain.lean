/-
Module: Unshield.Foundation.Chain
Purpose: Following a partial function from point to point: where it has finitely many values, a chain
  ends, or it comes back to a point it has visited.
Trusted boundary: none
Main exports: Chain.Ends, Chain.ComesBack, Chain.ComesBack.goes_on, Chain.ends_iff
-/
import Mathlib.Computability.StateTransition
import Mathlib.Data.Set.Finite.Range
import Mathlib.Order.Preorder.Finite

namespace Chain

open StateTransition (Reaches Reaches₁)

variable {α : Type*} {next : α → Option α} {start : α}

/-- The chain from a point has a last point. -/
def Ends (next : α → Option α) (start : α) : Prop := ∃ last, Reaches next start last ∧ next last = none

/-- The chain from a point visits some point twice. -/
def ComesBack (next : α → Option α) (start : α) : Prop :=
  ∃ point, Reaches next start point ∧ Reaches₁ next point point

/-- A chain that comes back goes on, and still comes back. -/
theorem ComesBack.goes_on (comesBack : ComesBack next start) :
    ∃ point, next start = some point ∧ ComesBack next point := by
  rcases comesBack with ⟨point, reaches, cycle⟩
  rcases Relation.ReflTransGen.cases_head reaches with rfl | ⟨second, step, rest⟩
  · -- the start is on the cycle
    rcases Relation.TransGen.head'_iff.1 cycle with ⟨second, step, rest⟩
    exact ⟨second, step, start, rest, cycle⟩
  · exact ⟨second, step, point, rest, cycle⟩

theorem ComesBack.not_ends (comesBack : ComesBack next start) : ¬ Ends next start := by
  rintro ⟨last, reaches, final⟩
  induction reaches using Relation.ReflTransGen.head_induction_on with
  | refl =>
      rcases comesBack.goes_on with ⟨point, step, _⟩
      rw [final] at step
      cases step
  | head step _ ih =>
      rcases comesBack.goes_on with ⟨point, step', further⟩
      rw [Option.mem_def.1 step] at step'
      cases step'
      exact ih further

/-- A chain without a last point, and finitely many points to visit, comes back. -/
theorem comesBack_of_not_ends (finite : {point | ∃ before, next before = some point}.Finite)
    (endless : ¬ Ends next start) : ComesBack next start := by
  have goes_on : ∀ point, Reaches next start point → ∃ after, next point = some after := by
    intro point reaches
    cases step : next point with
    | none => exact absurd ⟨point, reaches, step⟩ endless
    | some after => exact ⟨after, rfl⟩
  -- the points of the chain by their number
  let point : ℕ → α := fun n => (fun current => (next current).getD current)^[n] start
  have step : ∀ n, Reaches next start (point n) → next (point n) = some (point (n + 1)) := by
    intro n reaches
    rcases goes_on _ reaches with ⟨after, found⟩
    show _ = some ((fun current => (next current).getD current)^[n + 1] start)
    rw [Function.iterate_succ_apply', show (fun current => (next current).getD current)^[n] start = point n
      from rfl, found, Option.getD_some]
  have reached : ∀ n, Reaches next start (point n) := by
    intro n
    induction n with
    | zero => exact Relation.ReflTransGen.refl
    | succ n ih => exact ih.tail (step n ih)
  have later : ∀ m k, Reaches₁ next (point m) (point (m + (k + 1))) := by
    intro m k
    induction k with
    | zero => exact Relation.TransGen.single (step m (reached m))
    | succ k ih => exact ih.tail (step _ (reached _))
  have within : Set.MapsTo (fun n => point (n + 1)) Set.univ {point | ∃ before, next before = some point} :=
    fun n _ => ⟨point n, step n (reached n)⟩
  rcases Set.infinite_univ.exists_lt_map_eq_of_mapsTo within finite with ⟨m, _, n, _, less, same⟩
  rcases Nat.exists_eq_add_of_lt less with ⟨k, rfl⟩
  refine ⟨point (m + 1), reached _, ?_⟩
  have cycle := later (m + 1) k
  rwa [show m + 1 + (k + 1) = m + k + 1 + 1 by omega, ← same] at cycle

/-- Where there are finitely many points to go on to, a chain ends or comes back. -/
theorem ends_iff (finite : {point | ∃ before, next before = some point}.Finite) :
    Ends next start ↔ ¬ ComesBack next start :=
  ⟨fun ends comesBack => comesBack.not_ends ends, fun straight => by
    by_contra endless
    exact straight (comesBack_of_not_ends finite endless)⟩

/-- There are finitely many 32-bit words to go on to. -/
instance finite_uint32 : Finite UInt32 :=
  Finite.of_injective UInt32.toFin fun one two same => by
    rw [← UInt32.toNat_inj]
    exact congrArg Fin.val same

end Chain
