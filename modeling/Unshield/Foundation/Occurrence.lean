/-
Module: Unshield.Foundation.Occurrence
Purpose: Occurrences of a pattern in a list, the first one from a position on, patterns whose
  occurrences cannot overlap, and the first element of a kind.
Trusted boundary: none
Main exports: Occurrence.Occurs, Occurrence.Borderless, Occurrence.occurs_apart, Occurrence.FirstFrom,
  Occurrence.takeWhile_terminated, Occurrence.find?_of_perm_iff
-/
import Mathlib.Data.List.Basic

namespace Occurrence

variable {α : Type} {pattern stream rest : List α} {position other : Nat}

/-- The pattern stands at a position of the stream. -/
def Occurs (pattern stream : List α) (position : Nat) : Prop :=
  ∀ i < pattern.length, stream[position + i]? = pattern[i]?

theorem occurs_append_self (pattern rest : List α) : Occurs pattern (pattern ++ rest) 0 := by
  intro i inside
  rw [Nat.zero_add, List.getElem?_append_left inside]

/-- An occurrence is a stretch of the stream that equals the pattern. -/
theorem occurs_iff_take :
    Occurs pattern stream position ↔ (stream.drop position).take pattern.length = pattern := by
  constructor
  · intro occurs
    apply List.ext_getElem?
    intro i
    by_cases lt : i < pattern.length
    · rw [List.getElem?_take_of_lt lt, List.getElem?_drop, occurs i lt]
    · have short : ((stream.drop position).take pattern.length).length ≤ i := by
        rw [List.length_take]
        omega
      rw [List.getElem?_eq_none short, List.getElem?_eq_none (by omega)]
  · intro same i lt
    have unit := congrArg (·[i]?) same
    simp only [List.getElem?_take_of_lt lt, List.getElem?_drop] at unit
    exact unit

/-- What comes behind an occurrence does not matter to it. -/
theorem occurs_append_iff (inside : position + pattern.length ≤ stream.length) :
    Occurs pattern (stream ++ rest) position ↔ Occurs pattern stream position := by
  constructor
  · intro occurs i lt
    rw [← occurs i lt, List.getElem?_append_left (by omega)]
  · intro occurs i lt
    rw [List.getElem?_append_left (by omega)]
    exact occurs i lt

/-- What comes before an occurrence only moves it. -/
theorem occurs_append_right_iff (front : List α) :
    Occurs pattern (front ++ stream) (front.length + position) ↔ Occurs pattern stream position := by
  have shift : ∀ i, (front ++ stream)[front.length + position + i]? = stream[position + i]? := by
    intro i
    rw [Nat.add_assoc, List.getElem?_append_right (Nat.le_add_right _ _), Nat.add_sub_cancel_left]
  constructor
  · intro occurs i lt
    rw [← shift]
    exact occurs i lt
  · intro occurs i lt
    rw [shift]
    exact occurs i lt

/-- A pattern that is not empty occurs only inside the stream. -/
theorem le_length_of_occurs (nonempty : 0 < pattern.length) (occurs : Occurs pattern stream position) :
    position + pattern.length ≤ stream.length := by
  have last := occurs (pattern.length - 1) (by omega)
  rw [List.getElem?_eq_getElem (by omega : pattern.length - 1 < pattern.length)] at last
  rcases List.getElem?_eq_some_iff.1 last with ⟨lt, _⟩
  omega

/-- No proper suffix of the pattern is a prefix of it. -/
def Borderless (pattern : List α) : Prop :=
  ∀ k < pattern.length, 0 < k → pattern.drop k ≠ pattern.take (pattern.length - k)

instance [DecidableEq α] (pattern : List α) : Decidable (Borderless pattern) :=
  inferInstanceAs (Decidable (∀ k < pattern.length, 0 < k → _ ≠ _))

/-- Two occurrences of a pattern without a border do not overlap. -/
theorem occurs_apart (borderless : Borderless pattern) (first : Occurs pattern stream position)
    (second : Occurs pattern stream other) (lt : position < other) :
    position + pattern.length ≤ other := by
  by_contra overlap
  apply borderless (other - position) (by omega) (by omega)
  apply List.ext_getElem?
  intro i
  rw [List.getElem?_drop]
  by_cases inside : other - position + i < pattern.length
  · have fromFirst := first (other - position + i) inside
    have fromSecond := second i (by omega)
    rw [List.getElem?_take_of_lt (by omega), ← fromFirst, ← fromSecond]
    congr 1
    omega
  · rw [List.getElem?_eq_none (by omega), List.getElem?_eq_none]
    rw [List.length_take]
    omega

/-! ### The first occurrence -/

/-- The first occurrence from `start` on. -/
structure FirstFrom (pattern stream : List α) (start position : Nat) : Prop where
  le : start ≤ position
  occurs : Occurs pattern stream position
  first : ∀ earlier, start ≤ earlier → earlier < position → ¬ Occurs pattern stream earlier

variable {start : Nat}

theorem exists_firstFrom (le : start ≤ position) (occurs : Occurs pattern stream position) :
    ∃ first, first ≤ position ∧ FirstFrom pattern stream start first := by
  induction position using Nat.strongRecOn with
  | ind position ih =>
      by_cases earlier : ∃ p, start ≤ p ∧ p < position ∧ Occurs pattern stream p
      · rcases earlier with ⟨p, startLe, lt, earlierOccurs⟩
        rcases ih p lt startLe earlierOccurs with ⟨first, firstLe, firstFrom⟩
        exact ⟨first, by omega, firstFrom⟩
      · refine ⟨position, Nat.le_refl _, le, occurs, ?_⟩
        intro p startLe lt earlierOccurs
        exact earlier ⟨p, startLe, lt, earlierOccurs⟩

/-- The first occurrence in a stream does not depend on what comes behind it. -/
theorem firstFrom_append_iff (inside : position + pattern.length ≤ stream.length) :
    FirstFrom pattern (stream ++ rest) start position ↔ FirstFrom pattern stream start position := by
  constructor
  · intro firstFrom
    refine ⟨firstFrom.le, (occurs_append_iff inside).1 firstFrom.occurs, ?_⟩
    intro earlier le lt occurs
    exact firstFrom.first earlier le lt ((occurs_append_iff (by omega)).2 occurs)
  · intro firstFrom
    refine ⟨firstFrom.le, (occurs_append_iff inside).2 firstFrom.occurs, ?_⟩
    intro earlier le lt occurs
    exact firstFrom.first earlier le lt ((occurs_append_iff (by omega)).1 occurs)

/-- What stands in front of the first terminator. -/
theorem takeWhile_terminated [DecidableEq α] {front : List α} {terminator : α}
    (absent : terminator ∉ front) (behind : List α) :
    (front ++ terminator :: behind).takeWhile (· ≠ terminator) = front := by
  rw [List.takeWhile_append_of_pos, List.takeWhile_cons_of_neg (by simp), List.append_nil]
  intro unit member
  rw [decide_eq_true_eq]
  rintro rfl
  exact absent member

/-! ### Order -/

/-- What is found first does not depend on the order exactly if there is nothing else to be found. -/
theorem find?_of_perm_iff {p : α → Bool} {list : List α} :
    (∀ permuted : List α, permuted.Perm list → permuted.find? p = list.find? p) ↔
      ∀ one ∈ list, ∀ two ∈ list, p one = true → p two = true → one = two := by
  constructor
  · intro same
    have found : ∀ one ∈ list, p one = true → list.find? p = some one := by
      intro one member holds
      obtain ⟨front, back, rfl⟩ := List.append_of_mem member
      rw [← same (one :: (front ++ back)) List.perm_middle.symm, List.find?_cons_of_pos holds]
    exact fun one member two member' holds holds' =>
      Option.some.inj ((found one member holds).symm.trans (found two member' holds'))
  · intro unique permuted perm
    cases found : list.find? p with
    | none =>
        rw [List.find?_eq_none] at found ⊢
        exact fun value member => found value (perm.subset member)
    | some one =>
        cases found' : permuted.find? p with
        | none =>
            rw [List.find?_eq_none] at found'
            have member := perm.symm.subset (List.mem_of_find?_eq_some found)
            exact absurd (List.find?_some found) (found' one member)
        | some two =>
            exact congrArg some (unique two (perm.subset (List.mem_of_find?_eq_some found')) one
              (List.mem_of_find?_eq_some found) (List.find?_some found') (List.find?_some found))

end Occurrence
