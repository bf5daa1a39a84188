/-
Module: Unshield.Foundation.SegmentedStream
Purpose: Reading a stream that lies cut into segments, when a read may not start at the end of a
  segment.
Trusted boundary: none
Main exports: SegmentedStream.read, SegmentedStream.IsEnd, SegmentedStream.readMany,
  SegmentedStream.exists_readMany_iff
-/
import Mathlib.Data.List.Basic
import Mathlib.Algebra.BigOperators.Group.List.Basic
import Mathlib.Algebra.Ring.Nat

namespace SegmentedStream

variable {α : Type}

/-!
A stream is what is left of the current segment and the segments after it.  A read takes what it
needs out of the current segment and goes on in the next one.  It needs at least one unit of the
current segment, also when it starts: a read that finds the current segment used up fails.
-/

/-- Read `size` units: the units, the rest of the segment then current and the segments after it. -/
def read : Nat → List α → List (List α) → Option (List α × List α × List (List α))
  | size, current, [] =>
      if 0 < size ∧ 0 < current.length ∧ size ≤ current.length then
        some (current.take size, current.drop size, [])
      else none
  | size, current, next :: rest =>
      if 0 < size ∧ 0 < current.length then
        if size ≤ current.length then
          some (current.take size, current.drop size, next :: rest)
        else
          (read (size - current.length) next rest).map fun (data, left, after) =>
            (current ++ data, left, after)
      else none

/-- `position` units are the first few segments, at least one of them. -/
def IsEnd : List (List α) → Nat → Prop
  | [], _ => False
  | segment :: rest, position =>
      position = segment.length ∨ segment.length ≤ position ∧ IsEnd rest (position - segment.length)

theorem isEnd_cons (segment : List α) (rest : List (List α)) (position : Nat) :
    IsEnd (segment :: rest) position ↔ position = segment.length ∨
      segment.length ≤ position ∧ IsEnd rest (position - segment.length) := Iff.rfl

/-- No segment is empty. -/
def Solid (segments : List (List α)) : Prop := ∀ segment ∈ segments, segment ≠ []

instance [DecidableEq α] (segments : List (List α)) : Decidable (Solid segments) :=
  inferInstanceAs (Decidable (∀ segment ∈ segments, segment ≠ []))

variable {size : Nat} {current data left : List α} {rest after : List (List α)}

/-! ### One read -/

theorem read_of_le (rest : List (List α)) (pos : 0 < size) (le : size ≤ current.length) :
    read size current rest = some (current.take size, current.drop size, rest) := by
  cases rest with
  | nil => rw [read, if_pos ⟨pos, by omega, le⟩]
  | cons next rest => rw [read, if_pos ⟨pos, by omega⟩, if_pos le]

theorem read_of_gt {next : List α} (some_left : 0 < current.length) (gt : current.length < size) :
    read size current (next :: rest) =
      (read (size - current.length) next rest).map fun (data, left, after) =>
        (current ++ data, left, after) := by
  rw [read, if_pos ⟨by omega, some_left⟩, if_neg (by omega)]

theorem read_nil : read size ([] : List α) rest = none := by
  cases rest <;> simp [read]

/-- A property of reads that holds of the two ways a read can succeed. -/
theorem read_induction
    {motive : Nat → List α → List (List α) → List α → List α → List (List α) → Prop}
    (within : ∀ size current rest, 0 < size → size ≤ current.length →
      motive size current rest (current.take size) (current.drop size) rest)
    (across : ∀ size current next rest data left after, 0 < current.length → current.length < size →
      read (size - current.length) next rest = some (data, left, after) →
      motive (size - current.length) next rest data left after →
      motive size current (next :: rest) (current ++ data) left after)
    (h : read size current rest = some (data, left, after)) :
    motive size current rest data left after := by
  induction rest generalizing size current data with
  | nil =>
      rw [read] at h
      split at h
      · rename_i enough
        rw [Option.some.injEq, Prod.mk.injEq, Prod.mk.injEq] at h
        obtain ⟨rfl, rfl, rfl⟩ := h
        exact within size current [] enough.1 enough.2.2
      · cases h
  | cons next rest ih =>
      rw [read] at h
      split at h
      · rename_i pos
        split at h
        · rename_i le
          rw [Option.some.injEq, Prod.mk.injEq, Prod.mk.injEq] at h
          obtain ⟨rfl, rfl, rfl⟩ := h
          exact within size current (next :: rest) pos.1 le
        · rename_i gt
          rw [Option.map_eq_some_iff] at h
          obtain ⟨⟨inner, left', after'⟩, innerRead, eq⟩ := h
          rw [Prod.mk.injEq, Prod.mk.injEq] at eq
          obtain ⟨rfl, rfl, rfl⟩ := eq
          exact across size current next rest inner left' after' pos.2 (by omega) innerRead
            (ih innerRead)
      · cases h

theorem pos_of_read (h : read size current rest = some (data, left, after)) :
    0 < size ∧ 0 < current.length := by
  refine read_induction (motive := fun size current _ _ _ _ => 0 < size ∧ 0 < current.length)
    ?_ ?_ h
  · intro size current rest pos le
    exact ⟨pos, by omega⟩
  · intro size current next rest data left after some_left gt _ _
    exact ⟨by omega, some_left⟩

/-- A read delivers the first units of the stream and leaves the others. -/
theorem append_of_read (h : read size current rest = some (data, left, after)) :
    data.length = size ∧ data ++ (left ++ after.flatten) = current ++ rest.flatten := by
  refine read_induction
    (motive := fun size current rest data left after =>
      data.length = size ∧ data ++ (left ++ after.flatten) = current ++ rest.flatten) ?_ ?_ h
  · intro size current rest _ le
    refine ⟨by rw [List.length_take]; omega, ?_⟩
    rw [← List.append_assoc, List.take_append_drop]
  · intro size current next rest data left after _ gt _ ih
    refine ⟨by rw [List.length_append, ih.1]; omega, ?_⟩
    rw [List.append_assoc, ih.2, List.flatten_cons]

theorem solid_of_read (solid : Solid rest) (h : read size current rest = some (data, left, after)) :
    Solid after := by
  refine read_induction (motive := fun _ _ rest _ _ after => Solid rest → Solid after) ?_ ?_ h solid
  · intro size current rest _ _ solid
    exact solid
  · intro size current next rest data left after _ _ _ ih solid
    exact ih fun segment member => solid segment (List.mem_cons_of_mem _ member)

theorem after_eq_nil (h : read size current [] = some (data, left, after)) : after = [] := by
  rw [read] at h
  split at h
  · rw [Option.some.injEq, Prod.mk.injEq, Prod.mk.injEq] at h
    exact h.2.2.symm
  · cases h

/-- A read that starts inside a segment and ends inside the stream succeeds. -/
theorem exists_read (pos : 0 < size) (some_left : current ≠ []) (solid : Solid rest)
    (fits : size ≤ (current ++ rest.flatten).length) :
    ∃ data left after, read size current rest = some (data, left, after) := by
  induction rest generalizing size current with
  | nil =>
      refine ⟨_, _, _, read_of_le _ pos ?_⟩
      simpa using fits
  | cons next rest ih =>
      have nonempty : 0 < current.length := List.length_pos_iff.2 some_left
      by_cases le : size ≤ current.length
      · exact ⟨_, _, _, read_of_le _ pos le⟩
      · have gt : current.length < size := by omega
        rw [List.length_append, List.flatten_cons] at fits
        obtain ⟨data, left, after, inner⟩ := ih (by omega : 0 < size - current.length)
          (solid next List.mem_cons_self)
          (fun segment member => solid segment (List.mem_cons_of_mem _ member)) (by omega)
        exact ⟨current ++ data, left, after, by rw [read_of_gt nonempty gt, inner]; rfl⟩

/-- After a read the ends of the segments are where they were. -/
theorem isEnd_of_read (h : read size current rest = some (data, left, after)) (position : Nat) :
    IsEnd (left :: after) position ↔ IsEnd (current :: rest) (size + position) := by
  refine read_induction
    (motive := fun size current rest _ left after =>
      IsEnd (left :: after) position ↔ IsEnd (current :: rest) (size + position)) ?_ ?_ h
  · intro size current rest _ le
    simp only [IsEnd, List.length_drop]
    have same : position - (current.length - size) = size + position - current.length := by omega
    rw [same]
    constructor
    · rintro (eq | ⟨le', later⟩)
      · exact Or.inl (by omega)
      · exact Or.inr ⟨by omega, later⟩
    · rintro (eq | ⟨le', later⟩)
      · exact Or.inl (by omega)
      · exact Or.inr ⟨by omega, later⟩
  · intro size current next rest data left after _ gt _ ih
    rw [ih, isEnd_cons current]
    have same : size + position - current.length = size - current.length + position := by omega
    rw [same]
    constructor
    · intro later
      exact Or.inr ⟨by omega, later⟩
    · rintro (eq | ⟨_, later⟩)
      · omega
      · exact later

theorem not_isEnd_zero {segments : List (List α)} (solid : Solid segments) : ¬ IsEnd segments 0 := by
  cases segments with
  | nil => exact id
  | cons segment rest =>
      have nonempty := List.length_pos_iff.2 (solid segment List.mem_cons_self)
      rintro (eq | ⟨le, _⟩) <;> omega

/-- A read uses its last segment up exactly when it stops at the end of a segment. -/
theorem left_eq_nil_iff (solid : Solid rest)
    (h : read size current rest = some (data, left, after)) :
    left = [] ↔ IsEnd (current :: rest) size := by
  rw [← Nat.add_zero size, ← isEnd_of_read h]
  constructor
  · rintro rfl
    exact Or.inl rfl
  · rintro (eq | ⟨_, later⟩)
    · exact List.length_eq_zero_iff.1 eq.symm
    · exact absurd later (by simpa using not_isEnd_zero (solid_of_read solid h))

/-! ### A sequence of reads -/

/-- Read after read: all the units together, and what is left. -/
def readMany : List Nat → List α → List (List α) → Option (List α × List α × List (List α))
  | [], current, rest => some ([], current, rest)
  | size :: sizes, current, rest =>
      (read size current rest).bind fun (data, current, rest) =>
        (readMany sizes current rest).map fun (more, current, rest) => (data ++ more, current, rest)

theorem readMany_of_read {sizes : List Nat}
    (h : read size current rest = some (data, left, after)) :
    readMany (size :: sizes) current rest =
      (readMany sizes left after).map fun (more, current, rest) => (data ++ more, current, rest) := by
  rw [readMany, h]
  rfl

theorem readMany_cons {sizes : List Nat}
    (h : readMany (size :: sizes) current rest = some (data, left, after)) :
    ∃ first current' rest' more, read size current rest = some (first, current', rest') ∧
      data = first ++ more ∧ readMany sizes current' rest' = some (more, left, after) := by
  rw [readMany, Option.bind_eq_some_iff] at h
  obtain ⟨⟨first, current', rest'⟩, firstRead, h⟩ := h
  rw [Option.map_eq_some_iff] at h
  obtain ⟨⟨more, current'', rest''⟩, moreRead, eq⟩ := h
  rw [Prod.mk.injEq, Prod.mk.injEq] at eq
  obtain ⟨rfl, rfl, rfl⟩ := eq
  exact ⟨first, current', rest', more, firstRead, rfl, moreRead⟩

theorem readMany_append_of_some {sizes : List Nat} (others : List Nat)
    (h : readMany sizes current rest = some (data, left, after)) :
    readMany (sizes ++ others) current rest =
      (readMany others left after).map fun (more, current, rest) => (data ++ more, current, rest) := by
  induction sizes generalizing current rest data with
  | nil =>
      rw [readMany, Option.some.injEq, Prod.mk.injEq, Prod.mk.injEq] at h
      obtain ⟨rfl, rfl, rfl⟩ := h
      rw [List.nil_append]
      cases readMany others current rest <;> rfl
  | cons size sizes ih =>
      obtain ⟨first, current', rest', more, firstRead, rfl, moreRead⟩ := readMany_cons h
      rw [List.cons_append, readMany_of_read firstRead, ih moreRead, Option.map_map]
      congr 1
      funext ⟨data, left, after⟩
      simp

theorem readMany_append_of_none {sizes : List Nat} (others : List Nat)
    (h : readMany sizes current rest = none) : readMany (sizes ++ others) current rest = none := by
  induction sizes generalizing current rest with
  | nil => cases h
  | cons size sizes ih =>
      rw [readMany, Option.bind_eq_none_iff] at h
      rw [List.cons_append, readMany, Option.bind_eq_none_iff]
      rintro ⟨first, current', rest'⟩ firstRead
      have others := h _ firstRead
      rw [Option.map_eq_none_iff] at others ⊢
      exact ih others

/-- In one segment every sequence of reads succeeds that does not ask for too much. -/
theorem exists_readMany_single {sizes : List Nat} (positive : ∀ size ∈ sizes, 0 < size)
    (fits : sizes.sum ≤ current.length) :
    ∃ data left after, readMany sizes current [] = some (data, left, after) := by
  induction sizes generalizing current with
  | nil => exact ⟨_, _, _, rfl⟩
  | cons size sizes ih =>
      rw [List.sum_cons] at fits
      have first : read size current [] = some (current.take size, current.drop size, []) :=
        read_of_le _ (positive size List.mem_cons_self) (by omega)
      obtain ⟨more, left, after, others⟩ := @ih (current.drop size)
        (fun size member => positive size (List.mem_cons_of_mem _ member))
        (by rw [List.length_drop]; omega)
      refine ⟨current.take size ++ more, left, after, ?_⟩
      rw [readMany_of_read first, others]
      rfl

/-- The positions at which a read starts, the first one apart, are not ends of segments. -/
def AvoidsEnds (segments : List (List α)) : List Nat → Nat → Prop
  | [], _ => True
  | [_], _ => True
  | size :: next :: sizes, start =>
      ¬ IsEnd segments (start + size) ∧ AvoidsEnds segments (next :: sizes) (start + size)

theorem avoidsEnds_shift {segments segments' : List (List α)} {shift : Nat}
    (same : ∀ position, IsEnd segments' position ↔ IsEnd segments (shift + position)) :
    ∀ (sizes : List Nat) (start : Nat),
      AvoidsEnds segments' sizes start ↔ AvoidsEnds segments sizes (shift + start) := by
  intro sizes
  induction sizes with
  | nil => exact fun _ => Iff.rfl
  | cons size sizes ih =>
      intro start
      cases sizes with
      | nil => exact Iff.rfl
      | cons next sizes =>
          rw [AvoidsEnds, AvoidsEnds, same, ih, Nat.add_assoc]

/-- Reads of at least one unit, within the stream, succeed exactly when none but the first starts at
the end of a segment. -/
theorem exists_readMany_iff {sizes : List Nat} (positive : ∀ size ∈ sizes, 0 < size)
    (some_left : current ≠ []) (solid : Solid rest)
    (fits : sizes.sum ≤ (current ++ rest.flatten).length) :
    (∃ data left after, readMany sizes current rest = some (data, left, after)) ↔
      AvoidsEnds (current :: rest) sizes 0 := by
  induction sizes generalizing current rest with
  | nil => exact ⟨fun _ => trivial, fun _ => ⟨_, _, _, rfl⟩⟩
  | cons size sizes ih =>
      rw [List.sum_cons] at fits
      obtain ⟨data, left, after, first⟩ := exists_read (positive size List.mem_cons_self) some_left
        solid (by omega)
      have after_solid := solid_of_read solid first
      cases sizes with
      | nil =>
          refine ⟨fun _ => trivial, fun _ => ⟨data ++ [], left, after, ?_⟩⟩
          rw [readMany_of_read first]
          rfl
      | cons next sizes =>
          rw [AvoidsEnds, Nat.zero_add, ← left_eq_nil_iff solid first]
          by_cases used_up : left = []
          · -- the next read finds the current segment used up
            subst used_up
            refine ⟨?_, fun ⟨not_nil, _⟩ => absurd rfl not_nil⟩
            rintro ⟨_, _, _, h⟩
            rw [readMany_of_read first, readMany, read_nil] at h
            cases h
          · have remaining : (next :: sizes).sum ≤ (left ++ after.flatten).length := by
              have parts := append_of_read first
              have lengths := congrArg List.length parts.2
              rw [List.length_append, parts.1] at lengths
              omega
            have positive' : ∀ size ∈ next :: sizes, 0 < size :=
              fun size member => positive size (List.mem_cons_of_mem _ member)
            have step := ih positive' used_up after_solid remaining
            rw [avoidsEnds_shift (isEnd_of_read first), Nat.add_zero] at step
            rw [← step]
            constructor
            · rintro ⟨_, _, _, h⟩
              rw [readMany_of_read first, Option.map_eq_some_iff] at h
              obtain ⟨⟨more, left', after'⟩, moreRead, _⟩ := h
              exact ⟨used_up, more, left', after', moreRead⟩
            · rintro ⟨_, more, left', after', moreRead⟩
              exact ⟨data ++ more, left', after', by rw [readMany_of_read first, moreRead]; rfl⟩

end SegmentedStream
