/-
Module: Unshield.Foundation.Packing
Purpose: Items of different widths put one after the other into bounded room, each one left out that no
  longer fits: what is packed, and when it is the front of the items.
Trusted boundary: none
Main exports: Packing.total, Packing.pack, Packing.total_pack_le, Packing.pack_of_fits,
  Packing.NoneFitsBehind, Packing.pack_prefix_iff
-/
import Mathlib.Data.List.Basic

namespace Packing

variable {α : Type} (width : α → Nat)

/-- What the items take up together. -/
def total : List α → Nat
  | [] => 0
  | item :: items => width item + total items

@[simp] theorem total_nil : total width [] = 0 := rfl

@[simp] theorem total_cons (item : α) (items : List α) :
    total width (item :: items) = width item + total width items := rfl

/-- Each item is put into the room that is left if it fits, and left out otherwise. -/
def pack : Nat → List α → List α
  | _, [] => []
  | room, item :: items =>
      if width item ≤ room then item :: pack (room - width item) items else pack room items

theorem total_pack_le (room : Nat) (items : List α) : total width (pack width room items) ≤ room := by
  induction items generalizing room with
  | nil => exact Nat.zero_le _
  | cons item items ih =>
      rw [pack]
      split_ifs with fits
      · have rest := ih (room - width item)
        rw [total_cons]
        omega
      · exact ih room

/-- With room for all of them nothing is left out. -/
theorem pack_of_fits {room : Nat} {items : List α} (fits : total width items ≤ room) :
    pack width room items = items := by
  induction items generalizing room with
  | nil => rfl
  | cons item items ih =>
      rw [total_cons] at fits
      rw [pack, if_pos (by omega), ih (by omega)]

theorem width_le_of_mem_pack {room : Nat} {items : List α} {item : α}
    (packed : item ∈ pack width room items) : width item ≤ room := by
  induction items generalizing room with
  | nil => cases packed
  | cons first items ih =>
      rw [pack] at packed
      split_ifs at packed with fits
      · rcases List.mem_cons.1 packed with rfl | behind
        · exact fits
        · exact Nat.le_trans (ih behind) (Nat.sub_le _ _)
      · exact ih packed

theorem pack_eq_nil_iff {room : Nat} {items : List α} :
    pack width room items = [] ↔ ∀ item ∈ items, room < width item := by
  induction items with
  | nil => simp [pack]
  | cons item items ih =>
      rw [pack, List.forall_mem_cons]
      split_ifs with fits
      · constructor
        · exact nofun
        · exact fun wide => absurd fits (Nat.not_le.2 wide.1)
      · rw [ih]
        exact ⟨fun wide => ⟨Nat.not_le.1 fits, wide⟩, And.right⟩

/-- Behind the first item that does not fit in its turn there is none that would fit there. -/
def NoneFitsBehind (room : Nat) (items : List α) : Prop :=
  ∀ front item behind, items = front ++ item :: behind →
    total width front ≤ room → room < total width front + width item →
    ∀ other ∈ behind, room < total width front + width other

theorem noneFitsBehind_cons_of_fits {room : Nat} {item : α} {items : List α} (fits : width item ≤ room) :
    NoneFitsBehind width room (item :: items) ↔ NoneFitsBehind width (room - width item) items := by
  constructor
  · intro full front wide behind split within tooWide other member
    have beyond := full (item :: front) wide behind (by rw [split]; rfl)
      (by rw [total_cons]; omega) (by rw [total_cons]; omega) other member
    rw [total_cons] at beyond
    omega
  · intro full front wide behind split within tooWide other member
    cases front with
    | nil =>
        obtain ⟨rfl, -⟩ := List.cons.inj split
        rw [total_nil] at tooWide
        omega
    | cons first front =>
        obtain ⟨rfl, rest⟩ := List.cons.inj split
        rw [total_cons] at within tooWide ⊢
        have beyond := full front wide behind rest (by omega) (by omega) other member
        omega

theorem noneFitsBehind_cons_of_wide {room : Nat} {item : α} {items : List α} (wide : room < width item) :
    NoneFitsBehind width room (item :: items) ↔ ∀ other ∈ items, room < width other := by
  constructor
  · intro full other member
    have beyond := full [] item items rfl (Nat.zero_le _) (by rw [total_nil]; omega) other member
    rw [total_nil] at beyond
    omega
  · intro beyond front first behind split within tooWide other member
    cases front with
    | nil =>
        obtain ⟨rfl, rfl⟩ := List.cons.inj split
        have further := beyond other member
        rw [total_nil]
        omega
    | cons second front =>
        obtain ⟨rfl, -⟩ := List.cons.inj split
        rw [total_cons] at within
        omega

/-- What is packed is the front of the items exactly if nothing fits behind an item that does not. -/
theorem pack_prefix_iff {room : Nat} {items : List α} :
    pack width room items <+: items ↔ NoneFitsBehind width room items := by
  induction items generalizing room with
  | nil =>
      refine iff_of_true List.nil_prefix ?_
      intro front item behind split
      exact absurd split.symm (List.append_ne_nil_of_right_ne_nil _ (List.cons_ne_nil _ _))
  | cons item items ih =>
      by_cases fits : width item ≤ room
      · rw [noneFitsBehind_cons_of_fits width fits, ← ih, pack, if_pos fits, List.prefix_cons_inj]
      · have wide := Nat.not_le.1 fits
        rw [noneFitsBehind_cons_of_wide width wide, ← pack_eq_nil_iff, pack, if_neg fits]
        constructor
        · intro front
          cases packed : pack width room items with
          | nil => rfl
          | cons first rest =>
              -- the item in front would be one that does not fit
              rw [packed] at front
              obtain rfl := (List.cons_prefix_cons.1 front).1
              have member : first ∈ pack width room items := packed ▸ List.mem_cons_self
              exact absurd (width_le_of_mem_pack width member) fits
        · intro nothing
          rw [nothing]
          exact List.nil_prefix

end Packing
