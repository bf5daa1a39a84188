/-
Module: Unshield.Foundation.Formatting
Purpose: Format strings of the printf family, over conversions of which little is known: what a format
  without directives of its own prints, and how many percent signs any format can print.
Trusted boundary: human-reviewed model of the format syntax of the C library
Main exports: Formatting.Conversions, Formatting.printf, Formatting.printf_literal,
  Formatting.two_mul_count_le, Formatting.not_printed_again, Formatting.plainConversions
-/
import Mathlib.Data.List.Basic
import Mathlib.Data.List.Infix

namespace Formatting

abbrev Text := List UInt8

def percent : UInt8 := 0x25

/-- An integer in decimal. -/
def decimal (value : Int) : Text :=
  (if value < 0 then [0x2d] else []) ++ (Nat.toDigits 10 value.natAbs).map Char.toUInt8

inductive Argument where
  | int (value : Int)
  | string (text : Text)
deriving Repr, DecidableEq

/-- An argument with no percent sign in it. -/
def Argument.Plain : Argument → Prop
  | int _ => True
  | string text => percent ∉ text

/-- The bytes between the percent sign of a directive and the letter of its conversion: flags, width,
precision, the number of an argument, and length modifiers. -/
def modifierBytes : Text :=
  ['-', '+', ' ', '#', '0', '1', '2', '3', '4', '5', '6', '7', '8', '9', '*', '.', '$', 'I', 'h', 'l',
    'L', 'q', 'j', 'z', 't'].map Char.toUInt8 ++ [0x27]

/-- What the directives print: the text and the arguments that are left, and nothing where the behaviour
is undefined, as where an argument is missing or has another type. -/
structure Conversions where
  convert : Text → UInt8 → List Argument → Option (Text × List Argument)
  convert_int : ∀ value arguments, convert [] 'i'.toUInt8 (.int value :: arguments) =
    some (decimal value, arguments)
  convert_string : ∀ text arguments, convert [] 's'.toUInt8 (.string text :: arguments) =
    some (text, arguments)
  /-- No conversion makes a percent sign up. -/
  plain : ∀ modifiers letter arguments text rest, (∀ argument ∈ arguments, argument.Plain) →
    convert modifiers letter arguments = some (text, rest) → percent ∉ text
  rest_subset : ∀ modifiers letter arguments text rest,
    convert modifiers letter arguments = some (text, rest) → rest ⊆ arguments

variable (conversions : Conversions)

/-- `printf`.  Inside a directive, the modifiers so far go along.  A directive that does not end, or that
has modifiers in front of a second percent sign, is undefined. -/
def printf : Option Text → Text → List Argument → Option Text
  | none, [], _ => some []
  | some _, [], _ => none
  | none, byte :: format, arguments =>
      if byte = percent then printf (some []) format arguments
      else (printf none format arguments).map (byte :: ·)
  | some modifiers, byte :: format, arguments =>
      if byte ∈ modifierBytes then printf (some (modifiers ++ [byte])) format arguments
      else if byte = percent then
        if modifiers = [] then (printf none format arguments).map (percent :: ·) else none
      else
        match conversions.convert modifiers byte arguments with
        | some (text, arguments) => (printf none format arguments).map (text ++ ·)
        | none => none

variable {conversions}

theorem percent_not_mem_modifierBytes : percent ∉ modifierBytes := by decide

theorem printf_byte {byte : UInt8} (other : byte ≠ percent) (format : Text) (arguments : List Argument) :
    printf conversions none (byte :: format) arguments =
      (printf conversions none format arguments).map (byte :: ·) := by
  rw [printf, if_neg other]

/-- Text without percent signs prints itself. -/
theorem printf_literal {literal : Text} (plain : percent ∉ literal) (format : Text)
    (arguments : List Argument) :
    printf conversions none (literal ++ format) arguments =
      (printf conversions none format arguments).map (literal ++ ·) := by
  induction literal with
  | nil => exact Option.map_id'.symm
  | cons byte literal ih =>
      obtain ⟨other, plain⟩ := not_or.1 (List.mem_cons.not.1 plain)
      rw [List.cons_append, printf_byte (Ne.symm other), ih plain, Option.map_map]
      rfl

theorem printf_int (value : Int) (format : Text) (arguments : List Argument) :
    printf conversions none (percent :: 'i'.toUInt8 :: format) (.int value :: arguments) =
      (printf conversions none format arguments).map (decimal value ++ ·) := by
  rw [printf, if_pos rfl, printf, if_neg (by decide), if_neg (by decide), conversions.convert_int]

theorem printf_string (text format : Text) (arguments : List Argument) :
    printf conversions none (percent :: 's'.toUInt8 :: format) (.string text :: arguments) =
      (printf conversions none format arguments).map (text ++ ·) := by
  rw [printf, if_pos rfl, printf, if_neg (by decide), if_neg (by decide), conversions.convert_string]

/-! ### Percent signs -/

/-- A percent sign that has been read and can still be printed by a second one. -/
def pending (directive : Option Text) : Nat := if directive = some [] then 1 else 0

theorem pending_modified (modifiers : Text) (byte : UInt8) :
    pending (some (modifiers ++ [byte])) = 0 :=
  if_neg (by simp)

/-- Nothing that is printed by the format, wherever it is started, has a percent sign. -/
def Silent (conversions : Conversions) (format : Text) : Prop :=
  ∀ directive arguments text, (∀ argument ∈ arguments, argument.Plain) →
    printf conversions directive format arguments = some text → percent ∉ text

theorem silent_nil : Silent conversions [] := by
  intro directive arguments text _ printed
  cases directive with
  | none =>
      obtain rfl := Option.some.inj printed
      exact List.not_mem_nil
  | some modifiers => cases printed

/-- In front of a silent format, two percent signs are needed for each one that is printed. -/
theorem two_mul_count_le {silent : Text} (silence : Silent conversions silent) {format : Text}
    {directive : Option Text} {arguments : List Argument} {text : Text}
    (plain : ∀ argument ∈ arguments, argument.Plain)
    (printed : printf conversions directive (format ++ silent) arguments = some text) :
    2 * text.count percent ≤ format.count percent + pending directive := by
  induction format generalizing directive arguments text with
  | nil =>
      rw [List.count_eq_zero.2 (silence directive arguments text plain printed)]
      exact Nat.zero_le _
  | cons byte format ih =>
      rw [List.cons_append] at printed
      cases directive with
      | none =>
          rw [printf] at printed
          split at printed
          · rename_i sign
            have bound := ih plain printed
            rw [sign, List.count_cons_self]
            exact bound
          · rename_i other
            obtain ⟨tail, behind, rfl⟩ := Option.map_eq_some_iff.1 printed
            have bound := ih plain behind
            rw [List.count_cons_of_ne other, List.count_cons_of_ne other]
            exact bound
      | some modifiers =>
          rw [printf] at printed
          split at printed
          · rename_i modifier
            have other : byte ≠ percent := by
              rintro rfl
              exact percent_not_mem_modifierBytes modifier
            have bound := ih plain printed
            rw [pending_modified] at bound
            rw [List.count_cons_of_ne other]
            exact Nat.le_add_right_of_le bound
          · split at printed
            · rename_i sign
              split at printed
              · rename_i unmodified
                obtain ⟨tail, behind, rfl⟩ := Option.map_eq_some_iff.1 printed
                have bound : 2 * tail.count percent ≤ format.count percent := ih plain behind
                rw [sign, unmodified, List.count_cons_self, List.count_cons_self, pending, if_pos rfl]
                omega
              · cases printed
            · rename_i other
              split at printed
              · rename_i shown rest converted
                obtain ⟨tail, behind, rfl⟩ := Option.map_eq_some_iff.1 printed
                have bound := ih (fun argument member => plain argument
                  (conversions.rest_subset _ _ _ _ _ converted member)) behind
                have none_shown := conversions.plain _ _ _ _ _ plain converted
                rw [List.count_append, List.count_eq_zero.2 none_shown, Nat.zero_add,
                  List.count_cons_of_ne other]
                exact bound.trans (Nat.le_add_right _ _)
              · cases printed

/-- A letter ends a directive, and behind it there is no second percent sign for another one. -/
theorem silent_of_letter {letter : UInt8} {format : Text} (no_modifier : letter ∉ modifierBytes)
    (no_sign : letter ≠ percent) (few : format.count percent ≤ 1) :
    Silent conversions (letter :: format) := by
  intro directive arguments text plain printed
  have quiet : ∀ arguments tail, (∀ argument ∈ arguments, argument.Plain) →
      printf conversions none format arguments = some tail → percent ∉ tail := by
    intro arguments tail plain printed
    rw [← List.append_nil format] at printed
    have bound : 2 * tail.count percent ≤ format.count percent :=
      two_mul_count_le silent_nil plain printed
    exact List.count_eq_zero.1 (by omega)
  cases directive with
  | none =>
      rw [printf_byte no_sign] at printed
      obtain ⟨tail, behind, rfl⟩ := Option.map_eq_some_iff.1 printed
      exact List.mem_cons.not.2 (not_or.2 ⟨Ne.symm no_sign, quiet _ _ plain behind⟩)
  | some modifiers =>
      rw [printf, if_neg no_modifier, if_neg no_sign] at printed
      split at printed
      · rename_i shown rest converted
        obtain ⟨tail, behind, rfl⟩ := Option.map_eq_some_iff.1 printed
        refine List.mem_append.not.2 (not_or.2 ⟨conversions.plain _ _ _ _ _ plain converted, ?_⟩)
        exact quiet _ _ (fun argument member => plain argument
          (conversions.rest_subset _ _ _ _ _ converted member)) behind
      · cases printed

/-- A percent sign that is followed by another byte is not printed. -/
theorem two_mul_count_le_of_ne {silent : Text} (silence : Silent conversions silent) {byte : UInt8}
    (other : byte ≠ percent) {format : Text} {arguments : List Argument} {text : Text}
    (plain : ∀ argument ∈ arguments, argument.Plain)
    (printed : printf conversions (some []) (byte :: (format ++ silent)) arguments = some text) :
    2 * text.count percent ≤ format.count percent := by
  rw [printf, if_neg other] at printed
  split at printed
  · have bound := two_mul_count_le silence plain printed
    rw [pending_modified] at bound
    exact bound
  · split at printed
    · rename_i shown rest converted
      obtain ⟨tail, behind, rfl⟩ := Option.map_eq_some_iff.1 printed
      rw [List.count_append, List.count_eq_zero.2 (conversions.plain _ _ _ _ _ plain converted),
        Nat.zero_add]
      exact two_mul_count_le silence (fun argument member => plain argument
        (conversions.rest_subset _ _ _ _ _ converted member)) behind
    · cases printed

/-- A format in which a percent sign stands is not a format for a text in which it stands at the same
place and as often: the directive behind it does not print it again.  A second percent sign does print
it, but is not there to begin the directive. -/
theorem not_printed_again {first : UInt8} {silent : Text} (silence : Silent conversions silent)
    (begins : ∀ byte ∈ silent.head?, byte ≠ percent ∧ byte ≠ first) {behind rest : Text}
    {arguments : List Argument} {text : Text} (plain : ∀ argument ∈ arguments, argument.Plain)
    (printed : printf conversions none (percent :: (behind ++ percent :: silent)) arguments = some text) :
    ¬ percent :: (behind ++ first :: rest) <+: text := by
  intro again
  rw [printf, if_pos rfl] at printed
  cases behind with
  | nil =>
      rw [List.nil_append, printf, if_neg percent_not_mem_modifierBytes, if_pos rfl, if_pos rfl] at printed
      obtain ⟨tail, printed_tail, rfl⟩ := Option.map_eq_some_iff.1 printed
      obtain ⟨_, again⟩ := List.cons_prefix_cons.1 again
      cases silent with
      | nil =>
          obtain rfl := Option.some.inj printed_tail
          exact absurd (List.prefix_nil.1 again) (List.cons_ne_nil _ _)
      | cons byte silent =>
          obtain ⟨other, different⟩ := begins byte rfl
          rw [printf_byte other] at printed_tail
          obtain ⟨_, _, rfl⟩ := Option.map_eq_some_iff.1 printed_tail
          exact different (List.cons_prefix_cons.1 again).1.symm
  | cons byte behind =>
      have often := again.sublist.count_le percent
      rw [List.count_cons_self, List.cons_append, List.count_cons, List.count_append] at often
      have sign_last : (behind ++ [percent]).count percent = behind.count percent + 1 := by
        rw [List.count_append, List.count_singleton_self]
      rw [List.cons_append, List.append_cons] at printed
      by_cases sign : byte = percent
      · rw [sign, printf, if_neg percent_not_mem_modifierBytes, if_pos rfl, if_pos rfl] at printed
        obtain ⟨tail, printed_tail, rfl⟩ := Option.map_eq_some_iff.1 printed
        have bound : 2 * tail.count percent ≤ (behind ++ [percent]).count percent :=
          two_mul_count_le silence plain printed_tail
        rw [List.count_cons_self, if_pos (beq_iff_eq.2 sign)] at often
        omega
      · have bound := two_mul_count_le_of_ne silence sign plain printed
        omega

/-! ### Two conversions -/

theorem percent_not_mem_decimal (value : Int) : percent ∉ decimal value := by
  intro sign
  rcases List.mem_append.1 sign with sign | sign
  · split at sign
    · exact absurd (List.mem_singleton.1 sign) (by decide)
    · cases sign
  · obtain ⟨digit, member, same⟩ := List.mem_map.1 sign
    have isDigit := Nat.isDigit_of_mem_toDigits (by decide) (by decide) member
    rw [Char.isDigit, Bool.and_eq_true, decide_eq_true_eq, decide_eq_true_eq] at isDigit
    have low : 48 ≤ digit.toNat := UInt32.le_iff_toNat_le.1 isDigit.1
    have high : digit.toNat ≤ 57 := UInt32.le_iff_toNat_le.1 isDigit.2
    have byte := congrArg UInt8.toNat same
    change digit.toNat % 256 = 37 at byte
    omega

/-- Nothing but `%i` and `%s` is defined. -/
def plainConversions : Conversions where
  convert
    | [], letter, .int value :: arguments =>
        if letter = 'i'.toUInt8 then some (decimal value, arguments) else none
    | [], letter, .string text :: arguments =>
        if letter = 's'.toUInt8 then some (text, arguments) else none
    | _, _, _ => none
  convert_int _ _ := rfl
  convert_string _ _ := rfl
  plain := by
    intro modifiers letter arguments text rest plain converted
    split at converted
    · split at converted
      · cases converted
        exact percent_not_mem_decimal _
      · cases converted
    · split at converted
      · cases converted
        exact plain _ List.mem_cons_self
      · cases converted
    · cases converted
  rest_subset := by
    intro modifiers letter arguments text rest converted
    split at converted
    · split at converted
      · cases converted
        exact List.subset_cons_self _ _
      · cases converted
    · split at converted
      · cases converted
        exact List.subset_cons_self _ _
      · cases converted
    · cases converted

end Formatting
