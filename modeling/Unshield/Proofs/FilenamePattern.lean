/-
Module: Unshield.Proofs.FilenamePattern
Purpose: The names that are derived for the volumes of a cabinet, and the paths for which these are the
  names that the stored pattern prints.
Trusted boundary: none
Main exports: PathParts, createFilenamePattern_parts, exists_createFilenamePattern, DerivesNames,
  derivesNames_iff, doubled_percent_lost
-/
import Unshield.Core.OpenForReading
import Mathlib.Data.List.TakeWhile

namespace Unshield

open Procedure
open Formatting (Conversions percent decimal printf plainConversions)

/-! ### Parts of a path -/

theorem strrchr_eq_none {byte : UInt8} {path : Bytes} (absent : byte ∉ path) : strrchr byte path = none := by
  induction path with
  | nil => rfl
  | cons first path ih =>
      obtain ⟨other, absent⟩ := not_or.1 (List.mem_cons.not.1 absent)
      rw [strrchr, ih absent]
      exact if_neg (Ne.symm other)

theorem strrchr_append_cons {byte : UInt8} (front : Bytes) {back : Bytes} (last : byte ∉ back) :
    strrchr byte (front ++ byte :: back) = some front.length := by
  induction front with
  | nil =>
      rw [List.nil_append, strrchr, strrchr_eq_none last]
      exact if_pos rfl
  | cons first front ih => rw [List.cons_append, strrchr, ih, List.length_cons]

/-- A path cut into its directory with the last separator, the letters that the names of all volumes begin
with, and the rest from the first digit or dot on. -/
structure PathParts (directory stem rest : Bytes) : Prop where
  directory_ends : directory = [] ∨ ∃ front, directory = front ++ [slash]
  stem_goes_on : ∀ byte ∈ stem, ¬ EndsPrefix byte ∧ byte ≠ slash
  rest_begins : ∀ byte ∈ rest.head?, EndsPrefix byte
  rest_last : slash ∉ rest

section

variable {directory stem rest : Bytes}

/-- Every path has such parts. -/
theorem exists_pathParts (path : Bytes) :
    ∃ directory stem rest, path = directory ++ stem ++ rest ∧ PathParts directory stem rest := by
  have cut : ∃ directory name, path = directory ++ name ∧ slash ∉ name ∧
      (directory = [] ∨ ∃ front, directory = front ++ [slash]) := by
    by_cases separated : slash ∈ path
    · obtain ⟨back, front, reversed, last⟩ := List.eq_append_cons_of_mem (List.mem_reverse.2 separated)
      refine ⟨front.reverse ++ [slash], back.reverse, ?_, List.mem_reverse.not.2 last, .inr ⟨_, rfl⟩⟩
      rw [← List.reverse_reverse path, reversed, List.reverse_append, List.reverse_cons]
    · exact ⟨[], path, rfl, separated, .inl rfl⟩
  obtain ⟨directory, name, rfl, last, ends⟩ := cut
  refine ⟨directory, name.takeWhile fun byte => ¬ EndsPrefix byte,
    name.dropWhile fun byte => ¬ EndsPrefix byte, ?_, ends, fun byte member => ⟨?_, ?_⟩, ?_, ?_⟩
  · rw [List.append_assoc, List.takeWhile_append_dropWhile]
  · exact of_decide_eq_true (@List.mem_takeWhile_imp _ (fun byte => decide ¬ EndsPrefix byte) name _ member)
  · rintro rfl
    exact last ((List.takeWhile_sublist _).mem member)
  · intro byte first
    have refused := List.head?_dropWhile_not (fun byte => decide ¬ EndsPrefix byte) name
    rw [Option.mem_def.1 first] at refused
    exact not_not.1 (of_decide_eq_false refused)
  · exact fun member => last ((List.dropWhile_sublist _).mem member)

theorem takeWhile_stem (goes_on : ∀ byte ∈ stem, ¬ EndsPrefix byte)
    (begins : ∀ byte ∈ rest.head?, EndsPrefix byte) :
    (stem ++ rest).takeWhile (fun byte => ¬ EndsPrefix byte) = stem := by
  rw [List.takeWhile_append_of_pos fun byte member => decide_eq_true (goes_on byte member)]
  cases rest with
  | nil => exact List.append_nil stem
  | cons byte rest =>
      rw [List.takeWhile_cons_of_neg, List.append_nil]
      exact fun other => of_decide_eq_true other (begins byte rfl)

theorem createFilenamePattern_parts (parts : PathParts directory stem rest) :
    createFilenamePattern (directory ++ stem ++ rest) =
      (directory ++ stem ++ patternTail).take (patternSize - 1) := by
  obtain ⟨directory_ends, stem_goes_on, rest_begins, rest_last⟩ := parts
  have last : slash ∉ stem ++ rest :=
    List.mem_append.not.2 (not_or.2 ⟨fun member => (stem_goes_on _ member).2 rfl, rest_last⟩)
  rw [createFilenamePattern, List.append_assoc directory stem rest]
  rcases directory_ends with rfl | ⟨front, rfl⟩
  · have cut := takeWhile_stem (fun byte member => (stem_goes_on byte member).1) rest_begins
    rw [List.nil_append, getLastPathSeparator, strrchr_eq_none last]
    simp only [Option.getD_none, List.take_zero, List.drop_zero, List.nil_append, cut]
  · have path : front ++ [slash] ++ (stem ++ rest) = front ++ slash :: (stem ++ rest) :=
      (List.append_cons front slash _).symm
    rw [path, getLastPathSeparator, strrchr_append_cons front last]
    have cut := @takeWhile_stem (slash :: stem) rest
      (List.forall_mem_cons.2 ⟨by decide, fun byte member => (stem_goes_on byte member).1⟩) rest_begins
    rw [List.cons_append] at cut
    simp only [Option.getD_some, List.take_left', List.drop_left', cut]
    rw [List.append_cons front slash stem]

/-- The pattern of any path consists of its directory, its stem and the tail. -/
theorem exists_createFilenamePattern (path : Bytes) :
    ∃ directory stem rest, path = directory ++ stem ++ rest ∧ PathParts directory stem rest ∧
      createFilenamePattern path = (directory ++ stem ++ patternTail).take (patternSize - 1) := by
  obtain ⟨directory, stem, rest, rfl, parts⟩ := exists_pathParts path
  exact ⟨directory, stem, rest, rfl, parts, createFilenamePattern_parts parts⟩

end

/-! ### Derived names -/

section

variable (conversions : Conversions) (pathMax : Nat)

/-- Every volume name that is derived from a path, and that is not too long for the system, is the one that
begins with the stem. -/
def DerivesNames (path stem : Bytes) : Prop :=
  ∀ index : Nat, index < 2 ^ 31 → ∀ suffix : Bytes,
    (stem ++ decimal index ++ dot :: suffix).length < pathMax →
      getFilename conversions pathMax (createFilenamePattern path) index suffix =
        .ret (stem ++ decimal index ++ dot :: suffix)

end

section

variable {conversions : Conversions} {pathMax : Nat} {stem : Bytes}

theorem printf_pattern (plain : percent ∉ stem) (index : Int) (suffix : Bytes) :
    printf conversions none (stem ++ patternTail) [.int index, .string suffix] =
      some (stem ++ decimal index ++ dot :: suffix) := by
  rw [Formatting.printf_literal plain, patternTail, Formatting.printf_int,
    Formatting.printf_byte (show dot ≠ percent by decide), Formatting.printf_string]
  simp only [printf, Option.map_some, List.append_nil, List.append_assoc]

theorem plain_arguments (index : Int) {suffix : Bytes} (plain : percent ∉ suffix) :
    ∀ argument ∈ [Formatting.Argument.int index, .string suffix], argument.Plain :=
  List.forall_mem_cons.2 ⟨trivial, List.forall_mem_singleton.2 plain⟩

theorem getFilename_eq_ret_iff {pattern : Bytes} {index : Int} {suffix name : Bytes} :
    getFilename conversions pathMax pattern index suffix = .ret name ↔
      ∃ text, printf conversions none pattern [.int index, .string suffix] = some text ∧
        text.take (pathMax - 1) = name := by
  rw [getFilename, Exit.bind_eq_ret_iff]
  simp only [Exit.ofAccess_eq_ret_iff, Exit.pure_eq, Exit.ret.injEq]

theorem length_decimal_pos (value : Int) : 0 < (decimal value).length := by
  rw [decimal, List.length_append, List.length_map]
  exact Nat.add_pos_right _ Nat.length_toDigits_pos

/-- What a pattern that derives a name begins with when it is printed. -/
theorem DerivesNames.prefix_of_printed {path : Bytes} (derives : DerivesNames conversions pathMax path stem)
    {suffix : Bytes} (short : stem.length + (suffix.length + 2) < pathMax) :
    ∃ text, printf conversions none (createFilenamePattern path) [.int 1, .string suffix] = some text ∧
      stem ++ 0x31 :: dot :: suffix <+: text := by
  have one : decimal (1 : Nat) = [0x31] := by decide
  have name : stem ++ decimal (1 : Nat) ++ dot :: suffix = stem ++ 0x31 :: dot :: suffix := by
    rw [one, List.append_assoc, List.singleton_append]
  have derived := derives 1 (by decide) suffix (by
    rw [name, List.length_append, List.length_cons, List.length_cons]
    exact short)
  obtain ⟨text, printed, cut⟩ := getFilename_eq_ret_iff.1 derived
  exact ⟨text, printed, name ▸ cut ▸ List.take_prefix _ _⟩

/-- A pattern that reaches its own first directive goes on with nothing that prints a percent sign. -/
theorem exists_silent_rest (short : stem.length < patternSize - 1) :
    ∃ silent, (stem ++ patternTail).take (patternSize - 1) = stem ++ percent :: silent ∧
      Formatting.Silent conversions silent ∧ ∀ byte ∈ silent.head?, byte ≠ percent ∧ byte ≠ 0x31 := by
  obtain ⟨room, fits⟩ := Nat.exists_eq_add_of_lt short
  refine ⟨(patternTail.drop 1).take room, ?_, ?_, ?_⟩
  · rw [fits, Nat.add_assoc, List.take_length_add_append]
    rfl
  · cases room with
    | zero => exact Formatting.silent_nil
    | succ room =>
        refine Formatting.silent_of_letter (by decide) (by decide) ?_
        exact (List.take_sublist _ _).count_le _ |>.trans (by decide)
  · intro byte first
    cases room with
    | zero => cases first
    | succ room =>
        obtain rfl := Option.some.inj first
        decide

/-- A percent sign in front of the volume's number is not printed again. -/
theorem plain_of_printed {arguments : List Formatting.Argument} {text suffix : Bytes}
    (plain : ∀ argument ∈ arguments, argument.Plain)
    (printed : printf conversions none ((stem ++ patternTail).take (patternSize - 1)) arguments = some text)
    (again : stem ++ 0x31 :: suffix <+: text) : percent ∉ stem := by
  intro sign
  by_cases short : stem.length < patternSize - 1
  · obtain ⟨silent, kept, silence, begins⟩ := @exists_silent_rest conversions stem short
    obtain ⟨front, behind, rfl, first⟩ := List.eq_append_cons_of_mem sign
    rw [kept, List.append_assoc, Formatting.printf_literal first] at printed
    obtain ⟨tail, printed_tail, rfl⟩ := Option.map_eq_some_iff.1 printed
    rw [List.append_assoc, List.prefix_append_right_inj] at again
    exact Formatting.not_printed_again silence begins plain printed_tail again
  · rw [List.take_append_of_le_length (Nat.not_lt.1 short), ← List.append_nil (List.take _ _)] at printed
    have bound : 2 * text.count percent ≤ (stem.take (patternSize - 1)).count percent :=
      Formatting.two_mul_count_le Formatting.silent_nil plain printed
    have cut := (List.take_sublist (patternSize - 1) stem).count_le percent
    have often := again.sublist.count_le percent
    rw [List.count_append] at often
    exact absurd sign (List.count_eq_zero.1 (by omega))

/-- A tail that is cut prints less than the shortest names that it is for. -/
theorem length_of_cut_tail {room : Nat} (cut : room < 5) {suffix text : Bytes}
    (printed : printf conversions none (patternTail.take room) [.int 1, .string suffix] = some text) :
    text = [] ∨ text.length < min room 3 := by
  have one : decimal 1 = [0x31] := by decide
  have other : dot ≠ percent := by decide
  rw [patternTail] at printed
  match room with
  | 0 =>
      obtain rfl := Option.some.inj printed
      exact .inl rfl
  | 1 => cases printed
  | 2 =>
      rw [List.take, List.take, List.take_zero, Formatting.printf_int, one] at printed
      obtain rfl := Option.some.inj printed
      exact .inr (by decide)
  | 3 =>
      rw [List.take, List.take, List.take, List.take_zero, Formatting.printf_int, one,
        Formatting.printf_byte other] at printed
      obtain rfl := Option.some.inj printed
      exact .inr (by decide)
  | 4 =>
      rw [List.take, List.take, List.take, List.take, List.take_zero, Formatting.printf_int, one,
        Formatting.printf_byte other] at printed
      cases printed

/-- A stem that leaves no room for the whole tail of the pattern derives wrong names. -/
theorem length_le_of_derivesNames {path : Bytes} (posix : 256 ≤ pathMax)
    (pattern : createFilenamePattern path = (stem ++ patternTail).take (patternSize - 1))
    (plain : percent ∉ stem) (short : stem.length + 2 < pathMax)
    (derives : DerivesNames conversions pathMax path stem) : stem.length ≤ 250 := by
  by_contra long
  -- one letter where the limit of the system allows it
  have named : ∃ suffix : Bytes, stem.length + (suffix.length + 2) < pathMax ∧
      min (255 - stem.length) 3 ≤ suffix.length + 2 := by
    by_cases more : stem.length ≤ 252
    · exact ⟨[0x63], by show _ + 3 < _; omega, by show _ ≤ 3; omega⟩
    · exact ⟨[], short, by show _ ≤ 2; omega⟩
  obtain ⟨suffix, fits, least⟩ := named
  obtain ⟨text, printed, again⟩ := derives.prefix_of_printed fits
  have plain_cut : percent ∉ stem.take 255 := fun sign => plain ((List.take_sublist _ _).mem sign)
  have size : patternSize - 1 = 255 := rfl
  rw [pattern, size, List.take_append, Formatting.printf_literal plain_cut] at printed
  obtain ⟨tail, printed_tail, rfl⟩ := Option.map_eq_some_iff.1 printed
  have longer := again.length_le
  rw [List.length_append, List.length_append, List.length_take, List.length_cons, List.length_cons] at longer
  rcases length_of_cut_tail (by omega) printed_tail with rfl | shorter
  · rw [List.length_nil] at longer
    omega
  · omega

end

/-- The names of volumes are derived as they should be from a path with a stem without percent signs that
is not too long for the pattern. -/
theorem derivesNames_iff {conversions : Conversions} {pathMax : Nat} {directory stem rest : Bytes}
    (parts : PathParts directory stem rest) (posix : 256 ≤ pathMax) :
    DerivesNames conversions pathMax (directory ++ stem ++ rest) (directory ++ stem) ↔
      pathMax ≤ (directory ++ stem).length + 2 ∨
        percent ∉ directory ++ stem ∧ (directory ++ stem).length ≤ 250 := by
  have pattern := createFilenamePattern_parts parts
  generalize directory ++ stem = stem at pattern ⊢
  constructor
  · intro derives
    by_contra neither
    obtain ⟨short, neither⟩ := not_or.1 neither
    have short := Nat.not_le.1 short
    obtain ⟨text, printed, again⟩ := @DerivesNames.prefix_of_printed _ _ _ _ derives [] short
    rw [pattern] at printed
    have plain := plain_of_printed (plain_arguments 1 List.not_mem_nil) printed again
    exact neither ⟨plain, length_le_of_derivesNames posix pattern plain short derives⟩
  · rintro (long | ⟨plain, short⟩) index _ suffix fits
    · have digits := length_decimal_pos index
      rw [List.length_append, List.length_append, List.length_cons] at fits
      omega
    · rw [getFilename_eq_ret_iff, pattern, List.take_of_length_le]
      · exact ⟨_, printf_pattern plain index suffix, List.take_of_length_le (Nat.le_sub_one_of_lt fits)⟩
      · rw [List.length_append]
        exact Nat.add_le_add_right short 5

/-- `a%%b/` -/
def doubledPercent : Bytes := [0x61, percent, percent, 0x62, slash]

/-- `data` -/
def dataStem : Bytes := [0x64, 0x61, 0x74, 0x61]

/-- `cab` -/
def cabSuffix : Bytes := [0x63, 0x61, 0x62]

/-- `1.cab` -/
def firstCabinet : Bytes := 0x31 :: dot :: cabSuffix

theorem cabinetParts {directory : Bytes} (ends : directory = [] ∨ ∃ front, directory = front ++ [slash]) :
    PathParts directory dataStem firstCabinet where
  directory_ends := ends
  stem_goes_on := by
    simp only [dataStem, List.forall_mem_cons, List.not_mem_nil, false_implies, implies_true]
    decide
  rest_begins := by
    intro byte first
    obtain rfl := Option.some.inj first
    decide
  rest_last := by decide

theorem derivesNames_iff_plain :
    DerivesNames plainConversions 4096 ([0x61, slash] ++ dataStem ++ firstCabinet)
        ([0x61, slash] ++ dataStem) ↔
      4096 ≤ ([0x61, slash] ++ dataStem).length + 2 ∨
        percent ∉ [0x61, slash] ++ dataStem ∧ ([0x61, slash] ++ dataStem).length ≤ 250 :=
  derivesNames_iff (cabinetParts (.inr ⟨[0x61], rfl⟩)) (by decide)

/-- A cabinet in a directory with two percent signs in its name is looked for in one with a single percent
sign. -/
theorem doubled_percent_lost :
    PathParts doubledPercent dataStem firstCabinet ∧
      ¬ DerivesNames plainConversions 4096 (doubledPercent ++ dataStem ++ firstCabinet)
        (doubledPercent ++ dataStem) ∧
      getFilename plainConversions 4096
          (createFilenamePattern (doubledPercent ++ dataStem ++ firstCabinet)) 1 cabSuffix =
        .ret ([0x61, percent, 0x62, slash] ++ dataStem ++ firstCabinet) := by
  have looked_for : getFilename plainConversions 4096
      (createFilenamePattern (doubledPercent ++ dataStem ++ firstCabinet)) 1 cabSuffix =
        .ret ([0x61, percent, 0x62, slash] ++ dataStem ++ firstCabinet) := by decide
  refine ⟨cabinetParts (.inr ⟨[0x61, percent, percent, 0x62], rfl⟩), ?_, looked_for⟩
  intro derives
  have derived := derives 1 (by decide) cabSuffix (by decide)
  exact absurd (derived.symm.trans looked_for) (by decide)

end Unshield
