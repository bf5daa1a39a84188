/-
Module: Unshield.Proofs.GroupIteration
Purpose: The loops of the helpers over the files of a group: they come to each index once and in order and
  stop, unless the last index is the largest number of type int.
Trusted boundary: none
Main exports: Lost, IteratesGroup, counts_helperTurn, iteratesGroup_of_room, never_returns_at_intMax,
  iteratesGroup_iff, overflows_at_intMax
-/
import Unshield.Foundation.CountedLoop
import Unshield.Proofs.ListingBounds

namespace Unshield

open Procedure

variable {σ H : Type}

/-! ### What the loop is to do -/

section

variable (condition call : Int → Proc (Library σ) Bool)

/-- The call for a file does not come back: the process has ended in it. -/
def Lost (index : Int) (program : Program σ) : Prop :=
  ∀ success program', processFile condition call index program ≠ (.ret success, program')

/-- The loop over the files of a group does what it is for. -/
structure IteratesGroup (first last : Int) (start : Program σ) : Prop where
  /-- The turns have the indices from `first` on, in order and without a repetition. -/
  in_order : ∀ turns vars program,
    Proc.Tally (helperTurn condition call last) (fun _ _ => 1) (first, 0) start turns vars program →
      vars.1 = first + turns
  /-- `i++` does not overflow. -/
  no_overflow : ∀ vars program,
    Proc.Visits (helperTurn condition call last) (first, 0) start vars program → vars.1 ≤ last →
      ¬ Lost condition call vars.1 program → addInt vars.1 1 = .ret (vars.1 + 1)
  /-- If the calls for the files come back, the loop stops. -/
  stops : (∀ vars program,
      Proc.Visits (helperTurn condition call last) (first, 0) start vars program → vars.1 ≤ last →
        ¬ Lost condition call vars.1 program) →
    ∃ count program, helperLoop condition call first last start = (.ret count, program)
  /-- A loop that has stopped has come to each index of the group. -/
  complete : ∀ count program, helperLoop condition call first last start = (.ret count, program) →
    ∀ i, first ≤ i → i ≤ last → ∃ vars between,
      Proc.Visits (helperTurn condition call last) (first, 0) start vars between ∧ vars.1 = i

end

/-! ### One turn -/

section

variable {condition call : Int → Proc (Library σ) Bool} {first last : Int} {vars : Int × Int}
  {program start : Program σ}

theorem addInt_of_le {one two : Int} (fits : one + two ≤ intMax) : addInt one two = .ret (one + two) := by
  rw [addInt, if_pos fits]

/-- The loop of a helper counts `i`. -/
theorem counts_helperTurn (condition call : Int → Proc (Library σ) Bool) (last : Int) :
    Proc.Counts (helperTurn condition call last) Prod.fst last where
  steps := by
    intro vars program next program' run
    rcases helperTurn_eq_ret run with ⟨-, stops, -⟩ | ⟨-, success, -, same⟩
    · cases stops
    · obtain rfl := Proc.Turn.again.inj same
      rfl
  late := by
    intro vars program result program' run
    rcases helperTurn_eq_ret run with ⟨behind, -, -⟩ | ⟨-, success, -, same⟩
    · exact behind
    · cases same
  ends := by
    intro vars program behind
    refine ⟨vars.2, program, ?_⟩
    rw [helperTurn, if_neg (Int.not_le.2 behind)]
    rfl

/-- A turn whose call comes back returns if neither counter overflows. -/
theorem helperTurn_returns (going : vars.1 ≤ last) (found : ¬ Lost condition call vars.1 program)
    (counted : ∀ program', processFile condition call vars.1 program = (.ret true, program') →
      vars.2 + 1 ≤ intMax) (room : vars.1 + 1 ≤ intMax) :
    ∃ outcome program', helperTurn condition call last vars program = (.ret outcome, program') := by
  simp only [Lost, ne_eq, not_forall, not_not] at found
  obtain ⟨success, program', processed⟩ := found
  rw [helperTurn, if_pos going, Proc.bind_of_ret processed]
  cases success with
  | true =>
      rw [if_pos rfl, addInt_of_le (counted program' processed), Proc.ofExit_ret_bind_run, addInt_of_le room]
      exact ⟨_, _, rfl⟩
  | false =>
      rw [if_neg Bool.false_ne_true, Proc.ofExit_ret_bind_run, addInt_of_le room]
      exact ⟨_, _, rfl⟩

/-- A turn that goes on has not gone past the largest number. -/
theorem helperTurn_within {next : Int × Int} {program' : Program σ}
    (run : helperTurn condition call last vars program = (.ret (.again next), program')) :
    next.1 ≤ intMax := by
  by_cases going : vars.1 ≤ last
  · rw [helperTurn, if_pos going, Proc.bind_eq_ret_iff] at run
    obtain ⟨success, between, -, run⟩ := run
    rw [Proc.ofExit_bind_eq_ret_iff] at run
    obtain ⟨total, -, run⟩ := run
    rw [Proc.ofExit_bind_eq_ret_iff] at run
    obtain ⟨i, stepped, run⟩ := run
    cases run
    rw [addInt] at stepped
    split at stepped
    · rename_i fits
      rw [← Exit.ret.inj stepped]
      exact fits
    · cases stepped
  · rw [helperTurn, if_neg going] at run
    cases run

/-! ### Room for the index -/

/-- The condition is met by indices of files only. -/
def OnlyFiles (archive : Archive) (condition : Int → Proc (Library σ) Bool) : Prop :=
  ∀ index library library', condition index library = (.ret true, library') →
    ValidIndex archive.header index

/-- A file that counts has an index in the table. -/
theorem OnlyFiles.of_processFile {archive : Archive} (files : OnlyFiles archive condition) {index : Int}
    {program' : Program σ} (processed : processFile condition call index program = (.ret true, program')) :
    ValidIndex archive.header index := by
  obtain ⟨chosen, between, chose, called⟩ := Proc.bind_eq_ret_iff.1 processed
  rcases answered : condition index program.library with ⟨exit, library⟩
  rw [inLibrary, answered, Prod.mk.injEq] at chose
  cases chosen with
  | true => exact files index program.library library (by rw [answered, chose.1])
  | false => cases called

theorem ValidIndex.lt_intMax {header : Header} {index : Int} (valid : ValidIndex header index) :
    0 ≤ index ∧ index < intMax := by
  have bound := Int32.toInt_lt header.cab.fileCount.toInt32
  have below := valid.2
  rw [intMax]
  exact ⟨valid.1, by omega⟩

/-- Not more files have been counted than there are indices of files. -/
theorem count_le_of_visits {archive : Archive} (files : OnlyFiles archive condition)
    (visits : Proc.Visits (helperTurn condition call last) (first, 0) start vars program) :
    vars.2 ≤ max 0 vars.1 := by
  refine @Proc.Visits.holds _ _ _ _ (fun vars _ => vars.2 ≤ max 0 vars.1) _ _ _ _
    (Int.le_max_left 0 first) ?_ visits
  intro vars program next program' bound run
  rcases helperTurn_eq_ret run with ⟨-, stops, -⟩ | ⟨-, success, processed, same⟩
  · cases stops
  · obtain rfl := Proc.Turn.again.inj same
    cases success with
    | true =>
        have valid := files.of_processFile processed
        show vars.2 + 1 ≤ max 0 (vars.1 + 1)
        have nonneg := valid.1
        omega
    | false =>
        show vars.2 + 0 ≤ max 0 (vars.1 + 1)
        omega

/-- As long as there is a number behind the last index, the loop does what it is for. -/
theorem iteratesGroup_of_room {archive : Archive} (files : OnlyFiles archive condition)
    (room : last < intMax ∨ last < first) : IteratesGroup condition call first last start := by
  have counts := counts_helperTurn condition call last
  have next_fits : ∀ vars program,
      Proc.Visits (helperTurn condition call last) (first, 0) start vars program → vars.1 ≤ last →
        vars.1 + 1 ≤ intMax := by
    intro vars program visits going
    have behind : first ≤ vars.1 := counts.index_le_of_visits visits
    omega
  constructor
  · intro turns vars program tally
    exact counts.index_of_tally tally
  · intro vars program visits going _
    exact addInt_of_le (next_fits vars program visits going)
  · intro found
    rcases @Proc.Counts.returns_or_lost _ _ _ _ _ _ counts _ (first, 0) start (Nat.lt_succ_self _) with
      returned | ⟨vars, program, visits, going, lost⟩
    · exact returned
    · obtain ⟨outcome, program', turn⟩ := helperTurn_returns going (found vars program visits going) (by
        intro program' processed
        have valid := (files.of_processFile processed).lt_intMax
        have bound := count_le_of_visits files visits
        omega) (next_fits vars program visits going)
      exact absurd turn (lost outcome program')
  · intro count program returned i behind before
    obtain ⟨final, between, visits, past⟩ := counts.visits_behind returned
    exact counts.visits_each visits behind (by omega)

/-- The loop never gets behind the largest number. -/
theorem never_returns_at_intMax (first_le : first ≤ intMax) (count : Int) (program : Program σ) :
    helperLoop condition call first intMax start ≠ (.ret count, program) := by
  intro returned
  obtain ⟨final, between, visits, past⟩ := (counts_helperTurn condition call intMax).visits_behind returned
  have within : final.1 ≤ intMax :=
    @Proc.Visits.holds _ _ _ _ (fun vars _ => vars.1 ≤ intMax) _ _ _ _ first_le
      (fun _ _ _ _ _ run => helperTurn_within run) visits
  omega

/-- Where no index is that of a file, no call is lost. -/
theorem not_iteratesGroup_at_intMax (first_le : first ≤ intMax)
    (none_chosen : ∀ index library, condition index library = (.ret false, library)) :
    ¬ IteratesGroup condition call first intMax start := by
  intro iterates
  obtain ⟨count, program, returned⟩ := iterates.stops (by
    intro vars program _ _ lost
    apply lost false program
    show Proc.bind (inLibrary (condition vars.1)) _ program = _
    rw [Proc.bind, inLibrary, none_chosen]
    rfl)
  exact never_returns_at_intMax first_le count program returned

end

/-! ### The three helpers -/

theorem onlyFiles_fileIsValid (archive : Archive) :
    OnlyFiles archive (Calls.fileIsValid archive : Int → Proc (Library σ) Bool) := by
  intro index library library' answered
  rw [Calls.fileIsValid] at answered
  split at answered
  · rename_i valid
    exact valid
  · cases answered

theorem onlyFiles_extractCondition (env : Environment σ H) (archive : Archive) (settings : Settings)
    (fnmatch : Bytes → Bytes → Bool) : OnlyFiles archive (extractCondition env archive settings fnmatch) := by
  intro index library library' answered
  obtain ⟨valid, between, asked, answered⟩ := Proc.bind_eq_ret_iff.1 answered
  cases valid with
  | true => exact onlyFiles_fileIsValid archive index library between asked
  | false => cases answered

/-- A cabinet without files. -/
def emptyArchive : Archive where
  header := { namedHeader [] [] with cab := { (namedHeader [] []).cab with fileCount := 0 } }
  filenamePattern := []

theorem fileIsValid_emptyArchive (index : Int) (library : Library σ) :
    Calls.fileIsValid emptyArchive index library = (.ret false, library) := by
  have outside : ¬ ValidIndex emptyArchive.header index := by
    rintro ⟨nonneg, below⟩
    have zero : emptyArchive.header.cab.fileCount.toInt32.toInt = 0 := by decide
    omega
  rw [Calls.fileIsValid, if_neg outside]
  rfl

theorem extractCondition_emptyArchive (env : Environment σ H) (settings : Settings)
    (fnmatch : Bytes → Bytes → Bool) (index : Int) (library : Library σ) :
    extractCondition env emptyArchive settings fnmatch index library = (.ret false, library) := by
  rw [extractCondition, Proc.bind_of_ret (fileIsValid_emptyArchive index library)]
  rfl

/-- The loops of the three helpers do what they are for, on every cabinet and in every state, exactly if
the last index of the group has a successor of type `int` or the group is empty. -/
theorem iteratesGroup_iff (first last : Int32) :
    ((∀ (σ H : Type) (env : Environment σ H) (system : System σ) (archive : Archive) (settings : Settings)
          (locale : Locale) (fnmatch : Bytes → Bytes → Bool) (fuel : Nat)
          (namePrefix : Exit (Option Bytes)) (start : Program σ),
        IteratesGroup (extractCondition env archive settings fnmatch)
          (extractFileUnder env system archive settings locale fuel namePrefix)
          first.toInt last.toInt start) ↔
      last.toInt < intMax ∨ last.toInt < first.toInt) ∧
    ((∀ (σ H : Type) (env : Environment σ H) (archive : Archive) (settings : Settings) (fuel : Nat)
          (start : Program σ),
        IteratesGroup (Calls.fileIsValid archive) (testFile env archive settings fuel)
          first.toInt last.toInt start) ↔
      last.toInt < intMax ∨ last.toInt < first.toInt) ∧
    ((∀ (σ H : Type) (env : Environment σ H) (archive : Archive) (settings : Settings)
          (fnmatch : Bytes → Bytes → Bool) (print : Bytes → σ → σ) (namePrefix : Exit (Option Bytes))
          (start : Program σ),
        IteratesGroup (extractCondition env archive settings fnmatch)
          (Listing.listFile env archive print namePrefix) first.toInt last.toInt start) ↔
      last.toInt < intMax ∨ last.toInt < first.toInt) := by
  have first_le : first.toInt ≤ intMax := Int32.toInt_le first
  have full : ¬ (last.toInt < intMax ∨ last.toInt < first.toInt) → last.toInt = intMax := by
    intro no_room
    have last_le : last.toInt ≤ intMax := Int32.toInt_le last
    omega
  refine ⟨⟨fun all => ?_, fun room _ _ env _ archive settings _ fnmatch _ _ _ => ?_⟩,
    ⟨fun all => ?_, fun room _ _ _ archive _ _ _ => ?_⟩,
    ⟨fun all => ?_, fun room _ _ env archive settings fnmatch _ _ _ => ?_⟩⟩
  · by_contra no_room
    have iterates := all _ _ smallLibraries.onWorld World.system emptyArchive Listing.listSettings asciiLocale
      (fun _ _ => true) 0 (.ret none) Listing.listStart
    rw [full no_room] at iterates
    exact not_iteratesGroup_at_intMax first_le (extractCondition_emptyArchive _ _ _) iterates
  · exact iteratesGroup_of_room (onlyFiles_extractCondition env archive settings fnmatch) room
  · by_contra no_room
    have iterates := all _ _ smallLibraries.onWorld emptyArchive Listing.listSettings 0 Listing.listStart
    rw [full no_room] at iterates
    exact not_iteratesGroup_at_intMax first_le fileIsValid_emptyArchive iterates
  · exact iteratesGroup_of_room (onlyFiles_fileIsValid archive) room
  · by_contra no_room
    have iterates := all _ _ smallLibraries.onWorld emptyArchive Listing.listSettings (fun _ _ => true)
      (fun _ world => world) (.ret none) Listing.listStart
    rw [full no_room] at iterates
    exact not_iteratesGroup_at_intMax first_le (extractCondition_emptyArchive _ _ _) iterates
  · exact iteratesGroup_of_room (onlyFiles_extractCondition env archive settings fnmatch) room

/-- `i++` overflows in each of the helpers, already in the first turn of this group. -/
theorem overflows_at_intMax :
    (extractHelper smallLibraries.onWorld World.system emptyArchive Listing.listSettings asciiLocale
        (fun _ _ => true) 0 (.ret none) 2147483647 2147483647 Listing.listStart).1 = .fault ∧
      (testHelper smallLibraries.onWorld emptyArchive Listing.listSettings 0 (.ret none) 2147483647 2147483647
        Listing.listStart).1 = .fault ∧
      (Listing.listFilesHelper smallLibraries.onWorld emptyArchive Listing.listSettings (fun _ _ => true)
        (fun _ world => world) (.ret none) 2147483647 2147483647 Listing.listStart).1 = .fault := by
  refine ⟨?_, ?_, ?_⟩ <;> decide +kernel

end Unshield
