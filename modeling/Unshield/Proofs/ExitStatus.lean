/-
Module: Unshield.Proofs.ExitStatus
Purpose: What an action that tries files has done when it ends: it has tried every file that is selected,
  in order, whatever became of the others; the total and the exit status report how they went.
Trusted boundary: none
Main exports: Consistent, isValidFile, isSelected, fileIndices, processedGroups, Tried,
  tried_of_helperLoop, runAction_reports
-/
import Mathlib.Data.Int.Range
import Unshield.Core.Actions
import Unshield.Proofs.ExtractionPath
import Unshield.Proofs.GetterStability

namespace Unshield

open Procedure

variable {σ H : Type}

/-! ### Libraries with the descriptors of the header -/

/-- The library remembers descriptors of the header only, up to what the search for a volume does to
them. -/
def Consistent (env : Environment σ H) (header : Header) (library : Library σ) : Prop :=
  Remembers env header (fun _ => True) True library

section

variable {env : Environment σ H} {archive : Archive}

theorem consistent_of_opened {header : Header} {library : Library σ}
    (opened : library.fileDescriptors = fun _ => none) : Consistent env header library where
  world := trivial
  seen := by
    intro i fd found
    rw [opened] at found
    cases found

/-- The world outside does not matter. -/
theorem Consistent.setIo {header : Header} {library : Library σ}
    (consistent : Consistent env header library) (io : σ) :
    Consistent env header { library with io } where
  world := trivial
  seen := consistent.seen

/-- What a question is answered is what the header answers. -/
theorem Consistent.ask {α : Type} {library : Library σ}
    (consistent : Consistent env archive.header library) {answer : Option FileDescriptor → Exit α}
    (blind : ∀ fd fd', UpToSearch fd fd' → answer (some fd') = answer (some fd)) (index : Int) :
    (Calls.ask archive answer index library).1 =
      answerTo answer (descriptorAt archive.header (fun _ => none) index) := by
  have fresh : (Calls.ask archive answer index library).1 =
      (Calls.ask archive answer index { fileDescriptors := fun _ => none, io := library.io }).1 :=
    Remembers.ask consistent rfl blind index
  rw [fresh, ask_exit]

theorem preserves_findFileDescriptor_consistent (index : Int) :
    Proc.Preserves (Consistent env archive.header) (findFileDescriptor archive index) :=
  preserves_findFileDescriptor preserves_getFileDescriptor_remembers index

theorem preserves_ask_consistent {α : Type} (answer : Option FileDescriptor → Exit α) (index : Int) :
    Proc.Preserves (Consistent env archive.header) (Calls.ask archive answer index) :=
  preserves_ask preserves_getFileDescriptor_remembers answer index

/-! ### Trying a file -/

theorem preserves_onLibrary {α : Type} {I : Library σ → Prop} {call : Proc (Library σ) α}
    (kept : Proc.Preserves I call) :
    Proc.Preserves (fun e : Extraction σ => I e.library) (onLibrary call) := by
  intro e holds
  have after := kept e.library holds
  rw [onLibrary]
  exact after

theorem preserves_onSystem {α : Type} (call : Proc σ α) :
    Proc.Preserves (Consistent env archive.header) (onSystem call) := by
  intro library consistent
  rw [onSystem]
  exact consistent.setIo _

theorem preserves_extractPath (system : System σ) (options : Options) (locale : Locale)
    (namePrefix : Option Bytes) (index : Int) :
    Proc.Preserves (fun e : Extraction σ => Consistent env archive.header e.library)
      (extractPath env system archive options locale namePrefix index) := by
  have descriptor : Proc.Preserves (fun e : Extraction σ => Consistent env archive.header e.library)
      (onLibrary (findFileDescriptor archive index)) :=
    preserves_onLibrary (preserves_findFileDescriptor_consistent index)
  have remember (filename : Bytes) : Proc.Preserves
      (fun e : Extraction σ => Consistent env archive.header e.library)
      (Proc.modify fun e => { e with filename := .ret filename }) := .modify fun _ holds => holds
  refine .bind descriptor fun fd => ?_
  refine .bind (.ofExit _) fun directory => ?_
  refine .bind (.ofExit _) fun dirname => ?_
  cases dirname with
  | none => exact .fail
  | some dirname =>
      refine .bind (preserves_onLibrary (preserves_onSystem _)) fun _ => ?_
      refine .bind descriptor fun fd => ?_
      refine .bind (.ofExit _) fun name => ?_
      refine .bind (remember _) fun _ => ?_
      cases convertName locale env.pathMax dirname (bufferFor options locale env.pathMax dirname name) with
      | none => exact .fail
      | some filename =>
          refine .bind (remember _) fun _ => ?_
          refine .bind (.gets _) fun io => ?_
          exact .bind (.require _) fun _ => .pure _

theorem preserves_saves (index : Int) (filename : Option Bytes) (fuel : Nat) :
    Proc.Preserves (Consistent env archive.header) (fileSave env archive fuel index filename) ∧
      Proc.Preserves (Consistent env archive.header) (fileSaveRaw env archive fuel index filename) ∧
      Proc.Preserves (Consistent env archive.header) (fileSaveOld env archive fuel index filename) :=
  (kept_trivial env).saves_remembers trivial index filename fuel

theorem preserves_saveAs (format : Format) (fuel : Nat) (index : Int) (filename : Bytes) :
    Proc.Preserves (Consistent env archive.header) (saveAs env archive format fuel index filename) := by
  cases format with
  | new => exact (preserves_saves index (some filename) fuel).1
  | old => exact (preserves_saves index (some filename) fuel).2.2
  | raw => exact (preserves_saves index (some filename) fuel).2.1

theorem preserves_saveNowhere (format : Format) (fuel : Nat) (index : Int) :
    Proc.Preserves (Consistent env archive.header) (saveNowhere env archive fuel format index) := by
  cases format with
  | new => exact (preserves_saves index none fuel).1
  | old => exact (preserves_saves index none fuel).2.2
  | raw => exact (preserves_saves index none fuel).2.1

theorem preserves_extractFile (system : System σ) (options : Options) (locale : Locale) (fuel : Nat)
    (namePrefix : Option Bytes) (index : Int) :
    Proc.Preserves (Consistent env archive.header)
      (extractFile env system archive options locale fuel namePrefix index) := by
  intro library consistent
  have extracted : Proc.Preserves (fun e : Extraction σ => Consistent env archive.header e.library)
      (Proc.onFailure
        (do extractBody env system archive options locale fuel namePrefix index; pure true)
        (do cleanUp env system archive index; pure false)) := by
    apply Proc.Preserves.onFailure
    · refine .bind (.bind (preserves_extractPath system options locale namePrefix index) fun filename => ?_)
        fun _ => .pure true
      exact preserves_onLibrary (preserves_saveAs options.format fuel index filename)
    · refine .bind (.bind (preserves_onLibrary (preserves_findFileDescriptor_consistent index)) fun fd => ?_)
        fun _ => .pure false
      refine .bind (.ofExit _) fun _ => ?_
      refine .bind (fun _ holds => holds) fun filename => ?_
      exact .modify fun e holds => holds.setIo _
  exact extracted { library, filename := freshString env } consistent

theorem preserves_testFile (settings : Settings) (fuel : Nat) (index : Int) :
    Proc.Preserves (Consistent env archive.header) (testFile env archive settings fuel index) := by
  refine .bind (preserves_ask_consistent _ index) fun _ => ?_
  apply Proc.Preserves.onFailure
  · exact .bind (preserves_saveNowhere settings.format fuel index) fun _ => .pure true
  · exact .bind (preserves_ask_consistent _ index) fun _ => .pure false

end

/-! ### Which files are selected -/

section

variable (env : Environment σ H) (archive : Archive) (settings : Settings)
  (fnmatch : Bytes → Bytes → Bool)

/-- The file is valid by its descriptor in the header. -/
def isValidFile (index : Int) : Bool :=
  answerTo Calls.isValidOf (descriptorAt archive.header (fun _ => none) index) = .ret true

/-- The name of the file in the header matches one of the patterns. -/
def isNamedBy (index : Int) (patterns : List Bytes) : Bool :=
  match answerTo (fileNameOf env archive) (descriptorAt archive.header (fun _ => none) index) with
  | .ret (some name) => patterns.any fun pattern => fnmatch pattern name
  | _ => false

/-- The file is to be tried.  The names on the command line count for an extraction only. -/
def isSelected (action : Action) (index : Int) : Bool :=
  match action with
  | .extract =>
      isValidFile archive index &&
        (settings.pathNames.isEmpty || isNamedBy env archive fnmatch index settings.pathNames)
  | .test => isValidFile archive index

/-- The indices of a file group. -/
def fileIndices (fileGroup : FileGroup) : List Int :=
  Int.range fileGroup.firstFile (fileGroup.lastFile + 1)

/-- The file groups that are processed: the first one of the name asked for, or all that have a first
file. -/
def processedGroups (fileGroups : List FileGroup) : List FileGroup :=
  match settings.fileGroupName with
  | some name =>
      (fileGroups.find? fun fileGroup =>
        fileGroup.name.text archive.header = .ret (some name)).toList
  | none => fileGroups.filter fun fileGroup => fileGroup.firstFile ≠ -1

end

section

variable {env : Environment σ H} {archive : Archive} {settings : Settings}
  {fnmatch : Bytes → Bytes → Bool}

theorem fileIsValid_answers (index : Int) :
    Proc.Ensures (Consistent env archive.header) (Calls.fileIsValid archive index)
      fun valid library =>
        valid = isValidFile archive index ∧ Consistent env archive.header library := by
  intro library valid library' consistent run
  rw [Calls.fileIsValid] at run
  by_cases inside : ValidIndex archive.header index
  · rw [if_pos inside] at run
    refine ⟨?_, (preserves_ask_consistent _ index).of_run consistent run⟩
    have answer : (Calls.ask archive Calls.isValidOf index library).1 = answerTo Calls.isValidOf _ :=
      consistent.ask (fun fd fd' => isValidOf_upToSearch) index
    rw [isValidFile, ← answer, run]
    cases valid <;> rfl
  · rw [if_neg inside, Proc.pure_eq_ret_iff] at run
    rcases run with ⟨rfl, rfl⟩
    refine ⟨?_, consistent⟩
    rw [isValidFile, descriptorAt, if_neg inside]
    rfl

theorem matchesPathName_answers (index : Int) (patterns : List Bytes) :
    Proc.Ensures (Consistent env archive.header) (matchesPathName env archive fnmatch index patterns)
      fun named library =>
        named = isNamedBy env archive fnmatch index patterns ∧
          Consistent env archive.header library := by
  induction patterns with
  | nil =>
      apply Proc.Ensures.pure
      intro library consistent
      refine ⟨?_, consistent⟩
      rw [isNamedBy]
      split <;> rfl
  | cons pattern patterns ih =>
      intro library named library' consistent run
      rw [matchesPathName, Proc.bind_eq_ret_iff] at run
      obtain ⟨name, between, asked, run⟩ := run
      have kept := (preserves_ask_consistent _ index).of_run consistent asked
      have answer : (Calls.fileName env archive index library).1 = answerTo (fileNameOf env archive) _ :=
        consistent.ask (fun fd fd' search => by rw [search.sameRecord]; rfl) index
      rw [asked] at answer
      cases name with
      | none => cases run
      | some name =>
          have reading (patterns : List Bytes) : isNamedBy env archive fnmatch index patterns =
              patterns.any fun pattern => fnmatch pattern name := by
            rw [isNamedBy, ← answer]
          rw [reading, List.any_cons]
          change (if fnmatch pattern name = true then pure true
            else matchesPathName env archive fnmatch index patterns) between = _ at run
          by_cases hit : fnmatch pattern name = true
          · rw [if_pos hit, Proc.pure_eq_ret_iff] at run
            rcases run with ⟨rfl, rfl⟩
            exact ⟨by rw [hit, Bool.true_or], kept⟩
          · rw [if_neg hit] at run
            obtain ⟨same, after⟩ := ih between named library' kept run
            rw [same, reading, Bool.eq_false_iff.2 hit, Bool.false_or]
            exact ⟨rfl, after⟩

theorem extractCondition_answers (index : Int) :
    Proc.Ensures (Consistent env archive.header) (extractCondition env archive settings fnmatch index)
      fun selected library =>
        selected = isSelected env archive settings fnmatch .extract index ∧
          Consistent env archive.header library := by
  refine .bind (fileIsValid_answers index) fun valid => ?_
  intro library selected library' holds run
  obtain ⟨same, consistent⟩ := holds
  rw [isSelected, ← same]
  cases valid with
  | false =>
      rcases Proc.pure_eq_ret_iff.1 run with ⟨rfl, rfl⟩
      exact ⟨rfl, consistent⟩
  | true =>
      rw [if_pos rfl, shouldProcessFile] at run
      by_cases all : settings.pathNames = []
      · rw [if_pos all, Proc.pure_eq_ret_iff] at run
        rcases run with ⟨rfl, rfl⟩
        rw [all]
        exact ⟨rfl, consistent⟩
      · rw [if_neg all] at run
        obtain ⟨named, after⟩ := matchesPathName_answers index settings.pathNames library selected library'
          consistent run
        rw [named, List.isEmpty_eq_false_iff.2 all]
        exact ⟨rfl, after⟩

theorem fileIsValid_selects {library : Library σ} {index : Int}
    (consistent : Consistent env archive.header library) (valid : isValidFile archive index = true) :
    (Calls.fileIsValid archive index library).1 = .ret true := by
  have answer : (Calls.ask archive Calls.isValidOf index library).1 = answerTo Calls.isValidOf _ :=
    consistent.ask (fun fd fd' => isValidOf_upToSearch) index
  rw [isValidFile, decide_eq_true_eq] at valid
  rw [Calls.fileIsValid]
  by_cases inside : ValidIndex archive.header index
  · rw [if_pos inside, answer, valid]
  · rw [descriptorAt, if_neg inside] at valid
    cases valid

theorem matchesPathName_selects {index : Int} {patterns : List Bytes} {library : Library σ}
    (consistent : Consistent env archive.header library)
    (named : isNamedBy env archive fnmatch index patterns = true) :
    (matchesPathName env archive fnmatch index patterns library).1 = .ret true := by
  rw [isNamedBy] at named
  split at named
  · rename_i name found
    induction patterns generalizing library with
    | nil => cases named
    | cons pattern patterns ih =>
        have asked : (Calls.fileName env archive index library).1 = .ret (some name) :=
          (consistent.ask (fun fd fd' search => by rw [search.sameRecord]; rfl) index).trans found
        have kept := (preserves_ask_consistent _ index).of_run consistent (Proc.run_eq_ret asked)
        rw [matchesPathName, Proc.bind_of_ret (Proc.run_eq_ret asked)]
        by_cases hit : fnmatch pattern name = true
        · show ((if fnmatch pattern name = true then _ else _ : Proc (Library σ) Bool) _).1 = _
          rw [if_pos hit]
          rfl
        · show ((if fnmatch pattern name = true then _ else _ : Proc (Library σ) Bool) _).1 = _
          rw [if_neg hit]
          rw [List.any_cons, Bool.eq_false_iff.2 hit, Bool.false_or] at named
          exact ih kept named
  · cases named

/-- The condition is met for every file that is selected. -/
theorem extractCondition_selects {index : Int} {library : Library σ}
    (consistent : Consistent env archive.header library)
    (selected : isSelected env archive settings fnmatch .extract index = true) :
    (extractCondition env archive settings fnmatch index library).1 = .ret true := by
  obtain ⟨valid, named⟩ := (Bool.and_eq_true _ _).mp selected
  have asked := Proc.run_eq_ret (fileIsValid_selects consistent valid)
  have kept := (fileIsValid_answers index library true _ consistent asked).2
  rw [extractCondition, Proc.bind_of_ret asked, if_pos rfl, shouldProcessFile]
  by_cases all : settings.pathNames = []
  · rw [if_pos all]
    rfl
  · rw [if_neg all]
    rw [List.isEmpty_eq_false_iff.2 all, Bool.false_or] at named
    exact matchesPathName_selects kept named

end

/-! ### The history of an action -/

/-- The files tried so far are the listed ones, `count` of them with success, no total has been printed,
and `exit_status` is zero as long as none has failed. -/
structure Tried (env : Environment σ H) (archive : Archive) (indices : List Int) (count : Int)
    (program : Program σ) : Prop where
  attempted : program.attempts.map Attempt.index = indices
  succeeded : (program.attempts.countP Attempt.success : Int) = count
  status : program.exitStatus = 0 ↔ ∀ attempt ∈ program.attempts, attempt.success = true
  totals : program.totals = []
  consistent : Consistent env archive.header program.library

section

variable {env : Environment σ H} {archive : Archive} {indices : List Int} {count : Int}

theorem tried_start {start : Library σ} (opened : start.fileDescriptors = fun _ => none) :
    Tried env archive [] 0 { library := start } where
  attempted := rfl
  succeeded := rfl
  status := by simp
  totals := rfl
  consistent := consistent_of_opened opened

/-- A call of the library makes no history. -/
theorem tried_of_inLibrary {α : Type} {call : Proc (Library σ) α} {answer : α → Prop}
    (answers : Proc.Ensures (Consistent env archive.header) call
      fun value library => answer value ∧ Consistent env archive.header library) :
    Proc.Ensures (Tried env archive indices count) (inLibrary call)
      fun value program => answer value ∧ Tried env archive indices count program := by
  intro program value program' tried run
  rcases returned : call program.library with ⟨exit, library⟩
  rw [inLibrary, returned, Prod.mk.injEq] at run
  obtain ⟨rfl, rfl⟩ := run
  obtain ⟨answered, consistent⟩ := answers program.library value library tried.consistent returned
  exact ⟨answered, { tried with consistent }⟩

/-- One more file is tried. -/
theorem tried_of_attempt {call : Int → Proc (Library σ) Bool} {index : Int}
    (kept : Proc.Preserves (Consistent env archive.header) (call index)) :
    Proc.Ensures (Tried env archive indices count) (attempt call index)
      fun success program =>
        Tried env archive (indices ++ [index]) (count + if success then 1 else 0) program := by
  have called : Proc.Ensures (Consistent env archive.header) (call index)
      fun _ library => True ∧ Consistent env archive.header library :=
    fun library _ _ consistent run => ⟨trivial, kept.of_run consistent run⟩
  refine .bind (tried_of_inLibrary called) fun success => ?_
  rintro program result program' ⟨-, tried⟩ run
  cases run
  refine ⟨?_, ?_, ?_, tried.totals, tried.consistent⟩
  · rw [List.map_append, tried.attempted]
    rfl
  · rw [List.countP_append, List.countP_singleton, Int.natCast_add, tried.succeeded]
    cases success <;> rfl
  · simp only [List.forall_mem_append, List.forall_mem_singleton]
    cases success with
    | true =>
        rw [if_pos rfl, tried.status]
        exact ⟨fun all => ⟨all, rfl⟩, And.left⟩
    | false => simp

theorem range_of_le {first next : Int} (le : next ≤ first) : Int.range first next = [] := by
  rw [Int.range, Int.toNat_of_nonpos (by omega)]
  rfl

theorem range_of_lt {first next : Int} (lt : first < next) :
    Int.range first next = first :: Int.range (first + 1) next := by
  obtain ⟨more, size⟩ : ∃ more, (next - first).toNat = more + 1 :=
    ⟨(next - first).toNat - 1, by omega⟩
  have rest : (next - (first + 1)).toNat = more := by omega
  rw [Int.range, Int.range, size, rest, List.range_succ_eq_map, List.map_cons, List.map_map]
  simp only [Int.natCast_zero, add_zero, List.cons.injEq, true_and]
  apply List.map_congr_left
  intro i _
  simp only [Function.comp_apply, Nat.succ_eq_add_one]
  omega

theorem addInt_eq_ret {one two sum : Int} (added : addInt one two = .ret sum) : sum = one + two := by
  rw [addInt] at added
  split at added
  · exact (Exit.ret.inj added).symm
  · cases added

/-- A turn either ends the loop behind `last`, or deals with one file. -/
theorem helperTurn_eq_ret {condition call : Int → Proc (Library σ) Bool} {last : Int} {vars : Int × Int}
    {program program' : Program σ} {outcome : Proc.Turn (Int × Int) Int}
    (run : helperTurn condition call last vars program = (.ret outcome, program')) :
    (last < vars.1 ∧ outcome = .done vars.2 ∧ program' = program) ∨
      (vars.1 ≤ last ∧ ∃ success,
        processFile condition call vars.1 program = (.ret success, program') ∧
        outcome = .again (vars.1 + 1, vars.2 + if success then 1 else 0)) := by
  rw [helperTurn] at run
  by_cases going : vars.1 ≤ last
  · rw [if_pos going, Proc.bind_eq_ret_iff] at run
    obtain ⟨success, between, processed, run⟩ := run
    rw [Proc.ofExit_bind_eq_ret_iff] at run
    obtain ⟨total, counted, run⟩ := run
    rw [Proc.ofExit_bind_eq_ret_iff] at run
    obtain ⟨i, stepped, run⟩ := run
    rcases Proc.pure_eq_ret_iff.1 run with ⟨rfl, rfl⟩
    have sum : total = vars.2 + if success then 1 else 0 := by
      cases success with
      | true => exact addInt_eq_ret counted
      | false =>
          rw [← Exit.ret.inj counted]
          exact (add_zero _).symm
    rw [sum, addInt_eq_ret stepped]
    exact Or.inr ⟨going, success, processed, rfl⟩
  · rw [if_neg going] at run
    rcases Proc.pure_eq_ret_iff.1 run with ⟨rfl, rfl⟩
    exact Or.inl ⟨by omega, rfl, rfl⟩

/-- What holds at the start of a turn: the files in front of `i` have been dealt with. -/
def Reached (env : Environment σ H) (archive : Archive) (selected : Int → Bool) (indices : List Int)
    (count first last : Int) (vars : Int × Int) (program : Program σ) : Prop :=
  ∃ before, Tried env archive (indices ++ before) (count + vars.2) program ∧
    before ++ (Int.range vars.1 (last + 1)).filter selected =
      (Int.range first (last + 1)).filter selected

section

variable {selected : Int → Bool} {condition call : Int → Proc (Library σ) Bool} {first last : Int}
  (answers : ∀ index, Proc.Ensures (Consistent env archive.header) (condition index)
    fun chosen library => chosen = selected index ∧ Consistent env archive.header library)
  (kept : ∀ index, Proc.Preserves (Consistent env archive.header) (call index))

include answers kept

theorem tried_of_processFile (index : Int) :
    Proc.Ensures (Tried env archive indices count) (processFile condition call index)
      fun success program => Tried env archive (indices ++ [index].filter selected)
        (count + if success then 1 else 0) program := by
  refine .bind (tried_of_inLibrary (answers index)) fun chosen => ?_
  rintro program success program' ⟨same, tried⟩ run
  rw [List.filter_singleton, ← same]
  cases chosen with
  | true => exact tried_of_attempt (kept index) program success program' tried run
  | false =>
      rcases Proc.pure_eq_ret_iff.1 run with ⟨rfl, rfl⟩
      simpa using tried

theorem consistent_of_processFile (index : Int) :
    Proc.Ensures (fun program => Consistent env archive.header program.library)
      (processFile condition call index) fun _ program => Consistent env archive.header program.library := by
  intro program success program' consistent run
  obtain ⟨chosen, between, chose, run⟩ := Proc.bind_eq_ret_iff.1 run
  rcases answered : condition index program.library with ⟨exit, library⟩
  rw [inLibrary, answered, Prod.mk.injEq] at chose
  obtain ⟨rfl, rfl⟩ := chose
  have later := (answers index program.library chosen library consistent answered).2
  cases chosen with
  | false =>
      rcases Proc.pure_eq_ret_iff.1 run with ⟨-, rfl⟩
      exact later
  | true =>
      obtain ⟨result, after, called, run⟩ := Proc.bind_eq_ret_iff.1 run
      rcases tried : call index library with ⟨exit, library'⟩
      rw [inLibrary, tried, Prod.mk.injEq] at called
      obtain ⟨rfl, rfl⟩ := called
      cases run
      exact (kept index).of_run later tried

/-- One turn deals with one file, whatever became of those before it. -/
theorem reached_of_helperTurn (vars : Int × Int) :
    Proc.Ensures (Reached env archive selected indices count first last vars)
      (helperTurn condition call last vars)
      (Proc.Turn.Meets (Reached env archive selected indices count first last)
        fun more => Tried env archive (indices ++ (Int.range first (last + 1)).filter selected)
          (count + more)) := by
  rintro program outcome program' ⟨before, tried, rest⟩ run
  rcases helperTurn_eq_ret run with ⟨past, rfl, rfl⟩ | ⟨going, success, processed, rfl⟩
  · rw [range_of_le (by omega), List.filter_nil, List.append_nil] at rest
    rw [rest] at tried
    exact tried
  · have after := tried_of_processFile answers kept vars.1 program success program' tried processed
    refine ⟨before ++ [vars.1].filter selected, ?_, ?_⟩
    · rw [← List.append_assoc, ← add_assoc]
      exact after
    · rw [← rest, range_of_lt (Int.lt_add_one_of_le going), List.append_assoc, ← List.filter_append,
        List.singleton_append]

/-- The loop of a helper tries the selected files from `first` to `last` in order. -/
theorem tried_of_helperLoop (first last : Int) (indices : List Int) (count : Int) :
    Proc.Ensures (Tried env archive indices count) (helperLoop condition call first last)
      fun more => Tried env archive (indices ++ (Int.range first (last + 1)).filter selected)
        (count + more) := by
  refine Proc.Ensures.weaken (Proc.Ensures.iterate (reached_of_helperTurn answers kept) _ _) ?_
    fun more program tried => tried
  intro program tried
  refine ⟨[], ?_, rfl⟩
  rw [List.append_nil, add_zero]
  exact tried

end

end

/-! ### The whole action -/

section

variable {env : Environment σ H} {system : System σ} {archive : Archive} {settings : Settings}
  {locale : Locale} {fnmatch : Bytes → Bytes → Bool} {fuel : Nat} {action : Action}

/-- Either helper tries the selected files of a group. -/
theorem tried_of_helperFor (namePrefix : Exit (Option Bytes)) (fileGroup : FileGroup)
    (indices : List Int) (count : Int) :
    Proc.Ensures (Tried env archive indices count)
      (helperFor env system archive settings locale fnmatch fuel action namePrefix fileGroup.firstFile
        fileGroup.lastFile)
      fun more => Tried env archive
        (indices ++ (fileIndices fileGroup).filter (isSelected env archive settings fnmatch action))
        (count + more) := by
  cases action with
  | extract =>
      apply tried_of_helperLoop
      · exact extractCondition_answers
      · intro index
        exact .bind (.ofExit namePrefix) fun namePrefix =>
          preserves_extractFile system settings.toOptions locale fuel namePrefix index
  | test =>
      apply tried_of_helperLoop
      · exact fileIsValid_answers
      · exact preserves_testFile settings fuel

theorem fileGroupFind_eq_ret {name : Bytes} {fileGroups : List FileGroup} {found : Option FileGroup}
    (run : fileGroupFind archive name fileGroups = .ret found) :
    found = fileGroups.find? fun fileGroup =>
      fileGroup.name.text archive.header = .ret (some name) := by
  induction fileGroups with
  | nil => exact (Exit.ret.inj run).symm
  | cons fileGroup fileGroups ih =>
      rw [fileGroupFind, Exit.bind_eq_ret_iff] at run
      obtain ⟨text, named, run⟩ := run
      cases text with
      | none => cases run
      | some text =>
          change (if text = name then pure (some fileGroup)
            else fileGroupFind archive name fileGroups) = _ at run
          rw [List.find?_cons, named]
          by_cases same : text = name
          · rw [if_pos same] at run
            simpa [same] using (Exit.ret.inj run).symm
          · rw [if_neg same] at run
            simpa [same] using ih run

section

variable {helper : Exit (Option Bytes) → Int → Int → Proc (Program σ) Int} {selected : Int → Bool}
  (tries : ∀ namePrefix (fileGroup : FileGroup) indices count,
    Proc.Ensures (Tried env archive indices count)
      (helper namePrefix fileGroup.firstFile fileGroup.lastFile)
      fun more => Tried env archive (indices ++ (fileIndices fileGroup).filter selected)
        (count + more))

include tries

/-- The loop over the file groups goes on with the counter of the groups before. -/
theorem tried_of_actOnAll (fileGroups : List FileGroup) (indices : List Int) (count : Int) :
    Proc.Ensures (Tried env archive indices count) (actOnAll archive helper fileGroups count)
      fun total => Tried env archive
        (indices ++ (fileGroups.filter fun fileGroup => fileGroup.firstFile ≠ -1).flatMap
          fun fileGroup => (fileIndices fileGroup).filter selected) total := by
  induction fileGroups generalizing indices count with
  | nil =>
      apply Proc.Ensures.pure
      intro program tried
      simpa using tried
  | cons fileGroup fileGroups ih =>
      intro program total program' tried run
      rw [actOnAll] at run
      by_cases present : fileGroup.firstFile ≠ -1
      · rw [if_pos present, Proc.bind_eq_ret_iff] at run
        obtain ⟨more, between, helped, run⟩ := run
        have after := tries _ fileGroup indices count program more between tried helped
        rw [Proc.ofExit_bind_eq_ret_iff] at run
        obtain ⟨sum, added, run⟩ := run
        rw [← addInt_eq_ret added] at after
        have finished := ih _ sum between total program' after run
        rw [List.filter_cons, if_pos (decide_eq_true present), List.flatMap_cons, ← List.append_assoc]
        exact finished
      · rw [if_neg present] at run
        rw [List.filter_cons, if_neg (by rw [decide_eq_true_eq]; exact present)]
        exact ih indices count program total program' tried run

theorem tried_of_actOnNamed (fileGroups : List FileGroup) (name : Bytes) :
    Proc.Ensures (Tried env archive [] 0) (actOnNamed archive helper fileGroups name)
      fun total => Tried env archive
        ((fileGroups.find? fun fileGroup =>
          fileGroup.name.text archive.header = .ret (some name)).toList.flatMap
            fun fileGroup => (fileIndices fileGroup).filter selected) total := by
  intro program total program' tried run
  rw [actOnNamed, Proc.ofExit_bind_eq_ret_iff] at run
  obtain ⟨found, searched, run⟩ := run
  rw [← fileGroupFind_eq_ret searched]
  cases found with
  | none =>
      rcases Proc.pure_eq_ret_iff.1 run with ⟨rfl, rfl⟩
      exact tried
  | some fileGroup =>
      have after := tries _ fileGroup [] 0 program total program' tried run
      rw [List.nil_append, zero_add] at after
      simpa using after

theorem tried_of_actOnGroups (fileGroups : List FileGroup) :
    Proc.Ensures (Tried env archive [] 0) (actOnGroups archive settings helper fileGroups)
      fun total => Tried env archive
        ((processedGroups archive settings fileGroups).flatMap fun fileGroup =>
          (fileIndices fileGroup).filter selected) total := by
  rw [actOnGroups, processedGroups]
  cases settings.fileGroupName with
  | none => exact tried_of_actOnAll tries fileGroups [] 0
  | some name => exact tried_of_actOnNamed tries fileGroups name

end

/-- An action that ends has tried every selected valid file of every file group it processes, in the
order of the indices and whatever became of the others; the total it has printed is the number of those
that succeeded, and the status of the process is zero exactly when all have. -/
theorem runAction_reports {fileGroups : List FileGroup} {start : Library σ} {status : Int}
    {program : Program σ} (noComponent : settings.componentName = none)
    (opened : start.fileDescriptors = fun _ => none)
    (ends : runAction env system archive settings locale fnmatch fuel fileGroups action
      { library := start } = (.ret status, program)) :
    program.attempts.map Attempt.index =
        (processedGroups archive settings fileGroups).flatMap (fun fileGroup =>
          (fileIndices fileGroup).filter (isSelected env archive settings fnmatch action)) ∧
      program.totals = [(program.attempts.countP Attempt.success : Int)] ∧
      (status = 0 ↔ ∀ attempt ∈ program.attempts, attempt.success = true) := by
  rw [runAction, Proc.bind_eq_ret_iff] at ends
  obtain ⟨success, between, acted, ends⟩ := ends
  rw [doAction, if_neg (not_not_intro noComponent), Proc.bind_eq_ret_iff] at acted
  obtain ⟨total, after, counted, acted⟩ := acted
  have tried := tried_of_actOnGroups tried_of_helperFor fileGroups { library := start } total after
    (tried_start opened) counted
  cases acted
  cases ends
  refine ⟨tried.attempted, ?_, tried.status⟩
  show after.totals ++ [total] = [(after.attempts.countP Attempt.success : Int)]
  rw [tried.totals, tried.succeeded]
  rfl

end

/-- A cabinet with one file, which is valid. -/
def validArchive : Archive where
  header := { namedHeader [] [0x78] with data := (namedHeader [] [0x78]).data.set 18 1 }
  filenamePattern := []

/-- The file group of that file. -/
def onlyGroup : FileGroup := { name := .null, firstFile := 0, lastFile := 0 }

/-- The file is asked for by its name. -/
def namedSettings : Settings := { outputDirectory := smallPath, pathNames := [[0x78]] }

/-- The descriptor of a file that is stored behind the headers of its volume. -/
def storedEntry (nameOffset : UInt32) (volume : UInt8) : Bytes :=
  List.replicate 2 0 ++ words [1, 0, 1, 0, 84, 0] ++ digestOfA ++ List.replicate 16 0 ++
    words [nameOffset] ++ List.replicate 23 0 ++ [volume, 0]

/-- The header of a cabinet with the files "x", in the volume that is given, and "y", in the first one. -/
def storedHeader (volume : UInt8) : Header :=
  { namedHeader [] [] with
    data := storedEntry 175 volume ++ storedEntry 177 1 ++ [0, 0x78, 0, 0x79, 0]
    cab := { fileTableOffset := 0, directoryCount := 1, fileCount := 2, fileTableOffset2 := 0 }
    fileTable := [174] }

def storedArchive (volume : UInt8) : Archive := { header := storedHeader volume, filenamePattern := [] }

/-- The first volume, in which the second file is the last one. -/
def lastVolume : Bytes := volumeBytes (storedHeader 1) plainCommonHeader { lastFileIndex := 1 } [0x61]

theorem lastVolume_short : ∀ content ∈ [lastVolume], content.length < 2 ^ 63 := by decide

def storedWorld : World :=
  { rootWorld fun _ => none with disk := shelfDisk [lastVolume] 2 lastVolume_short room_two_lt }

/-- The file group of both files. -/
def storedGroup : FileGroup := { name := .null, firstFile := 0, lastFile := 1 }

def storedSettings : Settings := { outputDirectory := smallPath }

/-- The first file cannot be extracted, as there is no second volume; the second one is all the same. -/
theorem runAction_reports_failure :
    ∃ program, runAction smallLibraries.onWorld World.system (storedArchive 2) storedSettings asciiLocale
        (fun pattern name => pattern = name) 9 [storedGroup] .extract
        { library := freshLibrary storedWorld } = (.ret 1, program) ∧
      program.attempts.map Attempt.index =
        (processedGroups (storedArchive 2) storedSettings [storedGroup]).flatMap (fun fileGroup =>
          (fileIndices fileGroup).filter (isSelected smallLibraries.onWorld (storedArchive 2) storedSettings
            (fun pattern name => pattern = name) .extract)) ∧
      program.attempts.map Attempt.success = [false, true] ∧
      program.totals = [(program.attempts.countP Attempt.success : Int)] ∧
      ¬ ∀ attempt ∈ program.attempts, attempt.success = true := by
  have ends : (runAction smallLibraries.onWorld World.system (storedArchive 2) storedSettings asciiLocale
      (fun pattern name => pattern = name) 9 [storedGroup] .extract
      { library := freshLibrary storedWorld }).1 = .ret 1 := by
    decide +kernel
  obtain ⟨attempted, total, status⟩ := runAction_reports rfl rfl (Proc.run_eq_ret ends)
  refine ⟨_, Proc.run_eq_ret ends, attempted, by decide +kernel, total, ?_⟩
  intro all
  exact absurd (status.2 all) (by decide)

end Unshield
