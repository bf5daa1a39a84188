/-
Module: Unshield.Proofs.FileSelection
Purpose: Which files the three actions on a cabinet deal with: listing and extraction go by the names on the
  command line, testing does not.
Trusted boundary: none
Main exports: selectedIndices, RunsTo, GoesThrough, Handles, goesThrough_of_doAction, NamesValidFiles,
  sameSequence_iff, tests_unnamed_file
-/
import Unshield.Proofs.ListingBounds

namespace Unshield

open Procedure

variable {σ H : Type}

/-! ### The sequence of an action -/

/-- The indices that an action deals with, in order: those selected in the file groups that are processed.
With a component nothing is processed. -/
def selectedIndices (archive : Archive) (settings : Settings) (fileGroups : List FileGroup)
    (selected : Int → Bool) : List Int :=
  if settings.componentName = none then
    (processedGroups archive settings fileGroups).flatMap fun fileGroup =>
      (fileIndices fileGroup).filter selected
  else []

/-- The indices of the files that were listed, tested or extracted so far, in that order. -/
def Program.sequence (program : Program σ) : List Int := program.attempts.map Attempt.index

/-- The action, started with a library that has just been opened, ends like this with this program. -/
def RunsTo (action : Proc (Program σ) Int) (exit : Exit Int) (program : Program σ) : Prop :=
  ∃ start : Library σ, (start.fileDescriptors = fun _ => none) ∧
    action { library := start } = (exit, program)

/-- The program goes through the sequence: all of it if the run returns, otherwise a first part. -/
structure GoesThrough (sequence : List Int) (exit : Exit Int) (program : Program σ) : Prop where
  so_far : program.sequence <+: sequence
  whole : ∀ status, exit = .ret status → program.sequence = sequence

/-! ### Runs that break off -/

/-- Whatever becomes of the call, it is the only one added. -/
theorem sequence_of_attempt (call : Int → Proc (Library σ) Bool) (index : Int) (program : Program σ) :
    (attempt call index program).2.sequence <+: program.sequence ++ [index] := by
  show (Proc.bind (inLibrary (call index)) _ program).2.sequence <+: _
  rw [Proc.bind, inLibrary]
  rcases call index program.library with ⟨exit, library⟩
  cases exit with
  | ret success =>
      show (program.attempts ++ [_]).map Attempt.index <+: _
      rw [List.map_append]
      exact List.prefix_refl _
  | fail => exact List.prefix_append _ _
  | abort => exact List.prefix_append _ _
  | fault => exact List.prefix_append _ _
  | timeout => exact List.prefix_append _ _

theorem sequence_of_inLibrary {α : Type} (call : Proc (Library σ) α) (program : Program σ) :
    (inLibrary call program).2.sequence = program.sequence := by
  rw [inLibrary]
  rfl

/-- What is behind the helpers is not about files. -/
theorem sequence_of_exitWith (action : Proc (Program σ) Bool) (program : Program σ) :
    ((action >>= fun success => exitWith success) program).2.sequence = (action program).2.sequence := by
  apply Proc.bind_view Program.sequence
  intro success seen program same
  cases success <;> exact same

theorem sequence_of_doAction {archive : Archive} {settings : Settings}
    (noComponent : settings.componentName = none)
    (helper : Exit (Option Bytes) → Int → Int → Proc (Program σ) Int) (fileGroups : List FileGroup)
    (program : Program σ) :
    (doAction archive settings helper fileGroups program).2.sequence =
      (actOnGroups archive settings helper fileGroups program).2.sequence := by
  rw [doAction, if_neg (not_not_intro noComponent)]
  apply Proc.bind_view Program.sequence
  intro count seen program same
  exact same

theorem Tried.sequence {env : Environment σ H} {archive : Archive} {indices : List Int} {count : Int}
    {program : Program σ} (tried : Tried env archive indices count program) : program.sequence = indices :=
  tried.attempted

/-- What a helper does with the files of a group: it tries those selected, and where it breaks off it has
tried a first part of them. -/
structure Handles (env : Environment σ H) (archive : Archive)
    (helper : Exit (Option Bytes) → Int → Int → Proc (Program σ) Int) (selected : Int → Bool) : Prop where
  tries : ∀ namePrefix (fileGroup : FileGroup) indices count,
    Proc.Ensures (Tried env archive indices count)
      (helper namePrefix fileGroup.firstFile fileGroup.lastFile)
      fun more => Tried env archive (indices ++ (fileIndices fileGroup).filter selected) (count + more)
  so_far : ∀ namePrefix (fileGroup : FileGroup) indices count,
    Proc.Leads (Tried env archive indices count)
      (helper namePrefix fileGroup.firstFile fileGroup.lastFile)
      fun program => program.sequence <+: indices ++ (fileIndices fileGroup).filter selected

section

variable {env : Environment σ H} {archive : Archive} {settings : Settings} {indices : List Int} {count : Int}
  {selected : Int → Bool}

section

variable {condition call : Int → Proc (Library σ) Bool} {first last : Int}
  (answers : ∀ index, Proc.Ensures (Consistent env archive.header) (condition index)
    fun chosen library => chosen = selected index ∧ Consistent env archive.header library)
  (kept : ∀ index, Proc.Preserves (Consistent env archive.header) (call index))

include answers

theorem so_far_of_processFile (index : Int) :
    Proc.Leads (Tried env archive indices count) (processFile condition call index)
      fun program => program.sequence <+: indices ++ [index].filter selected := by
  refine .bind_of_ensures ?_ (tried_of_inLibrary (answers index)) fun chosen => ?_
  · intro program tried
    rw [sequence_of_inLibrary, tried.sequence]
    exact List.prefix_append _ _
  · rintro program ⟨same, tried⟩
    rw [List.filter_singleton, ← same, ← tried.sequence]
    cases chosen with
    | true => exact sequence_of_attempt call index program
    | false => exact List.prefix_append _ _

/-- The files in front of `i` are a first part of those of the group. -/
theorem so_far_of_helperTurn (vars : Int × Int) :
    Proc.Leads (Reached env archive selected indices count first last vars)
      (helperTurn condition call last vars)
      fun program => program.sequence <+: indices ++ (Int.range first (last + 1)).filter selected := by
  rintro program ⟨before, tried, rest⟩
  rw [helperTurn, ← rest]
  by_cases going : vars.1 ≤ last
  · rw [if_pos going, Proc.bind_view Program.sequence (fun success seen =>
      .bind (.ofExit _) fun total => .bind (.ofExit _) fun i => .pure _)]
    have tries : (processFile condition call vars.1 program).2.sequence <+: _ :=
      so_far_of_processFile answers vars.1 program tried
    rw [range_of_lt (Int.lt_add_one_of_le going), ← List.singleton_append, List.filter_append,
      ← List.append_assoc, ← List.append_assoc]
    exact tries.trans (List.prefix_append _ _)
  · rw [if_neg going]
    show program.sequence <+: _
    rw [tried.sequence, ← List.append_assoc]
    exact List.prefix_append _ _

include kept

/-- The loop of a helper. -/
theorem so_far_of_helperLoop (first last : Int) :
    Proc.Leads (Tried env archive indices count) (helperLoop condition call first last)
      fun program => program.sequence <+: indices ++ (Int.range first (last + 1)).filter selected := by
  intro program tried
  have start : Reached env archive selected indices count first last (first, 0) program := by
    refine ⟨[], ?_, rfl⟩
    rw [List.append_nil, add_zero]
    exact tried
  refine Proc.Leads.iterate (so_far_of_helperTurn answers) ?_ ?_ _ _ program start
  · intro vars
    refine (reached_of_helperTurn answers kept vars).weaken (fun _ holds => holds) ?_
    intro outcome program meets
    cases outcome with
    | again next => exact meets
    | done more =>
        show program.sequence <+: _
        rw [meets.sequence]
  · rintro vars program ⟨before, tried, rest⟩
    rw [tried.sequence, ← rest, ← List.append_assoc]
    exact List.prefix_append _ _

end

section

variable {helper : Exit (Option Bytes) → Int → Int → Proc (Program σ) Int}
  (handles : Handles env archive helper selected)

include handles

theorem so_far_of_actOnAll (fileGroups : List FileGroup) (indices : List Int) (count : Int) :
    Proc.Leads (Tried env archive indices count) (actOnAll archive helper fileGroups count)
      fun program => program.sequence <+:
        indices ++ (fileGroups.filter fun fileGroup => fileGroup.firstFile ≠ -1).flatMap
          fun fileGroup => (fileIndices fileGroup).filter selected := by
  induction fileGroups generalizing indices count with
  | nil =>
      intro program tried
      show program.sequence <+: _
      rw [tried.sequence]
      exact List.prefix_append _ _
  | cons fileGroup fileGroups ih =>
      rw [actOnAll]
      by_cases present : fileGroup.firstFile ≠ -1
      · rw [if_pos present, List.filter_cons, if_pos (decide_eq_true present), List.flatMap_cons,
          ← List.append_assoc]
        refine .bind_of_ensures ?_ (handles.tries _ fileGroup indices count) fun more => ?_
        · intro program tried
          exact (handles.so_far _ fileGroup indices count program tried).trans (List.prefix_append _ _)
        · intro program tried
          rcases added : addInt count more with sum | _ | _ | _ | _
          · rw [Proc.ofExit_ret_bind_run]
            rw [← addInt_eq_ret added] at tried
            exact ih _ sum program tried
          all_goals
            show program.sequence <+: _
            rw [tried.sequence]
            exact List.prefix_append _ _
      · rw [if_neg present, List.filter_cons, if_neg (by rw [decide_eq_true_eq]; exact present)]
        exact ih indices count

theorem so_far_of_actOnNamed (fileGroups : List FileGroup) (name : Bytes) :
    Proc.Leads (Tried env archive [] 0) (actOnNamed archive helper fileGroups name)
      fun program => program.sequence <+:
        (fileGroups.find? fun fileGroup =>
          fileGroup.name.text archive.header = .ret (some name)).toList.flatMap
            fun fileGroup => (fileIndices fileGroup).filter selected := by
  intro program tried
  have nothing : program.sequence <+: [] := by
    rw [tried.sequence]
  have unchanged (sequence : List Int) : program.sequence <+: sequence :=
    nothing.trans List.nil_prefix
  rw [actOnNamed]
  rcases searched : fileGroupFind archive name fileGroups with found | _ | _ | _ | _
  · rw [Proc.ofExit_ret_bind_run, ← fileGroupFind_eq_ret searched]
    cases found with
    | none => exact nothing
    | some fileGroup =>
        have leads := handles.so_far (.ret (some name)) fileGroup [] 0 program tried
        rw [List.nil_append] at leads
        simpa using leads
  all_goals exact unchanged _

theorem so_far_of_actOnGroups (fileGroups : List FileGroup) :
    Proc.Leads (Tried env archive [] 0) (actOnGroups archive settings helper fileGroups)
      fun program => program.sequence <+:
        (processedGroups archive settings fileGroups).flatMap fun fileGroup =>
          (fileIndices fileGroup).filter selected := by
  rw [actOnGroups, processedGroups]
  cases settings.fileGroupName with
  | none => exact so_far_of_actOnAll handles fileGroups [] 0
  | some name => exact so_far_of_actOnNamed handles fileGroups name

/-- An action goes through what its helper selects. -/
theorem goesThrough_of_doAction {fileGroups : List FileGroup} {exit : Exit Int} {program : Program σ}
    (runs : RunsTo (do
      let success ← doAction archive settings helper fileGroups
      exitWith success) exit program) :
    GoesThrough (selectedIndices archive settings fileGroups selected) exit program := by
  obtain ⟨start, opened, run⟩ := runs
  have acted_last := sequence_of_exitWith (doAction archive settings helper fileGroups) { library := start }
  rw [run] at acted_last
  change program.sequence = _ at acted_last
  rw [selectedIndices]
  by_cases noComponent : settings.componentName = none
  · rw [sequence_of_doAction noComponent] at acted_last
    rw [if_pos noComponent]
    constructor
    · rw [acted_last]
      exact so_far_of_actOnGroups handles fileGroups _ (tried_start opened)
    · rintro status rfl
      obtain ⟨success, between, acted, -⟩ := Proc.bind_eq_ret_iff.1 run
      rw [doAction, if_neg (not_not_intro noComponent), Proc.bind_eq_ret_iff] at acted
      obtain ⟨total, after, counted, -⟩ := acted
      rw [acted_last, counted]
      have tried := tried_of_actOnGroups handles.tries fileGroups _ total after (tried_start opened) counted
      exact tried.sequence
  · rw [doAction, if_pos noComponent] at acted_last
    rw [if_neg noComponent]
    exact ⟨List.prefix_nil.2 acted_last, fun _ _ => acted_last⟩

end

end

/-! ### The helpers -/

section

variable {env : Environment σ H} {system : System σ} {archive : Archive} {settings : Settings}
  {locale : Locale} {fnmatch : Bytes → Bytes → Bool} {print : Bytes → σ → σ} {fuel : Nat}

/-- The listing deals with the files that are to be extracted. -/
theorem handles_listFilesHelper :
    Handles env archive (Listing.listFilesHelper env archive settings fnmatch print)
      (isSelected env archive settings fnmatch .extract) where
  tries := fun namePrefix fileGroup =>
    tried_of_helperLoop extractCondition_answers (Listing.preserves_listFile print namePrefix)
      fileGroup.firstFile fileGroup.lastFile
  so_far := fun namePrefix fileGroup _ _ =>
    so_far_of_helperLoop extractCondition_answers (Listing.preserves_listFile print namePrefix)
      fileGroup.firstFile fileGroup.lastFile

theorem handles_helperFor (action : Action) :
    Handles env archive (helperFor env system archive settings locale fnmatch fuel action)
      (isSelected env archive settings fnmatch action) where
  tries := tried_of_helperFor
  so_far := by
    intro namePrefix fileGroup indices count
    cases action with
    | extract =>
        exact so_far_of_helperLoop extractCondition_answers
          (fun index => .bind (.ofExit namePrefix) fun namePrefix =>
            preserves_extractFile system settings.toOptions locale fuel namePrefix index)
          fileGroup.firstFile fileGroup.lastFile
    | test =>
        exact so_far_of_helperLoop fileIsValid_answers (preserves_testFile settings fuel)
          fileGroup.firstFile fileGroup.lastFile

end

/-! ### With and without names -/

section

variable (env : Environment σ H) (archive : Archive) (settings : Settings)
  (fnmatch : Bytes → Bytes → Bool)

/-- `should_process_file` by the name in the header. -/
def isNamed (index : Int) : Bool :=
  settings.pathNames.isEmpty || isNamedBy env archive fnmatch index settings.pathNames

variable {env archive settings fnmatch}

/-- What is extracted is what is tested, less the files that are not named. -/
theorem selectedIndices_extract (fileGroups : List FileGroup) :
    selectedIndices archive settings fileGroups (isSelected env archive settings fnmatch .extract) =
      (selectedIndices archive settings fileGroups
        (isSelected env archive settings fnmatch .test)).filter
          (isNamed env archive settings fnmatch) := by
  rw [selectedIndices, selectedIndices]
  by_cases noComponent : settings.componentName = none
  · rw [if_pos noComponent, if_pos noComponent, List.filter_flatMap]
    congr 1
    funext fileGroup
    rw [List.filter_filter]
    apply List.filter_congr
    intro index _
    exact Bool.and_comm _ _
  · rw [if_neg noComponent, if_neg noComponent]
    rfl

theorem mem_selectedIndices {fileGroups : List FileGroup} {selected : Int → Bool} {index : Int} :
    index ∈ selectedIndices archive settings fileGroups selected ↔
      settings.componentName = none ∧
        (∃ fileGroup ∈ processedGroups archive settings fileGroups, index ∈ fileIndices fileGroup) ∧
        selected index = true := by
  rw [selectedIndices]
  by_cases noComponent : settings.componentName = none
  · rw [if_pos noComponent, List.mem_flatMap, eq_true noComponent, true_and]
    simp only [List.mem_filter]
    constructor
    · rintro ⟨fileGroup, processed, inside, chosen⟩
      exact ⟨⟨fileGroup, processed, inside⟩, chosen⟩
    · rintro ⟨⟨fileGroup, processed, inside⟩, chosen⟩
      exact ⟨fileGroup, processed, inside, chosen⟩
  · simp [noComponent]

end

/-- No name is given, or every valid file of the groups that are processed is named. -/
def NamesValidFiles (env : Environment σ H) (archive : Archive) (settings : Settings)
    (fnmatch : Bytes → Bytes → Bool) (fileGroups : List FileGroup) : Prop :=
  settings.componentName = none →
    ∀ fileGroup ∈ processedGroups archive settings fileGroups, ∀ index ∈ fileIndices fileGroup,
      isValidFile archive index = true →
        settings.pathNames = [] ∨ isNamedBy env archive fnmatch index settings.pathNames = true

section

variable {env : Environment σ H} {system : System σ} {archive : Archive} {settings : Settings}
  {locale : Locale} {fnmatch : Bytes → Bytes → Bool} {print : Bytes → σ → σ} {fuel fuel' : Nat}
  {fileGroups : List FileGroup}

theorem selectedIndices_eq_iff :
    selectedIndices archive settings fileGroups (isSelected env archive settings fnmatch .extract) =
        selectedIndices archive settings fileGroups (isSelected env archive settings fnmatch .test) ↔
      NamesValidFiles env archive settings fnmatch fileGroups := by
  rw [selectedIndices_extract, List.filter_eq_self]
  simp only [mem_selectedIndices, isSelected, isNamed, Bool.or_eq_true, List.isEmpty_iff]
  constructor
  · intro named noComponent fileGroup processed index inside valid
    exact named index ⟨noComponent, ⟨fileGroup, processed, inside⟩, valid⟩
  · rintro named index ⟨noComponent, ⟨fileGroup, processed, inside⟩, valid⟩
    exact named noComponent fileGroup processed index inside valid

/-- Listing, testing and extracting go through the same files, as far as they come, if no name is given or
every valid file of the groups that are processed is named; where all three return, they have dealt with
the same files in the same order only then. -/
theorem sameSequence_iff {listed tested extracted : Program σ} {listExit testExit extractExit : Exit Int}
    (lists : RunsTo (Listing.runListFiles env archive settings fnmatch print fileGroups) listExit listed)
    (tests : RunsTo (runAction env system archive settings locale fnmatch fuel fileGroups .test) testExit
      tested)
    (extracts : RunsTo (runAction env system archive settings locale fnmatch fuel' fileGroups .extract)
      extractExit extracted) :
    (NamesValidFiles env archive settings fnmatch fileGroups →
      ∃ sequence, GoesThrough sequence listExit listed ∧ GoesThrough sequence testExit tested ∧
        GoesThrough sequence extractExit extracted) ∧
    ((∃ status, listExit = .ret status) → (∃ status, testExit = .ret status) →
      (∃ status, extractExit = .ret status) →
      ((listed.sequence = tested.sequence ∧ tested.sequence = extracted.sequence) ↔
        NamesValidFiles env archive settings fnmatch fileGroups)) := by
  have listing := goesThrough_of_doAction handles_listFilesHelper lists
  have testing := goesThrough_of_doAction (handles_helperFor .test) tests
  have extraction := goesThrough_of_doAction (handles_helperFor .extract) extracts
  constructor
  · intro named
    rw [← selectedIndices_eq_iff.2 named] at testing
    exact ⟨_, listing, testing, extraction⟩
  · rintro ⟨_, list_returns⟩ ⟨_, test_returns⟩ ⟨_, extract_returns⟩
    rw [listing.whole _ list_returns, testing.whole _ test_returns, extraction.whole _ extract_returns,
      ← selectedIndices_eq_iff]
    exact ⟨And.left, fun same => ⟨same, same.symm⟩⟩

end

/-! ### A cabinet with one file -/

/-- The file group of the only file, under a name. -/
def namedGroup : FileGroup := { onlyGroup with name := .converted [0x67] }

/-- Another file is asked for. -/
def otherSettings : Settings := { outputDirectory := smallPath, pathNames := [[0x79]] }

section

variable (settings : Settings)

/-- The run of the listing on the only file; nothing is printed. -/
def listOnly : Proc (Program World) Int :=
  Listing.runListFiles smallLibraries.onWorld validArchive settings (fun pattern name => pattern = name)
    (fun _ world => world) [namedGroup]

/-- The other actions on the only file. -/
def actOnly (action : Action) : Proc (Program World) Int :=
  runAction smallLibraries.onWorld World.system validArchive settings asciiLocale
    (fun pattern name => pattern = name) 9 [namedGroup] action

end

theorem runsTo_of_ret {action : Proc (Program World) Int} {exit : Exit Int}
    (returned : (action Listing.listStart).1 = exit) : RunsTo action exit (action Listing.listStart).2 :=
  ⟨_, rfl, Prod.ext returned rfl⟩

theorem namesValidFiles_named :
    NamesValidFiles smallLibraries.onWorld validArchive namedSettings (fun pattern name => pattern = name)
      [namedGroup] := by
  intro _ fileGroup processed index inside _
  have groups : processedGroups validArchive namedSettings [namedGroup] = [namedGroup] := by decide +kernel
  rw [groups, List.mem_singleton] at processed
  rw [processed, show fileIndices namedGroup = [0] by decide, List.mem_singleton] at inside
  rw [inside]
  decide +kernel

/-- The file is asked for by its name. -/
theorem sameSequence_named_file :
    ∃ listed tested extracted : Program World,
      RunsTo (listOnly namedSettings) (.ret 0) listed ∧ RunsTo (actOnly namedSettings .test) (.ret 1) tested ∧
        RunsTo (actOnly namedSettings .extract) (.ret 1) extracted ∧
        listed.sequence = tested.sequence ∧ tested.sequence = extracted.sequence := by
  have lists : RunsTo (listOnly namedSettings) (.ret 0) _ := runsTo_of_ret (by decide +kernel)
  have tests : RunsTo (actOnly namedSettings .test) (.ret 1) _ := runsTo_of_ret (by decide +kernel)
  have extracts : RunsTo (actOnly namedSettings .extract) (.ret 1) _ := runsTo_of_ret (by decide +kernel)
  exact ⟨_, _, _, lists, tests, extracts,
    ((sameSequence_iff lists tests extracts).2 ⟨0, rfl⟩ ⟨1, rfl⟩ ⟨1, rfl⟩).2 namesValidFiles_named⟩

/-- The file is not asked for, but it is tested. -/
theorem tests_unnamed_file :
    ∃ listed tested extracted : Program World,
      RunsTo (listOnly otherSettings) (.ret 0) listed ∧ RunsTo (actOnly otherSettings .test) (.ret 1) tested ∧
        RunsTo (actOnly otherSettings .extract) (.ret 0) extracted ∧
        listed.sequence = [] ∧ tested.sequence = [0] ∧ extracted.sequence = [] := by
  refine ⟨_, _, _, runsTo_of_ret (by decide +kernel), runsTo_of_ret (by decide +kernel),
    runsTo_of_ret (by decide +kernel), ?_, ?_, ?_⟩
  · decide +kernel
  · decide +kernel
  · decide +kernel

end Unshield
