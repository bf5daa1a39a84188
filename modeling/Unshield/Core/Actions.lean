/-
Module: Unshield.Core.Actions
Purpose: The actions of the program that try files: which files are tried, in which order, what total
  is printed and with which status the program exits.
Trusted boundary: human-reviewed model of should_process_file, extract_helper, test_file, test_helper,
  do_action and main in src/unshield.c and of unshield_file_group_find in lib/file_group.c
Main exports: Settings, Attempt, Program, shouldProcessFile, helperLoop, extractHelper, testHelper,
  fileGroupFind, doAction, runAction
-/
import Unshield.Core.Calls
import Unshield.Core.OpenCabinet

namespace Unshield

open Procedure

/-- The actions that try files. -/
inductive Action where
  | extract
  | test
deriving Repr, DecidableEq

/-- The settings of the program that count for these actions. -/
structure Settings extends Options where
  componentName : Option Bytes := none
  fileGroupName : Option Bytes := none
  pathNames : List Bytes := []

/-- A call of `extract_file` or `test_file` that has come back, with the value returned. -/
structure Attempt where
  index : Int
  success : Bool
deriving Repr, DecidableEq

/-- The program while an action runs: the library, `exit_status`, the calls so far and the totals that
have been printed. -/
structure Program (σ : Type) where
  library : Library σ
  exitStatus : Int := 0
  attempts : List Attempt := []
  totals : List Int := []

/-- The sum of two counters of type `int`; an overflow is undefined. -/
def addInt (one two : Int) : Exit Int :=
  if one + two ≤ intMax then .ret (one + two) else .fault

section Helpers

variable {σ H : Type} (env : Environment σ H) (system : System σ) (archive : Archive)
  (settings : Settings) (locale : Locale) (fnmatch : Bytes → Bytes → Bool) (fuel : Nat)

/-- A call of the library. -/
def inLibrary {α : Type} (call : Proc (Library σ) α) : Proc (Program σ) α := fun program =>
  match call program.library with
  | (exit, library) => (exit, { program with library })

/-! ### The files that are tried -/

/-- The loop of `should_process_file` over the names on the command line; the name of the file is asked
for again for each of them. -/
def matchesPathName (index : Int) : List Bytes → Proc (Library σ) Bool
  | [] => pure false
  | pattern :: patterns => do
      match ← Calls.fileName env archive index with
      | none => Proc.ofExit .fault
      | some name => if fnmatch pattern name then pure true else matchesPathName index patterns

/-- `should_process_file` -/
def shouldProcessFile (index : Int) : Proc (Library σ) Bool :=
  if settings.pathNames = [] then pure true
  else matchesPathName env archive fnmatch index settings.pathNames

/-- The condition of `extract_helper` in front of `extract_file`. -/
def extractCondition (index : Int) : Proc (Library σ) Bool := do
  if ← Calls.fileIsValid archive index then shouldProcessFile env archive settings fnmatch index
  else pure false

/-- The call of the save function for a format without an output file. -/
def saveNowhere (format : Format) (index : Int) : Proc (Library σ) Unit :=
  match format with
  | .new => fileSave env archive fuel index none
  | .old => fileSaveOld env archive fuel index none
  | .raw => fileSaveRaw env archive fuel index none

/-- `test_file`, apart from `exit_status`.  The name of the file is printed in front, and in the message
of a failure. -/
def testFile (index : Int) : Proc (Library σ) Bool := do
  let _ ← Calls.fileName env archive index
  Proc.onFailure
    (do saveNowhere env archive fuel settings.format index; pure true)
    (do let _ ← Calls.fileName env archive index; pure false)

/-- `extract_file` with a prefix that is read there, apart from `exit_status`. -/
def extractFileUnder (namePrefix : Exit (Option Bytes)) (index : Int) : Proc (Library σ) Bool := do
  let namePrefix ← Proc.ofExit namePrefix
  extractFile env system archive settings.toOptions locale fuel namePrefix index

/-! ### The helpers -/

/-- A call of `extract_file` or `test_file`; a failure sets `exit_status`. -/
def attempt (call : Int → Proc (Library σ) Bool) (index : Int) : Proc (Program σ) Bool := do
  let success ← inLibrary (call index)
  Proc.modify fun program =>
    { program with
      attempts := program.attempts ++ [{ index, success }]
      exitStatus := if success then program.exitStatus else 1 }
  pure success

/-- The condition of the `if` in the loop of a helper: `&&` goes on to the call only for a file that is
to be processed. -/
def processFile (condition call : Int → Proc (Library σ) Bool) (index : Int) :
    Proc (Program σ) Bool := do
  if ← inLibrary (condition index) then attempt call index else pure false

/-- One turn of the loop of a helper; the loop variables are `i` and `count`. -/
def helperTurn (condition call : Int → Proc (Library σ) Bool) (last : Int) (vars : Int × Int) :
    Proc (Program σ) (Proc.Turn (Int × Int) Int) :=
  if vars.1 ≤ last then do
    let success ← processFile condition call vars.1
    let count ← Proc.ofExit (if success then addInt vars.2 1 else .ret vars.2)
    let i ← Proc.ofExit (addInt vars.1 1)
    pure (.again (i, count))
  else
    pure (.done vars.2)

/-- `for (i = first; i <= last; i++)` -/
def helperLoop (condition call : Int → Proc (Library σ) Bool) (first last : Int) :
    Proc (Program σ) Int :=
  Proc.iterate (helperTurn condition call last) ((last + 1 - first).toNat + 1) (first, 0)

/-- `extract_helper` -/
def extractHelper (namePrefix : Exit (Option Bytes)) (first last : Int) : Proc (Program σ) Int :=
  helperLoop (extractCondition env archive settings fnmatch)
    (extractFileUnder env system archive settings locale fuel namePrefix) first last

/-- `test_helper`, which looks neither at the prefix nor at the names on the command line. -/
def testHelper (_namePrefix : Exit (Option Bytes)) (first last : Int) : Proc (Program σ) Int :=
  helperLoop (Calls.fileIsValid archive) (testFile env archive settings fuel) first last

/-! ### do_action and main -/

/-- The characters of a string. -/
def HeaderString.text (header : Header) : HeaderString → Exit (Option Bytes)
  | .null => .ret none
  | .inData p => do
      let text ← cString header.data p
      pure (some text)
  | .converted text => .ret (some text)

/-- `unshield_file_group_find` -/
def fileGroupFind (name : Bytes) : List FileGroup → Exit (Option FileGroup)
  | [] => .ret none
  | fileGroup :: fileGroups => do
      match ← fileGroup.name.text archive.header with
      | none => .fault
      | some text => if text = name then pure (some fileGroup) else fileGroupFind name fileGroups

section

variable (helper : Exit (Option Bytes) → Int → Int → Proc (Program σ) Int)

/-- The branch of `do_action` for a file group that is named. -/
def actOnNamed (fileGroups : List FileGroup) (name : Bytes) : Proc (Program σ) Int := do
  match ← Proc.ofExit (fileGroupFind archive name fileGroups) with
  | none => pure 0
  | some fileGroup => helper (.ret (some name)) fileGroup.firstFile fileGroup.lastFile

/-- The loop of `do_action` over the file groups; the loop variable is `count`. -/
def actOnAll : List FileGroup → Int → Proc (Program σ) Int
  | [], count => pure count
  | fileGroup :: fileGroups, count => do
      if fileGroup.firstFile ≠ -1 then do
        let more ← helper (fileGroup.name.text archive.header) fileGroup.firstFile fileGroup.lastFile
        let count ← Proc.ofExit (addInt count more)
        actOnAll fileGroups count
      else actOnAll fileGroups count

/-- The file groups of an action, with the number of files that `count` reaches. -/
def actOnGroups (fileGroups : List FileGroup) : Proc (Program σ) Int :=
  match settings.fileGroupName with
  | some name => actOnNamed archive helper fileGroups name
  | none => actOnAll archive helper fileGroups 0

/-- `do_action` -/
def doAction (fileGroups : List FileGroup) : Proc (Program σ) Bool :=
  if settings.componentName ≠ none then pure false
  else do
    let count ← actOnGroups archive settings helper fileGroups
    Proc.modify fun program => { program with totals := program.totals ++ [count] }
    pure true

end

/-- The helper that `main` hands to `do_action`. -/
def helperFor (action : Action) : Exit (Option Bytes) → Int → Int → Proc (Program σ) Int :=
  match action with
  | .extract => extractHelper env system archive settings locale fnmatch fuel
  | .test => testHelper env archive settings fuel

/-- `if (!success) exit_status = 1;` and the return of `main`. -/
def exitWith (success : Bool) : Proc (Program σ) Int := do
  Proc.modify fun program => if success then program else { program with exitStatus := 1 }
  Proc.gets fun program => program.exitStatus

/-- `main` from `switch (action)` on; what is returned is the status of the process. -/
def runAction (fileGroups : List FileGroup) (action : Action) : Proc (Program σ) Int := do
  let success ← doAction archive settings
    (helperFor env system archive settings locale fnmatch fuel action) fileGroups
  exitWith success

end Helpers

end Unshield
