/-
Module: Unshield.Core.ListFiles
Purpose: The action that lists files: which line is printed for a file, and the buffer that the directory
  part of the line is put together in.
Trusted boundary: human-reviewed model of list_files_helper and main in src/unshield.c
Main exports: startDirname, completeDirname, listDirectory, buildDirname, listLine, listFile,
  listFilesHelper, runListFiles
-/
import Unshield.Core.Actions
import Unshield.Foundation.BlockStrings

namespace Unshield

open Procedure

namespace Listing

/-- `'\\'` -/
def backslash : UInt8 := 0x5c

/-- The size of `dirname`. -/
def dirnameSize : Nat := 4096

/-! ### dirname -/

/-- The branches of `if (prefix && prefix[0])`; `none` is an access outside of the buffer. -/
def startDirname (dirname : Block) : Option Bytes → Option Block
  | some (byte :: rest) => do
      let dirname ← dirname.strcpy (byte :: rest)
      dirname.strcat [backslash]
  | some [] => dirname.store 0 [0]
  | none => dirname.store 0 [0]

/-- `if (dirname[strlen(dirname)-1] != '\\') strcat(dirname, "\\");`  The index is of type `size_t`. -/
def closeDirname (dirname : Block) : Option Block := do
  let length ← dirname.strlen
  let last ← dirname.load (UInt64.ofNat length - 1).toNat 1
  if last ≠ [backslash] then dirname.strcat [backslash] else some dirname

/-- From `strcat` of the directory name on, which is not checked to be there. -/
def completeDirname (dirname : Block) : Option Bytes → Option Block
  | none => none
  | some directoryName => do
      let dirname ← dirname.strcat directoryName
      closeDirname dirname

section Helper

variable {σ H : Type} (env : Environment σ H) (archive : Archive) (settings : Settings)
  (fnmatch : Bytes → Bytes → Bool) (print : Bytes → σ → σ)

/-- The name of the directory of a file. -/
def listDirectory (index : Int) : Proc (Library σ) (Option Bytes) := do
  let directory ← Calls.fileDirectory archive index
  Proc.ofExit (directoryName env.bigEndian archive.header directory)

/-- The string for a file is put together in `dirname`, which the stack leaves as it happens to be. -/
def buildDirname (namePrefix : Option Bytes) (index : Int) : Proc (Library σ) Block := do
  let dirname ← Proc.access (startDirname { size := dirnameSize, byte := env.garbage } namePrefix)
  let directoryName ← listDirectory env archive index
  Proc.access (completeDirname dirname directoryName)

/-! ### Lines -/

/-- `" %8" SIZE_FORMAT "  %s%s\n"` -/
def listLine (size : UInt64) (dirname : Bytes) (name : Option Bytes) : Bytes :=
  let digits := (Nat.toDigits 10 size.toNat).map Char.toUInt8
  [0x20] ++ List.replicate (8 - digits.length) 0x20 ++ digits ++ [0x20, 0x20] ++ dirname ++
    printString name ++ [0x0a]

/-- The body of the `if` in `list_files_helper`. -/
def listFile (namePrefix : Exit (Option Bytes)) (index : Int) : Proc (Library σ) Bool := do
  let namePrefix ← Proc.ofExit namePrefix
  let dirname ← buildDirname env archive namePrefix index
  let size ← Calls.fileSize archive index
  let dirname ← Proc.access dirname.string
  let name ← Calls.fileName env archive index
  Proc.modify fun library => { library with io := print (listLine size dirname name) library.io }
  pure true

/-- One turn of the loop of `list_files_helper`. -/
def listFilesTurn (namePrefix : Exit (Option Bytes)) (last : Int) (vars : Int × Int) :
    Proc (Program σ) (Proc.Turn (Int × Int) Int) :=
  helperTurn (extractCondition env archive settings fnmatch) (listFile env archive print namePrefix) last vars

/-- `list_files_helper`, which counts the files that it lists. -/
def listFilesHelper (namePrefix : Exit (Option Bytes)) (first last : Int) : Proc (Program σ) Int :=
  helperLoop (extractCondition env archive settings fnmatch) (listFile env archive print namePrefix)
    first last

/-- `main` from `switch (action)` on, for `ACTION_LIST_FILES`. -/
def runListFiles (fileGroups : List FileGroup) : Proc (Program σ) Int := do
  let success ← doAction archive settings (listFilesHelper env archive settings fnmatch print) fileGroups
  exitWith success

end Helper

end Listing

end Unshield
