/-
Module: Unshield.Core.ExtractFile
Purpose: Extracting one file: the name of the output file, the directories on the way to it, the check
  against directory traversal, the call of a save function and the clean-up.
Trusted boundary: human-reviewed model of extract_file, make_sure_directory_exists and
  convert_encoding in src/unshield.c
Main exports: Options, Locale, makeSureDirectoryExists, dirnameFor, bufferFor, convertName,
  extractPath, extractFile
-/
import Unshield.Core.FileSystem
import Unshield.Core.Save

namespace Unshield

open Procedure

inductive Format where
  | new
  | old
  | raw
deriving Repr, DecidableEq

/-- The settings of the program that count for an extraction. -/
structure Options where
  outputDirectory : Bytes
  junkPaths : Bool := false
  makeLowercase : Bool := false
  rawFilename : Bool := false
  format : Format := .new

/-- What the C library and iconv make of characters.  Without an encoding descriptor there is no
conversion; one that fails has no result. -/
structure Locale where
  isPrint : UInt8 → Bool
  toLower : UInt8 → UInt8
  toLower_ne_zero : ∀ byte, byte ≠ 0 → toLower byte ≠ 0
  iconv : Option (Bytes → Option Bytes) := none

/-! ### make_sure_directory_exists -/

section MakeSureDirectoryExists

variable {σ : Type} (system : System σ)

/-- `current` is made unless it exists; then the loop goes on at `next`. -/
def makeCurrent (current : Bytes) (next : Nat) : Proc σ (Proc.Turn Nat Bool) := fun s =>
  if system.stat current s then (.ret (.again next), s)
  else
    let made := system.mkdir current s
    if made.1 then (.ret (.again next), made.2) else (.ret (.done false), made.2)

/-- One turn of the loop of `make_sure_directory_exists`; the loop variable is `p` as an offset into
`directory`. -/
def makeDirectoryTurn (directory : Bytes) (p : Nat) : Proc σ (Proc.Turn Nat Bool) :=
  let rest := directory.drop p
  if rest = [] then
    pure (.done true)
  else if rest.head? = some slash then
    pure (.again (p + 1))
  else if rest.take 2 = [dot, slash] then
    pure (.again (p + 2))
  else if rest.take 3 = [dot, dot, slash] then
    pure (.again (p + 3))
  else
    let next := p + (rest.takeWhile (· ≠ slash)).length
    makeCurrent system (directory.take next) next

/-- `make_sure_directory_exists` -/
def makeSureDirectoryExists (directory : Bytes) : Proc σ Bool :=
  Proc.iterate (makeDirectoryTurn system directory) (directory.length + 1) 0

end MakeSureDirectoryExists

/-! ### Names -/

section Naming

variable (options : Options) (locale : Locale) (pathMax : Nat)

/-- `strcat` of a name and a slash, unless the name is null or empty; fails if that is too long. -/
def appendName (dirname : Bytes) : Option Bytes → Option Bytes
  | none => some dirname
  | some name =>
      if name = [] then some dirname
      else if dirname.length + name.length < pathMax - 1 then some (dirname ++ name ++ [slash])
      else none

/-- A byte of a name, unless names are taken raw. -/
def rewriteByte (byte : UInt8) : UInt8 :=
  if options.rawFilename then byte
  else if ¬ locale.isPrint byte then 0x5f
  else if options.makeLowercase then locale.toLower byte
  else byte

/-- A byte of the directory part. -/
def rewriteDirectoryByte (byte : UInt8) : UInt8 :=
  if byte = 0x5c then slash
  else if byte ∈ [0x20, 0x3c, 0x3e, 0x5b, 0x5d] then 0x5f
  else rewriteByte options locale byte

/-- `convert_encoding` of the string in a buffer of `size` bytes. -/
def convertEncoding (buffer : Bytes) (size : Nat) : Option Bytes :=
  match locale.iconv with
  | none => some buffer
  | some iconv =>
      match iconv buffer with
      | some converted =>
          if converted.length ≤ size - 1 then some (converted.takeWhile (· ≠ 0)) else none
      | none => none

/-- The output directory and the prefix. -/
def startDirname (namePrefix : Option Bytes) : Option Bytes :=
  if options.outputDirectory.length < pathMax - 1 then
    appendName pathMax (options.outputDirectory ++ [slash]) namePrefix
  else none

/-- `dirname`, if it does not become too long and can be converted.  The directory name is asked for
when the parts before it fit. -/
def dirnameFor (namePrefix : Option Bytes) (directoryName : Exit (Option Bytes)) :
    Exit (Option Bytes) :=
  match startDirname options pathMax namePrefix with
  | none => .ret none
  | some dirname => do
      let tmp ← directoryName
      pure (match appendName pathMax dirname tmp with
        | none => none
        | some dirname =>
            let kept := options.outputDirectory.length
            convertEncoding locale
              (dirname.take kept ++ (dirname.drop kept).map (rewriteDirectoryByte options locale)) pathMax)

/-- What `filename` holds after `snprintf` and the loop behind it. -/
def bufferFor (dirname : Bytes) (name : Option Bytes) : Bytes :=
  let filename := (dirname ++ printString name).take (pathMax - 1)
  filename.take dirname.length ++
    (filename.drop dirname.length).map (rewriteByte options locale)

/-- `convert_encoding` of the part of `filename` behind the directory. -/
def convertName (dirname filename : Bytes) : Option Bytes :=
  (convertEncoding locale (filename.drop dirname.length) (pathMax - dirname.length)).map
    fun name => filename.take dirname.length ++ name

end Naming

/-! ### extract_file -/

/-- What `extract_file` works on: the library, and the string that its buffer `filename` holds.  At
first that is what happens to be there. -/
structure Extraction (σ : Type) where
  library : Library σ
  filename : Exit Bytes

section Extract

variable {σ H : Type} (env : Environment σ H) (system : System σ) (archive : Archive)
  (options : Options) (locale : Locale)

/-- A call of the library. -/
def onLibrary {α : Type} (call : Proc (Library σ) α) : Proc (Extraction σ) α := fun e =>
  match call e.library with
  | (exit, library) => (exit, { e with library })

/-- A call of the system. -/
def onSystem {α : Type} (call : Proc σ α) : Proc (Library σ) α := fun library =>
  match call library.io with
  | (exit, io) => (exit, { library with io })

/-- `unshield_get_file_descriptor`, which gives a null pointer where it fails. -/
def findFileDescriptor (index : Int) : Proc (Library σ) (Option FileDescriptor) := fun library =>
  match getFileDescriptor archive.header index library with
  | (.ret fd, library) => (.ret (some fd), library)
  | (.fail, library) => (.ret none, library)
  | (.abort, library) => (.abort, library)
  | (.fault, library) => (.fault, library)
  | (.timeout, library) => (.timeout, library)

/-- `unshield_file_directory` of the file with a descriptor. -/
def fileDirectory : Option FileDescriptor → Exit Int
  | none => .ret (-1)
  | some fd => do
      Exit.assert (fd.directoryIndex < archive.header.cab.directoryCount)
      pure fd.directoryIndex.toInt32.toInt

/-- The name of the directory, unless paths are junked. -/
def directoryNameOf (directory : Int) : Exit (Option Bytes) :=
  if ¬ options.junkPaths ∧ directory ≥ 0 then directoryName env.bigEndian archive.header directory
  else .ret none

/-- `unshield_file_name` of the file with a descriptor. -/
def fileNameOf : Option FileDescriptor → Exit (Option Bytes)
  | none => .ret none
  | some fd => do
      let name ← fileName env.bigEndian archive.header fd
      pure (some name)

/-- The check that the output file is in the output directory: one text starts with the other. -/
def insideOutputDirectory (filename : Bytes) (io : σ) : Bool :=
  (system.realpath options.outputDirectory io).isPrefixOf (system.realpath filename io)

/-- The converted name is in `filename` when it is checked. -/
def checkFilename (filename : Bytes) : Proc (Extraction σ) Bytes := do
  Proc.modify fun e => { e with filename := .ret filename }
  let io ← Proc.gets fun e => e.library.io
  Proc.require (insideOutputDirectory system options filename io = true)
  pure filename

/-- From `snprintf` on. -/
def completeFilename (dirname filename : Bytes) : Proc (Extraction σ) Bytes := do
  Proc.modify fun e => { e with filename := .ret filename }
  match convertName locale env.pathMax dirname filename with
  | none => Proc.fail
  | some filename => checkFilename system options filename

/-- From `make_sure_directory_exists` on. -/
def extractPathIn (index : Int) (dirname : Bytes) : Proc (Extraction σ) Bytes := do
  let _ ← onLibrary (onSystem (makeSureDirectoryExists system dirname))
  let descriptor ← onLibrary (findFileDescriptor archive index)
  let name ← Proc.ofExit (fileNameOf env archive descriptor)
  completeFilename env system options locale dirname
    (bufferFor options locale env.pathMax dirname name)

/-- `extract_file` up to the call of a save function: the path of the output file. -/
def extractPath (namePrefix : Option Bytes) (index : Int) : Proc (Extraction σ) Bytes := do
  let descriptor ← onLibrary (findFileDescriptor archive index)
  let directory ← Proc.ofExit (fileDirectory archive descriptor)
  match ← Proc.ofExit (dirnameFor options locale env.pathMax namePrefix
      (directoryNameOf env archive options directory)) with
  | none => Proc.fail
  | some dirname => extractPathIn env system archive options locale index dirname

/-- The call of the save function for a format. -/
def saveAs (format : Format) (fuel : Nat) (index : Int) (filename : Bytes) :
    Proc (Library σ) Unit :=
  match format with
  | .new => fileSave env archive fuel index (some filename)
  | .old => fileSaveOld env archive fuel index (some filename)
  | .raw => fileSaveRaw env archive fuel index (some filename)

/-- `extract_file` up to its exit block. -/
def extractBody (fuel : Nat) (namePrefix : Option Bytes) (index : Int) :
    Proc (Extraction σ) Unit := do
  let filename ← extractPath env system archive options locale namePrefix index
  onLibrary (saveAs env archive options.format fuel index filename)

/-- The string that a freshly allocated buffer holds. -/
def freshString : Exit Bytes := cString ((List.range env.pathMax).map env.garbage) 0

/-- The exit block of a failure: its message names the file, and whatever the buffer names is
removed. -/
def cleanUp (index : Int) : Proc (Extraction σ) Unit := do
  let descriptor ← onLibrary (findFileDescriptor archive index)
  let _ ← Proc.ofExit (fileNameOf env archive descriptor)
  let filename ← fun e => (e.filename, e)
  Proc.modify fun e => { e with library.io := system.unlink filename e.library.io }

/-- `extract_file` -/
def extractFile (fuel : Nat) (namePrefix : Option Bytes) (index : Int) :
    Proc (Library σ) Bool := fun library =>
  let body := extractBody env system archive options locale fuel namePrefix index
  let extracted := Proc.onFailure (do body; pure true) (do cleanUp env system archive index; pure false)
  match extracted { library, filename := freshString env } with
  | (exit, e) => (exit, e.library)

end Extract

end Unshield
