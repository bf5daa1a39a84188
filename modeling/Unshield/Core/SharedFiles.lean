/-
Module: Unshield.Core.SharedFiles
Purpose: Callbacks without a buffer: a stream refers to the file of its name, so that it shows at once
  what is done to the file through another stream.
Trusted boundary: human-reviewed model of unbuffered files, which are kept when they are closed
Main exports: Files, Cursor, Libraries.onFiles
-/
import Unshield.Core.Environment

namespace Unshield

/-- The files of a process by their paths. -/
abbrev Files := Bytes → Option Bytes

/-- An open file; one without a path is temporary and has its content to itself. -/
structure Cursor where
  path : Option Bytes
  temporary : Bytes := []
  position : Nat := 0
deriving DecidableEq

namespace Cursor

def content (file : Cursor) (files : Files) : Bytes :=
  match file.path with
  | some path => (files path).getD []
  | none => file.temporary

end Cursor

namespace Files

/-- `fopen`: opening for writing creates the file or truncates it. -/
def fopen (path : Bytes) (mode : Mode) (files : Files) : Option Cursor × Files :=
  match mode with
  | .readBinary => ((files path).map fun _ => { path := some path }, files)
  | .writeBinary => (some { path := some path }, Function.update files path (some []))

def fseek (file : Cursor) (offset : Int) (whence : Whence) (files : Files) : Cursor × Files :=
  let target : Int :=
    match whence with
    | .set => offset
    | .toEnd => (file.content files).length + offset
  (if 0 ≤ target then { file with position := target.toNat } else file, files)

def ftell (file : Cursor) (files : Files) : Int × Files := (file.position, files)

def fread (file : Cursor) (count : Nat) (files : Files) : Bytes × Cursor × Files :=
  let data := ((file.content files).drop file.position).take count
  (data, { file with position := file.position + data.length }, files)

def fwrite (file : Cursor) (data : Bytes) (files : Files) : Nat × Cursor × Files :=
  let content := Buffer.overwrite (file.content files) file.position data
  let position := file.position + data.length
  match file.path with
  | some path => (data.length, { file with position }, Function.update files path (some content))
  | none => (data.length, { file with temporary := content, position }, files)

def callbacks : Callbacks Files Cursor where
  fopen := fopen
  fseek := fseek
  ftell := ftell
  fread := fread
  fwrite := fwrite
  fclose := fun _ files => files

end Files

/-- A process whose cabinet was opened with these callbacks, and whose volumes have the given names. -/
def Libraries.onFiles (libraries : Libraries) (volumeName : Int → Bytes) : Environment Files Cursor :=
  { libraries with
    callbacks := Files.callbacks
    openForReading := fun volume => Files.fopen (volumeName volume) .readBinary
    native := Files.callbacks
    tmpfile := fun files => (some { path := none }, files) }

end Unshield
