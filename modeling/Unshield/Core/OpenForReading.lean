/-
Module: Unshield.Core.OpenForReading
Purpose: Finding a volume: the pattern made of the name a cabinet is opened by, the file name that the
  pattern gives for a volume, and the search of its directory whatever the case of letters.
Trusted boundary: human-reviewed model of unshield_create_filename_pattern in lib/libunshield.c, and of
  get_filename and unshield_fopen_for_reading in lib/helper.c, on a system with '/' as the separator
Main exports: createFilenamePattern, getFilename, Directories, volumePath, fopenForReading
-/
import Unshield.Core.FileSystem
import Unshield.Core.Library
import Unshield.Foundation.Formatting

namespace Unshield

open Procedure
open Formatting (Conversions percent)

/-! ### Names -/

/-- `strrchr`, as an index. -/
def strrchr (byte : UInt8) : Bytes → Option Nat
  | [] => none
  | first :: rest =>
      match strrchr byte rest with
      | some index => some (index + 1)
      | none => if first = byte then some 0 else none

/-- `unshield_get_last_path_separator` -/
def getLastPathSeparator (path : Bytes) : Option Nat := strrchr slash path

/-- `'.' == *p || isdigit(*p)` -/
def EndsPrefix (byte : UInt8) : Prop := byte = dot ∨ 0x30 ≤ byte ∧ byte ≤ 0x39

instance (byte : UInt8) : Decidable (EndsPrefix byte) := inferInstanceAs (Decidable (_ ∨ _ ∧ _))

/-- `sizeof(pattern)` -/
def patternSize : Nat := 256

/-- What `"%s%%i.%%s"` prints behind the prefix. -/
def patternTail : Bytes := [percent, 'i'.toUInt8, dot, percent, 's'.toUInt8]

/-- `unshield_create_filename_pattern` -/
def createFilenamePattern (filename : Bytes) : Bytes :=
  let p := (getLastPathSeparator filename).getD 0
  let kept := filename.take p ++ (filename.drop p).takeWhile fun byte => ¬ EndsPrefix byte
  (kept ++ patternTail).take (patternSize - 1)

section

variable (conversions : Conversions) (pathMax : Nat) (filenamePattern : Bytes)

/-- `get_filename`.  A name that exceeds the system's limit is cut there. -/
def getFilename (index : Int) (suffix : Bytes) : Exit Bytes := do
  let filename ← Exit.ofAccess
    (Formatting.printf conversions none filenamePattern [.int index, .string suffix])
  pure (filename.take (pathMax - 1))

/-! ### Directories -/

/-- The callbacks on directories.  A handle is a value that every operation on it gives back changed. -/
structure Directories (σ D : Type) where
  opendir : Bytes → σ → Option D × σ
  readdir : D → σ → (Option Bytes × D) × σ
  closedir : D → σ → σ

/-- A call that comes back. -/
def callBack {σ α : Type} (call : σ → α × σ) : Proc σ α := fun s => (.ret (call s).1, (call s).2)

variable {σ D H : Type} (directories : Directories σ D) (toLower : UInt8 → UInt8)

/-- `!strcasecmp(q, name)` -/
def SameButForCase (q name : Bytes) : Prop := q.map toLower = name.map toLower

instance (q name : Bytes) : Decidable (SameButForCase toLower q name) := inferInstanceAs (Decidable (_ = _))

/-- One turn of the search of a directory; the loop variable is `sourcedir`. -/
def searchTurn (q : Bytes) (sourcedir : D) : Proc σ (Proc.Turn D (Option Bytes × D)) := do
  match ← callBack (directories.readdir sourcedir) with
  | (none, sourcedir) => pure (.done (none, sourcedir))
  | (some name, sourcedir) =>
      if SameButForCase toLower q name then pure (.done (some name, sourcedir))
      else pure (.again sourcedir)

/-- `q` -/
def requestedName (filename : Bytes) : Bytes :=
  filename.drop ((getLastPathSeparator filename).elim 0 Nat.succ)

/-- The path of an entry, unless it exceeds the system's limit. -/
def entryPath (dirname name : Bytes) : Option Bytes :=
  let filename := dirname ++ slash :: name
  if filename.length ≥ pathMax then none else some filename

/-- `filename` where it is opened, if it is; `sourcedir` stays open until then. -/
def volumePath (fuel : Nat) (index : Int) (suffix : Bytes) : Proc σ (Option Bytes × Option D) := do
  let filename ← Proc.ofExit (getFilename conversions pathMax filenamePattern index suffix)
  let dirname ← Proc.ofExit (getBaseDirectoryName pathMax filenamePattern)
  match ← callBack (directories.opendir dirname) with
  | none => pure (some filename, none)
  | some sourcedir => do
      match ← Proc.iterate (searchTurn directories toLower (requestedName filename)) fuel sourcedir with
      | (none, sourcedir) => pure (none, some sourcedir)
      | (some name, sourcedir) => pure (entryPath pathMax dirname name, some sourcedir)

/-- `unshield_fopen_for_reading` -/
def fopenForReading (fopen : Bytes → σ → Option H × σ) (fuel : Nat) (index : Int) (suffix : Bytes) :
    Proc σ (Option H) := do
  let (filename, sourcedir) ←
    volumePath conversions pathMax filenamePattern directories toLower fuel index suffix
  let result ← callBack (filename.elim (none, ·) fopen)
  Proc.modify (sourcedir.elim id directories.closedir)
  pure result

end

end Unshield
