/-
Module: Unshield.Core.Library
Purpose: The opened cabinet: the cache of file descriptors, and the reader of a file that lies beside the
  cabinet instead of in it.
Trusted boundary: human-reviewed model of lib/file.c
Main exports: Library, getFileDescriptor, readerCreateExternal
-/
import Unshield.Core.Reader
import Unshield.Core.Uncompress

namespace Unshield

open Procedure

/-- What the library remembers between calls: the descriptors it has decoded so far, and the world
outside. -/
structure Library (σ : Type) where
  fileDescriptors : Nat → Option FileDescriptor
  io : σ

/-- An opened cabinet, apart from what changes. -/
structure Archive where
  header : Header
  filenamePattern : Bytes

/-! ### Descriptors -/

section Descriptors

variable {σ : Type} (header : Header)

/-- `index < 0 || index >= (int)header->cab.file_count` does not hold. -/
def ValidIndex (index : Int) : Prop := 0 ≤ index ∧ index < header.cab.fileCount.toInt32.toInt

instance (index : Int) : Decidable (ValidIndex header index) := inferInstanceAs (Decidable (_ ∧ _))

/-- `unshield_get_file_descriptor`: a descriptor is decoded once and kept. -/
def getFileDescriptor (index : Int) : Proc (Library σ) FileDescriptor := do
  Proc.require (ValidIndex header index)
  match ← Proc.gets fun library => library.fileDescriptors index.toNat with
  | some fd => pure fd
  | none => do
      let fd ← Proc.ofExit (readFileDescriptor header index)
      Proc.modify fun library =>
        { library with
          fileDescriptors := Function.update library.fileDescriptors index.toNat (some fd) }
      pure fd

end Descriptors

/-! ### Readers of external files -/

section External

variable {σ H : Type} (env : Environment σ H) (archive : Archive)

/-- The buffer size of `copy_file`. -/
def copySize : Nat := 1024 * 1024

/-- One turn of the loop of `copy_file`; the loop variable is `outfile`. -/
def copyTurn (outfile : H) : Proc (Session σ H) (Proc.Turn H H) := fun s =>
  match s.reader.volumeFile with
  | none => (.fault, s)
  | some infile =>
      let read := env.callbacks.fread infile copySize s.io
      let s := { s with reader.volumeFile := some read.2.1, io := read.2.2 }
      if read.1 = [] then
        (.ret (.done outfile), s)
      else
        let written := env.callbacks.fwrite outfile read.1 s.io
        (.ret (.again written.2.1), { s with io := written.2.2 })

/-- `copy_file` from the reader's file into `outfile`. -/
def copyFile (fuel : Nat) (outfile : H) : Proc (Session σ H) H :=
  Proc.iterate (copyTurn env) fuel outfile

/-- `directory_and_filename` -/
def externalPath (fd : FileDescriptor) : Exit Bytes := do
  let name ← fileName env.bigEndian archive.header fd
  let directory ← directoryName env.bigEndian archive.header fd.directoryIndex.toInt32.toInt
  let base ← getBaseDirectoryName env.pathMax archive.filenamePattern
  pure ((base ++ slash :: (printString directory ++ slash :: name)).take (env.pathMax - 1))

/-- `volume_file = fopen(directory_and_filename, "rb")` -/
def fopenExternal (path : Bytes) : Proc (Session σ H) Unit := fun s =>
  let opened := env.native.fopen path .readBinary s.io
  let s := { s with reader.volumeFile := opened.1, io := opened.2 }
  if opened.1.isSome then (.ret (), s) else (.fail, s)

/-- The temporary copy of an external file, with the last `diff` bytes of the end-of-chunk marker
behind it, takes the place of the file. -/
def completeMarker (fuel diff : Nat) : Proc (Session σ H) Unit := do
  let temporary ← fun s =>
    match env.tmpfile s.io with
    | (none, io) => (Exit.fault, { s with io := io })
    | (some file, io) => (Exit.ret file, { s with io := io })
  let temporary ← copyFile env fuel temporary
  Proc.modify fun s =>
    let (_, temporary, io) :=
      env.native.fwrite temporary (endOfChunk.drop (endOfChunk.length - diff)) s.io
    let (temporary, io) := env.native.fseek temporary 0 .set io
    let io :=
      match s.reader.volumeFile with
      | some file => env.native.fclose file io
      | none => io
    { s with reader.volumeFile := some temporary, io := io }

/-- The body of `unshield_reader_create_external`. -/
def openExternal (fuel : Nat) : Proc (Session σ H) Unit := do
  let fd ← Proc.gets fun s => s.fileDescriptor
  let path ← Proc.ofExit (externalPath env archive fd)
  fopenExternal env path
  if fd.Has fileCompressed then do
    let fileSize ← fsizeVolume env
    let diff := (fd.compressedSize - UInt64.ofInt fileSize).toInt64.toInt
    if diff > 0 then do
      let diff := min endOfChunk.length diff.toNat
      completeMarker env fuel diff
      Proc.modify fun s => { s with reader.volumeBytesLeft := UInt32.ofInt (fileSize + diff) }
    else
      Proc.modify fun s => { s with reader.volumeBytesLeft := fd.compressedSize.toUInt32 }
  else
    Proc.modify fun s => { s with reader.volumeBytesLeft := fd.expandedSize.toUInt32 }

/-- `unshield_reader_create_external` -/
def readerCreateExternal (fuel : Nat) (index : Int) : Proc (Session σ H) Unit := fun s =>
  match openExternal env archive fuel { s with reader := { index := UInt32.ofInt index } } with
  | (.fail, s) => (.fail, freeReader s)
  | result => result

end External

end Unshield
