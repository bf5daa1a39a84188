/-
Module: Unshield.Core.Reader
Purpose: The reader of lib/file.c: opening a volume, finding the portion of a file in it, and reading
  a file's stored bytes across volume boundaries.
Trusted boundary: human-reviewed model of the UnshieldReader functions of lib/file.c
Main exports: Reader, Session, reportFileName, markSplit, selectPortion, readerOpenVolume, deobfuscate,
  readerRead, readOrReport, readerCreate, fsize
-/
import Unshield.Core.Environment
import Unshield.Core.Names

namespace Unshield

open Procedure

/-- `UnshieldReader`.  The library and the file descriptor it points to are in `Session`; a freshly
allocated reader is all zeros. -/
structure Reader (H : Type) where
  index : UInt32
  volume : Int := 0
  volumeFile : Option H := none
  volumeHeader : VolumeHeader := {}
  volumeBytesLeft : UInt32 := 0
  obfuscationOffset : UInt32 := 0

/-- What one call on one file works on.  Volume numbers are integers: nobody has two thousand
million volumes. -/
structure Session (σ H : Type) where
  reader : Reader H
  fileDescriptor : FileDescriptor
  output : Option H := none
  io : σ

variable {σ H : Type} (env : Environment σ H) (header : Header)

/-! ### Streams of a session -/

/-- `FCLOSE(reader->unshield, reader->volume_file)` -/
def fcloseVolume : Proc (Session σ H) Unit := fun s =>
  match s.reader.volumeFile with
  | none => (.ret (), s)
  | some file =>
      (.ret (), { s with reader.volumeFile := none, io := env.callbacks.fclose file s.io })

/-- `reader->volume_file = unshield_fopen_for_reading(...)`; fails if there is no such volume. -/
def fopenVolume (volume : Int) : Proc (Session σ H) Unit := fun s =>
  let opened := env.openForReading volume s.io
  let s := { s with reader.volumeFile := opened.1, io := opened.2 }
  if opened.1.isSome then (.ret (), s) else (.fail, s)

/-- `unshield_fread(..., reader->volume_file)` of exactly `count` bytes; fails on a short count. -/
def freadVolume (count : Nat) : Proc (Session σ H) Bytes := fun s =>
  match s.reader.volumeFile with
  | none => (.fault, s)
  | some file =>
      let read := env.callbacks.fread file count s.io
      let s := { s with reader.volumeFile := some read.2.1, io := read.2.2 }
      if read.1.length = count then (.ret read.1, s) else (.fail, s)

/-- `unshield_fseek(..., reader->volume_file, offset, SEEK_SET)`, whose result nobody looks at. -/
def fseekVolume (offset : Int) : Proc (Session σ H) Unit := fun s =>
  match s.reader.volumeFile with
  | none => (.fault, s)
  | some file =>
      let sought := env.callbacks.fseek file offset .set s.io
      (.ret (), { s with reader.volumeFile := some sought.1, io := sought.2 })

/-- `unshield_ftell(..., reader->volume_file)` among the arguments of a message. -/
def ftellVolume : Proc (Session σ H) Unit := fun s =>
  match s.reader.volumeFile with
  | none => (.fault, s)
  | some file =>
      let told := env.callbacks.ftell file s.io
      (.ret (), { s with io := told.2 })

/-- `unshield_fsize`: seek to the end, ask for the position and seek back. -/
def fsize (file : H) (io : σ) : Int × H × σ :=
  let previous := env.callbacks.ftell file io
  let atEnd := env.callbacks.fseek file 0 .toEnd previous.2
  let result := env.callbacks.ftell atEnd.1 atEnd.2
  let back := env.callbacks.fseek atEnd.1 previous.1 .set result.2
  (result.1, back.1, back.2)

/-- `unshield_fsize(unshield, reader->volume_file)` -/
def fsizeVolume : Proc (Session σ H) Int := fun s =>
  match s.reader.volumeFile with
  | none => (.fault, s)
  | some file =>
      let (size, file, io) := fsize env file s.io
      (.ret size, { s with reader.volumeFile := some file, io := io })

/-! ### Messages -/

/-- `unshield_file_name` of the session's file among the arguments of an error message.  The name in a
header before version 17 is no more than a pointer, which only the printing of the message follows. -/
def reportFileName : Proc (Session σ H) Unit := do
  let fd ← Proc.gets fun s => s.fileDescriptor
  if header.majorVersion ≥ 17 ∨ env.errorsPrinted = true then do
    let _ ← Proc.ofExit (fileName env.bigEndian header fd)
    pure ()
  else
    pure ()

/-- The error exit behind a message that names the session's file. -/
def failWithFileName {α : Type} : Proc (Session σ H) α := do
  reportFileName env header
  Proc.fail

/-! ### Opening a volume -/

/-- Support for split archives of major version 5: a file that the volume header names as its last
or its first one, with another compressed size, is marked split. -/
def markSplit (index : UInt32) (volumeHeader : VolumeHeader) (fd : FileDescriptor) :
    FileDescriptor :=
  if header.majorVersion = 5 then
    if index < header.cab.fileCount - 1 ∧ index = volumeHeader.lastFileIndex ∧
        volumeHeader.lastFileSizeCompressed.toUInt64 ≠ fd.compressedSize then
      { fd with flags := fd.flags ||| fileSplit }
    else if index > 0 ∧ index = volumeHeader.firstFileIndex ∧
        volumeHeader.firstFileSizeCompressed.toUInt64 ≠ fd.compressedSize then
      { fd with flags := fd.flags ||| fileSplit }
    else fd
  else fd

/-- Where a volume has a portion of a file, and its two sizes. -/
structure Portion where
  dataOffset : UInt64
  volumeBytesLeftExpanded : UInt64
  volumeBytesLeftCompressed : UInt64
deriving Repr, DecidableEq

/-- The portion that the volume header records for a split file, with the low words of its fields
only; the descriptor tells where a whole file is. -/
def selectPortion (index : UInt32) (volumeHeader : VolumeHeader) (fd : FileDescriptor) :
    Option Portion :=
  if fd.Has fileSplit then
    if index = volumeHeader.lastFileIndex ∧ volumeHeader.lastFileOffset ≠ 0x7FFFFFFF then
      some
        { dataOffset := volumeHeader.lastFileOffset.toUInt64
          volumeBytesLeftExpanded := volumeHeader.lastFileSizeExpanded.toUInt64
          volumeBytesLeftCompressed := volumeHeader.lastFileSizeCompressed.toUInt64 }
    else if index = volumeHeader.firstFileIndex then
      some
        { dataOffset := volumeHeader.firstFileOffset.toUInt64
          volumeBytesLeftExpanded := volumeHeader.firstFileSizeExpanded.toUInt64
          volumeBytesLeftCompressed := volumeHeader.firstFileSizeCompressed.toUInt64 }
    else none
  else
    some
      { dataOffset := fd.dataOffset
        volumeBytesLeftExpanded := fd.expandedSize
        volumeBytesLeftCompressed := fd.compressedSize }

/-- The size that counts for a file: the compressed or the expanded one.  The reader's counter has
32 bits. -/
def Portion.volumeBytesLeft (portion : Portion) (fd : FileDescriptor) : UInt32 :=
  if fd.Has fileCompressed then portion.volumeBytesLeftCompressed.toUInt32
  else portion.volumeBytesLeftExpanded.toUInt32

/-- `unshield_reader_open_volume`.  A split file that the volume header does not mention opens
successfully, but neither the counter nor `reader->volume` moves. -/
def readerOpenVolume (volume : Int) : Proc (Session σ H) Unit := do
  fcloseVolume env
  fopenVolume env volume
  let tmp ← freadVolume env commonHeaderSize
  let _ ← Proc.ofExit (readCommonHeader tmp)
  Proc.modify fun s => { s with reader.volumeHeader := {} }
  let block ← freadVolume env (volumeHeaderSize header)
  let volumeHeader ← Proc.access (readVolumeHeader header block)
  Proc.modify fun s =>
    { s with
      reader.volumeHeader := volumeHeader
      fileDescriptor := markSplit header s.reader.index volumeHeader s.fileDescriptor }
  let portion ← Proc.gets fun s => selectPortion s.reader.index volumeHeader s.fileDescriptor
  match portion with
  | none => pure ()
  | some portion => do
      Proc.modify fun s =>
        { s with reader.volumeBytesLeft := portion.volumeBytesLeft s.fileDescriptor }
      fseekVolume env portion.dataOffset.toInt64.toInt
      Proc.modify fun s => { s with reader.volume := volume }

/-! ### Reading -/

/-- `ror8(b ^ 0xd5, 2) - seed % 0x47` -/
def deobfuscateByte (seed : UInt32) (byte : UInt8) : UInt8 :=
  let x := byte ^^^ 0xd5
  (x >>> 2 ||| x <<< 6) - (seed % 0x47).toUInt8

/-- `unshield_deobfuscate`, with the seed it leaves behind. -/
def deobfuscate : Bytes → UInt32 → Bytes × UInt32
  | [], seed => ([], seed)
  | byte :: rest, seed =>
      let (rest, final) := deobfuscate rest (seed + 1)
      (deobfuscateByte seed byte :: rest, final)

/-- The `unshield_fread` of `unshield_reader_read`.  If it comes short, a message names the file and the
position. -/
def freadPortion (bytesToRead : Nat) : Proc (Session σ H) Bytes :=
  Proc.onFailure (freadVolume env bytesToRead) do
    reportFileName env header
    ftellVolume env
    Proc.fail

/-- One turn of the loop of `unshield_reader_read`: read as much as possible from this volume, and
open the next one if that was not enough.  A trace message tells the position before every read.  The
loop variables are `bytes_left` and what the buffer holds before `p`. -/
def readerReadTurn : Nat × Bytes → Proc (Session σ H) (Proc.Turn (Nat × Bytes) Bytes)
  | (bytesLeft, buffer) => do
      let volumeBytesLeft ← Proc.gets fun s => s.reader.volumeBytesLeft
      let bytesToRead := min bytesLeft volumeBytesLeft.toNat
      ftellVolume env
      Proc.require (bytesToRead ≠ 0)
      let data ← freadPortion env header bytesToRead
      Proc.modify fun s =>
        { s with reader.volumeBytesLeft := s.reader.volumeBytesLeft - UInt32.ofNat bytesToRead }
      if bytesLeft - bytesToRead = 0 then
        pure (.done (buffer ++ data))
      else do
        let volume ← Proc.gets fun s => s.reader.volume
        readerOpenVolume env header (volume + 1)
        pure (.again (bytesLeft - bytesToRead, buffer ++ data))

/-- `unshield_reader_deobfuscate` -/
def readerDeobfuscate (buffer : Bytes) : Proc (Session σ H) Bytes := fun s =>
  let (clear, seed) := deobfuscate buffer s.reader.obfuscationOffset
  (.ret clear, { s with reader.obfuscationOffset := seed })

/-- `unshield_reader_read` into a buffer of `size` bytes.  Every turn reads at least one of them. -/
def readerRead (size : Nat) : Proc (Session σ H) Bytes := do
  let buffer ← Proc.iterate (readerReadTurn env header) (size + 1) (size, [])
  let fd ← Proc.gets fun s => s.fileDescriptor
  if fd.Has fileObfuscated then readerDeobfuscate buffer else pure buffer

/-- `unshield_reader_read` for a caller whose message about a failure names the file. -/
def readOrReport (size : Nat) : Proc (Session σ H) Bytes :=
  Proc.onFailure (readerRead env header size) (failWithFileName env header)

/-! ### Creating a reader -/

/-- One turn of the loop of `unshield_reader_create`.  Cabinets up to major version 5 do not say in
which volume a file starts. -/
def readerCreateTurn (index : Int) : Unit → Proc (Session σ H) (Proc.Turn Unit Unit) := fun _ => do
  let fd ← Proc.gets fun s => s.fileDescriptor
  readerOpenVolume env header fd.volume.toNat
  let volumeHeader ← Proc.gets fun s => s.reader.volumeHeader
  if header.majorVersion ≤ 5 ∧ volumeHeader.lastFileIndex.toInt32.toInt < index then do
    Proc.modify fun s =>
      { s with fileDescriptor := { s.fileDescriptor with volume := s.fileDescriptor.volume + 1 } }
    pure (.again ())
  else
    pure (.done ())

/-- `FREE(reader)`: the reader is gone, but a file it had open stays open. -/
def freeReader (s : Session σ H) : Session σ H := { s with reader := { index := s.reader.index } }

/-- `unshield_reader_create` -/
def readerCreate (fuel : Nat) (index : Int) : Proc (Session σ H) Unit := fun s =>
  match Proc.iterate (readerCreateTurn env header index) fuel ()
      { s with reader := { index := UInt32.ofInt index } } with
  | (.fail, s) => (.fail, freeReader s)
  | result => result

end Unshield
