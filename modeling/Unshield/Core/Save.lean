/-
Module: Unshield.Core.Save
Purpose: Saving a file: the chunk loops of the new and the old format, the raw copy, the checks around
  them and the recursion through links.
Trusted boundary: human-reviewed model of unshield_file_save, unshield_file_save_raw and
  unshield_file_save_old in lib/file.c
Main exports: saveTurn, saveRawTurn, saveOldTurn, saveThroughLinks, fileSave, fileSaveRaw, fileSaveOld
-/
import Unshield.Core.Library

namespace Unshield

open Procedure

variable {σ H : Type} (env : Environment σ H) (archive : Archive)

/-! ### The output file -/

/-- `output = unshield_fopen(unshield, filename, "wb")`, unless there is no filename. -/
def fopenOutput : Option Bytes → Proc (Session σ H) Unit
  | none => pure ()
  | some path => fun s =>
      let opened := env.callbacks.fopen path .writeBinary s.io
      let s := { s with output := opened.1, io := opened.2 }
      if opened.1.isSome then (.ret (), s) else (.fail, s)

/-- `unshield_fwrite(..., output)`, if there is an output; fails unless everything was written. -/
def fwriteOutput (data : Bytes) : Proc (Session σ H) Unit := fun s =>
  match s.output with
  | none => (.ret (), s)
  | some file =>
      let written := env.callbacks.fwrite file data s.io
      let s := { s with output := some written.2.1, io := written.2.2 }
      if written.1 = data.length then (.ret (), s) else (.fail, s)

/-- `bytes_left` at the start: 32 bits of the size that counts. -/
def startBytesLeft (fd : FileDescriptor) : UInt32 :=
  if fd.Has fileCompressed then fd.compressedSize.toUInt32 else fd.expandedSize.toUInt32

/-! ### The new format -/

/-- The local variables of `unshield_file_save` that its loop changes. -/
structure SaveVars (md5 : Md5) where
  bytesLeft : UInt32
  totalWritten : UInt64
  context : md5.Context
  outputBuffer : Block

/-- The read and decompression of one chunk: the new `bytes_left`, the output buffer and
`bytes_to_write`. -/
def saveChunk (bytesLeft : UInt32) (outputBuffer : Block) :
    Proc (Session σ H) (UInt32 × Block × Nat) := do
  let lengthBytes ← readOrReport env archive.header 2
  let bytesToRead ← Proc.access (readUint16 lengthBytes 0)
  Proc.require (bytesToRead ≠ 0)
  let chunk ← readOrReport env archive.header bytesToRead.toNat
  -- a null byte makes inflate happy
  let result ← Proc.ofExit (uncompress env.zlib bufferSize (chunk ++ [0]))
  let outputBuffer ← Proc.access (outputBuffer.store 0 result.output)
  Proc.require (result.code = zOk)
  pure (bytesLeft - 2 - bytesToRead.toUInt32, outputBuffer, result.destLen)

/-- The read of one buffer of stored data. -/
def saveStored (bytesLeft : UInt32) (outputBuffer : Block) :
    Proc (Session σ H) (UInt32 × Block × Nat) := do
  let bytesToWrite := min bytesLeft.toNat bufferSize
  let data ← readerRead env archive.header bytesToWrite
  let outputBuffer ← Proc.access (outputBuffer.store 0 data)
  pure (bytesLeft - UInt32.ofNat bytesToWrite, outputBuffer, bytesToWrite)

/-- The first half of a turn: the next bytes of the file, in the output buffer. -/
def saveData (fd : FileDescriptor) (bytesLeft : UInt32) (outputBuffer : Block) :
    Proc (Session σ H) (UInt32 × Block × Nat) :=
  if fd.Has fileCompressed then saveChunk env archive bytesLeft outputBuffer
  else saveStored env archive bytesLeft outputBuffer

/-- One turn of the loop of `unshield_file_save`. -/
def saveTurn (vars : SaveVars env.md5) :
    Proc (Session σ H) (Proc.Turn (SaveVars env.md5) (SaveVars env.md5)) :=
  if vars.bytesLeft = 0 then
    pure (.done vars)
  else do
    let fd ← Proc.gets fun s => s.fileDescriptor
    let (bytesLeft, outputBuffer, bytesToWrite) ←
      saveData env archive fd vars.bytesLeft vars.outputBuffer
    let data ← Proc.access (outputBuffer.load 0 bytesToWrite)
    fwriteOutput env data
    pure (.again
      { bytesLeft
        totalWritten := vars.totalWritten + UInt64.ofNat bytesToWrite
        context := env.md5.update vars.context data
        outputBuffer })

/-- The variables in front of the loop. -/
def saveStart (fd : FileDescriptor) : SaveVars env.md5 :=
  { bytesLeft := startBytesLeft fd
    totalWritten := 0
    context := env.md5.init
    outputBuffer := { size := bufferSize, byte := env.garbage } }

/-- `unshield_file_save` of a file that is not a link. -/
def saveNew (filename : Option Bytes) (fuel : Nat) (index : Int) : Proc (Session σ H) Unit := do
  readerCreate env archive.header fuel index
  let size ← fsizeVolume env
  let fd ← Proc.gets fun s => s.fileDescriptor
  -- otherwise the file is not inside the cabinet
  Proc.require (size ≠ fd.dataOffset.toInt64.toInt)
  fopenOutput env filename
  let vars ← Proc.iterate (saveTurn env archive) fuel (saveStart env fd)
  let fd ← Proc.gets fun s => s.fileDescriptor
  Proc.require (fd.expandedSize = vars.totalWritten)
  if archive.header.majorVersion ≥ 6 then
    Proc.onFailure (Proc.require (env.md5.final vars.context = fd.md5))
      (failWithFileName env archive.header)
  else
    pure ()

/-! ### Raw data -/

/-- One turn of the loop of `unshield_file_save_raw`; the loop variable is `bytes_left`. -/
def saveRawTurn (bytesLeft : UInt32) : Proc (Session σ H) (Proc.Turn UInt32 Unit) :=
  if bytesLeft = 0 then
    pure (.done ())
  else do
    let bytesToWrite := min bytesLeft.toNat bufferSize
    let data ← readerRead env archive.header bytesToWrite
    fwriteOutput env data
    pure (.again (bytesLeft - UInt32.ofNat bytesToWrite))

/-- `unshield_file_save_raw` of a file that is not a link. -/
def saveRaw (filename : Option Bytes) (fuel : Nat) (index : Int) : Proc (Session σ H) Unit := do
  readerCreate env archive.header fuel index
  let size ← fsizeVolume env
  let fd ← Proc.gets fun s => s.fileDescriptor
  Proc.require (size ≠ fd.dataOffset.toInt64.toInt)
  fopenOutput env filename
  Proc.iterate (saveRawTurn env archive) fuel (startBytesLeft fd)

/-! ### The old format -/

/-- The local variables of `unshield_file_save_old` that its loops change. -/
structure SaveOldVars where
  bytesLeft : UInt32
  totalWritten : UInt64
  inputBuffer : Block

/-- The variables of the chunk loop: `chunk_buffer` as an offset into the input buffer, and
`input_size`. -/
structure ChunkVars extends SaveOldVars where
  chunkBuffer : Nat
  inputSize : UInt64

/-- One turn of the chunk loop. -/
def chunkTurn (fuel : Nat) (vars : ChunkVars) :
    Proc (Session σ H) (Proc.Turn ChunkVars SaveOldVars) :=
  if vars.inputSize = 0 ∨ vars.bytesLeft = 0 then
    pure (.done vars.toSaveOldVars)
  else do
    match ← Proc.ofExit (chunkSize vars.inputBuffer vars.chunkBuffer vars.inputSize.toNat) with
    | none => failWithFileName env archive.header
    | some chunkSize => do
        -- a null byte makes inflate happy
        let inputBuffer ← Proc.access
          (vars.inputBuffer.store (vars.chunkBuffer + chunkSize) [0])
        let source ← Proc.access (inputBuffer.load vars.chunkBuffer chunkSize)
        let result ← Proc.ofExit (uncompressOld env.zlib fuel bufferSize source)
        Proc.require (result.code = zOk)
        fwriteOutput env result.output
        pure (.again
          { chunkBuffer := vars.chunkBuffer + chunkSize + endOfChunk.length
            inputSize := vars.inputSize - UInt64.ofNat chunkSize - UInt64.ofNat endOfChunk.length
            bytesLeft := vars.bytesLeft - UInt32.ofNat result.destLen
            totalWritten := vars.totalWritten + UInt64.ofNat result.destLen
            inputBuffer })

/-- The doubling of `input_buffer_size` until it is no longer less than `inputSize`. -/
def growBuffer (inputSize : Nat) : Nat → Nat → Nat
  | 0, inputBufferSize => inputBufferSize
  | fuel + 1, inputBufferSize =>
      if inputSize > inputBufferSize then growBuffer inputSize fuel (2 * inputBufferSize)
      else inputBufferSize

/-- All that is left of this volume is read and cut into chunks. -/
def saveOldCompressed (fuel : Nat) (vars : SaveOldVars) : Proc (Session σ H) SaveOldVars := do
  let volumeBytesLeft ← Proc.gets fun s => s.reader.volumeBytesLeft
  let inputSize := volumeBytesLeft.toNat
  let inputBuffer := vars.inputBuffer.resize (growBuffer inputSize inputSize vars.inputBuffer.size)
  let data ← readOrReport env archive.header inputSize
  let inputBuffer ← Proc.access (inputBuffer.store 0 data)
  Proc.iterate (chunkTurn env archive fuel) fuel
    { vars with inputBuffer, chunkBuffer := 0, inputSize := volumeBytesLeft.toUInt64 }

/-- One buffer of stored data. -/
def saveOldStored (vars : SaveOldVars) : Proc (Session σ H) SaveOldVars := do
  let bytesToWrite := min vars.bytesLeft.toNat bufferSize
  let data ← readerRead env archive.header bytesToWrite
  fwriteOutput env data
  pure
    { vars with
      bytesLeft := vars.bytesLeft - UInt32.ofNat bytesToWrite
      totalWritten := vars.totalWritten + UInt64.ofNat bytesToWrite }

def saveOldData (fd : FileDescriptor) (fuel : Nat) (vars : SaveOldVars) :
    Proc (Session σ H) SaveOldVars :=
  if fd.Has fileCompressed then saveOldCompressed env archive fuel vars
  else saveOldStored env archive vars

/-- `reader->volume_bytes_left == 0 && !unshield_reader_open_volume(reader, reader->volume + 1)` -/
def openExhausted : Proc (Session σ H) Unit := do
  let volumeBytesLeft ← Proc.gets fun s => s.reader.volumeBytesLeft
  if volumeBytesLeft = 0 then do
    let volume ← Proc.gets fun s => s.reader.volume
    readerOpenVolume env archive.header (volume + 1)
  else
    pure ()

/-- One turn of the outer loop of `unshield_file_save_old`. -/
def saveOldTurn (fuel : Nat) (vars : SaveOldVars) :
    Proc (Session σ H) (Proc.Turn SaveOldVars SaveOldVars) :=
  if vars.bytesLeft = 0 then
    pure (.done vars)
  else do
    openExhausted env archive
    let fd ← Proc.gets fun s => s.fileDescriptor
    let vars ← saveOldData env archive fd fuel vars
    pure (.again vars)

/-- The reader of `unshield_file_save_old`: a file that is not inside the cabinet is looked for
beside it. -/
def createOldReader (fuel : Nat) (index : Int) : Proc (Session σ H) Unit := do
  readerCreate env archive.header fuel index
  let size ← fsizeVolume env
  let fd ← Proc.gets fun s => s.fileDescriptor
  if size = fd.dataOffset.toInt64.toInt then do
    fcloseVolume env
    readerCreateExternal env archive fuel index
  else
    pure ()

/-- The variables in front of the outer loop. -/
def saveOldStart (fd : FileDescriptor) : SaveOldVars :=
  { bytesLeft := fd.expandedSize.toUInt32
    totalWritten := 0
    inputBuffer := { size := bufferSize, byte := env.garbage } }

/-- `unshield_file_save_old` of a file that is not a link. -/
def saveOld (filename : Option Bytes) (fuel : Nat) (index : Int) : Proc (Session σ H) Unit := do
  createOldReader env archive fuel index
  fopenOutput env filename
  let fd ← Proc.gets fun s => s.fileDescriptor
  let vars ← Proc.iterate (saveOldTurn env archive fuel) fuel (saveOldStart env fd)
  let fd ← Proc.gets fun s => s.fileDescriptor
  Proc.require (fd.expandedSize = vars.totalWritten)

/-! ### The calls -/

/-- `unshield_reader_destroy(reader); FCLOSE(unshield, output);` -/
def closeSession (s : Session σ H) : Session σ H :=
  let io :=
    match s.reader.volumeFile with
    | some file => env.callbacks.fclose file s.io
    | none => s.io
  let io :=
    match s.output with
    | some file => env.callbacks.fclose file io
    | none => io
  { s with reader := { index := s.reader.index }, output := none, io := io }

/-- A call on one descriptor: all exits but a crash go through the clean-up, and the descriptor in the
cache is the one the session has changed. -/
def runSession (index : Nat) (fd : FileDescriptor) (body : Proc (Session σ H) Unit) :
    Proc (Library σ) Unit := fun library =>
  let finish (s : Session σ H) : Library σ :=
    { fileDescriptors := Function.update library.fileDescriptors index (some s.fileDescriptor)
      io := s.io }
  match body { reader := { index := 0 }, fileDescriptor := fd, io := library.io } with
  | (.ret (), s) => (.ret (), finish (closeSession env s))
  | (.fail, s) => (.fail, finish (closeSession env s))
  | (exit, s) => (exit, finish s)

/-- What the three save functions share: invalid files fail, and a link is followed to the file it
points to. -/
def saveThroughLinks (save : Nat → Int → Proc (Session σ H) Unit) :
    Nat → Int → Proc (Library σ) Unit
  | 0, _ => Proc.timeout
  | fuel + 1, index => do
      let fd ← getFileDescriptor archive.header index
      Proc.require (¬ (fd.Has fileInvalid ∨ fd.dataOffset = 0))
      if fd.linkFlags &&& linkPrev ≠ 0 then
        saveThroughLinks save fuel fd.linkPrevious.toInt32.toInt
      else
        runSession env index.toNat fd (save fuel index)

/-- `unshield_file_save` -/
def fileSave (fuel : Nat) (index : Int) (filename : Option Bytes) : Proc (Library σ) Unit :=
  saveThroughLinks env archive (saveNew env archive filename) fuel index

/-- `unshield_file_save_raw` -/
def fileSaveRaw (fuel : Nat) (index : Int) (filename : Option Bytes) : Proc (Library σ) Unit :=
  saveThroughLinks env archive (saveRaw env archive filename) fuel index

/-- `unshield_file_save_old` -/
def fileSaveOld (fuel : Nat) (index : Int) (filename : Option Bytes) : Proc (Library σ) Unit :=
  saveThroughLinks env archive (saveOld env archive filename) fuel index

end Unshield
