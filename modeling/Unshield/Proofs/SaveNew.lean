/-
Module: Unshield.Proofs.SaveNew
Purpose: Saving a file of the new format whose stored bytes are framed chunks.
Trusted boundary: none
Main exports: frames, saveLoop_frames, fileSave_frames
-/
import Unshield.Proofs.UncompressSteps
import Unshield.Proofs.VolumeFormat

namespace Unshield

open Procedure

/-! ### Framed chunks -/

/-- A number below 65536 as two bytes, the low one first. -/
def littleEndian16 (n : Nat) : Bytes := [UInt8.ofNat (n % 256), UInt8.ofNat (n / 256)]

/-- A chunk behind its length. -/
def frame (chunk : Bytes) : Bytes := littleEndian16 chunk.length ++ chunk

def frames (chunks : List Bytes) : Bytes := (chunks.map frame).flatten

theorem frames_cons (chunk : Bytes) (chunks : List Bytes) :
    frames (chunk :: chunks) = littleEndian16 chunk.length ++ (chunk ++ frames chunks) := by
  rw [frames, List.map_cons, List.flatten_cons, frame, List.append_assoc]
  rfl

theorem readUint16_littleEndian16 {n : Nat} (lt : n < 65536) :
    readUint16 (littleEndian16 n) 0 = some (UInt16.ofNat n) := by
  have value := Bits.uint16_or_shiftLeft_byte (UInt8.ofNat (n % 256)) (UInt8.ofNat (n / 256))
  rw [UInt8.toNat_ofNat_of_lt' (Nat.mod_lt _ (by decide)),
    UInt8.toNat_ofNat_of_lt' (show n / 256 < UInt8.size by
      rw [Nat.div_lt_iff_lt_mul (by decide)]; exact lt), Nat.mod_add_div] at value
  show some _ = some _
  rw [Option.some.injEq, ← UInt16.toNat_inj, value, UInt16.toNat_ofNat_of_lt' lt]

/-- The length word of a chunk is not zero. -/
theorem lengthWord {n : Nat} (pos : 0 < n) (lt : n < 65536) :
    (UInt16.ofNat n).toNat = n ∧ UInt16.ofNat n ≠ 0 := by
  have word : (UInt16.ofNat n).toNat = n := UInt16.toNat_ofNat_of_lt' lt
  refine ⟨word, fun zero => ?_⟩
  rw [zero] at word
  exact absurd word.symm (Nat.pos_iff_ne_zero.1 pos)

/-! ### One chunk -/

section

variable (libraries : Libraries) {archive : Archive}

/-- The sizes of the two reads that a chunk takes. -/
def frameSizes (chunks : List Bytes) : List Nat := chunks.flatMap fun chunk => [2, chunk.length]

theorem sum_frameSizes (chunks : List Bytes) : (frameSizes chunks).sum = (frames chunks).length := by
  induction chunks with
  | nil => rfl
  | cons chunk chunks ih =>
      rw [frames_cons, List.length_append, List.length_append, ← ih]
      rfl

theorem pos_of_frameSizes {chunks : List Bytes} (sizes : ∀ chunk ∈ chunks, 1 ≤ chunk.length) :
    ∀ size ∈ frameSizes chunks, 0 < size := by
  intro size member
  obtain ⟨chunk, chunkMember, which⟩ := List.mem_flatMap.1 member
  rcases List.mem_cons.1 which with rfl | only
  · exact Nat.two_pos
  · rw [List.mem_singleton.1 only]
    exact sizes chunk chunkMember

theorem frameSizes_cons (chunk : Bytes) (chunks : List Bytes) :
    frameSizes (chunk :: chunks) = 2 :: chunk.length :: frameSizes chunks := rfl

/-- The two reads of a chunk and its decompression. -/
theorem saveChunk_run {s : DiskSession} {current chunk output later : Bytes} {rest : List Bytes}
    {lengthBytes middle data left : Bytes} {between after : List Bytes} {buffer : Block}
    (bytesLeft : UInt32)
    (delivers : Delivers archive.header s current rest
      (littleEndian16 chunk.length ++ (chunk ++ later)))
    (lengthRead : SegmentedStream.read 2 current rest = some (lengthBytes, middle, between))
    (chunkRead : SegmentedStream.read chunk.length middle between = some (data, left, after))
    (small : chunk.length < 65536) (inflates : Inflates libraries.zlib chunk output)
    (size : buffer.size = bufferSize) :
    ∃ t buffer', saveChunk libraries.onDisk archive bytesLeft buffer s =
        (.ret (bytesLeft - 2 - (UInt16.ofNat chunk.length).toUInt32, buffer', output.length), t) ∧
      buffer'.Holds 0 output ∧ buffer'.size = bufferSize ∧
      Delivers archive.header t left after later ∧ SameFile s t ∧
      (rest = [] → after = [] ∧ MovedBy (2 + chunk.length) s t) := by
  obtain ⟨t, lengthRun, delivers', same⟩ := readerRead_delivers libraries delivers lengthRead
  have two : (littleEndian16 chunk.length).length = 2 := rfl
  rw [List.take_left' two] at lengthRun
  rw [List.drop_left' two] at delivers'
  obtain ⟨u, chunkRun, delivers'', same'⟩ := readerRead_delivers libraries delivers' chunkRead
  rw [List.take_left' rfl] at chunkRun
  rw [List.drop_left' rfl] at delivers''
  obtain ⟨word, nonzero⟩ := lengthWord (SegmentedStream.pos_of_read chunkRead).1 small
  have fits : 0 + output.length ≤ buffer.size := by
    rw [size, Nat.zero_add]
    exact inflates.output_le
  obtain ⟨buffer', stored⟩ := buffer.store_isSome fits
  refine ⟨u, buffer', ?_, Block.holds_store stored, (Block.size_of_store stored).trans size,
    delivers'', same.trans same', ?_⟩
  · rw [saveChunk, Proc.bind_of_ret (readOrReport_eq_ret_iff.2 lengthRun), readUint16_littleEndian16 small,
      Proc.access_some_bind_run, Proc.bind_of_ret (Proc.require_run_of nonzero _), word,
      Proc.bind_of_ret (readOrReport_eq_ret_iff.2 chunkRun)]
    rw [Inflates] at inflates
    simp only [inflates,
      Proc.ofExit_ret_bind_run, stored, Proc.access_some_bind_run]
    rw [Proc.bind_of_ret (Proc.require_run_of rfl _)]
    rfl
  · intro one_volume
    subst one_volume
    have none_between := SegmentedStream.after_eq_nil lengthRead
    subst none_between
    exact ⟨SegmentedStream.after_eq_nil chunkRead,
      (readerRead_movedBy libraries delivers lengthRead lengthRun).trans
        (readerRead_movedBy libraries delivers' chunkRead chunkRun)⟩

/-! ### One turn -/

/-- What the loop has done so far: `written` is in the output file, counted and digested. -/
structure Progress (s : DiskSession) (vars : SaveVars libraries.md5) (path written : Bytes) :
    Prop where
  writing : Writing s path written
  total : vars.totalWritten = UInt64.ofNat written.length
  context : vars.context = libraries.md5.update libraries.md5.init written

/-- A turn writes what its first half has decoded. -/
theorem saveTurn_run {s t : DiskSession} {vars : SaveVars libraries.md5} {path written output : Bytes}
    {bytesLeft : UInt32} {buffer : Block} (progress : Progress libraries s vars path written)
    (unfinished : vars.bytesLeft ≠ 0)
    (decoded : saveData libraries.onDisk archive s.fileDescriptor vars.bytesLeft vars.outputBuffer s =
      (.ret (bytesLeft, buffer, output.length), t))
    (holds : buffer.Holds 0 output) (same : SameAround s t)
    (room : output.length ≤ s.io.store.room) :
    ∃ u vars', saveTurn libraries.onDisk archive vars s = (.ret (.again vars'), u) ∧
      Progress libraries u vars' path (written ++ output) ∧ vars'.bytesLeft = bytesLeft ∧
      vars'.outputBuffer = buffer ∧ SameInput t u ∧
      u.io.store.room = s.io.store.room - output.length := by
  have writing : Writing t path written := progress.writing.of_sameAround same
  rw [← same.store] at room
  obtain ⟨u, wrote, writing', input, left⟩ := fwriteOutput_run libraries writing room
  refine ⟨u, { bytesLeft
               totalWritten := vars.totalWritten + UInt64.ofNat output.length
               context := libraries.md5.update vars.context output
               outputBuffer := buffer }, ?_, ⟨writing', ?_, ?_⟩, rfl, rfl, input, ?_⟩
  · rw [saveTurn, if_neg unfinished, Proc.gets_bind_run, Proc.bind_of_ret decoded]
    simp only [Block.load_of_holds holds, Proc.access_some_bind_run]
    rw [Proc.bind_of_ret wrote]
    rfl
  · rw [progress.total, List.length_append, UInt64.ofNat_add]
  · rw [progress.context, libraries.md5.update_append]
  · rw [left, same.store]

theorem saveTurn_done {s : DiskSession} {vars : SaveVars libraries.md5}
    (finished : vars.bytesLeft = 0) :
    saveTurn libraries.onDisk archive vars s = (.ret (.done vars), s) := by
  rw [saveTurn, if_pos finished]
  rfl

/-! ### The loop over framed chunks -/

/-- The stored bytes that the loop has in front of it, with as many bytes left. -/
structure SavingFrames (header : Header) (s : DiskSession) (vars : SaveVars libraries.md5)
    (current : Bytes) (rest : List Bytes) (chunks : List Bytes) (path written : Bytes) :
    Prop extends Progress libraries s vars path written where
  delivers : Delivers header s current rest (frames chunks)
  compressed : s.fileDescriptor.Has fileCompressed
  bytesLeft : vars.bytesLeft.toNat = (frames chunks).length
  buffer : vars.outputBuffer.size = bufferSize

/-- What all outputs together need is enough for the first and for the others. -/
theorem bytesLeft_frame {bytesLeft : UInt32} {chunk : Bytes} {chunks : List Bytes}
    (h : bytesLeft.toNat = (frames (chunk :: chunks)).length) (small : chunk.length < 65536) :
    (bytesLeft - 2 - (UInt16.ofNat chunk.length).toUInt32).toNat = (frames chunks).length := by
  have word : (UInt16.ofNat chunk.length).toUInt32.toNat = chunk.length := by
    rw [UInt16.toNat_toUInt32, UInt16.toNat_ofNat_of_lt' small]
  have total : bytesLeft.toNat = 2 + (chunk.length + (frames chunks).length) := by
    rw [h, frames_cons, List.length_append, List.length_append]
    rfl
  have two : (2 : UInt32).toNat = 2 := rfl
  rw [Bits.uint32_sub_sub (by rw [two, word, total]; omega), two, word, total]
  omega

/-- One chunk. -/
theorem SavingFrames.step {s : DiskSession} {vars : SaveVars libraries.md5} {current : Bytes}
    {rest : List Bytes} {chunk output path written : Bytes} {chunks : List Bytes}
    {lengthBytes middle data left : Bytes} {between after : List Bytes}
    (saving : SavingFrames libraries archive.header s vars current rest (chunk :: chunks) path written)
    (lengthRead : SegmentedStream.read 2 current rest = some (lengthBytes, middle, between))
    (chunkRead : SegmentedStream.read chunk.length middle between = some (data, left, after))
    (small : chunk.length < 65536) (inflates : Inflates libraries.zlib chunk output)
    (room : output.length ≤ s.io.store.room) :
    ∃ t vars', saveTurn libraries.onDisk archive vars s = (.ret (.again vars'), t) ∧
      SavingFrames libraries archive.header t vars' left after chunks path (written ++ output) ∧
      t.fileDescriptor = s.fileDescriptor ∧ t.io.store.room = s.io.store.room - output.length ∧
      (rest = [] → after = [] ∧ MovedBy (2 + chunk.length) s t) := by
  have delivers := saving.delivers
  rw [frames_cons] at delivers
  obtain ⟨t, buffer, decoded, holds, size, delivers', same, moved⟩ := saveChunk_run libraries
    vars.bytesLeft delivers lengthRead chunkRead small inflates saving.buffer
  have unfinished : vars.bytesLeft ≠ 0 := by
    intro zero
    have bytesLeft := saving.bytesLeft
    rw [zero, frames_cons, List.length_append] at bytesLeft
    exact absurd bytesLeft (by show ¬ 0 = 2 + _; omega)
  have chunked : saveData libraries.onDisk archive s.fileDescriptor vars.bytesLeft
      vars.outputBuffer = saveChunk libraries.onDisk archive vars.bytesLeft vars.outputBuffer :=
    if_pos saving.compressed
  rw [← chunked] at decoded
  obtain ⟨u, vars', run, progress, bytesLeft, outputBuffer, input, left⟩ := saveTurn_run libraries
    saving.toProgress unfinished decoded holds same.toSameAround room
  have descriptor : u.fileDescriptor = s.fileDescriptor :=
    input.fileDescriptor.trans same.fileDescriptor
  refine ⟨u, vars', run, ⟨progress, delivers'.of_sameInput input, ?_, ?_, ?_⟩, descriptor, left, ?_⟩
  · rw [descriptor]
    exact saving.compressed
  · rw [bytesLeft]
    exact bytesLeft_frame saving.bytesLeft small
  · rw [outputBuffer]
    exact size
  · intro one_volume
    obtain ⟨still_one, file, volume, closed⟩ := moved one_volume
    refine ⟨still_one, ?_, ?_, input.closed.trans closed⟩
    · rw [input.reader]
      exact file
    · rw [input.reader]
      exact volume

/-- All chunks, if no read starts where a segment is used up. -/
theorem saveLoop_frames {chunks outputs : List Bytes}
    (inflates : List.Forall₂ (Inflates libraries.zlib) chunks outputs)
    (small : ∀ chunk ∈ chunks, chunk.length < 65536) :
    ∀ {s : DiskSession} {vars : SaveVars libraries.md5} {current : Bytes} {rest : List Bytes}
      {path written data left : Bytes} {after : List Bytes},
      SavingFrames libraries archive.header s vars current rest chunks path written →
      SegmentedStream.readMany (frameSizes chunks) current rest = some (data, left, after) →
      outputs.flatten.length ≤ s.io.store.room → ∀ fuel > chunks.length,
      ∃ t vars', Proc.iterate (saveTurn libraries.onDisk archive) fuel vars s = (.ret vars', t) ∧
        Progress libraries t vars' path (written ++ outputs.flatten) ∧
        t.fileDescriptor = s.fileDescriptor ∧
        (rest = [] → MovedBy (frames chunks).length s t) := by
  induction inflates with
  | nil =>
      intro s vars current rest path written data left after saving _ _ fuel enough
      obtain ⟨fuel, rfl⟩ := Nat.exists_eq_add_of_lt enough
      have finished : vars.bytesLeft = 0 := UInt32.toNat_inj.1 saving.bytesLeft
      refine ⟨s, vars, Proc.iterate_succ_of_done (saveTurn_done libraries finished), ?_, rfl, ?_⟩
      · rw [List.flatten_nil, List.append_nil]
        exact saving.toProgress
      · exact fun _ => .refl s
  | cons first others ih =>
      rename_i chunk output chunks outputs
      intro s vars current rest path written data left after saving reads room fuel enough
      obtain ⟨fuel, rfl⟩ := Nat.exists_eq_add_of_lt enough
      rw [frameSizes_cons] at reads
      obtain ⟨lengthBytes, middle, between, _, lengthRead, _, reads⟩ :=
        SegmentedStream.readMany_cons reads
      obtain ⟨chunkBytes, left', after', _, chunkRead, _, reads⟩ :=
        SegmentedStream.readMany_cons reads
      rw [List.flatten_cons, List.length_append] at room
      obtain ⟨t, vars', turn, saving', descriptor, room', moved⟩ := saving.step libraries lengthRead
        chunkRead (small chunk List.mem_cons_self) first (by omega)
      obtain ⟨u, vars'', run, progress, descriptor', moved'⟩ := ih
        (fun chunk member => small chunk (List.mem_cons_of_mem _ member)) saving' reads
        (by rw [room']; omega) (chunks.length + 1 + fuel) (by omega)
      refine ⟨u, vars'', ?_, ?_, descriptor'.trans descriptor, ?_⟩
      · rw [List.length_cons, Proc.iterate_succ_of_again turn]
        exact run
      · rw [List.flatten_cons, ← List.append_assoc]
        exact progress
      · intro one_volume
        obtain ⟨still_one, firstMoved⟩ := moved one_volume
        have both := firstMoved.trans (moved' still_one)
        rw [frames_cons, List.length_append, List.length_append, ← Nat.add_assoc]
        exact both

/-! ### The whole call -/

/-- A loop whose output has the right length and digest makes the call succeed. -/
theorem saveNew_of_loop {fuel : Nat} {index : Int} {s₀ s t u : DiskSession} {file : Stream}
    {vars : SaveVars libraries.md5} {path out : Bytes}
    (created : readerCreate libraries.onDisk archive.header fuel index s₀ = (.ret (), s))
    (opened : s.reader.volumeFile = some file)
    (outside : s.fileDescriptor.dataOffset.toNat ≠ file.content.length)
    (output : fopenOutput libraries.onDisk (some path) s = (.ret (), t))
    (loop : Proc.iterate (saveTurn libraries.onDisk archive) fuel
      (saveStart libraries.onDisk s.fileDescriptor) t = (.ret vars, u))
    (progress : Progress libraries u vars path out)
    (expanded : u.fileDescriptor.expandedSize.toNat = out.length)
    (md5 : archive.header.majorVersion ≥ 6 → libraries.md5.digest out = u.fileDescriptor.md5) :
    saveNew libraries.onDisk archive (some path) fuel index s₀ = (.ret (), u) := by
  have total : u.fileDescriptor.expandedSize = vars.totalWritten := by
    rw [progress.total, ← expanded, UInt64.ofNat_toNat]
  rw [saveNew, Proc.bind_of_ret created, Proc.bind_of_ret (fsizeVolume_run libraries opened),
    Proc.gets_bind_run, Proc.bind_of_ret (Proc.require_run_of (inside_of_ne outside) _),
    Proc.bind_of_ret output, Proc.bind_of_ret loop, Proc.gets_bind_run,
    Proc.bind_of_ret (Proc.require_run_of total _)]
  by_cases digested : archive.header.majorVersion ≥ 6
  · rw [if_pos digested]
    refine Proc.onFailure_eq_ret_iff.2 (Or.inl (Proc.require_run_of ?_ _))
    rw [progress.context]
    exact md5 digested
  · rw [if_neg digested]
    rfl

/-- A new-format file whose stored bytes, in one volume, are framed chunks is saved as the
concatenation of the decompressed chunks, and exactly its compressed size is read, if the output file is
not a volume itself but may be written. -/
theorem fileSave_frames (library : Library Disk) (index : Int) (path : Bytes) (fd : FileDescriptor)
    (content stored : Bytes) (chunks outputs : List Bytes)
    (extractable : Extractable archive.header library index fd path outputs.flatten.length)
    (compressed : fd.Has fileCompressed)
    (layout : StoredAt archive.header library.io.store.cabinets index fd content stored)
    (outside : fd.dataOffset.toNat ≠ content.length)
    (framed : clearBytes fd 0 stored = frames chunks)
    (sizes : ∀ chunk ∈ chunks, 1 ≤ chunk.length ∧ chunk.length ≤ 65535)
    (inflates : List.Forall₂ (Inflates libraries.zlib) chunks outputs)
    (expanded : fd.expandedSize.toNat = outputs.flatten.length)
    (md5 : archive.header.majorVersion ≥ 6 → libraries.md5.digest outputs.flatten = fd.md5) :
    ∃ enough, ∀ fuel ≥ enough, ∃ library',
      fileSave libraries.onDisk archive fuel index (some path) library = (.ret (), library') ∧
      library'.io.store.files path = some outputs.flatten ∧
      library'.io.closed = outputStream path outputs.flatten ::
        { content, position := fd.dataOffset.toNat + fd.compressedSize.toNat } ::
        library.io.closed := by
  refine ⟨chunks.length + 2, ?_⟩
  intro fuel enough
  obtain ⟨fuel, rfl⟩ : ∃ more, fuel = more + 1 := ⟨fuel - 1, by omega⟩
  obtain ⟨remembered, io, session⟩ := saveThroughLinks_run libraries
    (saveNew libraries.onDisk archive (some path)) fuel extractable
  have stored_length : stored.length = (frames chunks).length := by
    rw [← framed, length_clearBytes]
  -- the reader and the output file
  rw [← io] at layout
  obtain ⟨s, created, delivers, opened, descriptor, _, readIo, _⟩ :=
    readerCreate_stored libraries layout (show 0 < fuel by omega)
  rw [framed] at delivers
  have writable : s.io.store.writable path = true := by
    rw [readIo, io]
    exact extractable.writable
  have extractable_room : outputs.flatten.length ≤ s.io.store.room := by
    rw [readIo, io]
    exact extractable.room
  obtain ⟨t, output, writing, input, room⟩ := fopenOutput_run libraries writable
  -- the loop
  have saving : SavingFrames libraries archive.header t (saveStart libraries.onDisk s.fileDescriptor)
      stored [] chunks path [] := by
    refine ⟨⟨writing, rfl, (libraries.md5.update_nil _).symm⟩, delivers.of_sameInput input, ?_, ?_, rfl⟩
    · rw [input.fileDescriptor, descriptor]
      exact compressed
    · rw [saveStart, descriptor, ← stored_length]
      exact startBytesLeft_toNat layout.size layout.size_lt
  obtain ⟨data, left, after, reads⟩ := SegmentedStream.exists_readMany_single
    (pos_of_frameSizes fun chunk member => (sizes chunk member).1)
    (show (frameSizes chunks).sum ≤ stored.length by rw [sum_frameSizes, stored_length])
  obtain ⟨u, vars, loop, progress, descriptor', moved⟩ := saveLoop_frames libraries inflates
    (fun chunk member => Nat.lt_succ_of_le (sizes chunk member).2) saving reads
    (extractable_room.trans room) fuel (by omega)
  have final : u.fileDescriptor = fd := descriptor'.trans (input.fileDescriptor.trans descriptor)
  have saved := saveNew_of_loop libraries created opened (by rw [descriptor]; exact outside) output
    loop progress (by rw [final]; exact expanded) (by rw [final]; exact md5)
  -- the way back
  obtain ⟨library', run, closed⟩ := runSession_ret libraries saved
  obtain ⟨file, _, unclosed⟩ := moved rfl
  rw [input.reader, opened] at file
  refine ⟨library', by rw [fileSave, session]; exact run, ?_, ?_⟩
  · rw [closed, closeSession_store]
    exact progress.writing.file
  · have size : fd.compressedSize.toNat = (frames chunks).length := by
      rw [← stored_length, ← layout.size, storedSize, if_pos compressed]
    rw [closed, closeSession_closed libraries file progress.writing.output, unclosed, input.closed,
      readIo, io, size]
    rfl

end

/-! ### Two chunks in one volume -/

def chunkOfA : Bytes := [0x4b, 0x04, 0x00]

def chunkOfB : Bytes := [0x4b, 0x02, 0x00]

def frameDescriptor : FileDescriptor :=
  { flags := fileCompressed, expandedSize := 2, compressedSize := 10, dataOffset := 84,
    md5 := digestOfAB, volume := 1 }

def frameVolume : Bytes := storedVolume (smallHeader 6) (frames [chunkOfA, chunkOfB])

def frameLibrary : Library Disk :=
  libraryWith frameDescriptor (shelfDisk [frameVolume] 2 (by decide) room_two_lt)

theorem fileSave_frames_two_chunks :
    ∃ enough, ∀ fuel ≥ enough, ∃ library',
      fileSave smallLibraries.onDisk (smallArchive 6) fuel 0 (some smallPath) frameLibrary =
        (.ret (), library') ∧
      library'.io.store.files smallPath = some [0x61, 0x62] ∧
      library'.io.closed =
        [outputStream smallPath [0x61, 0x62], { content := frameVolume, position := 94 }] := by
  have extractable : Extractable (smallHeader 6) frameLibrary 0 frameDescriptor smallPath 2 :=
    extractable_libraryWith (by decide) (by decide) (by decide) (by decide) rfl (by decide)
  have layout : StoredAt (smallHeader 6) (shelf [frameVolume]) 0 frameDescriptor frameVolume
      (frames [chunkOfA, chunkOfB]) :=
    storedAt_shelf (by decide) (by decide) rfl rfl rfl (by decide)
  exact fileSave_frames smallLibraries frameLibrary 0 smallPath frameDescriptor frameVolume
    (frames [chunkOfA, chunkOfB]) [chunkOfA, chunkOfB] [[0x61], [0x62]] extractable (by decide) layout
    (by decide) rfl (by decide) (.cons rfl (.cons rfl .nil)) rfl (fun _ => rfl)

end Unshield
