/-
Module: Unshield.Proofs.SplitReads
Purpose: When reading a split file does not depend on where the volumes are cut: the reads of any
  caller, those of the raw copy and those of the new-format save function succeed exactly when none but
  the first of them starts at the end of a segment.
Trusted boundary: none
Main exports: readSequence, blockSizes, HasContent, saveRawLoop_split, saveLoop_split, splitReads_iff
-/
import Unshield.Proofs.SaveNew
import Unshield.Foundation.ReadingLoop

namespace Unshield

open Procedure
open SegmentedStream (readMany Solid AvoidsEnds TurnReads EndsWith)

/-! ### Reads of a caller -/

section

variable {σ H : Type} (env : Environment σ H) (header : Header)

/-- Calls of `unshield_reader_read` with the given sizes, one after the other. -/
def readSequence : List Nat → Proc (Session σ H) (List Bytes)
  | [] => pure []
  | size :: sizes => do
      let buffer ← readerRead env header size
      let buffers ← readSequence sizes
      pure (buffer :: buffers)

/-- A new reader and the calls on it. -/
def readFile (fuel : Nat) (index : Int) (sizes : List Nat) : Proc (Session σ H) (List Bytes) := do
  readerCreate env header fuel index
  readSequence env header sizes

end

section

variable (libraries : Libraries) {archive : Archive} {header : Header}

/-- A read of at least one byte that the segments still hold succeeds unless it starts at the end of a
segment. -/
theorem readerRead_cases {s : DiskSession} {current stream : Bytes} {rest : List Bytes} {size : Nat}
    (delivers : Delivers header s current rest stream) (solid : Solid rest) (pos : 0 < size)
    (fits : size ≤ stream.length) :
    (SegmentedStream.read size current rest = none ∧
        readerRead libraries.onDisk header size s = (.fail, s)) ∨
      ∃ data left after t, SegmentedStream.read size current rest = some (data, left, after) ∧
        readerRead libraries.onDisk header size s = (.ret (stream.take size), t) ∧
        Delivers header t left after (stream.drop size) ∧ Solid after ∧ SameFile s t := by
  by_cases used_up : current = []
  · subst used_up
    exact Or.inl ⟨SegmentedStream.read_nil,
      readerRead_fails libraries delivers.toStands (Or.inr rfl)⟩
  · rw [delivers.length] at fits
    rcases SegmentedStream.exists_read pos used_up solid fits with ⟨data, left, after, read⟩
    rcases readerRead_delivers libraries delivers read with ⟨t, run, delivers', same⟩
    exact Or.inr ⟨data, left, after, t, read, run, delivers',
      SegmentedStream.solid_of_read solid read, same⟩

/-- The calls succeed exactly when the reads of the segmented stream do. -/
theorem readSequence_cases (sizes : List Nat) :
    ∀ {s : DiskSession} {current stream : Bytes} {rest : List Bytes},
      Delivers header s current rest stream → Solid rest → (∀ size ∈ sizes, 0 < size) →
      sizes.sum ≤ stream.length →
      (readMany sizes current rest = none ∧
          ∃ t, readSequence libraries.onDisk header sizes s = (.fail, t)) ∨
        ∃ data left after buffers t, readMany sizes current rest = some (data, left, after) ∧
          readSequence libraries.onDisk header sizes s = (.ret buffers, t) ∧
          buffers.flatten = stream.take sizes.sum := by
  induction sizes with
  | nil =>
      intro s current stream rest _ _ _ _
      exact Or.inr ⟨[], current, rest, [], s, rfl, rfl, rfl⟩
  | cons size sizes ih =>
      intro s current stream rest delivers solid positive fits
      rw [List.sum_cons] at fits
      rcases readerRead_cases libraries delivers solid (positive size List.mem_cons_self)
          (Nat.le_trans (Nat.le_add_right _ _) fits) with
        ⟨none, run⟩ | ⟨data, left, after, t, some, run, delivers', solid', _⟩
      · apply Or.inl
        refine ⟨by rw [readMany, none]; rfl, s, ?_⟩
        rw [readSequence, Proc.bind_of_fail run]
      · rw [SegmentedStream.readMany_of_read some, readSequence, Proc.bind_of_ret run]
        rcases ih delivers' solid' (fun size member => positive size (List.mem_cons_of_mem _ member))
            (by rw [List.length_drop]; omega) with
          ⟨none, u, others⟩ | ⟨more, left', after', buffers, u, some', others, contents⟩
        · exact Or.inl ⟨by rw [none]; rfl, u, Proc.bind_of_fail others⟩
        · apply Or.inr
          refine ⟨data ++ more, left', after', stream.take size :: buffers, u, by rw [some']; rfl, ?_, ?_⟩
          · rw [Proc.bind_of_ret others]
            rfl
          · rw [List.flatten_cons, contents, List.sum_cons, List.take_add]

/-! ### Stored data, block by block -/

/-- The sizes of the reads in which `total` stored bytes are read. -/
def blockSizes (total : Nat) : List Nat :=
  List.replicate (total / bufferSize) bufferSize ++
    if total % bufferSize = 0 then [] else [total % bufferSize]

theorem blockSizes_of_pos {total : Nat} (pos : 0 < total) :
    blockSizes total = min total bufferSize :: blockSizes (total - min total bufferSize) := by
  have size : 0 < bufferSize := by decide
  by_cases small : total < bufferSize
  · have rest : total - min total bufferSize = 0 := by omega
    have last : min total bufferSize = total := by omega
    rw [rest, last, blockSizes, Nat.div_eq_of_lt small, Nat.mod_eq_of_lt small,
      if_neg (Nat.pos_iff_ne_zero.1 pos)]
    rfl
  · obtain ⟨more, rfl⟩ := Nat.exists_eq_add_of_le' (Nat.le_of_not_lt small)
    have first : min (more + bufferSize) bufferSize = bufferSize := by omega
    rw [first, Nat.add_sub_cancel, blockSizes, blockSizes, Nat.add_div_right _ size,
      Nat.add_mod_right, List.replicate_succ, List.cons_append]

theorem sum_blockSizes (total : Nat) : (blockSizes total).sum = total := by
  rw [blockSizes, List.sum_append, List.sum_replicate_nat, Nat.mul_comm]
  have parts := Nat.div_add_mod total bufferSize
  split
  · rename_i whole
    rw [List.sum_nil]
    omega
  · rw [List.sum_singleton]
    exact parts

theorem pos_of_blockSizes {total : Nat} : ∀ size ∈ blockSizes total, 0 < size := by
  intro size member
  rw [blockSizes, List.mem_append] at member
  rcases member with block | last
  · rw [(List.mem_replicate.1 block).2]
    decide
  · split at last
    · cases last
    · rename_i remains
      rw [List.mem_singleton.1 last]
      exact Nat.pos_of_ne_zero remains

/-- Each block is read in a turn of its own. -/
def blockGroups (total : Nat) : List (List Nat) := (blockSizes total).map fun size => [size]

theorem flatten_blockGroups (total : Nat) : (blockGroups total).flatten = blockSizes total := by
  rw [blockGroups, ← List.flatMap_def]
  exact List.flatMap_singleton' _

theorem eq_cons_of_blockGroups {total : Nat} {group : List Nat} {groups : List (List Nat)}
    (h : group :: groups = blockGroups total) :
    0 < total ∧ group = [min total bufferSize] ∧
      groups = blockGroups (total - min total bufferSize) := by
  rcases Nat.eq_zero_or_pos total with rfl | pos
  · cases h
  · rw [blockGroups, blockSizes_of_pos pos, List.map_cons, List.cons.injEq] at h
    exact ⟨pos, h⟩

/-- What a loop over blocks has in front of it. -/
structure BlocksAhead (header : Header) (groups : List (List Nat)) (current : Bytes)
    (rest : List Bytes) (bytesLeft : UInt32) (s : DiskSession) (stream : Bytes) : Prop where
  delivers : Delivers header s current rest stream
  solid : Solid rest
  bytesLeft : bytesLeft.toNat = stream.length
  groups : groups = blockGroups stream.length

theorem BlocksAhead.of_sameInput {groups : List (List Nat)} {current stream : Bytes}
    {rest : List Bytes} {bytesLeft : UInt32} {s t : DiskSession}
    (ahead : BlocksAhead header groups current rest bytesLeft s stream) (same : SameInput s t) :
    BlocksAhead header groups current rest bytesLeft t stream :=
  ⟨ahead.delivers.of_sameInput same, ahead.solid, ahead.bytesLeft, ahead.groups⟩

/-- The read of one block. -/
theorem BlocksAhead.read {group : List Nat} {groups : List (List Nat)} {current stream : Bytes}
    {rest : List Bytes} {bytesLeft : UInt32} {s : DiskSession}
    (ahead : BlocksAhead header (group :: groups) current rest bytesLeft s stream) :
    ∃ size, min bytesLeft.toNat bufferSize = size ∧ bytesLeft ≠ 0 ∧ size ≤ stream.length ∧
      size ≤ bufferSize ∧
      ((readMany group current rest = none ∧
          readerRead libraries.onDisk header size s = (.fail, s)) ∨
        ∃ data left after t, readMany group current rest = some (data, left, after) ∧
          readerRead libraries.onDisk header size s = (.ret (stream.take size), t) ∧ SameFile s t ∧
          BlocksAhead header groups left after (bytesLeft - UInt32.ofNat size) t
            (stream.drop size)) := by
  rcases eq_cons_of_blockGroups ahead.groups with ⟨pos, rfl, groups_eq⟩
  refine ⟨_, rfl, ?_⟩
  rw [ahead.bytesLeft]
  let size := min stream.length bufferSize
  have size_pos : 0 < size := Nat.lt_min.2 ⟨pos, by decide⟩
  have size_le : size ≤ stream.length := Nat.min_le_left _ _
  refine ⟨?_, size_le, Nat.min_le_right _ _, ?_⟩
  · intro zero
    have bytesLeft := ahead.bytesLeft
    rw [zero] at bytesLeft
    exact Nat.ne_of_lt pos bytesLeft
  · rcases readerRead_cases libraries ahead.delivers ahead.solid size_pos size_le with
      ⟨none, run⟩ | ⟨data, left, after, t, some, run, delivers, solid, same⟩
    · exact Or.inl ⟨by rw [readMany, none]; rfl, run⟩
    · apply Or.inr
      refine ⟨data ++ [], left, after, t, ?_, run, same, delivers, solid, ?_, ?_⟩
      · rw [SegmentedStream.readMany_of_read some]
        rfl
      · rw [Bits.uint32_sub_ofNat (by rw [ahead.bytesLeft]; exact size_le), ahead.bytesLeft,
          List.length_drop]
      · rw [List.length_drop]
        exact groups_eq

theorem BlocksAhead.finished {current stream : Bytes} {rest : List Bytes} {bytesLeft : UInt32}
    {s : DiskSession} (ahead : BlocksAhead header [] current rest bytesLeft s stream) :
    bytesLeft = 0 ∧ stream = [] := by
  rcases Nat.eq_zero_or_pos stream.length with zero | pos
  · have bytesLeft := ahead.bytesLeft
    rw [zero] at bytesLeft
    exact ⟨UInt32.toNat_inj.1 bytesLeft, List.length_eq_zero_iff.1 zero⟩
  · have groups := ahead.groups
    rw [blockGroups, blockSizes_of_pos pos] at groups
    cases groups

/-! ### The loop of the raw copy -/

/-- The raw copy in the middle of its loop: what was written and what is ahead are `whole`. -/
structure CopyingRaw (header : Header) (path whole : Bytes) (groups : List (List Nat))
    (current : Bytes) (rest : List Bytes) (bytesLeft : UInt32) (s : DiskSession) : Prop where
  parts : ∃ written stream, written ++ stream = whole ∧ Writing s path written ∧
    BlocksAhead header groups current rest bytesLeft s stream ∧ stream.length ≤ s.io.store.room

theorem saveRawTurn_reads (path whole : Bytes) :
    TurnReads (saveRawTurn libraries.onDisk archive) (CopyingRaw archive.header path whole) := by
  intro group groups current rest bytesLeft s copying
  rcases copying with ⟨written, stream, rfl, writing, ahead, room⟩
  rcases ahead.read libraries with ⟨size, size_eq, unfinished, le, _, outcome⟩
  rw [saveRawTurn, if_neg unfinished]
  simp only [size_eq]
  rcases outcome with ⟨none, run⟩ | ⟨data, left, after, t, some, run, same, ahead'⟩
  · exact Or.inl ⟨none, Proc.noReturn_of_fail (Proc.bind_of_fail run)⟩
  · have taken : (stream.take size).length = size := List.length_take_of_le le
    rcases fwriteOutput_run libraries (writing.of_sameAround same.toSameAround)
        (show (stream.take size).length ≤ t.io.store.room by rw [same.store, taken]; omega) with
      ⟨u, wrote, writing', input, left_room⟩
    refine Or.inr ⟨data, left, after, _, u, some, ?_,
      ⟨_, _, ?_, writing', ahead'.of_sameInput input, ?_⟩⟩
    · rw [Proc.bind_of_ret run, Proc.bind_of_ret wrote]
      rfl
    · rw [List.append_assoc, List.take_append_drop]
    · rw [left_room, same.store, taken, List.length_drop]
      omega

theorem saveRawTurn_ends (path whole : Bytes) :
    EndsWith (saveRawTurn libraries.onDisk archive) (CopyingRaw archive.header path whole)
      fun _ s => Writing s path whole := by
  intro current rest bytesLeft s copying
  rcases copying with ⟨written, stream, rfl, writing, ahead, _⟩
  rcases ahead.finished with ⟨rfl, rfl⟩
  refine ⟨(), s, by rw [saveRawTurn, if_pos rfl]; rfl, ?_⟩
  rw [List.append_nil]
  exact writing

/-! ### The loop of the new format -/

/-- What the loop of `unshield_file_save` is to establish. -/
def Saved (fd : FileDescriptor) (path whole : Bytes) (vars : SaveVars libraries.md5)
    (s : DiskSession) : Prop :=
  Progress libraries s vars path whole ∧ s.fileDescriptor = fd

theorem saveTurn_noReturn {s : DiskSession} {vars : SaveVars libraries.md5}
    (unfinished : vars.bytesLeft ≠ 0)
    (never : Proc.NoReturn
      (saveData libraries.onDisk archive s.fileDescriptor vars.bytesLeft vars.outputBuffer) s) :
    Proc.NoReturn (saveTurn libraries.onDisk archive vars) s := by
  rw [saveTurn, if_neg unfinished]
  exact .bind_of_ret (Proc.gets_run _ s) never.bind

/-- The save of stored data in the middle of its loop. -/
structure SavingBlocks (header : Header) (fd : FileDescriptor) (path whole : Bytes)
    (groups : List (List Nat)) (current : Bytes) (rest : List Bytes)
    (vars : SaveVars libraries.md5) (s : DiskSession) : Prop where
  parts : ∃ written stream, written ++ stream = whole ∧ Progress libraries s vars path written ∧
    BlocksAhead header groups current rest vars.bytesLeft s stream ∧
    stream.length ≤ s.io.store.room
  buffer : vars.outputBuffer.size = bufferSize
  descriptor : s.fileDescriptor = fd
  plain : ¬ fd.Has fileCompressed

theorem saveTurn_reads_blocks (fd : FileDescriptor) (path whole : Bytes) :
    TurnReads (saveTurn libraries.onDisk archive)
      (SavingBlocks libraries archive.header fd path whole) := by
  intro group groups current rest vars s saving
  rcases saving.parts with ⟨written, stream, rfl, progress, ahead, room⟩
  rcases ahead.read libraries with ⟨size, size_eq, unfinished, le, small, outcome⟩
  have plain : saveData libraries.onDisk archive s.fileDescriptor vars.bytesLeft vars.outputBuffer =
      saveStored libraries.onDisk archive vars.bytesLeft vars.outputBuffer :=
    if_neg (by rw [saving.descriptor]; exact saving.plain)
  rcases outcome with ⟨none, run⟩ | ⟨data, left, after, t, some, run, same, ahead'⟩
  · refine Or.inl ⟨none, saveTurn_noReturn libraries unfinished ?_⟩
    rw [plain, saveStored]
    simp only [size_eq]
    exact Proc.noReturn_of_fail (Proc.bind_of_fail run)
  · have taken : (stream.take size).length = size := List.length_take_of_le le
    have space : 0 + (stream.take size).length ≤ vars.outputBuffer.size := by
      rw [saving.buffer, taken]
      omega
    rcases vars.outputBuffer.store_isSome space with ⟨buffer, stored⟩
    have decoded : saveData libraries.onDisk archive s.fileDescriptor vars.bytesLeft
        vars.outputBuffer s =
        (.ret (vars.bytesLeft - UInt32.ofNat size, buffer, (stream.take size).length), t) := by
      rw [plain, saveStored]
      simp only [size_eq]
      rw [Proc.bind_of_ret run, stored, Proc.access_some_bind_run, taken]
      rfl
    rcases saveTurn_run libraries progress unfinished decoded (Block.holds_store stored)
        same.toSameAround (by rw [taken]; omega) with
      ⟨u, vars', turn, progress', bytesLeft, outputBuffer, input, left_room⟩
    refine Or.inr ⟨data, left, after, vars', u, some, turn, ⟨_, stream.drop size, ?_, progress', ?_, ?_⟩,
      ?_, ?_, saving.plain⟩
    · rw [List.append_assoc, List.take_append_drop]
    · rw [bytesLeft]
      exact ahead'.of_sameInput input
    · rw [left_room, taken, List.length_drop]
      omega
    · rw [outputBuffer]
      exact (Block.size_of_store stored).trans saving.buffer
    · exact input.fileDescriptor.trans (same.fileDescriptor.trans saving.descriptor)

theorem saveTurn_ends_blocks (fd : FileDescriptor) (path whole : Bytes) :
    EndsWith (saveTurn libraries.onDisk archive)
      (SavingBlocks libraries archive.header fd path whole) (Saved libraries fd path whole) := by
  intro current rest vars s saving
  rcases saving.parts with ⟨written, stream, rfl, progress, ahead, _⟩
  rcases ahead.finished with ⟨finished, rfl⟩
  refine ⟨vars, s, saveTurn_done libraries finished, ?_, saving.descriptor⟩
  rw [List.append_nil]
  exact progress

/-- The reads of each chunk are made in a turn of their own. -/
def frameGroups (chunks : List Bytes) : List (List Nat) := chunks.map fun chunk => [2, chunk.length]

theorem flatten_frameGroups (chunks : List Bytes) : (frameGroups chunks).flatten = frameSizes chunks := by
  rw [frameGroups, frameSizes, List.flatMap_def]

/-- The save of framed chunks in the middle of its loop. -/
structure SavingChunks (header : Header) (fd : FileDescriptor) (path whole : Bytes)
    (groups : List (List Nat)) (current : Bytes) (rest : List Bytes)
    (vars : SaveVars libraries.md5) (s : DiskSession) : Prop where
  parts : ∃ written chunks outputs, written ++ outputs.flatten = whole ∧
    groups = frameGroups chunks ∧ List.Forall₂ (Inflates libraries.zlib) chunks outputs ∧
    (∀ chunk ∈ chunks, 1 ≤ chunk.length ∧ chunk.length ≤ 65535) ∧
    SavingFrames libraries header s vars current rest chunks path written ∧
    outputs.flatten.length ≤ s.io.store.room
  solid : Solid rest
  descriptor : s.fileDescriptor = fd

/-- A chunk that cannot be read behind its length. -/
theorem saveChunk_noReturn {s t : DiskSession} {chunk : Bytes} {buffer : Block} {bytesLeft : UInt32}
    (lengthRun : readerRead libraries.onDisk archive.header 2 s =
      (.ret (littleEndian16 chunk.length), t))
    (some_bytes : 1 ≤ chunk.length) (small : chunk.length ≤ 65535)
    (never : Proc.NoReturn (readOrReport libraries.onDisk archive.header chunk.length) t) :
    Proc.NoReturn (saveChunk libraries.onDisk archive bytesLeft buffer) s := by
  rcases lengthWord some_bytes (Nat.lt_succ_of_le small) with ⟨word, nonzero⟩
  refine .bind_of_ret (readOrReport_eq_ret_iff.2 lengthRun) ?_
  rw [readUint16_littleEndian16 (Nat.lt_succ_of_le small)]
  refine .bind_of_ret rfl (.bind_of_ret (Proc.require_run_of nonzero _) ?_)
  rw [word]
  exact never.bind

theorem saveTurn_reads_chunks (fd : FileDescriptor) (path whole : Bytes) :
    TurnReads (saveTurn libraries.onDisk archive)
      (SavingChunks libraries archive.header fd path whole) := by
  intro group groups current rest vars s saving
  rcases saving.parts with ⟨written, chunks, outputs, rfl, groups_eq, inflates, sizes, frames, room⟩
  cases inflates with
  | nil => cases groups_eq
  | @cons chunk output chunks outputs first others =>
      rw [frameGroups, List.map_cons, List.cons.injEq] at groups_eq
      rcases groups_eq with ⟨rfl, rfl⟩
      have size := sizes chunk List.mem_cons_self
      have delivers := frames.delivers
      have length : (Unshield.frames (chunk :: chunks)).length =
          2 + (chunk.length + (Unshield.frames chunks).length) := by
        rw [frames_cons, List.length_append, List.length_append]
        rfl
      have unfinished : vars.bytesLeft ≠ 0 := by
        intro zero
        have bytesLeft := frames.bytesLeft
        rw [zero, length] at bytesLeft
        exact absurd bytesLeft (show 0 ≠ 2 + _ by omega)
      have chunked : saveData libraries.onDisk archive s.fileDescriptor vars.bytesLeft
          vars.outputBuffer = saveChunk libraries.onDisk archive vars.bytesLeft vars.outputBuffer :=
        if_pos frames.compressed
      -- the length, then the chunk
      rcases readerRead_cases libraries delivers saving.solid Nat.two_pos
          (by rw [length]; omega) with
        ⟨none, run⟩ | ⟨lengthBytes, middle, between, t, lengthRead, run, delivers', solid', _⟩
      · refine Or.inl ⟨by rw [readMany, none]; rfl, saveTurn_noReturn libraries unfinished ?_⟩
        rw [chunked, saveChunk]
        exact (readOrReport_noReturn run).bind
      · rw [SegmentedStream.readMany_of_read lengthRead]
        rcases readerRead_cases libraries delivers' solid' size.1
            (by rw [List.length_drop, length]; omega) with
          ⟨none, run'⟩ | ⟨data, left, after, u, chunkRead, _, _, solid'', _⟩
        · refine Or.inl ⟨by rw [readMany, none]; rfl, saveTurn_noReturn libraries unfinished ?_⟩
          rw [chunked]
          rw [frames_cons, List.take_left' (show (littleEndian16 _).length = 2 from rfl)] at run
          exact saveChunk_noReturn libraries run size.1 size.2 (readOrReport_noReturn run')
        · rw [List.flatten_cons, List.length_append] at room
          rcases frames.step libraries lengthRead chunkRead (Nat.lt_succ_of_le size.2) first
              (Nat.le_trans (Nat.le_add_right _ _) room) with
            ⟨v, vars', turn, frames', descriptor, room', _⟩
          refine Or.inr ⟨lengthBytes ++ (data ++ []), left, after, vars', v, ?_, turn, ⟨_, chunks,
            outputs, ?_, rfl, others, fun chunk member => sizes chunk (List.mem_cons_of_mem _ member),
            frames', ?_⟩, solid'', descriptor.trans saving.descriptor⟩
          · rw [SegmentedStream.readMany_of_read chunkRead]
            rfl
          · rw [List.flatten_cons, List.append_assoc]
          · rw [room']
            omega

theorem saveTurn_ends_chunks (fd : FileDescriptor) (path whole : Bytes) :
    EndsWith (saveTurn libraries.onDisk archive)
      (SavingChunks libraries archive.header fd path whole) (Saved libraries fd path whole) := by
  intro current rest vars s saving
  rcases saving.parts with ⟨written, chunks, outputs, rfl, groups, inflates, _, frames, _⟩
  cases inflates with
  | nil =>
      have finished : vars.bytesLeft = 0 := UInt32.toNat_inj.1 frames.bytesLeft
      refine ⟨vars, s, saveTurn_done libraries finished, ?_, saving.descriptor⟩
      rw [List.flatten_nil, List.append_nil]
      exact frames.toProgress
  | cons _ _ => cases groups

/-! ### The calls -/

/-- The reader of a split file and the output file are open. -/
structure SplitOpened (header : Header) (fd : FileDescriptor) (segments : List Bytes) (path : Bytes)
    (fd' : FileDescriptor) (t : DiskSession) : Prop where
  writing : Writing t path []
  descriptor : t.fileDescriptor = fd'
  solid : Solid segments
  delivers : ∀ first rest, segments = first :: rest →
    Delivers header t first rest (clearBytes fd 0 segments.flatten)

theorem splitOpened_run {index : Int} {fd : FileDescriptor} {io : Disk} {start : UInt16}
    {content path : Bytes} {segments : List Bytes}
    (layout : SplitAcross header io.store.cabinets index fd start content segments) {fuel : Nat}
    (enough : start.toNat - fd.volume.toNat < fuel) (writable : io.store.writable path = true)
    (outside : fd.dataOffset.toNat ≠ content.length) :
    ∃ s file t, readerCreate libraries.onDisk header fuel index (startSession fd io) = (.ret (), s) ∧
      s.reader.volumeFile = some file ∧ s.fileDescriptor = splitDescriptor fd start ∧
      s.fileDescriptor.dataOffset.toNat ≠ file.content.length ∧
      fopenOutput libraries.onDisk (some path) s = (.ret (), t) ∧
      SplitOpened header fd segments path (splitDescriptor fd start) t ∧
      io.store.room ≤ t.io.store.room := by
  rcases readerCreate_split libraries layout enough with
    ⟨s, created, ⟨position, opened⟩, descriptor, _, store, delivers⟩
  rcases fopenOutput_run libraries (show s.io.store.writable path = true by rw [store]; exact writable)
    with ⟨t, output, writing, input, room⟩
  refine ⟨s, _, t, created, opened, descriptor, by rw [descriptor]; exact outside, output,
    ⟨writing, input.fileDescriptor.trans descriptor, layout.solid, ?_⟩, store ▸ room⟩
  rintro first rest rfl
  exact (delivers first rest rfl).2.2.of_sameInput input

/-- A call on a file that is not a link ends like its session. -/
theorem saveThroughLinks_iff (save : Nat → Int → Proc DiskSession Unit) {library : Library Disk}
    {fuel : Nat} {index : Int} {fd : FileDescriptor} {path out : Bytes} {size : Nat}
    {condition : Prop}
    (extractable : Extractable archive.header library index fd path size)
    (session : (condition ∧ ∃ t, save fuel index (startSession fd library.io) = (.ret (), t) ∧
        t.io.store.files path = some out) ∨
      (¬ condition ∧ Proc.NoReturn (save fuel index) (startSession fd library.io))) :
    (∃ library', saveThroughLinks libraries.onDisk archive save (fuel + 1) index library =
        (.ret (), library') ∧ library'.io.store.files path = some out) ↔ condition := by
  rcases saveThroughLinks_run libraries save fuel extractable with ⟨remembered, io, call⟩
  rw [← io] at session
  rw [call]
  rcases session with ⟨holds, t, run, file⟩ | ⟨fails, never⟩
  · apply iff_of_true _ holds
    rcases runSession_ret libraries run with ⟨library', returned, closed⟩
    refine ⟨library', returned, ?_⟩
    rw [closed, closeSession_store]
    exact file
  · apply iff_of_false _ fails
    rintro ⟨library', returned, _⟩
    rcases runSession_eq_ret libraries returned with ⟨t, run, _⟩
    exact never () t run

theorem saveRawLoop_split {fd fd' : FileDescriptor} {segments : List Bytes} {path : Bytes}
    {t : DiskSession} (opened : SplitOpened archive.header fd segments path fd' t)
    (stored : (startBytesLeft fd').toNat = segments.flatten.length)
    (room : segments.flatten.length ≤ t.io.store.room) {fuel : Nat}
    (enough : (blockGroups segments.flatten.length).length < fuel) :
    (AvoidsEnds segments (blockSizes segments.flatten.length) 0 ∧
        ∃ u, Proc.iterate (saveRawTurn libraries.onDisk archive) fuel (startBytesLeft fd') t =
            (.ret (), u) ∧ Writing u path (clearBytes fd 0 segments.flatten)) ∨
      (¬ AvoidsEnds segments (blockSizes segments.flatten.length) 0 ∧
        Proc.NoReturn (Proc.iterate (saveRawTurn libraries.onDisk archive) fuel (startBytesLeft fd'))
          t) := by
  have length : (clearBytes fd 0 segments.flatten).length = segments.flatten.length :=
    length_clearBytes _ _ _
  cases segments with
  | nil =>
      obtain ⟨fuel, rfl⟩ := Nat.exists_eq_add_of_lt enough
      have finished : startBytesLeft fd' = 0 := UInt32.toNat_inj.1 stored
      rw [List.length_eq_zero_iff.1 length]
      exact Or.inl ⟨trivial, t, Proc.iterate_succ_of_done (by rw [saveRawTurn, if_pos finished]; rfl),
        opened.writing⟩
  | cons first rest =>
      have copying : CopyingRaw archive.header path (clearBytes fd 0 (first :: rest).flatten)
          (blockGroups (first :: rest).flatten.length) first rest (startBytesLeft fd') t :=
        ⟨[], _, List.nil_append _, opened.writing, ⟨opened.delivers first rest rfl,
          fun segment member => opened.solid segment (List.mem_cons_of_mem _ member),
          by rw [stored, length], by rw [length]⟩, by rw [length]; exact room⟩
      have loop := SegmentedStream.iterate_reads_iff (saveRawTurn_reads libraries path _)
        (saveRawTurn_ends libraries path _) copying enough
        (by rw [flatten_blockGroups]; exact pos_of_blockSizes)
        (opened.solid first List.mem_cons_self)
        (fun segment member => opened.solid segment (List.mem_cons_of_mem _ member))
        (by rw [flatten_blockGroups, sum_blockSizes, List.flatten_cons])
      rw [flatten_blockGroups] at loop
      rcases loop with ⟨avoids, _, u, run, writing⟩ | never
      · exact Or.inl ⟨avoids, u, run, writing⟩
      · exact Or.inr never

/-- What the new format makes of the clear stored bytes of a file: the sizes of the reads that the save
function makes of them, and the content. -/
inductive HasContent (zlib : Zlib) (fd : FileDescriptor) : Bytes → List Nat → Bytes → Prop where
  | stored (plain : ¬ fd.Has fileCompressed) (stream : Bytes) :
      HasContent zlib fd stream (blockSizes stream.length) stream
  | chunks {chunks outputs : List Bytes} (compressed : fd.Has fileCompressed)
      (sizes : ∀ chunk ∈ chunks, 1 ≤ chunk.length ∧ chunk.length ≤ 65535)
      (inflates : List.Forall₂ (Inflates zlib) chunks outputs) :
      HasContent zlib fd (frames chunks) (frameSizes chunks) outputs.flatten

/-- Nothing is read of nothing. -/
theorem HasContent.of_nil {zlib : Zlib} {fd : FileDescriptor} {stream out : Bytes} {sizes : List Nat}
    (contents : HasContent zlib fd stream sizes out) (empty : stream = []) : sizes = [] ∧ out = [] := by
  cases contents with
  | stored _ _ =>
      subst empty
      exact ⟨rfl, rfl⟩
  | @chunks chunks outputs _ _ inflates =>
      cases inflates with
      | nil => exact ⟨rfl, rfl⟩
      | cons _ _ => cases empty

theorem HasContent.splitDescriptor {zlib : Zlib} {fd : FileDescriptor} {stream out : Bytes}
    {sizes : List Nat} (contents : HasContent zlib fd stream sizes out) (start : UInt16) :
    HasContent zlib (splitDescriptor fd start) stream sizes out := by
  have same := splitDescriptor_compressed_iff fd start
  cases contents with
  | stored plain stream => exact .stored (by rw [same]; exact plain) stream
  | chunks compressed sizes inflates => exact .chunks (same.2 compressed) sizes inflates

theorem length_frameGroups_le (chunks : List Bytes) :
    (frameGroups chunks).length ≤ (frameSizes chunks).length := by
  induction chunks with
  | nil => exact Nat.le_refl 0
  | cons chunk chunks ih =>
      rw [frameSizes_cons, frameGroups, List.map_cons, List.length_cons, List.length_cons,
        List.length_cons]
      exact Nat.le_succ_of_le (Nat.succ_le_succ ih)

theorem saveLoop_split {fd fd' : FileDescriptor} {segments : List Bytes} {path out : Bytes}
    {sizes : List Nat} {t : DiskSession}
    (opened : SplitOpened archive.header fd segments path fd' t)
    (contents : HasContent libraries.zlib fd' (clearBytes fd 0 segments.flatten) sizes out)
    (stored : (startBytesLeft fd').toNat = segments.flatten.length)
    (room : out.length ≤ t.io.store.room) {fuel : Nat} (enough : sizes.length < fuel) :
    (AvoidsEnds segments sizes 0 ∧ ∃ vars u,
        Proc.iterate (saveTurn libraries.onDisk archive) fuel
          (saveStart libraries.onDisk fd') t = (.ret vars, u) ∧ Saved libraries fd' path out vars u) ∨
      (¬ AvoidsEnds segments sizes 0 ∧
        Proc.NoReturn (Proc.iterate (saveTurn libraries.onDisk archive) fuel
          (saveStart libraries.onDisk fd')) t) := by
  have length : (clearBytes fd 0 segments.flatten).length = segments.flatten.length :=
    length_clearBytes _ _ _
  have progress : Progress libraries t (saveStart libraries.onDisk fd') path [] :=
    ⟨opened.writing, rfl, (libraries.md5.update_nil _).symm⟩
  cases segments with
  | nil =>
      obtain ⟨fuel, rfl⟩ := Nat.exists_eq_add_of_lt enough
      have finished : (saveStart libraries.onDisk fd').bytesLeft = 0 := UInt32.toNat_inj.1 stored
      rcases contents.of_nil (List.length_eq_zero_iff.1 length) with ⟨rfl, rfl⟩
      exact Or.inl ⟨trivial, _, t, Proc.iterate_succ_of_done (saveTurn_done libraries finished),
        progress, opened.descriptor⟩
  | cons first rest =>
      have some_left := opened.solid first List.mem_cons_self
      have solid : Solid rest :=
        fun segment member => opened.solid segment (List.mem_cons_of_mem _ member)
      have delivers := opened.delivers first rest rfl
      have whole : (first :: rest).flatten = first ++ rest.flatten := List.flatten_cons
      generalize clearBytes fd 0 (first :: rest).flatten = stream at *
      rw [whole] at stored length
      cases contents with
      | stored plain =>
          have saving : SavingBlocks libraries archive.header fd' path out
              (blockGroups out.length) first rest (saveStart libraries.onDisk fd') t :=
            ⟨⟨[], out, List.nil_append _, progress,
              ⟨delivers, solid, stored.trans length.symm, rfl⟩, room⟩, rfl, opened.descriptor, plain⟩
          have loop := SegmentedStream.iterate_reads_iff (saveTurn_reads_blocks libraries fd' path out)
            (saveTurn_ends_blocks libraries fd' path out) saving
            (by rw [blockGroups, List.length_map]; exact enough)
            (by rw [flatten_blockGroups]; exact pos_of_blockSizes) some_left solid
            (by rw [flatten_blockGroups, sum_blockSizes, length])
          rw [flatten_blockGroups] at loop
          exact loop
      | @chunks chunks outputs compressed sizes inflates =>
          have saving : SavingChunks libraries archive.header fd' path outputs.flatten
              (frameGroups chunks) first rest (saveStart libraries.onDisk fd') t :=
            ⟨⟨[], chunks, outputs, List.nil_append _, rfl, inflates, sizes,
              ⟨progress, delivers, by rw [opened.descriptor]; exact compressed,
                stored.trans length.symm, rfl⟩, room⟩, solid, opened.descriptor⟩
          have loop := SegmentedStream.iterate_reads_iff
            (saveTurn_reads_chunks libraries fd' path outputs.flatten)
            (saveTurn_ends_chunks libraries fd' path outputs.flatten) saving
            (Nat.lt_of_le_of_lt (length_frameGroups_le chunks) enough)
            (by
              rw [flatten_frameGroups]
              exact pos_of_frameSizes fun chunk member => (sizes chunk member).1) some_left solid
            (by rw [flatten_frameGroups, sum_frameSizes, length])
          rw [flatten_frameGroups] at loop
          exact loop

/-! ### The calls, cut by cut -/

theorem readFile_iff {io : Disk} {index : Int} {fd : FileDescriptor} {start : UInt16}
    {content : Bytes} {segments : List Bytes}
    (layout : SplitAcross header io.store.cabinets index fd start content segments)
    {sizes : List Nat} (positive : ∀ size ∈ sizes, 0 < size)
    (fits : sizes.sum ≤ segments.flatten.length) :
    ∃ enough, ∀ fuel ≥ enough,
      (∃ buffers t,
        readFile libraries.onDisk header fuel index sizes (startSession fd io) = (.ret buffers, t) ∧
        buffers.flatten = (clearBytes fd 0 segments.flatten).take sizes.sum) ↔
      AvoidsEnds segments sizes 0 := by
  refine ⟨start.toNat + 1, ?_⟩
  intro fuel enough
  rcases readerCreate_split libraries layout (show start.toNat - fd.volume.toNat < fuel by omega) with
    ⟨s, created, _, _, _, _, delivers⟩
  rw [readFile, Proc.bind_of_ret created]
  cases segments with
  | nil =>
      cases sizes with
      | nil => exact iff_of_true ⟨[], s, rfl, rfl⟩ trivial
      | cons size sizes =>
          have pos := positive size List.mem_cons_self
          rw [List.sum_cons, List.flatten_nil, List.length_nil] at fits
          omega
  | cons first rest =>
      have delivers := (delivers first rest rfl).2.2
      have solid : Solid rest :=
        fun segment member => layout.solid segment (List.mem_cons_of_mem _ member)
      rw [List.flatten_cons] at fits
      rw [← SegmentedStream.exists_readMany_iff positive (layout.solid first List.mem_cons_self) solid
        fits]
      rcases readSequence_cases libraries sizes delivers solid positive
          (by rw [delivers.length]; exact fits) with
        ⟨none, t, run⟩ | ⟨data, left, after, buffers, t, some, run, contents⟩
      · rw [none, run]
        apply iff_of_false
        · rintro ⟨_, _, returned, _⟩
          cases returned
        · rintro ⟨_, _, _, returned⟩
          cases returned
      · exact iff_of_true ⟨buffers, t, run, contents⟩ ⟨data, left, after, some⟩

/-! ### The cuts that do not matter -/

/-- The new-format save function and the raw copy can read the file: its size is that of its segments,
and there is room for what is written. -/
structure Readable (header : Header) (library : Library Disk) (index : Int) (fd : FileDescriptor)
    (path content : Bytes) (segments : List Bytes) (size : Nat) : Prop
    extends Extractable header library index fd path size where
  outside : fd.dataOffset.toNat ≠ content.length
  stored : (storedSize fd).toNat = segments.flatten.length
  small : segments.flatten.length < 2 ^ 32

theorem fileSaveRaw_iff {library : Library Disk} {index : Int} {fd : FileDescriptor} {start : UInt16}
    {content path : Bytes} {segments : List Bytes}
    (layout : SplitAcross archive.header library.io.store.cabinets index fd start content segments)
    (readable : Readable archive.header library index fd path content segments
      segments.flatten.length) :
    ∃ enough, ∀ fuel ≥ enough,
      (∃ library',
        fileSaveRaw libraries.onDisk archive fuel index (some path) library = (.ret (), library') ∧
        library'.io.store.files path = some (clearBytes fd 0 segments.flatten)) ↔
      AvoidsEnds segments (blockSizes segments.flatten.length) 0 := by
  refine ⟨(blockGroups segments.flatten.length).length + start.toNat + 2, ?_⟩
  intro fuel enough
  obtain ⟨fuel, rfl⟩ : ∃ more, fuel = more + 1 := ⟨fuel - 1, by omega⟩
  rcases splitOpened_run libraries layout (show start.toNat - fd.volume.toNat < fuel by omega)
    readable.writable readable.outside with
    ⟨s, file, t, created, volume, descriptor, outside, output, opened, room⟩
  have stored : (startBytesLeft (splitDescriptor fd start)).toNat = segments.flatten.length :=
    startBytesLeft_toNat (by rw [splitDescriptor_storedSize]; exact readable.stored) readable.small
  have start_eq : saveRaw libraries.onDisk archive (some path) fuel index (startSession fd library.io) =
      Proc.iterate (saveRawTurn libraries.onDisk archive) fuel
        (startBytesLeft (splitDescriptor fd start)) t := by
    rw [saveRaw, Proc.bind_of_ret created, Proc.bind_of_ret (fsizeVolume_run libraries volume),
      Proc.gets_bind_run, Proc.bind_of_ret (Proc.require_run_of (inside_of_ne outside) _),
      Proc.bind_of_ret output, descriptor]
  apply saveThroughLinks_iff libraries (saveRaw libraries.onDisk archive (some path))
    readable.toExtractable
  rcases saveRawLoop_split libraries opened stored (readable.room.trans room)
      (show _ < fuel by omega) with ⟨avoids, u, run, writing⟩ | ⟨meets, never⟩
  · exact Or.inl ⟨avoids, u, start_eq.trans run, writing.file⟩
  · refine Or.inr ⟨meets, fun result u returns => ?_⟩
    exact never result u (start_eq.symm.trans returns)

theorem fileSave_iff {library : Library Disk} {index : Int} {fd : FileDescriptor} {start : UInt16}
    {content path out : Bytes} {segments : List Bytes} {sizes : List Nat}
    (layout : SplitAcross archive.header library.io.store.cabinets index fd start content segments)
    (readable : Readable archive.header library index fd path content segments out.length)
    (contents : HasContent libraries.zlib fd (clearBytes fd 0 segments.flatten) sizes out)
    (expanded : fd.expandedSize.toNat = out.length)
    (md5 : archive.header.majorVersion ≥ 6 → libraries.md5.digest out = fd.md5) :
    ∃ enough, ∀ fuel ≥ enough,
      (∃ library',
        fileSave libraries.onDisk archive fuel index (some path) library = (.ret (), library') ∧
        library'.io.store.files path = some out) ↔
      AvoidsEnds segments sizes 0 := by
  refine ⟨sizes.length + start.toNat + 2, ?_⟩
  intro fuel enough
  obtain ⟨fuel, rfl⟩ : ∃ more, fuel = more + 1 := ⟨fuel - 1, by omega⟩
  rcases splitOpened_run libraries layout (show start.toNat - fd.volume.toNat < fuel by omega)
    readable.writable readable.outside with
    ⟨s, file, t, created, volume, descriptor, outside, output, opened, room⟩
  have stored : (startBytesLeft (splitDescriptor fd start)).toNat = segments.flatten.length :=
    startBytesLeft_toNat (by rw [splitDescriptor_storedSize]; exact readable.stored) readable.small
  apply saveThroughLinks_iff libraries (saveNew libraries.onDisk archive (some path))
    readable.toExtractable
  rcases saveLoop_split libraries opened (contents.splitDescriptor start) stored
      (readable.room.trans room) (show _ < fuel by omega) with
    ⟨avoids, vars, u, run, progress, descriptor'⟩ | ⟨meets, never⟩
  · rw [← descriptor] at run
    exact Or.inl ⟨avoids, u, saveNew_of_loop libraries created volume outside output run progress
      (by rw [descriptor']; exact expanded) (by rw [descriptor']; exact md5), progress.writing.file⟩
  · rw [← descriptor] at never
    refine Or.inr ⟨meets, ?_⟩
    exact .bind_of_ret created (.bind_of_ret (fsizeVolume_run libraries volume)
      (.bind_of_ret (Proc.gets_run _ s) (.bind_of_ret (Proc.require_run_of (inside_of_ne outside) _)
        (.bind_of_ret output never.bind))))

/-- Of a file that is cut into segments, the calls of a reader, the raw copy and the new-format save
function deliver what they should if and only if none of their reads but the first starts at the end of
a segment. -/
theorem splitReads_iff (library : Library Disk) (index : Int) (fd : FileDescriptor) (start : UInt16)
    (content : Bytes) (segments : List Bytes)
    (layout : SplitAcross archive.header library.io.store.cabinets index fd start content segments) :
    (∀ sizes : List Nat, (∀ size ∈ sizes, 0 < size) → sizes.sum ≤ segments.flatten.length →
      ∃ enough, ∀ fuel ≥ enough,
        (∃ buffers t,
          readFile libraries.onDisk archive.header fuel index sizes (startSession fd library.io) =
            (.ret buffers, t) ∧
          buffers.flatten = (clearBytes fd 0 segments.flatten).take sizes.sum) ↔
        AvoidsEnds segments sizes 0) ∧
    (∀ path, Readable archive.header library index fd path content segments segments.flatten.length →
      ∃ enough, ∀ fuel ≥ enough,
        (∃ library',
          fileSaveRaw libraries.onDisk archive fuel index (some path) library = (.ret (), library') ∧
          library'.io.store.files path = some (clearBytes fd 0 segments.flatten)) ↔
        AvoidsEnds segments (blockSizes segments.flatten.length) 0) ∧
    (∀ path sizes out, Readable archive.header library index fd path content segments out.length →
      HasContent libraries.zlib fd (clearBytes fd 0 segments.flatten) sizes out →
      fd.expandedSize.toNat = out.length →
      (archive.header.majorVersion ≥ 6 → libraries.md5.digest out = fd.md5) →
      ∃ enough, ∀ fuel ≥ enough,
        (∃ library',
          fileSave libraries.onDisk archive fuel index (some path) library = (.ret (), library') ∧
          library'.io.store.files path = some out) ↔
        AvoidsEnds segments sizes 0) := by
  refine ⟨?_, ?_, ?_⟩
  · intro sizes positive fits
    exact readFile_iff libraries layout positive fits
  · intro path readable
    exact fileSaveRaw_iff libraries layout readable
  · intro path sizes out readable contents expanded md5
    exact fileSave_iff libraries layout readable contents expanded md5

end

/-! ### A chunk in two volumes -/

def splitFrameDescriptor : FileDescriptor :=
  { flags := fileSplit ||| fileCompressed, expandedSize := 1, compressedSize := 5, dataOffset := 84,
    md5 := digestOfA, volume := 1 }

def splitFrameLibrary (segments : List Bytes)
    (short : ∀ content ∈ segments.map (segmentVolume (smallHeader 6) 0), content.length < 2 ^ 63) :
    Library Disk :=
  libraryWith splitFrameDescriptor
    (shelfDisk (segments.map (segmentVolume (smallHeader 6) 0)) 5 short (by decide))

/-- The chunk, cut behind its length. -/
def behindLength : List Bytes := [[0x03, 0x00], [0x4b, 0x04, 0x00]]

theorem behindLength_splitAcross :
    SplitAcross (smallHeader 6) (splitFrameLibrary behindLength (by decide)).io.store.cabinets 0
      splitFrameDescriptor 1 (segmentVolume (smallHeader 6) 0 [0x03, 0x00]) behindLength :=
  splitAcross_shelf [0x03, 0x00] [[0x4b, 0x04, 0x00]] rfl rfl (by decide) rfl (by decide) (by decide)

/-- The raw copy makes one read, which the cut does not disturb. -/
theorem splitReads_iff_one_read :
    ∃ enough, ∀ fuel ≥ enough, ∃ library',
      fileSaveRaw smallLibraries.onDisk (smallArchive 6) fuel 0 (some smallPath)
        (splitFrameLibrary behindLength (by decide)) = (.ret (), library') ∧
      library'.io.store.files smallPath = some [0x03, 0x00, 0x4b, 0x04, 0x00] := by
  have readable : Readable (smallHeader 6) (splitFrameLibrary behindLength (by decide)) 0
      splitFrameDescriptor smallPath (segmentVolume (smallHeader 6) 0 [0x03, 0x00]) behindLength 5 :=
    ⟨extractable_libraryWith (by decide) (by decide) (by decide) (by decide) rfl (by decide),
      by decide, rfl, by decide⟩
  have raw := (@splitReads_iff smallLibraries (smallArchive 6)
    (splitFrameLibrary behindLength (by decide)) 0 splitFrameDescriptor 1
    (segmentVolume (smallHeader 6) 0 [0x03, 0x00]) behindLength behindLength_splitAcross).2.1
  rcases raw smallPath readable with ⟨enough, saves⟩
  exact ⟨enough, fun fuel le => (saves fuel le).2 trivial⟩

/-- The second of two reads fails that starts where the first volume ends, and with it the save of the
chunk; one byte further the cut does no harm. -/
theorem splitReads_cut_at_read_end :
    SplitAcross (smallHeader 6) (splitFrameLibrary behindLength (by decide)).io.store.cabinets 0
      splitFrameDescriptor 1 (segmentVolume (smallHeader 6) 0 [0x03, 0x00]) behindLength ∧
    (readFile smallLibraries.onDisk (smallHeader 6) 9 0 [2, 3]
      (startSession splitFrameDescriptor (splitFrameLibrary behindLength (by decide)).io)).1 = .fail ∧
    (fileSave { smallLibraries.onDisk with errorsPrinted := false } (smallArchive 6) 9 0 (some smallPath)
      (splitFrameLibrary behindLength (by decide))).1 = .fail ∧
    (fileSave smallLibraries.onDisk (smallArchive 6) 9 0 (some smallPath)
      (splitFrameLibrary [[0x03, 0x00, 0x4b], [0x04, 0x00]] (by decide))).1 = .ret () := by
  refine ⟨behindLength_splitAcross, ?_, ?_, ?_⟩
  · decide +kernel
  · decide +kernel
  · decide +kernel

end Unshield
