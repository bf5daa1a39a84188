/-
Module: Unshield.Proofs.SaveOldStored
Purpose: The old-format save function on stored data: wherever the volumes are cut, the output is the
  content.
Trusted boundary: none
Main exports: openExhausted_run, saveOldLoop_stored, saveOld_of_loop, fileSaveOld_stored
-/
import Unshield.Proofs.VolumeFormat

namespace Unshield

open Procedure

section

variable (libraries : Libraries) {archive : Archive}

/-! ### Around the loop -/

/-- A file inside the cabinet is read from the cabinet. -/
theorem createOldReader_run {fuel : Nat} {index : Int} {s₀ s : DiskSession} {file : Stream}
    (created : readerCreate libraries.onDisk archive.header fuel index s₀ = (.ret (), s))
    (opened : s.reader.volumeFile = some file)
    (outside : s.fileDescriptor.dataOffset.toNat ≠ file.content.length) :
    createOldReader libraries.onDisk archive fuel index s₀ = (.ret (), s) := by
  rw [createOldReader, Proc.bind_of_ret created, Proc.bind_of_ret (fsizeVolume_run libraries opened),
    Proc.gets_bind_run, if_neg (inside_of_ne outside)]
  rfl

/-- A loop whose output has the right length makes the call succeed. -/
theorem saveOld_of_loop {fuel : Nat} {index : Int} {s₀ s t u : DiskSession} {file : Stream}
    {vars : SaveOldVars} {path out : Bytes}
    (created : readerCreate libraries.onDisk archive.header fuel index s₀ = (.ret (), s))
    (opened : s.reader.volumeFile = some file)
    (outside : s.fileDescriptor.dataOffset.toNat ≠ file.content.length)
    (output : fopenOutput libraries.onDisk (some path) s = (.ret (), t))
    (loop : Proc.iterate (saveOldTurn libraries.onDisk archive fuel) fuel
      (saveOldStart libraries.onDisk t.fileDescriptor) t = (.ret vars, u))
    (total : vars.totalWritten = UInt64.ofNat out.length)
    (expanded : u.fileDescriptor.expandedSize.toNat = out.length) :
    saveOld libraries.onDisk archive (some path) fuel index s₀ = (.ret (), u) := by
  have same : u.fileDescriptor.expandedSize = vars.totalWritten := by
    rw [total, ← expanded, UInt64.ofNat_toNat]
  rw [saveOld, Proc.bind_of_ret (createOldReader_run libraries created opened outside),
    Proc.bind_of_ret output, Proc.gets_bind_run, Proc.bind_of_ret loop, Proc.gets_bind_run]
  exact Proc.require_run_of same _

/-- A volume that is not used up stays open. -/
theorem openExhausted_stays {s : DiskSession} {current stream : Bytes} {rest : List Bytes}
    (delivers : Delivers archive.header s current rest stream) (some_left : current ≠ []) :
    openExhausted libraries.onDisk archive s = (.ret (), s) := by
  have nonzero : s.reader.volumeBytesLeft ≠ 0 := by
    intro zero
    have left := delivers.left
    rw [zero] at left
    exact some_left (List.length_eq_zero_iff.1 left.symm)
  rw [openExhausted, Proc.gets_bind_run, if_neg nonzero]
  rfl

/-- Before a turn the next volume is opened if this one is used up. -/
theorem openExhausted_run {s : DiskSession} {current stream : Bytes} {rest : List Bytes}
    (delivers : Delivers archive.header s current rest stream)
    (solid : SegmentedStream.Solid rest) (unfinished : stream ≠ []) :
    ∃ t current' rest', openExhausted libraries.onDisk archive s = (.ret (), t) ∧
      Delivers archive.header t current' rest' stream ∧ current' ≠ [] ∧
      SegmentedStream.Solid rest' ∧ SameFile s t ∧
      t.reader.volume + rest'.length = s.reader.volume + rest.length ∧
      current :: rest = (if current = [] then [current] else []) ++ current' :: rest' := by
  by_cases used_up : current = []
  · subst used_up
    cases rest with
    | nil =>
        have length := delivers.length
        exact absurd (List.length_eq_zero_iff.1 length) unfinished
    | cons next rest =>
        obtain ⟨t, run, delivers', same, volume⟩ := delivers.open_next libraries
        have zero : s.reader.volumeBytesLeft = 0 := UInt32.toNat_inj.1 delivers.left
        have exhausted : openExhausted libraries.onDisk archive s = (.ret (), t) := by
          rw [openExhausted, Proc.gets_bind_run, if_pos zero, Proc.gets_bind_run]
          exact run
        refine ⟨t, next, rest, exhausted, delivers', solid next List.mem_cons_self,
          fun segment member => solid segment (List.mem_cons_of_mem _ member), same, ?_, rfl⟩
        rw [volume, List.length_cons]
        omega
  · refine ⟨s, current, rest, openExhausted_stays libraries delivers used_up, delivers, used_up, solid,
      .refl s, rfl, ?_⟩
    rw [if_neg used_up]
    rfl

/-! ### The loop -/

/-- What the loop over stored data has in front of it and behind it. -/
structure SavingStored (header : Header) (s : DiskSession) (vars : SaveOldVars) (current : Bytes)
    (rest : List Bytes) (stream path written : Bytes) : Prop where
  delivers : Delivers header s current rest stream
  solid : SegmentedStream.Solid rest
  plain : ¬ s.fileDescriptor.Has fileCompressed
  writing : Writing s path written
  bytesLeft : vars.bytesLeft.toNat = stream.length
  total : vars.totalWritten = UInt64.ofNat written.length

/-- One buffer, wherever its bytes lie. -/
theorem SavingStored.step {s : DiskSession} {vars : SaveOldVars} {current stream path written : Bytes}
    {rest : List Bytes} (fuel : Nat)
    (saving : SavingStored archive.header s vars current rest stream path written)
    (unfinished : stream ≠ []) (room : stream.length ≤ s.io.store.room) :
    ∃ t vars' current' rest' size, 0 < size ∧ size ≤ stream.length ∧
      saveOldTurn libraries.onDisk archive fuel vars s = (.ret (.again vars'), t) ∧
      SavingStored archive.header t vars' current' rest' (stream.drop size) path
        (written ++ stream.take size) ∧
      t.fileDescriptor = s.fileDescriptor ∧ (stream.drop size).length ≤ t.io.store.room := by
  have nonempty := List.length_pos_iff.2 unfinished
  obtain ⟨t, current', rest', exhausted, delivers, some_left, solid, same, _, _⟩ :=
    openExhausted_run libraries saving.delivers saving.solid unfinished
  have length := delivers.length
  -- the read of one buffer
  let size := min vars.bytesLeft.toNat bufferSize
  have size_le : size ≤ stream.length := by
    rw [← saving.bytesLeft]
    exact Nat.min_le_left _ _
  have size_pos : 0 < size := by
    rw [show size = min vars.bytesLeft.toNat bufferSize from rfl, saving.bytesLeft]
    exact Nat.lt_min.2 ⟨nonempty, by decide⟩
  obtain ⟨data, left, after, read⟩ := SegmentedStream.exists_read size_pos some_left solid
    (by rw [← length]; exact size_le)
  obtain ⟨u, run, delivers', same'⟩ := readerRead_delivers libraries delivers read
  -- the write
  have both := same.trans same'
  have taken : (stream.take size).length = size := List.length_take_of_le size_le
  obtain ⟨v, wrote, writing, input, left_room⟩ := fwriteOutput_run libraries
    (saving.writing.of_sameAround both.toSameAround)
    (show (stream.take size).length ≤ u.io.store.room by rw [both.store, taken]; omega)
  have descriptor : v.fileDescriptor = s.fileDescriptor :=
    input.fileDescriptor.trans both.fileDescriptor
  refine ⟨v, { vars with
      bytesLeft := vars.bytesLeft - UInt32.ofNat size
      totalWritten := vars.totalWritten + UInt64.ofNat size }, left, after, size, size_pos, size_le,
    ?_, ⟨delivers'.of_sameInput input, SegmentedStream.solid_of_read solid read, ?_, writing, ?_, ?_⟩,
    descriptor, ?_⟩
  · have nonzero : vars.bytesLeft ≠ 0 := by
      intro zero
      have bytesLeft := saving.bytesLeft
      rw [zero] at bytesLeft
      exact absurd bytesLeft (Nat.ne_of_lt nonempty)
    have stored : saveOldData libraries.onDisk archive t.fileDescriptor fuel vars =
        saveOldStored libraries.onDisk archive vars :=
      if_neg (by rw [same.fileDescriptor]; exact saving.plain)
    have data_run : saveOldStored libraries.onDisk archive vars t = (.ret { vars with
        bytesLeft := vars.bytesLeft - UInt32.ofNat size
        totalWritten := vars.totalWritten + UInt64.ofNat size }, v) := by
      rw [saveOldStored, Proc.bind_of_ret run, Proc.bind_of_ret wrote]
      rfl
    rw [saveOldTurn, if_neg nonzero, Proc.bind_of_ret exhausted, Proc.gets_bind_run, stored,
      Proc.bind_of_ret data_run]
    rfl
  · rw [descriptor]
    exact saving.plain
  · rw [Bits.uint32_sub_ofNat (by rw [saving.bytesLeft]; exact size_le), saving.bytesLeft,
      List.length_drop]
  · show vars.totalWritten + UInt64.ofNat size = _
    rw [saving.total, List.length_append, taken, UInt64.ofNat_add]
  · rw [left_room, both.store, taken, List.length_drop]
    omega

theorem saveOldTurn_done {s : DiskSession} {vars : SaveOldVars} (fuel : Nat)
    (finished : vars.bytesLeft = 0) :
    saveOldTurn libraries.onDisk archive fuel vars s = (.ret (.done vars), s) := by
  rw [saveOldTurn, if_pos finished]
  rfl

/-- Buffer after buffer the whole content is written; the induction is on what is left of it. -/
theorem saveOldLoop_stored (bound : Nat) (inner : Nat) :
    ∀ {s : DiskSession} {vars : SaveOldVars} {current stream path written : Bytes}
      {rest : List Bytes},
      SavingStored archive.header s vars current rest stream path written →
      stream.length ≤ s.io.store.room → stream.length ≤ bound → ∀ fuel > bound,
      ∃ t vars', Proc.iterate (saveOldTurn libraries.onDisk archive inner) fuel vars s =
          (.ret vars', t) ∧
        Writing t path (written ++ stream) ∧ t.fileDescriptor = s.fileDescriptor ∧
        vars'.totalWritten = UInt64.ofNat (written ++ stream).length := by
  induction bound with
  | zero =>
      intro s vars current stream path written rest saving _ bounded fuel enough
      obtain ⟨fuel, rfl⟩ := Nat.exists_eq_add_of_lt enough
      have empty : stream = [] := List.length_eq_zero_iff.1 (Nat.le_zero.1 bounded)
      subst empty
      have finished : vars.bytesLeft = 0 := UInt32.toNat_inj.1 saving.bytesLeft
      rw [List.append_nil]
      exact ⟨s, vars, Proc.iterate_succ_of_done (saveOldTurn_done libraries inner finished),
        saving.writing, rfl, saving.total⟩
  | succ bound ih =>
      intro s vars current stream path written rest saving room bounded fuel enough
      obtain ⟨fuel, rfl⟩ := Nat.exists_eq_add_of_lt enough
      by_cases unfinished : stream = []
      · subst unfinished
        have finished : vars.bytesLeft = 0 := UInt32.toNat_inj.1 saving.bytesLeft
        rw [List.append_nil]
        exact ⟨s, vars, Proc.iterate_succ_of_done (saveOldTurn_done libraries inner finished),
          saving.writing, rfl, saving.total⟩
      · obtain ⟨t, vars', current', rest', size, pos, le, turn, saving', descriptor, room'⟩ :=
          saving.step libraries inner unfinished room
        obtain ⟨u, vars'', run, writing, descriptor', total⟩ := ih saving' room'
          (by rw [List.length_drop]; omega) (bound + 1 + fuel) (by omega)
        rw [List.append_assoc, List.take_append_drop] at writing total
        refine ⟨u, vars'', ?_, writing, descriptor'.trans descriptor, total⟩
        rw [Proc.iterate_succ_of_again turn]
        exact run

/-! ### The whole call -/

/-- A stored split file is saved as the concatenation of its segments, wherever it is cut, to a file that may
be written, and so is no volume. -/
theorem fileSaveOld_stored (library : Library Disk) (index : Int) (path : Bytes)
    (fd : FileDescriptor) (start : UInt16) (content : Bytes) (segments : List Bytes)
    (extractable : Extractable archive.header library index fd path segments.flatten.length)
    (plain : ¬ fd.Has fileCompressed)
    (layout : SplitAcross archive.header library.io.store.cabinets index fd start content segments)
    (outside : fd.dataOffset.toNat ≠ content.length)
    (expanded : fd.expandedSize.toNat = segments.flatten.length)
    (small : segments.flatten.length < 2 ^ 32) :
    ∃ enough, ∀ fuel ≥ enough, ∃ library',
      fileSaveOld libraries.onDisk archive fuel index (some path) library = (.ret (), library') ∧
      library'.io.store.files path = some (clearBytes fd 0 segments.flatten) := by
  refine ⟨segments.flatten.length + start.toNat + 2, ?_⟩
  intro fuel enough
  obtain ⟨fuel, rfl⟩ : ∃ more, fuel = more + 1 := ⟨fuel - 1, by omega⟩
  obtain ⟨remembered, io, session⟩ := saveThroughLinks_run libraries
    (saveOld libraries.onDisk archive (some path)) fuel extractable
  -- the reader and the output file
  rw [← io] at layout
  obtain ⟨s, created, ⟨position, opened⟩, descriptor, _, store, delivers⟩ :=
    readerCreate_split libraries layout (show start.toNat - fd.volume.toNat < fuel by omega)
  have same_store : s.io.store = library.io.store := by rw [store, io]
  obtain ⟨t, output, writing, input, room⟩ := fopenOutput_run libraries
    (show s.io.store.writable path = true by rw [same_store]; exact extractable.writable)
  have descriptor' : t.fileDescriptor = splitDescriptor fd start :=
    input.fileDescriptor.trans descriptor
  have clear_length : (clearBytes fd 0 segments.flatten).length = segments.flatten.length :=
    length_clearBytes _ _ _
  -- the loop
  have loop : ∃ u vars, Proc.iterate (saveOldTurn libraries.onDisk archive fuel) fuel
        (saveOldStart libraries.onDisk t.fileDescriptor) t = (.ret vars, u) ∧
      Writing u path (clearBytes fd 0 segments.flatten) ∧ u.fileDescriptor = t.fileDescriptor ∧
      vars.totalWritten = UInt64.ofNat (clearBytes fd 0 segments.flatten).length := by
    have bytesLeft : (saveOldStart libraries.onDisk t.fileDescriptor).bytesLeft.toNat =
        segments.flatten.length := by
      rw [saveOldStart, descriptor']
      show fd.expandedSize.toUInt32.toNat = _
      rw [UInt64.toNat_toUInt32, expanded, Nat.mod_eq_of_lt small]
    cases segments with
    | nil =>
        have finished : (saveOldStart libraries.onDisk t.fileDescriptor).bytesLeft = 0 :=
          UInt32.toNat_inj.1 bytesLeft
        obtain ⟨fuel, rfl⟩ : ∃ more, fuel = more + 1 := ⟨fuel - 1, by omega⟩
        have nothing : clearBytes fd 0 ([] : List Bytes).flatten = [] :=
          List.length_eq_zero_iff.1 clear_length
        rw [nothing]
        exact ⟨t, _, Proc.iterate_succ_of_done (saveOldTurn_done libraries _ finished), writing, rfl,
          rfl⟩
    | cons first rest =>
        have saving : SavingStored archive.header t (saveOldStart libraries.onDisk t.fileDescriptor)
            first rest (clearBytes fd 0 (first :: rest).flatten) path [] := by
          refine ⟨(delivers first rest rfl).2.2.of_sameInput input,
            fun segment member => layout.solid segment (List.mem_cons_of_mem _ member), ?_, writing,
            by rw [bytesLeft, clear_length], rfl⟩
          rw [descriptor', splitDescriptor_compressed_iff]
          exact plain
        refine saveOldLoop_stored libraries (first :: rest).flatten.length fuel saving ?_
          (Nat.le_of_eq clear_length) fuel (by omega)
        rw [clear_length]
        refine Nat.le_trans ?_ room
        rw [same_store]
        exact extractable.room
  obtain ⟨u, vars, run, saved, descriptor'', total⟩ := loop
  have call := saveOld_of_loop libraries created opened
    (by rw [descriptor]; exact outside) output run total
    (by rw [descriptor'', descriptor', clear_length]; exact expanded)
  -- the way back
  obtain ⟨library', returned, closed⟩ := runSession_ret libraries call
  refine ⟨library', by rw [fileSaveOld, session]; exact returned, ?_⟩
  rw [closed, closeSession_store]
  exact saved.file

end

/-! ### Two bytes in two volumes -/

def cutDescriptor : FileDescriptor :=
  { flags := fileSplit, expandedSize := 2, compressedSize := 2, dataOffset := 84, volume := 1 }

def cutLibrary : Library Disk :=
  libraryWith cutDescriptor
    (shelfDisk ([[0x61], [0x62]].map (segmentVolume (smallHeader 6) 0)) 2 (by decide) room_two_lt)

theorem fileSaveOld_stored_two_volumes :
    ∃ enough, ∀ fuel ≥ enough, ∃ library',
      fileSaveOld smallLibraries.onDisk (smallArchive 6) fuel 0 (some smallPath) cutLibrary =
        (.ret (), library') ∧
      library'.io.store.files smallPath = some [0x61, 0x62] := by
  have extractable : Extractable (smallHeader 6) cutLibrary 0 cutDescriptor smallPath 2 :=
    extractable_libraryWith (by decide) (by decide) (by decide) (by decide) rfl (by decide)
  have layout : SplitAcross (smallHeader 6)
      (shelf ([[0x61], [0x62]].map (segmentVolume (smallHeader 6) 0))) 0 cutDescriptor 1
      (segmentVolume (smallHeader 6) 0 [0x61]) [[0x61], [0x62]] :=
    splitAcross_shelf [0x61] [[0x62]] rfl rfl (by decide) rfl (by decide) (by decide)
  exact fileSaveOld_stored smallLibraries cutLibrary 0 smallPath cutDescriptor 1
    (segmentVolume (smallHeader 6) 0 [0x61]) [[0x61], [0x62]] extractable (by decide) layout
    (by decide) rfl (by decide)

end Unshield
