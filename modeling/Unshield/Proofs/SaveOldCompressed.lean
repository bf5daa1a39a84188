/-
Module: Unshield.Proofs.SaveOldCompressed
Purpose: The old-format save function on compressed data: it returns exactly if the portions of the volumes
  come to an output, each one unpacked by itself, and then this is what it has written.
Trusted boundary: none
Main exports: chunkLoop_of_unpacks, unpacks_of_chunkLoop, SavingOld, saveOldLoop_of_unpacksEach,
  NothingBehind, unpacksEach_of_saveOldLoop, fileSaveOld_chunks
-/
import Unshield.Proofs.PortionChunks
import Unshield.Proofs.SaveOldStored
import Unshield.Proofs.SaveTurns

namespace Unshield

open Procedure

section

variable (libraries : Libraries) {archive : Archive} {left left' : UInt32}

/-! ### The chunk loop -/

/-- The variables of the chunk loop in front of the input from `start` on. -/
def chunkVars (memory : Block) (start : Nat) (size : UInt64) (left : UInt32) (total : UInt64) :
    ChunkVars :=
  { bytesLeft := left, totalWritten := total, inputBuffer := memory, chunkBuffer := start,
    inputSize := size }

/-- One chunk. -/
theorem chunkTurn_run {inner : Nat} {s : DiskSession} {memory terminated : Block} {start length : Nat}
    {size total : UInt64} {source output path written : Bytes} (unfinished : ¬ (size = 0 ∨ left = 0))
    (found : chunkSize memory start size.toNat = .ret (some length))
    (stored : memory.store (start + length) [0] = some terminated)
    (loaded : terminated.load start length = some source)
    (inflates : uncompressOld libraries.zlib inner bufferSize source =
      .ret { code := zOk, destLen := output.length, output })
    (writing : Writing s path written) (room : output.length ≤ s.io.store.room) :
    ∃ t, chunkTurn libraries.onDisk archive inner (chunkVars memory start size left total) s =
        (.ret (.again (chunkVars terminated (start + length + endOfChunk.length)
          (size - UInt64.ofNat length - UInt64.ofNat endOfChunk.length)
          (left - UInt32.ofNat output.length) (total + UInt64.ofNat output.length))), t) ∧
      Writing t path (written ++ output) ∧ SameInput s t ∧
      t.io.store.room = s.io.store.room - output.length := by
  obtain ⟨t, wrote, writing', input, left_room⟩ := fwriteOutput_run libraries writing room
  refine ⟨t, ?_, writing', input, left_room⟩
  rw [chunkTurn, if_neg (show ¬ ((chunkVars memory start size left total).inputSize = 0 ∨
    (chunkVars memory start size left total).bytesLeft = 0) from unfinished)]
  simp only [chunkVars, found, Proc.ofExit_ret_bind_run, stored, Proc.access_some_bind_run, loaded, inflates]
  rw [Proc.bind_of_ret (Proc.require_run_of rfl _), Proc.bind_of_ret wrote]
  rfl

/-- The chunk loop writes what its input comes to. -/
theorem chunkLoop_of_unpacks {memory memory' : Block} {start : Nat} {size : UInt64} {output : Bytes}
    (unpacks : Unpacks libraries.zlib memory start size left output memory' left') :
    ∃ enough, ∀ inner ≥ enough, ∀ fuel ≥ enough, ∀ {s : DiskSession} {path written : Bytes},
      Writing s path written → output.length ≤ s.io.store.room →
      ∃ t, Proc.iterate (chunkTurn libraries.onDisk archive inner) fuel
          (chunkVars memory start size left (UInt64.ofNat written.length)) s =
          (.ret { bytesLeft := left', totalWritten := UInt64.ofNat (written ++ output).length,
                  inputBuffer := memory' }, t) ∧
        Writing t path (written ++ output) ∧ SameInput s t ∧
        t.io.store.room = s.io.store.room - output.length := by
  induction unpacks with
  | @done memory start size left ended =>
      refine ⟨1, ?_⟩
      intro inner _ fuel enough s path written writing _
      obtain ⟨fuel, rfl⟩ := Nat.exists_eq_add_of_le' enough
      have turn : chunkTurn libraries.onDisk archive inner
          (chunkVars memory start size left (UInt64.ofNat written.length)) s =
          (.ret (.done { bytesLeft := left, totalWritten := UInt64.ofNat written.length,
                         inputBuffer := memory }), s) := by
        rw [chunkTurn, if_pos (show (chunkVars memory start size left _).inputSize = 0 ∨
          (chunkVars memory start size left _).bytesLeft = 0 from ended)]
        rfl
      rw [List.append_nil]
      exact ⟨s, Proc.iterate_succ_of_done turn, writing, .refl s, rfl⟩
  | @chunk _ _ _ _ _ _ _ _ _ output more unfinished found stored loaded inflates _ ih =>
      obtain ⟨enough₁, inflates⟩ := inflates
      obtain ⟨enough₂, ih⟩ := ih
      refine ⟨enough₁ + enough₂ + 1, ?_⟩
      intro inner enough_inner fuel enough s path written writing room
      rw [List.length_append] at room
      obtain ⟨more_inner, rfl⟩ := Nat.exists_eq_add_of_le (show enough₁ ≤ inner by omega)
      obtain ⟨fuel, rfl⟩ := Nat.exists_eq_add_of_le' (show 1 ≤ fuel by omega)
      obtain ⟨t, turn, writing', input, room'⟩ := @chunkTurn_run libraries archive _ (enough₁ + more_inner)
        _ _ _ _ _ _ (UInt64.ofNat written.length) _ _ _ _ unfinished found stored loaded
        (uncompressOld_mono inflates more_inner) writing (by omega)
      obtain ⟨u, loop, writing'', input', room''⟩ := ih (enough₁ + more_inner) (by omega) fuel (by omega)
        writing' (by rw [room']; omega)
      rw [List.append_assoc] at loop writing''
      refine ⟨u, ?_, writing'', input.trans input', by rw [room'', room', List.length_append]; omega⟩
      rw [Proc.iterate_succ_of_again turn, ← UInt64.ofNat_add, ← List.length_append]
      exact loop

/-- A chunk loop that has returned has written what its input comes to. -/
theorem unpacks_of_chunkLoop {inner : Nat} (fuel : Nat) :
    ∀ {s t : DiskSession} {vars : ChunkVars} {vars' : SaveOldVars} {path written : Bytes},
      Writing s path written →
      Proc.iterate (chunkTurn libraries.onDisk archive inner) fuel vars s = (.ret vars', t) →
      ∃ output, Unpacks libraries.zlib vars.inputBuffer vars.chunkBuffer vars.inputSize vars.bytesLeft
          output vars'.inputBuffer vars'.bytesLeft ∧
        Writing t path (written ++ output) ∧ SameInput s t := by
  induction fuel with
  | zero =>
      intro s t vars vars' path written _ run
      cases run
  | succ fuel ih =>
      intro s t vars vars' path written writing run
      rw [Proc.iterate] at run
      obtain ⟨outcome, u, turn, rest⟩ := Proc.bind_eq_ret_iff.1 run
      rcases chunkTurn_cases turn with
        ⟨ended, rfl, rfl⟩ | ⟨unfinished, length, terminated, result, expands, wrote, rfl⟩
      · obtain ⟨rfl, rfl⟩ := Proc.pure_eq_ret_iff.1 rest
        refine ⟨[], .done ended, ?_, .refl _⟩
        rw [List.append_nil]
        exact writing
      · obtain ⟨source, loaded, expanded⟩ := expands.expanded
        have counted := (uncompressOld_output expanded).2 expands.code
        obtain ⟨v, wrote', writing', input, _⟩ := fwriteOutput_run libraries writing
          (room_of_fwriteOutput libraries writing wrote)
        rw [wrote, Prod.mk.injEq] at wrote'
        obtain rfl := wrote'.2
        obtain ⟨more, others, writing'', input'⟩ := ih writing' rest
        rw [List.append_assoc] at writing''
        refine ⟨result.output ++ more, .chunk (not_or.2 unfinished) expands.cut expands.stored loaded
          ⟨inner, ?_⟩ ?_, writing'', input.trans input'⟩
        · show uncompressOld libraries.onDisk.zlib inner bufferSize source = _
          rw [expanded, ← counted, ← expands.code]
        · rw [← counted]
          exact others

/-! ### One volume -/

/-- What the outer loop has in front of it and behind it. -/
structure SavingOld (header : Header) (s : DiskSession) (vars : SaveOldVars) (current : Bytes)
    (rest : List Bytes) (stream path written : Bytes) : Prop extends Writing s path written where
  delivers : Delivers header s current rest stream
  solid : SegmentedStream.Solid rest
  compressed : s.fileDescriptor.Has fileCompressed
  positive : 0 < vars.inputBuffer.size

/-- All that is left of the volume is read; what remains is the chunk loop over it. -/
theorem saveOldCompressed_eq (inner : Nat) {s : DiskSession} {vars : SaveOldVars}
    {current stream path written : Bytes} {rest : List Bytes}
    (saving : SavingOld archive.header s vars current rest stream path written)
    (some_left : current ≠ []) :
    ∃ filled t, (vars.inputBuffer.resize (growBuffer (stream.take current.length).length
          (stream.take current.length).length vars.inputBuffer.size)).store 0
        (stream.take current.length) = some filled ∧ 0 < filled.size ∧
      saveOldCompressed libraries.onDisk archive inner vars s =
        Proc.iterate (chunkTurn libraries.onDisk archive inner) inner
          (chunkVars filled 0 (UInt64.ofNat (stream.take current.length).length) vars.bytesLeft
            vars.totalWritten) t ∧
      Writing t path written ∧ Delivers archive.header t [] rest (stream.drop current.length) ∧
      SameFile s t ∧ t.reader.volume = s.reader.volume := by
  have left := saving.delivers.left
  have positive := List.length_pos_iff.2 some_left
  obtain ⟨run, delivers⟩ := readerRead_within libraries saving.delivers positive (Nat.le_refl _)
  obtain ⟨_, run', _, same⟩ := readerRead_delivers libraries saving.delivers
    (SegmentedStream.read_of_le rest positive (Nat.le_refl current.length))
  rw [run, Prod.mk.injEq] at run'
  obtain rfl := run'.2
  rw [List.drop_length] at delivers
  have length : (stream.take current.length).length = current.length := by
    rw [List.length_take, saving.delivers.length, List.length_append]
    omega
  obtain ⟨filled, stored, filled_positive⟩ := exists_filled saving.positive (stream.take current.length)
  refine ⟨filled, _, stored, filled_positive, ?_, saving.toWriting.of_sameAround same.toSameAround,
    delivers, same, rfl⟩
  have size : s.reader.volumeBytesLeft.toUInt64 = UInt64.ofNat current.length := by
    rw [← left]
    exact UInt64.toNat_inj.1 (by
      rw [UInt32.toNat_toUInt64, UInt64.toNat_ofNat_of_lt'
        (Nat.lt_trans (UInt32.toNat_lt _) (show 2 ^ 32 < 2 ^ 64 by decide))])
  rw [length] at stored ⊢
  rw [saveOldCompressed, Proc.gets_bind_run]
  simp only [left, size]
  rw [Proc.bind_of_ret (readOrReport_eq_ret_iff.2 run)]
  simp only [stored, Proc.access_some_bind_run]
  rfl

/-- The volume is used up when its portion is unpacked. -/
theorem SavingOld.after {s t u : DiskSession} {vars : SaveOldVars} {current : Bytes}
    {stream stream' path written written' : Bytes} {rest : List Bytes}
    (saving : SavingOld archive.header s vars current rest stream path written)
    (vars' : SaveOldVars) (delivers : Delivers archive.header t [] rest stream') (same : SameFile s t)
    (input : SameInput t u) (writing : Writing u path written')
    (positive : 0 < vars'.inputBuffer.size) :
    SavingOld archive.header u vars' [] rest stream' path written' := by
  refine ⟨writing, delivers.of_sameInput input, saving.solid, ?_, positive⟩
  rw [input.fileDescriptor, same.fileDescriptor]
  exact saving.compressed

/-! ### One volume after the other -/

/-- The segments that the reader has not come to the end of. -/
def pending (current : Bytes) (rest : List Bytes) : List Bytes :=
  if current = [] then rest else current :: rest

/-- One turn of the outer loop: the volume that the reader stands in, or the next one if that is used
up. -/
theorem SavingOld.turn (inner : Nat) {s : DiskSession} {vars : SaveOldVars}
    {current stream path written : Bytes} {rest : List Bytes}
    (saving : SavingOld archive.header s vars current rest stream path written)
    (unfinished : vars.bytesLeft ≠ 0) (some_pending : pending current rest ≠ []) :
    ∃ t current' rest', SavingOld archive.header t vars current' rest' stream path written ∧
      current' ≠ [] ∧ SameFile s t ∧ pending current rest = current' :: rest' ∧
      t.reader.volume + rest'.length = s.reader.volume + rest.length ∧
      saveOldTurn libraries.onDisk archive inner vars s =
        (do
          let vars ← saveOldCompressed libraries.onDisk archive inner vars
          pure (.again vars) : Proc DiskSession (Proc.Turn SaveOldVars SaveOldVars)) t := by
  have some_stream : stream ≠ [] := by
    rintro rfl
    have nothing := saving.delivers.length.symm
    rw [List.length_nil, List.length_append] at nothing
    obtain rfl : current = [] := List.length_eq_zero_iff.1 (by omega)
    cases rest with
    | nil => exact some_pending rfl
    | cons next rest =>
        rw [List.flatten_cons, List.length_append] at nothing
        exact saving.solid next List.mem_cons_self (List.length_eq_zero_iff.1 (by omega))
  obtain ⟨t, current', rest', exhausted, delivers, some_left, solid, same, volume, split⟩ :=
    openExhausted_run libraries saving.delivers saving.solid some_stream
  have compressed : t.fileDescriptor.Has fileCompressed := by
    rw [same.fileDescriptor]
    exact saving.compressed
  refine ⟨t, current', rest', ⟨saving.toWriting.of_sameAround same.toSameAround, delivers, solid,
    compressed, saving.positive⟩, some_left, same, ?_, volume, ?_⟩
  · rw [pending]
    by_cases used_up : current = []
    · rw [if_pos used_up] at split ⊢
      exact (List.cons.inj split).2
    · rw [if_neg used_up] at split ⊢
      exact split
  · rw [saveOldTurn, if_neg unfinished, Proc.bind_of_ret exhausted, Proc.gets_bind_run, saveOldData,
      if_pos compressed]

/-- Volume after volume, the loop writes what the portions come to. -/
theorem saveOldLoop_of_unpacksEach {memory : Block} {parts : List Bytes} {output : Bytes}
    (unpacks : UnpacksEach libraries.zlib memory left parts output) :
    ∃ enough, ∀ inner ≥ enough, ∀ fuel ≥ enough, ∀ {s : DiskSession} {vars : SaveOldVars}
      {current stream path written : Bytes} {rest : List Bytes},
      SavingOld archive.header s vars current rest stream path written → vars.inputBuffer = memory →
      vars.bytesLeft = left → vars.totalWritten = UInt64.ofNat written.length →
      portions (pending current rest) stream = parts → output.length ≤ s.io.store.room →
      ∃ t vars', Proc.iterate (saveOldTurn libraries.onDisk archive inner) fuel vars s =
          (.ret vars', t) ∧
        Writing t path (written ++ output) ∧ t.fileDescriptor = s.fileDescriptor ∧
        vars'.totalWritten = UInt64.ofNat (written ++ output).length := by
  induction unpacks with
  | done =>
      refine ⟨1, ?_⟩
      intro inner _ fuel enough s vars current stream path written rest saving _ zero total _ _
      obtain ⟨fuel, rfl⟩ := Nat.exists_eq_add_of_le' enough
      rw [List.append_nil]
      exact ⟨s, vars, Proc.iterate_succ_of_done (saveOldTurn_done libraries inner zero),
        saving.toWriting, rfl, total⟩
  | @portion memory filled memory' left left' part output more parts unfinished read unpacks _ ih =>
      obtain ⟨enough₁, loop⟩ := chunkLoop_of_unpacks libraries unpacks
      obtain ⟨enough₂, ih⟩ := ih
      refine ⟨enough₁ + enough₂ + 1, ?_⟩
      intro inner enough_inner fuel enough s vars current stream path written rest saving holds counter total
        ahead room
      obtain ⟨fuel, rfl⟩ := Nat.exists_eq_add_of_le' (show 1 ≤ fuel by omega)
      have some_pending : pending current rest ≠ [] := by
        intro nothing
        rw [nothing] at ahead
        cases ahead
      obtain ⟨t, current', rest', saving', some_left, same, eq, _, turn⟩ :=
        saving.turn libraries inner (by rw [counter]; exact unfinished) some_pending
      rw [eq, portions_cons, List.cons.injEq] at ahead
      obtain ⟨rfl, rfl⟩ := ahead
      obtain ⟨filled', u, stored, positive, compressed, writing, delivers, same', _⟩ :=
        saveOldCompressed_eq libraries inner saving' some_left
      rw [holds, read, Option.some.injEq] at stored
      subst stored
      rw [List.length_append] at room
      have store : u.io.store = s.io.store := same'.store.trans same.store
      obtain ⟨v, run, writing', input, room'⟩ := loop inner (by omega) inner (by omega) writing
        (by rw [store]; omega)
      rw [counter, total, run] at compressed
      have next := saving'.after
        { bytesLeft := left', totalWritten := UInt64.ofNat (written ++ output).length,
          inputBuffer := memory' }
        delivers same' input writing' (by
          show 0 < memory'.size
          rw [unpacks.size_memory]
          exact positive)
      obtain ⟨w, vars', rest_run, writing'', descriptor, total'⟩ := ih inner (by omega) fuel (by omega) next
        rfl rfl rfl rfl (by rw [room', store]; omega)
      rw [List.append_assoc] at writing'' total'
      refine ⟨w, vars', ?_, writing'', ?_, total'⟩
      · rw [Proc.bind_of_ret compressed, Proc.pure_run] at turn
        rw [Proc.iterate_succ_of_again turn]
        exact rest_run
      · exact descriptor.trans (input.fileDescriptor.trans
          (same'.fileDescriptor.trans same.fileDescriptor))

/-- The volume behind those that hold the segments has no portion of the file, if there is one. -/
def NothingBehind (header : Header) (s : DiskSession) (rest : List Bytes) : Prop :=
  ∀ content volumeHeader,
    Opens header s.io.store.cabinets (s.reader.volume + rest.length + 1) content volumeHeader →
    selectPortion s.reader.index volumeHeader
      (markSplit header s.reader.index volumeHeader s.fileDescriptor) = none

/-- A turn does not return when all segments are used up and nothing lies behind them. -/
theorem saveOldTurn_noReturn {inner : Nat} {s : DiskSession} {vars : SaveOldVars}
    {stream path written : Bytes} (saving : SavingOld archive.header s vars [] [] stream path written)
    (unfinished : vars.bytesLeft ≠ 0) (behind : NothingBehind archive.header s []) :
    Proc.NoReturn (saveOldTurn libraries.onDisk archive inner vars) s := by
  intro outcome t run
  have zero : s.reader.volumeBytesLeft = 0 := UInt32.toNat_inj.1 saving.delivers.left
  rcases saveOldTurn_cases run with ⟨finished, _⟩ | ⟨_, u, next, opened, data, _⟩
  · exact unfinished finished
  · rw [openExhausted, Proc.gets_bind_run, if_pos zero, Proc.gets_bind_run] at opened
    obtain ⟨content, volumeHeader, opens, rfl⟩ := opens_of_readerOpenVolume libraries opened
    have nothing := behind content volumeHeader (by
      rw [List.length_nil]
      show Opens _ _ (s.reader.volume + 0 + 1) _ _
      rw [Int.add_zero]
      exact opens)
    rw [enterVolume] at data
    simp only [nothing] at data
    have compressed : (markSplit archive.header s.reader.index volumeHeader s.fileDescriptor).Has
        fileCompressed := by
      rcases markSplit_eq archive.header s.reader.index volumeHeader s.fileDescriptor with same | marked
      · rw [same]
        exact saving.compressed
      · rw [marked]
        exact (has_or_fileSplit (show fileSplit &&& fileCompressed = 0 from rfl) _).2 saving.compressed
    rw [saveOldData, if_pos compressed, saveOldCompressed, Proc.gets_bind_run] at data
    obtain ⟨_, v, read, _⟩ := Proc.bind_eq_ret_iff.1 data
    rw [zero] at read
    refine readOrReport_noReturn (readerRead_fails libraries (?_ : Stands archive.header _ [] [])
      (Or.inl rfl)) _ v read
    exact ⟨⟨_, rfl, rfl⟩, rfl, fun some_rest => absurd rfl some_rest⟩

/-- A loop that has returned has written what the portions come to. -/
theorem unpacksEach_of_saveOldLoop {inner : Nat} (fuel : Nat) :
    ∀ {s t : DiskSession} {vars vars' : SaveOldVars} {current stream path written : Bytes}
      {rest : List Bytes},
      SavingOld archive.header s vars current rest stream path written →
      NothingBehind archive.header s rest →
      Proc.iterate (saveOldTurn libraries.onDisk archive inner) fuel vars s = (.ret vars', t) →
      ∃ output, UnpacksEach libraries.zlib vars.inputBuffer vars.bytesLeft
          (portions (pending current rest) stream) output ∧
        Writing t path (written ++ output) := by
  induction fuel with
  | zero =>
      intro s t vars vars' current stream path written rest _ _ run
      cases run
  | succ fuel ih =>
      intro s t vars vars' current stream path written rest saving behind run
      by_cases zero : vars.bytesLeft = 0
      · rw [Proc.iterate_succ_of_done (saveOldTurn_done libraries inner zero), Prod.mk.injEq] at run
        obtain rfl := run.2
        refine ⟨[], by rw [zero]; exact .done, ?_⟩
        rw [List.append_nil]
        exact saving.toWriting
      · by_cases none_pending : pending current rest = []
        · -- the segments are used up
          obtain ⟨rfl, rfl⟩ : current = [] ∧ rest = [] := by
            rw [pending] at none_pending
            split at none_pending
            · rename_i used_up
              exact ⟨used_up, none_pending⟩
            · cases none_pending
          exact absurd run ((saveOldTurn_noReturn libraries saving zero behind).iterate fuel vars' t)
        · obtain ⟨u, current', rest', saving', some_left, same, eq, volume, turn⟩ :=
            saving.turn libraries inner zero none_pending
          obtain ⟨filled, v, stored, positive, compressed, writing, delivers, same', volume'⟩ :=
            saveOldCompressed_eq libraries inner saving' some_left
          rw [Proc.iterate] at run
          obtain ⟨outcome, w, turn', run⟩ := Proc.bind_eq_ret_iff.1 run
          rw [turn] at turn'
          obtain ⟨next, w', data, again⟩ := Proc.bind_eq_ret_iff.1 turn'
          obtain ⟨rfl, rfl⟩ := Proc.pure_eq_ret_iff.1 again
          rw [compressed] at data
          obtain ⟨output, unpacks, writing', input⟩ := unpacks_of_chunkLoop libraries inner writing data
          have after := saving'.after next delivers same' input writing' (by
            rw [unpacks.size_memory]
            exact positive)
          have behind' : NothingBehind archive.header w rest' := by
            rw [NothingBehind, input.cabinets, input.reader, input.fileDescriptor, same'.store, same'.index,
              same'.fileDescriptor, same.store, same.index, same.fileDescriptor, volume', volume]
            exact behind
          obtain ⟨more, others, writing''⟩ := ih after behind' run
          rw [List.append_assoc] at writing''
          refine ⟨output ++ more, ?_, writing''⟩
          rw [eq, portions_cons]
          exact .portion zero stored unpacks others

/-! ### The whole call -/

/-- The counter starts with the expanded size. -/
theorem saveOldStart_bytesLeft {fd : FileDescriptor} {n : Nat} (expanded : fd.expandedSize.toNat = n)
    (small : n < 2 ^ 32) : (saveOldStart libraries.onDisk fd).bytesLeft.toNat = n := by
  show fd.expandedSize.toUInt32.toNat = _
  rw [UInt64.toNat_toUInt32, expanded, Nat.mod_eq_of_lt small]

/-- The input buffer as it is allocated. -/
def freshInput : Block := { size := bufferSize, byte := libraries.garbage }

theorem size_freshInput : 0 < (freshInput libraries).size := show 0 < bufferSize by decide

/-- The loop is about to start. -/
theorem savingOld_start {s : DiskSession} {fd : FileDescriptor} {current stream path : Bytes}
    {rest : List Bytes} (writing : Writing s path [])
    (delivers : Delivers archive.header s current rest stream) (solid : SegmentedStream.Solid rest)
    (compressed : s.fileDescriptor.Has fileCompressed) :
    SavingOld archive.header s (saveOldStart libraries.onDisk fd) current rest stream path [] :=
  ⟨writing, delivers, solid, compressed, size_freshInput libraries⟩

/-- An old-format file in one volume is saved as the concatenation of its decompressed chunks to a file that
may be written, and so is no volume. -/
theorem fileSaveOld_chunks (library : Library Disk) (index : Int) (path : Bytes)
    (fd : FileDescriptor) (content stored : Bytes) (chunks outputs : List Bytes)
    (extractable : Extractable archive.header library index fd path outputs.flatten.length)
    (compressed : fd.Has fileCompressed)
    (layout : StoredAt archive.header library.io.store.cabinets index fd content stored)
    (outside : fd.dataOffset.toNat ≠ content.length)
    (stream : clearBytes fd 0 stored = joined chunks)
    (inner : ∀ chunk ∈ chunks, ∀ position, Occurrence.Occurs endOfChunk chunk position →
      ∃ byte, chunk[position + endOfChunk.length]? = some byte ∧ byte &&& 1 = 1)
    (follow : ∀ chunk ∈ chunks.tail, ∀ byte, chunk.head? = some byte → byte &&& 1 = 0)
    (inflates : List.Forall₂ (InflatesOld libraries.zlib) chunks outputs)
    (expanded : fd.expandedSize.toNat = outputs.flatten.length)
    (small : outputs.flatten.length < 2 ^ 32) :
    ∃ enough, ∀ fuel ≥ enough, ∃ library',
      fileSaveOld libraries.onDisk archive fuel index (some path) library = (.ret (), library') ∧
      library'.io.store.files path = some outputs.flatten := by
  obtain ⟨one, two, eq, extracts⟩ := exists_extracts inflates
    (saveOldStart_bytesLeft libraries expanded small)
  have segmented := segmented_of_conditions inner follow
  rw [eq] at segmented
  have in_stream : Segmented one (joined two) := by
    have front := segmented.left
    rwa [List.append_nil] at front
  have clear : clearBytes fd 0 stored = joined one ++ joined two := by rw [stream, eq, joined_append]
  have length : stored.length = (joined one ++ joined two).length := by
    rw [← clear, length_clearBytes]
  -- what the only portion comes to
  have cuts : CutsBetween [stored] one := by
    intro position isEnd inside
    rw [List.length_append] at length
    rcases isEnd with here | ⟨_, nothing⟩
    · omega
    · exact absurd nothing id
  have unpacks : UnpacksEach libraries.zlib (freshInput libraries)
      (saveOldStart libraries.onDisk fd).bytesLeft (portions (pending stored []) (joined one ++ joined two))
      outputs.flatten := by
    by_cases nothing : stored = []
    · obtain rfl : one = [] := by
        cases one with
        | nil => rfl
        | cons chunk one =>
            rw [nothing, List.length_append, length_joined_cons] at length
            exact absurd length (show ¬ 0 = _ + 4 + _ + _ by omega)
      obtain ⟨zero, empty⟩ := extracts.of_nil
      rw [zero, empty]
      exact .done
    · rw [pending, if_neg nothing]
      exact unpacksEach_of_cutsBetween [stored] (size_freshInput libraries)
        (by rw [List.flatten_singleton]; exact length)
        (by rw [List.flatten_singleton]; exact Nat.lt_trans layout.size_lt (by decide)) in_stream cuts
        extracts
  obtain ⟨enough, runs⟩ := saveOldLoop_of_unpacksEach libraries unpacks
  refine ⟨enough + 2, ?_⟩
  intro fuel le
  obtain ⟨fuel, rfl⟩ : ∃ more, fuel = more + 1 := ⟨fuel - 1, by omega⟩
  obtain ⟨remembered, io, session⟩ := saveThroughLinks_run libraries
    (saveOld libraries.onDisk archive (some path)) fuel extractable
  -- the reader and the output file
  rw [← io] at layout
  obtain ⟨s, created, delivers, opened, descriptor, _, readIo, _⟩ :=
    readerCreate_stored libraries layout (show 0 < fuel by omega)
  obtain ⟨t, output, writing, input, room⟩ := fopenOutput_run libraries
    (show s.io.store.writable path = true by rw [readIo, io]; exact extractable.writable)
  have descriptor' : t.fileDescriptor = fd := input.fileDescriptor.trans descriptor
  -- the loop
  rw [clear] at delivers
  have saving := @savingOld_start libraries archive t fd _ _ path _ writing (delivers.of_sameInput input)
    (fun segment member => absurd member List.not_mem_nil) (by rw [descriptor']; exact compressed)
  have fits : outputs.flatten.length ≤ t.io.store.room := by
    refine Nat.le_trans ?_ room
    rw [readIo, io]
    exact extractable.room
  obtain ⟨u, vars, run, saved, descriptor'', total⟩ := runs fuel (by omega) fuel (by omega) saving rfl rfl
    rfl rfl fits
  rw [← descriptor'] at run
  have call := saveOld_of_loop libraries created opened (by rw [descriptor]; exact outside) output run
    total (by rw [descriptor'', descriptor']; exact expanded)
  -- the way back
  obtain ⟨library', returned, closed⟩ := runSession_ret libraries call
  refine ⟨library', by rw [fileSaveOld, session]; exact returned, ?_⟩
  rw [closed, closeSession_store]
  exact saved.file

end

/-! ### Two chunks in one volume -/

def chunkDescriptor : FileDescriptor :=
  { flags := fileCompressed, expandedSize := 2, compressedSize := 14, dataOffset := 60, volume := 1 }

def twoChunks : List Bytes := [[0x4a, 0x04, 0x00], [0x4a, 0x02, 0x00]]

def chunkVolume : Bytes := storedVolume (smallHeader 0) (joined twoChunks)

def chunkLibrary : Library Disk :=
  libraryWith chunkDescriptor (shelfDisk [chunkVolume] 2 (by decide) room_two_lt)

theorem twoChunks_inner : ∀ chunk ∈ twoChunks, ∀ position,
    Occurrence.Occurs endOfChunk chunk position →
      ∃ byte, chunk[position + endOfChunk.length]? = some byte ∧ byte &&& 1 = 1 := by
  intro chunk member position occurs
  -- a chunk of three bytes has no room for a marker
  have short : ∀ chunk ∈ twoChunks, chunk.length = 3 := by decide
  have inside := Occurrence.le_length_of_occurs (by decide) occurs
  rw [short chunk member] at inside
  exact absurd inside (show ¬ position + 4 ≤ 3 by omega)

theorem twoChunks_follow : ∀ chunk ∈ twoChunks.tail, ∀ byte, chunk.head? = some byte →
    byte &&& 1 = 0 := by
  intro chunk member byte first
  obtain rfl := List.mem_singleton.1 member
  rw [← Option.some.inj first]
  rfl

theorem fileSaveOld_chunks_two_chunks :
    ∃ enough, ∀ fuel ≥ enough, ∃ library',
      fileSaveOld smallLibraries.onDisk (smallArchive 0) fuel 0 (some smallPath) chunkLibrary =
        (.ret (), library') ∧
      library'.io.store.files smallPath = some [0x61, 0x62] := by
  have extractable : Extractable (smallHeader 0) chunkLibrary 0 chunkDescriptor smallPath 2 :=
    extractable_libraryWith (by decide) (by decide) (by decide) (by decide) rfl (by decide)
  have layout : StoredAt (smallHeader 0) (shelf [chunkVolume]) 0 chunkDescriptor chunkVolume
      (joined twoChunks) :=
    storedAt_shelf (by decide) (by decide) rfl rfl rfl (by decide)
  exact fileSaveOld_chunks smallLibraries chunkLibrary 0 smallPath chunkDescriptor chunkVolume
    (joined twoChunks) twoChunks [[0x61], [0x62]] extractable (by decide) layout (by decide) rfl
    twoChunks_inner twoChunks_follow (.cons ⟨2, rfl⟩ (.cons ⟨2, rfl⟩ .nil)) rfl (by decide)

end Unshield
