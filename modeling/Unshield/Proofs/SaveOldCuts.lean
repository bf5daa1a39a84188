/-
Module: Unshield.Proofs.SaveOldCuts
Purpose: When the extraction of old-format compressed data does not depend on where the volumes are
  cut: exactly when the portions of the volumes, each one unpacked by itself, come to the bytes that the
  uncut stream is extracted to.
Trusted boundary: none
Main exports: InOneVolume, InVolumes, unpacksEach_of_saveOld, fileSaveOld_returned, saveOld_cut_iff,
  fileSaveOld_cut_iff
-/
import Unshield.Proofs.SaveIntegrity
import Unshield.Proofs.SaveOldCompressed

namespace Unshield

open Procedure

/-- The only volume of a cabinet holds a compressed file. -/
structure InOneVolume (header : Header) (library : Library Disk) (index : Int) (fd : FileDescriptor)
    (stored : Bytes) : Prop where
  describes : Describes header library index fd
  unlinked : fd.linkFlags &&& linkPrev = 0
  compressed : fd.Has fileCompressed
  layout : ∃ content, StoredAt header library.io.store.cabinets index fd content stored ∧
    fd.dataOffset.toNat ≠ content.length
  alone : library.io.store.cabinets (fd.volume.toNat + 1) = none

/-- The volumes from `start` on hold the segments of a compressed file, and a volume behind them holds
nothing of it. -/
structure CutAcross (header : Header) (cabinets : Int → Option Bytes) (index : Int)
    (fd : FileDescriptor) (start : UInt16) (content : Bytes) (segments : List Bytes) : Prop where
  split : SplitAcross header cabinets index fd start content segments
  outside : fd.dataOffset.toNat ≠ content.length
  behind : ∀ content volumeHeader,
    Opens header cabinets (start.toNat + segments.length) content volumeHeader →
      selectPortion (UInt32.ofInt index) volumeHeader (splitDescriptor fd start) = none

/-- The volumes of a cabinet hold the segments of a compressed file, for which there is room. -/
structure InVolumes (header : Header) (library : Library Disk) (index : Int) (fd : FileDescriptor)
    (path : Bytes) (size : Nat) (segments : List Bytes) : Prop where
  extractable : Extractable header library index fd path size
  compressed : fd.Has fileCompressed
  layout : ∃ start content, CutAcross header library.io.store.cabinets index fd start content segments

/-- What the extraction of a file uses of its descriptor. -/
structure SameContent (fd fd' : FileDescriptor) : Prop where
  expandedSize : fd'.expandedSize = fd.expandedSize
  obfuscated : fd'.Has fileObfuscated ↔ fd.Has fileObfuscated

theorem SameContent.clearBytes_eq {fd fd' : FileDescriptor} (same : SameContent fd fd') (stored : Bytes) :
    clearBytes fd' 0 stored = clearBytes fd 0 stored := by
  rw [clearBytes, clearBytes]
  simp only [same.obfuscated]

section

variable (libraries : Libraries) {archive : Archive}

/-! ### What an extraction that has returned has done -/

/-- A call that has returned has made its output of the portions. -/
theorem unpacksEach_of_saveOld {fuel : Nat} {index : Int} {s₀ s t : DiskSession} {file : Stream}
    {path current stream : Bytes} {rest : List Bytes}
    (created : readerCreate libraries.onDisk archive.header fuel index s₀ = (.ret (), s))
    (opened : s.reader.volumeFile = some file)
    (outside : s.fileDescriptor.dataOffset.toNat ≠ file.content.length)
    (delivers : Delivers archive.header s current rest stream) (solid : SegmentedStream.Solid rest)
    (compressed : s.fileDescriptor.Has fileCompressed) (behind : NothingBehind archive.header s rest)
    (run : saveOld libraries.onDisk archive (some path) fuel index s₀ = (.ret (), t)) :
    ∃ output, UnpacksEach libraries.zlib (freshInput libraries) s.fileDescriptor.expandedSize.toUInt32
        (portions (pending current rest) stream) output ∧ Writing t path output := by
  rw [saveOld, Proc.bind_of_ret (createOldReader_run libraries created opened outside)] at run
  obtain ⟨_, u, output, run⟩ := Proc.bind_eq_ret_iff.1 run
  obtain ⟨u', output', writing, input, _⟩ :=
    fopenOutput_run libraries (writable_of_fopenOutput libraries output)
  rw [output, Prod.mk.injEq] at output'
  obtain rfl := output'.2
  rw [Proc.gets_bind_run] at run
  obtain ⟨vars, v, loop, run⟩ := Proc.bind_eq_ret_iff.1 run
  rw [Proc.gets_bind_run] at run
  obtain ⟨_, rfl⟩ := Proc.require_eq_ret_iff.1 run
  have saving := @savingOld_start libraries archive u u.fileDescriptor current stream path rest writing
    (delivers.of_sameInput input) solid (by rw [input.fileDescriptor]; exact compressed)
  have behind' : NothingBehind archive.header u rest := by
    rw [NothingBehind, input.cabinets, input.reader, input.fileDescriptor]
    exact behind
  obtain ⟨output, unpacks, writing'⟩ := unpacksEach_of_saveOldLoop libraries fuel saving behind' loop
  refine ⟨output, ?_, writing'⟩
  rw [← input.fileDescriptor]
  exact unpacks

/-- What a successful extraction from one volume has done. -/
theorem fileSaveOld_returned {library library' : Library Disk} {index : Int} {path stored out : Bytes}
    {fd : FileDescriptor} {fuel : Nat} (there : InOneVolume archive.header library index fd stored)
    (run : fileSaveOld libraries.onDisk archive fuel index (some path) library = (.ret (), library'))
    (saved : library'.io.store.files path = some out) :
    UnpacksEach libraries.zlib (freshInput libraries) fd.expandedSize.toUInt32
        (portions (pending stored []) (clearBytes fd 0 stored)) out ∧
      fd.expandedSize.toNat = out.length := by
  obtain ⟨remembered, found, io⟩ := getFileDescriptor_run there.describes
  obtain ⟨content, layout, outside⟩ := there.layout
  cases fuel with
  | zero => cases run
  | succ fuel =>
      rw [fileSaveOld, saveThroughLinks, Proc.bind_of_ret found] at run
      obtain ⟨_, run⟩ := Proc.require_bind_eq_ret_iff.1 run
      rw [if_neg (not_not_intro there.unlinked)] at run
      obtain ⟨t, session, closed⟩ := runSession_eq_ret libraries run
      rw [closed, closeSession_store] at saved
      obtain ⟨intact, size⟩ : t.io.store.files path = some out ∧ out.length = fd.expandedSize.toNat := by
        obtain ⟨out', intact, length⟩ :=
          saveOld_ensures libraries fuel index _ () t (records_start fd remembered.io) session
        obtain rfl := Option.some.inj (intact.file.symm.trans saved)
        exact ⟨intact.file, length⟩
      refine ⟨?_, size.symm⟩
      cases fuel with
      | zero =>
          rw [saveOld, createOldReader] at session
          obtain ⟨_, _, created, _⟩ := Proc.bind_eq_ret_iff.1 session
          obtain ⟨_, _, created, _⟩ := Proc.bind_eq_ret_iff.1 created
          rw [readerCreate] at created
          cases created
      | succ fuel =>
          rw [← io] at layout
          obtain ⟨s, created, delivers, opened, descriptor, _, readIo, volume⟩ :=
            readerCreate_stored libraries layout (Nat.zero_lt_succ fuel)
          have behind : NothingBehind archive.header s [] := by
            intro content volumeHeader opens
            have cabinet : s.io.store.cabinets (s.reader.volume + 0 + 1) = some content := opens.cabinet
            rw [Int.add_zero, volume, readIo, io, there.alone] at cabinet
            cases cabinet
          obtain ⟨output, unpacks, writing⟩ := unpacksEach_of_saveOld libraries created opened
            (by rw [descriptor]; exact outside) delivers
            (fun segment member => absurd member List.not_mem_nil)
            (by rw [descriptor]; exact there.compressed) behind session
          obtain rfl := Option.some.inj (writing.file.symm.trans saved)
          rw [descriptor] at unpacks
          exact unpacks

/-! ### The stream in several volumes -/

/-- A call on a valid file returns exactly if its session does. -/
theorem fileSaveOld_ret_iff {library : Library Disk} {index : Int} {fd : FileDescriptor}
    {path out : Bytes} {size : Nat} (fuel : Nat)
    (extractable : Extractable archive.header library index fd path size) :
    (∃ library', fileSaveOld libraries.onDisk archive (fuel + 1) index (some path) library =
        (.ret (), library') ∧ library'.io.store.files path = some out) ↔
      ∃ t, saveOld libraries.onDisk archive (some path) fuel index (startSession fd library.io) =
        (.ret (), t) ∧ t.io.store.files path = some out := by
  obtain ⟨remembered, io, session⟩ := saveThroughLinks_run libraries
    (saveOld libraries.onDisk archive (some path)) fuel extractable
  rw [fileSaveOld, session, ← io]
  constructor
  · rintro ⟨library', run, file⟩
    obtain ⟨t, run, closed⟩ := runSession_eq_ret libraries run
    rw [closed, closeSession_store] at file
    exact ⟨t, run, file⟩
  · rintro ⟨t, run, file⟩
    obtain ⟨library', run, closed⟩ := runSession_ret libraries run
    refine ⟨library', run, ?_⟩
    rw [closed, closeSession_store]
    exact file

/-- The reader that stands in front of the first segment, and what it delivers from there on. -/
theorem readerCreate_cut {index : Int} {fd : FileDescriptor} {io : Disk} {start : UInt16}
    {content first : Bytes} {rest : List Bytes}
    (layout : CutAcross archive.header io.store.cabinets index fd start content (first :: rest))
    {fuel : Nat} (enough : start.toNat - fd.volume.toNat < fuel) :
    ∃ s file, readerCreate libraries.onDisk archive.header fuel index (startSession fd io) =
        (.ret (), s) ∧ s.reader.volumeFile = some file ∧
      s.fileDescriptor.dataOffset.toNat ≠ file.content.length ∧
      s.fileDescriptor = splitDescriptor fd start ∧ s.io.store = io.store ∧
      Delivers archive.header s first rest (clearBytes fd 0 (first :: rest).flatten) ∧
      NothingBehind archive.header s rest := by
  obtain ⟨s, created, ⟨position, opened⟩, descriptor, _, store, stands⟩ :=
    readerCreate_split libraries layout.split enough
  obtain ⟨index_eq, volume, delivers⟩ := stands first rest rfl
  refine ⟨s, _, created, opened, by rw [descriptor]; exact layout.outside, descriptor, store, delivers, ?_⟩
  intro content' volumeHeader opens
  rw [descriptor, markSplit_of_has (splitDescriptor_has fd start), index_eq]
  apply layout.behind content' volumeHeader
  rw [store, volume, Int.add_assoc] at opens
  rw [List.length_cons, Int.natCast_add]
  exact opens

/-- A file without stored bytes, and without a size, is extracted to nothing. -/
theorem saveOld_nothing {index : Int} {fd : FileDescriptor} {io : Disk} {path : Bytes} {start : UInt16}
    {content : Bytes} (layout : CutAcross archive.header io.store.cabinets index fd start content [])
    (writable : io.store.writable path = true) (zero : fd.expandedSize = 0) {fuel : Nat}
    (enough : start.toNat + 1 ≤ fuel) :
    ∃ t, saveOld libraries.onDisk archive (some path) fuel index (startSession fd io) = (.ret (), t) ∧
      t.io.store.files path = some [] := by
  obtain ⟨s, created, ⟨position, opened⟩, descriptor, _, store, _⟩ := readerCreate_split libraries
    layout.split (show start.toNat - fd.volume.toNat < fuel by omega)
  obtain ⟨t, output, writing, input, _⟩ := fopenOutput_run libraries
    (show s.io.store.writable path = true by rw [store]; exact writable)
  have size : t.fileDescriptor.expandedSize = 0 := by
    rw [input.fileDescriptor, descriptor]
    exact zero
  have finished : (saveOldStart libraries.onDisk t.fileDescriptor).bytesLeft = 0 := by
    rw [saveOldStart, size]
    rfl
  have total : (saveOldStart libraries.onDisk t.fileDescriptor).totalWritten =
      UInt64.ofNat ([] : Bytes).length := rfl
  have expanded : t.fileDescriptor.expandedSize.toNat = ([] : Bytes).length := congrArg UInt64.toNat size
  obtain ⟨more, rfl⟩ := Nat.exists_eq_add_of_le' (show 1 ≤ fuel by omega)
  exact ⟨t, saveOld_of_loop libraries created opened (by rw [descriptor]; exact layout.outside) output
    (Proc.iterate_succ_of_done (saveOldTurn_done libraries _ finished)) total expanded, writing.file⟩

/-- A cut stream is extracted to what its portions come to. -/
theorem saveOld_of_unpacksEach {index : Int} {fd : FileDescriptor} {io : Disk} {path out : Bytes}
    {first : Bytes} {rest : List Bytes} {start : UInt16} {content : Bytes}
    (layout : CutAcross archive.header io.store.cabinets index fd start content (first :: rest))
    (compressed : fd.Has fileCompressed) (writable : io.store.writable path = true)
    (room : out.length ≤ io.store.room) (expanded : fd.expandedSize.toNat = out.length)
    (unpacks : UnpacksEach libraries.zlib (freshInput libraries) fd.expandedSize.toUInt32
      (portions (first :: rest) (clearBytes fd 0 (first :: rest).flatten)) out) :
    ∃ enough, ∀ fuel ≥ enough, ∃ t,
      saveOld libraries.onDisk archive (some path) fuel index (startSession fd io) = (.ret (), t) ∧
        t.io.store.files path = some out := by
  have solid := layout.split.solid
  have ahead : pending first rest = first :: rest := if_neg (solid first List.mem_cons_self)
  obtain ⟨enough, runs⟩ := @saveOldLoop_of_unpacksEach libraries archive _ _ _ _ unpacks
  refine ⟨enough + start.toNat + 1, ?_⟩
  intro fuel le
  obtain ⟨s, file, created, opened, outside, descriptor, store, delivers, _⟩ :=
    readerCreate_cut libraries layout (show start.toNat - fd.volume.toNat < fuel by omega)
  obtain ⟨t, output, writing, input, room'⟩ := fopenOutput_run libraries
    (show s.io.store.writable path = true by rw [store]; exact writable)
  have descriptor' : t.fileDescriptor = splitDescriptor fd start := input.fileDescriptor.trans descriptor
  have saving := @savingOld_start libraries archive t t.fileDescriptor first _ path rest writing
    (delivers.of_sameInput input) (fun segment member => solid segment (List.mem_cons_of_mem _ member))
    (by rw [descriptor']; exact (splitDescriptor_compressed_iff fd start).2 compressed)
  obtain ⟨u, vars, run, saved, descriptor'', total⟩ := runs fuel (by omega) fuel (by omega) saving rfl
    (by rw [descriptor']; rfl) rfl (by rw [ahead]) (Nat.le_trans room (by rw [← store]; exact room'))
  have call := saveOld_of_loop libraries created opened outside output run total
    (by rw [descriptor'', descriptor']; exact expanded)
  exact ⟨u, call, saved.file⟩

/-- What a cut stream is extracted to comes of its portions. -/
theorem unpacksEach_of_cut {index : Int} {fd : FileDescriptor} {io : Disk} {path out : Bytes}
    {first : Bytes} {rest : List Bytes} {start : UInt16} {content : Bytes} {t : DiskSession} {fuel : Nat}
    (layout : CutAcross archive.header io.store.cabinets index fd start content (first :: rest))
    (compressed : fd.Has fileCompressed) (enough : start.toNat + 1 ≤ fuel)
    (run : saveOld libraries.onDisk archive (some path) fuel index (startSession fd io) = (.ret (), t))
    (saved : t.io.store.files path = some out) :
    UnpacksEach libraries.zlib (freshInput libraries) fd.expandedSize.toUInt32
      (portions (first :: rest) (clearBytes fd 0 (first :: rest).flatten)) out := by
  have solid := layout.split.solid
  have ahead : pending first rest = first :: rest := if_neg (solid first List.mem_cons_self)
  obtain ⟨s, file, created, opened, outside, descriptor, _, delivers, behind⟩ :=
    readerCreate_cut libraries layout (show start.toNat - fd.volume.toNat < fuel by omega)
  obtain ⟨output, comes, writing⟩ := unpacksEach_of_saveOld libraries created opened outside delivers
    (fun segment member => solid segment (List.mem_cons_of_mem _ member))
    (by rw [descriptor]; exact (splitDescriptor_compressed_iff fd start).2 compressed) behind run
  obtain rfl := Option.some.inj (writing.file.symm.trans saved)
  rw [ahead, descriptor] at comes
  exact comes

/-- The session of a cut stream gives an output exactly if the portions come to it. -/
theorem saveOld_cut_iff {index : Int} {fd : FileDescriptor} {io : Disk} {path out : Bytes}
    {segments : List Bytes} {start : UInt16} {content : Bytes}
    (layout : CutAcross archive.header io.store.cabinets index fd start content segments)
    (compressed : fd.Has fileCompressed) (writable : io.store.writable path = true)
    (room : out.length ≤ io.store.room) (expanded : fd.expandedSize.toNat = out.length)
    (empty : segments = [] → out = []) :
    ∃ enough, ∀ fuel ≥ enough,
      (∃ t, saveOld libraries.onDisk archive (some path) fuel index (startSession fd io) =
          (.ret (), t) ∧ t.io.store.files path = some out) ↔
        UnpacksEach libraries.zlib (freshInput libraries) fd.expandedSize.toUInt32
          (portions segments (clearBytes fd 0 segments.flatten)) out := by
  cases segments with
  | nil =>
      obtain rfl := empty rfl
      have zero : fd.expandedSize = 0 := UInt64.toNat_inj.1 expanded
      refine ⟨start.toNat + 1, ?_⟩
      intro fuel enough
      rw [zero]
      exact iff_of_true (saveOld_nothing libraries layout writable zero enough) .done
  | cons first rest =>
      by_cases unpacks : UnpacksEach libraries.zlib (freshInput libraries) fd.expandedSize.toUInt32
          (portions (first :: rest) (clearBytes fd 0 (first :: rest).flatten)) out
      · obtain ⟨enough, returns⟩ :=
          saveOld_of_unpacksEach libraries layout compressed writable room expanded unpacks
        exact ⟨enough, fun fuel le => iff_of_true (returns fuel le) unpacks⟩
      · refine ⟨start.toNat + 1, ?_⟩
        intro fuel le
        refine iff_of_false ?_ unpacks
        rintro ⟨t, run, saved⟩
        exact unpacks (unpacksEach_of_cut libraries layout compressed le run saved)

/-- A stream that is extracted from one volume is extracted to the same bytes from several exactly if the
portions of the volumes, each one unpacked by itself, come to these bytes. -/
theorem fileSaveOld_cut_iff (archive' : Archive) (library library' cutLibrary : Library Disk)
    (index index' : Int) (path path' stored out : Bytes) (fd fd' : FileDescriptor) (segments : List Bytes)
    (fuel : Nat) (whole : InOneVolume archive.header library index fd stored)
    (returned : fileSaveOld libraries.onDisk archive fuel index (some path) library = (.ret (), library'))
    (saved : library'.io.store.files path = some out)
    (cut : InVolumes archive'.header cutLibrary index' fd' path' out.length segments)
    (same : SameContent fd fd') (partition : segments.flatten = stored) :
    ∃ enough, ∀ fuel ≥ enough,
      (∃ library'', fileSaveOld libraries.onDisk archive' fuel index' (some path') cutLibrary =
          (.ret (), library'') ∧ library''.io.store.files path' = some out) ↔
        UnpacksEach libraries.zlib (freshInput libraries) fd.expandedSize.toUInt32
          (portions segments (clearBytes fd 0 stored)) out := by
  obtain ⟨unpacks, expanded⟩ := fileSaveOld_returned libraries whole returned saved
  obtain ⟨start, content, layout⟩ := cut.layout
  have empty : segments = [] → out = [] := by
    rintro rfl
    obtain rfl : stored = [] := partition.symm
    exact UnpacksEach.of_nil unpacks
  have session := saveOld_cut_iff libraries layout cut.compressed cut.extractable.writable
    cut.extractable.room (by rw [same.expandedSize]; exact expanded) empty
  rw [same.expandedSize, same.clearBytes_eq, partition] at session
  obtain ⟨enough, session⟩ := session
  refine ⟨enough + 1, ?_⟩
  intro fuel le
  obtain ⟨fuel, rfl⟩ := Nat.exists_eq_add_of_le' (show 1 ≤ fuel by omega)
  exact (fileSaveOld_ret_iff libraries fuel cut.extractable).trans (session fuel (by omega))

end

/-! ### Two letters in two volumes -/

/-- The descriptor of the stored bytes when they are cut. -/
def cutChunkDescriptor : FileDescriptor :=
  { chunkDescriptor with flags := fileSplit ||| fileCompressed }

/-- The two chunks, cut behind the first byte of the first one. -/
def insideChunk : List Bytes := [[0x4a], (joined twoChunks).tail]

/-- One chunk of two letters with a marker between them: the byte behind that marker is odd. -/
def markedChunk : List Bytes := [[0x4a, 0x04, 0x00, 0x00, 0x00, 0xff, 0xff, 0x4b, 0x02, 0x00]]

/-- The chunk, cut behind the marker inside it. -/
def behindMarker : List Bytes := [joined [[0x4a, 0x04, 0x00]], joined [[0x4b, 0x02, 0x00]]]

def cutChunkLibrary (segments : List Bytes)
    (short : ∀ content ∈ segments.map (segmentVolume (smallHeader 0) 0), content.length < 2 ^ 63) :
    Library Disk :=
  libraryWith cutChunkDescriptor
    (shelfDisk (segments.map (segmentVolume (smallHeader 0) 0)) 2 short room_two_lt)

/-- The chunk with the marker in one volume. -/
def markedLibrary : Library Disk :=
  libraryWith chunkDescriptor
    (shelfDisk [storedVolume (smallHeader 0) (joined markedChunk)] 2 (by decide) room_two_lt)

theorem chunkLibrary_inOneVolume :
    InOneVolume (smallHeader 0) chunkLibrary 0 chunkDescriptor (joined twoChunks) where
  describes := rfl
  unlinked := by decide
  compressed := by decide
  layout := ⟨chunkVolume, storedAt_shelf (by decide) (by decide) rfl rfl rfl (by decide), by decide⟩
  alone := rfl

theorem markedLibrary_inOneVolume :
    InOneVolume (smallHeader 0) markedLibrary 0 chunkDescriptor (joined markedChunk) where
  describes := rfl
  unlinked := by decide
  compressed := by decide
  layout := ⟨_, storedAt_shelf (by decide) (by decide) rfl rfl rfl (by decide), by decide⟩
  alone := rfl

/-- Behind the volumes of a shelf there is none. -/
theorem shelf_behind (volumes : List Bytes) : shelf volumes (1 + volumes.length) = none := by
  rw [shelf, if_pos (by omega), List.getElem?_eq_none (by omega)]

theorem cutChunkLibrary_inVolumes {first : Bytes} {rest : List Bytes}
    (short : ∀ content ∈ (first :: rest).map (segmentVolume (smallHeader 0) 0),
      content.length < 2 ^ 63)
    (solid : SegmentedStream.Solid (first :: rest))
    (small : ∀ segment ∈ first :: rest, segment.length < 2 ^ 32) :
    InVolumes (smallHeader 0) (cutChunkLibrary (first :: rest) short) 0 cutChunkDescriptor smallPath 2
      (first :: rest) where
  extractable :=
    extractable_libraryWith (by decide) (by decide) (by decide) (by decide) rfl (Nat.le_refl _)
  compressed := by decide
  layout := by
    refine ⟨1, segmentVolume (smallHeader 0) 0 first,
      splitAcross_shelf first rest rfl rfl (by decide) rfl solid small, ?_, ?_⟩
    · have offset : cutChunkDescriptor.dataOffset.toNat = dataStart (smallHeader 0) := rfl
      rw [offset, segmentVolume, volumeBytes, List.length_append, List.length_append,
        length_commonHeaderWords, length_volumeHeaderWords, dataStart]
      have some_first := List.length_pos_iff.2 (solid first List.mem_cons_self)
      omega
    · intro content volumeHeader opens
      have nothing := shelf_behind ((first :: rest).map (segmentVolume (smallHeader 0) 0))
      rw [List.length_map] at nothing
      exact absurd (nothing.symm.trans opens.cabinet) (Option.some_ne_none content).symm

theorem chunkLibrary_saved :
    ∃ library', fileSaveOld smallLibraries.onDisk (smallArchive 0) 9 0 (some smallPath) chunkLibrary =
        (.ret (), library') ∧ library'.io.store.files smallPath = some [0x61, 0x62] := by
  have returned : (fileSaveOld smallLibraries.onDisk (smallArchive 0) 9 0 (some smallPath)
      chunkLibrary).1 = .ret () := by decide +kernel
  have file : (fileSaveOld smallLibraries.onDisk (smallArchive 0) 9 0 (some smallPath)
      chunkLibrary).2.io.store.files smallPath = some [0x61, 0x62] := by decide +kernel
  exact ⟨_, Proc.run_eq_ret returned, file⟩

theorem markedLibrary_saved :
    ∃ library', fileSaveOld smallLibraries.onDisk (smallArchive 0) 9 0 (some smallPath) markedLibrary =
        (.ret (), library') ∧ library'.io.store.files smallPath = some [0x61, 0x62] := by
  have returned : (fileSaveOld smallLibraries.onDisk (smallArchive 0) 9 0 (some smallPath)
      markedLibrary).1 = .ret () := by decide +kernel
  have file : (fileSaveOld smallLibraries.onDisk (smallArchive 0) 9 0 (some smallPath)
      markedLibrary).2.io.store.files smallPath = some [0x61, 0x62] := by decide +kernel
  exact ⟨_, Proc.run_eq_ret returned, file⟩

theorem segmented_of_three {chunk : Bytes} (three : chunk.length = 3) : Segmented [chunk] [] := by
  refine segmented_of_conditions ?_ (fun other member => absurd member List.not_mem_nil)
  intro other member position occurs
  obtain rfl := List.mem_singleton.1 member
  -- a chunk of three bytes has no room for a marker
  have inside := Occurrence.le_length_of_occurs (by decide) occurs
  have four : endOfChunk.length = 4 := rfl
  omega

/-- Each half of the chunk is a chunk by itself. -/
theorem behindMarker_unpacksEach :
    UnpacksEach smallZlib (freshInput smallLibraries) 2 behindMarker [0x61, 0x62] := by
  have one : Extracts smallZlib 2 [[0x4a, 0x04, 0x00]] ([0x61] ++ []) 1 :=
    .chunk (by decide) ⟨2, rfl⟩ (.done 1)
  have two : Extracts smallZlib 1 [[0x4b, 0x02, 0x00]] ([0x62] ++ []) 0 :=
    .chunk (by decide) ⟨2, rfl⟩ (.done 0)
  refine unpacksEach_cons (size_freshInput _) (by decide) (List.append_nil _).symm (by decide)
    (segmented_of_three rfl) one (Or.inl rfl) fun memory positive => ?_
  exact unpacksEach_cons positive (by decide) (List.append_nil _).symm (by decide)
    (segmented_of_three rfl) two (Or.inl rfl) fun _ _ => .done

/-- A cut behind a marker inside a chunk does not matter if both halves are unpacked by themselves. -/
theorem fileSaveOld_cut_iff_behind_marker :
    ∃ enough, ∀ fuel ≥ enough, ∃ library',
      fileSaveOld smallLibraries.onDisk (smallArchive 0) fuel 0 (some smallPath)
        (cutChunkLibrary behindMarker (by decide)) = (.ret (), library') ∧
      library'.io.store.files smallPath = some [0x61, 0x62] := by
  obtain ⟨library', returned, saved⟩ := markedLibrary_saved
  obtain ⟨enough, cut⟩ := fileSaveOld_cut_iff smallLibraries (smallArchive 0) markedLibrary library'
    (cutChunkLibrary behindMarker (by decide)) 0 0 smallPath smallPath (joined markedChunk) [0x61, 0x62]
    chunkDescriptor cutChunkDescriptor behindMarker 9 markedLibrary_inOneVolume returned saved
    (cutChunkLibrary_inVolumes (by decide) (by decide) (by decide)) ⟨rfl, by decide⟩ rfl
  exact ⟨enough, fun fuel le => (cut fuel le).2 behindMarker_unpacksEach⟩

/-- A cut inside a chunk makes the extraction fail that succeeds from one volume. -/
theorem fileSaveOld_cut_inside_chunk :
    InOneVolume (smallHeader 0) chunkLibrary 0 chunkDescriptor (joined twoChunks) ∧
    (∃ library', fileSaveOld smallLibraries.onDisk (smallArchive 0) 9 0 (some smallPath) chunkLibrary =
        (.ret (), library') ∧ library'.io.store.files smallPath = some [0x61, 0x62]) ∧
    InVolumes (smallHeader 0) (cutChunkLibrary insideChunk (by decide)) 0 cutChunkDescriptor smallPath
      2 insideChunk ∧
    SameContent chunkDescriptor cutChunkDescriptor ∧ insideChunk.flatten = joined twoChunks ∧
    (fileSaveOld { smallLibraries.onDisk with errorsPrinted := false } (smallArchive 0) 9 0
      (some smallPath) (cutChunkLibrary insideChunk (by decide))).1 = .fail := by
  refine ⟨chunkLibrary_inOneVolume, chunkLibrary_saved, ?_, ⟨rfl, by decide⟩, rfl, ?_⟩
  · exact cutChunkLibrary_inVolumes (by decide) (by decide) (by decide)
  · decide +kernel

end Unshield
