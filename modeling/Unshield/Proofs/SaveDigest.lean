/-
Module: Unshield.Proofs.SaveDigest
Purpose: The library with its own MD5: what the checks behind the loop let through, and what becomes of a
  file that they do not.
Trusted boundary: none
Main exports: messageDigest, Libraries.withOwnMd5, fileSave_own_digest, Checked, saveNew_of_checks,
  fileSave_checks_iff
-/
import Unshield.Proofs.Md5Stream
import Unshield.Proofs.SaveIntegrity

namespace Unshield

open Procedure

/-- The digest that md5c.c computes, of a message that comes in pieces. -/
def messageDigest : Md5 where
  Context := Bytes
  init := []
  update := fun context data => context ++ data
  final := MessageDigest.digest
  update_nil := List.append_nil
  update_append := List.append_assoc

/-- A library that is built with `USE_OUR_OWN_MD5`. -/
def Libraries.withOwnMd5 (libraries : Libraries) : Libraries := { libraries with md5 := messageDigest }

/-- The context of md5c.c has the digest of the pieces that it is updated with. -/
theorem md5Pieces_eq_iff {context : Md5Context} (size : context.buffer.size = md5BlockSize)
    {pieces : List Bytes} (short : ∀ piece ∈ pieces, piece.length ≤ bufferSize) (expected : Bytes) :
    md5Pieces context pieces = .ret (expected, zeroContext) ↔
      messageDigest.digest pieces.flatten = expected := by
  obtain ⟨final, updates, represents⟩ := md5Updates_represents (fun piece member => by
    have few := short piece member
    rw [bufferSize] at few
    show _ < 2 ^ 32
    omega) (md5Init_represents size)
  rw [md5Pieces, updates, Exit.bind_ret, md5Final_of_represents represents]
  constructor
  · intro same
    exact (Prod.mk.inj (Exit.ret.inj same)).1
  · intro same
    rw [← same]
    rfl

/-! ### A save that succeeds -/

/-- A file of a newer cabinet that is saved has the digest that its descriptor records, as md5c.c
computes it from the output, in whatever pieces of the size of a buffer that comes. -/
theorem fileSave_own_digest (libraries : Libraries) (archive : Archive) (fuel : Nat) (index : Int)
    (path : Bytes) {library library' : Library Disk} (newer : archive.header.majorVersion ≥ 6)
    (run : fileSave libraries.withOwnMd5.onDisk archive fuel index (some path) library =
      (.ret (), library')) :
    ∃ fd out, LinkEnd archive.header library index fd ∧ library'.io.store.files path = some out ∧
      Accepted path out library'.io ∧
      ∀ context : Md5Context, context.buffer.size = md5BlockSize → ∀ pieces : List Bytes,
        pieces.flatten = out → (∀ piece ∈ pieces, piece.length ≤ bufferSize) →
          md5Pieces context pieces = .ret (fd.md5, zeroContext) := by
  obtain ⟨fd, linkEnd, out, file, accepted, digest⟩ := saveThroughLinks_eq_ret libraries.withOwnMd5
    (fun fd disk => ∃ out, disk.store.files path = some out ∧ Accepted path out disk ∧
      messageDigest.digest out = fd.md5)
    (by
      intro fuel index fd io t run
      obtain ⟨out, intact, _, digest⟩ :=
        saveNew_ensures libraries.withOwnMd5 fuel index _ () t (records_start fd io) run
      obtain ⟨file, accepted⟩ := intact.closed libraries.withOwnMd5
      exact ⟨out, file, accepted, digest newer⟩) fuel run
  refine ⟨fd, out, linkEnd, file, accepted, ?_⟩
  rintro context size pieces rfl short
  exact (md5Pieces_eq_iff size short _).2 digest

/-! ### What the checks let through -/

section

variable (libraries : Libraries) {archive : Archive}

/-- How `unshield_file_save` ends when its loop has written `out`: it compares the size, and with newer
cabinets the digest.  The message about a wrong digest names the file, and a name outside the header's data
is read there. -/
inductive Checked (header : Header) (fd : FileDescriptor) (out : Bytes) : Exit Unit → Prop where
  | passes (size : fd.expandedSize.toNat = out.length)
      (digest : header.majorVersion ≥ 6 → libraries.md5.digest out = fd.md5) :
      Checked header fd out (.ret ())
  | size (wrong : fd.expandedSize.toNat ≠ out.length) : Checked header fd out .fail
  | digest (size : fd.expandedSize.toNat = out.length) (newer : header.majorVersion ≥ 6)
      (wrong : libraries.md5.digest out ≠ fd.md5) (told : NameTold libraries.onDisk header fd) :
      Checked header fd out .fail
  | name (size : fd.expandedSize.toNat = out.length) (newer : header.majorVersion ≥ 6)
      (wrong : libraries.md5.digest out ≠ fd.md5) (untold : ¬ NameTold libraries.onDisk header fd) :
      Checked header fd out .fault

variable {libraries}

theorem Checked.ret_iff {header : Header} {fd : FileDescriptor} {out : Bytes} {exit : Exit Unit}
    (checked : Checked libraries header fd out exit) :
    exit = .ret () ↔ fd.expandedSize.toNat = out.length ∧
      (header.majorVersion ≥ 6 → libraries.md5.digest out = fd.md5) := by
  cases checked with
  | passes size digest => exact iff_of_true rfl ⟨size, digest⟩
  | size wrong => simp [wrong]
  | digest _ newer wrong _ => simp [newer, wrong]
  | name _ newer wrong _ => simp [newer, wrong]

theorem Checked.fault_iff {header : Header} {fd : FileDescriptor} {out : Bytes} {exit : Exit Unit}
    (checked : Checked libraries header fd out exit) :
    exit = .fault ↔ fd.expandedSize.toNat = out.length ∧ header.majorVersion ≥ 6 ∧
      libraries.md5.digest out ≠ fd.md5 ∧ ¬ NameTold libraries.onDisk header fd := by
  cases checked with
  | passes _ digest =>
      simp only [reduceCtorEq, false_iff, not_and]
      intro _ newer wrong
      exact absurd (digest newer) wrong
  | size wrong => simp [wrong]
  | digest _ _ _ told => simp [told]
  | name size newer wrong untold => exact iff_of_true rfl ⟨size, newer, wrong, untold⟩

theorem Checked.fail_iff {header : Header} {fd : FileDescriptor} {out : Bytes} {exit : Exit Unit}
    (checked : Checked libraries header fd out exit) : exit = .fail ↔ exit ≠ .ret () ∧ exit ≠ .fault := by
  cases checked <;> simp

variable (libraries)

/-- Behind its loop, `unshield_file_save` makes its checks and nothing else. -/
theorem saveNew_of_checks {fuel : Nat} {index : Int} {s₀ s t u : DiskSession} {file : Stream}
    {vars : SaveVars libraries.md5} {path out : Bytes}
    (created : readerCreate libraries.onDisk archive.header fuel index s₀ = (.ret (), s))
    (opened : s.reader.volumeFile = some file)
    (outside : s.fileDescriptor.dataOffset.toNat ≠ file.content.length)
    (output : fopenOutput libraries.onDisk (some path) s = (.ret (), t))
    (loop : Proc.iterate (saveTurn libraries.onDisk archive) fuel
      (saveStart libraries.onDisk s.fileDescriptor) t = (.ret vars, u))
    (progress : Progress libraries u vars path out) (small : out.length < 2 ^ 64) :
    ∃ exit, Checked libraries archive.header u.fileDescriptor out exit ∧
      saveNew libraries.onDisk archive (some path) fuel index s₀ = (exit, u) := by
  rw [saveNew, Proc.bind_of_ret created, Proc.bind_of_ret (fsizeVolume_run libraries opened),
    Proc.gets_bind_run, Proc.bind_of_ret (Proc.require_run_of (inside_of_ne outside) _),
    Proc.bind_of_ret output, Proc.bind_of_ret loop, Proc.gets_bind_run]
  have counted : vars.totalWritten.toNat = out.length := by
    rw [progress.total]
    exact UInt64.toNat_ofNat_of_lt' small
  by_cases total : u.fileDescriptor.expandedSize = vars.totalWritten
  · have size : u.fileDescriptor.expandedSize.toNat = out.length := by
      rw [total]
      exact counted
    rw [Proc.bind_of_ret (Proc.require_run_of total _), progress.context]
    by_cases newer : archive.header.majorVersion ≥ 6
    · rw [if_pos newer]
      by_cases same : libraries.md5.digest out = u.fileDescriptor.md5
      · exact ⟨_, .passes size fun _ => same,
          Proc.onFailure_eq_ret_iff.2 (Or.inl (Proc.require_run_of same _))⟩
      · have checked : Proc.require (libraries.md5.final (libraries.md5.update libraries.md5.init out) =
            u.fileDescriptor.md5) u = (.fail, u) := Proc.require_run_of_not same u
        rw [Proc.onFailure_of_fail checked]
        rcases @failWithFileName_run _ _ libraries.onDisk archive.header Unit u with
          ⟨told, run⟩ | ⟨untold, run⟩
        · exact ⟨_, .digest size newer same told, run⟩
        · exact ⟨_, .name size newer same untold, run⟩
    · rw [if_neg newer]
      exact ⟨_, .passes size fun other => absurd other newer, rfl⟩
  · refine ⟨_, .size fun size => total ?_, Proc.bind_of_fail (Proc.require_run_of_not total _)⟩
    exact UInt64.toNat_inj.1 (size.trans counted.symm)

end

/-- What is decompressed fits in the output buffer. -/
theorem output_le_of_inflates {zlib : Zlib} {chunks outputs : List Bytes}
    (inflates : List.Forall₂ (Inflates zlib) chunks outputs) :
    ∀ output ∈ outputs, output.length ≤ bufferSize := by
  induction inflates with
  | nil => exact fun _ member => absurd member List.not_mem_nil
  | cons first others ih =>
      intro output member
      rcases List.mem_cons.1 member with rfl | later
      · exact first.output_le
      · exact ih output later

/-- Framed chunks are written out in any case, and then come the checks. -/
theorem fileSave_of_frames (libraries : Libraries) {archive : Archive} {library : Library Disk}
    {index : Int} {path : Bytes} {fd : FileDescriptor} {content stored : Bytes}
    {chunks outputs : List Bytes}
    (extractable : Extractable archive.header library index fd path outputs.flatten.length)
    (compressed : fd.Has fileCompressed)
    (layout : StoredAt archive.header library.io.store.cabinets index fd content stored)
    (outside : fd.dataOffset.toNat ≠ content.length)
    (framed : clearBytes fd 0 stored = frames chunks)
    (sizes : ∀ chunk ∈ chunks, 1 ≤ chunk.length ∧ chunk.length ≤ 65535)
    (inflates : List.Forall₂ (Inflates libraries.zlib) chunks outputs)
    {fuel : Nat} (enough : chunks.length + 2 ≤ fuel) :
    ∃ exit library', Checked libraries archive.header fd outputs.flatten exit ∧
      fileSave libraries.onDisk archive fuel index (some path) library = (exit, library') ∧
      library'.io.store.files path = some outputs.flatten := by
  obtain ⟨fuel, rfl⟩ : ∃ more, fuel = more + 1 := ⟨fuel - 1, by omega⟩
  obtain ⟨remembered, io, session⟩ := saveThroughLinks_run libraries
    (saveNew libraries.onDisk archive (some path)) fuel extractable
  have stored_length : stored.length = (frames chunks).length := by
    rw [← framed, length_clearBytes]
  -- the reader and the output file
  rw [← io] at layout
  obtain ⟨s, created, delivers, opened, descriptor, _, readIo, _⟩ :=
    readerCreate_stored libraries layout (show 0 < fuel by omega)
  rw [framed] at delivers
  have writable : s.io.store.writable path = true := by
    rw [readIo, io]
    exact extractable.writable
  have extractable_room : outputs.flatten.length ≤ s.io.store.room := by
    rw [readIo, io]
    exact extractable.room
  obtain ⟨t, output, writing, input, room⟩ := fopenOutput_run libraries writable
  -- the loop
  have saving : SavingFrames libraries archive.header t
      (saveStart libraries.onDisk s.fileDescriptor) stored [] chunks path [] := by
    refine ⟨⟨writing, rfl, (libraries.md5.update_nil _).symm⟩, delivers.of_sameInput input, ?_, ?_, rfl⟩
    · rw [input.fileDescriptor, descriptor]
      exact compressed
    · rw [saveStart, descriptor, ← stored_length]
      exact startBytesLeft_toNat layout.size layout.size_lt
  obtain ⟨data, left, after, reads⟩ := SegmentedStream.exists_readMany_single
    (pos_of_frameSizes fun chunk member => (sizes chunk member).1)
    (show (frameSizes chunks).sum ≤ stored.length by rw [sum_frameSizes, stored_length])
  obtain ⟨u, vars, loop, progress, descriptor', _⟩ := saveLoop_frames libraries inflates
    (fun chunk member => Nat.lt_succ_of_le (sizes chunk member).2) saving reads
    (extractable_room.trans room) fuel (by omega)
  obtain rfl : u.fileDescriptor = fd := descriptor'.trans (input.fileDescriptor.trans descriptor)
  rw [List.nil_append] at progress
  -- the checks
  have small : outputs.flatten.length < 2 ^ 64 := by
    have device := library.io.store.room_lt
    have fits := extractable.room
    omega
  obtain ⟨exit, checked, saved⟩ := saveNew_of_checks libraries created opened
    (by rw [descriptor]; exact outside) output loop progress small
  obtain ⟨library', run, store⟩ := runSession_store libraries saved
  refine ⟨exit, library', checked, by rw [fileSave, session]; exact run, ?_⟩
  rw [store]
  exact progress.writing.file

/-- Framed chunks are written out in any case, and the call succeeds exactly if the descriptor has their
size and, with newer cabinets, the digest that md5c.c computes from the buffers written.  Otherwise it fails,
or it reads outside the header's data for the name in the message about the digest. -/
theorem fileSave_checks_iff (libraries : Libraries) {archive : Archive} {library : Library Disk}
    {index : Int} {path : Bytes} {fd : FileDescriptor} {content stored : Bytes}
    {chunks outputs : List Bytes} {context : Md5Context}
    (size : context.buffer.size = md5BlockSize)
    (extractable : Extractable archive.header library index fd path outputs.flatten.length)
    (compressed : fd.Has fileCompressed)
    (layout : StoredAt archive.header library.io.store.cabinets index fd content stored)
    (outside : fd.dataOffset.toNat ≠ content.length)
    (framed : clearBytes fd 0 stored = frames chunks)
    (sizes : ∀ chunk ∈ chunks, 1 ≤ chunk.length ∧ chunk.length ≤ 65535)
    (inflates : List.Forall₂ (Inflates libraries.zlib) chunks outputs) :
    ∃ enough, ∀ fuel ≥ enough, ∃ exit library',
      fileSave libraries.withOwnMd5.onDisk archive fuel index (some path) library =
        (exit, library') ∧
      library'.io.store.files path = some outputs.flatten ∧
      (exit = .ret () ↔ fd.expandedSize.toNat = outputs.flatten.length ∧
        (archive.header.majorVersion ≥ 6 →
          md5Pieces context outputs = .ret (fd.md5, zeroContext))) ∧
      (exit = .fault ↔ fd.expandedSize.toNat = outputs.flatten.length ∧ archive.header.majorVersion ≥ 6 ∧
        md5Pieces context outputs ≠ .ret (fd.md5, zeroContext) ∧
        ¬ NameTold libraries.onDisk archive.header fd) ∧
      (exit = .fail ↔ exit ≠ .ret () ∧ exit ≠ .fault) := by
  refine ⟨chunks.length + 2, fun fuel enough => ?_⟩
  obtain ⟨exit, library', checked, run, file⟩ := fileSave_of_frames libraries.withOwnMd5 extractable
    compressed layout outside framed sizes inflates enough
  refine ⟨exit, library', run, file, ?_, ?_, checked.fail_iff⟩
  · rw [md5Pieces_eq_iff size (output_le_of_inflates inflates)]
    exact checked.ret_iff
  · rw [ne_eq, md5Pieces_eq_iff size (output_le_of_inflates inflates)]
    exact checked.fault_iff

/-! ### Two chunks in one volume -/

theorem fileSave_own_digest_two_chunks :
    ∃ library' fd out,
      fileSave smallLibraries.withOwnMd5.onDisk (smallArchive 6) 4 0 (some smallPath) frameLibrary =
        (.ret (), library') ∧
      LinkEnd (smallHeader 6) frameLibrary 0 fd ∧ library'.io.store.files smallPath = some out ∧
      Accepted smallPath out library'.io ∧
      ∀ context : Md5Context, context.buffer.size = md5BlockSize → ∀ pieces : List Bytes,
        pieces.flatten = out → (∀ piece ∈ pieces, piece.length ≤ bufferSize) →
          md5Pieces context pieces = .ret (fd.md5, zeroContext) := by
  have run := Proc.run_eq_ret (show (fileSave smallLibraries.withOwnMd5.onDisk (smallArchive 6) 4 0
    (some smallPath) frameLibrary).1 = .ret () by decide +kernel)
  obtain ⟨fd, out, rest⟩ := fileSave_own_digest smallLibraries (smallArchive 6) 4 0 smallPath
    (by decide) run
  exact ⟨_, fd, out, run, rest⟩

theorem fileSave_checks_iff_two_chunks :
    ∃ enough, ∀ fuel ≥ enough, ∃ exit library',
      fileSave smallLibraries.withOwnMd5.onDisk (smallArchive 6) fuel 0 (some smallPath) frameLibrary =
        (exit, library') ∧
      library'.io.store.files smallPath = some [0x61, 0x62] ∧
      (exit = .ret () ↔ frameDescriptor.expandedSize.toNat = 2 ∧
        ((smallHeader 6).majorVersion ≥ 6 →
          md5Pieces staleContext [[0x61], [0x62]] = .ret (digestOfAB, zeroContext))) ∧
      (exit = .fault ↔ frameDescriptor.expandedSize.toNat = 2 ∧ (smallHeader 6).majorVersion ≥ 6 ∧
        md5Pieces staleContext [[0x61], [0x62]] ≠ .ret (digestOfAB, zeroContext) ∧
        ¬ NameTold smallLibraries.onDisk (smallHeader 6) frameDescriptor) ∧
      (exit = .fail ↔ exit ≠ .ret () ∧ exit ≠ .fault) := by
  have extractable : Extractable (smallHeader 6) frameLibrary 0 frameDescriptor smallPath 2 :=
    extractable_libraryWith (by decide) (by decide) (by decide) (by decide) rfl (by decide)
  have layout : StoredAt (smallHeader 6) (shelf [frameVolume]) 0 frameDescriptor frameVolume
      (frames [chunkOfA, chunkOfB]) :=
    storedAt_shelf (by decide) (by decide) rfl rfl rfl (by decide)
  exact @fileSave_checks_iff smallLibraries (smallArchive 6) frameLibrary 0 smallPath frameDescriptor
    frameVolume (frames [chunkOfA, chunkOfB]) [chunkOfA, chunkOfB] [[0x61], [0x62]] staleContext rfl
    extractable (by decide) layout (by decide) rfl (by decide) (.cons rfl (.cons rfl .nil))

end Unshield
