/-
Module: Unshield.Proofs.FileContents
Purpose: The volumes from which the new format's save function restores the content of a file: it lies in
  one volume, or it is cut into segments where no read starts at a cut.
Trusted boundary: none
Main exports: Restorable, saveNew_of_opened, Restores, restores_of_stored, restores_of_split
-/
import Unshield.Proofs.SaveDigest
import Unshield.Proofs.SaveEffects
import Unshield.Proofs.SplitReads

namespace Unshield

open Procedure
open SegmentedStream (AvoidsEnds)

section

variable (libraries : Libraries) (archive : Archive)

/-! ### Sessions -/

/-- The descriptor is that of a valid file which is no link and has this content. -/
structure Restorable (fd : FileDescriptor) (out : Bytes) : Prop where
  valid : ¬ fd.Has fileInvalid
  nonzero : fd.dataOffset ≠ 0
  unlinked : fd.linkFlags &&& linkPrev = 0
  expanded : fd.expandedSize.toNat = out.length
  md5 : archive.header.majorVersion ≥ 6 → libraries.md5.digest out = fd.md5

/-- With a call that comes back, the session of a valid file restores what its body writes. -/
theorem fileSave_of_session {library : Library Disk} {index : Int} {path out : Bytes} {fd : FileDescriptor}
    {fuel : Nat} {t : DiskSession} (restorable : Restorable libraries archive fd out)
    (describes : Describes archive.header library index fd)
    (writable : library.io.store.writable path = true) (room : out.length ≤ library.io.store.room)
    (session : saveNew libraries.onDisk archive (some path) fuel index (startSession fd library.io) =
      (.ret (), t)) (stores : Stores path out library.io.store t.io.store) :
    ∃ library', fileSave libraries.onDisk archive (fuel + 1) index (some path) library = (.ret (), library') ∧
      Stores path out library.io.store library'.io.store ∧
      library'.fileDescriptors =
        Function.update (getFileDescriptor archive.header index library).2.fileDescriptors index.toNat
          (some t.fileDescriptor) := by
  have extractable : Extractable archive.header library index fd path out.length :=
    ⟨describes, restorable.valid, restorable.nonzero, restorable.unlinked, writable, room⟩
  obtain ⟨remembered, io, known, call⟩ := saveThroughLinks_run_known libraries
    (saveNew libraries.onDisk archive (some path)) fuel extractable
  rw [← io] at session
  obtain ⟨library', run, closed, descriptors⟩ := runSession_of_orderly libraries
    (show (Exit.ret ()).Orderly from trivial) session
  refine ⟨library', by rw [fileSave, call]; exact run, ?_, by rw [descriptors, known]⟩
  rw [closed, closeSession_store]
  exact stores

/-- The loop restores the content once the reader and the output file are open, if no read starts at the
end of a segment. -/
theorem saveNew_of_opened {fuel : Nat} {index : Int} {io : Disk} {s t : DiskSession} {file : Stream}
    {fd fd' : FileDescriptor} {segments : List Bytes} {sizes : List Nat} {path out : Bytes}
    (created : readerCreate libraries.onDisk archive.header fuel index (startSession fd io) = (.ret (), s))
    (volume : s.reader.volumeFile = some file) (descriptor : s.fileDescriptor = fd')
    (outside : s.fileDescriptor.dataOffset.toNat ≠ file.content.length)
    (output : fopenOutput libraries.onDisk (some path) s = (.ret (), t))
    (opened : SplitOpened archive.header fd segments path fd' t)
    (contents : HasContent libraries.zlib fd' (clearBytes fd 0 segments.flatten) sizes out)
    (stored : (startBytesLeft fd').toNat = segments.flatten.length) (avoids : AvoidsEnds segments sizes 0)
    (room : out.length ≤ t.io.store.room) (restorable : Restorable libraries archive fd' out)
    (enough : sizes.length < fuel) :
    ∃ u, saveNew libraries.onDisk archive (some path) fuel index (startSession fd io) = (.ret (), u) ∧
      Stores path out io.store u.io.store := by
  rcases saveLoop_split libraries opened contents stored room enough with
    ⟨_, vars, u, run, progress, descriptor'⟩ | ⟨meets, _⟩
  · rw [← descriptor] at run
    have session := saveNew_of_loop libraries created volume outside output run progress
      (by rw [descriptor']; exact restorable.expanded) (by rw [descriptor']; exact restorable.md5)
    have storing := @storing_saveNew libraries archive path io.store fuel index (startSession fd io)
      ⟨rfl, rfl⟩
    rw [session] at storing
    exact ⟨u, session, storing.stores progress.writing.output⟩
  · exact absurd avoids meets

/-! ### Files -/

/-- From these volumes the save function restores the content of the file with this descriptor, whatever
else there is on the disk, with loops cut off after `fuel` turns. -/
def RestoresWith (fuel : Nat) (cabinets : Int → Option Bytes) (index : Int) (fd : FileDescriptor)
    (out : Bytes) : Prop :=
  ∀ (library : Library Disk) (path : Bytes),
    library.io.store.cabinets = cabinets → Describes archive.header library index fd →
    library.io.store.writable path = true → out.length ≤ library.io.store.room →
    ∃ library' fd', fileSave libraries.onDisk archive fuel index (some path) library = (.ret (), library') ∧
      Stores path out library.io.store library'.io.store ∧
      library'.fileDescriptors =
        Function.update (getFileDescriptor archive.header index library).2.fileDescriptors index.toNat
          (some fd')

/-- From these volumes the save function restores the content of the file with this descriptor. -/
def Restores (cabinets : Int → Option Bytes) (index : Int) (fd : FileDescriptor) (out : Bytes) : Prop :=
  ∃ enough, ∀ fuel ≥ enough, RestoresWith libraries archive fuel cabinets index fd out

variable {libraries archive} {cabinets : Int → Option Bytes} {index : Int} {fd : FileDescriptor}
  {content out : Bytes} {sizes : List Nat}

/-- The one segment of a file that is not split; there is none if nothing is stored. -/
def oneSegment (stored : Bytes) : List Bytes := if stored = [] then [] else [stored]

theorem flatten_oneSegment (stored : Bytes) : (oneSegment stored).flatten = stored := by
  rw [oneSegment]
  split
  · rename_i empty
    rw [empty]
    rfl
  · exact List.flatten_singleton

theorem mem_oneSegment {stored segment : Bytes} (member : segment ∈ oneSegment stored) :
    segment ≠ [] ∧ oneSegment stored = [stored] := by
  rw [oneSegment] at member ⊢
  split at member
  · cases member
  · rename_i some_bytes
    rw [List.mem_singleton.1 member, if_neg some_bytes]
    exact ⟨some_bytes, rfl⟩

/-- The reads of a file ask for all that is stored and for nothing behind it. -/
theorem HasContent.reads {zlib : Zlib} {stream : Bytes} (contents : HasContent zlib fd stream sizes out) :
    (∀ size ∈ sizes, 0 < size) ∧ sizes.sum = stream.length := by
  cases contents with
  | stored plain stream => exact ⟨pos_of_blockSizes, sum_blockSizes _⟩
  | chunks compressed sizes inflates =>
      exact ⟨pos_of_frameSizes fun chunk member => (sizes chunk member).1, sum_frameSizes _⟩

/-- No read starts at the end of the only segment. -/
theorem avoidsEnds_oneSegment {stored : Bytes} (positive : ∀ size ∈ sizes, 0 < size)
    (fits : sizes.sum = stored.length) : AvoidsEnds (oneSegment stored) sizes 0 := by
  rw [oneSegment]
  split
  · rename_i empty
    rw [empty] at fits
    cases sizes with
    | nil => trivial
    | cons size sizes =>
        have some_bytes := positive size List.mem_cons_self
        rw [List.sum_cons, List.length_nil] at fits
        omega
  · rename_i some_bytes
    have whole : stored ++ ([] : List Bytes).flatten = stored := List.append_nil _
    rw [← SegmentedStream.exists_readMany_iff positive some_bytes
      (fun _ member => absurd member List.not_mem_nil) (by rw [whole, fits])]
    exact SegmentedStream.exists_readMany_single positive (Nat.le_of_eq fits)

/-- A file that lies in one volume. -/
theorem restores_of_stored {stored : Bytes}
    (layout : StoredAt archive.header cabinets index fd content stored)
    (outside : fd.dataOffset.toNat ≠ content.length) (restorable : Restorable libraries archive fd out)
    (contents : HasContent libraries.zlib fd (clearBytes fd 0 stored) sizes out) :
    Restores libraries archive cabinets index fd out := by
  refine ⟨sizes.length + 2, ?_⟩
  rintro fuel enough library path rfl describes writable room
  obtain ⟨fuel, rfl⟩ : ∃ more, fuel = more + 1 := ⟨fuel - 1, by omega⟩
  obtain ⟨s, created, delivers, volume, descriptor, _, io, _⟩ :=
    readerCreate_stored libraries layout (show 0 < fuel by omega)
  obtain ⟨t, output, writing, input, left⟩ := fopenOutput_run libraries
    (show s.io.store.writable path = true by rw [io]; exact writable)
  have opened : SplitOpened archive.header fd (oneSegment stored) path fd t := by
    refine ⟨writing, input.fileDescriptor.trans descriptor,
      fun segment member => (mem_oneSegment member).1, ?_⟩
    intro first rest one
    have single := (mem_oneSegment (one ▸ List.mem_cons_self : first ∈ oneSegment stored)).2
    obtain ⟨rfl, rfl⟩ := List.cons.inj (one.symm.trans single)
    rw [flatten_oneSegment]
    exact delivers.of_sameInput input
  have reads := contents.reads
  rw [length_clearBytes] at reads
  obtain ⟨u, session, stores⟩ := saveNew_of_opened libraries archive created volume descriptor
    (by rw [descriptor]; exact outside) output opened (by rw [flatten_oneSegment]; exact contents)
    (by rw [flatten_oneSegment]; exact startBytesLeft_toNat layout.size layout.size_lt)
    (avoidsEnds_oneSegment reads.1 reads.2) (Nat.le_trans (by rw [io]; exact room) left) restorable (by omega)
  obtain ⟨library', run, saved, known⟩ :=
    fileSave_of_session libraries archive restorable describes writable room session stores
  exact ⟨library', _, run, saved, known⟩

/-- A file that is cut into segments. -/
theorem restores_of_split {start : UInt16} {segments : List Bytes}
    (layout : SplitAcross archive.header cabinets index fd start content segments)
    (outside : fd.dataOffset.toNat ≠ content.length) (restorable : Restorable libraries archive fd out)
    (contents : HasContent libraries.zlib fd (clearBytes fd 0 segments.flatten) sizes out)
    (size : (storedSize fd).toNat = segments.flatten.length) (small : segments.flatten.length < 2 ^ 32)
    (avoids : AvoidsEnds segments sizes 0) : Restores libraries archive cabinets index fd out := by
  refine ⟨sizes.length + start.toNat + 2, ?_⟩
  rintro fuel enough library path rfl describes writable room
  obtain ⟨fuel, rfl⟩ : ∃ more, fuel = more + 1 := ⟨fuel - 1, by omega⟩
  obtain ⟨s, file, t, created, volume, descriptor, outside', output, opened, left⟩ :=
    splitOpened_run libraries layout (show start.toNat - fd.volume.toNat < fuel by omega) writable outside
  have marked : Restorable libraries archive (splitDescriptor fd start) out :=
    ⟨fun invalid => restorable.valid ((has_or_fileSplit rfl start).1 invalid), restorable.nonzero,
      restorable.unlinked, restorable.expanded, restorable.md5⟩
  obtain ⟨u, session, stores⟩ := saveNew_of_opened libraries archive created volume descriptor outside'
    output opened (contents.splitDescriptor start)
    (startBytesLeft_toNat (by rw [splitDescriptor_storedSize]; exact size) small) avoids
    (Nat.le_trans room left) marked (by omega)
  obtain ⟨library', run, saved, known⟩ :=
    fileSave_of_session libraries archive restorable describes writable room session stores
  exact ⟨library', _, run, saved, known⟩

end

end Unshield
