/-
Module: Unshield.Proofs.SaveSteps
Purpose: What surrounds the loops of the save functions with the default callbacks: finding the start
  volume, the size check, the output file, and the way from a call to its session.
Trusted boundary: none
Main exports: MovesOn, readerCreate_stays, readerCreateLoop_search, fsizeVolume_run, Writing,
  fopenOutput_run, fwriteOutput_run, Describes, saveThroughLinks_run, Accepted, runSession_ret
-/
import Unshield.Core.Save
import Unshield.Proofs.DescriptorCache
import Unshield.Proofs.ReaderRefinement

namespace Unshield

open Procedure

section

variable (libraries : Libraries) {header : Header} {archive : Archive}

/-! ### Finding the start volume -/

/-- The condition under which the creation of a reader goes on to the next volume. -/
abbrev MovesOn (header : Header) (volumeHeader : VolumeHeader) (index : Int) : Prop :=
  header.majorVersion ≤ 5 ∧ volumeHeader.lastFileIndex.toInt32.toInt < index

/-- A session with a freshly allocated reader. -/
def freshSession (index : Int) (fd : FileDescriptor) (io : Disk) : DiskSession :=
  { reader := { index := UInt32.ofInt index }, fileDescriptor := fd, io := io }

/-- A session before it has a reader. -/
def startSession (fd : FileDescriptor) (io : Disk) : DiskSession :=
  { reader := { index := 0 }, fileDescriptor := fd, io := io }

theorem readerCreateTurn_run (index : Int) {s : DiskSession} {content : Bytes}
    {volumeHeader : VolumeHeader}
    (opens : Opens header s.io.store.cabinets s.fileDescriptor.volume.toNat content volumeHeader) :
    readerCreateTurn libraries.onDisk header index () s =
      (if MovesOn header volumeHeader index then do
        Proc.modify fun s =>
          { s with
            fileDescriptor := { s.fileDescriptor with volume := s.fileDescriptor.volume + 1 } }
        pure (.again ())
      else
        pure (.done ()) : Proc DiskSession (Proc.Turn Unit Unit))
        (enterVolume header s.fileDescriptor.volume.toNat content volumeHeader s) := by
  rw [readerCreateTurn, Proc.gets_bind_run, Proc.bind_of_ret (readerOpenVolume_run libraries opens),
    Proc.gets_bind_run, enterVolume_volumeHeader]

theorem readerCreate_of_loop {fd : FileDescriptor} {io : Disk} {index : Int} {fuel : Nat}
    {t : DiskSession}
    (loop : Proc.iterate (readerCreateTurn libraries.onDisk header index) fuel ()
      (freshSession index fd io) = (.ret (), t)) :
    readerCreate libraries.onDisk header fuel index (startSession fd io) = (.ret (), t) := by
  rw [freshSession] at loop
  rw [readerCreate]
  simp only [startSession]
  rw [loop]

/-- A reader of a file that starts in the volume its descriptor names. -/
theorem readerCreate_stays {fd : FileDescriptor} {io : Disk} {index : Int} {content : Bytes}
    {volumeHeader : VolumeHeader} {fuel : Nat} (enough : 0 < fuel)
    (opens : Opens header io.store.cabinets fd.volume.toNat content volumeHeader)
    (stays : ¬ MovesOn header volumeHeader index) :
    readerCreate libraries.onDisk header fuel index (startSession fd io) =
      (.ret (), enterVolume header fd.volume.toNat content volumeHeader
        (freshSession index fd io)) := by
  cases fuel with
  | zero => cases enough
  | succ fuel =>
      have turn : readerCreateTurn libraries.onDisk header index () (freshSession index fd io) = _ :=
        readerCreateTurn_run libraries index opens
      rw [if_neg stays] at turn
      exact readerCreate_of_loop libraries (Proc.iterate_succ_of_done turn)

/-! ### Searching the start volume -/

/-- What the search of the start volume leaves alone. -/
structure Searching (s t : DiskSession) : Prop extends SameAround s t where
  seed : t.reader.obfuscationOffset = s.reader.obfuscationOffset

/-- The session in which the next volume is tried. -/
def passVolume (header : Header) (volume : Int) (content : Bytes) (volumeHeader : VolumeHeader)
    (s : DiskSession) : DiskSession :=
  let t := enterVolume header volume content volumeHeader s
  { t with fileDescriptor := { t.fileDescriptor with volume := t.fileDescriptor.volume + 1 } }

theorem passVolume_searching (header : Header) (s : DiskSession) (volume : Int) (content : Bytes)
    (volumeHeader : VolumeHeader) :
    Searching s (passVolume header volume content volumeHeader s) := by
  have around : SameAround s (enterVolume header volume content volumeHeader s) :=
    enterVolume_sameAround
  exact ⟨⟨around.output, around.store, around.index⟩, enterVolume_seed⟩

theorem passVolume_fileDescriptor (header : Header) (s : DiskSession) (volume : Int) (content : Bytes)
    (volumeHeader : VolumeHeader) :
    (passVolume header volume content volumeHeader s).fileDescriptor =
      { markSplit header s.reader.index volumeHeader s.fileDescriptor with
        volume := s.fileDescriptor.volume + 1 } := by
  rw [passVolume, enterVolume_fileDescriptor, markSplit_volume]

/-- The search that starts with `s` is about to try the volume.  `P` is what the volumes that it has passed
over keep of the descriptor. -/
structure Passing (P : FileDescriptor → Prop) (s : DiskSession) (volume : Nat) (t : DiskSession) : Prop
    extends Searching s t where
  here : t.fileDescriptor.volume.toNat = volume
  kept : P t.fileDescriptor

/-- A volume whose header ends before the file is passed over. -/
theorem Passing.next {P : FileDescriptor → Prop} {index : Int} {s t : DiskSession} {volume : Nat}
    {content : Bytes} {volumeHeader : VolumeHeader} (passing : Passing P s volume t) (bound : volume < 65535)
    (opens : Opens header s.io.store.cabinets volume content volumeHeader)
    (moves : MovesOn header volumeHeader index)
    (keeps : ∀ fd next, P fd → P { markSplit header s.reader.index volumeHeader fd with volume := next }) :
    ∃ u, readerCreateTurn libraries.onDisk header index () t = (.ret (.again ()), u) ∧
      Passing P s (volume + 1) u := by
  have opens' : Opens header t.io.store.cabinets t.fileDescriptor.volume.toNat content volumeHeader := by
    rw [passing.store, passing.here]
    exact opens
  have turn := readerCreateTurn_run libraries index opens'
  rw [if_pos moves, Proc.modify_bind_run, Proc.pure_run] at turn
  have passed := passVolume_searching header t t.fileDescriptor.volume.toNat content volumeHeader
  have descriptor := passVolume_fileDescriptor header t t.fileDescriptor.volume.toNat content volumeHeader
  refine ⟨_, turn, ⟨passing.toSameAround.trans passed.toSameAround, passed.seed.trans passing.seed⟩, ?_, ?_⟩
  · show (passVolume header t.fileDescriptor.volume.toNat content volumeHeader t).fileDescriptor.volume.toNat
      = _
    rw [descriptor, UInt16.toNat_add, passing.here]
    show (volume + 1) % 65536 = _
    omega
  · show P (passVolume header t.fileDescriptor.volume.toNat content volumeHeader t).fileDescriptor
    rw [descriptor, passing.index]
    exact keeps _ _ passing.kept

/-- Volumes whose header ends before the file are passed over.  `P` is what they keep of the
descriptor. -/
theorem readerCreateLoop_passes {P : FileDescriptor → Prop} {index : Int} {start : UInt16}
    {content : Bytes} {volumeHeader : VolumeHeader} (count : Nat) :
    ∀ (s : DiskSession), s.fileDescriptor.volume.toNat + count = start.toNat →
      P s.fileDescriptor →
      (∀ volume : Nat, s.fileDescriptor.volume.toNat ≤ volume → volume < start.toNat →
        ∃ content volumeHeader, Opens header s.io.store.cabinets volume content volumeHeader ∧
          MovesOn header volumeHeader index ∧
          ∀ fd next, P fd → P { markSplit header s.reader.index volumeHeader fd with volume := next }) →
      Opens header s.io.store.cabinets start.toNat content volumeHeader →
      ¬ MovesOn header volumeHeader index →
      ∀ fuel > count, ∃ t, Searching s t ∧ P t.fileDescriptor ∧ t.fileDescriptor.volume = start ∧
        Proc.iterate (readerCreateTurn libraries.onDisk header index) fuel () s =
          (.ret (), enterVolume header start.toNat content volumeHeader t) := by
  intro s there holds passed opens stays fuel enough
  have pass : ∀ volume (vars : Unit) t, volume < start.toNat →
      s.fileDescriptor.volume.toNat ≤ volume ∧ Passing P s volume t →
        ∃ next u, readerCreateTurn libraries.onDisk header index vars t = (.ret (.again next), u) ∧
          s.fileDescriptor.volume.toNat ≤ volume + 1 ∧ Passing P s (volume + 1) u := by
    rintro volume ⟨⟩ t high ⟨low, passing⟩
    obtain ⟨content', volumeHeader', opens', moves, keeps⟩ := passed volume low high
    have bound := start.toNat_lt
    obtain ⟨u, turn, next⟩ := passing.next libraries (by omega) opens' moves keeps
    exact ⟨(), u, turn, Nat.le_succ_of_le low, next⟩
  obtain ⟨_, t, ⟨_, passing⟩, run⟩ := Proc.iterate_passes pass count there
    ⟨Nat.le_refl _, ⟨⟨.refl s, rfl⟩, rfl, holds⟩⟩
  have here : t.fileDescriptor.volume = start := UInt16.toNat_inj.1 passing.here
  have opens' : Opens header t.io.store.cabinets t.fileDescriptor.volume.toNat content volumeHeader := by
    rw [passing.store, here]
    exact opens
  have turn := readerCreateTurn_run libraries index opens'
  rw [if_neg stays, here] at turn
  obtain ⟨more, rfl⟩ : ∃ more, fuel = count + (more + 1) := ⟨fuel - count - 1, by omega⟩
  refine ⟨t, passing.toSearching, passing.kept, here, ?_⟩
  rw [run]
  exact Proc.iterate_succ_of_done turn

/-- Whatever volumes are passed over, they only change the volume number and the mark. -/
theorem readerCreateLoop_search {index : Int} {fd : FileDescriptor} {start : UInt16}
    {content : Bytes} {volumeHeader : VolumeHeader} (s : DiskSession)
    (not_before : s.fileDescriptor.volume.toNat ≤ start.toNat) (search : UpToSearch fd s.fileDescriptor)
    (passed : ∀ volume : Nat, s.fileDescriptor.volume.toNat ≤ volume → volume < start.toNat →
      ∃ content volumeHeader, Opens header s.io.store.cabinets volume content volumeHeader ∧
        MovesOn header volumeHeader index)
    (opens : Opens header s.io.store.cabinets start.toNat content volumeHeader)
    (stays : ¬ MovesOn header volumeHeader index) {fuel : Nat}
    (enough : start.toNat - s.fileDescriptor.volume.toNat < fuel) :
    ∃ t, Searching s t ∧ UpToSearch fd t.fileDescriptor ∧ t.fileDescriptor.volume = start ∧
      Proc.iterate (readerCreateTurn libraries.onDisk header index) fuel () s =
        (.ret (), enterVolume header start.toNat content volumeHeader t) := by
  apply readerCreateLoop_passes libraries _ s (Nat.add_sub_of_le not_before) search _ opens stays fuel
    enough
  intro volume low high
  obtain ⟨content', volumeHeader', opens', moves⟩ := passed volume low high
  exact ⟨content', volumeHeader', opens', moves, fun fd' next search' =>
    (search'.trans (upToSearch_markSplit _ _ _ _)).next next⟩

/-! ### The size check -/

/-- Asking for the size of a file leaves its position alone. -/
theorem fsizeVolume_run {s : DiskSession} {file : Stream}
    (opened : s.reader.volumeFile = some file) :
    fsizeVolume libraries.onDisk s = (.ret (file.content.length : Int), s) := by
  have atEnd : Disk.fseek file 0 .toEnd s.io =
      ({ file with position := file.content.length }, s.io) := by
    simp [Disk.fseek]
  have back : Disk.fseek { file with position := file.content.length } (file.position : Int) .set
      s.io = (file, s.io) := by
    simp [Disk.fseek]
  have size : fsize libraries.onDisk file s.io = ((file.content.length : Int), file, s.io) := by
    unfold fsize
    simp only [Disk.ftell, atEnd, back]
  rw [fsizeVolume, opened]
  simp only [size]
  rw [← opened]

/-- The check that a file is inside the cabinet: its offset is not the size of the volume. -/
theorem inside_of_ne {content : Bytes} {fd : FileDescriptor}
    (ne : fd.dataOffset.toNat ≠ content.length) :
    (content.length : Int) ≠ fd.dataOffset.toInt64.toInt :=
  fun eq => ne (Bits.toNat_of_toInt64_toInt eq.symm)

/-! ### The output file -/

/-- A stream to which `written` has been written. -/
def outputStream (path written : Bytes) : Stream :=
  { name := some path, content := written, position := written.length }

/-- The output file is open, and `written` has been written to it so far. -/
structure Writing (s : DiskSession) (path written : Bytes) : Prop where
  output : s.output = some (outputStream path written)
  file : s.io.store.files path = some written

/-- What writing leaves alone. -/
structure SameInput (s t : DiskSession) : Prop where
  reader : t.reader = s.reader
  fileDescriptor : t.fileDescriptor = s.fileDescriptor
  cabinets : t.io.store.cabinets = s.io.store.cabinets
  closed : t.io.closed = s.io.closed

namespace SameInput

theorem refl (s : DiskSession) : SameInput s s := ⟨rfl, rfl, rfl, rfl⟩

theorem trans {s t u : DiskSession} (one : SameInput s t) (two : SameInput t u) : SameInput s u :=
  ⟨two.reader.trans one.reader, two.fileDescriptor.trans one.fileDescriptor,
    two.cabinets.trans one.cabinets, two.closed.trans one.closed⟩

end SameInput

/-- What a call on the output does to the disk: the file has another content, `room` is left, and nothing
else changes. -/
structure Wrote (disk disk' : Disk) (path content : Bytes) (room : Nat) : Prop where
  file : disk'.store.files path = some content
  cabinets : disk'.store.cabinets = disk.store.cabinets
  closed : disk'.closed = disk.closed
  room : disk'.store.room = room

/-- Where a file is truncated there is no less room than before. -/
theorem room_le_truncate (store : Store) (path : Bytes) : store.room ≤ (store.truncate path).room := by
  have bound := store.room_lt
  show store.room ≤ min (store.room + ((store.files path).getD []).length) (2 ^ 63 - 1)
  omega

theorem fopen_write_run {disk : Disk} {path : Bytes} (writable : disk.store.writable path = true) :
    ∃ disk', Disk.fopen path .writeBinary disk = (some (outputStream path []), disk') ∧
      Wrote disk disk' path [] (disk.store.truncate path).room := by
  rw [Disk.fopen, if_pos writable]
  exact ⟨_, rfl, Function.update_self _ _ _, rfl, rfl, rfl⟩

theorem fwrite_run {disk : Disk} {path written data : Bytes} (room : data.length ≤ disk.store.room) :
    ∃ disk', Disk.fwrite (outputStream path written) data disk =
        (data.length, outputStream path (written ++ data), disk') ∧
      Wrote disk disk' path (written ++ data) (disk.store.room - data.length) := by
  have behind : Buffer.overwrite written written.length data = written ++ data := by
    rw [Buffer.overwrite, List.take_length, List.drop_of_length_le (Nat.le_add_right _ _),
      List.append_nil]
  simp only [Disk.fwrite, outputStream, List.take_of_length_le room, behind, List.length_append]
  exact ⟨_, rfl, Function.update_self _ _ _, rfl, rfl, rfl⟩

theorem fopenOutput_run {s : DiskSession} {path : Bytes}
    (writable : s.io.store.writable path = true) :
    ∃ t, fopenOutput libraries.onDisk (some path) s = (.ret (), t) ∧ Writing t path [] ∧
      SameInput s t ∧ s.io.store.room ≤ t.io.store.room := by
  obtain ⟨io, run, wrote⟩ := fopen_write_run writable
  refine ⟨{ s with output := some (outputStream path []), io := io }, ?_, ⟨rfl, wrote.file⟩,
    ⟨rfl, rfl, wrote.cabinets, wrote.closed⟩, (room_le_truncate _ _).trans_eq wrote.room.symm⟩
  rw [fopenOutput]
  simp only [run, Option.isSome_some, if_true]

/-- With enough room everything is written, behind what was written before. -/
theorem fwriteOutput_run {s : DiskSession} {path written data : Bytes}
    (writing : Writing s path written) (room : data.length ≤ s.io.store.room) :
    ∃ t, fwriteOutput libraries.onDisk data s = (.ret (), t) ∧ Writing t path (written ++ data) ∧
      SameInput s t ∧ t.io.store.room = s.io.store.room - data.length := by
  obtain ⟨io, run, wrote⟩ := @fwrite_run _ path written _ room
  refine ⟨{ s with output := some (outputStream path (written ++ data)), io := io }, ?_,
    ⟨rfl, wrote.file⟩, ⟨rfl, rfl, wrote.cabinets, wrote.closed⟩, wrote.room⟩
  rw [fwriteOutput, writing.output]
  simp only [run, if_true]

theorem writable_of_fopenOutput {s t : DiskSession} {path : Bytes}
    (run : fopenOutput libraries.onDisk (some path) s = (.ret (), t)) :
    s.io.store.writable path = true := by
  by_contra denied
  rw [fopenOutput] at run
  simp only [Disk.fopen, denied] at run
  cases run

/-- A write that succeeds had enough room. -/
theorem room_of_fwriteOutput {s t : DiskSession} {path written data : Bytes}
    (writing : Writing s path written)
    (run : fwriteOutput libraries.onDisk data s = (.ret (), t)) :
    data.length ≤ s.io.store.room := by
  by_contra full
  have short : (Disk.fwrite (outputStream path written) data s.io).1 ≠ data.length := by
    show (data.take s.io.store.room).length ≠ _
    rw [List.length_take]
    omega
  rw [fwriteOutput, writing.output] at run
  change (if (Disk.fwrite (outputStream path written) data s.io).1 = data.length then _ else _) =
    _ at run
  rw [if_neg short] at run
  cases run

theorem Writing.of_sameAround {s t : DiskSession} {path written : Bytes}
    (writing : Writing s path written) (same : SameAround s t) : Writing t path written :=
  ⟨same.output.trans writing.output, by rw [same.store]; exact writing.file⟩

theorem Stands.of_sameInput {s t : DiskSession} {current : Bytes} {rest : List Bytes}
    (stands : Stands header s current rest) (same : SameInput s t) :
    Stands header t current rest := by
  refine ⟨?_, ?_, ?_⟩
  · rw [same.reader]
    exact stands.file
  · rw [same.reader]
    exact stands.left
  · rw [same.reader, same.fileDescriptor, same.cabinets]
    exact stands.follows

theorem Delivers.of_sameInput {s t : DiskSession} {current stream : Bytes} {rest : List Bytes}
    (delivers : Delivers header s current rest stream) (same : SameInput s t) :
    Delivers header t current rest stream := by
  refine ⟨delivers.toStands.of_sameInput same, ?_⟩
  rw [same.reader, same.fileDescriptor]
  exact delivers.clear

/-! ### From a call to its session -/

/-- The descriptor that the library has, or decodes, for an index. -/
def Describes (header : Header) (library : Library Disk) (index : Int) (fd : FileDescriptor) :
    Prop :=
  (getFileDescriptor header index library).1 = .ret fd

theorem getFileDescriptor_run {library : Library Disk} {index : Int} {fd : FileDescriptor}
    (describes : Describes header library index fd) :
    ∃ library', getFileDescriptor header index library = (.ret fd, library') ∧
      library'.io = library.io :=
  ⟨_, Proc.run_eq_ret describes, getFileDescriptor_io⟩

/-- A call can succeed: the index has a valid descriptor that is no link, and `size` bytes can be
written to a file of the given name.  A path that may be written leads to no volume, as
`Store.volumes_protected` says. -/
structure Extractable (header : Header) (library : Library Disk) (index : Int) (fd : FileDescriptor)
    (path : Bytes) (size : Nat) : Prop where
  describes : Describes header library index fd
  valid : ¬ fd.Has fileInvalid
  nonzero : fd.dataOffset ≠ 0
  unlinked : fd.linkFlags &&& linkPrev = 0
  writable : library.io.store.writable path = true
  room : size ≤ library.io.store.room

/-- The session of a valid file starts with what the library knows once the descriptor is found. -/
theorem saveThroughLinks_run_known (save : Nat → Int → Proc DiskSession Unit) {library : Library Disk}
    (fuel : Nat) {index : Int} {fd : FileDescriptor} {path : Bytes} {size : Nat}
    (extractable : Extractable archive.header library index fd path size) :
    ∃ library', library'.io = library.io ∧
      library'.fileDescriptors = (getFileDescriptor archive.header index library).2.fileDescriptors ∧
      saveThroughLinks libraries.onDisk archive save (fuel + 1) index library =
        runSession libraries.onDisk index.toNat fd (save fuel index) library' := by
  have valid : ¬ (fd.Has fileInvalid ∨ fd.dataOffset = 0) := by
    rintro (invalid | zero)
    · exact extractable.valid invalid
    · exact extractable.nonzero zero
  refine ⟨_, getFileDescriptor_io, rfl, ?_⟩
  rw [saveThroughLinks, Proc.bind_of_ret (Proc.run_eq_ret extractable.describes),
    Proc.bind_of_ret (Proc.require_run_of valid _), if_neg (not_not_intro extractable.unlinked)]

/-- A valid file that is not a link is saved in a session of its own. -/
theorem saveThroughLinks_run (save : Nat → Int → Proc DiskSession Unit) {library : Library Disk}
    (fuel : Nat) {index : Int} {fd : FileDescriptor} {path : Bytes} {size : Nat}
    (extractable : Extractable archive.header library index fd path size) :
    ∃ library', library'.io = library.io ∧
      saveThroughLinks libraries.onDisk archive save (fuel + 1) index library =
        runSession libraries.onDisk index.toNat fd (save fuel index) library' := by
  obtain ⟨library', io, _, run⟩ := saveThroughLinks_run_known libraries save fuel extractable
  exact ⟨library', io, run⟩

theorem closeSession_store (s : DiskSession) :
    (closeSession libraries.onDisk s).io.store = s.io.store := by
  rw [closeSession]
  cases s.reader.volumeFile <;> cases s.output <;> rfl

/-- The stream that was closed last is one that was opened on the path, and `out` is what it has
accepted. -/
def Accepted (path out : Bytes) (disk : Disk) : Prop :=
  ∃ earlier, disk.closed = outputStream path out :: earlier

/-- The output is closed last. -/
theorem Writing.accepted {s : DiskSession} {path written : Bytes} (writing : Writing s path written) :
    Accepted path written (closeSession libraries.onDisk s).io := by
  rw [closeSession, writing.output]
  exact ⟨_, rfl⟩

theorem closeSession_closed {s : DiskSession} {file output : Stream}
    (opened : s.reader.volumeFile = some file) (writing : s.output = some output) :
    (closeSession libraries.onDisk s).io.closed = output :: file :: s.io.closed := by
  rw [closeSession, opened, writing]
  rfl

theorem runSession_ret {body : Proc DiskSession Unit} {library : Library Disk} {index : Nat}
    {fd : FileDescriptor} {t : DiskSession}
    (run : body (startSession fd library.io) = (.ret (), t)) :
    ∃ library', runSession libraries.onDisk index fd body library = (.ret (), library') ∧
      library'.io = (closeSession libraries.onDisk t).io := by
  rw [startSession] at run
  rw [runSession]
  simp only [run]
  exact ⟨_, rfl, rfl⟩

/-- A session that comes back hands on its files and its descriptor. -/
theorem runSession_of_orderly {body : Proc DiskSession Unit} {library : Library Disk} {index : Nat}
    {fd : FileDescriptor} {t : DiskSession} {exit : Exit Unit} (orderly : exit.Orderly)
    (run : body (startSession fd library.io) = (exit, t)) :
    ∃ library', runSession libraries.onDisk index fd body library = (exit, library') ∧
      library'.io = (closeSession libraries.onDisk t).io ∧
      library'.fileDescriptors = Function.update library.fileDescriptors index (some t.fileDescriptor) := by
  rw [startSession] at run
  rw [runSession]
  simp only [run]
  cases exit with
  | ret value => exact ⟨_, rfl, rfl, rfl⟩
  | fail => exact ⟨_, rfl, rfl, rfl⟩
  | abort => exact absurd orderly id
  | fault => exact absurd orderly id
  | timeout => exact absurd orderly id

/-- However a session ends, the call ends so and leaves the same files. -/
theorem runSession_store {body : Proc DiskSession Unit} {library : Library Disk} {index : Nat}
    {fd : FileDescriptor} {t : DiskSession} {exit : Exit Unit}
    (run : body (startSession fd library.io) = (exit, t)) :
    ∃ library', runSession libraries.onDisk index fd body library = (exit, library') ∧
      library'.io.store = t.io.store := by
  rw [startSession] at run
  rw [runSession]
  simp only [run]
  cases exit with
  | ret value => exact ⟨_, rfl, closeSession_store libraries t⟩
  | fail => exact ⟨_, rfl, closeSession_store libraries t⟩
  | abort => exact ⟨_, rfl, rfl⟩
  | fault => exact ⟨_, rfl, rfl⟩
  | timeout => exact ⟨_, rfl, rfl⟩

/-- A call that returns was a session that returned. -/
theorem runSession_eq_ret {body : Proc DiskSession Unit} {library library' : Library Disk}
    {index : Nat} {fd : FileDescriptor}
    (run : runSession libraries.onDisk index fd body library = (.ret (), library')) :
    ∃ t, body (startSession fd library.io) = (.ret (), t) ∧
      library'.io = (closeSession libraries.onDisk t).io := by
  rw [runSession] at run
  rw [startSession]
  rcases called : body { reader := { index := 0 }, fileDescriptor := fd, io := library.io } with
    ⟨exit, t⟩
  simp only [called] at run
  cases exit with
  | ret value =>
      refine ⟨t, rfl, ?_⟩
      rw [← (Prod.mk.inj run).2]
  | fail => cases run
  | abort => cases run
  | fault => cases run
  | timeout => cases run

end

end Unshield
