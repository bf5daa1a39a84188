/-
Module: Unshield.Proofs.ReaderSteps
Purpose: What opening a volume and one read do with the default callbacks.
Trusted boundary: none
Main exports: openHeaders, enterPortion, readerOpenVolume_eq, VolumeFile, Opens, enterVolume,
  readerOpenVolume_run, opens_of_openHeaders, SameAround
-/
import Unshield.Core.Reader
import Mathlib.Tactic.Common

namespace Unshield

open Procedure

/-! ### The two halves of opening a volume -/

section

variable {σ H : Type} (env : Environment σ H) (header : Header) (volume : Int)

/-- The volume file is opened and its headers are read. -/
def openHeaders : Proc (Session σ H) VolumeHeader := do
  fcloseVolume env
  fopenVolume env volume
  let tmp ← freadVolume env commonHeaderSize
  let _ ← Proc.ofExit (readCommonHeader tmp)
  Proc.modify fun s => { s with reader.volumeHeader := {} }
  let block ← freadVolume env (volumeHeaderSize header)
  Proc.access (readVolumeHeader header block)

/-- The reader goes to the portion of the file. -/
def enterPortion (volumeHeader : VolumeHeader) : Proc (Session σ H) Unit := do
  Proc.modify fun s =>
    { s with
      reader.volumeHeader := volumeHeader
      fileDescriptor := markSplit header s.reader.index volumeHeader s.fileDescriptor }
  let portion ← Proc.gets fun s => selectPortion s.reader.index volumeHeader s.fileDescriptor
  match portion with
  | none => pure ()
  | some portion => do
      Proc.modify fun s =>
        { s with reader.volumeBytesLeft := portion.volumeBytesLeft s.fileDescriptor }
      fseekVolume env portion.dataOffset.toInt64.toInt
      Proc.modify fun s => { s with reader.volume := volume }

theorem readerOpenVolume_eq :
    readerOpenVolume env header volume =
      openHeaders env header volume >>= enterPortion env header volume := by
  simp only [openHeaders, Proc.bind_assoc]
  rfl

end

/-! ### Volumes on a disk -/

/-- A session of a cabinet that was opened with the default callbacks. -/
abbrev DiskSession := Session Disk Stream

/-- A file that opens as a volume, and the volume header it records. -/
structure VolumeFile (header : Header) (content : Bytes) (volumeHeader : VolumeHeader) : Prop where
  long : commonHeaderSize + volumeHeaderSize header ≤ content.length
  common : ∃ common, readCommonHeader (content.take commonHeaderSize) = .ret common
  parsed : readVolumeHeader header
    ((content.drop commonHeaderSize).take (volumeHeaderSize header)) = some volumeHeader

/-- The volume can be opened: there is such a file, and it has this header. -/
structure Opens (header : Header) (cabinets : Int → Option Bytes) (volume : Int) (content : Bytes)
    (volumeHeader : VolumeHeader) : Prop where
  cabinet : cabinets volume = some content
  valid : VolumeFile header content volumeHeader

theorem Opens.unique {header : Header} {cabinets : Int → Option Bytes} {volume : Int}
    {one two : Bytes} {first second : VolumeHeader} (h : Opens header cabinets volume one first)
    (h' : Opens header cabinets volume two second) : one = two ∧ first = second := by
  have same : one = two := Option.some.inj (h.cabinet.symm.trans h'.cabinet)
  subst same
  exact ⟨rfl, Option.some.inj (h.valid.parsed.symm.trans h'.valid.parsed)⟩

/-- What the functions of the reader leave alone. -/
structure SameAround (s t : DiskSession) : Prop where
  output : t.output = s.output
  store : t.io.store = s.io.store
  index : t.reader.index = s.reader.index

namespace SameAround

theorem refl (s : DiskSession) : SameAround s s := ⟨rfl, rfl, rfl⟩

theorem trans {s t u : DiskSession} (one : SameAround s t) (two : SameAround t u) :
    SameAround s u :=
  ⟨two.output.trans one.output, two.store.trans one.store, two.index.trans one.index⟩

end SameAround

/-! ### Opening a volume -/

/-- The session with its volume closed. -/
def closeVolume (s : DiskSession) : DiskSession :=
  { s with
    reader.volumeFile := none
    io :=
      match s.reader.volumeFile with
      | none => s.io
      | some file => Disk.fclose file s.io }

/-- The session after a volume has been opened. -/
def enterVolume (header : Header) (volume : Int) (content : Bytes) (volumeHeader : VolumeHeader)
    (s : DiskSession) : DiskSession :=
  let fd := markSplit header s.reader.index volumeHeader s.fileDescriptor
  let file : Stream := { content, position := commonHeaderSize + volumeHeaderSize header }
  let io := (closeVolume s).io
  match selectPortion s.reader.index volumeHeader fd with
  | none =>
      { s with
        reader := { s.reader with volumeFile := some file, volumeHeader }
        fileDescriptor := fd
        io }
  | some portion =>
      { s with
        reader :=
          { s.reader with
            volume
            volumeFile := some (Disk.fseek file portion.dataOffset.toInt64.toInt .set io).1
            volumeHeader
            volumeBytesLeft := portion.volumeBytesLeft fd }
        fileDescriptor := fd
        io }

section

variable (libraries : Libraries) {header : Header} {volume : Int} {content : Bytes}
  {volumeHeader : VolumeHeader} {s : DiskSession}

theorem fcloseVolume_run : fcloseVolume libraries.onDisk s = (.ret (), closeVolume s) := by
  rcases s with ⟨⟨index, volume, volumeFile, volumeHeader, left, offset⟩, fd, output, io⟩
  cases volumeFile <;> rfl

theorem closeVolume_store : (closeVolume s).io.store = s.io.store := by
  rw [closeVolume]
  cases s.reader.volumeFile <;> rfl

theorem fopenVolume_run (cabinet : s.io.store.cabinets volume = some content) :
    fopenVolume libraries.onDisk volume s =
      (.ret (), { s with reader.volumeFile := some { content } }) := by
  rw [fopenVolume]
  simp only [Disk.openForReading, cabinet, Option.map_some, Option.isSome_some, if_true]

theorem freadVolume_run {file : Stream} {count : Nat} {data : Bytes}
    (open_file : s.reader.volumeFile = some file)
    (content : (file.content.drop file.position).take count = data) (length : data.length = count) :
    freadVolume libraries.onDisk count s =
      (.ret data, { s with
        reader.volumeFile := some { file with position := file.position + count } }) := by
  rw [freadVolume, open_file]
  simp only [Disk.fread, content, length, if_true]

theorem ftellVolume_run {file : Stream} (open_file : s.reader.volumeFile = some file) :
    ftellVolume libraries.onDisk s = (.ret (), s) := by
  rw [ftellVolume, open_file]
  rfl

theorem ftellVolume_eq_ret {t : DiskSession} (run : ftellVolume libraries.onDisk s = (.ret (), t)) :
    s = t := by
  cases opened : s.reader.volumeFile with
  | none =>
      rw [ftellVolume, opened] at run
      cases run
  | some file =>
      rw [ftellVolume_run libraries opened] at run
      exact (Prod.mk.inj run).2

theorem fseekVolume_run {file : Stream} (offset : Int)
    (open_file : s.reader.volumeFile = some file) :
    fseekVolume libraries.onDisk offset s =
      (.ret (), { s with
        reader.volumeFile := some (Disk.fseek file offset .set s.io).1 }) := by
  rw [fseekVolume, open_file]
  rfl

/-- Opening a volume with a valid header succeeds. -/
theorem readerOpenVolume_run
    (opens : Opens header s.io.store.cabinets volume content volumeHeader) :
    readerOpenVolume libraries.onDisk header volume s =
      (.ret (), enterVolume header volume content volumeHeader s) := by
  obtain ⟨cabinet, valid⟩ := opens
  obtain ⟨common, commonRead⟩ := valid.common
  have long := valid.long
  rw [readerOpenVolume, Proc.bind_of_ret (fcloseVolume_run libraries),
    Proc.bind_of_ret (fopenVolume_run libraries (by rw [closeVolume_store]; exact cabinet)),
    Proc.bind_of_ret (freadVolume_run libraries rfl rfl
      (by simp only [List.drop_zero, List.length_take]; omega))]
  simp only [List.drop_zero, Nat.zero_add, commonRead, Proc.ofExit_ret_bind_run,
    Proc.modify_bind_run]
  rw [Proc.bind_of_ret (freadVolume_run libraries rfl rfl
      (by simp only [List.length_take, List.length_drop]; omega))]
  simp only [valid.parsed, Proc.access_some_bind_run, Proc.modify_bind_run, Proc.gets_bind_run]
  rw [enterVolume]
  cases selected : selectPortion s.reader.index volumeHeader
      (markSplit header s.reader.index volumeHeader s.fileDescriptor) with
  | none =>
      simp only [closeVolume, selected]
      rfl
  | some portion =>
      simp only [closeVolume, selected, Proc.modify_bind_run]
      rw [Proc.bind_of_ret (fseekVolume_run libraries _ rfl)]
      rfl

theorem freadVolume_eq_ret {file : Stream} {count : Nat} {data : Bytes} {t : DiskSession}
    (run : freadVolume libraries.onDisk count s = (.ret data, t))
    (open_file : s.reader.volumeFile = some file) :
    data = (file.content.drop file.position).take count ∧ data.length = count ∧
      t.reader.volumeFile = some { file with position := file.position + count } := by
  by_cases full : ((file.content.drop file.position).take count).length = count
  · rw [freadVolume_run libraries open_file rfl full] at run
    obtain ⟨same, rfl⟩ := Prod.mk.inj run
    obtain rfl := Exit.ret.inj same
    exact ⟨rfl, full, rfl⟩
  · rw [freadVolume, open_file] at run
    change (if (Disk.fread file count s.io).1.length = count then _ else _) = _ at run
    rw [Disk.fread, if_neg full] at run
    cases run

/-- A volume whose headers could be read has valid ones. -/
theorem opens_of_openHeaders {t : DiskSession}
    (run : openHeaders libraries.onDisk header volume s = (.ret volumeHeader, t)) :
    ∃ content, Opens header s.io.store.cabinets volume content volumeHeader := by
  rw [openHeaders, Proc.bind_of_ret (fcloseVolume_run libraries)] at run
  obtain ⟨_, opened, fopen, run⟩ := Proc.bind_eq_ret_iff.1 run
  cases cabinet : s.io.store.cabinets volume with
  | none =>
      rw [fopenVolume] at fopen
      simp only [Disk.openForReading, closeVolume_store, cabinet] at fopen
      cases fopen
  | some content =>
      rw [fopenVolume_run libraries (by rw [closeVolume_store]; exact cabinet)] at fopen
      obtain rfl := (Prod.mk.inj fopen).2
      obtain ⟨tmp, s₁, read, run⟩ := Proc.bind_eq_ret_iff.1 run
      obtain ⟨front, front_length, file₁⟩ := freadVolume_eq_ret libraries read rfl
      obtain ⟨common, parsed_common, run⟩ := Proc.ofExit_bind_eq_ret_iff.1 run
      rw [Proc.modify_bind_run] at run
      obtain ⟨block, s₂, read', run⟩ := Proc.bind_eq_ret_iff.1 run
      obtain ⟨behind, behind_length, _⟩ := freadVolume_eq_ret libraries read' file₁
      have parsed := Exit.ofAccess_eq_ret_iff.1 (Prod.mk.inj run).1
      simp only [List.drop_zero, Nat.zero_add] at front behind
      refine ⟨content, cabinet, ?_, ⟨common, front ▸ parsed_common⟩, behind ▸ parsed⟩
      rw [behind, List.length_take, List.length_drop] at behind_length
      rw [front, List.length_take] at front_length
      omega

/-- A volume that could be opened has a valid header. -/
theorem opens_of_readerOpenVolume {t : DiskSession}
    (run : readerOpenVolume libraries.onDisk header volume s = (.ret (), t)) :
    ∃ content volumeHeader, Opens header s.io.store.cabinets volume content volumeHeader ∧
      t = enterVolume header volume content volumeHeader s := by
  have halves := run
  rw [readerOpenVolume_eq] at halves
  obtain ⟨volumeHeader, _, headers, _⟩ := Proc.bind_eq_ret_iff.1 halves
  obtain ⟨content, opens⟩ := opens_of_openHeaders libraries headers
  rw [readerOpenVolume_run libraries opens] at run
  exact ⟨content, volumeHeader, opens, (Prod.mk.inj run).2.symm⟩

/-- Opening a volume keeps its header, whatever portion it has of the file. -/
theorem enterVolume_volumeHeader :
    (enterVolume header volume content volumeHeader s).reader.volumeHeader = volumeHeader := by
  rw [enterVolume]
  split <;> rfl

theorem enterVolume_volumeFile :
    ∃ position, (enterVolume header volume content volumeHeader s).reader.volumeFile =
      some { content, position } := by
  rw [enterVolume]
  split
  · exact ⟨_, rfl⟩
  · rw [Disk.fseek]
    split <;> exact ⟨_, rfl⟩

theorem enterVolume_fileDescriptor :
    (enterVolume header volume content volumeHeader s).fileDescriptor =
      markSplit header s.reader.index volumeHeader s.fileDescriptor := by
  rw [enterVolume]
  split <;> rfl

theorem enterVolume_seed :
    (enterVolume header volume content volumeHeader s).reader.obfuscationOffset =
      s.reader.obfuscationOffset := by
  rw [enterVolume]
  split <;> rfl

theorem enterVolume_sameAround :
    SameAround s (enterVolume header volume content volumeHeader s) := by
  have store : (closeVolume s).io.store = s.io.store := closeVolume_store
  rw [enterVolume]
  split
  · exact ⟨rfl, store, rfl⟩
  · exact ⟨rfl, store, rfl⟩

end

end Unshield
