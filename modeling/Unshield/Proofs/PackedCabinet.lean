/-
Module: Unshield.Proofs.PackedCabinet
Purpose: Whole cabinets put together from files: a header that lists them, and volumes that hold them one
  behind the other, plain or in compressed chunks, obfuscated or not.
Trusted boundary: none
Main exports: PackedFile, PackedCabinet, PackedCabinet.catalogue, PackedCabinet.volumeFiles
-/
import Unshield.Proofs.Deobfuscation
import Unshield.Proofs.FileContents
import Unshield.Proofs.HeaderRoundTrip

namespace Unshield

open Procedure

/-! ### Packing -/

/-- A file with what is to be stored of it: its content as it is, or chunks that inflate to it. -/
structure PackedFile where
  name : Bytes
  directory : UInt16
  content : Bytes
  chunks : Option (List Bytes)
  obfuscated : Bool
  md5 : Bytes
  md5_length : md5.length = 16

namespace PackedFile

/-- The clear bytes that are stored. -/
def stream (file : PackedFile) : Bytes :=
  match file.chunks with
  | none => file.content
  | some chunks => frames chunks

def stored (file : PackedFile) : Bytes :=
  if file.obfuscated then obfuscate file.stream 0 else file.stream

def flags (file : PackedFile) : UInt16 :=
  (if file.obfuscated then fileObfuscated else 0) ||| (if file.chunks.isSome then fileCompressed else 0)

/-- What the header says of a file that is stored in a volume at an offset. -/
def entry (file : PackedFile) (volume offset : Nat) : FileEntry where
  name := file.name
  directory := file.directory
  flags := file.flags
  expandedSize := UInt64.ofNat file.content.length
  compressedSize := UInt64.ofNat file.stored.length
  dataOffset := UInt64.ofNat offset
  md5 := file.md5
  volume := UInt16.ofNat volume
  md5_length := file.md5_length

end PackedFile

/-- A cabinet by the files in each of its volumes, with the other things that its header says. -/
structure PackedCabinet where
  version : UInt32
  volumeInfo : UInt32
  directories : List Bytes
  volumes : List (List PackedFile)
  fileGroups : List (List GroupEntry)
  components : List (List ComponentEntry)

/-- Where the data of a volume starts in this version. -/
def volumeStart (major : Int) : Nat :=
  commonHeaderSize + if major = 0 ∨ major = 5 then volumeHeaderSizeV5 else volumeHeaderSizeV6

/-- The entries of files that lie one behind the other in a volume. -/
def entriesFrom (volume : Nat) : Nat → List PackedFile → List FileEntry
  | _, [] => []
  | offset, file :: files =>
      file.entry volume offset :: entriesFrom volume (offset + file.stored.length) files

/-- The entries of the files in all volumes from a number on. -/
def entriesOf (start : Nat) : Nat → List (List PackedFile) → List FileEntry
  | _, [] => []
  | volume, files :: volumes => entriesFrom volume start files ++ entriesOf start (volume + 1) volumes

namespace PackedCabinet

variable (major : Int) (cabinet : PackedCabinet)

def files : List PackedFile := cabinet.volumes.flatten

def catalogue : Catalogue where
  version := cabinet.version
  volumeInfo := cabinet.volumeInfo
  directories := cabinet.directories
  files := entriesOf (volumeStart major) 1 cabinet.volumes
  fileGroups := cabinet.fileGroups
  components := cabinet.components

def header : Header := (cabinet.catalogue major).header major 1

/-- The header of each volume says that the last file may be in it, so that no search goes on. -/
def volumeHeader : VolumeHeader := { lastFileIndex := UInt32.ofNat (cabinet.files.length - 1) }

/-- A volume with these files.  The byte behind them keeps an empty file from starting at the end. -/
def volumeFile (files : List PackedFile) : Bytes :=
  volumeBytes (cabinet.header major) plainCommonHeader cabinet.volumeHeader
    (files.flatMap PackedFile.stored ++ [0])

def volumeFiles : List Bytes := cabinet.volumes.map (cabinet.volumeFile major)

end PackedCabinet

/-! ### What is where -/

/-- The file lies in a volume at an offset. -/
structure LiesAt (start : Nat) (volumes : List (List PackedFile)) (file : PackedFile) (volume offset : Nat) :
    Prop where
  positive : 0 < volume
  placed : ∃ before behind, volumes[volume - 1]? = some (before ++ file :: behind) ∧
    offset = start + (before.flatMap PackedFile.stored).length

theorem liesAt_entriesFrom {start volume : Nat} {volumes : List (List PackedFile)} (positive : 0 < volume)
    (files : List PackedFile) : ∀ (before : List PackedFile), volumes[volume - 1]? = some (before ++ files) →
      List.Forall₂ (fun file entry => ∃ offset, entry = file.entry volume offset ∧
          LiesAt start volumes file volume offset) files
        (entriesFrom volume (start + (before.flatMap PackedFile.stored).length) files) := by
  induction files with
  | nil => exact fun _ _ => .nil
  | cons file files ih =>
      intro before there
      refine .cons ⟨_, rfl, positive, before, files, there, rfl⟩ ?_
      have rest := ih (before ++ [file]) (by rw [there, List.append_assoc]; rfl)
      rw [List.flatMap_append, List.flatMap_singleton, List.length_append, ← Nat.add_assoc] at rest
      exact rest

/-- Each file has an entry, which says where it lies. -/
theorem liesAt_entriesOf {start : Nat} {all : List (List PackedFile)} (volumes : List (List PackedFile)) :
    ∀ (volume : Nat), 0 < volume → all.drop (volume - 1) = volumes →
      List.Forall₂ (fun file entry => ∃ volume offset, entry = file.entry volume offset ∧
        LiesAt start all file volume offset) volumes.flatten (entriesOf start volume volumes) := by
  induction volumes with
  | nil => exact fun _ _ _ => .nil
  | cons files volumes ih =>
      intro volume positive rest
      have here : all[volume - 1]? = some files := by
        rw [← List.head?_drop, rest]
        rfl
      have behind : all.drop (volume + 1 - 1) = volumes := by
        have next : volume + 1 - 1 = volume - 1 + 1 := by omega
        rw [next, ← List.tail_drop, rest]
        rfl
      have first := @liesAt_entriesFrom start volume all positive files [] here
      rw [List.flatten_cons, entriesOf]
      refine List.rel_append ?_ (ih (volume + 1) (Nat.succ_pos _) behind)
      exact first.imp fun file entry ⟨offset, same, lies⟩ => ⟨volume, offset, same, lies⟩

/-! ### Descriptors -/

theorem flags_packed (file : PackedFile) :
    file.flags &&& fileSplit = 0 ∧ file.flags &&& fileInvalid = 0 ∧
      (file.flags &&& fileObfuscated ≠ 0 ↔ file.obfuscated = true) ∧
      (file.flags &&& fileCompressed ≠ 0 ↔ file.chunks.isSome = true) := by
  rw [PackedFile.flags]
  cases file.obfuscated <;> cases file.chunks.isSome <;> decide

/-- What a descriptor takes over from the entry of a packed file. -/
structure IsPacked (header : Header) (file : PackedFile) (volume offset : Nat) (fd : FileDescriptor) :
    Prop where
  flags : fd.flags = file.flags
  expandedSize : fd.expandedSize = UInt64.ofNat file.content.length
  compressedSize : fd.compressedSize = UInt64.ofNat file.stored.length
  dataOffset : fd.dataOffset = UInt64.ofNat offset
  linkFlags : fd.linkFlags = 0
  md5 : header.majorVersion ≥ 6 → fd.md5 = file.md5
  volume : fd.volume = if header.OldLayout then UInt16.ofInt header.index else UInt16.ofNat volume

theorem isPacked_of_fields {header : Header} {file : PackedFile} {volume offset : Nat} {fd : FileDescriptor}
    (fields : fd = (file.entry volume offset).descriptor header fd.nameOffset) :
    IsPacked header file volume offset fd := by
  rw [FileEntry.descriptor] at fields
  split at fields
  · rename_i old
    exact
      { flags := congrArg FileDescriptor.flags fields
        expandedSize := congrArg FileDescriptor.expandedSize fields
        compressedSize := congrArg FileDescriptor.compressedSize fields
        dataOffset := congrArg FileDescriptor.dataOffset fields
        linkFlags := congrArg FileDescriptor.linkFlags fields
        md5 := fun new => by rcases old with zero | five <;> omega
        volume := (congrArg FileDescriptor.volume fields).trans (if_pos old).symm }
  · rename_i new
    exact
      { flags := congrArg FileDescriptor.flags fields
        expandedSize := congrArg FileDescriptor.expandedSize fields
        compressedSize := congrArg FileDescriptor.compressedSize fields
        dataOffset := congrArg FileDescriptor.dataOffset fields
        linkFlags := congrArg FileDescriptor.linkFlags fields
        md5 := fun _ => congrArg FileDescriptor.md5 fields
        volume := (congrArg FileDescriptor.volume fields).trans (if_neg new).symm }

/-! ### What is stored -/

namespace PackedFile

variable (libraries : Libraries) (major : Int) in
/-- What is stored of the file restores its content, and the sizes and the digest fit. -/
structure Good (file : PackedFile) : Prop where
  chunks : ∀ chunks, file.chunks = some chunks →
    (∀ chunk ∈ chunks, 1 ≤ chunk.length ∧ chunk.length ≤ 65535) ∧
      ∃ outputs, List.Forall₂ (Inflates libraries.zlib) chunks outputs ∧ outputs.flatten = file.content
  stored_lt : file.stored.length < 2 ^ 32
  content_lt : file.content.length < 2 ^ 64
  md5 : major ≥ 6 → libraries.md5.digest file.content = file.md5

end PackedFile

section

variable {libraries : Libraries} {header : Header} {file : PackedFile} {volume offset : Nat}
  {fd : FileDescriptor}

theorem length_obfuscate (clear : Bytes) (seed : UInt32) : (obfuscate clear seed).length = clear.length := by
  rw [obfuscate, List.length_mapIdx]

/-- The reader delivers the clear bytes. -/
theorem IsPacked.clearBytes (is : IsPacked header file volume offset fd) :
    clearBytes fd 0 file.stored = file.stream := by
  have obfuscated : fd.Has fileObfuscated ↔ file.obfuscated = true := by
    rw [FileDescriptor.Has, is.flags]
    exact (flags_packed file).2.2.1
  rw [Unshield.clearBytes, PackedFile.stored]
  by_cases hidden : file.obfuscated = true
  · rw [if_pos (obfuscated.2 hidden), if_pos hidden]
    exact obfuscate_rightInverse 0 file.stream
  · rw [if_neg fun has => hidden (obfuscated.1 has), if_neg hidden]

theorem IsPacked.hasContent (is : IsPacked header file volume offset fd)
    (good : file.Good libraries header.majorVersion) :
    ∃ sizes, HasContent libraries.zlib fd (Unshield.clearBytes fd 0 file.stored) sizes file.content := by
  have compressed : fd.Has fileCompressed ↔ file.chunks.isSome = true := by
    rw [FileDescriptor.Has, is.flags]
    exact (flags_packed file).2.2.2
  rw [is.clearBytes, PackedFile.stream]
  cases packed : file.chunks with
  | none =>
      refine ⟨_, .stored ?_ file.content⟩
      rw [compressed, packed]
      exact Bool.false_ne_true
  | some chunks =>
      obtain ⟨sizes, outputs, inflates, whole⟩ := good.chunks chunks packed
      rw [← whole]
      refine ⟨_, .chunks ?_ sizes inflates⟩
      rw [compressed, packed]
      rfl

theorem IsPacked.storedSize (is : IsPacked header file volume offset fd)
    (good : file.Good libraries header.majorVersion) : (storedSize fd).toNat = file.stored.length := by
  have small : file.stored.length < 2 ^ 64 := Nat.lt_trans good.stored_lt (by decide)
  rw [Unshield.storedSize]
  split
  · rw [is.compressedSize, UInt64.toNat_ofNat_of_lt' small]
  · rename_i plain
    rw [FileDescriptor.Has, is.flags, (flags_packed file).2.2.2, Bool.not_eq_true,
      Option.isSome_eq_false_iff, Option.isNone_iff_eq_none] at plain
    have length : file.stored.length = file.content.length := by
      rw [PackedFile.stored, PackedFile.stream, plain]
      split
      · exact length_obfuscate _ _
      · rfl
    rw [is.expandedSize, UInt64.toNat_ofNat_of_lt' (length ▸ small), length]

/-- The descriptor is that of a file that can be restored. -/
theorem IsPacked.restorable {archive : Archive} (is : IsPacked archive.header file volume offset fd)
    (good : file.Good libraries archive.header.majorVersion) (positive : 0 < offset)
    (small : offset < 2 ^ 64) : Restorable libraries archive fd file.content where
  valid := by
    rw [FileDescriptor.Has, is.flags, (flags_packed file).2.1]
    exact not_not_intro rfl
  nonzero := by
    rw [is.dataOffset]
    intro zero
    have value := congrArg UInt64.toNat zero
    rw [UInt64.toNat_ofNat_of_lt' small] at value
    exact absurd value (Nat.ne_of_gt positive)
  unlinked := by
    rw [is.linkFlags]
    rfl
  expanded := by
    rw [is.expandedSize, UInt64.toNat_ofNat_of_lt' good.content_lt]
  md5 := fun new => (good.md5 new).trans (is.md5 new).symm

end

/-! ### Volumes -/

namespace PackedCabinet

variable (libraries : Libraries) (major : Int) (cabinet : PackedCabinet)

/-- The cabinet can be written in this version.  Only from version 6 on do descriptors tell volumes apart. -/
structure Sound : Prop where
  catalogue : (cabinet.catalogue major).Sound major
  files : ∀ file ∈ cabinet.files, file.Good libraries major
  count : cabinet.volumes.length < 2 ^ 16
  single : major ≤ 5 → cabinet.volumes.length ≤ 1
  short : ∀ content ∈ cabinet.volumeFiles major, content.length < 2 ^ 63

variable {libraries major cabinet}

/-- Each file of the cabinet has an entry, which says where it lies. -/
theorem liesAt_files : List.Forall₂
    (fun file entry => ∃ volume offset, entry = file.entry volume offset ∧
      LiesAt (volumeStart major) cabinet.volumes file volume offset)
    cabinet.files (cabinet.catalogue major).files :=
  liesAt_entriesOf cabinet.volumes 1 Nat.one_pos rfl

theorem length_entries : (cabinet.catalogue major).files.length = cabinet.files.length :=
  (@liesAt_files major cabinet).length_eq.symm

theorem entry_of_file {i : Nat} {file : PackedFile} (there : cabinet.files[i]? = some file) :
    ∃ volume offset, (cabinet.catalogue major).files[i]? = some (file.entry volume offset) ∧
      LiesAt (volumeStart major) cabinet.volumes file volume offset := by
  obtain ⟨within, rfl⟩ := List.getElem?_eq_some_iff.1 there
  have within' : i < (cabinet.catalogue major).files.length := by
    rw [length_entries]
    exact within
  obtain ⟨volume, offset, same, lies⟩ := (@liesAt_files major cabinet).get within within'
  exact ⟨volume, offset, (List.getElem?_eq_getElem within').trans (congrArg some same), lies⟩

theorem dataStart_header : dataStart (cabinet.header major) = volumeStart major := rfl

/-- The volume that a file lies in, and its place there. -/
theorem volume_of_liesAt {file : PackedFile} {volume offset : Nat}
    (lies : LiesAt (volumeStart major) cabinet.volumes file volume offset) :
    ∃ files, shelf (cabinet.volumeFiles major) volume = some (cabinet.volumeFile major files) ∧
      ((cabinet.volumeFile major files).drop offset).take file.stored.length = file.stored ∧
      offset + file.stored.length < (cabinet.volumeFile major files).length ∧ 0 < offset := by
  obtain ⟨before, behind, there, rfl⟩ := lies.placed
  have positive := lies.positive
  have start_pos : 0 < volumeStart major := by
    rw [volumeStart, commonHeaderSize]
    omega
  refine ⟨before ++ file :: behind, ?_, ?_, ?_, by omega⟩
  · rw [shelf, if_pos (by omega), volumeFiles, List.getElem?_map]
    have number : ((volume : Int) - 1).toNat = volume - 1 := by omega
    rw [number, there]
    rfl
  · rw [volumeFile, ← List.drop_drop, ← @dataStart_header major cabinet, dataStart, drop_volumeBytes,
      List.flatMap_append, List.append_assoc, List.drop_left, List.flatMap_cons, List.append_assoc,
      List.take_left]
  · rw [volumeFile, volumeBytes, List.length_append, List.length_append, length_commonHeaderWords,
      length_volumeHeaderWords, List.length_append, List.flatMap_append, List.length_append,
      List.flatMap_cons, List.length_append, ← @dataStart_header major cabinet, dataStart,
      List.length_singleton]
    omega

section

variable {archive : Archive} (same : archive.header = cabinet.header major)
  (sound : cabinet.Sound libraries major)
  {file : PackedFile} {volume offset i : Nat} {fd : FileDescriptor}

theorem volume_lt (sound : cabinet.Sound libraries major)
    (lies : LiesAt (volumeStart major) cabinet.volumes file volume offset) : volume < 2 ^ 16 := by
  obtain ⟨before, behind, there, _⟩ := lies.placed
  have within := (List.getElem?_eq_some_iff.1 there).1
  have count := sound.count
  omega

/-- An old descriptor tells no volume, but then there is one only. -/
theorem volume_descriptor (sound : cabinet.Sound libraries major)
    (lies : LiesAt (volumeStart major) cabinet.volumes file volume offset)
    (is : IsPacked (cabinet.header major) file volume offset fd) : fd.volume.toNat = volume := by
  rw [is.volume]
  split
  · rename_i old
    obtain ⟨before, behind, there, _⟩ := lies.placed
    have within := (List.getElem?_eq_some_iff.1 there).1
    have positive := lies.positive
    have alone : cabinet.volumes.length ≤ 1 := by
      apply sound.single
      rcases old with zero | five
      · exact Int.le_trans (Int.le_of_eq zero) (by decide)
      · exact Int.le_of_eq five
    have first : volume = 1 := by omega
    rw [first]
    rfl
  · exact UInt16.toNat_ofNat_of_lt' (volume_lt sound lies)

theorem lastFileIndex_recorded : (recorded (cabinet.header major) cabinet.volumeHeader).lastFileIndex =
      UInt32.ofNat (cabinet.files.length - 1) ∧
    (recorded (cabinet.header major) cabinet.volumeHeader).firstFileIndex = 0 := by
  rw [recorded]
  split <;> exact ⟨rfl, rfl⟩

/-- No search for a volume goes on behind the file's own. -/
theorem not_movesOn (few : cabinet.files.length < 2 ^ 31) (within : i < cabinet.files.length) :
    ¬ MovesOn (cabinet.header major) (recorded (cabinet.header major) cabinet.volumeHeader) i := by
  rintro ⟨_, before⟩
  have small : (UInt32.ofNat (cabinet.files.length - 1)).toNat = cabinet.files.length - 1 :=
    UInt32.toNat_ofNat_of_lt' (by show _ < 2 ^ 32; omega)
  rw [lastFileIndex_recorded.1, Bits.toInt32_toInt_of_lt (by rw [small]; omega), small] at before
  omega

/-- No volume header marks a file split. -/
theorem markSplit_packed (few : cabinet.files.length < 2 ^ 31) (within : i < cabinet.files.length) :
    markSplit (cabinet.header major) (UInt32.ofInt i)
      (recorded (cabinet.header major) cabinet.volumeHeader) fd = fd := by
  have count : (cabinet.header major).cab.fileCount = UInt32.ofNat cabinet.files.length := by
    show UInt32.ofNat (cabinet.catalogue major).files.length = _
    rw [length_entries]
  rw [markSplit]
  split
  · rw [if_neg, if_neg]
    · rw [lastFileIndex_recorded.2]
      rintro ⟨positive, first, _⟩
      rw [first] at positive
      exact absurd positive (by decide)
    · rw [lastFileIndex_recorded.1, count]
      rintro ⟨before, last, _⟩
      have all : (UInt32.ofNat cabinet.files.length).toNat = cabinet.files.length :=
        UInt32.toNat_ofNat_of_lt' (by show _ < 2 ^ 32; omega)
      have others : (UInt32.ofNat (cabinet.files.length - 1)).toNat = cabinet.files.length - 1 :=
        UInt32.toNat_ofNat_of_lt' (by show _ < 2 ^ 32; omega)
      have one : (1 : UInt32) ≤ UInt32.ofNat cabinet.files.length := by
        rw [UInt32.le_iff_toNat_le, all]
        show 1 ≤ _
        omega
      rw [last, UInt32.lt_iff_toNat_lt, UInt32.toNat_sub_of_le _ _ one, all, others] at before
      exact absurd before (Nat.lt_irrefl _)
  · rfl

include sound

/-- The volumes hold the stored bytes of each file where its descriptor says. -/
theorem Sound.storedAt (there : cabinet.files[i]? = some file)
    (lies : LiesAt (volumeStart major) cabinet.volumes file volume offset)
    (is : IsPacked (cabinet.header major) file volume offset fd) :
    ∃ content, StoredAt (cabinet.header major) (shelf (cabinet.volumeFiles major)) i fd content file.stored ∧
      fd.dataOffset.toNat = offset ∧ fd.dataOffset.toNat ≠ content.length ∧ 0 < offset ∧ offset < 2 ^ 64 := by
  have few : cabinet.files.length < 2 ^ 31 := by
    have small := sound.catalogue.starts_lt.2.2
    rw [length_entries] at small
    omega
  have within : i < cabinet.files.length := (List.getElem?_eq_some_iff.1 there).1
  have good := sound.files file (List.mem_of_getElem? there)
  obtain ⟨files, placed, bytes, inside, positive⟩ := volume_of_liesAt lies
  have short : (cabinet.volumeFile major files).length < 2 ^ 63 := by
    rw [shelf] at placed
    split at placed
    · exact sound.short _ (List.mem_of_getElem? placed)
    · cases placed
  have value : fd.dataOffset.toNat = offset := by
    rw [is.dataOffset, UInt64.toNat_ofNat_of_lt' (by show _ < 2 ^ 64; omega)]
  refine ⟨cabinet.volumeFile major files, ?_, value, by omega, positive, by omega⟩
  refine ⟨⟨_, ⟨?_, volumeFile_volumeBytes _ _ _ _⟩, not_movesOn few within, ?_⟩, ?_, ?_,
    is.storedSize good, good.stored_lt⟩
  · rw [volume_descriptor sound lies is]
    exact placed
  · rw [markSplit_packed few within, FileDescriptor.Has, is.flags, (flags_packed file).1]
    exact not_not_intro rfl
  · rw [value]
    exact Nat.le_of_lt inside
  · rw [value]
    exact bytes

include same

/-- The save function restores each file. -/
theorem Sound.restores (there : cabinet.files[i]? = some file)
    (lies : LiesAt (volumeStart major) cabinet.volumes file volume offset)
    (is : IsPacked archive.header file volume offset fd) :
    Restores libraries archive (shelf (cabinet.volumeFiles major)) i fd file.content := by
  have version : archive.header.majorVersion = major := by
    rw [same]
    rfl
  have good := sound.files file (List.mem_of_getElem? there)
  rw [← version] at good
  obtain ⟨content, layout, value, outside, positive, small⟩ := sound.storedAt there lies (same ▸ is)
  rw [← same] at layout
  obtain ⟨sizes, contents⟩ := is.hasContent good
  exact restores_of_stored layout outside (is.restorable good positive small) contents

end

end PackedCabinet

end Unshield
