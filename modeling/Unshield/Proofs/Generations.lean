/-
Module: Unshield.Proofs.Generations
Purpose: The layouts of the two generations of cabinets, as records that are written, and the versions
  whose decoders all read the layouts of one generation.
Trusted boundary: none
Main exports: Placed, Generation, ComponentRecord, FileGroupRecord, FileRecordV5, FileRecordV6, TreatsAs,
  maxFilesV6, treatsAs_v5, treatsAs_v6, not_treatsAs, not_treatsAs_v6_of_many, one_generation_iff
-/
import Unshield.Proofs.FieldReads
import Unshield.Proofs.SaveSteps
import Unshield.Proofs.VolumeFormat

namespace Unshield

open Procedure

/-! ### Fields that were written -/

/-- The block has the bytes of the field at `p`. -/
def Placed (block : Bytes) (p : Nat) (field : Bytes) : Prop :=
  ∀ i byte, field[i]? = some byte → block[p + i]? = some byte

def halfWord (word : UInt16) : Bytes := [word.toUInt8, (word >>> 8).toUInt8]

def doubleWord (word : UInt64) : Bytes :=
  littleEndian32 word.toUInt32 ++ littleEndian32 (word >>> 32).toUInt32

section

variable {block : Bytes} {p : Nat}

theorem Placed.split {one two : Bytes} {size : Nat} (placed : Placed block p (one ++ two))
    (length : one.length = size) : Placed block p one ∧ Placed block (p + size) two := by
  subst length
  constructor
  · intro i byte inside
    apply placed
    rw [List.getElem?_append_left (List.getElem?_eq_some_iff.1 inside).1]
    exact inside
  · intro i byte inside
    rw [Nat.add_assoc]
    apply placed
    rw [List.getElem?_append_right (Nat.le_add_right _ _), Nat.add_sub_cancel_left]
    exact inside

theorem readUint16_of_placed {word : UInt16} (placed : Placed block p (halfWord word)) :
    readUint16 block p = some word := by
  have first := placed 0 _ rfl
  have second := placed 1 _ rfl
  rw [Nat.add_zero] at first
  rw [readUint16, first, second]
  exact congrArg some (Bits.uint16_or_bytes word)

theorem readUint32_of_placed {word : UInt32} (placed : Placed block p (littleEndian32 word)) :
    readUint32 block p = some word := by
  have first := placed 0 _ rfl
  have second := placed 1 _ rfl
  have third := placed 2 _ rfl
  have fourth := placed 3 _ rfl
  rw [Nat.add_zero] at first
  rw [readUint32, first, second, third, fourth]
  exact congrArg some (Bits.uint32_or_bytes word)

theorem readUint64_of_placed {word : UInt64} (placed : Placed block p (doubleWord word)) :
    readUint64 block p = some word := by
  obtain ⟨low, high⟩ := @Placed.split _ _ _ _ 4 placed rfl
  rw [readUint64, readUint32_of_placed low, readUint32_of_placed high]
  exact congrArg some (Bits.uint64_or_words word)

/-- Each of several words is read where it stands. -/
theorem readUint32_of_placed_words {list : List UInt32} {i : Nat} {word : UInt32}
    (placed : Placed block p (words list)) (there : list[i]? = some word) :
    readUint32 block (p + 4 * i) = some word := by
  obtain ⟨within, there⟩ := List.getElem?_eq_some_iff.1 there
  have parts : words list = words (list.take i) ++ (littleEndian32 word ++ words (list.drop (i + 1))) := by
    conv_lhs => rw [← List.take_append_drop i list, List.drop_eq_getElem_cons within, there]
    rw [words, List.flatMap_append, List.flatMap_cons]
    rfl
  rw [parts] at placed
  have front : (words (list.take i)).length = 4 * i := by
    rw [length_words, List.length_take_of_le (Nat.le_of_lt within)]
  obtain ⟨_, rest⟩ := placed.split front
  exact readUint32_of_placed (@Placed.split _ _ _ _ 4 rest rfl).1

theorem copyBytes_of_placed {field : Bytes} {size : Nat} (placed : Placed block p field)
    (length : field.length = size) (some_bytes : 0 < size) : copyBytes block p size = some field := by
  subst length
  have last := placed (field.length - 1) _ (List.getElem?_eq_getElem (by omega))
  have inside := (List.getElem?_eq_some_iff.1 last).1
  rw [copyBytes, if_pos (by omega)]
  congr 1
  apply List.ext_getElem?
  intro i
  by_cases within : i < field.length
  · rw [List.getElem?_take_of_lt within, List.getElem?_drop, List.getElem?_eq_getElem within]
    exact placed i _ (List.getElem?_eq_getElem within)
  · rw [List.getElem?_eq_none (Nat.le_of_not_lt within), List.getElem?_eq_none]
    rw [List.length_take]
    omega

end

/-! ### The layouts -/

/-- The two generations of cabinets: major versions 0 and 5, and from 6 on. -/
inductive Generation where
  | v5
  | v6
deriving Repr, DecidableEq

/-- What lies between the name of a component and its number of file groups. -/
def Generation.componentGap : Generation → Nat
  | .v5 => 0x6c
  | .v6 => 0x6b

/-- What lies between the name of a file group and its first file. -/
def Generation.fileGroupGap : Generation → Nat
  | .v5 => 0x48
  | .v6 => 0x12

/-- The record of a component, with what is not known of it. -/
structure ComponentRecord (generation : Generation) where
  nameOffset : UInt32
  unknown : Bytes
  fileGroupTableOffset : UInt32
  fileGroupNameOffsets : List UInt32
  unknown_length : unknown.length = generation.componentGap
  count_le : fileGroupNameOffsets.length ≤ maxFileGroupCount

def ComponentRecord.bytes {generation : Generation} (record : ComponentRecord generation) : Bytes :=
  littleEndian32 record.nameOffset ++ (record.unknown ++
    (halfWord (UInt16.ofNat record.fileGroupNameOffsets.length) ++
      littleEndian32 record.fileGroupTableOffset))

/-- The component is written at the offset, with the table of its file groups and with its names. -/
structure ComponentAt {generation : Generation} (bigEndian : Bool) (header : Header) (offset : UInt32)
    (record : ComponentRecord generation) (component : Component) : Prop where
  offset_ne : offset ≠ 0
  placed : Placed header.data (header.common.cabDescriptorOffset.toNat + offset.toNat) record.bytes
  name : headerGetString bigEndian header record.nameOffset = .ret component.name
  table_ne : record.fileGroupNameOffsets ≠ [] → record.fileGroupTableOffset ≠ 0
  table : Placed header.data
    (header.common.cabDescriptorOffset.toNat + record.fileGroupTableOffset.toNat)
    (words record.fileGroupNameOffsets)
  names : List.Forall₂ (fun offset name => headerGetString bigEndian header offset = .ret name)
    record.fileGroupNameOffsets component.fileGroupNames

/-- The record of a file group. -/
structure FileGroupRecord (generation : Generation) where
  nameOffset : UInt32
  unknown : Bytes
  firstFile : UInt32
  lastFile : UInt32
  unknown_length : unknown.length = generation.fileGroupGap

def FileGroupRecord.bytes {generation : Generation} (record : FileGroupRecord generation) : Bytes :=
  littleEndian32 record.nameOffset ++ (record.unknown ++
    (littleEndian32 record.firstFile ++ littleEndian32 record.lastFile))

/-- The file group is written at the offset, with its name. -/
structure FileGroupAt {generation : Generation} (bigEndian : Bool) (header : Header) (offset : UInt32)
    (record : FileGroupRecord generation) (fileGroup : FileGroup) : Prop where
  offset_ne : offset ≠ 0
  placed : Placed header.data (header.common.cabDescriptorOffset.toNat + offset.toNat) record.bytes
  name : headerGetString bigEndian header record.nameOffset = .ret fileGroup.name
  firstFile : fileGroup.firstFile = record.firstFile.toInt32.toInt
  lastFile : fileGroup.lastFile = record.lastFile.toInt32.toInt

/-- The record of a file in an old cabinet.  Only version 5 has a digest in it. -/
structure FileRecordV5 where
  nameOffset : UInt32
  directoryIndex : UInt16
  unknown1 : Bytes
  flags : UInt16
  expandedSize : UInt32
  compressedSize : UInt32
  unknown2 : Bytes
  dataOffset : UInt32
  md5 : Bytes
  unknown1_length : unknown1.length = 2
  unknown2_length : unknown2.length = 20
  md5_length : md5.length = 16

def FileRecordV5.bytes (record : FileRecordV5) (majorVersion : Int) : Bytes :=
  littleEndian32 record.nameOffset ++ (halfWord record.directoryIndex ++ (record.unknown1 ++
    (halfWord record.flags ++ (littleEndian32 record.expandedSize ++
      (littleEndian32 record.compressedSize ++ (record.unknown2 ++ (littleEndian32 record.dataOffset ++
        if majorVersion = 5 then record.md5 else [])))))))

/-- What the record says of the file: it starts in the volume of the header, unless a later one says
otherwise. -/
def FileRecordV5.descriptor (record : FileRecordV5) (header : Header) : FileDescriptor where
  nameOffset := record.nameOffset
  directoryIndex := record.directoryIndex.toUInt32
  flags := record.flags
  expandedSize := record.expandedSize.toUInt64
  compressedSize := record.compressedSize.toUInt64
  dataOffset := record.dataOffset.toUInt64
  md5 := if header.majorVersion = 5 then record.md5 else List.replicate 16 0
  volume := UInt16.ofInt header.index

/-- The record is where the file table says. -/
structure FileAtV5 (header : Header) (index : Int) (record : FileRecordV5) (entry : UInt32) : Prop where
  listed : header.fileTable[(header.cab.directoryCount + UInt32.ofInt index).toNat]? = some entry
  placed : Placed header.data
    (header.common.cabDescriptorOffset.toNat + header.cab.fileTableOffset.toNat + entry.toNat)
    (record.bytes header.majorVersion)
  directory : record.directoryIndex.toNat < header.cab.directoryCount.toNat

/-- The record of a file in a new cabinet. -/
structure FileRecordV6 where
  flags : UInt16
  expandedSize : UInt64
  compressedSize : UInt64
  dataOffset : UInt64
  md5 : Bytes
  unknown1 : Bytes
  nameOffset : UInt32
  directoryIndex : UInt16
  unknown2 : Bytes
  linkPrevious : UInt32
  linkNext : UInt32
  linkFlags : UInt8
  volume : UInt16
  md5_length : md5.length = 16
  unknown1_length : unknown1.length = 16
  unknown2_length : unknown2.length = 12

def FileRecordV6.bytes (record : FileRecordV6) : Bytes :=
  halfWord record.flags ++ (doubleWord record.expandedSize ++ (doubleWord record.compressedSize ++
    (doubleWord record.dataOffset ++ (record.md5 ++ (record.unknown1 ++
      (littleEndian32 record.nameOffset ++ (halfWord record.directoryIndex ++ (record.unknown2 ++
        (littleEndian32 record.linkPrevious ++ (littleEndian32 record.linkNext ++
          ([record.linkFlags] ++ halfWord record.volume)))))))))))

def FileRecordV6.descriptor (record : FileRecordV6) : FileDescriptor where
  nameOffset := record.nameOffset
  directoryIndex := record.directoryIndex.toUInt32
  flags := record.flags
  expandedSize := record.expandedSize
  compressedSize := record.compressedSize
  dataOffset := record.dataOffset
  md5 := record.md5
  volume := record.volume
  linkPrevious := record.linkPrevious
  linkNext := record.linkNext
  linkFlags := record.linkFlags

/-- The number of files whose records lie at offsets that an `int` can tell. -/
def maxFilesV6 : Nat := 24683721

/-- The records of all files lie one after the other. -/
structure FileAtV6 (header : Header) (index : Int) (record : FileRecordV6) : Prop where
  placed : Placed header.data
    (header.common.cabDescriptorOffset.toNat + header.cab.fileTableOffset.toNat +
      header.cab.fileTableOffset2.toNat + index.toNat * 0x57) record.bytes
  directory : record.directoryIndex.toNat < header.cab.directoryCount.toNat

def Generation.volumeHeaderWords : Generation → VolumeHeader → List UInt32
  | .v5 => volumeHeaderWordsV5
  | .v6 => volumeHeaderWordsV6

/-- What the volume header of a generation says. -/
def Generation.recorded : Generation → VolumeHeader → VolumeHeader
  | .v5, volumeHeader => volumeHeader.lowWords
  | .v6, volumeHeader => volumeHeader

/-- A volume file of a generation. -/
def Generation.volumeBytes (generation : Generation) (common : CommonHeader) (volumeHeader : VolumeHeader)
    (data : Bytes) : Bytes :=
  words (commonHeaderWords common) ++ (words (generation.volumeHeaderWords volumeHeader) ++ data)

/-! ### Reading the layouts -/

section

variable {bigEndian : Bool} {header : Header} {generation : Generation}

theorem readFileGroupNames_of_placed {p : Nat} {offsets : List UInt32} {names : List HeaderString}
    (table : Placed header.data p (words offsets))
    (spelled : List.Forall₂ (fun offset name => headerGetString bigEndian header offset = .ret name)
      offsets names) (count : Nat) :
    count ≤ offsets.length → readFileGroupNames bigEndian header p count = .ret (names.take count) := by
  induction count with
  | zero => exact fun _ => rfl
  | succ count ih =>
      intro within
      have named : count < names.length := by
        rw [← spelled.length_eq]
        exact within
      have offset := readUint32_of_placed_words table (List.getElem?_eq_getElem within)
      have name := spelled.get within named
      simp only [List.get_eq_getElem] at name
      rw [readFileGroupNames, ih (by omega), Exit.bind_ret, offset, Exit.ofAccess_some, Exit.bind_ret, name,
        Exit.bind_ret, Exit.pure_eq, List.take_concat_get' names count named]

/-- A component record is read if the decoder skips as much as the layout has between its fields. -/
theorem componentNew_of_componentAt {offset : UInt32} {record : ComponentRecord generation}
    {component : Component} (written : ComponentAt bigEndian header offset record component)
    (gap : (if header.OldLayout then 0x6c else 0x6b) = generation.componentGap) :
    componentNew bigEndian header offset = .ret component := by
  obtain ⟨name, rest⟩ := @Placed.split _ _ _ _ 4 written.placed rfl
  obtain ⟨_, rest⟩ := rest.split record.unknown_length
  obtain ⟨count, table⟩ := @Placed.split _ _ _ _ 2 rest rfl
  have small : record.fileGroupNameOffsets.length < 65536 :=
    Nat.lt_of_le_of_lt record.count_le (by decide)
  have counted : (UInt16.ofNat record.fileGroupNameOffsets.length).toNat =
      record.fileGroupNameOffsets.length := UInt16.toNat_ofNat_of_lt' small
  rw [componentNew, headerGetBuffer, if_pos written.offset_ne]
  simp only [Exit.ofAccess_some, Exit.bind_ret, readUint32_of_placed name, written.name, gap,
    readUint16_of_placed count, readUint32_of_placed table, counted]
  rw [Exit.assert, if_pos record.count_le, Exit.bind_ret]
  have length := written.names.length_eq
  by_cases none : record.fileGroupNameOffsets.length = 0
  · rw [none] at length
    rw [none, if_pos (show UInt16.ofNat 0 = 0 from rfl), ← List.eq_nil_of_length_eq_zero length.symm]
    rfl
  · have some_names : UInt16.ofNat record.fileGroupNameOffsets.length ≠ 0 := by
      intro zero
      rw [zero] at counted
      exact none counted.symm
    have nonempty : record.fileGroupNameOffsets ≠ [] := by
      intro nil
      exact none (congrArg List.length nil)
    rw [if_neg some_names, headerGetBuffer, if_pos (written.table_ne nonempty), Exit.ofAccess_some,
      Exit.bind_ret, readFileGroupNames_of_placed written.table written.names _ (Nat.le_refl _), length,
      List.take_length]
    rfl

theorem fileGroupNew_of_fileGroupAt {offset : UInt32} {record : FileGroupRecord generation}
    {fileGroup : FileGroup} (written : FileGroupAt bigEndian header offset record fileGroup)
    (gap : (if header.majorVersion ≤ 5 then 0x48 else 0x12) = generation.fileGroupGap) :
    fileGroupNew bigEndian header offset = .ret fileGroup := by
  obtain ⟨name, rest⟩ := @Placed.split _ _ _ _ 4 written.placed rfl
  obtain ⟨_, rest⟩ := rest.split record.unknown_length
  obtain ⟨first, last⟩ := @Placed.split _ _ _ _ 4 rest rfl
  rw [fileGroupNew, headerGetBuffer, if_pos written.offset_ne]
  simp only [Exit.ofAccess_some, Exit.bind_ret, readUint32_of_placed name, written.name, gap,
    readUint32_of_placed first, readUint32_of_placed last, Exit.pure_eq, ← written.firstFile,
    ← written.lastFile]

theorem readFileDescriptorV5_of_fileAt {index : Int} {record : FileRecordV5} {entry : UInt32}
    (written : FileAtV5 header index record entry) :
    readFileDescriptorV5 header index = .ret (record.descriptor header) := by
  obtain ⟨name, rest⟩ := @Placed.split _ _ _ _ 4 written.placed rfl
  obtain ⟨directory, rest⟩ := @Placed.split _ _ _ _ 2 rest rfl
  obtain ⟨_, rest⟩ := rest.split record.unknown1_length
  obtain ⟨flags, rest⟩ := @Placed.split _ _ _ _ 2 rest rfl
  obtain ⟨expanded, rest⟩ := @Placed.split _ _ _ _ 4 rest rfl
  obtain ⟨compressed, rest⟩ := @Placed.split _ _ _ _ 4 rest rfl
  obtain ⟨_, rest⟩ := rest.split record.unknown2_length
  obtain ⟨offset, md5⟩ := @Placed.split _ _ _ _ 4 rest rfl
  rw [readFileDescriptorV5, written.listed]
  simp only [Exit.ofAccess_some, Exit.bind_ret, readUint32_of_placed name,
    readUint16_of_placed directory, readUint16_of_placed flags, readUint32_of_placed expanded,
    readUint32_of_placed compressed, readUint32_of_placed offset]
  rw [Exit.assert, if_pos written.directory, Exit.bind_ret, FileRecordV5.descriptor]
  by_cases five : header.majorVersion = 5
  · rw [if_pos five] at md5
    rw [if_pos five, if_pos five, copyBytes_of_placed md5 record.md5_length (by decide)]
    rfl
  · rw [if_neg five, if_neg five]
    rfl

/-- The offset of a record among the first ones. -/
theorem entryOffset_of_lt {index : Int} (early : index < maxFilesV6) :
    mulInt index 0x57 = .ret (index * 0x57) ∧ (index * 0x57).toNat = index.toNat * 0x57 := by
  rw [maxFilesV6] at early
  exact ⟨mulInt_of_le (by rw [intMax]; omega), by omega⟩

theorem readFileDescriptorV6_of_fileAt {index : Int} {record : FileRecordV6}
    (early : index < maxFilesV6) (written : FileAtV6 header index record) :
    readFileDescriptorV6 header index = .ret record.descriptor := by
  obtain ⟨flags, rest⟩ := @Placed.split _ _ _ _ 2 written.placed rfl
  obtain ⟨expanded, rest⟩ := @Placed.split _ _ _ _ 8 rest rfl
  obtain ⟨compressed, rest⟩ := @Placed.split _ _ _ _ 8 rest rfl
  obtain ⟨offset, rest⟩ := @Placed.split _ _ _ _ 8 rest rfl
  obtain ⟨md5, rest⟩ := rest.split record.md5_length
  obtain ⟨_, rest⟩ := rest.split record.unknown1_length
  obtain ⟨name, rest⟩ := @Placed.split _ _ _ _ 4 rest rfl
  obtain ⟨directory, rest⟩ := @Placed.split _ _ _ _ 2 rest rfl
  obtain ⟨_, rest⟩ := rest.split record.unknown2_length
  obtain ⟨previous, rest⟩ := @Placed.split _ _ _ _ 4 rest rfl
  obtain ⟨next, rest⟩ := @Placed.split _ _ _ _ 4 rest rfl
  obtain ⟨linkFlags, volume⟩ := @Placed.split _ _ _ _ 1 rest rfl
  have linkByte : header.data[header.common.cabDescriptorOffset.toNat + header.cab.fileTableOffset.toNat +
      header.cab.fileTableOffset2.toNat + index.toNat * 0x57 + 84]? = some record.linkFlags :=
    linkFlags 0 _ rfl
  obtain ⟨fits, entryOffset⟩ := entryOffset_of_lt early
  rw [readFileDescriptorV6, fits, Exit.bind_ret]
  simp only [entryOffset, Exit.ofAccess_some, Exit.bind_ret, readUint16_of_placed flags,
    readUint64_of_placed expanded, readUint64_of_placed compressed, readUint64_of_placed offset,
    copyBytes_of_placed md5 record.md5_length (by decide), readUint32_of_placed name,
    readUint16_of_placed directory, readUint32_of_placed previous, readUint32_of_placed next,
    readUint16_of_placed volume, linkByte]
  rw [Exit.assert, if_pos written.directory, Exit.bind_ret, FileRecordV6.descriptor]
  rfl

end

/-! ### Versions and generations -/

/-- All decoders take a cabinet of this version, with so many files, for one of the generation: what is
written in its layouts is what they read, and a file is searched in later volumes if and only if the
generation is the old one. -/
structure TreatsAs (generation : Generation) (version : Int) (files : Nat) : Prop where
  component : ∀ (bigEndian : Bool) (header : Header) (offset : UInt32)
    (record : ComponentRecord generation) (component : Component), header.majorVersion = version →
    ComponentAt bigEndian header offset record component →
    componentNew bigEndian header offset = .ret component
  fileGroup : ∀ (bigEndian : Bool) (header : Header) (offset : UInt32)
    (record : FileGroupRecord generation) (fileGroup : FileGroup), header.majorVersion = version →
    FileGroupAt bigEndian header offset record fileGroup →
    fileGroupNew bigEndian header offset = .ret fileGroup
  fileV5 : ∀ (header : Header) (index : Int) (record : FileRecordV5) (entry : UInt32),
    header.majorVersion = version → generation = .v5 → index < files → FileAtV5 header index record entry →
    readFileDescriptor header index = .ret (record.descriptor header)
  fileV6 : ∀ (header : Header) (index : Int) (record : FileRecordV6),
    header.majorVersion = version → generation = .v6 → index < files → FileAtV6 header index record →
    readFileDescriptor header index = .ret record.descriptor
  openVolume : ∀ (libraries : Libraries) (header : Header) (volume : Int) (common : CommonHeader)
    (volumeHeader : VolumeHeader) (data : Bytes) (s : DiskSession), header.majorVersion = version →
    s.io.store.cabinets volume = some (generation.volumeBytes common volumeHeader data) →
    ∃ t, readerOpenVolume libraries.onDisk header volume s = (.ret (), t) ∧
      t.reader.volumeHeader = generation.recorded volumeHeader
  search : ∀ (libraries : Libraries) (header : Header) (index : Int) (content : Bytes)
    (volumeHeader : VolumeHeader) (s : DiskSession), header.majorVersion = version →
    Opens header s.io.store.cabinets s.fileDescriptor.volume.toNat content volumeHeader →
    (readerCreateTurn libraries.onDisk header index () s).1 =
      .ret (if generation = .v5 ∧ volumeHeader.lastFileIndex.toInt32.toInt < index then .again ()
        else .done ())

theorem readerCreateTurn_exit (libraries : Libraries) {header : Header} {index : Int} {content : Bytes}
    {volumeHeader : VolumeHeader} {s : DiskSession}
    (opens : Opens header s.io.store.cabinets s.fileDescriptor.volume.toNat content volumeHeader) :
    (readerCreateTurn libraries.onDisk header index () s).1 =
      .ret (if MovesOn header volumeHeader index then .again () else .done ()) := by
  rw [readerCreateTurn_run libraries index opens]
  by_cases moves : MovesOn header volumeHeader index
  · rw [if_pos moves, if_pos moves]
    rfl
  · rw [if_neg moves, if_neg moves]
    rfl

theorem treatsAs_v5 {version : Int} (old : version = 0 ∨ version = 5) (files : Nat) :
    TreatsAs .v5 version files where
  component := by
    rintro bigEndian header offset record component rfl written
    exact componentNew_of_componentAt written (if_pos old)
  fileGroup := by
    rintro bigEndian header offset record fileGroup rfl written
    exact fileGroupNew_of_fileGroupAt written (if_pos (by omega))
  fileV5 := by
    rintro header index record entry rfl _ _ written
    rw [readFileDescriptor, if_pos (show header.OldLayout from old)]
    exact readFileDescriptorV5_of_fileAt written
  fileV6 := by
    intro header index record _ new
    cases new
  openVolume := by
    rintro libraries header volume common volumeHeader data s rfl cabinet
    have valid := volumeFile_volumeBytes header common volumeHeader data
    rw [Unshield.volumeBytes, volumeHeaderWords, if_pos (show header.OldLayout from old), Unshield.recorded,
      if_pos (show header.OldLayout from old)] at valid
    exact ⟨_, readerOpenVolume_run libraries ⟨cabinet, valid⟩, enterVolume_volumeHeader⟩
  search := by
    rintro libraries header index content volumeHeader s rfl opens
    rw [readerCreateTurn_exit libraries opens]
    have old_enough : header.majorVersion ≤ 5 := by omega
    simp only [MovesOn, old_enough, true_and]

theorem treatsAs_v6 {version : Int} {files : Nat} (new : 5 < version) (few : files ≤ maxFilesV6) :
    TreatsAs .v6 version files where
  component := by
    rintro bigEndian header offset record component rfl written
    exact componentNew_of_componentAt written (if_neg (by rw [Header.OldLayout]; omega))
  fileGroup := by
    rintro bigEndian header offset record fileGroup rfl written
    exact fileGroupNew_of_fileGroupAt written (if_neg (by omega))
  fileV5 := by
    intro header index record entry _ old
    cases old
  fileV6 := by
    rintro header index record rfl _ early written
    rw [readFileDescriptor, if_neg (by rw [Header.OldLayout]; omega)]
    exact readFileDescriptorV6_of_fileAt (by omega) written
  openVolume := by
    rintro libraries header volume common volumeHeader data s rfl cabinet
    have not_old : ¬ header.OldLayout := by
      rw [Header.OldLayout]
      omega
    have valid := volumeFile_volumeBytes header common volumeHeader data
    rw [Unshield.volumeBytes, volumeHeaderWords, if_neg not_old, Unshield.recorded, if_neg not_old] at valid
    exact ⟨_, readerOpenVolume_run libraries ⟨cabinet, valid⟩, enterVolume_volumeHeader⟩
  search := by
    rintro libraries header index content volumeHeader s rfl opens
    rw [readerCreateTurn_exit libraries opens]
    have not_old : ¬ header.majorVersion ≤ 5 := by omega
    simp only [MovesOn, not_old, false_and, reduceCtorEq]

/-- A volume with nothing in it. -/
def emptyVolume (generation : Generation) : Bytes := generation.volumeBytes plainCommonHeader {} []

theorem emptyVolume_lt (generation : Generation) :
    ∀ content ∈ [emptyVolume generation], content.length < 2 ^ 63 := by
  cases generation <;> decide

def emptyVolumeSession (generation : Generation) : DiskSession where
  reader := { index := 0 }
  fileDescriptor := { volume := 1 }
  io := shelfDisk [emptyVolume generation] 0 (emptyVolume_lt generation) room_zero_lt

section

variable {version : Int} {files : Nat}

/-- The empty volume of the generation opens, with the header that was written. -/
theorem TreatsAs.opens_emptyVolume {generation : Generation} (treats : TreatsAs generation version files) :
    ∃ content, Opens (smallHeader version) (emptyVolumeSession generation).io.store.cabinets 1 content
        (generation.recorded {}) ∧ content = emptyVolume generation := by
  obtain ⟨t, run, read⟩ := treats.openVolume smallLibraries (smallHeader version) 1 plainCommonHeader {} []
    (emptyVolumeSession generation) rfl rfl
  obtain ⟨content, volumeHeader, opens, rfl⟩ := opens_of_readerOpenVolume smallLibraries run
  obtain rfl := enterVolume_volumeHeader.symm.trans read
  exact ⟨content, opens, (Option.some.inj opens.cabinet).symm⟩

/-- Where volumes are read like new ones, those with the short header of the old ones are not. -/
theorem not_treatsAs_v5 (not_old : ¬ (version = 0 ∨ version = 5)) : ¬ TreatsAs .v5 version files := by
  intro treats
  obtain ⟨content, opens, rfl⟩ := treats.opens_emptyVolume
  have long := opens.valid.long
  rw [volumeHeaderSize, if_neg (show ¬ (smallHeader version).OldLayout from not_old)] at long
  revert long
  decide

/-- Where volumes are searched like old ones, a file of a new cabinet is looked for in a later one. -/
theorem not_treatsAs_v6 (not_new : version ≤ 5) : ¬ TreatsAs .v6 version files := by
  intro treats
  obtain ⟨content, opens, -⟩ := treats.opens_emptyVolume
  have exit := treats.search smallLibraries (smallHeader version) 1 content _ _ rfl opens
  have moves : MovesOn (smallHeader version) (Generation.v6.recorded {}) 1 := by
    refine ⟨not_new, ?_⟩
    show (0 : UInt32).toInt32.toInt < 1
    decide
  rw [readerCreateTurn_exit smallLibraries opens, if_pos moves] at exit
  cases exit

/-- With a version that only some decoders count among the old ones, volumes are read like new ones and
yet searched like old ones. -/
theorem not_treatsAs (not_new : version ≤ 5) (mixed : ¬ (version = 0 ∨ version = 5))
    (generation : Generation) : ¬ TreatsAs generation version files := by
  cases generation with
  | v5 => exact not_treatsAs_v5 mixed
  | v6 => exact not_treatsAs_v6 not_new

end

theorem length_sixteen_zeros : (List.replicate 16 (0 : UInt8)).length = 16 := List.length_replicate

theorem length_twelve_zeros : (List.replicate 12 (0 : UInt8)).length = 12 := List.length_replicate

def emptyFile : FileRecordV6 where
  flags := 0
  expandedSize := 0
  compressedSize := 0
  dataOffset := 0
  md5 := List.replicate 16 0
  unknown1 := List.replicate 16 0
  nameOffset := 0
  directoryIndex := 0
  unknown2 := List.replicate 12 0
  linkPrevious := 0
  linkNext := 0
  linkFlags := 0
  volume := 0
  md5_length := length_sixteen_zeros
  unknown1_length := length_sixteen_zeros
  unknown2_length := length_twelve_zeros

/-- A header whose file table has nothing but the record of one file, behind the room of those before. -/
def lateFileHeader (version : Int) (index : Nat) : Header where
  index := 1
  data := List.replicate (index * 0x57) 0 ++ emptyFile.bytes
  majorVersion := version
  common := plainCommonHeader
  cab :=
    { fileTableOffset := 0, directoryCount := 1, fileCount := UInt32.ofNat (index + 1),
      fileTableOffset2 := 0 }
  fileTable := [0]

theorem fileAtV6_lateFile (version : Int) (index : Nat) :
    FileAtV6 (lateFileHeader version index) index emptyFile where
  placed := by
    intro i byte within
    have start : (lateFileHeader version index).common.cabDescriptorOffset.toNat +
        (lateFileHeader version index).cab.fileTableOffset.toNat +
        (lateFileHeader version index).cab.fileTableOffset2.toNat + (index : Int).toNat * 0x57 =
        index * 0x57 := by
      show 0 + 0 + 0 + (index : Int).toNat * 0x57 = index * 0x57
      omega
    rw [start]
    show (List.replicate (index * 0x57) 0 ++ emptyFile.bytes)[index * 0x57 + i]? = some byte
    rw [List.getElem?_append_right (by rw [List.length_replicate]; omega), List.length_replicate,
      Nat.add_sub_cancel_left]
    exact within
  directory := by
    show (0 : UInt16).toNat < (1 : UInt32).toNat
    decide

/-- The offset of a record behind the last one that an `int` reaches overflows. -/
theorem not_treatsAs_v6_of_many {version : Int} {files : Nat} (new : 5 < version)
    (many : maxFilesV6 < files) : ¬ TreatsAs .v6 version files := by
  intro treats
  have read := treats.fileV6 (lateFileHeader version maxFilesV6) maxFilesV6 emptyFile rfl rfl (by omega)
    (fileAtV6_lateFile version maxFilesV6)
  have not_old : ¬ (lateFileHeader version maxFilesV6).OldLayout := by
    show ¬ (version = 0 ∨ version = 5)
    omega
  have overflow : mulInt (maxFilesV6 : Nat) 0x57 = .fault := mulInt_of_gt (by decide)
  rw [readFileDescriptor, if_neg not_old, readFileDescriptorV6, overflow] at read
  cases read

/-- The decoders agree on a generation for the versions 0 and 5, and for every later one with no more
files than an `int` can tell the offsets of; for other versions and more files they do not. -/
theorem one_generation_iff (version : Int) (files : Nat) :
    (∃ generation, TreatsAs generation version files) ↔
      version = 0 ∨ version = 5 ∨ 5 < version ∧ files ≤ maxFilesV6 := by
  constructor
  · rintro ⟨generation, treats⟩
    by_contra mixed
    cases generation with
    | v5 => exact not_treatsAs_v5 (by omega) treats
    | v6 =>
        by_cases new : 5 < version
        · exact not_treatsAs_v6_of_many new (by omega) treats
        · exact not_treatsAs_v6 (by omega) treats
  · rintro (old | old | ⟨new, few⟩)
    · exact ⟨.v5, treatsAs_v5 (Or.inl old) files⟩
    · exact ⟨.v5, treatsAs_v5 (Or.inr old) files⟩
    · exact ⟨.v6, treatsAs_v6 new few⟩

def oldFileGroup : FileGroupRecord .v5 where
  nameOffset := 0
  unknown := List.replicate 0x48 0
  firstFile := 0
  lastFile := 0
  unknown_length := List.length_replicate

theorem one_le_maxFileGroupCount : 1 ≤ maxFileGroupCount := by decide

def oldComponent : ComponentRecord .v5 where
  nameOffset := 0
  unknown := List.replicate 0x6c 0
  fileGroupTableOffset := 4
  fileGroupNameOffsets := [0]
  unknown_length := List.length_replicate
  count_le := one_le_maxFileGroupCount

/-- The data of an old cabinet: four bytes, a file group, and a component of one file group. -/
def oldRecords : Bytes := List.replicate 4 0 ++ oldFileGroup.bytes ++ oldComponent.bytes

/-- The header of a cabinet with these data that says or is told to be of the version. -/
def oldRecordsHeader (majorVersion : Int) : Header :=
  { smallHeader majorVersion with data := oldRecords }

/-- As version 1 the file group of an old cabinet is read, but its component makes the program abort. -/
theorem generations_mixed_at_one :
    fileGroupNew false (oldRecordsHeader 1) 4 = .ret { name := .null, firstFile := 0, lastFile := 0 } ∧
      componentNew false (oldRecordsHeader 1) 88 = .abort ∧
      componentNew false (oldRecordsHeader 5) 88 = .ret { name := .null, fileGroupNames := [.null] } ∧
      majorVersionOf (-1) { plainCommonHeader with version := 0x01001000 } = 1 ∧
      ¬ ∃ generation, TreatsAs generation 1 1 := by
  refine ⟨by decide, by decide, by decide, by decide, ?_⟩
  rintro ⟨generation, treats⟩
  exact not_treatsAs (by decide) (by decide) generation treats

end Unshield
