/-
Module: Unshield.Proofs.HeaderFormat
Purpose: The header of a cabinet put together from what it is to say: the directories and files, and the
  file groups and components in their buckets.
Trusted boundary: none
Main exports: FileEntry, GroupEntry, ComponentEntry, Catalogue, nameBytes, Spelled, chainsBytes,
  fileRecordBytes, Catalogue.encode, Catalogue.Sound
-/
import Unshield.Proofs.Generations
import Unshield.Proofs.NameEncoding
import Unshield.Foundation.LossyUtf8

namespace Unshield

open Procedure Unicode

/-! ### What a header says -/

/-- A file.  Older cabinets keep 32 bits of the sizes, and neither links nor a volume. -/
structure FileEntry where
  name : Bytes
  directory : UInt16
  flags : UInt16
  expandedSize : UInt64
  compressedSize : UInt64
  dataOffset : UInt64
  md5 : Bytes
  volume : UInt16
  linkPrevious : UInt32 := 0
  linkNext : UInt32 := 0
  linkFlags : UInt8 := 0
  md5_length : md5.length = 16

/-- A file group. -/
structure GroupEntry where
  name : Bytes
  firstFile : UInt32
  lastFile : UInt32

/-- A component with the names of its file groups. -/
structure ComponentEntry where
  name : Bytes
  fileGroupNames : List Bytes
  count_le : fileGroupNames.length ≤ maxFileGroupCount

/-- All that a header says; file groups and components lie in buckets. -/
structure Catalogue where
  version : UInt32
  volumeInfo : UInt32
  directories : List Bytes
  files : List FileEntry
  fileGroups : List (List GroupEntry)
  components : List (List ComponentEntry)

/-! ### Names -/

/-- A name is a C string, and from version 17 on it is in UTF-16LE, with one more zero unit behind its
terminator because the reader looks at that unit. -/
def nameBytes (major : Int) (text : Bytes) : Bytes :=
  if major ≥ 17 then (Utf16.encode (Utf8.decodeLossy text) ++ [0, 0]).flatMap halfWord
  else text ++ [0]

/-- The text can be a name. -/
structure Spelled (major : Int) (text : Bytes) : Prop where
  nonzero : 0 ∉ text
  wellFormed : major ≥ 17 → Utf8.WellFormed text
  fits : major ≥ 17 → BufferFits (Utf16.encode (Utf8.decodeLossy text)).length

/-! ### Offset lists -/

section

variable {Entry : Type} (record : Nat → Entry → Bytes)

/-- A list of entries from an offset on: each node lies in front of the record of its entry. -/
def chainBytes : Nat → List Entry → Bytes
  | _, [] => []
  | offset, entry :: entries =>
      let next := offset + 12 + (record (offset + 12) entry).length
      words [0, UInt32.ofNat (offset + 12), if entries = [] then 0 else UInt32.ofNat next] ++
        (record (offset + 12) entry ++ chainBytes next entries)

/-- The lists of all buckets from an offset on. -/
def chainsBytes : Nat → List (List Entry) → Bytes
  | _, [] => []
  | offset, entries :: buckets =>
      chainBytes record offset entries ++
        chainsBytes (offset + (chainBytes record offset entries).length) buckets

/-- Where the lists begin. -/
def chainOffsets : Nat → List (List Entry) → List UInt32
  | _, [] => []
  | offset, entries :: buckets =>
      (if entries = [] then 0 else UInt32.ofNat offset) ::
        chainOffsets (offset + (chainBytes record offset entries).length) buckets

end

/-! ### Records -/

section

variable (major : Int)

/-- The layout that a version has. -/
def generationOf : Generation := if major = 0 ∨ major = 5 then .v5 else .v6

/-- The record of a file group at an offset, with its name behind it. -/
def groupRecord (offset : Nat) (entry : GroupEntry) : FileGroupRecord (generationOf major) where
  nameOffset := UInt32.ofNat (offset + ((generationOf major).fileGroupGap + 12))
  unknown := List.replicate (generationOf major).fileGroupGap 0
  firstFile := entry.firstFile
  lastFile := entry.lastFile
  unknown_length := List.length_replicate

def groupBytes (offset : Nat) (entry : GroupEntry) : Bytes :=
  (groupRecord major offset entry).bytes ++ nameBytes major entry.name

/-- Where the table of a component's file groups is, behind the record at an offset. -/
def componentTable (offset : Nat) : Nat := offset + ((generationOf major).componentGap + 10)

/-- Where the name of a component is, behind the table. -/
def componentName (offset : Nat) (entry : ComponentEntry) : Nat :=
  componentTable major offset + 4 * entry.fileGroupNames.length

/-- Where the names of a component's file groups are, behind its own name. -/
def componentNames (offset : Nat) (entry : ComponentEntry) : Nat :=
  componentName major offset entry + (nameBytes major entry.name).length

/-- The offsets of strings that lie one behind the other from an offset on. -/
def nameOffsets (offset : Nat) (texts : List Bytes) : List UInt32 :=
  (List.range texts.length).map fun i =>
    UInt32.ofNat (offset + ((texts.take i).flatMap (nameBytes major)).length)

theorem length_nameOffsets (offset : Nat) (texts : List Bytes) :
    (nameOffsets major offset texts).length = texts.length := by
  rw [nameOffsets, List.length_map, List.length_range]

/-- The record of a component at an offset. -/
def componentRecord (offset : Nat) (entry : ComponentEntry) : ComponentRecord (generationOf major) where
  nameOffset := UInt32.ofNat (componentName major offset entry)
  unknown := List.replicate (generationOf major).componentGap 0
  fileGroupTableOffset := UInt32.ofNat (componentTable major offset)
  fileGroupNameOffsets := nameOffsets major (componentNames major offset entry) entry.fileGroupNames
  unknown_length := List.length_replicate
  count_le := by
    rw [length_nameOffsets]
    exact entry.count_le

def componentBytes (offset : Nat) (entry : ComponentEntry) : Bytes :=
  (componentRecord major offset entry).bytes ++
    (words (componentRecord major offset entry).fileGroupNameOffsets ++
      (nameBytes major entry.name ++ entry.fileGroupNames.flatMap (nameBytes major)))

/-- The record of a file in an old cabinet, with the offset of its name. -/
def FileEntry.recordV5 (entry : FileEntry) (nameOffset : UInt32) : FileRecordV5 where
  nameOffset
  directoryIndex := entry.directory
  unknown1 := List.replicate 2 0
  flags := entry.flags
  expandedSize := entry.expandedSize.toUInt32
  compressedSize := entry.compressedSize.toUInt32
  unknown2 := List.replicate 20 0
  dataOffset := entry.dataOffset.toUInt32
  md5 := entry.md5
  unknown1_length := List.length_replicate
  unknown2_length := List.length_replicate
  md5_length := entry.md5_length

/-- The record of a file in a new cabinet. -/
def FileEntry.recordV6 (entry : FileEntry) (nameOffset : UInt32) : FileRecordV6 where
  flags := entry.flags
  expandedSize := entry.expandedSize
  compressedSize := entry.compressedSize
  dataOffset := entry.dataOffset
  md5 := entry.md5
  unknown1 := List.replicate 16 0
  nameOffset
  directoryIndex := entry.directory
  unknown2 := List.replicate 12 0
  linkPrevious := entry.linkPrevious
  linkNext := entry.linkNext
  linkFlags := entry.linkFlags
  volume := entry.volume
  md5_length := entry.md5_length
  unknown1_length := length_sixteen_zeros
  unknown2_length := length_twelve_zeros

def fileRecordBytes (entry : FileEntry) (nameOffset : UInt32) : Bytes :=
  match generationOf major with
  | .v5 => (entry.recordV5 nameOffset).bytes major
  | .v6 => (entry.recordV6 nameOffset).bytes

def fileRecordSize : Nat := if major = 0 then 42 else if major = 5 then 58 else 0x57

end

/-! ### The header -/

/-- Where the lists begin, behind the descriptor; all offsets start at the descriptor. -/
def cabDescriptorLength : Nat := 0x276

namespace Catalogue

variable (major : Int) (catalogue : Catalogue)

def common : CommonHeader where
  signature := cabSignature
  version := catalogue.version
  volumeInfo := catalogue.volumeInfo
  cabDescriptorOffset := UInt32.ofNat commonHeaderSize
  cabDescriptorSize := UInt32.ofNat cabDescriptorLength

def groupsArea : Bytes := chainsBytes (groupBytes major) cabDescriptorLength catalogue.fileGroups

def componentsStart : Nat := cabDescriptorLength + (catalogue.groupsArea major).length

def componentsArea : Bytes :=
  chainsBytes (componentBytes major) (catalogue.componentsStart major) catalogue.components

def fileTableStart : Nat := catalogue.componentsStart major + (catalogue.componentsArea major).length

/-- Behind the file table, whose start the offsets below are relative to. -/
def namesStart : Nat := 4 * (catalogue.directories.length + catalogue.files.length)

def fileNames : List Bytes := catalogue.files.map FileEntry.name

def fileNamesStart : Nat :=
  catalogue.namesStart + (catalogue.directories.flatMap (nameBytes major)).length

def recordsStart : Nat :=
  catalogue.fileNamesStart major + (catalogue.fileNames.flatMap (nameBytes major)).length

/-- The file table: the names of the directories and the records of the files. -/
def fileTable : List UInt32 :=
  nameOffsets major catalogue.namesStart catalogue.directories ++
    (List.range catalogue.files.length).map fun i =>
      UInt32.ofNat (catalogue.recordsStart major + fileRecordSize major * i)

/-- The files with the offsets of their names. -/
def namedFiles : List (FileEntry × UInt32) :=
  catalogue.files.zip (nameOffsets major (catalogue.fileNamesStart major) catalogue.fileNames)

def fileRecords : Bytes :=
  (catalogue.namedFiles major).flatMap fun file => fileRecordBytes major file.1 file.2

def cab : CabDescriptor where
  fileTableOffset := UInt32.ofNat (catalogue.fileTableStart major)
  directoryCount := UInt32.ofNat catalogue.directories.length
  fileCount := UInt32.ofNat catalogue.files.length
  fileTableOffset2 := UInt32.ofNat (catalogue.recordsStart major)

def offsets : CabOffsets where
  fileGroupOffsets := chainOffsets (groupBytes major) cabDescriptorLength catalogue.fileGroups
  componentOffsets :=
    chainOffsets (componentBytes major) (catalogue.componentsStart major) catalogue.components

/-- The descriptor, with zeros for what is not known of it. -/
def descriptorBytes : Bytes :=
  let cab := catalogue.cab major
  let tableSize := UInt32.ofNat catalogue.namesStart
  List.replicate 12 0 ++
    (words [cab.fileTableOffset, 0, tableSize, tableSize, cab.directoryCount, 0, 0, cab.fileCount,
        cab.fileTableOffset2] ++
      (List.replicate 14 0 ++
        (words (catalogue.offsets major).fileGroupOffsets ++
          words (catalogue.offsets major).componentOffsets)))

def fileArea : Bytes :=
  words (catalogue.fileTable major) ++
    (catalogue.directories.flatMap (nameBytes major) ++
      (catalogue.fileNames.flatMap (nameBytes major) ++ catalogue.fileRecords major))

/-- The data of the header. -/
def encode : Bytes :=
  words (commonHeaderWords catalogue.common) ++
    (catalogue.descriptorBytes major ++
      (catalogue.groupsArea major ++ (catalogue.componentsArea major ++ catalogue.fileArea major)))

/-- The catalogue can be put into a header of this version. -/
structure Sound : Prop where
  version : major = 0 ∨ major = 5 ∨ 5 < major
  nonempty : 0 < catalogue.directories.length + catalogue.files.length
  groupBuckets : catalogue.fileGroups.length = maxFileGroupCount
  componentBuckets : catalogue.components.length = maxComponentCount
  directoryNames : ∀ name ∈ catalogue.directories, Spelled major name
  fileNames : ∀ file ∈ catalogue.files, Spelled major file.name
  groupNames : ∀ group ∈ catalogue.fileGroups.flatten, Spelled major group.name
  componentNames : ∀ component ∈ catalogue.components.flatten, Spelled major component.name ∧
    ∀ name ∈ component.fileGroupNames, Spelled major name
  directories : ∀ file ∈ catalogue.files, file.directory.toNat < catalogue.directories.length
  narrow : generationOf major = .v5 → ∀ file ∈ catalogue.files, file.expandedSize.toNat < 2 ^ 32 ∧
    file.compressedSize.toNat < 2 ^ 32 ∧ file.dataOffset.toNat < 2 ^ 32
  few : generationOf major = .v6 → catalogue.files.length ≤ maxFilesV6
  length_lt : (catalogue.encode major).length < 2 ^ 32

end Catalogue

end Unshield
