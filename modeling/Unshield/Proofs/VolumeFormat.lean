/-
Module: Unshield.Proofs.VolumeFormat
Purpose: Volume files put together from the records they hold: the readers of the common header and of
  both volume header layouts invert the writers given here.
Trusted boundary: none
Main exports: littleEndian32, words, volumeBytes, volumeFile_volumeBytes, shelf, storedAt_shelf
-/
import Unshield.Proofs.Layout

namespace Unshield

open Procedure

/-! ### Words -/

def littleEndian32 (word : UInt32) : Bytes :=
  [word.toUInt8, (word >>> 8).toUInt8, (word >>> 16).toUInt8, (word >>> 24).toUInt8]

def words (list : List UInt32) : Bytes := list.flatMap littleEndian32

theorem readUint32_littleEndian32 (word : UInt32) (rest : Bytes) :
    readUint32 (littleEndian32 word ++ rest) 0 = some word :=
  congrArg some (Bits.uint32_or_bytes word)

theorem readUint32_append (front rest : Bytes) (p : Nat) :
    readUint32 (front ++ rest) (front.length + p) = readUint32 rest p := by
  simp only [readUint32, Nat.add_assoc, List.getElem?_append_right (Nat.le_add_right _ _),
    Nat.add_sub_cancel_left]

theorem length_words (list : List UInt32) : (words list).length = 4 * list.length := by
  induction list with
  | nil => rfl
  | cons word list ih =>
      rw [words, List.flatMap_cons, List.length_append, List.length_cons, Nat.mul_add]
      rw [words] at ih
      rw [ih, Nat.add_comm]
      rfl

/-- The word at each multiple of four is the one that was put there. -/
theorem readUint32_words {list : List UInt32} (rest : Bytes) (p i : Nat) {word : UInt32}
    (h : list[i]? = some word) (position : p = 4 * i) :
    readUint32 (words list ++ rest) p = some word := by
  induction list generalizing p i with
  | nil => cases h
  | cons first list ih =>
      rw [words, List.flatMap_cons, List.append_assoc, position]
      cases i with
      | zero =>
          obtain rfl := Option.some.inj h
          exact readUint32_littleEndian32 _ _
      | succ i =>
          have behind : 4 * (i + 1) = (littleEndian32 first).length + 4 * i := by
            rw [Nat.mul_add, Nat.add_comm]
            rfl
          rw [behind, readUint32_append]
          exact ih (4 * i) i h rfl

/-! ### Volume files -/

def commonHeaderWords (common : CommonHeader) : List UInt32 :=
  [cabSignature, common.version, common.volumeInfo, common.cabDescriptorOffset,
    common.cabDescriptorSize]

def volumeHeaderWordsV5 (volumeHeader : VolumeHeader) : List UInt32 :=
  [volumeHeader.dataOffset, 0, volumeHeader.firstFileIndex, volumeHeader.lastFileIndex,
    volumeHeader.firstFileOffset, volumeHeader.firstFileSizeExpanded,
    volumeHeader.firstFileSizeCompressed, volumeHeader.lastFileOffset,
    volumeHeader.lastFileSizeExpanded, volumeHeader.lastFileSizeCompressed]

def volumeHeaderWordsV6 (volumeHeader : VolumeHeader) : List UInt32 :=
  [volumeHeader.dataOffset, volumeHeader.dataOffsetHigh, volumeHeader.firstFileIndex,
    volumeHeader.lastFileIndex, volumeHeader.firstFileOffset, volumeHeader.firstFileOffsetHigh,
    volumeHeader.firstFileSizeExpanded, volumeHeader.firstFileSizeExpandedHigh,
    volumeHeader.firstFileSizeCompressed, volumeHeader.firstFileSizeCompressedHigh,
    volumeHeader.lastFileOffset, volumeHeader.lastFileOffsetHigh,
    volumeHeader.lastFileSizeExpanded, volumeHeader.lastFileSizeExpandedHigh,
    volumeHeader.lastFileSizeCompressed, volumeHeader.lastFileSizeCompressedHigh]

def volumeHeaderWords (header : Header) (volumeHeader : VolumeHeader) : List UInt32 :=
  if header.OldLayout then volumeHeaderWordsV5 volumeHeader else volumeHeaderWordsV6 volumeHeader

/-- A volume file: its two headers and the data behind them. -/
def volumeBytes (header : Header) (common : CommonHeader) (volumeHeader : VolumeHeader)
    (data : Bytes) : Bytes :=
  words (commonHeaderWords common) ++ (words (volumeHeaderWords header volumeHeader) ++ data)

/-- What the old layout keeps of a header: no high words, and an offset of the last file that is not
zero. -/
def VolumeHeader.lowWords (volumeHeader : VolumeHeader) : VolumeHeader :=
  { volumeHeader with
    dataOffsetHigh := 0
    firstFileOffsetHigh := 0
    firstFileSizeExpandedHigh := 0
    firstFileSizeCompressedHigh := 0
    lastFileOffset := if volumeHeader.lastFileOffset = 0 then 0x7FFFFFFF
      else volumeHeader.lastFileOffset
    lastFileOffsetHigh := 0
    lastFileSizeExpandedHigh := 0
    lastFileSizeCompressedHigh := 0 }

def recorded (header : Header) (volumeHeader : VolumeHeader) : VolumeHeader :=
  if header.OldLayout then volumeHeader.lowWords else volumeHeader

theorem readCommonHeader_words (common : CommonHeader) (rest : Bytes) :
    readCommonHeader (words (commonHeaderWords common) ++ rest) =
      .ret { common with signature := cabSignature } := by
  have word := @readUint32_words (commonHeaderWords common) rest
  rw [readCommonHeader]
  simp only [word 0 0 rfl rfl, word 4 1 rfl rfl, word 8 2 rfl rfl, word 12 3 rfl rfl,
    word 16 4 rfl rfl, Exit.ofAccess_some, Exit.bind_ret, Exit.pure_eq, ne_eq, not_true_eq_false,
    if_false]

theorem readVolumeHeaderV5_words {volumeHeader : VolumeHeader} (rest : Bytes) :
    readVolumeHeaderV5 (words (volumeHeaderWordsV5 volumeHeader) ++ rest) =
      some volumeHeader.lowWords := by
  have word := @readUint32_words (volumeHeaderWordsV5 volumeHeader) rest
  rw [readVolumeHeaderV5]
  simp only [word 0 0 rfl rfl, word 8 2 rfl rfl, word 12 3 rfl rfl, word 16 4 rfl rfl,
    word 20 5 rfl rfl, word 24 6 rfl rfl, word 28 7 rfl rfl, word 32 8 rfl rfl, word 36 9 rfl rfl,
    Option.bind_eq_bind, Option.bind_some, VolumeHeader.lowWords]

theorem readVolumeHeaderV6_words {volumeHeader : VolumeHeader} (rest : Bytes) :
    readVolumeHeaderV6 (words (volumeHeaderWordsV6 volumeHeader) ++ rest) = some volumeHeader := by
  have word := @readUint32_words (volumeHeaderWordsV6 volumeHeader) rest
  rw [readVolumeHeaderV6]
  simp only [word 0 0 rfl rfl, word 4 1 rfl rfl, word 8 2 rfl rfl, word 12 3 rfl rfl,
    word 16 4 rfl rfl, word 20 5 rfl rfl, word 24 6 rfl rfl, word 28 7 rfl rfl, word 32 8 rfl rfl,
    word 36 9 rfl rfl, word 40 10 rfl rfl, word 44 11 rfl rfl, word 48 12 rfl rfl,
    word 52 13 rfl rfl, word 56 14 rfl rfl, word 60 15 rfl rfl, Option.bind_eq_bind,
    Option.bind_some]

theorem readVolumeHeader_words (header : Header) (volumeHeader : VolumeHeader) (rest : Bytes) :
    readVolumeHeader header (words (volumeHeaderWords header volumeHeader) ++ rest) =
      some (recorded header volumeHeader) := by
  rw [readVolumeHeader, volumeHeaderWords, recorded]
  by_cases old : header.OldLayout
  · rw [if_pos old, if_pos old, if_pos old]
    exact readVolumeHeaderV5_words rest
  · rw [if_neg old, if_neg old, if_neg old]
    exact readVolumeHeaderV6_words rest

theorem length_commonHeaderWords (common : CommonHeader) :
    (words (commonHeaderWords common)).length = commonHeaderSize := length_words _

theorem length_volumeHeaderWords (header : Header) (volumeHeader : VolumeHeader) :
    (words (volumeHeaderWords header volumeHeader)).length = volumeHeaderSize header := by
  rw [length_words, volumeHeaderWords, volumeHeaderSize]
  split <;> rfl

/-- A volume that was put together from its records opens with these records. -/
theorem volumeFile_volumeBytes (header : Header) (common : CommonHeader)
    (volumeHeader : VolumeHeader) (data : Bytes) :
    VolumeFile header (volumeBytes header common volumeHeader data)
      (recorded header volumeHeader) := by
  have first := length_commonHeaderWords common
  have second := length_volumeHeaderWords header volumeHeader
  refine ⟨?_, ⟨{ common with signature := cabSignature }, ?_⟩, ?_⟩
  · rw [volumeBytes, List.length_append, List.length_append, first, second]
    omega
  · have parsed := readCommonHeader_words common []
    rw [List.append_nil] at parsed
    rw [volumeBytes, List.take_left' first]
    exact parsed
  · have parsed := readVolumeHeader_words header volumeHeader []
    rw [List.append_nil] at parsed
    rw [volumeBytes, List.drop_left' first, List.take_left' second]
    exact parsed

/-- The data of a volume lies behind its headers. -/
theorem drop_volumeBytes (header : Header) (common : CommonHeader) (volumeHeader : VolumeHeader)
    (data : Bytes) :
    (volumeBytes header common volumeHeader data).drop (commonHeaderSize + volumeHeaderSize header) =
      data := by
  rw [volumeBytes, ← List.append_assoc, List.drop_left']
  rw [List.length_append, length_commonHeaderWords, length_volumeHeaderWords]

/-! ### A cabinet on a shelf

Every content has a layout: in one volume, or cut anywhere into volumes that each hold one segment.
-/

/-- The volumes of a cabinet by number, from 1 on. -/
def shelf (volumes : List Bytes) (volume : Int) : Option Bytes :=
  if 1 ≤ volume then volumes[(volume - 1).toNat]? else none

theorem room_zero_lt : 0 < 2 ^ 63 := by decide

theorem room_one_lt : 1 < 2 ^ 63 := by decide

theorem room_two_lt : 2 < 2 ^ 63 := by decide

theorem no_volume_lt (content : Bytes) (member : content ∈ []) : content.length < 2 ^ 63 :=
  absurd member List.not_mem_nil

/-- Where there is no file, none is too long. -/
theorem nothing_lt (_ : Int) (content : Bytes) (nothing : (none : Option Bytes) = some content) :
    content.length < 2 ^ 63 := by
  cases nothing

/-- Where no path leads to a volume, none has to be protected. -/
theorem nothing_protected (writable : Bytes → Bool) (path : Bytes) (volume : Int)
    (leads : (none : Option Int) = some volume) : writable path = false := by
  cases leads

theorem none_protected (path : Bytes) (volume : Int) (leads : (none : Option Int) = some volume) :
    true = false :=
  nothing_protected (fun _ => true) path volume leads

/-- A disk with nothing but a cabinet on it, whose volumes no path leads to. -/
def shelfDisk (volumes : List Bytes) (room : Nat) (short : ∀ content ∈ volumes, content.length < 2 ^ 63)
    (room_lt : room < 2 ^ 63) : Disk where
  store :=
    { cabinets := shelf volumes
      volumeAt := fun _ => none
      files := fun _ => none
      writable := fun _ => true
      room
      cabinets_lt := by
        intro volume content found
        rw [shelf] at found
        split at found
        · exact short content (List.mem_of_getElem? found)
        · cases found
      room_lt
      volumes_protected := none_protected }

/-- A library that has decoded a descriptor already. -/
def libraryWith (fd : FileDescriptor) (io : Disk) : Library Disk :=
  { fileDescriptors := fun _ => some fd, io }

def plainCommonHeader : CommonHeader :=
  { signature := cabSignature, version := 0, volumeInfo := 0, cabDescriptorOffset := 0,
    cabDescriptorSize := 0 }

/-- Where the data of a volume starts. -/
def dataStart (header : Header) : Nat := commonHeaderSize + volumeHeaderSize header

/-- The volume header of a volume that holds only a segment of one file. -/
def segmentHeader (header : Header) (index : UInt32) (segment : Bytes) : VolumeHeader :=
  { firstFileIndex := index
    firstFileOffset := UInt32.ofNat (dataStart header)
    firstFileSizeExpanded := UInt32.ofNat segment.length
    firstFileSizeCompressed := UInt32.ofNat segment.length
    lastFileIndex := index
    lastFileOffset := UInt32.ofNat (dataStart header)
    lastFileSizeExpanded := UInt32.ofNat segment.length
    lastFileSizeCompressed := UInt32.ofNat segment.length }

def segmentVolume (header : Header) (index : UInt32) (segment : Bytes) : Bytes :=
  volumeBytes header plainCommonHeader (segmentHeader header index segment) segment

theorem dataStart_word (header : Header) :
    UInt32.ofNat (dataStart header) ≠ 0 ∧ UInt32.ofNat (dataStart header) ≠ 0x7FFFFFFF ∧
      (UInt32.ofNat (dataStart header)).toUInt64.toNat = dataStart header := by
  rw [dataStart, volumeHeaderSize]
  split <;> decide

theorem recorded_segmentHeader (header : Header) (index : UInt32) (segment : Bytes) :
    recorded header (segmentHeader header index segment) = segmentHeader header index segment := by
  rw [recorded]
  split
  · have offset : (segmentHeader header index segment).lastFileOffset ≠ 0 := (dataStart_word header).1
    rw [VolumeHeader.lowWords, if_neg offset]
    rfl
  · rfl

theorem opens_segmentVolume {header : Header} {cabinets : Int → Option Bytes} {index : UInt32}
    {volume : Int} {segment : Bytes}
    (placed : cabinets volume = some (segmentVolume header index segment)) :
    Opens header cabinets volume (segmentVolume header index segment)
      (segmentHeader header index segment) := by
  have valid := volumeFile_volumeBytes header plainCommonHeader (segmentHeader header index segment)
    segment
  rw [recorded_segmentHeader] at valid
  exact ⟨placed, valid⟩

/-- A segment is found where its volume header says. -/
theorem holdsSegment_segmentVolume {header : Header} {cabinets : Int → Option Bytes} {index : UInt32}
    {fd : FileDescriptor} {volume : Int} {segment : Bytes}
    (placed : cabinets volume = some (segmentVolume header index segment))
    (split : fd.Has fileSplit) (short : segment.length < 2 ^ 32) :
    HoldsSegment header cabinets index fd volume segment := by
  obtain ⟨_, offset, start⟩ := dataStart_word header
  have size : (UInt32.ofNat segment.length).toUInt64.toUInt32.toNat = segment.length := by
    rw [UInt32.toUInt32_toUInt64, UInt32.toNat_ofNat_of_lt' short]
  have selected : selectPortion index (segmentHeader header index segment) fd = some
      { dataOffset := (UInt32.ofNat (dataStart header)).toUInt64
        volumeBytesLeftExpanded := (UInt32.ofNat segment.length).toUInt64
        volumeBytesLeftCompressed := (UInt32.ofNat segment.length).toUInt64 } := by
    rw [selectPortion, if_pos split]
    exact if_pos ⟨rfl, offset⟩
  refine ⟨_, _, _, opens_segmentVolume placed, selected, ?_, ?_⟩
  · rw [Portion.volumeBytesLeft]
    split <;> exact size
  · rw [start, segmentVolume, dataStart, drop_volumeBytes, List.take_length]

theorem holdsSegments_shelf {header : Header} {index : UInt32} {fd : FileDescriptor}
    (split : fd.Has fileSplit) {segments : List Bytes}
    (short : ∀ segment ∈ segments, segment.length < 2 ^ 32) (before : List Bytes) :
    HoldsSegments header (shelf (before ++ segments.map (segmentVolume header index))) index fd
      (before.length + 1) segments := by
  induction segments generalizing before with
  | nil => trivial
  | cons segment segments ih =>
      refine ⟨holdsSegment_segmentVolume ?_ split (short segment List.mem_cons_self), ?_⟩
      · rw [shelf, if_pos (by omega), Int.add_sub_cancel, Int.toNat_natCast,
          List.getElem?_append_right (Nat.le_refl _), Nat.sub_self]
        rfl
      · have next := ih (fun segment member => short segment (List.mem_cons_of_mem _ member))
          (before ++ [segmentVolume header index segment])
        rw [List.append_assoc, List.length_append] at next
        exact next

/-- Wherever a content is cut, there are volumes that hold the segments. -/
theorem splitAcross_shelf (first : Bytes) (rest : List Bytes) {header : Header} {index : Int}
    {word : UInt32} {fd : FileDescriptor} (to_word : UInt32.ofInt index = word)
    (of_word : word.toInt32.toInt = index) (split : fd.Has fileSplit) (first_volume : fd.volume = 1)
    (solid : SegmentedStream.Solid (first :: rest))
    (short : ∀ segment ∈ first :: rest, segment.length < 2 ^ 32) :
    SplitAcross header (shelf ((first :: rest).map (segmentVolume header word))) index fd 1
      (segmentVolume header word first) (first :: rest) := by
  have valid := volumeFile_volumeBytes header plainCommonHeader (segmentHeader header word first) first
  rw [recorded_segmentHeader] at valid
  subst to_word
  refine ⟨?_, ?_, ⟨_, ⟨?_, valid⟩, ?_, ?_⟩, solid, holdsSegments_shelf (splitDescriptor_has _ _) short []⟩
  · rw [first_volume]
  · intro volume low high
    rw [first_volume] at low
    exact absurd low (Nat.not_le_of_lt high)
  · rfl
  · rintro ⟨_, before⟩
    rw [segmentHeader, of_word] at before
    exact absurd before (Int.lt_irrefl _)
  · rw [markSplit_of_has split]
    exact split

/-- Every content can be put into one volume, if no file behind it is asked for. -/
theorem storedAt_volumeBytes {header : Header} {volumeHeader : VolumeHeader} {index : Int}
    {fd : FileDescriptor} {stored : Bytes} (version : header.majorVersion ≠ 5) (whole : ¬ fd.Has fileSplit)
    (first_volume : fd.volume = 1)
    (last : index ≤ (recorded header volumeHeader).lastFileIndex.toInt32.toInt)
    (offset : fd.dataOffset.toNat = dataStart header)
    (size : (storedSize fd).toNat = stored.length) (size_lt : stored.length < 2 ^ 32) :
    StoredAt header (shelf [volumeBytes header plainCommonHeader volumeHeader stored]) index fd
      (volumeBytes header plainCommonHeader volumeHeader stored) stored := by
  have valid := volumeFile_volumeBytes header plainCommonHeader volumeHeader stored
  refine ⟨⟨_, ⟨?_, valid⟩, ?_, ?_⟩, ?_, ?_, size, size_lt⟩
  · rw [first_volume]
    rfl
  · rintro ⟨_, before⟩
    exact absurd before (Int.not_lt.2 last)
  · rw [markSplit, if_neg version]
    exact whole
  · rw [offset, volumeBytes, List.length_append, List.length_append,
      length_commonHeaderWords, length_volumeHeaderWords, dataStart, Nat.add_assoc]
  · rw [offset, dataStart, drop_volumeBytes, List.take_length]

def storedVolume (header : Header) (stored : Bytes) : Bytes :=
  volumeBytes header plainCommonHeader {} stored

theorem storedAt_shelf {header : Header} {fd : FileDescriptor} {stored : Bytes}
    (version : header.majorVersion ≠ 5) (whole : ¬ fd.Has fileSplit) (first_volume : fd.volume = 1)
    (offset : fd.dataOffset.toNat = dataStart header)
    (size : (storedSize fd).toNat = stored.length) (size_lt : stored.length < 2 ^ 32) :
    StoredAt header (shelf [storedVolume header stored]) 0 fd (storedVolume header stored) stored := by
  refine storedAt_volumeBytes version whole first_volume ?_ offset size size_lt
  rw [recorded]
  split <;> decide

theorem extractable_libraryWith {header : Header} {index : Int} {fd : FileDescriptor} {io : Disk}
    {path : Bytes} {size : Nat} (index_valid : ValidIndex header index) (valid : ¬ fd.Has fileInvalid)
    (nonzero : fd.dataOffset ≠ 0) (unlinked : fd.linkFlags &&& linkPrev = 0)
    (writable : io.store.writable path = true) (room : size ≤ io.store.room) :
    Extractable header (libraryWith fd io) index fd path size := by
  refine ⟨?_, valid, nonzero, unlinked, writable, room⟩
  rw [Describes, getFileDescriptor, Proc.bind_of_ret (Proc.require_run_of index_valid _)]
  rfl

/-! ### A small process

Enough of zlib and MD5 to run the examples: two whole streams, three single blocks with a letter and the
empty one that is the end of a chunk, and the digests of two messages.
-/

def smallZlib : Zlib where
  State := Unit
  inflateInit2 := (zOk, ())
  inflate := fun _ flush input _ =>
    match flush, input with
    | .finish, 0x4b :: 0x04 :: 0x00 :: _ =>
        { code := zStreamEnd, state := (), consumed := 3, output := [0x61] }
    | .finish, 0x4b :: 0x02 :: 0x00 :: _ =>
        { code := zStreamEnd, state := (), consumed := 3, output := [0x62] }
    | .block, 0x4a :: 0x04 :: 0x00 :: _ => { code := zOk, state := (), consumed := 3, output := [0x61] }
    | .block, 0x4a :: 0x02 :: 0x00 :: _ => { code := zOk, state := (), consumed := 3, output := [0x62] }
    | .block, 0x4b :: 0x02 :: 0x00 :: _ => { code := zOk, state := (), consumed := 3, output := [0x62] }
    | .block, 0x00 :: 0x00 :: 0xff :: 0xff :: _ =>
        { code := zOk, state := (), consumed := 4, output := [] }
    | _, _ => { code := zDataError, state := (), consumed := 0, output := [] }
  inflateEnd := fun _ => zOk

def digestOfA : Bytes :=
  [0x0c, 0xc1, 0x75, 0xb9, 0xc0, 0xf1, 0xb6, 0xa8, 0x31, 0xc3, 0x99, 0xe2, 0x69, 0x77, 0x26, 0x61]

def digestOfAB : Bytes :=
  [0x18, 0x7e, 0xf4, 0x43, 0x61, 0x22, 0xd1, 0xcc, 0x2f, 0x40, 0xdc, 0x2b, 0x92, 0xf0, 0xeb, 0xa0]

def smallMd5 : Md5 where
  Context := Bytes
  init := []
  update := fun context data => context ++ data
  final := fun context =>
    if context = [0x61] then digestOfA else if context = [0x61, 0x62] then digestOfAB else []
  update_nil := List.append_nil
  update_append := List.append_assoc

def smallLibraries : Libraries where
  zlib := smallZlib
  md5 := smallMd5
  garbage := fun _ => 0
  pathMax := 4096
  bigEndian := false

/-- The header of a cabinet with one file. -/
def smallHeader (majorVersion : Int) : Header where
  index := 1
  data := []
  majorVersion := majorVersion
  common := plainCommonHeader
  cab := { fileTableOffset := 0, directoryCount := 0, fileCount := 1, fileTableOffset2 := 0 }
  fileTable := []

def smallArchive (majorVersion : Int) : Archive :=
  { header := smallHeader majorVersion, filenamePattern := [] }

def smallPath : Bytes := [0x6f, 0x75, 0x74]

end Unshield
