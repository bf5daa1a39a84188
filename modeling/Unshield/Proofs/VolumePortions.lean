/-
Module: Unshield.Proofs.VolumePortions
Purpose: Where the reader stands once a volume has been opened: at the portion that the volume header
  records, or not, for the split files of major version 5 and for the 64-bit fields of the later
  versions.
Trusted boundary: none
Main exports: recordedPortion, openVolume_position_iff, FirstPart, markSplit_last_iff,
  readerCreate_divided_iff
-/
import Unshield.Proofs.VolumeFormat

namespace Unshield

open Procedure

/-! ### Fields of 64 bits -/

/-- A number in two words. -/
def wide (high low : UInt32) : Nat := high.toNat * 2 ^ 32 + low.toNat

theorem wide_mod (high low : UInt32) : wide high low % 2 ^ 32 = low.toNat := by
  rw [wide, Nat.mul_comm, Nat.mul_add_mod, Nat.mod_eq_of_lt low.toNat_lt]

/-- The offset and the size of the portion of a file in a volume, with all words of the fields that
record them: the first-file or the last-file fields of the volume header for a split file, else those of
the descriptor. -/
def recordedPortion (index : UInt32) (volumeHeader : VolumeHeader) (fd : FileDescriptor) :
    Option (Nat × Nat) :=
  if fd.Has fileSplit then
    if index = volumeHeader.lastFileIndex ∧ volumeHeader.lastFileOffset ≠ 0x7FFFFFFF then
      some (wide volumeHeader.lastFileOffsetHigh volumeHeader.lastFileOffset,
        if fd.Has fileCompressed then
          wide volumeHeader.lastFileSizeCompressedHigh volumeHeader.lastFileSizeCompressed
        else wide volumeHeader.lastFileSizeExpandedHigh volumeHeader.lastFileSizeExpanded)
    else if index = volumeHeader.firstFileIndex then
      some (wide volumeHeader.firstFileOffsetHigh volumeHeader.firstFileOffset,
        if fd.Has fileCompressed then
          wide volumeHeader.firstFileSizeCompressedHigh volumeHeader.firstFileSizeCompressed
        else wide volumeHeader.firstFileSizeExpandedHigh volumeHeader.firstFileSizeExpanded)
    else none
  else some (fd.dataOffset.toNat, if fd.Has fileCompressed then fd.compressedSize.toNat
    else fd.expandedSize.toNat)

section

variable {index : UInt32} {volumeHeader : VolumeHeader} {fd : FileDescriptor} {offset size : Nat}

/-- Of the recorded portion, the selected one has the low words: of the offset of a split file, and of
the size of every file. -/
theorem selectPortion_of_recorded
    (recorded : recordedPortion index volumeHeader fd = some (offset, size)) :
    ∃ portion, selectPortion index volumeHeader fd = some portion ∧
      portion.dataOffset.toNat = (if fd.Has fileSplit then offset % 2 ^ 32 else offset) ∧
      (portion.volumeBytesLeft fd).toNat = size % 2 ^ 32 := by
  rw [recordedPortion] at recorded
  rw [selectPortion]
  by_cases split : fd.Has fileSplit
  · rw [if_pos split] at recorded ⊢
    by_cases last : index = volumeHeader.lastFileIndex ∧ volumeHeader.lastFileOffset ≠ 0x7FFFFFFF
    · rw [if_pos last] at recorded ⊢
      obtain ⟨rfl, rfl⟩ := Prod.mk.inj (Option.some.inj recorded)
      refine ⟨_, rfl, ?_, ?_⟩
      · rw [if_pos split, wide_mod, UInt32.toNat_toUInt64]
      · rw [Portion.volumeBytesLeft]
        split <;> rw [wide_mod, UInt32.toUInt32_toUInt64]
    · rw [if_neg last] at recorded ⊢
      by_cases first : index = volumeHeader.firstFileIndex
      · rw [if_pos first] at recorded ⊢
        obtain ⟨rfl, rfl⟩ := Prod.mk.inj (Option.some.inj recorded)
        refine ⟨_, rfl, ?_, ?_⟩
        · rw [if_pos split, wide_mod, UInt32.toNat_toUInt64]
        · rw [Portion.volumeBytesLeft]
          split <;> rw [wide_mod, UInt32.toUInt32_toUInt64]
      · rw [if_neg first] at recorded
        cases recorded
  · rw [if_neg split] at recorded ⊢
    obtain ⟨rfl, rfl⟩ := Prod.mk.inj (Option.some.inj recorded)
    refine ⟨_, rfl, ?_, ?_⟩
    · rw [if_neg split]
    · rw [Portion.volumeBytesLeft]
      split <;> exact UInt64.toNat_toUInt32 _

end

/-- A seek ends at its offset exactly if that is not negative as an `off_t`. -/
theorem fseek_set_position_iff {file : Stream} {offset : UInt64} (io : Disk)
    (small : file.position < 2 ^ 63) :
    (Disk.fseek file offset.toInt64.toInt .set io).1.position = offset.toNat ↔
      offset.toNat < 2 ^ 63 := by
  by_cases within : offset.toNat < 2 ^ 63
  · rw [fseek_set within]
    exact iff_of_true rfl within
  · have negative : ¬ 0 ≤ offset.toInt64.toInt := by
      intro nonnegative
      apply within
      rw [Bits.toNat_of_toInt64_toInt (Int.toNat_of_nonneg nonnegative).symm]
      have bound := offset.toInt64.toInt_lt
      omega
    rw [Disk.fseek]
    simp only [if_neg negative]
    omega

/-- Opening a volume that has a portion of the file stands the reader at the recorded offset, with the
recorded size, exactly if the size has 32 bits, and the offset 32 bits for a split file and 63 bits for a
whole one. -/
theorem openVolume_position_iff (libraries : Libraries) {header : Header} {volume : Int}
    {s t : DiskSession} {offset size : Nat} (newer : 6 ≤ header.majorVersion)
    (run : readerOpenVolume libraries.onDisk header volume s = (.ret (), t))
    (present : recordedPortion s.reader.index t.reader.volumeHeader s.fileDescriptor =
      some (offset, size)) :
    ∃ content, Opens header s.io.store.cabinets volume content t.reader.volumeHeader ∧
      ((∃ file, t.reader.volumeFile = some file ∧ file.content = content ∧ file.position = offset) ∧
          t.reader.volumeBytesLeft.toNat = size ↔
        size < 2 ^ 32 ∧ offset < if s.fileDescriptor.Has fileSplit then 2 ^ 32 else 2 ^ 63) := by
  obtain ⟨content, volumeHeader, opens, rfl⟩ := opens_of_readerOpenVolume libraries run
  rw [enterVolume_volumeHeader] at present ⊢
  refine ⟨content, opens, ?_⟩
  obtain ⟨portion, selected, start, left⟩ := selectPortion_of_recorded present
  have same : markSplit header s.reader.index volumeHeader s.fileDescriptor = s.fileDescriptor := by
    rw [markSplit, if_neg (by omega)]
  have size_iff : (portion.volumeBytesLeft s.fileDescriptor).toNat = size ↔ size < 2 ^ 32 := by
    rw [left]
    omega
  have position : commonHeaderSize + volumeHeaderSize header < 2 ^ 63 := by
    rw [volumeHeaderSize]
    split <;> decide
  have offset_iff : (Disk.fseek
      { content, position := commonHeaderSize + volumeHeaderSize header }
      portion.dataOffset.toInt64.toInt .set (closeVolume s).io).1.position = offset ↔
      offset < if s.fileDescriptor.Has fileSplit then 2 ^ 32 else 2 ^ 63 := by
    by_cases split : s.fileDescriptor.Has fileSplit
    · rw [if_pos split] at start ⊢
      rw [fseek_set (by omega)]
      show portion.dataOffset.toNat = offset ↔ _
      omega
    · rw [if_neg split] at start ⊢
      rw [← start]
      exact fseek_set_position_iff _ position
  simp only [enterVolume, same, selected]
  constructor
  · rintro ⟨⟨file, opened, _, there⟩, counted⟩
    obtain rfl := Option.some.inj opened
    exact ⟨size_iff.1 counted, offset_iff.1 there⟩
  · rintro ⟨size_lt, offset_lt⟩
    refine ⟨⟨_, rfl, ?_, offset_iff.2 offset_lt⟩, size_iff.2 size_lt⟩
    rw [Disk.fseek]
    split <;> rfl

/-! ### Beyond 4 GiB -/

/-- A volume that is said to hold the last file at the offset 84, with this high word. -/
def offsetVolume (high : UInt32) : Bytes :=
  volumeBytes (smallHeader 6) plainCommonHeader
    { lastFileOffset := 84, lastFileOffsetHigh := high, lastFileSizeExpanded := 1 } [0x61]

theorem offsetVolume_short (high : UInt32) : ∀ content ∈ [offsetVolume high], content.length < 2 ^ 63 := by
  intro content member
  rw [List.mem_singleton.1 member, offsetVolume, volumeBytes, List.length_append, List.length_append,
    length_commonHeaderWords, length_volumeHeaderWords]
  decide

/-- The session of a split file that is stored as it is. -/
def offsetSession (high : UInt32) : DiskSession :=
  startSession { flags := fileSplit } (shelfDisk [offsetVolume high] 0 (offsetVolume_short high) room_zero_lt)

theorem openVolume_position_low :
    ∃ t, readerOpenVolume smallLibraries.onDisk (smallHeader 6) 1 (offsetSession 0) = (.ret (), t) ∧
      (∃ file, t.reader.volumeFile = some file ∧ file.position = 84) ∧
      t.reader.volumeBytesLeft.toNat = 1 := by
  have run := Proc.run_eq_ret (show (readerOpenVolume smallLibraries.onDisk (smallHeader 6) 1
    (offsetSession 0)).1 = .ret () by decide +kernel)
  have present : recordedPortion (offsetSession 0).reader.index (readerOpenVolume
      smallLibraries.onDisk (smallHeader 6) 1 (offsetSession 0)).2.reader.volumeHeader
      (offsetSession 0).fileDescriptor = some (84, 1) := by decide +kernel
  obtain ⟨content, _, stands⟩ := openVolume_position_iff smallLibraries (by decide) run present
  obtain ⟨⟨file, opened, _, there⟩, left⟩ := stands.2 (by decide)
  exact ⟨_, run, ⟨file, opened, there⟩, left⟩

/-- A file behind the first 4 GiB of its volume is looked for at the low word of its offset. -/
theorem openVolume_position_high :
    ∃ t, readerOpenVolume smallLibraries.onDisk (smallHeader 6) 1 (offsetSession 1) = (.ret (), t) ∧
      recordedPortion (offsetSession 1).reader.index t.reader.volumeHeader
        (offsetSession 1).fileDescriptor = some (2 ^ 32 + 84, 1) ∧
      t.reader.volumeFile.map Stream.position = some 84 :=
  ⟨_, Proc.run_eq_ret (by decide +kernel), by decide +kernel, by decide +kernel⟩

/-! ### Split files of major version 5 -/

/-- The first part of a file that is divided over consecutive volumes, as the volume headers record it:
the volumes in front of it hold only earlier files, and in its volume, the file is the last one, with
less than all of its bytes and with an offset. -/
structure FirstPart (header : Header) (cabinets : Int → Option Bytes) (index : Int)
    (fd : FileDescriptor) (start : UInt16) (content : Bytes) (volumeHeader : VolumeHeader) : Prop where
  not_before : fd.volume.toNat ≤ start.toNat
  passed : ∀ volume : Nat, fd.volume.toNat ≤ volume → volume < start.toNat →
    ∃ content volumeHeader, Opens header cabinets volume content volumeHeader ∧
      volumeHeader.lastFileIndex.toInt32.toInt < index ∧
      volumeHeader.firstFileIndex ≠ UInt32.ofInt index
  opens : Opens header cabinets start.toNat content volumeHeader
  last : volumeHeader.lastFileIndex = UInt32.ofInt index
  shorter : volumeHeader.lastFileSizeCompressed.toNat < fd.compressedSize.toNat
  offset : readUint32 content (commonHeaderSize + 28) ≠ some 0

/-- The file is marked split by its descriptor, or by its volume header: it is not the last file of the
cabinet, or it is not the first one and its volume has it as the first file too. -/
def Detected (header : Header) (index : Int) (volumeHeader : VolumeHeader) (fd : FileDescriptor) :
    Prop :=
  fd.Has fileSplit ∨ index + 1 < header.cab.fileCount.toNat ∨
    0 < index ∧ volumeHeader.firstFileIndex = UInt32.ofInt index ∧
      volumeHeader.firstFileSizeCompressed.toNat ≠ fd.compressedSize.toNat

/-- The size of the last file that counts for a descriptor, and that of the first one. -/
def lastPartSize (volumeHeader : VolumeHeader) (fd : FileDescriptor) : UInt32 :=
  if fd.Has fileCompressed then volumeHeader.lastFileSizeCompressed
  else volumeHeader.lastFileSizeExpanded

def firstPartSize (volumeHeader : VolumeHeader) (fd : FileDescriptor) : UInt32 :=
  if fd.Has fileCompressed then volumeHeader.firstFileSizeCompressed
  else volumeHeader.firstFileSizeExpanded

section

variable {header : Header} {index : Int} {volumeHeader : VolumeHeader} {fd : FileDescriptor}

/-- A valid index is the same number as a word, and one of the cabinet's. -/
theorem toNat_ofInt_of_validIndex (valid : ValidIndex header index) :
    (UInt32.ofInt index).toNat = index.toNat ∧ index < header.cab.fileCount.toNat := by
  have below := Int.lt_of_lt_of_le valid.2 (Bits.toInt32_toInt_le _)
  have bound := header.cab.fileCount.toNat_lt
  exact ⟨Bits.uint32_toNat_ofInt valid.1 (by omega), below⟩

theorem toInt_ofInt_of_validIndex (valid : ValidIndex header index) :
    (UInt32.ofInt index).toInt32.toInt = index := by
  have word := (toNat_ofInt_of_validIndex valid).1
  have below := Int.lt_trans valid.2 (Int32.toInt_lt _)
  have low := valid.1
  rw [Bits.toInt32_toInt_of_lt (by omega), word, Int.toNat_of_nonneg low]

/-- A volume header that names a file neither as its first nor as its last one does not mark it. -/
theorem markSplit_of_unnamed {index : UInt32} (last : volumeHeader.lastFileIndex ≠ index)
    (first : volumeHeader.firstFileIndex ≠ index) : markSplit header index volumeHeader fd = fd := by
  rw [markSplit]
  split
  · rw [if_neg fun conditions => last conditions.2.1.symm,
      if_neg fun conditions => first conditions.2.1.symm]
  · rfl

/-- A file is detected to be split in the volume where it is the last one. -/
theorem markSplit_last_iff (five : header.majorVersion = 5) (valid : ValidIndex header index)
    (last : volumeHeader.lastFileIndex = UInt32.ofInt index)
    (shorter : volumeHeader.lastFileSizeCompressed.toNat < fd.compressedSize.toNat) :
    (markSplit header (UInt32.ofInt index) volumeHeader fd).Has fileSplit ↔
      Detected header index volumeHeader fd := by
  obtain ⟨word, below⟩ := toNat_ofInt_of_validIndex valid
  have low := valid.1
  have one : (1 : UInt32) ≤ header.cab.fileCount := by
    rw [UInt32.le_iff_toNat_le]
    show 1 ≤ header.cab.fileCount.toNat
    omega
  have not_last : UInt32.ofInt index < header.cab.fileCount - 1 ↔
      index + 1 < header.cab.fileCount.toNat := by
    rw [UInt32.lt_iff_toNat_lt, UInt32.toNat_sub_of_le _ _ one, word]
    show index.toNat < header.cab.fileCount.toNat - 1 ↔ _
    omega
  have not_first : UInt32.ofInt index > 0 ↔ 0 < index := by
    rw [gt_iff_lt, UInt32.lt_iff_toNat_lt, word]
    show 0 < index.toNat ↔ _
    omega
  have marked := splitDescriptor_has fd fd.volume
  rw [markSplit, if_pos five, Detected]
  by_cases inner : index + 1 < header.cab.fileCount.toNat
  · rw [if_pos ⟨not_last.2 inner, last.symm, mt Bits.uint32_toUInt64_eq_iff.1 (Nat.ne_of_lt shorter)⟩]
    exact iff_of_true marked (Or.inr (Or.inl inner))
  · rw [if_neg fun conditions => inner (not_last.1 conditions.1)]
    by_cases also_first : 0 < index ∧ volumeHeader.firstFileIndex = UInt32.ofInt index ∧
        volumeHeader.firstFileSizeCompressed.toNat ≠ fd.compressedSize.toNat
    · obtain ⟨positive, first, other⟩ := also_first
      rw [if_pos ⟨not_first.2 positive, first.symm, mt Bits.uint32_toUInt64_eq_iff.1 other⟩]
      exact iff_of_true marked (Or.inr (Or.inr ⟨positive, first, other⟩))
    · rw [if_neg]
      · simp only [inner, also_first, or_false]
      · rintro ⟨positive, first, other⟩
        exact also_first ⟨not_first.1 positive, first.symm, mt Bits.uint32_toUInt64_eq_iff.2 other⟩

/-- The creation of a reader enters the volume with the first part, and only the volume number of the
descriptor has changed until then. -/
theorem readerCreate_firstPart (libraries : Libraries) {io : Disk} {start : UInt16} {content : Bytes}
    {fuel : Nat} (five : header.majorVersion = 5) (valid : ValidIndex header index)
    (part : FirstPart header io.store.cabinets index fd start content volumeHeader)
    (enough : start.toNat - fd.volume.toNat < fuel) :
    ∃ s : DiskSession, s.reader.index = UInt32.ofInt index ∧
      s.fileDescriptor = { fd with volume := start } ∧
      readerCreate libraries.onDisk header fuel index (startSession fd io) =
          (.ret (), enterVolume header start.toNat content volumeHeader s) := by
  have itself := toInt_ofInt_of_validIndex valid
  have stays : ¬ MovesOn header volumeHeader index := by
    rintro ⟨_, before⟩
    rw [part.last, itself] at before
    exact Int.lt_irrefl _ before
  obtain ⟨s, searching, descriptor, found, loop⟩ := readerCreateLoop_passes libraries
    (P := fun fd' => fd' = { fd with volume := fd'.volume }) _ (freshSession index fd io)
    (Nat.add_sub_of_le part.not_before) rfl (by
      intro volume low high
      obtain ⟨content', volumeHeader', opens, before, not_first⟩ := part.passed volume low high
      have not_last : volumeHeader'.lastFileIndex ≠ UInt32.ofInt index := by
        intro named
        rw [named, itself] at before
        exact Int.lt_irrefl _ before
      refine ⟨content', volumeHeader', opens, ⟨Int.le_of_eq five, before⟩, ?_⟩
      intro fd' next same
      have unmarked : markSplit header (freshSession index fd io).reader.index volumeHeader' fd' = fd' :=
        markSplit_of_unnamed not_last not_first
      rw [unmarked, same])
    part.opens stays fuel enough
  rw [found] at descriptor
  exact ⟨s, searching.index, descriptor, readerCreate_of_loop libraries loop⟩

/-- A part that is stored under the descriptor of a split file. -/
theorem volumeBytesLeft_splitDescriptor (start : UInt16) (offset : UInt64) (expanded compressed : UInt32) :
    ({ dataOffset := offset, volumeBytesLeftExpanded := expanded.toUInt64,
       volumeBytesLeftCompressed := compressed.toUInt64 } : Portion).volumeBytesLeft
        (splitDescriptor fd start) =
      if fd.Has fileCompressed then compressed else expanded := by
  have compression := @has_or_fileSplit fd fileCompressed rfl start
  rw [Portion.volumeBytesLeft, splitDescriptor]
  simp only [compression, UInt32.toUInt32_toUInt64]

/-- The reader of a file that is divided over volumes stands at its first part, and the descriptor is
marked split, exactly if the file is detected and the offset of the part is not the one that stands for
no offset. -/
theorem readerCreate_divided_iff (libraries : Libraries) {io : Disk} {start : UInt16} {content : Bytes}
    {fuel : Nat} (five : header.majorVersion = 5) (valid : ValidIndex header index)
    (part : FirstPart header io.store.cabinets index fd start content volumeHeader)
    (enough : start.toNat - fd.volume.toNat < fuel) :
    ∃ t, readerCreate libraries.onDisk header fuel index (startSession fd io) = (.ret (), t) ∧
      (t.fileDescriptor.Has fileSplit ∧ t.reader.volume = start.toNat ∧
          t.reader.volumeFile = some { content, position := volumeHeader.lastFileOffset.toNat } ∧
          t.reader.volumeBytesLeft = lastPartSize volumeHeader fd ↔
        Detected header index volumeHeader fd ∧
          (volumeHeader.lastFileOffset ≠ 0x7FFFFFFF ∨
            volumeHeader.firstFileIndex = UInt32.ofInt index ∧
              volumeHeader.firstFileOffset = volumeHeader.lastFileOffset ∧
              firstPartSize volumeHeader fd = lastPartSize volumeHeader fd)) := by
  obtain ⟨s, same_index, descriptor, run⟩ := readerCreate_firstPart libraries five valid part enough
  refine ⟨_, run, ?_⟩
  have mark_iff := @markSplit_last_iff header index volumeHeader fd five valid part.last part.shorter
  have after : (enterVolume header start.toNat content volumeHeader s).fileDescriptor =
      { markSplit header (UInt32.ofInt index) volumeHeader fd with volume := start } := by
    rw [enterVolume_fileDescriptor, same_index, descriptor, markSplit_setVolume]
  by_cases detected : Detected header index volumeHeader fd
  · have marked : markSplit header s.reader.index volumeHeader s.fileDescriptor =
        splitDescriptor fd start := by
      rw [same_index, descriptor, markSplit_setVolume, has_of_markSplit (mark_iff.2 detected)]
      rfl
    have split := splitDescriptor_has fd start
    by_cases offset : volumeHeader.lastFileOffset ≠ 0x7FFFFFFF
    · have selected : selectPortion s.reader.index volumeHeader (splitDescriptor fd start) = some
          { dataOffset := volumeHeader.lastFileOffset.toUInt64
            volumeBytesLeftExpanded := volumeHeader.lastFileSizeExpanded.toUInt64
            volumeBytesLeftCompressed := volumeHeader.lastFileSizeCompressed.toUInt64 } := by
        rw [selectPortion, if_pos split, if_pos ⟨same_index.trans part.last.symm, offset⟩]
      refine iff_of_true ?_ ⟨detected, Or.inl offset⟩
      simp only [enterVolume, marked, selected, fseek_set (dataOffset_lt_of_split split selected)]
      exact ⟨split, trivial, rfl, volumeBytesLeft_splitDescriptor start _ _ _⟩
    · by_cases first : volumeHeader.firstFileIndex = UInt32.ofInt index
      · have selected : selectPortion s.reader.index volumeHeader (splitDescriptor fd start) = some
            { dataOffset := volumeHeader.firstFileOffset.toUInt64
              volumeBytesLeftExpanded := volumeHeader.firstFileSizeExpanded.toUInt64
              volumeBytesLeftCompressed := volumeHeader.firstFileSizeCompressed.toUInt64 } := by
          rw [selectPortion, if_pos split, if_neg fun conditions => offset conditions.2,
            if_pos (same_index.trans first.symm)]
        simp only [enterVolume, marked, selected, fseek_set (dataOffset_lt_of_split split selected)]
        constructor
        · rintro ⟨_, _, file, left⟩
          have position := congrArg Stream.position (Option.some.inj file)
          refine ⟨detected, Or.inr ⟨first, UInt32.toNat_inj.1 position, ?_⟩⟩
          rw [← left]
          exact (volumeBytesLeft_splitDescriptor start _ _ _).symm
        · rintro ⟨_, other | ⟨_, same_offset, same_size⟩⟩
          · exact absurd other offset
          · refine ⟨split, trivial, ?_, ?_⟩
            · rw [same_offset, UInt32.toNat_toUInt64]
            · rw [← same_size]
              exact volumeBytesLeft_splitDescriptor start _ _ _
      · have nothing : selectPortion s.reader.index volumeHeader (splitDescriptor fd start) = none := by
          rw [selectPortion, if_pos split, if_neg fun conditions => offset conditions.2,
            if_neg fun named => first (named.symm.trans same_index)]
        refine iff_of_false ?_ ?_
        · rintro ⟨_, _, file, _⟩
          simp only [enterVolume, marked, nothing] at file
          have position := congrArg Stream.position (Option.some.inj file)
          -- the reader stands behind the volume header
          change commonHeaderSize + volumeHeaderSize header = volumeHeader.lastFileOffset.toNat at position
          rw [not_not.1 offset, volumeHeaderSize] at position
          split at position <;> exact absurd position (by decide)
        · rintro ⟨_, other | ⟨named, _⟩⟩
          · exact offset other
          · exact first named
  · refine iff_of_false ?_ fun conditions => detected conditions.1
    rw [after]
    exact fun stands => detected (mark_iff.1 stands.1)

end

/-! ### A single file in two volumes -/

/-- A cabinet of major version 5 with `count` files. -/
def fiveHeader (count : UInt32) : Header :=
  { smallHeader 5 with
    cab := { fileTableOffset := 0, directoryCount := 0, fileCount := count, fileTableOffset2 := 0 } }

/-- The only two bytes of a file, in two volumes. -/
def dividedDisk (count : UInt32) : Disk :=
  shelfDisk ([[0x61], [0x62]].map (segmentVolume (fiveHeader count) 0)) 0
    (by
      intro content member
      obtain ⟨segment, _, rfl⟩ := List.mem_map.1 member
      rename_i known
      rw [segmentVolume, volumeBytes, List.length_append, List.length_append, length_commonHeaderWords,
        length_volumeHeaderWords, volumeHeaderSize]
      rcases List.mem_pair.1 known with rfl | rfl <;> split <;> decide)
    room_zero_lt

def dividedDescriptor : FileDescriptor :=
  { flags := fileCompressed, expandedSize := 2, compressedSize := 2, dataOffset := 60, volume := 1 }

theorem opens_dividedDisk (count : UInt32) (volume : Int) (segment : Bytes)
    (placed : (dividedDisk count).store.cabinets volume =
      some (segmentVolume (fiveHeader count) 0 segment)) :
    Opens (fiveHeader count) (dividedDisk count).store.cabinets volume
      (segmentVolume (fiveHeader count) 0 segment) (segmentHeader (fiveHeader count) 0 segment) := by
  have valid := volumeFile_volumeBytes (fiveHeader count) plainCommonHeader
    (segmentHeader (fiveHeader count) 0 segment) segment
  rw [recorded_segmentHeader] at valid
  exact ⟨placed, valid⟩

theorem firstPart_dividedDisk {count : UInt32} (few : count = 1 ∨ count = 2) :
    FirstPart (fiveHeader count) (dividedDisk count).store.cabinets 0 dividedDescriptor 1
      (segmentVolume (fiveHeader count) 0 [0x61]) (segmentHeader (fiveHeader count) 0 [0x61]) where
  not_before := Nat.le_refl 1
  passed := fun _ low high => absurd low (Nat.not_le_of_lt high)
  opens := opens_dividedDisk count 1 [0x61] rfl
  last := rfl
  shorter := by rcases few with rfl | rfl <;> decide
  offset := by rcases few with rfl | rfl <;> decide

/-- With a second file in the cabinet, the first one is detected. -/
theorem readerCreate_divided_two_files :
    ∃ t, readerCreate smallLibraries.onDisk (fiveHeader 2) 1 0
        (startSession dividedDescriptor (dividedDisk 2)) = (.ret (), t) ∧
      t.fileDescriptor.Has fileSplit ∧ t.reader.volumeBytesLeft = 1 := by
  obtain ⟨t, run, stands⟩ := readerCreate_divided_iff smallLibraries rfl (by decide)
    (firstPart_dividedDisk (Or.inr rfl)) Nat.one_pos
  obtain ⟨split, _, _, left⟩ := stands.2 ⟨Or.inr (Or.inl (by decide)), Or.inl (by decide)⟩
  exact ⟨t, run, split, left⟩

/-- The only file of a cabinet is not, although the second volume goes on with it. -/
theorem readerCreate_divided_single_file :
    ValidIndex (fiveHeader 1) 0 ∧
      FirstPart (fiveHeader 1) (dividedDisk 1).store.cabinets 0 dividedDescriptor 1
        (segmentVolume (fiveHeader 1) 0 [0x61]) (segmentHeader (fiveHeader 1) 0 [0x61]) ∧
      Opens (fiveHeader 1) (dividedDisk 1).store.cabinets 2
        (segmentVolume (fiveHeader 1) 0 [0x62]) (segmentHeader (fiveHeader 1) 0 [0x62]) ∧
      ∃ t, readerCreate smallLibraries.onDisk (fiveHeader 1) 1 0
          (startSession dividedDescriptor (dividedDisk 1)) = (.ret (), t) ∧
        ¬ t.fileDescriptor.Has fileSplit := by
  refine ⟨by decide, firstPart_dividedDisk (Or.inl rfl), opens_dividedDisk 1 2 [0x62] rfl,
    (readerCreate smallLibraries.onDisk (fiveHeader 1) 1 0
      (startSession dividedDescriptor (dividedDisk 1))).2, ?_, ?_⟩
  · exact Proc.run_eq_ret (by decide +kernel)
  · decide +kernel

end Unshield
