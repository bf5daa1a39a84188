/-
Module: Unshield.Core.CabFile
Purpose: The cabinet data formats of lib/cabfile.h and lib/internal.h, and the readers of the common
  header, of the two volume header layouts and of the two file descriptor layouts.
Trusted boundary: human-reviewed model of lib/cabfile.h, lib/internal.h and of the parsing code in
  lib/helper.c and lib/file.c
Main exports: readUint16, readUint32, readUint64, CommonHeader, VolumeHeader, FileDescriptor, Header,
  readCommonHeader, readVolumeHeader, mulInt, readFileDescriptor
-/
import Unshield.Foundation.Procedure
import Mathlib.Algebra.Ring.Nat
import Mathlib.Data.List.Basic

namespace Unshield

open Procedure

/-- A block of memory or the content of a file. -/
abbrev Bytes := List UInt8

/-! ### Little-endian fields

`none` is a read outside the block.
-/

/-- `get_unaligned_le16` -/
def readUint16 (block : Bytes) (p : Nat) : Option UInt16 := do
  let low ← block[p]?
  let high ← block[p + 1]?
  some (low.toUInt16 ||| high.toUInt16 <<< 8)

/-- `get_unaligned_le32` -/
def readUint32 (block : Bytes) (p : Nat) : Option UInt32 := do
  let byte0 ← block[p]?
  let byte1 ← block[p + 1]?
  let byte2 ← block[p + 2]?
  let byte3 ← block[p + 3]?
  some (byte0.toUInt32 ||| byte1.toUInt32 <<< 8 ||| byte2.toUInt32 <<< 16 |||
    byte3.toUInt32 <<< 24)

/-- `get_unaligned_le64` -/
def readUint64 (block : Bytes) (p : Nat) : Option UInt64 := do
  let high ← readUint32 block (p + 4)
  let low ← readUint32 block p
  some (high.toUInt64 <<< 32 ||| low.toUInt64)

/-- `memcpy` out of a block. -/
def copyBytes (block : Bytes) (p size : Nat) : Option Bytes :=
  if p + size ≤ block.length then some ((block.drop p).take size) else none

/-! ### Constants -/

def cabSignature : UInt32 := 0x28635349

def commonHeaderSize : Nat := 20
def volumeHeaderSizeV5 : Nat := 40
def volumeHeaderSizeV6 : Nat := 64

def fileSplit : UInt16 := 1
def fileObfuscated : UInt16 := 2
def fileCompressed : UInt16 := 4
def fileInvalid : UInt16 := 8

def linkPrev : UInt8 := 1

def intMax : Int := 2147483647

/-- The product of two `int`s that are not negative; an overflow is undefined. -/
def mulInt (one two : Int) : Exit Int :=
  if one * two ≤ intMax then .ret (one * two) else .fault

/-! ### Records -/

structure CommonHeader where
  signature : UInt32
  version : UInt32
  volumeInfo : UInt32
  cabDescriptorOffset : UInt32
  cabDescriptorSize : UInt32
deriving Repr, DecidableEq, Inhabited

structure VolumeHeader where
  dataOffset : UInt32 := 0
  dataOffsetHigh : UInt32 := 0
  firstFileIndex : UInt32 := 0
  lastFileIndex : UInt32 := 0
  firstFileOffset : UInt32 := 0
  firstFileOffsetHigh : UInt32 := 0
  firstFileSizeExpanded : UInt32 := 0
  firstFileSizeExpandedHigh : UInt32 := 0
  firstFileSizeCompressed : UInt32 := 0
  firstFileSizeCompressedHigh : UInt32 := 0
  lastFileOffset : UInt32 := 0
  lastFileOffsetHigh : UInt32 := 0
  lastFileSizeExpanded : UInt32 := 0
  lastFileSizeExpandedHigh : UInt32 := 0
  lastFileSizeCompressed : UInt32 := 0
  lastFileSizeCompressedHigh : UInt32 := 0
deriving Repr, DecidableEq, Inhabited

/-- The fields of the cabinet descriptor that reading and saving a file use. -/
structure CabDescriptor where
  fileTableOffset : UInt32
  directoryCount : UInt32
  fileCount : UInt32
  fileTableOffset2 : UInt32
deriving Repr, DecidableEq, Inhabited

/-- A freshly allocated descriptor is all zeros. -/
structure FileDescriptor where
  nameOffset : UInt32 := 0
  directoryIndex : UInt32 := 0
  flags : UInt16 := 0
  expandedSize : UInt64 := 0
  compressedSize : UInt64 := 0
  dataOffset : UInt64 := 0
  md5 : Bytes := List.replicate 16 0
  volume : UInt16 := 0
  linkPrevious : UInt32 := 0
  linkNext : UInt32 := 0
  linkFlags : UInt8 := 0
deriving Repr, DecidableEq, Inhabited

/-- The header that an opened cabinet keeps: its raw data and the shortcuts into it. -/
structure Header where
  index : Int
  data : Bytes
  majorVersion : Int
  common : CommonHeader
  cab : CabDescriptor
  fileTable : List UInt32
deriving Repr, DecidableEq, Inhabited

/-- `fd->flags & flag` -/
def FileDescriptor.Has (fd : FileDescriptor) (flag : UInt16) : Prop := fd.flags &&& flag ≠ 0

instance (fd : FileDescriptor) (flag : UInt16) : Decidable (fd.Has flag) :=
  inferInstanceAs (Decidable (_ ≠ _))

/-- The versions with the layouts of the `case 0: case 5:` branches; every other one, known or not,
falls through to the `default:` branches. -/
def Header.OldLayout (header : Header) : Prop := header.majorVersion = 0 ∨ header.majorVersion = 5

instance (header : Header) : Decidable header.OldLayout := inferInstanceAs (Decidable (_ ∨ _))

/-! ### Headers of a volume -/

/-- `unshield_read_common_header`: fails on a wrong signature. -/
def readCommonHeader (p : Bytes) : Exit CommonHeader := do
  let signature ← Exit.ofAccess (readUint32 p 0)
  if signature ≠ cabSignature then
    Exit.fail
  else do
    let version ← Exit.ofAccess (readUint32 p 4)
    let volumeInfo ← Exit.ofAccess (readUint32 p 8)
    let cabDescriptorOffset ← Exit.ofAccess (readUint32 p 12)
    let cabDescriptorSize ← Exit.ofAccess (readUint32 p 16)
    pure { signature, version, volumeInfo, cabDescriptorOffset, cabDescriptorSize }

/-- The `case 0: case 5:` branch of the volume header reader. -/
def readVolumeHeaderV5 (p : Bytes) : Option VolumeHeader := do
  let dataOffset ← readUint32 p 0
  -- the word at 4 is unknown
  let firstFileIndex ← readUint32 p 8
  let lastFileIndex ← readUint32 p 12
  let firstFileOffset ← readUint32 p 16
  let firstFileSizeExpanded ← readUint32 p 20
  let firstFileSizeCompressed ← readUint32 p 24
  let lastFileOffset ← readUint32 p 28
  let lastFileSizeExpanded ← readUint32 p 32
  let lastFileSizeCompressed ← readUint32 p 36
  some
    { dataOffset, firstFileIndex, lastFileIndex, firstFileOffset, firstFileSizeExpanded,
      firstFileSizeCompressed,
      lastFileOffset := if lastFileOffset = 0 then 0x7FFFFFFF else lastFileOffset,
      lastFileSizeExpanded, lastFileSizeCompressed }

/-- The `default:` branch of the volume header reader. -/
def readVolumeHeaderV6 (p : Bytes) : Option VolumeHeader := do
  let dataOffset ← readUint32 p 0
  let dataOffsetHigh ← readUint32 p 4
  let firstFileIndex ← readUint32 p 8
  let lastFileIndex ← readUint32 p 12
  let firstFileOffset ← readUint32 p 16
  let firstFileOffsetHigh ← readUint32 p 20
  let firstFileSizeExpanded ← readUint32 p 24
  let firstFileSizeExpandedHigh ← readUint32 p 28
  let firstFileSizeCompressed ← readUint32 p 32
  let firstFileSizeCompressedHigh ← readUint32 p 36
  let lastFileOffset ← readUint32 p 40
  let lastFileOffsetHigh ← readUint32 p 44
  let lastFileSizeExpanded ← readUint32 p 48
  let lastFileSizeExpandedHigh ← readUint32 p 52
  let lastFileSizeCompressed ← readUint32 p 56
  let lastFileSizeCompressedHigh ← readUint32 p 60
  some
    { dataOffset, dataOffsetHigh, firstFileIndex, lastFileIndex, firstFileOffset,
      firstFileOffsetHigh, firstFileSizeExpanded, firstFileSizeExpandedHigh,
      firstFileSizeCompressed, firstFileSizeCompressedHigh, lastFileOffset, lastFileOffsetHigh,
      lastFileSizeExpanded, lastFileSizeExpandedHigh, lastFileSizeCompressed,
      lastFileSizeCompressedHigh }

def volumeHeaderSize (header : Header) : Nat :=
  if header.OldLayout then volumeHeaderSizeV5 else volumeHeaderSizeV6

def readVolumeHeader (header : Header) (p : Bytes) : Option VolumeHeader :=
  if header.OldLayout then readVolumeHeaderV5 p else readVolumeHeaderV6 p

/-! ### File descriptors -/

/-- The `case 0: case 5:` branch of `unshield_read_file_descriptor`. -/
def readFileDescriptorV5 (header : Header) (index : Int) : Exit FileDescriptor := do
  let entry ← Exit.ofAccess
    header.fileTable[(header.cab.directoryCount + UInt32.ofInt index).toNat]?
  let p := header.common.cabDescriptorOffset.toNat + header.cab.fileTableOffset.toNat + entry.toNat
  let data := header.data
  let nameOffset ← Exit.ofAccess (readUint32 data p)
  let directoryIndex ← Exit.ofAccess (readUint16 data (p + 4))
  Exit.assert (directoryIndex.toNat < header.cab.directoryCount.toNat)
  let flags ← Exit.ofAccess (readUint16 data (p + 8))
  let expandedSize ← Exit.ofAccess (readUint32 data (p + 10))
  let compressedSize ← Exit.ofAccess (readUint32 data (p + 14))
  let dataOffset ← Exit.ofAccess (readUint32 data (p + 38))
  let md5 ←
    if header.majorVersion = 5 then Exit.ofAccess (copyBytes data (p + 42) 16)
    else pure (List.replicate 16 0)
  pure
    { nameOffset, directoryIndex := directoryIndex.toUInt32, flags,
      expandedSize := expandedSize.toUInt64, compressedSize := compressedSize.toUInt64,
      dataOffset := dataOffset.toUInt64, md5, volume := UInt16.ofInt header.index }

/-- The `default:` branch of `unshield_read_file_descriptor`. -/
def readFileDescriptorV6 (header : Header) (index : Int) : Exit FileDescriptor := do
  let entryOffset ← mulInt index 0x57
  let p := header.common.cabDescriptorOffset.toNat + header.cab.fileTableOffset.toNat +
    header.cab.fileTableOffset2.toNat + entryOffset.toNat
  let data := header.data
  let flags ← Exit.ofAccess (readUint16 data p)
  let expandedSize ← Exit.ofAccess (readUint64 data (p + 2))
  let compressedSize ← Exit.ofAccess (readUint64 data (p + 10))
  let dataOffset ← Exit.ofAccess (readUint64 data (p + 18))
  let md5 ← Exit.ofAccess (copyBytes data (p + 26) 16)
  let nameOffset ← Exit.ofAccess (readUint32 data (p + 58))
  let directoryIndex ← Exit.ofAccess (readUint16 data (p + 62))
  Exit.assert (directoryIndex.toNat < header.cab.directoryCount.toNat)
  let linkPrevious ← Exit.ofAccess (readUint32 data (p + 76))
  let linkNext ← Exit.ofAccess (readUint32 data (p + 80))
  let linkFlags ← Exit.ofAccess data[p + 84]?
  let volume ← Exit.ofAccess (readUint16 data (p + 85))
  pure
    { nameOffset, directoryIndex := directoryIndex.toUInt32, flags, expandedSize, compressedSize,
      dataOffset, md5, volume, linkPrevious, linkNext, linkFlags }

/-- `unshield_read_file_descriptor` -/
def readFileDescriptor (header : Header) (index : Int) : Exit FileDescriptor :=
  if header.OldLayout then readFileDescriptorV5 header index else readFileDescriptorV6 header index

end Unshield
