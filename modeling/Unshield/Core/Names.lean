/-
Module: Unshield.Core.Names
Purpose: The strings of a header, and the names of files and directories.
Trusted boundary: human-reviewed model of the string functions of lib/helper.c, of lib/directory.c and of
  unshield_file_name in lib/file.c
Main exports: cString, getUtf8String, fileName, directoryName, getBaseDirectoryName, printString
-/
import Unshield.Core.CabFile
import Unshield.Core.Converter

namespace Unshield

open Procedure

/-! ### Strings

A string is the list of its bytes, without the terminator; `none` is a null pointer.
-/

/-- The C string at an offset; a string without terminator is read past the end of the block. -/
def cString (block : Bytes) (p : Nat) : Exit Bytes :=
  let tail := block.drop p
  if 0 ∈ tail then .ret (tail.takeWhile (· ≠ 0)) else .fault

/-- The bytes of a block as 16-bit units in the byte order of the host. -/
def units (bigEndian : Bool) : Bytes → List UInt16
  | one :: two :: rest =>
      (if bigEndian then one.toUInt16 <<< 8 ||| two.toUInt16
        else one.toUInt16 ||| two.toUInt16 <<< 8) :: units bigEndian rest
  | _ => []

/-- `unshield_strlen_utf16`, which counts the terminator too. -/
def strlenUtf16 (utf16 : List UInt16) : Exit Nat :=
  if 0 ∈ utf16 then .ret ((utf16.takeWhile (· ≠ 0)).length + 1) else .fault

/-- `3 * length + 1`, in an `int`; an overflow is undefined. -/
def bufferSizeOf (length : Nat) : Exit Nat :=
  if (3 * length + 1 : Nat) ≤ intMax then .ret (3 * length + 1) else .fault

variable (bigEndian : Bool) (header : Header)

/-- `unshield_get_utf8_string` for a pointer into the header's data. -/
def getUtf8String (p : Nat) : Exit Bytes :=
  if header.majorVersion ≥ 17 then do
    let utf16 := units bigEndian (header.data.drop p)
    let length ← strlenUtf16 utf16
    let size ← bufferSizeOf length
    let (_, target) ← Exit.ofAccess
      (utf16ToUtf8 utf16 (length + 1) (some (List.replicate size 0)) size)
    cString (target.getD []) 0
  else
    cString header.data p

/-! ### Names -/

/-- The offset that all strings of the file table are relative to. -/
def fileTableStart : Nat :=
  header.common.cabDescriptorOffset.toNat + header.cab.fileTableOffset.toNat

/-- `unshield_file_name` of the file with the descriptor `fd`. -/
def fileName (fd : FileDescriptor) : Exit Bytes :=
  getUtf8String bigEndian header (fileTableStart header + fd.nameOffset.toNat)

/-- `unshield_directory_name` -/
def directoryName (index : Int) : Exit (Option Bytes) :=
  if 0 ≤ index ∧ index < header.cab.directoryCount.toInt32.toInt then do
    let offset ← Exit.ofAccess header.fileTable[index.toNat]?
    let name ← getUtf8String bigEndian header (fileTableStart header + offset.toNat)
    pure (some name)
  else
    pure none

def slash : UInt8 := 0x2f

/-- `unshield_get_base_directory_name`: the pattern up to its last path separator. -/
def getBaseDirectoryName (pathMax : Nat) (filenamePattern : Bytes) : Exit Bytes := do
  if slash ∈ filenamePattern then
    let dirname := (filenamePattern.reverse.dropWhile (· ≠ slash)).tail.reverse
    Exit.assert (dirname.length < pathMax)
    pure dirname
  else
    pure [0x2e]

/-- What `%s` prints. -/
def printString : Option Bytes → Bytes
  | some text => text
  | none => [0x28, 0x6e, 0x75, 0x6c, 0x6c, 0x29]  -- (null)

end Unshield
