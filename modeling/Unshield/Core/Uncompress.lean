/-
Module: Unshield.Core.Uncompress
Purpose: The two wrappers around zlib's inflate, the search for a byte pattern in memory and the
  segmentation of old-format data at its end-of-chunk markers.
Trusted boundary: human-reviewed model of unshield_uncompress, unshield_uncompress_old, find_bytes and
  the chunk loop of unshield_file_save_old in lib/file.c
Main exports: uncompress, uncompressOld, findBytes, chunkSize
-/
import Unshield.Core.Environment

namespace Unshield

open Procedure

def bufferSize : Nat := 64 * 1024

def endOfChunk : Bytes := [0x00, 0x00, 0xff, 0xff]

/-! ### Inflating -/

/-- What the wrappers give back: the error code, `*destLen` and the bytes put into `dest`. -/
structure Uncompressed where
  code : Int
  destLen : Nat
  output : Bytes
deriving Repr, DecidableEq

variable (zlib : Zlib)

/-- One call of `inflate`.  Reading past the input or writing past the output is an access outside
the buffers. -/
def inflateInto (state : zlib.State) (flush : Flush) (input : Bytes) (availOut : Nat) :
    Exit (Inflated zlib.State) :=
  let inflated := zlib.inflate state flush input availOut
  if inflated.consumed ≤ input.length ∧ inflated.output.length ≤ availOut then .ret inflated
  else .fault

/-- `unshield_uncompress`: a whole deflate stream in one call.  `*destLen` keeps its value unless the
stream has ended. -/
def uncompress (destLen : Nat) (source : Bytes) : Exit Uncompressed :=
  let (err, state) := zlib.inflateInit2
  if err ≠ zOk then
    .ret { code := err, destLen, output := [] }
  else do
    let inflated ← inflateInto zlib state .finish (source.take (source.length % 2 ^ 32))
      (destLen % 2 ^ 32)
    if inflated.code ≠ zStreamEnd then
      .ret { code := inflated.code, destLen, output := inflated.output }
    else
      .ret
        { code := zlib.inflateEnd inflated.state
          destLen := inflated.output.length
          output := inflated.output }

/-- The loop of `unshield_uncompress_old`: block after block while more than one byte of the input is
left. -/
def uncompressOldLoop :
    Nat → zlib.State → Bytes → Nat → Bytes → Exit Uncompressed
  | 0, _, _, _, _ => .timeout
  | fuel + 1, state, input, availOut, output =>
      if 1 < input.length then do
        let inflated ← inflateInto zlib state .block input availOut
        if inflated.code ≠ zOk then
          .ret { code := inflated.code, destLen := 0, output := output ++ inflated.output }
        else
          uncompressOldLoop fuel inflated.state (input.drop inflated.consumed)
            (availOut - inflated.output.length) (output ++ inflated.output)
      else
        .ret { code := zlib.inflateEnd state, destLen := output.length, output }

/-- `unshield_uncompress_old` -/
def uncompressOld (fuel destLen : Nat) (source : Bytes) : Exit Uncompressed :=
  let (err, state) := zlib.inflateInit2
  if err ≠ zOk then
    .ret { code := err, destLen := 0, output := [] }
  else
    uncompressOldLoop zlib fuel state (source.take (source.length % 2 ^ 32)) (destLen % 2 ^ 32) []

/-! ### Searching memory -/

/-- `memchr`: the bytes are looked at one after the other, up to the first that matches. -/
def memchr (buffer : Block) (byte : UInt8) : Nat → Nat → Exit (Option Nat)
  | _, 0 => .ret none
  | p, n + 1 => do
      let loaded ← Exit.ofAccess (buffer.load p 1)
      if loaded = [byte] then .ret (some p) else memchr buffer byte (p + 1) n

/-- `find_bytes`.  `bufferLeft` goes down by one for every candidate, however far `memchr` has moved
on, so the search can look past `bufferSize` bytes. -/
def findBytes (buffer : Block) (pattern : Bytes) : Nat → Nat → Exit (Option Nat)
  | _, 0 => .ret none
  | p, bufferLeft + 1 => do
      match ← memchr buffer (pattern.headD 0) p (bufferLeft + 1) with
      | none => .ret none
      | some p =>
          if bufferLeft + 1 < pattern.length then
            .ret none
          else do
            let candidate ← Exit.ofAccess (buffer.load p pattern.length)
            if candidate = pattern then .ret (some p)
            else findBytes buffer pattern (p + 1) bufferLeft

/-! ### Chunks of old-format data -/

/-- The loop that steps over end-of-chunk markers inside a chunk: the first bit of a compressed block
is always zero, so a one behind a marker tells that the chunk goes on. -/
def skipMarkers (buffer : Block) (chunkBuffer inputSize : Nat) : Nat → Nat → Exit (Option Nat)
  | 0, _ => .timeout
  | fuel + 1, chunkSize =>
      if chunkSize + endOfChunk.length < inputSize then do
        let next ← Exit.ofAccess (buffer.load (chunkBuffer + chunkSize + endOfChunk.length) 1)
        if next.headD 0 &&& 1 ≠ 0 then do
          let chunkSize := chunkSize + endOfChunk.length
          match ← findBytes buffer endOfChunk (chunkBuffer + chunkSize) (inputSize - chunkSize) with
          | none => .ret none
          | some p => skipMarkers buffer chunkBuffer inputSize fuel (p - chunkBuffer)
        else
          .ret (some chunkSize)
      else
        .ret (some chunkSize)

/-- The size of the chunk at `chunkBuffer`; `none` if its end is not found.  A marker that is stepped
over lies inside the buffer, so there are fewer of them than the buffer has bytes. -/
def chunkSize (buffer : Block) (chunkBuffer inputSize : Nat) : Exit (Option Nat) := do
  match ← findBytes buffer endOfChunk chunkBuffer inputSize with
  | none => .ret none
  | some p => skipMarkers buffer chunkBuffer inputSize (buffer.size + 1) (p - chunkBuffer)

end Unshield
