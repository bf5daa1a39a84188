/-
Module: Unshield.Core.Converter
Purpose: The UTF-16 and UTF-8 converters of lib/converter.c, with their buffers, their lengths and
  the NULL-buffer query.
Trusted boundary: human-reviewed model of lib/converter.c
Main exports: decodeUtf16, encodeUtf8, utf16ToUtf8, decodeUtf8, encodeUtf16, utf8ToUtf16
-/
import Unshield.Foundation.Buffer

namespace Unshield

/-!
Memory is explicit.  An input array is the list of the units that can be read, separate from the
length the caller passes; an output array is the list of the units it has room for.  A read or a
store outside either gives `none`, and so would a loop that did not end within its input.
-/

/-- The type of a single Unicode codepoint. -/
abbrev Codepoint := UInt32

/-- The last codepoint of the Basic Multilingual Plane. -/
def bmpEnd : Codepoint := 0xFFFF
/-- The highest valid Unicode codepoint. -/
def unicodeMax : Codepoint := 0x10FFFF
/-- The codepoint that is used to replace invalid encodings. -/
def invalidCodepoint : Codepoint := 0xFFFD

def genericSurrogateValue : UInt16 := 0xD800
def genericSurrogateMask : UInt16 := 0xF800
def highSurrogateValue : UInt16 := 0xD800
def lowSurrogateValue : UInt16 := 0xDC00
def surrogateMask : UInt16 := 0xFC00
def surrogateCodepointOffset : Codepoint := 0x10000
def surrogateCodepointMask : Codepoint := 0x03FF
def surrogateCodepointBits : Codepoint := 10

def utf8Max1 : Codepoint := 0x7F
def utf8Max2 : Codepoint := 0x7FF
def utf8Max3 : Codepoint := 0xFFFF

def utf8ContinuationValue : UInt8 := 0x80
def utf8ContinuationMask : UInt8 := 0xC0
def utf8ContinuationCodepointBits : Codepoint := 6

/-- A UTF-8 bit pattern that can be set or verified. -/
structure Utf8Pattern where
  mask : UInt8
  value : UInt8
deriving DecidableEq, Repr, Inhabited

/-- The leading byte of an encoding with `N` bytes, where `N` is the index + 1. -/
def utf8LeadingBytes : List Utf8Pattern :=
  [{ mask := 0x80, value := 0x00 },  -- 0xxxxxxx
   { mask := 0xE0, value := 0xC0 },  -- 110xxxxx
   { mask := 0xF0, value := 0xE0 },  -- 1110xxxx
   { mask := 0xF8, value := 0xF0 }]  -- 11110xxx

/-- Gets a codepoint from a UTF-16 string, with the index of the last unit that composes it. -/
def decodeUtf16 (utf16 : List UInt16) (len index : Nat) : Option (Codepoint × Nat) := do
  let high ← utf16[index]?
  if high &&& genericSurrogateMask ≠ genericSurrogateValue then
    some (high.toUInt32, index)
  else if high &&& surrogateMask ≠ highSurrogateValue then
    some (invalidCodepoint, index)
  else if index = len - 1 then
    some (invalidCodepoint, index)
  else do
    let low ← utf16[index + 1]?
    if low &&& surrogateMask ≠ lowSurrogateValue then
      some (invalidCodepoint, index)
    else
      some ((((high.toUInt32 &&& surrogateCodepointMask) <<< surrogateCodepointBits) |||
        (low.toUInt32 &&& surrogateCodepointMask)) + surrogateCodepointOffset, index + 1)

/-- The number of UTF-8 bytes it takes to encode a codepoint. -/
def calculateUtf8Len (codepoint : Codepoint) : Nat :=
  if codepoint ≤ utf8Max1 then 1
  else if codepoint ≤ utf8Max2 then 2
  else if codepoint ≤ utf8Max3 then 3
  else 4

/-- The stores of the continuation bytes, in reverse order, from `contIndex` down to 1; what is left
of the codepoint goes into the leading byte. -/
def encodeContinuations (index : Nat) : Nat → Codepoint → List UInt8 →
    Option (Codepoint × List UInt8)
  | 0, codepoint, utf8 => some (codepoint, utf8)
  | contIndex + 1, codepoint, utf8 => do
      let cont := (codepoint &&& ~~~utf8ContinuationMask.toUInt32).toUInt8 ||| utf8ContinuationValue
      let utf8 ← Buffer.store utf8 (index + (contIndex + 1)) cont
      encodeContinuations index contIndex (codepoint >>> utf8ContinuationCodepointBits) utf8

/-- Encodes a codepoint in a UTF-8 string, with the number of bytes written to it. -/
def encodeUtf8 (codepoint : Codepoint) (utf8 : List UInt8) (len index : Nat) :
    Option (Nat × List UInt8) :=
  let size := calculateUtf8Len codepoint
  if index + size > len then
    some (0, utf8)
  else do
    let (codepoint, utf8) ← encodeContinuations index (size - 1) codepoint utf8
    let pattern ← utf8LeadingBytes[size - 1]?
    let lead := (codepoint &&& ~~~pattern.mask.toUInt32).toUInt8 ||| pattern.value
    let utf8 ← Buffer.store utf8 index lead
    some (size, utf8)

/-- The first pattern of the table that the leading byte matches, with the length it announces. -/
def matchLeading (leading : UInt8) : Nat → List Utf8Pattern → Option (Nat × Utf8Pattern)
  | _, [] => none
  | encodingLen, pattern :: rest =>
      if leading &&& pattern.mask = pattern.value then some (encodingLen, pattern)
      else matchLeading leading (encodingLen + 1) rest

/-- The loop over the announced continuation bytes.  The inner `none` is an invalid encoding: the
string ended or a byte was no continuation; the index stays at the last byte that was one. -/
def decodeContinuations (utf8 : List UInt8) (len : Nat) : Nat → Codepoint → Nat →
    Option (Option Codepoint × Nat)
  | 0, codepoint, index => some (some codepoint, index)
  | remaining + 1, codepoint, index =>
      if index + 1 ≥ len then
        some (none, index)
      else do
        let continuation ← utf8[index + 1]?
        if continuation &&& utf8ContinuationMask ≠ utf8ContinuationValue then
          some (none, index)
        else
          decodeContinuations utf8 len remaining
            ((codepoint <<< utf8ContinuationCodepointBits) |||
              (continuation &&& ~~~utf8ContinuationMask).toUInt32) (index + 1)

/-- Gets a codepoint from a UTF-8 string, with the index of the last byte that composes it. -/
def decodeUtf8 (utf8 : List UInt8) (len index : Nat) : Option (Codepoint × Nat) := do
  let leading ← utf8[index]?
  match matchLeading leading 1 utf8LeadingBytes with
  | none => some (invalidCodepoint, index)
  | some (encodingLen, leadingPattern) => do
      let (decoded, index) ← decodeContinuations utf8 len (encodingLen - 1)
        (leading &&& ~~~leadingPattern.mask).toUInt32 index
      match decoded with
      | none => some (invalidCodepoint, index)
      | some codepoint =>
          -- overlong: too many bytes were used to encode a short codepoint
          if calculateUtf8Len codepoint ≠ encodingLen then
            some (invalidCodepoint, index)
          else if codepoint < bmpEnd ∧
              codepoint &&& genericSurrogateMask.toUInt32 = genericSurrogateValue.toUInt32 then
            some (invalidCodepoint, index)
          else if codepoint > unicodeMax then
            some (invalidCodepoint, index)
          else
            some (codepoint, index)

/-- The number of UTF-16 units it takes to encode a codepoint. -/
def calculateUtf16Len (codepoint : Codepoint) : Nat :=
  if codepoint ≤ bmpEnd then 1 else 2

/-- Encodes a codepoint in a UTF-16 string, with the number of units written to it. -/
def encodeUtf16 (codepoint : Codepoint) (utf16 : List UInt16) (len index : Nat) :
    Option (Nat × List UInt16) :=
  if index ≥ len then
    some (0, utf16)
  else if codepoint ≤ bmpEnd then do
    let utf16 ← Buffer.store utf16 index codepoint.toUInt16
    some (1, utf16)
  else if index + 1 ≥ len then
    some (0, utf16)
  else do
    let codepoint := codepoint - surrogateCodepointOffset
    let low := lowSurrogateValue ||| (codepoint &&& surrogateCodepointMask).toUInt16
    let codepoint := codepoint >>> surrogateCodepointBits
    let high := highSurrogateValue ||| (codepoint &&& surrogateCodepointMask).toUInt16
    let utf16 ← Buffer.store utf16 index high
    let utf16 ← Buffer.store utf16 (index + 1) low
    some (2, utf16)

/-- The loop that both converters run.  `decode` moves the input index behind the loop's back;
without an output array only the lengths are added up. -/
def convert {β : Type} (decode : Nat → Option (Codepoint × Nat)) (inputLen : Nat)
    (calculateLen : Codepoint → Nat)
    (encode : Codepoint → List β → Nat → Option (Nat × List β)) :
    Nat → Nat → Nat → Option (List β) → Option (Nat × Option (List β))
  | 0, _, _, _ => none
  | fuel + 1, inputIndex, outputIndex, output =>
      if inputIndex < inputLen then do
        let (codepoint, inputIndex) ← decode inputIndex
        match output with
        | none =>
            convert decode inputLen calculateLen encode fuel (inputIndex + 1)
              (outputIndex + calculateLen codepoint) none
        | some buffer => do
            let (size, buffer) ← encode codepoint buffer outputIndex
            convert decode inputLen calculateLen encode fuel (inputIndex + 1)
              (outputIndex + size) (some buffer)
      else
        some (outputIndex, output)

/-- Converts a UTF-16 string to a UTF-8 string; with a NULL buffer the size it would need. -/
def utf16ToUtf8 (utf16 : List UInt16) (utf16Len : Nat) (utf8 : Option (List UInt8))
    (utf8Len : Nat) : Option (Nat × Option (List UInt8)) :=
  convert (decodeUtf16 utf16 utf16Len) utf16Len calculateUtf8Len
    (fun codepoint buffer => encodeUtf8 codepoint buffer utf8Len) (utf16Len + 1) 0 0 utf8

/-- Converts a UTF-8 string to a UTF-16 string; with a NULL buffer the size it would need. -/
def utf8ToUtf16 (utf8 : List UInt8) (utf8Len : Nat) (utf16 : Option (List UInt16))
    (utf16Len : Nat) : Option (Nat × Option (List UInt16)) :=
  convert (decodeUtf8 utf8 utf8Len) utf8Len calculateUtf16Len
    (fun codepoint buffer => encodeUtf16 codepoint buffer utf16Len) (utf8Len + 1) 0 0 utf16

end Unshield
