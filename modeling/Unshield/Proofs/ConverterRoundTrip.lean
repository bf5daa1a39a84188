/-
Module: Unshield.Proofs.ConverterRoundTrip
Purpose: The two converters against the standard encodings: UTF-16 to UTF-8 is correct on every array
  of units and invertible up to unpaired surrogates; UTF-8 to UTF-16 and back returns exactly the
  well-formed strings.
Trusted boundary: none
Main exports: Utf16ToUtf8Writes, Utf8ToUtf16Writes, utf16ToUtf8_correct, utf8_accepts_exactly_wellFormed
-/
import Unshield.Proofs.Utf8Reading

namespace Unshield

open Unicode

/-!
A converter call is judged by its observable effect: the value of the NULL-buffer query, and for every
buffer at least that large the value returned and the whole buffer afterwards.  The result being
`some` also says that no unit outside the input was read and none outside the buffer stored.
-/

/-- `utf16_to_utf8` on `utf16` reports the length of `utf8` and writes exactly `utf8`. -/
structure Utf16ToUtf8Writes (utf16 : List UInt16) (utf8 : List UInt8) : Prop where
  query : ∀ ignored, utf16ToUtf8 utf16 utf16.length none ignored = some (utf8.length, none)
  writes : ∀ buffer : List UInt8, utf8.length ≤ buffer.length →
    utf16ToUtf8 utf16 utf16.length (some buffer) buffer.length =
      some (utf8.length, some (utf8 ++ buffer.drop utf8.length))

/-- `utf8_to_utf16` on `utf8` reports the length of `utf16` and writes exactly `utf16`. -/
structure Utf8ToUtf16Writes (utf8 : List UInt8) (utf16 : List UInt16) : Prop where
  query : ∀ ignored, utf8ToUtf16 utf8 utf8.length none ignored = some (utf16.length, none)
  writes : ∀ buffer : List UInt16, utf16.length ≤ buffer.length →
    utf8ToUtf16 utf8 utf8.length (some buffer) buffer.length =
      some (utf16.length, some (utf16 ++ buffer.drop utf16.length))

/-- The query reports one length, so a converter call writes one string. -/
theorem text_unique {β : Type} {call : Option (List β) → Nat → Option (Nat × Option (List β))}
    {one two : List β} (firstQuery : ∀ ignored, call none ignored = some (one.length, none))
    (secondQuery : ∀ ignored, call none ignored = some (two.length, none))
    (first : ∀ buffer : List β, one.length ≤ buffer.length →
      call (some buffer) buffer.length = some (one.length, some (one ++ buffer.drop one.length)))
    (second : ∀ buffer : List β, two.length ≤ buffer.length →
      call (some buffer) buffer.length = some (two.length, some (two ++ buffer.drop two.length))) :
    one = two := by
  have lengths := (firstQuery 0).symm.trans (secondQuery 0)
  simp only [Option.some.injEq, Prod.mk.injEq, and_true] at lengths
  have written := (first one le_rfl).symm.trans (second one lengths.symm.le)
  simp only [Option.some.injEq, Prod.mk.injEq, List.drop_length, List.append_nil, ← lengths]
    at written
  exact written.2

theorem Utf16ToUtf8Writes.unique {utf16 : List UInt16} {one two : List UInt8}
    (first : Utf16ToUtf8Writes utf16 one) (second : Utf16ToUtf8Writes utf16 two) : one = two :=
  text_unique first.query second.query first.writes second.writes

theorem Utf8ToUtf16Writes.unique {utf8 : List UInt8} {one two : List UInt16}
    (first : Utf8ToUtf16Writes utf8 one) (second : Utf8ToUtf16Writes utf8 two) : one = two :=
  text_unique first.query second.query first.writes second.writes

theorem utf16ToUtf8_writes_of_decodes {utf16 : List UInt16} {chars : List Char}
    (decodes : Decodes (decodeUtf16 utf16 utf16.length) utf16.length 0 chars) :
    Utf16ToUtf8Writes utf16 (Utf8.encode chars) where
  query ignored := by
    have result := convert_null (fun codepoint block => encodeUtf8 codepoint block ignored)
      calculateUtf8Len_char decodes (utf16.length + 1) 0 (by omega)
    rw [Nat.zero_add] at result
    exact result
  writes buffer room := by
    have result := convert_buffer calculateUtf8Len (encodes_utf8 buffer.length) decodes
      (utf16.length + 1) 0 buffer (by omega) (by rw [Nat.zero_add]; exact room) le_rfl
    rw [Nat.zero_add] at result
    rw [utf16ToUtf8, result]
    simp [Buffer.overwrite, Utf8.encode]

theorem utf8ToUtf16_writes_of_decodes {utf8 : List UInt8} {chars : List Char}
    (decodes : Decodes (decodeUtf8 utf8 utf8.length) utf8.length 0 chars) :
    Utf8ToUtf16Writes utf8 (Utf16.encode chars) where
  query ignored := by
    have result := convert_null (fun codepoint block => encodeUtf16 codepoint block ignored)
      calculateUtf16Len_char decodes (utf8.length + 1) 0 (by omega)
    rw [Nat.zero_add] at result
    exact result
  writes buffer room := by
    have result := convert_buffer calculateUtf16Len (encodes_utf16 buffer.length) decodes
      (utf8.length + 1) 0 buffer (by omega) (by rw [Nat.zero_add]; exact room) le_rfl
    rw [Nat.zero_add] at result
    rw [utf8ToUtf16, result]
    simp [Buffer.overwrite, Utf16.encode]

/-- On arbitrary units the UTF-16 converter writes the encoding of their lossy reading. -/
theorem utf16ToUtf8_writes_decodeLossy (utf16 : List UInt16) :
    Utf16ToUtf8Writes utf16 (Utf8.encode (Utf16.decodeLossy utf16)) := by
  have decodes := @decodes_utf16 utf16 _ le_rfl 0
  rw [List.take_length, List.drop_zero] at decodes
  exact utf16ToUtf8_writes_of_decodes decodes

/-- On arbitrary bytes the UTF-8 converter writes the encoding of their lossy reading. -/
theorem utf8ToUtf16_writes_decodeLossy (utf8 : List UInt8) :
    Utf8ToUtf16Writes utf8 (Utf16.encode (Utf8.decodeLossy utf8)) := by
  have decodes := @decodes_utf8 utf8 _ le_rfl 0
  rw [List.take_length, List.drop_zero] at decodes
  exact utf8ToUtf16_writes_of_decodes decodes

/-- The lossy reading of a well-formed string is what it encodes. -/
theorem decodeLossy_utf8_encode (chars : List Char) : Utf8.decodeLossy (Utf8.encode chars) = chars := by
  have decodes := @decodes_utf8 (Utf8.encode chars) _ le_rfl 0
  rw [List.take_length, List.drop_zero] at decodes
  exact decodes.deterministic (decodes_utf8_encode chars (Nat.zero_le _) List.drop_zero)

theorem encode_injective : Function.Injective Utf8.encode :=
  Function.LeftInverse.injective decodeLossy_utf8_encode

/-- On a well-formed string the UTF-8 converter writes the standard UTF-16 encoding. -/
theorem utf8ToUtf16_writes_encode (chars : List Char) :
    Utf8ToUtf16Writes (Utf8.encode chars) (Utf16.encode chars) := by
  have written := utf8ToUtf16_writes_decodeLossy (Utf8.encode chars)
  rw [decodeLossy_utf8_encode] at written
  exact written

/-- For every array of units the UTF-8 written is the well-formed encoding of the code points obtained
by pairing surrogates and replacing the unpaired ones, and reading it back yields the units with each
unpaired surrogate replaced by FFFD, hence the units themselves when they are well-formed. -/
theorem utf16ToUtf8_correct (utf16 : List UInt16) :
    Utf16ToUtf8Writes utf16 (Utf8.encode (Utf16.decodeLossy utf16)) ∧
    Utf8.WellFormed (Utf8.encode (Utf16.decodeLossy utf16)) ∧
    Utf8ToUtf16Writes (Utf8.encode (Utf16.decodeLossy utf16)) (Utf16.replaceUnpaired utf16) ∧
    (Utf16.WellFormed utf16 →
      Utf8ToUtf16Writes (Utf8.encode (Utf16.decodeLossy utf16)) utf16) := by
  have back := utf8ToUtf16_writes_encode (Utf16.decodeLossy utf16)
  rw [Utf16.encode_decodeLossy] at back
  refine ⟨utf16ToUtf8_writes_decodeLossy utf16, Utf8.wellFormed_encode _, back, ?_⟩
  intro wellFormed
  rw [Utf16.replaceUnpaired_of_wellFormed wellFormed] at back
  exact back

/-- A lone low surrogate, a paired one and a high surrogate at the end. -/
example : Utf16.replaceUnpaired [0xDC00, 0xD83D, 0xDE00, 0xD800] =
    [0xFFFD, 0xD83D, 0xDE00, 0xFFFD] := by decide

/-- For every byte string the UTF-16 written is well-formed; converting it back returns the string
exactly when the string is well-formed UTF-8, and then the intermediate result is the standard UTF-16
encoding of the same scalar values. -/
theorem utf8_accepts_exactly_wellFormed (utf8 : List UInt8) :
    ∃ utf16 back, Utf8ToUtf16Writes utf8 utf16 ∧ Utf16ToUtf8Writes utf16 back ∧
      (back = utf8 ↔ Utf8.WellFormed utf8) ∧
      (∀ chars, utf8 = Utf8.encode chars → utf16 = Utf16.encode chars) ∧
      Utf16.WellFormed utf16 := by
  have forth := utf8ToUtf16_writes_decodeLossy utf8
  have back := utf16ToUtf8_writes_decodeLossy (Utf16.encode (Utf8.decodeLossy utf8))
  rw [Utf16.decodeLossy_encode] at back
  have standard : ∀ chars', utf8 = Utf8.encode chars' → Utf8.decodeLossy utf8 = chars' := by
    rintro chars' rfl
    exact decodeLossy_utf8_encode chars'
  refine ⟨_, _, forth, back, ?_, ?_, ⟨_, rfl⟩⟩
  · rw [Utf8.wellFormed_iff_encoded]
    constructor
    · intro same
      exact ⟨_, same.symm⟩
    · rintro ⟨chars', encoded⟩
      rw [standard chars' encoded, encoded]
  · intro chars' encoded
    rw [standard chars' encoded]

end Unshield
