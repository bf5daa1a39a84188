/-
Module: Unshield.Proofs.ConverterSteps
Purpose: What one step of each converter does: every decoder step yields a scalar value, every encoder
  step stores that value's standard encoding, and the converter loop composes the steps.
Trusted boundary: none
Main exports: Decodes, Encodes, convert_null, convert_packed, convert_buffer, decodes_utf16,
  encodes_utf8, decodeUtf8_char, encodes_utf16
-/
import Unshield.Foundation.Bits
import Unshield.Foundation.Packing
import Unshield.Foundation.Unicode
import Unshield.Core.Converter

namespace Unshield

open Unicode

/-! ### The loop -/

/-- From input index `index` on, the decoder yields the scalar values `chars` and then the input is
used up. -/
inductive Decodes (decode : Nat → Option (Codepoint × Nat)) (inputLen : Nat) :
    Nat → List Char → Prop where
  | done {index : Nat} : inputLen ≤ index → Decodes decode inputLen index []
  | step {index last : Nat} {c : Char} {chars : List Char} :
      index < inputLen → decode index = some (c.val, last) → index ≤ last →
      Decodes decode inputLen (last + 1) chars → Decodes decode inputLen index (c :: chars)

/-- The decoder steps determine the scalar values. -/
theorem Decodes.deterministic {decode : Nat → Option (Codepoint × Nat)} {inputLen index : Nat}
    {one two : List Char} (first : Decodes decode inputLen index one)
    (second : Decodes decode inputLen index two) : one = two := by
  induction first generalizing two with
  | done past =>
      cases second with
      | done _ => rfl
      | step within _ _ _ => omega
  | step within decoded _ _ ih =>
      cases second with
      | done past => omega
      | step _ decoded' _ rest =>
          rw [decoded] at decoded'
          simp only [Option.some.injEq, Prod.mk.injEq, Char.val_inj] at decoded'
          obtain ⟨rfl, rfl⟩ := decoded'
          rw [ih rest]

variable {β : Type} {decode : Nat → Option (Codepoint × Nat)} {inputLen : Nat}
  {calculateLen : Codepoint → Nat} {standard : Char → List β}

/-- The NULL-buffer query adds up the lengths of the standard encodings. -/
theorem convert_null (encode : Codepoint → List β → Nat → Option (Nat × List β))
    (lengths : ∀ c : Char, calculateLen c.val = (standard c).length)
    {index : Nat} {chars : List Char} (decodes : Decodes decode inputLen index chars) :
    ∀ (fuel outputIndex : Nat), inputLen - index < fuel →
      convert decode inputLen calculateLen encode fuel index outputIndex none =
        some (outputIndex + (chars.flatMap standard).length, none) := by
  induction decodes with
  | done past =>
      intro fuel outputIndex enough
      obtain ⟨fuel, rfl⟩ := Nat.exists_eq_succ_of_ne_zero (by omega : fuel ≠ 0)
      rw [convert, if_neg (by omega)]
      rfl
  | @step index last c chars within decoded advance rest ih =>
      intro fuel outputIndex enough
      obtain ⟨fuel, rfl⟩ := Nat.exists_eq_succ_of_ne_zero (by omega : fuel ≠ 0)
      rw [convert, if_pos within, decoded]
      simp only [Option.bind_eq_bind, Option.bind_some]
      rw [ih _ _ (by omega), lengths, List.flatMap_cons, List.length_append, Nat.add_assoc]

/-- An encoder for an output of `outputLen` units stores the standard encoding where that fits, and
stores nothing elsewhere. -/
structure Encodes (standard : Char → List β) (outputLen : Nat)
    (encode : Codepoint → List β → Nat → Option (Nat × List β)) : Prop where
  stores : ∀ (c : Char) (buffer : List β) (index : Nat),
    index + (standard c).length ≤ outputLen → outputLen ≤ buffer.length →
    encode c.val buffer index =
      some ((standard c).length, Buffer.overwrite buffer index (standard c))
  skips : ∀ (c : Char) (buffer : List β) (index : Nat),
    outputLen < index + (standard c).length → encode c.val buffer index = some (0, buffer)

/-- The room an encoding takes up. -/
def encodedLength (standard : Char → List β) (c : Char) : Nat := (standard c).length

theorem length_flatMap_eq_total (chars : List Char) :
    (chars.flatMap standard).length = Packing.total (encodedLength standard) chars := by
  induction chars with
  | nil => rfl
  | cons c chars ih =>
      rw [List.flatMap_cons, List.length_append, Packing.total_cons, ih]
      rfl

/-- The loop packs the standard encodings into what is left of the output, and touches nothing else. -/
theorem convert_packed (calculateLen : Codepoint → Nat)
    {encode : Codepoint → List β → Nat → Option (Nat × List β)} {outputLen : Nat}
    (encodes : Encodes standard outputLen encode)
    {index : Nat} {chars : List Char} (decodes : Decodes decode inputLen index chars) :
    ∀ (fuel outputIndex : Nat) (buffer : List β), inputLen - index < fuel →
      outputIndex ≤ outputLen → outputLen ≤ buffer.length →
      let packed := (Packing.pack (encodedLength standard) (outputLen - outputIndex) chars).flatMap standard
      convert decode inputLen calculateLen encode fuel index outputIndex (some buffer) =
        some (outputIndex + packed.length, some (Buffer.overwrite buffer outputIndex packed)) := by
  induction decodes with
  | done past =>
      intro fuel outputIndex buffer enough within room
      obtain ⟨fuel, rfl⟩ := Nat.exists_eq_succ_of_ne_zero (by omega : fuel ≠ 0)
      rw [convert, if_neg (by omega)]
      simp [Packing.pack]
  | @step index last c chars within decoded advance rest ih =>
      intro fuel outputIndex buffer enough inside room
      obtain ⟨fuel, rfl⟩ := Nat.exists_eq_succ_of_ne_zero (by omega : fuel ≠ 0)
      rw [convert, if_pos within, decoded]
      simp only [Option.bind_eq_bind, Option.bind_some]
      by_cases fits : (standard c).length ≤ outputLen - outputIndex
      · have size := Buffer.length_overwrite buffer outputIndex (standard c) (by omega)
        rw [encodes.stores c buffer outputIndex (by omega) room, Packing.pack,
          if_pos (show encodedLength standard c ≤ _ from fits)]
        simp only [Option.bind_some]
        rw [ih _ _ _ (by omega) (by omega) (by omega), Buffer.overwrite_append (by omega),
          List.flatMap_cons, List.length_append, Nat.add_assoc, encodedLength, Nat.sub_sub]
      · rw [encodes.skips c buffer outputIndex (by omega), Packing.pack,
          if_neg (show ¬ encodedLength standard c ≤ _ from fits)]
        simp only [Option.bind_some]
        exact ih _ _ _ (by omega) inside room

/-- With room for the rest of the output, the loop stores the standard encodings one after the
other. -/
theorem convert_buffer (calculateLen : Codepoint → Nat)
    {encode : Codepoint → List β → Nat → Option (Nat × List β)} {outputLen : Nat}
    (encodes : Encodes standard outputLen encode)
    {index : Nat} {chars : List Char} (decodes : Decodes decode inputLen index chars)
    (fuel outputIndex : Nat) (buffer : List β) (enough : inputLen - index < fuel)
    (fits : outputIndex + (chars.flatMap standard).length ≤ outputLen)
    (room : outputLen ≤ buffer.length) :
    convert decode inputLen calculateLen encode fuel index outputIndex (some buffer) =
      some (outputIndex + (chars.flatMap standard).length,
        some (Buffer.overwrite buffer outputIndex (chars.flatMap standard))) := by
  have packed := convert_packed calculateLen encodes decodes fuel outputIndex buffer enough (by omega) room
  have small : Packing.total (encodedLength standard) chars ≤ outputLen - outputIndex := by
    rw [← length_flatMap_eq_total]
    omega
  rw [Packing.pack_of_fits _ small] at packed
  exact packed

/-! ### Decoding UTF-16 -/

theorem generic_surrogate_iff (u : UInt16) :
    u &&& genericSurrogateMask = genericSurrogateValue ↔ Utf16.IsHigh u ∨ Utf16.IsLow u := by
  rw [Bits.uint16_and_mask_eq_iff 11 0x1B (by decide) (by decide) (by decide)]
  simp only [Utf16.IsHigh, Utf16.IsLow]
  omega

theorem high_surrogate_iff (u : UInt16) :
    u &&& surrogateMask = highSurrogateValue ↔ Utf16.IsHigh u := by
  rw [Bits.uint16_and_mask_eq_iff 10 0x36 (by decide) (by decide) (by decide)]
  simp only [Utf16.IsHigh]
  omega

theorem low_surrogate_iff (u : UInt16) :
    u &&& surrogateMask = lowSurrogateValue ↔ Utf16.IsLow u := by
  rw [Bits.uint16_and_mask_eq_iff 10 0x37 (by decide) (by decide) (by decide)]
  simp only [Utf16.IsLow]
  omega

/-- The arithmetic of a surrogate pair yields the pair's scalar value. -/
theorem pair_codepoint {high low : UInt16} (isHigh : Utf16.IsHigh high) (isLow : Utf16.IsLow low) :
    (((high.toUInt32 &&& surrogateCodepointMask) <<< surrogateCodepointBits) |||
      (low.toUInt32 &&& surrogateCodepointMask)) + surrogateCodepointOffset =
        (Utf16.pairChar high low).val := by
  have masked (u : UInt16) : (u.toUInt32 &&& surrogateCodepointMask).toNat = u.toNat % 0x400 := by
    rw [UInt32.toNat_and, UInt16.toNat_toUInt32]
    exact Nat.and_two_pow_sub_one_eq_mod u.toNat 10
  have value : (Utf16.pairChar high low).val.toNat = _ := Utf16.pairChar_toNat isHigh isLow
  obtain ⟨lowHigh, highHigh⟩ := isHigh
  obtain ⟨lowLow, highLow⟩ := isLow
  apply UInt32.toNat_inj.1
  rw [value, UInt32.toNat_add]
  have shifted := Bits.uint32_shiftLeft_or (high.toUInt32 &&& surrogateCodepointMask)
    (low.toUInt32 &&& surrogateCodepointMask) 10 (by decide)
    (by rw [masked]; omega) (by rw [masked]; omega)
  rw [masked, masked] at shifted
  rw [show surrogateCodepointBits = UInt32.ofNat 10 from rfl, shifted,
    show surrogateCodepointOffset.toNat = 0x10000 from rfl]
  omega

theorem unit_codepoint {u : UInt16} (notSurrogate : ¬ (Utf16.IsHigh u ∨ Utf16.IsLow u)) :
    u.toUInt32 = (Utf16.unitChar u).val := by
  apply UInt32.toNat_inj.1
  rw [UInt16.toNat_toUInt32]
  exact (Utf16.unitChar_toNat notSurrogate).symm

theorem invalid_codepoint_eq {u : UInt16} (surrogate : Utf16.IsHigh u ∨ Utf16.IsLow u) :
    invalidCodepoint = (Utf16.unitChar u).val := by
  rw [Utf16.unitChar, if_pos surrogate]
  rfl

/-- One decoder step: the scalar value at the head of the lossy reading of what is left. -/
theorem decodeUtf16_step {utf16 : List UInt16} {len index : Nat} (room : len ≤ utf16.length)
    (within : index < len) :
    ∃ c last, decodeUtf16 utf16 len index = some (c.val, last) ∧ index ≤ last ∧ last < len ∧
      Utf16.decodeLossy ((utf16.take len).drop index) =
        c :: Utf16.decodeLossy ((utf16.take len).drop (last + 1)) := by
  have tailAt {i : Nat} (lt : i < len) :
      (utf16.take len).drop i = utf16[i] :: (utf16.take len).drop (i + 1) := by
    rw [List.drop_eq_getElem_cons (by rw [List.length_take]; omega), List.getElem_take]
  have read {i : Nat} (lt : i < len) : utf16[i]? = some utf16[i] :=
    List.getElem?_eq_getElem (by omega)
  rw [tailAt within, decodeUtf16, read within]
  simp only [Option.bind_eq_bind, Option.bind_some, ne_eq, generic_surrogate_iff, high_surrogate_iff,
    low_surrogate_iff]
  by_cases surrogate : Utf16.IsHigh utf16[index] ∨ Utf16.IsLow utf16[index]
  · rw [if_neg (not_not.2 surrogate)]
    by_cases isHigh : Utf16.IsHigh utf16[index]
    · rw [if_neg (not_not.2 isHigh)]
      by_cases atEnd : index = len - 1
      · -- the string ended with an unmatched high surrogate
        rw [if_pos atEnd, invalid_codepoint_eq surrogate]
        refine ⟨_, index, rfl, le_rfl, within, ?_⟩
        rw [List.drop_of_length_le (by rw [List.length_take]; omega)]
        rfl
      · have next : index + 1 < len := by omega
        rw [if_neg atEnd, read next, tailAt next]
        simp only [Option.bind_some]
        by_cases isLow : Utf16.IsLow utf16[index + 1]
        · rw [if_neg (not_not.2 isLow), pair_codepoint isHigh isLow]
          refine ⟨_, index + 1, rfl, by omega, next, ?_⟩
          rw [Utf16.decodeLossy, if_pos ⟨isHigh, isLow⟩]
        · rw [if_pos isLow, invalid_codepoint_eq surrogate]
          refine ⟨_, index, rfl, le_rfl, within, ?_⟩
          rw [Utf16.decodeLossy, if_neg (fun paired => isLow paired.2), tailAt next]
    · rw [if_pos isHigh, invalid_codepoint_eq surrogate]
      exact ⟨_, index, rfl, le_rfl, within, Utf16.decodeLossy_cons_of_not_high isHigh _⟩
  · rw [if_pos surrogate, unit_codepoint surrogate]
    exact ⟨_, index, rfl, le_rfl, within,
      Utf16.decodeLossy_cons_of_not_high (fun isHigh => surrogate (.inl isHigh)) _⟩

/-- The UTF-16 decoder reads the lossy reading of the units it is given the length of. -/
theorem decodes_utf16 {utf16 : List UInt16} {len : Nat} (room : len ≤ utf16.length) (index : Nat) :
    Decodes (decodeUtf16 utf16 len) len index
      (Utf16.decodeLossy ((utf16.take len).drop index)) := by
  induction remaining : len - index using Nat.strong_induction_on generalizing index with
  | _ remaining ih =>
      by_cases within : index < len
      · obtain ⟨c, last, decoded, advance, _, reading⟩ := decodeUtf16_step room within
        rw [reading]
        exact .step within decoded advance (ih (len - (last + 1)) (by omega) (last + 1) rfl)
      · rw [List.drop_of_length_le (by rw [List.length_take]; omega)]
        exact .done (by omega)

/-! ### Encoding UTF-8 -/

/-- The sizing function agrees with the standard encoding on every scalar value. -/
theorem calculateUtf8Len_char (c : Char) :
    calculateUtf8Len c.val = (String.utf8EncodeChar c).length := by
  rw [String.length_utf8EncodeChar]
  rfl

theorem store_eq_overwrite {block : List β} {index : Nat} {value : β} (lt : index < block.length) :
    Buffer.store block index value = some (Buffer.overwrite block index [value]) := by
  simpa using Buffer.store_overwrite block index value [] (by simpa using Nat.succ_le_of_lt lt)

/-- Masking a codepoint and setting the marker bits of a byte, read as arithmetic: `table` is the
256-entry check for the pattern. -/
theorem marked_byte {mask value : UInt8} (bits : Nat) (le : bits ≤ 8)
    (table : ∀ v : BitVec 8, UInt8.ofBitVec v &&& ~~~mask ||| value =
      UInt8.ofNat ((UInt8.ofBitVec v).toNat % 2 ^ bits + value.toNat)) (codepoint : Codepoint) :
    (codepoint &&& ~~~mask.toUInt32).toUInt8 ||| value =
      UInt8.ofNat (codepoint.toNat % 2 ^ bits + value.toNat) := by
  have masked : (codepoint &&& ~~~mask.toUInt32).toUInt8 = codepoint.toUInt8 &&& ~~~mask := by simp
  have digits : codepoint.toNat % 2 ^ bits = codepoint.toUInt8.toNat % 2 ^ bits := by
    rw [UInt32.toNat_toUInt8]
    exact (Nat.mod_mod_of_dvd codepoint.toNat (pow_dvd_pow 2 le)).symm
  rw [masked, digits]
  exact Bits.forall_uint8 (P := fun b => b &&& ~~~mask ||| value =
    UInt8.ofNat (b.toNat % 2 ^ bits + value.toNat)) table _

theorem continuation_byte (codepoint : Codepoint) :
    (codepoint &&& ~~~utf8ContinuationMask.toUInt32).toUInt8 ||| utf8ContinuationValue =
      UInt8.ofNat (codepoint.toNat % 0x40 + 0x80) :=
  marked_byte 6 (by decide) (by decide) codepoint

theorem continuation_shift (codepoint : Codepoint) :
    (codepoint >>> utf8ContinuationCodepointBits).toNat = codepoint.toNat / 64 := by
  rw [UInt32.toNat_shiftRight]
  exact Nat.shiftRight_eq_div_pow codepoint.toNat 6

/-- The last `count` bytes of the encoding of the number `n`. -/
def continuationBytes : Nat → Nat → List UInt8
  | 0, _ => []
  | count + 1, n => continuationBytes count (n / 64) ++ [UInt8.ofNat (n % 0x40 + 0x80)]

theorem length_continuationBytes (count n : Nat) : (continuationBytes count n).length = count := by
  induction count generalizing n with
  | zero => rfl
  | succ count ih => simp [continuationBytes, ih]

/-- The backward stores put the continuation bytes in front of what already stands behind them. -/
theorem encodeContinuations_bytes (utf8 : List UInt8) (index count : Nat) :
    ∀ (codepoint : Codepoint) (suffix : List UInt8),
      index + 1 + count + suffix.length ≤ utf8.length →
      ∃ rest, encodeContinuations index count codepoint
          (Buffer.overwrite utf8 (index + 1 + count) suffix) =
            some (rest, Buffer.overwrite utf8 (index + 1)
              (continuationBytes count codepoint.toNat ++ suffix)) ∧
        rest.toNat = codepoint.toNat / 64 ^ count := by
  induction count with
  | zero =>
      intro codepoint suffix fits
      exact ⟨codepoint, rfl, by simp⟩
  | succ count ih =>
      intro codepoint suffix fits
      have stored := Buffer.store_overwrite utf8 (index + (count + 1))
        (UInt8.ofNat (codepoint.toNat % 0x40 + 0x80)) suffix (by omega)
      obtain ⟨rest, tail, quotient⟩ := ih (codepoint >>> utf8ContinuationCodepointBits)
        (UInt8.ofNat (codepoint.toNat % 0x40 + 0x80) :: suffix) (by simp only [List.length_cons]; omega)
      rw [continuation_shift] at tail quotient
      refine ⟨rest, ?_, ?_⟩
      · rw [encodeContinuations, continuation_byte,
          show index + 1 + (count + 1) = index + (count + 1) + 1 by omega, stored]
        simp only [Option.bind_eq_bind, Option.bind_some]
        rw [show index + (count + 1) = index + 1 + count by omega, tail, continuationBytes,
          List.append_assoc]
        rfl
      · rw [quotient, Nat.div_div_eq_div_mul, pow_succ, Nat.mul_comm]

/-- The first continuation byte carries the most significant of the remaining digits. -/
theorem continuationBytes_succ (count n : Nat) :
    continuationBytes (count + 1) n =
      UInt8.ofNat (n / 64 ^ count % 0x40 + 0x80) :: continuationBytes count n := by
  induction count generalizing n with
  | zero => simp [continuationBytes]
  | succ count ih =>
      rw [continuationBytes, ih, Nat.div_div_eq_div_mul, ← Nat.pow_succ', continuationBytes]
      rfl

/-- One row of the leading-byte table: the pattern for `count` continuation bytes leaves `bits` free
bits, which the encoder fills and the decoder reads back. -/
structure LeadingRow (count : Nat) (pattern : Utf8Pattern) (bits : Nat) : Prop where
  entry : utf8LeadingBytes[count]? = some pattern
  few : count ≤ 3
  le : bits ≤ 8
  marks : ∀ v : BitVec 8, UInt8.ofBitVec v &&& ~~~pattern.mask ||| pattern.value =
    UInt8.ofNat ((UInt8.ofBitVec v).toNat % 2 ^ bits + pattern.value.toNat)
  matched : ∀ digit < 2 ^ bits,
    matchLeading (UInt8.ofNat (digit + pattern.value.toNat)) 1 utf8LeadingBytes =
      some (count + 1, pattern)
  unmarked : ∀ digit < 2 ^ bits,
    (UInt8.ofNat (digit + pattern.value.toNat) &&& ~~~pattern.mask).toNat = digit

theorem leadingRow_one : LeadingRow 0 ⟨0x80, 0x00⟩ 7 :=
  ⟨rfl, by decide, by decide, by decide, by decide, by decide⟩

theorem leadingRow_two : LeadingRow 1 ⟨0xE0, 0xC0⟩ 5 :=
  ⟨rfl, by decide, by decide, by decide, by decide, by decide⟩

theorem leadingRow_three : LeadingRow 2 ⟨0xF0, 0xE0⟩ 4 :=
  ⟨rfl, by decide, by decide, by decide, by decide, by decide⟩

theorem leadingRow_four : LeadingRow 3 ⟨0xF8, 0xF0⟩ 3 :=
  ⟨rfl, by decide, by decide, by decide, by decide, by decide⟩

/-- The standard encoding of every scalar value has the shape of one row of the table. -/
theorem utf8EncodeChar_row (c : Char) :
    ∃ count pattern bits, LeadingRow count pattern bits ∧
      c.val.toNat / 64 ^ count < 2 ^ bits ∧
      String.utf8EncodeChar c =
        UInt8.ofNat (c.val.toNat / 64 ^ count + pattern.value.toNat) ::
          continuationBytes count c.val.toNat := by
  have bound : c.val.toNat < 0x110000 := by
    have range := c.valid
    simp only [UInt32.isValidChar, Nat.isValidChar] at range
    omega
  unfold String.utf8EncodeChar
  generalize c.val.toNat = n at bound
  simp only []
  split_ifs with one two three
  · exact ⟨0, _, _, leadingRow_one, by omega, by simp [continuationBytes]⟩
  · refine ⟨1, _, _, leadingRow_two, by omega, ?_⟩
    simp [continuationBytes, Nat.mod_eq_of_lt (by omega : n / 64 < 32)]
  · refine ⟨2, _, _, leadingRow_three, by omega, ?_⟩
    simp [continuationBytes, Nat.mod_eq_of_lt (by omega : n / 4096 < 16)]
  · refine ⟨3, _, _, leadingRow_four, by omega, ?_⟩
    simp [continuationBytes, Nat.div_div_eq_div_mul,
      Nat.mod_eq_of_lt (by omega : n / 262144 < 8)]

/-- With room for it, the encoder stores the standard encoding of a scalar value. -/
theorem encodeUtf8_char (c : Char) (utf8 : List UInt8) {len index : Nat}
    (fits : index + (String.utf8EncodeChar c).length ≤ len) (room : len ≤ utf8.length) :
    encodeUtf8 c.val utf8 len index =
      some ((String.utf8EncodeChar c).length,
        Buffer.overwrite utf8 index (String.utf8EncodeChar c)) := by
  have size := calculateUtf8Len_char c
  obtain ⟨count, pattern, bits, row, digit, shape⟩ := utf8EncodeChar_row c
  rw [shape] at fits size ⊢
  rw [List.length_cons, length_continuationBytes] at fits size ⊢
  obtain ⟨rest, stores, quotient⟩ := encodeContinuations_bytes utf8 index count c.val []
    (by simp only [List.length_nil]; omega)
  rw [Buffer.overwrite_nil, List.append_nil] at stores
  have stored := Buffer.store_overwrite utf8 index
    (UInt8.ofNat (c.val.toNat / 64 ^ count + pattern.value.toNat))
    (continuationBytes count c.val.toNat) (by rw [length_continuationBytes]; omega)
  rw [encodeUtf8, size]
  simp only [Nat.add_one_sub_one]
  rw [if_neg (by omega), stores, row.entry]
  simp only [Option.bind_eq_bind, Option.bind_some]
  rw [marked_byte _ row.le row.marks, quotient, Nat.mod_eq_of_lt digit, stored]
  rfl

theorem encodes_utf8 (len : Nat) :
    Encodes String.utf8EncodeChar len (fun codepoint utf8 => encodeUtf8 codepoint utf8 len) where
  stores c utf8 index fits room := encodeUtf8_char c utf8 fits room
  skips c utf8 index beyond := by
    rw [encodeUtf8, calculateUtf8Len_char]
    exact if_pos beyond

/-! ### Decoding UTF-8 -/

/-- A codepoint that passes the decoder's range checks is a scalar value. -/
theorem isValidChar_of_checks {codepoint : Codepoint}
    (notSurrogate : ¬ (codepoint < bmpEnd ∧
      codepoint &&& genericSurrogateMask.toUInt32 = genericSurrogateValue.toUInt32))
    (inRange : ¬ codepoint > unicodeMax) : codepoint.isValidChar := by
  have masked : codepoint &&& genericSurrogateMask.toUInt32 = genericSurrogateValue.toUInt32 ↔
      codepoint.toNat / 2 ^ 11 % 2 ^ 5 * 2 ^ 11 = 0xD800 := by
    rw [← UInt32.toNat_inj, UInt32.toNat_and, ← Bits.and_mask]
    rfl
  rw [masked, UInt32.lt_iff_toNat_lt, show bmpEnd.toNat = 0xFFFF from rfl] at notSurrogate
  rw [gt_iff_lt, UInt32.lt_iff_toNat_lt, show unicodeMax.toNat = 0x10FFFF from rfl] at inRange
  simp only [UInt32.isValidChar, Nat.isValidChar]
  omega

/-- The loop reads back the continuation bytes that stand behind the index. -/
theorem decodeContinuations_bytes {utf8 rest : List UInt8} {len n : Nat} (small : n < 2 ^ 32)
    (count : Nat) : ∀ {codepoint : Codepoint} {index : Nat},
      utf8.drop (index + 1) = continuationBytes count n ++ rest → index + count < len →
      codepoint.toNat = n / 64 ^ count →
      decodeContinuations utf8 len count codepoint index =
        some (some (UInt32.ofNat n), index + count) := by
  induction count with
  | zero =>
      intro codepoint index _ _ value
      rw [pow_zero, Nat.div_one] at value
      rw [decodeContinuations, ← value, UInt32.ofNat_toNat]
      rfl
  | succ count ih =>
      intro codepoint index tail within value
      rw [continuationBytes_succ, List.cons_append] at tail
      have digit : n / 64 ^ count % 0x40 < 64 := Nat.mod_lt _ (by decide)
      have byte : utf8[index + 1]? = some (UInt8.ofNat (n / 64 ^ count % 0x40 + 0x80)) := by
        have head := congrArg (fun l => l[0]?) tail
        simpa using head
      have next : utf8.drop (index + 1 + 1) = continuationBytes count n ++ rest := by
        rw [← List.drop_drop, tail]
        rfl
      have isContinuation : ∀ d < 64,
          UInt8.ofNat (d + 0x80) &&& utf8ContinuationMask = utf8ContinuationValue := by decide
      have bits : ∀ d < 64,
          (UInt8.ofNat (d + 0x80) &&& ~~~utf8ContinuationMask).toUInt32.toNat = d := by decide
      rw [decodeContinuations, if_neg (by omega), byte]
      simp only [Option.bind_eq_bind, Option.bind_some]
      rw [if_neg (not_not.2 (isContinuation _ digit)), ih next (by omega), Nat.add_assoc,
        Nat.add_comm 1]
      have high : codepoint.toNat < 2 ^ 26 := by
        rw [value, Nat.div_lt_iff_lt_mul (by positivity)]
        calc n < 2 ^ 32 := small
          _ = 2 ^ 26 * 64 ^ 1 := by norm_num
          _ ≤ 2 ^ 26 * 64 ^ (count + 1) :=
              Nat.mul_le_mul_left _ (Nat.pow_le_pow_right (by decide) (by omega))
      rw [show utf8ContinuationCodepointBits = UInt32.ofNat 6 from rfl,
        Bits.uint32_shiftLeft_or _ _ 6 (by decide) high (by rw [bits _ digit]; exact digit),
        bits _ digit, value, Nat.pow_succ, ← Nat.div_div_eq_div_mul]
      omega

/-- One decoder step reads back the standard encoding of a scalar value. -/
theorem decodeUtf8_char (c : Char) (len : Nat) {utf8 rest : List UInt8} {index : Nat}
    (tail : utf8.drop index = String.utf8EncodeChar c ++ rest)
    (within : index + (String.utf8EncodeChar c).length ≤ len) :
    ∃ last, decodeUtf8 utf8 len index = some (c.val, last) ∧
      last + 1 = index + (String.utf8EncodeChar c).length := by
  have size := calculateUtf8Len_char c
  have valid : c.val.toNat.isValidChar := c.valid
  obtain ⟨count, pattern, bits, row, digit, shape⟩ := utf8EncodeChar_row c
  rw [shape] at tail within size ⊢
  rw [List.length_cons, length_continuationBytes] at within size ⊢
  have lead : utf8[index]? =
      some (UInt8.ofNat (c.val.toNat / 64 ^ count + pattern.value.toNat)) := by
    have head := congrArg (fun l => l[0]?) tail
    simpa using head
  have next : utf8.drop (index + 1) = continuationBytes count c.val.toNat ++ rest := by
    rw [← List.drop_drop, tail]
    rfl
  refine ⟨index + count, ?_, rfl⟩
  rw [decodeUtf8, lead]
  simp only [Option.bind_eq_bind, Option.bind_some]
  rw [row.matched _ digit]
  simp only [Nat.add_one_sub_one]
  rw [decodeContinuations_bytes c.val.toNat_lt count next (by omega)
    (by rw [UInt8.toNat_toUInt32, row.unmarked _ digit]), UInt32.ofNat_toNat]
  simp only [Option.bind_some]
  have notSurrogate : ¬ (c.val < bmpEnd ∧
      c.val &&& genericSurrogateMask.toUInt32 = genericSurrogateValue.toUInt32) := by
    rintro ⟨low, masked⟩
    have masked' : c.val.toNat / 2 ^ 11 % 2 ^ 5 * 2 ^ 11 = 0xD800 := by
      rw [← Bits.and_mask]
      have numbers := congrArg UInt32.toNat masked
      rw [UInt32.toNat_and] at numbers
      exact numbers
    rw [UInt32.lt_iff_toNat_lt, show bmpEnd.toNat = 0xFFFF from rfl] at low
    simp only [Nat.isValidChar] at valid
    omega
  have inRange : ¬ c.val > unicodeMax := by
    rw [gt_iff_lt, UInt32.lt_iff_toNat_lt, show unicodeMax.toNat = 0x10FFFF from rfl]
    simp only [Nat.isValidChar] at valid
    omega
  rw [if_neg (not_not.2 size), if_neg notSurrogate, if_neg inRange]

/-- The UTF-8 decoder reads back the scalar values that a well-formed string encodes. -/
theorem decodes_utf8_encode {utf8 : List UInt8} (chars : List Char) :
    ∀ {index : Nat}, index ≤ utf8.length → utf8.drop index = Utf8.encode chars →
      Decodes (decodeUtf8 utf8 utf8.length) utf8.length index chars := by
  induction chars with
  | nil =>
      intro index _ tail
      exact .done (List.drop_eq_nil_iff.1 tail)
  | cons c chars ih =>
      intro index within tail
      rw [Utf8.encode_cons] at tail
      have size := congrArg List.length tail
      rw [List.length_drop, List.length_append] at size
      have positive : 0 < (String.utf8EncodeChar c).length := by
        rw [String.length_utf8EncodeChar]
        exact c.utf8Size_pos
      obtain ⟨last, decoded, next⟩ := decodeUtf8_char c utf8.length tail (by omega)
      refine .step (by omega) decoded (by omega) (ih (by omega) ?_)
      rw [next, ← List.drop_drop, tail, List.drop_left]

/-! ### Encoding UTF-16 -/

theorem le_bmpEnd_iff (c : Char) : c.val ≤ bmpEnd ↔ c.toNat ≤ 0xFFFF := by
  rw [UInt32.le_iff_toNat_le]
  rfl

theorem calculateUtf16Len_char (c : Char) :
    calculateUtf16Len c.val = (Utf16.encodeChar c).length := by
  rw [calculateUtf16Len, Utf16.encodeChar]
  by_cases bmp : c.toNat ≤ 0xFFFF
  · rw [if_pos bmp, if_pos ((le_bmpEnd_iff c).2 bmp)]
    rfl
  · rw [if_neg bmp, if_neg (fun le => bmp ((le_bmpEnd_iff c).1 le))]
    rfl

/-- Setting the surrogate marker bits adds the marker to the ten payload bits. -/
theorem surrogate_unit (marker : UInt16) (high : Nat) (markerEq : marker.toNat = high <<< 10)
    (codepoint : Codepoint) :
    marker ||| (codepoint &&& surrogateCodepointMask).toUInt16 =
      UInt16.ofNat (marker.toNat + codepoint.toNat % 0x400) := by
  have payload : (codepoint &&& surrogateCodepointMask).toNat = codepoint.toNat % 0x400 := by
    rw [UInt32.toNat_and]
    exact Nat.and_two_pow_sub_one_eq_mod codepoint.toNat 10
  have small : codepoint.toNat % 0x400 < 2 ^ 10 := Nat.mod_lt _ (by decide)
  have units : ((codepoint &&& surrogateCodepointMask).toUInt16).toNat = codepoint.toNat % 0x400 := by
    rw [UInt32.toNat_toUInt16, payload, Nat.mod_eq_of_lt (by omega)]
  have joined : (marker ||| (codepoint &&& surrogateCodepointMask).toUInt16).toNat =
      marker.toNat + codepoint.toNat % 0x400 := by
    rw [UInt16.toNat_or, units, markerEq, ← Nat.shiftLeft_add_eq_or_of_lt small]
  rw [← joined, UInt16.ofNat_toNat]

/-- With room for it, the encoder stores the standard encoding of a scalar value. -/
theorem encodeUtf16_char (c : Char) (utf16 : List UInt16) {len index : Nat}
    (fits : index + (Utf16.encodeChar c).length ≤ len) (room : len ≤ utf16.length) :
    encodeUtf16 c.val utf16 len index =
      some ((Utf16.encodeChar c).length,
        Buffer.overwrite utf16 index (Utf16.encodeChar c)) := by
  have range : c.toNat < 0x110000 := by
    have range := toNat_range c
    omega
  rw [Utf16.encodeChar] at fits ⊢
  by_cases bmp : c.toNat ≤ 0xFFFF
  · rw [if_pos bmp] at fits ⊢
    rw [List.length_singleton] at fits
    rw [encodeUtf16, if_neg (by omega), if_pos ((le_bmpEnd_iff c).2 bmp),
      store_eq_overwrite (by omega)]
    rfl
  · rw [if_neg bmp] at fits ⊢
    simp only [List.length_cons, List.length_nil] at fits
    have offset : (c.val - surrogateCodepointOffset).toNat = c.toNat - 0x10000 :=
      UInt32.toNat_sub_of_le _ _ (UInt32.le_iff_toNat_le.2 (by
        show 0x10000 ≤ c.toNat
        omega))
    have shifted : ((c.val - surrogateCodepointOffset) >>> surrogateCodepointBits).toNat =
        (c.toNat - 0x10000) / 0x400 := by
      rw [UInt32.toNat_shiftRight, offset]
      exact Nat.shiftRight_eq_div_pow _ 10
    rw [encodeUtf16, if_neg (by omega), if_neg (fun le => bmp ((le_bmpEnd_iff c).1 le)),
      if_neg (by omega)]
    simp only [surrogate_unit highSurrogateValue 0x36 rfl,
      surrogate_unit lowSurrogateValue 0x37 rfl, shifted, offset]
    rw [Nat.mod_eq_of_lt (by omega : (c.toNat - 0x10000) / 0x400 < 0x400),
      store_eq_overwrite (by omega)]
    simp only [Option.bind_eq_bind, Option.bind_some]
    rw [store_eq_overwrite (by rw [Buffer.length_overwrite _ _ _ (by simp; omega)]; omega)]
    simp only [Option.bind_some]
    rw [show index + 1 = index + [UInt16.ofNat (highSurrogateValue.toNat +
      (c.toNat - 0x10000) / 0x400)].length from rfl, Buffer.overwrite_append (by simp; omega)]
    rfl

theorem encodes_utf16 (len : Nat) :
    Encodes Utf16.encodeChar len (fun codepoint utf16 => encodeUtf16 codepoint utf16 len) where
  stores c utf16 index fits room := encodeUtf16_char c utf16 fits room
  skips c utf16 index beyond := by
    rw [Utf16.encodeChar] at beyond
    rw [encodeUtf16]
    by_cases full : index ≥ len
    · rw [if_pos full]
    · rw [if_neg full]
      by_cases bmp : c.toNat ≤ 0xFFFF
      · rw [if_pos bmp, List.length_singleton] at beyond
        omega
      · rw [if_neg bmp] at beyond
        simp only [List.length_cons, List.length_nil] at beyond
        rw [if_neg (fun le => bmp ((le_bmpEnd_iff c).1 le)), if_pos (by omega)]

end Unshield
