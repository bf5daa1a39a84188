/-
Module: Unshield.Proofs.Utf8Reading
Purpose: What the UTF-8 decoder reads on arbitrary bytes: step by step the lossy reading, in which an
  ill-formed sequence takes its leading byte and the continuation bytes that do stand behind it.
Trusted boundary: none
Main exports: leadingByte_cases, decodeContinuations_takeTails, utf8EncodeChar_of_continuations,
  decodeUtf8_step, decodes_utf8
-/
import Unshield.Foundation.LossyUtf8
import Unshield.Proofs.ConverterSteps
import Mathlib.Tactic.Ring

namespace Unshield

open Unicode

/-- A byte leads nothing, or it leads what one row of the table says. -/
theorem leadingByte_cases (lead : UInt8) :
    (matchLeading lead 1 utf8LeadingBytes = none ∧ Utf8.announced lead = 0 ∧ 0x80 ≤ lead.toNat) ∨
    ∃ count pattern bits digit, LeadingRow count pattern bits ∧ Utf8.announced lead = count ∧
      digit < 2 ^ bits ∧ lead = UInt8.ofNat (digit + pattern.value.toNat) := by
  have bound := lead.toNat_lt
  have unknown : ∀ b : BitVec 8, (0x80 ≤ (UInt8.ofBitVec b).toNat ∧ (UInt8.ofBitVec b).toNat < 0xC0 ∨
      0xF8 ≤ (UInt8.ofBitVec b).toNat) → matchLeading (UInt8.ofBitVec b) 1 utf8LeadingBytes = none := by
    decide
  have digits {value : Nat} (above : value ≤ lead.toNat) :
      lead = UInt8.ofNat (lead.toNat - value + value) := by
    rw [Nat.sub_add_cancel above, UInt8.ofNat_toNat]
  rw [Utf8.announced]
  split_ifs with below_two below_three below_four below_five
  · by_cases ascii : lead.toNat < 0x80
    · exact .inr ⟨0, _, _, lead.toNat, leadingRow_one, rfl, ascii, digits (Nat.zero_le _)⟩
    · exact .inl ⟨unknown lead.toBitVec (.inl ⟨Nat.le_of_not_lt ascii, below_two⟩), rfl,
        Nat.le_of_not_lt ascii⟩
  · exact .inr ⟨1, _, _, lead.toNat - 0xC0, leadingRow_two, rfl, by omega, digits (by omega)⟩
  · exact .inr ⟨2, _, _, lead.toNat - 0xE0, leadingRow_three, rfl, by omega, digits (by omega)⟩
  · exact .inr ⟨3, _, _, lead.toNat - 0xF0, leadingRow_four, rfl, by omega, digits (by omega)⟩
  · exact .inl ⟨unknown lead.toBitVec (.inr (Nat.le_of_not_lt below_five)), rfl, by omega⟩

theorem continuation_iff (b : UInt8) :
    b &&& utf8ContinuationMask = utf8ContinuationValue ↔ Utf8.Tail b :=
  Bits.forall_uint8 (P := fun b => b &&& utf8ContinuationMask = utf8ContinuationValue ↔ Utf8.Tail b)
    (by decide) b

theorem continuation_payload (b : UInt8) :
    (b &&& ~~~utf8ContinuationMask).toUInt32.toNat = b.toNat % 0x40 :=
  Bits.forall_uint8 (P := fun b => (b &&& ~~~utf8ContinuationMask).toUInt32.toNat = b.toNat % 0x40)
    (by decide) b

theorem continuation_of_payload {b : UInt8} (tail : Utf8.Tail b) :
    UInt8.ofNat (b.toNat % 0x40 + 0x80) = b := by
  obtain ⟨low, high⟩ := tail
  exact Utf8.ofNat_eq_of_toNat (by omega)

/-- The loop takes the tails that stand behind the index, up to the announced number.  If it gets them
all, they are the continuation bytes of the number it returns, and the number has the leading digits
it started with. -/
theorem decodeContinuations_takeTails {utf8 : List UInt8} {len : Nat} (room : len ≤ utf8.length)
    (count : Nat) : ∀ {codepoint : Codepoint} {index : Nat} {tails : List UInt8}, index < len →
      Utf8.takeTails count ((utf8.take len).drop (index + 1)) = tails →
      (codepoint.toNat + 1) * 64 ^ count ≤ 2 ^ 32 →
      (tails.length ≠ count ∧
        decodeContinuations utf8 len count codepoint index = some (none, index + tails.length)) ∨
      ∃ result : Codepoint, tails.length = count ∧
        decodeContinuations utf8 len count codepoint index =
          some (some result, index + tails.length) ∧
        continuationBytes count result.toNat = tails ∧ result.toNat / 64 ^ count = codepoint.toNat := by
  induction count with
  | zero =>
      rintro codepoint index _ within rfl small
      exact .inr ⟨codepoint, rfl, rfl, rfl, by rw [pow_zero, Nat.div_one]⟩
  | succ count ih =>
      rintro codepoint index _ within rfl small
      by_cases atEnd : index + 1 ≥ len
      · rw [List.drop_of_length_le (by rw [List.length_take]; omega), decodeContinuations, if_pos atEnd]
        exact .inl ⟨(Nat.succ_ne_zero count).symm, rfl⟩
      have read : utf8[index + 1]? = some utf8[index + 1] := List.getElem?_eq_getElem (by omega)
      rw [List.drop_eq_getElem_cons (by rw [List.length_take]; omega), List.getElem_take,
        decodeContinuations, if_neg atEnd, read, Utf8.takeTails]
      simp only [Option.bind_eq_bind, Option.bind_some, ne_eq, continuation_iff]
      by_cases isTail : Utf8.Tail utf8[index + 1]
      · rw [if_pos isTail, if_neg (not_not.2 isTail), List.length_cons]
        have high : codepoint.toNat < 2 ^ 26 := by
          have positive : 64 ≤ 64 ^ (count + 1) := Nat.le_self_pow (Nat.succ_ne_zero count) 64
          have scaled := Nat.mul_le_mul_left (codepoint.toNat + 1) positive
          omega
        have shifted := Bits.uint32_shiftLeft_or codepoint
          (utf8[index + 1] &&& ~~~utf8ContinuationMask).toUInt32 6 (by decide) high
          (by rw [continuation_payload]; exact Nat.mod_lt _ (by decide))
        rw [continuation_payload] at shifted
        have digit : utf8[index + 1].toNat % 0x40 < 64 := Nat.mod_lt _ (by decide)
        have next : (codepoint.toNat * 2 ^ 6 + utf8[index + 1].toNat % 0x40 + 1) * 64 ^ count ≤ 2 ^ 32 := by
          calc (codepoint.toNat * 2 ^ 6 + utf8[index + 1].toNat % 0x40 + 1) * 64 ^ count
              ≤ (codepoint.toNat * 64 + 64) * 64 ^ count := Nat.mul_le_mul_right _ (by omega)
            _ = (codepoint.toNat + 1) * 64 ^ (count + 1) := by ring
            _ ≤ 2 ^ 32 := small
        rcases ih (by omega : index + 1 < len) rfl (by rw [shifted]; exact next) with
          ⟨short, ended⟩ | ⟨result, all, ended, bytes, lead⟩
        · refine .inl ⟨by omega, ?_⟩
          rw [show utf8ContinuationCodepointBits = UInt32.ofNat 6 from rfl, ended]
          congr 2
          omega
        · refine .inr ⟨result, by omega, ?_, ?_, ?_⟩
          · rw [show utf8ContinuationCodepointBits = UInt32.ofNat 6 from rfl, ended]
            congr 2
            omega
          · rw [continuationBytes_succ, bytes, lead, shifted]
            have low : (codepoint.toNat * 2 ^ 6 + utf8[index + 1].toNat % 0x40) % 0x40 =
                utf8[index + 1].toNat % 0x40 := by omega
            rw [low, continuation_of_payload isTail]
          · rw [pow_succ, ← Nat.div_div_eq_div_mul, lead, shifted]
            omega
      · rw [if_neg isTail, if_pos isTail]
        exact .inl ⟨(Nat.succ_ne_zero count).symm, rfl⟩

/-- A number that takes up as many bytes as there are is encoded by the leading byte of its row and its
continuation bytes. -/
theorem utf8EncodeChar_of_continuations {c : Char} {count digit bits : Nat} {pattern : Utf8Pattern}
    (row : LeadingRow count pattern bits) (length : calculateUtf8Len c.val = count + 1)
    (lead : c.val.toNat / 64 ^ count = digit) :
    String.utf8EncodeChar c =
      UInt8.ofNat (digit + pattern.value.toNat) :: continuationBytes count c.val.toNat := by
  obtain ⟨count', pattern', bits', row', _, shape⟩ := utf8EncodeChar_row c
  have lengths := congrArg List.length shape
  rw [← calculateUtf8Len_char, length, List.length_cons, length_continuationBytes] at lengths
  obtain rfl : count = count' := Nat.succ_inj.1 lengths
  have patterns := row.entry.symm.trans row'.entry
  rw [shape, ← Option.some.inj patterns, lead]

/-- A sequence that encodes no scalar value is given up: its leading byte leads nothing, tails are
missing, or the number that was read does not pass the checks. -/
theorem decodeUtf8_invalid {utf8 tails : List UInt8} {len index : Nat} (room : len ≤ utf8.length)
    (within : index < len)
    (taken : Utf8.tailsOf utf8[index] ((utf8.take len).drop (index + 1)) = tails)
    (no_char : ∀ c, String.utf8EncodeChar c ≠ utf8[index] :: tails) :
    decodeUtf8 utf8 len index = some (invalidCodepoint, index + tails.length) := by
  rw [decodeUtf8, List.getElem?_eq_getElem (by omega)]
  simp only [Option.bind_eq_bind, Option.bind_some]
  rw [Utf8.tailsOf] at taken
  rcases leadingByte_cases utf8[index] with
    ⟨unknown, announced, _⟩ | ⟨count, pattern, bits, digit, row, announced, small, lead⟩
  · rw [announced] at taken
    rw [unknown, ← taken]
    rfl
  rw [announced] at taken
  have matched := row.matched digit small
  have payload := row.unmarked digit small
  rw [← lead] at matched payload
  have low : ((utf8[index] &&& ~~~pattern.mask).toUInt32.toNat + 1) * 64 ^ count ≤ 2 ^ 32 := by
    rw [UInt8.toNat_toUInt32, payload]
    calc (digit + 1) * 64 ^ count ≤ 2 ^ 8 * 64 ^ 3 :=
          Nat.mul_le_mul (small.trans_le (Nat.pow_le_pow_right (by decide) row.le))
            (Nat.pow_le_pow_right (by decide) row.few)
      _ ≤ 2 ^ 32 := by norm_num
  rw [matched]
  simp only [Nat.add_one_sub_one]
  rcases decodeContinuations_takeTails room count within taken low with
    ⟨_, ended⟩ | ⟨result, all, ended, bytes, leading⟩
  · rw [ended]
    rfl
  rw [ended]
  simp only [Option.bind_some]
  split_ifs with length surrogate above
  · rfl
  · rfl
  · rfl
  · -- the number passes the checks, so the sequence encodes it
    refine absurd ?_ (no_char ⟨result, isValidChar_of_checks surrogate above⟩)
    rw [UInt8.toNat_toUInt32, payload] at leading
    rw [utf8EncodeChar_of_continuations row (not_not.1 length) leading, ← lead]
    exact congrArg _ bytes

/-- One decoder step: the scalar value at the head of the lossy reading of what is left. -/
theorem decodeUtf8_step {utf8 : List UInt8} {len index : Nat} (room : len ≤ utf8.length)
    (within : index < len) :
    ∃ (c : Char) (last : Nat), decodeUtf8 utf8 len index = some (c.val, last) ∧ index ≤ last ∧
      last < len ∧ Utf8.decodeLossy ((utf8.take len).drop index) =
        c :: Utf8.decodeLossy ((utf8.take len).drop (last + 1)) := by
  have inside : index < (utf8.take len).length := by
    rw [List.length_take]
    omega
  have shape : (utf8.take len).drop index = utf8[index] :: (utf8.take len).drop (index + 1) := by
    rw [List.drop_eq_getElem_cons inside, List.getElem_take]
  have read : utf8[index]? = some utf8[index] := List.getElem?_eq_getElem (by omega)
  have few := Utf8.length_tailsOf_le utf8[index] ((utf8.take len).drop (index + 1))
  rw [List.length_drop, List.length_take] at few
  generalize tailsEq : Utf8.tailsOf utf8[index] ((utf8.take len).drop (index + 1)) = tails at few
  have reading : Utf8.decodeLossy ((utf8.take len).drop index) =
      Utf8.readChar (utf8[index] :: tails) ::
        Utf8.decodeLossy ((utf8.take len).drop (index + tails.length + 1)) := by
    rw [shape, Utf8.decodeLossy, tailsEq, List.drop_drop, Nat.add_right_comm]
  have decoded : decodeUtf8 utf8 len index =
      some ((Utf8.readChar (utf8[index] :: tails)).val, index + tails.length) := by
    by_cases encoded : ∃ c, String.utf8EncodeChar c = utf8[index] :: tails
    · obtain ⟨c, encoding⟩ := encoded
      have stands : tails <+: utf8.drop (index + 1) := by
        rw [← tailsEq, Utf8.tailsOf]
        rw [List.drop_take]
        exact (Utf8.takeTails_front _ _).trans (List.take_prefix _ _)
      obtain ⟨rest, tail⟩ := stands
      obtain ⟨last, decoded, next⟩ := @decodeUtf8_char c len utf8 rest index
        (by rw [encoding, List.drop_eq_getElem_cons (by omega), ← tail]; rfl)
        (by rw [encoding, List.length_cons]; omega)
      rw [encoding, List.length_cons] at next
      rw [decoded, ← encoding, Utf8.readChar_encode]
      congr 2
      omega
    · rw [decodeUtf8_invalid room within tailsEq (not_exists.1 encoded),
        Utf8.readChar_of_not_encoded (not_exists.1 encoded)]
      rfl
  exact ⟨_, _, decoded, Nat.le_add_right _ _, by omega, reading⟩

/-- The UTF-8 decoder reads the lossy reading of the bytes it is given the length of. -/
theorem decodes_utf8 {utf8 : List UInt8} {len : Nat} (room : len ≤ utf8.length) (index : Nat) :
    Decodes (decodeUtf8 utf8 len) len index (Utf8.decodeLossy ((utf8.take len).drop index)) := by
  induction remaining : len - index using Nat.strong_induction_on generalizing index with
  | _ remaining ih =>
      by_cases within : index < len
      · obtain ⟨c, last, decoded, advance, _, reading⟩ := decodeUtf8_step room within
        rw [reading]
        exact .step within decoded advance (ih (len - (last + 1)) (by omega) (last + 1) rfl)
      · rw [List.drop_of_length_le (by rw [List.length_take]; omega), Utf8.decodeLossy]
        exact .done (by omega)

end Unshield
