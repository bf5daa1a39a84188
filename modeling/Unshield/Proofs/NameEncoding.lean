/-
Module: Unshield.Proofs.NameEncoding
Purpose: The names of an archive of version 17 or later on hosts of both byte orders: what the bytes of a
  name are read as, and which names are read alike.
Trusted boundary: none
Main exports: length_units, unit_toNat, nameUnits, BufferFits, utf16ToUtf8_terminated,
  getUtf8String_of_terminated, getUtf8String_of_short, getUtf8String_of_long, littleEndianText, ReadsAlike,
  decodeLossy_nameUnits_iff, names_read_alike_iff
-/
import Mathlib.Data.List.TakeWhile
import Unshield.Core.Library
import Unshield.Foundation.Bits
import Unshield.Foundation.Occurrence
import Unshield.Proofs.ConverterBuffers
import Unshield.Proofs.VolumeFormat

namespace Unshield

open Procedure Unicode

/-! ### Units -/

theorem length_units (bigEndian : Bool) (bytes : Bytes) :
    (units bigEndian bytes).length = (units false bytes).length := by
  induction bytes using units.induct with
  | case1 one two rest ih =>
      rw [units, units, List.length_cons, List.length_cons, ih]
  | case2 bytes short =>
      rw [units.eq_2 _ _ short, units.eq_2 _ _ short]

/-- The two readings of a pair of bytes as numbers. -/
theorem unit_toNat (bigEndian : Bool) (one two : UInt8) :
    (if bigEndian then one.toUInt16 <<< 8 ||| two.toUInt16
      else one.toUInt16 ||| two.toUInt16 <<< 8).toNat =
        if bigEndian then two.toNat + 256 * one.toNat else one.toNat + 256 * two.toNat := by
  cases bigEndian with
  | false => exact Bits.uint16_or_shiftLeft_byte one two
  | true =>
      rw [if_pos rfl, if_pos rfl, UInt16.or_comm]
      exact Bits.uint16_or_shiftLeft_byte two one

/-- Only two zero bytes make a zero, in either order. -/
theorem unit_eq_zero_iff (bigEndian : Bool) (one two : UInt8) :
    (if bigEndian then one.toUInt16 <<< 8 ||| two.toUInt16
      else one.toUInt16 ||| two.toUInt16 <<< 8) = 0 ↔ one = 0 ∧ two = 0 := by
  rw [← UInt16.toNat_inj, unit_toNat, ← UInt8.toNat_inj, ← UInt8.toNat_inj]
  show _ = 0 ↔ _ = 0 ∧ _ = 0
  split_ifs <;> omega

/-- The units of a name, in the byte order of the host. -/
def nameUnits (bigEndian : Bool) (bytes : Bytes) : List UInt16 :=
  (units bigEndian bytes).takeWhile (· ≠ 0)

theorem length_takeWhile_cons {u v : UInt16} {one two : List UInt16} (alike : u = 0 ↔ v = 0)
    (rest : (one.takeWhile (· ≠ 0)).length = (two.takeWhile (· ≠ 0)).length) :
    ((u :: one).takeWhile (· ≠ 0)).length = ((v :: two).takeWhile (· ≠ 0)).length := by
  by_cases zero : u = 0
  · simp [zero, alike.1 zero]
  · simpa [zero, mt alike.2 zero] using rest

/-- The byte order does not show in where the first zero is. -/
theorem length_nameUnits (bigEndian : Bool) (bytes : Bytes) :
    (nameUnits bigEndian bytes).length = (nameUnits false bytes).length := by
  rw [nameUnits, nameUnits]
  induction bytes using units.induct with
  | case1 one two rest ih =>
      rw [units, units]
      apply length_takeWhile_cons _ ih
      rw [unit_eq_zero_iff, unit_eq_zero_iff]
  | case2 bytes short =>
      rw [units.eq_2 _ _ short, units.eq_2 _ _ short]

theorem zero_notMem_nameUnits (bigEndian : Bool) (bytes : Bytes) : 0 ∉ nameUnits bigEndian bytes := by
  intro member
  have nonzero := List.mem_takeWhile_imp (p := (· ≠ (0 : UInt16))) member
  exact of_decide_eq_true nonzero rfl

/-! ### One call -/

theorem last_lt_of_decodeUtf16 {utf16 : List UInt16} {len index last : Nat} {codepoint : Codepoint}
    (decoded : decodeUtf16 utf16 len index = some (codepoint, last)) : last < utf16.length := by
  rw [decodeUtf16, Option.bind_eq_bind, Option.bind_eq_some_iff] at decoded
  obtain ⟨high, read, decoded⟩ := decoded
  have here := (List.getElem?_eq_some_iff.1 read).1
  have lands {value : Codepoint} {i : Nat} (ends : some (value, i) = some (codepoint, last)) : i = last :=
    congrArg Prod.snd (Option.some.inj ends)
  split_ifs at decoded
  · exact lands decoded ▸ here
  · exact lands decoded ▸ here
  · exact lands decoded ▸ here
  · rw [Option.bind_eq_some_iff] at decoded
    obtain ⟨low, next, decoded⟩ := decoded
    split_ifs at decoded
    · exact lands decoded ▸ here
    · exact lands decoded ▸ (List.getElem?_eq_some_iff.1 next).1

/-- A conversion that comes to its end has read every unit it was given the length of. -/
theorem le_length_of_convert {β : Type} {utf16 : List UInt16} {len : Nat} {calculateLen : Codepoint → Nat}
    {encode : Codepoint → List β → Nat → Option (Nat × List β)} {fuel index outputIndex : Nat}
    {output : List β} {result : Nat × Option (List β)}
    (converted : convert (decodeUtf16 utf16 len) len calculateLen encode fuel index outputIndex
      (some output) = some result) : len ≤ index ∨ len ≤ utf16.length := by
  induction fuel generalizing index outputIndex output with
  | zero => cases converted
  | succ fuel ih =>
      rw [convert] at converted
      split_ifs at converted with within
      · rw [Option.bind_eq_bind, Option.bind_eq_some_iff] at converted
        obtain ⟨⟨codepoint, last⟩, decoded, converted⟩ := converted
        simp only [Option.bind_eq_bind, Option.bind_eq_some_iff] at converted
        obtain ⟨⟨size, stored⟩, _, converted⟩ := converted
        have read := last_lt_of_decodeUtf16 decoded
        rcases ih converted with past | inside
        · exact .inr (by omega)
        · exact .inr inside
      · exact .inl (Nat.le_of_not_lt within)

variable {header : Header} {p : Nat}

/-- What stands where a name with a unit behind its terminator is. -/
theorem units_eq_of_room {bigEndian : Bool} {bytes : Bytes}
    (room : (nameUnits bigEndian bytes).length + 2 ≤ (units bigEndian bytes).length) :
    ∃ u rest, units bigEndian bytes = nameUnits bigEndian bytes ++ 0 :: u :: rest := by
  have split : nameUnits bigEndian bytes ++ (units bigEndian bytes).dropWhile (· ≠ 0) =
      units bigEndian bytes := List.takeWhile_append_dropWhile
  have first := List.head?_dropWhile_not (· ≠ (0 : UInt16)) (units bigEndian bytes)
  have sizes := congrArg List.length split
  rw [List.length_append] at sizes
  cases left : (units bigEndian bytes).dropWhile (· ≠ 0) with
  | nil =>
      rw [left, List.length_nil] at sizes
      omega
  | cons zero left' =>
      cases left' with
      | nil =>
          rw [left, List.length_singleton] at sizes
          omega
      | cons u rest =>
          rw [left] at first split
          have terminator : zero = 0 := by simpa using first
          rw [terminator] at split
          exact ⟨u, rest, split.symm⟩

/-- A C string is what stands in front of its first zero. -/
theorem cString_terminated {text : Bytes} (nonzero : 0 ∉ text) (behind : Bytes) :
    cString (text ++ 0 :: behind) 0 = .ret text := by
  rw [cString, List.drop_zero, if_pos (List.mem_append_right _ List.mem_cons_self),
    Occurrence.takeWhile_terminated nonzero]

theorem strlenUtf16_terminated {name : List UInt16} (nonzero : 0 ∉ name) (behind : List UInt16) :
    strlenUtf16 (name ++ 0 :: behind) = .ret (name.length + 1) := by
  rw [strlenUtf16, if_pos (List.mem_append_right _ List.mem_cons_self),
    Occurrence.takeWhile_terminated nonzero]

/-- The converter is given the length `unshield_strlen_utf16` counts plus one: the name, its terminator
and what stands behind it. -/
theorem encode_terminated (name : List UInt16) (u : UInt16) (rest : List UInt16) :
    Utf8.encode (Utf16.decodeLossy ((name ++ 0 :: u :: rest).take (name.length + 2))) =
      Utf8.encode (Utf16.decodeLossy name) ++ 0 :: String.utf8EncodeChar (Utf16.unitChar u) := by
  have given : (name ++ 0 :: u :: rest).take (name.length + 2) = name ++ [0, u] := by
    rw [List.take_append, List.take_of_length_le (Nat.le_add_right _ _), Nat.add_sub_cancel_left]
    rfl
  have uncut : ∀ v ∈ name.getLast?, ∀ w ∈ [0, u].head?, ¬ (Utf16.IsHigh v ∧ Utf16.IsLow w) := by
    rintro v - w first ⟨_, isLow⟩
    obtain rfl := Option.some.inj first
    exact absurd isLow (by decide)
  have reading : Utf16.decodeLossy [0, u] = [Char.ofNat 0, Utf16.unitChar u] := by
    rw [Utf16.decodeLossy_cons_of_not_high (by decide)]
    rfl
  rw [given, Utf16.decodeLossy_append _ _ uncut, reading, Utf8.encode_append, Utf8.encode_cons,
    Utf8.encode_cons, Utf8.encode_nil, List.append_nil]
  rfl

/-- Three bytes for each unit and one for the terminator are enough for all of that. -/
theorem length_encode_terminated_le (name : List UInt16) (u : UInt16) (rest : List UInt16) :
    (Utf8.encode (Utf16.decodeLossy ((name ++ 0 :: u :: rest).take (name.length + 2)))).length ≤
      3 * (name.length + 1) + 1 := by
  have small := Utf16.length_encode_decodeLossy_le name
  have last := Utf16.length_utf8EncodeChar_unitChar u
  rw [encode_terminated, List.length_append, List.length_cons]
  omega

/-- The conversion of a terminated name fills the buffer that `unshield_utf16_to_utf8` allocates with the
name, a zero and what stands behind the terminator. -/
theorem utf16ToUtf8_terminated (name : List UInt16) (u : UInt16) (rest : List UInt16) :
    let text := Utf8.encode (Utf16.decodeLossy name)
    ∃ behind : Bytes,
      utf16ToUtf8 (name ++ 0 :: u :: rest) (name.length + 2)
          (some (List.replicate (3 * (name.length + 1) + 1) 0)) (3 * (name.length + 1) + 1) =
        some ((text ++ 0 :: String.utf8EncodeChar (Utf16.unitChar u)).length,
          some (text ++ 0 :: behind)) := by
  have inside : name.length + 2 ≤ (name ++ 0 :: u :: rest).length := by simp
  have room : 3 * (name.length + 1) + 1 ≤ (List.replicate (3 * (name.length + 1) + 1) (0 : UInt8)).length :=
    List.length_replicate.ge
  have packed := utf16ToUtf8_packed inside room
  have fits := length_encode_terminated_le name u rest
  rw [packedText_of_fits fits, ← Utf8.encode, encode_terminated] at packed
  simp only [List.append_assoc, List.cons_append] at packed
  exact ⟨_, packed⟩

/-- An `int` can tell the size of the buffer for a name of so many units. -/
def BufferFits (length : Nat) : Prop := (3 * (length + 1) + 1 : Nat) ≤ intMax

instance (length : Nat) : Decidable (BufferFits length) := inferInstanceAs (Decidable (_ ≤ _))

theorem bufferSizeOf_of_fits {length : Nat} (fits : BufferFits length) :
    bufferSizeOf (length + 1) = .ret (3 * (length + 1) + 1) :=
  if_pos fits

/-- The C string a terminated name is converted to, when one more unit stands behind the terminator. -/
theorem getUtf8String_of_terminated (bigEndian : Bool) (unicode : 17 ≤ header.majorVersion)
    (fits : BufferFits (nameUnits bigEndian (header.data.drop p)).length)
    (room : (nameUnits bigEndian (header.data.drop p)).length + 2 ≤
      (units bigEndian (header.data.drop p)).length) :
    getUtf8String bigEndian header p =
      .ret (Utf8.encode (Utf16.decodeLossy (nameUnits bigEndian (header.data.drop p)))) := by
  have nonzero := zero_notMem_nameUnits bigEndian (header.data.drop p)
  obtain ⟨u, rest, shape⟩ := units_eq_of_room room
  obtain ⟨behind, converted⟩ := utf16ToUtf8_terminated (nameUnits bigEndian (header.data.drop p)) u rest
  rw [getUtf8String, if_pos unicode, shape]
  dsimp only
  rw [strlenUtf16_terminated nonzero, Exit.bind_ret, bufferSizeOf_of_fits fits, Exit.bind_ret]
  simp only [converted, Exit.ofAccess_some, Exit.bind_ret, Option.getD_some]
  exact cString_terminated (Utf8.zero_notMem_encode (Utf16.decodeLossy_nonnull nonzero)) _

/-- Without a unit behind the terminator, or without a terminator, the call reads past the header. -/
theorem getUtf8String_of_short (bigEndian : Bool) (unicode : 17 ≤ header.majorVersion)
    (short : ¬ (nameUnits bigEndian (header.data.drop p)).length + 2 ≤
      (units bigEndian (header.data.drop p)).length) (text : Bytes) :
    getUtf8String bigEndian header p ≠ .ret text := by
  intro returned
  rw [getUtf8String, if_pos unicode, Exit.bind_eq_ret_iff] at returned
  obtain ⟨length, counted, returned⟩ := returned
  rw [strlenUtf16] at counted
  split_ifs at counted
  cases counted
  obtain ⟨_, _, returned⟩ := Exit.bind_eq_ret_iff.1 returned
  obtain ⟨⟨size, target⟩, converted, -⟩ := Exit.bind_eq_ret_iff.1 returned
  rw [Exit.ofAccess_eq_ret_iff] at converted
  rcases le_length_of_convert converted with past | inside
  · exact Nat.not_succ_le_zero _ past
  · exact short inside

/-- The size of the buffer for a name that is too long overflows. -/
theorem getUtf8String_of_long (bigEndian : Bool) (unicode : 17 ≤ header.majorVersion)
    (long : ¬ BufferFits (nameUnits bigEndian (header.data.drop p)).length) (text : Bytes) :
    getUtf8String bigEndian header p ≠ .ret text := by
  intro returned
  rw [getUtf8String, if_pos unicode, Exit.bind_eq_ret_iff] at returned
  obtain ⟨length, counted, returned⟩ := returned
  rw [strlenUtf16] at counted
  split_ifs at counted
  cases counted
  obtain ⟨size, sized, _⟩ := Exit.bind_eq_ret_iff.1 returned
  have overflow : bufferSizeOf ((nameUnits bigEndian (header.data.drop p)).length + 1) = .fault :=
    if_neg long
  cases overflow.symm.trans sized

/-! ### Both byte orders -/

/-- The UTF-8 form of the bytes as UTF-16LE, up to the first 16-bit zero. -/
def littleEndianText (bytes : Bytes) : Bytes :=
  Utf8.encode (Utf16.decodeLossy (nameUnits false bytes))

/-- One more unit lies behind the terminator, an `int` can tell the size of the buffer, and in each unit of
the name the two bytes are the same or both orders make an unpaired surrogate of them. -/
structure ReadsAlike (bytes : Bytes) : Prop where
  fits : BufferFits (nameUnits false bytes).length
  room : (nameUnits false bytes).length + 2 ≤ (units false bytes).length
  alike : ∀ i < (nameUnits false bytes).length, bytes[2 * i]? = bytes[2 * i + 1]? ∨
    Utf16.Unpaired (nameUnits false bytes) i ∧ Utf16.Unpaired (nameUnits true bytes) i

theorem units_at {bytes : Bytes} {i : Nat} (inside : i < (units false bytes).length) :
    ∃ one two, bytes[2 * i]? = some one ∧ bytes[2 * i + 1]? = some two ∧ ∀ bigEndian,
      (units bigEndian bytes)[i]? =
        some (if bigEndian then one.toUInt16 <<< 8 ||| two.toUInt16
          else one.toUInt16 ||| two.toUInt16 <<< 8) := by
  induction bytes using units.induct generalizing i with
  | case1 one two rest ih =>
      cases i with
      | zero => exact ⟨one, two, rfl, rfl, fun _ => rfl⟩
      | succ i =>
          rw [units, List.length_cons, Nat.succ_lt_succ_iff] at inside
          obtain ⟨third, fourth, first, second, unit⟩ := ih inside
          refine ⟨third, fourth, first, second, ?_⟩
          intro bigEndian
          rw [units, List.getElem?_cons_succ]
          exact unit bigEndian
  | case2 bytes short =>
      rw [units.eq_2 _ _ short] at inside
      exact absurd inside (Nat.not_lt_zero _)

theorem nameUnits_getElem? {bigEndian : Bool} {bytes : Bytes} {i : Nat}
    (inside : i < (nameUnits false bytes).length) :
    (nameUnits bigEndian bytes)[i]? = (units bigEndian bytes)[i]? := by
  have split : nameUnits bigEndian bytes ++ (units bigEndian bytes).dropWhile (· ≠ 0) =
      units bigEndian bytes := List.takeWhile_append_dropWhile
  conv_rhs => rw [← split]
  rw [List.getElem?_append_left]
  rw [length_nameUnits]
  exact inside

/-- A unit that is not replaced in one order is not the replacement in the other. -/
theorem ne_replacement_of_surrogate {low high : UInt16} {one two : UInt8}
    (first : low.toNat = one.toNat + 256 * two.toNat) (second : high.toNat = two.toNat + 256 * one.toNat)
    (surrogate : Utf16.IsHigh low ∨ Utf16.IsLow low) : high ≠ 0xFFFD := by
  rintro rfl
  change 0xFFFD = _ at second
  have oneLt := one.toNat_lt
  have twoLt := two.toNat_lt
  simp only [Utf16.IsHigh, Utf16.IsLow] at surrogate
  omega

/-- The two byte orders read the same text exactly when the bytes of the units are alike. -/
theorem decodeLossy_nameUnits_iff (bytes : Bytes) :
    Utf16.decodeLossy (nameUnits true bytes) = Utf16.decodeLossy (nameUnits false bytes) ↔
      ∀ i < (nameUnits false bytes).length, bytes[2 * i]? = bytes[2 * i + 1]? ∨
        Utf16.Unpaired (nameUnits false bytes) i ∧ Utf16.Unpaired (nameUnits true bytes) i := by
  have within : (nameUnits false bytes).length ≤ (units false bytes).length :=
    (List.takeWhile_prefix _).length_le
  rw [Utf16.decodeLossy_eq_iff]
  constructor
  · intro same i inside
    obtain ⟨one, two, firstByte, secondByte, unit⟩ := units_at (inside.trans_le within)
    have replaced := congrArg (·[i]?) same
    have little := unit_toNat false one two
    have big := unit_toNat true one two
    have surrogate {bigEndian : Bool} (unpaired : Utf16.Unpaired (nameUnits bigEndian bytes) i) :
        Utf16.IsHigh (if bigEndian then one.toUInt16 <<< 8 ||| two.toUInt16
          else one.toUInt16 ||| two.toUInt16 <<< 8) ∨
        Utf16.IsLow (if bigEndian then one.toUInt16 <<< 8 ||| two.toUInt16
          else one.toUInt16 ||| two.toUInt16 <<< 8) := by
      obtain ⟨u, here, surrogate⟩ := unpaired.surrogate
      rw [nameUnits_getElem? inside, unit, Option.some.injEq] at here
      rw [here]
      exact surrogate
    simp only [Utf16.getElem?_replaceUnpaired, nameUnits_getElem? inside, unit, Option.map_some,
      Option.some.injEq] at replaced
    by_cases bigUnpaired : Utf16.Unpaired (nameUnits true bytes) i
    · by_cases littleUnpaired : Utf16.Unpaired (nameUnits false bytes) i
      · exact .inr ⟨littleUnpaired, bigUnpaired⟩
      · rw [if_pos bigUnpaired, if_neg littleUnpaired] at replaced
        exact absurd replaced.symm (ne_replacement_of_surrogate big little (surrogate bigUnpaired))
    · by_cases littleUnpaired : Utf16.Unpaired (nameUnits false bytes) i
      · rw [if_neg bigUnpaired, if_pos littleUnpaired] at replaced
        exact absurd replaced (ne_replacement_of_surrogate little big (surrogate littleUnpaired))
      · rw [if_neg bigUnpaired, if_neg littleUnpaired] at replaced
        have numbers := big.symm.trans ((congrArg UInt16.toNat replaced).trans little)
        simp only [if_true, Bool.false_eq_true, if_false] at numbers
        have same : one = two := UInt8.toNat_inj.1 (by omega)
        rw [firstByte, secondByte, same]
        exact .inl rfl
  · intro alike
    have places : Utf16.Alike (nameUnits true bytes) (nameUnits false bytes) := by
      intro i
      by_cases inside : i < (nameUnits false bytes).length
      · rcases alike i inside with same | ⟨first, second⟩
        · obtain ⟨one, two, firstByte, secondByte, unit⟩ := units_at (inside.trans_le within)
          rw [firstByte, secondByte, Option.some.injEq] at same
          rw [nameUnits_getElem? inside, nameUnits_getElem? inside, unit, unit, same]
          exact .inl (congrArg some (UInt16.or_comm _ _))
        · exact .inr ⟨second, first⟩
      · rw [List.getElem?_eq_none (by rw [length_nameUnits]; exact Nat.le_of_not_lt inside),
          List.getElem?_eq_none (Nat.le_of_not_lt inside)]
        exact .inl rfl
    exact places.replaceUnpaired_eq

/-- In a header of version 17 or later a name is the same C string on hosts of both byte orders, and its
UTF-16LE reading, exactly when it is read alike. -/
theorem names_read_alike_iff (header : Header) (p : Nat) (unicode : 17 ≤ header.majorVersion) :
    (∀ bigEndian, getUtf8String bigEndian header p = .ret (littleEndianText (header.data.drop p))) ↔
      ReadsAlike (header.data.drop p) := by
  constructor
  · intro same
    have room : (nameUnits false (header.data.drop p)).length + 2 ≤
        (units false (header.data.drop p)).length := by
      by_contra short
      exact getUtf8String_of_short false unicode short _ (same false)
    have fits : BufferFits (nameUnits false (header.data.drop p)).length := by
      by_contra long
      exact getUtf8String_of_long false unicode long _ (same false)
    refine ⟨fits, room, (decodeLossy_nameUnits_iff _).1 ?_⟩
    have big := same true
    rw [getUtf8String_of_terminated true unicode (by rw [length_nameUnits]; exact fits)
      (by rw [length_nameUnits, length_units]; exact room)] at big
    exact encode_injective (Exit.ret.inj big)
  · intro reads bigEndian
    have room : (nameUnits bigEndian (header.data.drop p)).length + 2 ≤
        (units bigEndian (header.data.drop p)).length := by
      rw [length_nameUnits, length_units]
      exact reads.room
    rw [getUtf8String_of_terminated bigEndian unicode (by rw [length_nameUnits]; exact reads.fits) room]
    cases bigEndian with
    | false => rfl
    | true =>
        rw [(decodeLossy_nameUnits_iff _).2 reads.alike]
        rfl

/-- A header whose data is a name. -/
def nameHeader (data : Bytes) : Header :=
  { smallHeader 17 with data }

/-- The unit 4141, its terminator and one unit more. -/
theorem names_read_alike_palindrome :
    17 ≤ (nameHeader [0x41, 0x41, 0, 0, 0, 0]).majorVersion ∧
      ∀ bigEndian, getUtf8String bigEndian (nameHeader [0x41, 0x41, 0, 0, 0, 0]) 0 =
        .ret (littleEndianText [0x41, 0x41, 0, 0, 0, 0]) :=
  ⟨by decide, (names_read_alike_iff (nameHeader [0x41, 0x41, 0, 0, 0, 0]) 0 (by decide)).2
    ⟨by decide, by decide, fun i inside => .inl (by
      obtain rfl : i = 0 := Nat.lt_one_iff.1 inside
      rfl)⟩⟩

/-- The name "A" is U+4100 on a big-endian host. -/
theorem letter_read_as_ideograph :
    littleEndianText [0x41, 0, 0, 0, 0, 0] = [0x41] ∧
      getUtf8String false (nameHeader [0x41, 0, 0, 0, 0, 0]) 0 = .ret [0x41] ∧
      getUtf8String true (nameHeader [0x41, 0, 0, 0, 0, 0]) 0 = .ret [0xE4, 0x84, 0x80] := by
  refine ⟨by decide, by decide, by decide⟩

end Unshield
