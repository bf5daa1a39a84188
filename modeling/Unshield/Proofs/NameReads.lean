/-
Module: Unshield.Proofs.NameReads
Purpose: What the conversion of a Unicode name reads and writes: it reads one unit behind the terminator,
  and what it returns is the whole name whatever that unit is.
Trusted boundary: none
Main exports: withUnits, getUtf8String_withUnits_iff, StopsAtTerminator, names_read_past_terminator,
  names_converted_completely
-/
import Unshield.Proofs.ConverterBuffers
import Unshield.Proofs.NameEncoding

namespace Unshield

open Procedure Unicode

/-! ### What is read -/

/-- The header with its data cut off behind the first `k` units from `p` on. -/
def withUnits (header : Header) (p k : Nat) : Header :=
  { header with data := header.data.take (p + 2 * k) }

theorem units_take (bigEndian : Bool) (bytes : Bytes) (k : Nat) :
    units bigEndian (bytes.take (2 * k)) = (units bigEndian bytes).take k := by
  induction k generalizing bytes with
  | zero => rfl
  | succ k ih =>
      match bytes with
      | [] => rfl
      | [_] => rfl
      | one :: two :: rest =>
          rw [Nat.mul_succ, List.take_succ_cons, List.take_succ_cons, units, units, List.take_succ_cons, ih]

theorem units_withUnits (bigEndian : Bool) (header : Header) (p k : Nat) :
    units bigEndian ((withUnits header p k).data.drop p) = (units bigEndian (header.data.drop p)).take k := by
  rw [← units_take, withUnits, List.drop_take, Nat.add_sub_cancel_left]

theorem length_nameUnits_lt {bigEndian : Bool} {bytes : Bytes} (terminated : 0 ∈ units bigEndian bytes) :
    (nameUnits bigEndian bytes).length < (units bigEndian bytes).length := by
  have front : nameUnits bigEndian bytes <+: units bigEndian bytes := List.takeWhile_prefix _
  rcases Nat.lt_or_eq_of_le front.length_le with lt | same
  · exact lt
  · have no_zero := zero_notMem_nameUnits bigEndian bytes
    rw [front.eq_of_length same] at no_zero
    exact absurd terminated no_zero

theorem nameUnits_withUnits (bigEndian : Bool) (header : Header) (p k : Nat) :
    nameUnits bigEndian ((withUnits header p k).data.drop p) =
      (nameUnits bigEndian (header.data.drop p)).take k := by
  rw [nameUnits, units_withUnits, nameUnits, List.take_takeWhile]

/-- The call returns a string only if the data reaches one unit beyond the terminator. -/
theorem room_of_getUtf8String {bigEndian : Bool} {header : Header} {p k : Nat} {text : Bytes}
    (unicode : 17 ≤ header.majorVersion) (inside : k ≤ (units bigEndian (header.data.drop p)).length)
    (returned : getUtf8String bigEndian (withUnits header p k) p = .ret text) :
    (nameUnits bigEndian (header.data.drop p)).length + 2 ≤ k := by
  have reach : (nameUnits bigEndian ((withUnits header p k).data.drop p)).length + 2 ≤
      (units bigEndian ((withUnits header p k).data.drop p)).length := by
    by_contra short
    exact @getUtf8String_of_short (withUnits header p k) p bigEndian unicode short text returned
  rw [nameUnits_withUnits, List.length_take, units_withUnits, List.length_take_of_le inside] at reach
  omega

/-- If an `int` can tell the size of the buffer, that is enough. -/
theorem getUtf8String_withUnits_iff (bigEndian : Bool) {header : Header} {p k : Nat}
    (unicode : 17 ≤ header.majorVersion) (inside : k ≤ (units bigEndian (header.data.drop p)).length)
    (fits : BufferFits (nameUnits bigEndian (header.data.drop p)).length) :
    (∃ text, getUtf8String bigEndian (withUnits header p k) p = .ret text) ↔
      (nameUnits bigEndian (header.data.drop p)).length + 2 ≤ k := by
  constructor
  · rintro ⟨text, returned⟩
    exact room_of_getUtf8String unicode inside returned
  · intro room
    have name : nameUnits bigEndian ((withUnits header p k).data.drop p) =
        nameUnits bigEndian (header.data.drop p) := by
      rw [nameUnits_withUnits, List.take_of_length_le (by omega)]
    refine ⟨_, @getUtf8String_of_terminated (withUnits header p k) p bigEndian unicode ?_ ?_⟩
    · rw [name]
      exact fits
    · rw [name, units_withUnits, List.length_take_of_le inside]
      exact room

/-- The call on the name at `p` reads no unit behind its terminator: it comes back also where the data ends
with the terminator. -/
def StopsAtTerminator (bigEndian : Bool) (header : Header) (p : Nat) : Prop :=
  ∃ text, getUtf8String bigEndian
    (withUnits header p ((nameUnits bigEndian (header.data.drop p)).length + 1)) p = .ret text

/-- No name of a header of version 17 or later is read only up to its terminator. -/
theorem names_read_past_terminator (bigEndian : Bool) (header : Header) (p : Nat)
    (unicode : 17 ≤ header.majorVersion) (terminated : 0 ∈ units bigEndian (header.data.drop p)) :
    ¬ StopsAtTerminator bigEndian header p := by
  have last := length_nameUnits_lt terminated
  rintro ⟨text, returned⟩
  have room := room_of_getUtf8String unicode (Nat.succ_le_of_lt last) returned
  omega

/-- The name "A" at the end of the data, and with a unit behind it. -/
theorem names_read_past_terminator_letter :
    17 ≤ (nameHeader [0x41, 0, 0, 0, 0, 0]).majorVersion ∧
      ¬ StopsAtTerminator false (nameHeader [0x41, 0, 0, 0, 0, 0]) 0 :=
  ⟨by decide, names_read_past_terminator false (nameHeader [0x41, 0, 0, 0, 0, 0]) 0 (by decide) (by decide)⟩

theorem last_name_read_outside :
    0 ∈ units false ((nameHeader [0x41, 0, 0, 0]).data.drop 0) ∧
      getUtf8String false (nameHeader [0x41, 0, 0, 0]) 0 = .fault ∧
      ¬ StopsAtTerminator false (nameHeader [0x41, 0, 0, 0]) 0 := by
  have fault : getUtf8String false (nameHeader [0x41, 0, 0, 0]) 0 = .fault := by decide
  refine ⟨by decide, fault, ?_⟩
  rintro ⟨text, returned⟩
  cases fault.symm.trans returned

/-! ### What is written -/

theorem nameUnits_terminated {bigEndian : Bool} {bytes : Bytes} {name behind : List UInt16}
    (nonzero : 0 ∉ name) (stands : units bigEndian bytes = name ++ 0 :: behind) :
    nameUnits bigEndian bytes = name := by
  rw [nameUnits, stands, Occurrence.takeWhile_terminated nonzero]

/-- A name in front of its terminator and one unit more is converted without a loss into the buffer that is
allocated for it: as many bytes are written as the query announces, and up to the first zero they are
the conversion of the name, whatever stands behind the terminator.  So it is in a header too, as long as an
`int` can tell the size of the buffer. -/
theorem names_converted_completely (name : List UInt16) (nonzero : 0 ∉ name) :
    ∃ text, Utf16ToUtf8Writes name text ∧ 0 ∉ text ∧ ∀ (u : UInt16) (rest : List UInt16),
      let utf16 := name ++ 0 :: u :: rest
      let length := name.length + 1
      let bufferSize := 3 * length + 1
      strlenUtf16 utf16 = .ret length ∧
      (∃ written target, utf16ToUtf8 utf16 (length + 1) none bufferSize = some (written, none) ∧
        written ≤ bufferSize ∧
        utf16ToUtf8 utf16 (length + 1) (some (List.replicate bufferSize 0)) bufferSize =
          some (written, some target) ∧
        cString target 0 = .ret text) ∧
      ∀ (bigEndian : Bool) (header : Header) (p : Nat), 17 ≤ header.majorVersion →
        BufferFits name.length → units bigEndian (header.data.drop p) = utf16 →
          getUtf8String bigEndian header p = .ret text := by
  have nonnull := Utf8.zero_notMem_encode (Utf16.decodeLossy_nonnull nonzero)
  refine ⟨_, utf16ToUtf8_writes_decodeLossy name, nonnull, fun u rest => ?_⟩
  have inside : name.length + 2 ≤ (name ++ 0 :: u :: rest).length := by simp
  have announced := utf16ToUtf8_query inside (3 * (name.length + 1) + 1)
  have fits := length_encode_terminated_le name u rest
  rw [encode_terminated] at announced fits
  obtain ⟨behind, converted⟩ := utf16ToUtf8_terminated name u rest
  refine ⟨strlenUtf16_terminated nonzero _, ⟨_, _, announced, fits, converted,
    cString_terminated nonnull behind⟩, ?_⟩
  intro bigEndian header p unicode small stands
  have same : nameUnits bigEndian (header.data.drop p) = name := nameUnits_terminated nonzero stands
  have room : (nameUnits bigEndian (header.data.drop p)).length + 2 ≤
      (units bigEndian (header.data.drop p)).length := by
    rw [same, stands]
    exact inside
  rw [getUtf8String_of_terminated bigEndian unicode (by rw [same]; exact small) room, same]

/-- A name of three units that take three bytes each, the last one a surrogate without its pair, with the
other half of the pair behind the terminator: no room is left but for what that one needs. -/
theorem names_converted_completely_surrogate :
    ∃ text, Utf16ToUtf8Writes [0x20AC, 0x4E2D, 0xD83D] text ∧
      getUtf8String false
        (nameHeader [0xAC, 0x20, 0x2D, 0x4E, 0x3D, 0xD8, 0, 0, 0x00, 0xDE]) 0 = .ret text := by
  obtain ⟨text, writes, _, converted⟩ := names_converted_completely [0x20AC, 0x4E2D, 0xD83D] (by decide)
  exact ⟨text, writes, (converted 0xDE00 []).2.2 false
    (nameHeader [0xAC, 0x20, 0x2D, 0x4E, 0x3D, 0xD8, 0, 0, 0x00, 0xDE]) 0
    (by decide) (by decide) (by decide)⟩

end Unshield
