/-
Module: Unshield.Proofs.ConverterBuffers
Purpose: The converters with output buffers of every length: the NULL-buffer query announces what a
  conversion writes, a buffer that is too small keeps its bounds, and what it gets is the front of the
  conversion unless a narrow code point is written behind one that was dropped.
Trusted boundary: none
Main exports: convertNoting, SizingAgrees, sizing_agrees, CutsUtf8, CutsUtf16, small_buffer_cuts_iff,
  converters_resynchronise
-/
import Unshield.Proofs.ConverterRoundTrip

namespace Unshield

open Unicode

/-! ### What the loop moves over -/

/-- The loop of the converters with a note of the input units that each step moves over. -/
def convertNoting {β : Type} (decode : Nat → Option (Codepoint × Nat)) (inputLen : Nat)
    (calculateLen : Codepoint → Nat)
    (encode : Codepoint → List β → Nat → Option (Nat × List β)) :
    Nat → Nat → Nat → Option (List β) → Option ((Nat × Option (List β)) × List Nat)
  | 0, _, _, _ => none
  | fuel + 1, inputIndex, outputIndex, output =>
      if inputIndex < inputLen then do
        let (codepoint, last) ← decode inputIndex
        let (size, output) ←
          match output with
          | none => some (calculateLen codepoint, none)
          | some buffer => (encode codepoint buffer outputIndex).map fun stored => (stored.1, some stored.2)
        let (result, noted) ←
          convertNoting decode inputLen calculateLen encode fuel (last + 1) (outputIndex + size) output
        some (result, List.range' inputIndex (last + 1 - inputIndex) ++ noted)
      else
        some ((outputIndex, output), [])

section Noting

variable {β : Type} {decode : Nat → Option (Codepoint × Nat)} {inputLen : Nat}
  (calculateLen : Codepoint → Nat) (encode : Codepoint → List β → Nat → Option (Nat × List β))

theorem range'_split {first last past : Nat} (forward : first ≤ last) (within : last < past) :
    List.range' first (last + 1 - first) ++ List.range' (last + 1) (past - (last + 1)) =
      List.range' first (past - first) := by
  have joined := @List.range'_append first (last + 1 - first) (past - (last + 1)) 1
  rw [Nat.one_mul, show first + (last + 1 - first) = last + 1 by omega,
    show last + 1 - first + (past - (last + 1)) = past - first by omega] at joined
  exact joined

/-- With and without an output the loop moves over the units that are left, each of them once. -/
theorem convertNoting_eq {index : Nat} {chars : List Char}
    (stays : ∀ {first last : Nat} {codepoint : Codepoint}, first < inputLen →
      decode first = some (codepoint, last) → last < inputLen)
    (decodes : Decodes decode inputLen index chars) :
    ∀ (fuel outputIndex : Nat) (output : Option (List β)), inputLen - index < fuel →
      convertNoting decode inputLen calculateLen encode fuel index outputIndex output =
        (convert decode inputLen calculateLen encode fuel index outputIndex output).map
          fun result => (result, List.range' index (inputLen - index)) := by
  induction decodes with
  | @done index past =>
      intro fuel outputIndex output enough
      obtain ⟨fuel, rfl⟩ := Nat.exists_eq_succ_of_ne_zero (by omega : fuel ≠ 0)
      rw [convertNoting, convert, if_neg (by omega), if_neg (by omega), Nat.sub_eq_zero_of_le past]
      rfl
  | @step index last c chars within decoded advance rest ih =>
      intro fuel outputIndex output enough
      obtain ⟨fuel, rfl⟩ := Nat.exists_eq_succ_of_ne_zero (by omega : fuel ≠ 0)
      have joined := range'_split advance (stays within decoded)
      rw [convertNoting, convert, if_pos within, if_pos within, decoded]
      cases output with
      | none =>
          simp only [Option.bind_eq_bind, Option.bind_some]
          rw [ih _ _ _ (by omega), ← joined]
          cases convert decode inputLen calculateLen encode fuel (last + 1) _ none <;> rfl
      | some buffer =>
          simp only [Option.bind_eq_bind, Option.bind_some]
          cases encode c.val buffer outputIndex with
          | none => rfl
          | some stored =>
              simp only [Option.map_some, Option.bind_some]
              rw [ih _ _ _ (by omega), ← joined]
              cases convert decode inputLen calculateLen encode fuel (last + 1) _ (some stored.2) <;> rfl

end Noting

/-- `utf16_to_utf8` with a note of the units that it moves over. -/
def utf16ToUtf8Noting (utf16 : List UInt16) (utf16Len : Nat) (utf8 : Option (List UInt8))
    (utf8Len : Nat) : Option ((Nat × Option (List UInt8)) × List Nat) :=
  convertNoting (decodeUtf16 utf16 utf16Len) utf16Len calculateUtf8Len
    (fun codepoint buffer => encodeUtf8 codepoint buffer utf8Len) (utf16Len + 1) 0 0 utf8

/-- `utf8_to_utf16` with a note of the units that it moves over. -/
def utf8ToUtf16Noting (utf8 : List UInt8) (utf8Len : Nat) (utf16 : Option (List UInt16))
    (utf16Len : Nat) : Option ((Nat × Option (List UInt16)) × List Nat) :=
  convertNoting (decodeUtf8 utf8 utf8Len) utf8Len calculateUtf16Len
    (fun codepoint buffer => encodeUtf16 codepoint buffer utf16Len) (utf8Len + 1) 0 0 utf16

theorem utf16ToUtf8Noting_eq (utf16 : List UInt16) (utf8 : Option (List UInt8)) (utf8Len : Nat) :
    utf16ToUtf8Noting utf16 utf16.length utf8 utf8Len =
      (utf16ToUtf8 utf16 utf16.length utf8 utf8Len).map
        fun result => (result, List.range utf16.length) := by
  have noted := convertNoting_eq calculateUtf8Len
    (fun codepoint buffer => encodeUtf8 codepoint buffer utf8Len)
    (fun within decoded => by
      obtain ⟨c, last, decoded', _, inside, _⟩ := decodeUtf16_step le_rfl within
      obtain ⟨-, rfl⟩ := Prod.mk.inj (Option.some.inj (decoded.symm.trans decoded'))
      exact inside)
    (@decodes_utf16 utf16 _ le_rfl 0) (utf16.length + 1) 0 utf8 (by omega)
  rw [Nat.sub_zero, ← List.range_eq_range'] at noted
  exact noted

theorem utf8ToUtf16Noting_eq (utf8 : List UInt8) (utf16 : Option (List UInt16)) (utf16Len : Nat) :
    utf8ToUtf16Noting utf8 utf8.length utf16 utf16Len =
      (utf8ToUtf16 utf8 utf8.length utf16 utf16Len).map
        fun result => (result, List.range utf8.length) := by
  have noted := convertNoting_eq calculateUtf16Len
    (fun codepoint buffer => encodeUtf16 codepoint buffer utf16Len)
    (fun within decoded => by
      obtain ⟨c, last, decoded', _, inside, _⟩ := decodeUtf8_step le_rfl within
      obtain ⟨-, rfl⟩ := Prod.mk.inj (Option.some.inj (decoded.symm.trans decoded'))
      exact inside)
    (@decodes_utf8 utf8 _ le_rfl 0) (utf8.length + 1) 0 utf16 (by omega)
  rw [Nat.sub_zero, ← List.range_eq_range'] at noted
  exact noted

/-! ### Buffers of every length -/

/-- What is written of the code points into `room` units of output. -/
def packedText {β : Type} (standard : Char → List β) (room : Nat) (chars : List Char) : List β :=
  (Packing.pack (encodedLength standard) room chars).flatMap standard

theorem length_packedText_le {β : Type} (standard : Char → List β) (room : Nat) (chars : List Char) :
    (packedText standard room chars).length ≤ room := by
  rw [packedText, length_flatMap_eq_total]
  exact Packing.total_pack_le _ room chars

theorem packedText_of_fits {β : Type} {standard : Char → List β} {room : Nat} {chars : List Char}
    (fits : (chars.flatMap standard).length ≤ room) :
    packedText standard room chars = chars.flatMap standard := by
  rw [length_flatMap_eq_total] at fits
  rw [packedText, Packing.pack_of_fits _ fits]

theorem overwrite_zero {β : Type} (buffer units : List β) :
    Buffer.overwrite buffer 0 units = units ++ buffer.drop units.length := by
  simp [Buffer.overwrite]

/-- The query on the front of an array. -/
theorem utf16ToUtf8_query {utf16 : List UInt16} {utf16Len : Nat} (inside : utf16Len ≤ utf16.length)
    (ignored : Nat) :
    utf16ToUtf8 utf16 utf16Len none ignored =
      some ((Utf8.encode (Utf16.decodeLossy (utf16.take utf16Len))).length, none) := by
  have decodes := decodes_utf16 inside 0
  have announced := convert_null (fun codepoint buffer => encodeUtf8 codepoint buffer ignored)
    calculateUtf8Len_char decodes (utf16Len + 1) 0 (by omega)
  rw [List.drop_zero, Nat.zero_add] at announced
  exact announced

/-- Into an output of any length the code points are written that are packed into it. -/
theorem utf16ToUtf8_packed {utf16 : List UInt16} {utf16Len : Nat} (inside : utf16Len ≤ utf16.length)
    {buffer : List UInt8} {utf8Len : Nat} (room : utf8Len ≤ buffer.length) :
    let text := packedText String.utf8EncodeChar utf8Len (Utf16.decodeLossy (utf16.take utf16Len))
    utf16ToUtf8 utf16 utf16Len (some buffer) utf8Len =
      some (text.length, some (text ++ buffer.drop text.length)) := by
  have decodes := decodes_utf16 inside 0
  have packed := convert_packed calculateUtf8Len (encodes_utf8 utf8Len) decodes (utf16Len + 1) 0 buffer
    (by omega) (Nat.zero_le _) room
  simp only [List.drop_zero, Nat.sub_zero, Nat.zero_add, overwrite_zero] at packed
  exact packed

theorem utf8ToUtf16_packed {utf8 : List UInt8} {utf8Len : Nat} (inside : utf8Len ≤ utf8.length)
    {buffer : List UInt16} {utf16Len : Nat} (room : utf16Len ≤ buffer.length) :
    let text := packedText Utf16.encodeChar utf16Len (Utf8.decodeLossy (utf8.take utf8Len))
    utf8ToUtf16 utf8 utf8Len (some buffer) utf16Len =
      some (text.length, some (text ++ buffer.drop text.length)) := by
  have decodes := decodes_utf8 inside 0
  have packed := convert_packed calculateUtf16Len (encodes_utf16 utf16Len) decodes (utf8Len + 1) 0 buffer
    (by omega) (Nat.zero_le _) room
  simp only [List.drop_zero, Nat.sub_zero, Nat.zero_add, overwrite_zero] at packed
  exact packed

/-- The converting pass of a converter agrees with its sizing pass.  An output is a block with a length
that is at most the block's; the result being `some` also says that no unit outside the input was read
and none outside the block stored. -/
structure SizingAgrees {α β : Type} (input : List α)
    (call : Option (List β) → Nat → Option (Nat × Option (List β)))
    (noting : Option (List β) → Nat → Option ((Nat × Option (List β)) × List Nat)) : Prop where
  /-- One number of units is announced, and that many are written into every output with room for
  them, whatever stood there. -/
  fills : ∃ units : List β, (∀ ignored, call none ignored = some (units.length, none)) ∧
    ∀ block len, units.length ≤ len → len ≤ block.length →
      call (some block) len = some (units.length, some (units ++ block.drop units.length))
  /-- Nothing at or beyond the length is written. -/
  bounded : ∀ block len, len ≤ block.length → ∃ size written,
    call (some block) len = some (size, some written) ∧ size ≤ len ∧
      written.length = block.length ∧ written.drop len = block.drop len
  /-- Every unit of the input is moved over, once and in order. -/
  visits : ∀ output len, (∀ block ∈ output, len ≤ block.length) → ∃ result,
    call output len = some result ∧ noting output len = some (result, List.range input.length)

/-- What is written into a block within a length leaves the rest of the block as it was. -/
theorem drop_append_drop {β : Type} {units block : List β} {len : Nat} (small : units.length ≤ len)
    (room : len ≤ block.length) :
    (units ++ block.drop units.length).length = block.length ∧
      (units ++ block.drop units.length).drop len = block.drop len := by
  constructor
  · rw [List.length_append, List.length_drop]
    omega
  · rw [List.drop_append, List.drop_of_length_le small, List.nil_append, List.drop_drop,
      Nat.add_sub_cancel' small]

/-- A call that announces all of a text and writes what fits of it. -/
theorem SizingAgrees.of_packed {α β : Type} {standard : Char → List β} {input : List α}
    {chars : List Char} {call : Option (List β) → Nat → Option (Nat × Option (List β))}
    {noting : Option (List β) → Nat → Option ((Nat × Option (List β)) × List Nat)}
    (announced : ∀ ignored, call none ignored = some ((chars.flatMap standard).length, none))
    (packed : ∀ block len, len ≤ block.length → call (some block) len =
      some ((packedText standard len chars).length,
        some (packedText standard len chars ++ block.drop (packedText standard len chars).length)))
    (noted : ∀ output len, noting output len =
      (call output len).map fun result => (result, List.range input.length)) :
    SizingAgrees input call noting where
  fills := by
    refine ⟨_, announced, ?_⟩
    intro block len fits room
    rw [packed block len room, packedText_of_fits fits]
  bounded := by
    intro block len room
    have small := length_packedText_le standard len chars
    exact ⟨_, _, packed block len room, small, drop_append_drop small room⟩
  visits := by
    intro output len room
    rw [noted]
    cases output with
    | none => exact ⟨_, announced len, by rw [announced len]; rfl⟩
    | some block =>
        have written := packed block len (room block rfl)
        exact ⟨_, written, by rw [written]; rfl⟩

theorem utf16ToUtf8_sizingAgrees (utf16 : List UInt16) :
    SizingAgrees utf16 (utf16ToUtf8 utf16 utf16.length) (utf16ToUtf8Noting utf16 utf16.length) := by
  refine .of_packed (utf16ToUtf8_writes_decodeLossy utf16).query ?_ (utf16ToUtf8Noting_eq utf16)
  intro block len room
  have packed := @utf16ToUtf8_packed utf16 _ le_rfl block len room
  rw [List.take_length] at packed
  exact packed

theorem utf8ToUtf16_sizingAgrees (utf8 : List UInt8) :
    SizingAgrees utf8 (utf8ToUtf16 utf8 utf8.length) (utf8ToUtf16Noting utf8 utf8.length) := by
  refine .of_packed (utf8ToUtf16_writes_decodeLossy utf8).query ?_ (utf8ToUtf16Noting_eq utf8)
  intro block len room
  have packed := @utf8ToUtf16_packed utf8 _ le_rfl block len room
  rw [List.take_length] at packed
  exact packed

/-- Both converters, on every input, announce what they write, and keep within every output. -/
theorem sizing_agrees :
    (∀ utf16 : List UInt16, SizingAgrees utf16 (utf16ToUtf8 utf16 utf16.length)
      (utf16ToUtf8Noting utf16 utf16.length)) ∧
    (∀ utf8 : List UInt8, SizingAgrees utf8 (utf8ToUtf16 utf8 utf8.length)
      (utf8ToUtf16Noting utf8 utf8.length)) :=
  ⟨utf16ToUtf8_sizingAgrees, utf8ToUtf16_sizingAgrees⟩

/-! ### Outputs that are too small -/

/-- A call on an output of `len` units writes the front, up to a code point, of what the conversion into
an output without limit writes. -/
structure Cuts {β : Type} (standard : Char → List β) (all : List β) (len : Nat)
    (call : Option (List β) → Nat → Option (Nat × Option (List β))) (kept dropped : List Char) : Prop where
  whole : all = (kept ++ dropped).flatMap standard
  front : ∀ block, len ≤ block.length → call (some block) len =
    some ((kept.flatMap standard).length,
      some (kept.flatMap standard ++ block.drop (kept.flatMap standard).length))

/-- `utf16_to_utf8` with `len` units of output cuts its text. -/
def CutsUtf8 (utf16 : List UInt16) (len : Nat) : Prop :=
  ∃ all kept dropped, Utf16ToUtf8Writes utf16 all ∧
    Cuts String.utf8EncodeChar all len (utf16ToUtf8 utf16 utf16.length) kept dropped

/-- `utf8_to_utf16` with `len` units of output cuts its text. -/
def CutsUtf16 (utf8 : List UInt8) (len : Nat) : Prop :=
  ∃ all kept dropped, Utf8ToUtf16Writes utf8 all ∧
    Cuts Utf16.encodeChar all len (utf8ToUtf16 utf8 utf8.length) kept dropped

theorem flatMap_utf8_injective : Function.Injective (List.flatMap String.utf8EncodeChar) := encode_injective

theorem flatMap_utf16_injective : Function.Injective (List.flatMap Utf16.encodeChar) :=
  Function.LeftInverse.injective Utf16.decodeLossy_encode

/-- What is packed is the front of the text exactly if no code point fits behind one that does not. -/
theorem Cuts.iff_of_packed {β : Type} {standard : Char → List β}
    (injective : Function.Injective (List.flatMap standard)) {chars : List Char} {len : Nat}
    {call : Option (List β) → Nat → Option (Nat × Option (List β))}
    (packed : ∀ block, len ≤ block.length → call (some block) len =
      some ((packedText standard len chars).length,
        some (packedText standard len chars ++ block.drop (packedText standard len chars).length)))
    (some_block : ∃ block : List β, len = block.length) :
    (∃ kept dropped, Cuts standard (chars.flatMap standard) len call kept dropped) ↔
      Packing.NoneFitsBehind (encodedLength standard) len chars := by
  rw [← Packing.pack_prefix_iff]
  constructor
  · rintro ⟨kept, dropped, cuts⟩
    obtain ⟨block, size⟩ := some_block
    have written := (packed block size.le).symm.trans (cuts.front block size.le)
    simp only [Option.some.injEq, Prod.mk.injEq] at written
    obtain ⟨lengths, texts⟩ := written
    have same := (List.append_inj texts lengths).1
    obtain rfl := injective same
    exact ⟨dropped, (injective cuts.whole).symm⟩
  · rintro ⟨dropped, split⟩
    exact ⟨_, dropped, by rw [split], packed⟩

theorem cutsUtf8_iff (utf16 : List UInt16) (len : Nat) :
    CutsUtf8 utf16 len ↔
      Packing.NoneFitsBehind (encodedLength String.utf8EncodeChar) len (Utf16.decodeLossy utf16) := by
  have whole := utf16ToUtf8_writes_decodeLossy utf16
  have packed : ∀ block : List UInt8, len ≤ block.length → _ := fun block room =>
    @utf16ToUtf8_packed utf16 _ le_rfl block len room
  rw [List.take_length] at packed
  rw [← Cuts.iff_of_packed flatMap_utf8_injective packed ⟨List.replicate len 0, by simp⟩]
  constructor
  · rintro ⟨all, kept, dropped, writes, cuts⟩
    obtain rfl := writes.unique whole
    exact ⟨kept, dropped, cuts⟩
  · rintro ⟨kept, dropped, cuts⟩
    exact ⟨_, kept, dropped, whole, cuts⟩

theorem cutsUtf16_iff (utf8 : List UInt8) (len : Nat) :
    CutsUtf16 utf8 len ↔
      Packing.NoneFitsBehind (encodedLength Utf16.encodeChar) len (Utf8.decodeLossy utf8) := by
  have whole := utf8ToUtf16_writes_decodeLossy utf8
  have packed : ∀ block : List UInt16, len ≤ block.length → _ := fun block room =>
    @utf8ToUtf16_packed utf8 _ le_rfl block len room
  rw [List.take_length] at packed
  rw [← Cuts.iff_of_packed flatMap_utf16_injective packed ⟨List.replicate len 0, by simp⟩]
  constructor
  · rintro ⟨all, kept, dropped, writes, cuts⟩
    obtain rfl := writes.unique whole
    exact ⟨kept, dropped, cuts⟩
  · rintro ⟨kept, dropped, cuts⟩
    exact ⟨_, kept, dropped, whole, cuts⟩

/-- An output that is too small gets the front of the text exactly if, behind the first code point that
has no room in its turn, none is narrow enough to have room there. -/
theorem small_buffer_cuts_iff (utf16 : List UInt16) (utf8 : List UInt8) (len : Nat) :
    (CutsUtf8 utf16 len ↔ Packing.NoneFitsBehind (fun c => (String.utf8EncodeChar c).length) len
      (Utf16.decodeLossy utf16)) ∧
    (CutsUtf16 utf8 len ↔ Packing.NoneFitsBehind (fun c => (Utf16.encodeChar c).length) len
      (Utf8.decodeLossy utf8)) :=
  ⟨cutsUtf8_iff utf16 len, cutsUtf16_iff utf8 len⟩

/-- The euro sign does not fit into one byte, but the letter behind it is written; likewise for a pair
and the letter behind it in one unit. -/
theorem letter_written_behind_dropped :
    utf16ToUtf8 [0x20AC, 0x41] 2 (some [0]) 1 = some (1, some [0x41]) ∧ ¬ CutsUtf8 [0x20AC, 0x41] 1 ∧
    utf8ToUtf16 [0xF0, 0x9F, 0x98, 0x80, 0x41] 5 (some [0]) 1 = some (1, some [0x41]) ∧
      ¬ CutsUtf16 [0xF0, 0x9F, 0x98, 0x80, 0x41] 1 := by
  refine ⟨by decide, ?_, by decide, ?_⟩
  · rw [cutsUtf8_iff]
    intro full
    have read : Utf16.decodeLossy [0x20AC, 0x41] = [Char.ofNat 0x20AC, 'A'] := by decide
    rw [read] at full
    have beyond := full [] (Char.ofNat 0x20AC) ['A'] rfl (Nat.zero_le _) (by decide) 'A' List.mem_cons_self
    exact absurd beyond (by decide)
  · rw [cutsUtf16_iff]
    intro full
    have read : Utf8.decodeLossy [0xF0, 0x9F, 0x98, 0x80, 0x41] = [Char.ofNat 0x1F600, 'A'] :=
      decodeLossy_utf8_encode [Char.ofNat 0x1F600, 'A']
    rw [read] at full
    have beyond := full [] (Char.ofNat 0x1F600) ['A'] rfl (Nat.zero_le _) (by decide) 'A' List.mem_cons_self
    exact absurd beyond (by decide)

/-! ### Inputs in two parts -/

/-- The UTF-8 converter starts afresh at every byte that is no continuation byte, and the UTF-16 converter
between any two units that make no surrogate pair; what follows an ill-formed sequence is read in full. -/
theorem converters_resynchronise :
    (∀ one two : List UInt8, (∀ b ∈ two.head?, ¬ Utf8.Tail b) → ∃ front back,
      Utf8ToUtf16Writes one front ∧ Utf8ToUtf16Writes two back ∧
        Utf8ToUtf16Writes (one ++ two) (front ++ back)) ∧
    (∀ one two : List UInt16,
      (∀ u ∈ one.getLast?, ∀ v ∈ two.head?, ¬ (Utf16.IsHigh u ∧ Utf16.IsLow v)) → ∃ front back,
      Utf16ToUtf8Writes one front ∧ Utf16ToUtf8Writes two back ∧
        Utf16ToUtf8Writes (one ++ two) (front ++ back)) ∧
    (∀ (bytes : List UInt8) (chars : List Char), ∃ front, Utf8ToUtf16Writes bytes front ∧
      Utf8ToUtf16Writes (bytes ++ Utf8.encode chars) (front ++ Utf16.encode chars)) ∧
    (∀ (units : List UInt16) (chars : List Char), ∃ front, Utf16ToUtf8Writes units front ∧
      Utf16ToUtf8Writes (units ++ Utf16.encode chars) (front ++ Utf8.encode chars)) := by
  have bytes (one two : List UInt8) (starts : ∀ b ∈ two.head?, ¬ Utf8.Tail b) :
      Utf8ToUtf16Writes (one ++ two)
        (Utf16.encode (Utf8.decodeLossy one) ++ Utf16.encode (Utf8.decodeLossy two)) := by
    rw [← Utf16.encode_append, ← Utf8.decodeLossy_append one two starts]
    exact utf8ToUtf16_writes_decodeLossy _
  have units (one two : List UInt16)
      (uncut : ∀ u ∈ one.getLast?, ∀ v ∈ two.head?, ¬ (Utf16.IsHigh u ∧ Utf16.IsLow v)) :
      Utf16ToUtf8Writes (one ++ two)
        (Utf8.encode (Utf16.decodeLossy one) ++ Utf8.encode (Utf16.decodeLossy two)) := by
    rw [← Utf8.encode_append, ← Utf16.decodeLossy_append one two uncut]
    exact utf16ToUtf8_writes_decodeLossy _
  refine ⟨fun one two starts => ⟨_, _, utf8ToUtf16_writes_decodeLossy one,
      utf8ToUtf16_writes_decodeLossy two, bytes one two starts⟩,
    fun one two uncut => ⟨_, _, utf16ToUtf8_writes_decodeLossy one,
      utf16ToUtf8_writes_decodeLossy two, units one two uncut⟩, ?_, ?_⟩
  · intro one chars
    have joined := bytes one (Utf8.encode chars) (Utf8.not_tail_of_head?_encode chars)
    rw [decodeLossy_utf8_encode] at joined
    exact ⟨_, utf8ToUtf16_writes_decodeLossy one, joined⟩
  · intro one chars
    have joined := units one (Utf16.encode chars)
      fun _ _ v first pair => Utf16.not_low_of_head?_encode chars v first pair.2
    rw [Utf16.decodeLossy_encode] at joined
    exact ⟨_, utf16ToUtf8_writes_decodeLossy one, joined⟩

/-- A leading byte without its continuation bytes, and a high surrogate, in front of a letter. -/
theorem converters_resynchronise_letter :
    (∃ front back, Utf8ToUtf16Writes [0xE2, 0x82] front ∧ Utf8ToUtf16Writes [0x41] back ∧
      Utf8ToUtf16Writes ([0xE2, 0x82] ++ [0x41]) (front ++ back)) ∧
    (∃ front back, Utf16ToUtf8Writes [0xD800] front ∧ Utf16ToUtf8Writes [0x41] back ∧
      Utf16ToUtf8Writes ([0xD800] ++ [0x41]) (front ++ back)) := by
  constructor
  · apply converters_resynchronise.1
    intro b first
    obtain rfl := Option.some.inj first
    decide
  · apply converters_resynchronise.2.1
    intro u _ v first
    obtain rfl := Option.some.inj first
    exact fun pair => absurd pair.2 (by decide)

end Unshield
