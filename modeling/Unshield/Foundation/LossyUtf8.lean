/-
Module: Unshield.Foundation.LossyUtf8
Purpose: The lossy reading of arbitrary octets as UTF-8: an octet that leads a sequence takes the tails
  it announces, as far as they stand there, and what is no character is read as U+FFFD.
Trusted boundary: human-reviewed spec (the reading)
Main exports: Utf8.announced, Utf8.readChar, Utf8.takeTails, Utf8.decodeLossy, Utf8.decodeLossy_append
-/
import Unshield.Foundation.Unicode

namespace Unicode.Utf8

instance (b : UInt8) : Decidable (Tail b) := inferInstanceAs (Decidable (_ ∧ _))

/-- The number of tails that an octet announces when it stands at the front. -/
def announced (lead : UInt8) : Nat :=
  if lead.toNat < 0xC0 then 0
  else if lead.toNat < 0xE0 then 1
  else if lead.toNat < 0xF0 then 2
  else if lead.toNat < 0xF8 then 3
  else 0

/-- The scalar value that the octets encode, or U+FFFD if they encode none. -/
def readChar (octets : List UInt8) : Char :=
  match octets.toByteArray.utf8DecodeChar? 0 with
  | some c => if String.utf8EncodeChar c = octets then c else replacement
  | none => replacement

/-- The tails at the front, up to a number of them. -/
def takeTails : Nat → List UInt8 → List UInt8
  | 0, _ => []
  | _ + 1, [] => []
  | count + 1, b :: rest => if Tail b then b :: takeTails count rest else []

/-- The tails that belong to the leading octet. -/
def tailsOf (lead : UInt8) (rest : List UInt8) : List UInt8 := takeTails (announced lead) rest

/-- The reading of arbitrary octets. -/
def decodeLossy : List UInt8 → List Char
  | [] => []
  | lead :: rest =>
      readChar (lead :: tailsOf lead rest) :: decodeLossy (rest.drop (tailsOf lead rest).length)
termination_by octets => octets.length
decreasing_by
  rw [List.length_drop, List.length_cons]
  omega

theorem readChar_encode (c : Char) : readChar (String.utf8EncodeChar c) = c := by
  have decoded := @ByteArray.utf8DecodeChar?_utf8EncodeChar_append ByteArray.empty c
  rw [ByteArray.append_empty] at decoded
  rw [readChar, decoded]
  exact if_pos rfl

theorem readChar_of_not_encoded {octets : List UInt8}
    (no_char : ∀ c, String.utf8EncodeChar c ≠ octets) : readChar octets = replacement := by
  rw [readChar]
  split
  · exact if_neg (no_char _)
  · rfl

theorem takeTails_front (count : Nat) (rest : List UInt8) : takeTails count rest <+: rest := by
  induction count generalizing rest with
  | zero => exact List.nil_prefix
  | succ count ih =>
      cases rest with
      | nil => exact List.nil_prefix
      | cons b rest =>
          rw [takeTails]
          split_ifs
          · exact List.prefix_cons_inj b |>.2 (ih rest)
          · exact List.nil_prefix

theorem length_tailsOf_le (lead : UInt8) (rest : List UInt8) :
    (tailsOf lead rest).length ≤ rest.length := (takeTails_front _ rest).length_le

/-- An octet that is no tail ends the sequence in front of it. -/
theorem takeTails_append (count : Nat) (rest : List UInt8) {behind : List UInt8}
    (starts : ∀ b ∈ behind.head?, ¬ Tail b) :
    takeTails count (rest ++ behind) = takeTails count rest := by
  induction count generalizing rest with
  | zero => rfl
  | succ count ih =>
      cases rest with
      | nil =>
          cases behind with
          | nil => rfl
          | cons b behind =>
              rw [List.nil_append, takeTails, takeTails, if_neg (starts b rfl)]
      | cons b rest =>
          rw [List.cons_append, takeTails, takeTails, ih]

/-- Octets in front of one that is no tail are read without it. -/
theorem decodeLossy_append (one two : List UInt8) (starts : ∀ b ∈ two.head?, ¬ Tail b) :
    decodeLossy (one ++ two) = decodeLossy one ++ decodeLossy two := by
  induction one using decodeLossy.induct with
  | case1 => rw [decodeLossy, List.nil_append, List.nil_append]
  | case2 lead rest ih =>
      have within := length_tailsOf_le lead rest
      rw [List.cons_append, decodeLossy, decodeLossy, tailsOf, takeTails_append _ rest starts,
        ← tailsOf, List.drop_append_of_le_length within, ih]
      rfl

/-- No encoding starts with a tail. -/
theorem not_tail_of_head?_encode (chars : List Char) : ∀ b ∈ (encode chars).head?, ¬ Tail b := by
  cases chars with
  | nil => exact nofun
  | cons c chars =>
      rw [encode_cons]
      have lead := isChar_utf8EncodeChar c
      generalize String.utf8EncodeChar c = octets at lead
      intro b first tail
      obtain ⟨low, high⟩ := tail
      cases lead <;>
      · obtain rfl := Option.some.inj first
        omega

end Unicode.Utf8
