/-
Module: Unshield.Foundation.Unicode
Purpose: The standard UTF-8 and UTF-16 encodings of Unicode scalar values, the grammar of well-formed
  octet sequences, and the lossy reading of arbitrary 16-bit units.
Trusted boundary: human-reviewed spec (the grammar and the two encodings)
Main exports: Utf8.WellFormed, Utf8.wellFormed_iff_encoded, Utf16.encodeChar, Utf16.decodeLossy,
  Utf16.replaceUnpaired, Utf16.decodeLossy_encode, Utf16.Unpaired, Utf16.getElem?_replaceUnpaired,
  Utf16.decodeLossy_eq_iff, Utf16.Alike
-/
import Mathlib.Data.List.Basic
import Mathlib.Tactic.IntervalCases

namespace Unicode

/-!
A scalar value is a `Char`: the type already excludes surrogates and everything above U+10FFFF.  The
UTF-8 encoding of one scalar value is the core library's `String.utf8EncodeChar`.
-/

/-- U+FFFD, the character that stands for something that does not decode. -/
def replacement : Char := '\uFFFD'

/-- A number that is no surrogate and at most U+10FFFF is a scalar value. -/
theorem toNat_ofNat_of_range {n : Nat} (h : n < 0xD800 ∨ 0xDFFF < n ∧ n < 0x110000) :
    (Char.ofNat n).toNat = n := by
  have valid : n.isValidChar := h
  rw [Char.ofNat, dif_pos valid]
  rfl

theorem toNat_range (c : Char) : c.toNat < 0xD800 ∨ 0xDFFF < c.toNat ∧ c.toNat < 0x110000 :=
  c.valid

namespace Utf8

/-- `UTF8-tail = %x80-BF` -/
def Tail (b : UInt8) : Prop := 0x80 ≤ b.toNat ∧ b.toNat ≤ 0xBF

/-- `UTF8-char`: one character, an alternative of the grammar each. -/
inductive IsChar : List UInt8 → Prop where
  | one {a : UInt8} : a.toNat ≤ 0x7F → IsChar [a]
  | two {a b : UInt8} : 0xC2 ≤ a.toNat → a.toNat ≤ 0xDF → Tail b → IsChar [a, b]
  | threeE0 {a b c : UInt8} : a.toNat = 0xE0 → 0xA0 ≤ b.toNat → b.toNat ≤ 0xBF → Tail c →
      IsChar [a, b, c]
  | three {a b c : UInt8} : 0xE1 ≤ a.toNat → a.toNat ≤ 0xEF → a.toNat ≠ 0xED → Tail b → Tail c →
      IsChar [a, b, c]
  | threeED {a b c : UInt8} : a.toNat = 0xED → 0x80 ≤ b.toNat → b.toNat ≤ 0x9F → Tail c →
      IsChar [a, b, c]
  | fourF0 {a b c d : UInt8} : a.toNat = 0xF0 → 0x90 ≤ b.toNat → b.toNat ≤ 0xBF → Tail c → Tail d →
      IsChar [a, b, c, d]
  | four {a b c d : UInt8} : 0xF1 ≤ a.toNat → a.toNat ≤ 0xF3 → Tail b → Tail c → Tail d →
      IsChar [a, b, c, d]
  | fourF4 {a b c d : UInt8} : a.toNat = 0xF4 → 0x80 ≤ b.toNat → b.toNat ≤ 0x8F → Tail c → Tail d →
      IsChar [a, b, c, d]

/-- `UTF8-octets = *( UTF8-char )` -/
inductive WellFormed : List UInt8 → Prop where
  | nil : WellFormed []
  | cons {octets rest : List UInt8} : IsChar octets → WellFormed rest → WellFormed (octets ++ rest)

/-- The encoding of a sequence of scalar values. -/
def encode (chars : List Char) : List UInt8 := chars.flatMap String.utf8EncodeChar

@[simp] theorem encode_nil : encode [] = [] := rfl

@[simp] theorem encode_cons (c : Char) (chars : List Char) :
    encode (c :: chars) = String.utf8EncodeChar c ++ encode chars := rfl

/-- Every scalar value encodes to one character of the grammar. -/
theorem isChar_utf8EncodeChar (c : Char) : IsChar (String.utf8EncodeChar c) := by
  have range : c.val.toNat < 0xD800 ∨ 0xDFFF < c.val.toNat ∧ c.val.toNat < 0x110000 := c.valid
  unfold String.utf8EncodeChar
  generalize c.val.toNat = n at range
  have tail (m : Nat) : Tail (UInt8.ofNat (m % 0x40 + 0x80)) := by
    constructor <;> simp <;> omega
  simp only []
  split
  · exact .one (by simp; omega)
  · split
    · exact .two (by simp; omega) (by simp; omega) (tail n)
    · split
      · by_cases lead : n < 0x1000
        · exact .threeE0 (by simp; omega) (by simp; omega) (by simp; omega) (tail n)
        · by_cases surrogateRow : n / 4096 = 0xD
          · exact .threeED (by simp; omega) (by simp; omega) (by simp; omega) (tail n)
          · exact .three (by simp; omega) (by simp; omega) (by simp; omega) (tail _) (tail n)
      · by_cases low : n < 0x40000
        · exact .fourF0 (by simp; omega) (by simp; omega) (by simp; omega) (tail _) (tail n)
        · by_cases high : n < 0x100000
          · exact .four (by simp; omega) (by simp; omega) (tail _) (tail _) (tail n)
          · exact .fourF4 (by simp; omega) (by simp; omega) (by simp; omega) (tail _) (tail n)

theorem utf8EncodeChar_ofNat_one {n : Nat} (h : n ≤ 0x7F) :
    String.utf8EncodeChar (Char.ofNat n) = [UInt8.ofNat n] := by
  have value : (Char.ofNat n).val.toNat = n := toNat_ofNat_of_range (by omega)
  simp only [String.utf8EncodeChar, value]
  rw [if_pos (by omega)]

theorem utf8EncodeChar_ofNat_two {n : Nat} (low : 0x80 ≤ n) (high : n ≤ 0x7FF) :
    String.utf8EncodeChar (Char.ofNat n) =
      [UInt8.ofNat (n / 64 % 0x20 + 0xC0), UInt8.ofNat (n % 0x40 + 0x80)] := by
  have value : (Char.ofNat n).val.toNat = n := toNat_ofNat_of_range (by omega)
  simp only [String.utf8EncodeChar, value]
  rw [if_neg (by omega), if_pos (by omega)]

theorem utf8EncodeChar_ofNat_three {n : Nat} (low : 0x800 ≤ n) (high : n ≤ 0xFFFF)
    (valid : n < 0xD800 ∨ 0xDFFF < n) :
    String.utf8EncodeChar (Char.ofNat n) =
      [UInt8.ofNat (n / 4096 % 0x10 + 0xE0), UInt8.ofNat (n / 64 % 0x40 + 0x80),
        UInt8.ofNat (n % 0x40 + 0x80)] := by
  have value : (Char.ofNat n).val.toNat = n := toNat_ofNat_of_range (by omega)
  simp only [String.utf8EncodeChar, value]
  rw [if_neg (by omega), if_neg (by omega), if_pos (by omega)]

theorem utf8EncodeChar_ofNat_four {n : Nat} (low : 0x10000 ≤ n) (high : n ≤ 0x10FFFF) :
    String.utf8EncodeChar (Char.ofNat n) =
      [UInt8.ofNat (n / 262144 % 0x08 + 0xF0), UInt8.ofNat (n / 4096 % 0x40 + 0x80),
        UInt8.ofNat (n / 64 % 0x40 + 0x80), UInt8.ofNat (n % 0x40 + 0x80)] := by
  have value : (Char.ofNat n).val.toNat = n := toNat_ofNat_of_range (by omega)
  simp only [String.utf8EncodeChar, value]
  rw [if_neg (by omega), if_neg (by omega), if_neg (by omega)]

/-- A byte is determined by its number. -/
theorem ofNat_eq_of_toNat {b : UInt8} {n : Nat} (h : n = b.toNat) : UInt8.ofNat n = b := by
  rw [h, UInt8.ofNat_toNat]

theorem exists_encode_three {a b c : UInt8} (lead : a.toNat / 16 = 14) (tailB : Tail b)
    (tailC : Tail c) (overlong : a.toNat = 0xE0 → 0xA0 ≤ b.toNat)
    (surrogate : a.toNat = 0xED → b.toNat ≤ 0x9F) :
    ∃ char : Char, String.utf8EncodeChar char = [a, b, c] := by
  obtain ⟨lowB, highB⟩ := tailB
  obtain ⟨lowC, highC⟩ := tailC
  refine ⟨Char.ofNat ((a.toNat - 0xE0) * 4096 + (b.toNat - 0x80) * 64 + (c.toNat - 0x80)), ?_⟩
  rw [utf8EncodeChar_ofNat_three (by omega) (by omega) (by omega)]
  simp only [List.cons.injEq, and_true]
  exact ⟨ofNat_eq_of_toNat (by omega), ofNat_eq_of_toNat (by omega), ofNat_eq_of_toNat (by omega)⟩

theorem exists_encode_four {a b c d : UInt8} (lowA : 0xF0 ≤ a.toNat) (highA : a.toNat ≤ 0xF4)
    (tailB : Tail b) (tailC : Tail c) (tailD : Tail d)
    (overlong : a.toNat = 0xF0 → 0x90 ≤ b.toNat) (range : a.toNat = 0xF4 → b.toNat ≤ 0x8F) :
    ∃ char : Char, String.utf8EncodeChar char = [a, b, c, d] := by
  obtain ⟨lowB, highB⟩ := tailB
  obtain ⟨lowC, highC⟩ := tailC
  obtain ⟨lowD, highD⟩ := tailD
  refine ⟨Char.ofNat ((a.toNat - 0xF0) * 262144 + (b.toNat - 0x80) * 4096 +
    (c.toNat - 0x80) * 64 + (d.toNat - 0x80)), ?_⟩
  rw [utf8EncodeChar_ofNat_four (by omega) (by omega)]
  simp only [List.cons.injEq, and_true]
  exact ⟨ofNat_eq_of_toNat (by omega), ofNat_eq_of_toNat (by omega), ofNat_eq_of_toNat (by omega),
    ofNat_eq_of_toNat (by omega)⟩

/-- Every character of the grammar is the encoding of a scalar value. -/
theorem exists_encode_of_isChar {octets : List UInt8} (h : IsChar octets) :
    ∃ char : Char, String.utf8EncodeChar char = octets := by
  cases h with
  | @one a high =>
      refine ⟨Char.ofNat a.toNat, ?_⟩
      rw [utf8EncodeChar_ofNat_one high, UInt8.ofNat_toNat]
  | @two a b low high tailB =>
      obtain ⟨lowB, highB⟩ := tailB
      refine ⟨Char.ofNat ((a.toNat - 0xC0) * 64 + (b.toNat - 0x80)), ?_⟩
      rw [utf8EncodeChar_ofNat_two (by omega) (by omega)]
      simp only [List.cons.injEq, and_true]
      exact ⟨ofNat_eq_of_toNat (by omega), ofNat_eq_of_toNat (by omega)⟩
  | threeE0 lead low high tailC =>
      exact exists_encode_three (by omega) ⟨by omega, high⟩ tailC (by omega) (by omega)
  | three low high notED tailB tailC =>
      exact exists_encode_three (by omega) tailB tailC (by omega) (by omega)
  | threeED lead low high tailC =>
      exact exists_encode_three (by omega) ⟨low, by omega⟩ tailC (by omega) (by omega)
  | fourF0 lead low high tailC tailD =>
      exact exists_encode_four (by omega) (by omega) ⟨by omega, high⟩ tailC tailD (by omega) (by omega)
  | four low high tailB tailC tailD =>
      exact exists_encode_four (by omega) (by omega) tailB tailC tailD (by omega) (by omega)
  | fourF4 lead low high tailC tailD =>
      exact exists_encode_four (by omega) (by omega) ⟨low, by omega⟩ tailC tailD (by omega) (by omega)

theorem wellFormed_encode (chars : List Char) : WellFormed (encode chars) := by
  induction chars with
  | nil => exact .nil
  | cons c chars ih => exact .cons (isChar_utf8EncodeChar c) ih

/-- The grammar derives exactly the encodings of sequences of scalar values. -/
theorem wellFormed_iff_encoded {octets : List UInt8} :
    WellFormed octets ↔ ∃ chars : List Char, octets = encode chars := by
  constructor
  · intro derivation
    induction derivation with
    | nil => exact ⟨[], rfl⟩
    | cons head _ ih =>
        obtain ⟨c, rfl⟩ := exists_encode_of_isChar head
        obtain ⟨chars, rfl⟩ := ih
        exact ⟨c :: chars, rfl⟩
  · rintro ⟨chars, rfl⟩
    exact wellFormed_encode chars

/-- Only the null character has a null byte. -/
theorem zero_notMem_utf8EncodeChar {c : Char} (nonnull : c.toNat ≠ 0) :
    0 ∉ String.utf8EncodeChar c := by
  have range := toNat_range c
  have value : Char.ofNat c.toNat = c := Char.ofNat_toNat c
  have byte : ∀ n, n ≠ 0 → n < 256 → (0 : UInt8) ≠ UInt8.ofNat n := by
    intro n nonzero small same
    have zero := congrArg UInt8.toNat same
    rw [UInt8.toNat_ofNat_of_lt' small] at zero
    exact nonzero zero.symm
  by_cases one : c.toNat ≤ 0x7F
  · rw [← value, utf8EncodeChar_ofNat_one one, List.mem_singleton]
    exact byte _ nonnull (by omega)
  · by_cases two : c.toNat ≤ 0x7FF
    · rw [← value, utf8EncodeChar_ofNat_two (by omega) two]
      simp only [List.mem_cons, List.not_mem_nil, or_false, not_or]
      exact ⟨byte _ (by omega) (by omega), byte _ (by omega) (by omega)⟩
    · by_cases three : c.toNat ≤ 0xFFFF
      · rw [← value, utf8EncodeChar_ofNat_three (by omega) three (by omega)]
        simp only [List.mem_cons, List.not_mem_nil, or_false, not_or]
        exact ⟨byte _ (by omega) (by omega), byte _ (by omega) (by omega), byte _ (by omega) (by omega)⟩
      · rw [← value, utf8EncodeChar_ofNat_four (by omega) (by omega)]
        simp only [List.mem_cons, List.not_mem_nil, or_false, not_or]
        exact ⟨byte _ (by omega) (by omega), byte _ (by omega) (by omega), byte _ (by omega) (by omega),
          byte _ (by omega) (by omega)⟩

theorem zero_notMem_encode {chars : List Char} (nonnull : ∀ c ∈ chars, c.toNat ≠ 0) :
    0 ∉ encode chars := by
  rw [encode, List.mem_flatMap]
  rintro ⟨c, member, zero⟩
  exact zero_notMem_utf8EncodeChar (nonnull c member) zero

theorem encode_append (one two : List Char) : encode (one ++ two) = encode one ++ encode two :=
  List.flatMap_append

end Utf8

namespace Utf16

/-- A high surrogate, D800 to DBFF. -/
def IsHigh (u : UInt16) : Prop := 0xD800 ≤ u.toNat ∧ u.toNat ≤ 0xDBFF

/-- A low surrogate, DC00 to DFFF. -/
def IsLow (u : UInt16) : Prop := 0xDC00 ≤ u.toNat ∧ u.toNat ≤ 0xDFFF

instance (u : UInt16) : Decidable (IsHigh u) := inferInstanceAs (Decidable (_ ∧ _))

instance (u : UInt16) : Decidable (IsLow u) := inferInstanceAs (Decidable (_ ∧ _))

/-- The scalar value of a surrogate pair. -/
def pairChar (high low : UInt16) : Char :=
  Char.ofNat (0x10000 + (high.toNat - 0xD800) * 0x400 + (low.toNat - 0xDC00))

/-- The scalar value of a unit that is in no pair: itself, or U+FFFD for a surrogate. -/
def unitChar (u : UInt16) : Char :=
  if IsHigh u ∨ IsLow u then replacement else Char.ofNat u.toNat

/-- The reading of arbitrary units: a high surrogate pairs with an immediately following low
surrogate, and every unpaired surrogate becomes U+FFFD. -/
def decodeLossy : List UInt16 → List Char
  | [] => []
  | [u] => [unitChar u]
  | u :: v :: rest =>
      if IsHigh u ∧ IsLow v then pairChar u v :: decodeLossy rest
      else unitChar u :: decodeLossy (v :: rest)

/-- The units with every unpaired surrogate replaced by FFFD. -/
def replaceUnpaired : List UInt16 → List UInt16
  | [] => []
  | [u] => [if IsHigh u ∨ IsLow u then 0xFFFD else u]
  | u :: v :: rest =>
      if IsHigh u ∧ IsLow v then u :: v :: replaceUnpaired rest
      else (if IsHigh u ∨ IsLow u then 0xFFFD else u) :: replaceUnpaired (v :: rest)

/-- The standard UTF-16 encoding of one scalar value. -/
def encodeChar (c : Char) : List UInt16 :=
  if c.toNat ≤ 0xFFFF then [UInt16.ofNat c.toNat]
  else [UInt16.ofNat (0xD800 + (c.toNat - 0x10000) / 0x400),
    UInt16.ofNat (0xDC00 + (c.toNat - 0x10000) % 0x400)]

/-- The encoding of a sequence of scalar values. -/
def encode (chars : List Char) : List UInt16 := chars.flatMap encodeChar

@[simp] theorem encode_nil : encode [] = [] := rfl

@[simp] theorem encode_cons (c : Char) (chars : List Char) :
    encode (c :: chars) = encodeChar c ++ encode chars := rfl

/-- Well-formed UTF-16: the encoding of some sequence of scalar values. -/
def WellFormed (units : List UInt16) : Prop := ∃ chars : List Char, units = encode chars

theorem ofNat_eq_of_toNat {u : UInt16} {n : Nat} (h : n = u.toNat) : UInt16.ofNat n = u := by
  rw [h, UInt16.ofNat_toNat]

theorem pairChar_toNat {high low : UInt16} (isHigh : IsHigh high) (isLow : IsLow low) :
    (pairChar high low).toNat = 0x10000 + (high.toNat - 0xD800) * 0x400 + (low.toNat - 0xDC00) := by
  obtain ⟨lowHigh, highHigh⟩ := isHigh
  obtain ⟨lowLow, highLow⟩ := isLow
  exact toNat_ofNat_of_range (by omega)

theorem unitChar_toNat {u : UInt16} (notSurrogate : ¬ (IsHigh u ∨ IsLow u)) :
    (unitChar u).toNat = u.toNat := by
  have bound := u.toNat_lt
  simp only [unitChar, if_neg notSurrogate]
  simp only [IsHigh, IsLow] at notSurrogate
  exact toNat_ofNat_of_range (by omega)

theorem encodeChar_pairChar {high low : UInt16} (isHigh : IsHigh high) (isLow : IsLow low) :
    encodeChar (pairChar high low) = [high, low] := by
  rw [encodeChar, pairChar_toNat isHigh isLow]
  obtain ⟨lowHigh, highHigh⟩ := isHigh
  obtain ⟨lowLow, highLow⟩ := isLow
  rw [if_neg (by omega)]
  simp only [List.cons.injEq, and_true]
  exact ⟨ofNat_eq_of_toNat (by omega), ofNat_eq_of_toNat (by omega)⟩

theorem encodeChar_unitChar (u : UInt16) :
    encodeChar (unitChar u) = [if IsHigh u ∨ IsLow u then 0xFFFD else u] := by
  by_cases surrogate : IsHigh u ∨ IsLow u
  · simp only [unitChar, if_pos surrogate]
    decide
  · have bound := u.toNat_lt
    rw [encodeChar, unitChar_toNat surrogate, if_pos (by omega), if_neg surrogate,
      UInt16.ofNat_toNat]

/-- Reading units and encoding the result replaces exactly the unpaired surrogates. -/
theorem encode_decodeLossy (units : List UInt16) :
    encode (decodeLossy units) = replaceUnpaired units := by
  induction units using decodeLossy.induct with
  | case1 => rfl
  | case2 u => simp only [decodeLossy, replaceUnpaired, encode_cons, encode_nil, encodeChar_unitChar,
      List.append_nil]
  | case3 u v rest paired ih =>
      simp only [decodeLossy, replaceUnpaired, if_pos paired, encode_cons,
        encodeChar_pairChar paired.1 paired.2, ih, List.cons_append, List.nil_append]
  | case4 u v rest unpaired ih =>
      simp only [decodeLossy, replaceUnpaired, if_neg unpaired, encode_cons, encodeChar_unitChar, ih,
        List.cons_append, List.nil_append]

/-- A unit that is no high surrogate is read on its own. -/
theorem decodeLossy_cons_of_not_high {u : UInt16} (notHigh : ¬ IsHigh u) (rest : List UInt16) :
    decodeLossy (u :: rest) = unitChar u :: decodeLossy rest := by
  cases rest with
  | nil => rfl
  | cons v rest =>
      rw [decodeLossy, if_neg (fun paired => notHigh paired.1)]

/-- The encoding of one scalar value is read back whatever follows it. -/
theorem decodeLossy_encodeChar (c : Char) (rest : List UInt16) :
    decodeLossy (encodeChar c ++ rest) = c :: decodeLossy rest := by
  have range := toNat_range c
  rw [encodeChar]
  split
  · have value : (UInt16.ofNat c.toNat).toNat = c.toNat := by simp; omega
    have notHigh : ¬ IsHigh (UInt16.ofNat c.toNat) := by rw [IsHigh, value]; omega
    have notLow : ¬ IsLow (UInt16.ofNat c.toNat) := by rw [IsLow, value]; omega
    rw [List.singleton_append, decodeLossy_cons_of_not_high notHigh]
    congr 1
    rw [unitChar, if_neg (by tauto), value, Char.ofNat_toNat]
  · have high : (UInt16.ofNat (0xD800 + (c.toNat - 0x10000) / 0x400)).toNat =
        0xD800 + (c.toNat - 0x10000) / 0x400 := by simp; omega
    have low : (UInt16.ofNat (0xDC00 + (c.toNat - 0x10000) % 0x400)).toNat =
        0xDC00 + (c.toNat - 0x10000) % 0x400 := by simp; omega
    generalize UInt16.ofNat (0xD800 + (c.toNat - 0x10000) / 0x400) = u at high
    generalize UInt16.ofNat (0xDC00 + (c.toNat - 0x10000) % 0x400) = v at low
    have paired : IsHigh u ∧ IsLow v := by rw [IsHigh, IsLow]; omega
    rw [List.cons_append, List.cons_append, List.nil_append, decodeLossy, if_pos paired, pairChar]
    have value : 0x10000 + (u.toNat - 0xD800) * 0x400 + (v.toNat - 0xDC00) = c.toNat := by omega
    rw [value, Char.ofNat_toNat]

/-- The standard encoding is read back as the scalar values it encodes. -/
theorem decodeLossy_encode (chars : List Char) : decodeLossy (encode chars) = chars := by
  induction chars with
  | nil => rfl
  | cons c chars ih => rw [encode_cons, decodeLossy_encodeChar, ih]

/-- Units are read in two parts unless a surrogate pair is cut. -/
theorem decodeLossy_append (one two : List UInt16)
    (uncut : ∀ u ∈ one.getLast?, ∀ v ∈ two.head?, ¬ (IsHigh u ∧ IsLow v)) :
    decodeLossy (one ++ two) = decodeLossy one ++ decodeLossy two := by
  induction one using decodeLossy.induct with
  | case1 => rfl
  | case2 u =>
      cases two with
      | nil => rfl
      | cons v two =>
          rw [List.singleton_append]
          conv_lhs => rw [decodeLossy, if_neg (uncut u rfl v rfl)]
          rfl
  | case3 u v one paired ih =>
      have rest : ∀ w ∈ one.getLast?, ∀ x ∈ two.head?, ¬ (IsHigh w ∧ IsLow x) := by
        intro w last
        cases one with
        | nil => cases last
        | cons first one => exact uncut w last
      rw [List.cons_append, List.cons_append, decodeLossy, if_pos paired, ih rest, decodeLossy,
        if_pos paired]
      rfl
  | case4 u v one unpaired ih =>
      have rest : ∀ w ∈ (v :: one).getLast?, ∀ x ∈ two.head?, ¬ (IsHigh w ∧ IsLow x) := uncut
      have behind := ih rest
      rw [List.cons_append] at behind
      rw [List.cons_append, List.cons_append, decodeLossy, if_neg unpaired, behind, decodeLossy,
        if_neg unpaired]
      rfl

theorem unitChar_le (u : UInt16) : (unitChar u).toNat ≤ 0xFFFF := by
  by_cases surrogate : IsHigh u ∨ IsLow u
  · rw [unitChar, if_pos surrogate]
    decide
  · have bound := u.toNat_lt
    rw [unitChar_toNat surrogate]
    omega

theorem length_utf8EncodeChar_unitChar (u : UInt16) :
    (String.utf8EncodeChar (unitChar u)).length ≤ 3 := by
  have le := unitChar_le u
  have most := Char.utf8Size_le_four (unitChar u)
  rw [String.length_utf8EncodeChar]
  by_contra more
  have four : (unitChar u).utf8Size = 4 := by omega
  have large : 0xFFFF < (unitChar u).toNat := UInt32.lt_iff_toNat_lt.1 (Char.utf8Size_eq_four_iff.1 four)
  omega

theorem encode_append (one two : List Char) : encode (one ++ two) = encode one ++ encode two :=
  List.flatMap_append

/-- The encoding of a scalar value does not start in the middle of a pair. -/
theorem not_low_of_head?_encode (chars : List Char) : ∀ u ∈ (encode chars).head?, ¬ IsLow u := by
  cases chars with
  | nil => exact nofun
  | cons c chars =>
      have range := toNat_range c
      intro u first isLow
      rw [encode_cons, encodeChar] at first
      rw [IsLow] at isLow
      split_ifs at first with bmp
      · obtain rfl := Option.some.inj first
        rw [UInt16.toNat_ofNat_of_lt' (show c.toNat < UInt16.size by
          show c.toNat < 65536
          omega)] at isLow
        omega
      · obtain rfl := Option.some.inj first
        rw [UInt16.toNat_ofNat_of_lt' (show 0xD800 + (c.toNat - 0x10000) / 0x400 < UInt16.size by
          show _ < 65536
          omega)] at isLow
        omega

/-- Three bytes are enough for each unit. -/
theorem length_encode_decodeLossy_le (units : List UInt16) :
    (Utf8.encode (decodeLossy units)).length ≤ 3 * units.length := by
  induction units using decodeLossy.induct with
  | case1 => exact Nat.zero_le _
  | case2 u =>
      rw [decodeLossy, Utf8.encode_cons, Utf8.encode_nil, List.append_nil]
      exact length_utf8EncodeChar_unitChar u
  | case3 u v rest paired ih =>
      have pair := Char.utf8Size_le_four (pairChar u v)
      rw [decodeLossy, if_pos paired, Utf8.encode_cons, List.length_append, String.length_utf8EncodeChar,
        List.length_cons, List.length_cons]
      omega
  | case4 u v rest unpaired ih =>
      have unit := length_utf8EncodeChar_unitChar u
      rw [decodeLossy, if_neg unpaired, Utf8.encode_cons, List.length_append, List.length_cons]
      omega

theorem unitChar_nonnull {u : UInt16} (nonzero : u ≠ 0) : (unitChar u).toNat ≠ 0 := by
  by_cases surrogate : IsHigh u ∨ IsLow u
  · rw [unitChar, if_pos surrogate]
    decide
  · rw [unitChar_toNat surrogate]
    exact fun zero => nonzero (UInt16.toNat_inj.1 zero)

/-- Units that are not zero are no null characters. -/
theorem decodeLossy_nonnull {units : List UInt16} (nonzero : 0 ∉ units) :
    ∀ c ∈ decodeLossy units, c.toNat ≠ 0 := by
  induction units using decodeLossy.induct with
  | case1 =>
      intro c member
      cases member
  | case2 u =>
      intro c member
      rw [decodeLossy, List.mem_singleton] at member
      rw [member]
      exact unitChar_nonnull fun zero => nonzero (by rw [zero]; exact List.mem_cons_self)
  | case3 u v rest paired ih =>
      intro c member
      rw [decodeLossy, if_pos paired, List.mem_cons] at member
      rcases member with same | member
      · have value := pairChar_toNat paired.1 paired.2
        rw [same, value]
        omega
      · exact ih (fun zero => nonzero (List.mem_cons_of_mem _ (List.mem_cons_of_mem _ zero))) c member
  | case4 u v rest unpaired ih =>
      intro c member
      rw [decodeLossy, if_neg unpaired, List.mem_cons] at member
      rcases member with same | member
      · rw [same]
        exact unitChar_nonnull fun zero => nonzero (by rw [zero]; exact List.mem_cons_self)
      · exact ih (fun zero => nonzero (List.mem_cons_of_mem _ zero)) c member

/-! ### Where the unpaired surrogates stand -/

/-- A surrogate pair starts at the index. -/
def PairAt (units : List UInt16) (i : Nat) : Prop :=
  ∃ high low, units[i]? = some high ∧ units[i + 1]? = some low ∧ IsHigh high ∧ IsLow low

/-- A surrogate stands at the index, and it is the half of no pair. -/
structure Unpaired (units : List UInt16) (i : Nat) : Prop where
  surrogate : ∃ u, units[i]? = some u ∧ (IsHigh u ∨ IsLow u)
  starts : ¬ PairAt units i
  ends : ∀ j, j + 1 = i → ¬ PairAt units j

@[simp] theorem pairAt_cons_succ (u : UInt16) (units : List UInt16) (i : Nat) :
    PairAt (u :: units) (i + 1) ↔ PairAt units i := Iff.rfl

/-- Behind a unit that pairs with nothing the places are judged without it. -/
theorem unpaired_cons_succ {u : UInt16} {units : List UInt16} (alone : ¬ PairAt (u :: units) 0)
    (i : Nat) : Unpaired (u :: units) (i + 1) ↔ Unpaired units i := by
  constructor
  · intro unpaired
    refine ⟨unpaired.surrogate, unpaired.starts, ?_⟩
    rintro j rfl pair
    exact unpaired.ends (j + 1) rfl pair
  · intro unpaired
    refine ⟨unpaired.surrogate, unpaired.starts, ?_⟩
    intro j before pair
    cases j with
    | zero => exact alone pair
    | succ j => exact unpaired.ends j (Nat.succ_inj.1 before) pair

theorem unpaired_cons_zero {u : UInt16} {units : List UInt16} (alone : ¬ PairAt (u :: units) 0) :
    Unpaired (u :: units) 0 ↔ IsHigh u ∨ IsLow u := by
  constructor
  · intro unpaired
    obtain ⟨v, here, surrogate⟩ := unpaired.surrogate
    rw [List.getElem?_cons_zero, Option.some.injEq] at here
    rw [here]
    exact surrogate
  · intro surrogate
    refine ⟨⟨u, rfl, surrogate⟩, alone, ?_⟩
    intro j before
    exact absurd before (Nat.succ_ne_zero j)

theorem not_high_of_low {u : UInt16} (isLow : IsLow u) : ¬ IsHigh u := by
  intro isHigh
  obtain ⟨low, _⟩ := isLow
  obtain ⟨_, high⟩ := isHigh
  omega

theorem pairAt_zero {u v : UInt16} {units : List UInt16} :
    PairAt (u :: v :: units) 0 ↔ IsHigh u ∧ IsLow v := by
  constructor
  · rintro ⟨high, low, first, second, isHigh, isLow⟩
    rw [List.getElem?_cons_zero, Option.some.injEq] at first
    rw [List.getElem?_cons_succ, List.getElem?_cons_zero, Option.some.injEq] at second
    rw [first, second]
    exact ⟨isHigh, isLow⟩
  · rintro ⟨isHigh, isLow⟩
    exact ⟨u, v, rfl, rfl, isHigh, isLow⟩

theorem not_pairAt_of_low {u : UInt16} (units : List UInt16) (isLow : IsLow u) :
    ¬ PairAt (u :: units) 0 := by
  rintro ⟨high, low, first, _, isHigh, _⟩
  rw [List.getElem?_cons_zero, Option.some.injEq] at first
  rw [← first] at isHigh
  exact not_high_of_low isLow isHigh

open Classical in
/-- Exactly the unpaired surrogates are replaced. -/
theorem getElem?_replaceUnpaired (units : List UInt16) (i : Nat) :
    (replaceUnpaired units)[i]? =
      units[i]?.map fun u => if Unpaired units i then 0xFFFD else u := by
  have alone (u : UInt16) : ¬ PairAt [u] 0 := by
    rintro ⟨_, _, _, second, _, _⟩
    cases second
  induction units using replaceUnpaired.induct generalizing i with
  | case1 => rfl
  | case2 u =>
      cases i with
      | zero => simp [replaceUnpaired, unpaired_cons_zero (alone u)]
      | succ i => rfl
  | case3 u v rest paired ih =>
      have starts : PairAt (u :: v :: rest) 0 := pairAt_zero.2 paired
      rw [replaceUnpaired, if_pos paired]
      cases i with
      | zero =>
          have kept : ¬ Unpaired (u :: v :: rest) 0 := fun unpaired => unpaired.starts starts
          simp [kept]
      | succ i =>
          cases i with
          | zero =>
              have kept : ¬ Unpaired (u :: v :: rest) 1 := fun unpaired => unpaired.ends 0 rfl starts
              simp [kept]
          | succ i =>
              have low := not_pairAt_of_low rest paired.2
              have behind : Unpaired (u :: v :: rest) (i + 2) ↔ Unpaired rest i := by
                rw [← unpaired_cons_succ low i]
                constructor
                · intro unpaired
                  refine ⟨unpaired.surrogate, unpaired.starts, ?_⟩
                  rintro j before pair
                  exact unpaired.ends (j + 1) (congrArg Nat.succ before) pair
                · intro unpaired
                  refine ⟨unpaired.surrogate, unpaired.starts, ?_⟩
                  rintro j before pair
                  obtain rfl : j = i + 1 := Nat.succ_inj.1 before
                  exact unpaired.ends i rfl pair
              simp [ih, behind]
  | case4 u v rest unpaired ih =>
      have free : ¬ PairAt (u :: v :: rest) 0 := mt pairAt_zero.1 unpaired
      rw [replaceUnpaired, if_neg unpaired]
      cases i with
      | zero => simp [unpaired_cons_zero free]
      | succ i => simp [ih, unpaired_cons_succ free]

/-- At every place the units are the same, or both are unpaired surrogates. -/
def Alike (one two : List UInt16) : Prop :=
  ∀ i, one[i]? = two[i]? ∨ Unpaired one i ∧ Unpaired two i

theorem Alike.symm {one two : List UInt16} (alike : Alike one two) : Alike two one := by
  intro i
  rcases alike i with same | ⟨first, second⟩
  · exact .inl same.symm
  · exact .inr ⟨second, first⟩

theorem Alike.pairAt {one two : List UInt16} (alike : Alike one two) {i : Nat} (pair : PairAt one i) :
    PairAt two i := by
  obtain ⟨high, low, first, second, isHigh, isLow⟩ := pair
  refine ⟨high, low, ?_, ?_, isHigh, isLow⟩
  · rcases alike i with same | ⟨unpaired, _⟩
    · rw [← same, first]
    · exact absurd ⟨high, low, first, second, isHigh, isLow⟩ unpaired.starts
  · rcases alike (i + 1) with same | ⟨unpaired, _⟩
    · rw [← same, second]
    · exact absurd ⟨high, low, first, second, isHigh, isLow⟩ (unpaired.ends i rfl)

theorem Alike.unpaired {one two : List UInt16} (alike : Alike one two) {i : Nat}
    (unpaired : Unpaired one i) : Unpaired two i := by
  rcases alike i with same | ⟨_, other⟩
  · constructor
    · rw [← same]
      exact unpaired.surrogate
    · exact mt alike.symm.pairAt unpaired.starts
    · intro j before
      exact mt alike.symm.pairAt (unpaired.ends j before)
  · exact other

/-- Units that are alike differ only in what is replaced. -/
theorem Alike.replaceUnpaired_eq {one two : List UInt16} (alike : Alike one two) :
    replaceUnpaired one = replaceUnpaired two := by
  apply List.ext_getElem?
  intro i
  rw [getElem?_replaceUnpaired, getElem?_replaceUnpaired]
  by_cases unpaired : Unpaired one i
  · have other := alike.unpaired unpaired
    obtain ⟨u, first, _⟩ := unpaired.surrogate
    obtain ⟨v, second, _⟩ := other.surrogate
    simp [first, second, unpaired, other]
  · have other : ¬ Unpaired two i := mt alike.symm.unpaired unpaired
    rcases alike i with same | ⟨both, _⟩
    · simp [same, unpaired, other]
    · exact absurd both unpaired

/-- Two sequences of units are read alike when they agree after the replacement. -/
theorem decodeLossy_eq_iff {one two : List UInt16} :
    decodeLossy one = decodeLossy two ↔ replaceUnpaired one = replaceUnpaired two := by
  rw [← encode_decodeLossy, ← encode_decodeLossy]
  constructor
  · intro same
    rw [same]
  · intro same
    rw [← decodeLossy_encode (decodeLossy one), same, decodeLossy_encode]

/-- Well-formed units have no unpaired surrogate to replace. -/
theorem replaceUnpaired_of_wellFormed {units : List UInt16} (h : WellFormed units) :
    replaceUnpaired units = units := by
  obtain ⟨chars, rfl⟩ := h
  rw [← encode_decodeLossy, decodeLossy_encode]

end Utf16

end Unicode
