/-
Module: Unshield.Proofs.MessageDigest
Purpose: What the MD5 message digest of a string is: the string is padded and cut into blocks, and each
  block changes the state in 64 steps that are given by tables.  The unrolled transformation of the
  library takes these steps.
Trusted boundary: none
Main exports: MessageDigest.step, MessageDigest.compress, MessageDigest.padded, MessageDigest.digest,
  MessageDigest.viewed_run, md5Transform_eq
-/
import Unshield.Core.Md5
import Unshield.Foundation.BlockStream
import Unshield.Proofs.VolumeFormat

namespace Unshield

namespace MessageDigest

/-! ### The steps -/

/-- The basic function of a step. -/
def mixOf (i : Nat) : Mix :=
  if i < 16 then .f else if i < 32 then .g else if i < 48 then .h else .i

/-- The word of the block that a step takes. -/
def wordOf (i : Nat) : Nat :=
  if i < 16 then i
  else if i < 32 then (5 * i + 1) % 16
  else if i < 48 then (3 * i + 5) % 16
  else 7 * i % 16

/-- The shifts of the four rounds, each for four steps in turn. -/
def shifts : List UInt32 := [7, 12, 17, 22, 5, 9, 14, 20, 4, 11, 16, 23, 6, 10, 15, 21]

def shiftOf (i : Nat) : UInt32 := shifts.getD (4 * (i / 16) + i % 4) 0

/-- The table of constants. -/
def constants : List UInt32 :=
  [0xd76aa478, 0xe8c7b756, 0x242070db, 0xc1bdceee, 0xf57c0faf, 0x4787c62a, 0xa8304613, 0xfd469501,
    0x698098d8, 0x8b44f7af, 0xffff5bb1, 0x895cd7be, 0x6b901122, 0xfd987193, 0xa679438e, 0x49b40821,
    0xf61e2562, 0xc040b340, 0x265e5a51, 0xe9b6c7aa, 0xd62f105d, 0x02441453, 0xd8a1e681, 0xe7d3fbc8,
    0x21e1cde6, 0xc33707d6, 0xf4d50d87, 0x455a14ed, 0xa9e3e905, 0xfcefa3f8, 0x676f02d9, 0x8d2a4c8a,
    0xfffa3942, 0x8771f681, 0x6d9d6122, 0xfde5380c, 0xa4beea44, 0x4bdecfa9, 0xf6bb4b60, 0xbebfbc70,
    0x289b7ec6, 0xeaa127fa, 0xd4ef3085, 0x04881d05, 0xd9d4d039, 0xe6db99e5, 0x1fa27cf8, 0xc4ac5665,
    0xf4292244, 0x432aff97, 0xab9423a7, 0xfc93a039, 0x655b59c3, 0x8f0ccc92, 0xffeff47d, 0x85845dd1,
    0x6fa87e4f, 0xfe2ce6e0, 0xa3014314, 0x4e0811a1, 0xf7537e82, 0xbd3af235, 0x2ad7d2bb, 0xeb86d391]

/-- A cyclic shift to the left. -/
def rotated (word n : UInt32) : UInt32 := ⟨word.toBitVec.rotateLeft n.toNat⟩

/-- One step: a new word comes in behind the first one, and the others move on. -/
def step (block : Bytes) (words : Words) (i : Nat) : Words :=
  let word := (readUint32 block (4 * wordOf i)).getD 0
  let sum := words.a + (mixOf i).apply words.b words.c words.d + word + constants.getD i 0
  { a := words.d, b := words.b + rotated sum (shiftOf i), c := words.b, d := words.c }

/-- The state after a block. -/
def compress (state : Words) (block : Bytes) : Words :=
  let words := (List.range 64).foldl (step block) state
  { a := state.a + words.a, b := state.b + words.b, c := state.c + words.c, d := state.d + words.d }

/-! ### The digest -/

def startState : Words := { a := 0x67452301, b := 0xefcdab89, c := 0x98badcfe, d := 0x10325476 }

/-- A one bit and zeros up to eight bytes before the end of a block. -/
def padding (length : Nat) : Bytes := 0x80 :: List.replicate ((119 - length % 64) % 64) 0

/-- The number of bits modulo 2 ^ 64, the low word first. -/
def lengthBytes (length : Nat) : Bytes :=
  words [UInt32.ofNat (8 * length), UInt32.ofNat (8 * length / 2 ^ 32)]

def padded (message : Bytes) : Bytes :=
  message ++ padding message.length ++ lengthBytes message.length

def stateBytes (state : Words) : Bytes := words [state.a, state.b, state.c, state.d]

/-- The digest of a message. -/
def digest (message : Bytes) : Bytes :=
  stateBytes (BlockStream.absorb md5BlockSize compress startState (padded message))

example : digest [] = [0xd4, 0x1d, 0x8c, 0xd9, 0x8f, 0x00, 0xb2, 0x04, 0xe9, 0x80, 0x09, 0x98, 0xec, 0xf8,
    0x42, 0x7e] := by decide +kernel

/-! ### Words of a block -/

theorem encode_eq (list : List UInt32) : encode list = words list := by
  have byte : ∀ word : UInt32, (word &&& 0xff).toUInt8 = word.toUInt8 := by
    intro word
    rw [← UInt8.toNat_inj, UInt32.toNat_toUInt8, UInt32.toNat_toUInt8, UInt32.toNat_and]
    show (word.toNat &&& 2 ^ 8 - 1) % 2 ^ 8 = _
    rw [Nat.and_two_pow_sub_one_eq_mod, Nat.mod_mod]
  induction list with
  | nil => rfl
  | cons word list ih =>
      rw [encode, ih, byte, byte, byte, byte]
      rfl

theorem decode_getD (block : Bytes) : ∀ (k : Nat),
    (decode block).getD k 0 = (readUint32 block (4 * k)).getD 0 := by
  induction block using decode.induct with
  | case1 byte0 byte1 byte2 byte3 rest ih =>
      intro k
      rw [decode]
      cases k with
      | zero => rfl
      | succ k =>
          have behind := readUint32_append [byte0, byte1, byte2, byte3] rest (4 * k)
          rw [List.getD_cons_succ, ih k, ← behind]
          congr 2
          exact Nat.add_comm _ _
  | case2 block short =>
      intro k
      have few : block.length < 4 := by
        match block, short with
        | [], _ => exact Nat.succ_pos _
        | [_], _ => exact Nat.lt_of_sub_eq_succ rfl
        | [_, _], _ => exact Nat.lt_of_sub_eq_succ rfl
        | [_, _, _], _ => exact Nat.lt_succ_self _
        | _ :: _ :: _ :: _ :: _, short => exact absurd rfl (short _ _ _ _ _)
      have outside : readUint32 block (4 * k) = none := by
        rw [readUint32, List.getElem?_eq_none (show block.length ≤ 4 * k + 3 by omega)]
        cases block[4 * k]? with
        | none => rfl
        | some byte0 =>
            cases block[4 * k + 1]? with
            | none => rfl
            | some byte1 => cases block[4 * k + 2]? <;> rfl
      rw [outside, decode.eq_2 _ short]
      rfl

/-! ### The unrolled steps -/

theorem rotateLeft_eq {n : UInt32} (positive : 0 < n.toNat) (lt : n.toNat < 32) (word : UInt32) :
    rotateLeft word n = rotated word n := by
  have shift : (32 - n).toNat = 32 - n.toNat := by
    rw [UInt32.toNat_sub_of_le _ _ (UInt32.le_iff_toNat_le.2 (Nat.le_of_lt lt))]
    rfl
  rw [rotateLeft, rotated, ← UInt32.toBitVec_inj, UInt32.toBitVec_or, UInt32.toBitVec_and,
    UInt32.toBitVec_shiftLeft, UInt32.toBitVec_shiftRight, BitVec.rotateLeft_def]
  have ones : (0xffffffff : UInt32).toBitVec = BitVec.allOnes 32 := rfl
  rw [ones, BitVec.and_allOnes, BitVec.shiftLeft_eq', BitVec.ushiftRight_eq']
  congr 2
  show (32 - n).toNat % 32 = 32 - n.toNat % 32
  rw [shift, Nat.mod_eq_of_lt lt, Nat.mod_eq_of_lt (by omega)]

/-- The variable that the call of a step assigns to. -/
def target (i : Nat) : Register :=
  match i % 4 with
  | 0 => .a
  | 1 => .d
  | 2 => .c
  | _ => .b

/-- The call of a step. -/
def callOf (i : Nat) : MacroCall :=
  { mix := mixOf i
    a := target i
    b := target (i + 3)
    c := target (i + 2)
    d := target (i + 1)
    k := wordOf i
    s := shiftOf i
    ac := constants.getD i 0 }

theorem transformCalls_eq : transformCalls = (List.range 64).map callOf := by decide

/-- The variables in the order in which the call of a step names them. -/
def viewed (i : Nat) (words : Words) : Words :=
  { a := words.get (target i)
    b := words.get (target (i + 3))
    c := words.get (target (i + 2))
    d := words.get (target (i + 1)) }

theorem shiftOf_bounds : ∀ i < 64, 0 < (shiftOf i).toNat ∧ (shiftOf i).toNat < 32 := by decide

theorem target_add_four (i : Nat) : target (i + 4) = target i := by
  rw [target, target, Nat.add_mod_right]

theorem get_set_self (words : Words) (value : UInt32) (register : Register) :
    (words.set value register).get register = value := by
  cases register <;> rfl

theorem get_set_of_ne (words : Words) (value : UInt32) {register other : Register}
    (different : other ≠ register) : (words.set value register).get other = words.get other := by
  cases register <;> cases other <;> first | rfl | exact absurd rfl different

/-- Four variables that follow each other are different ones. -/
theorem target_ne (i : Nat) :
    target (i + 1) ≠ target i ∧ target (i + 2) ≠ target i ∧ target (i + 3) ≠ target i := by
  have cases : i % 4 = 0 ∨ i % 4 = 1 ∨ i % 4 = 2 ∨ i % 4 = 3 := by omega
  rcases cases with h | h | h | h <;> simp [target, Nat.add_mod, h]

/-- The call of a step does the step to the variables in their order. -/
theorem viewed_run {i : Nat} (inside : i < 64) (block : Bytes) (words : Words) :
    viewed (i + 1) (MacroCall.run (decode block) words (callOf i)) =
      step block (viewed i words) i := by
  obtain ⟨first, second, third⟩ := target_ne i
  obtain ⟨positive, lt⟩ := shiftOf_bounds i inside
  rw [viewed, target_add_four, MacroCall.run, callOf]
  simp only [get_set_self, get_set_of_ne _ _ first, get_set_of_ne _ _ second,
    get_set_of_ne _ _ third]
  rw [decode_getD, rotateLeft_eq positive lt, step, viewed]
  simp only [Words.mk.injEq, true_and, and_true]
  rw [UInt32.add_comm, UInt32.add_assoc, UInt32.add_assoc, UInt32.add_assoc]

/-- All calls up to a step do all steps. -/
theorem viewed_foldl (block : Bytes) (words : Words) : ∀ n ≤ 64,
    viewed n (((List.range n).map callOf).foldl (MacroCall.run (decode block)) words) =
      (List.range n).foldl (step block) (viewed 0 words) := by
  intro n
  induction n with
  | zero => exact fun _ => rfl
  | succ n ih =>
      intro inside
      rw [List.range_succ, List.map_append, List.foldl_append, List.foldl_append, ← ih (by omega)]
      exact viewed_run inside block _

/-- The unrolled transformation takes the 64 steps. -/
theorem md5Transform_eq (state : Words) (block : Bytes) :
    md5Transform state block = compress state block := by
  have order : ∀ words, viewed 64 words = words := fun _ => rfl
  have start : viewed 0 state = state := rfl
  have steps := viewed_foldl block state 64 (Nat.le_refl _)
  rw [← transformCalls_eq, order, start] at steps
  rw [md5Transform, compress, steps]

end MessageDigest

end Unshield
