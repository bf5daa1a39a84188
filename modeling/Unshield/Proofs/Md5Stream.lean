/-
Module: Unshield.Proofs.Md5Stream
Purpose: The context of the message digest along a run of updates: it stands for the message so far,
  whatever buffers the message comes in, and the finalisation gives the digest of the message.
Trusted boundary: none
Main exports: LoopFits, Represents, transformBlocks_eq, transformBlocks_fault,
  md5Update_of_fits, md5Update_fault, md5Update_inside_iff, md5Final_of_represents, md5Pieces,
  md5Pieces_digest
-/
import Unshield.Proofs.MessageDigest

namespace Unshield

open Procedure
open BlockStream MessageDigest

/-! ### What a context stands for -/

/-- The context after a message: the state after its blocks, the number of its bits, and its incomplete
block at the start of the buffer. -/
structure Represents (context : Md5Context) (message : Bytes) : Prop where
  state : context.state = absorb md5BlockSize compress startState message
  count : context.count0.toNat + 2 ^ 32 * context.count1.toNat = 8 * message.length % 2 ^ 64
  size : context.buffer.size = md5BlockSize
  buffered : context.buffer.Holds 0 (rest md5BlockSize message)

/-- The index of the loop of `MD5Update` stays within its type: with `length` bytes before, the loop ends
at the last block boundary of an input of `inputLen` bytes, and adds 63 there. -/
def LoopFits (length inputLen : Nat) : Prop := inputLen - (length + inputLen) % 64 + 63 < 2 ^ 32

instance (length inputLen : Nat) : Decidable (LoopFits length inputLen) :=
  inferInstanceAs (Decidable (_ < _))

theorem loopFits_of_lt {inputLen : Nat} (length : Nat) (short : inputLen + 63 < 2 ^ 32) :
    LoopFits length inputLen := by
  rw [LoopFits]
  omega

theorem md5BlockSize_pos : 0 < md5BlockSize := Nat.succ_pos _

theorem md5Init_represents {context : Md5Context} (size : context.buffer.size = md5BlockSize) :
    Represents (md5Init context) [] where
  state := rfl
  count := rfl
  size := size
  buffered := ⟨Nat.zero_le _, fun _ inside => absurd inside (Nat.not_lt_zero _)⟩

section

variable {context : Md5Context} {message input : Bytes} {inputLen : UInt32}

theorem Represents.index (represents : Represents context message) :
    context.index.toNat = message.length % 64 := by
  have count := represents.count
  have lt := context.count0.toNat_lt
  rw [Md5Context.index, UInt32.toNat_and, UInt32.toNat_shiftRight]
  show context.count0.toNat >>> 3 &&& 2 ^ 6 - 1 = _
  rw [Nat.and_two_pow_sub_one_eq_mod, Nat.shiftRight_eq_div_pow]
  omega

/-- The number of bits goes up with a carry. -/
theorem Represents.count_addLength (represents : Represents context message) :
    (context.addLength inputLen).count0.toNat + 2 ^ 32 * (context.addLength inputLen).count1.toNat =
      8 * (message.length + inputLen.toNat) % 2 ^ 64 := by
  have count := represents.count
  have low := context.count0.toNat_lt
  have high := context.count1.toNat_lt
  have length := inputLen.toNat_lt
  have bits : (inputLen <<< 3).toNat = 8 * inputLen.toNat % 2 ^ 32 := by
    rw [UInt32.toNat_shiftLeft]
    show inputLen.toNat <<< 3 % 2 ^ 32 = _
    rw [Nat.shiftLeft_eq, Nat.mul_comm]
  have top : (inputLen >>> 29).toNat = inputLen.toNat / 2 ^ 29 := by
    rw [UInt32.toNat_shiftRight]
    exact Nat.shiftRight_eq_div_pow _ _
  have carry : (if context.count0 + inputLen <<< 3 < inputLen <<< 3 then context.count1 + 1
      else context.count1).toNat =
      (context.count1.toNat + (context.count0.toNat + 8 * inputLen.toNat % 2 ^ 32) / 2 ^ 32) % 2 ^ 32 := by
    by_cases wraps : context.count0 + inputLen <<< 3 < inputLen <<< 3
    · rw [if_pos wraps, UInt32.toNat_add]
      rw [UInt32.lt_iff_toNat_lt, UInt32.toNat_add, bits] at wraps
      show (_ + 1) % _ = _
      omega
    · rw [if_neg wraps]
      rw [UInt32.lt_iff_toNat_lt, UInt32.toNat_add, bits] at wraps
      omega
  rw [Md5Context.addLength]
  simp only [UInt32.toNat_add, carry, bits, top]
  omega

/-! ### The loop over the blocks of an input -/

theorem copyBytes_of_le {block : Bytes} {p size : Nat} (inside : p + size ≤ block.length) :
    copyBytes block p size = some ((block.drop p).take size) :=
  if_pos inside

/-- Where another block is complete, the condition of the loop holds. -/
theorem loop_goes_on {i : UInt32} (full : i.toNat + 64 ≤ inputLen.toNat) :
    i + 63 < inputLen ∧ (i + 64).toNat = i.toNat + 64 := by
  have length := inputLen.toNat_lt
  have next : (i + 63).toNat = i.toNat + 63 := by
    rw [UInt32.toNat_add]
    exact Nat.mod_eq_of_lt (show i.toNat + 63 < 2 ^ 32 by omega)
  refine ⟨UInt32.lt_iff_toNat_lt.2 (by omega), ?_⟩
  rw [UInt32.toNat_add]
  show (i.toNat + 64) % 2 ^ 32 = i.toNat + 64
  by_cases fits : i.toNat + 64 < 2 ^ 32
  · exact Nat.mod_eq_of_lt fits
  · omega

/-- The loop processes all blocks that are complete, if its index fits. -/
theorem transformBlocks_eq (inside : inputLen.toNat ≤ input.length) (fuel : Nat) :
    ∀ {i : UInt32} (state : Words), i.toNat ≤ inputLen.toNat →
      (inputLen.toNat - i.toNat) / 64 < fuel →
      inputLen.toNat - (inputLen.toNat - i.toNat) % 64 + 63 < 2 ^ 32 →
      transformBlocks input inputLen fuel i state =
        .ret (UInt32.ofNat (inputLen.toNat - (inputLen.toNat - i.toNat) % 64),
          absorb md5BlockSize compress state ((input.take inputLen.toNat).drop i.toNat)) := by
  induction fuel with
  | zero => exact fun _ _ enough => absurd enough (Nat.not_lt_zero _)
  | succ fuel ih =>
      intro i state before enough fits
      have size : ((input.take inputLen.toNat).drop i.toNat).length = inputLen.toNat - i.toNat := by
        rw [List.length_drop, List.length_take_of_le inside]
      rw [transformBlocks]
      by_cases full : i.toNat + 64 ≤ inputLen.toNat
      · obtain ⟨goes_on, next⟩ := loop_goes_on full
        have left : (inputLen.toNat - (i.toNat + 64)) % 64 = (inputLen.toNat - i.toNat) % 64 := by omega
        have block : ((input.take inputLen.toNat).drop i.toNat).take md5BlockSize =
            (input.drop i.toNat).take md5BlockSize := by
          rw [List.drop_take, List.take_take, Nat.min_eq_left (by rw [md5BlockSize]; omega)]
        have first : absorb md5BlockSize compress state ((input.take inputLen.toNat).drop i.toNat) =
            absorb md5BlockSize compress (compress state ((input.drop i.toNat).take md5BlockSize))
              ((input.take inputLen.toNat).drop (i + 64).toNat) := by
          rw [absorb_of_le md5BlockSize_pos (by rw [size, md5BlockSize]; omega), block, List.drop_drop,
            next, md5BlockSize]
        rw [if_pos goes_on, copyBytes_of_le (by rw [md5BlockSize]; omega), Exit.ofAccess_some,
          Exit.bind_ret, ih _ (by omega) (by omega) (by omega), first, md5Transform_eq, next, left]
      · have last : (inputLen.toNat - i.toNat) % 64 = inputLen.toNat - i.toNat := by omega
        have ends : ¬ i + 63 < inputLen := by
          rw [UInt32.lt_iff_toNat_lt, UInt32.toNat_add]
          show ¬ (i.toNat + 63) % 2 ^ 32 < _
          omega
        rw [if_neg ends, absorb_of_lt (by rw [size, md5BlockSize]; omega), last, Nat.sub_sub_self before,
          UInt32.ofNat_toNat]
        rfl

/-- An index that does not fit wraps around, and the loop reads behind the input. -/
theorem transformBlocks_fault (whole : input.length = inputLen.toNat) (fuel : Nat) :
    ∀ {i : UInt32} (state : Words), i.toNat ≤ inputLen.toNat →
      (inputLen.toNat - i.toNat) / 64 < fuel →
      2 ^ 32 ≤ inputLen.toNat - (inputLen.toNat - i.toNat) % 64 + 63 →
      transformBlocks input inputLen fuel i state = .fault := by
  induction fuel with
  | zero => exact fun _ _ enough => absurd enough (Nat.not_lt_zero _)
  | succ fuel ih =>
      intro i state before enough wraps
      rw [transformBlocks]
      by_cases full : i.toNat + 64 ≤ inputLen.toNat
      · obtain ⟨goes_on, next⟩ := loop_goes_on full
        rw [if_pos goes_on, copyBytes_of_le (by rw [md5BlockSize]; omega), Exit.ofAccess_some,
          Exit.bind_ret]
        exact ih _ (by omega) (by omega) (by omega)
      · have small : i + 63 < inputLen := by
          rw [UInt32.lt_iff_toNat_lt, UInt32.toNat_add]
          show (i.toNat + 63) % 2 ^ 32 < _
          have := inputLen.toNat_lt
          omega
        have outside : copyBytes input i.toNat md5BlockSize = none :=
          if_neg (by rw [md5BlockSize]; omega)
        rw [if_pos small, outside]
        rfl

/-! ### An update -/

/-- What comes in behind the incomplete block. -/
theorem Represents.absorb_append (represents : Represents context message) (data : Bytes) :
    absorb md5BlockSize compress startState (message ++ data) =
      absorb md5BlockSize compress context.state (rest md5BlockSize message ++ data) := by
  rw [represents.state]
  exact BlockStream.absorb_append md5BlockSize_pos message data startState

theorem Represents.length_rest (represents : Represents context message) :
    (rest md5BlockSize message).length = context.index.toNat := by
  rw [represents.index]
  exact BlockStream.length_rest message

/-- Behind the blocks, what remains of the input is put into the buffer. -/
theorem md5Update_of_transform {context' : Md5Context} {index i : UInt32} {stored : Block}
    (inside : inputLen.toNat ≤ input.length) (before : i.toNat ≤ inputLen.toNat)
    (transform : transformInput (context.addLength inputLen) context.index input inputLen =
      .ret (context', index, i))
    (store : context'.buffer.store index.toNat ((input.take inputLen.toNat).drop i.toNat) =
      some stored) :
    md5Update context input inputLen = .ret { context' with buffer := stored } := by
  have left : (inputLen - i).toNat = inputLen.toNat - i.toNat :=
    UInt32.toNat_sub_of_le _ _ (UInt32.le_iff_toNat_le.2 before)
  have remaining : copyBytes input i.toNat (inputLen - i).toNat =
      some ((input.take inputLen.toNat).drop i.toNat) := by
    rw [copyBytes_of_le (by omega), left, List.drop_take]
  rw [md5Update, transform, Exit.bind_ret]
  simp only
  rw [remaining, Exit.ofAccess_some, Exit.bind_ret, store]
  rfl

/-- An input that does not complete the block goes behind it. -/
theorem md5Update_of_short (represents : Represents context message)
    (inside : inputLen.toNat ≤ input.length) (short : context.index.toNat + inputLen.toNat < 64) :
    ∃ context', md5Update context input inputLen = .ret context' ∧
      Represents context' (message ++ input.take inputLen.toNat) := by
  have count := @Represents.count_addLength _ _ inputLen represents
  have length := represents.length_rest
  have taken : (input.take inputLen.toNat).length = inputLen.toNat := List.length_take_of_le inside
  have few : (rest md5BlockSize message ++ input.take inputLen.toNat).length < md5BlockSize := by
    rw [List.length_append, length, taken]
    exact short
  have stays : ¬ inputLen ≥ 64 - context.index := by
    have part : (64 - context.index).toNat = 64 - context.index.toNat :=
      UInt32.toNat_sub_of_le _ _ (UInt32.le_iff_toNat_le.2 (show _ ≤ 64 by omega))
    rw [ge_iff_le, UInt32.le_iff_toNat_le, part]
    omega
  obtain ⟨stored, store⟩ := Block.store_isSome context.buffer
    (show context.index.toNat + (input.take inputLen.toNat).length ≤ _ by
      rw [represents.size, taken, md5BlockSize]
      omega)
  refine ⟨{ context.addLength inputLen with buffer := stored }, ?_, ?_⟩
  · have transform : transformInput (context.addLength inputLen) context.index input inputLen =
        .ret (context.addLength inputLen, context.index, 0) := by
      rw [transformInput, if_neg stays]
      rfl
    exact md5Update_of_transform inside (Nat.zero_le _) transform store
  · refine ⟨?_, ?_, ?_, ?_⟩
    · rw [represents.absorb_append, absorb_of_lt few]
      rfl
    · rw [List.length_append, taken]
      exact count
    · exact (Block.size_of_store store).trans represents.size
    · rw [rest_append md5BlockSize_pos, rest_of_lt few]
      rw [← length] at store
      exact Block.holds_append_of_store (by rwa [Nat.zero_add]) represents.buffered

/-- How an input is taken apart that completes the block: what completes it, and the rest. -/
theorem Represents.completed (represents : Represents context message)
    (inside : inputLen.toNat ≤ input.length) (long : 64 ≤ context.index.toNat + inputLen.toNat) :
    ∃ part block stored, (64 - context.index).toNat = 64 - context.index.toNat ∧
      copyBytes input 0 (64 - context.index.toNat) = some part ∧
      context.buffer.store context.index.toNat part = some stored ∧
      stored.load 0 md5BlockSize = some block ∧ block.length = md5BlockSize ∧
      rest md5BlockSize message ++ input.take inputLen.toNat =
        block ++ (input.take inputLen.toNat).drop (64 - context.index.toNat) := by
  have length := represents.length_rest
  have index_lt : context.index.toNat < 64 := by
    rw [represents.index]
    exact Nat.mod_lt _ (Nat.succ_pos _)
  have part : (input.take (64 - context.index.toNat)).length = 64 - context.index.toNat :=
    List.length_take_of_le (by omega)
  obtain ⟨stored, store⟩ := Block.store_isSome context.buffer
    (show context.index.toNat + (input.take (64 - context.index.toNat)).length ≤ _ by
      rw [represents.size, part, md5BlockSize]
      omega)
  have full : (rest md5BlockSize message ++ input.take (64 - context.index.toNat)).length =
      md5BlockSize := by
    rw [List.length_append, length, part, md5BlockSize]
    omega
  have holds : stored.Holds 0 (rest md5BlockSize message ++ input.take (64 - context.index.toNat)) := by
    rw [← length] at store
    exact Block.holds_append_of_store (by rwa [Nat.zero_add, length] at *) represents.buffered
  have loaded := Block.load_of_holds holds
  rw [full] at loaded
  refine ⟨_, _, stored, UInt32.toNat_sub_of_le _ _ (UInt32.le_iff_toNat_le.2 (show _ ≤ 64 by omega)),
    copyBytes_of_le (by omega), store, loaded, full, ?_⟩
  rw [List.append_assoc]
  congr 1
  have front : input.take (64 - context.index.toNat) =
      (input.take inputLen.toNat).take (64 - context.index.toNat) := by
    rw [List.take_take, Nat.min_eq_left (by omega)]
  rw [front, List.take_append_drop]

/-- An input that completes the block is taken up to its last block boundary. -/
theorem md5Update_of_long (represents : Represents context message)
    (inside : inputLen.toNat ≤ input.length) (long : 64 ≤ context.index.toNat + inputLen.toNat)
    (fits : LoopFits message.length inputLen.toNat) :
    ∃ context', md5Update context input inputLen = .ret context' ∧
      Represents context' (message ++ input.take inputLen.toNat) := by
  have count := @Represents.count_addLength _ _ inputLen represents
  have index := represents.index
  have length_lt := inputLen.toNat_lt
  have taken : (input.take inputLen.toNat).length = inputLen.toNat := List.length_take_of_le inside
  obtain ⟨part, block, stored, partLen, copied, store, loaded, full, apart⟩ :=
    represents.completed inside long
  rw [LoopFits] at fits
  have left : (inputLen.toNat - (64 - context.index.toNat)) % 64 =
      (message.length + inputLen.toNat) % 64 := by omega
  have boundary : (UInt32.ofNat (inputLen.toNat - (message.length + inputLen.toNat) % 64)).toNat =
      inputLen.toNat - (message.length + inputLen.toNat) % 64 :=
    UInt32.toNat_ofNat_of_lt' (Nat.lt_of_le_of_lt (Nat.sub_le _ _) length_lt)
  have transform : transformInput (context.addLength inputLen) context.index input inputLen = .ret
      ({ context.addLength inputLen with
          state := absorb md5BlockSize compress (compress context.state block)
            ((input.take inputLen.toNat).drop (64 - context.index.toNat))
          buffer := stored },
        0, UInt32.ofNat (inputLen.toNat - (message.length + inputLen.toNat) % 64)) := by
    have before : (64 - context.index).toNat ≤ inputLen.toNat := by omega
    have blocks := transformBlocks_eq inside (inputLen.toNat / md5BlockSize + 1)
      (md5Transform context.state block) before (by rw [md5BlockSize]; omega) (by omega)
    rw [partLen, left] at blocks
    rw [transformInput]
    simp only
    rw [if_pos (UInt32.le_iff_toNat_le.2 before), partLen, copied, Exit.ofAccess_some, Exit.bind_ret]
    have same : (context.addLength inputLen).buffer = context.buffer := rfl
    have state : (context.addLength inputLen).state = context.state := rfl
    rw [same, store, Exit.ofAccess_some, Exit.bind_ret, loaded, Exit.ofAccess_some, Exit.bind_ret, state,
      blocks, md5Transform_eq]
    rfl
  have behind : (input.take inputLen.toNat).drop
      (inputLen.toNat - (message.length + inputLen.toNat) % 64) =
      rest md5BlockSize (message ++ input.take inputLen.toNat) := by
    rw [rest_append md5BlockSize_pos, apart, rest_block_append md5BlockSize_pos full, rest,
      List.drop_drop, List.length_drop, taken, md5BlockSize]
    congr 1
    omega
  have short : ((input.take inputLen.toNat).drop
      (inputLen.toNat - (message.length + inputLen.toNat) % 64)).length < md5BlockSize := by
    rw [behind, BlockStream.length_rest]
    exact Nat.mod_lt _ md5BlockSize_pos
  obtain ⟨final, stored_rest⟩ := Block.store_isSome stored
    (show 0 + ((input.take inputLen.toNat).drop
      (inputLen.toNat - (message.length + inputLen.toNat) % 64)).length ≤ _ by
      rw [Block.size_of_store store, represents.size]
      omega)
  refine ⟨_, md5Update_of_transform inside (by omega) transform (by rw [boundary]; exact stored_rest), ?_⟩
  refine ⟨?_, ?_, ?_, ?_⟩
  · rw [represents.absorb_append, apart, absorb_block_append md5BlockSize_pos full]
  · rw [List.length_append, taken]
    exact count
  · exact (Block.size_of_store stored_rest).trans ((Block.size_of_store store).trans represents.size)
  · rw [← behind]
    exact Block.holds_store stored_rest

/-- An update whose index fits goes on with the message. -/
theorem md5Update_of_fits (represents : Represents context message)
    (inside : inputLen.toNat ≤ input.length) (fits : LoopFits message.length inputLen.toNat) :
    ∃ context', md5Update context input inputLen = .ret context' ∧
      Represents context' (message ++ input.take inputLen.toNat) := by
  by_cases short : context.index.toNat + inputLen.toNat < 64
  · exact md5Update_of_short represents inside short
  · exact md5Update_of_long represents inside (Nat.le_of_not_lt short) fits

/-- An update whose index does not fit reads behind its input. -/
theorem md5Update_fault (represents : Represents context message)
    (whole : input.length = inputLen.toNat) (wraps : ¬ LoopFits message.length inputLen.toNat) :
    md5Update context input inputLen = .fault := by
  have index := represents.index
  have length_lt := inputLen.toNat_lt
  rw [LoopFits] at wraps
  obtain ⟨part, block, stored, partLen, copied, store, loaded, full, apart⟩ :=
    represents.completed (Nat.le_of_eq whole.symm) (show 64 ≤ _ by omega)
  have before : (64 - context.index).toNat ≤ inputLen.toNat := by omega
  have blocks := transformBlocks_fault whole (inputLen.toNat / md5BlockSize + 1)
    (md5Transform context.state block) before (by rw [md5BlockSize]; omega) (by omega)
  have same : (context.addLength inputLen).buffer = context.buffer := rfl
  have state : (context.addLength inputLen).state = context.state := rfl
  rw [md5Update, transformInput]
  simp only
  rw [if_pos (UInt32.le_iff_toNat_le.2 before), partLen, copied, Exit.ofAccess_some, Exit.bind_ret,
    same, store, Exit.ofAccess_some, Exit.bind_ret, loaded, Exit.ofAccess_some, Exit.bind_ret, state, blocks]
  rfl

/-- An update reads only its input exactly if its index fits; then it goes on with the message, and
otherwise it reads behind the input. -/
theorem md5Update_inside_iff (represents : Represents context message)
    (whole : input.length = inputLen.toNat) :
    ((∃ context', md5Update context input inputLen = .ret context' ∧
        Represents context' (message ++ input)) ↔ LoopFits message.length input.length) ∧
      (md5Update context input inputLen = .fault ↔ ¬ LoopFits message.length input.length) := by
  rw [whole]
  by_cases fits : LoopFits message.length inputLen.toNat
  · have goes_on := md5Update_of_fits represents (Nat.le_of_eq whole.symm) fits
    rw [← whole, List.take_length] at goes_on
    refine ⟨⟨fun _ => fits, fun _ => goes_on⟩, ?_, fun wraps => absurd fits wraps⟩
    intro fault
    obtain ⟨context', returns, _⟩ := goes_on
    rw [fault] at returns
    cases returns
  · have fault := md5Update_fault represents whole fits
    refine ⟨⟨?_, fun fits' => absurd fits' fits⟩, fun _ => fits, fun _ => fault⟩
    rintro ⟨context', returns, _⟩
    rw [fault] at returns
    cases returns

/-- A context that holds what the stack left there. -/
def staleContext : Md5Context where
  state := { a := 1, b := 2, c := 3, d := 4 }
  count0 := 5
  count1 := 6
  buffer := { size := md5BlockSize, byte := fun i => UInt8.ofNat i }

/-- Behind one byte, an input of `UINT_MAX` bytes is too long. -/
theorem md5Update_inside_iff_two_inputs :
    ∃ context, md5Update (md5Init staleContext) [0x61] 1 = .ret context ∧
      md5Update context (List.replicate 4294967295 0) 4294967295 = .fault := by
  have first := md5Update_inside_iff (md5Init_represents (show staleContext.buffer.size = _ from rfl))
    (show [0x61].length = (1 : UInt32).toNat from rfl)
  obtain ⟨context, update, represents⟩ := first.1.2 (by decide)
  have second := md5Update_inside_iff represents
    (show (List.replicate 4294967295 0).length = (4294967295 : UInt32).toNat from List.length_replicate)
  refine ⟨context, update, second.2.2 ?_⟩
  rw [List.length_replicate]
  decide

/-! ### The digest -/

theorem md5Padding_take {count : Nat} (few : count < 64) :
    md5Padding.take (count + 1) = 0x80 :: List.replicate count 0 := by
  rw [md5Padding, List.take_succ_cons, List.take_replicate, Nat.min_eq_left (by omega)]

/-- What `MD5Final` takes of `PADDING`. -/
theorem Represents.padLen_eq (represents : Represents context message) :
    (if context.index < 56 then 56 - context.index else 120 - context.index).toNat =
      (119 - message.length % 64) % 64 + 1 := by
  have index := represents.index
  by_cases front : context.index < 56
  · have front' : context.index.toNat < 56 := UInt32.lt_iff_toNat_lt.1 front
    rw [if_pos front, UInt32.toNat_sub_of_le _ _ (UInt32.le_of_lt front)]
    show 56 - _ = _
    omega
  · have behind : ¬ context.index.toNat < 56 := fun less => front (UInt32.lt_iff_toNat_lt.2 less)
    rw [if_neg front, UInt32.toNat_sub_of_le _ _ (UInt32.le_iff_toNat_le.2 (show _ ≤ 120 by omega))]
    show 120 - _ = _
    omega

/-- The bytes of the counter are those of the number of bits. -/
theorem Represents.bits_eq (represents : Represents context message) :
    encode [context.count0, context.count1] = lengthBytes message.length := by
  have count := represents.count
  have low := context.count0.toNat_lt
  have high := context.count1.toNat_lt
  have first : context.count0 = UInt32.ofNat (8 * message.length) := by
    rw [← UInt32.toNat_inj, UInt32.toNat_ofNat']
    show _ = _ % 2 ^ 32
    omega
  have second : context.count1 = UInt32.ofNat (8 * message.length / 2 ^ 32) := by
    rw [← UInt32.toNat_inj, UInt32.toNat_ofNat']
    show _ = _ % 2 ^ 32
    omega
  rw [encode_eq, first, second, lengthBytes]

theorem md5Final_of_represents (represents : Represents context message) :
    md5Final context = .ret (digest message, zeroContext) := by
  have padLen := represents.padLen_eq
  have few : (119 - message.length % 64) % 64 < 64 := Nat.mod_lt _ (Nat.succ_pos _)
  have inside : (if context.index < 56 then 56 - context.index else 120 - context.index).toNat ≤
      md5Padding.length := by
    rw [padLen]
    exact few
  obtain ⟨padded, update, represents₁⟩ := md5Update_of_fits represents inside
    (loopFits_of_lt _ (by omega))
  rw [padLen, md5Padding_take few] at represents₁
  obtain ⟨final, update', represents₂⟩ := @md5Update_of_fits _ _ (encode [context.count0, context.count1]) 8
    represents₁ (Nat.le_refl _) (loopFits_of_lt _ (by decide))
  rw [md5Final]
  rw [update, Exit.bind_ret, update', Exit.bind_ret, encode_eq, represents₂.state, represents.bits_eq]
  rfl

end

/-! ### Messages in pieces -/

/-- `MD5Update` with one buffer after the other. -/
def md5Updates (context : Md5Context) : List Bytes → Exit Md5Context
  | [] => pure context
  | piece :: pieces => do
      let context ← md5Update context piece (UInt32.ofNat piece.length)
      md5Updates context pieces

/-- `MD5Init`, the updates and `MD5Final`. -/
def md5Pieces (context : Md5Context) (pieces : List Bytes) : Exit (Bytes × Md5Context) := do
  let context ← md5Updates (md5Init context) pieces
  md5Final context

theorem md5Updates_represents {pieces : List Bytes}
    (short : ∀ piece ∈ pieces, piece.length + 63 < 2 ^ 32) : ∀ {context : Md5Context} {message : Bytes},
      Represents context message → ∃ context', md5Updates context pieces = .ret context' ∧
        Represents context' (message ++ pieces.flatten) := by
  induction pieces with
  | nil =>
      intro context message represents
      exact ⟨context, rfl, by rwa [List.flatten_nil, List.append_nil]⟩
  | cons piece pieces ih =>
      intro context message represents
      have few := short piece List.mem_cons_self
      have length : (UInt32.ofNat piece.length).toNat = piece.length :=
        UInt32.toNat_ofNat_of_lt' (show _ < 2 ^ 32 by omega)
      obtain ⟨context₁, update, represents₁⟩ := md5Update_of_fits represents (Nat.le_of_eq length)
        (loopFits_of_lt _ (by omega))
      rw [length, List.take_length] at represents₁
      obtain ⟨context₂, updates, represents₂⟩ :=
        ih (fun piece member => short piece (List.mem_cons_of_mem _ member)) represents₁
      rw [List.append_assoc] at represents₂
      exact ⟨context₂, by rw [md5Updates, update, Exit.bind_ret, updates], represents₂⟩

/-- However a message is cut into buffers, and whatever the context holds at first, the library computes
the digest of the message. -/
theorem md5Pieces_digest {context : Md5Context} {pieces : List Bytes}
    (size : context.buffer.size = md5BlockSize)
    (short : ∀ piece ∈ pieces, piece.length + 63 < 2 ^ 32) :
    md5Pieces context pieces = .ret (digest pieces.flatten, zeroContext) := by
  obtain ⟨final, updates, represents⟩ := md5Updates_represents short (md5Init_represents size)
  rw [md5Pieces, updates, Exit.bind_ret]
  exact md5Final_of_represents represents

theorem md5Pieces_digest_three_pieces :
    md5Pieces staleContext [List.replicate 70 0x61, [], [0x62]] =
      .ret (digest (List.replicate 70 0x61 ++ [0x62]), zeroContext) :=
  md5Pieces_digest rfl (by decide)

end Unshield
