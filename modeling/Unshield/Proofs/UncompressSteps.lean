/-
Module: Unshield.Proofs.UncompressSteps
Purpose: What the wrappers around inflate guarantee whatever zlib does.
Trusted boundary: none
Main exports: uncompress_output_le, uncompressOld_output, Inflates, InflatesOld
-/
import Unshield.Core.Uncompress

namespace Unshield

open Procedure

variable {zlib : Zlib}

theorem inflateInto_eq_ret {state : zlib.State} {flush : Flush} {input : Bytes} {availOut : Nat}
    {inflated : Inflated zlib.State}
    (h : inflateInto zlib state flush input availOut = .ret inflated) :
    inflated.consumed ≤ input.length ∧ inflated.output.length ≤ availOut := by
  rw [inflateInto] at h
  split at h
  · rename_i within
    rw [← Exit.ret.inj h]
    exact within
  · cases h

/-- The output fits into the buffer. -/
theorem uncompress_output_le {destLen : Nat} {source : Bytes} {result : Uncompressed}
    (h : uncompress zlib destLen source = .ret result) : result.output.length ≤ destLen := by
  rw [uncompress] at h
  simp only at h
  split at h
  · rw [← Exit.ret.inj h]
    exact Nat.zero_le _
  · obtain ⟨inflated, into, h⟩ := Exit.bind_eq_ret_iff.1 h
    have le : inflated.output.length ≤ destLen :=
      Nat.le_trans (inflateInto_eq_ret into).2 (Nat.mod_le _ _)
    split at h
    · rw [← Exit.ret.inj h]
      exact le
    · rw [← Exit.ret.inj h]
      exact le

/-- Block by block, the output fits into the buffer, and on success its length is what is reported. -/
theorem uncompressOldLoop_output (fuel : Nat) :
    ∀ {state : zlib.State} {input output : Bytes} {availOut : Nat} {result : Uncompressed},
      uncompressOldLoop zlib fuel state input availOut output = .ret result →
      result.output.length ≤ output.length + availOut ∧
        (result.code = zOk → result.destLen = result.output.length) := by
  induction fuel with
  | zero =>
      intro state input output availOut result h
      cases h
  | succ fuel ih =>
      intro state input output availOut result h
      rw [uncompressOldLoop] at h
      split at h
      · obtain ⟨inflated, into, h⟩ := Exit.bind_eq_ret_iff.1 h
        have le := (inflateInto_eq_ret into).2
        split at h
        · rename_i failed
          rw [← Exit.ret.inj h]
          exact ⟨by rw [List.length_append]; omega, fun ok => absurd ok failed⟩
        · have later := ih h
          rw [List.length_append] at later
          exact ⟨by omega, later.2⟩
      · rw [← Exit.ret.inj h]
        exact ⟨Nat.le_add_right _ _, fun _ => rfl⟩

theorem uncompressOld_output {fuel destLen : Nat} {source : Bytes} {result : Uncompressed}
    (h : uncompressOld zlib fuel destLen source = .ret result) :
    result.output.length ≤ destLen ∧
      (result.code = zOk → result.destLen = result.output.length) := by
  rw [uncompressOld] at h
  simp only at h
  split at h
  · rename_i failed
    rw [← Exit.ret.inj h]
    exact ⟨Nat.zero_le _, fun ok => absurd ok failed⟩
  · have loop := uncompressOldLoop_output fuel h
    rw [List.length_nil, Nat.zero_add] at loop
    exact ⟨Nat.le_trans loop.1 (Nat.mod_le _ _), loop.2⟩

/-! ### What the wrappers compute -/

/-- The function that `unshield_uncompress` computes on a chunk with a null byte behind it. -/
def Inflates (zlib : Zlib) (chunk output : Bytes) : Prop :=
  uncompress zlib bufferSize (chunk ++ [0]) =
    .ret { code := zOk, destLen := output.length, output }

/-- The function that `unshield_uncompress_old` computes on a chunk. -/
def InflatesOld (zlib : Zlib) (chunk output : Bytes) : Prop :=
  ∃ fuel, uncompressOld zlib fuel bufferSize chunk =
    .ret { code := zOk, destLen := output.length, output }

theorem Inflates.output_le {chunk output : Bytes} (inflates : Inflates zlib chunk output) :
    output.length ≤ bufferSize :=
  uncompress_output_le inflates

/-- A loop that has ended stays ended with more fuel. -/
theorem uncompressOldLoop_mono {result : Uncompressed} (fuel more : Nat) :
    ∀ {state : zlib.State} {input output : Bytes} {availOut : Nat},
      uncompressOldLoop zlib fuel state input availOut output = .ret result →
      uncompressOldLoop zlib (fuel + more) state input availOut output = .ret result := by
  induction fuel with
  | zero =>
      intro state input output availOut h
      cases h
  | succ fuel ih =>
      intro state input output availOut h
      rw [Nat.add_right_comm, uncompressOldLoop]
      rw [uncompressOldLoop] at h
      split at h
      · rename_i more_input
        obtain ⟨inflated, into, h⟩ := Exit.bind_eq_ret_iff.1 h
        rw [if_pos more_input, into, Exit.bind_ret]
        split at h
        · rename_i failed
          rw [if_pos failed]
          exact h
        · rename_i ok
          rw [if_neg ok]
          exact ih h
      · rename_i no_input
        rw [if_neg no_input]
        exact h

theorem uncompressOld_mono {fuel destLen : Nat} {source : Bytes} {result : Uncompressed}
    (h : uncompressOld zlib fuel destLen source = .ret result) (more : Nat) :
    uncompressOld zlib (fuel + more) destLen source = .ret result := by
  rw [uncompressOld] at h ⊢
  simp only at h ⊢
  split at h
  · rename_i failed
    rw [if_pos failed]
    exact h
  · rename_i ok
    rw [if_neg ok]
    exact uncompressOldLoop_mono fuel more h

end Unshield
