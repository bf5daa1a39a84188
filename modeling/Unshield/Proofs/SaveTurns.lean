/-
Module: Unshield.Proofs.SaveTurns
Purpose: What a turn of a loop of the save functions has done if it returns, on any archive and in any
  environment.
Trusted boundary: none
Main exports: saveTurn_cases, saveRawTurn_cases, chunkTurn_cases, saveOldTurn_cases, saveStored_eq_ret,
  saveOldStored_eq_ret
-/
import Unshield.Core.Save
import Unshield.Proofs.Messages

namespace Unshield

open Procedure

variable {σ H : Type} {env : Environment σ H} {archive : Archive} {s t : Session σ H}

/-! ### The new format -/

theorem saveStored_eq_ret {bytesLeft : UInt32} {outputBuffer : Block} {result : UInt32 × Block × Nat}
    (run : saveStored env archive bytesLeft outputBuffer s = (.ret result, t)) :
    result.1 = bytesLeft - UInt32.ofNat (min bytesLeft.toNat bufferSize) ∧
      ∃ data, readerRead env archive.header (min bytesLeft.toNat bufferSize) s = (.ret data, t) := by
  obtain ⟨data, u, read, run⟩ := Proc.bind_eq_ret_iff.1 run
  obtain ⟨block, _, run⟩ := Proc.access_bind_eq_ret_iff.1 run
  obtain ⟨rfl, rfl⟩ := Proc.pure_eq_ret_iff.1 run
  exact ⟨rfl, data, read⟩

/-- A turn ends the loop where it stands, or it gets data and writes, counts and digests them. -/
theorem saveTurn_cases {vars : SaveVars env.md5} {outcome : Proc.Turn (SaveVars env.md5) (SaveVars env.md5)}
    (run : saveTurn env archive vars s = (.ret outcome, t)) :
    (vars.bytesLeft = 0 ∧ outcome = .done vars ∧ t = s) ∨
      vars.bytesLeft ≠ 0 ∧ ∃ result u data,
        saveData env archive s.fileDescriptor vars.bytesLeft vars.outputBuffer s = (.ret result, u) ∧
        result.2.1.load 0 result.2.2 = some data ∧ fwriteOutput env data u = (.ret (), t) ∧
        outcome = .again
          { bytesLeft := result.1
            totalWritten := vars.totalWritten + UInt64.ofNat result.2.2
            context := env.md5.update vars.context data
            outputBuffer := result.2.1 } := by
  rw [saveTurn] at run
  split at run
  · rename_i none_left
    obtain ⟨rfl, rfl⟩ := Proc.pure_eq_ret_iff.1 run
    exact Or.inl ⟨none_left, rfl, rfl⟩
  · rename_i more
    rw [Proc.gets_bind_run] at run
    obtain ⟨result, u, got, run⟩ := Proc.bind_eq_ret_iff.1 run
    obtain ⟨data, loaded, run⟩ := Proc.access_bind_eq_ret_iff.1 run
    obtain ⟨⟨⟩, v, wrote, run⟩ := Proc.bind_eq_ret_iff.1 run
    obtain ⟨rfl, rfl⟩ := Proc.pure_eq_ret_iff.1 run
    exact Or.inr ⟨more, result, u, data, got, loaded, wrote, rfl⟩

/-- A turn of the raw copy ends the loop where it stands, or it reads a buffer and writes it. -/
theorem saveRawTurn_cases {bytesLeft : UInt32} {outcome : Proc.Turn UInt32 Unit}
    (run : saveRawTurn env archive bytesLeft s = (.ret outcome, t)) :
    (bytesLeft = 0 ∧ outcome = .done () ∧ t = s) ∨
      bytesLeft ≠ 0 ∧ ∃ data u,
        readerRead env archive.header (min bytesLeft.toNat bufferSize) s = (.ret data, u) ∧
        fwriteOutput env data u = (.ret (), t) ∧
        outcome = .again (bytesLeft - UInt32.ofNat (min bytesLeft.toNat bufferSize)) := by
  rw [saveRawTurn] at run
  split at run
  · rename_i none_left
    obtain ⟨rfl, rfl⟩ := Proc.pure_eq_ret_iff.1 run
    exact Or.inl ⟨none_left, rfl, rfl⟩
  · rename_i more
    obtain ⟨data, u, read, run⟩ := Proc.bind_eq_ret_iff.1 run
    obtain ⟨⟨⟩, v, wrote, run⟩ := Proc.bind_eq_ret_iff.1 run
    obtain ⟨rfl, rfl⟩ := Proc.pure_eq_ret_iff.1 run
    exact Or.inr ⟨more, data, u, read, wrote, rfl⟩

/-! ### The old format -/

/-- The chunk ahead is found in the input buffer and expands without an error. -/
structure Expands (env : Environment σ H) (fuel : Nat) (vars : ChunkVars) (size : Nat)
    (inputBuffer : Block) (result : Uncompressed) : Prop where
  cut : chunkSize vars.inputBuffer vars.chunkBuffer vars.inputSize.toNat = .ret (some size)
  stored : vars.inputBuffer.store (vars.chunkBuffer + size) [0] = some inputBuffer
  expanded : ∃ source, inputBuffer.load vars.chunkBuffer size = some source ∧
    uncompressOld env.zlib fuel bufferSize source = .ret result
  code : result.code = zOk

/-- A turn of the chunk loop ends it where it stands, or it expands a chunk and writes and counts it. -/
theorem chunkTurn_cases {fuel : Nat} {vars : ChunkVars} {outcome : Proc.Turn ChunkVars SaveOldVars}
    (run : chunkTurn env archive fuel vars s = (.ret outcome, t)) :
    ((vars.inputSize = 0 ∨ vars.bytesLeft = 0) ∧ outcome = .done vars.toSaveOldVars ∧ t = s) ∨
      (vars.inputSize ≠ 0 ∧ vars.bytesLeft ≠ 0) ∧ ∃ size inputBuffer result,
        Expands env fuel vars size inputBuffer result ∧
        fwriteOutput env result.output s = (.ret (), t) ∧
        outcome = .again
          { chunkBuffer := vars.chunkBuffer + size + endOfChunk.length
            inputSize := vars.inputSize - UInt64.ofNat size - UInt64.ofNat endOfChunk.length
            bytesLeft := vars.bytesLeft - UInt32.ofNat result.destLen
            totalWritten := vars.totalWritten + UInt64.ofNat result.destLen
            inputBuffer } := by
  rw [chunkTurn] at run
  split at run
  · rename_i stop
    obtain ⟨rfl, rfl⟩ := Proc.pure_eq_ret_iff.1 run
    exact Or.inl ⟨stop, rfl, rfl⟩
  · rename_i more
    obtain ⟨size, cut, run⟩ := Proc.ofExit_bind_eq_ret_iff.1 run
    cases size with
    | none => exact absurd run (failWithFileName_ne_ret s _ t)
    | some size =>
        obtain ⟨buffer, stored, run⟩ := Proc.access_bind_eq_ret_iff.1 run
        obtain ⟨source, loaded, run⟩ := Proc.access_bind_eq_ret_iff.1 run
        obtain ⟨result, expanded, run⟩ := Proc.ofExit_bind_eq_ret_iff.1 run
        obtain ⟨code, run⟩ := Proc.require_bind_eq_ret_iff.1 run
        obtain ⟨⟨⟩, u, wrote, run⟩ := Proc.bind_eq_ret_iff.1 run
        obtain ⟨rfl, rfl⟩ := Proc.pure_eq_ret_iff.1 run
        exact Or.inr ⟨not_or.1 more, size, buffer, result, ⟨cut, stored, ⟨source, loaded, expanded⟩, code⟩,
          wrote, rfl⟩

theorem saveOldStored_eq_ret {vars next : SaveOldVars}
    (run : saveOldStored env archive vars s = (.ret next, t)) :
    ∃ data u, readerRead env archive.header (min vars.bytesLeft.toNat bufferSize) s = (.ret data, u) ∧
      fwriteOutput env data u = (.ret (), t) ∧
      next =
        { vars with
          bytesLeft := vars.bytesLeft - UInt32.ofNat (min vars.bytesLeft.toNat bufferSize)
          totalWritten := vars.totalWritten + UInt64.ofNat (min vars.bytesLeft.toNat bufferSize) } := by
  obtain ⟨data, u, read, run⟩ := Proc.bind_eq_ret_iff.1 run
  obtain ⟨⟨⟩, v, wrote, run⟩ := Proc.bind_eq_ret_iff.1 run
  obtain ⟨rfl, rfl⟩ := Proc.pure_eq_ret_iff.1 run
  exact ⟨data, u, read, wrote, rfl⟩

/-- A turn of the outer loop ends it where it stands, or it gets data from a volume that is not
exhausted. -/
theorem saveOldTurn_cases {fuel : Nat} {vars : SaveOldVars} {outcome : Proc.Turn SaveOldVars SaveOldVars}
    (run : saveOldTurn env archive fuel vars s = (.ret outcome, t)) :
    (vars.bytesLeft = 0 ∧ outcome = .done vars ∧ t = s) ∨
      vars.bytesLeft ≠ 0 ∧ ∃ u next, openExhausted env archive s = (.ret (), u) ∧
        saveOldData env archive u.fileDescriptor fuel vars u = (.ret next, t) ∧ outcome = .again next := by
  rw [saveOldTurn] at run
  split at run
  · rename_i none_left
    obtain ⟨rfl, rfl⟩ := Proc.pure_eq_ret_iff.1 run
    exact Or.inl ⟨none_left, rfl, rfl⟩
  · rename_i more
    obtain ⟨⟨⟩, u, opened, run⟩ := Proc.bind_eq_ret_iff.1 run
    rw [Proc.gets_bind_run] at run
    obtain ⟨next, v, data, run⟩ := Proc.bind_eq_ret_iff.1 run
    obtain ⟨rfl, rfl⟩ := Proc.pure_eq_ret_iff.1 run
    exact Or.inr ⟨more, u, next, opened, data, rfl⟩

end Unshield
