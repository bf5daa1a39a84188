/-
Module: Unshield.Proofs.ReaderExits
Purpose: How the steps of reading and writing a file and of reading a name can end: they return, fail or
  fault, but neither fail an assertion nor use up any fuel.
Trusted boundary: none
Main exports: freadVolume_avoids, failWithFileName_avoids, readerOpenVolume_avoids,
  readerReadTurn_avoids, fopenOutput_avoids, fwriteOutput_avoids, uncompress_ne_stop,
  getUtf8String_ne_stop
-/
import Unshield.Core.Save
import Unshield.Foundation.Halting

namespace Unshield

open Procedure Procedure.Proc

variable {σ H : Type} (env : Environment σ H) (header : Header) {stop : Stop} (rare : stop.Rare)

include rare

section

variable {pre : Session σ H → Prop}

/-! ### Streams -/

theorem fopenVolume_avoids (volume : Int) : Avoids stop pre (fopenVolume env volume) := by
  intro s _
  rw [fopenVolume]
  simp only
  split
  · exact Exit.ret_ne_stop ()
  · exact Exit.fail_ne_stop rare

omit rare in
theorem fcloseVolume_avoids : Avoids stop pre (fcloseVolume env) := by
  intro s _
  rw [fcloseVolume]
  split <;> exact Exit.ret_ne_stop ()

theorem freadVolume_avoids (count : Nat) : Avoids stop pre (freadVolume env count) := by
  intro s _
  rw [freadVolume]
  split
  · exact Exit.fault_ne_stop rare
  · simp only
    split
    · exact Exit.ret_ne_stop _
    · exact Exit.fail_ne_stop rare

theorem fseekVolume_avoids (offset : Int) : Avoids stop pre (fseekVolume env offset) := by
  intro s _
  rw [fseekVolume]
  split
  · exact Exit.fault_ne_stop rare
  · exact Exit.ret_ne_stop ()

theorem fsizeVolume_avoids : Avoids stop pre (fsizeVolume env) := by
  intro s _
  rw [fsizeVolume]
  split
  · exact Exit.fault_ne_stop rare
  · exact Exit.ret_ne_stop _

theorem fopenOutput_avoids (filename : Option Bytes) : Avoids stop pre (fopenOutput env filename) := by
  intro s _
  cases filename with
  | none => exact Exit.ret_ne_stop ()
  | some path =>
      rw [fopenOutput]
      simp only
      split
      · exact Exit.ret_ne_stop ()
      · exact Exit.fail_ne_stop rare

theorem fwriteOutput_avoids (data : Bytes) : Avoids stop pre (fwriteOutput env data) := by
  intro s _
  rw [fwriteOutput]
  split
  · exact Exit.ret_ne_stop ()
  · simp only
    split
    · exact Exit.ret_ne_stop ()
    · exact Exit.fail_ne_stop rare

/-! ### Names -/

theorem cString_ne_stop (block : Bytes) (p : Nat) : cString block p ≠ stop.exit := by
  rw [cString]
  split
  · exact Exit.ret_ne_stop _
  · exact Exit.fault_ne_stop rare

theorem strlenUtf16_ne_stop (utf16 : List UInt16) : strlenUtf16 utf16 ≠ stop.exit := by
  rw [strlenUtf16]
  split
  · exact Exit.ret_ne_stop _
  · exact Exit.fault_ne_stop rare

theorem bufferSizeOf_ne_stop (length : Nat) : bufferSizeOf length ≠ stop.exit := by
  rw [bufferSizeOf]
  split
  · exact Exit.ret_ne_stop _
  · exact Exit.fault_ne_stop rare

theorem getUtf8String_ne_stop (bigEndian : Bool) (p : Nat) :
    getUtf8String bigEndian header p ≠ stop.exit := by
  rw [getUtf8String]
  split
  · refine Exit.bind_ne_stop (strlenUtf16_ne_stop rare _) fun length _ => ?_
    refine Exit.bind_ne_stop (bufferSizeOf_ne_stop rare _) fun size _ => ?_
    refine Exit.bind_ne_stop (Exit.ofAccess_ne_stop rare _) fun converted _ => ?_
    exact cString_ne_stop rare _ _
  · exact cString_ne_stop rare _ _

theorem directoryName_ne_stop (bigEndian : Bool) (index : Int) :
    directoryName bigEndian header index ≠ stop.exit := by
  rw [directoryName]
  split
  · refine Exit.bind_ne_stop (Exit.ofAccess_ne_stop rare _) fun offset _ => ?_
    refine Exit.bind_ne_stop (getUtf8String_ne_stop header rare _ _) fun name _ => ?_
    exact Exit.ret_ne_stop _
  · exact Exit.ret_ne_stop _

/-! ### Messages -/

theorem ftellVolume_avoids : Avoids stop pre (ftellVolume env) := by
  intro s _
  rw [ftellVolume]
  split
  · exact Exit.fault_ne_stop rare
  · exact Exit.ret_ne_stop ()

theorem reportFileName_avoids : Avoids stop pre (reportFileName env header) := by
  refine .then_any (.gets _) fun fd => .ite (fun _ => ?_) fun _ => .pure ()
  exact .then_any (.ofExit (getUtf8String_ne_stop header rare _ _)) fun _ => .pure ()

theorem failWithFileName_avoids {α : Type} :
    Avoids stop pre (failWithFileName env header : Proc (Session σ H) α) :=
  .then_any (reportFileName_avoids env header rare) fun _ => .fail rare

/-! ### Opening a volume and reading from it -/

theorem readCommonHeader_ne_stop (p : Bytes) : readCommonHeader p ≠ stop.exit := by
  rw [readCommonHeader]
  refine Exit.bind_ne_stop (Exit.ofAccess_ne_stop rare _) fun signature _ => ?_
  split
  · exact Exit.fail_ne_stop rare
  · iterate 4 refine Exit.bind_ne_stop (Exit.ofAccess_ne_stop rare _) fun _ _ => ?_
    exact Exit.ret_ne_stop _

theorem readerOpenVolume_avoids (volume : Int) :
    Avoids stop pre (readerOpenVolume env header volume) := by
  refine .then_any (fcloseVolume_avoids env) fun _ => ?_
  refine .then_any (fopenVolume_avoids env rare volume) fun _ => ?_
  refine .then_any (freadVolume_avoids env rare _) fun tmp => ?_
  refine .then_any (.ofExit (readCommonHeader_ne_stop rare tmp)) fun _ => .then_any (.modify _) fun _ => ?_
  refine .then_any (freadVolume_avoids env rare _) fun block => ?_
  refine .then_any (.access rare _) fun volumeHeader => ?_
  refine .then_any (.modify _) fun _ => .then_any (.gets _) fun portion => ?_
  cases portion with
  | none => exact .pure ()
  | some portion =>
      refine .then_any (.modify _) fun _ => .then_any (fseekVolume_avoids env rare _) fun _ => ?_
      exact .modify _

theorem freadPortion_avoids (bytesToRead : Nat) :
    Avoids stop pre (freadPortion env header bytesToRead) := by
  refine .onFailure (freadVolume_avoids env rare _) ?_
  refine .then_any (reportFileName_avoids env header rare) fun _ => ?_
  exact .then_any (ftellVolume_avoids env rare) fun _ => .fail rare

theorem readerReadTurn_avoids (vars : Nat × Bytes) : Avoids stop pre (readerReadTurn env header vars) := by
  refine .then_any (.gets _) fun _ => .then_any (ftellVolume_avoids env rare) fun _ => ?_
  refine .then_any (.require rare _) fun _ => ?_
  refine .then_any (freadPortion_avoids env header rare _) fun data => .then_any (.modify _) fun _ => ?_
  refine .ite (fun _ => .pure _) fun _ => .then_any (.gets _) fun volume => ?_
  exact .then_any (readerOpenVolume_avoids env header rare _) fun _ => .pure _

end

/-! ### Inflating -/

theorem inflateInto_ne_stop (zlib : Zlib) (state : zlib.State) (flush : Flush) (input : Bytes)
    (availOut : Nat) : inflateInto zlib state flush input availOut ≠ stop.exit := by
  rw [inflateInto]
  split
  · exact Exit.ret_ne_stop _
  · exact Exit.fault_ne_stop rare

theorem uncompress_ne_stop (zlib : Zlib) (destLen : Nat) (source : Bytes) :
    uncompress zlib destLen source ≠ stop.exit := by
  rw [uncompress]
  rcases zlib.inflateInit2 with ⟨err, state⟩
  show (if _ then _ else _) ≠ _
  split
  · exact Exit.ret_ne_stop _
  · refine Exit.bind_ne_stop (inflateInto_ne_stop rare zlib _ _ _ _) fun inflated _ => ?_
    split <;> exact Exit.ret_ne_stop _

end Unshield
