/-
Module: Unshield.Proofs.Messages
Purpose: What the error messages that name a file do to a call: nothing if there is a name to tell, and a
  read outside the header's data if there is none.
Trusted boundary: none
Main exports: NameTold, reportFileName_run, failWithFileName_run, freadPortion_eq_ret_iff,
  readOrReport_eq_ret_iff
-/
import Unshield.Proofs.ReaderExits

namespace Unshield

open Procedure

/-! ### Names that can be told -/

theorem cString_ne_fail (block : Bytes) (p : Nat) : cString block p ≠ .fail := by
  rw [cString]
  split <;> simp

theorem strlenUtf16_ne_fail (utf16 : List UInt16) : strlenUtf16 utf16 ≠ .fail := by
  rw [strlenUtf16]
  split <;> simp

theorem bufferSizeOf_ne_fail (length : Nat) : bufferSizeOf length ≠ .fail := by
  rw [bufferSizeOf]
  split <;> simp

theorem getUtf8String_ne_fail (bigEndian : Bool) (header : Header) (p : Nat) :
    getUtf8String bigEndian header p ≠ .fail := by
  rw [getUtf8String]
  split
  · simp [Exit.bind_eq_fail_iff, Exit.ofAccess_ne_fail, cString_ne_fail, strlenUtf16_ne_fail,
      bufferSizeOf_ne_fail]
  · exact cString_ne_fail _ _

section

variable {σ H : Type} (env : Environment σ H) (header : Header)

/-- A message can name the file of the descriptor: nobody follows the pointer to the name, or there is a
string to be found. -/
def NameTold (fd : FileDescriptor) : Prop :=
  header.majorVersion ≥ 17 ∨ env.errorsPrinted = true →
    ∃ name, fileName env.bigEndian header fd = .ret name

variable {env header}

/-- A name that can be told changes nothing, and any other one is read outside the header's data. -/
theorem reportFileName_run (s : Session σ H) :
    NameTold env header s.fileDescriptor ∧ reportFileName env header s = (.ret (), s) ∨
      ¬ NameTold env header s.fileDescriptor ∧ reportFileName env header s = (.fault, s) := by
  rw [NameTold, reportFileName, Proc.gets_bind_run]
  by_cases followed : header.majorVersion ≥ 17 ∨ env.errorsPrinted = true
  · rw [if_pos followed]
    cases told : fileName env.bigEndian header s.fileDescriptor with
    | ret name => exact Or.inl ⟨fun _ => ⟨name, rfl⟩, rfl⟩
    | fail => exact absurd told (getUtf8String_ne_fail _ _ _)
    | abort => exact absurd told (getUtf8String_ne_stop header Stop.abort_rare _ _)
    | timeout => exact absurd told (getUtf8String_ne_stop header Stop.timeout_rare _ _)
    | fault =>
        refine Or.inr ⟨fun tells => ?_, rfl⟩
        obtain ⟨name, found⟩ := tells followed
        cases found
  · rw [if_neg followed]
    exact Or.inl ⟨fun holds => absurd holds followed, rfl⟩

/-- The message leaves the session alone. -/
theorem reportFileName_state (s : Session σ H) : (reportFileName env header s).2 = s := by
  rcases @reportFileName_run _ _ env header s with ⟨_, run⟩ | ⟨_, run⟩ <;> rw [run]

theorem failWithFileName_run {α : Type} (s : Session σ H) :
    NameTold env header s.fileDescriptor ∧
        (failWithFileName env header : Proc (Session σ H) α) s = (.fail, s) ∨
      ¬ NameTold env header s.fileDescriptor ∧
        (failWithFileName env header : Proc (Session σ H) α) s = (.fault, s) := by
  rcases @reportFileName_run _ _ env header s with ⟨told, run⟩ | ⟨untold, run⟩
  · exact Or.inl ⟨told, by rw [failWithFileName, Proc.bind_of_ret run, Proc.fail_run]⟩
  · refine Or.inr ⟨untold, ?_⟩
    show Proc.bind (reportFileName env header) _ s = _
    rw [Proc.bind, run]

theorem failWithFileName_state {α : Type} (s : Session σ H) :
    ((failWithFileName env header : Proc (Session σ H) α) s).2 = s := by
  rcases @failWithFileName_run _ _ env header α s with ⟨_, run⟩ | ⟨_, run⟩ <;>
    rw [run]

theorem failWithFileName_ne_ret {α : Type} (s : Session σ H) (value : α) (t : Session σ H) :
    (failWithFileName env header : Proc (Session σ H) α) s ≠ (.ret value, t) := by
  rcases @failWithFileName_run _ _ env header α s with ⟨_, run⟩ | ⟨_, run⟩ <;>
    rw [run] <;> exact nofun

theorem preserves_reportFileName {P : Session σ H → Prop} :
    Proc.Preserves P (reportFileName env header) := by
  intro s holds
  rw [reportFileName_state]
  exact holds

theorem preserves_failWithFileName {α : Type} {P : Session σ H → Prop} :
    Proc.Preserves P (failWithFileName env header : Proc (Session σ H) α) :=
  .bind preserves_reportFileName fun _ => .fail

/-! ### Reads that may be reported -/

theorem freadPortion_eq_ret_iff {bytesToRead : Nat} {data : Bytes} {s t : Session σ H} :
    freadPortion env header bytesToRead s = (.ret data, t) ↔
      freadVolume env bytesToRead s = (.ret data, t) := by
  rw [freadPortion, Proc.onFailure_eq_ret_iff, or_iff_left]
  rintro ⟨s', _, handled⟩
  obtain ⟨_, u, _, handled⟩ := Proc.bind_eq_ret_iff.1 handled
  obtain ⟨_, v, _, handled⟩ := Proc.bind_eq_ret_iff.1 handled
  cases handled

theorem readOrReport_eq_ret_iff {size : Nat} {data : Bytes} {s t : Session σ H} :
    readOrReport env header size s = (.ret data, t) ↔ readerRead env header size s = (.ret data, t) := by
  rw [readOrReport, Proc.onFailure_eq_ret_iff, or_iff_left]
  rintro ⟨s', _, handled⟩
  exact failWithFileName_ne_ret s' data t handled

/-- A failing read is none for its caller either, whatever becomes of the message. -/
theorem readOrReport_noReturn {size : Nat} {s t : Session σ H}
    (run : readerRead env header size s = (.fail, t)) :
    Proc.NoReturn (readOrReport env header size) s := by
  intro data u returns
  rw [readOrReport_eq_ret_iff, run] at returns
  cases returns

theorem ensures_readOrReport {pre : Session σ H → Prop} {post : Bytes → Session σ H → Prop} {size : Nat}
    (ensures : Proc.Ensures pre (readerRead env header size) post) :
    Proc.Ensures pre (readOrReport env header size) post :=
  fun s data t holds run => ensures s data t holds (readOrReport_eq_ret_iff.1 run)

end

end Unshield
