/-
Module: Unshield.Proofs.ReaderLockstep
Purpose: Two readers side by side, perhaps in different environments: if the operations on their volume
  files keep in step, so do opening a volume and reading.
Trusted boundary: none
Main exports: InStep, InStep.readerOpenVolume, InStep.failWithFileName, InStep.readerReadTurn,
  ReadsInStep, ReadsInStep.readerRead, ReadsInStep.readOrReport
-/
import Unshield.Core.Reader
import Unshield.Foundation.Coupling

namespace Unshield

open Procedure Procedure.Proc

variable {σ σ' H H' : Type}

/-- The operations on volume files keep the two sessions related, which agree in what the reader knows
of its volume and of the file. -/
structure InStep (lost : Session σ' H' → Prop) (R : Session σ H → Session σ' H' → Prop)
    (env : Environment σ H) (env' : Environment σ' H') : Prop where
  fclose : Lockstep lost R (fcloseVolume env) (fcloseVolume env')
  fopen : ∀ volume, Lockstep lost R (fopenVolume env volume) (fopenVolume env' volume)
  fread : ∀ count, Lockstep lost R (freadVolume env count) (freadVolume env' count)
  fseek : ∀ offset, Lockstep lost R (fseekVolume env offset) (fseekVolume env' offset)
  ftell : Lockstep lost R (ftellVolume env) (ftellVolume env')
  libraries : env.toLibraries = env'.toLibraries
  index : ∀ s s', R s s' → s.reader.index = s'.reader.index
  volume : ∀ s s', R s s' → s.reader.volume = s'.reader.volume
  left : ∀ s s', R s s' → s.reader.volumeBytesLeft = s'.reader.volumeBytesLeft
  volumeHeader : ∀ s s', R s s' → s.reader.volumeHeader = s'.reader.volumeHeader
  descriptor : ∀ s s', R s s' → s.fileDescriptor = s'.fileDescriptor
  gone : ∀ s volume volumeHeader left fd, lost s →
    lost { s with
      reader := { s.reader with volume, volumeHeader, volumeBytesLeft := left }
      fileDescriptor := fd }
  change : ∀ s s' volume volumeHeader left fd, R s s' →
    R { s with
        reader := { s.reader with volume, volumeHeader, volumeBytesLeft := left }
        fileDescriptor := fd }
      { s' with
        reader := { s'.reader with volume, volumeHeader, volumeBytesLeft := left }
        fileDescriptor := fd }

namespace InStep

variable {lost : Session σ' H' → Prop} {R : Session σ H → Session σ' H' → Prop}
  {env : Environment σ H} {env' : Environment σ' H'} (inStep : InStep lost R env env') (header : Header)

include inStep

/-- An assignment that makes the same of what the two sessions agree in. -/
theorem assigns {update : Session σ H → Session σ H} {update' : Session σ' H' → Session σ' H'}
    (volume : Int → Int) (volumeHeader : VolumeHeader → VolumeHeader)
    (left : UInt32 → FileDescriptor → UInt32) (fd : UInt32 → FileDescriptor → FileDescriptor)
    (first : ∀ s, update s =
      { s with
        reader :=
          { s.reader with
            volume := volume s.reader.volume
            volumeHeader := volumeHeader s.reader.volumeHeader
            volumeBytesLeft := left s.reader.volumeBytesLeft s.fileDescriptor }
        fileDescriptor := fd s.reader.index s.fileDescriptor })
    (second : ∀ s, update' s =
      { s with
        reader :=
          { s.reader with
            volume := volume s.reader.volume
            volumeHeader := volumeHeader s.reader.volumeHeader
            volumeBytesLeft := left s.reader.volumeBytesLeft s.fileDescriptor }
        fileDescriptor := fd s.reader.index s.fileDescriptor }) :
    Lockstep lost R (Proc.modify update) (Proc.modify update') := by
  apply Lockstep.modify
  · intro s holds
    rw [second]
    exact inStep.gone s _ _ _ _ holds
  · intro s s' related
    rw [first, second, ← inStep.index s s' related, ← inStep.volume s s' related,
      ← inStep.left s s' related, ← inStep.volumeHeader s s' related,
      ← inStep.descriptor s s' related]
    exact inStep.change s s' _ _ _ _ related

theorem readerOpenVolume (volume : Int) :
    Lockstep lost R (readerOpenVolume env header volume) (readerOpenVolume env' header volume) := by
  refine .bind inStep.fclose fun _ => .bind (inStep.fopen volume) fun _ => ?_
  refine .bind (inStep.fread _) fun tmp => .bind (.ofExit _) fun _ => ?_
  refine .bind (inStep.assigns id (fun _ => {}) (fun left _ => left) (fun _ fd => fd) (fun _ => rfl)
    fun _ => rfl) fun _ => ?_
  refine .bind (inStep.fread _) fun block => .bind (.access _) fun volumeHeader => ?_
  refine .bind (inStep.assigns id (fun _ => volumeHeader) (fun left _ => left)
    (fun index fd => markSplit header index volumeHeader fd) (fun _ => rfl) fun _ => rfl) fun _ => ?_
  refine .bind (.gets fun s s' related => ?_) fun portion => ?_
  · rw [inStep.index s s' related, inStep.descriptor s s' related]
  cases portion with
  | none => exact .pure ()
  | some portion =>
      refine .bind (inStep.assigns id id (fun _ fd => portion.volumeBytesLeft fd) (fun _ fd => fd)
        (fun _ => rfl) fun _ => rfl) fun _ => ?_
      refine .bind (inStep.fseek _) fun _ => ?_
      exact inStep.assigns (fun _ => volume) id (fun left _ => left) (fun _ fd => fd) (fun _ => rfl)
        fun _ => rfl

theorem reportFileName : Lockstep lost R (reportFileName env header) (reportFileName env' header) := by
  rw [Unshield.reportFileName, Unshield.reportFileName, inStep.libraries]
  refine .bind (.gets inStep.descriptor) fun fd => .ite (fun _ => ?_) fun _ => .pure _
  exact .bind (.ofExit _) fun _ => .pure _

theorem failWithFileName {α : Type} :
    Lockstep lost R (failWithFileName env header : Proc (Session σ H) α) (failWithFileName env' header) :=
  .bind (inStep.reportFileName header) fun _ => .fail

theorem freadPortion (bytesToRead : Nat) :
    Lockstep lost R (freadPortion env header bytesToRead) (freadPortion env' header bytesToRead) := by
  refine .onFailure (inStep.fread _) ?_
  exact .bind (inStep.reportFileName header) fun _ => .bind inStep.ftell fun _ => .fail

theorem readerReadTurn (vars : Nat × Bytes) :
    Lockstep lost R (readerReadTurn env header vars) (readerReadTurn env' header vars) := by
  obtain ⟨bytesLeft, buffer⟩ := vars
  refine .bind (.gets inStep.left) fun volumeBytesLeft => .bind inStep.ftell fun _ => ?_
  refine .bind (.require _) fun _ => .bind (inStep.freadPortion header _) fun data => ?_
  refine .bind (inStep.assigns id id
    (fun left _ => left - UInt32.ofNat (min bytesLeft volumeBytesLeft.toNat)) (fun _ fd => fd)
    (fun _ => rfl) fun _ => rfl) fun _ => ?_
  refine .ite (fun _ => .pure _) fun _ => .bind (.gets inStep.volume) fun volume => ?_
  exact .bind (inStep.readerOpenVolume header _) fun _ => .pure _

end InStep

/-- Besides, the two readers are at the same place of the keystream. -/
structure ReadsInStep (lost : Session σ' H' → Prop) (R : Session σ H → Session σ' H' → Prop)
    (env : Environment σ H) (env' : Environment σ' H') : Prop extends InStep lost R env env' where
  seed : ∀ s s', R s s' → s.reader.obfuscationOffset = s'.reader.obfuscationOffset
  goneSeed : ∀ s seed, lost s → lost { s with reader.obfuscationOffset := seed }
  changeSeed : ∀ s s' seed, R s s' →
    R { s with reader.obfuscationOffset := seed } { s' with reader.obfuscationOffset := seed }

theorem ReadsInStep.readerRead {lost : Session σ' H' → Prop}
    {R : Session σ H → Session σ' H' → Prop} {env : Environment σ H} {env' : Environment σ' H'}
    (inStep : ReadsInStep lost R env env') (header : Header) (size : Nat) :
    Lockstep lost R (readerRead env header size) (readerRead env' header size) := by
  refine .bind (.iterate (inStep.readerReadTurn header) _ _) fun buffer => ?_
  refine .bind (.gets inStep.descriptor) fun fd => .ite (fun _ => ?_) fun _ => .pure _
  refine ⟨fun s gone => inStep.goneSeed s _ gone, fun s s' related => Or.inr ?_⟩
  rw [readerDeobfuscate, readerDeobfuscate, inStep.seed s s' related]
  exact ⟨rfl, inStep.changeSeed s s' _ related⟩

theorem ReadsInStep.readOrReport {lost : Session σ' H' → Prop}
    {R : Session σ H → Session σ' H' → Prop} {env : Environment σ H} {env' : Environment σ' H'}
    (inStep : ReadsInStep lost R env env') (header : Header) (size : Nat) :
    Lockstep lost R (readOrReport env header size) (readOrReport env' header size) :=
  .onFailure (inStep.readerRead header size) (inStep.failWithFileName header)

end Unshield
