/-
Module: Unshield.Proofs.Readers
Purpose: Which handles the reader can have: those of volumes, of the external files of an archive and of
  their temporary copies.
Trusted boundary: none
Main exports: Readers, Reads, Readers.steady, Readers.readerCreate, ReadsKnown,
  Readers.createOldReader
-/
import Unshield.Proofs.SaveFrame

namespace Unshield

open Procedure
open Procedure.Proc

variable {σ H : Type}

/-- `In` holds of all handles that a reader can have: of volumes, of the external files of the archive's
descriptors, and of the temporary copies of these. -/
structure Readers (env : Environment σ H) (archive : Archive) (cache : Nat → Option FileDescriptor)
    (In : H → Prop) : Prop where
  openForReading : ∀ volume io file, (env.openForReading volume io).1 = some file → In file
  fseek : ∀ file offset whence io, In file → In (env.callbacks.fseek file offset whence io).1
  fread : ∀ file count io, In file → In (env.callbacks.fread file count io).2.1
  fwrite : ∀ file data io, In file → In (env.callbacks.fwrite file data io).2.1
  fopenExternal : ∀ fd path io file, Known archive.header cache fd →
    externalPath env archive fd = .ret path →
    (env.native.fopen path .readBinary io).1 = some file → In file
  tmpfile : ∀ io file, (env.tmpfile io).1 = some file → In file
  nativeFwrite : ∀ file data io, In file → In (env.native.fwrite file data io).2.1
  nativeFseek : ∀ file offset whence io, In file → In (env.native.fseek file offset whence io).1

/-- The reader has such a handle, if it has one. -/
def Reads (In : H → Prop) (s : Session σ H) : Prop := ∀ file, s.reader.volumeFile = some file → In file

section

variable {env : Environment σ H} {archive : Archive} {cache : Nat → Option FileDescriptor}
  {In : H → Prop}

theorem reads_of_none {s : Session σ H} (unopened : s.reader.volumeFile = none) : Reads In s := by
  intro file opened
  rw [unopened] at opened
  cases opened

theorem preserves_reads_fcloseVolume : Preserves (Reads In) (fcloseVolume env) := by
  intro s reads
  rw [fcloseVolume]
  split
  · exact reads
  · exact reads_of_none rfl

variable (readers : Readers env archive cache In)

include readers

theorem Readers.fsizeVolume : Preserves (Reads In) (fsizeVolume env) := by
  intro s reads
  rw [Unshield.fsizeVolume]
  cases opened : s.reader.volumeFile with
  | none => exact reads
  | some file =>
      rintro _ ⟨rfl⟩
      apply readers.fseek
      apply readers.fseek
      exact reads file opened

theorem Readers.volumeSteps : VolumeSteps env (@Reads σ H In) where
  reopen := by
    intro volume
    refine Preserves.bind preserves_reads_fcloseVolume fun _ s reads => ?_
    rw [fopenVolume]
    simp only
    split
    · exact fun file opened => readers.openForReading volume s.io file opened
    · exact fun file opened => readers.openForReading volume s.io file opened
  fread := by
    intro count s reads
    rw [freadVolume]
    cases opened : s.reader.volumeFile with
    | none => exact reads
    | some file =>
        have handle := readers.fread file count s.io (reads file opened)
        simp only
        split
        · rintro _ ⟨rfl⟩
          exact handle
        · rintro _ ⟨rfl⟩
          exact handle
  fseek := by
    intro offset s reads
    rw [fseekVolume]
    cases opened : s.reader.volumeFile with
    | none => exact reads
    | some file =>
        rintro _ ⟨rfl⟩
        exact readers.fseek file offset .set s.io (reads file opened)
  ftell := by
    intro s reads
    rw [ftellVolume]
    cases opened : s.reader.volumeFile with
    | none => exact reads
    | some file => exact fun other told => reads other (opened.symm ▸ told)
  reader := by
    intro s reader file _ reads other opened
    rw [file] at opened
    exact reads other opened

theorem Readers.steady : Steady env archive.header (Reads In) :=
  readers.volumeSteps.steady fun _ _ _ reads => reads

theorem Readers.readerCreate (fuel : Nat) (index : Int) :
    Preserves (Reads In) (readerCreate env archive.header fuel index) :=
  readers.steady.readerCreate fuel index (fun _ _ => reads_of_none rfl) fun _ _ => reads_of_none rfl

theorem Readers.copyTurn (outfile : H) : Preserves (Reads In) (copyTurn env outfile) := by
  intro s reads
  rw [Unshield.copyTurn]
  cases opened : s.reader.volumeFile with
  | none => exact reads
  | some infile =>
      have handle := readers.fread infile copySize s.io (reads infile opened)
      simp only
      split
      · rintro _ ⟨rfl⟩
        exact handle
      · rintro _ ⟨rfl⟩
        exact handle

/-- The handle of the copy stays one that can be read. -/
theorem Readers.copyTurn_ensures (outfile : H) :
    Ensures (fun _ => In outfile) (Unshield.copyTurn env outfile) (Turn.Meets (fun outfile _ => In outfile)
      fun (outfile : H) _ => In outfile) := by
  intro s outcome t readable run
  rw [Unshield.copyTurn] at run
  split at run
  · cases run
  · simp only at run
    split at run
    · cases run
      exact readable
    · cases run
      exact readers.fwrite _ _ _ readable

theorem Readers.completeMarker (fuel diff : Nat) :
    Preserves (Reads In) (completeMarker env fuel diff) := by
  refine @Preserves.bind_of_ensures _ _ _ _ (fun temporary _ => In temporary) _ _ ?_ ?_ ?_
  · intro s reads
    rcases created : env.tmpfile s.io with ⟨_ | file, io⟩
    · simp only [created]
      exact reads
    · simp only [created]
      exact reads
  · intro s temporary t _ run
    rcases created : env.tmpfile s.io with ⟨_ | file, io⟩
    · simp only [created] at run
      cases run
    · simp only [created] at run
      cases run
      apply readers.tmpfile s.io
      rw [created]
  intro temporary s readable
  have copied : Ensures (Reads In) (copyFile env fuel temporary) fun copy _ => In copy :=
    (Ensures.iterate readers.copyTurn_ensures fuel temporary).weaken (fun _ _ => readable)
      fun _ _ holds => holds
  refine Preserves.bind_of_ensures (.iterate readers.copyTurn fuel temporary) copied
    (fun copy s readable' _ => ?_) s
  rintro _ ⟨rfl⟩
  apply readers.nativeFseek
  exact readers.nativeFwrite _ _ _ readable'

/-- The reader has such a handle, and the descriptor it works on is one of the archive's. -/
def ReadsKnown (header : Header) (cache : Nat → Option FileDescriptor) (In : H → Prop)
    (s : Session σ H) : Prop :=
  Reads In s ∧ Known header cache s.fileDescriptor

omit readers in
theorem ReadsKnown.preserves {α : Type} {proc : Proc (Session σ H) α} (reads : Preserves (Reads In) proc)
    (known : Preserves (fun s => Known archive.header cache s.fileDescriptor) proc) :
    Preserves (ReadsKnown archive.header cache In) proc :=
  fun s holds => ⟨reads s holds.1, known s holds.2⟩

theorem Readers.openExternal (fuel : Nat) :
    Leads (ReadsKnown archive.header cache In) (openExternal env archive fuel) (Reads In) := by
  refine @Leads.bind_of_ensures _ _ _ _ _ (fun fd s => Known archive.header cache fd ∧ Reads In s) _ _
    (fun s holds => holds.1) ?_ fun fd => ?_
  · rintro s _ _ ⟨reads, known⟩ ⟨rfl⟩
    exact ⟨known, reads⟩
  rintro s ⟨known, reads⟩
  revert s
  change Preserves (Reads In) _
  refine @Preserves.bind_of_ensures _ _ _ _ (fun path _ => externalPath env archive fd = .ret path) _ _
    (.ofExit _) ?_ fun path s located => ?_
  · intro s path t _ run
    exact (Prod.mk.inj run).1
  revert s
  have opens : Preserves (Reads In) (Unshield.fopenExternal env path) := by
    intro s reads
    rw [Unshield.fopenExternal]
    simp only
    split
    · exact fun file opened => readers.fopenExternal fd path s.io file known located opened
    · exact fun file opened => readers.fopenExternal fd path s.io file known located opened
  refine Preserves.bind opens fun _ => ?_
  refine .ite (fun _ => ?_) fun _ => .modify fun _ reads => reads
  refine Preserves.bind readers.fsizeVolume fun fileSize => ?_
  refine .ite (fun _ => ?_) fun _ => .modify fun _ reads => reads
  exact Preserves.bind (readers.completeMarker _ _) fun _ => .modify fun _ reads => reads

theorem Readers.createOldReader (fuel : Nat) (index : Int) :
    Preserves (ReadsKnown archive.header cache In) (createOldReader env archive fuel index) := by
  have unaffected : Unaffected env fun s => Known archive.header cache s.fileDescriptor :=
    unaffected_known archive.header cache
  apply leads_createOldReader
  · exact .preserves (readers.readerCreate fuel index)
      (preserves_readerCreate env _ unaffected.toUnrelated fuel index)
  · exact .preserves readers.fsizeVolume (preserves_fsizeVolume env unaffected.toApart)
  refine Preserves.bind (.preserves preserves_reads_fcloseVolume
    (preserves_fcloseVolume env unaffected.toApart)) fun _ => ?_
  have opened : Preserves (ReadsKnown archive.header cache In) (Unshield.openExternal env archive fuel) :=
    fun s holds => ⟨readers.openExternal fuel s holds,
      preserves_openExternal env unaffected.toApartExternal archive fuel s holds.2⟩
  exact leads_readerCreateExternal index opened (fun _ holds => ⟨reads_of_none rfl, holds.2⟩)
    fun _ holds => ⟨reads_of_none rfl, holds.2⟩

end

end Unshield
