/-
Module: Unshield.Proofs.DryRuns
Purpose: A save function without an output file, side by side with the same call with one: they end in
  the same way and leave the same descriptors behind, if nothing hinders the output and what is done to
  it does not show in what is read.
Trusted boundary: none
Main exports: OutputApart, Notices, Dry, dry_saveNew, dry_saveRaw, dry_saveOld, Predicts,
  dry_runs_agree, readers_onFiles, outputApart_onFiles
-/
import Unshield.Core.SharedFiles
import Unshield.Core.WatchedEnvironment
import Unshield.Foundation.Coupling
import Unshield.Proofs.LinkChains
import Unshield.Proofs.ReaderLockstep
import Unshield.Proofs.Readers
import Unshield.Proofs.SaveNew

namespace Unshield

open Procedure
open Procedure.Proc

variable {σ H : Type}

/-! ### The output file -/

/-- What is done to the output file does not show in what is read: `Same` relates worlds that readers
cannot tell apart, `In` holds of the handles of readers, and `Out` of those of the output file. -/
structure OutputApart (env : Environment σ H) (path : Bytes) (Same : σ → σ → Prop)
    (In Out : H → Prop) : Prop where
  refl : ∀ io, Same io io
  openForReading : ∀ {io io'} volume, Same io io' →
    (env.openForReading volume io).1 = (env.openForReading volume io').1 ∧
      Same (env.openForReading volume io).2 (env.openForReading volume io').2
  fseek : ∀ {io io' file} offset whence, In file → Same io io' →
    (env.callbacks.fseek file offset whence io).1 = (env.callbacks.fseek file offset whence io').1 ∧
      Same (env.callbacks.fseek file offset whence io).2 (env.callbacks.fseek file offset whence io').2
  ftell : ∀ {io io' file}, In file → Same io io' →
    Same (env.callbacks.ftell file io).2 (env.callbacks.ftell file io').2
  fread : ∀ {io io' file} count, In file → Same io io' →
    (env.callbacks.fread file count io).1 = (env.callbacks.fread file count io').1 ∧
      (env.callbacks.fread file count io).2.1 = (env.callbacks.fread file count io').2.1 ∧
      Same (env.callbacks.fread file count io).2.2 (env.callbacks.fread file count io').2.2
  fclose : ∀ {io io' file}, In file → Same io io' →
    Same (env.callbacks.fclose file io) (env.callbacks.fclose file io')
  fopenOutput : ∀ {io io'}, Same io io' →
    Same io (env.callbacks.fopen path .writeBinary io').2 ∧
      ∀ file, (env.callbacks.fopen path .writeBinary io').1 = some file → Out file
  fwriteOutput : ∀ {io io' file} data, Out file → Same io io' →
    Same io (env.callbacks.fwrite file data io').2.2 ∧ Out (env.callbacks.fwrite file data io').2.1

/-- The world is hindered once the output file could not be opened, or not everything could be written
to it. -/
structure Notices (env : Environment σ H) (path : Bytes) (Out : H → Prop) (hindered : σ → Prop) :
    Prop where
  kept : Kept env hindered
  fopenOutput : ∀ io, (env.callbacks.fopen path .writeBinary io).1 = none →
    hindered (env.callbacks.fopen path .writeBinary io).2
  fwriteOutput : ∀ file data io, Out file → (env.callbacks.fwrite file data io).1 ≠ data.length →
    hindered (env.callbacks.fwrite file data io).2.2

/-- A session without an output file, and the same session with one. -/
structure Dry (Same : σ → σ → Prop) (In Out : H → Prop) (s s' : Session σ H) : Prop where
  reader : s.reader = s'.reader
  fileDescriptor : s.fileDescriptor = s'.fileDescriptor
  silent : s.output = none
  writing : ∃ file, s'.output = some file ∧ Out file
  world : Same s.io s'.io
  reads : Reads In s

/-- One and the same session on a file of the archive, in which there is no output file yet. -/
def Fresh (header : Header) (cache : Nat → Option FileDescriptor) (In : H → Prop)
    (s s' : Session σ H) : Prop :=
  s = s' ∧ s.output = none ∧ ReadsKnown header cache In s

/-- The procedure takes a session without an output file and one with to the same exit, and leaves them
alike. -/
abbrev KeepsDry {α : Type} (hindered : σ → Prop) (Same : σ → σ → Prop) (In Out : H → Prop)
    (proc : Proc (Session σ H) α) : Prop :=
  Lockstep (fun s : Session σ H => hindered s.io) (Dry Same In Out) proc proc

section

variable {env : Environment σ H} {archive : Archive} {cache : Nat → Option FileDescriptor}
  {path : Bytes} {Same : σ → σ → Prop} {In Out : H → Prop} {hindered : σ → Prop}
  (readers : Readers env archive cache In)
  (apart : OutputApart env path Same In Out) (notices : Notices env path Out hindered)

include readers apart notices

/-! ### The reader -/

omit readers in
theorem dry_fcloseVolume : KeepsDry hindered Same In Out (fcloseVolume env) where
  stays := preserves_fcloseVolume _ notices.kept.unaffected.toApart
  agree := by
    rintro ⟨reader, fd, output, io⟩ ⟨_, _, output', io'⟩ ⟨rfl, rfl, silent, writing, world, reads⟩
    apply Or.inr
    rw [fcloseVolume, fcloseVolume]
    cases opened : reader.volumeFile with
    | none => exact ⟨rfl, rfl, rfl, silent, writing, world, reads⟩
    | some file =>
        exact ⟨rfl, rfl, rfl, silent, writing, apart.fclose (reads file opened) world,
          reads_of_none rfl⟩

theorem dry_fopenVolume (volume : Int) : KeepsDry hindered Same In Out (fopenVolume env volume) where
  stays := preserves_fopenVolume _ notices.kept.unaffected.toApart volume
  agree := by
    rintro ⟨reader, fd, output, io⟩ ⟨_, _, output', io'⟩ ⟨rfl, rfl, silent, writing, world, reads⟩
    apply Or.inr
    obtain ⟨same, after⟩ := apart.openForReading volume world
    have handle := readers.openForReading volume io'
    rw [fopenVolume, fopenVolume]
    simp only
    rw [same]
    split
    · exact ⟨rfl, rfl, rfl, silent, writing, after, handle⟩
    · exact ⟨rfl, rfl, rfl, silent, writing, after, handle⟩

theorem dry_freadVolume (count : Nat) : KeepsDry hindered Same In Out (freadVolume env count) where
  stays := preserves_freadVolume _ notices.kept.unaffected.toApart count
  agree := by
    rintro ⟨reader, fd, output, io⟩ ⟨_, _, output', io'⟩ ⟨rfl, rfl, silent, writing, world, reads⟩
    apply Or.inr
    rw [freadVolume, freadVolume]
    cases opened : reader.volumeFile with
    | none => exact ⟨rfl, rfl, rfl, silent, writing, world, reads⟩
    | some file =>
        obtain ⟨data, handle, after⟩ := apart.fread count (reads file opened) world
        have readable : In (env.callbacks.fread file count io').2.1 :=
          readers.fread file count io' (reads file opened)
        simp only
        rw [data, handle]
        split
        · refine ⟨rfl, rfl, rfl, silent, writing, after, ?_⟩
          rintro _ ⟨rfl⟩
          exact readable
        · refine ⟨rfl, rfl, rfl, silent, writing, after, ?_⟩
          rintro _ ⟨rfl⟩
          exact readable

theorem dry_fseekVolume (offset : Int) : KeepsDry hindered Same In Out (fseekVolume env offset) where
  stays := preserves_fseekVolume _ notices.kept.unaffected.toApart offset
  agree := by
    rintro ⟨reader, fd, output, io⟩ ⟨_, _, output', io'⟩ ⟨rfl, rfl, silent, writing, world, reads⟩
    apply Or.inr
    rw [fseekVolume, fseekVolume]
    cases opened : reader.volumeFile with
    | none => exact ⟨rfl, rfl, rfl, silent, writing, world, reads⟩
    | some file =>
        obtain ⟨handle, after⟩ := apart.fseek offset .set (reads file opened) world
        have readable : In (env.callbacks.fseek file offset .set io').1 :=
          readers.fseek file offset .set io' (reads file opened)
        refine ⟨rfl, congrArg (fun file => { reader with volumeFile := some file }) handle, rfl, silent,
          writing, after, ?_⟩
        rintro _ ⟨rfl⟩
        rw [handle]
        exact readable

omit readers in
theorem dry_ftellVolume : KeepsDry hindered Same In Out (ftellVolume env) where
  stays := preserves_ftellVolume _ notices.kept.unaffected.toApart
  agree := by
    rintro ⟨reader, fd, output, io⟩ ⟨_, _, output', io'⟩ ⟨rfl, rfl, silent, writing, world, reads⟩
    apply Or.inr
    rw [ftellVolume, ftellVolume]
    cases opened : reader.volumeFile with
    | none => exact ⟨rfl, rfl, rfl, silent, writing, world, reads⟩
    | some file =>
        exact ⟨rfl, rfl, rfl, silent, writing, apart.ftell (reads file opened) world, reads⟩

theorem readsInStep_dry : ReadsInStep (fun s : Session σ H => hindered s.io) (Dry Same In Out) env env where
  fclose := dry_fcloseVolume apart notices
  fopen := dry_fopenVolume readers apart notices
  fread := dry_freadVolume readers apart notices
  fseek := dry_fseekVolume readers apart notices
  ftell := dry_ftellVolume apart notices
  libraries := rfl
  index := fun _ _ dry => congrArg Reader.index dry.reader
  volume := fun _ _ dry => congrArg Reader.volume dry.reader
  left := fun _ _ dry => congrArg Reader.volumeBytesLeft dry.reader
  volumeHeader := fun _ _ dry => congrArg Reader.volumeHeader dry.reader
  descriptor := fun _ _ dry => dry.fileDescriptor
  gone := fun _ _ _ _ _ gone => gone
  change := by
    rintro ⟨reader, _, output, io⟩ ⟨_, _, output', io'⟩ volume volumeHeader left fd dry
    obtain ⟨rfl, rfl, silent, writing, world, reads⟩ := dry
    exact ⟨rfl, rfl, silent, writing, world, reads⟩
  seed := fun _ _ dry => congrArg Reader.obfuscationOffset dry.reader
  goneSeed := fun _ _ gone => gone
  changeSeed := by
    rintro ⟨reader, fd, output, io⟩ ⟨_, _, output', io'⟩ seed dry
    obtain ⟨rfl, rfl, silent, writing, world, reads⟩ := dry
    exact ⟨rfl, rfl, silent, writing, world, reads⟩

theorem dry_readerRead (size : Nat) :
    KeepsDry hindered Same In Out (readerRead env archive.header size) :=
  (readsInStep_dry readers apart notices).readerRead archive.header size

/-! ### The loops -/

omit readers in
/-- What is written does not show on the other side, unless it is cut short. -/
theorem dry_fwriteOutput (data : Bytes) : KeepsDry hindered Same In Out (fwriteOutput env data) where
  stays := notices.kept.fwriteOutput data
  agree := by
    rintro ⟨reader, fd, output, io⟩ ⟨_, _, output', io'⟩ ⟨rfl, rfl, silent, ⟨file, rfl, out⟩, world, reads⟩
    cases silent
    obtain ⟨after, out'⟩ := apart.fwriteOutput data out world
    rw [fwriteOutput, fwriteOutput]
    simp only
    by_cases full : (env.callbacks.fwrite file data io').1 = data.length
    · rw [if_pos full]
      exact Or.inr ⟨rfl, rfl, rfl, rfl, ⟨_, rfl, out'⟩, after, reads⟩
    · rw [if_neg full]
      exact Or.inl (notices.fwriteOutput file data io' out full)

theorem dry_saveData (fd : FileDescriptor) (bytesLeft : UInt32) (outputBuffer : Block) :
    KeepsDry hindered Same In Out (saveData env archive fd bytesLeft outputBuffer) := by
  refine .ite (fun _ => ?_) fun _ => ?_
  · have reads := (readsInStep_dry readers apart notices).readOrReport archive.header
    refine .bind (reads 2) fun lengthBytes => ?_
    refine .bind (.access _) fun bytesToRead => ?_
    refine .bind (.require _) fun _ => ?_
    refine .bind (reads _) fun chunk => ?_
    refine .bind (.ofExit _) fun result => ?_
    refine .bind (.access _) fun buffer => ?_
    exact .bind (.require _) fun _ => .pure _
  · refine .bind (dry_readerRead readers apart notices _) fun data => ?_
    exact .bind (.access _) fun buffer => .pure _

theorem dry_saveTurn (vars : SaveVars env.md5) :
    KeepsDry hindered Same In Out (saveTurn env archive vars) := by
  refine .ite (fun _ => .pure _) fun _ => ?_
  refine .bind (.gets fun s s' dry => dry.fileDescriptor) fun fd => ?_
  refine .bind (dry_saveData readers apart notices _ _ _) fun data => ?_
  refine .bind (.access _) fun bytes => ?_
  exact .bind (dry_fwriteOutput apart notices bytes) fun _ => .pure _

theorem dry_saveRawTurn (bytesLeft : UInt32) :
    KeepsDry hindered Same In Out (saveRawTurn env archive bytesLeft) := by
  refine .ite (fun _ => .pure _) fun _ => ?_
  refine .bind (dry_readerRead readers apart notices _) fun data => ?_
  exact .bind (dry_fwriteOutput apart notices data) fun _ => .pure _

theorem dry_chunkTurn (fuel : Nat) (vars : ChunkVars) :
    KeepsDry hindered Same In Out (chunkTurn env archive fuel vars) := by
  refine .ite (fun _ => .pure _) fun _ => ?_
  refine .bind (.ofExit _) fun size => ?_
  cases size with
  | none => exact (readsInStep_dry readers apart notices).failWithFileName archive.header
  | some size =>
      refine .bind (.access _) fun buffer => ?_
      refine .bind (.access _) fun source => ?_
      refine .bind (.ofExit _) fun result => ?_
      refine .bind (.require _) fun _ => ?_
      exact .bind (dry_fwriteOutput apart notices _) fun _ => .pure _

theorem dry_openExhausted : KeepsDry hindered Same In Out (openExhausted env archive) := by
  refine .bind (.gets fun s s' dry => ?_) fun volumeBytesLeft => ?_
  · rw [dry.reader]
  refine .ite (fun _ => ?_) fun _ => .pure _
  refine .bind (.gets fun s s' dry => ?_) fun volume =>
    (readsInStep_dry readers apart notices).readerOpenVolume archive.header _
  rw [dry.reader]

theorem dry_saveOldTurn (fuel : Nat) (vars : SaveOldVars) :
    KeepsDry hindered Same In Out (saveOldTurn env archive fuel vars) := by
  refine .ite (fun _ => .pure _) fun _ => ?_
  refine .bind (dry_openExhausted readers apart notices) fun _ => ?_
  refine .bind (.gets fun s s' dry => dry.fileDescriptor) fun fd => ?_
  refine .bind (.ite (fun _ => ?_) fun _ => ?_) fun _ => .pure _
  · refine .bind (.gets fun s s' dry => ?_) fun volumeBytesLeft => ?_
    · rw [dry.reader]
    refine .bind ((readsInStep_dry readers apart notices).readOrReport archive.header _) fun data => ?_
    refine .bind (.access _) fun buffer => ?_
    exact .iterate (dry_chunkTurn readers apart notices fuel) fuel _
  · refine .bind (dry_readerRead readers apart notices _) fun data => ?_
    exact .bind (dry_fwriteOutput apart notices data) fun _ => .pure _

/-! ### The bodies -/

omit readers apart notices in
/-- What reads and does not write is the same on both sides. -/
theorem fresh_of_preserves {α : Type} {proc : Proc (Session σ H) α}
    (kept : Preserves (fun s : Session σ H => hindered s.io) proc)
    (silent : Preserves (fun s : Session σ H => s.output = none) proc)
    (reads : Preserves (ReadsKnown archive.header cache In) proc) :
    Lockstep (fun s : Session σ H => hindered s.io) (Fresh archive.header cache In) proc proc :=
  .refl kept fun s holds => ⟨silent s holds.1, reads s holds.2⟩

omit readers apart notices in
theorem unaffected_silent : Unaffected env fun s => s.output = none :=
  .of_deaf (fun _ _ silent => silent) (fun _ _ _ silent => silent) fun _ _ silent => silent

omit apart in
theorem fresh_readerCreate (fuel : Nat) (index : Int) :
    Lockstep (fun s : Session σ H => hindered s.io) (Fresh archive.header cache In)
      (readerCreate env archive.header fuel index) (readerCreate env archive.header fuel index) :=
  fresh_of_preserves (preserves_readerCreate env _ notices.kept.unaffected.toUnrelated fuel index)
    (preserves_readerCreate env _ unaffected_silent.toUnrelated fuel index)
    (.preserves (readers.readerCreate fuel index)
      (preserves_readerCreate env _ (unaffected_known _ _).toUnrelated fuel index))

omit apart in
theorem fresh_fsizeVolume : Lockstep (fun s : Session σ H => hindered s.io)
    (Fresh archive.header cache In) (fsizeVolume env) (fsizeVolume env) :=
  fresh_of_preserves (preserves_fsizeVolume env notices.kept.unaffected.toApart)
    (preserves_fsizeVolume env unaffected_silent.toApart)
    (.preserves readers.fsizeVolume (preserves_fsizeVolume env (unaffected_known _ _).toApart))

omit apart in
theorem fresh_createOldReader (fuel : Nat) (index : Int) :
    Lockstep (fun s : Session σ H => hindered s.io) (Fresh archive.header cache In)
      (createOldReader env archive fuel index) (createOldReader env archive fuel index) :=
  fresh_of_preserves (preserves_createOldReader env notices.kept.unaffected fuel index)
    (preserves_createOldReader env unaffected_silent fuel index) (readers.createOldReader fuel index)

omit readers in
/-- The output file is opened, or the world is hindered. -/
theorem dry_fopenOutput : Couples (fun s : Session σ H => hindered s.io)
    (Fresh archive.header cache In) (fopenOutput env none) (fopenOutput env (some path))
    (Dry Same In Out) where
  stays := notices.kept.fopenOutput (some path)
  agree := by
    rintro s _ ⟨rfl, silent, reads, known⟩
    obtain ⟨after, out⟩ := apart.fopenOutput (apart.refl s.io)
    rw [fopenOutput, fopenOutput]
    simp only
    cases opened : (env.callbacks.fopen path .writeBinary s.io).1 with
    | none => exact Or.inl (notices.fopenOutput s.io opened)
    | some file => exact Or.inr ⟨rfl, rfl, rfl, silent, ⟨file, rfl, out file opened⟩, after, reads⟩

omit readers apart notices in
theorem Fresh.fileDescriptor (s s' : Session σ H) (fresh : Fresh archive.header cache In s s') :
    s.fileDescriptor = s'.fileDescriptor := by
  rw [fresh.1]

omit readers in
/-- What follows the opening of the output file does not depend on whether there is one. -/
theorem dry_output {next : Proc (Session σ H) Unit} (dry : KeepsDry hindered Same In Out next) :
    Couples (fun s : Session σ H => hindered s.io) (Fresh archive.header cache In)
      (fopenOutput env none >>= fun _ => next) (fopenOutput env (some path) >>= fun _ => next)
      fun s s' => s.fileDescriptor = s'.fileDescriptor :=
  Couples.bind (dry_fopenOutput apart notices) (fun _ _ dry => dry.fileDescriptor) fun _ =>
    dry.weaken fun _ _ dry => dry.fileDescriptor

omit readers in
/-- From the point on where there is a reader, the two calls differ only in the output file. -/
theorem dry_opened {size : Int} {next : FileDescriptor → Proc (Session σ H) Unit}
    (dry : ∀ fd, KeepsDry hindered Same In Out (next fd)) :
    Couples (fun s : Session σ H => hindered s.io) (Fresh archive.header cache In)
      (do
        let fd ← Proc.gets fun s => s.fileDescriptor
        Proc.require (size ≠ fd.dataOffset.toInt64.toInt)
        fopenOutput env none
        next fd)
      (do
        let fd ← Proc.gets fun s => s.fileDescriptor
        Proc.require (size ≠ fd.dataOffset.toInt64.toInt)
        fopenOutput env (some path)
        next fd)
      fun s s' => s.fileDescriptor = s'.fileDescriptor := by
  refine Couples.bind (Lockstep.gets Fresh.fileDescriptor) Fresh.fileDescriptor fun fd => ?_
  refine Couples.bind (Lockstep.require _) Fresh.fileDescriptor fun _ => ?_
  exact dry_output apart notices (dry fd)

theorem dry_saveNew (fuel : Nat) (index : Int) :
    Couples (fun s : Session σ H => hindered s.io) (Fresh archive.header cache In)
      (saveNew env archive none fuel index) (saveNew env archive (some path) fuel index)
      fun s s' => s.fileDescriptor = s'.fileDescriptor := by
  refine Couples.bind (fresh_readerCreate readers notices fuel index) Fresh.fileDescriptor fun _ => ?_
  refine Couples.bind (fresh_fsizeVolume readers notices) Fresh.fileDescriptor fun size => ?_
  apply dry_opened apart notices
  intro fd
  refine .bind (.iterate (dry_saveTurn readers apart notices) fuel _) fun vars => ?_
  refine .bind (.gets fun s s' dry => dry.fileDescriptor) fun fd => ?_
  refine .bind (.require _) fun _ => ?_
  refine .ite (fun _ => ?_) fun _ => .pure _
  exact .onFailure (.require _) ((readsInStep_dry readers apart notices).failWithFileName archive.header)

theorem dry_saveRaw (fuel : Nat) (index : Int) :
    Couples (fun s : Session σ H => hindered s.io) (Fresh archive.header cache In)
      (saveRaw env archive none fuel index) (saveRaw env archive (some path) fuel index)
      fun s s' => s.fileDescriptor = s'.fileDescriptor := by
  refine Couples.bind (fresh_readerCreate readers notices fuel index) Fresh.fileDescriptor fun _ => ?_
  refine Couples.bind (fresh_fsizeVolume readers notices) Fresh.fileDescriptor fun size => ?_
  apply dry_opened apart notices
  exact fun fd => .iterate (dry_saveRawTurn readers apart notices) fuel _

theorem dry_saveOld (fuel : Nat) (index : Int) :
    Couples (fun s : Session σ H => hindered s.io) (Fresh archive.header cache In)
      (saveOld env archive none fuel index) (saveOld env archive (some path) fuel index)
      fun s s' => s.fileDescriptor = s'.fileDescriptor := by
  refine Couples.bind (fresh_createOldReader readers notices fuel index) Fresh.fileDescriptor fun _ => ?_
  apply dry_output apart notices
  refine .bind (.gets fun s s' dry => dry.fileDescriptor) fun fd => ?_
  refine .bind (.iterate (dry_saveOldTurn readers apart notices fuel) fuel _) fun vars => ?_
  exact .bind (.gets fun s s' dry => dry.fileDescriptor) fun fd => .require _

/-! ### The calls -/

/-- The library knowsOnly the same descriptors. -/
def SameDescriptors (library library' : Library σ) : Prop :=
  library.fileDescriptors = library'.fileDescriptors

/-- All descriptors that the library knowsOnly are those of the archive. -/
def KnowsOnly (header : Header) (cache : Nat → Option FileDescriptor) (library : Library σ) : Prop :=
  ∀ place fd, library.fileDescriptors place = some fd → Known header cache fd

omit readers apart notices in
theorem knowsOnly_getFileDescriptor (index : Int) :
    Preserves (fun library : Library σ => KnowsOnly archive.header cache library)
      (getFileDescriptor archive.header index) := by
  intro library knowsOnly
  by_cases valid : ValidIndex archive.header index
  · cases remembered : library.fileDescriptors index.toNat with
    | some fd =>
        rw [getFileDescriptor_of_remembered valid remembered]
        exact knowsOnly
    | none =>
        rw [getFileDescriptor_of_new valid remembered]
        cases decoded : readFileDescriptor archive.header index with
        | ret fd =>
            intro place other found
            change Function.update library.fileDescriptors index.toNat (some fd) place = some other at found
            by_cases same : place = index.toNat
            · subst same
              rw [Function.update_self] at found
              obtain rfl := Option.some.inj found
              exact known_of_read decoded
            · rw [Function.update_of_ne same] at found
              exact knowsOnly place other found
        | fail => exact knowsOnly
        | abort => exact knowsOnly
        | fault => exact knowsOnly
        | timeout => exact knowsOnly
  · rw [getFileDescriptor_of_invalid valid]
    exact knowsOnly

omit readers apart notices in
theorem known_getFileDescriptor (index : Int) :
    Ensures (fun library : Library σ => KnowsOnly archive.header cache library)
      (getFileDescriptor archive.header index) fun fd _ => Known archive.header cache fd := by
  intro library fd after knowsOnly run
  have found : descriptorAt archive.header library.fileDescriptors index = .ret fd := by
    rw [← getFileDescriptor_exit, run]
  rw [descriptorAt] at found
  split at found
  · cases remembered : library.fileDescriptors index.toNat with
    | some cached =>
        rw [remembered] at found
        obtain rfl := Exit.ret.inj found
        exact knowsOnly _ _ remembered
    | none =>
        rw [remembered] at found
        exact known_of_read found
  · cases found

omit readers apart in
theorem dry_runSession {body body' : Proc (Session σ H) Unit}
    (dry : Couples (fun s : Session σ H => hindered s.io) (Fresh archive.header cache In) body body'
      fun s s' => s.fileDescriptor = s'.fileDescriptor) (index : Nat) {fd : FileDescriptor}
    (known : Known archive.header cache fd) :
    Couples (fun library : Library σ => hindered library.io) Eq (runSession env index fd body)
      (runSession env index fd body') SameDescriptors where
  stays := notices.kept.runSession dry.stays index fd
  agree := by
    rintro library _ rfl
    have agreed := dry.agree _ { reader := { index := 0 }, fileDescriptor := fd, io := library.io }
      ⟨rfl, rfl, reads_of_none rfl, known⟩
    revert agreed
    rw [runSession, runSession]
    rcases body { reader := { index := 0 }, fileDescriptor := fd, io := library.io } with ⟨exit, s⟩
    rcases body' { reader := { index := 0 }, fileDescriptor := fd, io := library.io } with ⟨exit', s'⟩
    rintro (gone | ⟨same, descriptor⟩)
    · apply Or.inl
      cases exit' with
      | ret value => exact notices.kept.closeSession gone
      | fail => exact notices.kept.closeSession gone
      | abort => exact gone
      | fault => exact gone
      | timeout => exact gone
    · apply Or.inr
      simp only at same descriptor
      subst same
      have updated : Function.update library.fileDescriptors index (some s.fileDescriptor) =
          Function.update library.fileDescriptors index (some s'.fileDescriptor) := by
        rw [descriptor]
      cases exit <;> exact ⟨rfl, updated⟩

omit readers apart in
/-- Along links, the two calls go to the same file. -/
theorem dry_saveThroughLinks {save save' : Nat → Int → Proc (Session σ H) Unit}
    (dry : ∀ fuel index, Couples (fun s : Session σ H => hindered s.io) (Fresh archive.header cache In)
      (save fuel index) (save' fuel index) fun s s' => s.fileDescriptor = s'.fileDescriptor) (fuel : Nat) :
    ∀ index, Couples (fun library : Library σ => hindered library.io)
      (fun library library' => library = library' ∧ KnowsOnly archive.header cache library)
      (saveThroughLinks env archive save fuel index) (saveThroughLinks env archive save' fuel index)
      SameDescriptors := by
  have remembered : ∀ library library' : Library σ,
      library = library' ∧ KnowsOnly archive.header cache library → SameDescriptors library library' :=
    fun _ _ same => congrArg Library.fileDescriptors same.1
  induction fuel with
  | zero => exact fun _ => ⟨fun _ gone => gone, fun _ _ same => Or.inr ⟨rfl, remembered _ _ same⟩⟩
  | succ fuel ih =>
      intro index
      refine Couples.bind_of_ensures (.refl (preserves_getFileDescriptor archive.header index)
        (knowsOnly_getFileDescriptor index)) (fun _ _ same => same.2) (known_getFileDescriptor index)
        remembered (fun fd => ?_) fun fd known => ?_
      · refine .bind (.require _) fun _ => .ite (fun _ => (ih _).stays) fun _ => ?_
        exact notices.kept.runSession (dry fuel index).stays _ fd
      refine Couples.bind (Lockstep.require _) remembered fun _ => ?_
      exact Couples.ite (fun _ => ih _) fun _ =>
        (dry_runSession notices (dry fuel index) _ known).strengthen fun _ _ same => same.1

end

/-! ### Watching -/

section

variable {env : Environment σ H} {archive : Archive} {cache : Nat → Option FileDescriptor}
  {path : Bytes} {Same : σ → σ → Prop} {In Out : H → Prop}

theorem handle_of_map {opened : Option H} {output : Bool} {file : WatchedHandle H}
    (watched : opened.map (fun handle => { handle, output }) = some file) :
    opened = some file.handle ∧ file.output = output := by
  cases opened with
  | none => cases watched
  | some handle =>
      cases watched
      exact ⟨rfl, rfl⟩

/-- Watching changes nothing for readers. -/
theorem Readers.watched (readers : Readers env archive cache In) :
    Readers env.watched archive cache fun file => In file.handle where
  openForReading := fun volume world _ opened =>
    readers.openForReading volume world.io _ (handle_of_map opened).1
  fseek := fun file offset whence world reads => readers.fseek file.handle offset whence world.io reads
  fread := fun file count world reads => readers.fread file.handle count world.io reads
  fwrite := fun file data world reads => readers.fwrite file.handle data world.io reads
  fopenExternal := fun fd path world _ known located opened =>
    readers.fopenExternal fd path world.io _ known located (handle_of_map opened).1
  tmpfile := fun world _ opened => readers.tmpfile world.io _ (handle_of_map opened).1
  nativeFwrite := fun file data world reads => readers.nativeFwrite file.handle data world.io reads
  nativeFseek := fun file offset whence world reads =>
    readers.nativeFseek file.handle offset whence world.io reads

theorem OutputApart.watched (apart : OutputApart env path Same In Out) :
    OutputApart env.watched path (fun world world' => Same world.io world'.io)
      (fun file => In file.handle) (fun file => file.output = true ∧ Out file.handle) where
  refl := fun world => apart.refl world.io
  openForReading := fun volume same =>
    (apart.openForReading volume same).imp_left (congrArg (Option.map _))
  fseek := by
    intro world world' file offset whence reads same
    obtain ⟨handle, after⟩ := apart.fseek offset whence reads same
    exact ⟨congrArg (fun handle => { file with handle := handle }) handle, after⟩
  ftell := fun reads same => apart.ftell reads same
  fread := by
    intro world world' file count reads same
    obtain ⟨data, handle, after⟩ := apart.fread count reads same
    exact ⟨data, congrArg (fun handle => { file with handle := handle }) handle, after⟩
  fclose := fun reads same => apart.fclose reads same
  fopenOutput := fun same => (apart.fopenOutput same).imp_right fun out file opened =>
    ⟨(handle_of_map opened).2, out _ (handle_of_map opened).1⟩
  fwriteOutput := fun data out same => (apart.fwriteOutput data out.2 same).imp_right fun out' =>
    ⟨out.1, out'⟩

theorem kept_hindered (env : Environment σ H) :
    Kept env.watched fun world => world.hindered = true where
  callbacks :=
    { fopen := fun path mode io gone => by
        show (io.hindered || _) = true
        rw [gone, Bool.true_or]
      fseek := fun _ _ _ _ gone => gone
      ftell := fun _ _ gone => gone
      fread := fun _ _ _ gone => gone
      fwrite := fun file data io gone => by
        show (io.hindered || _) = true
        rw [gone, Bool.true_or]
      fclose := fun _ _ gone => gone }
  native :=
    { fopen := fun _ _ _ gone => gone
      fseek := fun _ _ _ _ gone => gone
      ftell := fun _ _ gone => gone
      fread := fun _ _ _ gone => gone
      fwrite := fun file data io gone => by
        show (io.hindered || _) = true
        rw [gone, Bool.true_or]
      fclose := fun _ _ gone => gone }
  openForReading := fun _ _ gone => gone
  tmpfile := fun _ gone => gone

theorem notices_watched (env : Environment σ H) (path : Bytes) (Out : H → Prop) :
    Notices env.watched path (fun file => file.output = true ∧ Out file.handle)
      fun world => world.hindered = true where
  kept := kept_hindered env
  fopenOutput := by
    intro world failed
    have unopened : (env.callbacks.fopen path .writeBinary world.io).1 = none :=
      Option.map_eq_none_iff.1 failed
    show (world.hindered || (true && (env.callbacks.fopen path .writeBinary world.io).1.isNone)) = true
    rw [unopened]
    exact Bool.or_true _
  fwriteOutput := by
    intro file data world out short
    show (world.hindered || (file.output &&
      decide ((env.callbacks.fwrite file.handle data world.io).1 ≠ data.length))) = true
    rw [out.1, decide_eq_true (show (env.callbacks.fwrite file.handle data world.io).1 ≠ _ from short)]
    exact Bool.or_true _

end

/-- If the output file could be opened and all of the output be written, then the call without an output
file has ended in the same way and left the same descriptors in the cache. -/
def Predicts (call : Option Bytes → Proc (Library (Watched σ)) Unit) (path : Bytes)
    (library : Library (Watched σ)) : Prop :=
  (call (some path) library).2.io.hindered = false →
    (call none library).1 = (call (some path) library).1 ∧
      SameDescriptors (call none library).2 (call (some path) library).2

theorem predicts_of_couples {call : Option Bytes → Proc (Library (Watched σ)) Unit} {path : Bytes}
    {start : Library (Watched σ) → Prop}
    (couples : Couples (fun library : Library (Watched σ) => library.io.hindered = true)
      (fun library library' => library = library' ∧ start library) (call none) (call (some path))
      SameDescriptors) {library : Library (Watched σ)} (starts : start library) :
    Predicts call path library := by
  intro free
  rcases couples.agree library library ⟨rfl, starts⟩ with gone | agreed
  · rw [free] at gone
    cases gone
  · exact agreed

/-- A call without an output file tells how the call with one ends, and has the same effect on the
descriptors, if what is done to the output file does not show in the files that the archive is read
from. -/
theorem dry_runs_agree {env : Environment σ H} {archive : Archive} {path : Bytes}
    {Same : σ → σ → Prop} {In Out : H → Prop} (library : Library σ)
    (readers : Readers env archive library.fileDescriptors In)
    (apart : OutputApart env path Same In Out) (fuel : Nat) (index : Int) :
    Predicts (fileSave env.watched archive fuel index) path library.watched ∧
    Predicts (fileSaveRaw env.watched archive fuel index) path library.watched ∧
    Predicts (fileSaveOld env.watched archive fuel index) path library.watched := by
  have noticed := notices_watched env path Out
  have knowsOnly : KnowsOnly archive.header library.fileDescriptors library.watched :=
    fun place fd => known_of_cached
  refine ⟨predicts_of_couples ?_ knowsOnly, predicts_of_couples ?_ knowsOnly,
    predicts_of_couples ?_ knowsOnly⟩
  · exact dry_saveThroughLinks noticed (dry_saveNew readers.watched apart.watched noticed) fuel index
  · exact dry_saveThroughLinks noticed (dry_saveRaw readers.watched apart.watched noticed) fuel index
  · exact dry_saveThroughLinks noticed (dry_saveOld readers.watched apart.watched noticed) fuel index

/-! ### Files without buffers -/

namespace Files

theorem fseek_path (file : Cursor) (offset : Int) (whence : Whence) (files : Files) :
    (fseek file offset whence files).1.path = file.path := by
  unfold fseek
  simp only [apply_ite Cursor.path, ite_self]

theorem fwrite_path (file : Cursor) (data : Bytes) (files : Files) :
    (fwrite file data files).2.1.path = file.path := by
  unfold fwrite
  rcases file with ⟨_ | path, temporary, position⟩
  · rfl
  · rfl

theorem path_of_fopen {path : Bytes} {mode : Mode} {files : Files} {file : Cursor}
    (opened : (fopen path mode files).1 = some file) : file.path = some path := by
  cases mode with
  | readBinary =>
      change (files path).map _ = some file at opened
      cases there : files path with
      | none =>
          rw [there] at opened
          cases opened
      | some content =>
          rw [there] at opened
          cases opened
          rfl
  | writeBinary =>
      cases opened
      rfl

end Files

/-- A file that is not the output file. -/
def Elsewhere (path : Bytes) (file : Cursor) : Prop := file.path ≠ some path

/-- All files but the output file are the same. -/
def SameElsewhere (path : Bytes) (files files' : Files) : Prop :=
  ∀ other, other ≠ path → files other = files' other

section

variable {libraries : Libraries} {volumeName : Int → Bytes} {path : Bytes}

/-- An output file that is neither a volume nor an external file of the archive is no file of a reader. -/
theorem readers_onFiles {archive : Archive} {cache : Nat → Option FileDescriptor}
    (volumes : ∀ volume, volumeName volume ≠ path)
    (external : ∀ fd, Known archive.header cache fd →
      externalPath (libraries.onFiles volumeName) archive fd ≠ .ret path) :
    Readers (libraries.onFiles volumeName) archive cache (Elsewhere path) where
  openForReading := by
    intro volume files file opened same
    rw [Files.path_of_fopen opened] at same
    exact volumes volume (Option.some.inj same)
  fseek := by
    intro file offset whence files elsewhere same
    exact elsewhere ((Files.fseek_path file offset whence files).symm.trans same)
  fread := fun _ _ _ elsewhere => elsewhere
  fwrite := by
    intro file data files elsewhere same
    exact elsewhere ((Files.fwrite_path file data files).symm.trans same)
  fopenExternal := by
    intro fd place files file known located opened same
    rw [Files.path_of_fopen opened] at same
    rw [Option.some.inj same] at located
    exact external fd known located
  tmpfile := by
    rintro files _ ⟨rfl⟩ same
    cases same
  nativeFwrite := by
    intro file data files elsewhere same
    exact elsewhere ((Files.fwrite_path file data files).symm.trans same)
  nativeFseek := by
    intro file offset whence files elsewhere same
    exact elsewhere ((Files.fseek_path file offset whence files).symm.trans same)

theorem content_eq_of_same {file : Cursor} {files files' : Files} (elsewhere : Elsewhere path file)
    (same : SameElsewhere path files files') : file.content files = file.content files' := by
  rw [Cursor.content, Cursor.content]
  cases named : file.path with
  | none => rfl
  | some other =>
      have away : other ≠ path := fun eq => elsewhere (by rw [named, eq])
      simp only
      rw [same other away]

theorem SameElsewhere.update {files files' : Files} (same : SameElsewhere path files files')
    (content : Option Bytes) : SameElsewhere path files (Function.update files' path content) := by
  intro other away
  rw [Function.update_of_ne away]
  exact same other away

theorem outputApart_onFiles (volumes : ∀ volume, volumeName volume ≠ path) :
    OutputApart (libraries.onFiles volumeName) path (SameElsewhere path) (Elsewhere path)
      fun file => file.path = some path where
  refl := fun _ _ _ => rfl
  openForReading := by
    intro files files' volume same
    refine ⟨?_, same⟩
    show (files (volumeName volume)).map _ = (files' (volumeName volume)).map _
    rw [same _ (volumes volume)]
  fseek := by
    intro files files' file offset whence elsewhere same
    refine ⟨?_, same⟩
    show (Files.fseek file offset whence files).1 = (Files.fseek file offset whence files').1
    unfold Files.fseek
    rw [content_eq_of_same elsewhere same]
  ftell := fun _ same => same
  fread := by
    intro files files' file count elsewhere same
    have content := content_eq_of_same elsewhere same
    refine ⟨?_, ?_, same⟩
    · show (Files.fread file count files).1 = (Files.fread file count files').1
      unfold Files.fread
      rw [content]
    · show (Files.fread file count files).2.1 = (Files.fread file count files').2.1
      unfold Files.fread
      rw [content]
  fclose := fun _ same => same
  fopenOutput := fun same => ⟨same.update _, fun _ opened => Files.path_of_fopen opened⟩
  fwriteOutput := by
    intro files files' file data named same
    refine ⟨?_, (Files.fwrite_path file data files').trans named⟩
    show SameElsewhere path files (Files.fwrite file data files').2.2
    unfold Files.fwrite
    rw [named]
    exact same.update _

end

/-! ### One archive, two output files -/

/-- The name of a volume. -/
def cabinetName : Bytes := [0x61, 0x2e, 0x63, 0x61, 0x62]

abbrev cabinetFiles : Environment Files Cursor :=
  { smallLibraries with errorsPrinted := false }.onFiles fun _ => cabinetName

def cabinetLibrary : Library Files where
  fileDescriptors := fun _ => some frameDescriptor
  io := Function.update (fun _ => none) cabinetName (some frameVolume)

/-- The archive has no names. -/
theorem externalPath_small (fd : FileDescriptor) (path : Bytes) :
    externalPath cabinetFiles (smallArchive 6) fd ≠ .ret path := by
  have name : fileName cabinetFiles.bigEndian (smallArchive 6).header fd = .fault := by
    show cString [] _ = .fault
    rw [cString, List.drop_nil]
    rfl
  intro located
  rw [externalPath, name] at located
  cases located

theorem dry_runs_agree_small :
    (fileSave cabinetFiles.watched (smallArchive 6) 4 0 (some smallPath)
      cabinetLibrary.watched).2.io.hindered = false ∧
    (fileSave cabinetFiles.watched (smallArchive 6) 4 0 none cabinetLibrary.watched).1 =
      (fileSave cabinetFiles.watched (smallArchive 6) 4 0 (some smallPath) cabinetLibrary.watched).1 := by
  have other : ∀ volume : Int, (fun _ => cabinetName) volume ≠ smallPath := by
    intro volume
    show cabinetName ≠ smallPath
    decide
  have free : (fileSave cabinetFiles.watched (smallArchive 6) 4 0 (some smallPath)
      cabinetLibrary.watched).2.io.hindered = false := by
    decide +kernel
  have agrees : Predicts (fileSave cabinetFiles.watched (smallArchive 6) 4 0) smallPath
      cabinetLibrary.watched :=
    (dry_runs_agree cabinetLibrary
      (readers_onFiles other fun fd _ => externalPath_small fd smallPath) (outputApart_onFiles other) 4 0).1
  exact ⟨free, (agrees free).1⟩

/-- A call with the path of the volume itself truncates it before it is read. -/
theorem dry_run_disagrees :
    (fileSave cabinetFiles.watched (smallArchive 6) 4 0 none cabinetLibrary.watched).1 = .ret () ∧
    (fileSave cabinetFiles.watched (smallArchive 6) 4 0 (some cabinetName)
      cabinetLibrary.watched).1 = .fail ∧
    (fileSave cabinetFiles.watched (smallArchive 6) 4 0 (some cabinetName)
      cabinetLibrary.watched).2.io.hindered = false := by
  decide +kernel

end Unshield
