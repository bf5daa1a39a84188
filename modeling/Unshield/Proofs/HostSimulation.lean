/-
Module: Unshield.Proofs.HostSimulation
Purpose: Two hosts whose callbacks simulate each other: no client of the library can tell on which of them
  it runs.
Trusted boundary: none
Main exports: CallbacksAlike, HostsAlike, SessionsAlike, LibrariesAlike, HostsAlike.saveNew,
  HostsAlike.saveRaw, HostsAlike.saveOld, HostsAlike.reply, HostsAlike.converse
-/
import Unshield.Core.Clients
import Unshield.Foundation.Simulation
import Unshield.Proofs.ReaderLockstep
import Unshield.Proofs.SaveFrame

namespace Unshield

open Procedure Procedure.Proc

variable {σ σ' H H' : Type}

/-! ### Hosts -/

section

variable (world : σ → σ' → Prop) (handle : H → H' → Prop)

/-- Both open a file, or neither does. -/
def OpenedAlike (one : Option H × σ) (two : Option H' × σ') : Prop :=
  Option.Rel handle one.1 two.1 ∧ world one.2 two.2

/-- The operations on handles that are alike give the same, and leave everything alike. -/
structure CallbacksAlike (callbacks : Callbacks σ H) (callbacks' : Callbacks σ' H') : Prop where
  fseek : ∀ {file file' io io'} offset whence, handle file file' → world io io' →
    handle (callbacks.fseek file offset whence io).1 (callbacks'.fseek file' offset whence io').1 ∧
      world (callbacks.fseek file offset whence io).2 (callbacks'.fseek file' offset whence io').2
  ftell : ∀ {file file' io io'}, handle file file' → world io io' →
    (callbacks.ftell file io).1 = (callbacks'.ftell file' io').1 ∧
      world (callbacks.ftell file io).2 (callbacks'.ftell file' io').2
  fread : ∀ {file file' io io'} count, handle file file' → world io io' →
    (callbacks.fread file count io).1 = (callbacks'.fread file' count io').1 ∧
      handle (callbacks.fread file count io).2.1 (callbacks'.fread file' count io').2.1 ∧
      world (callbacks.fread file count io).2.2 (callbacks'.fread file' count io').2.2
  fwrite : ∀ {file file' io io'} data, handle file file' → world io io' →
    (callbacks.fwrite file data io).1 = (callbacks'.fwrite file' data io').1 ∧
      handle (callbacks.fwrite file data io).2.1 (callbacks'.fwrite file' data io').2.1 ∧
      world (callbacks.fwrite file data io).2.2 (callbacks'.fwrite file' data io').2.2
  fclose : ∀ {file file' io io'}, handle file file' → world io io' →
    world (callbacks.fclose file io) (callbacks'.fclose file' io')

/-- Two hosts that simulate each other.  `named` relates the paths that they write the same file under,
and `shared` holds of the paths that lead to the same file on both. -/
structure HostsAlike (named : Bytes → Bytes → Prop) (shared : Bytes → Prop) (host : Host σ H)
    (host' : Host σ' H') : Prop where
  callbacks : CallbacksAlike world handle host.callbacks host'.callbacks
  native : CallbacksAlike world handle host.native host'.native
  openForReading : ∀ {io io'} volume, world io io' →
    OpenedAlike world handle (host.openForReading volume io) (host'.openForReading volume io')
  tmpfile : ∀ {io io'}, world io io' → OpenedAlike world handle (host.tmpfile io) (host'.tmpfile io')
  fopen : ∀ {io io' path path'}, named path path' → world io io' →
    OpenedAlike world handle (host.callbacks.fopen path .writeBinary io)
      (host'.callbacks.fopen path' .writeBinary io')
  fopenShared : ∀ {io io' path}, shared path → world io io' →
    OpenedAlike world handle (host.native.fopen path .readBinary io)
      (host'.native.fopen path .readBinary io')

/-- Two sessions that agree in everything but the host. -/
structure SessionsAlike (s : Session σ H) (s' : Session σ' H') : Prop where
  index : s.reader.index = s'.reader.index
  volume : s.reader.volume = s'.reader.volume
  volumeFile : Option.Rel handle s.reader.volumeFile s'.reader.volumeFile
  volumeHeader : s.reader.volumeHeader = s'.reader.volumeHeader
  left : s.reader.volumeBytesLeft = s'.reader.volumeBytesLeft
  seed : s.reader.obfuscationOffset = s'.reader.obfuscationOffset
  fileDescriptor : s.fileDescriptor = s'.fileDescriptor
  output : Option.Rel handle s.output s'.output
  world : world s.io s'.io

/-- Two libraries that agree in everything but the host. -/
structure LibrariesAlike (library : Library σ) (library' : Library σ') : Prop where
  fileDescriptors : library.fileDescriptors = library'.fileDescriptors
  world : world library.io library'.io

end

section

variable {world : σ → σ' → Prop} {handle : H → H' → Prop} {named : Bytes → Bytes → Prop}
  {shared : Bytes → Prop} {host : Host σ H} {host' : Host σ' H'} {libraries : Libraries}
  {archive : Archive}

theorem rel_cases {one : Option H} {two : Option H'} (related : Option.Rel handle one two) :
    one = none ∧ two = none ∨
      ∃ file file', one = some file ∧ two = some file' ∧ handle file file' := by
  cases related with
  | none => exact Or.inl ⟨rfl, rfl⟩
  | some files => exact Or.inr ⟨_, _, rfl, rfl, files⟩

/-- Two procedures that do the same on their hosts. -/
abbrev RunsAlike (world : σ → σ' → Prop) (handle : H → H' → Prop) {α : Type} (proc : Proc (Session σ H) α)
    (proc' : Proc (Session σ' H') α) : Prop :=
  Simulates (SessionsAlike world handle) Eq proc proc'

namespace SessionsAlike

variable {s : Session σ H} {s' : Session σ' H'} (alike : SessionsAlike world handle s s')

include alike

/-- The sessions after the volume file and the world have changed. -/
theorem withVolumeFile {file : Option H} {file' : Option H'} {io : σ} {io' : σ'}
    (files : Option.Rel handle file file') (worlds : world io io') :
    SessionsAlike world handle { s with reader.volumeFile := file, io := io }
      { s' with reader.volumeFile := file', io := io' } :=
  { alike with volumeFile := files, world := worlds }

/-- The sessions after the output file and the world have changed. -/
theorem withOutput {file : Option H} {file' : Option H'} {io : σ} {io' : σ'}
    (files : Option.Rel handle file file') (worlds : world io io') :
    SessionsAlike world handle { s with output := file, io := io }
      { s' with output := file', io := io' } :=
  { alike with output := files, world := worlds }

/-- The sessions after the world has changed. -/
theorem withWorld {io : σ} {io' : σ'} (worlds : world io io') :
    SessionsAlike world handle { s with io := io } { s' with io := io' } :=
  { alike with world := worlds }

/-- The sessions with a new reader. -/
theorem withReader (index : UInt32) :
    SessionsAlike world handle { s with reader := { index } } { s' with reader := { index } } :=
  { fileDescriptor := alike.fileDescriptor, output := alike.output, world := alike.world, index := rfl,
    volume := rfl, volumeFile := .none, volumeHeader := rfl, left := rfl, seed := rfl }

theorem freeReader : SessionsAlike world handle (freeReader s) (freeReader s') := by
  rw [Unshield.freeReader, Unshield.freeReader, alike.index]
  exact alike.withReader _

end SessionsAlike

/-! ### Volume files -/

/-- What opens a file returns on both sides, or fails on both. -/
theorem opened_alike {volumeFile : Option H} {volumeFile' : Option H'} {t : Session σ H}
    {t' : Session σ' H'} (files : Option.Rel handle volumeFile volumeFile')
    (alike : SessionsAlike world handle t t') :
    Exit.Rel Eq (if volumeFile.isSome then ((.ret (), t) : Exit Unit × Session σ H) else (.fail, t)).1
        (if volumeFile'.isSome then ((.ret (), t') : Exit Unit × Session σ' H') else (.fail, t')).1 ∧
      SessionsAlike world handle
        (if volumeFile.isSome then ((.ret (), t) : Exit Unit × Session σ H) else (.fail, t)).2
        (if volumeFile'.isSome then ((.ret (), t') : Exit Unit × Session σ' H') else (.fail, t')).2 := by
  cases files with
  | none => exact ⟨.fail, alike⟩
  | some files => exact ⟨.ret rfl, alike⟩

section

variable (hosts : HostsAlike world handle named shared host host')

include hosts

theorem HostsAlike.fcloseVolume :
    RunsAlike world handle (fcloseVolume (libraries.on host)) (fcloseVolume (libraries.on host')) := by
  intro s s' alike
  rw [Unshield.fcloseVolume, Unshield.fcloseVolume]
  obtain ⟨closed, closed'⟩ | ⟨file, file', opened, opened', files⟩ := rel_cases alike.volumeFile
  · rw [closed, closed']
    exact ⟨.ret rfl, alike⟩
  · rw [opened, opened']
    exact ⟨.ret rfl, alike.withVolumeFile .none (hosts.callbacks.fclose files alike.world)⟩

theorem HostsAlike.fopenVolume (volume : Int) :
    RunsAlike world handle (fopenVolume (libraries.on host) volume)
      (fopenVolume (libraries.on host') volume) := by
  intro s s' alike
  obtain ⟨files, worlds⟩ := hosts.openForReading volume alike.world
  exact opened_alike files (alike.withVolumeFile files worlds)

theorem HostsAlike.freadVolume (count : Nat) :
    RunsAlike world handle (freadVolume (libraries.on host) count)
      (freadVolume (libraries.on host') count) := by
  intro s s' alike
  rw [Unshield.freadVolume, Unshield.freadVolume]
  obtain ⟨closed, closed'⟩ | ⟨file, file', opened, opened', files⟩ := rel_cases alike.volumeFile
  · rw [closed, closed']
    exact ⟨.fault, alike⟩
  · obtain ⟨data, after, worlds⟩ := hosts.callbacks.fread count files alike.world
    have next := alike.withVolumeFile (.some after) worlds
    rw [opened, opened']
    simp only
    rw [data]
    split
    · exact ⟨.ret rfl, next⟩
    · exact ⟨.fail, next⟩

theorem HostsAlike.fseekVolume (offset : Int) :
    RunsAlike world handle (fseekVolume (libraries.on host) offset)
      (fseekVolume (libraries.on host') offset) := by
  intro s s' alike
  rw [Unshield.fseekVolume, Unshield.fseekVolume]
  obtain ⟨closed, closed'⟩ | ⟨file, file', opened, opened', files⟩ := rel_cases alike.volumeFile
  · rw [closed, closed']
    exact ⟨.fault, alike⟩
  · obtain ⟨after, worlds⟩ := hosts.callbacks.fseek offset .set files alike.world
    rw [opened, opened']
    exact ⟨.ret rfl, alike.withVolumeFile (.some after) worlds⟩

theorem HostsAlike.ftellVolume :
    RunsAlike world handle (ftellVolume (libraries.on host)) (ftellVolume (libraries.on host')) := by
  intro s s' alike
  rw [Unshield.ftellVolume, Unshield.ftellVolume]
  obtain ⟨closed, closed'⟩ | ⟨file, file', opened, opened', files⟩ := rel_cases alike.volumeFile
  · rw [closed, closed']
    exact ⟨.fault, alike⟩
  · rw [opened, opened']
    exact ⟨.ret rfl, alike.withWorld (hosts.callbacks.ftell files alike.world).2⟩

theorem HostsAlike.fsize {file : H} {file' : H'} {io : σ} {io' : σ'} (files : handle file file')
    (worlds : world io io') :
    (fsize (libraries.on host) file io).1 = (fsize (libraries.on host') file' io').1 ∧
      handle (fsize (libraries.on host) file io).2.1 (fsize (libraries.on host') file' io').2.1 ∧
      world (fsize (libraries.on host) file io).2.2 (fsize (libraries.on host') file' io').2.2 := by
  obtain ⟨previous, worlds₁⟩ := hosts.callbacks.ftell files worlds
  obtain ⟨atEnd, worlds₂⟩ := hosts.callbacks.fseek 0 .toEnd files worlds₁
  obtain ⟨result, worlds₃⟩ := hosts.callbacks.ftell atEnd worlds₂
  have back := hosts.callbacks.fseek (host.callbacks.ftell file io).1 .set atEnd worlds₃
  rw [Unshield.fsize, Unshield.fsize]
  simp only
  rw [← previous]
  exact ⟨result, back.1, back.2⟩

theorem HostsAlike.fsizeVolume :
    RunsAlike world handle (fsizeVolume (libraries.on host)) (fsizeVolume (libraries.on host')) := by
  intro s s' alike
  rw [Unshield.fsizeVolume, Unshield.fsizeVolume]
  obtain ⟨closed, closed'⟩ | ⟨file, file', opened, opened', files⟩ := rel_cases alike.volumeFile
  · rw [closed, closed']
    exact ⟨.fault, alike⟩
  · obtain ⟨size, after, worlds⟩ :=
      @HostsAlike.fsize _ _ _ _ _ _ _ _ _ _ libraries hosts _ _ _ _ files alike.world
    rw [opened, opened']
    exact ⟨.ret size, alike.withVolumeFile (.some after) worlds⟩

/-! ### The reader -/

theorem HostsAlike.readsInStep : ReadsInStep (fun _ => False) (SessionsAlike world handle)
    (libraries.on host) (libraries.on host') where
  fclose := hosts.fcloseVolume.toLockstep
  fopen := fun volume => (hosts.fopenVolume volume).toLockstep
  fread := fun count => (hosts.freadVolume count).toLockstep
  fseek := fun offset => (hosts.fseekVolume offset).toLockstep
  ftell := hosts.ftellVolume.toLockstep
  libraries := rfl
  index := fun _ _ alike => alike.index
  volume := fun _ _ alike => alike.volume
  left := fun _ _ alike => alike.left
  volumeHeader := fun _ _ alike => alike.volumeHeader
  descriptor := fun _ _ alike => alike.fileDescriptor
  gone := fun _ _ _ _ _ gone => gone
  change := fun _ _ _ _ _ _ alike =>
    { alike with volume := rfl, volumeHeader := rfl, left := rfl, fileDescriptor := rfl }
  seed := fun _ _ alike => alike.seed
  goneSeed := fun _ _ gone => gone
  changeSeed := fun _ _ _ alike => { alike with seed := rfl }

theorem HostsAlike.readerOpenVolume (header : Header) (volume : Int) :
    RunsAlike world handle (readerOpenVolume (libraries.on host) header volume)
      (readerOpenVolume (libraries.on host') header volume) :=
  .of_lockstep (hosts.readsInStep.readerOpenVolume header volume)

theorem HostsAlike.readerRead (header : Header) (size : Nat) :
    RunsAlike world handle (readerRead (libraries.on host) header size)
      (readerRead (libraries.on host') header size) :=
  .of_lockstep (hosts.readsInStep.readerRead header size)

theorem HostsAlike.readOrReport (header : Header) (size : Nat) :
    RunsAlike world handle (readOrReport (libraries.on host) header size)
      (readOrReport (libraries.on host') header size) :=
  .of_lockstep (hosts.readsInStep.readOrReport header size)

theorem HostsAlike.failWithFileName {α : Type} (header : Header) :
    RunsAlike world handle (failWithFileName (libraries.on host) header : Proc (Session σ H) α)
      (failWithFileName (libraries.on host') header) :=
  .of_lockstep (hosts.readsInStep.failWithFileName header)

omit hosts in
theorem fileDescriptor_alike : RunsAlike world handle (Proc.gets fun s => s.fileDescriptor)
    (Proc.gets fun s => s.fileDescriptor) :=
  .gets fun _ _ alike => alike.fileDescriptor

theorem HostsAlike.readerCreateTurn (header : Header) (index : Int) (vars : Unit) :
    RunsAlike world handle (readerCreateTurn (libraries.on host) header index vars)
      (readerCreateTurn (libraries.on host') header index vars) := by
  refine .bind fileDescriptor_alike ?_
  rintro fd _ rfl
  refine .bind (hosts.readerOpenVolume header _) fun _ _ _ => ?_
  refine .bind (.gets fun s s' alike => alike.volumeHeader) ?_
  rintro volumeHeader _ rfl
  refine .ite (fun _ => ?_) fun _ => .pure rfl
  refine .bind (.modify fun s s' alike => ?_) fun _ _ _ => .pure rfl
  rw [alike.fileDescriptor]
  exact { alike with fileDescriptor := rfl }

omit hosts in
/-- A reader that cannot be created is freed. -/
theorem freed_alike {proc : Proc (Session σ H) Unit} {proc' : Proc (Session σ' H') Unit}
    (procs : RunsAlike world handle proc proc') :
    @Simulates (Session σ H) (Session σ' H') Unit Unit (SessionsAlike world handle) Eq
      (fun s => match proc s with | (.fail, s) => (.fail, freeReader s) | result => result)
      (fun s => match proc' s with | (.fail, s) => (.fail, freeReader s) | result => result) := by
  intro s s' alike
  obtain ⟨exits, after⟩ := procs s s' alike
  simp only
  revert exits after
  rcases proc s with ⟨exit, t⟩
  rcases proc' s' with ⟨exit', t'⟩
  intro exits after
  cases exits with
  | ret values => exact ⟨.ret values, after⟩
  | fail => exact ⟨.fail, after.freeReader⟩
  | abort => exact ⟨.abort, after⟩
  | fault => exact ⟨.fault, after⟩
  | timeout => exact ⟨.timeout, after⟩

theorem HostsAlike.readerCreate (header : Header) (fuel : Nat) (index : Int) :
    RunsAlike world handle (readerCreate (libraries.on host) header fuel index)
      (readerCreate (libraries.on host') header fuel index) := by
  intro s s' alike
  exact freed_alike (Simulates.iterate_eq (hosts.readerCreateTurn header index) fuel ()) _ _
    (alike.withReader (UInt32.ofInt index))

/-! ### The output file -/

omit hosts in
/-- The paths that two calls write to. -/
abbrev OutputsAlike (named : Bytes → Bytes → Prop) (filename filename' : Option Bytes) : Prop :=
  Option.Rel named filename filename'

theorem HostsAlike.fopenOutput {filename filename' : Option Bytes}
    (outputs : OutputsAlike named filename filename') :
    RunsAlike world handle (fopenOutput (libraries.on host) filename)
      (fopenOutput (libraries.on host') filename') := by
  cases outputs with
  | none => exact .pure rfl
  | some names =>
      intro s s' alike
      obtain ⟨files, worlds⟩ := hosts.fopen names alike.world
      exact opened_alike files (alike.withOutput files worlds)

theorem HostsAlike.fwriteOutput (data : Bytes) :
    RunsAlike world handle (fwriteOutput (libraries.on host) data)
      (fwriteOutput (libraries.on host') data) := by
  intro s s' alike
  rw [Unshield.fwriteOutput, Unshield.fwriteOutput]
  obtain ⟨closed, closed'⟩ | ⟨file, file', opened, opened', files⟩ := rel_cases alike.output
  · rw [closed, closed']
    exact ⟨.ret rfl, alike⟩
  · obtain ⟨count, after, worlds⟩ := hosts.callbacks.fwrite data files alike.world
    have next := alike.withOutput (.some after) worlds
    rw [opened, opened']
    simp only
    rw [count]
    split
    · exact ⟨.ret rfl, next⟩
    · exact ⟨.fail, next⟩

/-! ### The loops -/

theorem HostsAlike.saveData (fd : FileDescriptor) (bytesLeft : UInt32) (outputBuffer : Block) :
    RunsAlike world handle (saveData (libraries.on host) archive fd bytesLeft outputBuffer)
      (saveData (libraries.on host') archive fd bytesLeft outputBuffer) := by
  refine .ite (fun _ => ?_) fun _ => ?_
  · refine .bind (hosts.readOrReport archive.header 2) ?_
    rintro lengthBytes _ rfl
    refine .bind (.access _) ?_
    rintro bytesToRead _ rfl
    refine .bind (.require _) fun _ _ _ => .bind (hosts.readOrReport archive.header _) ?_
    rintro chunk _ rfl
    refine .bind (.same _) ?_
    rintro result _ rfl
    refine .bind (.access _) ?_
    rintro buffer _ rfl
    exact .bind (.require _) fun _ _ _ => .pure rfl
  · refine .bind (hosts.readerRead archive.header _) ?_
    rintro data _ rfl
    refine .bind (.access _) ?_
    rintro buffer _ rfl
    exact .pure rfl

theorem HostsAlike.saveTurn (vars : SaveVars libraries.md5) :
    RunsAlike world handle (saveTurn (libraries.on host) archive vars)
      (saveTurn (libraries.on host') archive vars) := by
  refine .ite (fun _ => .pure rfl) fun _ => .bind fileDescriptor_alike ?_
  rintro fd _ rfl
  refine .bind (hosts.saveData fd _ _) ?_
  rintro next _ rfl
  refine .bind (.access _) ?_
  rintro data _ rfl
  exact .bind (hosts.fwriteOutput data) fun _ _ _ => .pure rfl

theorem HostsAlike.saveRawTurn (bytesLeft : UInt32) :
    RunsAlike world handle (saveRawTurn (libraries.on host) archive bytesLeft)
      (saveRawTurn (libraries.on host') archive bytesLeft) := by
  refine .ite (fun _ => .pure rfl) fun _ => .bind (hosts.readerRead archive.header _) ?_
  rintro data _ rfl
  exact .bind (hosts.fwriteOutput data) fun _ _ _ => .pure rfl

theorem HostsAlike.chunkTurn (fuel : Nat) (vars : ChunkVars) :
    RunsAlike world handle (chunkTurn (libraries.on host) archive fuel vars)
      (chunkTurn (libraries.on host') archive fuel vars) := by
  refine .ite (fun _ => .pure rfl) fun _ => .bind (.same _) ?_
  rintro size _ rfl
  cases size with
  | none => exact hosts.failWithFileName archive.header
  | some size =>
      refine .bind (.access _) ?_
      rintro buffer _ rfl
      refine .bind (.access _) ?_
      rintro source _ rfl
      refine .bind (.same _) ?_
      rintro result _ rfl
      refine .bind (.require _) fun _ _ _ => ?_
      exact .bind (hosts.fwriteOutput _) fun _ _ _ => .pure rfl

theorem HostsAlike.openExhausted :
    RunsAlike world handle (openExhausted (libraries.on host) archive)
      (openExhausted (libraries.on host') archive) := by
  refine .bind (.gets fun s s' alike => alike.left) ?_
  rintro volumeBytesLeft _ rfl
  refine .ite (fun _ => .bind (.gets fun s s' alike => alike.volume) ?_) fun _ => .pure rfl
  rintro volume _ rfl
  exact hosts.readerOpenVolume archive.header _

theorem HostsAlike.saveOldData (fd : FileDescriptor) (fuel : Nat) (vars : SaveOldVars) :
    RunsAlike world handle (saveOldData (libraries.on host) archive fd fuel vars)
      (saveOldData (libraries.on host') archive fd fuel vars) := by
  refine .ite (fun _ => ?_) fun _ => ?_
  · refine .bind (.gets fun s s' alike => alike.left) ?_
    rintro volumeBytesLeft _ rfl
    refine .bind (hosts.readOrReport archive.header _) ?_
    rintro data _ rfl
    refine .bind (.access _) ?_
    rintro buffer _ rfl
    exact .iterate_eq (hosts.chunkTurn fuel) fuel _
  · refine .bind (hosts.readerRead archive.header _) ?_
    rintro data _ rfl
    exact .bind (hosts.fwriteOutput data) fun _ _ _ => .pure rfl

theorem HostsAlike.saveOldTurn (fuel : Nat) (vars : SaveOldVars) :
    RunsAlike world handle (saveOldTurn (libraries.on host) archive fuel vars)
      (saveOldTurn (libraries.on host') archive fuel vars) := by
  refine .ite (fun _ => .pure rfl) fun _ => .bind hosts.openExhausted fun _ _ _ => ?_
  refine .bind fileDescriptor_alike ?_
  rintro fd _ rfl
  refine .bind (hosts.saveOldData fd fuel vars) ?_
  rintro next _ rfl
  exact .pure rfl

/-! ### External files -/

theorem HostsAlike.copyTurn {outfile : H} {outfile' : H'} (files : handle outfile outfile') :
    Simulates (SessionsAlike world handle) (Turn.Rel handle handle)
      (copyTurn (libraries.on host) outfile) (copyTurn (libraries.on host') outfile') := by
  intro s s' alike
  rw [Unshield.copyTurn, Unshield.copyTurn]
  obtain ⟨closed, closed'⟩ | ⟨file, file', opened, opened', inputs⟩ := rel_cases alike.volumeFile
  · rw [closed, closed']
    exact ⟨.fault, alike⟩
  · obtain ⟨data, after, worlds⟩ := hosts.callbacks.fread copySize inputs alike.world
    have next := alike.withVolumeFile (.some after) worlds
    rw [opened, opened']
    simp only
    rw [data]
    split
    · exact ⟨.ret (.done files), next⟩
    · obtain ⟨_, written, worlds'⟩ :=
        hosts.callbacks.fwrite (host'.callbacks.fread file' copySize s'.io).1 files worlds
      exact ⟨.ret (.again written), next.withWorld worlds'⟩

theorem HostsAlike.fopenExternal {path : Bytes} (same : shared path) :
    RunsAlike world handle (fopenExternal (libraries.on host) path)
      (fopenExternal (libraries.on host') path) := by
  intro s s' alike
  obtain ⟨files, worlds⟩ := hosts.fopenShared same alike.world
  exact opened_alike files (alike.withVolumeFile files worlds)

/-- The temporary file takes the place of the external one. -/
theorem HostsAlike.completeMarker (fuel diff : Nat) :
    RunsAlike world handle (completeMarker (libraries.on host) fuel diff)
      (completeMarker (libraries.on host') fuel diff) := by
  refine .bind (V := handle) ?_ fun temporary temporary' files => ?_
  · intro s s' alike
    obtain ⟨files, worlds⟩ := hosts.tmpfile alike.world
    simp only
    revert files worlds
    rcases host.tmpfile s.io with ⟨file, io⟩
    rcases host'.tmpfile s'.io with ⟨file', io'⟩
    rintro (_ | files) worlds
    · exact ⟨.ret ‹_›, alike.withWorld worlds⟩
    · exact ⟨.fault, alike.withWorld worlds⟩
  refine .bind (Simulates.iterate (fun _ _ files => hosts.copyTurn files) fuel temporary temporary' files)
    fun copied copied' copies => .modify fun s s' alike => ?_
  obtain ⟨_, written, worlds₁⟩ :=
    hosts.native.fwrite (endOfChunk.drop (endOfChunk.length - diff)) copies alike.world
  obtain ⟨sought, worlds₂⟩ := hosts.native.fseek 0 .set written worlds₁
  obtain ⟨closed, closed'⟩ | ⟨file, file', opened, opened', inputs⟩ := rel_cases alike.volumeFile
  · simp only [closed, closed']
    exact alike.withVolumeFile (.some sought) worlds₂
  · simp only [opened, opened']
    exact alike.withVolumeFile (.some sought) (hosts.native.fclose inputs worlds₂)

variable (external : ∀ fd path, externalPath (libraries.on host) archive fd = .ret path → shared path)

include external

theorem HostsAlike.openExternal (fuel : Nat) :
    RunsAlike world handle (openExternal (libraries.on host) archive fuel)
      (openExternal (libraries.on host') archive fuel) := by
  refine .bind fileDescriptor_alike ?_
  rintro fd _ rfl
  refine .ofExit_bind fun path at_path => ?_
  refine .bind (hosts.fopenExternal (external fd path at_path)) fun _ _ _ => ?_
  refine .ite (fun _ => ?_) fun _ => .modify fun s s' alike => { alike with left := rfl }
  refine .bind hosts.fsizeVolume ?_
  rintro fileSize _ rfl
  refine .ite (fun _ => ?_) fun _ => .modify fun s s' alike => { alike with left := rfl }
  exact .bind (hosts.completeMarker fuel _) fun _ _ _ =>
    .modify fun s s' alike => { alike with left := rfl }

theorem HostsAlike.readerCreateExternal (fuel : Nat) (index : Int) :
    RunsAlike world handle (readerCreateExternal (libraries.on host) archive fuel index)
      (readerCreateExternal (libraries.on host') archive fuel index) := by
  intro s s' alike
  exact freed_alike (hosts.openExternal external fuel) _ _ (alike.withReader (UInt32.ofInt index))

theorem HostsAlike.createOldReader (fuel : Nat) (index : Int) :
    RunsAlike world handle (createOldReader (libraries.on host) archive fuel index)
      (createOldReader (libraries.on host') archive fuel index) := by
  refine .bind (hosts.readerCreate archive.header fuel index) fun _ _ _ => .bind hosts.fsizeVolume ?_
  rintro size _ rfl
  refine .bind fileDescriptor_alike ?_
  rintro fd _ rfl
  refine .ite (fun _ => ?_) fun _ => .pure rfl
  exact .bind hosts.fcloseVolume fun _ _ _ => hosts.readerCreateExternal external fuel index

/-! ### The save functions -/

omit external in
theorem HostsAlike.saveNew {filename filename' : Option Bytes}
    (outputs : OutputsAlike named filename filename') (fuel : Nat) (index : Int) :
    RunsAlike world handle (saveNew (libraries.on host) archive filename fuel index)
      (saveNew (libraries.on host') archive filename' fuel index) := by
  refine .bind (hosts.readerCreate archive.header fuel index) fun _ _ _ => .bind hosts.fsizeVolume ?_
  rintro size _ rfl
  refine .bind fileDescriptor_alike ?_
  rintro fd _ rfl
  refine .bind (.require _) fun _ _ _ => .bind (hosts.fopenOutput outputs) fun _ _ _ => ?_
  refine .bind (Simulates.iterate_eq hosts.saveTurn fuel _) ?_
  rintro vars _ rfl
  refine .bind fileDescriptor_alike ?_
  rintro fd' _ rfl
  refine .bind (.require _) fun _ _ _ => .ite (fun _ => ?_) fun _ => .pure rfl
  exact .onFailure (.require _) (hosts.failWithFileName archive.header)

omit external in
theorem HostsAlike.saveRaw {filename filename' : Option Bytes}
    (outputs : OutputsAlike named filename filename') (fuel : Nat) (index : Int) :
    RunsAlike world handle (saveRaw (libraries.on host) archive filename fuel index)
      (saveRaw (libraries.on host') archive filename' fuel index) := by
  refine .bind (hosts.readerCreate archive.header fuel index) fun _ _ _ => .bind hosts.fsizeVolume ?_
  rintro size _ rfl
  refine .bind fileDescriptor_alike ?_
  rintro fd _ rfl
  refine .bind (.require _) fun _ _ _ => .bind (hosts.fopenOutput outputs) fun _ _ _ => ?_
  exact .iterate_eq hosts.saveRawTurn fuel _

theorem HostsAlike.saveOld {filename filename' : Option Bytes}
    (outputs : OutputsAlike named filename filename') (fuel : Nat) (index : Int) :
    RunsAlike world handle (saveOld (libraries.on host) archive filename fuel index)
      (saveOld (libraries.on host') archive filename' fuel index) := by
  refine .bind (hosts.createOldReader external fuel index) fun _ _ _ => ?_
  refine .bind (hosts.fopenOutput outputs) fun _ _ _ => .bind fileDescriptor_alike ?_
  rintro fd _ rfl
  refine .bind (.iterate_eq (hosts.saveOldTurn fuel) fuel _) ?_
  rintro vars _ rfl
  refine .bind fileDescriptor_alike ?_
  rintro fd' _ rfl
  exact .require _

/-! ### Calls -/

omit external in
theorem HostsAlike.closeSession {s : Session σ H} {s' : Session σ' H'}
    (alike : SessionsAlike world handle s s') :
    SessionsAlike world handle (closeSession (libraries.on host) s)
      (closeSession (libraries.on host') s') := by
  have tidied : ∀ {io : σ} {io' : σ'}, world io io' →
      SessionsAlike world handle
        { s with reader := { index := s.reader.index }, output := none, io := io }
        { s' with reader := { index := s'.reader.index }, output := none, io := io' } :=
    fun worlds =>
      { index := alike.index, volume := rfl, volumeFile := .none, volumeHeader := rfl, left := rfl,
        seed := rfl, fileDescriptor := alike.fileDescriptor, output := .none, world := worlds }
  rw [Unshield.closeSession, Unshield.closeSession]
  obtain ⟨closed, closed'⟩ | ⟨volume, volume', opened, opened', volumes⟩ := rel_cases alike.volumeFile
  · obtain ⟨none, none'⟩ | ⟨file, file', some, some', files⟩ := rel_cases alike.output
    · simp only [closed, closed', none, none']
      exact tidied alike.world
    · simp only [closed, closed', some, some']
      exact tidied (hosts.callbacks.fclose files alike.world)
  · have worlds := hosts.callbacks.fclose volumes alike.world
    obtain ⟨none, none'⟩ | ⟨file, file', some, some', files⟩ := rel_cases alike.output
    · simp only [opened, opened', none, none']
      exact tidied worlds
    · simp only [opened, opened', some, some']
      exact tidied (hosts.callbacks.fclose files worlds)

omit external in
theorem HostsAlike.runSession (index : Nat) (fd : FileDescriptor) {body : Proc (Session σ H) Unit}
    {body' : Proc (Session σ' H') Unit} (bodies : RunsAlike world handle body body') :
    Simulates (LibrariesAlike world) Eq (runSession (libraries.on host) index fd body)
      (runSession (libraries.on host') index fd body') := by
  intro library library' alike
  obtain ⟨exits, after⟩ := bodies
    { reader := { index := 0 }, fileDescriptor := fd, io := library.io }
    { reader := { index := 0 }, fileDescriptor := fd, io := library'.io }
    { index := rfl, volume := rfl, volumeFile := .none, volumeHeader := rfl, left := rfl, seed := rfl,
      fileDescriptor := rfl, output := .none, world := alike.world }
  have finish : ∀ {t : Session σ H} {t' : Session σ' H'}, SessionsAlike world handle t t' →
      LibrariesAlike world
        { fileDescriptors := Function.update library.fileDescriptors index (some t.fileDescriptor)
          io := t.io }
        { fileDescriptors := Function.update library'.fileDescriptors index (some t'.fileDescriptor)
          io := t'.io } := fun {t t'} after => by
    rw [after.fileDescriptor, alike.fileDescriptors]
    exact ⟨rfl, after.world⟩
  rw [Unshield.runSession, Unshield.runSession]
  revert exits after
  rcases body { reader := { index := 0 }, fileDescriptor := fd, io := library.io } with ⟨exit, t⟩
  rcases body' { reader := { index := 0 }, fileDescriptor := fd, io := library'.io } with ⟨exit', t'⟩
  intro exits after
  cases exits with
  | ret values => exact ⟨.ret rfl, finish (hosts.closeSession after)⟩
  | fail => exact ⟨.fail, finish (hosts.closeSession after)⟩
  | abort => exact ⟨.abort, finish after⟩
  | fault => exact ⟨.fault, finish after⟩
  | timeout => exact ⟨.timeout, finish after⟩

omit hosts external in
theorem getFileDescriptor_alike (header : Header) (index : Int) :
    Simulates (LibrariesAlike world) Eq (getFileDescriptor header index)
      (getFileDescriptor header index) := by
  refine .bind (.require _) fun _ _ _ => ?_
  refine .bind (.gets fun library library' alike => congrFun alike.fileDescriptors _) ?_
  rintro cached _ rfl
  cases cached with
  | some fd => exact .pure rfl
  | none =>
      refine .bind (.same _) ?_
      rintro fd _ rfl
      refine .bind (.modify fun library library' alike => ?_) fun _ _ _ => .pure rfl
      rw [alike.fileDescriptors]
      exact ⟨rfl, alike.world⟩

omit external in
theorem HostsAlike.saveThroughLinks {save : Nat → Int → Proc (Session σ H) Unit}
    {save' : Nat → Int → Proc (Session σ' H') Unit}
    (saves : ∀ fuel index, RunsAlike world handle (save fuel index) (save' fuel index)) :
    ∀ (fuel : Nat) (index : Int), Simulates (LibrariesAlike world) Eq
      (saveThroughLinks (libraries.on host) archive save fuel index)
      (saveThroughLinks (libraries.on host') archive save' fuel index) := by
  intro fuel
  induction fuel with
  | zero => exact fun _ _ _ alike => ⟨.timeout, alike⟩
  | succ fuel ih =>
      intro index
      refine .bind (getFileDescriptor_alike archive.header index) ?_
      rintro fd _ rfl
      refine .bind (.require _) fun _ _ _ => ?_
      exact .ite (fun _ => ih _) fun _ => hosts.runSession _ _ (saves fuel index)

end

/-! ### Replies -/

theorem findFileDescriptor_alike (index : Int) :
    Simulates (LibrariesAlike world) Eq (findFileDescriptor archive index)
      (findFileDescriptor archive index) := by
  intro library library' alike
  obtain ⟨exits, after⟩ := getFileDescriptor_alike archive.header index library library' alike
  rw [findFileDescriptor, findFileDescriptor]
  revert exits after
  rcases getFileDescriptor archive.header index library with ⟨exit, t⟩
  rcases getFileDescriptor archive.header index library' with ⟨exit', t'⟩
  intro exits after
  cases exits with
  | ret values => exact ⟨.ret (congrArg some values), after⟩
  | fail => exact ⟨.ret rfl, after⟩
  | abort => exact ⟨.abort, after⟩
  | fault => exact ⟨.fault, after⟩
  | timeout => exact ⟨.timeout, after⟩

theorem ask_alike {α : Type} (answer : Option FileDescriptor → Exit α) (index : Int) :
    Simulates (LibrariesAlike world) Eq (Calls.ask archive answer index)
      (Calls.ask archive answer index) := by
  refine .bind (findFileDescriptor_alike index) ?_
  rintro fd _ rfl
  exact .same _

/-- A call and the same call, which may write under another name. -/
inductive CallsAlike (named : Bytes → Bytes → Prop) (externals : Prop) : FileCall → FileCall → Prop where
  | asks {call : FileCall} (question : ¬ call.Saves) : CallsAlike named externals call call
  | save (index : Int) {filename filename' : Option Bytes} (outputs : OutputsAlike named filename filename') :
      CallsAlike named externals (.fileSave index filename) (.fileSave index filename')
  | saveRaw (index : Int) {filename filename' : Option Bytes}
      (outputs : OutputsAlike named filename filename') :
      CallsAlike named externals (.fileSaveRaw index filename) (.fileSaveRaw index filename')
  | saveOld (index : Int) {filename filename' : Option Bytes}
      (outputs : OutputsAlike named filename filename') (found : externals) :
      CallsAlike named externals (.fileSaveOld index filename) (.fileSaveOld index filename')

section

variable (hosts : HostsAlike world handle named shared host host')
  (beside : Prop) (external : beside →
    ∀ fd path, externalPath (libraries.on host) archive fd = .ret path → shared path)

include hosts external

theorem HostsAlike.reply (fuel : Nat) {call call' : FileCall} (calls : CallsAlike named beside call call') :
    Simulates (LibrariesAlike world) Eq (call.reply (libraries.on host) archive fuel)
      (call'.reply (libraries.on host') archive fuel) := by
  cases calls with
  | asks question =>
      cases call with
      | fileName index => exact .bind (ask_alike _ index) fun _ _ same => .pure (congrArg _ same)
      | fileIsValid index =>
          refine .bind (.ite (fun _ => ask_alike _ index) fun _ => .pure rfl) ?_
          exact fun _ _ same => .pure (congrArg _ same)
      | fileDirectory index => exact .bind (ask_alike _ index) fun _ _ same => .pure (congrArg _ same)
      | fileSize index => exact .bind (ask_alike _ index) fun _ _ same => .pure (congrArg _ same)
      | fileSizeCompressed index =>
          exact .bind (ask_alike _ index) fun _ _ same => .pure (congrArg _ same)
      | fileFlagsRaw index => exact .bind (ask_alike _ index) fun _ _ same => .pure (congrArg _ same)
      | fileSave index filename => exact absurd trivial question
      | fileSaveRaw index filename => exact absurd trivial question
      | fileSaveOld index filename => exact absurd trivial question
  | save index outputs =>
      exact .bind (hosts.saveThroughLinks (hosts.saveNew outputs) fuel index) fun _ _ _ => .pure rfl
  | saveRaw index outputs =>
      exact .bind (hosts.saveThroughLinks (hosts.saveRaw outputs) fuel index) fun _ _ _ => .pure rfl
  | saveOld index outputs found =>
      exact .bind (hosts.saveThroughLinks (hosts.saveOld (external found) outputs) fuel index)
        fun _ _ _ => .pure rfl

/-- Clients that are alike get the same replies, whatever was said before. -/
theorem HostsAlike.converse {client client' : Client}
    (clients : ∀ replies, CallsAlike named beside (client replies) (client' replies)) (fuel : Nat) :
    ∀ (calls : Nat) (replies : List (Exit Reply)) {library : Library σ} {library' : Library σ'},
      LibrariesAlike world library library' →
      (client.converse (libraries.on host) archive fuel calls replies library).1 =
          (client'.converse (libraries.on host') archive fuel calls replies library').1 ∧
        LibrariesAlike world
          (client.converse (libraries.on host) archive fuel calls replies library).2
          (client'.converse (libraries.on host') archive fuel calls replies library').2 := by
  intro calls
  induction calls with
  | zero => exact fun replies _ _ alike => ⟨rfl, alike⟩
  | succ calls ih =>
      intro replies library library' alike
      obtain ⟨exits, after⟩ := hosts.reply beside external fuel (clients replies) library library' alike
      rw [Client.converse, Client.converse]
      revert exits after
      rcases (client replies).reply (libraries.on host) archive fuel library with ⟨exit, next⟩
      rcases (client' replies).reply (libraries.on host') archive fuel library' with ⟨exit', next'⟩
      intro exits after
      cases exits with
      | ret values =>
          obtain rfl := values
          exact ih _ after
      | fail => exact ih _ after
      | abort => exact ⟨rfl, after⟩
      | fault => exact ⟨rfl, after⟩
      | timeout => exact ⟨rfl, after⟩

end

end

end Unshield
