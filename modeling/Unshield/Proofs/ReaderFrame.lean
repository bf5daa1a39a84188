/-
Module: Unshield.Proofs.ReaderFrame
Purpose: What holds of the reader on any archive and in any environment: it never touches the output or
  a field of the descriptor other than its flags and its volume number, and a read that succeeds fills
  its buffer.
Trusted boundary: none
Main exports: VolumeSteps, Steady, Steady.readerRead, SameRecord, Known, Apart, Unrelated, Unaffected,
  preserves_readerRead, preserves_readerCreate, preserves_readerCreateExternal, length_of_readerRead
-/
import Unshield.Core.Library
import Unshield.Proofs.ReaderRefinement

namespace Unshield

open Procedure

/-! ### What reading preserves -/

section

variable {σ H : Type} (env : Environment σ H) (header : Header) (P : Session σ H → Prop)

/-- A property that no operation on the volume file breaks, nor a change of the other fields of the
reader. -/
structure VolumeSteps : Prop where
  reopen : ∀ volume, Proc.Preserves P (fcloseVolume env >>= fun _ => fopenVolume env volume)
  fread : ∀ count, Proc.Preserves P (freadVolume env count)
  fseek : ∀ offset, Proc.Preserves P (fseekVolume env offset)
  ftell : Proc.Preserves P (ftellVolume env)
  reader : ∀ s reader, reader.volumeFile = s.reader.volumeFile → reader.index = s.reader.index →
    P s → P { s with reader := reader }

/-- A property that no step of reading breaks. -/
structure Steady : Prop where
  openVolume : ∀ volume, Proc.Preserves P (readerOpenVolume env header volume)
  fread : ∀ count, Proc.Preserves P (freadVolume env count)
  ftell : Proc.Preserves P (ftellVolume env)
  reader : ∀ s reader, reader.volumeFile = s.reader.volumeFile → reader.index = s.reader.index →
    P s → P { s with reader := reader }
  volume : ∀ s volume, P s →
    P { s with fileDescriptor := { s.fileDescriptor with volume := volume } }

end

section

variable {σ H : Type} {env : Environment σ H} {header : Header} {P : Session σ H → Prop}

theorem VolumeSteps.and {Q : Session σ H → Prop} (one : VolumeSteps env P) (two : VolumeSteps env Q) :
    VolumeSteps env (fun s => P s ∧ Q s) where
  reopen := fun volume s holds => ⟨one.reopen volume s holds.1, two.reopen volume s holds.2⟩
  fread := fun count s holds => ⟨one.fread count s holds.1, two.fread count s holds.2⟩
  fseek := fun offset s holds => ⟨one.fseek offset s holds.1, two.fseek offset s holds.2⟩
  ftell := fun s holds => ⟨one.ftell s holds.1, two.ftell s holds.2⟩
  reader := fun s reader file index holds =>
    ⟨one.reader s reader file index holds.1, two.reader s reader file index holds.2⟩

theorem VolumeSteps.openHeaders (steps : VolumeSteps env P) (volume : Int) :
    Proc.Preserves P (openHeaders env header volume) := by
  rw [Unshield.openHeaders, ← Proc.bind_assoc]
  refine .bind (steps.reopen volume) fun _ => ?_
  refine .bind (steps.fread _) fun tmp => ?_
  refine .bind (.ofExit _) fun _ => ?_
  refine .bind (.modify fun s holds => steps.reader s _ rfl rfl holds) fun _ => ?_
  exact .bind (steps.fread _) fun block => .access _

/-- Going to a portion breaks nothing that marking the file does not break. -/
theorem VolumeSteps.enterPortion (steps : VolumeSteps env P) (volume : Int)
    {volumeHeader : VolumeHeader} {s : Session σ H} (mark : P { s with
      fileDescriptor := markSplit header s.reader.index volumeHeader s.fileDescriptor }) :
    P (enterPortion env header volume volumeHeader s).2 := by
  have entered : P { s with
      reader := { s.reader with volumeHeader := volumeHeader }
      fileDescriptor := markSplit header s.reader.index volumeHeader s.fileDescriptor } :=
    steps.reader { s with
      fileDescriptor := markSplit header s.reader.index volumeHeader s.fileDescriptor } _ rfl rfl mark
  rw [Unshield.enterPortion, Proc.modify_bind_run]
  refine Proc.Preserves.bind (.gets _) (fun portion => ?_) _ entered
  cases portion with
  | none => exact .pure ()
  | some portion =>
      refine .bind (.modify fun s holds => steps.reader s _ rfl rfl holds) fun _ => ?_
      refine .bind (steps.fseek _) fun _ => ?_
      exact .modify fun s holds => steps.reader s _ rfl rfl holds

theorem VolumeSteps.steady (steps : VolumeSteps env P)
    (descriptor : ∀ s fd, UpToSearch s.fileDescriptor fd → P s → P { s with fileDescriptor := fd }) :
    Steady env header P where
  openVolume := by
    intro volume
    rw [readerOpenVolume_eq]
    refine .bind (steps.openHeaders volume) fun volumeHeader s holds => ?_
    exact steps.enterPortion volume (descriptor s _ (upToSearch_markSplit _ _ _ _) holds)
  fread := steps.fread
  ftell := steps.ftell
  reader := steps.reader
  volume := fun s _ holds => descriptor s _ ((UpToSearch.refl _).next _) holds

namespace Steady

variable (steady : Steady env header P)

include steady

theorem freadPortion (bytesToRead : Nat) : Proc.Preserves P (freadPortion env header bytesToRead) := by
  refine .onFailure (steady.fread _) ?_
  exact .bind preserves_reportFileName fun _ => .bind steady.ftell fun _ => .fail

theorem readerReadTurn (vars : Nat × Bytes) : Proc.Preserves P (readerReadTurn env header vars) := by
  obtain ⟨bytesLeft, buffer⟩ := vars
  refine .bind (.gets _) fun volumeBytesLeft => ?_
  refine .bind steady.ftell fun _ => ?_
  refine .bind (.require _) fun _ => ?_
  refine .bind (steady.freadPortion _) fun data => ?_
  refine .bind (.modify fun s holds => steady.reader s _ rfl rfl holds) fun _ => ?_
  refine .ite (fun _ => .pure _) fun _ => ?_
  refine .bind (.gets _) fun volume => ?_
  exact .bind (steady.openVolume _) fun _ => .pure _

theorem readerRead (size : Nat) : Proc.Preserves P (readerRead env header size) := by
  refine .bind (.iterate steady.readerReadTurn _ _) fun buffer => ?_
  refine .bind (.gets _) fun fd => ?_
  refine .ite (fun _ => ?_) fun _ => .pure _
  intro s holds
  exact steady.reader s _ rfl rfl holds

theorem readOrReport (size : Nat) : Proc.Preserves P (readOrReport env header size) :=
  .onFailure (steady.readerRead size) preserves_failWithFileName

/-- The search of the start volume, as far as the reader still exists. -/
theorem createLoop (index : Int) (fuel : Nat) :
    Proc.Preserves P (Proc.iterate (readerCreateTurn env header index) fuel ()) := by
  refine .iterate (fun vars => ?_) fuel ()
  refine .bind (.gets _) fun fd => ?_
  refine .bind (steady.openVolume _) fun _ => ?_
  refine .bind (.gets _) fun volumeHeader => ?_
  refine .ite (fun _ => ?_) fun _ => .pure _
  exact .bind (.modify fun s holds => steady.volume s _ holds) fun _ => .pure _

/-- The creation of a reader starts with a new one, and frees it if it fails. -/
theorem readerCreate {Q : Session σ H → Prop} (fuel : Nat) (index : Int)
    (start : ∀ s, Q s → P { s with reader := { index := UInt32.ofInt index } })
    (freed : ∀ s, P s → P (freeReader s)) :
    Proc.Leads Q (readerCreate env header fuel index) P := by
  intro s holds
  have loop := steady.createLoop index fuel _ (start s holds)
  rw [Unshield.readerCreate]
  split
  · rename_i failed eq
    rw [eq] at loop
    exact freed _ loop
  · exact loop

end Steady

theorem leads_readerCreateExternal {Q : Session σ H → Prop} {archive : Archive} {fuel : Nat}
    (index : Int) (body : Proc.Preserves P (openExternal env archive fuel))
    (start : ∀ s, Q s → P { s with reader := { index := UInt32.ofInt index } })
    (freed : ∀ s, P s → P (freeReader s)) :
    Proc.Leads Q (readerCreateExternal env archive fuel index) P := by
  intro s holds
  have after := body _ (start s holds)
  rw [readerCreateExternal]
  split
  · rename_i failed eq
    rw [eq] at after
    exact freed _ after
  · exact after

end

/-! ### Properties that have nothing to do with the reader -/

/-- Two descriptors differ at most in what opening volumes changes. -/
def SameRecord (fd fd' : FileDescriptor) : Prop :=
  fd' = { fd with flags := fd'.flags, volume := fd'.volume }

theorem UpToSearch.sameRecord {fd fd' : FileDescriptor} (search : UpToSearch fd fd') :
    SameRecord fd fd' := by
  rcases search with eq | eq
  · rw [eq]
    rfl
  · rw [eq]
    rfl

/-- A descriptor of the header or of the cache of a library, up to what opening volumes changes. -/
def Known (header : Header) (cache : Nat → Option FileDescriptor) (fd : FileDescriptor) : Prop :=
  ∃ start, UpToSearch start fd ∧
    ((∃ index, readFileDescriptor header index = .ret start) ∨ ∃ place, cache place = some start)

section

variable {header : Header} {cache : Nat → Option FileDescriptor}

theorem Known.search {fd fd' : FileDescriptor} (known : Known header cache fd)
    (search : UpToSearch fd fd') : Known header cache fd' := by
  obtain ⟨start, found, source⟩ := known
  exact ⟨start, found.trans search, source⟩

theorem known_of_read {index : Int} {fd : FileDescriptor} (read : readFileDescriptor header index = .ret fd) :
    Known header cache fd :=
  ⟨fd, .refl fd, Or.inl ⟨index, read⟩⟩

theorem known_of_cached {place : Nat} {fd : FileDescriptor} (cached : cache place = some fd) :
    Known header cache fd :=
  ⟨fd, .refl fd, Or.inr ⟨place, cached⟩⟩

end

section

variable {σ H : Type} (env : Environment σ H) (P : Session σ H → Prop)

/-- A property of a session that depends on no more than the index of its reader, and that no operation
on the reader's file affects. -/
structure Apart : Prop where
  reader : ∀ s reader, reader.index = s.reader.index → P s → P { s with reader := reader }
  openForReading : ∀ s volume, P s → P { s with io := (env.openForReading volume s.io).2 }
  fread : ∀ s file count, P s → P { s with io := (env.callbacks.fread file count s.io).2.2 }
  fseek : ∀ s file offset whence, P s →
    P { s with io := (env.callbacks.fseek file offset whence s.io).2 }
  ftell : ∀ s file, P s → P { s with io := (env.callbacks.ftell file s.io).2 }
  fclose : ∀ s file, P s → P { s with io := env.callbacks.fclose file s.io }

/-- What is done to a temporary copy of an external file does not affect the property either. -/
structure ApartExternal : Prop extends Apart env P where
  fwrite : ∀ s file data, P s → P { s with io := (env.callbacks.fwrite file data s.io).2.2 }
  tmpfile : ∀ s, P s → P { s with io := (env.tmpfile s.io).2 }
  nativeFopen : ∀ s path, P s → P { s with io := (env.native.fopen path .readBinary s.io).2 }
  nativeFwrite : ∀ s file data, P s → P { s with io := (env.native.fwrite file data s.io).2.2 }
  nativeFseek : ∀ s file offset whence, P s →
    P { s with io := (env.native.fseek file offset whence s.io).2 }
  nativeFclose : ∀ s file, P s → P { s with io := env.native.fclose file s.io }

/-- The property has nothing to do with the reader, not even where that changes the descriptor. -/
structure Unrelated : Prop extends Apart env P where
  fresh : ∀ s reader, P s → P { s with reader := reader }
  descriptor : ∀ s fd, UpToSearch s.fileDescriptor fd → P s → P { s with fileDescriptor := fd }

structure Unaffected : Prop extends Unrelated env P, ApartExternal env P

end

section

variable {σ H : Type} {env : Environment σ H} {P : Session σ H → Prop}

/-- On a disk only the list of closed streams changes when a file is read. -/
theorem Apart.onDisk {libraries : Libraries} {P : DiskSession → Prop}
    (reader : ∀ s reader, reader.index = s.reader.index → P s → P { s with reader := reader })
    (closed : ∀ s closed, P s → P { s with io := { s.io with closed := closed } }) :
    Apart libraries.onDisk P where
  reader := reader
  openForReading := fun _ _ holds => holds
  fread := fun _ _ _ holds => holds
  fseek := fun _ _ _ _ holds => holds
  ftell := fun _ _ holds => holds
  fclose := fun s _ holds => closed s _ holds

theorem Unrelated.onDisk {libraries : Libraries} {P : DiskSession → Prop}
    (reader : ∀ s reader, P s → P { s with reader := reader })
    (closed : ∀ s closed, P s → P { s with io := { s.io with closed := closed } })
    (descriptor : ∀ s fd, UpToSearch s.fileDescriptor fd → P s → P { s with fileDescriptor := fd }) :
    Unrelated libraries.onDisk P where
  toApart := .onDisk (fun s other _ holds => reader s other holds) closed
  fresh := reader
  descriptor := descriptor

/-- A property that does not depend on the world outside. -/
theorem Unaffected.of_deaf (reader : ∀ s reader, P s → P { s with reader := reader })
    (descriptor : ∀ s fd, UpToSearch s.fileDescriptor fd → P s → P { s with fileDescriptor := fd })
    (deaf : ∀ s io, P s → P { s with io := io }) : Unaffected env P where
  reader := fun s other _ holds => reader s other holds
  fresh := reader
  descriptor := descriptor
  openForReading := fun s _ holds => deaf s _ holds
  fread := fun s _ _ holds => deaf s _ holds
  fseek := fun s _ _ _ holds => deaf s _ holds
  ftell := fun s _ holds => deaf s _ holds
  fclose := fun s _ holds => deaf s _ holds
  fwrite := fun s _ _ holds => deaf s _ holds
  tmpfile := fun s holds => deaf s _ holds
  nativeFopen := fun s _ holds => deaf s _ holds
  nativeFwrite := fun s _ _ holds => deaf s _ holds
  nativeFseek := fun s _ _ _ holds => deaf s _ holds
  nativeFclose := fun s _ holds => deaf s _ holds

theorem unaffected_known (header : Header) (cache : Nat → Option FileDescriptor) :
    Unaffected env fun s : Session σ H => Known header cache s.fileDescriptor :=
  .of_deaf (fun _ _ known => known) (fun _ _ search known => known.search search) fun _ _ known => known

end

section

variable {σ H : Type} (env : Environment σ H) (header : Header) {P : Session σ H → Prop}

section

variable (apart : Apart env P)

include apart

/-! ### Volumes -/

theorem preserves_fcloseVolume : Proc.Preserves P (fcloseVolume env) := by
  intro s holds
  rw [fcloseVolume]
  cases s.reader.volumeFile with
  | none => exact holds
  | some file => exact apart.reader _ _ (by rfl) (apart.fclose s file holds)

theorem preserves_fopenVolume (volume : Int) : Proc.Preserves P (fopenVolume env volume) := by
  intro s holds
  rw [fopenVolume]
  simp only
  split <;> exact apart.reader _ _ (by rfl) (apart.openForReading s volume holds)

theorem preserves_freadVolume (count : Nat) : Proc.Preserves P (freadVolume env count) := by
  intro s holds
  rw [freadVolume]
  cases s.reader.volumeFile with
  | none => exact holds
  | some file =>
      simp only
      split <;> exact apart.reader _ _ (by rfl) (apart.fread s file count holds)

theorem preserves_fseekVolume (offset : Int) : Proc.Preserves P (fseekVolume env offset) := by
  intro s holds
  rw [fseekVolume]
  cases s.reader.volumeFile with
  | none => exact holds
  | some file => exact apart.reader _ _ (by rfl) (apart.fseek s file offset .set holds)

theorem preserves_ftellVolume : Proc.Preserves P (ftellVolume env) := by
  intro s holds
  rw [ftellVolume]
  cases s.reader.volumeFile with
  | none => exact holds
  | some file => exact apart.ftell s file holds

theorem preserves_fsizeVolume : Proc.Preserves P (fsizeVolume env) := by
  intro s holds
  rw [fsizeVolume]
  cases s.reader.volumeFile with
  | none => exact holds
  | some file =>
      have told := apart.ftell s file holds
      have atEnd := apart.fseek _ file 0 .toEnd told
      have sized := apart.ftell _ (env.callbacks.fseek file 0 .toEnd
        (env.callbacks.ftell file s.io).2).1 atEnd
      exact apart.reader _ _ (by rfl) (apart.fseek _ _ _ .set sized)

theorem Apart.volumeSteps : VolumeSteps env P where
  reopen := fun volume => .bind (preserves_fcloseVolume env apart) fun _ =>
    preserves_fopenVolume env apart volume
  fread := preserves_freadVolume env apart
  fseek := preserves_fseekVolume env apart
  ftell := preserves_ftellVolume env apart
  reader := fun s reader _ same holds => apart.reader s reader same holds

end

section

variable (unrelated : Unrelated env P)

include unrelated

theorem Unrelated.steady : Steady env header P :=
  (unrelated.toApart.volumeSteps env).steady unrelated.descriptor

theorem preserves_readerRead (size : Nat) : Proc.Preserves P (readerRead env header size) :=
  (unrelated.steady env header).readerRead size

theorem preserves_readerCreate (fuel : Nat) (index : Int) :
    Proc.Preserves P (readerCreate env header fuel index) :=
  (unrelated.steady env header).readerCreate fuel index (fun s holds => unrelated.fresh s _ holds)
    fun s holds => unrelated.fresh s _ holds

end

end

/-! ### External files -/

section

variable {σ H : Type} (env : Environment σ H) {P : Session σ H → Prop}
  (apart : ApartExternal env P)

include apart

theorem preserves_copyFile (fuel : Nat) (outfile : H) :
    Proc.Preserves P (copyFile env fuel outfile) := by
  refine .iterate (fun outfile => ?_) fuel outfile
  intro s holds
  rw [copyTurn]
  cases s.reader.volumeFile with
  | none => exact holds
  | some infile =>
      have read := apart.reader _ { s.reader with
        volumeFile := some (env.callbacks.fread infile copySize s.io).2.1 } (by rfl)
        (apart.fread s infile copySize holds)
      simp only
      split
      · exact read
      · exact apart.fwrite _ outfile _ read

theorem preserves_completeMarker (fuel diff : Nat) :
    Proc.Preserves P (completeMarker env fuel diff) := by
  refine .bind ?_ fun temporary => ?_
  · intro s holds
    have opened := apart.tmpfile s holds
    simp only
    split
    · rename_i io created
      rw [created] at opened
      exact opened
    · rename_i file io created
      rw [created] at opened
      exact opened
  refine .bind (preserves_copyFile env apart fuel temporary) fun temporary => ?_
  refine .modify fun s holds => ?_
  have wrote := apart.nativeFwrite s temporary
    (endOfChunk.drop (endOfChunk.length - diff)) holds
  have sought := apart.nativeFseek _ (env.native.fwrite temporary
    (endOfChunk.drop (endOfChunk.length - diff)) s.io).2.1 0 .set wrote
  cases s.reader.volumeFile with
  | none => exact apart.reader _ _ (by rfl) sought
  | some file => exact apart.reader _ _ (by rfl) (apart.nativeFclose _ file sought)

theorem preserves_openExternal (archive : Archive) (fuel : Nat) :
    Proc.Preserves P (openExternal env archive fuel) := by
  have opened : ∀ path, Proc.Preserves P (fopenExternal env path) := by
    intro path s holds
    rw [fopenExternal]
    simp only
    split <;> exact apart.reader _ _ (by rfl) (apart.nativeFopen s path holds)
  refine .bind (.gets _) fun fd => ?_
  refine .bind (.ofExit _) fun path => ?_
  refine .bind (opened path) fun _ => ?_
  refine .ite (fun _ => ?_) fun _ => .modify fun s holds => apart.reader s _ rfl holds
  refine .bind (preserves_fsizeVolume env apart.toApart) fun fileSize => ?_
  refine .ite (fun _ => ?_) fun _ => .modify fun s holds => apart.reader s _ rfl holds
  exact .bind (preserves_completeMarker env apart _ _) fun _ =>
    .modify fun s holds => apart.reader s _ rfl holds

end

theorem preserves_readerCreateExternal {σ H : Type} (env : Environment σ H) {P : Session σ H → Prop}
    (unaffected : Unaffected env P) (archive : Archive) (fuel : Nat) (index : Int) :
    Proc.Preserves P (readerCreateExternal env archive fuel index) :=
  leads_readerCreateExternal index (preserves_openExternal env unaffected.toApartExternal archive fuel)
    (fun s holds => unaffected.fresh s _ holds) fun s holds => unaffected.fresh s _ holds

/-! ### The length of what is read -/

section

variable {σ H : Type} (env : Environment σ H) (header : Header)

theorem length_of_freadVolume {count : Nat} {data : Bytes} {s t : Session σ H}
    (run : freadVolume env count s = (.ret data, t)) : data.length = count := by
  rw [freadVolume] at run
  cases opened : s.reader.volumeFile with
  | none =>
      rw [opened] at run
      cases run
  | some file =>
      simp only [opened] at run
      split at run
      · rename_i full
        rw [← Exit.ret.inj (Prod.mk.inj run).1]
        exact full
      · cases run

/-- What is read so far and what is still to be read add up to the size of the buffer. -/
theorem readerReadTurn_ensures (size : Nat) (vars : Nat × Bytes) :
    Proc.Ensures (fun _ => vars.1 + vars.2.length = size) (readerReadTurn env header vars)
      (Proc.Turn.Meets (fun vars _ => vars.1 + vars.2.length = size)
        fun data _ => data.length = size) := by
  obtain ⟨bytesLeft, buffer⟩ := vars
  intro s outcome s' sum run
  simp only at sum
  rw [readerReadTurn, Proc.gets_bind_run] at run
  obtain ⟨_, _, _, run⟩ := Proc.bind_eq_ret_iff.1 run
  obtain ⟨_, run⟩ := Proc.require_bind_eq_ret_iff.1 run
  obtain ⟨data, t, read, run⟩ := Proc.bind_eq_ret_iff.1 run
  have length := length_of_freadVolume env (freadPortion_eq_ret_iff.1 read)
  rw [Proc.modify_bind_run] at run
  split at run
  · obtain ⟨rfl, _⟩ := Proc.pure_eq_ret_iff.1 run
    show (buffer ++ data).length = size
    rw [List.length_append]
    omega
  · rw [Proc.gets_bind_run] at run
    obtain ⟨_, u, _, run⟩ := Proc.bind_eq_ret_iff.1 run
    obtain ⟨rfl, _⟩ := Proc.pure_eq_ret_iff.1 run
    show bytesLeft - _ + (buffer ++ data).length = size
    rw [List.length_append]
    omega

/-- A read that succeeds fills its buffer. -/
theorem length_of_readerRead {size : Nat} {data : Bytes} {s t : Session σ H}
    (run : readerRead env header size s = (.ret data, t)) : data.length = size := by
  rw [readerRead] at run
  obtain ⟨buffer, u, loop, run⟩ := Proc.bind_eq_ret_iff.1 run
  have length := Proc.Ensures.iterate (readerReadTurn_ensures env header size) (size + 1)
    (size, []) s buffer u rfl loop
  rw [Proc.gets_bind_run] at run
  split at run
  · rw [← Exit.ret.inj (Prod.mk.inj run).1, length_deobfuscate]
    exact length
  · obtain ⟨rfl, _⟩ := Proc.pure_eq_ret_iff.1 run
    exact length

end

end Unshield
