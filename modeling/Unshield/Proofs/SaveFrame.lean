/-
Module: Unshield.Proofs.SaveFrame
Purpose: What holds of the save functions on any archive and in any environment: what the callbacks
  never break, no call of a save function breaks.
Trusted boundary: none
Main exports: Steady.saveTurn, Steady.saveRawTurn, Steady.saveOldTurn, preserves_createOldReader, Kept,
  Kept.fileSave, Kept.fileSaveRaw, Kept.fileSaveOld
-/
import Unshield.Core.Save
import Unshield.Proofs.DescriptorCache
import Unshield.Proofs.ReaderFrame

namespace Unshield

open Procedure

variable {σ H : Type} (env : Environment σ H) {archive : Archive}

/-! ### The loops -/

section

variable {env} {P : Session σ H → Prop} (steady : Steady env archive.header P)

include steady

theorem Steady.saveData (fd : FileDescriptor) (bytesLeft : UInt32) (outputBuffer : Block) :
    Proc.Preserves P (saveData env archive fd bytesLeft outputBuffer) := by
  refine .ite (fun _ => ?_) fun _ => ?_
  · refine .bind (steady.readOrReport 2) fun lengthBytes => ?_
    refine .bind (.access _) fun bytesToRead => ?_
    refine .bind (.require _) fun _ => ?_
    refine .bind (steady.readOrReport _) fun chunk => ?_
    refine .bind (.ofExit _) fun result => ?_
    refine .bind (.access _) fun buffer => ?_
    exact .bind (.require _) fun _ => .pure _
  · refine .bind (steady.readerRead _) fun data => ?_
    exact .bind (.access _) fun buffer => .pure _

theorem Steady.openExhausted : Proc.Preserves P (openExhausted env archive) := by
  refine .bind (.gets _) fun volumeBytesLeft => .ite (fun _ => ?_) fun _ => .pure _
  exact .bind (.gets _) fun volume => steady.openVolume _

variable (writes : ∀ data, Proc.Preserves P (fwriteOutput env data))

include writes

theorem Steady.saveTurn (vars : SaveVars env.md5) : Proc.Preserves P (saveTurn env archive vars) := by
  refine .ite (fun _ => .pure _) fun _ => ?_
  refine .bind (.gets _) fun fd => ?_
  refine .bind (steady.saveData _ _ _) fun data => ?_
  refine .bind (.access _) fun bytes => ?_
  exact .bind (writes bytes) fun _ => .pure _

theorem Steady.saveRawTurn (bytesLeft : UInt32) :
    Proc.Preserves P (saveRawTurn env archive bytesLeft) := by
  refine .ite (fun _ => .pure _) fun _ => ?_
  refine .bind (steady.readerRead _) fun data => ?_
  exact .bind (writes data) fun _ => .pure _

omit steady in
theorem preserves_chunkTurn (fuel : Nat) (vars : ChunkVars) :
    Proc.Preserves P (chunkTurn env archive fuel vars) := by
  refine .ite (fun _ => .pure _) fun _ => ?_
  refine .bind (.ofExit _) fun size => ?_
  cases size with
  | none => exact preserves_failWithFileName
  | some size =>
      refine .bind (.access _) fun buffer => ?_
      refine .bind (.access _) fun source => ?_
      refine .bind (.ofExit _) fun result => ?_
      refine .bind (.require _) fun _ => ?_
      exact .bind (writes _) fun _ => .pure _

theorem Steady.saveOldTurn (fuel : Nat) (vars : SaveOldVars) :
    Proc.Preserves P (saveOldTurn env archive fuel vars) := by
  refine .ite (fun _ => .pure _) fun _ => ?_
  refine .bind steady.openExhausted fun _ => ?_
  refine .bind (.gets _) fun fd => ?_
  refine .bind (.ite (fun _ => ?_) fun _ => ?_) fun _ => .pure _
  · refine .bind (.gets _) fun volumeBytesLeft => ?_
    refine .bind (steady.readOrReport _) fun data => ?_
    refine .bind (.access _) fun buffer => ?_
    exact .iterate (preserves_chunkTurn writes fuel) fuel _
  · refine .bind (steady.readerRead _) fun data => ?_
    exact .bind (writes data) fun _ => .pure _

end

/-! ### The bodies -/

section

variable {env} {Q Opened P : Session σ H → Prop} (steady : Steady env archive.header P)
  (writes : ∀ data, Proc.Preserves P (fwriteOutput env data)) (weaken : ∀ s, Opened s → P s)

include steady writes weaken

/-- `Q` holds before there is a reader, `Opened` with a reader and before there is an output file, and
`P` from then on. -/
theorem Steady.saveNew {filename : Option Bytes} {fuel : Nat} {index : Int}
    (created : Proc.Leads Q (Unshield.readerCreate env archive.header fuel index) Opened)
    (sized : Proc.Preserves Opened (fsizeVolume env))
    (output : Proc.Leads Opened (fopenOutput env filename) P) :
    Proc.Leads Q (saveNew env archive filename fuel index) P := by
  refine .bind created weaken fun _ => ?_
  refine .bind sized weaken fun size => ?_
  refine .bind (Proc.Preserves.gets _) weaken fun fd => ?_
  refine .bind (Proc.Preserves.require _) weaken fun _ => ?_
  refine .bind output (fun _ holds => holds) fun _ => ?_
  change Proc.Preserves P _
  refine .bind (.iterate (steady.saveTurn writes) fuel _) fun vars => ?_
  refine .bind (.gets _) fun fd => ?_
  refine .bind (.require _) fun _ => ?_
  exact .ite (fun _ => .onFailure (.require _) preserves_failWithFileName) fun _ => .pure _

theorem Steady.saveRaw {filename : Option Bytes} {fuel : Nat} {index : Int}
    (created : Proc.Leads Q (Unshield.readerCreate env archive.header fuel index) Opened)
    (sized : Proc.Preserves Opened (fsizeVolume env))
    (output : Proc.Leads Opened (fopenOutput env filename) P) :
    Proc.Leads Q (saveRaw env archive filename fuel index) P := by
  refine .bind created weaken fun _ => ?_
  refine .bind sized weaken fun size => ?_
  refine .bind (Proc.Preserves.gets _) weaken fun fd => ?_
  refine .bind (Proc.Preserves.require _) weaken fun _ => ?_
  refine .bind output (fun _ holds => holds) fun _ => ?_
  exact Proc.Preserves.iterate (steady.saveRawTurn writes) fuel _

theorem Steady.saveOld {filename : Option Bytes} {fuel : Nat} {index : Int}
    (created : Proc.Leads Q (createOldReader env archive fuel index) Opened)
    (output : Proc.Leads Opened (fopenOutput env filename) P) :
    Proc.Leads Q (saveOld env archive filename fuel index) P := by
  refine .bind created weaken fun _ => ?_
  refine .bind output (fun _ holds => holds) fun _ => ?_
  change Proc.Preserves P _
  refine .bind (.gets _) fun fd => ?_
  refine .bind (.iterate (steady.saveOldTurn writes fuel) fuel _) fun vars => ?_
  exact .bind (.gets _) fun fd => .require _

end

/-- The creation of a reader, and the size of the volume it has opened. -/
def createSized (header : Header) (fuel : Nat) (index : Int) : Proc (Session σ H) Int := do
  readerCreate env header fuel index
  fsizeVolume env

/-- From the check whether the file is inside the cabinet on. -/
def chooseReader (archive : Archive) (fuel : Nat) (index size : Int) : Proc (Session σ H) Unit := do
  let fd ← Proc.gets fun s => s.fileDescriptor
  if size = fd.dataOffset.toInt64.toInt then do
    fcloseVolume env
    readerCreateExternal env archive fuel index
  else
    pure ()

theorem createOldReader_eq (archive : Archive) (fuel : Nat) (index : Int) :
    createOldReader env archive fuel index =
      createSized env archive.header fuel index >>= chooseReader env archive fuel index := by
  rw [createOldReader, createSized, Proc.bind_assoc]
  rfl

/-- The reader of the old format, which may be replaced by one of an external file. -/
theorem leads_createOldReader {env : Environment σ H} {Q Opened : Session σ H → Prop} {fuel : Nat}
    {index : Int} (created : Proc.Leads Q (Unshield.readerCreate env archive.header fuel index) Opened)
    (sized : Proc.Preserves Opened (fsizeVolume env))
    (external : Proc.Preserves Opened (do
      fcloseVolume env
      readerCreateExternal env archive fuel index)) :
    Proc.Leads Q (createOldReader env archive fuel index) Opened := by
  refine .bind created (fun _ holds => holds) fun _ => ?_
  change Proc.Preserves Opened _
  refine .bind sized fun size => ?_
  refine .bind (.gets _) fun fd => ?_
  exact .ite (fun _ => external) fun _ => .pure _

/-! ### Properties that have nothing to do with the reader -/

section

variable {P : Session σ H → Prop}

theorem preserves_saveData (unrelated : Unrelated env P) (fd : FileDescriptor) (bytesLeft : UInt32)
    (outputBuffer : Block) : Proc.Preserves P (saveData env archive fd bytesLeft outputBuffer) :=
  (unrelated.steady env _).saveData fd bytesLeft outputBuffer

theorem preserves_openExhausted (unrelated : Unrelated env P) :
    Proc.Preserves P (openExhausted env archive) :=
  (unrelated.steady env _).openExhausted

theorem preserves_createOldReader (unaffected : Unaffected env P) (fuel : Nat) (index : Int) :
    Proc.Preserves P (createOldReader env archive fuel index) :=
  leads_createOldReader (preserves_readerCreate env _ unaffected.toUnrelated _ _)
    (preserves_fsizeVolume env unaffected.toApart)
    (.bind (preserves_fcloseVolume env unaffected.toApart) fun _ =>
      preserves_readerCreateExternal env unaffected archive _ _)

end

/-! ### The medium of the volumes -/

/-- The volumes are the same, where the paths lead that lead to one, and what may be written. -/
structure SameMedium (store store' : Store) : Prop where
  cabinets : store'.cabinets = store.cabinets
  volumeAt : store'.volumeAt = store.volumeAt
  writable : store'.writable = store.writable

theorem SameMedium.refl (store : Store) : SameMedium store store := ⟨rfl, rfl, rfl⟩

theorem SameMedium.trans {one two three : Store} (first : SameMedium one two)
    (second : SameMedium two three) : SameMedium one three :=
  ⟨second.cabinets.trans first.cabinets, second.volumeAt.trans first.volumeAt,
    second.writable.trans first.writable⟩

/-- With the same file there is the same content at a path. -/
theorem SameMedium.content {store store' : Store} (same : SameMedium store store') {path : Bytes}
    (file : store'.files path = store.files path) : store'.content path = store.content path := by
  rw [Store.content, Store.content, same.volumeAt, same.cabinets, file]

/-- What may be written is no volume. -/
theorem Store.content_of_writable {store : Store} {path : Bytes} (writable : store.writable path = true) :
    store.content path = store.files path := by
  rw [content]
  cases leads : store.volumeAt path with
  | none => rfl
  | some volume => exact absurd writable (Bool.eq_false_iff.1 (store.volumes_protected path volume leads))

/-- No operation on a disk touches the medium of the volumes. -/
theorem sameMedium_fopen (path : Bytes) (mode : Mode) (disk : Disk) :
    SameMedium disk.store (Disk.fopen path mode disk).2.store := by
  cases mode with
  | readBinary => exact .refl _
  | writeBinary =>
      rw [Disk.fopen]
      split
      · exact ⟨rfl, rfl, rfl⟩
      · exact .refl _

theorem sameMedium_fwrite (file : Stream) (data : Bytes) (disk : Disk) :
    SameMedium disk.store (Disk.fwrite file data disk).2.2.store :=
  ⟨rfl, rfl, rfl⟩

/-! ### Properties of the world outside -/

/-- No operation of a set of callbacks breaks the property. -/
structure KeptBy (callbacks : Callbacks σ H) (P : σ → Prop) : Prop where
  fopen : ∀ path mode io, P io → P (callbacks.fopen path mode io).2
  fseek : ∀ file offset whence io, P io → P (callbacks.fseek file offset whence io).2
  ftell : ∀ file io, P io → P (callbacks.ftell file io).2
  fread : ∀ file count io, P io → P (callbacks.fread file count io).2.2
  fwrite : ∀ file data io, P io → P (callbacks.fwrite file data io).2.2
  fclose : ∀ file io, P io → P (callbacks.fclose file io)

/-- Nothing that the library calls breaks the property. -/
structure Kept (P : σ → Prop) : Prop where
  callbacks : KeptBy env.callbacks P
  native : KeptBy env.native P
  openForReading : ∀ volume io, P io → P (env.openForReading volume io).2
  tmpfile : ∀ io, P io → P (env.tmpfile io).2

/-- Any environment keeps a property that says nothing. -/
theorem kept_trivial : Kept env (fun _ => True) where
  callbacks := ⟨fun _ _ _ _ => trivial, fun _ _ _ _ _ => trivial, fun _ _ _ => trivial,
    fun _ _ _ _ => trivial, fun _ _ _ _ => trivial, fun _ _ _ => trivial⟩
  native := ⟨fun _ _ _ _ => trivial, fun _ _ _ _ _ => trivial, fun _ _ _ => trivial,
    fun _ _ _ _ => trivial, fun _ _ _ _ => trivial, fun _ _ _ => trivial⟩
  openForReading := fun _ _ _ => trivial
  tmpfile := fun _ _ => trivial

variable {env} {P : σ → Prop} (kept : Kept env P)

include kept

theorem Kept.unaffected : Unaffected env (fun s => P s.io) where
  reader := fun _ _ _ holds => holds
  fresh := fun _ _ holds => holds
  descriptor := fun _ _ _ holds => holds
  openForReading := fun s volume holds => kept.openForReading volume s.io holds
  fread := fun s file count holds => kept.callbacks.fread file count s.io holds
  fseek := fun s file offset whence holds => kept.callbacks.fseek file offset whence s.io holds
  ftell := fun s file holds => kept.callbacks.ftell file s.io holds
  fclose := fun s file holds => kept.callbacks.fclose file s.io holds
  fwrite := fun s file data holds => kept.callbacks.fwrite file data s.io holds
  tmpfile := fun s holds => kept.tmpfile s.io holds
  nativeFopen := fun s path holds => kept.native.fopen path .readBinary s.io holds
  nativeFwrite := fun s file data holds => kept.native.fwrite file data s.io holds
  nativeFseek := fun s file offset whence holds => kept.native.fseek file offset whence s.io holds
  nativeFclose := fun s file holds => kept.native.fclose file s.io holds

theorem Kept.fopenOutput (filename : Option Bytes) :
    Proc.Preserves (fun s : Session σ H => P s.io) (fopenOutput env filename) := by
  intro s holds
  cases filename with
  | none => exact holds
  | some path =>
      rw [Unshield.fopenOutput]
      simp only
      split <;> exact kept.callbacks.fopen path .writeBinary s.io holds

theorem Kept.fwriteOutput (data : Bytes) :
    Proc.Preserves (fun s : Session σ H => P s.io) (fwriteOutput env data) := by
  intro s holds
  rw [Unshield.fwriteOutput]
  cases s.output with
  | none => exact holds
  | some file =>
      simp only
      split <;> exact kept.callbacks.fwrite file data s.io holds

theorem Kept.steady : Steady env archive.header (fun s : Session σ H => P s.io) :=
  kept.unaffected.toUnrelated.steady env _

theorem Kept.saveNew (filename : Option Bytes) (fuel : Nat) (index : Int) :
    Proc.Preserves (fun s : Session σ H => P s.io) (saveNew env archive filename fuel index) :=
  kept.steady.saveNew kept.fwriteOutput (fun _ holds => holds)
    (preserves_readerCreate env _ kept.unaffected.toUnrelated fuel index)
    (preserves_fsizeVolume env kept.unaffected.toApart) (kept.fopenOutput filename)

theorem Kept.saveRaw (filename : Option Bytes) (fuel : Nat) (index : Int) :
    Proc.Preserves (fun s : Session σ H => P s.io) (saveRaw env archive filename fuel index) :=
  kept.steady.saveRaw kept.fwriteOutput (fun _ holds => holds)
    (preserves_readerCreate env _ kept.unaffected.toUnrelated fuel index)
    (preserves_fsizeVolume env kept.unaffected.toApart) (kept.fopenOutput filename)

theorem Kept.saveOld (filename : Option Bytes) (fuel : Nat) (index : Int) :
    Proc.Preserves (fun s : Session σ H => P s.io) (saveOld env archive filename fuel index) :=
  kept.steady.saveOld kept.fwriteOutput (fun _ holds => holds)
    (preserves_createOldReader env kept.unaffected fuel index) (kept.fopenOutput filename)

/-! ### The calls -/

theorem Kept.closeSession {s : Session σ H} (holds : P s.io) : P (closeSession env s).io := by
  rw [Unshield.closeSession]
  cases s.reader.volumeFile with
  | none =>
      cases s.output with
      | none => exact holds
      | some output => exact kept.callbacks.fclose output s.io holds
  | some file =>
      have closed := kept.callbacks.fclose file s.io holds
      cases s.output with
      | none => exact closed
      | some output => exact kept.callbacks.fclose output _ closed

theorem Kept.runSession {body : Proc (Session σ H) Unit}
    (bodyKept : Proc.Preserves (fun s : Session σ H => P s.io) body) (index : Nat)
    (fd : FileDescriptor) :
    Proc.Preserves (fun library : Library σ => P library.io) (runSession env index fd body) := by
  intro library holds
  have after := bodyKept { reader := { index := 0 }, fileDescriptor := fd, io := library.io } holds
  rw [Unshield.runSession]
  split
  · rename_i s run
    rw [run] at after
    exact kept.closeSession after
  · rename_i s run
    rw [run] at after
    exact kept.closeSession after
  · rename_i run
    rw [run] at after
    exact after

theorem Kept.saveThroughLinks {save : Nat → Int → Proc (Session σ H) Unit}
    (saveKept : ∀ fuel index, Proc.Preserves (fun s : Session σ H => P s.io) (save fuel index))
    (fuel : Nat) : ∀ index, Proc.Preserves (fun library : Library σ => P library.io)
      (saveThroughLinks env archive save fuel index) := by
  induction fuel with
  | zero => exact fun _ _ holds => holds
  | succ fuel ih =>
      intro index
      refine .bind (preserves_getFileDescriptor archive.header index) fun fd => ?_
      refine .bind (.require _) fun _ => ?_
      exact .ite (fun _ => ih _) fun _ => kept.runSession (saveKept fuel index) _ _

theorem Kept.fileSave (fuel : Nat) (index : Int) (filename : Option Bytes) :
    Proc.Preserves (fun library : Library σ => P library.io)
      (fileSave env archive fuel index filename) :=
  kept.saveThroughLinks (kept.saveNew filename) fuel index

theorem Kept.fileSaveRaw (fuel : Nat) (index : Int) (filename : Option Bytes) :
    Proc.Preserves (fun library : Library σ => P library.io)
      (fileSaveRaw env archive fuel index filename) :=
  kept.saveThroughLinks (kept.saveRaw filename) fuel index

theorem Kept.fileSaveOld (fuel : Nat) (index : Int) (filename : Option Bytes) :
    Proc.Preserves (fun library : Library σ => P library.io)
      (fileSaveOld env archive fuel index filename) :=
  kept.saveThroughLinks (kept.saveOld filename) fuel index

end Unshield
