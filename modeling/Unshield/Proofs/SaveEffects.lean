/-
Module: Unshield.Proofs.SaveEffects
Purpose: What the calls on the files of a cabinet leave alone: everything but the files that they are told to
  write; and what a save function has written when it is done.
Trusted boundary: none
Main exports: Within, hostsAlike_within, converse_within, Stores, storing_saveNew
-/
import Unshield.Proofs.WorldRefinement

namespace Unshield

open Procedure Procedure.Proc

/-! ### What stays the same -/

/-- A world that differs from another one in the content of some files only: no path that may not be
written leads to another content, be it a file or a volume that is there. -/
structure Within (mayWrite : Bytes → Prop) (origin world : World) : Prop where
  tree : world.tree = origin.tree
  cwd : world.cwd = origin.cwd
  mayCreate : world.mayCreate = origin.mayCreate
  mayRemove : world.mayRemove = origin.mayRemove
  cabinets : world.disk.store.cabinets = origin.disk.store.cabinets
  volumeAt : world.disk.store.volumeAt = origin.disk.store.volumeAt
  writable : world.disk.store.writable = origin.disk.store.writable
  content : ∀ text, ¬ (mayWrite text ∧ origin.disk.store.writable text = true) →
    world.disk.store.content text = origin.disk.store.content text
  written : ∃ more, world.written = more ++ origin.written ∧ ∀ text ∈ more, mayWrite text

/-- A stream that is written to is one of a file that may be written. -/
def WritesWithin (mayWrite : Bytes → Prop) (origin : World) (file : Stream) : Prop :=
  ∀ text, file.name = some text → mayWrite text ∧ origin.disk.store.writable text = true

section

variable {mayWrite : Bytes → Prop} {origin world : World}

theorem Within.refl (mayWrite : Bytes → Prop) (origin : World) : Within mayWrite origin origin :=
  ⟨rfl, rfl, rfl, rfl, rfl, rfl, rfl, fun _ _ => rfl, [], rfl, fun _ member => nomatch member⟩

theorem Within.locate (within : Within mayWrite origin world) (path : Bytes) :
    world.locate path = origin.locate path := by
  rw [World.locate, World.locate, World.start, World.start, within.tree, within.cwd]

/-- A step that leaves the files alone. -/
theorem Within.withDisk (within : Within mayWrite origin world) {disk : Disk}
    (store : disk.store = world.disk.store) : Within mayWrite origin { world with disk := disk } :=
  { within with
    cabinets := (congrArg Store.cabinets store).trans within.cabinets
    volumeAt := (congrArg Store.volumeAt store).trans within.volumeAt
    writable := (congrArg Store.writable store).trans within.writable
    content := fun text apart => (congrArg (fun store : Store => store.content text) store).trans
      (within.content text apart) }

/-- The content that a path leads to depends on the volumes and on the file of that name. -/
theorem content_congr {store store' : Store} {text : Bytes} (cabinets : store'.cabinets = store.cabinets)
    (volumeAt : store'.volumeAt = store.volumeAt) (files : store'.files text = store.files text) :
    store'.content text = store.content text := by
  rw [Store.content, Store.content, cabinets, volumeAt, files]

/-- A step that writes one file. -/
theorem Within.withFile (within : Within mayWrite origin world) {text content : Bytes} {disk : Disk}
    (allowed : mayWrite text ∧ origin.disk.store.writable text = true)
    (files : disk.store.files = Function.update world.disk.store.files text (some content))
    (cabinets : disk.store.cabinets = world.disk.store.cabinets)
    (volumeAt : disk.store.volumeAt = world.disk.store.volumeAt)
    (writable : disk.store.writable = world.disk.store.writable) :
    Within mayWrite origin { world with disk := disk, written := text :: world.written } := by
  obtain ⟨more, written, each⟩ := within.written
  refine ⟨within.tree, within.cwd, within.mayCreate, within.mayRemove, cabinets.trans within.cabinets,
    volumeAt.trans within.volumeAt, writable.trans within.writable, ?_, text :: more, ?_, ?_⟩
  · intro other apart
    have different : other ≠ text := by
      rintro rfl
      exact apart allowed
    refine (content_congr cabinets volumeAt ?_).trans (within.content other apart)
    rw [files, Function.update_of_ne different]
  · show text :: world.written = _
    rw [written, List.cons_append]
  · intro other member
    rcases List.mem_cons.1 member with rfl | old
    · exact allowed.1
    · exact each other old

/-- A step that takes up room and writes no file. -/
theorem Within.withRoom (within : Within mayWrite origin world) {disk : Disk}
    (files : disk.store.files = world.disk.store.files)
    (cabinets : disk.store.cabinets = world.disk.store.cabinets)
    (volumeAt : disk.store.volumeAt = world.disk.store.volumeAt)
    (writable : disk.store.writable = world.disk.store.writable) :
    Within mayWrite origin { world with disk := disk } :=
  { within with
    cabinets := cabinets.trans within.cabinets
    volumeAt := volumeAt.trans within.volumeAt
    writable := writable.trans within.writable
    content := fun text apart =>
      (content_congr cabinets volumeAt (congrFun files text)).trans (within.content text apart) }

/-- What is claimed of the file that was opened holds if none was. -/
theorem of_notOpened {holds : Stream → Prop} (file : Stream) (opened : none = some file) : holds file :=
  nomatch opened

/-- Opening a file for reading changes nothing. -/
theorem Within.fopen_read (within : Within mayWrite origin world) (path : Bytes) :
    (∀ file, (World.fopen path .readBinary world).1 = some file → file.name = none) ∧
      Within mayWrite origin (World.fopen path .readBinary world).2 := by
  cases located : world.locate path with
  | none =>
      rw [World.fopen.eq_def, located]
      exact ⟨of_notOpened, within⟩
  | some place =>
      rw [World.fopen.eq_def, located]
      dsimp only
      split
      · refine ⟨?_, within⟩
        rintro _ ⟨rfl⟩
        rfl
      · refine ⟨?_, within⟩
        intro file opened
        obtain ⟨content, _, rfl⟩ := Option.map_eq_some_iff.1 opened
        rfl

/-- Opening a file for writing empties it, and nothing else. -/
theorem Within.fopen_write (within : Within mayWrite origin world) {path : Bytes}
    (names : ∀ place, origin.locate path = some place → mayWrite (Paths.render slash place)) :
    (∀ file, (World.fopen path .writeBinary world).1 = some file → WritesWithin mayWrite origin file) ∧
      Within mayWrite origin (World.fopen path .writeBinary world).2 := by
  cases located : world.locate path with
  | none =>
      rw [World.fopen.eq_def, located]
      exact ⟨of_notOpened, within⟩
  | some place =>
      have allowed := names place (by rw [← within.locate, located])
      rw [World.fopen.eq_def, located]
      dsimp only
      split
      · exact ⟨of_notOpened, within⟩
      · rw [Disk.fopen]
        dsimp only
        split
        · rename_i writable
          rw [within.writable] at writable
          constructor
          · rintro _ ⟨rfl⟩ _ ⟨rfl⟩
            exact ⟨allowed, writable⟩
          · exact within.withFile ⟨allowed, writable⟩ rfl rfl rfl rfl
        · exact ⟨of_notOpened, within⟩

/-- Writing to a stream changes the file that it belongs to, if there is one, and takes up room. -/
theorem Within.fwrite (within : Within mayWrite origin world) {file : Stream}
    (writes : WritesWithin mayWrite origin file) (data : Bytes) :
    WritesWithin mayWrite origin (World.fwrite file data world).2.1 ∧
      Within mayWrite origin (World.fwrite file data world).2.2 := by
  refine ⟨writes, ?_⟩
  obtain ⟨name, content, position⟩ := file
  cases name with
  | none => exact within.withRoom rfl rfl rfl rfl
  | some text => exact within.withFile (writes text rfl) rfl rfl rfl rfl

end

/-! ### Every run -/

section

variable (mayWrite : Bytes → Prop) (origin : World)

/-- A path leads to nothing but a file that may be written. -/
def LeadsWithin (path : Bytes) : Prop :=
  ∀ place, origin.locate path = some place → mayWrite (Paths.render slash place)

theorem name_fseek (file : Stream) (offset : Int) (whence : Whence) (disk : Disk) :
    (Disk.fseek file offset whence disk).1.name = file.name := by
  rw [Disk.fseek.eq_def]
  exact (apply_ite Stream.name _ _ _).trans (ite_self _)

theorem callbacksAlike_within :
    CallbacksAlike (fun world world' => world = world' ∧ Within mayWrite origin world)
      (fun file file' => file = file' ∧ WritesWithin mayWrite origin file) World.callbacks
      World.callbacks where
  fseek := by
    rintro file _ world _ offset whence ⟨rfl, writes⟩ ⟨rfl, within⟩
    refine ⟨⟨rfl, fun text name => writes text ?_⟩, rfl, within⟩
    rw [← name_fseek file offset whence world.disk]
    exact name
  ftell := by
    rintro file _ world _ ⟨rfl, writes⟩ ⟨rfl, within⟩
    exact ⟨rfl, rfl, within⟩
  fread := by
    rintro file _ world _ count ⟨rfl, writes⟩ ⟨rfl, within⟩
    exact ⟨rfl, ⟨rfl, writes⟩, rfl, within⟩
  fwrite := by
    rintro file _ world _ data ⟨rfl, writes⟩ ⟨rfl, within⟩
    obtain ⟨writes', within'⟩ := within.fwrite writes data
    exact ⟨rfl, ⟨rfl, writes'⟩, rfl, within'⟩
  fclose := by
    rintro file _ world _ ⟨rfl, writes⟩ ⟨rfl, within⟩
    exact ⟨rfl, within.withDisk rfl⟩

theorem rel_same {H : Type} {P : H → Prop} {file : Option H}
    (each : ∀ opened, file = some opened → P opened) :
    Option.Rel (fun one two => one = two ∧ P one) file file := by
  cases file with
  | none => exact .none
  | some opened => exact .some ⟨rfl, each opened rfl⟩

/-- A host that simulates itself keeps what the relation says of its worlds. -/
theorem hostsAlike_within :
    HostsAlike (fun world world' => world = world' ∧ Within mayWrite origin world)
      (fun file file' => file = file' ∧ WritesWithin mayWrite origin file)
      (fun path path' => path = path' ∧ LeadsWithin mayWrite origin path) (fun _ => True) worldHost
      worldHost where
  callbacks := callbacksAlike_within mayWrite origin
  native := callbacksAlike_within mayWrite origin
  openForReading := by
    rintro world _ volume ⟨rfl, within⟩
    refine ⟨rel_same fun file opened => ?_, rfl, within⟩
    obtain ⟨content, _, rfl⟩ := Option.map_eq_some_iff.1 opened
    exact nofun
  tmpfile := by
    rintro world _ ⟨rfl, within⟩
    refine ⟨rel_same ?_, rfl, within⟩
    rintro _ ⟨rfl⟩
    exact nofun
  fopen := by
    rintro world _ path _ ⟨rfl, names⟩ ⟨rfl, within⟩
    obtain ⟨writes, within'⟩ := within.fopen_write names
    exact ⟨rel_same writes, rfl, within'⟩
  fopenShared := by
    rintro world _ path _ ⟨rfl, within⟩
    obtain ⟨nameless, within'⟩ := within.fopen_read path
    refine ⟨rel_same fun file opened => ?_, rfl, within'⟩
    rw [WritesWithin, nameless file opened]
    exact nofun

end

/-- The path that a call writes to. -/
def FileCall.output : FileCall → Option Bytes
  | fileSave _ filename => filename
  | fileSaveRaw _ filename => filename
  | fileSaveOld _ filename => filename
  | _ => none

/-- A call that may write where it writes is like itself. -/
theorem callsAlike_self {named : Bytes → Bytes → Prop} {externals : Prop} (found : externals)
    (call : FileCall) (outputs : ∀ path, call.output = some path → named path path) :
    CallsAlike named externals call call := by
  have related : OutputsAlike named call.output call.output := by
    cases output : call.output with
    | none => exact .none
    | some path => exact .some (outputs path output)
  cases call with
  | fileSave index filename => exact .save index related
  | fileSaveRaw index filename => exact .saveRaw index related
  | fileSaveOld index filename => exact .saveOld index related found
  | fileName index => exact .asks id
  | fileIsValid index => exact .asks id
  | fileDirectory index => exact .asks id
  | fileSize index => exact .asks id
  | fileSizeCompressed index => exact .asks id
  | fileFlagsRaw index => exact .asks id

/-- Whatever a cabinet contains and a client does with it, with links, split files, files outside of the
cabinet and failures of all kinds: nothing is changed but the files that save functions are told to write. -/
theorem converse_within {mayWrite : Bytes → Prop} {libraries : Libraries} {archive : Archive}
    {client : Client} {fuel calls : Nat} {library : Library World}
    (outputs : ∀ replies path, (client replies).output = some path →
      LeadsWithin mayWrite library.io path) :
    Within mayWrite library.io (client.converse libraries.onWorld archive fuel calls [] library).2.io := by
  have after := @HostsAlike.converse _ _ _ _ _ _ _ _ _ _ libraries archive
    (hostsAlike_within mayWrite library.io) _ (fun _ _ _ _ => trivial) client client
    (fun replies => callsAlike_self trivial _ fun path output => ⟨rfl, outputs replies path output⟩)
    fuel calls [] library library ⟨rfl, rfl, Within.refl _ _⟩
  exact after.2.world.2

theorem converse_within_one_file :
    Within (· = slash :: smallPath) frameWorld
      ((savingClient smallPath).converse smallLibraries.onWorld (smallArchive 6) 4 2 []
        frameWorldLibrary).2.io :=
  @converse_within _ _ _ _ _ _ frameWorldLibrary fun replies path output => by
    cases replies with
    | nil =>
        cases output
        rintro _ ⟨rfl⟩
        rfl
    | cons reply replies => cases output

/-! ### What is written -/

/-- The store after `written` was written to a file that was opened for writing. -/
structure Stores (path written : Bytes) (before after : Store) : Prop
    extends SameMedium before after where
  files : after.files = Function.update before.files path (some written)
  room : before.room ≤ after.room + written.length

/-- There is no output file yet, and nothing has been done. -/
def NotYetStoring (before : Store) (s : DiskSession) : Prop := s.output = none ∧ s.io.store = before

/-- There is no output file, or it is all that has changed. -/
def Storing (path : Bytes) (before : Store) (s : DiskSession) : Prop :=
  NotYetStoring before s ∨
    ∃ written, s.output = some (outputStream path written) ∧ Stores path written before s.io.store

section

variable {libraries : Libraries} {archive : Archive} {path : Bytes} {before : Store}

theorem unrelated_notYetStoring : Unrelated libraries.onDisk (NotYetStoring before) :=
  .onDisk (fun _ _ holds => holds) (fun _ _ holds => holds) fun _ _ _ holds => holds

theorem unrelated_storing : Unrelated libraries.onDisk (Storing path before) :=
  .onDisk (fun _ _ holds => holds) (fun _ _ holds => holds) fun _ _ _ holds => holds

/-- A write to the output file takes as much room as it counts. -/
theorem Stores.fwrite {disk : Disk} {written : Bytes} (stores : Stores path written before disk.store)
    (data : Bytes) :
    (Disk.fwrite (outputStream path written) data disk).2.1 =
        outputStream path (written ++ data.take disk.store.room) ∧
      Stores path (written ++ data.take disk.store.room) before
        (Disk.fwrite (outputStream path written) data disk).2.2.store := by
  have behind : Buffer.overwrite written written.length (data.take disk.store.room) =
      written ++ data.take disk.store.room := by
    rw [Buffer.overwrite, List.take_length, List.drop_of_length_le (Nat.le_add_right _ _), List.append_nil]
  refine ⟨?_, stores.toSameMedium.trans (sameMedium_fwrite _ _ _), ?_, ?_⟩
  · rw [Disk.fwrite, outputStream, outputStream, List.length_append]
    simp only [behind]
  · show Function.update disk.store.files path (some (Buffer.overwrite written written.length _)) = _
    rw [behind, stores.files, Function.update_idem]
  · have room := stores.room
    have few := List.length_take_le disk.store.room data
    show before.room ≤ disk.store.room - (data.take disk.store.room).length + _
    rw [List.length_append]
    omega

theorem storing_fwriteOutput (data : Bytes) :
    Proc.Preserves (Storing path before) (fwriteOutput libraries.onDisk data) := by
  intro s holds
  rw [fwriteOutput]
  rcases holds with ⟨silent, same⟩ | ⟨written, output, stores⟩
  · rw [silent]
    exact Or.inl ⟨silent, same⟩
  · obtain ⟨stream, stores'⟩ := stores.fwrite data
    rw [output]
    dsimp only
    split
    · exact Or.inr ⟨_, congrArg some stream, stores'⟩
    · exact Or.inr ⟨_, congrArg some stream, stores'⟩

theorem storing_fopenOutput :
    Proc.Leads (NotYetStoring before) (fopenOutput libraries.onDisk (some path)) (Storing path before) := by
  rintro s ⟨silent, rfl⟩
  rw [fopenOutput]
  dsimp only
  rw [Disk.fopen]
  by_cases writable : s.io.store.writable path = true
  · rw [if_pos writable]
    exact Or.inr ⟨[], rfl, ⟨rfl, rfl, rfl⟩, rfl, room_le_truncate _ _⟩
  · rw [if_neg writable]
    exact Or.inl ⟨rfl, rfl⟩

theorem storing_saveNew (fuel : Nat) (index : Int) :
    Proc.Leads (NotYetStoring before) (saveNew libraries.onDisk archive (some path) fuel index)
      (Storing path before) :=
  (unrelated_storing.steady libraries.onDisk archive.header).saveNew storing_fwriteOutput
    (fun _ holds => Or.inl holds)
    (preserves_readerCreate libraries.onDisk archive.header unrelated_notYetStoring fuel index)
    (preserves_fsizeVolume libraries.onDisk unrelated_notYetStoring.toApart) storing_fopenOutput

/-- What is in the output file when it is open is all that has changed. -/
theorem Storing.stores {s : DiskSession} {written : Bytes} (storing : Storing path before s)
    (output : s.output = some (outputStream path written)) : Stores path written before s.io.store := by
  rcases storing with ⟨silent, _⟩ | ⟨other, output', stores⟩
  · rw [silent] at output
    cases output
  · have same : other = written :=
      congrArg Stream.content (Option.some.inj (output'.symm.trans output))
    rw [← same]
    exact stores

end

end Unshield
