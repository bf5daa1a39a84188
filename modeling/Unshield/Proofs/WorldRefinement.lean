/-
Module: Unshield.Proofs.WorldRefinement
Purpose: A client of the library gets the same replies on every host that simulates its own; on a host with
  directories it gets those that it would get on a disk without any, where each path is looked up
  beforehand and every file goes by the text of its place.
Trusted boundary: none
Main exports: converse_same_replies, Shows, hostsAlike_world, Meaning, flatHost, hostsAlike_flat,
  converse_on_disk
-/
import Unshield.Proofs.ExtractionPath
import Unshield.Proofs.HostSimulation
import Unshield.Proofs.SaveNew

namespace Unshield

open Procedure Procedure.Proc

/-! ### A world and its disk -/

/-- The world has this disk, and its directories, its working directory and the permissions are those of
another one. -/
structure Shows (origin world : World) (disk : Disk) : Prop where
  disk : world.disk = disk
  tree : world.tree = origin.tree
  cwd : world.cwd = origin.cwd
  mayCreate : world.mayCreate = origin.mayCreate
  mayRemove : world.mayRemove = origin.mayRemove

theorem Shows.refl (world : World) : Shows world world world.disk := ⟨rfl, rfl, rfl, rfl, rfl⟩

/-- The path leads to a place with this text, where there is no directory. -/
def NamesPlace (origin : World) (path text : Bytes) : Prop :=
  ∃ place, origin.locate path = some place ∧ ¬ origin.tree.isDirectory place = true ∧
    text = Paths.render slash place

section

variable {origin world : World} {disk : Disk}

theorem Shows.locate (seen : Shows origin world disk) (path : Bytes) :
    world.locate path = origin.locate path := by
  rw [World.locate, World.locate, World.start, World.start, seen.tree, seen.cwd]

/-- The world after a call that acts on its disk only. -/
theorem Shows.withDisk (seen : Shows origin world disk) (next : Disk) (written : List Bytes) :
    Shows origin { world with disk := next, written := written } next :=
  { seen with disk := rfl }

/-- Opening a file goes through to the disk. -/
theorem Shows.fopen (seen : Shows origin world disk) {path text : Bytes}
    (names : NamesPlace origin path text) (mode : Mode) :
    (World.fopen path mode world).1 = (Disk.fopen text mode disk).1 ∧
      Shows origin (World.fopen path mode world).2 (Disk.fopen text mode disk).2 := by
  obtain ⟨place, located, free, rfl⟩ := names
  obtain rfl := seen.disk
  rw [← seen.locate] at located
  rw [← seen.tree] at free
  rw [World.fopen.eq_def, located]
  dsimp only
  rw [if_neg free]
  exact ⟨rfl, seen.withDisk _ _⟩

end

theorem callbacksAlike_world (origin : World) :
    CallbacksAlike (Shows origin) Eq World.callbacks stdio where
  fseek := by
    rintro file _ world disk offset whence rfl ⟨rfl, tree, cwd, mayCreate, mayRemove⟩
    exact ⟨rfl, rfl, tree, cwd, mayCreate, mayRemove⟩
  ftell := by
    rintro file _ world disk rfl ⟨rfl, tree, cwd, mayCreate, mayRemove⟩
    exact ⟨rfl, rfl, tree, cwd, mayCreate, mayRemove⟩
  fread := by
    rintro file _ world disk count rfl ⟨rfl, tree, cwd, mayCreate, mayRemove⟩
    exact ⟨rfl, rfl, rfl, tree, cwd, mayCreate, mayRemove⟩
  fwrite := by
    rintro file _ world disk data rfl ⟨rfl, tree, cwd, mayCreate, mayRemove⟩
    exact ⟨rfl, rfl, rfl, tree, cwd, mayCreate, mayRemove⟩
  fclose := by
    rintro file _ world disk rfl ⟨rfl, tree, cwd, mayCreate, mayRemove⟩
    exact ⟨rfl, tree, cwd, mayCreate, mayRemove⟩

theorem rel_eq {H : Type} {one two : Option H} (same : one = two) : Option.Rel Eq one two := by
  subst same
  cases one with
  | none => exact .none
  | some file => exact .some rfl

/-- On a host with directories a path stands for the text of the place it leads to. -/
theorem hostsAlike_world (origin : World) :
    HostsAlike (Shows origin) Eq (NamesPlace origin) (fun path => NamesPlace origin path path) worldHost
      diskHost where
  callbacks := callbacksAlike_world origin
  native := callbacksAlike_world origin
  openForReading := by
    rintro world _ volume ⟨rfl, tree, cwd, mayCreate, mayRemove⟩
    exact ⟨rel_eq rfl, rfl, tree, cwd, mayCreate, mayRemove⟩
  tmpfile := by
    rintro world _ ⟨rfl, tree, cwd, mayCreate, mayRemove⟩
    exact ⟨rel_eq rfl, rfl, tree, cwd, mayCreate, mayRemove⟩
  fopen := by
    intro world disk path text names seen
    obtain ⟨same, after⟩ := seen.fopen names .writeBinary
    exact ⟨rel_eq same, after⟩
  fopenShared := by
    intro world disk path names seen
    obtain ⟨same, after⟩ := seen.fopen names .readBinary
    exact ⟨rel_eq same, after⟩

/-! ### Replies -/

/-- No client can tell two hosts apart that simulate each other: if it starts alike on both and names its
output files accordingly, then all replies are the same, and so is what the library remembers. -/
theorem converse_same_replies {σ σ' H H' : Type} {world : σ → σ' → Prop} {handle : H → H' → Prop}
    {named : Bytes → Bytes → Prop} {shared : Bytes → Prop} {host : Host σ H} {host' : Host σ' H'}
    {libraries : Libraries} {archive : Archive} {client client' : Client} {fuel calls : Nat}
    {library : Library σ} {library' : Library σ'}
    (hosts : HostsAlike world handle named shared host host')
    (clients : ∀ replies, CallsAlike named
      (∀ fd path, externalPath (libraries.on host) archive fd = .ret path → shared path)
      (client replies) (client' replies))
    (alike : LibrariesAlike world library library') :
    (client.converse (libraries.on host) archive fuel calls [] library).1 =
        (client'.converse (libraries.on host') archive fuel calls [] library').1 ∧
      LibrariesAlike world
        (client.converse (libraries.on host) archive fuel calls [] library).2
        (client'.converse (libraries.on host') archive fuel calls [] library').2 :=
  hosts.converse _ id clients fuel calls [] alike

/-! ### Clients on a host with directories -/

/-- A library on the disk alone. -/
def Library.onDisk (library : Library World) : Library Disk :=
  { fileDescriptors := library.fileDescriptors, io := library.io.disk }

theorem librariesAlike_onDisk (library : Library World) :
    LibrariesAlike (Shows library.io) library library.onDisk := ⟨rfl, Shows.refl _⟩

/-- A file system with a cabinet in its root, in which `out` can be written. -/
def frameWorld : World := { rootWorld fun _ => none with disk := frameLibrary.io }

def frameWorldLibrary : Library World :=
  { fileDescriptors := frameLibrary.fileDescriptors, io := frameWorld }

/-- A client that saves the first file and asks for its size afterwards. -/
def savingClient (path : Bytes) : Client
  | [] => .fileSave 0 (some path)
  | _ :: _ => .fileSize 0

theorem savingClient_alike (externals : Prop) (replies : List (Exit Reply)) :
    CallsAlike (NamesPlace frameWorld) externals (savingClient smallPath replies)
      (savingClient (slash :: smallPath) replies) := by
  cases replies with
  | nil => exact .save 0 (.some ⟨[smallPath], rfl, Bool.false_ne_true, rfl⟩)
  | cons reply replies => exact .asks id

theorem converse_same_replies_one_file :
    ((savingClient smallPath).converse (smallLibraries.on worldHost) (smallArchive 6) 4 2 []
        frameWorldLibrary).1 =
      ((savingClient (slash :: smallPath)).converse (smallLibraries.on diskHost) (smallArchive 6) 4 2 []
        frameWorldLibrary.onDisk).1 ∧
      LibrariesAlike (Shows frameWorld)
        ((savingClient smallPath).converse (smallLibraries.on worldHost) (smallArchive 6) 4 2 []
          frameWorldLibrary).2
        ((savingClient (slash :: smallPath)).converse (smallLibraries.on diskHost) (smallArchive 6) 4 2 []
          frameWorldLibrary.onDisk).2 :=
  converse_same_replies (hostsAlike_world frameWorld) (savingClient_alike _)
    (librariesAlike_onDisk frameWorldLibrary)

/-- What a path stands for: for nothing, for a directory, or for the file that goes by a text. -/
inductive Meaning where
  | nothing
  | directory
  | file (text : Bytes)

/-- What a path stands for in the directories of a world. -/
def World.meaning (world : World) (path : Bytes) : Meaning :=
  match world.locate path with
  | none => .nothing
  | some place =>
      if world.tree.isDirectory place = true then .directory else .file (Paths.render slash place)

/-- `fopen` of a path that has been looked up. -/
def Disk.fopenMeant (meaning : Bytes → Meaning) (path : Bytes) (mode : Mode) (disk : Disk) :
    Option Stream × Disk :=
  match meaning path with
  | .nothing => (none, disk)
  | .directory =>
      match mode with
      | .readBinary => (some { content := [] }, disk)
      | .writeBinary => (none, disk)
  | .file text => disk.fopen text mode

/-- A disk without directories: what a path stands for is settled beforehand. -/
def flatHost (meaning : Bytes → Meaning) : Host Disk Stream :=
  { diskHost with
    callbacks := { stdio with fopen := Disk.fopenMeant meaning }
    native := { stdio with fopen := Disk.fopenMeant meaning } }

/-- A path that is opened stands for what it stood for at the start. -/
theorem Shows.fopenMeant {origin world : World} {disk : Disk} (seen : Shows origin world disk)
    {path path' : Bytes} (same : origin.meaning path = origin.meaning path') (mode : Mode) :
    OpenedAlike (Shows origin) Eq (World.fopen path mode world)
      (Disk.fopenMeant origin.meaning path' mode disk) := by
  obtain rfl := seen.disk
  rw [Disk.fopenMeant.eq_def, ← same, World.meaning, World.fopen.eq_def, seen.locate]
  cases origin.locate path with
  | none => exact ⟨.none, seen⟩
  | some place =>
      dsimp only
      have there : world.tree.isDirectory place = origin.tree.isDirectory place := by rw [seen.tree]
      by_cases directory : origin.tree.isDirectory place = true
      · rw [if_pos (there.trans directory), if_pos directory]
        cases mode with
        | readBinary => exact ⟨.some rfl, seen⟩
        | writeBinary => exact ⟨.none, seen⟩
      · rw [if_neg (there ▸ directory), if_neg directory]
        exact ⟨rel_eq rfl, seen.withDisk _ _⟩

theorem callbacksAlike_flat (origin : World) :
    CallbacksAlike (Shows origin) Eq World.callbacks
      { stdio with fopen := Disk.fopenMeant origin.meaning } :=
  { callbacksAlike_world origin with }

/-- On a host with directories a path always stands for the same. -/
theorem hostsAlike_flat (origin : World) :
    HostsAlike (Shows origin) Eq (fun path path' => origin.meaning path = origin.meaning path')
      (fun _ => True) worldHost (flatHost origin.meaning) where
  callbacks := callbacksAlike_flat origin
  native := callbacksAlike_flat origin
  openForReading := (hostsAlike_world origin).openForReading
  tmpfile := (hostsAlike_world origin).tmpfile
  fopen := fun same seen => seen.fopenMeant same .writeBinary
  fopenShared := fun _ seen => seen.fopenMeant rfl .readBinary

/-- Whatever a client does with the files of a cabinet on a host with directories, it makes and removes no
directory, and all the rest is what the same client sees and does on a disk without directories, where it
may name its output files by any other paths that stand for them. -/
theorem converse_on_disk {libraries : Libraries} {archive : Archive} {client client' : Client}
    {fuel calls : Nat} {library : Library World}
    (clients : ∀ replies, CallsAlike (fun path path' => library.io.meaning path = library.io.meaning path')
      True (client replies) (client' replies)) :
    let inWorld := client.converse libraries.onWorld archive fuel calls [] library
    let onDisk := client'.converse (libraries.on (flatHost library.io.meaning)) archive fuel calls []
      library.onDisk
    inWorld.1 = onDisk.1 ∧ inWorld.2.onDisk = onDisk.2 ∧ inWorld.2.io.tree = library.io.tree ∧
      inWorld.2.io.cwd = library.io.cwd := by
  obtain ⟨replies, after⟩ := @HostsAlike.converse _ _ _ _ _ _ _ _ _ _ libraries archive
    (hostsAlike_flat library.io) _ (fun _ _ _ _ => trivial) client client' clients fuel calls [] library
    library.onDisk (librariesAlike_onDisk library)
  exact ⟨replies, congrArg₂ Library.mk after.fileDescriptors after.world.disk, after.world.tree,
    after.world.cwd⟩

/-! ### A file beside a cabinet -/

/-- The header of a cabinet whose only file, named "x", is said to start at the end of its volume. -/
def besideHeader : Header :=
  { namedHeader [] [0x78] with
    data := List.replicate 2 0 ++ words [1, 0, 1, 0, 84, 0] ++ List.replicate 32 0 ++
      words [88] ++ List.replicate 23 0 ++ [1, 0, 0, 0x78, 0] }

def besideArchive : Archive := { header := besideHeader, filenamePattern := [] }

def besideVolume : Bytes := words [cabSignature, 0, 0, 0, 0] ++ List.replicate 64 0

theorem besideVolume_lt : ∀ content ∈ [besideVolume], content.length < 2 ^ 63 := by decide

/-- The file "x" lies in the root, which is the working directory. -/
def besideWorld : World :=
  let disk := shelfDisk [besideVolume] 1 besideVolume_lt (by decide)
  let files := Function.update (fun _ => none) [slash, 0x78] (some [0x61])
  { rootWorld fun _ => none with disk := { disk with store := { disk.store with files } } }

def besideLibrary : Library World := freshLibrary besideWorld

/-- A client that saves the first file as one of an old cabinet and asks for its size afterwards. -/
def oldSavingClient (path : Bytes) : Client
  | [] => .fileSaveOld 0 (some path)
  | _ :: _ => .fileSize 0

theorem converse_on_disk_beside :
    let inWorld := (oldSavingClient smallPath).converse smallLibraries.onWorld besideArchive 4 2 []
      besideLibrary
    let onDisk := (oldSavingClient (slash :: smallPath)).converse
      (smallLibraries.on (flatHost besideWorld.meaning)) besideArchive 4 2 [] besideLibrary.onDisk
    onDisk.1 = [.ret .saved, .ret (.size 1)] ∧ onDisk.2.io.store.files (slash :: smallPath) = some [0x61] ∧
      inWorld.1 = onDisk.1 ∧ inWorld.2.onDisk = onDisk.2 ∧ inWorld.2.io.tree = besideWorld.tree ∧
      inWorld.2.io.cwd = besideWorld.cwd := by
  refine ⟨by decide +kernel, by decide +kernel, converse_on_disk fun replies => ?_⟩
  cases replies with
  | nil => exact .saveOld 0 (.some rfl) trivial
  | cons reply replies => exact .asks id

end Unshield
