/-
Module: Unshield.Core.FileSystem
Purpose: The file system that the program works on, without symbolic links: directories, paths, the
  system calls of src/unshield.c, and the default callbacks on paths that are looked up.
Trusted boundary: human-reviewed model of the path resolution, stat, mkdir, unlink, realpath and fopen
  of a glibc system
Main exports: System, World, World.locate, World.lexicalPlace, World.system, Libraries.onWorld
-/
import Unshield.Core.Library
import Unshield.Foundation.Paths

namespace Unshield

open Procedure

def dot : UInt8 := 0x2e

/-- The names that lead to a file or a directory from the root. -/
abbrev Place := List Bytes

/-- The system calls that the program makes itself.  `stat` tells whether it succeeds. -/
structure System (σ : Type) where
  stat : Bytes → σ → Bool
  mkdir : Bytes → σ → Bool × σ
  unlink : Bytes → σ → σ
  realpath : Bytes → σ → Bytes

/-- What a process sees of the file system.  The files of `disk` go by the text of their place.
`mayCreate` and `mayRemove` are what the system permits, and `written` the files opened for writing or
written to so far, the last one first. -/
structure World where
  disk : Disk
  tree : Paths.Tree Bytes
  cwd : Place
  mayCreate : Place → Bool
  mayRemove : Place → Bool
  written : List Bytes := []
  cwd_directory : tree.isDirectory cwd = true
  cwd_plain : ∀ name ∈ cwd, Paths.Plain slash name

namespace World

/-! ### Paths -/

/-- Where the steps of a path start. -/
def start (world : World) (path : Bytes) : Place :=
  if path.head? = some slash then [] else world.cwd

/-- Where a path leads; there is no way through a directory that does not exist. -/
def locate (world : World) (path : Bytes) : Option Place :=
  if path = [] then none
  else world.tree.walk (world.start path) (Paths.steps slash dot path)

/-- The lexical normal form of a path, which without symbolic links is what `realpath` computes. -/
def lexicalPlace (world : World) (path : Bytes) : Place :=
  Paths.lexical (world.start path) (Paths.steps slash dot path)

def realpath (path : Bytes) (world : World) : Bytes := Paths.render slash (world.lexicalPlace path)

def fileAt (world : World) (place : Place) : Option Bytes :=
  world.disk.store.content (Paths.render slash place)

/-- There is a file or a directory. -/
def taken (world : World) (place : Place) : Bool :=
  world.tree.isDirectory place || (world.fileAt place).isSome

/-! ### System calls -/

def stat (path : Bytes) (world : World) : Bool :=
  match world.locate path with
  | some place => world.taken place
  | none => false

/-- The world with one directory more. -/
def addDirectory (world : World) (place : Place)
    (inside : world.tree.isDirectory place.dropLast = true) : World :=
  { world with
    tree := world.tree.insert place inside
    cwd_directory := (Paths.Tree.isDirectory_insert inside).2 (Or.inr world.cwd_directory) }

def mkdir (path : Bytes) (world : World) : Bool × World :=
  match world.locate path with
  | some place =>
      if inside : world.tree.isDirectory place.dropLast = true then
        if world.taken place = false ∧ world.mayCreate place = true then
          (true, world.addDirectory place inside)
        else (false, world)
      else (false, world)
  | none => (false, world)

/-- The world without a file. -/
def removeFile (world : World) (place : Place) : World :=
  { world with disk.store := world.disk.store.remove (Paths.render slash place) }

/-- `unlink`, which cannot remove a volume from its medium. -/
def unlink (path : Bytes) (world : World) : World :=
  match world.locate path with
  | some place =>
      if world.mayRemove place = true ∧ world.disk.store.volumeAt (Paths.render slash place) = none then
        world.removeFile place
      else world
  | none => world

def system : System World where
  stat := stat
  mkdir := mkdir
  unlink := unlink
  realpath := realpath

/-! ### The default callbacks -/

/-- `fopen`: a directory can be opened for reading, but nothing can be read from it. -/
def fopen (path : Bytes) (mode : Mode) (world : World) : Option Stream × World :=
  match world.locate path with
  | none => (none, world)
  | some place =>
      if world.tree.isDirectory place = true then
        match mode with
        | .readBinary => (some { content := [] }, world)
        | .writeBinary => (none, world)
      else
        let opened := Disk.fopen (Paths.render slash place) mode world.disk
        let written :=
          if mode = .writeBinary ∧ opened.1.isSome then Paths.render slash place :: world.written
          else world.written
        (opened.1, { world with disk := opened.2, written := written })

def fseek (file : Stream) (offset : Int) (whence : Whence) (world : World) : Stream × World :=
  let sought := Disk.fseek file offset whence world.disk
  (sought.1, { world with disk := sought.2 })

def ftell (file : Stream) (world : World) : Int × World :=
  let told := Disk.ftell file world.disk
  (told.1, { world with disk := told.2 })

def fread (file : Stream) (count : Nat) (world : World) : Bytes × Stream × World :=
  let read := Disk.fread file count world.disk
  (read.1, read.2.1, { world with disk := read.2.2 })

def fwrite (file : Stream) (data : Bytes) (world : World) : Nat × Stream × World :=
  let wrote := Disk.fwrite file data world.disk
  let written :=
    match file.name with
    | some path => path :: world.written
    | none => world.written
  (wrote.1, wrote.2.1, { world with disk := wrote.2.2, written := written })

def fclose (file : Stream) (world : World) : World :=
  { world with disk := Disk.fclose file world.disk }

def openForReading (volume : Int) (world : World) : Option Stream × World :=
  let opened := Disk.openForReading volume world.disk
  (opened.1, { world with disk := opened.2 })

def tmpfile (world : World) : Option Stream × World :=
  let opened := Disk.tmpfile world.disk
  (opened.1, { world with disk := opened.2 })

/-- `unshield_default_io_callbacks` -/
abbrev callbacks : Callbacks World Stream where
  fopen := fopen
  fseek := fseek
  ftell := ftell
  fread := fread
  fwrite := fwrite
  fclose := fclose

end World

/-- A process with a file system. -/
abbrev Libraries.onWorld (libraries : Libraries) : Environment World Stream :=
  { libraries with
    callbacks := World.callbacks
    openForReading := World.openForReading
    native := World.callbacks
    tmpfile := World.tmpfile }

end Unshield
