/-
Module: Unshield.Core.Environment
Purpose: What the library calls but does not contain: zlib, MD5, the memory allocator, the I/O
  callbacks and the C library's own streams, with the default callbacks over files in memory.
Trusted boundary: human-reviewed model of the zlib, MD5 and stdio interfaces that lib/file.c uses
Main exports: Zlib, Md5, Callbacks, Environment, Stream, Disk, stdio, Libraries.onDisk
-/
import Unshield.Core.CabFile
import Unshield.Foundation.Block
import Unshield.Foundation.Buffer
import Mathlib.Logic.Function.Basic

namespace Unshield

/-! ### zlib -/

def zOk : Int := 0
def zStreamEnd : Int := 1
def zDataError : Int := -3

/-- The flush modes that the library passes to `inflate`. -/
inductive Flush where
  | finish
  | block
deriving Repr, DecidableEq

/-- The outcome of one call of `inflate`: `consumed` is what `avail_in` went down by and `output`
what was put at `next_out`. -/
structure Inflated (State : Type) where
  code : Int
  state : State
  consumed : Nat
  output : Bytes

/-- The raw inflate interface.  `inflate` gets the bytes at `next_in` and the value of `avail_out`;
nothing is assumed about what it does with them. -/
structure Zlib where
  State : Type
  inflateInit2 : Int × State
  inflate : State → Flush → Bytes → Nat → Inflated State
  inflateEnd : State → Int

/-! ### MD5 -/

/-- A streaming digest: how the message was cut into updates does not show in the result. -/
structure Md5 where
  Context : Type
  init : Context
  update : Context → Bytes → Context
  final : Context → Bytes
  update_nil : ∀ context, update context [] = context
  update_append : ∀ context one two,
    update (update context one) two = update context (one ++ two)

/-- The digest of a whole message. -/
def Md5.digest (md5 : Md5) (message : Bytes) : Bytes := md5.final (md5.update md5.init message)

/-! ### Input and output

A handle is a value that every operation on it gives back changed: the library holds each `FILE*`
in one place and never copies it.
-/

inductive Mode where
  | readBinary
  | writeBinary
deriving Repr, DecidableEq

inductive Whence where
  | set
  | toEnd
deriving Repr, DecidableEq

/-- The callbacks of `UnshieldIoCallbacks` that act on one file. -/
structure Callbacks (σ H : Type) where
  fopen : Bytes → Mode → σ → Option H × σ
  fseek : H → Int → Whence → σ → H × σ
  ftell : H → σ → Int × σ
  fread : H → Nat → σ → Bytes × H × σ
  fwrite : H → Bytes → σ → Nat × H × σ
  fclose : H → σ → σ

/-- The rest of the process the library runs in. -/
structure Libraries where
  zlib : Zlib
  md5 : Md5
  /-- The bytes that `malloc` and `realloc` leave in a block. -/
  garbage : Nat → UInt8
  pathMax : Nat
  bigEndian : Bool
  /-- Whether error messages are printed, as they are unless the log level is 0. -/
  errorsPrinted : Bool := true

/-- Everything outside the library.  `openForReading` is `unshield_fopen_for_reading` on a `cab`
file: the search of the directory for the volume's name, and the `fopen` callback.  `native` is the
C library's own stdio, which the reader of an external file calls past the callbacks. -/
structure Environment (σ H : Type) extends Libraries where
  callbacks : Callbacks σ H
  openForReading : Int → σ → Option H × σ
  native : Callbacks σ H
  tmpfile : σ → Option H × σ

/-! ### The default callbacks -/

/-- An open `FILE`.  What a named stream accepts shows in the file of that name at once: the content of a
file is here what its streams have accepted, whether their buffers are flushed or not, and a flush that
fails in `fclose`, which the library does not look at, is left out. -/
structure Stream where
  name : Option Bytes := none
  content : Bytes
  position : Nat := 0
deriving Repr, DecidableEq, Inhabited

/-- The files a process sees: the volumes by number, every other file by its path.  The volumes are on a
medium that cannot be written, as the discs are that they come on, so that no path that may be written
leads to one.  `room` is what can still be written before the device is full; no file is longer than an
`off_t` can tell. -/
structure Store where
  cabinets : Int → Option Bytes
  /-- The volume that a path leads to, if it is one. -/
  volumeAt : Bytes → Option Int
  files : Bytes → Option Bytes
  writable : Bytes → Bool
  room : Nat
  cabinets_lt : ∀ volume content, cabinets volume = some content → content.length < 2 ^ 63
  room_lt : room < 2 ^ 63
  volumes_protected : ∀ path volume, volumeAt path = some volume → writable path = false

theorem min_device_lt (room : Nat) : min room (2 ^ 63 - 1) < 2 ^ 63 := by omega

namespace Store

/-- The content of the file or volume that a path leads to. -/
def content (store : Store) (path : Bytes) : Option Bytes :=
  match store.volumeAt path with
  | some volume => store.cabinets volume
  | none => store.files path

/-- An empty file takes the place of the one at the path, whose room is free again. -/
def truncate (store : Store) (path : Bytes) : Store :=
  { store with
    files := Function.update store.files path (some [])
    room := min (store.room + ((store.files path).getD []).length) (2 ^ 63 - 1)
    room_lt := min_device_lt _ }

/-- The file at the path is gone, and its room is free again. -/
def remove (store : Store) (path : Bytes) : Store :=
  { store with
    files := Function.update store.files path none
    room := min (store.room + ((store.files path).getD []).length) (2 ^ 63 - 1)
    room_lt := min_device_lt _ }

end Store

/-- The store together with the streams closed so far, as they stood, the last one first. -/
structure Disk where
  store : Store
  closed : List Stream := []

namespace Disk

/-- `fopen`: opening for writing creates the file or truncates it. -/
def fopen (path : Bytes) (mode : Mode) (disk : Disk) : Option Stream × Disk :=
  match mode with
  | .readBinary => ((disk.store.content path).map fun content => { content }, disk)
  | .writeBinary =>
      if disk.store.writable path then
        (some { name := some path, content := [] }, { disk with store := disk.store.truncate path })
      else (none, disk)

/-- `fseek`: a seek before the start of the file fails and moves nothing. -/
def fseek (file : Stream) (offset : Int) (whence : Whence) (disk : Disk) : Stream × Disk :=
  let target : Int :=
    match whence with
    | .set => offset
    | .toEnd => file.content.length + offset
  (if 0 ≤ target then { file with position := target.toNat } else file, disk)

def ftell (file : Stream) (disk : Disk) : Int × Disk := (file.position, disk)

def fread (file : Stream) (count : Nat) (disk : Disk) : Bytes × Stream × Disk :=
  let data := (file.content.drop file.position).take count
  (data, { file with position := file.position + data.length }, disk)

/-- `fwrite`: what no longer fits on the device is not accepted and not counted. -/
def fwrite (file : Stream) (data : Bytes) (disk : Disk) : Nat × Stream × Disk :=
  let kept := data.take disk.store.room
  let content := Buffer.overwrite file.content file.position kept
  let files :=
    match file.name with
    | some path => Function.update disk.store.files path (some content)
    | none => disk.store.files
  (kept.length, { file with content, position := file.position + kept.length },
    { disk with store :=
      { disk.store with
        files
        room := disk.store.room - kept.length
        room_lt := Nat.lt_of_le_of_lt (Nat.sub_le _ _) disk.store.room_lt } })

def fclose (file : Stream) (disk : Disk) : Disk := { disk with closed := file :: disk.closed }

def openForReading (volume : Int) (disk : Disk) : Option Stream × Disk :=
  ((disk.store.cabinets volume).map fun content => { content }, disk)

def tmpfile (disk : Disk) : Option Stream × Disk := (some { content := [] }, disk)

end Disk

/-- `unshield_default_io_callbacks` -/
abbrev stdio : Callbacks Disk Stream where
  fopen := Disk.fopen
  fseek := Disk.fseek
  ftell := Disk.ftell
  fread := Disk.fread
  fwrite := Disk.fwrite
  fclose := Disk.fclose

/-- A process whose cabinet was opened with the default callbacks. -/
abbrev Libraries.onDisk (libraries : Libraries) : Environment Disk Stream :=
  { libraries with
    callbacks := stdio
    openForReading := Disk.openForReading
    native := stdio
    tmpfile := Disk.tmpfile }

end Unshield
