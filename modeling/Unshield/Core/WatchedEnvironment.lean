/-
Module: Unshield.Core.WatchedEnvironment
Purpose: An environment that notes whether an output file could not be opened or written in full.
Trusted boundary: none
Main exports: Watched, WatchedHandle, Environment.watched, Library.watched
-/
import Unshield.Core.Save

namespace Unshield

/-- The world outside; it is `hindered` once the `fopen` callback has failed to open an output file, or
`fwrite` has come short on one. -/
structure Watched (σ : Type) where
  io : σ
  hindered : Bool := false

/-- A handle, and whether it was opened for writing by the `fopen` callback. -/
structure WatchedHandle (H : Type) where
  handle : H
  output : Bool := false

variable {σ H : Type}

namespace Watched

/-- A file has been opened, but not by the `fopen` callback for writing. -/
def opened (world : Watched σ) (result : Option H × σ) : Option (WatchedHandle H) × Watched σ :=
  (result.1.map fun handle => { handle }, { world with io := result.2 })

/-- The `fopen` callback has been called. -/
def fopen (callbacks : Callbacks σ H) (path : Bytes) (mode : Mode) (world : Watched σ) :
    Option (WatchedHandle H) × Watched σ :=
  let opened := callbacks.fopen path mode world.io
  (opened.1.map fun handle => { handle, output := decide (mode = .writeBinary) },
    { io := opened.2
      hindered := world.hindered || (decide (mode = .writeBinary) && opened.1.isNone) })

def fwrite (callbacks : Callbacks σ H) (file : WatchedHandle H) (data : Bytes) (world : Watched σ) :
    Nat × WatchedHandle H × Watched σ :=
  let wrote := callbacks.fwrite file.handle data world.io
  (wrote.1, { file with handle := wrote.2.1 },
    { io := wrote.2.2
      hindered := world.hindered || (file.output && decide (wrote.1 ≠ data.length)) })

end Watched

/-- Callbacks that are watched. -/
def Callbacks.watched (callbacks : Callbacks σ H) : Callbacks (Watched σ) (WatchedHandle H) where
  fopen := Watched.fopen callbacks
  fseek := fun file offset whence world =>
    let sought := callbacks.fseek file.handle offset whence world.io
    ({ file with handle := sought.1 }, { world with io := sought.2 })
  ftell := fun file world =>
    let told := callbacks.ftell file.handle world.io
    (told.1, { world with io := told.2 })
  fread := fun file count world =>
    let read := callbacks.fread file.handle count world.io
    (read.1, { file with handle := read.2.1 }, { world with io := read.2.2 })
  fwrite := Watched.fwrite callbacks
  fclose := fun file world => { world with io := callbacks.fclose file.handle world.io }

/-- An environment that is watched.  The C library's own streams are not outputs. -/
def Environment.watched (env : Environment σ H) : Environment (Watched σ) (WatchedHandle H) :=
  { env.toLibraries with
    callbacks := env.callbacks.watched
    openForReading := fun volume world => world.opened (env.openForReading volume world.io)
    native :=
      { env.native.watched with
        fopen := fun path mode world => world.opened (env.native.fopen path mode world.io) }
    tmpfile := fun world => world.opened (env.tmpfile world.io) }

/-- A library in a world where nothing has been hindered so far. -/
def Library.watched (library : Library σ) : Library (Watched σ) where
  fileDescriptors := library.fileDescriptors
  io := { io := library.io }

end Unshield
