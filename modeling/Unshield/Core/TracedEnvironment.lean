/-
Module: Unshield.Core.TracedEnvironment
Purpose: An environment that keeps a trace of what is done with the handles of its callbacks.
Trusted boundary: which operations of an environment are calls of the I/O callbacks
Main exports: Traced, Tagged, Environment.traced, Opener.traced
-/
import Unshield.Core.OpenCabinet
import Unshield.Foundation.Handles

namespace Unshield

open Handles

/-- The world outside, the next identifier, and what was done with the handles of the callbacks. -/
structure Traced (σ : Type) where
  io : σ
  next : Nat := 0
  trace : List Event := []

/-- A handle with its identifier, which does not change. -/
structure Tagged (H : Type) where
  id : Nat
  handle : H

variable {σ H : Type}

namespace Traced

/-- The `fopen` callback has been called. -/
def opened (world : Traced σ) : Option H × σ → Option (Tagged H) × Traced σ
  | (none, io) => (none, { world with io })
  | (some handle, io) =>
      (some { id := world.next, handle },
        { io, next := world.next + 1, trace := .opened world.next :: world.trace })

/-- A stream of the C library has been opened past the callbacks. -/
def openedPast (world : Traced σ) : Option H × σ → Option (Tagged H) × Traced σ
  | (none, io) => (none, { world with io })
  | (some handle, io) =>
      (some { id := world.next, handle }, { world with io, next := world.next + 1 })

/-- A callback other than `fopen` has been called with a handle. -/
def log (world : Traced σ) (event : Event) (io : σ) : Traced σ :=
  { world with io, trace := event :: world.trace }

end Traced

/-- Callbacks that keep a trace. -/
def Callbacks.traced (callbacks : Callbacks σ H) : Callbacks (Traced σ) (Tagged H) where
  fopen := fun path mode world => world.opened (callbacks.fopen path mode world.io)
  fseek := fun file offset whence world =>
    let sought := callbacks.fseek file.handle offset whence world.io
    ({ file with handle := sought.1 }, world.log (.used file.id) sought.2)
  ftell := fun file world =>
    let told := callbacks.ftell file.handle world.io
    (told.1, world.log (.used file.id) told.2)
  fread := fun file count world =>
    let read := callbacks.fread file.handle count world.io
    (read.1, { file with handle := read.2.1 }, world.log (.used file.id) read.2.2)
  fwrite := fun file data world =>
    let wrote := callbacks.fwrite file.handle data world.io
    (wrote.1, { file with handle := wrote.2.1 }, world.log (.used file.id) wrote.2.2)
  fclose := fun file world =>
    world.log (.closed file.id) (callbacks.fclose file.handle world.io)

/-- The C library's own functions leave no trace. -/
def Callbacks.untraced (native : Callbacks σ H) : Callbacks (Traced σ) (Tagged H) where
  fopen := fun path mode world => world.openedPast (native.fopen path mode world.io)
  fseek := fun file offset whence world =>
    let sought := native.fseek file.handle offset whence world.io
    ({ file with handle := sought.1 }, { world with io := sought.2 })
  ftell := fun file world =>
    let told := native.ftell file.handle world.io
    (told.1, { world with io := told.2 })
  fread := fun file count world =>
    let read := native.fread file.handle count world.io
    (read.1, { file with handle := read.2.1 }, { world with io := read.2.2 })
  fwrite := fun file data world =>
    let wrote := native.fwrite file.handle data world.io
    (wrote.1, { file with handle := wrote.2.1 }, { world with io := wrote.2.2 })
  fclose := fun file world => { world with io := native.fclose file.handle world.io }

/-- An environment with a trace. -/
def Environment.traced (env : Environment σ H) : Environment (Traced σ) (Tagged H) :=
  { env.toLibraries with
    callbacks := env.callbacks.traced
    openForReading := fun volume world => world.opened (env.openForReading volume world.io)
    native := env.native.untraced
    tmpfile := fun world => world.openedPast (env.tmpfile world.io) }

/-- An opener with a trace. -/
def Opener.traced (opener : Opener σ H) : Opener (Traced σ) (Tagged H) :=
  { opener.toEnvironment.traced with
    openHeaderForReading := fun i world =>
      world.opened (opener.openHeaderForReading i world.io) }

end Unshield
