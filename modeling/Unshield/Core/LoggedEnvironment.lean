/-
Module: Unshield.Core.LoggedEnvironment
Purpose: An environment that keeps a list of the volumes it is asked for.
Trusted boundary: none
Main exports: Logged, Environment.logged, Session.unlogged
-/
import Unshield.Core.Reader

namespace Unshield

/-- The world outside, and the numbers of the volumes that the library has asked for, the last one at the
end. -/
structure Logged (σ : Type) where
  io : σ
  requested : List Int := []

variable {σ H : Type}

/-- Callbacks that leave the list alone. -/
def Callbacks.logged (callbacks : Callbacks σ H) : Callbacks (Logged σ) H where
  fopen := fun path mode world =>
    let opened := callbacks.fopen path mode world.io
    (opened.1, { world with io := opened.2 })
  fseek := fun file offset whence world =>
    let sought := callbacks.fseek file offset whence world.io
    (sought.1, { world with io := sought.2 })
  ftell := fun file world =>
    let told := callbacks.ftell file world.io
    (told.1, { world with io := told.2 })
  fread := fun file count world =>
    let read := callbacks.fread file count world.io
    (read.1, read.2.1, { world with io := read.2.2 })
  fwrite := fun file data world =>
    let wrote := callbacks.fwrite file data world.io
    (wrote.1, wrote.2.1, { world with io := wrote.2.2 })
  fclose := fun file world => { world with io := callbacks.fclose file world.io }

/-- An environment whose requests for volumes are listed. -/
def Environment.logged (env : Environment σ H) : Environment (Logged σ) H :=
  { env.toLibraries with
    callbacks := env.callbacks.logged
    openForReading := fun volume world =>
      let opened := env.openForReading volume world.io
      (opened.1, { io := opened.2, requested := world.requested ++ [volume] })
    native := env.native.logged
    tmpfile := fun world =>
      let opened := env.tmpfile world.io
      (opened.1, { world with io := opened.2 }) }

/-- The session without the list. -/
def Session.unlogged (s : Session (Logged σ) H) : Session σ H where
  reader := s.reader
  fileDescriptor := s.fileDescriptor
  output := s.output
  io := s.io.io

end Unshield
