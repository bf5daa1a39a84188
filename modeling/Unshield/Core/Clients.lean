/-
Module: Unshield.Core.Clients
Purpose: The programs that use an opened cabinet: what a call replies, and the conversation of a client that
  chooses each call by the replies so far.  A host is what such a program hands to the library.
Trusted boundary: human-reviewed model of the use that src/unshield.c makes of lib/libunshield.h
Main exports: Host, Libraries.on, Reply, FileCall.reply, Client, Client.converse
-/
import Unshield.Core.Calls

namespace Unshield

open Procedure

/-! ### Hosts -/

/-- The callbacks of a process, and what the library calls past them. -/
structure Host (σ H : Type) where
  callbacks : Callbacks σ H
  openForReading : Int → σ → Option H × σ
  native : Callbacks σ H
  tmpfile : σ → Option H × σ

/-- The environment that consists of a host and of everything that has no state. -/
abbrev Libraries.on {σ H : Type} (libraries : Libraries) (host : Host σ H) : Environment σ H :=
  { libraries with
    callbacks := host.callbacks
    openForReading := host.openForReading
    native := host.native
    tmpfile := host.tmpfile }

/-- A host whose files are all there is to it. -/
abbrev diskHost : Host Disk Stream where
  callbacks := stdio
  openForReading := Disk.openForReading
  native := stdio
  tmpfile := Disk.tmpfile

/-- A host with directories. -/
abbrev worldHost : Host World Stream where
  callbacks := World.callbacks
  openForReading := World.openForReading
  native := World.callbacks
  tmpfile := World.tmpfile

/-! ### Replies -/

/-- What a public file function returns. -/
inductive Reply where
  | name (name : Option Bytes)
  | valid (valid : Bool)
  | directory (index : Int)
  | size (size : UInt64)
  | flags (flags : UInt16)
  | saved
deriving Repr, DecidableEq

section

variable {σ H : Type} (env : Environment σ H) (archive : Archive) (fuel : Nat)

/-- The call with its reply; a save function that returns false fails. -/
def FileCall.reply : FileCall → Proc (Library σ) Reply
  | fileName index => do
      let name ← Calls.fileName env archive index
      pure (.name name)
  | fileIsValid index => do
      let valid ← Calls.fileIsValid archive index
      pure (.valid valid)
  | fileDirectory index => do
      let directory ← Calls.fileDirectory archive index
      pure (.directory directory)
  | fileSize index => do
      let size ← Calls.fileSize archive index
      pure (.size size)
  | fileSizeCompressed index => do
      let size ← Calls.fileSizeCompressed archive index
      pure (.size size)
  | fileFlagsRaw index => do
      let flags ← Calls.fileFlagsRaw archive index
      pure (.flags flags)
  | fileSave index filename => do
      Unshield.fileSave env archive fuel index filename
      pure .saved
  | fileSaveRaw index filename => do
      Unshield.fileSaveRaw env archive fuel index filename
      pure .saved
  | fileSaveOld index filename => do
      Unshield.fileSaveOld env archive fuel index filename
      pure .saved

/-! ### Conversations -/

/-- A client chooses its next call by the replies to the earlier ones. -/
abbrev Client := List (Exit Reply) → FileCall

/-- A client makes some more calls, unless one of them does not come back.  What is kept are the replies,
the first one first. -/
def Client.converse (client : Client) :
    Nat → List (Exit Reply) → Library σ → List (Exit Reply) × Library σ
  | 0, replies, library => (replies, library)
  | calls + 1, replies, library =>
      match (client replies).reply env archive fuel library with
      | (.ret reply, library) => converse client calls (replies ++ [.ret reply]) library
      | (.fail, library) => converse client calls (replies ++ [.fail]) library
      | (exit, library) => (replies ++ [exit], library)

end

end Unshield
