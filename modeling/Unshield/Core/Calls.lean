/-
Module: Unshield.Core.Calls
Purpose: The public functions on the files of an opened cabinet, and the runs of calls of them.
Trusted boundary: human-reviewed model of unshield_file_name, _is_valid, _directory, _size,
  _size_compressed and _flags_raw in lib/file.c
Main exports: Calls.fileName, Calls.fileIsValid, Calls.fileDirectory, Calls.fileSize,
  Calls.fileSizeCompressed, Calls.fileFlagsRaw, FileCall, FileCall.run, FileRun
-/
import Unshield.Core.ExtractFile

namespace Unshield

open Procedure

/-! ### Questions about a file -/

namespace Calls

variable {σ H : Type} (env : Environment σ H) (archive : Archive)

/-- What the questions share: the descriptor is got, and the answer is read off it. -/
def ask {α : Type} (answer : Option FileDescriptor → Exit α) (index : Int) : Proc (Library σ) α := do
  let fd ← findFileDescriptor archive index
  Proc.ofExit (answer fd)

/-- `unshield_file_name` -/
def fileName (index : Int) : Proc (Library σ) (Option Bytes) := ask archive (fileNameOf env archive) index

/-- The check of `unshield_file_is_valid`. -/
def isValidOf : Option FileDescriptor → Exit Bool
  | none => .ret false
  | some fd => .ret (decide (¬ fd.Has fileInvalid ∧ fd.nameOffset ≠ 0 ∧ fd.dataOffset ≠ 0))

/-- `unshield_file_is_valid` -/
def fileIsValid (index : Int) : Proc (Library σ) Bool :=
  if ValidIndex archive.header index then ask archive isValidOf index else pure false

/-- `unshield_file_directory` -/
def fileDirectory (index : Int) : Proc (Library σ) Int :=
  ask archive (Unshield.fileDirectory archive) index

/-- `unshield_file_size` -/
def fileSize (index : Int) : Proc (Library σ) UInt64 :=
  ask archive (fun fd => .ret (fd.elim 0 FileDescriptor.expandedSize)) index

/-- `unshield_file_size_compressed` -/
def fileSizeCompressed (index : Int) : Proc (Library σ) UInt64 :=
  ask archive (fun fd => .ret (fd.elim 0 FileDescriptor.compressedSize)) index

/-- `unshield_file_flags_raw` -/
def fileFlagsRaw (index : Int) : Proc (Library σ) UInt16 :=
  ask archive (fun fd => .ret (fd.elim 0 FileDescriptor.flags)) index

end Calls

/-! ### Calls -/

/-- A call of a public file function. -/
inductive FileCall where
  | fileName (index : Int)
  | fileIsValid (index : Int)
  | fileDirectory (index : Int)
  | fileSize (index : Int)
  | fileSizeCompressed (index : Int)
  | fileFlagsRaw (index : Int)
  | fileSave (index : Int) (filename : Option Bytes)
  | fileSaveRaw (index : Int) (filename : Option Bytes)
  | fileSaveOld (index : Int) (filename : Option Bytes)
deriving Repr, DecidableEq

namespace FileCall

variable {σ H : Type} (env : Environment σ H) (archive : Archive) (fuel : Nat)

/-- The call, whatever it returns. -/
def run : FileCall → Proc (Library σ) Unit
  | fileName index => do let _ ← Calls.fileName env archive index
  | fileIsValid index => do let _ ← Calls.fileIsValid archive index
  | fileDirectory index => do let _ ← Calls.fileDirectory archive index
  | fileSize index => do let _ ← Calls.fileSize archive index
  | fileSizeCompressed index => do let _ ← Calls.fileSizeCompressed archive index
  | fileFlagsRaw index => do let _ ← Calls.fileFlagsRaw archive index
  | fileSave index filename => Unshield.fileSave env archive fuel index filename
  | fileSaveRaw index filename => Unshield.fileSaveRaw env archive fuel index filename
  | fileSaveOld index filename => Unshield.fileSaveOld env archive fuel index filename

/-- The calls that extract a file. -/
def Saves : FileCall → Prop
  | fileSave _ _ => True
  | fileSaveRaw _ _ => True
  | fileSaveOld _ _ => True
  | _ => False

end FileCall

/-- Calls that all came back, one after the other; the last one is in front.  `allowed` is what holds
before each call. -/
inductive FileRun {σ H : Type} (env : Environment σ H) (archive : Archive)
    (allowed : FileCall → Library σ → Prop) (library : Library σ) :
    List FileCall → Library σ → Prop where
  | start : FileRun env archive allowed library [] library
  | call {calls : List FileCall} {before after : Library σ} {fuel : Nat} {exit : Exit Unit}
      (earlier : FileRun env archive allowed library calls before) (next : FileCall)
      (permitted : allowed next before) (returns : next.run env archive fuel before = (exit, after))
      (orderly : exit.Orderly) : FileRun env archive allowed library (next :: calls) after

end Unshield
