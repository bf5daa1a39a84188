/-
Module: Unshield.Core.DeobfuscateTool
Purpose: The program that deobfuscates a whole file.
Trusted boundary: human-reviewed model of main in src/unshield-deobfuscate.c
Main exports: toolBufferSize, ToolVars, deobfuscateTurn, deobfuscateFile,
  deobfuscateMain
-/
import Unshield.Core.Reader

namespace Unshield

open Procedure

/-- `sizeof(buffer)` -/
def toolBufferSize : Nat := 16384

/-- The local variables of `main`. -/
structure ToolVars (H : Type) where
  seed : UInt32 := 0
  input : H
  output : H

section

variable {σ H : Type} (native : Callbacks σ H)

/-- One turn of the loop of `main`; a loop that is done gives the exit status.  `exit(4)` leaves both
files to the process. -/
def deobfuscateTurn (vars : ToolVars H) : Proc σ (Proc.Turn (ToolVars H) Nat) := fun io =>
  let (buffer, input, io) := native.fread vars.input toolBufferSize io
  if buffer.length ≠ 0 then
    let (clear, seed) := deobfuscate buffer vars.seed
    let (written, output, io) := native.fwrite vars.output clear io
    if written ≠ buffer.length then (.ret (.done 4), io)
    else (.ret (.again { seed, input, output }), io)
  else
    (.ret (.done 0), native.fclose vars.output (native.fclose input io))

/-- The part of `main` behind the check of the command line. -/
def deobfuscateFile (fuel : Nat) (inputFile outputFile : Bytes) : Proc σ Nat := fun io =>
  match native.fopen inputFile .readBinary io with
  | (none, io) => (.ret 2, io)
  | (some input, io) =>
      match native.fopen outputFile .writeBinary io with
      | (none, io) => (.ret 3, io)
      | (some output, io) => Proc.iterate (deobfuscateTurn native) fuel { input, output } io

/-- `main` of `unshield-deobfuscate`: the exit status for a command line. -/
def deobfuscateMain (fuel : Nat) : List Bytes → Proc σ Nat
  | [_, inputFile, outputFile] => deobfuscateFile native fuel inputFile outputFile
  | _ => pure 1

end

end Unshield
