/-
Module: Unshield.Proofs.ChunkReads
Purpose: The parts of unshield_file_save: what it does in front of its loop and behind it, how it reads a
  chunk, and which volumes it asks for when it does.
Trusted boundary: none
Main exports: saveBegin, saveEnd, saveNew_eq, chunkLength, takeChunk, saveChunk_eq, requested_saveTurn,
  requested_saveChunk_iff, chunk_within
-/
import Unshield.Proofs.SaveFrame
import Unshield.Proofs.SaveTurns
import Unshield.Proofs.VolumeReads

namespace Unshield

open Procedure Procedure.Proc

/-! ### The parts of `unshield_file_save` -/

section

variable {σ H : Type} (env : Environment σ H) (archive : Archive)

/-- What `unshield_file_save` does in front of its loop. -/
def saveBegin (filename : Option Bytes) (fuel : Nat) (index : Int) :
    Proc (Session σ H) (SaveVars env.md5) := do
  readerCreate env archive.header fuel index
  let size ← fsizeVolume env
  let fd ← Proc.gets fun s => s.fileDescriptor
  Proc.require (size ≠ fd.dataOffset.toInt64.toInt)
  fopenOutput env filename
  pure (saveStart env fd)

/-- The checks behind the loop. -/
def saveEnd (vars : SaveVars env.md5) : Proc (Session σ H) Unit := do
  let fd ← Proc.gets fun s => s.fileDescriptor
  Proc.require (fd.expandedSize = vars.totalWritten)
  if archive.header.majorVersion ≥ 6 then
    Proc.onFailure (Proc.require (env.md5.final vars.context = fd.md5))
      (failWithFileName env archive.header)
  else
    pure ()

theorem saveNew_eq (filename : Option Bytes) (fuel : Nat) (index : Int) :
    saveNew env archive filename fuel index =
      saveBegin env archive filename fuel index >>= fun vars =>
        Proc.iterate (saveTurn env archive) fuel vars >>= saveEnd env archive := by
  simp only [saveBegin, Proc.bind_assoc]
  rfl

/-- The length word in front of a chunk. -/
def chunkLength : Proc (Session σ H) UInt16 := do
  let lengthBytes ← readOrReport env archive.header 2
  Proc.access (readUint16 lengthBytes 0)

/-- The bytes of a chunk, expanded into the output buffer. -/
def takeChunk (outputBuffer : Block) (length : UInt16) : Proc (Session σ H) (Block × Nat) := do
  let chunk ← readOrReport env archive.header length.toNat
  let result ← Proc.ofExit (uncompress env.zlib bufferSize (chunk ++ [0]))
  let outputBuffer ← Proc.access (outputBuffer.store 0 result.output)
  Proc.require (result.code = zOk)
  pure (outputBuffer, result.destLen)

theorem saveChunk_eq (bytesLeft : UInt32) (outputBuffer : Block) :
    saveChunk env archive bytesLeft outputBuffer =
      chunkLength env archive >>= fun length =>
        Proc.require (length ≠ 0) >>= fun _ =>
          takeChunk env archive outputBuffer length >>= fun taken =>
            pure (bytesLeft - 2 - length.toUInt32, taken) := by
  simp only [chunkLength, takeChunk, Proc.bind_assoc]
  rfl

/-! ### What a chunk reads -/

variable {env archive} {vars : SaveVars env.md5} {s : Session σ H}

/-- A chunk that is taken in is one that has a length and can be expanded. -/
theorem saveChunk_eq_ret {bytesLeft : UInt32} {outputBuffer : Block} {result : UInt32 × Block × Nat}
    {t : Session σ H} (run : saveChunk env archive bytesLeft outputBuffer s = (.ret result, t)) :
    ∃ length u, chunkLength env archive s = (.ret length, u) ∧ length ≠ 0 ∧
      takeChunk env archive outputBuffer length u = (.ret result.2, t) ∧
      result.1 = bytesLeft - 2 - length.toUInt32 := by
  rw [saveChunk_eq] at run
  obtain ⟨length, u, ahead, run⟩ := Proc.bind_eq_ret_iff.1 run
  obtain ⟨some_bytes, run⟩ := Proc.require_bind_eq_ret_iff.1 run
  obtain ⟨taken, v, take, run⟩ := Proc.bind_eq_ret_iff.1 run
  obtain ⟨rfl, rfl⟩ := Proc.pure_eq_ret_iff.1 run
  exact ⟨length, u, ahead, some_bytes, take, rfl⟩

theorem takeChunk_eq_ret {outputBuffer : Block} {length : UInt16} {taken : Block × Nat} {t : Session σ H}
    (run : takeChunk env archive outputBuffer length s = (.ret taken, t)) :
    ∃ chunk, readerRead env archive.header length.toNat s = (.ret chunk, t) := by
  obtain ⟨chunk, u, read, run⟩ := Proc.bind_eq_ret_iff.1 run
  obtain ⟨result, _, run⟩ := Proc.ofExit_bind_eq_ret_iff.1 run
  obtain ⟨block, _, run⟩ := Proc.access_bind_eq_ret_iff.1 run
  obtain ⟨_, run⟩ := Proc.require_bind_eq_ret_iff.1 run
  obtain ⟨_, rfl⟩ := Proc.pure_eq_ret_iff.1 run
  exact ⟨chunk, readOrReport_eq_ret_iff.1 read⟩

theorem chunkLength_eq_ret {length : UInt16} {t : Session σ H}
    (run : chunkLength env archive s = (.ret length, t)) :
    ∃ lengthBytes, readerRead env archive.header 2 s = (.ret lengthBytes, t) := by
  obtain ⟨lengthBytes, u, read, run⟩ := Proc.bind_eq_ret_iff.1 run
  obtain ⟨_, rfl⟩ := Prod.mk.inj run
  exact ⟨lengthBytes, readOrReport_eq_ret_iff.1 read⟩

theorem saveChunk_of_takes {bytesLeft : UInt32} {outputBuffer : Block} {length : UInt16}
    {taken : Block × Nat} {t u : Session σ H} (ahead : chunkLength env archive s = (.ret length, t))
    (take : takeChunk env archive outputBuffer length t = (.ret taken, u)) :
    saveChunk env archive bytesLeft outputBuffer s = (.ret (bytesLeft - 2 - length.toUInt32, taken), u) := by
  have some_bytes : length ≠ 0 := by
    rintro rfl
    obtain ⟨chunk, read⟩ := takeChunk_eq_ret take
    exact (readOff_of_readerRead (Nat.zero_le _) read).1 rfl
  rw [saveChunk_eq, Proc.bind_of_ret ahead, Proc.bind_of_ret (Proc.require_run_of some_bytes t),
    Proc.bind_of_ret take]
  rfl

theorem saveTurn_of_none_left (none_left : vars.bytesLeft = 0) :
    saveTurn env archive vars s = (.ret (.done vars), s) := by
  rw [saveTurn, if_pos none_left]
  rfl

theorem saveTurn_of_more (more : vars.bytesLeft ≠ 0) :
    saveTurn env archive vars s =
      (saveData env archive s.fileDescriptor vars.bytesLeft vars.outputBuffer >>= fun next =>
        Proc.access (next.2.1.load 0 next.2.2) >>= fun data =>
          fwriteOutput env data >>= fun _ =>
            pure (.again
              { bytesLeft := next.1
                totalWritten := vars.totalWritten + UInt64.ofNat next.2.2
                context := env.md5.update vars.context data
                outputBuffer := next.2.1 })) s := by
  rw [saveTurn, if_neg more]
  rfl

theorem fwriteOutput_still (env : Environment σ H) (data : Bytes) (s : Session σ H) :
    (fwriteOutput env data s).2.reader = s.reader ∧
      (fwriteOutput env data s).2.fileDescriptor = s.fileDescriptor := by
  rw [fwriteOutput]
  cases s.output with
  | none => exact ⟨rfl, rfl⟩
  | some file =>
      simp only
      split <;> exact ⟨rfl, rfl⟩

theorem saveTurn_eq_again {next : SaveVars env.md5} {t : Session σ H}
    (run : saveTurn env archive vars s = (.ret (.again next), t)) :
    vars.bytesLeft ≠ 0 ∧ ∃ result u,
      saveData env archive s.fileDescriptor vars.bytesLeft vars.outputBuffer s = (.ret result, u) ∧
        next.bytesLeft = result.1 ∧ t.reader = u.reader ∧ t.fileDescriptor = u.fileDescriptor := by
  rcases saveTurn_cases run with ⟨_, done, _⟩ | ⟨more, result, u, data, got, _, wrote, again⟩
  · cases done
  · obtain rfl := Turn.again.inj again
    have still := fwriteOutput_still env data u
    rw [wrote] at still
    exact ⟨more, result, u, got, rfl, still⟩

end

/-! ### The volumes that a turn asks for -/

section

variable {σ H : Type} {env : Environment σ H} {archive : Archive} {s : Session (Logged σ) H}

theorem requested_fwriteOutput (data : Bytes) (s : Session (Logged σ) H) :
    (fwriteOutput env.logged data s).2.io.requested = s.io.requested := by
  rw [fwriteOutput]
  cases s.output with
  | none => rfl
  | some file =>
      simp only
      split <;> rfl

theorem requested_saveTurn {vars : SaveVars env.md5} (more : vars.bytesLeft ≠ 0) :
    (saveTurn env.logged archive vars s).2.io.requested =
      (saveData env.logged archive s.fileDescriptor vars.bytesLeft vars.outputBuffer s).2.io.requested := by
  rw [@saveTurn_of_more _ _ env.logged _ _ _ more]
  refine Proc.bind_view (fun t : Session (Logged σ) H => t.io.requested) (fun next requested => ?_) s
  refine .bind (.access _) fun data => .bind (fun u holds => ?_) fun _ => .pure _
  exact (requested_fwriteOutput data u).trans holds

/-- Of two procedures that only ever ask for more, the composition asks for none if neither does. -/
theorem requested_bind_iff {α β : Type} {first : Proc (Session (Logged σ) H) α}
    {next : α → Proc (Session (Logged σ) H) β}
    (more : ∀ value t, t.io.requested <+: (next value t).2.io.requested)
    (before : s.io.requested <+: (first s).2.io.requested) :
    ((first >>= next) s).2.io.requested = s.io.requested ↔
      (first s).2.io.requested = s.io.requested ∧
        ∀ value t, first s = (.ret value, t) → (next value t).2.io.requested = t.io.requested := by
  by_cases returns : ∃ value t, first s = (.ret value, t)
  · obtain ⟨value, t, run⟩ := returns
    rw [Proc.bind_of_ret run, run]
    rw [run] at before
    constructor
    · intro same
      have after := more value t
      rw [same] at after
      have still : t.io.requested = s.io.requested := after.eq_of_length_le before.length_le
      refine ⟨still, fun value' t' run' => ?_⟩
      obtain ⟨same_value, rfl⟩ := Prod.mk.inj run'
      obtain rfl := Exit.ret.inj same_value
      exact same.trans still.symm
    · rintro ⟨still, rest⟩
      exact (rest value t rfl).trans still
  · have never : ∀ value t, first s ≠ (.ret value, t) := fun value t run => returns ⟨value, t, run⟩
    rw [Proc.bind_state_of_never never]
    exact ⟨fun same => ⟨same, fun value t run => absurd run (never value t)⟩, fun both => both.1⟩

/-- The message about a failure asks for no volume. -/
theorem requested_readOrReport (size : Nat) (s : Session (Logged σ) H) :
    (readOrReport env.logged archive.header size s).2.io.requested =
      (readerRead env.logged archive.header size s).2.io.requested := by
  rw [readOrReport, Proc.onFailure]
  rcases readerRead env.logged archive.header size s with ⟨exit, t⟩
  cases exit with
  | fail => exact congrArg (fun u => u.io.requested) (failWithFileName_state t)
  | ret | abort | fault | timeout => rfl

theorem requested_chunkLength :
    (chunkLength env.logged archive s).2.io.requested =
      (readerRead env.logged archive.header 2 s).2.io.requested :=
  (Proc.bind_view (fun t : Session (Logged σ) H => t.io.requested) (fun _ _ => .access _) s).trans
    (requested_readOrReport 2 s)

theorem requested_takeChunk {outputBuffer : Block} {length : UInt16} :
    (takeChunk env.logged archive outputBuffer length s).2.io.requested =
      (readerRead env.logged archive.header length.toNat s).2.io.requested := by
  refine (Proc.bind_view (fun t : Session (Logged σ) H => t.io.requested) (fun chunk requested => ?_) s).trans
    (requested_readOrReport _ s)
  refine .bind (.ofExit _) fun result => ?_
  exact .bind (.access _) fun block => .bind (.require _) fun _ => .pure _

/-- A chunk asks for a volume if its length word or its bytes do. -/
theorem requested_saveChunk_iff {bytesLeft : UInt32} {outputBuffer : Block} :
    (saveChunk env.logged archive bytesLeft outputBuffer s).2.io.requested = s.io.requested ↔
      (readerRead env.logged archive.header 2 s).2.io.requested = s.io.requested ∧
        ∀ length t, chunkLength env.logged archive s = (.ret length, t) → length ≠ 0 →
          (readerRead env.logged archive.header length.toNat t).2.io.requested = t.io.requested := by
  have rest : ∀ length t, ((Proc.require (length ≠ 0) >>= fun _ =>
      takeChunk env.logged archive outputBuffer length >>= fun taken =>
        pure (bytesLeft - 2 - length.toUInt32, taken)) t).2.io.requested =
        if length = 0 then t.io.requested
        else (readerRead env.logged archive.header length.toNat t).2.io.requested := by
    intro length t
    split
    · rename_i empty
      rw [Proc.bind_of_fail (Proc.require_run_of_not (not_not_intro empty) t)]
    · rename_i some_bytes
      rw [Proc.bind_of_ret (Proc.require_run_of some_bytes t), ← requested_takeChunk]
      exact Proc.bind_view (fun t : Session (Logged σ) H => t.io.requested) (fun _ _ => .pure _) t
  have reads := fun size (t : Session (Logged σ) H) =>
    (steady_requests env archive.header t.io.requested).readerRead size t (List.prefix_refl _)
  rw [saveChunk_eq, requested_bind_iff, requested_chunkLength]
  · refine and_congr_right fun _ => forall₃_congr fun length t _ => ?_
    rw [rest]
    split
    · rename_i empty
      exact iff_of_true rfl fun some_bytes => absurd empty some_bytes
    · rename_i some_bytes
      exact ⟨fun same _ => same, fun same => same some_bytes⟩
  · intro length t
    rw [rest]
    split
    · exact List.prefix_refl _
    · exact reads _ t
  · rw [requested_chunkLength]
    exact reads 2 s

/-- A chunk that is taken in without another volume lies within what its volume has left. -/
theorem chunk_within {bytesLeft : UInt32} {outputBuffer : Block} {result : UInt32 × Block × Nat}
    {t : Session (Logged σ) H}
    (run : saveChunk env.logged archive bytesLeft outputBuffer s = (.ret result, t))
    (same : t.io.requested = s.io.requested) :
    ∃ length u, chunkLength env.logged archive s = (.ret length, u) ∧
      2 + length.toNat ≤ s.reader.volumeBytesLeft.toNat ∧
      t.reader.volumeBytesLeft.toNat = s.reader.volumeBytesLeft.toNat - (2 + length.toNat) := by
  obtain ⟨length, u, ahead, some_bytes, take, _⟩ := saveChunk_eq_ret run
  obtain ⟨lengthBytes, readWord⟩ := chunkLength_eq_ret ahead
  obtain ⟨chunk, readChunk⟩ := takeChunk_eq_ret take
  have stays : (saveChunk env.logged archive bytesLeft outputBuffer s).2.io.requested =
      s.io.requested := by rw [run, same]
  obtain ⟨word, rest⟩ := requested_saveChunk_iff.1 stays
  have rest := rest length u ahead some_bytes
  rw [readWord] at word
  rw [readChunk] at rest
  have wordWithin := within_of_requested env archive.header readWord word
  have chunkWithin := within_of_requested env archive.header readChunk rest
  have wordOff := (readOff_of_readerRead wordWithin readWord).2.toNat wordWithin
  have chunkOff := (readOff_of_readerRead chunkWithin readChunk).2.toNat chunkWithin
  rw [wordOff] at chunkWithin chunkOff
  exact ⟨length, u, ahead, by omega, by rw [chunkOff, Nat.sub_sub]⟩

end

end Unshield
