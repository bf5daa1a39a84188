/-
Module: Unshield.Proofs.RemainingBytes
Purpose: The counter of the bytes that remain of a file of the old format, and when none of the counters
  of the two save functions wraps.
Trusted boundary: none
Main exports: saveOldBegin, AtChunk, ExpandsTo, SaveOldWithin, Gathers, GathersTo, ExpansionsFit,
  saveOldWithin_iff, remaining_bytes_iff
-/
import Unshield.Proofs.SaveCounters
import Unshield.Proofs.VolumeFormat

namespace Unshield

open Procedure Procedure.Proc

/-! ### The parts of `unshield_file_save_old` -/

section

variable {σ H : Type} (env : Environment σ H) (archive : Archive)

/-- What `unshield_file_save_old` does in front of its loop. -/
def saveOldBegin (filename : Option Bytes) (fuel : Nat) (index : Int) : Proc (Session σ H) SaveOldVars := do
  createOldReader env archive fuel index
  fopenOutput env filename
  let fd ← Proc.gets fun s => s.fileDescriptor
  pure (saveOldStart env fd)

/-- What is done in front of the chunk loop: all that is left of the volume is read. -/
def chunksBegin (vars : SaveOldVars) : Proc (Session σ H) ChunkVars := do
  let volumeBytesLeft ← Proc.gets fun s => s.reader.volumeBytesLeft
  let inputSize := volumeBytesLeft.toNat
  let inputBuffer := vars.inputBuffer.resize (growBuffer inputSize inputSize vars.inputBuffer.size)
  let data ← readOrReport env archive.header inputSize
  let inputBuffer ← Proc.access (inputBuffer.store 0 data)
  pure { vars with inputBuffer, chunkBuffer := 0, inputSize := volumeBytesLeft.toUInt64 }

theorem saveOldCompressed_eq_chunks (fuel : Nat) (vars : SaveOldVars) :
    saveOldCompressed env archive fuel vars =
      chunksBegin env archive vars >>= Proc.iterate (chunkTurn env archive fuel) fuel := by
  simp only [chunksBegin, Proc.bind_assoc]
  rfl

/-! ### The subtractions -/

/-- The chunk ahead expands to `count` bytes. -/
def ExpandsTo (fuel : Nat) (vars : ChunkVars) (count : Nat) : Prop :=
  ∃ size inputBuffer result, Expands env fuel vars size inputBuffer result ∧ result.destLen = count

/-- The outer loop, started with `start` in `s`, has bytes to get and a volume to get them from. -/
def AtVolume (fuel : Nat) (start : SaveOldVars) (s : Session σ H) (vars : SaveOldVars)
    (t : Session σ H) : Prop :=
  vars.bytesLeft ≠ 0 ∧ ∃ u, Visits (saveOldTurn env archive fuel) start s vars u ∧
    openExhausted env archive u = (.ret (), t)

/-- The chunk loop has come to another chunk. -/
def AtChunk (fuel : Nat) (start : SaveOldVars) (s : Session σ H) (chunk : ChunkVars) : Prop :=
  chunk.inputSize ≠ 0 ∧ ∃ vars t first u v, AtVolume env archive fuel start s vars t ∧
    t.fileDescriptor.Has fileCompressed ∧ chunksBegin env archive vars t = (.ret first, u) ∧
    Visits (chunkTurn env archive fuel) first u chunk v

/-- A run of the loops subtracts the first number from `bytes_left`, which is the second one. -/
inductive SaveOldSubtracts (fuel : Nat) (start : SaveOldVars) (s : Session σ H) : Nat → Nat → Prop where
  | chunk {chunk : ChunkVars} {count : Nat} (here : AtChunk env archive fuel start s chunk)
      (more : chunk.bytesLeft ≠ 0) (expands : ExpandsTo env fuel chunk count) :
      SaveOldSubtracts fuel start s count chunk.bytesLeft.toNat
  | stored {vars : SaveOldVars} {t : Session σ H} (here : AtVolume env archive fuel start s vars t)
      (stored : ¬ t.fileDescriptor.Has fileCompressed) :
      SaveOldSubtracts fuel start s (min vars.bytesLeft.toNat bufferSize) vars.bytesLeft.toNat

/-! ### A tally of what the file has got -/

/-- How many bytes the chunk ahead expands to, if it does. -/
def expansion (fuel : Nat) (vars : ChunkVars) : Nat :=
  match chunkSize vars.inputBuffer vars.chunkBuffer vars.inputSize.toNat with
  | .ret (some size) =>
      match (vars.inputBuffer.store (vars.chunkBuffer + size) [0]).bind
          fun terminated => terminated.load vars.chunkBuffer size with
      | some source =>
          match uncompressOld env.zlib fuel bufferSize source with
          | .ret result => result.destLen
          | _ => 0
      | none => 0
  | _ => 0

/-- The outer loop, started with `start` in `s`, comes to a turn, and the turns before have got `total`
bytes of the file: what their chunks expand to, or what they read of stored data. -/
inductive Gathers (fuel : Nat) (start : SaveOldVars) (s : Session σ H) :
    Nat → SaveOldVars → Session σ H → Prop where
  | start : Gathers fuel start s 0 start s
  | stored {total : Nat} {vars next : SaveOldVars} {t u v : Session σ H}
      (earlier : Gathers fuel start s total vars t)
      (turn : saveOldTurn env archive fuel vars t = (.ret (.again next), v))
      (opened : openExhausted env archive t = (.ret (), u))
      (stored : ¬ u.fileDescriptor.Has fileCompressed) :
      Gathers fuel start s (total + min vars.bytesLeft.toNat bufferSize) next v
  | chunks {total count : Nat} {vars next : SaveOldVars} {first last : ChunkVars} {t u v w x : Session σ H}
      (earlier : Gathers fuel start s total vars t)
      (turn : saveOldTurn env archive fuel vars t = (.ret (.again next), v))
      (opened : openExhausted env archive t = (.ret (), u))
      (compressed : u.fileDescriptor.Has fileCompressed)
      (begins : chunksBegin env archive vars u = (.ret first, w))
      (expanded : Tally (chunkTurn env archive fuel) (fun chunk _ => expansion env fuel chunk) first w count
        last x)
      (ended : chunkTurn env archive fuel last x = (.ret (.done next), v)) :
      Gathers fuel start s (total + count) next v

/-- The chunk loop has come to another chunk, and the chunks before and the turns of the outer loop have
got `total` bytes of the file. -/
inductive GathersTo (fuel : Nat) (start : SaveOldVars) (s : Session σ H) : Nat → ChunkVars → Prop where
  | chunk {total count : Nat} {vars : SaveOldVars} {first chunk : ChunkVars} {t u v w : Session σ H}
      (outer : Gathers env archive fuel start s total vars t) (more : vars.bytesLeft ≠ 0)
      (opened : openExhausted env archive t = (.ret (), u))
      (compressed : u.fileDescriptor.Has fileCompressed)
      (begins : chunksBegin env archive vars u = (.ret first, v))
      (expanded : Tally (chunkTurn env archive fuel) (fun chunk _ => expansion env fuel chunk) first v count
        chunk w)
      (some_input : chunk.inputSize ≠ 0) : GathersTo fuel start s (total + count) chunk

end

/-! ### From chunk to chunk -/

section

variable {σ H : Type} {env : Environment σ H} {archive : Archive} {fuel : Nat} {s t : Session σ H}

theorem Expands.expansion_eq {vars : ChunkVars} {size : Nat} {buffer : Block} {result : Uncompressed}
    (expands : Expands env fuel vars size buffer result) : expansion env fuel vars = result.destLen := by
  obtain ⟨source, loaded, expanded⟩ := expands.expanded
  rw [expansion, expands.cut]
  simp only [expands.stored, Option.bind_some, loaded, expanded]

variable {start vars : SaveOldVars} {chunk : ChunkVars} {total : Nat}

theorem Gathers.visits (gathers : Gathers env archive fuel start s total vars t) :
    Visits (saveOldTurn env archive fuel) start s vars t := by
  induction gathers with
  | start => exact .start
  | stored _ turn _ _ ih => exact .again ih turn
  | chunks _ turn _ _ _ _ _ ih => exact .again ih turn

/-- Every turn of the outer loop has its tally. -/
theorem exists_gathers (visits : Visits (saveOldTurn env archive fuel) start s vars t) :
    ∃ total, Gathers env archive fuel start s total vars t := by
  induction visits with
  | start => exact ⟨0, .start⟩
  | again _ run ih =>
      obtain ⟨total, earlier⟩ := ih
      rcases saveOldTurn_cases run with ⟨_, done, _⟩ | ⟨_, u, after, opened, data, again⟩
      · cases done
      · obtain rfl := Turn.again.inj again
        rw [saveOldData] at data
        split at data
        · rename_i compressed
          rw [saveOldCompressed_eq_chunks] at data
          obtain ⟨first, v, begins, loop⟩ := Proc.bind_eq_ret_iff.1 data
          obtain ⟨last, w, chunks, ended⟩ := Visits.of_iterate fuel loop
          obtain ⟨count, expanded⟩ := chunks.tally fun chunk _ => expansion env fuel chunk
          exact ⟨total + count, .chunks earlier run opened compressed begins expanded ended⟩
        · rename_i stored
          exact ⟨_, .stored earlier run opened stored⟩

theorem GathersTo.atChunk (gathers : GathersTo env archive fuel start s total chunk) :
    AtChunk env archive fuel start s chunk := by
  obtain ⟨outer, more, opened, compressed, begins, expanded, some_input⟩ := gathers
  exact ⟨some_input, _, _, _, _, _, ⟨more, _, outer.visits, opened⟩, compressed, begins, expanded.visits⟩

/-- Every chunk has its tally. -/
theorem AtChunk.exists_gathersTo (here : AtChunk env archive fuel start s chunk) :
    ∃ total, GathersTo env archive fuel start s total chunk := by
  obtain ⟨some_input, vars, u, first, v, w, ⟨more, t, visits, opened⟩, compressed, begins, chunks⟩ := here
  obtain ⟨total, outer⟩ := exists_gathers visits
  obtain ⟨count, expanded⟩ := chunks.tally fun chunk _ => expansion env fuel chunk
  exact ⟨total + count, .chunk outer more opened compressed begins expanded some_input⟩

/-- What the file has got and what is left add up to its size. -/
def AddsUp (size : UInt32) (total : Nat) (vars : SaveOldVars) : Prop :=
  total + vars.bytesLeft.toNat = size.toNat

variable {size : UInt32} {count : Nat}

/-- Bytes that the file gets are no longer left. -/
theorem AddsUp.next {next : SaveOldVars} (adds_up : AddsUp size total vars)
    (le : count ≤ vars.bytesLeft.toNat)
    (left : next.bytesLeft = vars.bytesLeft - UInt32.ofNat count) : AddsUp size (total + count) next := by
  have sum : total + vars.bytesLeft.toNat = size.toNat := adds_up
  rw [AddsUp, left, Bits.uint32_sub_ofNat le]
  omega

/-- A chunk fits into what is left just in case it fits behind what the file has got. -/
theorem AddsUp.le_iff (adds_up : AddsUp size total vars) (count : Nat) :
    count ≤ vars.bytesLeft.toNat ↔ total + count ≤ size.toNat := by
  rw [← adds_up, Nat.add_le_add_iff_left]

theorem AddsUp.more_iff (adds_up : AddsUp size total vars) :
    vars.bytesLeft ≠ 0 ↔ total ≠ size.toNat := by
  rw [← adds_up, Ne, Ne, Nat.left_eq_add, ← UInt32.toNat_inj]
  rfl

/-- The chunk loop takes over the counter of the outer loop. -/
theorem chunksBegin_eq_ret {first : ChunkVars} (run : chunksBegin env archive vars s = (.ret first, t)) :
    first.bytesLeft = vars.bytesLeft := by
  rw [chunksBegin, Proc.gets_bind_run] at run
  obtain ⟨data, u, _, run⟩ := Proc.bind_eq_ret_iff.1 run
  obtain ⟨buffer, _, run⟩ := Proc.access_bind_eq_ret_iff.1 run
  obtain ⟨rfl, _⟩ := Proc.pure_eq_ret_iff.1 run
  rfl

/-- No chunk that the loops come to is larger than what is left, as long as the counter is right. -/
def NoneTooLarge (env : Environment σ H) (archive : Archive) (fuel : Nat) (size : UInt32)
    (start : SaveOldVars) (s : Session σ H) : Prop :=
  ∀ total chunk, GathersTo env archive fuel start s total chunk → AddsUp size total chunk.toSaveOldVars →
    chunk.bytesLeft ≠ 0 → ∀ count, ExpandsTo env fuel chunk count → count ≤ chunk.bytesLeft.toNat

section

variable (sound : NoneTooLarge env archive fuel size start s)

include sound

/-- While no chunk is too large, the counter of the chunk loop is right. -/
theorem adds_up_chunk {first : ChunkVars} {u v w : Session σ H}
    (outer : Gathers env archive fuel start s total vars t) (more : vars.bytesLeft ≠ 0)
    (opened : openExhausted env archive t = (.ret (), u))
    (compressed : u.fileDescriptor.Has fileCompressed)
    (begins : chunksBegin env archive vars u = (.ret first, v)) (adds_up : AddsUp size total vars)
    (expanded : Tally (chunkTurn env archive fuel) (fun chunk _ => expansion env fuel chunk) first v count
      chunk w) : AddsUp size (total + count) chunk.toSaveOldVars := by
  induction expanded with
  | start =>
      rw [AddsUp, chunksBegin_eq_ret begins]
      exact adds_up
  | again earlier run ih =>
      rcases chunkTurn_cases run with ⟨_, done, _⟩ |
        ⟨⟨some_input, some_left⟩, n, buffer, result, expands, _, again⟩
      · cases done
      · obtain rfl := Turn.again.inj again
        have here := GathersTo.chunk outer more opened compressed begins earlier some_input
        have fits := sound _ _ here ih some_left result.destLen ⟨n, buffer, result, expands, rfl⟩
        rw [expands.expansion_eq, ← Nat.add_assoc]
        exact ih.next fits rfl

/-- While no chunk is too large, the counter of the outer loop is right. -/
theorem adds_up_volume (adds_up : AddsUp size 0 start)
    (gathers : Gathers env archive fuel start s total vars t) : AddsUp size total vars := by
  induction gathers with
  | start => exact adds_up
  | stored earlier run opened stored ih =>
      rcases saveOldTurn_cases run with ⟨_, done, _⟩ | ⟨_, u, after, opened', data, again⟩
      · cases done
      · obtain rfl := Turn.again.inj again
        rw [opened] at opened'
        obtain rfl := (Prod.mk.inj opened').2
        rw [saveOldData, if_neg stored] at data
        obtain ⟨bytes, v, _, _, rfl⟩ := saveOldStored_eq_ret data
        exact ih.next (Nat.min_le_left _ _) rfl
  | chunks earlier run opened compressed begins expanded ended ih =>
      rcases saveOldTurn_cases run with ⟨_, done, _⟩ | ⟨more, _⟩
      · cases done
      · rcases chunkTurn_cases ended with ⟨_, done, _⟩ | ⟨_, n, buffer, result, _, _, again⟩
        · rw [Turn.done.inj done]
          exact adds_up_chunk sound earlier more opened compressed begins ih expanded
        · cases again

/-- While no chunk is too large, the counter is right wherever the chunk loop comes to. -/
theorem adds_up_atChunk (adds_up : AddsUp size 0 start)
    (here : GathersTo env archive fuel start s total chunk) : AddsUp size total chunk.toSaveOldVars := by
  obtain ⟨outer, more, opened, compressed, begins, expanded, _⟩ := here
  exact adds_up_chunk sound outer more opened compressed begins (adds_up_volume sound adds_up outer) expanded

end

end

/-! ### The runs of `unshield_file_save_old` -/

section

variable {σ H : Type} (env : Environment σ H) (archive : Archive) (filename : Option Bytes) (fuel : Nat)
  (index : Int) (s : Session σ H)

/-- No turn of the loops wraps the counter. -/
def SaveOldWithin : Prop :=
  ∀ start t, saveOldBegin env archive filename fuel index s = (.ret start, t) →
    ∀ count left, SaveOldSubtracts env archive fuel start t count left → count ≤ left

/-- Each chunk that the loops come to, while the file is not complete, expands to no more than the file
lacks. -/
def ExpansionsFit : Prop :=
  ∀ start t, saveOldBegin env archive filename fuel index s = (.ret start, t) →
    ∀ total chunk, GathersTo env archive fuel start t total chunk →
      total ≠ t.fileDescriptor.expandedSize.toUInt32.toNat →
        ∀ count, ExpandsTo env fuel chunk count →
          total + count ≤ t.fileDescriptor.expandedSize.toUInt32.toNat

theorem saveOldBegin_adds_up {start : SaveOldVars} {t : Session σ H}
    (run : saveOldBegin env archive filename fuel index s = (.ret start, t)) :
    AddsUp t.fileDescriptor.expandedSize.toUInt32 0 start := by
  obtain ⟨⟨⟩, u, _, run⟩ := Proc.bind_eq_ret_iff.1 run
  obtain ⟨⟨⟩, v, _, run⟩ := Proc.bind_eq_ret_iff.1 run
  rw [Proc.gets_bind_run] at run
  obtain ⟨rfl, rfl⟩ := Proc.pure_eq_ret_iff.1 run
  exact Nat.zero_add _

theorem saveOldWithin_iff :
    SaveOldWithin env archive filename fuel index s ↔
      ExpansionsFit env archive filename fuel index s := by
  refine forall₃_congr fun start t begun => ?_
  have adds_up := saveOldBegin_adds_up env archive filename fuel index s begun
  constructor
  · intro within total chunk here unfinished count expands
    have sound : NoneTooLarge env archive fuel t.fileDescriptor.expandedSize.toUInt32 start t :=
      fun _ _ here _ more count expands => within count _ (.chunk here.atChunk more expands)
    have right := adds_up_atChunk sound adds_up here
    exact (right.le_iff count).1 (sound total chunk here right (right.more_iff.2 unfinished) count expands)
  · intro fits
    have sound : NoneTooLarge env archive fuel t.fileDescriptor.expandedSize.toUInt32 start t :=
      fun total chunk here right more count expands =>
        (right.le_iff count).2 (fits total chunk here (right.more_iff.1 more) count expands)
    intro count left subtracts
    cases subtracts with
    | chunk here more expands =>
        obtain ⟨total, gathers⟩ := here.exists_gathersTo
        exact sound total _ gathers (adds_up_atChunk sound adds_up gathers) more count expands
    | stored => exact Nat.min_le_left _ _

end

/-! ### Both formats -/

/-- `unshield_file_save` wraps no counter and, for a file that is not split, asks for no volume but the
one it starts in, just in case the chunks that it comes to fit into the compressed size;
`unshield_file_save_old` wraps no counter just in case the chunks that it comes to expand to no more than
the expanded size. -/
theorem remaining_bytes_iff {σ H : Type} (env : Environment σ H) (archive : Archive)
    (filename : Option Bytes) (fuel : Nat) (index : Int) (s : Session (Logged σ) H) (s' : Session σ H) :
    (SaveWithin env archive filename fuel index s ↔ ChunksFit env archive filename fuel index s) ∧
      (SaveOldWithin env archive filename fuel index s' ↔
        ExpansionsFit env archive filename fuel index s') :=
  ⟨saveWithin_iff env archive filename fuel index s,
    saveOldWithin_iff env archive filename fuel index s'⟩

/-! ### A chunk that is too long -/

/-- The descriptor of a file of three stored bytes. -/
def threeBytes : FileDescriptor :=
  { flags := fileCompressed, expandedSize := 1, compressedSize := 3, dataOffset := 84, volume := 1 }

/-- At the offset of the file, the first volume has the length of a chunk of four bytes, and the first of
them. -/
def longChunkVolumes : List Bytes :=
  [storedVolume (smallHeader 6) [0x04, 0x00, 0x4b], storedVolume (smallHeader 6) [0x04, 0x00, 0x00]]

def longChunkSession : LoggedSession where
  reader := { index := 0 }
  fileDescriptor := threeBytes
  io := { io := shelfDisk longChunkVolumes 0 (by decide) room_zero_lt }

/-- `bytes_left` behind a turn. -/
def counterAfter {md5 : Md5} : Proc.Turn (SaveVars md5) (SaveVars md5) → Proc LoggedSession UInt32
  | .again next => pure next.bytesLeft
  | .done vars => pure vars.bytesLeft

/-- The rest of the chunk is taken from the second volume, although the file is not split, and the counter
is 2 ^ 32 - 3 behind it. -/
theorem long_chunk_overshoots :
    ¬ threeBytes.Has fileSplit ∧
    ((saveBegin smallLibraries.onDisk.logged (smallArchive 6) none 3 0 >>= fun vars =>
      saveTurn smallLibraries.onDisk.logged (smallArchive 6) vars >>= counterAfter)
        longChunkSession).1 = .ret 0xfffffffd ∧
    (saveNew smallLibraries.onDisk.logged (smallArchive 6) none 3 0 longChunkSession).2.io.requested =
      [1, 2] ∧
    ¬ SaveWithin smallLibraries.onDisk (smallArchive 6) none 3 0 longChunkSession := by
  have asked : (saveNew smallLibraries.onDisk.logged (smallArchive 6) none 3 0
      longChunkSession).2.io.requested = [1, 2] := by decide +kernel
  have begun : (saveBegin smallLibraries.onDisk.logged (smallArchive 6) none 3 0
      longChunkSession).2.io.requested = [1] := by decide +kernel
  refine ⟨by decide, by decide +kernel, asked, fun within => ?_⟩
  have same := requested_saveNew smallLibraries.onDisk (smallArchive 6) none 3 0 longChunkSession within
    (by decide +kernel)
  rw [asked, begun] at same
  cases same

end Unshield
