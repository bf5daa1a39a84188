/-
Module: Unshield.Proofs.SaveCounters
Purpose: The counter of the bytes that remain of a file of the new format: when it never wraps, and when
  a file that is not split is read from its start volume alone.
Trusted boundary: none
Main exports: SaveSubtracts, SaveSound, ChunkFits, saveSound_iff, Accounted.next, SaveWithin, ChunksFit,
  saveWithin_iff, requested_saveNew
-/
import Unshield.Proofs.Layout
import Unshield.Proofs.ChunkReads

namespace Unshield

open Procedure Procedure.Proc

/-! ### The subtractions -/

section

variable {σ H : Type} (env : Environment σ H) (archive : Archive)

/-- A turn subtracts the first number from `bytes_left`, or from what is left of it, which is the
second one. -/
inductive SaveSubtracts (vars : SaveVars env.md5) (s : Session σ H) : Nat → Nat → Prop where
  | word {result : UInt32 × Block × Nat} {t : Session σ H}
      (compressed : s.fileDescriptor.Has fileCompressed) (more : vars.bytesLeft ≠ 0)
      (run : saveChunk env archive vars.bytesLeft vars.outputBuffer s = (.ret result, t)) :
      SaveSubtracts vars s 2 vars.bytesLeft.toNat
  | chunk {result : UInt32 × Block × Nat} {length : UInt16} {t u : Session σ H}
      (compressed : s.fileDescriptor.Has fileCompressed) (more : vars.bytesLeft ≠ 0)
      (run : saveChunk env archive vars.bytesLeft vars.outputBuffer s = (.ret result, t))
      (ahead : chunkLength env archive s = (.ret length, u)) :
      SaveSubtracts vars s length.toNat (vars.bytesLeft - 2).toNat
  | stored {result : UInt32 × Block × Nat} {t : Session σ H}
      (stored : ¬ s.fileDescriptor.Has fileCompressed) (more : vars.bytesLeft ≠ 0)
      (run : saveStored env archive vars.bytesLeft vars.outputBuffer s = (.ret result, t)) :
      SaveSubtracts vars s (min vars.bytesLeft.toNat bufferSize) vars.bytesLeft.toNat

/-- A turn does not wrap the counter, nor does it ask for a volume if the file is not split. -/
structure SaveSound (vars : SaveVars env.md5) (s : Session (Logged σ) H) : Prop where
  subtracts : ∀ {count left}, SaveSubtracts env.logged archive vars s count left → count ≤ left
  volume : ¬ s.fileDescriptor.Has fileSplit →
    (saveTurn env.logged archive vars s).2.io.requested = s.io.requested

/-- How many bytes a chunk takes, its length word included. -/
def chunkStored (s : Session σ H) : Nat :=
  match (chunkLength env archive s).1 with
  | .ret length => 2 + length.toNat
  | _ => 0

/-- The chunk ahead, in front of which `total` bytes of chunks were read, ends within the `size` bytes
that the chunks of the file take.  A chunk of a split file that cannot be read or expanded does not
matter, and neither does one of another file where the volume ends before the `size` bytes do. -/
structure ChunkFits (size total : Nat) (vars : SaveVars env.md5) (s : Session σ H) : Prop where
  split : s.fileDescriptor.Has fileSplit → ∀ {length t}, chunkLength env archive s = (.ret length, t) →
    (∃ taken u, takeChunk env archive vars.outputBuffer length t = (.ret taken, u)) →
      total + 2 + length.toNat ≤ size
  word : ¬ s.fileDescriptor.Has fileSplit → total + 2 ≤ size ∨ ¬ CanRead env (size - total) s
  whole : ¬ s.fileDescriptor.Has fileSplit → ∀ {length t}, chunkLength env archive s = (.ret length, t) →
    total + 2 + length.toNat ≤ size ∨ total + 2 = size ∨ ¬ CanRead env (size - (total + 2)) t

end

/-! ### Sound turns -/

section

variable {σ H : Type} {env : Environment σ H} {archive : Archive} {s : Session (Logged σ) H}

/-- Where the counters stand when `total` bytes of chunks were read: what is read and what is left add up
to the size, and the volume of a file that is not split has just the bytes that are left. -/
structure Accounted (size total : Nat) (vars : SaveVars env.md5) (s : Session (Logged σ) H) : Prop where
  compressed : s.fileDescriptor.Has fileCompressed → total + vars.bytesLeft.toNat = size
  whole : ¬ s.fileDescriptor.Has fileSplit → s.reader.volumeBytesLeft = vars.bytesLeft

variable {vars : SaveVars env.md5} {size total : Nat}

theorem saveSound_of_none_left (none_left : vars.bytesLeft = 0) : SaveSound env archive vars s where
  subtracts := by
    intro count left subtracts
    cases subtracts with
    | word _ more => exact absurd none_left more
    | chunk _ more => exact absurd none_left more
    | stored _ more => exact absurd none_left more
  volume := by
    intro _
    rw [@saveTurn_of_none_left _ _ env.logged _ _ _ none_left]

/-- Stored data is read in pieces of what is left. -/
theorem saveSound_of_stored (accounted : Accounted size total vars s)
    (stored : ¬ s.fileDescriptor.Has fileCompressed) : SaveSound env archive vars s where
  subtracts := by
    intro count left subtracts
    cases subtracts with
    | word compressed => exact absurd compressed stored
    | chunk compressed => exact absurd compressed stored
    | stored => exact Nat.min_le_left _ _
  volume := by
    intro whole
    by_cases none_left : vars.bytesLeft = 0
    · exact (saveSound_of_none_left none_left).volume whole
    · rw [requested_saveTurn none_left, saveData, if_neg stored]
      have within : min vars.bytesLeft.toNat bufferSize ≤ s.reader.volumeBytesLeft.toNat := by
        rw [accounted.whole whole]
        exact Nat.min_le_left _ _
      rw [← requested_readerRead_of_within env archive.header within]
      exact Proc.bind_view (fun t : Session (Logged σ) H => t.io.requested)
        (fun data _ => .bind (.access _) fun block => .pure _) s

/-- What the two subtractions of a chunk need. -/
theorem saveSubtracts_iff (compressed : s.fileDescriptor.Has fileCompressed)
    (more : vars.bytesLeft ≠ 0) :
    (∀ {count left}, SaveSubtracts env.logged archive vars s count left → count ≤ left) ↔
      ∀ length t, chunkLength env.logged archive s = (.ret length, t) →
        (∃ taken u, takeChunk env.logged archive vars.outputBuffer length t = (.ret taken, u)) →
          2 + length.toNat ≤ vars.bytesLeft.toNat := by
  have less : (2 : UInt32).toNat ≤ vars.bytesLeft.toNat →
      (vars.bytesLeft - 2).toNat = vars.bytesLeft.toNat - 2 := fun le =>
    UInt32.toNat_sub_of_le _ _ (UInt32.le_iff_toNat_le.2 le)
  constructor
  · rintro sound length t ahead ⟨taken, u, take⟩
    have run := @saveChunk_of_takes _ _ env.logged archive s vars.bytesLeft _ _ _ _ _ ahead take
    have word := sound (.word compressed more run)
    have chunk := sound (.chunk compressed more run ahead)
    rw [less word] at chunk
    omega
  · intro fits count left subtracts
    cases subtracts with
    | word _ _ run =>
        obtain ⟨length, u, ahead, _, take, _⟩ := saveChunk_eq_ret run
        have := fits length u ahead ⟨_, _, take⟩
        omega
    | chunk _ _ run ahead' =>
        obtain ⟨length, u, ahead, _, take, _⟩ := saveChunk_eq_ret run
        obtain ⟨same, rfl⟩ := Prod.mk.inj (ahead.symm.trans ahead')
        obtain rfl := Exit.ret.inj same
        have := fits length u ahead ⟨_, _, take⟩
        have two : (2 : UInt32).toNat = 2 := rfl
        rw [less (by omega)]
        omega
    | stored stored => exact absurd compressed stored

/-- The chunk of a file that is not split asks for a volume unless it fits. -/
theorem requested_chunk_iff (archive : Archive) (accounted : Accounted size total vars s)
    (compressed : s.fileDescriptor.Has fileCompressed) (more : vars.bytesLeft ≠ 0)
    (whole : ¬ s.fileDescriptor.Has fileSplit) :
    (saveTurn env.logged archive vars s).2.io.requested = s.io.requested ↔
      ChunkFits env.logged archive size total vars s := by
  have left : s.reader.volumeBytesLeft.toNat = size - total := by
    rw [accounted.whole whole, ← accounted.compressed compressed, Nat.add_sub_cancel_left]
  have some_left : size - total ≠ 0 := by
    rw [← left, accounted.whole whole]
    exact fun none_left => more (UInt32.toNat_inj.1 none_left)
  have enough : ∀ {length t}, chunkLength env.logged archive s = (.ret length, t) →
      2 ≤ size - total ∨ ¬ CanRead env.logged (size - total) s → 2 ≤ size - total := by
    rintro length t ahead (word | short)
    · exact word
    · by_contra less
      obtain ⟨lengthBytes, read⟩ := chunkLength_eq_ret ahead
      obtain ⟨_, readable⟩ := readable_of_beyond (by rw [left]; exact Nat.lt_of_not_le less) read
      rw [left] at readable
      exact short readable
  have moved : ∀ {length t}, 2 ≤ size - total → chunkLength env.logged archive s = (.ret length, t) →
      t.reader.volumeBytesLeft.toNat = size - (total + 2) := by
    intro length t word ahead
    obtain ⟨lengthBytes, read⟩ := chunkLength_eq_ret ahead
    rw [← left] at word
    rw [(readOff_of_readerRead word read).2.toNat word, left, Nat.sub_sub]
  rw [requested_saveTurn more, saveData, if_pos compressed, requested_saveChunk_iff,
    requested_readerRead_iff, left]
  constructor
  · rintro ⟨word, chunk⟩
    have fits : 2 ≤ size - total ∨ ¬ CanRead env.logged (size - total) s :=
      word.imp_right fun stuck => stuck.resolve_left some_left
    refine ⟨fun split => absurd split whole, fun _ => fits.imp_left fun _ => by omega,
      fun _ length t ahead => ?_⟩
    have word := enough ahead fits
    by_cases empty : length = 0
    · subst empty
      exact Or.inl (show total + 2 + 0 ≤ size by omega)
    · have stays := (requested_readerRead_iff env archive.header).1 (chunk length t ahead empty)
      rw [moved word ahead] at stays
      rcases stays with within | none_left | short
      · exact Or.inl (by omega)
      · exact Or.inr (Or.inl (by omega))
      · exact Or.inr (Or.inr short)
  · rintro ⟨_, word, chunk⟩
    have fits : 2 ≤ size - total ∨ ¬ CanRead env.logged (size - total) s :=
      (word whole).imp_left fun _ => by omega
    refine ⟨fits.imp_right Or.inr, fun length t ahead _ => ?_⟩
    have word := enough ahead fits
    rw [requested_readerRead_iff, moved word ahead]
    rcases chunk whole ahead with within | all | short
    · exact Or.inl (by omega)
    · exact Or.inr (Or.inl (by omega))
    · exact Or.inr (Or.inr short)

/-- A turn is sound just in case the chunk ahead fits. -/
theorem saveSound_iff (accounted : Accounted size total vars s) :
    SaveSound env archive vars s ↔
      (s.fileDescriptor.Has fileCompressed → total ≠ size →
        ChunkFits env.logged archive size total vars s) := by
  by_cases compressed : s.fileDescriptor.Has fileCompressed
  · have sum := accounted.compressed compressed
    by_cases none_left : vars.bytesLeft = 0
    · refine iff_of_true (saveSound_of_none_left none_left) fun _ unread => absurd ?_ unread
      rw [← sum, none_left]
      rfl
    have unread : total ≠ size := by
      rintro rfl
      exact none_left (UInt32.toNat_inj.1 (Nat.left_eq_add.1 sum.symm))
    by_cases split : s.fileDescriptor.Has fileSplit
    · constructor
      · intro sound _ _
        refine ⟨fun _ length t ahead takes => ?_, absurd split, absurd split⟩
        have := (saveSubtracts_iff compressed none_left).1 sound.subtracts length t ahead takes
        omega
      · intro fits
        refine ⟨(saveSubtracts_iff compressed none_left).2 fun length t ahead takes => ?_, absurd split⟩
        have := (fits compressed unread).split split ahead takes
        omega
    · have asks := requested_chunk_iff archive accounted compressed none_left split
      constructor
      · exact fun sound _ _ => asks.1 (sound.volume split)
      · intro fits
        have stays := asks.2 (fits compressed unread)
        refine ⟨(saveSubtracts_iff compressed none_left).2 ?_, fun _ => stays⟩
        rintro length t ahead ⟨taken, u, take⟩
        have run := @saveChunk_of_takes _ _ env.logged archive s vars.bytesLeft _ _ _ _ _ ahead take
        rw [requested_saveTurn none_left, saveData, if_pos compressed, run] at stays
        obtain ⟨length', t', ahead', within, _⟩ := chunk_within run stays
        obtain ⟨same, _⟩ := Prod.mk.inj (ahead.symm.trans ahead')
        obtain rfl := Exit.ret.inj same
        rw [accounted.whole split] at within
        exact within
  · exact iff_of_true (saveSound_of_stored accounted compressed) fun holds => absurd holds compressed

/-! ### From turn to turn -/

theorem UpToSearch.has_iff {fd fd' : FileDescriptor} {flag : UInt16} (search : UpToSearch fd fd')
    (other : fileSplit &&& flag = 0) : fd'.Has flag ↔ fd.Has flag := by
  rcases search with eq | eq
  · rw [eq]
    rfl
  · rw [eq]
    exact has_or_fileSplit other _

/-- A file that is marked split stays so. -/
theorem UpToSearch.split {fd fd' : FileDescriptor} (search : UpToSearch fd fd')
    (split : fd.Has fileSplit) : fd'.Has fileSplit := by
  rcases search with eq | eq
  · rw [eq]
    exact split
  · rw [eq]
    exact splitDescriptor_has fd fd'.volume

theorem unaffected_search (env : Environment σ H) (fd : FileDescriptor) :
    Unaffected env fun s : Session σ H => UpToSearch fd s.fileDescriptor :=
  .of_deaf (fun _ _ holds => holds) (fun _ _ search holds => holds.trans search) fun _ _ holds => holds

/-- A sound turn keeps the account. -/
theorem Accounted.next {next : SaveVars env.md5} {t : Session (Logged σ) H}
    (accounted : Accounted size total vars s) (sound : SaveSound env archive vars s)
    (run : saveTurn env.logged archive vars s = (.ret (.again next), t)) :
    Accounted size (total + chunkStored env.logged archive s) next t := by
  obtain ⟨more, result, u, data, left, reader, descriptor⟩ := saveTurn_eq_again run
  have search : UpToSearch s.fileDescriptor t.fileDescriptor := by
    rw [descriptor]
    exact (preserves_saveData env.logged (unaffected_search env.logged _).toUnrelated _ _ _).of_run
      (.refl _) data
  have same_kind : t.fileDescriptor.Has fileCompressed ↔ s.fileDescriptor.Has fileCompressed :=
    search.has_iff rfl
  have counted : s.fileDescriptor.Has fileCompressed → ∀ {length v},
      chunkLength env.logged archive s = (.ret length, v) →
        2 + length.toNat ≤ vars.bytesLeft.toNat ∧
          next.bytesLeft.toNat = vars.bytesLeft.toNat - (2 + length.toNat) := by
    intro compressed length v ahead
    rw [saveData, if_pos compressed] at data
    obtain ⟨length', v', ahead', _, take, counter⟩ := saveChunk_eq_ret data
    obtain ⟨same, rfl⟩ := Prod.mk.inj (ahead.symm.trans ahead')
    obtain rfl := Exit.ret.inj same
    have fits := (saveSubtracts_iff compressed more).1 sound.subtracts length v ahead ⟨_, _, take⟩
    refine ⟨fits, ?_⟩
    rw [left, counter, Bits.uint32_sub_sub (by rw [UInt16.toNat_toUInt32]; exact fits),
      UInt16.toNat_toUInt32]
    rfl
  constructor
  · intro compressed
    have compressed := same_kind.1 compressed
    have data := data
    rw [saveData, if_pos compressed] at data
    obtain ⟨length, v, ahead, _⟩ := saveChunk_eq_ret data
    obtain ⟨fits, counter⟩ := counted compressed ahead
    have stored : chunkStored env.logged archive s = 2 + length.toNat := by
      rw [chunkStored, ahead]
    rw [stored, counter, ← accounted.compressed compressed]
    omega
  · intro whole
    have whole : ¬ s.fileDescriptor.Has fileSplit := fun split => whole (search.split split)
    have stays := sound.volume whole
    rw [requested_saveTurn more, data] at stays
    rw [reader, left]
    by_cases compressed : s.fileDescriptor.Has fileCompressed
    · rw [← left]
      rw [saveData, if_pos compressed] at data
      obtain ⟨length, v, ahead, _, off⟩ := chunk_within data stays
      obtain ⟨_, counter⟩ := counted compressed ahead
      rw [accounted.whole whole] at off
      exact UInt32.toNat_inj.1 (off.trans counter.symm)
    · rw [saveData, if_neg compressed] at data
      obtain ⟨counter, bytes, read⟩ := saveStored_eq_ret data
      have within := within_of_requested env archive.header read stays
      rw [counter, (readOff_of_readerRead within read).2.volumeBytesLeft, accounted.whole whole]

/-! ### In front of the loop -/

/-- A file that is not split has all its bytes in the volume that is open. -/
def AllAhead (s : Session σ H) : Prop :=
  ¬ s.fileDescriptor.Has fileSplit → s.reader.volumeBytesLeft = startBytesLeft s.fileDescriptor

theorem fseekVolume_still {env : Environment σ H} {offset : Int} {s t : Session σ H}
    (run : fseekVolume env offset s = (.ret (), t)) :
    t.fileDescriptor = s.fileDescriptor ∧ t.reader.volumeBytesLeft = s.reader.volumeBytesLeft := by
  rw [fseekVolume] at run
  split at run
  · cases run
  · obtain ⟨_, rfl⟩ := Prod.mk.inj run
    exact ⟨rfl, rfl⟩

theorem readerOpenVolume_allAhead (env : Environment σ H) (header : Header) (volume : Int) :
    Ensures (fun _ => True) (readerOpenVolume env header volume) fun _ => AllAhead := by
  intro s _ t _ run whole
  rw [readerOpenVolume_eq] at run
  obtain ⟨volumeHeader, u, _, run⟩ := Proc.bind_eq_ret_iff.1 run
  obtain ⟨⟨⟩, v, _, run⟩ := Proc.bind_eq_ret_iff.1 run
  rw [Proc.gets_bind_run] at run
  cases selected : selectPortion v.reader.index volumeHeader v.fileDescriptor with
  | none =>
      rw [selected] at run
      obtain ⟨_, rfl⟩ := Proc.pure_eq_ret_iff.1 run
      rw [selectPortion, if_neg whole] at selected
      cases selected
  | some portion =>
      rw [selected] at run
      obtain ⟨⟨⟩, w, sought, run⟩ := Proc.bind_eq_ret_iff.1 run
      obtain ⟨⟨⟩, x, sought', run⟩ := Proc.bind_eq_ret_iff.1 run
      obtain ⟨_, rfl⟩ := Prod.mk.inj run
      obtain ⟨_, rfl⟩ := Prod.mk.inj sought
      obtain ⟨descriptor, left⟩ := fseekVolume_still sought'
      have whole : ¬ x.fileDescriptor.Has fileSplit := whole
      rw [descriptor] at whole
      rw [selectPortion, if_neg whole] at selected
      obtain rfl := Option.some.inj selected
      show x.reader.volumeBytesLeft = startBytesLeft x.fileDescriptor
      rw [left, descriptor]
      rfl

theorem readerCreate_allAhead (env : Environment σ H) (header : Header) (fuel : Nat) (index : Int) :
    Ensures (fun _ => True) (readerCreate env header fuel index) fun _ => AllAhead := by
  have loop := @Ensures.iterate _ _ _ (fun _ _ => True) (fun _ => AllAhead)
    (readerCreateTurn env header index)
    (by
      rintro ⟨⟩ s outcome t _ run
      rw [readerCreateTurn, Proc.gets_bind_run] at run
      obtain ⟨⟨⟩, u, opened, run⟩ := Proc.bind_eq_ret_iff.1 run
      have ahead := readerOpenVolume_allAhead env header _ _ _ _ trivial opened
      rw [Proc.gets_bind_run] at run
      split at run
      · obtain ⟨rfl, _⟩ := Proc.pure_eq_ret_iff.1 run
        trivial
      · obtain ⟨rfl, rfl⟩ := Proc.pure_eq_ret_iff.1 run
        exact ahead)
    fuel ()
  intro s _ t _ run
  rw [readerCreate] at run
  split at run
  · cases run
  · exact loop _ _ _ trivial run

theorem fsizeVolume_still {env : Environment σ H} {size : Int} {s t : Session σ H}
    (run : fsizeVolume env s = (.ret size, t)) :
    t.fileDescriptor = s.fileDescriptor ∧ t.reader.volumeBytesLeft = s.reader.volumeBytesLeft := by
  rw [fsizeVolume] at run
  split at run
  · cases run
  · obtain ⟨_, rfl⟩ := Prod.mk.inj run
    exact ⟨rfl, rfl⟩

theorem fopenOutput_still {env : Environment σ H} {filename : Option Bytes} {s t : Session σ H}
    (run : fopenOutput env filename s = (.ret (), t)) :
    t.fileDescriptor = s.fileDescriptor ∧ t.reader.volumeBytesLeft = s.reader.volumeBytesLeft := by
  cases filename with
  | none =>
      obtain ⟨_, rfl⟩ := Prod.mk.inj run
      exact ⟨rfl, rfl⟩
  | some path =>
      rw [fopenOutput] at run
      simp only at run
      split at run
      · obtain ⟨_, rfl⟩ := Prod.mk.inj run
        exact ⟨rfl, rfl⟩
      · cases run

/-- The loop starts with all bytes of the file to come, and if it is not split with all of them in the
volume that is open. -/
theorem saveBegin_accounted (env : Environment σ H) {vars : SaveVars env.md5} {filename : Option Bytes}
    {fuel : Nat} {index : Int} {t : Session (Logged σ) H}
    (run : saveBegin env.logged archive filename fuel index s = (.ret vars, t)) :
    Accounted (startBytesLeft t.fileDescriptor).toNat 0 vars t := by
  obtain ⟨⟨⟩, u, created, run⟩ := Proc.bind_eq_ret_iff.1 run
  obtain ⟨fileSize, v, sized, run⟩ := Proc.bind_eq_ret_iff.1 run
  rw [Proc.gets_bind_run] at run
  obtain ⟨_, run⟩ := Proc.require_bind_eq_ret_iff.1 run
  obtain ⟨⟨⟩, w, opened, run⟩ := Proc.bind_eq_ret_iff.1 run
  obtain ⟨rfl, rfl⟩ := Proc.pure_eq_ret_iff.1 run
  obtain ⟨descriptor, left⟩ := fsizeVolume_still sized
  obtain ⟨descriptor', left'⟩ := fopenOutput_still opened
  have same : startBytesLeft v.fileDescriptor = startBytesLeft t.fileDescriptor := by
    rw [descriptor']
  refine ⟨fun _ => ?_, fun whole => ?_⟩
  · rw [← same]
    exact Nat.zero_add _
  · rw [descriptor', descriptor] at whole
    have ahead := readerCreate_allAhead env.logged archive.header fuel index s () u trivial created whole
    rw [left', left, ahead, ← descriptor]
    rfl

end

/-! ### The runs of `unshield_file_save` -/

section

variable {σ H : Type} (env : Environment σ H) (archive : Archive) (filename : Option Bytes) (fuel : Nat)
  (index : Int) (s : Session (Logged σ) H)

/-- No turn of the loop wraps a counter or, if the file is not split, asks for a volume. -/
def SaveWithin : Prop :=
  ∀ vars t, saveBegin env.logged archive filename fuel index s = (.ret vars, t) →
    ∀ next u, Visits (saveTurn env.logged archive) vars t next u → SaveSound env archive next u

/-- Each chunk that the loop comes to fits into the size of the file. -/
def ChunksFit : Prop :=
  ∀ vars t, saveBegin env.logged archive filename fuel index s = (.ret vars, t) →
    ∀ total next u,
      Tally (saveTurn env.logged archive) (fun _ => chunkStored env.logged archive) vars t total next u →
        u.fileDescriptor.Has fileCompressed → total ≠ (startBytesLeft t.fileDescriptor).toNat →
          ChunkFits env.logged archive (startBytesLeft t.fileDescriptor).toNat total next u

theorem saveWithin_iff :
    SaveWithin env archive filename fuel index s ↔ ChunksFit env archive filename fuel index s := by
  refine forall₃_congr fun vars t begun => ?_
  exact visits_iff_tally (saveBegin_accounted env begun)
    (fun _ _ _ accounted => saveSound_iff accounted)
    fun _ _ _ _ _ accounted sound run => accounted.next sound run

/-- As long as no volume is asked for, a file is not marked split either. -/
theorem steady_unsplit (requested : List Int) :
    Steady env.logged archive.header fun s => requested <+: s.io.requested ∧
      (s.io.requested = requested → ¬ s.fileDescriptor.Has fileSplit) where
  openVolume := by
    rintro volume s ⟨before, _⟩
    rw [readerOpenVolume_requests]
    refine ⟨before.trans (List.prefix_append _ _), fun same => ?_⟩
    have longer := before.length_le
    rw [← same, List.length_append] at longer
    exact absurd longer (Nat.not_succ_le_self _)
  fread := by
    rintro count s ⟨before, unsplit⟩
    rw [requested_freadVolume env s.io.requested count s rfl,
      (@sameButFile_freadVolume _ _ env.logged count s).fileDescriptor]
    exact ⟨before, unsplit⟩
  ftell := by
    rintro s ⟨before, unsplit⟩
    rw [requested_ftellVolume env s.io.requested s rfl,
      (@sameButFile_ftellVolume _ _ env.logged s).fileDescriptor]
    exact ⟨before, unsplit⟩
  reader := fun _ _ _ _ holds => holds
  volume := fun _ _ holds => holds

theorem unsplit_fwriteOutput (requested : List Int) (data : Bytes) :
    Preserves (fun s => requested <+: s.io.requested ∧
      (s.io.requested = requested → ¬ s.fileDescriptor.Has fileSplit)) (fwriteOutput env.logged data) := by
  rintro s ⟨before, unsplit⟩
  have same := @requested_fwriteOutput _ _ env data s
  have still := (fwriteOutput_still env.logged data s).2
  refine ⟨?_, fun asked => ?_⟩
  · rw [same]
    exact before
  · rw [still]
    exact unsplit (same.symm.trans asked)

/-- The whole loop of a file that is not split asks for no volume if none of its turns wraps a counter or
asks for one. -/
theorem requested_saveNew (within : SaveWithin env archive filename fuel index s)
    (unsplit : ¬ (saveBegin env.logged archive filename fuel index s).2.fileDescriptor.Has fileSplit) :
    (saveNew env.logged archive filename fuel index s).2.io.requested =
      (saveBegin env.logged archive filename fuel index s).2.io.requested := by
  rw [saveNew_eq]
  by_cases returns : ∃ vars t, saveBegin env.logged archive filename fuel index s = (.ret vars, t)
  · obtain ⟨vars, t, begun⟩ := returns
    rw [begun] at unsplit ⊢
    rw [Proc.bind_of_ret begun]
    have loop := @Proc.iterate_of_visits _ _ _
      (fun u : Session (Logged σ) H => u.io.requested = t.io.requested ∧ ¬ u.fileDescriptor.Has fileSplit)
      (saveTurn env.logged archive) fuel vars t
      (by
        rintro next u visits ⟨same, whole⟩
        have stays := (within vars t begun next u visits).volume whole
        have kept := (steady_unsplit env archive u.io.requested).saveTurn
          (unsplit_fwriteOutput env u.io.requested) next u ⟨List.prefix_refl _, fun _ => whole⟩
        exact ⟨stays.trans same, kept.2 stays⟩)
      ⟨rfl, unsplit⟩
    refine (Proc.bind_view (fun u : Session (Logged σ) H => u.io.requested)
      (fun vars requested => ?_) t).trans loop.1
    refine .bind (.gets _) fun fd => .bind (.require _) fun _ => ?_
    exact .ite (fun _ => .onFailure (.require _) preserves_failWithFileName) fun _ => .pure _
  · rw [Proc.bind_state_of_never fun vars t begun => returns ⟨vars, t, begun⟩]

end

end Unshield
