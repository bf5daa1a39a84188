/-
Module: Unshield.Proofs.LoopTermination
Purpose: The loops of saving end on every archive of finitely many volumes: each turn reads bytes that
  no later turn reads again, whatever the counters of the loops say.
Trusted boundary: none
Main exports: bytesBehind, bytesAhead, readerReadTurn_nearer, readerRead_nearer, readerReadLoop_halts,
  saveLoop_halts, saveRawLoop_halts, save_loops_terminate
-/
import Unshield.Proofs.ReaderExits
import Unshield.Proofs.ReaderFrame
import Unshield.Proofs.SaveSteps
import Unshield.Proofs.VolumeFormat
import Mathlib.Algebra.BigOperators.Group.Finset.Basic
import Mathlib.Algebra.Order.BigOperators.Group.Finset
import Mathlib.Data.Set.Finite.Basic

namespace Unshield

open Procedure Procedure.Proc

/-! ### The bytes that can still be read -/

/-- The length of a volume file; one that does not exist has none. -/
def cabinetSize (cabinets : Int → Option Bytes) (volume : Int) : Nat :=
  (cabinets volume).elim 0 List.length

/-- The bytes of the volumes that come after `volume`. -/
def bytesBehind (cabinets : Int → Option Bytes) (volumes : Finset Int) (volume : Int) : Nat :=
  ∑ later ∈ volumes.filter (volume < ·), cabinetSize cabinets later

/-- The bytes that the reader can still come to, in its own volume and in later ones.  With nothing left
of its portion it comes to none, even where another volume has been opened. -/
def bytesAhead (volumes : Finset Int) (s : DiskSession) : Nat :=
  if s.reader.volumeBytesLeft = 0 then 0
  else
    s.reader.volumeFile.elim 0 (fun file => file.content.length - file.position) +
      bytesBehind s.io.store.cabinets volumes s.reader.volume

/-- All the volume files there are have their numbers in `volumes`. -/
def Among (cabinets : Int → Option Bytes) (volumes : Finset Int) : Prop :=
  ∀ volume, cabinets volume ≠ none → volume ∈ volumes

theorem bytesBehind_next {cabinets : Int → Option Bytes} {volumes : Finset Int} {volume : Int}
    {content : Bytes} (among : Among cabinets volumes) (cabinet : cabinets (volume + 1) = some content) :
    bytesBehind cabinets volumes volume =
      content.length + bytesBehind cabinets volumes (volume + 1) := by
  have member : volume + 1 ∈ volumes := among _ (by rw [cabinet]; exact Option.some_ne_none _)
  have split : volumes.filter (volume < ·) =
      insert (volume + 1) (volumes.filter (volume + 1 < ·)) := by
    ext later
    rw [Finset.mem_filter, Finset.mem_insert, Finset.mem_filter]
    constructor
    · rintro ⟨inside, after⟩
      by_cases next : later = volume + 1
      · exact Or.inl next
      · exact Or.inr ⟨inside, by omega⟩
    · rintro (rfl | ⟨inside, after⟩)
      · exact ⟨member, by omega⟩
      · exact ⟨inside, by omega⟩
  have outside : volume + 1 ∉ volumes.filter (volume + 1 < ·) := by
    rw [Finset.mem_filter]
    exact fun ⟨_, less⟩ => absurd less (Int.lt_irrefl _)
  rw [bytesBehind, split, Finset.sum_insert outside, cabinetSize, cabinet]
  rfl

section

variable (libraries : Libraries) {header : Header} {volumes : Finset Int}

/-- Going on to the next volume makes nothing come back. -/
theorem bytesAhead_enterVolume {s : DiskSession} {content : Bytes} {volumeHeader : VolumeHeader}
    (among : Among s.io.store.cabinets volumes) (used_up : s.reader.volumeBytesLeft = 0)
    (cabinet : s.io.store.cabinets (s.reader.volume + 1) = some content) :
    bytesAhead volumes (enterVolume header (s.reader.volume + 1) content volumeHeader s) ≤
      bytesBehind s.io.store.cabinets volumes s.reader.volume := by
  have store : (closeVolume s).io.store = s.io.store := closeVolume_store
  rw [bytesBehind_next among cabinet, enterVolume]
  split
  · rw [bytesAhead, if_pos used_up]
    exact Nat.zero_le _
  · rw [bytesAhead]
    split
    · exact Nat.zero_le _
    · simp only [store]
      apply Nat.add_le_add_right
      rw [Disk.fseek]
      split <;> exact Nat.sub_le _ _

/-- A session whose volumes are among these and whose reader has at most so many bytes before it. -/
structure Ahead (volumes : Finset Int) (most : Nat) (s : DiskSession) : Prop where
  among : Among s.io.store.cabinets volumes
  ahead : bytesAhead volumes s ≤ most

theorem Ahead.less {most more : Nat} {s : DiskSession} (ahead : Ahead volumes most s) (le : most ≤ more) :
    Ahead volumes more s :=
  ⟨ahead.among, Nat.le_trans ahead.ahead le⟩

/-- The bytes before the reader have become fewer. -/
abbrev Nearer (volumes : Finset Int) (most : Nat) (s : DiskSession) : Prop :=
  ∃ fewer < most, Ahead volumes fewer s

/-- Every turn of a read brings the reader nearer to the end of the archive. -/
theorem readerReadTurn_nearer (most : Nat) (vars : Nat × Bytes) :
    Ensures (Ahead volumes most) (readerReadTurn libraries.onDisk header vars)
      (fun _ => Nearer volumes most) := by
  obtain ⟨bytesLeft, buffer⟩ := vars
  rintro s outcome t ⟨among, ahead⟩ run
  obtain ⟨some_bytes, file, opened, inside, turn⟩ := readerReadTurn_eq_ret libraries rfl run
  have some_left : s.reader.volumeBytesLeft ≠ 0 := by
    intro used_up
    rw [used_up] at some_bytes
    exact absurd some_bytes (by simp)
  rw [bytesAhead, if_neg some_left, opened] at ahead
  simp only [Option.elim_some] at ahead
  rcases turn with ⟨_, rfl, _⟩ | ⟨short, content, volumeHeader, opens, rfl, _⟩
  · refine ⟨_, ?_, among, Nat.le_refl _⟩
    rw [bytesAhead]
    split
    · omega
    · simp only [advance, opened, Option.map_some, Option.elim_some]
      omega
  · have used_up :
        (advance (min bytesLeft s.reader.volumeBytesLeft.toNat) s).reader.volumeBytesLeft = 0 := by
      rw [Nat.min_eq_right (by omega)]
      show s.reader.volumeBytesLeft - UInt32.ofNat s.reader.volumeBytesLeft.toNat = 0
      rw [UInt32.ofNat_toNat, UInt32.sub_self]
    have entered := @bytesAhead_enterVolume header volumes
      (advance (min bytesLeft s.reader.volumeBytesLeft.toNat) s) content volumeHeader among used_up
      opens.cabinet
    refine ⟨_, ?_, ?_, entered⟩
    · show bytesBehind s.io.store.cabinets volumes s.reader.volume < most
      omega
    · rw [enterVolume_sameAround.store]
      exact among

/-- A read that succeeds has come nearer to the end. -/
theorem readerRead_nearer (most size : Nat) :
    Ensures (Ahead volumes most) (readerRead libraries.onDisk header size)
      (fun _ => Nearer volumes most) := by
  have loop : Ensures (Ahead volumes most)
      (Proc.iterate (readerReadTurn libraries.onDisk header) (size + 1) (size, []))
      (fun _ => Nearer volumes most) := by
    refine @Ensures.iterate _ _ _ (fun _ => Ahead volumes most) _ _ (fun vars => ?_) _ _
    refine (readerReadTurn_nearer libraries most vars).weaken (fun _ holds => holds) ?_
    rintro outcome t ⟨fewer, lt, ahead⟩
    cases outcome with
    | again next => exact ahead.less (Nat.le_of_lt lt)
    | done data => exact ⟨fewer, lt, ahead⟩
  refine Ensures.bind loop ?_
  rintro buffer s data t ⟨fewer, lt, ahead⟩ run
  rw [Proc.gets_bind_run] at run
  split at run
  · obtain rfl := (Prod.mk.inj run).2
    exact ⟨fewer, lt, ahead.among, ahead.ahead⟩
  · obtain ⟨_, rfl⟩ := Proc.pure_eq_ret_iff.1 run
    exact ⟨fewer, lt, ahead⟩

end

section

variable {σ H : Type} (env : Environment σ H) (header : Header) {pre : Session σ H → Prop}

/-! ### The loop of a read -/

theorem readerReadTurn_halts (vars : Nat × Bytes) : Halts pre (readerReadTurn env header vars) :=
  halts_iff_avoids.2 (readerReadTurn_avoids env header Stop.timeout_rare vars)

/-- A turn of a read leaves less to be read. -/
theorem readerReadTurn_less (most : Nat) (vars : Nat × Bytes) :
    Ensures (fun _ => vars.1 ≤ most) (readerReadTurn env header vars)
      (Turn.Meets (fun next _ => ∃ fewer < most, next.1 ≤ fewer) fun _ _ => True) := by
  obtain ⟨bytesLeft, buffer⟩ := vars
  intro s outcome t le run
  rw [readerReadTurn, Proc.gets_bind_run] at run
  obtain ⟨_, told, _, run⟩ := Proc.bind_eq_ret_iff.1 run
  obtain ⟨some_bytes, run⟩ := Proc.require_bind_eq_ret_iff.1 run
  obtain ⟨data, u, _, run⟩ := Proc.bind_eq_ret_iff.1 run
  rw [Proc.modify_bind_run] at run
  split at run
  · obtain ⟨rfl, _⟩ := Proc.pure_eq_ret_iff.1 run
    trivial
  · rw [Proc.gets_bind_run] at run
    obtain ⟨_, v, _, run⟩ := Proc.bind_eq_ret_iff.1 run
    obtain ⟨rfl, _⟩ := Proc.pure_eq_ret_iff.1 run
    simp only at le
    exact ⟨_, by omega, Nat.le_refl _⟩

/-- The loop that switches volumes needs no more turns than there are bytes to be read. -/
theorem readerReadLoop_halts {fuel size : Nat} (buffer : Bytes) (enough : size < fuel) :
    Halts pre (Proc.iterate (readerReadTurn env header) fuel (size, buffer)) := by
  have ends := Halts.iterate (fun _ vars => readerReadTurn_halts env header vars)
    (readerReadTurn_less env header) fuel (size, buffer) enough
  exact fun s _ => ends s (Nat.le_refl _)

theorem readerRead_halts (size : Nat) : Halts pre (readerRead env header size) := by
  refine .then_any (readerReadLoop_halts env header [] (Nat.lt_succ_self size)) fun buffer => ?_
  refine .then_any (.gets _) fun fd => .ite (fun _ => ?_) fun _ => .pure _
  intro s _ timeout
  cases timeout

theorem failWithFileName_halts {α : Type} :
    Halts pre (failWithFileName env header : Proc (Session σ H) α) :=
  halts_iff_avoids.2 (failWithFileName_avoids env header Stop.timeout_rare)

theorem readOrReport_halts (size : Nat) : Halts pre (readOrReport env header size) :=
  .onFailure (readerRead_halts env header size) (failWithFileName_halts env header)

end

/-! ### The loops of saving -/

section

variable (libraries : Libraries) {archive : Archive} {volumes : Finset Int}

theorem readerRead_keeps_nearer {header : Header} (most size : Nat) :
    Ensures (Nearer volumes most) (readerRead libraries.onDisk header size)
      (fun _ => Nearer volumes most) := by
  rintro s data t ⟨fewer, lt, ahead⟩ run
  obtain ⟨least, less, nearer⟩ := readerRead_nearer libraries fewer size s data t ahead run
  exact ⟨least, Nat.lt_trans less lt, nearer⟩

theorem fwriteOutput_keeps_nearer (most : Nat) (data : Bytes) :
    Preserves (Nearer volumes most) (fwriteOutput libraries.onDisk data) := by
  rintro s ⟨fewer, lt, ahead⟩
  rw [fwriteOutput]
  cases s.output with
  | none => exact ⟨fewer, lt, ahead⟩
  | some file =>
      simp only
      split <;> exact ⟨fewer, lt, ahead.among, ahead.ahead⟩

theorem saveChunk_nearer (most : Nat) (bytesLeft : UInt32) (outputBuffer : Block) :
    Ensures (Ahead volumes most) (saveChunk libraries.onDisk archive bytesLeft outputBuffer)
      (fun _ => Nearer volumes most) := by
  refine .bind (ensures_readOrReport (readerRead_nearer libraries most 2)) fun lengthBytes => ?_
  refine .bind (.of_preserves (.access _)) fun bytesToRead => ?_
  refine .bind (.of_preserves (.require _)) fun _ => ?_
  refine .bind (ensures_readOrReport (readerRead_keeps_nearer libraries most _)) fun chunk => ?_
  apply Ensures.of_preserves
  exact .bind (.ofExit _) fun result => .bind (.access _) fun block => .bind (.require _) fun _ => .pure _

theorem saveStored_nearer (most : Nat) (bytesLeft : UInt32) (outputBuffer : Block) :
    Ensures (Ahead volumes most) (saveStored libraries.onDisk archive bytesLeft outputBuffer)
      (fun _ => Nearer volumes most) := by
  refine .bind (readerRead_nearer libraries most _) fun data => ?_
  exact .of_preserves (.bind (.access _) fun block => .pure _)

/-- A turn of `unshield_file_save` that is not the last one has read something. -/
theorem saveTurn_nearer (most : Nat) (vars : SaveVars libraries.onDisk.md5) :
    Ensures (Ahead volumes most) (saveTurn libraries.onDisk archive vars)
      (Turn.Meets (fun _ t => Nearer volumes most t) fun _ _ => True) := by
  rw [saveTurn]
  split
  · exact .pure fun _ _ => trivial
  · refine .bind (.of_preserves (.gets _)) fun fd => ?_
    refine @Ensures.bind _ _ _ _ (fun _ => Nearer volumes most) _ _ _ ?_ ?_
    · rw [saveData]
      split
      · exact saveChunk_nearer libraries most _ _
      · exact saveStored_nearer libraries most _ _
    · rintro ⟨bytesLeft, outputBuffer, bytesToWrite⟩
      refine .bind (.of_preserves (.access _)) fun data => ?_
      refine .bind (.of_preserves (fwriteOutput_keeps_nearer libraries most data)) fun _ => ?_
      exact .pure fun _ nearer => nearer

theorem fwriteOutput_halts {pre : DiskSession → Prop} (data : Bytes) :
    Halts pre (fwriteOutput libraries.onDisk data) :=
  halts_iff_avoids.2 (fwriteOutput_avoids libraries.onDisk Stop.timeout_rare data)

theorem saveTurn_halts {pre : DiskSession → Prop} (vars : SaveVars libraries.onDisk.md5) :
    Halts pre (saveTurn libraries.onDisk archive vars) := by
  refine .ite (fun _ => .pure _) fun _ => .then_any (.gets _) fun fd => ?_
  refine .then_any ?_ fun _ => .then_any (.access _) fun data =>
    .then_any (fwriteOutput_halts libraries data) fun _ => .pure _
  refine .ite (fun _ => ?_) fun _ => ?_
  · refine .then_any (readOrReport_halts _ _ 2) fun _ => .then_any (.access _) fun _ => ?_
    refine .then_any (.require _) fun _ => .then_any (readOrReport_halts _ _ _) fun chunk => ?_
    refine .then_any (.ofExit (uncompress_ne_stop Stop.timeout_rare _ _ _)) fun _ => ?_
    refine .then_any (.access _) fun _ => ?_
    exact .then_any (.require _) fun _ => .pure _
  · exact .then_any (readerRead_halts _ _ _) fun _ => .then_any (.access _) fun _ => .pure _

theorem saveRawTurn_nearer (most : Nat) (bytesLeft : UInt32) :
    Ensures (Ahead volumes most) (saveRawTurn libraries.onDisk archive bytesLeft)
      (Turn.Meets (fun _ t => Nearer volumes most t) fun _ _ => True) := by
  rw [saveRawTurn]
  split
  · exact .pure fun _ _ => trivial
  · refine .bind (readerRead_nearer libraries most _) fun data => ?_
    refine .bind (.of_preserves (fwriteOutput_keeps_nearer libraries most data)) fun _ => ?_
    exact .pure fun _ nearer => nearer

theorem saveRawTurn_halts {pre : DiskSession → Prop} (bytesLeft : UInt32) :
    Halts pre (saveRawTurn libraries.onDisk archive bytesLeft) := by
  refine .ite (fun _ => .pure _) fun _ => .then_any (readerRead_halts _ _ _) fun data => ?_
  exact .then_any (fwriteOutput_halts libraries data) fun _ => .pure _

/-- Whatever the counters, the loop of `unshield_file_save` ends when there are no more bytes to come
to. -/
theorem saveLoop_halts {most fuel : Nat} (vars : SaveVars libraries.onDisk.md5) (enough : most < fuel) :
    Halts (Ahead volumes most) (Proc.iterate (saveTurn libraries.onDisk archive) fuel vars) :=
  @Halts.iterate _ _ _ (fun most _ => Ahead volumes most) _ (fun _ vars => saveTurn_halts libraries vars)
    (fun most vars => saveTurn_nearer libraries most vars) fuel most vars enough

theorem saveRawLoop_halts {most fuel : Nat} (bytesLeft : UInt32) (enough : most < fuel) :
    Halts (Ahead volumes most) (Proc.iterate (saveRawTurn libraries.onDisk archive) fuel bytesLeft) :=
  @Halts.iterate _ _ _ (fun most _ => Ahead volumes most) _
    (fun _ bytesLeft => saveRawTurn_halts libraries bytesLeft)
    (fun most bytesLeft => saveRawTurn_nearer libraries most bytesLeft) fuel most bytesLeft enough

/-! ### The calls -/

/-- The reader has one of the volume files open, or none. -/
structure HasOpen (cabinets : Int → Option Bytes) (s : DiskSession) : Prop where
  archive : s.io.store.cabinets = cabinets
  opened : ∀ file, s.reader.volumeFile = some file → ∃ volume, cabinets volume = some file.content

/-- All the bytes of the archive. -/
def totalSize (cabinets : Int → Option Bytes) (volumes : Finset Int) : Nat :=
  ∑ volume ∈ volumes, cabinetSize cabinets volume

theorem length_le_totalSize {cabinets : Int → Option Bytes} {volume : Int} {content : Bytes}
    (among : Among cabinets volumes) (cabinet : cabinets volume = some content) :
    content.length ≤ totalSize cabinets volumes := by
  have member : volume ∈ volumes := among volume (by rw [cabinet]; exact Option.some_ne_none _)
  have one : cabinetSize cabinets volume ≤ totalSize cabinets volumes :=
    Finset.single_le_sum (fun _ _ => Nat.zero_le _) member
  rw [cabinetSize, cabinet] at one
  exact one

/-- What a reader has before it is in the rest of one volume and in the volumes behind another one. -/
theorem HasOpen.ahead {cabinets : Int → Option Bytes} {s : DiskSession} (among : Among cabinets volumes)
    (open_file : HasOpen cabinets s) : Ahead volumes (2 * totalSize cabinets volumes) s := by
  refine ⟨by rw [open_file.archive]; exact among, ?_⟩
  have behind : bytesBehind cabinets volumes s.reader.volume ≤ totalSize cabinets volumes :=
    Finset.sum_le_sum_of_subset (Finset.filter_subset _ _)
  rw [bytesAhead, open_file.archive]
  split
  · exact Nat.zero_le _
  · cases opened : s.reader.volumeFile with
    | none =>
        simp only [Option.elim_none]
        omega
    | some file =>
        obtain ⟨volume, cabinet⟩ := open_file.opened file opened
        have here := length_le_totalSize among cabinet
        simp only [Option.elim_some]
        omega

/-- A reader that has been created has a volume of the archive open. -/
theorem readerCreate_hasOpen {cabinets : Int → Option Bytes} {header : Header} (fuel : Nat) (index : Int) :
    Ensures (fun s => s.io.store.cabinets = cabinets) (readerCreate libraries.onDisk header fuel index)
      (fun _ => HasOpen cabinets) := by
  have loop : Ensures (fun s => s.io.store.cabinets = cabinets)
      (Proc.iterate (readerCreateTurn libraries.onDisk header index) fuel ())
      (fun _ => HasOpen cabinets) := by
    refine @Ensures.iterate _ _ _ (fun _ (s : DiskSession) => s.io.store.cabinets = cabinets) _ _
      (fun vars => ?_) fuel ()
    intro s outcome t same run
    rw [readerCreateTurn, Proc.gets_bind_run] at run
    obtain ⟨_, u, opening, run⟩ := Proc.bind_eq_ret_iff.1 run
    obtain ⟨content, volumeHeader, opens, rfl⟩ := opens_of_readerOpenVolume libraries opening
    have around :=
      @enterVolume_sameAround header s.fileDescriptor.volume.toNat content volumeHeader s
    rw [Proc.gets_bind_run] at run
    split at run
    · rw [Proc.modify_bind_run] at run
      obtain ⟨rfl, rfl⟩ := Proc.pure_eq_ret_iff.1 run
      show (enterVolume _ _ _ _ s).io.store.cabinets = cabinets
      rw [around.store, same]
    · obtain ⟨rfl, rfl⟩ := Proc.pure_eq_ret_iff.1 run
      refine ⟨by rw [around.store, same], ?_⟩
      intro file opened
      obtain ⟨position, entered⟩ :=
        @enterVolume_volumeFile header s.fileDescriptor.volume.toNat content volumeHeader s
      rw [entered] at opened
      obtain rfl := Option.some.inj opened
      exact ⟨_, same ▸ opens.cabinet⟩
  intro s _ t same run
  rw [readerCreate] at run
  split at run
  · cases run
  · exact loop { s with reader := { index := UInt32.ofInt index } } _ t same run

theorem fsizeVolume_hasOpen {cabinets : Int → Option Bytes} :
    Ensures (HasOpen cabinets) (fsizeVolume libraries.onDisk) (fun _ => HasOpen cabinets) := by
  intro s size t open_file run
  cases opened : s.reader.volumeFile with
  | none =>
      rw [fsizeVolume, opened] at run
      cases run
  | some file =>
      rw [fsizeVolume_run libraries opened] at run
      obtain rfl := (Prod.mk.inj run).2
      exact open_file

theorem fopenOutput_hasOpen {cabinets : Int → Option Bytes} (filename : Option Bytes) :
    Preserves (HasOpen cabinets) (fopenOutput libraries.onDisk filename) := by
  intro s open_file
  cases filename with
  | none => exact open_file
  | some path =>
      rw [fopenOutput]
      simp only [Disk.fopen]
      by_cases writable : s.io.store.writable path
      · simp only [writable, if_true, Option.isSome_some]
        exact ⟨open_file.archive, open_file.opened⟩
      · simp only [writable]
        exact ⟨open_file.archive, open_file.opened⟩

/-- What both functions do with a reader: if the search for the start volume ends, they end, as long as
their loop does from every state that the reader comes to. -/
theorem halts_behind_reader {α : Type} {cabinets : Int → Option Bytes} {header : Header} {fuel : Nat}
    {index : Int} {s : DiskSession} {filename : Option Bytes} {rest : FileDescriptor → Proc DiskSession α}
    (archive : s.io.store.cabinets = cabinets)
    (created : (readerCreate libraries.onDisk header fuel index s).1 ≠ .timeout)
    (loop : ∀ fd, Halts (HasOpen cabinets) (rest fd)) :
    ((do
      readerCreate libraries.onDisk header fuel index
      let size ← fsizeVolume libraries.onDisk
      let fd ← Proc.gets fun s => s.fileDescriptor
      Proc.require (size ≠ fd.dataOffset.toInt64.toInt)
      fopenOutput libraries.onDisk filename
      rest fd : Proc DiskSession α) s).1 ≠ .timeout := by
  have whole : Halts (fun t => t = s) (do
      readerCreate libraries.onDisk header fuel index
      let size ← fsizeVolume libraries.onDisk
      let fd ← Proc.gets fun s => s.fileDescriptor
      Proc.require (size ≠ fd.dataOffset.toInt64.toInt)
      fopenOutput libraries.onDisk filename
      rest fd) := by
    refine @Halts.bind _ _ _ _ (fun _ => HasOpen cabinets) _ _ ?_ ?_ fun _ => ?_
    · rintro _ rfl
      exact created
    · rintro t value u rfl run
      exact readerCreate_hasOpen libraries fuel index t value u archive run
    refine .bind (fsizeVolume_avoids libraries.onDisk Stop.timeout_rare) (fsizeVolume_hasOpen libraries)
      fun size => ?_
    refine .bind (.gets _) (.of_preserves (.gets _)) fun fd => ?_
    refine .bind (.require _) (.of_preserves (.require _)) fun _ => ?_
    exact .bind (fopenOutput_avoids libraries.onDisk Stop.timeout_rare filename)
      (.of_preserves (fopenOutput_hasOpen libraries filename)) fun _ => loop fd
  exact whole s rfl

/-- On an archive of finitely many volumes the loops of `unshield_file_save` and of
`unshield_file_save_raw` end from every state a reader can be in, with any value of their counters: there
is a number of turns that is enough for all of them.  The loop of a read needs no more turns than it has
bytes to read.  The two functions end whenever the search for the start volume does. -/
theorem save_loops_terminate {cabinets : Int → Option Bytes}
    (finite : {volume | cabinets volume ≠ none}.Finite) :
    (∀ fuel size, size < fuel → ∀ buffer s,
      (Proc.iterate (readerReadTurn libraries.onDisk archive.header) fuel (size, buffer) s).1 ≠
        .timeout) ∧
    ∃ turns, ∀ fuel ≥ turns,
      (∀ s, HasOpen cabinets s →
        (∀ vars, (Proc.iterate (saveTurn libraries.onDisk archive) fuel vars s).1 ≠ .timeout) ∧
        ∀ bytesLeft,
          (Proc.iterate (saveRawTurn libraries.onDisk archive) fuel bytesLeft s).1 ≠ .timeout) ∧
      ∀ filename index s, s.io.store.cabinets = cabinets →
        (readerCreate libraries.onDisk archive.header fuel index s).1 ≠ .timeout →
        (saveNew libraries.onDisk archive filename fuel index s).1 ≠ .timeout ∧
          (saveRaw libraries.onDisk archive filename fuel index s).1 ≠ .timeout := by
  have among : Among cabinets finite.toFinset := fun volume there => finite.mem_toFinset.2 there
  refine ⟨fun fuel size enough buffer s => ?_,
    2 * totalSize cabinets finite.toFinset + 1, fun fuel enough => ?_⟩
  · exact @readerReadLoop_halts _ _ libraries.onDisk archive.header (fun _ => True) fuel size buffer enough s
      trivial
  have save : ∀ vars, Halts (HasOpen cabinets)
      (Proc.iterate (saveTurn libraries.onDisk archive) fuel vars) :=
    fun vars s open_file => saveLoop_halts libraries vars enough s (open_file.ahead among)
  have raw : ∀ bytesLeft, Halts (HasOpen cabinets)
      (Proc.iterate (saveRawTurn libraries.onDisk archive) fuel bytesLeft) :=
    fun bytesLeft s open_file => saveRawLoop_halts libraries bytesLeft enough s (open_file.ahead among)
  refine ⟨fun s open_file =>
    ⟨fun vars => save vars s open_file, fun bytesLeft => raw bytesLeft s open_file⟩, ?_⟩
  intro filename index s same created
  constructor
  · apply halts_behind_reader libraries same created
    intro fd
    refine .then_any (save _) fun vars => .then_any (.gets _) fun fd => .then_any (.require _) fun _ => ?_
    exact .ite (fun _ => .onFailure (.require _) (failWithFileName_halts _ _)) fun _ => .pure _
  · apply halts_behind_reader libraries same created
    intro fd
    exact raw _

end

/-- A cabinet of one volume. -/
def oneVolume : List Bytes := [segmentVolume (smallHeader 5) 0 [0x61]]

theorem oneVolume_finite : {volume | shelf oneVolume volume ≠ none}.Finite := by
  apply (Set.finite_singleton (1 : Int)).subset
  intro volume there
  rw [Set.mem_ofPred_eq, shelf] at there
  split at there
  · have first : (volume - 1).toNat < 1 := by
      by_contra behind
      exact there (List.getElem?_eq_none (Nat.not_lt.1 behind))
    rw [Set.mem_singleton_iff]
    omega
  · exact absurd rfl there

/-- A reader that has the volume open. -/
def oneVolumeSession : DiskSession where
  reader :=
    { index := 0, volume := 1, volumeFile := some { content := segmentVolume (smallHeader 5) 0 [0x61] }
      volumeBytesLeft := 1 }
  fileDescriptor := { volume := 1 }
  io := shelfDisk oneVolume 0 (by decide) room_zero_lt

/-- Its raw data are copied in finitely many turns, also with a counter that has wrapped. -/
theorem save_loops_terminate_one_volume :
    ∃ turns, (Proc.iterate (saveRawTurn smallLibraries.onDisk (smallArchive 5)) turns 0xffffffff
      oneVolumeSession).1 ≠ .timeout := by
  obtain ⟨_, turns, ends⟩ := @save_loops_terminate smallLibraries (smallArchive 5) _ oneVolume_finite
  have open_file : HasOpen (shelf oneVolume) oneVolumeSession := by
    refine ⟨rfl, ?_⟩
    intro file opened
    obtain rfl := Option.some.inj opened
    exact ⟨1, rfl⟩
  exact ⟨turns, ((ends turns (Nat.le_refl _)).1 oneVolumeSession open_file).2 _⟩

end Unshield
