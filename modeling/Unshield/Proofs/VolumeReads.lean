/-
Module: Unshield.Proofs.VolumeReads
Purpose: Which volumes a read of a file's stored bytes asks for: none while it stays in its volume, and
  the next one as soon as it goes beyond it.
Trusted boundary: none
Main exports: readPortion, readerReadTurn_eq, readerRead_eq_within, readerRead_eq_beyond, CanRead,
  readOff_of_readerRead, requested_readerRead_iff, within_of_requested
-/
import Unshield.Proofs.ReaderFrame
import Unshield.Proofs.VolumeSearch

namespace Unshield

open Procedure Procedure.Proc

/-! ### The parts of a read -/

section

variable {σ H : Type} (env : Environment σ H) (header : Header)

/-- The bytes of a turn, all from the volume that is open. -/
def readPortion (count : Nat) : Proc (Session σ H) Bytes := do
  ftellVolume env
  Proc.require (count ≠ 0)
  let data ← freadPortion env header count
  Proc.modify fun s =>
    { s with reader.volumeBytesLeft := s.reader.volumeBytesLeft - UInt32.ofNat count }
  pure data

/-- The next volume, if there is anything left to read. -/
def readOn (bytesLeft bytesToRead : Nat) (buffer : Bytes) :
    Proc (Session σ H) (Proc.Turn (Nat × Bytes) Bytes) :=
  if bytesLeft - bytesToRead = 0 then
    pure (.done buffer)
  else do
    let volume ← Proc.gets fun s => s.reader.volume
    readerOpenVolume env header (volume + 1)
    pure (.again (bytesLeft - bytesToRead, buffer))

/-- The end of a read. -/
def clearBuffer (buffer : Bytes) : Proc (Session σ H) Bytes := do
  let fd ← Proc.gets fun s => s.fileDescriptor
  if fd.Has fileObfuscated then readerDeobfuscate buffer else pure buffer

theorem readerReadTurn_eq (bytesLeft : Nat) (buffer : Bytes) :
    readerReadTurn env header (bytesLeft, buffer) =
      Proc.gets (fun s => s.reader.volumeBytesLeft) >>= fun volumeBytesLeft =>
        readPortion env header (min bytesLeft volumeBytesLeft.toNat) >>= fun data =>
          readOn env header bytesLeft (min bytesLeft volumeBytesLeft.toNat) (buffer ++ data) := by
  simp only [readPortion, Proc.bind_assoc]
  rfl

theorem readerRead_eq (size : Nat) :
    readerRead env header size =
      Proc.iterate (readerReadTurn env header) (size + 1) (size, []) >>= clearBuffer := rfl

variable {env header} {size : Nat} {s : Session σ H}

/-- A read that its volume has enough bytes for takes one turn. -/
theorem readerRead_eq_within (within : size ≤ s.reader.volumeBytesLeft.toNat) :
    readerRead env header size s = (readPortion env header size >>= clearBuffer) s := by
  rw [readerRead_eq, Proc.iterate, readerReadTurn_eq, Proc.bind_assoc, Proc.bind_assoc,
    Proc.gets_bind_run, Nat.min_eq_left within]
  simp only [Proc.bind_assoc, readOn, Nat.sub_self, if_true, List.nil_append]
  rfl

/-- A read that its volume has too few bytes for goes on in the next one. -/
theorem readerRead_eq_beyond (beyond : s.reader.volumeBytesLeft.toNat < size) :
    readerRead env header size s =
      (readPortion env header s.reader.volumeBytesLeft.toNat >>= fun data =>
        Proc.gets (fun t => t.reader.volume) >>= fun volume =>
          readerOpenVolume env header (volume + 1) >>= fun _ =>
            Proc.iterate (readerReadTurn env header) size
              (size - s.reader.volumeBytesLeft.toNat, data) >>= clearBuffer) s := by
  have more : size - s.reader.volumeBytesLeft.toNat ≠ 0 := by omega
  rw [readerRead_eq, Proc.iterate, readerReadTurn_eq, Proc.bind_assoc, Proc.bind_assoc,
    Proc.gets_bind_run, Nat.min_eq_right (Nat.le_of_lt beyond)]
  simp only [Proc.bind_assoc, readOn, if_neg more, List.nil_append]
  rfl

/-! ### One portion -/

/-- The volume file has that many more bytes behind the position that it tells. -/
def CanRead (env : Environment σ H) (count : Nat) (s : Session σ H) : Prop :=
  ∃ told data t, ftellVolume env s = (.ret (), told) ∧ freadVolume env count told = (.ret data, t)

/-- What a read of the volume file leaves alone. -/
structure SameButFile (s t : Session σ H) : Prop where
  reader : t.reader = { s.reader with volumeFile := t.reader.volumeFile }
  fileDescriptor : t.fileDescriptor = s.fileDescriptor

theorem sameButFile_ftellVolume (s : Session σ H) : SameButFile s (ftellVolume env s).2 := by
  rw [ftellVolume]
  cases s.reader.volumeFile <;> exact ⟨rfl, rfl⟩

theorem sameButFile_freadVolume (count : Nat) (s : Session σ H) :
    SameButFile s (freadVolume env count s).2 := by
  rw [freadVolume]
  cases s.reader.volumeFile with
  | none => exact ⟨rfl, rfl⟩
  | some file =>
      simp only
      split <;> exact ⟨rfl, rfl⟩

theorem sameButFile_of_reads {count : Nat} {data : Bytes} {told t : Session σ H}
    (tells : ftellVolume env s = (.ret (), told)) (fread : freadVolume env count told = (.ret data, t)) :
    SameButFile s t := by
  have one := @sameButFile_ftellVolume _ _ env s
  have two := @sameButFile_freadVolume _ _ env count told
  rw [tells] at one
  rw [fread] at two
  refine ⟨?_, two.fileDescriptor.trans one.fileDescriptor⟩
  rw [two.reader, one.reader]

/-- What is left when `count` bytes have been read without leaving the volume. -/
structure ReadOff (count : Nat) (s t : Session σ H) : Prop where
  fileDescriptor : t.fileDescriptor = s.fileDescriptor
  volumeBytesLeft : t.reader.volumeBytesLeft = s.reader.volumeBytesLeft - UInt32.ofNat count

theorem ReadOff.toNat {count : Nat} {t : Session σ H} (off : ReadOff count s t)
    (within : count ≤ s.reader.volumeBytesLeft.toNat) :
    t.reader.volumeBytesLeft.toNat = s.reader.volumeBytesLeft.toNat - count := by
  rw [off.volumeBytesLeft, Bits.uint32_sub_ofNat within]

theorem readPortion_eq_ret {count : Nat} {data : Bytes} {t : Session σ H}
    (run : readPortion env header count s = (.ret data, t)) :
    count ≠ 0 ∧ CanRead env count s ∧ ReadOff count s t := by
  obtain ⟨_, told, tells, run⟩ := Proc.bind_eq_ret_iff.1 run
  obtain ⟨some_bytes, run⟩ := Proc.require_bind_eq_ret_iff.1 run
  obtain ⟨read, u, portion, run⟩ := Proc.bind_eq_ret_iff.1 run
  have fread := freadPortion_eq_ret_iff.1 portion
  obtain ⟨_, rfl⟩ := Proc.pure_eq_ret_iff.1 run
  have same := sameButFile_of_reads tells fread
  refine ⟨some_bytes, ⟨told, read, u, tells, fread⟩, same.fileDescriptor, ?_⟩
  show u.reader.volumeBytesLeft - _ = _
  rw [same.reader]

theorem readPortion_of_readable {count : Nat} (some_bytes : count ≠ 0) (readable : CanRead env count s) :
    ∃ data t, readPortion env header count s = (.ret data, t) ∧ t.reader.volume = s.reader.volume := by
  obtain ⟨told, data, u, tells, fread⟩ := readable
  have same := sameButFile_of_reads tells fread
  refine ⟨data, { u with reader.volumeBytesLeft := u.reader.volumeBytesLeft - UInt32.ofNat count },
    ?_, ?_⟩
  · rw [readPortion, Proc.bind_of_ret tells, Proc.bind_of_ret (Proc.require_run_of some_bytes _),
      Proc.bind_of_ret (freadPortion_eq_ret_iff.2 fread)]
    rfl
  · show u.reader.volume = _
    rw [same.reader]

theorem clearBuffer_eq_ret {buffer data : Bytes} {t : Session σ H}
    (run : clearBuffer buffer s = (.ret data, t)) :
    t.fileDescriptor = s.fileDescriptor ∧ t.reader.volumeBytesLeft = s.reader.volumeBytesLeft := by
  rw [clearBuffer, Proc.gets_bind_run] at run
  split at run
  · obtain ⟨_, rfl⟩ := Prod.mk.inj run
    exact ⟨rfl, rfl⟩
  · obtain ⟨_, rfl⟩ := Proc.pure_eq_ret_iff.1 run
    exact ⟨rfl, rfl⟩

/-- A read that stays in its volume takes its bytes off the counter of the volume. -/
theorem readOff_of_readerRead {data : Bytes} {t : Session σ H}
    (within : size ≤ s.reader.volumeBytesLeft.toNat)
    (run : readerRead env header size s = (.ret data, t)) : size ≠ 0 ∧ ReadOff size s t := by
  rw [readerRead_eq_within within] at run
  obtain ⟨read, u, portion, run⟩ := Proc.bind_eq_ret_iff.1 run
  obtain ⟨some_bytes, _, off⟩ := readPortion_eq_ret portion
  obtain ⟨descriptor, left⟩ := clearBuffer_eq_ret run
  exact ⟨some_bytes, descriptor.trans off.fileDescriptor, left.trans off.volumeBytesLeft⟩

/-- A read that its volume has too few bytes for needs those that the volume has. -/
theorem readable_of_beyond {data : Bytes} {t : Session σ H}
    (beyond : s.reader.volumeBytesLeft.toNat < size)
    (run : readerRead env header size s = (.ret data, t)) :
    s.reader.volumeBytesLeft.toNat ≠ 0 ∧ CanRead env s.reader.volumeBytesLeft.toNat s := by
  rw [readerRead_eq_beyond beyond] at run
  obtain ⟨read, u, portion, _⟩ := Proc.bind_eq_ret_iff.1 run
  obtain ⟨some_bytes, readable, _⟩ := readPortion_eq_ret portion
  exact ⟨some_bytes, readable⟩

end

/-! ### The volumes that are asked for -/

section

variable {σ H : Type} (env : Environment σ H) (header : Header) {size : Nat} {s : Session (Logged σ) H}

theorem requested_readPortion (requested : List Int) (count : Nat) :
    Preserves (fun s : Session (Logged σ) H => s.io.requested = requested)
      (readPortion env.logged header count) := by
  refine .bind (requested_ftellVolume env requested) fun _ => ?_
  refine .bind (.require _) fun _ => ?_
  have fread := requested_freadVolume env requested count
  refine .bind (.onFailure fread (.bind preserves_reportFileName fun _ =>
    .bind (requested_ftellVolume env requested) fun _ => .fail)) fun data => ?_
  exact .bind (.modify fun _ holds => holds) fun _ => .pure data

theorem requested_clearBuffer (requested : List Int) (buffer : Bytes) :
    Preserves (fun s : Session (Logged σ) H => s.io.requested = requested) (clearBuffer buffer) := by
  refine .bind (.gets _) fun fd => ?_
  exact .ite (fun _ _ holds => holds) fun _ => .pure buffer

/-- Reading only ever adds to the list. -/
theorem steady_requests (requested : List Int) :
    Steady env.logged header fun s => requested <+: s.io.requested where
  openVolume := by
    intro volume s holds
    rw [readerOpenVolume_requests]
    exact holds.trans (List.prefix_append _ _)
  fread := by
    intro count s holds
    rw [requested_freadVolume env s.io.requested count s rfl]
    exact holds
  ftell := by
    intro s holds
    rw [requested_ftellVolume env s.io.requested s rfl]
    exact holds
  reader := fun _ _ _ _ holds => holds
  volume := fun _ _ holds => holds

theorem requested_readerRead_of_within (within : size ≤ s.reader.volumeBytesLeft.toNat) :
    (readerRead env.logged header size s).2.io.requested = s.io.requested := by
  rw [readerRead_eq_within within]
  exact Preserves.bind (requested_readPortion env header _ size) (requested_clearBuffer _) s rfl

/-- A read for which the volume has too few bytes, but can be read to its end, asks for the next one. -/
theorem requested_readerRead_of_beyond (beyond : s.reader.volumeBytesLeft.toNat < size)
    (some_bytes : s.reader.volumeBytesLeft.toNat ≠ 0)
    (readable : CanRead env.logged s.reader.volumeBytesLeft.toNat s) :
    s.io.requested ++ [s.reader.volume + 1] <+: (readerRead env.logged header size s).2.io.requested := by
  obtain ⟨data, t, portion, volume⟩ := readPortion_of_readable some_bytes readable
  have same := (requested_readPortion env header _ _).of_run rfl portion
  rw [readerRead_eq_beyond beyond, Proc.bind_of_ret portion, Proc.gets_bind_run]
  let asked := s.io.requested ++ [s.reader.volume + 1]
  refine @Leads.bind _ _ _ (fun u => u = t) (fun u => asked <+: u.io.requested)
    (fun u => asked <+: u.io.requested) _ _ ?_ (fun _ holds => holds) (fun _ => ?_) t rfl
  · rintro u rfl
    have asks := readerOpenVolume_requests env header (u.reader.volume + 1) u
    rw [same, volume] at asks
    rw [volume]
    exact asks ▸ List.prefix_refl asked
  · refine Preserves.bind (.iterate (steady_requests env header _).readerReadTurn _ _)
      fun buffer u holds => ?_
    rw [requested_clearBuffer _ buffer u rfl]
    exact holds

/-- A read asks for a volume unless its own volume has enough bytes, or has none left, or has fewer than
it should have. -/
theorem requested_readerRead_iff :
    (readerRead env.logged header size s).2.io.requested = s.io.requested ↔
      size ≤ s.reader.volumeBytesLeft.toNat ∨ s.reader.volumeBytesLeft.toNat = 0 ∨
        ¬ CanRead env.logged s.reader.volumeBytesLeft.toNat s := by
  by_cases within : size ≤ s.reader.volumeBytesLeft.toNat
  · exact iff_of_true (requested_readerRead_of_within env header within) (Or.inl within)
  have beyond := Nat.lt_of_not_le within
  by_cases enough : s.reader.volumeBytesLeft.toNat ≠ 0 ∧
      CanRead env.logged s.reader.volumeBytesLeft.toNat s
  · have longer := (requested_readerRead_of_beyond env header beyond enough.1 enough.2).length_le
    refine iff_of_false (fun same => ?_) ?_
    · rw [same, List.length_append] at longer
      exact absurd longer (Nat.not_succ_le_self _)
    · rintro (less | none_left | short)
      · exact within less
      · exact enough.1 none_left
      · exact short enough.2
  · refine iff_of_true ?_ (Or.inr ?_)
    · rw [readerRead_eq_beyond beyond, Proc.bind_state_of_never]
      · exact requested_readPortion env header _ _ s rfl
      · intro data t portion
        obtain ⟨some_bytes, readable, _⟩ := readPortion_eq_ret portion
        exact enough ⟨some_bytes, readable⟩
    · by_cases none_left : s.reader.volumeBytesLeft.toNat = 0
      · exact Or.inl none_left
      · exact Or.inr fun readable => enough ⟨none_left, readable⟩

/-- A read that returns without having asked for a volume had enough bytes in its own. -/
theorem within_of_requested {data : Bytes} {t : Session (Logged σ) H}
    (run : readerRead env.logged header size s = (.ret data, t))
    (same : t.io.requested = s.io.requested) : size ≤ s.reader.volumeBytesLeft.toNat := by
  have still : (readerRead env.logged header size s).2.io.requested = s.io.requested := by
    rw [run]
    exact same
  rcases (requested_readerRead_iff env header).1 still with within | stuck
  · exact within
  · by_contra less
    obtain ⟨some_bytes, readable⟩ := readable_of_beyond (Nat.lt_of_not_le less) run
    rcases stuck with none_left | short
    · exact some_bytes none_left
    · exact short readable

end

end Unshield
