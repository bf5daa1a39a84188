/-
Module: Unshield.Proofs.ReaderRefinement
Purpose: The reader delivers the stored bytes of a file as a segmented stream, one segment for each
  volume, deobfuscated as it goes.
Trusted boundary: none
Main exports: HoldsSegment, HoldsSegments, Stands, Delivers, readerRead_delivers, readerRead_fails,
  Delivers.open_next
-/
import Unshield.Proofs.Messages
import Unshield.Proofs.ReaderSteps
import Unshield.Foundation.SegmentedStream
import Unshield.Foundation.Bits

namespace Unshield

open Procedure

/-! ### Marks -/

theorem markSplit_of_has {header : Header} {index : UInt32} {volumeHeader : VolumeHeader}
    {fd : FileDescriptor} (split : fd.Has fileSplit) :
    markSplit header index volumeHeader fd = fd := by
  have same : { fd with flags := fd.flags ||| fileSplit } = fd := by
    rw [show fd.flags ||| fileSplit = fd.flags from Bits.uint16_or_one split]
  rw [markSplit]
  split
  · split
    · exact same
    · split
      · exact same
      · rfl
  · rfl

/-- A descriptor that differs from another one in its volume number and perhaps in being marked
split. -/
def UpToSearch (fd fd' : FileDescriptor) : Prop :=
  fd' = { fd with volume := fd'.volume } ∨
    fd' = { fd with flags := fd.flags ||| fileSplit, volume := fd'.volume }

theorem markSplit_eq (header : Header) (index : UInt32) (volumeHeader : VolumeHeader)
    (fd : FileDescriptor) :
    markSplit header index volumeHeader fd = fd ∨
      markSplit header index volumeHeader fd = { fd with flags := fd.flags ||| fileSplit } := by
  rw [markSplit]
  split
  · split
    · exact Or.inr rfl
    · split
      · exact Or.inr rfl
      · exact Or.inl rfl
  · exact Or.inl rfl

theorem markSplit_volume (header : Header) (index : UInt32) (volumeHeader : VolumeHeader)
    (fd : FileDescriptor) : (markSplit header index volumeHeader fd).volume = fd.volume := by
  rcases markSplit_eq header index volumeHeader fd with same | marked
  · rw [same]
  · rw [marked]

theorem has_of_markSplit {header : Header} {index : UInt32} {volumeHeader : VolumeHeader}
    {fd : FileDescriptor} (split : (markSplit header index volumeHeader fd).Has fileSplit) :
    markSplit header index volumeHeader fd = { fd with flags := fd.flags ||| fileSplit } := by
  rcases markSplit_eq header index volumeHeader fd with same | marked
  · rw [same] at split
    rw [same, show fd.flags ||| fileSplit = fd.flags from Bits.uint16_or_one split]
  · exact marked

theorem UpToSearch.refl (fd : FileDescriptor) : UpToSearch fd fd := Or.inl rfl

theorem UpToSearch.next {fd fd' : FileDescriptor} (search : UpToSearch fd fd') (volume : UInt16) :
    UpToSearch fd { fd' with volume := volume } := by
  rcases search with eq | eq
  · rw [eq]
    exact Or.inl rfl
  · rw [eq]
    exact Or.inr rfl

theorem UpToSearch.trans {one two three : FileDescriptor} (first : UpToSearch one two)
    (second : UpToSearch two three) : UpToSearch one three := by
  rcases second with eq | eq
  · rw [eq]
    exact first.next _
  · rw [eq]
    refine Or.inr ?_
    rcases first with same | same
    · rw [same]
    · rw [same]
      simp only [FileDescriptor.mk.injEq, true_and, and_true]
      rw [UInt16.or_assoc, UInt16.or_self]

theorem upToSearch_markSplit (header : Header) (index : UInt32) (volumeHeader : VolumeHeader)
    (fd : FileDescriptor) : UpToSearch fd (markSplit header index volumeHeader fd) := by
  rcases markSplit_eq header index volumeHeader fd with same | marked
  · rw [same]
    exact .refl fd
  · exact Or.inr (by rw [marked])

/-- The portion of a split file has a 32-bit offset. -/
theorem dataOffset_lt_of_split {index : UInt32} {volumeHeader : VolumeHeader} {fd : FileDescriptor}
    {portion : Portion} (split : fd.Has fileSplit)
    (selected : selectPortion index volumeHeader fd = some portion) :
    portion.dataOffset.toNat < 2 ^ 63 := by
  rw [selectPortion, if_pos split] at selected
  split at selected
  · rw [← Option.some.inj selected]
    exact Nat.lt_trans (UInt32.toNat_lt _) (by decide)
  · split at selected
    · rw [← Option.some.inj selected]
      exact Nat.lt_trans (UInt32.toNat_lt _) (by decide)
    · cases selected

theorem fseek_set {file : Stream} {offset : UInt64} {io : Disk} (small : offset.toNat < 2 ^ 63) :
    (Disk.fseek file offset.toInt64.toInt .set io).1 = { file with position := offset.toNat } := by
  simp only [Disk.fseek, Bits.toInt64_toInt_of_lt small, Int.toNat_natCast]
  rw [if_pos (Int.natCast_nonneg _)]

/-! ### Where the bytes of a file are -/

/-- The volume opens, and its header records a portion of the file at which the volume file has the
bytes of `segment`.  The offset and the size are those of the fields that opening the volume selects. -/
def HoldsSegment (header : Header) (cabinets : Int → Option Bytes) (index : UInt32)
    (fd : FileDescriptor) (volume : Int) (segment : Bytes) : Prop :=
  ∃ content volumeHeader portion,
    Opens header cabinets volume content volumeHeader ∧
    selectPortion index volumeHeader fd = some portion ∧
    (portion.volumeBytesLeft fd).toNat = segment.length ∧
    (content.drop portion.dataOffset.toNat).take segment.length = segment

/-- The segments lie one after the other in the volumes from `volume` on. -/
def HoldsSegments (header : Header) (cabinets : Int → Option Bytes) (index : UInt32)
    (fd : FileDescriptor) : Int → List Bytes → Prop
  | _, [] => True
  | volume, segment :: rest =>
      HoldsSegment header cabinets index fd volume segment ∧
        HoldsSegments header cabinets index fd (volume + 1) rest

/-- The reader stands in front of `current` in its volume, and the volumes after that one hold
`rest`. -/
structure Stands (header : Header) (s : DiskSession) (current : Bytes) (rest : List Bytes) :
    Prop where
  file : ∃ file, s.reader.volumeFile = some file ∧
    (file.content.drop file.position).take current.length = current
  left : s.reader.volumeBytesLeft.toNat = current.length
  follows : rest ≠ [] → s.fileDescriptor.Has fileSplit ∧
    HoldsSegments header s.io.store.cabinets s.reader.index s.fileDescriptor (s.reader.volume + 1) rest

/-- What a read changes: the reader alone, and not what it has to know about the file. -/
structure SameFile (s t : DiskSession) : Prop extends SameAround s t where
  fileDescriptor : t.fileDescriptor = s.fileDescriptor

namespace SameFile

theorem refl (s : DiskSession) : SameFile s s := ⟨.refl s, rfl⟩

theorem trans {s t u : DiskSession} (one : SameFile s t) (two : SameFile t u) : SameFile s u :=
  ⟨one.toSameAround.trans two.toSameAround, two.fileDescriptor.trans one.fileDescriptor⟩

end SameFile

/-! ### Deobfuscation -/

/-- The bytes that a read delivers for stored bytes, when `seed` bytes have been read before. -/
def clearBytes (fd : FileDescriptor) (seed : UInt32) (stored : Bytes) : Bytes :=
  if fd.Has fileObfuscated then (deobfuscate stored seed).1 else stored

/-- The seed after a read. -/
def nextSeed (fd : FileDescriptor) (seed : UInt32) (size : Nat) : UInt32 :=
  if fd.Has fileObfuscated then seed + UInt32.ofNat size else seed

theorem deobfuscate_append (first second : Bytes) (seed : UInt32) :
    deobfuscate (first ++ second) seed =
      ((deobfuscate first seed).1 ++ (deobfuscate second (deobfuscate first seed).2).1,
        (deobfuscate second (deobfuscate first seed).2).2) := by
  induction first generalizing seed with
  | nil => rfl
  | cons byte rest ih =>
      simp only [List.cons_append, deobfuscate, ih]

theorem deobfuscate_seed (stored : Bytes) (seed : UInt32) :
    (deobfuscate stored seed).2 = seed + UInt32.ofNat stored.length := by
  induction stored generalizing seed with
  | nil => exact (UInt32.add_zero seed).symm
  | cons byte rest ih =>
      rw [deobfuscate, List.length_cons, UInt32.ofNat_add, UInt32.add_comm (UInt32.ofNat _),
        ← UInt32.add_assoc]
      exact ih (seed + 1)

theorem length_deobfuscate (stored : Bytes) (seed : UInt32) :
    (deobfuscate stored seed).1.length = stored.length := by
  induction stored generalizing seed with
  | nil => rfl
  | cons byte rest ih =>
      rw [deobfuscate, List.length_cons, List.length_cons, ih]

theorem length_clearBytes (fd : FileDescriptor) (seed : UInt32) (stored : Bytes) :
    (clearBytes fd seed stored).length = stored.length := by
  rw [clearBytes]
  split
  · exact length_deobfuscate stored seed
  · rfl

theorem clearBytes_append (fd : FileDescriptor) (seed : UInt32) (first second : Bytes) :
    clearBytes fd seed (first ++ second) =
      clearBytes fd seed first ++ clearBytes fd (nextSeed fd seed first.length) second := by
  rw [clearBytes, clearBytes, clearBytes, nextSeed]
  split
  · rw [deobfuscate_append, deobfuscate_seed]
  · rfl

/-! ### The loop of a read -/

section

variable (libraries : Libraries) {header : Header}

/-- Opening the next volume of a split file stands the reader in front of its segment. -/
theorem Stands.open_next {s : DiskSession} {current next : Bytes} {rest : List Bytes}
    (stands : Stands header s current (next :: rest)) :
    ∃ t, readerOpenVolume libraries.onDisk header (s.reader.volume + 1) s = (.ret (), t) ∧
      Stands header t next rest ∧ SameFile s t ∧
      t.reader.obfuscationOffset = s.reader.obfuscationOffset ∧
      t.reader.volume = s.reader.volume + 1 := by
  obtain ⟨split, ⟨content, volumeHeader, portion, opens, selected, left, bytes⟩, later⟩ :=
    stands.follows (List.cons_ne_nil _ _)
  refine ⟨_, readerOpenVolume_run libraries opens, ?_⟩
  have marked : markSplit header s.reader.index volumeHeader s.fileDescriptor = s.fileDescriptor :=
    markSplit_of_has split
  have small := dataOffset_lt_of_split split selected
  have store : (closeVolume s).io.store = s.io.store := closeVolume_store
  simp only [enterVolume, marked, selected, fseek_set small]
  refine ⟨⟨⟨_, rfl, bytes⟩, left, fun _ => ⟨split, ?_⟩⟩, ⟨⟨rfl, store, rfl⟩, rfl⟩, trivial, trivial⟩
  rw [store]
  exact later

/-- The session after `size` bytes have been read from its volume. -/
def advance (size : Nat) (s : DiskSession) : DiskSession :=
  { s with
    reader.volumeFile := s.reader.volumeFile.map fun file =>
      { file with position := file.position + size }
    reader.volumeBytesLeft := s.reader.volumeBytesLeft - UInt32.ofNat size }

theorem sameFile_advance (size : Nat) (s : DiskSession) : SameFile s (advance size s) :=
  ⟨⟨rfl, rfl, rfl⟩, rfl⟩

theorem Stands.advance {s : DiskSession} {current : Bytes} {rest : List Bytes} {size : Nat}
    (stands : Stands header s current rest) (le : size ≤ current.length) :
    Stands header (advance size s) (current.drop size) rest := by
  obtain ⟨file, opened, bytes⟩ := stands.file
  refine ⟨⟨_, by rw [Unshield.advance, opened]; rfl, ?_⟩, ?_, stands.follows⟩
  · conv_rhs => rw [← bytes]
    rw [List.drop_take, List.drop_drop, List.length_drop]
  · show (s.reader.volumeBytesLeft - UInt32.ofNat size).toNat = (current.drop size).length
    rw [Bits.uint32_sub_ofNat (by rw [stands.left]; exact le), stands.left, List.length_drop]

/-- The first half of a turn: as much as possible is read from this volume. -/
theorem readerReadTurn_run {s : DiskSession} {current : Bytes} {rest : List Bytes} {size : Nat}
    (buffer : Bytes) (stands : Stands header s current rest) (pos : 0 < size)
    (some_left : 0 < current.length) :
    readerReadTurn libraries.onDisk header (size, buffer) s =
      (if size ≤ current.length then
        pure (.done (buffer ++ current.take size))
      else do
        readerOpenVolume libraries.onDisk header (s.reader.volume + 1)
        pure (.again (size - current.length, buffer ++ current)) :
        Proc DiskSession (Proc.Turn (Nat × Bytes) Bytes)) (advance (min size current.length) s) := by
  obtain ⟨file, opened, bytes⟩ := stands.file
  have data : (file.content.drop file.position).take (min size current.length) =
      current.take size := by
    conv_rhs => rw [← bytes]
    rw [List.take_take]
  have read : freadVolume libraries.onDisk (min size current.length) s =
      (.ret (current.take size), { s with
        reader.volumeFile := some { file with
          position := file.position + min size current.length } }) :=
    freadVolume_run libraries opened data (List.length_take)
  have state : advance (min size current.length) s =
      { s with
        reader.volumeFile := some { file with
          position := file.position + min size current.length }
        reader.volumeBytesLeft :=
          s.reader.volumeBytesLeft - UInt32.ofNat (min size current.length) } := by
    rw [advance, opened]
    rfl
  rw [readerReadTurn, Proc.gets_bind_run, stands.left,
    Proc.bind_of_ret (ftellVolume_run libraries opened),
    Proc.bind_of_ret (Proc.require_run_of (by omega) s),
    Proc.bind_of_ret (freadPortion_eq_ret_iff.2 read), Proc.modify_bind_run, ← state]
  by_cases le : size ≤ current.length
  · rw [if_pos (by omega), if_pos le]
  · rw [if_neg (by omega), if_neg le, Proc.gets_bind_run, Nat.min_eq_right (by omega),
      List.take_of_length_le (by omega)]
    rfl

/-- What a turn has done that did not fail: it has read some bytes of the volume file, and it has opened
the next volume if that was not enough. -/
theorem readerReadTurn_eq_ret {bytesLeft count : Nat} {buffer : Bytes} {s t : DiskSession}
    {outcome : Proc.Turn (Nat × Bytes) Bytes} (amount : count = min bytesLeft s.reader.volumeBytesLeft.toNat)
    (run : readerReadTurn libraries.onDisk header (bytesLeft, buffer) s = (.ret outcome, t)) :
    0 < count ∧ ∃ file, s.reader.volumeFile = some file ∧
      file.position + count ≤ file.content.length ∧
      ((count = bytesLeft ∧ t = advance count s ∧
          outcome = .done (buffer ++ (file.content.drop file.position).take count)) ∨
        (count < bytesLeft ∧ ∃ content volumeHeader,
          Opens header s.io.store.cabinets (s.reader.volume + 1) content volumeHeader ∧
          t = enterVolume header (s.reader.volume + 1) content volumeHeader (advance count s) ∧
          outcome = .again (bytesLeft - count,
            buffer ++ (file.content.drop file.position).take count))) := by
  subst amount
  rw [readerReadTurn, Proc.gets_bind_run] at run
  obtain ⟨_, s', told, run⟩ := Proc.bind_eq_ret_iff.1 run
  obtain rfl := ftellVolume_eq_ret libraries told
  obtain ⟨some_bytes, run⟩ := Proc.require_bind_eq_ret_iff.1 run
  obtain ⟨data, u, portion, run⟩ := Proc.bind_eq_ret_iff.1 run
  have read := freadPortion_eq_ret_iff.1 portion
  refine ⟨Nat.pos_of_ne_zero some_bytes, ?_⟩
  cases opened : s.reader.volumeFile with
  | none =>
      rw [freadVolume, opened] at read
      cases read
  | some file =>
      obtain ⟨rfl, length, _⟩ := freadVolume_eq_ret libraries read opened
      rw [freadVolume_run libraries opened rfl length] at read
      obtain rfl := (Prod.mk.inj read).2
      have state : advance (min bytesLeft s.reader.volumeBytesLeft.toNat) s =
          { s with
            reader.volumeFile := some { file with
              position := file.position + min bytesLeft s.reader.volumeBytesLeft.toNat }
            reader.volumeBytesLeft :=
              s.reader.volumeBytesLeft - UInt32.ofNat (min bytesLeft s.reader.volumeBytesLeft.toNat) } := by
        rw [advance, opened]
        rfl
      rw [Proc.modify_bind_run, ← state] at run
      rw [List.length_take, List.length_drop] at length
      refine ⟨file, rfl, by omega, ?_⟩
      split at run
      · obtain ⟨rfl, rfl⟩ := Proc.pure_eq_ret_iff.1 run
        exact Or.inl ⟨by omega, rfl, rfl⟩
      · rw [Proc.gets_bind_run] at run
        obtain ⟨_, v, next, run⟩ := Proc.bind_eq_ret_iff.1 run
        obtain ⟨rfl, rfl⟩ := Proc.pure_eq_ret_iff.1 run
        obtain ⟨content, volumeHeader, opens, entered⟩ := opens_of_readerOpenVolume libraries next
        exact Or.inr ⟨by omega, content, volumeHeader, opens, entered, rfl⟩

/-- The loop of a read refines the read of a segmented stream. -/
theorem readerReadLoop_refines {s : DiskSession} {current data left : Bytes}
    {rest after : List Bytes} {size : Nat} (stands : Stands header s current rest)
    (h : SegmentedStream.read size current rest = some (data, left, after)) :
    ∀ fuel > size, ∀ buffer, ∃ t,
      Proc.iterate (readerReadTurn libraries.onDisk header) fuel (size, buffer) s =
        (.ret (buffer ++ data), t) ∧
      Stands header t left after ∧ SameFile s t ∧
      t.reader.obfuscationOffset = s.reader.obfuscationOffset := by
  refine SegmentedStream.read_induction
    (motive := fun size current rest data left after =>
      ∀ s : DiskSession, Stands header s current rest → ∀ fuel > size, ∀ buffer, ∃ t,
        Proc.iterate (readerReadTurn libraries.onDisk header) fuel (size, buffer) s =
          (.ret (buffer ++ data), t) ∧
        Stands header t left after ∧ SameFile s t ∧
        t.reader.obfuscationOffset = s.reader.obfuscationOffset) ?_ ?_ h s stands
  · intro size current rest pos le s stands fuel enough buffer
    obtain ⟨fuel, rfl⟩ := Nat.exists_eq_add_of_lt enough
    have turn := readerReadTurn_run libraries buffer stands pos (by omega)
    rw [if_pos le, Nat.min_eq_left le] at turn
    exact ⟨_, Proc.iterate_succ_of_done turn, stands.advance le, sameFile_advance size s, rfl⟩
  · intro size current next rest data left after some_left gt _ ih s stands fuel enough buffer
    obtain ⟨fuel, rfl⟩ := Nat.exists_eq_add_of_lt enough
    have turn := readerReadTurn_run libraries buffer stands (by omega : 0 < size) some_left
    rw [if_neg (Nat.not_le_of_lt gt), Nat.min_eq_right (Nat.le_of_lt gt)] at turn
    obtain ⟨t, openRun, standsNext, sameFile, sameSeed, _⟩ :=
      (stands.advance (Nat.le_refl _)).open_next libraries
    change readerOpenVolume libraries.onDisk header (s.reader.volume + 1) _ = _ at openRun
    rw [Proc.bind_of_ret openRun, Proc.pure_run] at turn
    obtain ⟨u, run, standsLeft, sameFile', sameSeed'⟩ :=
      ih t standsNext (size + fuel) (by omega) (buffer ++ current)
    refine ⟨u, ?_, standsLeft, (sameFile_advance _ s).trans (sameFile.trans sameFile'),
      sameSeed'.trans sameSeed⟩
    rw [Proc.iterate_succ_of_again turn, run, List.append_assoc]

/-! ### Reads -/

/-- The reader stands in front of `current` and `rest`, and will deliver them as `stream`. -/
structure Delivers (header : Header) (s : DiskSession) (current : Bytes) (rest : List Bytes)
    (stream : Bytes) : Prop extends Stands header s current rest where
  clear : clearBytes s.fileDescriptor s.reader.obfuscationOffset (current ++ rest.flatten) = stream

theorem Delivers.length {s : DiskSession} {current stream : Bytes} {rest : List Bytes}
    (delivers : Delivers header s current rest stream) :
    stream.length = (current ++ rest.flatten).length := by
  rw [← delivers.clear, length_clearBytes]

/-- A read refines the read of a segmented stream and delivers the first bytes of it. -/
theorem readerRead_delivers {s : DiskSession} {current stream data left : Bytes}
    {rest after : List Bytes} {size : Nat} (delivers : Delivers header s current rest stream)
    (h : SegmentedStream.read size current rest = some (data, left, after)) :
    ∃ t, readerRead libraries.onDisk header size s = (.ret (stream.take size), t) ∧
      Delivers header t left after (stream.drop size) ∧ SameFile s t := by
  obtain ⟨t, run, stands, same, sameSeed⟩ :=
    readerReadLoop_refines libraries delivers.toStands h (size + 1) (by omega) []
  have parts := SegmentedStream.append_of_read h
  have clear := delivers.clear
  rw [← parts.2, clearBytes_append, parts.1] at clear
  have front : (clearBytes s.fileDescriptor s.reader.obfuscationOffset data).length = size := by
    rw [length_clearBytes, parts.1]
  have taken : stream.take size = clearBytes s.fileDescriptor s.reader.obfuscationOffset data := by
    rw [← clear, List.take_left' front]
  have dropped : stream.drop size =
      clearBytes s.fileDescriptor (nextSeed s.fileDescriptor s.reader.obfuscationOffset size)
        (left ++ after.flatten) := by
    rw [← clear, List.drop_left' front]
  rw [readerRead, Proc.bind_of_ret run, Proc.gets_bind_run, same.fileDescriptor, taken, dropped,
    List.nil_append, clearBytes, nextSeed]
  by_cases obfuscated : s.fileDescriptor.Has fileObfuscated
  · rw [if_pos obfuscated, if_pos obfuscated, if_pos obfuscated, readerDeobfuscate, sameSeed]
    refine ⟨_, rfl, ⟨⟨stands.file, stands.left, stands.follows⟩, ?_⟩,
      ⟨⟨same.output, same.store, same.index⟩, same.fileDescriptor⟩⟩
    show clearBytes t.fileDescriptor (deobfuscate data s.reader.obfuscationOffset).2 _ = _
    rw [same.fileDescriptor, deobfuscate_seed, parts.1]
  · rw [if_neg obfuscated, if_neg obfuscated, if_neg obfuscated]
    refine ⟨t, rfl, ⟨stands, ?_⟩, same⟩
    rw [same.fileDescriptor, sameSeed]

/-- The session after a read that needs no other volume. -/
def consume (size : Nat) (s : DiskSession) : DiskSession :=
  { advance size s with
    reader.obfuscationOffset := nextSeed s.fileDescriptor s.reader.obfuscationOffset size }

theorem readerRead_within {s : DiskSession} {current stream : Bytes} {rest : List Bytes} {size : Nat}
    (delivers : Delivers header s current rest stream) (pos : 0 < size)
    (le : size ≤ current.length) :
    readerRead libraries.onDisk header size s = (.ret (stream.take size), consume size s) ∧
      Delivers header (consume size s) (current.drop size) rest (stream.drop size) := by
  obtain ⟨t, run, delivers', same⟩ :=
    readerRead_delivers libraries delivers (SegmentedStream.read_of_le _ pos le)
  have turn := readerReadTurn_run libraries [] delivers.toStands pos (by omega)
  rw [if_pos le, Nat.min_eq_left le, Proc.pure_run] at turn
  have state : t = consume size s := by
    rw [readerRead, Proc.bind_of_ret (Proc.iterate_succ_of_done turn), Proc.gets_bind_run] at run
    change (if s.fileDescriptor.Has fileObfuscated then _ else _ : Proc _ _) _ = _ at run
    have seed := deobfuscate_seed (current.take size) s.reader.obfuscationOffset
    rw [List.length_take_of_le le] at seed
    rw [consume, nextSeed]
    split at run
    · rename_i obfuscated
      rw [if_pos obfuscated, ← seed]
      exact (Prod.mk.inj run).2.symm
    · rename_i plain
      rw [if_neg plain]
      exact (Prod.mk.inj run).2.symm
  subst state
  exact ⟨run, delivers'⟩

/-- The volume file has moved on by `size` bytes, and no file was closed. -/
structure MovedBy (size : Nat) (s t : DiskSession) : Prop where
  file : t.reader.volumeFile = s.reader.volumeFile.map fun file =>
    { file with position := file.position + size }
  volume : t.reader.volume = s.reader.volume
  closed : t.io.closed = s.io.closed

theorem MovedBy.refl (s : DiskSession) : MovedBy 0 s s := by
  refine ⟨?_, rfl, rfl⟩
  show _ = Option.map (fun file => file) _
  rw [Option.map_id']

theorem MovedBy.trans {s t u : DiskSession} {one two : Nat} (first : MovedBy one s t)
    (second : MovedBy two t u) : MovedBy (one + two) s u := by
  refine ⟨?_, second.volume.trans first.volume, second.closed.trans first.closed⟩
  rw [second.file, first.file, Option.map_map]
  congr 1
  funext file
  simp [Nat.add_assoc]

/-- In one volume a read moves the volume file on by what it delivers. -/
theorem readerRead_movedBy {s t : DiskSession} {current stream data data' left : Bytes}
    {after : List Bytes} {size : Nat} (delivers : Delivers header s current [] stream)
    (h : SegmentedStream.read size current [] = some (data, left, after))
    (run : readerRead libraries.onDisk header size s = (.ret data', t)) : MovedBy size s t := by
  have pos := SegmentedStream.pos_of_read h
  have parts := SegmentedStream.append_of_read h
  have lengths := congrArg List.length parts.2
  rw [List.length_append, parts.1, List.flatten_nil, List.append_nil] at lengths
  have within := (readerRead_within libraries delivers pos.1 (by omega)).1
  rw [run] at within
  rw [(Prod.mk.inj within).2]
  exact ⟨rfl, rfl, rfl⟩

/-- A read of nothing, and one that starts where the current segment is used up, fail. -/
theorem readerRead_fails {s : DiskSession} {current : Bytes} {rest : List Bytes} {size : Nat}
    (stands : Stands header s current rest) (nothing : size = 0 ∨ current = []) :
    readerRead libraries.onDisk header size s = (.fail, s) := by
  have turn : readerReadTurn libraries.onDisk header (size, []) s = (.fail, s) := by
    obtain ⟨file, opened, _⟩ := stands.file
    rw [readerReadTurn, Proc.gets_bind_run, stands.left,
      Proc.bind_of_ret (ftellVolume_run libraries opened)]
    refine Proc.bind_of_fail (Proc.require_run_of_not ?_ s)
    rcases nothing with rfl | rfl
    · simp
    · simp
  rw [readerRead]
  exact Proc.bind_of_fail (Proc.iterate_succ_of_fail turn)

theorem Delivers.open_next {s : DiskSession} {next stream : Bytes} {rest : List Bytes}
    (delivers : Delivers header s [] (next :: rest) stream) :
    ∃ t, readerOpenVolume libraries.onDisk header (s.reader.volume + 1) s = (.ret (), t) ∧
      Delivers header t next rest stream ∧ SameFile s t ∧ t.reader.volume = s.reader.volume + 1 := by
  obtain ⟨t, run, stands, same, sameSeed, volume⟩ := delivers.toStands.open_next libraries
  refine ⟨t, run, ⟨stands, ?_⟩, same, volume⟩
  rw [same.fileDescriptor, sameSeed, ← delivers.clear]
  rfl

end

end Unshield
