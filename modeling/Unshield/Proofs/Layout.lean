/-
Module: Unshield.Proofs.Layout
Purpose: Where an archive keeps the stored bytes of a file: in one piece in one volume, or cut into
  segments in consecutive volumes; and the reader that is created for each.
Trusted boundary: none
Main exports: storedSize, StoredAt, SplitAcross, readerCreate_stored, readerCreate_split
-/
import Unshield.Proofs.SaveSteps

namespace Unshield

open Procedure

/-- The size of a file that counts for its stored bytes. -/
def storedSize (fd : FileDescriptor) : UInt64 :=
  if fd.Has fileCompressed then fd.compressedSize else fd.expandedSize

/-- The file is not split, its start volume opens with a valid header that neither marks it split nor
makes the creation of a reader move on, and the volume has `stored` at the file's offset. -/
structure StoredAt (header : Header) (cabinets : Int → Option Bytes) (index : Int)
    (fd : FileDescriptor) (content stored : Bytes) : Prop where
  opens : ∃ volumeHeader, Opens header cabinets fd.volume.toNat content volumeHeader ∧
    ¬ MovesOn header volumeHeader index ∧
    ¬ (markSplit header (UInt32.ofInt index) volumeHeader fd).Has fileSplit
  inside : fd.dataOffset.toNat + stored.length ≤ content.length
  bytes : (content.drop fd.dataOffset.toNat).take stored.length = stored
  size : (storedSize fd).toNat = stored.length
  size_lt : stored.length < 2 ^ 32

/-- The descriptor of a split file once its start volume is found. -/
def splitDescriptor (fd : FileDescriptor) (start : UInt16) : FileDescriptor :=
  { fd with flags := fd.flags ||| fileSplit, volume := start }

/-- The file is marked split, by its descriptor or by the header of its first volume, and its stored
bytes are cut into non-empty segments held in consecutive volumes.  The first of these is the one the
creation of a reader settles on. -/
structure SplitAcross (header : Header) (cabinets : Int → Option Bytes) (index : Int)
    (fd : FileDescriptor) (start : UInt16) (content : Bytes) (segments : List Bytes) : Prop where
  not_before : fd.volume.toNat ≤ start.toNat
  passed : ∀ volume : Nat, fd.volume.toNat ≤ volume → volume < start.toNat →
    ∃ content volumeHeader, Opens header cabinets volume content volumeHeader ∧
      MovesOn header volumeHeader index
  opens : ∃ volumeHeader, Opens header cabinets start.toNat content volumeHeader ∧
    ¬ MovesOn header volumeHeader index ∧
    (markSplit header (UInt32.ofInt index) volumeHeader fd).Has fileSplit
  solid : SegmentedStream.Solid segments
  segments : HoldsSegments header cabinets (UInt32.ofInt index) (splitDescriptor fd start)
    start.toNat segments

/-! ### The stored size -/

theorem has_or_fileSplit {fd : FileDescriptor} {flag : UInt16} (other : fileSplit &&& flag = 0)
    (volume : UInt16) :
    ({ fd with flags := fd.flags ||| fileSplit, volume := volume } : FileDescriptor).Has flag ↔
      fd.Has flag := by
  rw [FileDescriptor.Has, FileDescriptor.Has]
  simp only
  rw [Bits.uint16_or_and other]

theorem splitDescriptor_has (fd : FileDescriptor) (start : UInt16) :
    (splitDescriptor fd start).Has fileSplit := by
  rw [FileDescriptor.Has, splitDescriptor]
  simp only
  intro none
  have bits := congrArg UInt16.toNat none
  rw [UInt16.toNat_and, UInt16.toNat_or] at bits
  have one : fileSplit.toNat = 1 := rfl
  rw [one, Nat.and_or_distrib_right, Nat.and_self] at bits
  have := @Nat.right_le_or (fd.flags.toNat &&& 1) 1
  rw [bits] at this
  exact absurd this (by decide)

theorem splitDescriptor_compressed_iff (fd : FileDescriptor) (start : UInt16) :
    (splitDescriptor fd start).Has fileCompressed ↔ fd.Has fileCompressed :=
  has_or_fileSplit rfl start

theorem splitDescriptor_storedSize (fd : FileDescriptor) (start : UInt16) :
    storedSize (splitDescriptor fd start) = storedSize fd := by
  rw [storedSize, storedSize]
  simp only [splitDescriptor_compressed_iff]
  rfl

theorem startBytesLeft_eq (fd : FileDescriptor) : startBytesLeft fd = (storedSize fd).toUInt32 := by
  rw [startBytesLeft, storedSize]
  split <;> rfl

theorem startBytesLeft_toNat {fd : FileDescriptor} {stored : Bytes}
    (size : (storedSize fd).toNat = stored.length) (lt : stored.length < 2 ^ 32) :
    (startBytesLeft fd).toNat = stored.length := by
  rw [startBytesLeft_eq, UInt64.toNat_toUInt32, size, Nat.mod_eq_of_lt lt]

/-! ### Creating the reader -/

theorem markSplit_of_whole {header : Header} {index : UInt32} {volumeHeader : VolumeHeader}
    {fd : FileDescriptor} (whole : ¬ (markSplit header index volumeHeader fd).Has fileSplit) :
    markSplit header index volumeHeader fd = fd := by
  rcases markSplit_eq header index volumeHeader fd with same | marked
  · exact same
  · rw [marked] at whole
    exact absurd (splitDescriptor_has fd fd.volume) whole

theorem markSplit_setVolume (header : Header) (index : UInt32) (volumeHeader : VolumeHeader)
    (fd : FileDescriptor) (volume : UInt16) :
    markSplit header index volumeHeader { fd with volume := volume } =
      { markSplit header index volumeHeader fd with volume := volume } := by
  rw [markSplit, markSplit]
  split
  · split
    · rfl
    · split <;> rfl
  · rfl

/-- Whatever volumes were passed over, the descriptor ends up marked split. -/
theorem markSplit_of_search {header : Header} {index : UInt32} {volumeHeader : VolumeHeader}
    {fd fd' : FileDescriptor} {start : UInt16} (search : UpToSearch fd fd')
    (found : fd'.volume = start) (marked : (markSplit header index volumeHeader fd).Has fileSplit) :
    markSplit header index volumeHeader fd' = splitDescriptor fd start := by
  rcases search with eq | eq
  · rw [eq, markSplit_setVolume, has_of_markSplit marked, found]
    rfl
  · have split : fd' = splitDescriptor fd start := by
      rw [eq, found]
      rfl
    rw [split, markSplit_of_has (splitDescriptor_has fd start)]

section

variable (libraries : Libraries) {header : Header}

/-- The reader of a file in one piece stands at the file's offset. -/
theorem readerCreate_stored {index : Int} {fd : FileDescriptor} {io : Disk} {content stored : Bytes}
    (layout : StoredAt header io.store.cabinets index fd content stored) {fuel : Nat}
    (enough : 0 < fuel) :
    ∃ t, readerCreate libraries.onDisk header fuel index (startSession fd io) = (.ret (), t) ∧
      Delivers header t stored [] (clearBytes fd 0 stored) ∧
      t.reader.volumeFile = some { content, position := fd.dataOffset.toNat } ∧
      t.fileDescriptor = fd ∧ t.output = none ∧ t.io = io ∧ t.reader.volume = fd.volume.toNat := by
  obtain ⟨volumeHeader, opens, stays, whole⟩ := layout.opens
  have same := markSplit_of_whole whole
  rw [same] at whole
  have portion : selectPortion (UInt32.ofInt index) volumeHeader fd = some
      { dataOffset := fd.dataOffset
        volumeBytesLeftExpanded := fd.expandedSize
        volumeBytesLeftCompressed := fd.compressedSize } := by
    rw [selectPortion, if_neg whole]
  have small : fd.dataOffset.toNat < 2 ^ 63 :=
    Nat.lt_of_le_of_lt (Nat.le_trans (Nat.le_add_right _ _) layout.inside)
      (io.store.cabinets_lt _ _ opens.cabinet)
  have left : (if fd.Has fileCompressed then fd.compressedSize.toUInt32
      else fd.expandedSize.toUInt32).toNat = stored.length :=
    startBytesLeft_toNat layout.size layout.size_lt
  refine ⟨_, readerCreate_stays libraries enough opens stays, ?_⟩
  simp only [enterVolume, freshSession, same, portion, fseek_set small]
  refine ⟨⟨⟨⟨_, rfl, layout.bytes⟩, left, fun absurd_rest => absurd rfl absurd_rest⟩, ?_⟩, trivial,
    trivial, trivial, rfl, trivial⟩
  simp

/-- The reader of a split file stands in front of its first segment. -/
theorem readerCreate_split {index : Int} {fd : FileDescriptor} {io : Disk} {start : UInt16}
    {content : Bytes} {segments : List Bytes}
    (layout : SplitAcross header io.store.cabinets index fd start content segments)
    {fuel : Nat} (enough : start.toNat - fd.volume.toNat < fuel) :
    ∃ t, readerCreate libraries.onDisk header fuel index (startSession fd io) = (.ret (), t) ∧
      (∃ position, t.reader.volumeFile = some { content, position }) ∧
      t.fileDescriptor = splitDescriptor fd start ∧ t.output = none ∧ t.io.store = io.store ∧
      ∀ first rest, segments = first :: rest → t.reader.index = UInt32.ofInt index ∧
        t.reader.volume = start.toNat ∧
        Delivers header t first rest (clearBytes fd 0 (first ++ rest.flatten)) := by
  obtain ⟨volumeHeader, opens, stays, marked⟩ := layout.opens
  have not_before := layout.not_before
  obtain ⟨s, searching, search, found, loop⟩ := readerCreateLoop_search libraries
    (freshSession index fd io) not_before (Or.inl rfl) layout.passed opens stays enough
  have descriptor := markSplit_of_search search found marked
  have index_eq : s.reader.index = UInt32.ofInt index := searching.index
  refine ⟨_, readerCreate_of_loop libraries loop, enterVolume_volumeFile, ?_, ?_, ?_, ?_⟩
  · rw [enterVolume_fileDescriptor, index_eq]
    exact descriptor
  · exact enterVolume_sameAround.output.trans searching.output
  · exact enterVolume_sameAround.store.trans searching.store
  · intro first rest eq
    have placed := layout.segments
    rw [eq] at placed
    obtain ⟨⟨content', volumeHeader', portion, opens', selected, left, bytes⟩, later⟩ := placed
    obtain ⟨rfl, rfl⟩ := opens.unique opens'
    have small := dataOffset_lt_of_split (splitDescriptor_has fd start) selected
    have store : (closeVolume s).io.store = io.store := closeVolume_store.trans searching.store
    have seed : s.reader.obfuscationOffset = 0 := searching.seed
    simp only [enterVolume, index_eq, descriptor, selected, fseek_set small]
    refine ⟨trivial, trivial, ⟨⟨_, rfl, bytes⟩, left, fun _ => ⟨splitDescriptor_has fd start, ?_⟩⟩, ?_⟩
    · rw [store]
      exact later
    · simp only [seed]
      rw [clearBytes, clearBytes, splitDescriptor]
      simp only [has_or_fileSplit (show fileSplit &&& fileObfuscated = 0 from rfl)]

end

end Unshield
