/-
Module: Unshield.Proofs.SaveIntegrity
Purpose: What success of a save function means on any archive: the output has the size, and with the
  newer versions the digest, that the descriptor at the end of the chain of links records; a raw copy
  has the size modulo 2 ^ 32.
Trusted boundary: none
Main exports: LinkEnd, Intact, saveTurn_ensures, chunkTurn_ensures, saveOldTurn_ensures,
  save_integrity, saveRawTurn_ensures, fileSaveRaw_complete_iff
-/
import Unshield.Proofs.SaveFrame
import Unshield.Proofs.SaveNew
import Unshield.Proofs.SaveOldStored
import Unshield.Proofs.SaveTurns
import Mathlib.Data.UInt

namespace Unshield

open Procedure

/-! ### Chains of links -/

/-- The descriptor at the end of the chain of links that starts at an index. -/
inductive LinkEnd (header : Header) (library : Library Disk) : Int → FileDescriptor → Prop where
  | last {index : Int} {fd : FileDescriptor} (describes : Describes header library index fd)
      (unlinked : fd.linkFlags &&& linkPrev = 0) : LinkEnd header library index fd
  | previous {index : Int} {fd last : FileDescriptor} (describes : Describes header library index fd)
      (linked : fd.linkFlags &&& linkPrev ≠ 0)
      (next : LinkEnd header library fd.linkPrevious.toInt32.toInt last) :
      LinkEnd header library index last

/-- Remembering a descriptor does not change what any index describes. -/
theorem describes_of_remembered {header : Header} {library library' : Library Disk}
    {index other : Int} {fd fd' : FileDescriptor}
    (run : getFileDescriptor header index library = (.ret fd, library'))
    (describes : Describes header library' other fd') : Describes header library other fd' := by
  rw [Describes, getFileDescriptor_exit] at describes ⊢
  rw [← (descriptorAt_of_run run).2]
  exact describes

theorem LinkEnd.of_remembered {header : Header} {library library' : Library Disk} {index : Int}
    {fd : FileDescriptor} (run : getFileDescriptor header index library = (.ret fd, library'))
    {other : Int} {last : FileDescriptor} (linkEnd : LinkEnd header library' other last) :
    LinkEnd header library other last := by
  induction linkEnd with
  | last describes unlinked => exact .last (describes_of_remembered run describes) unlinked
  | previous describes linked _ ih => exact .previous (describes_of_remembered run describes) linked ih

section

variable (libraries : Libraries) {archive : Archive}

/-- A call that succeeds was, at the end of the chain of links, a session that succeeded. -/
theorem saveThroughLinks_eq_ret {save : Nat → Int → Proc DiskSession Unit}
    (Saved : FileDescriptor → Disk → Prop)
    (saved : ∀ fuel index fd io t, save fuel index (startSession fd io) = (.ret (), t) →
      Saved fd (closeSession libraries.onDisk t).io) (fuel : Nat) :
    ∀ {index : Int} {library library' : Library Disk},
      saveThroughLinks libraries.onDisk archive save fuel index library = (.ret (), library') →
      ∃ fd, LinkEnd archive.header library index fd ∧ Saved fd library'.io := by
  induction fuel with
  | zero =>
      intro index library library' run
      cases run
  | succ fuel ih =>
      intro index library library' run
      rw [saveThroughLinks] at run
      obtain ⟨fd, remembered, found, run⟩ := Proc.bind_eq_ret_iff.1 run
      obtain ⟨_, run⟩ := Proc.require_bind_eq_ret_iff.1 run
      have describes : Describes archive.header library index fd := congrArg Prod.fst found
      split at run
      · rename_i linked
        obtain ⟨last, linkEnd, stored⟩ := ih run
        exact ⟨last, .previous describes linked (linkEnd.of_remembered found), stored⟩
      · rename_i unlinked
        obtain ⟨t, session, closed⟩ := runSession_eq_ret libraries run
        refine ⟨fd, .last describes (not_not.1 unlinked), ?_⟩
        rw [closed]
        exact saved _ _ _ _ _ session

/-! ### The output -/

/-- The descriptor still says what size and digest the file has. -/
structure Records (fd : FileDescriptor) (s : DiskSession) : Prop where
  expandedSize : s.fileDescriptor.expandedSize = fd.expandedSize
  md5 : s.fileDescriptor.md5 = fd.md5

/-- `written` is in the output file, and what there is still room for does not make the file too
long to be counted. -/
structure Intact (fd : FileDescriptor) (path written : Bytes) (s : DiskSession) : Prop
    extends Writing s path written, Records fd s where
  countable : written.length + s.io.store.room < 2 ^ 63

variable {fd : FileDescriptor} {path : Bytes}

theorem Records.of_sameRecord {s : DiskSession} {fd' : FileDescriptor} (records : Records fd s)
    (same : SameRecord s.fileDescriptor fd') : Records fd { s with fileDescriptor := fd' } := by
  refine ⟨?_, ?_⟩
  · show fd'.expandedSize = _
    rw [same]
    exact records.expandedSize
  · show fd'.md5 = _
    rw [same]
    exact records.md5

theorem unaffected_records : Unaffected libraries.onDisk (Records fd) :=
  .of_deaf (fun _ _ records => ⟨records.expandedSize, records.md5⟩)
    (fun _ _ search records => records.of_sameRecord search.sameRecord)
    fun _ _ records => ⟨records.expandedSize, records.md5⟩

theorem unrelated_intact (written : Bytes) : Unrelated libraries.onDisk (Intact fd path written) :=
  .onDisk
    (fun _ _ intact =>
      ⟨⟨intact.output, intact.file⟩, ⟨intact.expandedSize, intact.md5⟩, intact.countable⟩)
    (fun _ _ intact =>
      ⟨⟨intact.output, intact.file⟩, ⟨intact.expandedSize, intact.md5⟩, intact.countable⟩)
    fun _ _ search intact =>
      ⟨⟨intact.output, intact.file⟩, intact.toRecords.of_sameRecord search.sameRecord, intact.countable⟩

theorem Intact.toNat_ofNat {s : DiskSession} {written : Bytes} (intact : Intact fd path written s) :
    (UInt64.ofNat written.length).toNat = written.length := by
  refine UInt64.toNat_ofNat_of_lt' (Nat.lt_trans ?_ (show 2 ^ 63 < 2 ^ 64 by decide))
  exact Nat.lt_of_le_of_lt (Nat.le_add_right _ _) intact.countable

theorem fopenOutput_ensures :
    Proc.Ensures (Records fd) (fopenOutput libraries.onDisk (some path)) fun _ =>
      Intact fd path [] := by
  intro s _ s' records run
  have writable := writable_of_fopenOutput libraries run
  obtain ⟨t, opens, writing, input, room⟩ := fopenOutput_run libraries writable
  rw [opens] at run
  obtain rfl := (Prod.mk.inj run).2
  refine ⟨writing, ⟨?_, ?_⟩, ?_⟩
  · rw [input.fileDescriptor]
    exact records.expandedSize
  · rw [input.fileDescriptor]
    exact records.md5
  · rw [List.length_nil, Nat.zero_add]
    exact t.io.store.room_lt

/-- A write that succeeds has written everything. -/
theorem fwriteOutput_ensures (written data : Bytes) :
    Proc.Ensures (Intact fd path written) (fwriteOutput libraries.onDisk data) fun _ =>
      Intact fd path (written ++ data) := by
  intro s _ s' intact run
  have room := room_of_fwriteOutput libraries intact.toWriting run
  obtain ⟨t, wrote, writing, input, left⟩ := fwriteOutput_run libraries intact.toWriting room
  rw [wrote] at run
  obtain rfl := (Prod.mk.inj run).2
  refine ⟨writing, ⟨?_, ?_⟩, ?_⟩
  · rw [input.fileDescriptor]
    exact intact.expandedSize
  · rw [input.fileDescriptor]
    exact intact.md5
  · have countable := intact.countable
    rw [left, List.length_append]
    omega

/-! ### The new format -/

/-- What the loop of the new format never breaks. -/
def Counted (fd : FileDescriptor) (path : Bytes) (vars : SaveVars libraries.md5) (s : DiskSession) :
    Prop :=
  ∃ written, Intact fd path written s ∧ vars.totalWritten = UInt64.ofNat written.length ∧
    vars.context = libraries.md5.update libraries.md5.init written

/-- Whatever a turn has read, what it writes it counts and digests. -/
theorem saveTurn_ensures (vars : SaveVars libraries.md5) :
    Proc.Ensures (Counted libraries fd path vars) (saveTurn libraries.onDisk archive vars)
      (Proc.Turn.Meets (Counted libraries fd path) (Counted libraries fd path)) := by
  rintro s outcome s' ⟨written, intact, total, context⟩ run
  rcases saveTurn_cases run with
    ⟨_, rfl, rfl⟩ | ⟨_, ⟨bytesLeft, buffer, bytesToWrite⟩, t, data, read, loaded, wrote, rfl⟩
  · exact ⟨written, intact, total, context⟩
  · have intact_read : Intact fd path written t :=
      (preserves_saveData libraries.onDisk (unrelated_intact libraries written) _ _ _).of_run intact read
    refine ⟨written ++ data, fwriteOutput_ensures libraries written data t () _ intact_read wrote,
      ?_, ?_⟩
    · show vars.totalWritten + UInt64.ofNat bytesToWrite = _
      rw [total, List.length_append, Block.length_of_load loaded, UInt64.ofNat_add]
    · show libraries.md5.update vars.context data = _
      rw [context, libraries.md5.update_append]

theorem saveNew_ensures (fuel : Nat) (index : Int) :
    Proc.Ensures (Records fd) (saveNew libraries.onDisk archive (some path) fuel index) fun _ s =>
      ∃ out, Intact fd path out s ∧ out.length = fd.expandedSize.toNat ∧
        (archive.header.majorVersion ≥ 6 → libraries.md5.digest out = fd.md5) := by
  intro s _ s' records run
  rw [saveNew] at run
  obtain ⟨_, s₁, created, run⟩ := Proc.bind_eq_ret_iff.1 run
  have records₁ : Records fd s₁ :=
    (preserves_readerCreate libraries.onDisk _ (unaffected_records libraries).toUnrelated _ _).of_run
      records created
  obtain ⟨size, s₂, sized, run⟩ := Proc.bind_eq_ret_iff.1 run
  have records₂ : Records fd s₂ :=
    (preserves_fsizeVolume libraries.onDisk (unaffected_records libraries).toApart).of_run records₁ sized
  rw [Proc.gets_bind_run] at run
  obtain ⟨_, run⟩ := Proc.require_bind_eq_ret_iff.1 run
  obtain ⟨_, s₃, opened, run⟩ := Proc.bind_eq_ret_iff.1 run
  have intact := fopenOutput_ensures libraries s₂ () s₃ records₂ opened
  obtain ⟨vars, s₄, loop, run⟩ := Proc.bind_eq_ret_iff.1 run
  obtain ⟨out, intact', total, context⟩ := Proc.Ensures.iterate (saveTurn_ensures libraries) fuel _
    s₃ vars s₄ ⟨[], intact, rfl, (libraries.md5.update_nil _).symm⟩ loop
  rw [Proc.gets_bind_run] at run
  obtain ⟨size_eq, run⟩ := Proc.require_bind_eq_ret_iff.1 run
  have length : out.length = fd.expandedSize.toNat := by
    rw [← intact'.expandedSize, size_eq, total, intact'.toNat_ofNat]
  split at run
  · have checked := (Proc.onFailure_eq_ret_iff.1 run).resolve_right <| by
      rintro ⟨_, _, reported⟩
      exact failWithFileName_ne_ret _ _ _ reported
    obtain ⟨md5_eq, rfl⟩ := Proc.require_eq_ret_iff.1 checked
    refine ⟨out, intact', length, fun _ => ?_⟩
    rw [← intact'.md5, ← md5_eq, context]
    rfl
  · rename_i undigested
    obtain ⟨_, rfl⟩ := Prod.mk.inj run
    exact ⟨out, intact', length, fun digested => absurd digested undigested⟩

/-! ### The old format -/

/-- What the loops of the old format never break. -/
def CountedOld (fd : FileDescriptor) (path : Bytes) (vars : SaveOldVars) (s : DiskSession) : Prop :=
  ∃ written, Intact fd path written s ∧ vars.totalWritten = UInt64.ofNat written.length

/-- A write that succeeds and is counted. -/
theorem CountedOld.write {s t : DiskSession} {vars vars' : SaveOldVars} {data : Bytes}
    (counted : CountedOld fd path vars s)
    (wrote : fwriteOutput libraries.onDisk data s = (.ret (), t))
    (total : vars'.totalWritten = vars.totalWritten + UInt64.ofNat data.length) :
    CountedOld fd path vars' t := by
  obtain ⟨written, intact, before⟩ := counted
  refine ⟨written ++ data, fwriteOutput_ensures libraries written data s () t intact wrote, ?_⟩
  rw [total, before, List.length_append, UInt64.ofNat_add]

theorem unrelated_countedOld (vars : SaveOldVars) :
    Unrelated libraries.onDisk (CountedOld fd path vars) :=
  .onDisk
    (fun s reader ⟨written, intact, total⟩ =>
      ⟨written, (unrelated_intact libraries written).fresh s reader intact, total⟩)
    (fun _ _ ⟨written, intact, total⟩ => ⟨written,
      ⟨⟨intact.output, intact.file⟩, ⟨intact.expandedSize, intact.md5⟩, intact.countable⟩, total⟩)
    fun s fd' same ⟨written, intact, total⟩ =>
      ⟨written, (unrelated_intact libraries written).descriptor s fd' same intact, total⟩

/-- A chunk that is decompressed without an error is counted with its true length. -/
theorem chunkTurn_ensures (fuel : Nat) (vars : ChunkVars) :
    Proc.Ensures (CountedOld fd path vars.toSaveOldVars) (chunkTurn libraries.onDisk archive fuel vars)
      (Proc.Turn.Meets (fun vars => CountedOld fd path vars.toSaveOldVars)
        (CountedOld fd path)) := by
  intro s outcome s' counted run
  rcases chunkTurn_cases run with ⟨_, rfl, rfl⟩ | ⟨_, size, buffer, result, expands, wrote, rfl⟩
  · exact counted
  · obtain ⟨source, _, inflated⟩ := expands.expanded
    apply counted.write libraries wrote
    rw [(uncompressOld_output inflated).2 expands.code]

theorem saveOldData_ensures (fd' : FileDescriptor) (fuel : Nat) (vars : SaveOldVars) :
    Proc.Ensures (CountedOld fd path vars) (saveOldData libraries.onDisk archive fd' fuel vars)
      (CountedOld fd path) := by
  intro s vars' s' counted run
  rw [saveOldData] at run
  split at run
  · rw [saveOldCompressed, Proc.gets_bind_run] at run
    obtain ⟨data, t, read, run⟩ := Proc.bind_eq_ret_iff.1 run
    obtain ⟨buffer, _, run⟩ := Proc.access_bind_eq_ret_iff.1 run
    have after : CountedOld fd path vars t :=
      (preserves_readerRead libraries.onDisk _ (unrelated_countedOld libraries vars) _).of_run counted
        (readOrReport_eq_ret_iff.1 read)
    exact Proc.Ensures.iterate (chunkTurn_ensures libraries fuel) fuel _ t vars' s' after run
  · obtain ⟨data, t, read, wrote, rfl⟩ := saveOldStored_eq_ret run
    have after : CountedOld fd path vars t :=
      (preserves_readerRead libraries.onDisk _ (unrelated_countedOld libraries vars) _).of_run counted read
    apply after.write libraries wrote
    rw [length_of_readerRead _ _ read]

theorem saveOldTurn_ensures (fuel : Nat) (vars : SaveOldVars) :
    Proc.Ensures (CountedOld fd path vars) (saveOldTurn libraries.onDisk archive fuel vars)
      (Proc.Turn.Meets (CountedOld fd path) (CountedOld fd path)) := by
  intro s outcome s' counted run
  rcases saveOldTurn_cases run with ⟨_, rfl, rfl⟩ | ⟨_, t, vars', exhausted, saved, rfl⟩
  · exact counted
  · have counted' : CountedOld fd path vars t :=
      (preserves_openExhausted libraries.onDisk (unrelated_countedOld libraries vars)).of_run counted
        exhausted
    exact saveOldData_ensures libraries _ fuel vars t vars' _ counted' saved

theorem saveOld_ensures (fuel : Nat) (index : Int) :
    Proc.Ensures (Records fd) (saveOld libraries.onDisk archive (some path) fuel index) fun _ s =>
      ∃ out, Intact fd path out s ∧ out.length = fd.expandedSize.toNat := by
  intro s _ s' records run
  rw [saveOld] at run
  obtain ⟨_, s₁, created, run⟩ := Proc.bind_eq_ret_iff.1 run
  have records₁ : Records fd s₁ :=
    (preserves_createOldReader libraries.onDisk (unaffected_records libraries) _ _).of_run records created
  obtain ⟨_, s₂, opened, run⟩ := Proc.bind_eq_ret_iff.1 run
  have intact := fopenOutput_ensures libraries s₁ () s₂ records₁ opened
  rw [Proc.gets_bind_run] at run
  obtain ⟨vars, s₃, loop, run⟩ := Proc.bind_eq_ret_iff.1 run
  obtain ⟨out, intact', total⟩ := Proc.Ensures.iterate (saveOldTurn_ensures libraries fuel) fuel _
    s₂ vars s₃ ⟨[], intact, rfl⟩ loop
  rw [Proc.gets_bind_run] at run
  obtain ⟨size_eq, rfl⟩ := Proc.require_eq_ret_iff.1 run
  refine ⟨out, intact', ?_⟩
  rw [← intact'.expandedSize, size_eq, total, intact'.toNat_ofNat]

/-! ### The calls -/

theorem records_start (fd : FileDescriptor) (io : Disk) : Records fd (startSession fd io) := ⟨rfl, rfl⟩

/-- The output of a session is at its path when the session is over, and accepted by its stream. -/
theorem Intact.closed {written : Bytes} {s : DiskSession} (intact : Intact fd path written s) :
    (closeSession libraries.onDisk s).io.store.files path = some written ∧
      Accepted path written (closeSession libraries.onDisk s).io := by
  refine ⟨?_, intact.toWriting.accepted libraries⟩
  rw [closeSession_store]
  exact intact.file

/-- Success means integrity, whatever the archive holds and whatever zlib does: the output is what its
stream has accepted when it is closed. -/
theorem save_integrity (libraries : Libraries) (archive : Archive) (fuel : Nat) (index : Int)
    (path : Bytes) (library library' : Library Disk) :
    (fileSave libraries.onDisk archive fuel index (some path) library = (.ret (), library') →
      ∃ fd out, LinkEnd archive.header library index fd ∧
        library'.io.store.files path = some out ∧ Accepted path out library'.io ∧
        out.length = fd.expandedSize.toNat ∧
        (archive.header.majorVersion ≥ 6 → libraries.md5.digest out = fd.md5)) ∧
    (fileSaveOld libraries.onDisk archive fuel index (some path) library = (.ret (), library') →
      ∃ fd out, LinkEnd archive.header library index fd ∧
        library'.io.store.files path = some out ∧ Accepted path out library'.io ∧
        out.length = fd.expandedSize.toNat) := by
  constructor
  · intro run
    obtain ⟨fd, linkEnd, out, saved⟩ := saveThroughLinks_eq_ret libraries
      (fun fd disk => ∃ out, disk.store.files path = some out ∧ Accepted path out disk ∧
        out.length = fd.expandedSize.toNat ∧
        (archive.header.majorVersion ≥ 6 → libraries.md5.digest out = fd.md5))
      (by
        intro fuel index fd io t run
        obtain ⟨out, intact, length, digest⟩ :=
          saveNew_ensures libraries fuel index _ () t (records_start fd io) run
        obtain ⟨file, accepted⟩ := intact.closed libraries
        exact ⟨out, file, accepted, length, digest⟩) fuel run
    exact ⟨fd, out, linkEnd, saved⟩
  · intro run
    obtain ⟨fd, linkEnd, out, saved⟩ := saveThroughLinks_eq_ret libraries
      (fun fd disk => ∃ out, disk.store.files path = some out ∧ Accepted path out disk ∧
        out.length = fd.expandedSize.toNat)
      (by
        intro fuel index fd io t run
        obtain ⟨out, intact, length⟩ :=
          saveOld_ensures libraries fuel index _ () t (records_start fd io) run
        obtain ⟨file, accepted⟩ := intact.closed libraries
        exact ⟨out, file, accepted, length⟩) fuel run
    exact ⟨fd, out, linkEnd, saved⟩

end

theorem save_integrity_two_calls :
    (∃ library' fd out,
      fileSave smallLibraries.onDisk (smallArchive 6) 4 0 (some smallPath) frameLibrary =
        (.ret (), library') ∧
      LinkEnd (smallHeader 6) frameLibrary 0 fd ∧ library'.io.store.files smallPath = some out ∧
      Accepted smallPath out library'.io ∧ out.length = fd.expandedSize.toNat ∧
      smallMd5.digest out = fd.md5) ∧
    (∃ library' fd out,
      fileSaveOld smallLibraries.onDisk (smallArchive 6) 4 0 (some smallPath) cutLibrary =
        (.ret (), library') ∧
      LinkEnd (smallHeader 6) cutLibrary 0 fd ∧ library'.io.store.files smallPath = some out ∧
      Accepted smallPath out library'.io ∧ out.length = fd.expandedSize.toNat) := by
  constructor
  · have returned : (fileSave smallLibraries.onDisk (smallArchive 6) 4 0 (some smallPath)
        frameLibrary).1 = .ret () := by decide +kernel
    have run := Proc.run_eq_ret returned
    obtain ⟨fd, out, linkEnd, file, accepted, length, digest⟩ := (save_integrity smallLibraries
      (smallArchive 6) 4 0 smallPath frameLibrary _).1 run
    exact ⟨_, fd, out, run, linkEnd, file, accepted, length, digest (by decide)⟩
  · have returned : (fileSaveOld smallLibraries.onDisk (smallArchive 6) 4 0 (some smallPath)
        cutLibrary).1 = .ret () := by decide +kernel
    have run := Proc.run_eq_ret returned
    obtain ⟨fd, out, linkEnd, saved⟩ := (save_integrity smallLibraries (smallArchive 6)
      4 0 smallPath cutLibrary _).2 run
    exact ⟨_, fd, out, run, linkEnd, saved⟩

/-! ### Raw data -/

section

variable (libraries : Libraries) {archive : Archive} {fd : FileDescriptor} {path : Bytes}

theorem storedSize_of_search {fd fd' : FileDescriptor} (search : UpToSearch fd fd') :
    storedSize fd' = storedSize fd := by
  rcases search with eq | eq
  · rw [eq]
    rfl
  · rw [eq]
    exact splitDescriptor_storedSize fd fd'.volume

theorem unaffected_storedSize (size : UInt64) :
    Unaffected libraries.onDisk (fun s => storedSize s.fileDescriptor = size) :=
  .of_deaf (fun _ _ same => same) (fun _ _ search same => (storedSize_of_search search).trans same)
    fun _ _ same => same

/-- What the loop of the raw copy never breaks: what is written and what is left add up. -/
def Copied (fd : FileDescriptor) (path : Bytes) (total : Nat) (bytesLeft : UInt32) (s : DiskSession) :
    Prop :=
  ∃ written, Intact fd path written s ∧ written.length + bytesLeft.toNat = total

theorem saveRawTurn_ensures (total : Nat) (bytesLeft : UInt32) :
    Proc.Ensures (Copied fd path total bytesLeft) (saveRawTurn libraries.onDisk archive bytesLeft)
      (Proc.Turn.Meets (Copied fd path total) fun _ => Copied fd path total 0) := by
  rintro s outcome s' ⟨written, intact, sum⟩ run
  rcases saveRawTurn_cases run with ⟨nothing, rfl, rfl⟩ | ⟨_, data, t, read, wrote, rfl⟩
  · exact ⟨written, intact, nothing ▸ sum⟩
  · have intact_read : Intact fd path written t :=
      (preserves_readerRead libraries.onDisk _ (unrelated_intact libraries written) _).of_run intact read
    have length := length_of_readerRead _ _ read
    refine ⟨written ++ data, fwriteOutput_ensures libraries written data t () _ intact_read wrote, ?_⟩
    have below : min bytesLeft.toNat bufferSize ≤ bytesLeft.toNat := Nat.min_le_left _ _
    rw [Bits.uint32_sub_ofNat below, List.length_append, length]
    omega

/-- The raw copy writes the low 32 bits of the size. -/
theorem saveRaw_ensures (fuel : Nat) (index : Int) :
    Proc.Ensures (fun s => Records fd s ∧ storedSize s.fileDescriptor = storedSize fd)
      (saveRaw libraries.onDisk archive (some path) fuel index) fun _ s =>
      ∃ out, Intact fd path out s ∧ out.length = (storedSize fd).toNat % 2 ^ 32 := by
  rintro s _ s' ⟨records, weight⟩ run
  rw [saveRaw] at run
  have records_unrelated := (@unaffected_records libraries fd).toUnrelated
  have weight_unrelated := (unaffected_storedSize libraries (storedSize fd)).toUnrelated
  obtain ⟨_, s₁, created, run⟩ := Proc.bind_eq_ret_iff.1 run
  have records₁ := (preserves_readerCreate libraries.onDisk _ records_unrelated _ _).of_run records created
  have weight₁ := (preserves_readerCreate libraries.onDisk _ weight_unrelated _ _).of_run weight created
  obtain ⟨size, s₂, sized, run⟩ := Proc.bind_eq_ret_iff.1 run
  have records₂ := (preserves_fsizeVolume libraries.onDisk records_unrelated.toApart).of_run records₁ sized
  have weight₂ := (preserves_fsizeVolume libraries.onDisk weight_unrelated.toApart).of_run weight₁ sized
  rw [Proc.gets_bind_run] at run
  obtain ⟨_, run⟩ := Proc.require_bind_eq_ret_iff.1 run
  obtain ⟨_, s₃, opened, run⟩ := Proc.bind_eq_ret_iff.1 run
  have intact := fopenOutput_ensures libraries s₂ () s₃ records₂ opened
  have total : (startBytesLeft s₂.fileDescriptor).toNat = (storedSize fd).toNat % 2 ^ 32 := by
    rw [startBytesLeft_eq, weight₂]
    exact UInt64.toNat_toUInt32 _
  obtain ⟨out, intact', sum⟩ := Proc.Ensures.iterate (saveRawTurn_ensures libraries _) fuel _ s₃ ()
    s' ⟨[], intact, Nat.zero_add _⟩ run
  exact ⟨out, intact', sum.trans total⟩

/-- A raw copy that succeeds is complete exactly if the size has 32 bits. -/
theorem fileSaveRaw_complete_iff {fuel : Nat} {index : Int} {library library' : Library Disk}
    (run : fileSaveRaw libraries.onDisk archive fuel index (some path) library = (.ret (), library')) :
    ∃ fd out, LinkEnd archive.header library index fd ∧ library'.io.store.files path = some out ∧
      Accepted path out library'.io ∧
      (out.length = (storedSize fd).toNat ↔ (storedSize fd).toNat < 2 ^ 32) := by
  obtain ⟨fd, linkEnd, out, file, accepted, length⟩ := saveThroughLinks_eq_ret libraries
    (fun fd disk => ∃ out, disk.store.files path = some out ∧ Accepted path out disk ∧
      out.length = (storedSize fd).toNat % 2 ^ 32)
    (by
      intro fuel index fd io t run
      obtain ⟨out, intact, length⟩ :=
        saveRaw_ensures libraries fuel index _ () t ⟨records_start fd io, rfl⟩ run
      obtain ⟨file, accepted⟩ := intact.closed libraries
      exact ⟨out, file, accepted, length⟩) fuel run
  refine ⟨fd, out, linkEnd, file, accepted, ?_⟩
  rw [length]
  omega

end

/-- A file of one byte, whatever size its descriptor gives. -/
def sizedDescriptor (size : UInt64) : FileDescriptor :=
  { expandedSize := size, compressedSize := size, dataOffset := 84, volume := 1 }

def sizedLibrary (size : UInt64) : Library Disk :=
  libraryWith (sizedDescriptor size)
    (shelfDisk [storedVolume (smallHeader 6) [0x61]] 1 (by decide) room_one_lt)

theorem fileSaveRaw_one_byte :
    ∃ library' fd out,
      fileSaveRaw smallLibraries.onDisk (smallArchive 6) 3 0 (some smallPath) (sizedLibrary 1) =
        (.ret (), library') ∧
      LinkEnd (smallHeader 6) (sizedLibrary 1) 0 fd ∧ library'.io.store.files smallPath = some out ∧
      Accepted smallPath out library'.io ∧
      (out.length = (storedSize fd).toNat ↔ (storedSize fd).toNat < 2 ^ 32) := by
  have run := Proc.run_eq_ret (show (fileSaveRaw smallLibraries.onDisk (smallArchive 6) 3 0
    (some smallPath) (sizedLibrary 1)).1 = .ret () by decide +kernel)
  obtain ⟨fd, out, linkEnd, saved⟩ := fileSaveRaw_complete_iff smallLibraries run
  exact ⟨_, fd, out, run, linkEnd, saved⟩

/-- Of a file of 4 GiB, nothing is written. -/
theorem fileSaveRaw_4_gib :
    ∃ library', fileSaveRaw smallLibraries.onDisk (smallArchive 6) 2 0 (some smallPath)
        (sizedLibrary (2 ^ 32)) = (.ret (), library') ∧
      LinkEnd (smallHeader 6) (sizedLibrary (2 ^ 32)) 0 (sizedDescriptor (2 ^ 32)) ∧
      (storedSize (sizedDescriptor (2 ^ 32))).toNat = 2 ^ 32 ∧
      library'.io.store.files smallPath = some [] :=
  ⟨_, Proc.run_eq_ret (by decide +kernel), .last rfl (by decide), by decide, by decide +kernel⟩

end Unshield
