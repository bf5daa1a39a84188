/-
Module: Unshield.Proofs.DescriptorAssertions
Purpose: When the assertion on the directory of a file fails, and so which cabinets abort the program that
  asks for a file of theirs or saves it.
Trusted boundary: none
Main exports: EntersDirectory, readFileDescriptor_returns_iff, saveThroughLinks_avoids_abort,
  EntersDirectories, never_aborts_iff, noDirectories, noDirectories_aborts
-/
import Unshield.Core.OpenForReading
import Unshield.Proofs.FieldReads
import Unshield.Proofs.GetterStability
import Unshield.Proofs.ReaderExits

namespace Unshield

open Procedure Procedure.Proc

/-! ### Entries -/

section

variable (header : Header)

/-- Where the entry of a file starts: the file table says it, or from version 6 on the number of the file,
as long as an `int` holds the product. -/
def entryStart (index : Int) : Option Nat :=
  if header.OldLayout then
    header.fileTable[(header.cab.directoryCount + UInt32.ofInt index).toNat]?.map fun entry =>
      fileTableStart header + entry.toNat
  else if index * 0x57 ≤ intMax then
    some (fileTableStart header + header.cab.fileTableOffset2.toNat + (index * 0x57).toNat)
  else none

/-- The number of bytes of an entry that are looked at. -/
def entrySize : Nat :=
  if header.OldLayout then if header.majorVersion = 5 then 0x3a else 0x2a else 0x57

/-- Where the number of the directory stands in an entry. -/
def directoryPlace : Nat := if header.OldLayout then 4 else 62

/-- A file has an entry in the header's data, with a directory that there is. -/
def EntersDirectory (index : Int) : Prop :=
  ∃ start, entryStart header index = some start ∧ start + entrySize header ≤ header.data.length ∧
    ∃ directoryIndex, readUint16 header.data (start + directoryPlace header) = some directoryIndex ∧
      directoryIndex.toNat < header.cab.directoryCount.toNat

variable {header} {index : Int}

theorem readUint16_inside {block : Bytes} {p : Nat} {word : UInt16} (read : readUint16 block p = some word) :
    p + 2 ≤ block.length := by
  rw [readUint16] at read
  simp only [Option.bind_eq_bind, Option.bind_eq_some_iff] at read
  obtain ⟨_, _, high, last, _⟩ := read
  exact (List.getElem?_eq_some_iff.1 last).1

theorem readUint16_of_le {block : Bytes} {p : Nat} (inside : p + 2 ≤ block.length) :
    ∃ word, readUint16 block p = some word := by
  rw [readUint16, List.getElem?_eq_getElem (show p < block.length by omega),
    List.getElem?_eq_getElem (show p + 1 < block.length by omega)]
  exact ⟨_, rfl⟩

theorem readUint64_of_le {block : Bytes} {p : Nat} (inside : p + 8 ≤ block.length) :
    ∃ word, readUint64 block p = some word := by
  obtain ⟨high, readHigh⟩ := @readUint32_of_le block (p + 4) (by omega)
  obtain ⟨low, readLow⟩ := @readUint32_of_le block p (by omega)
  rw [readUint64, readHigh, readLow]
  exact ⟨_, rfl⟩

theorem access_bind_ne_abort {α β : Type} {loaded : Option α} {next : α → Exit β}
    (rest : ∀ value, next value ≠ .abort) : (Exit.ofAccess loaded >>= next) ≠ .abort := by
  cases loaded with
  | none => exact nofun
  | some value => exact rest value

theorem assert_eq_ret_iff {condition : Prop} [Decidable condition] :
    Exit.assert condition = .ret () ↔ condition := by
  rw [Exit.assert]
  by_cases holds : condition
  · rw [if_pos holds]
    exact iff_of_true rfl holds
  · rw [if_neg holds]
    exact iff_of_false (Exit.ret_ne_abort ()).symm holds

theorem copyBytes_isSome_iff {block : Bytes} {p size : Nat} :
    (∃ bytes, copyBytes block p size = some bytes) ↔ p + size ≤ block.length := by
  rw [copyBytes]
  split
  · exact iff_of_true ⟨_, rfl⟩ ‹_›
  · exact iff_of_false nofun ‹_›

theorem readFileDescriptorV5_returns_iff (old : header.OldLayout) :
    (∃ fd, readFileDescriptorV5 header index = .ret fd) ↔ EntersDirectory header index := by
  rw [EntersDirectory, entryStart, entrySize, directoryPlace, if_pos old, if_pos old, if_pos old]
  constructor
  · rintro ⟨fd, read⟩
    simp only [readFileDescriptorV5, Exit.bind_eq_ret_iff, Exit.ofAccess_eq_ret_iff] at read
    obtain ⟨entry, listed, _, _, directoryIndex, directory, _, passed, _, _, _, _, _, _, offset, last,
      made⟩ := read
    refine ⟨_, Option.map_eq_some_iff.2 ⟨entry, listed, rfl⟩, ?_, directoryIndex, directory,
      assert_eq_ret_iff.1 passed⟩
    have inside := readUint32_isSome_iff.1 (Option.isSome_iff_exists.2 ⟨offset, last⟩)
    rw [fileTableStart]
    split at made
    · rename_i five
      obtain ⟨md5, digest, _⟩ := Exit.bind_eq_ret_iff.1 made
      have behind := copyBytes_isSome_iff.1 ⟨md5, Exit.ofAccess_eq_ret_iff.1 digest⟩
      rw [if_pos five]
      exact behind
    · rename_i other
      rw [if_neg other]
      exact inside
  · rintro ⟨start, place, inside, directoryIndex, directory, less⟩
    obtain ⟨entry, listed, rfl⟩ := Option.map_eq_some_iff.1 place
    rw [fileTableStart] at inside directory
    generalize start : header.common.cabDescriptorOffset.toNat + header.cab.fileTableOffset.toNat +
      entry.toNat = p at inside directory
    have front : p + 0x2a ≤ header.data.length := by
      split at inside <;> omega
    obtain ⟨name, read1⟩ := @readUint32_of_le header.data p (by omega)
    obtain ⟨flags, read2⟩ := @readUint16_of_le header.data (p + 8) (by omega)
    obtain ⟨expanded, read3⟩ := @readUint32_of_le header.data (p + 10) (by omega)
    obtain ⟨compressed, read4⟩ := @readUint32_of_le header.data (p + 14) (by omega)
    obtain ⟨offset, read5⟩ := @readUint32_of_le header.data (p + 38) (by omega)
    rw [readFileDescriptorV5, listed]
    simp only [Exit.ofAccess_some, Exit.bind_ret, start, read1, directory, read2, read3, read4, read5,
      assert_eq_ret_iff.2 less]
    split
    · rename_i five
      rw [if_pos five] at inside
      obtain ⟨md5, read6⟩ := copyBytes_isSome_iff.2 (show p + 42 + 16 ≤ header.data.length from inside)
      rw [read6]
      exact ⟨_, rfl⟩
    · exact ⟨_, rfl⟩

theorem readFileDescriptorV6_returns_iff (new : ¬ header.OldLayout) :
    (∃ fd, readFileDescriptorV6 header index = .ret fd) ↔ EntersDirectory header index := by
  rw [EntersDirectory, entryStart, entrySize, directoryPlace, if_neg new, if_neg new, if_neg new]
  constructor
  · rintro ⟨fd, read⟩
    simp only [readFileDescriptorV6, Exit.bind_eq_ret_iff, Exit.ofAccess_eq_ret_iff] at read
    obtain ⟨place, product, _, _, _, _, _, _, _, _, _, _, _, _, directoryIndex, directory, _, passed, _, _, _,
      _, _, _, volume, last, _⟩ := read
    have fits : index * 0x57 ≤ intMax := by
      by_contra overflow
      rw [mulInt_of_gt (by omega)] at product
      cases product
    rw [mulInt_of_le fits] at product
    obtain rfl := Exit.ret.inj product
    exact ⟨_, if_pos fits, readUint16_inside last, directoryIndex, directory, assert_eq_ret_iff.1 passed⟩
  · rintro ⟨start, place, inside, directoryIndex, directory, less⟩
    split at place
    · rename_i fits
      obtain rfl := Option.some.inj place
      rw [fileTableStart] at inside directory
      generalize start : header.common.cabDescriptorOffset.toNat + header.cab.fileTableOffset.toNat +
        header.cab.fileTableOffset2.toNat + (index * 0x57).toNat = p at inside directory
      obtain ⟨flags, read1⟩ := @readUint16_of_le header.data p (by omega)
      obtain ⟨expanded, read2⟩ := @readUint64_of_le header.data (p + 2) (by omega)
      obtain ⟨compressed, read3⟩ := @readUint64_of_le header.data (p + 10) (by omega)
      obtain ⟨offset, read4⟩ := @readUint64_of_le header.data (p + 18) (by omega)
      obtain ⟨md5, read5⟩ :=
        copyBytes_isSome_iff.2 (show p + 26 + 16 ≤ header.data.length by omega)
      obtain ⟨name, read6⟩ := @readUint32_of_le header.data (p + 58) (by omega)
      obtain ⟨previous, read7⟩ := @readUint32_of_le header.data (p + 76) (by omega)
      obtain ⟨next, read8⟩ := @readUint32_of_le header.data (p + 80) (by omega)
      have read9 := List.getElem?_eq_getElem (show p + 84 < header.data.length by omega)
      obtain ⟨volume, read10⟩ := @readUint16_of_le header.data (p + 85) (by omega)
      rw [readFileDescriptorV6, mulInt_of_le fits]
      simp only [Exit.ofAccess_some, Exit.bind_ret, start, read1, read2, read3, read4, read5, read6,
        directory, read7, read8, read9, read10, assert_eq_ret_iff.2 less]
      exact ⟨_, rfl⟩
    · cases place

/-- A descriptor is read exactly if the file has an entry with a directory that there is. -/
theorem readFileDescriptor_returns_iff :
    (∃ fd, readFileDescriptor header index = .ret fd) ↔ EntersDirectory header index := by
  rw [readFileDescriptor]
  split
  · exact readFileDescriptorV5_returns_iff ‹_›
  · exact readFileDescriptorV6_returns_iff ‹_›

/-- The directory of a descriptor that has been read is one of the header's. -/
theorem directoryIndex_lt_of_read {fd : FileDescriptor} (read : readFileDescriptor header index = .ret fd) :
    fd.directoryIndex < header.cab.directoryCount := by
  rw [UInt32.lt_iff_toNat_lt]
  rw [readFileDescriptor] at read
  split at read
  · rw [readFileDescriptorV5] at read
    simp only [Exit.bind_eq_ret_iff] at read
    obtain ⟨_, _, _, _, directoryIndex, _, _, passed, _, _, _, _, _, _, _, _, made⟩ := read
    split at made
    · obtain ⟨_, _, made⟩ := Exit.bind_eq_ret_iff.1 made
      obtain rfl := Exit.ret.inj made
      exact assert_eq_ret_iff.1 passed
    · obtain rfl := Exit.ret.inj made
      exact assert_eq_ret_iff.1 passed
  · rw [readFileDescriptorV6] at read
    simp only [Exit.bind_eq_ret_iff] at read
    obtain ⟨_, _, _, _, _, _, _, _, _, _, _, _, _, _, directoryIndex, _, _, passed, _, _, _, _, _, _, _, _,
      made⟩ := read
    obtain rfl := Exit.ret.inj made
    exact assert_eq_ret_iff.1 passed

end

/-! ### Steps without assertions -/

section

variable {σ H : Type} (env : Environment σ H) (header : Header) {archive : Archive}
  {pre : Session σ H → Prop}

theorem readerRead_avoids_abort (size : Nat) : Avoids .abort pre (readerRead env header size) := by
  refine .then_any (.iterate Stop.abort_ne_timeout (fun vars => ?_) _ _) fun buffer => ?_
  · exact readerReadTurn_avoids env header Stop.abort_rare vars
  · exact .then_any (.gets _) fun fd => .ite (fun _ _ _ => nofun) fun _ => .pure _

theorem failWithFileName_avoids_abort {α : Type} :
    Avoids .abort pre (failWithFileName env header : Proc (Session σ H) α) := by
  intro s _
  rcases @failWithFileName_run _ _ env header α s with ⟨_, run⟩ | ⟨_, run⟩ <;>
    rw [run] <;> exact nofun

theorem readOrReport_avoids_abort (size : Nat) : Avoids .abort pre (readOrReport env header size) :=
  .onFailure (readerRead_avoids_abort env header size) (failWithFileName_avoids_abort env header)

theorem readerCreate_avoids_abort (fuel : Nat) (index : Int) :
    Avoids .abort pre (readerCreate env header fuel index) := by
  intro s _
  have loop : Avoids .abort (fun _ => True)
      (Proc.iterate (readerCreateTurn env header index) fuel ()) := by
    refine .iterate Stop.abort_ne_timeout (fun _ => ?_) _ _
    refine .then_any (.gets _) fun fd => ?_
    refine .then_any (readerOpenVolume_avoids env header Stop.abort_rare _) fun _ => ?_
    refine .then_any (.gets _) fun volumeHeader => .ite (fun _ => ?_) fun _ => .pure _
    exact .then_any (.modify _) fun _ => .pure _
  have avoids := loop { s with reader := { index := UInt32.ofInt index } } trivial
  rw [readerCreate]
  split
  · exact Exit.fail_ne_abort
  · exact avoids

theorem uncompressOldLoop_ne_abort (zlib : Zlib) (fuel : Nat) (state : zlib.State) (input : Bytes)
    (availOut : Nat) (output : Bytes) :
    uncompressOldLoop zlib fuel state input availOut output ≠ .abort := by
  induction fuel generalizing state input availOut output with
  | zero => exact nofun
  | succ fuel ih =>
      rw [uncompressOldLoop]
      split
      · refine @Exit.bind_ne_stop _ _ .abort _ _ (inflateInto_ne_stop Stop.abort_rare zlib _ _ _ _)
          fun inflated _ => ?_
        split
        · exact nofun
        · exact ih _ _ _ _
      · exact nofun

theorem uncompressOld_ne_abort (zlib : Zlib) (fuel destLen : Nat) (source : Bytes) :
    uncompressOld zlib fuel destLen source ≠ .abort := by
  rw [uncompressOld]
  rcases zlib.inflateInit2 with ⟨err, state⟩
  show (if _ then _ else _) ≠ _
  split
  · exact nofun
  · exact uncompressOldLoop_ne_abort zlib fuel state _ _ _

theorem memchr_ne_abort (buffer : Block) (byte : UInt8) (p n : Nat) : memchr buffer byte p n ≠ .abort := by
  induction n generalizing p with
  | zero => exact nofun
  | succ n ih =>
      refine access_bind_ne_abort fun loaded => ?_
      split
      · exact nofun
      · exact ih _

theorem findBytes_ne_abort (buffer : Block) (pattern : Bytes) (p bufferLeft : Nat) :
    findBytes buffer pattern p bufferLeft ≠ .abort := by
  induction bufferLeft generalizing p with
  | zero => exact nofun
  | succ bufferLeft ih =>
      refine @Exit.bind_ne_stop _ _ .abort _ _ (memchr_ne_abort buffer _ _ _) fun found _ => ?_
      cases found with
      | none => exact nofun
      | some p =>
          show (if _ then _ else _) ≠ _
          split
          · exact nofun
          · refine access_bind_ne_abort fun candidate => ?_
            split
            · exact nofun
            · exact ih _

theorem skipMarkers_ne_abort (buffer : Block) (chunkBuffer inputSize fuel chunkSize : Nat) :
    skipMarkers buffer chunkBuffer inputSize fuel chunkSize ≠ .abort := by
  induction fuel generalizing chunkSize with
  | zero => exact nofun
  | succ fuel ih =>
      rw [skipMarkers]
      split
      · refine access_bind_ne_abort fun next => ?_
        split
        · refine @Exit.bind_ne_stop _ _ .abort _ _ (findBytes_ne_abort buffer _ _ _) fun found _ => ?_
          cases found with
          | none => exact nofun
          | some p => exact ih _
        · exact nofun
      · exact nofun

theorem chunkSize_ne_abort (buffer : Block) (chunkBuffer inputSize : Nat) :
    chunkSize buffer chunkBuffer inputSize ≠ .abort := by
  refine @Exit.bind_ne_stop _ _ .abort _ _ (findBytes_ne_abort buffer _ _ _) fun found _ => ?_
  cases found with
  | none => exact nofun
  | some p => exact skipMarkers_ne_abort buffer _ _ _ _

/-! ### Saving -/

theorem saveData_avoids_abort (fd : FileDescriptor) (bytesLeft : UInt32) (outputBuffer : Block) :
    Avoids .abort pre (saveData env archive fd bytesLeft outputBuffer) := by
  refine .ite (fun _ => ?_) fun _ => ?_
  · refine .then_any (readOrReport_avoids_abort env _ 2) fun _ => ?_
    refine .then_any (.access Stop.abort_rare _) fun _ => .then_any (.require Stop.abort_rare _) fun _ => ?_
    refine .then_any (readOrReport_avoids_abort env _ _) fun chunk => ?_
    refine .then_any (.ofExit (uncompress_ne_stop Stop.abort_rare _ _ _)) fun _ => ?_
    refine .then_any (.access Stop.abort_rare _) fun _ => ?_
    exact .then_any (.require Stop.abort_rare _) fun _ => .pure _
  · refine .then_any (readerRead_avoids_abort env _ _) fun _ => ?_
    exact .then_any (.access Stop.abort_rare _) fun _ => .pure _

theorem saveNew_avoids_abort (filename : Option Bytes) (fuel : Nat) (index : Int) :
    Avoids .abort pre (saveNew env archive filename fuel index) := by
  refine .then_any (readerCreate_avoids_abort env _ fuel index) fun _ => ?_
  refine .then_any (fsizeVolume_avoids env Stop.abort_rare) fun size => .then_any (.gets _) fun fd => ?_
  refine .then_any (.require Stop.abort_rare _) fun _ => ?_
  refine .then_any (fopenOutput_avoids env Stop.abort_rare filename) fun _ => ?_
  refine .then_any (.iterate Stop.abort_ne_timeout (fun vars => ?_) _ _) fun vars => ?_
  · refine .ite (fun _ => .pure _) fun _ => .then_any (.gets _) fun fd => ?_
    refine .then_any (saveData_avoids_abort env fd _ _) fun _ => ?_
    refine .then_any (.access Stop.abort_rare _) fun data => ?_
    exact .then_any (fwriteOutput_avoids env Stop.abort_rare data) fun _ => .pure _
  · refine .then_any (.gets _) fun fd => .then_any (.require Stop.abort_rare _) fun _ => ?_
    exact .ite (fun _ => .onFailure (.require Stop.abort_rare _) (failWithFileName_avoids_abort env _))
      fun _ => .pure _

theorem saveRaw_avoids_abort (filename : Option Bytes) (fuel : Nat) (index : Int) :
    Avoids .abort pre (saveRaw env archive filename fuel index) := by
  refine .then_any (readerCreate_avoids_abort env _ fuel index) fun _ => ?_
  refine .then_any (fsizeVolume_avoids env Stop.abort_rare) fun size => .then_any (.gets _) fun fd => ?_
  refine .then_any (.require Stop.abort_rare _) fun _ => ?_
  refine .then_any (fopenOutput_avoids env Stop.abort_rare filename) fun _ => ?_
  refine .iterate Stop.abort_ne_timeout (fun bytesLeft => ?_) _ _
  refine .ite (fun _ => .pure _) fun _ => .then_any (readerRead_avoids_abort env _ _) fun data => ?_
  exact .then_any (fwriteOutput_avoids env Stop.abort_rare data) fun _ => .pure _

theorem chunkTurn_avoids_abort (fuel : Nat) (vars : ChunkVars) :
    Avoids .abort pre (chunkTurn env archive fuel vars) := by
  refine .ite (fun _ => .pure _) fun _ => ?_
  refine .then_any (.ofExit (chunkSize_ne_abort _ _ _)) fun chunkSize => ?_
  cases chunkSize with
  | none => exact failWithFileName_avoids_abort env _
  | some chunkSize =>
      refine .then_any (.access Stop.abort_rare _) fun _ => ?_
      refine .then_any (.access Stop.abort_rare _) fun source => ?_
      refine .then_any (.ofExit (uncompressOld_ne_abort _ _ _ _)) fun result => ?_
      refine .then_any (.require Stop.abort_rare _) fun _ => ?_
      exact .then_any (fwriteOutput_avoids env Stop.abort_rare _) fun _ => .pure _

theorem saveOldTurn_avoids_abort (fuel : Nat) (vars : SaveOldVars) :
    Avoids .abort pre (saveOldTurn env archive fuel vars) := by
  refine .ite (fun _ => .pure _) fun _ => ?_
  refine .then_any (.then_any (.gets _) fun _ => .ite (fun _ => ?_) fun _ => .pure _) fun _ => ?_
  · exact .then_any (.gets _) fun volume => readerOpenVolume_avoids env _ Stop.abort_rare _
  · refine .then_any (.gets _) fun fd => .then_any (.ite (fun _ => ?_) fun _ => ?_) fun _ => .pure _
    · refine .then_any (.gets _) fun _ => .then_any (readOrReport_avoids_abort env _ _) fun data => ?_
      refine .then_any (.access Stop.abort_rare _) fun inputBuffer => ?_
      exact .iterate Stop.abort_ne_timeout (fun vars => chunkTurn_avoids_abort env fuel vars) _ _
    · refine .then_any (readerRead_avoids_abort env _ _) fun data => ?_
      exact .then_any (fwriteOutput_avoids env Stop.abort_rare data) fun _ => .pure _

/-- The pattern that opening a cabinet stores is not long enough for the assertion on the directory that
volumes are looked for in. -/
theorem getBaseDirectoryName_ne_abort {pathMax : Nat} (posix : 256 ≤ pathMax) (path : Bytes) :
    getBaseDirectoryName pathMax (createFilenamePattern path) ≠ .abort := by
  have short : (createFilenamePattern path).length ≤ 255 := List.length_take_le _ _
  rw [getBaseDirectoryName]
  split
  · have shorter :
        ((createFilenamePattern path).reverse.dropWhile (· ≠ slash)).tail.reverse.length ≤ 255 := by
      rw [List.length_reverse, List.length_tail]
      have suffix := (List.dropWhile_suffix (l := (createFilenamePattern path).reverse) (· ≠ slash)).length_le
      rw [List.length_reverse] at suffix
      omega
    have passes := assert_eq_ret_iff.2 (Nat.lt_of_le_of_lt shorter (Nat.lt_of_lt_of_le (by decide) posix))
    show (Exit.assert _ >>= _) ≠ _
    rw [passes]
    exact nofun
  · exact nofun

theorem externalPath_ne_abort (posix : 256 ≤ env.pathMax) {path : Bytes}
    (stored : archive.filenamePattern = createFilenamePattern path) (fd : FileDescriptor) :
    externalPath env archive fd ≠ .abort := by
  refine @Exit.bind_ne_stop _ _ .abort _ _ (getUtf8String_ne_stop _ Stop.abort_rare _ _) fun name _ => ?_
  refine @Exit.bind_ne_stop _ _ .abort _ _ (directoryName_ne_stop _ Stop.abort_rare _ _)
    fun directory _ => ?_
  rw [stored]
  exact @Exit.bind_ne_stop _ _ .abort _ _ (getBaseDirectoryName_ne_abort posix path) fun base _ => nofun

theorem completeMarker_avoids_abort (fuel diff : Nat) : Avoids .abort pre (completeMarker env fuel diff) := by
  refine .then_any ?_ fun temporary => .then_any ?_ fun _ => .modify _
  · intro s _
    dsimp only
    split
    · exact Exit.fault_ne_abort
    · exact Exit.ret_ne_abort _
  · refine .iterate Stop.abort_ne_timeout (fun outfile s _ => ?_) _ _
    rw [copyTurn]
    split
    · exact Exit.fault_ne_abort
    · dsimp only
      split
      · exact Exit.ret_ne_abort _
      · exact Exit.ret_ne_abort _

theorem saveOld_avoids_abort (posix : 256 ≤ env.pathMax) {path : Bytes}
    (stored : archive.filenamePattern = createFilenamePattern path) (filename : Option Bytes) (fuel : Nat)
    (index : Int) : Avoids .abort pre (saveOld env archive filename fuel index) := by
  have external : Avoids .abort (fun _ => True) (openExternal env archive fuel) := by
    refine .then_any (.gets _) fun fd => ?_
    refine .then_any (.ofExit (externalPath_ne_abort env posix stored fd)) fun file => ?_
    refine .then_any (fun s _ => ?_) fun _ => .ite (fun _ => ?_) fun _ => .modify _
    · rw [fopenExternal]
      dsimp only
      split
      · exact Exit.ret_ne_abort _
      · exact Exit.fail_ne_abort
    · refine .then_any (fsizeVolume_avoids env Stop.abort_rare) fun size => ?_
      refine .ite (fun _ => ?_) fun _ => .modify _
      exact .then_any (completeMarker_avoids_abort env fuel _) fun _ => .modify _
  refine .then_any ?_ fun _ => .then_any (fopenOutput_avoids env Stop.abort_rare filename) fun _ => ?_
  · refine .then_any (readerCreate_avoids_abort env _ fuel index) fun _ => ?_
    refine .then_any (fsizeVolume_avoids env Stop.abort_rare) fun size => .then_any (.gets _) fun fd => ?_
    refine .ite (fun _ => .then_any (fcloseVolume_avoids env) fun _ s _ => ?_) fun _ => .pure _
    have avoids := external { s with reader := { index := UInt32.ofInt index } } trivial
    rw [readerCreateExternal]
    split
    · exact Exit.fail_ne_abort
    · exact avoids
  · refine .then_any (.gets _) fun fd => ?_
    refine .then_any (.iterate Stop.abort_ne_timeout (fun vars => ?_) _ _) fun vars => ?_
    · exact saveOldTurn_avoids_abort env fuel vars
    · exact .then_any (.gets _) fun fd => .require Stop.abort_rare _

end

/-! ### Calls -/

section

variable {σ H : Type} {env : Environment σ H} {archive : Archive} {library : Library σ}

/-- Every file has an entry in the header's data, with a directory that there is. -/
def EntersDirectories (header : Header) : Prop :=
  ∀ index, ValidIndex header index → EntersDirectory header index

/-- Then its descriptor is there whatever has been decoded before. -/
theorem getFileDescriptor_returns (enters : EntersDirectories archive.header) {index : Int}
    (valid : ValidIndex archive.header index) (library : Library σ) :
    ∃ fd, (getFileDescriptor archive.header index library).1 = .ret fd := by
  rw [getFileDescriptor_exit, descriptorAt, if_pos valid]
  split
  · exact ⟨_, rfl⟩
  · exact readFileDescriptor_returns_iff.2 (enters index valid)

theorem getFileDescriptor_avoids_abort (enters : EntersDirectories archive.header) (index : Int) :
    Avoids .abort (fun _ : Library σ => True) (getFileDescriptor archive.header index) := by
  intro library _
  by_cases valid : ValidIndex archive.header index
  · obtain ⟨fd, got⟩ := getFileDescriptor_returns enters valid library
    rw [got]
    exact Exit.ret_ne_abort fd
  · rw [getFileDescriptor_exit, descriptorAt, if_neg valid]
    exact Exit.fail_ne_abort

/-- A save follows links to files of the same cabinet only. -/
theorem saveThroughLinks_avoids_abort (enters : EntersDirectories archive.header)
    {save : Nat → Int → Proc (Session σ H) Unit}
    (avoids : ∀ fuel index, Avoids .abort (fun _ => True) (save fuel index)) (fuel : Nat) (index : Int) :
    Avoids .abort (fun _ => True) (saveThroughLinks env archive save fuel index) := by
  induction fuel generalizing index with
  | zero => exact fun _ _ => Exit.timeout_ne_abort
  | succ fuel ih =>
      refine .then_any (getFileDescriptor_avoids_abort enters index) fun fd => ?_
      refine .then_any (.require Stop.abort_rare _) fun _ => .ite (fun _ => ih _) fun _ library _ => ?_
      have session := avoids fuel index
        { reader := { index := 0 }, fileDescriptor := fd, io := library.io } trivial
      rw [runSession]
      split
      · exact Exit.ret_ne_abort _
      · exact Exit.fail_ne_abort
      · rename_i exit s _ _ run
        rw [run] at session
        exact session

theorem ask_ne_abort {α : Type} {answer : Option FileDescriptor → Exit α} {index : Int}
    (enters : EntersDirectories archive.header) (unknown : answer none ≠ .abort)
    (known : ∀ fd, descriptorAt archive.header library.fileDescriptors index = .ret fd →
      answer (some fd) ≠ .abort) : (Calls.ask archive answer index library).1 ≠ .abort := by
  have found := getFileDescriptor_avoids_abort enters index library trivial
  rw [getFileDescriptor_exit] at found
  rw [ask_exit]
  cases descriptor : descriptorAt archive.header library.fileDescriptors index with
  | ret fd => exact known fd descriptor
  | fail => exact unknown
  | abort => exact absurd descriptor found
  | fault => exact nofun
  | timeout => exact nofun

/-- The directory of a descriptor that a call gets is one of the header's, after whatever calls. -/
theorem Remembers.directoryIndex_lt {K : σ → Prop} {saved : Prop} {index : Int} {fd : FileDescriptor}
    (remembers : Remembers env archive.header K saved library)
    (got : Unshield.descriptorAt archive.header library.fileDescriptors index = .ret fd) :
    fd.directoryIndex < archive.header.cab.directoryCount := by
  have decoded_lt : ∀ {decoded}, Unshield.descriptorAt archive.header (fun _ => none) index = .ret decoded →
      decoded.directoryIndex < archive.header.cab.directoryCount := by
    intro decoded found
    rw [Unshield.descriptorAt] at found
    split at found
    · exact directoryIndex_lt_of_read found
    · cases found
  rcases remembers.descriptorAt index with same | ⟨decoded, fd', found, got', seen⟩
  · exact decoded_lt (same.symm.trans got)
  · obtain rfl := Exit.ret.inj (got'.symm.trans got)
    have lt := decoded_lt found
    rcases seen.upToSearch with same | marked
    · rw [same]
      exact lt
    · rw [marked]
      exact lt

end

/-- On an opened cabinet the descriptor of every file is read and no call of a file function fails an
assertion, whatever calls were made before, exactly if every file has an entry in the header's data with a
directory of the cabinet. -/
theorem never_aborts_iff {σ H : Type} (env : Environment σ H) (posix : 256 ≤ env.pathMax) (archive : Archive)
    {path : Bytes} (stored : archive.filenamePattern = createFilenamePattern path) (io : σ) :
    (∀ calls library, FileRun env archive (fun _ _ => True) { fileDescriptors := fun _ => none, io } calls
        library →
      ∀ index, ValidIndex archive.header index → ∀ fuel filename,
        (∃ fd, (getFileDescriptor archive.header index library).1 = .ret fd) ∧
        (Calls.fileIsValid archive index library).1 ≠ .abort ∧
        (Calls.fileName env archive index library).1 ≠ .abort ∧
        (Calls.fileDirectory archive index library).1 ≠ .abort ∧
        (fileSave env archive fuel index filename library).1 ≠ .abort ∧
        (fileSaveRaw env archive fuel index filename library).1 ≠ .abort ∧
        (fileSaveOld env archive fuel index filename library).1 ≠ .abort) ↔
      EntersDirectories archive.header := by
  constructor
  · intro never index valid
    obtain ⟨fd, got⟩ := (never [] _ .start index valid 0 none).1
    rw [getFileDescriptor_exit, descriptorAt, if_pos valid] at got
    exact readFileDescriptor_returns_iff.1 ⟨fd, got⟩
  · intro enters calls library run index valid fuel filename
    have remembers := remembers_of_fileRun (kept_trivial env) rfl trivial run
    refine ⟨getFileDescriptor_returns enters valid library, ?_, ?_, ?_, ?_, ?_, ?_⟩
    · rw [Calls.fileIsValid, if_pos valid]
      exact ask_ne_abort enters (Exit.ret_ne_abort _) fun fd _ => Exit.ret_ne_abort _
    · refine ask_ne_abort enters (Exit.ret_ne_abort _) fun fd _ => ?_
      exact Exit.bind_ne_stop (getUtf8String_ne_stop _ Stop.abort_rare _ _) fun _ _ => Exit.ret_ne_abort _
    · refine ask_ne_abort enters (Exit.ret_ne_abort _) fun fd got => ?_
      show (Exit.assert _ >>= _) ≠ _
      rw [assert_eq_ret_iff.2 (remembers.directoryIndex_lt got)]
      exact Exit.ret_ne_abort _
    · exact saveThroughLinks_avoids_abort enters
        (fun fuel index => saveNew_avoids_abort env filename fuel index) fuel index library trivial
    · exact saveThroughLinks_avoids_abort enters
        (fun fuel index => saveRaw_avoids_abort env filename fuel index) fuel index library trivial
    · exact saveThroughLinks_avoids_abort enters
        (fun fuel index => saveOld_avoids_abort env posix stored filename fuel index) fuel index library
        trivial

/-- A header of version 5 with one file and no directory. -/
def noDirectories : Header where
  index := 1
  data := words [cabSignature, 0x01005000, 0, 0x10, 1, 0, 0, 0x276, 0, 0, 0, 0, 0, 0, 1] ++
    (List.replicate 586 0 ++ words [4, 0x2a] ++ List.replicate 54 0)
  majorVersion := 5
  common := { signature := cabSignature, version := 0x01005000, volumeInfo := 0, cabDescriptorOffset := 0x10,
              cabDescriptorSize := 1 }
  cab := { fileTableOffset := 0x276, directoryCount := 0, fileCount := 1, fileTableOffset2 := 0 }
  fileTable := [4]

/-- The cabinet of that header, opened by `test.cab`. -/
def noDirectoriesArchive : Archive where
  header := noDirectories
  filenamePattern := createFilenamePattern [0x74, 0x65, 0x73, 0x74, dot, 0x63, 0x61, 0x62]

/-- The library when it has been opened. -/
def noDirectoriesLibrary : Library Disk where
  fileDescriptors := fun _ => none
  io := shelfDisk [] 0 no_volume_lt room_zero_lt

theorem never_aborts_iff_noDirectories :
    (∀ calls library, FileRun smallLibraries.onDisk noDirectoriesArchive (fun _ _ => True)
        noDirectoriesLibrary calls library →
      ∀ index, ValidIndex noDirectories index → ∀ fuel filename,
        (∃ fd, (getFileDescriptor noDirectories index library).1 = .ret fd) ∧
        (Calls.fileIsValid noDirectoriesArchive index library).1 ≠ .abort ∧
        (Calls.fileName smallLibraries.onDisk noDirectoriesArchive index library).1 ≠ .abort ∧
        (Calls.fileDirectory noDirectoriesArchive index library).1 ≠ .abort ∧
        (fileSave smallLibraries.onDisk noDirectoriesArchive fuel index filename library).1 ≠ .abort ∧
        (fileSaveRaw smallLibraries.onDisk noDirectoriesArchive fuel index filename library).1 ≠ .abort ∧
        (fileSaveOld smallLibraries.onDisk noDirectoriesArchive fuel index filename library).1 ≠ .abort) ↔
      EntersDirectories noDirectories :=
  never_aborts_iff smallLibraries.onDisk (by decide) noDirectoriesArchive rfl _

theorem noDirectories_zeros : noDirectories.data =
    words [cabSignature, 0x01005000, 0, 0x10, 1, 0, 0, 0x276, 0, 0, 0, 0, 0, 0, 1] ++ List.replicate 586 0 ++
      (words [4, 0x2a] ++ List.replicate 54 0) := by
  show words _ ++ (List.replicate 586 0 ++ words _ ++ List.replicate 54 0) = _
  rw [List.append_assoc, List.append_assoc]

theorem noDirectories_parsed : parseHeader false 1 (-1) 1 noDirectories.data =
    .ret { header := noDirectories, components := [], fileGroups := [] } :=
  @parseHeader_zeros _ _ _ _ 0 _ _ _ noDirectories.common noDirectories.cab _ noDirectories_zeros
    (by decide +kernel) (by decide) (by decide) (by decide) (by decide +kernel) (by decide +kernel)
    (by decide +kernel) (by decide +kernel) (by decide +kernel)

/-- The header is accepted, and every call that asks for its file aborts. -/
theorem noDirectories_aborts :
    parseHeader false 1 (-1) 1 noDirectories.data =
        .ret { header := noDirectories, components := [], fileGroups := [] } ∧
      ValidIndex noDirectories 0 ∧
      (Calls.fileIsValid noDirectoriesArchive 0 noDirectoriesLibrary).1 = .abort ∧
      (Calls.fileName smallLibraries.onDisk noDirectoriesArchive 0 noDirectoriesLibrary).1 = .abort ∧
      (Calls.fileDirectory noDirectoriesArchive 0 noDirectoriesLibrary).1 = .abort ∧
      (fileSave smallLibraries.onDisk noDirectoriesArchive 1 0 none noDirectoriesLibrary).1 = .abort :=
  ⟨noDirectories_parsed, by decide +kernel⟩

end Unshield
