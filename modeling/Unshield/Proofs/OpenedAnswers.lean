/-
Module: Unshield.Proofs.OpenedAnswers
Purpose: From the header on the disk to the answers of the library: a cabinet whose header was encoded
  from a catalogue is opened, and after any calls on its files the questions about a file are answered
  as the catalogue says.
Trusted boundary: none
Main exports: entryAt, Answers, answers_of_isCatalogue, fileGroupFind_of_isGroup, readHeaders_encode,
  openCabinet_answers
-/
import Unshield.Proofs.GetterStability
import Unshield.Proofs.HeaderLists
import Unshield.Proofs.HeaderRoundTrip

namespace Unshield

open Procedure
open LinkedNodes (Linked)

/-! ### Files -/

/-- The file with an index that a caller may give. -/
def entryAt (catalogue : Catalogue) (index : Int) : Option FileEntry :=
  if 0 ≤ index then catalogue.files[index.toNat]? else none

/-- The questions about an index are answered as the entry says, or as for no file. -/
structure Answers {σ H : Type} (env : Environment σ H) (archive : Archive) (library : Library σ)
    (index : Int) (entry : Option FileEntry) : Prop where
  name : (Calls.fileName env archive index library).1 = .ret (entry.map FileEntry.name)
  isValid : (Calls.fileIsValid archive index library).1 =
    .ret (entry.any fun entry => decide (entry.flags &&& fileInvalid = 0 ∧ entry.dataOffset ≠ 0))
  directory : (Calls.fileDirectory archive index library).1 =
    .ret (entry.elim (-1) fun entry => (entry.directory.toNat : Int))
  size : (Calls.fileSize archive index library).1 = .ret (entry.elim 0 FileEntry.expandedSize)
  sizeCompressed : (Calls.fileSizeCompressed archive index library).1 =
    .ret (entry.elim 0 FileEntry.compressedSize)
  flags : (Calls.fileFlagsRaw archive index library).1 = .ret (entry.elim 0 FileEntry.flags) ∨
    archive.header.majorVersion = 5 ∧ (Calls.fileFlagsRaw archive index library).1 =
      .ret (entry.elim 0 fun entry => entry.flags ||| fileSplit)

section

variable {σ H : Type} {env : Environment σ H} {archive : Archive} {library : Library σ} {index : Int}

theorem answers_of_invalid (invalid : ¬ ValidIndex archive.header index) :
    Answers env archive library index none := by
  have nothing : descriptorAt archive.header library.fileDescriptors index = .fail := if_neg invalid
  have asked {α : Type} (answer : Option FileDescriptor → Exit α) :
      (Calls.ask archive answer index library).1 = answer none := by
    rw [ask_exit, nothing, answerTo]
  refine ⟨asked _, ?_, asked _, asked _, asked _, .inl (asked _)⟩
  rw [Calls.fileIsValid, if_neg invalid]
  rfl

/-- What a call gets is the descriptor of the entry, but for its volume and for the mark of a split file. -/
theorem answers_of_descriptor {directories : List Bytes} {entry : FileEntry} {decoded fd : FileDescriptor}
    (valid : ValidIndex archive.header index)
    (is : IsFile env.bigEndian archive.header directories decoded entry)
    (directory : entry.directory.toNat < archive.header.cab.directoryCount.toNat)
    (found : descriptorAt archive.header library.fileDescriptors index = .ret fd)
    (search : UpToSearch decoded fd)
    (marked : fd.flags ≠ decoded.flags → archive.header.majorVersion = 5) :
    Answers env archive library index (some entry) := by
  have asked {α : Type} (answer : Option FileDescriptor → Exit α) :
      (Calls.ask archive answer index library).1 = answer (some fd) := by
    rw [ask_exit, found, answerTo]
  have record : SameRecord decoded fd := search.sameRecord
  have same_name : fd.nameOffset = decoded.nameOffset := by rw [record]
  have same_directory : fd.directoryIndex = entry.directory.toUInt32 := by
    rw [record, is.fields, FileEntry.descriptor]
    split_ifs <;> rfl
  have decoded_flags : decoded.flags = entry.flags := by
    rw [is.fields, FileEntry.descriptor]
    split_ifs <;> rfl
  refine ⟨?_, ?_, ?_, ?_, ?_, ?_⟩
  · have name := is.name
    rw [fileName, ← same_name, ← fileName] at name
    rw [Calls.fileName, asked, fileNameOf, name]
    rfl
  · rw [Calls.fileIsValid, if_pos valid, asked, isValidOf_upToSearch search, Calls.isValidOf]
    have offset : decoded.dataOffset = entry.dataOffset := by
      rw [is.fields, FileEntry.descriptor]
      split_ifs <;> rfl
    simp only [FileDescriptor.Has, decoded_flags, offset, is.name_ne, ne_eq, not_not, not_false_eq_true,
      true_and]
    rfl
  · have inside : fd.directoryIndex < archive.header.cab.directoryCount := by
      rw [same_directory, UInt32.lt_iff_toNat_lt, UInt16.toNat_toUInt32]
      exact directory
    have small := entry.directory.toNat_lt
    rw [Calls.fileDirectory, asked, Unshield.fileDirectory, Exit.assert, if_pos inside, Exit.bind_ret,
      Exit.pure_eq, same_directory,
      Bits.toInt32_toInt_of_lt (by rw [UInt16.toNat_toUInt32]; omega), UInt16.toNat_toUInt32]
    rfl
  · have size : fd.expandedSize = entry.expandedSize := by
      rw [record, is.fields, FileEntry.descriptor]
      split_ifs <;> rfl
    rw [Calls.fileSize, asked]
    exact congrArg Exit.ret size
  · have size : fd.compressedSize = entry.compressedSize := by
      rw [record, is.fields, FileEntry.descriptor]
      split_ifs <;> rfl
    rw [Calls.fileSizeCompressed, asked]
    exact congrArg Exit.ret size
  · rw [Calls.fileFlagsRaw, asked]
    show Exit.ret fd.flags = Exit.ret entry.flags ∨
      _ ∧ Exit.ret fd.flags = Exit.ret (entry.flags ||| fileSplit)
    rw [← decoded_flags]
    by_cases unmarked : fd.flags = decoded.flags
    · exact .inl (congrArg Exit.ret unmarked)
    · refine .inr ⟨marked unmarked, congrArg Exit.ret ?_⟩
      rcases search with same | split
      · exact absurd (by rw [same]) unmarked
      · rw [split]

end

/-! ### File groups -/

/-- The file group that is found under a name is the first one of that name in the catalogue. -/
theorem fileGroupFind_of_isGroup {archive : Archive} (name : Bytes) {fileGroups : List FileGroup}
    {entries : List GroupEntry} (are : List.Forall₂ (IsGroup archive.header) fileGroups entries) :
    ∃ found, fileGroupFind archive name fileGroups = .ret found ∧
      Option.Rel (IsGroup archive.header) found (entries.find? fun entry => entry.name = name) := by
  induction are with
  | nil => exact ⟨none, rfl, .none⟩
  | @cons fileGroup entry fileGroups entries is _ ih =>
      have text : fileGroup.name.text archive.header = .ret (some entry.name) := is.name
      rw [fileGroupFind, text, Exit.bind_ret]
      by_cases same : entry.name = name
      · rw [List.find?_cons_of_pos (by exact decide_eq_true same)]
        exact ⟨some fileGroup, if_pos same, .some is⟩
      · rw [List.find?_cons_of_neg (by simpa using same)]
        simp only [if_neg same]
        exact ih

/-! ### The cabinet -/

section

variable {σ H : Type} {env : Environment σ H} {archive : Archive} {start library : Library σ}
  {calls : List FileCall} {catalogue : Catalogue}

/-- After any calls on the files of a cabinet that says what the catalogue does. -/
theorem answers_of_isCatalogue {opened : OpenedHeader} (is : IsCatalogue env.bigEndian opened catalogue)
    (few : catalogue.files.length < 2 ^ 31)
    (directories : ∀ file ∈ catalogue.files, file.directory.toNat < catalogue.directories.length)
    (same : archive.header = opened.header) (opening : start.fileDescriptors = fun _ => none)
    (run : FileRun env archive (fun _ _ => True) start calls library) (index : Int) :
    Answers env archive library index (entryAt catalogue index) := by
  have count : archive.header.cab.fileCount.toInt32.toInt = catalogue.files.length := by
    rw [same, Bits.toInt32_toInt_of_lt (by rw [is.fileCount]; exact few), is.fileCount]
  by_cases valid : ValidIndex archive.header index
  · have ⟨low, high⟩ := valid
    rw [count] at high
    have within : index.toNat < catalogue.files.length := by omega
    have here := List.getElem?_eq_getElem within
    obtain ⟨decoded, read, isFile⟩ := is.files index.toNat _ here
    rw [Int.toNat_of_nonneg low, ← same] at read
    rw [← same] at isFile
    have fresh : descriptorAt archive.header (fun _ => none) index = .ret decoded := by
      rw [descriptorAt, if_pos valid]
      exact read
    have directory : catalogue.files[index.toNat].directory.toNat <
        archive.header.cab.directoryCount.toNat := by
      rw [same, is.directoryCount]
      exact directories _ (List.getElem_mem within)
    have remembers := remembers_of_fileRun (kept_trivial env) opening trivial run
    rw [entryAt, if_pos low, here]
    rcases remembers.descriptorAt index with unchanged | ⟨decoded', fd, reads, found, seen⟩
    · exact answers_of_descriptor valid isFile directory (unchanged.trans fresh) (.inl rfl)
        fun other => absurd rfl other
    · obtain rfl := Exit.ret.inj (reads.symm.trans fresh)
      refine answers_of_descriptor valid isFile directory found seen.upToSearch fun other => ?_
      rcases seen with unmarked | ⟨_, detectable, _⟩
      · exact absurd (by rw [unmarked]) other
      · exact detectable.majorVersion
  · have nothing : entryAt catalogue index = none := by
      rw [ValidIndex, count] at valid
      rw [entryAt]
      split_ifs with low
      · exact List.getElem?_eq_none (by omega)
      · rfl
    rw [nothing]
    exact answers_of_invalid valid

end

section

variable {libraries : Libraries} {major version : Int} {catalogue : Catalogue} {headers : HeaderFiles}
  {fuel : Nat}

/-- A cabinet whose header was encoded from a catalogue is opened, with one header that says what the
catalogue does. -/
theorem readHeaders_encode (sound : catalogue.Sound major) (order : 17 ≤ major → libraries.bigEndian = false)
    (asked : majorVersionOf version catalogue.common = major)
    (written : headers.content 1 = some (catalogue.encode major)) (turns : 0 < fuel)
    (enoughGroups : ∀ bucket ∈ catalogue.fileGroups, bucket.length < fuel)
    (enoughComponents : ∀ bucket ∈ catalogue.components, bucket.length < fuel) (disk : Disk) :
    ∃ opened s, readHeaders (libraries.opening headers) fuel version { io := disk } = (.ret (), s) ∧
      Linked s.list.nodes s.list.headerList [opened] ∧ s.io.store = disk.store ∧
      opened.header = catalogue.header major 1 ∧ IsCatalogue libraries.bigEndian opened catalogue := by
  obtain ⟨opened, same, is, parsed⟩ := parseHeader_encode sound order asked 1
  have long : ¬ (catalogue.encode major).length < 4 := by
    rw [sound.length_encode, commonHeaderSize]
    omega
  have good : headerOf libraries.bigEndian fuel version 1 (catalogue.encode major) = .ret opened := by
    rw [headerOf, if_neg long]
    exact parsed fuel enoughGroups enoughComponents
  have all : HeaderRun libraries.bigEndian fuel version headers disk.store.cabinets 1 [opened] :=
    .hdr written good
  obtain ⟨more, rfl⟩ : ∃ more, fuel = more + 1 := ⟨fuel - 1, by omega⟩
  obtain ⟨s, linked, store⟩ := @linkHeader_of_good libraries headers (more + 1) version 1
    (catalogue.encode major) opened (headers.content_lt 1 _ written) good true { io := disk }
  have run : readHeaders (libraries.opening headers) (more + 1) version { io := disk } = (.ret (), s) :=
    Proc.iterate_succ_of_done ((readHeadersTurn_of_hdr written _).trans linked)
  refine ⟨opened, s, run, ?_, store, same, is⟩
  obtain ⟨_, other, list⟩ := readHeaders_run (more + 1) run
  obtain rfl := all.unique other
  rw [list]
  exact (HeaderList.linked_foldl_iff [opened]).2 (Nat.le_succ 1)

end

/-- A cabinet whose header says what a catalogue does can be opened, and its only header has the file groups
and components of the catalogue.  Under each name the first file group with it is found, and however the
files are saved and asked about in between, every question about a file is answered by the catalogue. -/
theorem openCabinet_answers {libraries : Libraries} {major version : Int} {catalogue : Catalogue}
    (sound : catalogue.Sound major) (order : 17 ≤ major → libraries.bigEndian = false)
    (asked : majorVersionOf version catalogue.common = major) {headers : HeaderFiles}
    (written : headers.content 1 = some (catalogue.encode major)) {fuel : Nat} (turns : 1 < fuel)
    (enoughGroups : ∀ bucket ∈ catalogue.fileGroups, bucket.length < fuel)
    (enoughComponents : ∀ bucket ∈ catalogue.components, bucket.length < fuel) (disk : Disk) :
    ∃ opened s, readHeaders (libraries.opening headers) fuel version { io := disk } = (.ret (), s) ∧
      Linked s.list.nodes s.list.headerList [opened] ∧
      IsCatalogue libraries.bigEndian opened catalogue ∧
      ∀ archive : Archive, archive.header = opened.header →
        (∀ name, ∃ found, fileGroupFind archive name opened.fileGroups = .ret found ∧
          Option.Rel (IsGroup archive.header) found
            (catalogue.fileGroups.flatten.find? fun entry => entry.name = name)) ∧
        ∀ calls library, FileRun libraries.onDisk archive (fun _ _ => True)
            { fileDescriptors := fun _ => none, io := s.io } calls library →
          ∀ index, Answers libraries.onDisk archive library index (entryAt catalogue index) := by
  obtain ⟨opened, s, run, linked, _, _, is⟩ := readHeaders_encode sound order asked written
    (Nat.lt_of_succ_lt turns) enoughGroups enoughComponents disk
  refine ⟨opened, s, run, linked, is, ?_⟩
  intro archive same
  obtain ⟨_, _, few⟩ := sound.starts_lt
  refine ⟨fun name => fileGroupFind_of_isGroup name (same ▸ is.fileGroups), ?_⟩
  intro calls library run index
  exact answers_of_isCatalogue is (by omega) sound.directories same rfl run index

/-- A catalogue of version 17 in which everything is called "A". -/
def letterCatalogue : Catalogue where
  version := 0x020006A4
  volumeInfo := 0
  directories := [[0x41]]
  files :=
    [{ name := [0x41], directory := 0, flags := 4, expandedSize := 3, compressedSize := 2, dataOffset := 84,
       md5 := List.replicate 16 0, volume := 1, md5_length := length_sixteen_zeros }]
  fileGroups := [{ name := [0x41], firstFile := 0, lastFile := 0 }] :: List.replicate 70 []
  components :=
    [{ name := [0x41], fileGroupNames := [[0x41]], count_le := one_le_maxFileGroupCount }] ::
      List.replicate 70 []

theorem letter_spelled : Spelled 17 [0x41] where
  nonzero := by decide
  wellFormed := fun _ => Unicode.Utf8.wellFormed_encode ['A']
  fits := fun _ => by
    have letter : Unicode.Utf8.decodeLossy [0x41] = ['A'] := decodeLossy_utf8_encode ['A']
    rw [letter]
    decide

theorem letterCatalogue_sound : letterCatalogue.Sound 17 where
  version := .inr (.inr (by decide))
  nonempty := by decide
  groupBuckets := rfl
  componentBuckets := rfl
  directoryNames := by
    intro name member
    rw [List.mem_singleton.1 member]
    exact letter_spelled
  fileNames := by
    intro file member
    rw [List.mem_singleton.1 member]
    exact letter_spelled
  groupNames := by
    intro group member
    have member : group ∈ [_] := member
    rw [List.mem_singleton.1 member]
    exact letter_spelled
  componentNames := by
    intro component member
    have member : component ∈ [_] := member
    rw [List.mem_singleton.1 member]
    refine ⟨letter_spelled, fun name member => ?_⟩
    rw [List.mem_singleton.1 member]
    exact letter_spelled
  directories := by
    intro file member
    rw [List.mem_singleton.1 member]
    decide
  narrow := by
    intro old
    cases old
  few := fun _ => by decide
  length_lt := by decide +kernel

def letterHeaders : HeaderFiles where
  content := fun i => if i = 1 then some (letterCatalogue.encode 17) else none
  content_lt := by
    intro i data found
    split at found
    · cases found
      exact Nat.lt_trans letterCatalogue_sound.length_lt (by decide)
    · cases found

/-- It is opened, and its file has the size 3 after it has been asked for its name. -/
theorem openCabinet_answers_letter : ∃ opened s,
    readHeaders (smallLibraries.opening letterHeaders) 2 (-1)
        { io := shelfDisk [] 0 no_volume_lt room_zero_lt } = (.ret (), s) ∧
      IsCatalogue false opened letterCatalogue ∧
      ∃ library, FileRun smallLibraries.onDisk { header := opened.header, filenamePattern := [] }
          (fun _ _ => True) { fileDescriptors := fun _ => none, io := s.io } [.fileName 0] library ∧
        (Calls.fileSize { header := opened.header, filenamePattern := [] } 0 library).1 = .ret 3 := by
  obtain ⟨opened, s, run, _, is, answers⟩ :=
    @openCabinet_answers smallLibraries 17 (-1) letterCatalogue letterCatalogue_sound (fun _ => rfl)
      (by decide) letterHeaders rfl 2 (by decide) (by decide) (by decide)
      (shelfDisk [] 0 no_volume_lt room_zero_lt)
  have ask := (answers { header := opened.header, filenamePattern := [] } rfl).2
  have name := (ask [] _ .start 0).name
  rcases first : Calls.fileName smallLibraries.onDisk { header := opened.header, filenamePattern := [] } 0
    { fileDescriptors := fun _ => none, io := s.io } with ⟨exit, library⟩
  rw [first] at name
  cases name
  have returns : (FileCall.fileName 0).run smallLibraries.onDisk
      { header := opened.header, filenamePattern := [] } 0
      { fileDescriptors := fun _ => none, io := s.io } = (.ret (), library) :=
    Proc.bind_of_ret first
  have later : FileRun smallLibraries.onDisk { header := opened.header, filenamePattern := [] }
      (fun _ _ => True) { fileDescriptors := fun _ => none, io := s.io } [.fileName 0] library :=
    .call .start (.fileName 0) trivial returns trivial
  exact ⟨opened, s, run, is, library, later, (ask _ library later 0).size⟩

end Unshield
