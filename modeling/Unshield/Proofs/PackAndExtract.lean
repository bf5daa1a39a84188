/-
Module: Unshield.Proofs.PackAndExtract
Purpose: From packed files and back: a cabinet that was put together from files is opened, and the extraction
  writes these files.
Trusted boundary: none
Main exports: PackedCabinet.wanted, Destined, isSelected_packed, extracts_packed
-/
import Unshield.Proofs.ExtractAction
import Unshield.Proofs.OpenedAnswers
import Unshield.Proofs.PackedCabinet

namespace Unshield

open Procedure
open LinkedNodes (Linked)

/-! ### What is asked for -/

namespace PackedCabinet

variable (cabinet : PackedCabinet) (settings : Settings) (fnmatch : Bytes → Bytes → Bool)

/-- The file with an index that a caller may give. -/
def fileAt (index : Int) : Option PackedFile :=
  if 0 ≤ index then cabinet.files[index.toNat]? else none

variable {cabinet} in
theorem fileAt_natCast (i : Nat) : cabinet.fileAt i = cabinet.files[i]? := by
  rw [fileAt, if_pos (Int.natCast_nonneg i), Int.toNat_natCast]

variable {cabinet} in
theorem eq_natCast_of_fileAt {index : Int} {file : PackedFile} (there : cabinet.fileAt index = some file) :
    ∃ i : Nat, index = i ∧ cabinet.files[i]? = some file := by
  rw [fileAt] at there
  split at there
  · rename_i low
    exact ⟨index.toNat, (Int.toNat_of_nonneg low).symm, there⟩
  · cases there

/-- The groups that an action goes through: the first one of the name asked for, or all that have a first
file. -/
def processed : List GroupEntry :=
  match settings.fileGroupName with
  | some name => (cabinet.fileGroups.flatten.find? fun group => group.name = name).toList
  | none => cabinet.fileGroups.flatten.filter fun group => group.firstFile.toInt32.toInt ≠ -1

/-- The file has a name that is asked for. -/
def askedFor (file : PackedFile) : Bool :=
  settings.pathNames.isEmpty || settings.pathNames.any fun pattern => fnmatch pattern file.name

/-- The files of a group that are asked for, each with the name of the group and its index. -/
def wantedIn (group : GroupEntry) : List (Bytes × Int × PackedFile) :=
  (Int.range group.firstFile.toInt32.toInt (group.lastFile.toInt32.toInt + 1)).filterMap fun index =>
    ((cabinet.fileAt index).filter (askedFor settings fnmatch)).map fun file => (group.name, index, file)

def wanted : List (Bytes × Int × PackedFile) :=
  (cabinet.processed settings).flatMap (cabinet.wantedIn settings fnmatch)

end PackedCabinet

section

variable (libraries : Libraries) (options : Options) (locale : Locale) (cabinet : PackedCabinet)

/-- The output of a file that is wanted: the options make its path of the names of the group, the directory
and the file. -/
structure Destined (wanted : Bytes × Int × PackedFile) (output : OutputFile) : Prop where
  namePrefix : output.namePrefix = some wanted.1
  index : output.index = wanted.2.1
  content : output.content = wanted.2.2.content
  dirname : dirnameFor options locale libraries.pathMax (some wanted.1)
    (.ret (if options.junkPaths then none else cabinet.directories[wanted.2.2.directory.toNat]?)) =
      .ret (some output.dirname)
  path : convertName locale libraries.pathMax output.dirname
    (bufferFor options locale libraries.pathMax output.dirname (some wanted.2.2.name)) = some output.path

end

/-! ### What the library finds -/

section

variable {libraries : Libraries} {major : Int} {cabinet : PackedCabinet} {archive : Archive}
  {opened : OpenedHeader} (sound : cabinet.Sound libraries major)
  (same : archive.header = cabinet.header major) (header : opened.header = cabinet.header major)
  (is : IsCatalogue libraries.bigEndian opened (cabinet.catalogue major))

include sound same

theorem validIndex_iff_fileAt (index : Int) :
    ValidIndex archive.header index ↔ (cabinet.fileAt index).isSome = true := by
  have few := sound.catalogue.starts_lt.2.2
  rw [PackedCabinet.length_entries] at few
  have count : archive.header.cab.fileCount.toInt32.toInt = cabinet.files.length := by
    have value : archive.header.cab.fileCount.toNat = cabinet.files.length := by
      rw [same, ← @PackedCabinet.length_entries major cabinet]
      exact sound.catalogue.counted.fileCount
    rw [Bits.toInt32_toInt_of_lt (by rw [value]; omega), value]
  rw [ValidIndex, count, PackedCabinet.fileAt]
  split
  · rename_i low
    rw [isSome_getElem?]
    omega
  · rename_i low
    constructor
    · intro valid
      exact absurd valid.1 low
    · intro nothing
      cases nothing

include header is

omit sound in
/-- The descriptor of a file says where it lies, what it is called and in which directory. -/
theorem descriptor_of_file {i : Nat} {file : PackedFile} (there : cabinet.files[i]? = some file) :
    ∃ fd volume offset, readFileDescriptor archive.header i = .ret fd ∧
      LiesAt (volumeStart major) cabinet.volumes file volume offset ∧
      IsPacked archive.header file volume offset fd ∧
      IsFile libraries.bigEndian archive.header cabinet.directories fd (file.entry volume offset) := by
  obtain ⟨volume, offset, entry, lies⟩ := @PackedCabinet.entry_of_file major cabinet _ _ there
  obtain ⟨fd, decoded, isFile⟩ := is.files i _ entry
  rw [header, ← same] at decoded isFile
  exact ⟨fd, volume, offset, decoded, lies, isPacked_of_fields isFile.fields, isFile⟩

/-- The questions of the condition are answered by the file. -/
theorem questions_of_file {i : Nat} {file : PackedFile} (there : cabinet.files[i]? = some file) :
    isValidFile archive i = true ∧
      answerTo (fileNameOf libraries.onWorld archive) (descriptorAt archive.header (fun _ => none) i) =
        .ret (some file.name) := by
  obtain ⟨fd, volume, offset, decoded, lies, packed, isFile⟩ := descriptor_of_file same header is there
  have version : archive.header.majorVersion = major := by
    rw [same]
    rfl
  obtain ⟨content, _, _, _, positive, small⟩ := sound.storedAt there lies (same ▸ packed)
  have good := sound.files file (List.mem_of_getElem? there)
  rw [← version] at good
  have restorable := packed.restorable good positive small
  have valid : ValidIndex archive.header i := by
    rw [validIndex_iff_fileAt sound same, PackedCabinet.fileAt_natCast, there]
    rfl
  have found : descriptorAt archive.header (fun _ => none) i = .ret fd := by
    rw [descriptorAt, if_pos valid]
    exact decoded
  rw [isValidFile, found]
  constructor
  · rw [decide_eq_true_eq]
    show Exit.ret (decide _) = _
    rw [decide_eq_true ⟨restorable.valid, isFile.name_ne, restorable.nonzero⟩]
  · show fileNameOf libraries.onWorld archive (some fd) = _
    rw [fileNameOf, isFile.name]
    rfl

theorem isSelected_packed (settings : Settings) (fnmatch : Bytes → Bytes → Bool) (index : Int) :
    isSelected libraries.onWorld archive settings fnmatch .extract index =
      (cabinet.fileAt index).any (PackedCabinet.askedFor settings fnmatch) := by
  rw [isSelected]
  cases there : cabinet.fileAt index with
  | none =>
      have invalid : ¬ ValidIndex archive.header index := by
        rw [validIndex_iff_fileAt sound same, there]
        exact Bool.false_ne_true
      rw [isValidFile, descriptorAt, if_neg invalid]
      rfl
  | some file =>
      obtain ⟨i, rfl, here⟩ := PackedCabinet.eq_natCast_of_fileAt there
      obtain ⟨valid, named⟩ := questions_of_file sound same header is here
      rw [valid, Bool.true_and, isNamedBy, named]
      rfl

/-- The condition is answered for every index. -/
theorem answered_packed (settings : Settings) (fnmatch : Bytes → Bytes → Bool) {origin : Library World}
    (opening : origin.fileDescriptors = fun _ => none) (index : Int) :
    Answered libraries archive settings fnmatch origin index := by
  have start : Consistent libraries.onWorld archive.header origin := consistent_of_opened opening
  rw [Answered, extractCondition]
  cases there : cabinet.fileAt index with
  | none =>
      have invalid : ¬ ValidIndex archive.header index := by
        rw [validIndex_iff_fileAt sound same, there]
        exact Bool.false_ne_true
      rw [Calls.fileIsValid, if_neg invalid]
      exact ⟨false, rfl⟩
  | some file =>
      obtain ⟨i, rfl, here⟩ := PackedCabinet.eq_natCast_of_fileAt there
      obtain ⟨valid, named⟩ := questions_of_file sound same header is here
      have asked := Proc.run_eq_ret (fileIsValid_selects start valid)
      have kept := (fileIsValid_answers (i : Int) origin true _ start asked).2
      have name : Proc.Achieves (Consistent libraries.onWorld archive.header)
          (Calls.fileName libraries.onWorld archive i)
          fun name library =>
            name = some file.name ∧ Consistent libraries.onWorld archive.header library := by
        intro library consistent
        have answer : (Calls.fileName libraries.onWorld archive i library).1 = .ret (some file.name) :=
          (consistent.ask (fun fd fd' search => by rw [search.sameRecord]; rfl) i).trans named
        have run := Proc.run_eq_ret answer
        exact ⟨_, _, run, rfl, (preserves_ask_consistent _ i).of_run consistent run⟩
      have matched (patterns : List Bytes) : Proc.Achieves (Consistent libraries.onWorld archive.header)
          (matchesPathName libraries.onWorld archive fnmatch i patterns) fun _ _ => True := by
        induction patterns with
        | nil => exact .pure fun _ _ => trivial
        | cons pattern patterns ih =>
            refine .bind name fun answer => ?_
            rintro library ⟨rfl, consistent⟩
            by_cases hit : fnmatch pattern file.name = true
            · exact ⟨true, library, congrFun (if_pos hit) library, trivial⟩
            · obtain ⟨chosen, after, run, _⟩ := ih library consistent
              refine ⟨chosen, after, ?_, trivial⟩
              rw [← run]
              exact congrFun (if_neg hit) library
      rw [Proc.bind_of_ret asked, if_pos rfl, shouldProcessFile]
      split
      · exact ⟨true, rfl⟩
      · obtain ⟨chosen, after, run, _⟩ := matched settings.pathNames _ kept
        exact ⟨chosen, congrArg Prod.fst run⟩

/-! ### The plan -/

/-- The files of a group that are planned are those that are wanted. -/
theorem plannedIn_packed (settings : Settings) (fnmatch : Bytes → Bytes → Bool) {fileGroup : FileGroup}
    {group : GroupEntry} (isGroup : IsGroup archive.header fileGroup group) :
    plannedIn libraries archive settings fnmatch fileGroup =
      (cabinet.wantedIn settings fnmatch group).map fun wanted => (.ret (some wanted.1), wanted.2.1) := by
  have text : fileGroup.name.text archive.header = .ret (some group.name) := isGroup.name
  rw [plannedIn, PackedCabinet.wantedIn, fileIndices, isGroup.firstFile, isGroup.lastFile, text]
  generalize Int.range group.firstFile.toInt32.toInt (group.lastFile.toInt32.toInt + 1) = indices
  induction indices with
  | nil => rfl
  | cons index indices ih =>
      rw [List.filter_cons, List.filterMap_cons, isSelected_packed sound same header is]
      cases cabinet.fileAt index with
      | none => exact ih
      | some file =>
          by_cases asked : PackedCabinet.askedFor settings fnmatch file = true
          · simp only [Option.any_some, asked, if_true, Option.filter_some, Option.map_some,
              List.map_cons, ih]
          · simp only [Option.any_some, asked, if_false, Option.filter_some, Option.map_none,
              Bool.false_eq_true, ih]

omit sound same header is in
theorem forall₂_toList {α β : Type} {R : α → β → Prop} {one : Option α} {two : Option β}
    (related : Option.Rel R one two) : List.Forall₂ R one.toList two.toList := by
  cases related with
  | none => exact .nil
  | some holds => exact .cons holds .nil

omit sound in
/-- The groups that are processed are those of the header. -/
theorem processed_packed (settings : Settings) :
    List.Forall₂ (IsGroup archive.header) (processedGroups archive settings opened.fileGroups)
      (cabinet.processed settings) ∧
    ∀ name, settings.fileGroupName = some name →
      ∃ found, fileGroupFind archive name opened.fileGroups = .ret found := by
  have groups : List.Forall₂ (IsGroup archive.header) opened.fileGroups cabinet.fileGroups.flatten := by
    rw [same, ← header]
    exact is.fileGroups
  rw [processedGroups, PackedCabinet.processed]
  cases settings.fileGroupName with
  | none =>
      refine ⟨?_, fun _ nothing => by cases nothing⟩
      refine List.rel_filter ?_ groups
      intro fileGroup group isGroup
      dsimp only
      rw [isGroup.firstFile]
  | some name =>
      obtain ⟨found, searched, related⟩ := fileGroupFind_of_isGroup name groups
      refine ⟨?_, ?_⟩
      · dsimp only
        rw [← fileGroupFind_eq_ret searched]
        exact forall₂_toList related
      · rintro _ ⟨rfl⟩
        exact ⟨found, searched⟩

theorem planned_packed (settings : Settings) (fnmatch : Bytes → Bytes → Bool) :
    (processedGroups archive settings opened.fileGroups).flatMap
        (plannedIn libraries archive settings fnmatch) =
      (cabinet.wanted settings fnmatch).map fun wanted => (.ret (some wanted.1), wanted.2.1) := by
  have groups := (processed_packed same header is settings).1
  rw [PackedCabinet.wanted, List.map_flatMap]
  revert groups
  generalize processedGroups archive settings opened.fileGroups = fileGroups
  generalize cabinet.processed settings = entries
  intro groups
  induction groups with
  | nil => rfl
  | cons isGroup _ ih =>
      rw [List.flatMap_cons, List.flatMap_cons,
        plannedIn_packed sound same header is settings fnmatch isGroup, ih]

/-- What the program makes of the names of a file is what the destination says. -/
theorem obtainable_of_destined {settings : Settings} {locale : Locale} {fnmatch : Bytes → Bytes → Bool}
    {origin : Library World} {output : OutputFile} {wanted : Bytes × Int × PackedFile}
    (opening : origin.fileDescriptors = fun _ => none)
    (volumes : origin.io.disk.store.cabinets = shelf (cabinet.volumeFiles major))
    (member : wanted ∈ cabinet.wanted settings fnmatch)
    (destined : Destined libraries settings.toOptions locale cabinet wanted output)
    (reachable : Reachable settings.toOptions origin.io output) :
    Obtainable libraries archive settings.toOptions locale origin output := by
  obtain ⟨group, _, inside⟩ := List.mem_flatMap.1 member
  obtain ⟨index, _, found⟩ := List.mem_filterMap.1 inside
  obtain ⟨file, kept, rfl⟩ := Option.map_eq_some_iff.1 found
  obtain ⟨i, rfl, there⟩ := PackedCabinet.eq_natCast_of_fileAt (Option.filter_eq_some_iff.1 kept).1
  obtain ⟨fd, volume, offset, decoded, lies, packed, isFile⟩ := descriptor_of_file same header is there
  obtain ⟨namePrefix, here, content, dirname, path⟩ := destined
  dsimp only at namePrefix here content dirname path
  have valid : ValidIndex archive.header i := by
    rw [validIndex_iff_fileAt sound same, PackedCabinet.fileAt_natCast, there]
    rfl
  have descriptor := findFileDescriptor_of_unused valid (unused_of_opened opening _) decoded
  have index : fd.directoryIndex = file.directory.toUInt32 := by
    rw [isFile.fields, FileEntry.descriptor]
    split <;> rfl
  have small := file.directory.toNat_lt
  have number : fd.directoryIndex.toInt32.toInt = file.directory.toNat := by
    rw [index, Bits.toInt32_toInt_of_lt (by rw [UInt16.toNat_toUInt32]; omega), UInt16.toNat_toUInt32]
  have count : fd.directoryIndex < archive.header.cab.directoryCount := by
    obtain ⟨_, _, entry, _⟩ := @PackedCabinet.entry_of_file major cabinet _ _ there
    have within := sound.catalogue.directories _ (List.mem_of_getElem? entry)
    rw [UInt32.lt_iff_toNat_lt, index, UInt16.toNat_toUInt32, same]
    exact Nat.lt_of_lt_of_eq within sound.catalogue.counted.directoryCount.symm
  have directoryText : directoryNameOf libraries.onWorld archive settings.toOptions
      fd.directoryIndex.toInt32.toInt =
        .ret (if settings.junkPaths then none else cabinet.directories[file.directory.toNat]?) := by
    rw [directoryNameOf, isFile.directory]
    by_cases junk : settings.junkPaths = true
    · rw [if_neg fun both => both.1 junk, if_pos junk]
    · rw [if_pos ⟨junk, by rw [number]; omega⟩, if_neg junk]
      rfl
  have directory : outputDirname libraries.onWorld archive settings.toOptions locale output.namePrefix
      output.index origin = .ret (some output.dirname) := by
    rw [outputDirname, here, namePrefix, descriptor, Exit.bind_ret, fileDirectory, Exit.assert,
      if_pos count, Exit.bind_ret, Exit.pure_eq, Exit.bind_ret, directoryText]
    exact dirname
  refine { reachable with valid := here ▸ valid, restores := ?_, directory := directory, filename := ?_ }
  · rw [here, content, volumes]
    exact ⟨fd, decoded, sound.restores same there lies packed⟩
  · rw [outputFilename, directory, Exit.bind_ret]
    show (outputBuffer libraries.onWorld archive settings.toOptions locale output.index origin
      output.dirname >>= fun buffer =>
        pure (convertName locale libraries.pathMax output.dirname buffer)) = _
    rw [outputBuffer, here, descriptor, Exit.bind_ret, fileNameOf, isFile.name]
    exact congrArg Exit.ret path

omit sound same header is in
theorem planned_of_destined {options : Options} {locale : Locale} {wanted : List (Bytes × Int × PackedFile)}
    {outputs : List OutputFile}
    (destined : List.Forall₂ (Destined libraries options locale cabinet) wanted outputs) :
    outputs.map OutputFile.planned = wanted.map fun wanted => (.ret (some wanted.1), wanted.2.1) := by
  induction destined with
  | nil => rfl
  | cons first _ ih =>
      rw [List.map_cons, List.map_cons, ih, OutputFile.planned, first.namePrefix, first.index]

/-- A cabinet that has been opened leaves nothing to be planned. -/
theorem plan_packed {settings : Settings} {locale : Locale} {fnmatch : Bytes → Bytes → Bool}
    {origin : Library World} {outputs : List OutputFile} (opening : origin.fileDescriptors = fun _ => none)
    (volumes : origin.io.disk.store.cabinets = shelf (cabinet.volumeFiles major))
    (new : settings.format = .new) (noComponent : settings.componentName = none)
    (ends : ∀ group ∈ cabinet.fileGroups.flatten, group.lastFile.toInt32.toInt < intMax)
    (destined : List.Forall₂ (Destined libraries settings.toOptions locale cabinet)
      (cabinet.wanted settings fnmatch) outputs)
    (reachable : ∀ output ∈ outputs, Reachable settings.toOptions origin.io output)
    (compatible : Compatible origin.io outputs) :
    Plan libraries archive settings locale fnmatch origin outputs opened.fileGroups := by
  obtain ⟨groups, searched⟩ := processed_packed same header is settings
  refine { compatible with
    opened := opening, format := new, noComponent := noComponent, searched := searched,
    obtainable := ?_, passable := ?_, planned := ?_ }
  · intro output member
    obtain ⟨wanted, there, destination⟩ := Forall₂.exists_of_mem destined.flip member
    exact obtainable_of_destined sound same header is opening volumes there destination
      (reachable output member)
  · intro fileGroup member
    obtain ⟨group, there, isGroup⟩ := Forall₂.exists_of_mem groups member
    refine ⟨fun index _ => answered_packed sound same header is settings fnmatch opening index, ?_⟩
    rw [isGroup.lastFile]
    apply ends
    rw [PackedCabinet.processed] at there
    split at there
    · exact List.mem_of_find?_eq_some (Option.mem_toList.1 there)
    · exact List.mem_of_mem_filter there
  · rw [planned_of_destined destined]
    exact (planned_packed sound same header is settings fnmatch).symm

end

/-! ### The round trip -/

/-- What can be reached does not depend on what was read. -/
theorem Reachable.of_store {options : Options} {world : World} {output : OutputFile} {disk : Disk}
    (reachable : Reachable options world output) (store : disk.store = world.disk.store) :
    Reachable options { world with disk } output where
  opens := reachable.opens
  plain := reachable.plain
  enters := reachable.enters
  inside := reachable.inside
  writable := by
    rw [store]
    exact reachable.writable
  free := reachable.free
  clear := by
    intro place onWay
    rcases reachable.clear place onWay with directory | free
    · exact .inl directory
    · refine .inr ?_
      rw [World.Blocked, World.taken, World.fileAt] at free ⊢
      rw [store]
      exact free

/-- Files that were packed into a cabinet come out again.  The cabinet is opened with one header; then the
extraction of the groups and names that are asked for ends with status zero, the content of each file is
found at the place its names lead to, and nothing else is changed but for the directories on the way. -/
theorem extracts_packed {libraries : Libraries} {major version : Int} {cabinet : PackedCabinet}
    (sound : cabinet.Sound libraries major) (order : 17 ≤ major → libraries.bigEndian = false)
    (asked : majorVersionOf version (cabinet.catalogue major).common = major) {headers : HeaderFiles}
    (written : headers.content 1 = some ((cabinet.catalogue major).encode major)) {world : World}
    (volumes : world.disk.store.cabinets = shelf (cabinet.volumeFiles major)) {settings : Settings}
    {locale : Locale} {fnmatch : Bytes → Bytes → Bool} (new : settings.format = .new)
    (noComponent : settings.componentName = none)
    (ends : ∀ group ∈ cabinet.fileGroups.flatten, group.lastFile.toInt32.toInt < intMax)
    {outputs : List OutputFile}
    (destined : List.Forall₂ (Destined libraries settings.toOptions locale cabinet)
      (cabinet.wanted settings fnmatch) outputs)
    (reachable : ∀ output ∈ outputs, Reachable settings.toOptions world output)
    (compatible : Compatible world outputs) :
    ∃ enough, ∀ fuel ≥ enough, ∃ opened s,
      readHeaders (libraries.opening headers) fuel version { io := world.disk } = (.ret (), s) ∧
      Linked s.list.nodes s.list.headerList [opened] ∧
      ∀ archive : Archive, archive.header = opened.header → ∃ enough', ∀ fuel' ≥ enough', ∃ program,
        runAction libraries.onWorld World.system archive settings locale fnmatch fuel' opened.fileGroups
          .extract { library := { fileDescriptors := fun _ => none, io := { world with disk := s.io } } } =
            (.ret 0, program) ∧
        program.totals = [(outputs.length : Int)] ∧
        (∀ before output later, outputs = before ++ output :: later →
          (∀ other ∈ later, other.place world ≠ output.place world) →
            program.library.io.fileAt (output.place world) = some output.content) ∧
        (∀ place, (∀ name ∈ place, Paths.Plain slash name) →
          (∀ output ∈ outputs, output.place world ≠ place) →
            program.library.io.fileAt place = world.fileAt place) ∧
        ∀ place, program.library.io.tree.isDirectory place = true ↔
          world.tree.isDirectory place = true ∨ ∃ output ∈ outputs, world.OnWay output.dirname place := by
  refine ⟨cabinet.fileGroups.flatten.length + cabinet.components.flatten.length + 1, fun fuel enough => ?_⟩
  have groups : ∀ bucket ∈ (cabinet.catalogue major).fileGroups, bucket.length < fuel := by
    intro bucket member
    have fewer : bucket.length ≤ cabinet.fileGroups.flatten.length :=
      (List.sublist_flatten_of_mem member).length_le
    omega
  have components : ∀ bucket ∈ (cabinet.catalogue major).components, bucket.length < fuel := by
    intro bucket member
    have fewer : bucket.length ≤ cabinet.components.flatten.length :=
      (List.sublist_flatten_of_mem member).length_le
    omega
  obtain ⟨opened, s, run, linked, store, header, is⟩ := readHeaders_encode sound.catalogue order asked written
    (Nat.lt_of_lt_of_le (Nat.succ_pos _) enough) groups components world.disk
  refine ⟨opened, s, run, linked, fun archive same => ?_⟩
  have plan : Plan libraries archive settings locale fnmatch
      { fileDescriptors := fun _ => none, io := { world with disk := s.io } } outputs opened.fileGroups :=
    plan_packed sound (same.trans header) header is rfl
    ((congrArg Store.cabinets store).trans volumes) new noComponent ends destined
    (fun output member => (reachable output member).of_store store)
    ⟨compatible.apart, compatible.distinct, store ▸ compatible.room⟩
  obtain ⟨enough', acts⟩ := acts_of_plan plan
  refine ⟨enough', fun fuel' more => ?_⟩
  obtain ⟨program, action, _, totals, extracted⟩ := acts fuel' more
  have plain : ∀ output ∈ outputs, ∀ name ∈ output.place world, Paths.Plain slash name :=
    fun output member => world.plain_placeOf (reachable output member).plain (reachable output member).enters
  refine ⟨program, action, totals, ?_, ?_, extracted.directories⟩
  · rintro before output later rfl last
    refine extracted.fileAt_output ?_ plain last
    exact (plan.obtainable output (List.mem_append_right _ List.mem_cons_self)).writable
  · intro place plain_place apart
    rw [extracted.fileAt_of_apart plain_place plain apart, World.fileAt, World.fileAt, ← store]

/-! ### A cabinet with two files -/

theorem length_digestOfA : digestOfA.length = 16 := rfl

/-- A file "A" that is obfuscated. -/
def obfuscatedFile : PackedFile where
  name := [0x41]
  directory := 0
  content := [0x61]
  chunks := none
  obfuscated := true
  md5 := digestOfA
  md5_length := length_digestOfA

/-- A file "B" that is compressed. -/
def compressedFile : PackedFile :=
  { obfuscatedFile with name := [0x42], chunks := some [chunkOfA], obfuscated := false }

/-- Each file has a volume of its own. -/
def pairCabinet : PackedCabinet where
  version := 0
  volumeInfo := 0
  directories := [[0x44]]
  volumes := [[obfuscatedFile], [compressedFile]]
  fileGroups := [{ name := [0x47], firstFile := 0, lastFile := 1 }] :: List.replicate 70 []
  components := List.replicate 71 []

theorem pairCabinet_spelled {text : Bytes} (nonzero : 0 ∉ text) : Spelled 6 text where
  nonzero
  wellFormed := fun new => absurd new (by decide)
  fits := fun new => absurd new (by decide)

theorem pairCabinet_sound : pairCabinet.Sound smallLibraries 6 where
  catalogue :=
    { version := .inr (.inr (by decide))
      nonempty := by decide
      groupBuckets := rfl
      componentBuckets := rfl
      directoryNames := by
        intro name member
        exact pairCabinet_spelled ((by decide : ∀ name ∈ pairCabinet.directories, 0 ∉ name) name member)
      fileNames := by
        intro file member
        apply pairCabinet_spelled
        revert file
        decide +kernel
      groupNames := by
        intro group member
        obtain rfl := List.mem_singleton.1 (show group ∈ [_] from member)
        exact pairCabinet_spelled (by decide)
      componentNames := by
        intro component member
        cases show component ∈ [] from member
      directories := by decide +kernel
      narrow := by
        intro old
        cases old
      few := fun _ => by decide
      length_lt := by decide +kernel }
  files := by
    intro file member
    have member : file ∈ [obfuscatedFile, compressedFile] := member
    rcases List.mem_cons.1 member with rfl | last
    · refine ⟨?_, by decide, by decide, fun _ => by decide⟩
      intro chunks packed
      cases packed
    · obtain rfl := List.mem_singleton.1 last
      refine ⟨?_, by decide, by decide, fun _ => by decide⟩
      rintro _ ⟨rfl⟩
      exact ⟨by decide, [[0x61]], .cons rfl .nil, rfl⟩
  count := by decide
  single := by decide
  short := by decide +kernel

theorem pairCabinet_headers_lt : ((pairCabinet.catalogue 6).encode 6).length < 2 ^ 63 :=
  Nat.lt_trans pairCabinet_sound.catalogue.length_lt (by decide)

def pairHeaders : HeaderFiles where
  content := fun i => if i = 1 then some ((pairCabinet.catalogue 6).encode 6) else none
  content_lt := by
    intro i data found
    split at found
    · cases found
      exact pairCabinet_headers_lt
    · cases found

def pairWorld : World :=
  { rootWorld fun _ => none with
    disk := shelfDisk (pairCabinet.volumeFiles 6) 2 pairCabinet_sound.short room_two_lt }

/-- Everything is extracted to the directory "out". -/
def pairSettings : Settings := { outputDirectory := smallPath }

/-- The files go to `out/G/D`. -/
def pairOutputs : List OutputFile :=
  let dirname := smallPath ++ [slash, 0x47, slash, 0x44, slash]
  [{ namePrefix := some [0x47], index := 0, dirname, name := [0x41], content := [0x61] },
    { namePrefix := some [0x47], index := 1, dirname, name := [0x42], content := [0x61] }]

theorem pairOutputs_destined :
    List.Forall₂ (Destined smallLibraries pairSettings.toOptions asciiLocale pairCabinet)
      (pairCabinet.wanted pairSettings fun pattern name => pattern = name) pairOutputs := by
  have wanted : (pairCabinet.wanted pairSettings fun pattern name => pattern = name) =
      [([0x47], 0, obfuscatedFile), ([0x47], 1, compressedFile)] := rfl
  rw [wanted]
  exact .cons ⟨rfl, rfl, rfl, by decide +kernel, by decide +kernel⟩
    (.cons ⟨rfl, rfl, rfl, by decide +kernel, by decide +kernel⟩ .nil)

theorem pairOutputs_reachable :
    ∀ output ∈ pairOutputs, Reachable pairSettings.toOptions pairWorld output := by
  have checked : ∀ output ∈ pairOutputs,
      output.dirname = smallPath ++ [slash, 0x47, slash, 0x44] ++ [slash] ∧
      slash ∉ output.name ∧ Paths.stepOf dot output.name = .down output.name ∧
      insideOutputDirectory World.system pairSettings.toOptions output.path pairWorld = true ∧
      ¬ pairWorld.tree.isDirectory (output.place pairWorld) = true ∧
      ∀ front ∈ (Paths.steps slash dot output.dirname).inits,
        pairWorld.tree.isDirectory (Paths.lexical (pairWorld.start output.dirname) front) = true ∨
          ¬ pairWorld.Blocked (Paths.lexical (pairWorld.start output.dirname) front) := by
    decide +kernel
  intro output member
  obtain ⟨ends, plain, enters, inside, free, clear⟩ := checked output member
  refine ⟨.inr ⟨_, ends⟩, plain, enters, inside, rfl, free, ?_⟩
  rintro _ ⟨front, within, rfl⟩
  exact clear front ((List.mem_inits _ _).2 within)

theorem pairOutputs_compatible : Compatible pairWorld pairOutputs where
  apart := by
    have checked : ∀ output ∈ pairOutputs, ∀ other ∈ pairOutputs,
        ∀ front ∈ (Paths.steps slash dot other.dirname).inits,
          output.place pairWorld ≠ Paths.lexical (pairWorld.start other.dirname) front := by
      decide +kernel
    rintro output member other member' ⟨front, within, same⟩
    exact checked output member other member' front ((List.mem_inits _ _).2 within) same
  distinct := by decide
  room := by decide

/-- Both files come out again. -/
theorem extracts_packed_pair : ∃ fuel, ∃ opened : OpenedHeader, ∃ s,
    readHeaders (smallLibraries.opening pairHeaders) fuel 6 { io := pairWorld.disk } = (.ret (), s) ∧
    ∃ fuel' program,
      runAction smallLibraries.onWorld World.system { header := opened.header, filenamePattern := [] }
        pairSettings asciiLocale (fun pattern name => pattern = name) fuel' opened.fileGroups .extract
        { library := { fileDescriptors := fun _ => none, io := { pairWorld with disk := s.io } } } =
          (.ret 0, program) ∧
      program.totals = [2] ∧
      program.library.io.fileAt [smallPath, [0x47], [0x44], [0x41]] = some [0x61] ∧
      program.library.io.fileAt [smallPath, [0x47], [0x44], [0x42]] = some [0x61] := by
  obtain ⟨fuel, opens⟩ := @extracts_packed smallLibraries 6 6 pairCabinet pairCabinet_sound
    (fun new => absurd new (by decide)) rfl pairHeaders rfl pairWorld rfl pairSettings asciiLocale
    (fun pattern name => pattern = name) rfl rfl (by decide) pairOutputs pairOutputs_destined
    pairOutputs_reachable pairOutputs_compatible
  obtain ⟨opened, s, run, _, extracts⟩ := opens fuel (Nat.le_refl _)
  obtain ⟨fuel', acts⟩ := extracts { header := opened.header, filenamePattern := [] } rfl
  obtain ⟨program, action, totals, content, _⟩ := acts fuel' (Nat.le_refl _)
  refine ⟨fuel, opened, s, run, fuel', program, action, totals, ?_, ?_⟩
  · exact content [] _ [_] rfl (by decide)
  · exact content [_] _ [] rfl (by decide)

end Unshield
