/-
Module: Unshield.Proofs.ExtractAction
Purpose: A whole run of the extraction: every file that is selected is restored at the place its names lead
  to, the directories on the way are made, and nothing else changes.
Trusted boundary: none
Main exports: OutputFile, Reachable, Obtainable, Extracted, Underway, extractFile_underway, Plan, acts_of_plan
-/
import Unshield.Foundation.TotalCorrectness
import Unshield.Proofs.ExtractionRun
import Unshield.Proofs.FileContents
import Unshield.Proofs.FileSelection
import Unshield.Proofs.GroupIteration

namespace Unshield

open Procedure
open Paths (Step steps stepOf)

/-! ### Descriptors that have not been used -/

/-- If there is a descriptor at the position, it is as it was decoded. -/
def Unused {σ : Type} (header : Header) (library : Library σ) (position : Nat) : Prop :=
  ∀ fd, library.fileDescriptors position = some fd → readFileDescriptor header position = .ret fd

section

variable {σ H : Type} {env : Environment σ H} {archive : Archive} {header : Header} {index : Int}
  {fd : FileDescriptor}

theorem unused_of_opened {library : Library σ} (opened : library.fileDescriptors = fun _ => none)
    (position : Nat) : Unused header library position := by
  intro fd found
  rw [opened] at found
  cases found

/-- The library once it has the descriptor of a file. -/
def Library.having (library : Library σ) (index : Int) (fd : FileDescriptor) : Library σ :=
  { library with fileDescriptors := Function.update library.fileDescriptors index.toNat (some fd) }

theorem Unused.having {library : Library σ} {position : Nat} (unused : Unused header library position)
    (valid : ValidIndex header index) (decoded : readFileDescriptor header index = .ret fd) :
    Unused header (library.having index fd) position := by
  intro other found
  change Function.update library.fileDescriptors index.toNat (some fd) position = some other at found
  by_cases same : position = index.toNat
  · subst same
    rw [Function.update_self] at found
    rw [Int.toNat_of_nonneg valid.1, decoded, Option.some.inj found]
  · exact unused other (by rw [← found, Function.update_of_ne same])

/-- It makes no difference whether the descriptor is there or is decoded. -/
theorem getFileDescriptor_of_unused {library : Library σ} (valid : ValidIndex header index)
    (unused : Unused header library index.toNat) (decoded : readFileDescriptor header index = .ret fd) :
    getFileDescriptor header index library = (.ret fd, library.having index fd) := by
  cases remembered : library.fileDescriptors index.toNat with
  | none =>
      rw [getFileDescriptor_of_new valid remembered, decoded]
      rfl
  | some other =>
      have same := unused other remembered
      rw [Int.toNat_of_nonneg valid.1, decoded] at same
      obtain rfl := Exit.ret.inj same
      rw [getFileDescriptor_of_remembered valid remembered, Library.having,
        Function.update_eq_self_iff.2 remembered.symm]

theorem findFileDescriptor_of_unused {library : Library σ} (valid : ValidIndex archive.header index)
    (unused : Unused archive.header library index.toNat)
    (decoded : readFileDescriptor archive.header index = .ret fd) :
    findFileDescriptor archive index library = (.ret (some fd), library.having index fd) := by
  rw [findFileDescriptor, getFileDescriptor_of_unused valid unused decoded]

/-- Getting descriptors leaves them as they were decoded. -/
theorem preserves_getFileDescriptor_unused (position : Nat) (index : Int) :
    Proc.Preserves (fun library : Library σ => Unused header library position)
      (getFileDescriptor header index) := by
  intro library unused
  by_cases valid : ValidIndex header index
  · cases remembered : library.fileDescriptors index.toNat with
    | some fd =>
        rw [getFileDescriptor_of_remembered valid remembered]
        exact unused
    | none =>
        rw [getFileDescriptor_of_new valid remembered]
        rcases decoded : readFileDescriptor header index with fd | _ | _ | _ | _
        · exact unused.having valid decoded
        all_goals exact unused
  · rw [getFileDescriptor_of_invalid valid]
    exact unused

/-- A condition asks for the descriptor and the name only. -/
theorem preserves_extractCondition {I : Library σ → Prop} {settings : Settings}
    {fnmatch : Bytes → Bytes → Bool}
    (get : ∀ index, Proc.Preserves I (getFileDescriptor archive.header index)) (index : Int) :
    Proc.Preserves I (extractCondition env archive settings fnmatch index) := by
  have named (patterns : List Bytes) :
      Proc.Preserves I (matchesPathName env archive fnmatch index patterns) := by
    induction patterns with
    | nil => exact .pure false
    | cons pattern patterns ih =>
        refine .bind (preserves_ask get _ index) fun name => ?_
        cases name with
        | none => exact .ofExit _
        | some name => exact .ite (fun _ => .pure true) fun _ => ih
  refine .bind (.ite (fun _ => preserves_ask get _ index) fun _ => .pure false) fun valid => ?_
  exact .ite (fun _ => .ite (fun _ => .pure true) fun _ => named _) fun _ => .pure false

/-- Libraries that remember what the header says cannot be told apart by a question. -/
theorem simulates_ask {α : Type} {answer : Option FileDescriptor → Exit α}
    (blind : ∀ fd fd', UpToSearch fd fd' → answer (some fd') = answer (some fd)) (index : Int) :
    Proc.Simulates
      (fun one two : Library σ => Consistent env archive.header one ∧ Consistent env archive.header two) Eq
      (Calls.ask archive answer index) (Calls.ask archive answer index) := by
  rintro one two ⟨first, second⟩
  have same := (first.ask blind index).trans (second.ask blind index).symm
  exact ⟨same ▸ .refl (fun _ => rfl) _, preserves_ask_consistent answer index one first,
    preserves_ask_consistent answer index two second⟩

theorem simulates_extractCondition (settings : Settings) (fnmatch : Bytes → Bytes → Bool) (index : Int) :
    Proc.Simulates
      (fun one two : Library σ => Consistent env archive.header one ∧ Consistent env archive.header two) Eq
      (extractCondition env archive settings fnmatch index)
      (extractCondition env archive settings fnmatch index) := by
  have named (patterns : List Bytes) : Proc.Simulates
      (fun one two : Library σ => Consistent env archive.header one ∧ Consistent env archive.header two) Eq
      (matchesPathName env archive fnmatch index patterns)
      (matchesPathName env archive fnmatch index patterns) := by
    induction patterns with
    | nil => exact .pure rfl
    | cons pattern patterns ih =>
        refine .bind (simulates_ask (fun fd fd' search => by rw [search.sameRecord]; rfl) index) ?_
        rintro name _ rfl
        cases name with
        | none => exact .same _
        | some name => exact .ite (fun _ => .pure rfl) fun _ => ih
  refine .bind (.ite (fun _ => simulates_ask (fun _ _ => isValidOf_upToSearch) index) fun _ => .pure rfl) ?_
  rintro valid _ rfl
  exact .ite (fun _ => .ite (fun _ => .pure rfl) fun _ => named _) fun _ => .pure rfl

end

/-! ### What is to be written -/

/-- A file that is to be extracted: the prefix of its path, its index, the directory part and the name that
the options make of the names in the cabinet, and its content. -/
structure OutputFile where
  namePrefix : Option Bytes
  index : Int
  dirname : Bytes
  name : Bytes
  content : Bytes

namespace OutputFile

def path (output : OutputFile) : Bytes := output.dirname ++ output.name

/-- Where the path leads once the directories on the way are there. -/
def place (output : OutputFile) (world : World) : Place := world.placeOf output.dirname output.name

end OutputFile

/-- The files of a disk once the outputs have been written to it, one after the other. -/
def writeAll (origin : World) (files : Bytes → Option Bytes) (outputs : List OutputFile) :
    Bytes → Option Bytes :=
  outputs.foldl (fun files output =>
    Function.update files (Paths.render slash (output.place origin)) (some output.content)) files

/-- The world in which the outputs have been written: there are the directories on the way to each of them,
and all the rest is as it was. -/
structure Extracted (origin : World) (outputs : List OutputFile) (world : World) : Prop where
  cwd : world.cwd = origin.cwd
  mayCreate : world.mayCreate = origin.mayCreate
  mayRemove : world.mayRemove = origin.mayRemove
  medium : SameMedium origin.disk.store world.disk.store
  directories : ∀ place, world.tree.isDirectory place = true ↔
    origin.tree.isDirectory place = true ∨ ∃ output ∈ outputs, origin.OnWay output.dirname place
  files : world.disk.store.files = writeAll origin origin.disk.store.files outputs
  room : origin.disk.store.room ≤
    world.disk.store.room + (outputs.map fun output => output.content.length).sum

theorem Extracted.nothing (origin : World) : Extracted origin [] origin where
  cwd := rfl
  mayCreate := rfl
  mayRemove := rfl
  medium := .refl _
  directories := fun place => by simp
  files := rfl
  room := le_rfl

/-- The names of the output lead to a place in the output directory where a file can be written, once the
directories on the way are there. -/
structure Reachable (options : Options) (origin : World) (output : OutputFile) : Prop where
  opens : output.dirname = [] ∨ ∃ before, output.dirname = before ++ [slash]
  plain : slash ∉ output.name
  enters : stepOf dot output.name = .down output.name
  inside : insideOutputDirectory World.system options output.path origin = true
  writable : origin.disk.store.writable (Paths.render slash (output.place origin)) = true
  free : ¬ origin.tree.isDirectory (output.place origin) = true
  clear : ∀ place, origin.OnWay output.dirname place → origin.Clear place

section

variable (libraries : Libraries) (archive : Archive) (options : Options) (locale : Locale)

/-- Nothing stands in the way of the output: the names of the file lead to its place, which can be reached,
and the volumes hold its content. -/
structure Obtainable (origin : Library World) (output : OutputFile) : Prop
    extends Reachable options origin.io output where
  valid : ValidIndex archive.header output.index
  restores : ∃ fd, readFileDescriptor archive.header output.index = .ret fd ∧
    Restores libraries archive origin.io.disk.store.cabinets output.index fd output.content
  directory : outputDirname libraries.onWorld archive options locale output.namePrefix output.index origin =
    .ret (some output.dirname)
  filename : outputFilename libraries.onWorld archive options locale output.namePrefix output.index origin =
    .ret (some output.path)

end

/-! ### One step -/

theorem World.plain_start (world : World) (path : Bytes) :
    ∀ name ∈ world.start path, Paths.Plain slash name := by
  rw [start]
  split
  · exact fun name member => absurd member List.not_mem_nil
  · exact world.cwd_plain

/-- Places on a way have plain names. -/
theorem World.OnWay.plain {world : World} {dirname : Bytes} {place : Place}
    (onWay : world.OnWay dirname place) :
    ∀ name ∈ place, Paths.Plain slash name := by
  obtain ⟨front, within, rfl⟩ := onWay
  exact Paths.plain_lexical_of_steps
    (fun name member => Paths.plain_of_mem_steps (within.subset member)) (world.plain_start dirname)

/-- A name that is entered leads from a plain place to a plain place. -/
theorem World.plain_placeOf (world : World) {dirname name : Bytes} (free : slash ∉ name)
    (enters : stepOf dot name = .down name) :
    ∀ part ∈ world.placeOf dirname name, Paths.Plain slash part := by
  intro part member
  rcases List.mem_append.1 member with way | last
  · exact world.lexicalPlace_plain dirname part way
  · rw [List.mem_singleton.1 last]
    refine ⟨?_, free⟩
    rintro rfl
    cases enters

/-- Writing the outputs leaves the files at other places as they were. -/
theorem writeAll_of_apart {origin : World} {outputs : List OutputFile} {place : Place}
    (plain : ∀ name ∈ place, Paths.Plain slash name)
    (plain_outputs : ∀ output ∈ outputs, ∀ name ∈ output.place origin, Paths.Plain slash name)
    (apart : ∀ output ∈ outputs, output.place origin ≠ place) (files : Bytes → Option Bytes) :
    writeAll origin files outputs (Paths.render slash place) = files (Paths.render slash place) := by
  induction outputs generalizing files with
  | nil => rfl
  | cons output outputs ih =>
      have other : Paths.render slash place ≠ Paths.render slash (output.place origin) := by
        intro same
        exact apart output List.mem_cons_self
          (Paths.render_injective plain (plain_outputs output List.mem_cons_self) same).symm
      refine (ih (fun output member => plain_outputs output (List.mem_cons_of_mem _ member))
        (fun output member => apart output (List.mem_cons_of_mem _ member)) _).trans ?_
      exact Function.update_of_ne other _ _

namespace Extracted

variable {origin world : World} {outputs : List OutputFile} (extracted : Extracted origin outputs world)

include extracted

theorem start (path : Bytes) : world.start path = origin.start path := by
  rw [World.start, World.start, extracted.cwd]

theorem onWay_iff {dirname : Bytes} {place : Place} :
    world.OnWay dirname place ↔ origin.OnWay dirname place := by
  rw [World.OnWay, World.OnWay, extracted.start]

theorem placeOf (dirname name : Bytes) : world.placeOf dirname name = origin.placeOf dirname name := by
  rw [World.placeOf, World.placeOf, World.lexicalPlace, World.lexicalPlace, extracted.start]

theorem inside (options : Options) (filename : Bytes) :
    insideOutputDirectory World.system options filename world =
      insideOutputDirectory World.system options filename origin := by
  show (World.realpath options.outputDirectory world).isPrefixOf (World.realpath filename world) =
    (World.realpath options.outputDirectory origin).isPrefixOf (World.realpath filename origin)
  rw [World.realpath, World.realpath, World.realpath, World.realpath]
  simp only [World.lexicalPlace, extracted.start]

/-- The files at other places are as they were. -/
theorem fileAt_of_apart {place : Place} (plain : ∀ name ∈ place, Paths.Plain slash name)
    (plain_outputs : ∀ output ∈ outputs, ∀ name ∈ output.place origin, Paths.Plain slash name)
    (apart : ∀ output ∈ outputs, output.place origin ≠ place) : world.fileAt place = origin.fileAt place := by
  apply extracted.medium.content
  rw [extracted.files, writeAll_of_apart plain plain_outputs apart]

/-- A way on which no output stands is still clear. -/
theorem clear {place : Place} (plain : ∀ name ∈ place, Paths.Plain slash name)
    (plain_outputs : ∀ output ∈ outputs, ∀ name ∈ output.place origin, Paths.Plain slash name)
    (apart : ∀ output ∈ outputs, output.place origin ≠ place) (clear : origin.Clear place) :
    world.Clear place := by
  rcases clear with directory | free
  · exact Or.inl ((extracted.directories place).2 (Or.inl directory))
  · by_cases there : world.tree.isDirectory place = true
    · exact Or.inl there
    · refine Or.inr ?_
      obtain ⟨absent, permitted⟩ := World.Extends.free_of_not_blocked free
      rw [World.taken, Bool.or_eq_false_iff] at absent
      rw [World.Blocked, World.taken, extracted.fileAt_of_apart plain plain_outputs apart,
        extracted.mayCreate, permitted,
        Bool.eq_false_iff.2 there, absent.2]
      decide

end Extracted

section

variable {libraries : Libraries} {archive : Archive} {options : Options} {locale : Locale}
  {origin library : Library World} {outputs done pending : List OutputFile} {output : OutputFile} {fuel : Nat}

/-- The outputs can be written one after the other: no one stands on the way to one, no file comes twice, and
there is room for all of them. -/
structure Compatible (origin : World) (outputs : List OutputFile) : Prop where
  apart : ∀ output ∈ outputs, ∀ other ∈ outputs, ¬ origin.OnWay other.dirname (output.place origin)
  distinct : (outputs.map OutputFile.index).Nodup
  room : (outputs.map fun output => output.content.length).sum ≤ origin.disk.store.room

variable (libraries archive options locale origin outputs) in
/-- All outputs can be written from a cabinet that has just been opened. -/
structure Ready : Prop extends Compatible origin.io outputs where
  opened : origin.fileDescriptors = fun _ => none
  format : options.format = .new
  obtainable : ∀ output ∈ outputs, Obtainable libraries archive options locale origin output

variable (libraries archive origin library done pending) in
/-- The outputs `done` have been written, and of the files `pending` the library knows what the header
says. -/
structure Underway : Prop where
  consistent : Consistent libraries.onWorld archive.header library
  unused : ∀ output ∈ pending, Unused archive.header library output.index.toNat
  extracted : Extracted origin.io done library.io

/-- The file is restored with loops cut off after `fuel` turns. -/
def RestoredWith (libraries : Libraries) (archive : Archive) (origin : Library World) (fuel : Nat)
    (output : OutputFile) : Prop :=
  ∃ fd, readFileDescriptor archive.header output.index = .ret fd ∧
    RestoresWith libraries archive fuel origin.io.disk.store.cabinets output.index fd output.content

theorem outputDirname_congr {one two : Library World} {namePrefix : Option Bytes} {index : Int}
    (same : (findFileDescriptor archive index one).1 = (findFileDescriptor archive index two).1) :
    outputDirname libraries.onWorld archive options locale namePrefix index one =
      outputDirname libraries.onWorld archive options locale namePrefix index two := by
  rw [outputDirname, outputDirname, same]

theorem outputBuffer_congr {one two : Library World} {index : Int} (dirname : Bytes)
    (same : (findFileDescriptor archive index one).1 = (findFileDescriptor archive index two).1) :
    outputBuffer libraries.onWorld archive options locale index one dirname =
      outputBuffer libraries.onWorld archive options locale index two dirname := by
  rw [outputBuffer, outputBuffer, same]

/-- The name behind the directory part comes from the buffer. -/
theorem outputFilename_eq_some {namePrefix : Option Bytes} {index : Int} {dirname filename : Bytes}
    (directory : outputDirname libraries.onWorld archive options locale namePrefix index library =
      .ret (some dirname))
    (named : outputFilename libraries.onWorld archive options locale namePrefix index library =
      .ret (some filename)) :
    ∃ buffer, outputBuffer libraries.onWorld archive options locale index library dirname = .ret buffer ∧
      convertName locale libraries.pathMax dirname buffer = some filename := by
  rw [outputFilename, directory, Exit.bind_ret] at named
  obtain ⟨buffer, filled, converted⟩ := Exit.bind_eq_ret_iff.1 named
  exact ⟨buffer, filled, Exit.ret.inj converted⟩

/-- A file that is extracted joins those that have been. -/
theorem Extracted.save {world after : World} {saved : Disk} (extracted : Extracted origin.io done world)
    (clear : ∀ place, world.OnWay output.dirname place → world.Clear place)
    (seen : Shows (world.prepared output.dirname) after saved)
    (stores : Stores (Paths.render slash (output.place origin.io)) output.content world.disk.store
      saved.store) : Extracted origin.io (done ++ [output]) after := by
  have same := world.sameFiles_prepared output.dirname
  refine
    { cwd := (seen.cwd.trans same.cwd).trans extracted.cwd
      mayCreate := (seen.mayCreate.trans same.mayCreate).trans extracted.mayCreate
      mayRemove := (seen.mayRemove.trans same.mayRemove).trans extracted.mayRemove
      medium := ?_
      directories := ?_
      files := ?_
      room := ?_ }
  · rw [seen.disk]
    exact extracted.medium.trans stores.toSameMedium
  · intro place
    rw [seen.tree, World.isDirectory_prepared clear, extracted.directories, extracted.onWay_iff, or_assoc]
    simp only [List.mem_append, List.mem_singleton, or_and_right, exists_or, exists_eq_left]
  · rw [seen.disk, stores.files, extracted.files, writeAll, writeAll, List.foldl_append]
    rfl
  · have before := extracted.room
    have more := stores.room
    rw [seen.disk, List.map_append, List.sum_append, List.map_singleton, List.sum_singleton]
    omega

section

variable (ready : Ready libraries archive options locale origin outputs)
include ready

/-- On the way to an output there is still nothing that stands in it. -/
theorem Ready.clear {world : World} (extracted : Extracted origin.io done world)
    (earlier : ∀ other ∈ done, other ∈ outputs) (member : output ∈ outputs) {place : Place}
    (onWay : world.OnWay output.dirname place) : world.Clear place := by
  have plain : ∀ other ∈ done, ∀ name ∈ other.place origin.io, Paths.Plain slash name := by
    intro other before
    have obtainable := ready.obtainable other (earlier other before)
    exact origin.io.plain_placeOf obtainable.plain obtainable.enters
  rw [extracted.onWay_iff] at onWay
  apply extracted.clear onWay.plain plain _ ((ready.obtainable output member).clear place onWay)
  rintro other before rfl
  exact ready.apart other (earlier other before) output member onWay

/-- With the directories on its way made, the path of an output leads to its place. -/
theorem Ready.namesPlace {world : World} (extracted : Extracted origin.io done world)
    (earlier : ∀ other ∈ done, other ∈ outputs) (member : output ∈ outputs) :
    NamesPlace (world.prepared output.dirname) output.path (Paths.render slash (output.place origin.io)) := by
  have obtainable := ready.obtainable output member
  have clear : ∀ place, world.OnWay output.dirname place → world.Clear place :=
    fun _ onWay => ready.clear extracted earlier member onWay
  refine ⟨output.place origin.io, ?_, ?_, rfl⟩
  · rw [← show world.placeOf output.dirname output.name = output.place origin.io from
      extracted.placeOf output.dirname output.name]
    exact World.locate_prepared clear obtainable.opens obtainable.plain obtainable.enters
  · rw [World.isDirectory_prepared clear, extracted.directories, extracted.onWay_iff]
    rintro ((old | ⟨other, before, onWay⟩) | onWay)
    · exact obtainable.free old
    · exact ready.apart output member other (earlier other before) onWay
    · exact ready.apart output member output member onWay

/-- What the outputs before it have left is room enough for the next one. -/
theorem Ready.room_left {world : World} (extracted : Extracted origin.io done world)
    (whole : outputs = done ++ output :: pending) : output.content.length ≤ world.disk.store.room := by
  have all := ready.room
  have taken := extracted.room
  rw [whole, List.map_append, List.sum_append, List.map_cons, List.sum_cons] at all
  omega

/-- What is still to come has other indices. -/
theorem Ready.index_ne (whole : outputs = done ++ output :: pending) {later : OutputFile}
    (after : later ∈ pending) : later.index.toNat ≠ output.index.toNat := by
  have valid := (ready.obtainable later (by simp [whole, after])).valid
  have valid' := (ready.obtainable output (by simp [whole])).valid
  have distinct := ready.distinct
  rw [whole, List.map_append, List.map_cons, List.nodup_append, List.nodup_cons] at distinct
  intro same
  apply distinct.2.1.1
  rw [← Int.toNat_of_nonneg valid'.1, ← same, Int.toNat_of_nonneg valid.1]
  exact List.mem_map_of_mem after

/-- One file is extracted. -/
theorem extractFile_underway (whole : outputs = done ++ output :: pending)
    (restored : RestoredWith libraries archive origin fuel output)
    (underway : Underway libraries archive origin library done (output :: pending)) :
    ∃ library', extractFile libraries.onWorld World.system archive options locale fuel output.namePrefix
        output.index library = (.ret true, library') ∧
      Underway libraries archive origin library' (done ++ [output]) pending := by
  have member : output ∈ outputs := by
    rw [whole]
    exact List.mem_append_right _ List.mem_cons_self
  have earlier : ∀ other ∈ done, other ∈ outputs := by
    intro other before
    rw [whole]
    exact List.mem_append_left _ before
  have obtainable := ready.obtainable output member
  have extracted := underway.extracted
  obtain ⟨fd, decoded, restores⟩ := restored
  have unused := underway.unused output List.mem_cons_self
  -- the descriptor is the one of the header, and so are the names
  have found := findFileDescriptor_of_unused obtainable.valid unused decoded
  have found_origin := findFileDescriptor_of_unused obtainable.valid
    (unused_of_opened ready.opened output.index.toNat) decoded
  have same : (findFileDescriptor archive output.index library).1 =
      (findFileDescriptor archive output.index origin).1 := by
    rw [found, found_origin]
  obtain ⟨buffer, filled, converted⟩ := outputFilename_eq_some obtainable.directory obtainable.filename
  have described : Unused archive.header
      { fileDescriptors := (library.having output.index fd).fileDescriptors
        io := library.io.disk : Library Disk }
      output.index.toNat := unused.having obtainable.valid decoded
  obtain ⟨saved, fd', save, stores, known⟩ := restores _ (Paths.render slash (output.place origin.io))
    extracted.medium.cabinets
    (by rw [Describes, getFileDescriptor_of_unused obtainable.valid described decoded])
    (by rw [extracted.medium.writable]; exact obtainable.writable) (ready.room_left extracted whole)
  obtain ⟨library', run, remembered, seen⟩ := extractFile_of_saved ready.format
    ((outputDirname_congr same).trans obtainable.directory) ((outputBuffer_congr _ same).trans filled)
    converted ((extracted.inside options output.path).trans obtainable.inside)
    (ready.namesPlace extracted earlier member) (by rw [found]; exact save)
  refine ⟨library', run, ?_, ?_,
    extracted.save (fun _ onWay => ready.clear extracted earlier member onWay) seen stores⟩
  · exact (preserves_extractFile World.system options locale fuel output.namePrefix output.index).of_run
      underway.consistent run
  · intro later after other there
    have other_index := ready.index_ne whole after
    rw [remembered, known, Function.update_of_ne other_index,
      getFileDescriptor_of_unused obtainable.valid described decoded] at there
    refine underway.unused later (List.mem_cons_of_mem _ after) other ?_
    rw [← there]
    exact ((Function.update_of_ne other_index _ _).trans (Function.update_of_ne other_index _ _)).symm

end

end

/-! ### The loops -/

section

variable {libraries : Libraries} {archive : Archive} {settings : Settings} {locale : Locale}
  {fnmatch : Bytes → Bytes → Bool} {fuel : Nat} {origin : Library World}
  {outputs done pending later : List OutputFile} {output : OutputFile} {index : Int}

variable (libraries archive origin done pending) in
/-- The program has extracted the outputs `done`, all of them with success. -/
structure Acting (program : Program World) : Prop where
  underway : Underway libraries archive origin program.library done pending
  attempts : program.attempts = done.map fun output => { index := output.index, success := true }
  exitStatus : program.exitStatus = 0
  totals : program.totals = []

variable (libraries archive settings fnmatch origin) in
/-- The condition of the extraction can be answered for the file. -/
def Answered (index : Int) : Prop :=
  ∃ chosen, (extractCondition libraries.onWorld archive settings fnmatch index origin).1 = .ret chosen

theorem inLibrary_of_ret {α : Type} {call : Proc (Library World) α} {program : Program World} {value : α}
    {library : Library World} (run : call program.library = (.ret value, library)) :
    inLibrary call program = (.ret value, { program with library }) := by
  rw [inLibrary, run]

/-- The condition is answered as the header says, and nothing changes. -/
theorem achieves_condition (opened : origin.fileDescriptors = fun _ => none)
    (answered : Answered libraries archive settings fnmatch origin index) :
    Proc.Achieves (Acting libraries archive origin done pending)
      (inLibrary (extractCondition libraries.onWorld archive settings fnmatch index))
      fun chosen program =>
        chosen = isSelected libraries.onWorld archive settings fnmatch .extract index ∧
          Acting libraries archive origin done pending program := by
  intro program acting
  obtain ⟨chosen, asked⟩ := answered
  have consistent := acting.underway.consistent
  have same := ((simulates_extractCondition settings fnmatch index) program.library origin
    ⟨consistent, consistent_of_opened opened⟩).1.eq
  rw [asked] at same
  have run := Proc.run_eq_ret same
  obtain ⟨selected, after⟩ := extractCondition_answers index program.library chosen _ consistent run
  have unchanged : (extractCondition libraries.onWorld archive settings fnmatch index program.library).2.io =
      program.library.io :=
    preserves_extractCondition
      (preserves_getFileDescriptor (P := fun io => io = program.library.io) archive.header) index
      program.library rfl
  refine ⟨chosen, _, inLibrary_of_ret run, selected, ?_, acting.attempts, acting.exitStatus, acting.totals⟩
  constructor
  · exact after
  · intro output member
    exact preserves_extractCondition (preserves_getFileDescriptor_unused output.index.toNat) index
      program.library (acting.underway.unused output member)
  · show Extracted origin.io done (extractCondition _ _ _ _ index program.library).2.io
    rw [unchanged]
    exact acting.underway.extracted

/-- A file of the plan is extracted, and the program notes a success. -/
theorem achieves_attempt (ready : Ready libraries archive settings.toOptions locale origin outputs)
    (whole : outputs = done ++ output :: pending)
    (restored : RestoredWith libraries archive origin fuel output) {namePrefix : Exit (Option Bytes)}
    (named : namePrefix = .ret output.namePrefix) :
    Proc.Achieves (Acting libraries archive origin done (output :: pending))
      (attempt (extractFileUnder libraries.onWorld World.system archive settings locale fuel namePrefix)
        output.index)
      fun success program => success = true ∧
        Acting libraries archive origin (done ++ [output]) pending program := by
  intro program acting
  obtain ⟨library', run, underway⟩ := extractFile_underway ready whole restored acting.underway
  have called : extractFileUnder libraries.onWorld World.system archive settings locale fuel namePrefix
      output.index program.library = (.ret true, library') := by
    rw [extractFileUnder, named, Proc.ofExit_ret_bind_run, run]
  refine ⟨true, _, Proc.bind_of_ret (inLibrary_of_ret called), rfl, underway, ?_, acting.exitStatus,
    acting.totals⟩
  show program.attempts ++ [_] = _
  rw [acting.attempts, List.map_append]
  rfl

/-- A file that is not selected is passed over. -/
theorem achieves_passOver (opened : origin.fileDescriptors = fun _ => none)
    (answered : Answered libraries archive settings fnmatch origin index)
    (passed : ¬ isSelected libraries.onWorld archive settings fnmatch .extract index = true)
    (call : Int → Proc (Library World) Bool) :
    Proc.Achieves (Acting libraries archive origin done pending)
      (processFile (extractCondition libraries.onWorld archive settings fnmatch) call index)
      fun success program => success = false ∧ Acting libraries archive origin done pending program := by
  refine .bind (achieves_condition opened answered) fun chosen => ?_
  rintro program ⟨same, acting⟩
  rw [same, if_neg passed]
  exact ⟨false, program, rfl, rfl, acting⟩

/-- A file that is selected is attempted. -/
theorem achieves_process (ready : Ready libraries archive settings.toOptions locale origin outputs)
    (whole : outputs = done ++ output :: pending)
    (restored : RestoredWith libraries archive origin fuel output) {namePrefix : Exit (Option Bytes)}
    (named : namePrefix = .ret output.namePrefix)
    (answered : Answered libraries archive settings fnmatch origin output.index)
    (selected : isSelected libraries.onWorld archive settings fnmatch .extract output.index = true) :
    Proc.Achieves (Acting libraries archive origin done (output :: pending))
      (processFile (extractCondition libraries.onWorld archive settings fnmatch)
        (extractFileUnder libraries.onWorld World.system archive settings locale fuel namePrefix)
        output.index)
      fun success program => success = true ∧
        Acting libraries archive origin (done ++ [output]) pending program := by
  refine .bind (achieves_condition ready.opened answered) fun chosen => ?_
  rintro program ⟨same, acting⟩
  rw [same, if_pos selected]
  exact achieves_attempt ready whole restored named program acting

/-! ### The files of a group -/

variable (libraries archive settings fnmatch origin) in
/-- The outputs are what is selected of a range of indices. -/
def Covers (first last : Int) (outputs : List OutputFile) : Prop :=
  outputs.map OutputFile.index =
    (Int.range first (last + 1)).filter (isSelected libraries.onWorld archive settings fnmatch .extract)

/-- The state of the loop of a helper: the outputs `gone` have been written, and those that are left are
what is selected of the indices from `i` on. -/
def Looping (libraries : Libraries) (archive : Archive) (settings : Settings)
    (fnmatch : Bytes → Bytes → Bool) (origin : Library World) (done here later : List OutputFile) (last : Int)
    (measure : Nat) (vars : Int × Int) (program : Program World) : Prop :=
  ∃ gone rest, here = gone ++ rest ∧ vars.2 = gone.length ∧ measure = (last + 1 - vars.1).toNat ∧
    Covers libraries archive settings fnmatch vars.1 last rest ∧
    Acting libraries archive origin (done ++ gone) (rest ++ later) program

/-- One turn of the loop. -/
theorem achieves_helperTurn {here : List OutputFile} {first last : Int} {namePrefix : Exit (Option Bytes)}
    (ready : Ready libraries archive settings.toOptions locale origin outputs)
    (whole : outputs = done ++ here ++ later)
    (restored : ∀ output ∈ outputs, RestoredWith libraries archive origin fuel output)
    (named : ∀ output ∈ here, namePrefix = .ret output.namePrefix)
    (answered : ∀ index ≥ first, index ≤ last → Answered libraries archive settings fnmatch origin index)
    (room : last < intMax) (counted : (outputs.length : Int) ≤ intMax) (measure : Nat) (vars : Int × Int) :
    Proc.Achieves
      (fun program => first ≤ vars.1 ∧
        Looping libraries archive settings fnmatch origin done here later last measure vars program)
      (helperTurn (extractCondition libraries.onWorld archive settings fnmatch)
        (extractFileUnder libraries.onWorld World.system archive settings locale fuel namePrefix) last vars)
      (Proc.Turn.Meets
        (fun next program => ∃ smaller < measure, first ≤ next.1 ∧
          Looping libraries archive settings fnmatch origin done here later last smaller next program)
        fun count program => count = here.length ∧
          Acting libraries archive origin (done ++ here) later program) := by
  rintro program ⟨behind, gone, rest, split, count, size, covers, acting⟩
  rw [helperTurn]
  by_cases going : vars.1 ≤ last
  · have next : addInt vars.1 1 = .ret (vars.1 + 1) := addInt_of_le (by omega)
    have smaller : (last + 1 - (vars.1 + 1)).toNat < measure := by omega
    rw [if_pos going]
    rw [Covers, range_of_lt (Int.lt_add_one_of_le going), List.filter_cons] at covers
    by_cases selected :
        isSelected libraries.onWorld archive settings fnmatch .extract vars.1 = true
    · rw [if_pos selected, List.map_eq_cons_iff] at covers
      obtain ⟨output, rest, rfl, same, covers⟩ := covers
      have whole' : outputs = (done ++ gone) ++ output :: (rest ++ later) := by
        rw [whole, split]
        simp only [List.append_assoc, List.cons_append]
      obtain ⟨success, between, processed, succeeded, acting⟩ := achieves_process ready whole'
        (restored output (by simp [whole'])) (named output (by simp [split]))
        (by rw [same]; exact answered _ behind going) (by rw [same]; exact selected) program acting
      rw [same] at processed
      have total : addInt vars.2 1 = .ret (vars.2 + 1) := by
        apply addInt_of_le
        rw [whole', List.length_append, List.length_append, List.length_cons] at counted
        omega
      rw [Proc.bind_of_ret processed, succeeded, if_pos rfl, total, Proc.ofExit_ret_bind_run, next]
      refine ⟨_, between, rfl, _, smaller, by omega, gone ++ [output], rest, ?_, ?_, rfl, covers, ?_⟩
      · rw [split, List.append_assoc]
        rfl
      · rw [List.length_append]
        show vars.2 + 1 = _
        rw [count]
        rfl
      · rw [← List.append_assoc]
        exact acting
    · rw [if_neg selected] at covers
      obtain ⟨success, between, processed, failed, acting⟩ := achieves_passOver ready.opened
        (answered _ behind going) selected
        (extractFileUnder libraries.onWorld World.system archive settings locale fuel namePrefix)
        program acting
      rw [Proc.bind_of_ret processed, failed, if_neg Bool.false_ne_true, Proc.ofExit_ret_bind_run, next]
      exact ⟨_, between, rfl, _, smaller, by omega, gone, rest, split, count, rfl, covers, acting⟩
  · rw [Covers, range_of_le (by omega), List.filter_nil, List.map_eq_nil_iff] at covers
    subst covers
    rw [List.append_nil] at split
    rw [if_neg going]
    refine ⟨.done vars.2, program, rfl, ?_, ?_⟩
    · rw [count, split]
    · rw [split]
      exact acting

/-- The loop over the files of a group extracts those that are selected. -/
theorem achieves_extractHelper {here : List OutputFile} {first last : Int}
    {namePrefix : Exit (Option Bytes)}
    (ready : Ready libraries archive settings.toOptions locale origin outputs)
    (whole : outputs = done ++ here ++ later)
    (restored : ∀ output ∈ outputs, RestoredWith libraries archive origin fuel output)
    (named : ∀ output ∈ here, namePrefix = .ret output.namePrefix)
    (answered : ∀ index ≥ first, index ≤ last → Answered libraries archive settings fnmatch origin index)
    (room : last < intMax) (counted : (outputs.length : Int) ≤ intMax)
    (covers : Covers libraries archive settings fnmatch first last here) :
    Proc.Achieves (Acting libraries archive origin done (here ++ later))
      (extractHelper libraries.onWorld World.system archive settings locale fnmatch fuel namePrefix first
        last)
      fun count program => count = here.length ∧
        Acting libraries archive origin (done ++ here) later program := by
  refine .weaken (.iterate (achieves_helperTurn ready whole restored named answered room counted) _ _
    (Nat.lt_succ_self _)) ?_ fun _ _ reached => reached
  intro program acting
  refine ⟨Int.le_refl _, [], here, rfl, rfl, rfl, covers, ?_⟩
  rw [List.append_nil]
  exact acting

/-! ### The groups -/

variable (libraries archive settings fnmatch) in
/-- The files of a group that are to be extracted, with the prefix that they get. -/
def plannedIn (fileGroup : FileGroup) : List (Exit (Option Bytes) × Int) :=
  ((fileIndices fileGroup).filter (isSelected libraries.onWorld archive settings fnmatch .extract)).map
    fun index => (fileGroup.name.text archive.header, index)

/-- An output as far as the plan goes. -/
def OutputFile.planned (output : OutputFile) : Exit (Option Bytes) × Int :=
  (.ret output.namePrefix, output.index)

theorem named_of_planned {fileGroup : FileGroup} {here : List OutputFile}
    (planned : here.map OutputFile.planned = plannedIn libraries archive settings fnmatch fileGroup) :
    (∀ output ∈ here, fileGroup.name.text archive.header = .ret output.namePrefix) ∧
      Covers libraries archive settings fnmatch fileGroup.firstFile fileGroup.lastFile here := by
  constructor
  · intro output member
    have within := List.mem_map_of_mem (f := OutputFile.planned) member
    rw [planned] at within
    obtain ⟨index, _, same⟩ := List.mem_map.1 within
    exact congrArg Prod.fst same
  · have indices := congrArg (List.map Prod.snd) planned
    rw [plannedIn, List.map_map, List.map_map] at indices
    exact indices.trans (List.map_id _)

variable (libraries archive settings fnmatch origin) in
/-- The loop over the files of a group meets no condition without an answer and no overflow. -/
structure Passable (fileGroup : FileGroup) : Prop where
  answered : ∀ index ∈ fileIndices fileGroup, Answered libraries archive settings fnmatch origin index
  ends : fileGroup.lastFile < intMax

/-- The files of a group that are planned are extracted, with the name of the group or without one. -/
theorem achieves_group {fileGroup : FileGroup} {here : List OutputFile}
    {namePrefix : Exit (Option Bytes)} (prefixed : namePrefix = fileGroup.name.text archive.header)
    (ready : Ready libraries archive settings.toOptions locale origin outputs)
    (restored : ∀ output ∈ outputs, RestoredWith libraries archive origin fuel output)
    (counted : (outputs.length : Int) ≤ intMax)
    (passable : Passable libraries archive settings fnmatch origin fileGroup)
    (whole : outputs = done ++ here ++ later)
    (planned : here.map OutputFile.planned = plannedIn libraries archive settings fnmatch fileGroup) :
    Proc.Achieves (Acting libraries archive origin done (here ++ later))
      (extractHelper libraries.onWorld World.system archive settings locale fnmatch fuel namePrefix
        fileGroup.firstFile fileGroup.lastFile)
      fun count program => count = here.length ∧
        Acting libraries archive origin (done ++ here) later program := by
  obtain ⟨named, covers⟩ := named_of_planned planned
  refine achieves_extractHelper ready whole restored
    (fun output member => prefixed.trans (named output member)) ?_ passable.ends counted covers
  intro index behind before
  exact passable.answered index (Int.mem_range_iff.2 ⟨behind, by omega⟩)

/-- The loop over the groups extracts the files of all of them. -/
theorem achieves_actOnAll (ready : Ready libraries archive settings.toOptions locale origin outputs)
    (restored : ∀ output ∈ outputs, RestoredWith libraries archive origin fuel output)
    (counted : (outputs.length : Int) ≤ intMax) (fileGroups : List FileGroup) :
    ∀ {done pending : List OutputFile} {count : Int},
      (∀ fileGroup ∈ fileGroups, fileGroup.firstFile ≠ -1 →
        Passable libraries archive settings fnmatch origin fileGroup) →
      outputs = done ++ pending → count = done.length →
      pending.map OutputFile.planned = (fileGroups.filter fun fileGroup => fileGroup.firstFile ≠ -1).flatMap
        (plannedIn libraries archive settings fnmatch) →
      Proc.Achieves (Acting libraries archive origin done pending)
        (actOnAll archive
          (extractHelper libraries.onWorld World.system archive settings locale fnmatch fuel) fileGroups
          count)
        fun total program => total = outputs.length ∧ Acting libraries archive origin outputs [] program := by
  induction fileGroups with
  | nil =>
      intro done pending count _ whole so_far planned
      rw [List.filter_nil, List.flatMap_nil, List.map_eq_nil_iff] at planned
      rw [planned, List.append_nil] at whole
      refine .pure fun program acting => ?_
      rw [whole, ← planned]
      exact ⟨so_far, acting⟩
  | cons fileGroup fileGroups ih =>
      intro done pending count passable whole so_far planned
      have later := fun other member => passable other (List.mem_cons_of_mem _ member)
      rw [actOnAll]
      by_cases present : fileGroup.firstFile ≠ -1
      · rw [List.filter_cons, if_pos (decide_eq_true present), List.flatMap_cons,
          List.map_eq_append_iff] at planned
        obtain ⟨here, pending, rfl, inside, behind⟩ := planned
        rw [← List.append_assoc] at whole
        rw [if_pos present]
        refine .bind (achieves_group rfl ready restored counted
          (passable fileGroup List.mem_cons_self present) whole inside) fun more => ?_
        rintro program ⟨same, acting⟩
        have sum : addInt count more = .ret ((done ++ here).length : Nat) := by
          rw [whole, List.length_append] at counted
          rw [List.length_append] at counted ⊢
          rw [so_far, same, addInt_of_le (by omega)]
          rfl
        rw [sum, Proc.ofExit_ret_bind_run]
        exact ih later whole rfl behind program acting
      · rw [List.filter_cons, if_neg (by rw [decide_eq_true_eq]; exact present)] at planned
        rw [if_neg present]
        exact ih later whole so_far planned

/-! ### The whole action -/

variable (libraries archive settings locale fnmatch origin outputs) in
/-- The outputs are what the action is to extract, and nothing keeps it from doing so. -/
structure Plan (fileGroups : List FileGroup) : Prop
    extends Ready libraries archive settings.toOptions locale origin outputs where
  noComponent : settings.componentName = none
  searched : ∀ name, settings.fileGroupName = some name →
    ∃ found, fileGroupFind archive name fileGroups = .ret found
  passable : ∀ fileGroup ∈ processedGroups archive settings fileGroups,
    Passable libraries archive settings fnmatch origin fileGroup
  planned : outputs.map OutputFile.planned = (processedGroups archive settings fileGroups).flatMap
    (plannedIn libraries archive settings fnmatch)

/-- There are not more outputs than numbers of type `int`. -/
theorem Ready.counted (ready : Ready libraries archive settings.toOptions locale origin outputs) :
    (outputs.length : Int) ≤ intMax := by
  have within : outputs.map OutputFile.index ⊆ Int.range 0 intMax := by
    intro index member
    obtain ⟨output, there, rfl⟩ := List.mem_map.1 member
    exact Int.mem_range_iff.2 (ready.obtainable output there).valid.lt_intMax
  have fewer := (ready.distinct.subperm within).length_le
  rw [List.length_map, Int.range, List.length_map, List.length_range] at fewer
  have positive : 0 ≤ intMax := by decide
  omega

/-- A bound for the loops of all outputs. -/
theorem Ready.restored (ready : Ready libraries archive settings.toOptions locale origin outputs) :
    ∃ enough, ∀ fuel ≥ enough, ∀ output ∈ outputs, RestoredWith libraries archive origin fuel output := by
  have each := fun output member => (ready.obtainable output member).restores
  clear ready
  induction outputs with
  | nil => exact ⟨0, fun _ _ _ member => absurd member List.not_mem_nil⟩
  | cons output outputs ih =>
      obtain ⟨others, rest⟩ := ih fun output member => each output (List.mem_cons_of_mem _ member)
      obtain ⟨fd, decoded, enough, first⟩ := each output List.mem_cons_self
      refine ⟨max enough others, fun fuel more other member => ?_⟩
      rcases List.mem_cons.1 member with rfl | later
      · exact ⟨fd, decoded, first fuel (by omega)⟩
      · exact rest fuel (by omega) other later

/-- The groups that are processed are gone through. -/
theorem achieves_actOnGroups {fileGroups : List FileGroup}
    (plan : Plan libraries archive settings locale fnmatch origin outputs fileGroups)
    (restored : ∀ output ∈ outputs, RestoredWith libraries archive origin fuel output) :
    Proc.Achieves (Acting libraries archive origin [] outputs)
      (actOnGroups archive settings
        (extractHelper libraries.onWorld World.system archive settings locale fnmatch fuel) fileGroups)
      fun total program => total = outputs.length ∧ Acting libraries archive origin outputs [] program := by
  have counted := plan.toReady.counted
  have passable := plan.passable
  have planned := plan.planned
  rw [processedGroups] at passable planned
  rw [actOnGroups]
  cases named : settings.fileGroupName with
  | none =>
      rw [named] at passable planned
      refine achieves_actOnAll plan.toReady restored counted fileGroups ?_ rfl rfl planned
      exact fun fileGroup member present =>
        passable fileGroup (List.mem_filter.2 ⟨member, decide_eq_true present⟩)
  | some name =>
      rw [named] at passable planned
      obtain ⟨found, searched⟩ := plan.searched name named
      have first := fileGroupFind_eq_ret searched
      dsimp only at passable planned
      rw [← first] at passable planned
      dsimp only
      rw [actOnNamed, searched]
      cases found with
      | none =>
          obtain rfl := List.map_eq_nil_iff.1 planned
          exact .pure fun program acting => ⟨rfl, acting⟩
      | some fileGroup =>
          have text := List.find?_some first.symm
          rw [decide_eq_true_eq] at text
          rw [Option.toList_some, List.flatMap_singleton] at planned
          have whole : outputs = [] ++ outputs ++ [] := (List.append_nil outputs).symm
          have group := achieves_group text.symm plan.toReady restored counted
            (passable fileGroup List.mem_cons_self) whole planned
          rw [List.append_nil, List.nil_append] at group
          exact group

/-- With enough fuel the action extracts all of the outputs. -/
theorem acts_of_plan {fileGroups : List FileGroup}
    (plan : Plan libraries archive settings locale fnmatch origin outputs fileGroups) :
    ∃ enough, ∀ fuel ≥ enough, ∃ program,
      runAction libraries.onWorld World.system archive settings locale fnmatch fuel fileGroups .extract
        { library := origin } = (.ret 0, program) ∧
      (program.attempts = outputs.map fun output => { index := output.index, success := true }) ∧
      program.totals = [(outputs.length : Int)] ∧ Extracted origin.io outputs program.library.io := by
  obtain ⟨enough, restored⟩ := plan.toReady.restored
  refine ⟨enough, fun fuel more => ?_⟩
  have start : Acting libraries archive origin [] outputs { library := origin } :=
    { underway :=
        { consistent := consistent_of_opened plan.opened
          unused := fun output _ => unused_of_opened plan.opened output.index.toNat
          extracted := Extracted.nothing origin.io }
      attempts := rfl
      exitStatus := rfl
      totals := rfl }
  obtain ⟨total, program, run, same, acting⟩ := achieves_actOnGroups plan (restored fuel more) _ start
  refine ⟨{ program with totals := program.totals ++ [total] }, ?_, acting.attempts, ?_,
    acting.underway.extracted⟩
  · have acted : doAction archive settings
        (helperFor libraries.onWorld World.system archive settings locale fnmatch fuel .extract) fileGroups
        { library := origin } = (.ret true, { program with totals := program.totals ++ [total] }) := by
      rw [doAction, if_neg (not_not_intro plan.noComponent)]
      exact Proc.bind_of_ret run
    rw [runAction, Proc.bind_of_ret acted, exitWith]
    show (Exit.ret program.exitStatus, _) = _
    rw [acting.exitStatus]
    rfl
  · show program.totals ++ [total] = _
    rw [acting.totals, same]
    rfl

/-- The output that comes last at its place is what is found there. -/
theorem Extracted.fileAt_output {world after : World} {before later : List OutputFile}
    (extracted : Extracted world (before ++ output :: later) after)
    (writable : world.disk.store.writable (Paths.render slash (output.place world)) = true)
    (plain : ∀ other ∈ before ++ output :: later, ∀ name ∈ other.place world, Paths.Plain slash name)
    (last : ∀ other ∈ later, other.place world ≠ output.place world) :
    after.fileAt (output.place world) = some output.content := by
  have here : ∀ other ∈ output :: later, other ∈ before ++ output :: later :=
    fun other member => List.mem_append_right _ member
  have rest := writeAll_of_apart (plain output (here output List.mem_cons_self))
    (fun other member => plain other (here other (List.mem_cons_of_mem _ member))) last
  rw [World.fileAt, Store.content_of_writable (by rw [extracted.medium.writable]; exact writable),
    extracted.files, writeAll, List.foldl_append, List.foldl_cons]
  refine (rest _).trans ?_
  exact Function.update_self ..

/-- If the outputs are what is selected of the groups, in their order, and each of them can be restored at a
place that can be reached and is not needed for a directory, then the action extracts all of them and says
so; each place then has the content of the last output that leads there, every other file is as it was, and
all directories are old ones or on the way to an output. -/
theorem runAction_extracts {fileGroups : List FileGroup}
    (plan : Plan libraries archive settings locale fnmatch origin outputs fileGroups) :
    ∃ enough, ∀ fuel ≥ enough, ∃ program,
      runAction libraries.onWorld World.system archive settings locale fnmatch fuel fileGroups .extract
        { library := origin } = (.ret 0, program) ∧
      (program.attempts = outputs.map fun output => { index := output.index, success := true }) ∧
      program.totals = [(outputs.length : Int)] ∧
      (∀ before output later, outputs = before ++ output :: later →
        (∀ other ∈ later, other.place origin.io ≠ output.place origin.io) →
          program.library.io.fileAt (output.place origin.io) = some output.content) ∧
      (∀ place, (∀ name ∈ place, Paths.Plain slash name) →
        (∀ output ∈ outputs, output.place origin.io ≠ place) →
          program.library.io.fileAt place = origin.io.fileAt place) ∧
      (∀ place, program.library.io.tree.isDirectory place = true ↔
        origin.io.tree.isDirectory place = true ∨
          ∃ output ∈ outputs, origin.io.OnWay output.dirname place) ∧
      Extracted origin.io outputs program.library.io := by
  obtain ⟨enough, acts⟩ := acts_of_plan plan
  have plain : ∀ output ∈ outputs, ∀ name ∈ output.place origin.io, Paths.Plain slash name := by
    intro output member
    have obtainable := plan.obtainable output member
    exact origin.io.plain_placeOf obtainable.plain obtainable.enters
  refine ⟨enough, fun fuel more => ?_⟩
  obtain ⟨program, run, attempts, totals, extracted⟩ := acts fuel more
  refine ⟨program, run, attempts, totals, ?_, ?_, extracted.directories, extracted⟩
  · rintro before output later rfl last
    exact extracted.fileAt_output
      (plan.obtainable output (List.mem_append_right _ List.mem_cons_self)).writable plain last
  · exact fun place plain_place apart => extracted.fileAt_of_apart plain_place plain apart

end

/-! ### A cabinet with two files to extract -/

def storedDescriptor (nameOffset : UInt32) : FileDescriptor :=
  { nameOffset, expandedSize := 1, compressedSize := 1, dataOffset := 84, md5 := digestOfA, volume := 1 }

def storedDescriptors : List FileDescriptor := [storedDescriptor 175, storedDescriptor 177]

/-- The files go to the directory `out`. -/
def storedOutput (index : Int) (name : Bytes) : OutputFile :=
  { namePrefix := none, index, dirname := smallPath ++ [slash], name, content := [0x61] }

def storedOutputs : List OutputFile := [storedOutput 0 [0x78], storedOutput 1 [0x79]]

theorem storedDescriptors_checked : ∀ fd ∈ storedDescriptors,
    ¬ fd.Has fileSplit ∧ fd.volume = 1 ∧ fd.dataOffset.toNat = dataStart (storedHeader 1) ∧
      (storedSize fd).toNat = 1 ∧ clearBytes fd 0 [0x61] = [0x61] ∧ ¬ fd.Has fileCompressed ∧
      ¬ fd.Has fileInvalid ∧ fd.dataOffset ≠ 0 ∧ fd.linkFlags &&& linkPrev = 0 ∧
      fd.expandedSize.toNat = 1 ∧ fd.md5 = digestOfA := by
  decide

theorem restores_of_mem_storedDescriptors {index : Int} (last : index ≤ 1) {fd : FileDescriptor}
    (member : fd ∈ storedDescriptors) :
    Restores smallLibraries (storedArchive 1) storedWorld.disk.store.cabinets index fd [0x61] := by
  obtain ⟨whole, volume, start, size, clear, stored, valid, nonzero, unlinked, expanded, digest⟩ :=
    storedDescriptors_checked fd member
  have layout : StoredAt (storedHeader 1) (shelf [lastVolume]) index fd lastVolume [0x61] :=
    storedAt_volumeBytes (by decide) whole volume last start size (by decide)
  have outside : fd.dataOffset.toNat ≠ lastVolume.length := by
    rw [start]
    decide
  have content : HasContent smallLibraries.zlib fd (clearBytes fd 0 [0x61]) (blockSizes [0x61].length)
      [0x61] := by
    rw [clear]
    exact .stored stored [0x61]
  exact restores_of_stored layout outside ⟨valid, nonzero, unlinked, expanded, fun _ => digest.symm⟩ content

theorem storedOutputs_restore (output : OutputFile) (member : output ∈ storedOutputs) :
    ∃ fd, readFileDescriptor (storedHeader 1) output.index = .ret fd ∧
      Restores smallLibraries (storedArchive 1) storedWorld.disk.store.cabinets output.index fd
        output.content := by
  rcases List.mem_cons.1 member with rfl | last
  · exact ⟨storedDescriptor 175, by decide +kernel,
      restores_of_mem_storedDescriptors (by decide) List.mem_cons_self⟩
  · obtain rfl := List.mem_singleton.1 last
    exact ⟨storedDescriptor 177, by decide +kernel,
      restores_of_mem_storedDescriptors (by decide) (List.mem_cons_of_mem _ List.mem_cons_self)⟩

theorem storedOutputs_checked : ∀ output ∈ storedOutputs,
    ValidIndex (storedHeader 1) output.index ∧
    outputDirname smallLibraries.onWorld (storedArchive 1) storedSettings.toOptions asciiLocale none
      output.index (freshLibrary storedWorld) = .ret (some output.dirname) ∧
    outputFilename smallLibraries.onWorld (storedArchive 1) storedSettings.toOptions asciiLocale none
      output.index (freshLibrary storedWorld) = .ret (some output.path) ∧
    output.dirname = smallPath ++ [slash] ∧ slash ∉ output.name ∧
    stepOf dot output.name = .down output.name ∧
    insideOutputDirectory World.system storedSettings.toOptions output.path storedWorld = true ∧
    ¬ storedWorld.tree.isDirectory (output.place storedWorld) = true ∧
    ∀ front ∈ (steps slash dot output.dirname).inits,
      storedWorld.tree.isDirectory (Paths.lexical (storedWorld.start output.dirname) front) = true ∨
        ¬ storedWorld.Blocked (Paths.lexical (storedWorld.start output.dirname) front) := by
  decide +kernel

theorem storedOutputs_obtainable (output : OutputFile) (member : output ∈ storedOutputs) :
    Obtainable smallLibraries (storedArchive 1) storedSettings.toOptions asciiLocale
      (freshLibrary storedWorld) output := by
  obtain ⟨valid, directory, filename, opens, plain, enters, inside, free, clear⟩ :=
    storedOutputs_checked output member
  have unnamed : output.namePrefix = none := by
    rcases List.mem_cons.1 member with rfl | last
    · rfl
    · rw [List.mem_singleton.1 last]
      rfl
  refine
    { valid, plain, enters, inside, free, writable := rfl, opens := .inr ⟨smallPath, opens⟩,
      restores := storedOutputs_restore output member, directory := unnamed ▸ directory,
      filename := unnamed ▸ filename, clear := ?_ }
  rintro _ ⟨front, within, rfl⟩
  exact clear front ((List.mem_inits _ _).2 within)

theorem storedOutputs_apart : ∀ output ∈ storedOutputs, ∀ other ∈ storedOutputs,
    ∀ front ∈ (steps slash dot other.dirname).inits,
      output.place storedWorld ≠ Paths.lexical (storedWorld.start other.dirname) front := by
  decide +kernel

theorem storedOutputs_plan :
    Plan smallLibraries (storedArchive 1) storedSettings asciiLocale (fun pattern name => pattern = name)
      (freshLibrary storedWorld) storedOutputs [storedGroup] where
  opened := rfl
  format := rfl
  obtainable := storedOutputs_obtainable
  apart := by
    rintro output member other member' ⟨front, within, same⟩
    exact storedOutputs_apart output member other member' front ((List.mem_inits _ _).2 within) same
  distinct := by decide
  room := by decide
  noComponent := rfl
  searched := by
    intro name named
    cases named
  passable := by
    intro fileGroup member
    obtain rfl := List.mem_singleton.1 member
    refine ⟨fun index inside => ?_, by decide⟩
    rcases List.mem_cons.1 inside with rfl | last
    · exact ⟨true, by decide +kernel⟩
    · obtain rfl := List.mem_singleton.1 last
      exact ⟨true, by decide +kernel⟩
  planned := by decide +kernel

theorem runAction_extracts_two_files : ∃ fuel program,
    runAction smallLibraries.onWorld World.system (storedArchive 1) storedSettings asciiLocale
        (fun pattern name => pattern = name) fuel [storedGroup] .extract
        { library := freshLibrary storedWorld } = (.ret 0, program) ∧
    program.totals = [2] ∧
    program.library.io.fileAt [smallPath, [0x78]] = some [0x61] ∧
    program.library.io.fileAt [smallPath, [0x79]] = some [0x61] ∧
    program.library.io.tree.isDirectory [smallPath] = true := by
  obtain ⟨enough, acts⟩ := runAction_extracts storedOutputs_plan
  obtain ⟨program, run, _, totals, content, _, directories, _⟩ := acts enough (Nat.le_refl _)
  refine ⟨enough, program, run, totals, ?_, ?_, ?_⟩
  · exact content [] _ [_] rfl (by decide)
  · exact content [_] _ [] rfl (by decide)
  · have onWay : storedWorld.OnWay (storedOutput 0 [0x78]).dirname [smallPath] :=
      ⟨[.down smallPath], ⟨[.stay], by decide⟩, rfl⟩
    exact (directories [smallPath]).2 (.inr ⟨_, List.mem_cons_self, onWay⟩)

end Unshield
