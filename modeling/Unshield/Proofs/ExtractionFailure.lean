/-
Module: Unshield.Proofs.ExtractionFailure
Purpose: What a failed extraction that never opened its output file has done to the file system: it has
  made directories on the way to the file, and has removed the file that its buffer names.
Trusted boundary: none
Main exports: World.Undisturbed, kept_undisturbed, leftoverFilename, extractFile_failed, Untouched,
  Harmless, untouched_iff_harmless
-/
import Unshield.Proofs.ExtractionPath
import Unshield.Proofs.SaveFrame

namespace Unshield

open Procedure
open Paths (Step steps)

namespace World

/-! ### Saving without opening an output file -/

/-- The directories and the permissions are the same, and so are the files, as long as none was
written. -/
structure Undisturbed (world world' : World) : Prop where
  tree : world'.tree = world.tree
  cwd : world'.cwd = world.cwd
  mayRemove : world'.mayRemove = world.mayRemove
  medium : SameMedium world.disk.store world'.disk.store
  written : ∃ more, world'.written = more ++ world.written ∧
    (more = [] → world'.disk.store.files = world.disk.store.files)

theorem Undisturbed.refl (world : World) : Undisturbed world world :=
  ⟨rfl, rfl, rfl, .refl _, [], rfl, fun _ => rfl⟩

variable {origin : World}

/-- A step that writes no file. -/
theorem Undisturbed.of_files {world world' : World} (before : Undisturbed origin world)
    (tree : world'.tree = world.tree) (cwd : world'.cwd = world.cwd)
    (mayRemove : world'.mayRemove = world.mayRemove)
    (medium : SameMedium world.disk.store world'.disk.store) (written : world'.written = world.written)
    (files : world'.disk.store.files = world.disk.store.files) : Undisturbed origin world' := by
  rcases before.written with ⟨more, log, same⟩
  exact ⟨tree.trans before.tree, cwd.trans before.cwd, mayRemove.trans before.mayRemove,
    before.medium.trans medium, more, written.trans log, fun none_new => files.trans (same none_new)⟩

/-- A step that writes a file. -/
theorem Undisturbed.of_written (path : Bytes) {world world' : World}
    (before : Undisturbed origin world) (tree : world'.tree = world.tree)
    (cwd : world'.cwd = world.cwd) (mayRemove : world'.mayRemove = world.mayRemove)
    (medium : SameMedium world.disk.store world'.disk.store)
    (written : world'.written = path :: world.written) : Undisturbed origin world' := by
  rcases before.written with ⟨more, log, _⟩
  refine ⟨tree.trans before.tree, cwd.trans before.cwd, mayRemove.trans before.mayRemove,
    before.medium.trans medium, path :: more, ?_, fun none_new => absurd none_new (List.cons_ne_nil _ _)⟩
  rw [written, log, List.cons_append]

theorem keptBy_undisturbed : KeptBy callbacks (Undisturbed origin) where
  fopen := by
    intro path mode world before
    show Undisturbed origin (fopen path mode world).2
    cases located : world.locate path with
    | none =>
        rw [fopen.eq_def, located]
        exact before
    | some place =>
        by_cases directory : world.tree.isDirectory place = true
        · simp only [fopen, located, if_pos directory]
          cases mode <;> exact before
        · simp only [fopen, located, if_neg directory]
          cases mode with
          | readBinary => exact before.of_files rfl rfl rfl (.refl _) rfl rfl
          | writeBinary =>
              by_cases writable : world.disk.store.writable (Paths.render slash place) = true
              · apply before.of_written (Paths.render slash place)
                · rfl
                · rfl
                · rfl
                · exact sameMedium_fopen _ _ _
                · simp [Disk.fopen, writable]
              · apply before.of_files
                · rfl
                · rfl
                · rfl
                · exact sameMedium_fopen _ _ _
                · simp [Disk.fopen, writable]
                · simp [Disk.fopen, writable]
  fseek := fun _ _ _ _ before => before.of_files rfl rfl rfl (.refl _) rfl rfl
  ftell := fun _ _ before => before.of_files rfl rfl rfl (.refl _) rfl rfl
  fread := fun _ _ _ before => before.of_files rfl rfl rfl (.refl _) rfl rfl
  fwrite := by
    intro file data world before
    show Undisturbed origin (fwrite file data world).2.2
    cases named : file.name with
    | some path =>
        apply before.of_written path
        · rfl
        · rfl
        · rfl
        · exact sameMedium_fwrite _ _ _
        · rw [fwrite, named]
    | none =>
        apply before.of_files
        · rfl
        · rfl
        · rfl
        · exact sameMedium_fwrite _ _ _
        · rw [fwrite, named]
        · simp only [fwrite, Disk.fwrite, named]
  fclose := fun _ _ before => before.of_files rfl rfl rfl (.refl _) rfl rfl

end World

/-- Whatever the library does, directories stay as they are, and files until one is opened for
writing. -/
theorem kept_undisturbed (libraries : Libraries) (origin : World) :
    Kept libraries.onWorld (World.Undisturbed origin) where
  callbacks := World.keptBy_undisturbed
  native := World.keptBy_undisturbed
  openForReading := fun _ _ before => before.of_files rfl rfl rfl (.refl _) rfl rfl
  tmpfile := fun _ before => before.of_files rfl rfl rfl (.refl _) rfl rfl

theorem undisturbed_saveAs (libraries : Libraries) (archive : Archive) (format : Format) (fuel : Nat)
    (index : Int) (filename : Bytes) (library : Library World) :
    World.Undisturbed library.io
      (saveAs libraries.onWorld archive format fuel index filename library).2.io := by
  have kept := kept_undisturbed libraries library.io
  have before := World.Undisturbed.refl library.io
  cases format with
  | new => exact kept.fileSave fuel index (some filename) library before
  | old => exact kept.fileSaveOld fuel index (some filename) library before
  | raw => exact kept.fileSaveRaw fuel index (some filename) library before

/-! ### Removing a file -/

namespace World

/-- `unlink` removes a file, which is no volume. -/
def Removes (world : World) (path : Bytes) : Prop :=
  ∃ place, world.locate path = some place ∧
    (world.mayRemove place = true ∧ world.disk.store.volumeAt (Paths.render slash place) = none) ∧
    world.fileAt place ≠ none

/-- A file that is removed is gone, and all others stay. -/
theorem fileAt_removeFile {world : World} {removed : Place} (place : Place)
    (no_volume : world.disk.store.volumeAt (Paths.render slash removed) = none) :
    (world.removeFile removed).fileAt place =
      if Paths.render slash place = Paths.render slash removed then none else world.fileAt place := by
  rw [fileAt, Store.content]
  simp only [removeFile, Store.remove]
  split_ifs with same
  · rw [same, no_volume, Function.update_self]
  · rw [Function.update_of_ne same]
    rfl

theorem tree_unlink (world : World) (path : Bytes) : (world.unlink path).tree = world.tree := by
  rw [unlink]
  split
  · split <;> rfl
  · rfl

theorem written_unlink (world : World) (path : Bytes) :
    (world.unlink path).written = world.written := by
  rw [unlink]
  split
  · split <;> rfl
  · rfl

theorem fileAt_unlink_of_removes {world : World} {path : Bytes} (removes : world.Removes path) :
    ∃ place content, world.fileAt place = some content ∧
      (world.unlink path).fileAt place = none := by
  rcases removes with ⟨place, located, permitted, file⟩
  rcases Option.ne_none_iff_exists'.1 file with ⟨content, found⟩
  refine ⟨place, content, found, ?_⟩
  rw [unlink, located]
  simp only
  rw [if_pos permitted, fileAt_removeFile place permitted.2, if_pos rfl]

theorem fileAt_unlink_of_not_removes {world : World} {path : Bytes} (keeps : ¬ world.Removes path)
    (place : Place) : (world.unlink path).fileAt place = world.fileAt place := by
  rw [unlink]
  split
  · rename_i removed located
    split
    · rename_i permitted
      -- what is removed is not there
      have absent : world.fileAt removed = none := by
        by_contra file
        exact keeps ⟨removed, located, permitted, file⟩
      rw [fileAt_removeFile place permitted.2]
      split_ifs with same
      · rw [← absent, fileAt, fileAt, same]
      · rfl
    · rfl
  · rfl

/-- What `unlink` removes depends on the directories, the permissions and the files. -/
theorem removes_congr {world world' : World} (before : Undisturbed world world')
    (files : world'.disk.store.files = world.disk.store.files) (path : Bytes) :
    world'.Removes path ↔ world.Removes path := by
  have place : world'.locate path = world.locate path := by
    rw [locate, locate, start, start, before.tree, before.cwd]
  have file : ∀ place, world'.fileAt place = world.fileAt place := by
    intro place
    exact before.medium.content (congrFun files _)
  simp only [Removes, place, before.mayRemove, before.medium.volumeAt, file]

end World

/-! ### What a failure leaves behind -/

section Failure

variable {libraries : Libraries} {archive : Archive} {options : Options} {locale : Locale}
  {namePrefix : Option Bytes} {index : Int}

/-- The world when the save function is called, or would be. -/
def World.preparedFor (world : World) : Option Bytes → World
  | none => world
  | some dirname => world.prepared dirname

variable (libraries archive options locale namePrefix index) in
/-- What the buffer holds in the exit block: the name, converted or not, or what `malloc` left there. -/
def leftoverFilename (library : Library World) : Exit Bytes := do
  match ← outputDirname libraries.onWorld archive options locale namePrefix index library with
  | none => freshString libraries.onWorld
  | some dirname => do
      let buffer ← outputBuffer libraries.onWorld archive options locale index library dirname
      pure ((convertName locale libraries.pathMax dirname buffer).getD buffer)

/-- The exit block removes what the buffer names. -/
theorem cleanUp_eq_ret {e e' : Extraction World}
    (run : cleanUp libraries.onWorld World.system archive index e = (.ret (), e')) :
    ∃ filename, e.filename = .ret filename ∧ e'.library.io = e.library.io.unlink filename := by
  rw [cleanUp] at run
  rcases Proc.bind_eq_ret_iff.1 run with ⟨descriptor, e₁, asked, run⟩
  rcases Proc.ofExit_bind_eq_ret_iff.1 run with ⟨name, _, run⟩
  rcases Proc.bind_eq_ret_iff.1 run with ⟨filename, e₂, held, run⟩
  rcases onLibrary_eq_ret asked with ⟨library', found, rfl⟩
  have named : e.filename = .ret filename := congrArg Prod.fst held
  obtain rfl := congrArg Prod.snd held
  obtain rfl := congrArg Prod.snd run
  refine ⟨filename, named, ?_⟩
  show World.unlink filename library'.io = _
  rw [(findFileDescriptor_again found).1]

/-- An extraction fails before the save function, or in it. -/
theorem extractBody_fails {fuel : Nat} {e e' : Extraction World}
    (run : extractBody libraries.onWorld World.system archive options locale fuel namePrefix index e =
      (.fail, e')) :
    (outputDirname libraries.onWorld archive options locale namePrefix index e.library = .ret none ∧
      e'.filename = e.filename ∧ e'.library.io = e.library.io) ∨
    ∃ dirname buffer,
      outputDirname libraries.onWorld archive options locale namePrefix index e.library =
        .ret (some dirname) ∧
      outputBuffer libraries.onWorld archive options locale index e.library dirname = .ret buffer ∧
      e'.filename = .ret ((convertName locale libraries.pathMax dirname buffer).getD buffer) ∧
      World.Undisturbed (e.library.io.prepared dirname) e'.library.io := by
  rw [extractBody] at run
  have orderly : (extractPath libraries.onWorld World.system archive options locale namePrefix index
      e).1.Orderly := by
    rcases Proc.bind_eq_fail_iff.1 run with failed | ⟨filename, e₁, passed, _⟩
    · rw [failed]
      trivial
    · rw [passed]
      trivial
  rcases extractPath_cases orderly with unnamed | ⟨dirname, buffer, named, filled⟩
  · rcases extractPath_of_no_dirname unnamed with ⟨library', same, failed⟩
    rw [Proc.bind_of_fail failed] at run
    cases run
    exact Or.inl ⟨unnamed, rfl, same⟩
  · refine Or.inr ⟨dirname, buffer, named, filled, ?_⟩
    have path := extractPath_of_dirname named filled
    cases converted : convertName locale libraries.pathMax dirname buffer with
    | none =>
        rw [converted] at path
        rw [Proc.bind_of_fail path] at run
        cases run
        exact ⟨rfl, World.Undisturbed.refl _⟩
    | some filename =>
        simp only [converted] at path
        by_cases inside :
          insideOutputDirectory World.system options filename (e.library.io.prepared dirname) = true
        · -- the save function was called
          rw [if_pos inside] at path
          rw [Proc.bind_of_ret path] at run
          obtain rfl := congrArg Prod.snd run
          exact ⟨rfl, undisturbed_saveAs libraries archive options.format fuel index filename
            (prepared archive index e dirname filename).library⟩
        · rw [if_neg inside] at path
          rw [Proc.bind_of_fail path] at run
          cases run
          exact ⟨rfl, World.Undisturbed.refl _⟩

/-- A failed extraction has made directories, and then removed what its buffer names. -/
theorem extractFile_failed {fuel : Nat} {library library' : Library World}
    (run : extractFile libraries.onWorld World.system archive options locale fuel namePrefix index
      library = (.ret false, library')) :
    ∃ dirname filename before,
      outputDirname libraries.onWorld archive options locale namePrefix index library = .ret dirname ∧
      leftoverFilename libraries archive options locale namePrefix index library = .ret filename ∧
      World.Undisturbed (library.io.preparedFor dirname) before ∧
      library'.io = before.unlink filename := by
  rw [extractFile] at run
  rcases ended : Proc.onFailure _ _ _ with ⟨exit, e'⟩
  rw [ended] at run
  cases run
  rcases Proc.onFailure_eq_ret_iff.1 ended with succeeded | ⟨e₁, failed, handled⟩
  · rcases Proc.bind_eq_ret_iff.1 succeeded with ⟨done, _, _, absurd_true⟩
    cases absurd_true
  · rcases Proc.bind_eq_ret_iff.1 handled with ⟨done, e₂, cleaned, finished⟩
    cases finished
    rcases cleanUp_eq_ret cleaned with ⟨filename, held, removed⟩
    rcases Proc.bind_eq_fail_iff.1 failed with body | ⟨_, _, _, absurd_fail⟩
    · rcases extractBody_fails body with ⟨unnamed, kept, same⟩ | ⟨dirname, buffer, named, filled, kept, same⟩
      · refine ⟨none, filename, e₁.library.io, unnamed, ?_, ?_, removed⟩
        · rw [leftoverFilename, unnamed]
          exact kept.symm.trans held
        · rw [same]
          exact World.Undisturbed.refl _
      · refine ⟨some dirname, filename, e₁.library.io, named, ?_, same, removed⟩
        rw [leftoverFilename, named, ← held, kept, Exit.bind_ret]
        simp only [filled, Exit.bind_ret, Exit.pure_eq]
    · cases absurd_fail

/-- No directory was made that is not in the output directory, and no file was removed. -/
structure Untouched (outputDirectory : Place) (world world' : World) : Prop where
  directories : ∀ place, world'.tree.isDirectory place = true →
    world.tree.isDirectory place = true ∨ outputDirectory <+: place
  files : ∀ place content, world.fileAt place = some content → world'.fileAt place = some content

variable (libraries archive options locale namePrefix index) in
/-- The directories that are missing on the way to the file and can be made are in the output
directory, and what the buffer names is no file that can be removed. -/
structure Harmless (library : Library World) : Prop where
  directories : ∀ dirname,
    outputDirname libraries.onWorld archive options locale namePrefix index library =
      .ret (some dirname) →
    ∀ place ∈ library.io.made (library.io.start dirname) (steps slash dot dirname),
      library.io.lexicalPlace options.outputDirectory <+: place
  files : ∀ dirname filename,
    outputDirname libraries.onWorld archive options locale namePrefix index library = .ret dirname →
    leftoverFilename libraries archive options locale namePrefix index library = .ret filename →
    ¬ (library.io.preparedFor dirname).Removes filename

theorem written_preparedFor (world : World) (dirname : Option Bytes) :
    (world.preparedFor dirname).written = world.written := by
  cases dirname with
  | none => rfl
  | some dirname => exact (world.sameFiles_prepared dirname).written

theorem fileAt_preparedFor (world : World) (dirname : Option Bytes) (place : Place) :
    (world.preparedFor dirname).fileAt place = world.fileAt place := by
  cases dirname with
  | none => rfl
  | some dirname => exact World.fileAt_of_sameFiles (world.sameFiles_prepared dirname) place

/-- A failed extraction that has not opened its output file has left everything outside the output
directory as it was exactly if it was harmless. -/
theorem untouched_iff_harmless {fuel : Nat} {library library' : Library World}
    (run : extractFile libraries.onWorld World.system archive options locale fuel namePrefix index
      library = (.ret false, library'))
    (unopened : library'.io.written = library.io.written) :
    Untouched (library.io.lexicalPlace options.outputDirectory) library.io library'.io ↔
      Harmless libraries archive options locale namePrefix index library := by
  rcases extractFile_failed run with ⟨dirname, filename, before, named, left, undisturbed, removed⟩
  -- no file was opened, and so none has changed before the clean-up
  have files : before.disk.store.files = (library.io.preparedFor dirname).disk.store.files := by
    rcases undisturbed.written with ⟨more, log, same⟩
    rw [removed, World.written_unlink, log, written_preparedFor, List.append_left_eq_self] at unopened
    exact same unopened
  have file_before : ∀ place, before.fileAt place = library.io.fileAt place := by
    intro place
    rw [← fileAt_preparedFor library.io dirname]
    exact undisturbed.medium.content (congrFun files _)
  have removes := World.removes_congr undisturbed files filename
  constructor
  · intro untouched
    constructor
    · intro dirname' named' place made
      obtain rfl := Exit.ret.inj (named.symm.trans named')
      have there := (World.isDirectory_makeWay library.io (steps slash dot dirname')
        (World.start_directory library.io dirname') place).2 (Or.inr made)
      have after : library'.io.tree.isDirectory place = true := by
        rw [removed, World.tree_unlink, undisturbed.tree]
        exact there
      exact (untouched.directories place after).resolve_left (World.not_directory_of_made made)
    · intro dirname' filename' named' left' removes'
      obtain rfl := Exit.ret.inj (named.symm.trans named')
      obtain rfl := Exit.ret.inj (left.symm.trans left')
      rcases World.fileAt_unlink_of_removes (removes.2 removes') with ⟨place, content, found, gone⟩
      rw [file_before] at found
      have still := untouched.files place content found
      rw [removed, gone] at still
      cases still
  · intro harmless
    have keeps : ¬ before.Removes filename := fun removes' =>
      harmless.files dirname filename named left (removes.1 removes')
    constructor
    · intro place there
      rw [removed, World.tree_unlink, undisturbed.tree] at there
      cases dirname with
      | none => exact Or.inl there
      | some dirname =>
          rcases (World.isDirectory_makeWay library.io (steps slash dot dirname)
            (World.start_directory library.io dirname) place).1 there with old | made
          · exact Or.inl old
          · exact Or.inr (harmless.directories dirname named place made)
    · intro place content found
      rw [removed, World.fileAt_unlink_of_not_removes keeps, file_before]
      exact found

end Failure

/-! ### Harmless and harmful failures -/

/-- The cabinet has no volume: the output directory is made, and nothing else happens. -/
theorem untouched_iff_harmless_no_volume :
    ∃ library', extractFile smallLibraries.onWorld World.system (namedArchive [] [0x78])
        { outputDirectory := smallPath } asciiLocale 9 none 0
        (freshLibrary (rootWorld fun _ => none)) = (.ret false, library') ∧
      Untouched [smallPath] (rootWorld fun _ => none) library'.io := by
  have run : (extractFile smallLibraries.onWorld World.system (namedArchive [] [0x78])
      { outputDirectory := smallPath } asciiLocale 9 none 0
      (freshLibrary (rootWorld fun _ => none))).1 = .ret false := by
    decide +kernel
  refine ⟨_, Proc.run_eq_ret run, ?_⟩
  refine (untouched_iff_harmless (Proc.run_eq_ret run) (by decide +kernel)).2 ⟨?_, ?_⟩
  · intro dirname named
    have output : outputDirname smallLibraries.onWorld (namedArchive [] [0x78])
        { outputDirectory := smallPath } asciiLocale none 0
        (freshLibrary (rootWorld fun _ => none)) = .ret (some (smallPath ++ [slash])) := by
      decide +kernel
    obtain rfl := Option.some.inj (Exit.ret.inj (output.symm.trans named))
    decide +kernel
  · rintro dirname filename _ _ ⟨place, _, _, file⟩
    rw [fileAt_preparedFor] at file
    exact file rfl

def victim : Bytes := [0x76, 0x69, 0x63, 0x74, 0x69, 0x6d]

/-- A world with one file. -/
def victimWorld : World :=
  rootWorld fun path => if path = slash :: victim then some [0x21] else none

/-- The directory `..` and the file `victim` lead out of the output directory.  The path is rejected,
and the file it leads to is removed.  So is the file that a fresh buffer names when the name of the
output directory is too long. -/
theorem extractFile_removes_rejected :
    (∃ library', extractFile smallLibraries.onWorld World.system (namedArchive [dot, dot] victim)
        { outputDirectory := smallPath } asciiLocale 9 none 0 (freshLibrary victimWorld) =
          (.ret false, library') ∧
      library'.io.written = victimWorld.written ∧
      ¬ Untouched [smallPath] victimWorld library'.io) ∧
    ∃ library',
      extractFile { smallLibraries with garbage := fun i => victim.getD i 0 }.onWorld World.system
        (namedArchive [] [0x78]) { outputDirectory := List.replicate 4095 0x61 } asciiLocale 9 none 0
        (freshLibrary victimWorld) = (.ret false, library') ∧
      library'.io.written = victimWorld.written ∧
      ¬ Untouched [List.replicate 4095 0x61] victimWorld library'.io := by
  refine ⟨⟨_, Proc.run_eq_ret (by decide +kernel), by decide +kernel, ?_⟩,
    ⟨_, Proc.run_eq_ret (by decide +kernel), by decide +kernel, ?_⟩⟩
  · intro untouched
    have still := untouched.files [victim] [0x21] (by decide +kernel)
    revert still
    decide +kernel
  · intro untouched
    have still := untouched.files [victim] [0x21] (by decide +kernel)
    revert still
    decide +kernel

end Unshield
