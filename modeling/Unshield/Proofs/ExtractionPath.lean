/-
Module: Unshield.Proofs.ExtractionPath
Purpose: The path that an extraction hands to the save function, and exactly when it lies in the
  output directory: the check compares texts, and so lets the output directory itself pass and every
  sibling whose name is longer.
Trusted boundary: none
Main exports: outputDirname, outputBuffer, outputFilename, extractPath_of_dirname, SavesTo,
  savesTo_iff, savesTo_strictlyBelow_iff
-/
import Unshield.Proofs.DescriptorCache
import Unshield.Proofs.DirectorySteps
import Unshield.Proofs.VolumeFormat

namespace Unshield

open Procedure
open Paths (Step steps StrictlyBelow InLongerSibling)

/-! ### What the library is asked for -/

theorem mulInt_ne_fail (one two : Int) : mulInt one two ≠ .fail := by
  rw [mulInt]
  split <;> exact nofun

theorem readFileDescriptor_ne_fail (header : Header) (index : Int) :
    readFileDescriptor header index ≠ .fail := by
  rw [readFileDescriptor]
  split
  · by_cases recent : header.majorVersion = 5 <;>
      simp [readFileDescriptorV5, recent, Exit.bind_eq_fail_iff, Exit.ofAccess_ne_fail,
        Exit.assert_ne_fail]
  · simp [readFileDescriptorV6, Exit.bind_eq_fail_iff, Exit.ofAccess_ne_fail, Exit.assert_ne_fail,
      mulInt_ne_fail]

theorem directoryName_ne_fail (bigEndian : Bool) (header : Header) (index : Int) :
    directoryName bigEndian header index ≠ .fail := by
  rw [directoryName]
  split
  · simp [Exit.bind_eq_fail_iff, Exit.ofAccess_ne_fail, getUtf8String_ne_fail]
  · simp

section Asked

variable {σ : Type} {archive : Archive} {index : Int}

theorem findFileDescriptor_of_invalid {library : Library σ}
    (invalid : ¬ ValidIndex archive.header index) :
    findFileDescriptor archive index library = (.ret none, library) := by
  rw [findFileDescriptor, getFileDescriptor_of_invalid invalid]

theorem findFileDescriptor_of_remembered {library : Library σ} {fd : FileDescriptor}
    (valid : ValidIndex archive.header index)
    (remembered : library.fileDescriptors index.toNat = some fd) :
    findFileDescriptor archive index library = (.ret (some fd), library) := by
  rw [findFileDescriptor, getFileDescriptor_of_remembered valid remembered]

/-- A descriptor is found again, whatever has happened outside the library. -/
theorem findFileDescriptor_again {library library' : Library σ} {descriptor : Option FileDescriptor}
    (run : findFileDescriptor archive index library = (.ret descriptor, library')) :
    library'.io = library.io ∧
      ∀ io : σ, findFileDescriptor archive index { library' with io } =
        (.ret descriptor, { library' with io }) := by
  by_cases valid : ValidIndex archive.header index
  · cases remembered : library.fileDescriptors index.toNat with
    | some fd =>
        rw [findFileDescriptor_of_remembered valid remembered] at run
        cases run
        exact ⟨rfl, fun io => findFileDescriptor_of_remembered valid remembered⟩
    | none =>
        rw [findFileDescriptor, getFileDescriptor_of_new valid remembered] at run
        cases decoded : readFileDescriptor archive.header index with
        | ret fd =>
            rw [decoded] at run
            cases run
            exact ⟨rfl, fun io => findFileDescriptor_of_remembered valid (Function.update_self ..)⟩
        | fail => exact absurd decoded (readFileDescriptor_ne_fail _ _)
        | abort =>
            rw [decoded] at run
            cases run
        | fault =>
            rw [decoded] at run
            cases run
        | timeout =>
            rw [decoded] at run
            cases run
  · rw [findFileDescriptor_of_invalid valid] at run
    cases run
    exact ⟨rfl, fun io => findFileDescriptor_of_invalid valid⟩

theorem findFileDescriptor_ne_fail (library : Library σ) :
    (findFileDescriptor archive index library).1 ≠ .fail := by
  rw [findFileDescriptor]
  rcases getFileDescriptor archive.header index library with ⟨exit, library'⟩
  cases exit <;> exact nofun

theorem fileDirectory_ne_fail (descriptor : Option FileDescriptor) :
    fileDirectory archive descriptor ≠ .fail := by
  cases descriptor with
  | none => exact nofun
  | some fd => simp [fileDirectory, Exit.bind_eq_fail_iff, Exit.assert_ne_fail]

variable {H : Type} (env : Environment σ H)

theorem fileNameOf_ne_fail (descriptor : Option FileDescriptor) :
    fileNameOf env archive descriptor ≠ .fail := by
  cases descriptor with
  | none => exact nofun
  | some fd =>
      simp [fileNameOf, fileName, Exit.bind_eq_fail_iff, getUtf8String_ne_fail]

theorem dirnameFor_ne_fail (options : Options) (locale : Locale) (namePrefix : Option Bytes)
    (directory : Int) :
    dirnameFor options locale env.pathMax namePrefix (directoryNameOf env archive options directory) ≠
      .fail := by
  have asked : directoryNameOf env archive options directory ≠ .fail := by
    rw [directoryNameOf]
    split
    · exact directoryName_ne_fail _ _ _
    · exact nofun
  rw [dirnameFor]
  split
  · exact nofun
  · simp [Exit.bind_eq_fail_iff, asked]

end Asked

/-! ### The name of the output file -/

section Named

variable {σ H : Type} (env : Environment σ H) (archive : Archive) (options : Options)
  (locale : Locale) (namePrefix : Option Bytes) (index : Int) (library : Library σ)

/-- The directory part of the name: nothing if it is too long or cannot be converted. -/
def outputDirname : Exit (Option Bytes) := do
  let descriptor ← (findFileDescriptor archive index library).1
  let directory ← fileDirectory archive descriptor
  dirnameFor options locale env.pathMax namePrefix (directoryNameOf env archive options directory)

/-- The name, before it is converted. -/
def outputBuffer (dirname : Bytes) : Exit Bytes := do
  let descriptor ← (findFileDescriptor archive index library).1
  let name ← fileNameOf env archive descriptor
  pure (bufferFor options locale env.pathMax dirname name)

/-- The name that the options, the prefix and the strings in the cabinet give. -/
def outputFilename : Exit (Option Bytes) := do
  match ← outputDirname env archive options locale namePrefix index library with
  | none => pure none
  | some dirname => do
      let buffer ← outputBuffer env archive options locale index library dirname
      pure (convertName locale env.pathMax dirname buffer)

end Named

/-! ### Up to the check -/

section Run

variable {libraries : Libraries} {archive : Archive} {options : Options} {locale : Locale}
  {namePrefix : Option Bytes} {index : Int}

/-- The world when the check is made: the directories on the way to the file exist, where they can be
made. -/
def World.prepared (world : World) (dirname : Bytes) : World :=
  world.makeWay (world.start dirname) (steps slash dot dirname)

/-- The extraction when the check is made. -/
def prepared (archive : Archive) (index : Int) (e : Extraction World) (dirname filename : Bytes) :
    Extraction World where
  library :=
    { (findFileDescriptor archive index e.library).2 with io := e.library.io.prepared dirname }
  filename := .ret filename

theorem onLibrary_of_ret {σ α : Type} {call : Proc (Library σ) α} {e : Extraction σ} {value : α}
    {library' : Library σ} (run : call e.library = (.ret value, library')) :
    onLibrary call e = (.ret value, { e with library := library' }) := by
  rw [onLibrary, run]

theorem onLibrary_eq_ret {σ α : Type} {call : Proc (Library σ) α} {e e' : Extraction σ} {value : α}
    (run : onLibrary call e = (.ret value, e')) :
    ∃ library', call e.library = (.ret value, library') ∧ e' = { e with library := library' } := by
  have returned : (call e.library).1 = .ret value := congrArg Prod.fst run
  exact ⟨_, Prod.ext returned rfl, (congrArg Prod.snd run).symm⟩

theorem ret_of_onLibrary_bind_orderly {σ α β : Type} {call : Proc (Library σ) α}
    {next : α → Proc (Extraction σ) β} {e : Extraction σ}
    (orderly : ((onLibrary call >>= next) e).1.Orderly) (never : (call e.library).1 ≠ .fail) :
    ∃ value library', call e.library = (.ret value, library') ∧
      (next value { e with library := library' }).1.Orderly := by
  rcases Proc.ret_of_bind_orderly orderly never with ⟨value, e', run, rest⟩
  rcases onLibrary_eq_ret run with ⟨library', returned, rfl⟩
  exact ⟨value, library', returned, rest⟩

/-- Without a directory part nothing happens. -/
theorem extractPath_of_no_dirname {e : Extraction World}
    (unnamed : outputDirname libraries.onWorld archive options locale namePrefix index e.library =
      .ret none) :
    ∃ library', library'.io = e.library.io ∧
      extractPath libraries.onWorld World.system archive options locale namePrefix index e =
        (.fail, { e with library := library' }) := by
  rw [outputDirname, Exit.bind_eq_ret_iff] at unnamed
  rcases unnamed with ⟨descriptor, found, unnamed⟩
  rw [Exit.bind_eq_ret_iff] at unnamed
  rcases unnamed with ⟨directory, within, unnamed⟩
  have run : findFileDescriptor archive index e.library = (.ret descriptor, _) := Prod.ext found rfl
  refine ⟨_, (findFileDescriptor_again run).1, ?_⟩
  rw [extractPath, Proc.bind_of_ret (onLibrary_of_ret run), within, Proc.ofExit_ret_bind_run, unnamed,
    Proc.ofExit_ret_bind_run]
  rfl

/-- Making the directories does not end the extraction. -/
theorem makeDirectories_run (dirname : Bytes) (library : Library World) :
    ∃ made, onSystem (makeSureDirectoryExists World.system dirname) library =
      (.ret made, { library with io := library.io.prepared dirname }) := by
  rcases makeSureDirectoryExists_run dirname library.io with ⟨made, run⟩
  refine ⟨made, ?_⟩
  rw [onSystem, run]
  rfl

theorem checkFilename_run (filename : Bytes) (e : Extraction World) :
    checkFilename World.system options filename e =
      if insideOutputDirectory World.system options filename e.library.io = true then
        (.ret filename, { e with filename := .ret filename })
      else (.fail, { e with filename := .ret filename }) := by
  rw [checkFilename, Proc.modify_bind_run, Proc.gets_bind_run]
  split
  · rename_i inside
    exact Proc.bind_of_ret (Proc.require_run_of inside _)
  · rename_i outside
    exact Proc.bind_of_fail (Proc.require_run_of_not outside _)

/-- With a directory part the directories are made and the name is built.  Then it is converted, and
it is checked. -/
theorem extractPath_of_dirname {e : Extraction World} {dirname buffer : Bytes}
    (named : outputDirname libraries.onWorld archive options locale namePrefix index e.library =
      .ret (some dirname))
    (filled : outputBuffer libraries.onWorld archive options locale index e.library dirname =
      .ret buffer) :
    extractPath libraries.onWorld World.system archive options locale namePrefix index e =
      match convertName locale libraries.pathMax dirname buffer with
      | none => (.fail, prepared archive index e dirname buffer)
      | some filename =>
          if insideOutputDirectory World.system options filename (e.library.io.prepared dirname) = true
          then (.ret filename, prepared archive index e dirname filename)
          else (.fail, prepared archive index e dirname filename) := by
  rw [outputDirname, Exit.bind_eq_ret_iff] at named
  rw [outputBuffer, Exit.bind_eq_ret_iff] at filled
  rcases named with ⟨descriptor, found, named⟩
  rcases filled with ⟨descriptor', found', filled⟩
  obtain rfl : descriptor = descriptor' := Exit.ret.inj (found.symm.trans found')
  rw [Exit.bind_eq_ret_iff] at named filled
  rcases named with ⟨directory, within, named⟩
  rcases filled with ⟨name, called, filled⟩
  obtain rfl : bufferFor options locale libraries.pathMax dirname name = buffer := Exit.ret.inj filled
  have run : findFileDescriptor archive index e.library = (.ret descriptor, _) := Prod.ext found rfl
  rcases findFileDescriptor_again run with ⟨same, again⟩
  rcases makeDirectories_run dirname (findFileDescriptor archive index e.library).2 with ⟨made, ready⟩
  rw [same] at ready
  rw [extractPath, Proc.bind_of_ret (onLibrary_of_ret run), within, Proc.ofExit_ret_bind_run, named,
    Proc.ofExit_ret_bind_run]
  show extractPathIn _ _ _ _ _ _ _ _ = _
  rw [extractPathIn, Proc.bind_of_ret (onLibrary_of_ret ready),
    Proc.bind_of_ret (onLibrary_of_ret (again _)), called, Proc.ofExit_ret_bind_run]
  rw [completeFilename, Proc.modify_bind_run]
  cases convertName locale libraries.pathMax dirname
      (bufferFor options locale libraries.pathMax dirname name) with
  | none => rfl
  | some filename => exact checkFilename_run filename _

/-- Where nothing worse happens than a failure, it is known whether there is a directory part, and what
the buffer holds behind it. -/
theorem extractPath_cases {e : Extraction World}
    (orderly : (extractPath libraries.onWorld World.system archive options locale namePrefix index
      e).1.Orderly) :
    outputDirname libraries.onWorld archive options locale namePrefix index e.library = .ret none ∨
      ∃ dirname buffer,
        outputDirname libraries.onWorld archive options locale namePrefix index e.library =
          .ret (some dirname) ∧
        outputBuffer libraries.onWorld archive options locale index e.library dirname =
          .ret buffer := by
  rw [extractPath] at orderly
  rcases ret_of_onLibrary_bind_orderly orderly (findFileDescriptor_ne_fail e.library) with
    ⟨descriptor, library', run, orderly⟩
  rcases Proc.ret_of_ofExit_bind_orderly orderly (fileDirectory_ne_fail descriptor) with
    ⟨directory, within, orderly⟩
  rcases Proc.ret_of_ofExit_bind_orderly orderly (dirnameFor_ne_fail _ _ _ _ _) with
    ⟨dirname, named, orderly⟩
  have found : (findFileDescriptor archive index e.library).1 = .ret descriptor :=
    congrArg Prod.fst run
  have named_output :
      outputDirname libraries.onWorld archive options locale namePrefix index e.library =
        .ret dirname :=
    Exit.bind_eq_ret_iff.2 ⟨descriptor, found, Exit.bind_eq_ret_iff.2 ⟨directory, within, named⟩⟩
  cases dirname with
  | none => exact Or.inl named_output
  | some dirname =>
      change (extractPathIn _ _ _ _ _ _ _ _).1.Orderly at orderly
      rw [extractPathIn] at orderly
      rcases makeDirectories_run dirname library' with ⟨made, ready⟩
      rw [Proc.bind_of_ret (onLibrary_of_ret ready),
        Proc.bind_of_ret (onLibrary_of_ret ((findFileDescriptor_again run).2 _))] at orderly
      rcases Proc.ret_of_ofExit_bind_orderly orderly (fileNameOf_ne_fail _ descriptor) with
        ⟨name, called, _⟩
      exact Or.inr ⟨dirname, _, named_output,
        Exit.bind_eq_ret_iff.2 ⟨descriptor, found, Exit.bind_eq_ret_iff.2 ⟨name, called, rfl⟩⟩⟩

/-! ### The path that is saved to -/

theorem World.lexicalPlace_of_sameFiles {world world' : World} (same : World.SameFiles world world')
    (path : Bytes) : world'.lexicalPlace path = world.lexicalPlace path := by
  rw [lexicalPlace, lexicalPlace, start_of_sameFiles same]

theorem World.sameFiles_prepared (world : World) (dirname : Bytes) :
    World.SameFiles world (world.prepared dirname) :=
  sameFiles_makeWay _ _ _

theorem World.lexicalPlace_plain (world : World) (path : Bytes) :
    ∀ name ∈ world.lexicalPlace path, Paths.Plain slash name := by
  apply Paths.plain_lexical
  rw [start]
  split
  · exact fun name member => absurd member List.not_mem_nil
  · exact world.cwd_plain

/-- What the check lets pass. -/
theorem insideOutputDirectory_iff (options : Options) (filename : Bytes) (world : World) :
    insideOutputDirectory World.system options filename world = true ↔
      StrictlyBelow (world.lexicalPlace options.outputDirectory) (world.lexicalPlace filename) ∨
        world.lexicalPlace filename = world.lexicalPlace options.outputDirectory ∨
        InLongerSibling (world.lexicalPlace options.outputDirectory) (world.lexicalPlace filename) := by
  rw [insideOutputDirectory, List.isPrefixOf_iff_prefix]
  exact Paths.render_prefix_iff (world.lexicalPlace_plain _) (world.lexicalPlace_plain _)

theorem insideOutputDirectory_prepared (options : Options) (filename dirname : Bytes)
    (world : World) :
    insideOutputDirectory World.system options filename (world.prepared dirname) =
      insideOutputDirectory World.system options filename world := by
  have same : ∀ path, World.system.realpath path (world.prepared dirname) =
      World.system.realpath path world := by
    intro path
    show World.realpath _ _ = World.realpath _ _
    rw [World.realpath, World.lexicalPlace_of_sameFiles (world.sameFiles_prepared dirname)]
    rfl
  rw [insideOutputDirectory, same, same]
  rfl

variable (libraries archive options locale namePrefix index) in
/-- `extract_file` calls the save function, with this path. -/
def SavesTo (library : Library World) (filename : Bytes) : Prop :=
  ∃ e', extractPath libraries.onWorld World.system archive options locale namePrefix index
    { library, filename := freshString libraries.onWorld } = (.ret filename, e')

/-- The path is the one that the names give, and it passes the check. -/
theorem savesTo_iff {library : Library World} {filename : Bytes} :
    SavesTo libraries archive options locale namePrefix index library filename ↔
      outputFilename libraries.onWorld archive options locale namePrefix index library =
        .ret (some filename) ∧
      insideOutputDirectory World.system options filename library.io = true := by
  constructor
  · rintro ⟨e', run⟩
    have orderly : (extractPath libraries.onWorld World.system archive options locale namePrefix index
        { library, filename := freshString libraries.onWorld }).1.Orderly := by
      rw [run]
      trivial
    rcases extractPath_cases orderly with unnamed | ⟨dirname, buffer, named, filled⟩
    · rcases extractPath_of_no_dirname unnamed with ⟨library', _, failed⟩
      rw [failed] at run
      cases run
    · rw [extractPath_of_dirname named filled] at run
      rw [outputFilename, named, Exit.bind_ret]
      cases converted : convertName locale libraries.pathMax dirname buffer with
      | none =>
          rw [converted] at run
          cases run
      | some name =>
          simp only [converted, insideOutputDirectory_prepared] at run
          split at run
          · rename_i inside
            cases run
            refine ⟨?_, inside⟩
            simp only [filled, Exit.bind_ret, converted, Exit.pure_eq]
          · cases run
  · rintro ⟨named, inside⟩
    rw [outputFilename, Exit.bind_eq_ret_iff] at named
    rcases named with ⟨dirname, named, rest⟩
    cases dirname with
    | none => cases rest
    | some dirname =>
        rw [Exit.bind_eq_ret_iff] at rest
        rcases rest with ⟨buffer, filled, converted⟩
        refine ⟨prepared archive index { library, filename := freshString libraries.onWorld } dirname
          filename, ?_⟩
        rw [extractPath_of_dirname named filled, Exit.ret.inj converted]
        simp only
        rw [insideOutputDirectory_prepared, if_pos inside]

/-- A path that is saved to is below the output directory exactly if the names lead neither to the
output directory itself nor into a sibling with a longer name: the check does not keep these two
out. -/
theorem savesTo_strictlyBelow_iff (libraries : Libraries) (archive : Archive) (options : Options)
    (locale : Locale) (namePrefix : Option Bytes) (index : Int) (library : Library World) :
    (∀ filename, SavesTo libraries archive options locale namePrefix index library filename →
      StrictlyBelow (library.io.lexicalPlace options.outputDirectory)
        (library.io.lexicalPlace filename)) ↔
    ∀ filename,
      outputFilename libraries.onWorld archive options locale namePrefix index library =
        .ret (some filename) →
      library.io.lexicalPlace filename ≠ library.io.lexicalPlace options.outputDirectory ∧
      ¬ InLongerSibling (library.io.lexicalPlace options.outputDirectory)
        (library.io.lexicalPlace filename) := by
  constructor
  · intro safe filename named
    have below : ∀ passes : library.io.lexicalPlace filename =
          library.io.lexicalPlace options.outputDirectory ∨
        InLongerSibling (library.io.lexicalPlace options.outputDirectory)
          (library.io.lexicalPlace filename),
        StrictlyBelow (library.io.lexicalPlace options.outputDirectory)
          (library.io.lexicalPlace filename) := fun passes =>
      safe filename (savesTo_iff.2 ⟨named, (insideOutputDirectory_iff _ _ _).2 (Or.inr passes)⟩)
    exact ⟨fun same => (below (Or.inl same)).ne same,
      fun sibling => (below (Or.inr sibling)).not_inLongerSibling sibling⟩
  · intro kept filename saves
    rcases savesTo_iff.1 saves with ⟨named, inside⟩
    rcases kept filename named with ⟨other, apart⟩
    rcases (insideOutputDirectory_iff _ _ _).1 inside with below | same | sibling
    · exact below
    · exact absurd same other
    · exact absurd sibling apart

end Run

/-! ### A cabinet with one name -/

/-- The header of a cabinet with one directory and one file, whose names stand behind the descriptor. -/
def namedHeader (directory name : Bytes) : Header where
  index := 1
  data :=
    List.replicate 58 0 ++ littleEndian32 (UInt32.ofNat (88 + directory.length)) ++ List.replicate 25 0 ++
      directory ++ 0 :: name ++ [0]
  majorVersion := 6
  common := plainCommonHeader
  cab := { fileTableOffset := 0, directoryCount := 1, fileCount := 1, fileTableOffset2 := 0 }
  fileTable := [87]

def namedArchive (directory name : Bytes) : Archive :=
  { header := namedHeader directory name, filenamePattern := [] }

def asciiLocale : Locale where
  isPrint := fun byte => 0x20 ≤ byte ∧ byte < 0x7f
  toLower := fun byte => if 0x41 ≤ byte ∧ byte ≤ 0x5a then byte + 0x20 else byte
  toLower_ne_zero := by
    intro byte nonzero
    split
    · rename_i upper
      have value := byte.toNat_add 0x20
      rw [UInt8.le_iff_toNat_le, UInt8.le_iff_toNat_le] at upper
      intro zero
      rw [zero] at value
      simp at value upper
      omega
    · exact nonzero

/-- A file system that has nothing but files in its root. -/
def rootWorld (files : Bytes → Option Bytes) : World where
  disk :=
    { store :=
        { cabinets := fun _ => none
          volumeAt := fun _ => none
          files
          writable := fun _ => true
          room := 0
          cabinets_lt := nothing_lt
          room_lt := room_zero_lt
          volumes_protected := none_protected } }
  tree :=
    { isDirectory := List.isEmpty
      root := rfl
      parent := by
        intro place name inside
        rw [List.isEmpty_iff] at inside
        exact absurd (List.append_eq_nil_iff.1 inside).2 (List.cons_ne_nil _ _) }
  cwd := []
  mayCreate := fun _ => true
  mayRemove := fun _ => true
  cwd_directory := rfl
  cwd_plain := fun _ member => absurd member List.not_mem_nil

/-- A library that has just opened a cabinet. -/
def freshLibrary (world : World) : Library World := { fileDescriptors := fun _ => none, io := world }

/-- The names `..\out2` and `x` lead into a sibling of the output directory `out`, the name `.` to
the output directory itself. -/
theorem savesTo_sibling :
    SavesTo smallLibraries (namedArchive [0x2e, 0x2e, 0x5c, 0x6f, 0x75, 0x74, 0x32] [0x78])
        { outputDirectory := smallPath } asciiLocale none 0 (freshLibrary (rootWorld fun _ => none))
        [0x6f, 0x75, 0x74, 0x2f, 0x2e, 0x2e, 0x2f, 0x6f, 0x75, 0x74, 0x32, 0x2f, 0x78] ∧
      ¬ StrictlyBelow ((rootWorld fun _ => none).lexicalPlace smallPath)
        ((rootWorld fun _ => none).lexicalPlace
          [0x6f, 0x75, 0x74, 0x2f, 0x2e, 0x2e, 0x2f, 0x6f, 0x75, 0x74, 0x32, 0x2f, 0x78]) ∧
      SavesTo smallLibraries (namedArchive [] [0x2e]) { outputDirectory := smallPath } asciiLocale none 0
        (freshLibrary (rootWorld fun _ => none)) [0x6f, 0x75, 0x74, 0x2f, 0x2e] ∧
      ¬ StrictlyBelow ((rootWorld fun _ => none).lexicalPlace smallPath)
        ((rootWorld fun _ => none).lexicalPlace [0x6f, 0x75, 0x74, 0x2f, 0x2e]) := by
  refine ⟨⟨_, Proc.run_eq_ret (by decide +kernel)⟩, ?_, ⟨_, Proc.run_eq_ret (by decide +kernel)⟩, ?_⟩
  · intro below
    exact below.not_inLongerSibling ⟨[], smallPath, [0x32], [[0x78]], by decide, rfl, rfl⟩
  · intro below
    exact below.ne rfl

end Unshield
