/-
Module: Unshield.Proofs.ExtractionRun
Purpose: The extraction of one file where nothing is in the way: its directories are made, and the save
  function writes at the place that its names lead to.
Trusted boundary: none
Main exports: Clear, isDirectory_makeWay_of_clear, locate_prepared, extractFile_of_saved
-/
import Unshield.Proofs.SaveEffects
import Unshield.Proofs.ExtractionFailure

namespace Unshield

open Procedure
open Paths (Step steps stepOf lexical)

/-! ### A way that is clear -/

namespace World

/-- There is a directory at the place, or one can be made. -/
def Clear (world : World) (place : Place) : Prop :=
  world.tree.isDirectory place = true ∨ ¬ world.Blocked place

theorem Clear.of_extends {world after : World} {place : Place} (clear : world.Clear place)
    (extension : Extends world after) : after.Clear place := by
  rcases clear with directory | free
  · exact Or.inl (extension.more place directory)
  · by_cases there : after.tree.isDirectory place = true
    · exact Or.inl there
    · exact Or.inr (extension.not_blocked free there)

/-- Where a way is clear, all of it is made. -/
theorem isDirectory_makeWay_of_clear (path : List (Step Bytes)) :
    ∀ (world : World) (here : Place), world.tree.isDirectory here = true →
      (∀ front, front <+: path → world.Clear (lexical here front)) →
      ∀ place, (makeWay world here path).tree.isDirectory place = true ↔
        world.tree.isDirectory place = true ∨ ∃ front, front <+: path ∧ place = lexical here front := by
  induction path with
  | nil =>
      intro world here there _ place
      constructor
      · exact Or.inl
      · rintro (directory | ⟨front, within, rfl⟩)
        · exact directory
        · rw [List.prefix_nil.1 within]
          exact there
  | cons step path ih =>
      intro world here there clear place
      have later : ∀ front, front <+: path → world.Clear (lexical (step.from here) front) :=
        fun front within => clear (step :: front) (List.cons_prefix_cons.2 ⟨rfl, within⟩)
      have start : place = here → world.tree.isDirectory place = true := by
        rintro rfl
        exact there
      rw [Paths.Tree.exists_prefix_cons_iff (P := fun other => place = other)]
      have absorbed : ∀ {behind : Prop}, world.tree.isDirectory place = true ∨ place = here ∨ behind ↔
          world.tree.isDirectory place = true ∨ behind := by
        intro behind
        rw [← or_assoc, or_iff_left_of_imp start]
      rw [absorbed]
      cases step with
      | stay => exact ih world here there later place
      | up => exact ih world here.dropLast (Paths.Tree.isDirectory_dropLast there) later place
      | down name =>
          rw [makeWay]
          by_cases old : world.tree.isDirectory (here ++ [name]) = true
          · rw [if_pos old]
            exact ih world (here ++ [name]) old later place
          have free : ¬ world.Blocked (here ++ [name]) := (later [] List.nil_prefix).resolve_left old
          have inside : world.tree.isDirectory (here ++ [name]).dropLast = true := by
            rw [List.dropLast_concat]
            exact there
          have extension : Extends world (world.addDirectory (here ++ [name]) inside) :=
            (Extends.refl world).addDirectory free inside
          rw [if_neg old, if_neg free, dif_pos inside,
            ih _ (here ++ [name]) (isDirectory_addDirectory.2 (Or.inl rfl))
              (fun front within => (later front within).of_extends extension) place,
            isDirectory_addDirectory]
          constructor
          · rintro ((rfl | directory) | behind)
            · exact Or.inr ⟨[], List.nil_prefix, rfl⟩
            · exact Or.inl directory
            · exact Or.inr behind
          · rintro (directory | behind)
            · exact Or.inl (Or.inr directory)
            · exact Or.inr behind

/-- The places on the way through a directory part. -/
def OnWay (world : World) (dirname : Bytes) (place : Place) : Prop :=
  ∃ front, front <+: steps slash dot dirname ∧ place = lexical (world.start dirname) front

/-- Where a name behind a directory part leads, if nothing is in the way. -/
def placeOf (world : World) (dirname name : Bytes) : Place := world.lexicalPlace dirname ++ [name]

section

variable {world : World} {dirname name : Bytes}
  (clear : ∀ place, world.OnWay dirname place → world.Clear place)

include clear

theorem isDirectory_prepared (place : Place) : (world.prepared dirname).tree.isDirectory place = true ↔
    world.tree.isDirectory place = true ∨ world.OnWay dirname place :=
  isDirectory_makeWay_of_clear _ world _ (world.start_directory dirname)
    (fun front within => clear _ ⟨front, within, rfl⟩) place

/-- A name that is no step of another kind leads to the place that it names. -/
theorem locate_prepared (opens : dirname = [] ∨ ∃ before, dirname = before ++ [slash])
    (free : slash ∉ name) (enters : stepOf dot name = .down name) :
    (world.prepared dirname).locate (dirname ++ name) = some (world.placeOf dirname name) := by
  have some_name : name ≠ [] := by
    rintro rfl
    cases enters
  have same : (world.prepared dirname).start (dirname ++ name) = world.start dirname := by
    rw [start_of_sameFiles (world.sameFiles_prepared dirname), start, start]
    cases dirname with
    | nil =>
        cases name with
        | nil => exact absurd rfl some_name
        | cons first name =>
            have other : some first ≠ some slash :=
              fun same => free (Option.some.inj same ▸ List.mem_cons_self)
            exact if_neg other
    | cons first dirname => rfl
  have directories : ∀ front, front <+: steps slash dot dirname →
      (world.prepared dirname).tree.isDirectory (lexical (world.start dirname) front) = true :=
    fun front within => (isDirectory_prepared clear _).2 (Or.inr ⟨front, within, rfl⟩)
  have walked := Paths.Tree.walk_of_directories directories
  rw [locate, if_neg (List.append_ne_nil_of_right_ne_nil _ some_name), same,
    Paths.walk_steps_append slash dot opens walked free,
    Paths.Tree.walk_single (directories _ (List.prefix_refl _)), enters]
  rfl

end

end World

/-! ### One file -/

section

variable {libraries : Libraries} {archive : Archive} {options : Options} {locale : Locale}
  {namePrefix : Option Bytes} {index : Int}

/-- A save to a path in a world is the save to the text of its place on the disk. -/
theorem fileSave_onWorld {fuel : Nat} {library : Library World} {path text : Bytes} {saved : Library Disk}
    (names : NamesPlace library.io path text)
    (save : fileSave libraries.onDisk archive fuel index (some text) library.onDisk = (.ret (), saved)) :
    ∃ library', fileSave libraries.onWorld archive fuel index (some path) library = (.ret (), library') ∧
      library'.fileDescriptors = saved.fileDescriptors ∧ Shows library.io library'.io saved.io := by
  have hosts := hostsAlike_world library.io
  obtain ⟨exits, after⟩ := @HostsAlike.saveThroughLinks _ _ _ _ _ _ _ _ _ _ libraries archive hosts _ _
    (@HostsAlike.saveNew _ _ _ _ _ _ _ _ _ _ libraries archive hosts _ _ (.some names)) fuel index library
    library.onDisk (librariesAlike_onDisk library)
  have same : (fileSave libraries.onWorld archive fuel index (some path) library).1 =
      (fileSave libraries.onDisk archive fuel index (some text) library.onDisk).1 := exits.eq
  rw [save] at same
  have reached : saved = (fileSave libraries.onDisk archive fuel index (some text) library.onDisk).2 := by
    rw [save]
  rw [reached]
  exact ⟨_, Proc.run_eq_ret same, after.fileDescriptors, after.world⟩

/-- A file is extracted if its names lead to a place in the output directory and the save function succeeds
on the disk. -/
theorem extractFile_of_saved {fuel : Nat} {library : Library World} {dirname buffer filename text : Bytes}
    {saved : Library Disk} (new : options.format = .new)
    (named : outputDirname libraries.onWorld archive options locale namePrefix index library =
      .ret (some dirname))
    (filled : outputBuffer libraries.onWorld archive options locale index library dirname = .ret buffer)
    (converted : convertName locale libraries.pathMax dirname buffer = some filename)
    (inside : insideOutputDirectory World.system options filename library.io = true)
    (names : NamesPlace (library.io.prepared dirname) filename text)
    (save : fileSave libraries.onDisk archive fuel index (some text)
      { fileDescriptors := (findFileDescriptor archive index library).2.fileDescriptors
        io := library.io.disk } = (.ret (), saved)) :
    ∃ library', extractFile libraries.onWorld World.system archive options locale fuel namePrefix index
        library = (.ret true, library') ∧
      library'.fileDescriptors = saved.fileDescriptors ∧
      Shows (library.io.prepared dirname) library'.io saved.io := by
  have path := @extractPath_of_dirname libraries archive options locale namePrefix index
    { library, filename := freshString libraries.onWorld } dirname buffer named filled
  rw [converted] at path
  dsimp only at path
  rw [if_pos (by rw [insideOutputDirectory_prepared]; exact inside)] at path
  have disk : (library.io.prepared dirname).disk = library.io.disk :=
    (library.io.sameFiles_prepared dirname).disk
  rw [← disk] at save
  obtain ⟨library', run, known, seen⟩ := @fileSave_onWorld libraries archive index fuel
    (prepared archive index { library, filename := freshString libraries.onWorld } dirname filename).library
    filename text saved names save
  have body : extractBody libraries.onWorld World.system archive options locale fuel namePrefix index
      { library, filename := freshString libraries.onWorld } =
        (.ret (), { library := library', filename := .ret filename }) := by
    rw [extractBody, Proc.bind_of_ret path, new]
    exact onLibrary_of_ret run
  refine ⟨library', ?_, known, seen⟩
  rw [extractFile]
  simp only [Proc.onFailure, Proc.bind_of_ret body, Proc.pure_run]

end

end Unshield
