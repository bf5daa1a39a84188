/-
Module: Unshield.Proofs.LinkChains
Purpose: The save functions call themselves along the links from file to file.  The recursion ends
  exactly where the links do not come back.
Trusted boundary: none
Main exports: link, saveUnlinked, saveThroughLinks_of_link, saveThroughLinks_of_no_link,
  saves_end_iff, Target, saveThroughLinks_cases
-/
import Unshield.Proofs.SaveFrame
import Unshield.Proofs.VolumeFormat
import Unshield.Foundation.Chain

namespace Unshield

open Procedure

/-! ### Links -/

/-- The file that a save function goes on with, if the one it was called for is a link. -/
def link (header : Header) (fileDescriptors : Nat → Option FileDescriptor) (index : Int) :
    Option Int :=
  match descriptorAt header fileDescriptors index with
  | .ret fd =>
      if ¬ (fd.Has fileInvalid ∨ fd.dataOffset = 0) ∧ fd.linkFlags &&& linkPrev ≠ 0 then
        some fd.linkPrevious.toInt32.toInt
      else none
  | _ => none

/-! ### One call -/

section

variable {σ H : Type} (env : Environment σ H) (archive : Archive)
  (save : Nat → Int → Proc (Session σ H) Unit)

/-- A call that does not go on with another file. -/
def saveUnlinked (fuel : Nat) (index : Int) : Proc (Library σ) Unit := do
  let fd ← getFileDescriptor archive.header index
  Proc.require (¬ (fd.Has fileInvalid ∨ fd.dataOffset = 0))
  runSession env index.toNat fd (save fuel index)

variable {env archive} {index : Int} {library : Library σ}

/-- A call for a link is a call for the file that it points to. -/
theorem saveThroughLinks_of_link {next : Int}
    (linked : link archive.header library.fileDescriptors index = some next) :
    ∃ library', library'.io = library.io ∧
      (∀ other, descriptorAt archive.header library'.fileDescriptors other =
        descriptorAt archive.header library.fileDescriptors other) ∧
      ∀ (save : Nat → Int → Proc (Session σ H) Unit) (fuel : Nat),
        saveThroughLinks env archive save (fuel + 1) index library =
          saveThroughLinks env archive save fuel next library' := by
  rw [link] at linked
  split at linked
  · rename_i fd found
    split at linked
    · rename_i passes
      cases linked
      rw [← getFileDescriptor_exit] at found
      have run := Proc.run_eq_ret found
      rcases descriptorAt_of_run run with ⟨io, same⟩
      refine ⟨_, io, same, fun save fuel => ?_⟩
      rw [saveThroughLinks, Proc.bind_of_ret run, Proc.bind_of_ret (Proc.require_run_of passes.1 _),
        if_pos passes.2]
    · cases linked
  · cases linked

theorem saveThroughLinks_of_no_link (save : Nat → Int → Proc (Session σ H) Unit)
    (unlinked : link archive.header library.fileDescriptors index = none) (fuel : Nat) :
    saveThroughLinks env archive save (fuel + 1) index library =
      saveUnlinked env archive save fuel index library := by
  rw [saveThroughLinks, saveUnlinked]
  apply Proc.bind_congr_run
  intro fd library' run
  apply Proc.bind_congr_run
  intro _ library'' checked
  have passes := (Proc.require_eq_ret_iff.1 checked).1
  have found : descriptorAt archive.header library.fileDescriptors index = .ret fd := by
    rw [← getFileDescriptor_exit, run]
  rw [if_neg]
  intro linked
  rw [link, found] at unlinked
  simp only at unlinked
  rw [if_pos ⟨passes, linked⟩] at unlinked
  cases unlinked

/-! ### All calls -/

theorem link_congr {header : Header} {one two : Nat → Option FileDescriptor}
    (same : ∀ other, descriptorAt header one other = descriptorAt header two other) :
    link header one = link header two := by
  funext other
  rw [link, link, same]

/-- Links go to finitely many places. -/
theorem finite_links (header : Header) (fileDescriptors : Nat → Option FileDescriptor) :
    {next | ∃ index, link header fileDescriptors index = some next}.Finite := by
  have words : (Set.range fun word : UInt32 => word.toInt32.toInt).Finite := Set.finite_range _
  apply words.subset
  rintro next ⟨index, linked⟩
  rw [link] at linked
  split at linked
  · split at linked
    · exact ⟨_, Option.some.inj linked⟩
    · cases linked
  · cases linked

/-- The calls along a chain of links lead to the call for its last file. -/
theorem saveThroughLinks_of_reaches {last : Int}
    (reaches : StateTransition.Reaches (link archive.header library.fileDescriptors) index last)
    (final : link archive.header library.fileDescriptors last = none) :
    ∃ depth library', library'.io = library.io ∧
      (∀ other, descriptorAt archive.header library'.fileDescriptors other =
        descriptorAt archive.header library.fileDescriptors other) ∧
      ∀ (save : Nat → Int → Proc (Session σ H) Unit) (fuel : Nat),
        saveThroughLinks env archive save (depth + fuel + 1) index library =
          saveUnlinked env archive save fuel last library' := by
  generalize steps : link archive.header library.fileDescriptors = next at reaches
  induction reaches using Relation.ReflTransGen.head_induction_on generalizing library with
  | refl =>
      refine ⟨0, library, rfl, fun other => rfl, fun save fuel => ?_⟩
      rw [Nat.zero_add]
      exact saveThroughLinks_of_no_link save final fuel
  | head step _ ih =>
      rw [← steps] at step
      rcases saveThroughLinks_of_link step with ⟨library₁, io₁, same₁, goes⟩
      have links := link_congr same₁
      rcases ih (by rw [links]; exact final) (by rw [links]; exact steps) with
        ⟨depth, library', io, same, ends⟩
      refine ⟨depth + 1, library', io.trans io₁, fun other => (same other).trans (same₁ other),
        fun save fuel => ?_⟩
      rw [Nat.add_right_comm depth 1 fuel, goes]
      exact ends save fuel

/-- The calls along a chain of links that comes back never end. -/
theorem saveThroughLinks_of_comesBack (save : Nat → Int → Proc (Session σ H) Unit) (fuel : Nat) :
    ∀ {index : Int} {library : Library σ},
      Chain.ComesBack (link archive.header library.fileDescriptors) index →
      (saveThroughLinks env archive save fuel index library).1 = .timeout := by
  induction fuel with
  | zero => exact fun _ => rfl
  | succ fuel ih =>
      intro index library comesBack
      rcases comesBack.goes_on with ⟨next, step, further⟩
      rcases saveThroughLinks_of_link step with ⟨library', _, same, goes⟩
      rw [goes]
      apply ih
      rw [link_congr same]
      exact further

variable (env archive index library) in
/-- Each of the save functions goes along finitely many links, and then it is a call for a file that
it does not leave any more: a file without a link back, or one for which it returns false. -/
def SavesEnd (filename : Option Bytes) : Prop :=
  ∃ last, StateTransition.Reaches (link archive.header library.fileDescriptors) index last ∧
    link archive.header library.fileDescriptors last = none ∧
    ∃ depth library', library'.io = library.io ∧
      (∀ other, descriptorAt archive.header library'.fileDescriptors other =
        descriptorAt archive.header library.fileDescriptors other) ∧
      ∀ fuel,
        fileSave env archive (depth + fuel + 1) index filename library =
          saveUnlinked env archive (saveNew env archive filename) fuel last library' ∧
        fileSaveRaw env archive (depth + fuel + 1) index filename library =
          saveUnlinked env archive (saveRaw env archive filename) fuel last library' ∧
        fileSaveOld env archive (depth + fuel + 1) index filename library =
          saveUnlinked env archive (saveOld env archive filename) fuel last library'

end

/-- The recursion of the save functions ends exactly where the chain of links does not come back to a
file it has visited.  Where it does, no number of calls is enough. -/
theorem saves_end_iff {σ H : Type} (env : Environment σ H) (archive : Archive)
    (filename : Option Bytes) (index : Int) (library : Library σ) :
    (SavesEnd env archive index library filename ↔
      ¬ Chain.ComesBack (link archive.header library.fileDescriptors) index) ∧
    (Chain.ComesBack (link archive.header library.fileDescriptors) index → ∀ fuel,
      (fileSave env archive fuel index filename library).1 = .timeout ∧
      (fileSaveRaw env archive fuel index filename library).1 = .timeout ∧
      (fileSaveOld env archive fuel index filename library).1 = .timeout) := by
  constructor
  · rw [← Chain.ends_iff (finite_links archive.header library.fileDescriptors)]
    constructor
    · rintro ⟨last, reaches, final, _⟩
      exact ⟨last, reaches, final⟩
    · rintro ⟨last, reaches, final⟩
      rcases saveThroughLinks_of_reaches reaches final with ⟨depth, library', io, same, ends⟩
      exact ⟨last, reaches, final, depth, library', io, same,
        fun fuel => ⟨ends _ fuel, ends _ fuel, ends _ fuel⟩⟩
  · intro comesBack fuel
    exact ⟨saveThroughLinks_of_comesBack _ fuel comesBack,
      saveThroughLinks_of_comesBack _ fuel comesBack,
      saveThroughLinks_of_comesBack _ fuel comesBack⟩

/-! ### The file that is saved -/

/-- The file that a save function comes to along the links, and its descriptor.  Calls for the files on
the way return false where there is none. -/
inductive Target (header : Header) (fileDescriptors : Nat → Option FileDescriptor) :
    Int → Int → FileDescriptor → Prop where
  | here {index : Int} {fd : FileDescriptor} (found : descriptorAt header fileDescriptors index = .ret fd)
      (valid : ¬ (fd.Has fileInvalid ∨ fd.dataOffset = 0)) (unlinked : ¬ fd.linkFlags &&& linkPrev ≠ 0) :
      Target header fileDescriptors index index fd
  | linked {index next last : Int} {fd : FileDescriptor}
      (step : link header fileDescriptors index = some next)
      (further : Target header fileDescriptors next last fd) : Target header fileDescriptors index last fd

section

variable {header : Header} {fileDescriptors : Nat → Option FileDescriptor} {index last : Int}
  {fd : FileDescriptor}

theorem Target.congr {others : Nat → Option FileDescriptor}
    (same : ∀ other, descriptorAt header fileDescriptors other = descriptorAt header others other)
    (target : Target header fileDescriptors index last fd) : Target header others index last fd := by
  induction target with
  | here found valid unlinked => exact .here (by rw [← same]; exact found) valid unlinked
  | linked step _ ih => exact .linked (by rw [← link_congr same]; exact step) ih

theorem link_eq_some_iff {next : Int} : link header fileDescriptors index = some next ↔
    ∃ fd, descriptorAt header fileDescriptors index = .ret fd ∧
      ¬ (fd.Has fileInvalid ∨ fd.dataOffset = 0) ∧ fd.linkFlags &&& linkPrev ≠ 0 ∧
        fd.linkPrevious.toInt32.toInt = next := by
  rw [link]
  cases descriptorAt header fileDescriptors index <;> simp [and_assoc]

/-- A file that comes to a target has a descriptor, and that is valid. -/
theorem Target.descriptor (target : Target header fileDescriptors index last fd) :
    ∃ own, descriptorAt header fileDescriptors index = .ret own ∧
      ¬ (own.Has fileInvalid ∨ own.dataOffset = 0) := by
  cases target with
  | here found valid _ => exact ⟨fd, found, valid⟩
  | linked step _ =>
      rcases link_eq_some_iff.1 step with ⟨own, found, valid, _⟩
      exact ⟨own, found, valid⟩

/-- The target of a link is that of the file it points to. -/
theorem Target.of_link {next : Int}
    (step : link header fileDescriptors index = some next)
    (target : Target header fileDescriptors index last fd) :
    Target header fileDescriptors next last fd := by
  cases target with
  | here found _ unlinked =>
      rcases link_eq_some_iff.1 step with ⟨own, found', _, linked, _⟩
      rw [found] at found'
      cases found'
      exact absurd linked unlinked
  | linked step' further =>
      rw [step] at step'
      cases step'
      exact further

/-- There is one target at most. -/
theorem Target.unique {last' : Int} {fd' : FileDescriptor}
    (one : Target header fileDescriptors index last fd)
    (two : Target header fileDescriptors index last' fd') : last = last' ∧ fd = fd' := by
  induction one with
  | here found valid unlinked =>
      cases two with
      | here found' _ _ =>
          rw [found] at found'
          cases found'
          exact ⟨rfl, rfl⟩
      | linked step _ =>
          rcases link_eq_some_iff.1 step with ⟨own, found', _, linked, _⟩
          rw [found] at found'
          cases found'
          exact absurd linked unlinked
  | linked step _ ih => exact ih (two.of_link step)

end

section

variable {σ H : Type} {env : Environment σ H} {archive : Archive}

theorem saveUnlinked_cases (save : Nat → Int → Proc (Session σ H) Unit) {index : Int}
    {library : Library σ} (unlinked : link archive.header library.fileDescriptors index = none)
    (fuel : Nat) :
    (∃ exit library', saveUnlinked env archive save fuel index library = (exit, library') ∧
      library'.io = library.io ∧ (exit.Orderly → ∀ last fd,
        ¬ Target archive.header library.fileDescriptors index last fd)) ∨
    ∃ fd library', Target archive.header library.fileDescriptors index index fd ∧
      library'.io = library.io ∧ saveUnlinked env archive save fuel index library =
        runSession env index.toNat fd (save fuel index) library' := by
  have found := @getFileDescriptor_exit σ archive.header index library
  have world := @getFileDescriptor_io σ archive.header index library
  have nowhere : (∀ own, descriptorAt archive.header library.fileDescriptors index = .ret own →
      own.Has fileInvalid ∨ own.dataOffset = 0) → ∀ last fd,
        ¬ Target archive.header library.fileDescriptors index last fd := by
    intro invalid last fd target
    rcases target.descriptor with ⟨own, found, valid⟩
    exact valid (invalid own found)
  rcases run : getFileDescriptor archive.header index library with ⟨exit, library'⟩
  rw [run] at found world
  simp only at found world
  rw [saveUnlinked]
  cases exit with
  | ret fd =>
      rw [Proc.bind_of_ret run]
      by_cases valid : ¬ (fd.Has fileInvalid ∨ fd.dataOffset = 0)
      · rw [Proc.bind_of_ret (Proc.require_run_of valid _)]
        refine Or.inr ⟨fd, library', .here found.symm valid fun linked => ?_, world, rfl⟩
        have step := link_eq_some_iff.2 ⟨fd, found.symm, valid, linked, rfl⟩
        rw [unlinked] at step
        cases step
      · rw [Proc.bind_of_fail (Proc.require_run_of_not valid _)]
        refine Or.inl ⟨_, library', rfl, world, fun _ => nowhere ?_⟩
        intro own found'
        rw [← found] at found'
        cases found'
        exact not_not.1 valid
  | fail =>
      rw [Proc.bind_of_fail run]
      refine Or.inl ⟨_, library', rfl, world, fun _ => nowhere ?_⟩
      intro own found'
      rw [← found] at found'
      cases found'
  | abort =>
      refine Or.inl ⟨.abort, library', ?_, world, False.elim⟩
      show Proc.bind _ _ library = _
      rw [Proc.bind, run]
  | fault =>
      refine Or.inl ⟨.fault, library', ?_, world, False.elim⟩
      show Proc.bind _ _ library = _
      rw [Proc.bind, run]
  | timeout =>
      refine Or.inl ⟨.timeout, library', ?_, world, False.elim⟩
      show Proc.bind _ _ library = _
      rw [Proc.bind, run]

/-- A call either comes to its target and runs a session there, or it does not touch the world. -/
theorem saveThroughLinks_cases (save : Nat → Int → Proc (Session σ H) Unit) (fuel : Nat) :
    ∀ (index : Int) (library : Library σ),
      (∃ exit library', saveThroughLinks env archive save fuel index library = (exit, library') ∧
        library'.io = library.io ∧ (exit.Orderly → ∀ last fd,
          ¬ Target archive.header library.fileDescriptors index last fd)) ∨
      ∃ fuel' last fd library', Target archive.header library.fileDescriptors index last fd ∧
        library'.io = library.io ∧ saveThroughLinks env archive save fuel index library =
          runSession env last.toNat fd (save fuel' last) library' := by
  induction fuel with
  | zero => exact fun index library => Or.inl ⟨_, library, rfl, rfl, False.elim⟩
  | succ fuel ih =>
      intro index library
      cases step : link archive.header library.fileDescriptors index with
      | some next =>
          rcases saveThroughLinks_of_link step with ⟨library₁, io₁, same₁, goes⟩
          rw [goes]
          rcases ih next library₁ with ⟨exit, library', run, io, nowhere⟩ |
            ⟨fuel', last, fd, library', target, io, run⟩
          · refine Or.inl ⟨exit, library', run, io.trans io₁, fun orderly last fd target => ?_⟩
            exact nowhere orderly last fd ((target.of_link step).congr fun other => (same₁ other).symm)
          · exact Or.inr ⟨fuel', last, fd, library', .linked step (target.congr same₁),
              io.trans io₁, run⟩
      | none =>
          rw [saveThroughLinks_of_no_link save step fuel]
          rcases saveUnlinked_cases save step fuel with nothing | ⟨fd, library', target, io, run⟩
          · exact Or.inl nothing
          · exact Or.inr ⟨fuel, index, fd, library', target, io, run⟩

end

/-! ### A file that is linked to itself -/

/-- The header of a cabinet whose only file names itself as the previous one. -/
def loopHeader : Header where
  index := 1
  data :=
    List.replicate 18 0 ++ 84 :: List.replicate 65 0 ++ [linkPrev, 1, 0]
  majorVersion := 6
  common := plainCommonHeader
  cab := { fileTableOffset := 0, directoryCount := 1, fileCount := 1, fileTableOffset2 := 0 }
  fileTable := [0, 0]

def loopArchive : Archive := { header := loopHeader, filenamePattern := [] }

def loopLibrary : Library Disk where
  fileDescriptors := fun _ => none
  io := shelfDisk [] 0 (by decide) room_zero_lt

/-- The recursion of the save functions does not end for a file that is linked to itself. -/
theorem saves_loop :
    (¬ ∃ fuel, (fileSave smallLibraries.onDisk loopArchive fuel 0 none loopLibrary).1 ≠ .timeout) ∧
    (¬ ∃ fuel, (fileSaveRaw smallLibraries.onDisk loopArchive fuel 0 none loopLibrary).1 ≠ .timeout) ∧
    ¬ ∃ fuel, (fileSaveOld smallLibraries.onDisk loopArchive fuel 0 none loopLibrary).1 ≠ .timeout := by
  have comesBack : Chain.ComesBack (link loopHeader fun _ => none) 0 :=
    ⟨0, .refl, .single (by decide +kernel)⟩
  have loops : ∀ save, ¬ ∃ fuel,
      (saveThroughLinks smallLibraries.onDisk loopArchive save fuel 0 loopLibrary).1 ≠ .timeout := by
    rintro save ⟨fuel, ended⟩
    exact ended (saveThroughLinks_of_comesBack save fuel comesBack)
  exact ⟨loops _, loops _, loops _⟩

end Unshield
