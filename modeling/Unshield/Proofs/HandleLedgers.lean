/-
Module: Unshield.Proofs.HandleLedgers
Purpose: The handles that a session holds, as a ledger: what each operation on the reader's file and on
  the output file enters into it.
Trusted boundary: none
Main exports: ledgerOf, atRest, steady_of_keeps, saveNew_keeps, saveRaw_keeps, saveOld_keeps, After,
  saveThroughLinks_keeps
-/
import Unshield.Core.TracedEnvironment
import Unshield.Proofs.LinkChains

namespace Unshield

open Procedure
open Handles

variable {σ H : Type}

/-- The session of a call in an environment with a trace. -/
abbrev TracedSession (σ H : Type) := Session (Traced σ) (Tagged H)

/-- The handles that a session holds are those of the volume file and the output file. -/
def ledgerOf (s : TracedSession σ H) : Ledger where
  next := s.io.next
  trace := s.io.trace
  held := (s.reader.volumeFile.map Tagged.id).toList ++ (s.output.map Tagged.id).toList

/-- The session of a call before it has a reader. -/
def beginSession (fd : FileDescriptor) (io : σ) : Session σ H :=
  { reader := { index := 0 }, fileDescriptor := fd, io := io }

/-- The ledger between two calls, when nothing is held. -/
def atRest (world : Traced σ) : Ledger where
  next := world.next
  trace := world.trace
  held := []

theorem guarded_start (io : σ) : (atRest ({ io := io } : Traced σ)).Guarded where
  below := fun _ member => by rcases member with opened | closed <;> contradiction
  nodup := List.nodup_nil
  live := fun _ held => nomatch held
  disciplined := trivial

theorem balanced_start (io : σ) : (atRest ({ io := io } : Traced σ)).Balanced where
  below := (guarded_start io).below
  held_below := fun _ held => nomatch held
  balance := fun _ opened => nomatch opened

theorem held_volumeFile {s : TracedSession σ H} {file : Tagged H} (opened : s.reader.volumeFile = some file) :
    file.id ∈ (ledgerOf s).held := by
  rw [ledgerOf, opened]
  exact List.mem_cons_self

theorem held_output {s : TracedSession σ H} {file : Tagged H} (opened : s.output = some file) :
    file.id ∈ (ledgerOf s).held := by
  rw [ledgerOf, opened]
  exact List.mem_append_right _ List.mem_cons_self

/-- The reader matters to the ledger only for its file. -/
theorem ledgerOf_reader {s : TracedSession σ H} {reader : Reader (Tagged H)}
    (same : reader.volumeFile = s.reader.volumeFile) :
    ledgerOf { s with reader := reader } = ledgerOf s := by
  rw [ledgerOf, ledgerOf, same]

/-! ### The volume file -/

section

variable {env : Environment σ H} {s : TracedSession σ H} {file : Tagged H}

theorem ledgerOf_fcloseVolume (opened : s.reader.volumeFile = some file) :
    ledgerOf (fcloseVolume env.traced s).2 = (ledgerOf s).closes file.id := by
  rw [fcloseVolume, ledgerOf, ledgerOf, opened]
  show Ledger.mk _ _ _ = Ledger.mk _ _ ((file.id :: _).erase file.id)
  rw [List.erase_cons_head]
  rfl

theorem fcloseVolume_volumeFile : (fcloseVolume env.traced s).2.reader.volumeFile = none := by
  rw [fcloseVolume]
  cases opened : s.reader.volumeFile with
  | none => exact opened
  | some file => rfl

theorem fcloseVolume_returns (env : Environment σ H) (s : Session σ H) :
    (fcloseVolume env s).1 = .ret () := by
  rw [fcloseVolume]
  cases s.reader.volumeFile <;> rfl

theorem fopenVolume_state (env : Environment σ H) (volume : Int) (s : Session σ H) :
    (fopenVolume env volume s).2 =
      { s with
        reader.volumeFile := (env.openForReading volume s.io).1
        io := (env.openForReading volume s.io).2 } := by
  rw [fopenVolume]
  simp only
  split <;> rfl

/-- A volume that can be opened is one handle more. -/
theorem ledgerOf_fopenVolume (closed : s.reader.volumeFile = none) (volume : Int) :
    ledgerOf (fopenVolume env.traced volume s).2 = ledgerOf s ∨
      ledgerOf (fopenVolume env.traced volume s).2 = (ledgerOf s).opens := by
  have opening : env.traced.openForReading volume s.io =
    s.io.opened (env.openForReading volume s.io.io) := rfl
  rw [fopenVolume_state, opening]
  rcases env.openForReading volume s.io.io with ⟨_ | handle, io⟩
  · apply Or.inl
    rw [ledgerOf, ledgerOf, closed]
    rfl
  · apply Or.inr
    rw [ledgerOf, ledgerOf, closed]
    rfl

theorem ledgerOf_freadVolume (opened : s.reader.volumeFile = some file) (count : Nat) :
    ledgerOf (freadVolume env.traced count s).2 = (ledgerOf s).uses file.id := by
  rw [freadVolume, ledgerOf, ledgerOf, opened]
  simp only
  split <;> rfl

theorem ledgerOf_fseekVolume (opened : s.reader.volumeFile = some file) (offset : Int) :
    ledgerOf (fseekVolume env.traced offset s).2 = (ledgerOf s).uses file.id := by
  rw [fseekVolume, ledgerOf, ledgerOf, opened]
  rfl

theorem ledgerOf_ftellVolume (opened : s.reader.volumeFile = some file) :
    ledgerOf (ftellVolume env.traced s).2 = (ledgerOf s).uses file.id := by
  have state : (ftellVolume env.traced s).2 =
      { s with io := (env.traced.callbacks.ftell file s.io).2 } := by
    rw [ftellVolume, opened]
  rw [state, ledgerOf, ledgerOf]
  simp only [opened]
  rfl

theorem ledgerOf_fsizeVolume (opened : s.reader.volumeFile = some file) :
    ledgerOf (fsizeVolume env.traced s).2 =
      ((((ledgerOf s).uses file.id).uses file.id).uses file.id).uses file.id := by
  rw [fsizeVolume, ledgerOf, ledgerOf, opened]
  rfl

end

/-! ### Properties of the ledger -/

section

variable {env : Environment σ H} {P : Ledger → Prop} (keeps : Ledger.Keeps P)

include keeps

theorem freadVolume_keeps (count : Nat) :
    Proc.Preserves (fun s => P (ledgerOf s)) (freadVolume env.traced count) := by
  intro s holds
  cases opened : s.reader.volumeFile with
  | none =>
      rw [freadVolume, opened]
      exact holds
  | some file =>
      rw [ledgerOf_freadVolume opened]
      exact keeps.uses _ _ (held_volumeFile opened) holds

theorem fseekVolume_keeps (offset : Int) :
    Proc.Preserves (fun s => P (ledgerOf s)) (fseekVolume env.traced offset) := by
  intro s holds
  cases opened : s.reader.volumeFile with
  | none =>
      rw [fseekVolume, opened]
      exact holds
  | some file =>
      rw [ledgerOf_fseekVolume opened]
      exact keeps.uses _ _ (held_volumeFile opened) holds

theorem ftellVolume_keeps :
    Proc.Preserves (fun s => P (ledgerOf s)) (ftellVolume env.traced) := by
  intro s holds
  cases opened : s.reader.volumeFile with
  | none =>
      rw [ftellVolume, opened]
      exact holds
  | some file =>
      rw [ledgerOf_ftellVolume opened]
      exact keeps.uses _ _ (held_volumeFile opened) holds

theorem fsizeVolume_keeps :
    Proc.Preserves (fun s => P (ledgerOf s)) (fsizeVolume env.traced) := by
  intro s holds
  cases opened : s.reader.volumeFile with
  | none =>
      rw [fsizeVolume, opened]
      exact holds
  | some file =>
      have member := held_volumeFile opened
      rw [ledgerOf_fsizeVolume opened]
      have told := keeps.uses (ledgerOf s) _ member holds
      have atEnd := keeps.uses ((ledgerOf s).uses _) _ member told
      have sized := keeps.uses (((ledgerOf s).uses _).uses _) _ member atEnd
      exact keeps.uses ((((ledgerOf s).uses _).uses _).uses _) _ member sized

theorem fcloseVolume_keeps :
    Proc.Preserves (fun s => P (ledgerOf s)) (fcloseVolume env.traced) := by
  intro s holds
  cases opened : s.reader.volumeFile with
  | none =>
      rw [fcloseVolume, opened]
      exact holds
  | some file =>
      rw [ledgerOf_fcloseVolume opened]
      exact keeps.closes _ _ (held_volumeFile opened) holds

/-- What every operation keeps of the ledger, no operation on the volume file breaks. -/
theorem volumeSteps_of_keeps : VolumeSteps env.traced (fun s => P (ledgerOf s)) where
  reopen := by
    intro volume s holds
    have after : P (ledgerOf (fcloseVolume env.traced s).2) := fcloseVolume_keeps keeps s holds
    have closed : (fcloseVolume env.traced s).2.reader.volumeFile = none := fcloseVolume_volumeFile
    rw [Proc.bind_of_ret (Proc.run_eq_ret (fcloseVolume_returns _ s))]
    rcases ledgerOf_fopenVolume closed volume with same | opens
    · rw [same]
      exact after
    · rw [opens]
      exact keeps.opens _ after
  fread := freadVolume_keeps keeps
  fseek := fseekVolume_keeps keeps
  ftell := ftellVolume_keeps keeps
  reader := by
    intro s reader same _ holds
    rw [ledgerOf_reader same]
    exact holds

/-- No step of reading a file breaks it either. -/
theorem steady_of_keeps (header : Header) : Steady env.traced header (fun s => P (ledgerOf s)) :=
  (volumeSteps_of_keeps keeps).steady fun _ _ _ holds => holds

/-! ### The output file -/

theorem fwriteOutput_keeps (data : Bytes) :
    Proc.Preserves (fun s => P (ledgerOf s)) (fwriteOutput env.traced data) := by
  intro s holds
  rw [fwriteOutput]
  cases opened : s.output with
  | none => exact holds
  | some file =>
      have after := keeps.uses _ _ (held_output opened) holds
      rw [ledgerOf, opened] at after
      simp only
      split <;> exact after

end

/-- A session that has no output file yet. -/
def BeforeOutput (P : Ledger → Prop) (s : TracedSession σ H) : Prop := P (ledgerOf s) ∧ s.output = none

theorem apart_noOutput {env : Environment σ H} : Apart env (fun s => s.output = none) :=
  (Unaffected.of_deaf (fun _ _ holds => holds) (fun _ _ _ holds => holds) (fun _ _ holds => holds)).toApart

section

variable {env : Environment σ H} {P : Ledger → Prop} (keeps : Ledger.Keeps P)

include keeps

theorem volumeSteps_beforeOutput : VolumeSteps env.traced (BeforeOutput P) :=
  (volumeSteps_of_keeps keeps).and (apart_noOutput.volumeSteps _)

theorem fsizeVolume_beforeOutput : Proc.Preserves (BeforeOutput P) (fsizeVolume env.traced) :=
  fun s holds => ⟨fsizeVolume_keeps keeps s holds.1, preserves_fsizeVolume _ apart_noOutput s holds.2⟩

theorem fcloseVolume_beforeOutput : Proc.Preserves (BeforeOutput P) (fcloseVolume env.traced) :=
  fun s holds => ⟨fcloseVolume_keeps keeps s holds.1, preserves_fcloseVolume _ apart_noOutput s holds.2⟩

/-- A reader is created by a session that has none; `forgets` says that the reader's file may stay open
when it fails. -/
theorem readerCreate_keeps (forgets : ∀ ledger id, P ledger → P (ledger.forgets id)) (header : Header)
    (fuel : Nat) (index : Int) :
    Proc.Leads (fun s => BeforeOutput P s ∧ s.reader.volumeFile = none)
      (readerCreate env.traced header fuel index) (BeforeOutput P) := by
  have steady : Steady env.traced header (BeforeOutput P) :=
    (volumeSteps_beforeOutput keeps).steady fun _ _ _ holds => holds
  refine steady.readerCreate fuel index ?_ ?_
  · rintro s ⟨⟨holds, closed⟩, none⟩
    exact ⟨by rw [ledgerOf_reader none.symm]; exact holds, closed⟩
  · rintro s ⟨holds, closed⟩
    refine ⟨?_, closed⟩
    cases opened : s.reader.volumeFile with
    | none =>
        rw [freeReader, ledgerOf_reader opened.symm]
        exact holds
    | some file =>
        have after := forgets _ file.id holds
        rw [ledgerOf, opened] at after
        simp only [Ledger.forgets, Option.map_some, Option.toList_some, List.singleton_append,
          List.erase_cons_head] at after
        exact after

theorem fopenOutput_keeps (filename : Option Bytes) :
    Proc.Leads (BeforeOutput P) (fopenOutput env.traced filename) (fun s => P (ledgerOf s)) := by
  rintro s ⟨holds, closed⟩
  cases filename with
  | none => exact holds
  | some path =>
      have state : (fopenOutput env.traced (some path) s).2 =
          { s with
            output := (s.io.opened (env.callbacks.fopen path .writeBinary s.io.io)).1
            io := (s.io.opened (env.callbacks.fopen path .writeBinary s.io.io)).2 } := by
        rw [fopenOutput]
        simp only
        split <;> rfl
      rw [state]
      rcases env.callbacks.fopen path .writeBinary s.io.io with ⟨_ | handle, io⟩
      · rw [ledgerOf, closed] at holds
        exact holds
      · have opened := keeps.opens _ holds
        rw [ledgerOf, closed] at opened
        -- the ledger has the new handle in front, the session behind the volume file
        have order : (s.io.next :: ((s.reader.volumeFile.map Tagged.id).toList ++ [])).Perm
            ((s.reader.volumeFile.map Tagged.id).toList ++ [s.io.next]) := by
          rw [List.append_nil]
          exact (List.perm_append_singleton _ _).symm
        exact keeps.perm _ _ order opened

/-! ### The bodies of the save functions -/

section

variable {archive : Archive} {Q : TracedSession σ H → Prop} {filename : Option Bytes} {fuel : Nat}
  {index : Int}

theorem saveNew_keeps
    (created : Proc.Leads Q (readerCreate env.traced archive.header fuel index) (BeforeOutput P)) :
    Proc.Leads Q (saveNew env.traced archive filename fuel index) (fun s => P (ledgerOf s)) :=
  (steady_of_keeps keeps archive.header).saveNew (fwriteOutput_keeps keeps) (fun _ holds => holds.1)
    created (fsizeVolume_beforeOutput keeps) (fopenOutput_keeps keeps filename)

theorem saveRaw_keeps
    (created : Proc.Leads Q (readerCreate env.traced archive.header fuel index) (BeforeOutput P)) :
    Proc.Leads Q (saveRaw env.traced archive filename fuel index) (fun s => P (ledgerOf s)) :=
  (steady_of_keeps keeps archive.header).saveRaw (fwriteOutput_keeps keeps) (fun _ holds => holds.1)
    created (fsizeVolume_beforeOutput keeps) (fopenOutput_keeps keeps filename)

theorem saveOld_keeps
    (created : Proc.Leads Q (createOldReader env.traced archive fuel index) (BeforeOutput P)) :
    Proc.Leads Q (saveOld env.traced archive filename fuel index) (fun s => P (ledgerOf s)) :=
  (steady_of_keeps keeps archive.header).saveOld (fwriteOutput_keeps keeps) (fun _ holds => holds.1)
    created (fopenOutput_keeps keeps filename)

end

/-! ### The end of a call -/

theorem closeSession_keeps {s : TracedSession σ H} (holds : P (ledgerOf s)) :
    P (ledgerOf (closeSession env.traced s)) := by
  rw [closeSession]
  cases opened : s.reader.volumeFile with
  | none =>
      cases output : s.output with
      | none =>
          rw [ledgerOf, opened, output] at holds
          exact holds
      | some file =>
          have closed := keeps.closes _ _ (held_output output) holds
          rw [ledgerOf, opened, output] at closed
          simp only [Ledger.closes, Option.map_none, Option.toList_none, List.nil_append,
            Option.map_some, Option.toList_some, List.erase_cons_head] at closed
          exact closed
  | some volumeFile =>
      have closed := keeps.closes _ _ (held_volumeFile opened) holds
      rw [ledgerOf, opened] at closed
      simp only [Ledger.closes, Option.map_some, Option.toList_some, List.singleton_append,
        List.erase_cons_head] at closed
      cases output : s.output with
      | none =>
          rw [output] at closed
          exact closed
      | some file =>
          rw [output] at closed
          have both := keeps.closes _ file.id List.mem_cons_self closed
          simp only [Ledger.closes, Option.map_some, Option.toList_some, List.erase_cons_head] at both
          exact both

end

/-! ### Calls -/

/-- The property holds of the world after a call; after one that comes back nothing is held. -/
def After (P : Ledger → Prop) (outcome : Exit Unit × Library (Traced σ)) : Prop :=
  ∃ held, P { atRest outcome.2.io with held := held } ∧ (outcome.1.Orderly → held = [])

theorem After.atRest {P : Ledger → Prop} {outcome : Exit Unit × Library (Traced σ)}
    (after : After P outcome) (orderly : outcome.1.Orderly) : P (atRest outcome.2.io) := by
  rcases after with ⟨held, holds, nothing⟩
  rw [nothing orderly] at holds
  exact holds

section

variable {env : Environment σ H} {archive : Archive} {P : Ledger → Prop} (keeps : Ledger.Keeps P)

include keeps

theorem runSession_keeps {body : Proc (TracedSession σ H) Unit} {fd : FileDescriptor}
    {library : Library (Traced σ)} (after : P (ledgerOf (body (beginSession fd library.io)).2))
    (index : Nat) : After P (runSession env.traced index fd body library) := by
  rw [beginSession] at after
  rw [runSession]
  split
  · rename_i s run
    rw [run] at after
    exact ⟨[], closeSession_keeps keeps after, fun _ => rfl⟩
  · rename_i s run
    rw [run] at after
    exact ⟨[], closeSession_keeps keeps after, fun _ => rfl⟩
  · rename_i exit s returns fails run
    rw [run] at after
    refine ⟨_, after, fun orderly => ?_⟩
    cases exit with
    | ret value => exact (returns rfl).elim
    | fail => exact (fails rfl).elim
    | abort => exact orderly.elim
    | fault => exact orderly.elim
    | timeout => exact orderly.elim

/-- What holds of the session of the target holds of the call. -/
theorem saveThroughLinks_keeps {save : Nat → Int → Proc (TracedSession σ H) Unit} {index : Int}
    {library : Library (Traced σ)} (rest : P (atRest library.io))
    (session : ∀ last fd, Target archive.header library.fileDescriptors index last fd → ∀ fuel,
      P (ledgerOf (save fuel last (beginSession fd library.io)).2)) (fuel : Nat) :
    After P (saveThroughLinks env.traced archive save fuel index library) := by
  rcases saveThroughLinks_cases save fuel index library with ⟨exit, library', run, io, _⟩ |
    ⟨fuel', last, fd, library', target, io, run⟩
  · rw [run]
    refine ⟨[], ?_, fun _ => rfl⟩
    rw [io]
    exact rest
  · rw [run]
    apply runSession_keeps keeps
    rw [io]
    exact session last fd target fuel'

end

end Unshield
