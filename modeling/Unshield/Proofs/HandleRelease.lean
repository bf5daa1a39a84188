/-
Module: Unshield.Proofs.HandleRelease
Purpose: A save function that comes back has closed every handle that the callbacks gave out, exactly
  once, unless the search for the start volume fails in a volume that is there.
Trusted boundary: none
Main exports: MeetsBadVolume, LeavesVolume, handles_closed_iff
-/
import Unshield.Proofs.HandleDiscipline

namespace Unshield

open Procedure
open Handles

variable {σ H : Type}

/-! ### The search for the start volume -/

/-- The search for the start volume comes to a volume that is there, and whose headers cannot be
read. -/
inductive MeetsBadVolume (env : Environment σ H) (header : Header) (index : Int) : Session σ H → Prop where
  | here {s t : Session σ H} {file : H}
      (fails : openHeaders env header s.fileDescriptor.volume.toNat s = (.fail, t))
      (there : t.reader.volumeFile = some file) : MeetsBadVolume env header index s
  | next {s t : Session σ H}
      (passes : readerCreateTurn env header index () s = (.ret (.again ()), t))
      (further : MeetsBadVolume env header index t) : MeetsBadVolume env header index s

section

variable {env : Environment σ H} {header : Header} {index : Int}

theorem enterPortion_ne_fail (volume : Int) (volumeHeader : VolumeHeader) (s : Session σ H) :
    (enterPortion env header volume volumeHeader s).1 ≠ .fail := by
  rw [enterPortion, Proc.modify_bind_run, Proc.gets_bind_run]
  generalize selectPortion _ _ _ = portion
  cases portion with
  | none =>
      intro fails
      cases fails
  | some portion =>
      simp only
      rw [Proc.modify_bind_run]
      intro fails
      rcases Proc.bind_eq_fail_iff.1 (Prod.ext fails rfl) with sought | ⟨_, _, _, entered⟩
      · rw [fseekVolume] at sought
        split at sought <;> cases sought
      · cases entered

/-- A turn of the search fails exactly where the headers of its volume cannot be read. -/
theorem readerCreateTurn_eq_fail_iff {s t : Session σ H} :
    readerCreateTurn env header index () s = (.fail, t) ↔
      openHeaders env header s.fileDescriptor.volume.toNat s = (.fail, t) := by
  rw [readerCreateTurn, Proc.gets_bind_run, Proc.bind_eq_fail_iff, readerOpenVolume_eq,
    Proc.bind_eq_fail_iff]
  constructor
  · rintro ((fails | ⟨volumeHeader, u, _, entered⟩) | ⟨_, u, _, rest⟩)
    · exact fails
    · exact absurd (congrArg Prod.fst entered) (enterPortion_ne_fail _ _ _)
    · rw [Proc.gets_bind_run] at rest
      split at rest <;> cases rest
  · exact fun fails => Or.inl (Or.inl fails)

/-- If the search comes to an end, it is in such a volume exactly if it fails with a file open. -/
theorem meetsBadVolume_iff (fuel : Nat) :
    ∀ (s : Session σ H) {exit : Exit Unit} {t : Session σ H},
      Proc.iterate (readerCreateTurn env header index) fuel () s = (exit, t) → exit.Orderly →
      (MeetsBadVolume env header index s ↔ exit = .fail ∧ ∃ file, t.reader.volumeFile = some file) := by
  induction fuel with
  | zero =>
      intro s exit t run orderly
      cases run
      exact orderly.elim
  | succ fuel ih =>
      intro s exit t run orderly
      rcases turn : readerCreateTurn env header index () s with ⟨outcome, u⟩
      have only : ∀ {outcome' u'}, readerCreateTurn env header index () s = (outcome', u') →
          outcome = outcome' ∧ u = u' := by
        intro outcome' u' same
        exact Prod.mk.inj (turn.symm.trans same)
      cases outcome with
      | ret value =>
          cases value with
          | again vars =>
              rw [Proc.iterate_succ_of_again turn] at run
              rw [← ih u run orderly]
              constructor
              · rintro (⟨fails, _⟩ | ⟨passes, further⟩)
                · cases (only (readerCreateTurn_eq_fail_iff.2 fails)).1
                · obtain ⟨_, rfl⟩ := only passes
                  exact further
              · exact .next turn
          | done result =>
              rw [Proc.iterate_succ_of_done turn] at run
              cases run
              constructor
              · rintro (⟨fails, _⟩ | ⟨passes, _⟩)
                · cases (only (readerCreateTurn_eq_fail_iff.2 fails)).1
                · cases (only passes).1
              · rintro ⟨fails, _⟩
                cases fails
      | fail =>
          rw [Proc.iterate_succ_of_fail turn] at run
          cases run
          constructor
          · rintro (⟨fails, there⟩ | ⟨passes, _⟩)
            · obtain ⟨_, rfl⟩ := only (readerCreateTurn_eq_fail_iff.2 fails)
              exact ⟨rfl, _, there⟩
            · cases (only passes).1
          · rintro ⟨_, file, there⟩
            exact .here (readerCreateTurn_eq_fail_iff.1 turn) there
      | abort =>
          change Proc.bind _ _ s = _ at run
          rw [Proc.bind, turn] at run
          cases run
          exact orderly.elim
      | fault =>
          change Proc.bind _ _ s = _ at run
          rw [Proc.bind, turn] at run
          cases run
          exact orderly.elim
      | timeout =>
          change Proc.bind _ _ s = _ at run
          rw [Proc.bind, turn] at run
          cases run
          exact orderly.elim

end

/-! ### Files from beside the cabinet -/

/-- A session whose reader has no file, or one that the callbacks have not opened. -/
structure Outside (s : TracedSession σ H) : Prop where
  balanced : BeforeOutput Ledger.Balanced s
  foreign : ∀ file, s.reader.volumeFile = some file → .opened file.id ∉ s.io.trace

section

variable {env : Environment σ H} {archive : Archive}

/-- Without the reader's file nothing is held. -/
theorem Outside.balanced_without {s : TracedSession σ H} (outside : Outside s) :
    (atRest s.io).Balanced := by
  obtain ⟨⟨balanced, closed⟩, foreign⟩ := outside
  cases opened : s.reader.volumeFile with
  | none =>
      rw [ledgerOf, opened, closed] at balanced
      exact balanced
  | some file =>
      have forgotten := balanced.forgets (foreign file opened)
      rw [ledgerOf, opened, closed] at forgotten
      simp only [Ledger.forgets, Option.map_some, Option.map_none, Option.toList_some,
        Option.toList_none, List.append_nil, List.erase_cons_head] at forgotten
      exact forgotten

/-- The reader may take a file that the callbacks have not opened. -/
theorem Outside.of_balanced {s : TracedSession σ H} (balanced : (atRest s.io).Balanced)
    (closed : s.output = none)
    (foreign : ∀ file, s.reader.volumeFile = some file →
      file.id < s.io.next ∧ .opened file.id ∉ s.io.trace) : Outside s := by
  refine ⟨⟨?_, closed⟩, fun file opened => (foreign file opened).2⟩
  cases opened : s.reader.volumeFile with
  | none =>
      rw [ledgerOf, opened, closed]
      exact balanced
  | some file =>
      rw [ledgerOf, opened, closed]
      exact balanced.takes (foreign file opened).1 (foreign file opened).2

/-- To use a handle opens none. -/
theorem opened_of_used {trace : List Event} {id other : Nat}
    (opened : .opened id ∈ Event.used other :: trace) : .opened id ∈ trace := by
  rcases List.mem_cons.1 opened with same | earlier
  · cases same
  · exact earlier

theorem Outside.fsizeVolume : Proc.Preserves Outside (fsizeVolume env.traced) := by
  intro s outside
  refine ⟨fsizeVolume_beforeOutput Ledger.keeps_balanced s outside.balanced, ?_⟩
  rw [Unshield.fsizeVolume]
  cases opened : s.reader.volumeFile with
  | none =>
      intro file found
      rw [opened] at found
      cases found
  | some file =>
      rintro _ ⟨⟩ member
      exact outside.foreign file opened (opened_of_used (opened_of_used (opened_of_used
        (opened_of_used member))))

/-- A session that has made a temporary file besides. -/
structure Copying (id : Nat) (s : TracedSession σ H) : Prop extends Outside s where
  given : id < s.io.next
  temporary : .opened id ∉ s.io.trace

theorem Copying.uses {id : Nat} {s : TracedSession σ H} (copying : Copying id s) (other : Nat) (io : σ) :
    Copying id { s with io := s.io.log (.used other) io } where
  balanced := ⟨copying.balanced.1.uses other, copying.balanced.2⟩
  foreign := fun file opened member => copying.foreign file opened (opened_of_used member)
  given := copying.given
  temporary := fun member => copying.temporary (opened_of_used member)

/-- The reader's file keeps its identifier. -/
theorem Copying.sameFile {id : Nat} {s : TracedSession σ H} (copying : Copying id s) {file : Tagged H}
    (opened : s.reader.volumeFile = some file) (handle : H) :
    Copying id { s with reader.volumeFile := some { file with handle := handle } } where
  balanced := by
    obtain ⟨balanced, closed⟩ := copying.balanced
    rw [ledgerOf, opened] at balanced
    exact ⟨balanced, closed⟩
  foreign := by
    rintro _ ⟨⟩
    exact copying.foreign file opened
  given := copying.given
  temporary := copying.temporary

theorem copyFile_copying (id fuel : Nat) (outfile : Tagged H) :
    Proc.Preserves (Copying id) (copyFile env.traced fuel outfile) := by
  refine .iterate (fun outfile => ?_) fuel outfile
  intro s copying
  rw [copyTurn]
  cases opened : s.reader.volumeFile with
  | none => exact copying
  | some infile =>
      have read := (copying.sameFile opened
        (env.callbacks.fread infile.handle copySize s.io.io).2.1).uses infile.id
          (env.callbacks.fread infile.handle copySize s.io.io).2.2
      simp only
      split
      · exact read
      · exact read.uses outfile.id _

/-- The temporary file keeps its identifier, too. -/
theorem copyFile_id (fuel : Nat) (outfile : Tagged H) :
    Proc.Ensures (fun _ => True) (copyFile env.traced fuel outfile)
      fun result _ => result.id = outfile.id := by
  have turn : ∀ vars : Tagged H, Proc.Ensures (fun _ => vars.id = outfile.id)
      (copyTurn env.traced vars)
      (Proc.Turn.Meets (fun vars _ => vars.id = outfile.id) fun result _ => result.id = outfile.id) := by
    intro vars s outcome t same run
    rw [copyTurn] at run
    cases opened : s.reader.volumeFile with
    | none =>
        rw [opened] at run
        cases run
    | some infile =>
        rw [opened] at run
        simp only at run
        split at run
        · cases run
          exact same
        · cases run
          exact same
  exact (Proc.Ensures.iterate turn fuel outfile).weaken (fun _ _ => rfl) fun _ _ same => same

/-- The temporary copy takes the place of the file it was made of. -/
theorem completeMarker_outside (fuel diff : Nat) :
    Proc.Preserves Outside (completeMarker env.traced fuel diff) := by
  intro s outside
  have making : env.traced.tmpfile s.io = s.io.openedPast (env.tmpfile s.io.io) := rfl
  rw [completeMarker]
  show Outside (Proc.bind _ _ s).2
  unfold Proc.bind
  simp only [making]
  rcases env.tmpfile s.io.io with ⟨_ | handle, io⟩
  · exact ⟨outside.balanced, outside.foreign⟩
  · have fresh : .opened s.io.next ∉ s.io.trace := fun member =>
      Nat.lt_irrefl _ (outside.balanced.1.below _ (Or.inl member))
    have copying : Copying s.io.next
        { s with io := { s.io with io := io, next := s.io.next + 1 } } :=
      { balanced := ⟨outside.balanced.1.skips, outside.balanced.2⟩
        foreign := outside.foreign
        given := Nat.lt_succ_self _
        temporary := fresh }
    show Outside (Proc.bind (copyFile env.traced fuel { id := s.io.next, handle := handle }) _
      { s with io := { s.io with io := io, next := s.io.next + 1 } }).2
    rw [Proc.bind]
    rcases run : copyFile env.traced fuel { id := s.io.next, handle := handle }
      { s with io := { s.io with io := io, next := s.io.next + 1 } } with ⟨exit, t⟩
    have copied : Copying s.io.next t := (copyFile_copying _ _ _).of_run copying run
    cases exit with
    | fail => exact copied.toOutside
    | abort => exact copied.toOutside
    | fault => exact copied.toOutside
    | timeout => exact copied.toOutside
    | ret temporary =>
        have same : temporary.id = s.io.next := copyFile_id _ _ _ _ _ trivial run
        have without := copied.toOutside.balanced_without
        have given : temporary.id < t.io.next := same ▸ copied.given
        have foreign : .opened temporary.id ∉ t.io.trace := same ▸ copied.temporary
        -- closing the file it was made of leaves no trace
        simp only [Proc.modify_run]
        cases t.reader.volumeFile with
        | none =>
            exact Outside.of_balanced without copied.balanced.2 (by rintro file ⟨⟩; exact ⟨given, foreign⟩)
        | some file =>
            exact Outside.of_balanced without copied.balanced.2 (by rintro file ⟨⟩; exact ⟨given, foreign⟩)

theorem fopenExternal_outside (path : Bytes) :
    Proc.Preserves Outside (fopenExternal env.traced path) := by
  intro s outside
  have opening : env.traced.native.fopen path .readBinary s.io =
    s.io.openedPast (env.native.fopen path .readBinary s.io.io) := rfl
  have without := outside.balanced_without
  have fresh : .opened s.io.next ∉ s.io.trace := fun member =>
    Nat.lt_irrefl _ (without.below _ (Or.inl member))
  rw [fopenExternal]
  simp only [opening]
  rcases env.native.fopen path .readBinary s.io.io with ⟨_ | handle, io⟩
  · refine Outside.of_balanced without outside.balanced.2 fun file opened => ?_
    cases opened
  · apply Outside.of_balanced
    · exact without.skips
    · exact outside.balanced.2
    · rintro file ⟨⟩
      exact ⟨Nat.lt_succ_self _, fresh⟩

/-- No reader of an external file holds a handle of the callbacks. -/
theorem openExternal_outside (fuel : Nat) :
    Proc.Preserves Outside (openExternal env.traced archive fuel) := by
  have assigns : ∀ bytes : UInt32, Proc.Preserves (Outside (σ := σ) (H := H))
      (Proc.modify fun s => { s with reader.volumeBytesLeft := bytes }) := by
    exact fun bytes s outside => ⟨outside.balanced, outside.foreign⟩
  refine .bind (.gets _) fun fd => ?_
  refine .bind (.ofExit _) fun path => ?_
  refine .bind (fopenExternal_outside path) fun _ => ?_
  refine .ite (fun _ => ?_) fun _ => assigns _
  refine .bind Outside.fsizeVolume fun fileSize => ?_
  refine .ite (fun _ => ?_) fun _ => assigns _
  exact .bind (completeMarker_outside _ _) fun _ => assigns _

/-- Without a file of the callbacks before, there is none after. -/
theorem readerCreateExternal_outside (fuel : Nat) (index : Int) :
    Proc.Leads (fun s => BeforeOutput Ledger.Balanced s ∧ s.reader.volumeFile = none)
      (readerCreateExternal env.traced archive fuel index) (BeforeOutput Ledger.Balanced) := by
  have leads : Proc.Leads (fun s => BeforeOutput Ledger.Balanced s ∧ s.reader.volumeFile = none)
      (readerCreateExternal env.traced archive fuel index) Outside := by
    apply leads_readerCreateExternal index (openExternal_outside fuel)
    · rintro s ⟨⟨balanced, closed⟩, none⟩
      exact ⟨⟨by rw [ledgerOf_reader none.symm]; exact balanced, closed⟩, nofun⟩
    · intro s outside
      exact Outside.of_balanced outside.balanced_without outside.balanced.2 nofun
  exact fun s holds => (leads s holds).balanced

end

/-! ### Creating a reader -/

/-- A session with a freshly allocated reader. -/
def withReader (index : Int) (s : Session σ H) : Session σ H :=
  { s with reader := { index := UInt32.ofInt index } }

section

variable {env : Environment σ H} {header : Header} {index : Int} {start : TracedSession σ H}

theorem beforeOutput_withReader {P : Ledger → Prop} (before : BeforeOutput P start)
    (fresh : start.reader.volumeFile = none) : BeforeOutput P (withReader index start) :=
  ⟨by rw [withReader, ledgerOf_reader fresh.symm]; exact before.1, before.2⟩

/-- The search keeps the ledger as far as the reader still exists. -/
theorem createLoop_keeps {P : Ledger → Prop} (keeps : Ledger.Keeps P) (before : BeforeOutput P start)
    (fresh : start.reader.volumeFile = none) (fuel : Nat) :
    BeforeOutput P
      (Proc.iterate (readerCreateTurn env.traced header index) fuel () (withReader index start)).2 := by
  have steady : Steady env.traced header (BeforeOutput P) :=
    (volumeSteps_beforeOutput keeps).steady fun _ _ _ holds => holds
  exact steady.createLoop index fuel _ (beforeOutput_withReader before fresh)

/-- A reader that is freed without a file leaves nothing open. -/
theorem readerCreate_balanced (good : ¬ MeetsBadVolume env.traced header index (withReader index start))
    (fresh : start.reader.volumeFile = none) (before : BeforeOutput Ledger.Balanced start) (fuel : Nat) :
    BeforeOutput Ledger.Balanced (readerCreate env.traced header fuel index start).2 := by
  have loop : BeforeOutput Ledger.Balanced _ :=
    @createLoop_keeps σ H env header index start _ Ledger.keeps_balanced before fresh fuel
  rw [withReader] at loop
  rw [readerCreate]
  split
  · rename_i failed run
    rw [run] at loop
    cases there : failed.reader.volumeFile with
    | some file => exact (good ((meetsBadVolume_iff fuel _ run trivial).2 ⟨rfl, file, there⟩)).elim
    | none => exact ⟨by rw [freeReader, ledgerOf_reader there.symm]; exact loop.1, loop.2⟩
  · exact loop

/-- A reader that is freed with its file leaves that one open. -/
theorem readerCreate_leaves (bad : MeetsBadVolume env.traced header index (withReader index start))
    (fresh : start.reader.volumeFile = none) (before : BeforeOutput Ledger.Guarded start) {fuel : Nat}
    (orderly : (readerCreate env.traced header fuel index start).1.Orderly) :
    ∃ t id, readerCreate env.traced header fuel index start = (.fail, t) ∧
      t.reader.volumeFile = none ∧ t.output = none ∧ Live t.io.trace id := by
  have loop : BeforeOutput Ledger.Guarded _ :=
    @createLoop_keeps σ H env header index start _ Ledger.keeps_guarded before fresh fuel
  rcases run : Proc.iterate (readerCreateTurn env.traced header index) fuel () (withReader index start)
    with ⟨exit, t⟩
  rw [run] at loop
  have ends : exit.Orderly := by
    rw [withReader] at run
    rw [readerCreate, run] at orderly
    cases exit <;> exact orderly
  obtain ⟨rfl, file, there⟩ := (meetsBadVolume_iff fuel _ run ends).1 bad
  have created : readerCreate env.traced header fuel index start = (.fail, freeReader t) := by
    rw [withReader] at run
    rw [readerCreate, run]
  exact ⟨freeReader t, file.id, created, rfl, loop.2, loop.1.live _ (held_volumeFile there)⟩

end

/-! ### Calls -/

section

variable {env : Environment σ H} {archive : Archive}

/-- The file that a call comes to has a start volume that is looked for in vain, the search ending in a
volume that is there. -/
def LeavesVolume (env : Environment σ H) (archive : Archive) (index : Int) (library : Library σ) : Prop :=
  ∃ last fd, Target archive.header library.fileDescriptors index last fd ∧
    MeetsBadVolume env archive.header last (withReader last (beginSession fd library.io))

/-- A library whose trace begins. -/
def Library.traced (library : Library σ) : Library (Traced σ) where
  fileDescriptors := library.fileDescriptors
  io := { io := library.io }

theorem runSession_exit {env : Environment σ H} {body : Proc (Session σ H) Unit} {fd : FileDescriptor}
    {library : Library σ} {index : Nat} :
    (runSession env index fd body library).1 = (body (beginSession fd library.io)).1 := by
  rw [runSession, beginSession]
  rcases body { reader := { index := 0 }, fileDescriptor := fd, io := library.io } with ⟨exit, s⟩
  cases exit <;> rfl

theorem runSession_io_of_fail {env : Environment σ H} {body : Proc (Session σ H) Unit}
    {fd : FileDescriptor} {library : Library σ} {index : Nat} {t : Session σ H}
    (fails : body (beginSession fd library.io) = (.fail, t)) :
    (runSession env index fd body library).2.io = (closeSession env t).io := by
  rw [beginSession] at fails
  rw [runSession, fails]

theorem closeSession_io_of_none {env : Environment σ H} {s : Session σ H}
    (none : s.reader.volumeFile = none) (closed : s.output = Option.none) :
    (closeSession env s).io = s.io := by
  rw [closeSession, none, closed]

/-- What the save functions share: a session that begins with the creation of a reader, and keeps the
ledger balanced if that does. -/
theorem closedOnce_iff {save : Nat → Int → Proc (TracedSession σ H) Unit}
    (begins : ∀ fuel last, ∃ rest : Unit → Proc (TracedSession σ H) Unit,
      save fuel last = readerCreate env.traced archive.header fuel last >>= rest)
    (balanced : ∀ fuel last start,
      ¬ MeetsBadVolume env.traced archive.header last (withReader last start) →
      start.reader.volumeFile = none → BeforeOutput Ledger.Balanced start →
      (ledgerOf (save fuel last start).2).Balanced)
    {fuel : Nat} {index : Int} {library : Library σ}
    (orderly : (saveThroughLinks env.traced archive save fuel index library.traced).1.Orderly) :
    ClosedOnce (saveThroughLinks env.traced archive save fuel index library.traced).2.io.trace ↔
      ¬ LeavesVolume env.traced archive index library.traced := by
  constructor
  · rintro closed ⟨last, fd, target, bad⟩
    rcases saveThroughLinks_cases save fuel index library.traced with ⟨exit, library', run, _, nowhere⟩ |
      ⟨fuel', last', fd', library', target', io, run⟩
    · rw [run] at orderly
      exact nowhere orderly last fd target
    · obtain ⟨rfl, rfl⟩ := target.unique target'
      rw [run] at closed orderly
      obtain ⟨rest, body⟩ := begins fuel' last
      rw [runSession_exit, io, body] at orderly
      obtain ⟨t, id, created, none, output, live⟩ := readerCreate_leaves bad rfl
        ⟨guarded_start library.io, rfl⟩ (Proc.orderly_of_bind orderly)
      have fails : save fuel' last (beginSession fd library'.io) = (.fail, t) := by
        rw [io, body]
        exact Proc.bind_of_fail created
      rw [runSession_io_of_fail fails, closeSession_io_of_none none output] at closed
      have count := closed id live.1
      rw [List.count_eq_zero.2 live.2] at count
      cases count
  · intro good
    have after : After Ledger.Balanced
        (saveThroughLinks env.traced archive save fuel index library.traced) := by
      apply saveThroughLinks_keeps Ledger.keeps_balanced (balanced_start library.io)
      intro last fd target fuel
      exact balanced fuel last _ (fun bad => good ⟨last, fd, target, bad⟩) rfl
        ⟨balanced_start library.io, rfl⟩
    exact (after.atRest orderly).closedOnce rfl

theorem createOldReader_balanced {start : TracedSession σ H} {index : Int}
    (good : ¬ MeetsBadVolume env.traced archive.header index (withReader index start))
    (fresh : start.reader.volumeFile = none) (before : BeforeOutput Ledger.Balanced start) (fuel : Nat) :
    Proc.Leads (fun s => s = start) (createOldReader env.traced archive fuel index)
      (BeforeOutput Ledger.Balanced) := by
  apply leads_createOldReader
  · rintro s rfl
    exact readerCreate_balanced good fresh before fuel
  · exact fsizeVolume_beforeOutput Ledger.keeps_balanced
  · have closes : Proc.Leads (BeforeOutput Ledger.Balanced) (fcloseVolume env.traced)
        (fun s => BeforeOutput Ledger.Balanced s ∧ s.reader.volumeFile = none) := fun s holds =>
      ⟨fcloseVolume_beforeOutput Ledger.keeps_balanced s holds, fcloseVolume_volumeFile⟩
    exact closes.bind (fun _ holds => holds.1) fun _ => readerCreateExternal_outside fuel index

/-- When a save function returns, whether true or false, every handle that the `fopen` callback gave out
during the call has been passed to `fclose` exactly once; unless the search for the start volume of the
file comes to a volume that can be opened and whose headers cannot be read. -/
theorem handles_closed_iff (env : Environment σ H) (archive : Archive) (fuel : Nat) (index : Int)
    (filename : Option Bytes) (library : Library σ) :
    ((fileSave env.traced archive fuel index filename library.traced).1.Orderly →
      (ClosedOnce (fileSave env.traced archive fuel index filename library.traced).2.io.trace ↔
        ¬ LeavesVolume env.traced archive index library.traced)) ∧
    ((fileSaveRaw env.traced archive fuel index filename library.traced).1.Orderly →
      (ClosedOnce (fileSaveRaw env.traced archive fuel index filename library.traced).2.io.trace ↔
        ¬ LeavesVolume env.traced archive index library.traced)) ∧
    ((fileSaveOld env.traced archive fuel index filename library.traced).1.Orderly →
      (ClosedOnce (fileSaveOld env.traced archive fuel index filename library.traced).2.io.trace ↔
        ¬ LeavesVolume env.traced archive index library.traced)) := by
  have keeps := Ledger.keeps_balanced
  have creates : ∀ fuel last (start : TracedSession σ H),
      ¬ MeetsBadVolume env.traced archive.header last (withReader last start) →
      start.reader.volumeFile = none → BeforeOutput Ledger.Balanced start →
      Proc.Leads (fun s => s = start) (readerCreate env.traced archive.header fuel last)
        (BeforeOutput Ledger.Balanced) := by
    rintro fuel last start good fresh before s rfl
    exact readerCreate_balanced good fresh before fuel
  refine ⟨closedOnce_iff ?_ ?_, closedOnce_iff ?_ ?_, closedOnce_iff ?_ ?_⟩
  · exact fun fuel last => ⟨_, rfl⟩
  · exact fun fuel last start good fresh before =>
      saveNew_keeps keeps (creates fuel last start good fresh before) start rfl
  · exact fun fuel last => ⟨_, rfl⟩
  · exact fun fuel last start good fresh before =>
      saveRaw_keeps keeps (creates fuel last start good fresh before) start rfl
  · intro fuel last
    rw [saveOld, createOldReader, Proc.bind_assoc]
    exact ⟨_, rfl⟩
  · exact fun fuel last start good fresh before =>
      saveOld_keeps keeps (createOldReader_balanced good fresh before fuel) start rfl

end

/-! ### A truncated volume -/

/-- A cabinet whose only volume is an empty file. -/
def truncatedLibrary : Library Disk where
  fileDescriptors := fun _ => none
  io := shelfDisk [[]] 0 (by decide) room_zero_lt

/-- The volume is opened and read, and that is all. -/
theorem trace_truncated :
    (fileSave smallLibraries.onDisk.traced outsideArchive 3 0 none truncatedLibrary.traced).1 = .fail ∧
      (fileSave smallLibraries.onDisk.traced outsideArchive 3 0 none
        truncatedLibrary.traced).2.io.trace = [.used 0, .opened 0] := by
  constructor
  · decide +kernel
  · decide +kernel

/-- The call that returns false is one that the condition is about. -/
theorem leavesVolume_truncated :
    LeavesVolume smallLibraries.onDisk.traced outsideArchive 0 truncatedLibrary.traced := by
  by_contra good
  have saves := (handles_closed_iff smallLibraries.onDisk outsideArchive 3 0 none truncatedLibrary).1
  rw [trace_truncated.1, trace_truncated.2] at saves
  have closed := (saves trivial).2 good
  exact absurd (closed 0 (by decide)) (by decide)

/-- The handle of a truncated volume is never closed. -/
theorem handle_left_open :
    (fileSave smallLibraries.onDisk.traced outsideArchive 3 0 none truncatedLibrary.traced).1 = .fail ∧
      ¬ ClosedOnce (fileSave smallLibraries.onDisk.traced outsideArchive 3 0 none
        truncatedLibrary.traced).2.io.trace := by
  refine ⟨trace_truncated.1, ?_⟩
  rw [trace_truncated.2]
  intro closed
  exact absurd (closed 0 (by decide)) (by decide)

end Unshield
