/-
Module: Unshield.Proofs.GetterStability
Purpose: What the questions about a file answer after any run of calls: the same as at the start, but
  for the mark of a split file that a save function has set.
Trusted boundary: none
Main exports: Detectable, Seen, Remembers, remembers_of_fileRun, answers_of_fileRun
-/
import Unshield.Core.Calls
import Unshield.Proofs.SaveFrame
import Unshield.Proofs.VolumePortions
import Unshield.Proofs.LinkChains

namespace Unshield

open Procedure

variable {σ H : Type}

/-! ### Questions -/

section

variable {archive : Archive} {I : Library σ → Prop}
  (get : ∀ index, Proc.Preserves I (getFileDescriptor archive.header index))

include get

theorem preserves_findFileDescriptor (index : Int) :
    Proc.Preserves I (findFileDescriptor archive index) := by
  intro library holds
  have found := get index library holds
  rw [findFileDescriptor]
  rcases run : getFileDescriptor archive.header index library with ⟨exit, library'⟩
  rw [run] at found
  cases exit <;> exact found

theorem preserves_ask {α : Type} (answer : Option FileDescriptor → Exit α) (index : Int) :
    Proc.Preserves I (Calls.ask archive answer index) :=
  .bind (preserves_findFileDescriptor get index) fun fd => .ofExit (answer fd)

/-- A call keeps what getting a descriptor keeps, if it does when it saves a file. -/
theorem preserves_fileCall {env : Environment σ H} {fuel : Nat} (call : FileCall)
    (save : ∀ index filename, call = .fileSave index filename →
      Proc.Preserves I (Unshield.fileSave env archive fuel index filename))
    (saveRaw : ∀ index filename, call = .fileSaveRaw index filename →
      Proc.Preserves I (Unshield.fileSaveRaw env archive fuel index filename))
    (saveOld : ∀ index filename, call = .fileSaveOld index filename →
      Proc.Preserves I (Unshield.fileSaveOld env archive fuel index filename)) :
    Proc.Preserves I (call.run env archive fuel) := by
  cases call with
  | fileName index => exact .bind (preserves_ask get _ index) fun _ => .pure ()
  | fileIsValid index =>
      refine .bind (.ite (fun _ => ?_) fun _ => .pure false) fun _ => .pure ()
      exact preserves_ask get _ index
  | fileDirectory index => exact .bind (preserves_ask get _ index) fun _ => .pure ()
  | fileSize index => exact .bind (preserves_ask get _ index) fun _ => .pure ()
  | fileSizeCompressed index => exact .bind (preserves_ask get _ index) fun _ => .pure ()
  | fileFlagsRaw index => exact .bind (preserves_ask get _ index) fun _ => .pure ()
  | fileSave index filename => exact save index filename rfl
  | fileSaveRaw index filename => exact saveRaw index filename rfl
  | fileSaveOld index filename => exact saveOld index filename rfl

end

/-- A call that saves nothing does not touch the world. -/
theorem io_of_asking {env : Environment σ H} {archive : Archive} {call : FileCall}
    (asks : ¬ call.Saves) (fuel : Nat) (library : Library σ) :
    (call.run env archive fuel library).2.io = library.io := by
  have same : Proc.Preserves (fun other : Library σ => other.io = library.io)
      (call.run env archive fuel) := by
    apply preserves_fileCall (preserves_getFileDescriptor (P := fun io => io = library.io) _) call
    · rintro index filename rfl
      exact absurd trivial asks
    · rintro index filename rfl
      exact absurd trivial asks
    · rintro index filename rfl
      exact absurd trivial asks
  exact same library rfl

/-! ### Descriptors -/

section

variable (env : Environment σ H) (header : Header) (K : σ → Prop)

/-- In a world of `K`, a volume can be opened whose header marks the file split. -/
def Detectable (index : Int) (fd : FileDescriptor) : Prop :=
  ∃ (volume : Int) (s t : Session σ H) (volumeHeader : VolumeHeader),
    K s.io ∧ openHeaders env header volume s = (.ret volumeHeader, t) ∧
      markSplit header (UInt32.ofInt index) volumeHeader fd ≠ fd

/-- What becomes of a decoded descriptor: its volume number moves, and once a file has been saved, it may
be marked split. -/
def Seen (saved : Prop) (index : Int) (decoded fd : FileDescriptor) : Prop :=
  fd = { decoded with volume := fd.volume } ∨
    saved ∧ Detectable env header K index decoded ∧
      fd = { decoded with flags := decoded.flags ||| fileSplit, volume := fd.volume }

/-- The library remembers only descriptors that it has decoded, as far as they go. -/
structure Remembers (saved : Prop) (library : Library σ) : Prop where
  world : K library.io
  seen : ∀ i fd, library.fileDescriptors i = some fd →
    ∃ decoded, readFileDescriptor header i = .ret decoded ∧ Seen env header K saved i decoded fd

/-- A session that works on a descriptor, before it has a reader. -/
structure Working (saved : Prop) (index : Int) (decoded : FileDescriptor) (s : Session σ H) : Prop where
  world : K s.io
  seen : Seen env header K saved index decoded s.fileDescriptor

/-- A session with a reader of its file. -/
structure Reading (saved : Prop) (index : Int) (decoded : FileDescriptor) (s : Session σ H) : Prop
    extends Working env header K saved index decoded s where
  same_index : s.reader.index = UInt32.ofInt index

end

section

variable {env : Environment σ H} {header : Header} {K : σ → Prop} {saved : Prop} {index : Int}
  {decoded fd : FileDescriptor}

theorem Detectable.majorVersion (detectable : Detectable env header K index fd) :
    header.majorVersion = 5 := by
  rcases detectable with ⟨volume, s, t, volumeHeader, _, _, marks⟩
  by_contra other
  apply marks
  rw [markSplit, if_neg other]

theorem Seen.refl (decoded : FileDescriptor) : Seen env header K saved index decoded decoded :=
  Or.inl rfl

theorem Seen.mono {later : Prop} (seen : Seen env header K saved index decoded fd)
    (implies : saved → later) : Seen env header K later index decoded fd := by
  rcases seen with same | ⟨before, detectable, marked⟩
  · exact Or.inl same
  · exact Or.inr ⟨implies before, detectable, marked⟩

theorem Seen.setVolume (seen : Seen env header K saved index decoded fd) (volume : UInt16) :
    Seen env header K saved index decoded { fd with volume := volume } := by
  rcases seen with same | ⟨before, detectable, marked⟩
  · exact Or.inl (by rw [same])
  · exact Or.inr ⟨before, detectable, by rw [marked]⟩

/-- A volume that can be opened marks only a file that is detectable. -/
theorem Seen.markSplit (seen : Seen env header K saved index decoded fd) (saving : saved)
    {volume : Int} {s t : Session σ H} {volumeHeader : VolumeHeader} (world : K s.io)
    (run : openHeaders env header volume s = (.ret volumeHeader, t)) :
    Seen env header K saved index decoded
      (markSplit header (UInt32.ofInt index) volumeHeader fd) := by
  rcases seen with same | ⟨before, detectable, marked⟩
  · rw [same, markSplit_setVolume]
    by_cases unmarked : Unshield.markSplit header (UInt32.ofInt index) volumeHeader decoded = decoded
    · rw [unmarked]
      exact Or.inl rfl
    · refine Or.inr ⟨saving, ⟨volume, s, t, volumeHeader, world, run, unmarked⟩, ?_⟩
      rcases markSplit_eq header (UInt32.ofInt index) volumeHeader decoded with same' | marked
      · exact absurd same' unmarked
      · rw [marked]
  · have split : fd.Has fileSplit := by
      rw [marked]
      exact splitDescriptor_has decoded fd.volume
    rw [markSplit_of_has split]
    exact Or.inr ⟨before, detectable, marked⟩

/-! ### Sessions -/

section

variable (kept : Kept env K)

include kept

theorem Kept.apartExternal_reading :
    ApartExternal env (Reading env header K saved index decoded) where
  reader := fun _ _ same holds => ⟨⟨holds.world, holds.seen⟩, same.trans holds.same_index⟩
  openForReading := fun _ _ holds =>
    ⟨⟨kept.openForReading _ _ holds.world, holds.seen⟩, holds.same_index⟩
  fread := fun _ _ _ holds => ⟨⟨kept.callbacks.fread _ _ _ holds.world, holds.seen⟩, holds.same_index⟩
  fseek := fun _ _ _ _ holds =>
    ⟨⟨kept.callbacks.fseek _ _ _ _ holds.world, holds.seen⟩, holds.same_index⟩
  ftell := fun _ _ holds => ⟨⟨kept.callbacks.ftell _ _ holds.world, holds.seen⟩, holds.same_index⟩
  fclose := fun _ _ holds => ⟨⟨kept.callbacks.fclose _ _ holds.world, holds.seen⟩, holds.same_index⟩
  fwrite := fun _ _ _ holds => ⟨⟨kept.callbacks.fwrite _ _ _ holds.world, holds.seen⟩, holds.same_index⟩
  tmpfile := fun _ holds => ⟨⟨kept.tmpfile _ holds.world, holds.seen⟩, holds.same_index⟩
  nativeFopen := fun _ _ holds =>
    ⟨⟨kept.native.fopen _ _ _ holds.world, holds.seen⟩, holds.same_index⟩
  nativeFwrite := fun _ _ _ holds =>
    ⟨⟨kept.native.fwrite _ _ _ holds.world, holds.seen⟩, holds.same_index⟩
  nativeFseek := fun _ _ _ _ holds =>
    ⟨⟨kept.native.fseek _ _ _ _ holds.world, holds.seen⟩, holds.same_index⟩
  nativeFclose := fun _ _ holds => ⟨⟨kept.native.fclose _ _ holds.world, holds.seen⟩, holds.same_index⟩

/-- No step of reading a file marks it without a volume by which it is detectable. -/
theorem Kept.steady_reading (saving : saved) :
    Steady env header (Reading env header K saved index decoded) where
  openVolume := by
    intro volume s holds
    have steps : VolumeSteps env (Reading env header K saved index decoded) :=
      kept.apartExternal_reading.toApart.volumeSteps env
    have headers := @VolumeSteps.openHeaders _ _ _ header _ steps volume s holds
    rw [readerOpenVolume_eq]
    show Reading _ _ _ _ _ _ (Proc.bind _ _ s).2
    rw [Proc.bind]
    rcases run : openHeaders env header volume s with ⟨exit, t⟩
    rw [run] at headers
    cases exit with
    | ret volumeHeader =>
        refine steps.enterPortion volume ⟨⟨headers.world, ?_⟩, headers.same_index⟩
        rw [headers.same_index]
        exact headers.seen.markSplit saving holds.world run
    | fail => exact headers
    | abort => exact headers
    | fault => exact headers
    | timeout => exact headers
  fread := preserves_freadVolume env kept.apartExternal_reading.toApart
  ftell := preserves_ftellVolume env kept.apartExternal_reading.toApart
  reader := fun s reader _ => kept.apartExternal_reading.reader s reader
  volume := fun _ _ holds => ⟨⟨holds.world, holds.seen.setVolume _⟩, holds.same_index⟩

theorem Kept.fwriteOutput_reading (data : Bytes) :
    Proc.Preserves (Reading env header K saved index decoded) (Unshield.fwriteOutput env data) := by
  intro s holds
  rw [Unshield.fwriteOutput]
  cases s.output with
  | none => exact holds
  | some file =>
      have world := kept.callbacks.fwrite file data s.io holds.world
      simp only
      split <;> exact ⟨⟨world, holds.seen⟩, holds.same_index⟩

theorem Kept.fopenOutput_reading (filename : Option Bytes) :
    Proc.Preserves (Reading env header K saved index decoded) (Unshield.fopenOutput env filename) := by
  intro s holds
  cases filename with
  | none => exact holds
  | some path =>
      have world := kept.callbacks.fopen path .writeBinary s.io holds.world
      rw [Unshield.fopenOutput]
      simp only
      split <;> exact ⟨⟨world, holds.seen⟩, holds.same_index⟩

variable (saving : saved)

include saving

theorem Kept.readerCreate_reading (fuel : Nat) :
    Proc.Leads (Working env header K saved index decoded)
      (Unshield.readerCreate env header fuel index) (Reading env header K saved index decoded) :=
  (kept.steady_reading saving).readerCreate fuel index (fun _ holds => ⟨⟨holds.world, holds.seen⟩, rfl⟩)
    fun _ holds => ⟨⟨holds.world, holds.seen⟩, holds.same_index⟩

theorem Kept.saveNew_reading {archive : Archive} (filename : Option Bytes) (fuel : Nat) :
    Proc.Leads (Working env archive.header K saved index decoded)
      (Unshield.saveNew env archive filename fuel index)
      (Reading env archive.header K saved index decoded) :=
  (kept.steady_reading saving).saveNew kept.fwriteOutput_reading (fun _ holds => holds)
    (kept.readerCreate_reading saving fuel)
    (preserves_fsizeVolume env kept.apartExternal_reading.toApart) (kept.fopenOutput_reading filename)

theorem Kept.saveRaw_reading {archive : Archive} (filename : Option Bytes) (fuel : Nat) :
    Proc.Leads (Working env archive.header K saved index decoded)
      (Unshield.saveRaw env archive filename fuel index)
      (Reading env archive.header K saved index decoded) :=
  (kept.steady_reading saving).saveRaw kept.fwriteOutput_reading (fun _ holds => holds)
    (kept.readerCreate_reading saving fuel)
    (preserves_fsizeVolume env kept.apartExternal_reading.toApart) (kept.fopenOutput_reading filename)

theorem Kept.saveOld_reading {archive : Archive} (filename : Option Bytes) (fuel : Nat) :
    Proc.Leads (Working env archive.header K saved index decoded)
      (Unshield.saveOld env archive filename fuel index)
      (Reading env archive.header K saved index decoded) := by
  apply (kept.steady_reading saving).saveOld kept.fwriteOutput_reading (fun _ holds => holds) ?_
    (kept.fopenOutput_reading filename)
  apply leads_createOldReader (kept.readerCreate_reading saving fuel)
  · exact preserves_fsizeVolume env kept.apartExternal_reading.toApart
  · refine .bind (preserves_fcloseVolume env kept.apartExternal_reading.toApart) fun _ => ?_
    exact leads_readerCreateExternal index
      (preserves_openExternal env kept.apartExternal_reading archive fuel)
      (fun _ holds => ⟨⟨holds.world, holds.seen⟩, rfl⟩)
      fun _ holds => ⟨⟨holds.world, holds.seen⟩, holds.same_index⟩

end

/-! ### The library -/

theorem Remembers.mono {library : Library σ} {later : Prop}
    (remembers : Remembers env header K saved library) (implies : saved → later) :
    Remembers env header K later library where
  world := remembers.world
  seen := by
    intro i fd found
    rcases remembers.seen i fd found with ⟨decoded, reads, seen⟩
    exact ⟨decoded, reads, seen.mono implies⟩

/-- What a library that remembers a descriptor more has to know of it. -/
theorem Remembers.update {library : Library σ} (remembers : Remembers env header K saved library)
    {i : Nat} {io : σ} (world : K io) (reads : readFileDescriptor header i = .ret decoded)
    (seen : Seen env header K saved i decoded fd) :
    Remembers env header K saved
      { fileDescriptors := Function.update library.fileDescriptors i (some fd), io := io } where
  world := world
  seen := by
    intro j found hit
    change Function.update library.fileDescriptors i (some fd) j = some found at hit
    by_cases same : j = i
    · rw [same, Function.update_self] at hit
      cases hit
      rw [same]
      exact ⟨decoded, reads, seen⟩
    · rw [Function.update_of_ne same] at hit
      exact remembers.seen j found hit

/-- The descriptor that a call gets is one that the library may remember. -/
theorem Remembers.of_run {library library' : Library σ}
    (remembers : Remembers env header K saved library)
    (run : getFileDescriptor header index library = (.ret fd, library')) :
    ValidIndex header index ∧ ∃ decoded, readFileDescriptor header index = .ret decoded ∧
      Seen env header K saved index decoded fd := by
  by_cases valid : ValidIndex header index
  · refine ⟨valid, ?_⟩
    cases remembered : library.fileDescriptors index.toNat with
    | some found =>
        rw [getFileDescriptor_of_remembered valid remembered] at run
        cases run
        have known := remembers.seen _ _ remembered
        rwa [Int.toNat_of_nonneg valid.1] at known
    | none =>
        have exit : (getFileDescriptor header index library).1 = .ret fd := by rw [run]
        rw [getFileDescriptor_exit, descriptorAt, if_pos valid, remembered] at exit
        exact ⟨fd, exit, Seen.refl fd⟩
  · rw [getFileDescriptor_of_invalid valid] at run
    cases run

theorem preserves_getFileDescriptor_remembers (index : Int) :
    Proc.Preserves (Remembers env header K saved) (getFileDescriptor header index) := by
  intro library remembers
  by_cases valid : ValidIndex header index
  · cases remembered : library.fileDescriptors index.toNat with
    | some found =>
        rw [getFileDescriptor_of_remembered valid remembered]
        exact remembers
    | none =>
        rw [getFileDescriptor_of_new valid remembered]
        cases reads : readFileDescriptor header index with
        | ret decoded =>
            refine remembers.update remembers.world ?_ (Seen.refl decoded)
            rw [Int.toNat_of_nonneg valid.1]
            exact reads
        | fail => exact remembers
        | abort => exact remembers
        | fault => exact remembers
        | timeout => exact remembers
  · rw [getFileDescriptor_of_invalid valid]
    exact remembers

section

variable {archive : Archive} (kept : Kept env K)

include kept

theorem Kept.runSession_remembers {body : Proc (Session σ H) Unit} (valid : ValidIndex header index)
    (reads : readFileDescriptor header index = .ret decoded)
    (leads : Proc.Leads (Working env header K saved index decoded) body
      (Reading env header K saved index decoded))
    (seen : Seen env header K saved index decoded fd) :
    Proc.Preserves (Remembers env header K saved)
      (Unshield.runSession env index.toNat fd body) := by
  intro library remembers
  rw [← Int.toNat_of_nonneg valid.1] at reads
  have after := leads { reader := { index := 0 }, fileDescriptor := fd, io := library.io }
    ⟨remembers.world, seen⟩
  rw [← Int.toNat_of_nonneg valid.1] at after
  rw [Unshield.runSession]
  split
  · rename_i s run
    rw [run] at after
    exact remembers.update (kept.closeSession after.world) reads after.seen
  · rename_i s run
    rw [run] at after
    exact remembers.update (kept.closeSession after.world) reads after.seen
  · rename_i run
    rw [run] at after
    exact remembers.update after.world reads after.seen

/-- The induction goes along the links, with every file on the way decoded first. -/
theorem Kept.saveThroughLinks_remembers {save : Nat → Int → Proc (Session σ H) Unit}
    (leads : ∀ fuel index decoded, Proc.Leads (Working env archive.header K saved index decoded)
      (save fuel index) (Reading env archive.header K saved index decoded)) (fuel : Nat) :
    ∀ index, Proc.Preserves (Remembers env archive.header K saved)
      (Unshield.saveThroughLinks env archive save fuel index) := by
  induction fuel with
  | zero => exact fun _ _ remembers => remembers
  | succ fuel ih =>
      intro index library remembers
      have found := preserves_getFileDescriptor_remembers index library remembers
      rw [Unshield.saveThroughLinks]
      show Remembers _ _ _ _ (Proc.bind _ _ library).2
      rw [Proc.bind]
      rcases run : getFileDescriptor archive.header index library with ⟨exit, library'⟩
      rw [run] at found
      cases exit with
      | ret fd =>
          rcases remembers.of_run run with ⟨valid, decoded, reads, seen⟩
          have rest : Proc.Preserves (Remembers env archive.header K saved) (do
              Proc.require (¬ (fd.Has fileInvalid ∨ fd.dataOffset = 0))
              if fd.linkFlags &&& linkPrev ≠ 0 then
                Unshield.saveThroughLinks env archive save fuel fd.linkPrevious.toInt32.toInt
              else
                Unshield.runSession env index.toNat fd (save fuel index)) := by
            refine .bind (.require _) fun _ => ?_
            exact .ite (fun _ => ih _) fun _ =>
              kept.runSession_remembers valid reads (leads fuel index decoded) seen
          exact rest library' found
      | fail => exact found
      | abort => exact found
      | fault => exact found
      | timeout => exact found

/-! ### Runs of calls -/

theorem Kept.saves_remembers (saving : saved) (index : Int) (filename : Option Bytes) (fuel : Nat) :
    Proc.Preserves (Remembers env archive.header K saved)
      (Unshield.fileSave env archive fuel index filename) ∧
    Proc.Preserves (Remembers env archive.header K saved)
      (Unshield.fileSaveRaw env archive fuel index filename) ∧
    Proc.Preserves (Remembers env archive.header K saved)
      (Unshield.fileSaveOld env archive fuel index filename) := by
  refine ⟨?_, ?_, ?_⟩
  · exact kept.saveThroughLinks_remembers
      (fun fuel _ _ => kept.saveNew_reading saving filename fuel) fuel index
  · exact kept.saveThroughLinks_remembers
      (fun fuel _ _ => kept.saveRaw_reading saving filename fuel) fuel index
  · exact kept.saveThroughLinks_remembers
      (fun fuel _ _ => kept.saveOld_reading saving filename fuel) fuel index

end

/-- A call that saves nothing leaves no marks. -/
theorem Kept.call_remembers {archive : Archive} (kept : Kept env K) (call : FileCall)
    (saving : call.Saves → saved) (fuel : Nat) :
    Proc.Preserves (Remembers env archive.header K saved) (call.run env archive fuel) := by
  apply preserves_fileCall preserves_getFileDescriptor_remembers call
  · rintro index filename rfl
    exact (kept.saves_remembers (saving trivial) index filename fuel).1
  · rintro index filename rfl
    exact (kept.saves_remembers (saving trivial) index filename fuel).2.1
  · rintro index filename rfl
    exact (kept.saves_remembers (saving trivial) index filename fuel).2.2

/-- After any run of calls the library remembers what it has decoded, marked only if a call of the run
has saved a file. -/
theorem remembers_of_fileRun {archive : Archive} (kept : Kept env K) {start library : Library σ}
    {calls : List FileCall} (opened : start.fileDescriptors = fun _ => none) (world : K start.io)
    (run : FileRun env archive (fun _ _ => True) start calls library) :
    Remembers env archive.header K (∃ call ∈ calls, call.Saves) library := by
  induction run with
  | start => exact ⟨world, fun i fd found => by rw [opened] at found; cases found⟩
  | call _ next _ returns _ ih =>
      refine (kept.call_remembers next (fun saves => ⟨next, List.mem_cons_self, saves⟩) _).of_run
        (ih.mono ?_) returns
      rintro ⟨call, among, saves⟩
      exact ⟨call, List.mem_cons_of_mem _ among, saves⟩

/-! ### Answers -/

/-- The answer to a question for what a call gets. -/
def answerTo {α : Type} (answer : Option FileDescriptor → Exit α) : Exit FileDescriptor → Exit α
  | .ret fd => answer (some fd)
  | .fail => answer none
  | .abort => .abort
  | .fault => .fault
  | .timeout => .timeout

theorem ask_exit {α : Type} (archive : Archive) (answer : Option FileDescriptor → Exit α) (index : Int)
    (library : Library σ) : (Calls.ask archive answer index library).1 =
      answerTo answer (descriptorAt archive.header library.fileDescriptors index) := by
  rw [← getFileDescriptor_exit, Calls.ask]
  show (Proc.bind (findFileDescriptor archive index) _ library).1 = _
  rw [Proc.bind, findFileDescriptor]
  rcases getFileDescriptor archive.header index library with ⟨exit, library'⟩
  cases exit <;> rfl

/-- What a call gets is what it would get from the header, or has been decoded from it. -/
theorem Remembers.descriptorAt {library : Library σ} (remembers : Remembers env header K saved library)
    (index : Int) :
    Unshield.descriptorAt header library.fileDescriptors index =
        Unshield.descriptorAt header (fun _ => none) index ∨
      ∃ decoded fd, Unshield.descriptorAt header (fun _ => none) index = .ret decoded ∧
        Unshield.descriptorAt header library.fileDescriptors index = .ret fd ∧
        Seen env header K saved index decoded fd := by
  by_cases valid : ValidIndex header index
  · cases remembered : library.fileDescriptors index.toNat with
    | none =>
        rw [Unshield.descriptorAt, Unshield.descriptorAt, if_pos valid, if_pos valid, remembered]
        exact Or.inl rfl
    | some fd =>
        obtain ⟨decoded, reads, seen⟩ := remembers.seen _ _ remembered
        rw [Int.toNat_of_nonneg valid.1] at reads seen
        refine Or.inr ⟨decoded, fd, ?_, ?_, seen⟩
        · rw [Unshield.descriptorAt, if_pos valid]
          exact reads
        · rw [Unshield.descriptorAt, if_pos valid, remembered]
  · rw [Unshield.descriptorAt, Unshield.descriptorAt, if_neg valid, if_neg valid]
    exact Or.inl rfl

theorem Seen.upToSearch (seen : Seen env header K saved index decoded fd) : UpToSearch decoded fd := by
  rcases seen with same | ⟨_, _, marked⟩
  · exact Or.inl same
  · exact Or.inr marked

/-- An answer that neither the volume number nor the mark of a split file changes stays. -/
theorem Remembers.ask {α : Type} {archive : Archive} {start library : Library σ}
    (remembers : Remembers env archive.header K saved library)
    (opened : start.fileDescriptors = fun _ => none) {answer : Option FileDescriptor → Exit α}
    (blind : ∀ fd fd', UpToSearch fd fd' → answer (some fd') = answer (some fd)) (index : Int) :
    (Calls.ask archive answer index library).1 = (Calls.ask archive answer index start).1 := by
  rw [ask_exit, ask_exit, opened]
  rcases remembers.descriptorAt index with same | ⟨decoded, fd, reads, found, seen⟩
  · rw [same]
  · rw [reads, found]
    exact blind decoded fd seen.upToSearch

theorem isValidOf_upToSearch {fd fd' : FileDescriptor} (search : UpToSearch fd fd') :
    Calls.isValidOf (some fd') = Calls.isValidOf (some fd) := by
  rcases search with same | marked
  · rw [same]
    rfl
  · rw [marked, Calls.isValidOf, Calls.isValidOf]
    simp only [has_or_fileSplit (show fileSplit &&& fileInvalid = 0 from rfl)]

/-- No call on the files of a cabinet changes what the questions about a file answer, with one
exception: in major version 5, a call that saves a file can make the split flag appear among the flags
of a file that the header of some volume names with another compressed size than its own. -/
theorem answers_of_fileRun {archive : Archive} (kept : Kept env K) {start library : Library σ}
    {calls : List FileCall} (opened : start.fileDescriptors = fun _ => none) (world : K start.io)
    (run : FileRun env archive (fun _ _ => True) start calls library) (index : Int) :
    (Calls.fileName env archive index library).1 = (Calls.fileName env archive index start).1 ∧
    (Calls.fileIsValid archive index library).1 = (Calls.fileIsValid archive index start).1 ∧
    (Calls.fileDirectory archive index library).1 = (Calls.fileDirectory archive index start).1 ∧
    (Calls.fileSize archive index library).1 = (Calls.fileSize archive index start).1 ∧
    (Calls.fileSizeCompressed archive index library).1 =
      (Calls.fileSizeCompressed archive index start).1 ∧
    ((Calls.fileFlagsRaw archive index library).1 = (Calls.fileFlagsRaw archive index start).1 ∨
      ∃ decoded, Unshield.descriptorAt archive.header (fun _ => none) index = .ret decoded ∧
        (Calls.fileFlagsRaw archive index start).1 = .ret decoded.flags ∧
        (Calls.fileFlagsRaw archive index library).1 = .ret (decoded.flags ||| fileSplit) ∧
        archive.header.majorVersion = 5 ∧ (∃ call ∈ calls, call.Saves) ∧
        Detectable env archive.header K index decoded) := by
  have remembers := remembers_of_fileRun kept opened world run
  have record : ∀ {fd fd' : FileDescriptor}, UpToSearch fd fd' → SameRecord fd fd' :=
    fun search => search.sameRecord
  refine ⟨?_, ?_, ?_, ?_, ?_, ?_⟩
  · exact remembers.ask opened (fun fd fd' search => by rw [record search]; rfl) index
  · rw [Calls.fileIsValid]
    split
    · exact remembers.ask opened (fun fd fd' => isValidOf_upToSearch) index
    · rfl
  · exact remembers.ask opened (fun fd fd' search => by rw [record search]; rfl) index
  · exact remembers.ask opened (fun fd fd' search => by rw [record search]; rfl) index
  · exact remembers.ask opened (fun fd fd' search => by rw [record search]; rfl) index
  · rw [Calls.fileFlagsRaw, ask_exit, ask_exit, opened]
    rcases remembers.descriptorAt index with same | ⟨decoded, fd, reads, found, seen⟩
    · rw [same]
      exact Or.inl rfl
    · rw [reads, found]
      rcases seen with unmarked | ⟨saves, detectable, marked⟩
      · rw [unmarked]
        exact Or.inl rfl
      · rw [marked]
        exact Or.inr ⟨decoded, rfl, rfl, rfl, detectable.majorVersion, saves, detectable⟩

end

/-! ### A file that a save function marks -/

/-- A cabinet of major version 5 with two files; the descriptors of both are the same. -/
def markedArchive : Archive where
  header :=
    { smallHeader 5 with
      index := 1
      data := [0, 0, 0, 0, 0, 0, 0, 0, 4, 0, 2, 0, 0, 0, 2, 0, 0, 0] ++ List.replicate 20 0 ++
        [60, 0, 0, 0] ++ List.replicate 16 0
      cab := { fileTableOffset := 0, directoryCount := 1, fileCount := 2, fileTableOffset2 := 0 }
      fileTable := [0, 0, 0] }
  filenamePattern := []

/-- The cabinet as it is after it has been opened. -/
def markedStart : Library Disk := { fileDescriptors := fun _ => none, io := dividedDisk 2 }

/-- The cabinet after a call for its first file. -/
def markedAfter : Library Disk :=
  (fileSaveRaw smallLibraries.onDisk markedArchive 5 0 none markedStart).2

theorem markedRun :
    FileRun smallLibraries.onDisk markedArchive (fun _ _ => True) markedStart [.fileSaveRaw 0 none]
      markedAfter := by
  have returns : (fileSaveRaw smallLibraries.onDisk markedArchive 5 0 none markedStart).1 = .ret () := by
    decide +kernel
  exact .call .start (.fileSaveRaw 0 none) trivial (Proc.run_eq_ret returns) trivial

/-- After the file has been saved, the flags that are reported are others. -/
theorem flagsRaw_after_saveRaw :
    FileRun smallLibraries.onDisk markedArchive (fun _ _ => True) markedStart [.fileSaveRaw 0 none]
      markedAfter ∧
      (Calls.fileFlagsRaw markedArchive 0 markedStart).1 = .ret fileCompressed ∧
      (Calls.fileFlagsRaw markedArchive 0 markedAfter).1 = .ret (fileCompressed ||| fileSplit) := by
  refine ⟨markedRun, ?_, ?_⟩
  · decide +kernel
  · decide +kernel

theorem stdio_keeps_cabinets (cabinets : Int → Option Bytes) :
    KeptBy stdio fun io => io.store.cabinets = cabinets where
  fopen := by
    intro path mode io same
    cases mode with
    | readBinary => exact same
    | writeBinary =>
        change (Disk.fopen path .writeBinary io).2.store.cabinets = cabinets
        rw [Disk.fopen]
        split <;> exact same
  fseek := fun _ _ _ _ same => same
  ftell := fun _ _ same => same
  fread := fun _ _ _ same => same
  fwrite := fun _ _ _ same => same
  fclose := fun _ _ same => same

/-- Nothing that the library does on a disk changes the volumes. -/
theorem kept_cabinets (libraries : Libraries) (cabinets : Int → Option Bytes) :
    Kept libraries.onDisk fun io => io.store.cabinets = cabinets where
  callbacks := stdio_keeps_cabinets cabinets
  native := stdio_keeps_cabinets cabinets
  openForReading := fun _ _ same => same
  tmpfile := fun _ same => same

/-- The size of the file is reported as before. -/
theorem size_after_saveRaw :
    (Calls.fileSize markedArchive 0 markedAfter).1 = .ret 2 := by
  rw [(answers_of_fileRun (kept_cabinets smallLibraries _) rfl rfl markedRun 0).2.2.2.1]
  decide +kernel

end Unshield
