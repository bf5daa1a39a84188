/-
Module: Unshield.Proofs.HandleDiscipline
Purpose: The handles that the callbacks get are ones that their `fopen` has given out and that have not
  been closed, as long as no file is read from beside the cabinet.
Trusted boundary: none
Main exports: OpensExternal, StaysInside, disciplined_of_fileRun
-/
import Unshield.Proofs.HandleLedgers
import Unshield.Proofs.GetterStability
import Unshield.Proofs.HeaderLists

namespace Unshield

open Procedure
open Handles

variable {σ H : Type}

/-! ### The condition -/

/-- The file that a call for an index comes to starts at the end of its volume, and there is a file for
it beside the cabinet. -/
def OpensExternal (env : Environment σ H) (archive : Archive) (index : Int) (library : Library σ) :
    Prop :=
  ∃ last fd fuel size s path, Target archive.header library.fileDescriptors index last fd ∧
    createSized env archive.header fuel last (beginSession fd library.io) = (.ret size, s) ∧
    size = s.fileDescriptor.dataOffset.toInt64.toInt ∧
    externalPath env archive s.fileDescriptor = .ret path ∧
    (env.native.fopen path .readBinary (fcloseVolume env s).2.io).1.isSome = true

/-- A call that reads nothing from beside the cabinet. -/
def StaysInside (env : Environment σ H) (archive : Archive) : FileCall → Library σ → Prop
  | .fileSaveOld index _, library => ¬ OpensExternal env archive index library
  | _, _ => True

/-! ### Sessions -/

theorem fcloseVolume_fileDescriptor (env : Environment σ H) (s : Session σ H) :
    (fcloseVolume env s).2.fileDescriptor = s.fileDescriptor := by
  rw [fcloseVolume]
  cases s.reader.volumeFile <;> rfl

/-- Where there is no file beside the cabinet, the reader of an external file is not created. -/
theorem readerCreateExternal_of_missing {env : Environment σ H} {archive : Archive} {P : Ledger → Prop}
    {s : TracedSession σ H} (closed : s.reader.volumeFile = none)
    (missing : ∀ path, externalPath env.traced archive s.fileDescriptor = .ret path →
      ¬ (env.traced.native.fopen path .readBinary s.io).1.isSome = true)
    (before : BeforeOutput P s) (fuel : Nat) (index : Int) :
    BeforeOutput P (readerCreateExternal env.traced archive fuel index s).2 := by
  have started : BeforeOutput P { s with reader := { index := UInt32.ofInt index } } :=
    ⟨by rw [ledgerOf_reader closed.symm]; exact before.1, before.2⟩
  rw [readerCreateExternal, openExternal, Proc.gets_bind_run]
  cases found : externalPath env.traced archive s.fileDescriptor with
  | fail => exact started
  | abort => exact started
  | fault => exact started
  | timeout => exact started
  | ret path =>
      have opening : env.traced.native.fopen path .readBinary s.io =
        s.io.openedPast (env.native.fopen path .readBinary s.io.io) := rfl
      have nothing := missing path found
      rw [opening] at nothing
      have fails : fopenExternal env.traced path
          { s with reader := { index := UInt32.ofInt index } } =
          (.fail, { s with
            reader := { index := UInt32.ofInt index }
            io := { s.io with io := (env.native.fopen path .readBinary s.io.io).2 } }) := by
        rw [fopenExternal]
        simp only
        rw [opening]
        rcases native : env.native.fopen path .readBinary s.io.io with ⟨_ | handle, io⟩
        · rfl
        · rw [native] at nothing
          exact (nothing rfl).elim
      rw [Proc.ofExit_ret_bind_run, Proc.bind_of_fail fails]
      exact started

section

variable {env : Environment σ H} {archive : Archive} {P : Ledger → Prop} (keeps : Ledger.Keeps P)
  (forgets : ∀ ledger id, P ledger → P (ledger.forgets id))

include keeps forgets

/-- The reader of the old format, where there is no file beside the cabinet. -/
theorem createOldReader_keeps {fuel : Nat} {index : Int} {start : TracedSession σ H}
    (inside : ∀ size s path,
      createSized env.traced archive.header fuel index start = (.ret size, s) →
      size = s.fileDescriptor.dataOffset.toInt64.toInt →
      externalPath env.traced archive s.fileDescriptor = .ret path →
      ¬ (env.traced.native.fopen path .readBinary (fcloseVolume env.traced s).2.io).1.isSome = true)
    (fresh : start.reader.volumeFile = none) (before : BeforeOutput P start) :
    BeforeOutput P (createOldReader env.traced archive fuel index start).2 := by
  have sized : Proc.Leads (fun s => BeforeOutput P s ∧ s.reader.volumeFile = none)
      (createSized env.traced archive.header fuel index) (BeforeOutput P) :=
    .bind (readerCreate_keeps keeps forgets _ fuel index) (fun _ holds => holds)
      fun _ => fsizeVolume_beforeOutput keeps
  have after := sized start ⟨before, fresh⟩
  rw [createOldReader_eq]
  show BeforeOutput P (Proc.bind _ _ start).2
  rw [Proc.bind]
  rcases run : createSized env.traced archive.header fuel index start with ⟨exit, s⟩
  rw [run] at after
  cases exit with
  | fail => exact after
  | abort => exact after
  | fault => exact after
  | timeout => exact after
  | ret size =>
      simp only [chooseReader, Proc.gets_bind_run]
      by_cases outside : size = s.fileDescriptor.dataOffset.toInt64.toInt
      · rw [if_pos outside]
        have closed : (fcloseVolume env.traced s).2.reader.volumeFile = none :=
          fcloseVolume_volumeFile
        rw [Proc.bind_of_ret (Proc.run_eq_ret (fcloseVolume_returns _ s))]
        apply readerCreateExternal_of_missing closed ?_ (fcloseVolume_beforeOutput keeps s after)
        rw [fcloseVolume_fileDescriptor]
        exact fun path found => inside size s path run outside found
      · rw [if_neg outside]
        exact after

end

/-! ### Calls -/

section

variable {env : Environment σ H} {archive : Archive}

theorem guarded_readerCreate (header : Header) (fuel : Nat) (index : Int) :
    Proc.Leads (fun s => BeforeOutput Ledger.Guarded s ∧ s.reader.volumeFile = none)
      (readerCreate env.traced header fuel index) (BeforeOutput Ledger.Guarded) :=
  readerCreate_keeps Ledger.keeps_guarded (fun _ id guarded => guarded.forgets id) header fuel index

/-- A call that stays inside the cabinet is guarded if the calls before it were. -/
theorem guarded_call {call : FileCall} {library : Library (Traced σ)}
    (inside : StaysInside env.traced archive call library) (rest : (atRest library.io).Guarded)
    (fuel : Nat) : After Ledger.Guarded (call.run env.traced archive fuel library) := by
  have keeps := Ledger.keeps_guarded
  by_cases saves : call.Saves
  · cases call with
    | fileSave index filename =>
        apply saveThroughLinks_keeps keeps rest
        intro last fd _ fuel
        exact saveNew_keeps keeps (guarded_readerCreate _ fuel last) (beginSession fd library.io)
          ⟨⟨rest, rfl⟩, rfl⟩
    | fileSaveRaw index filename =>
        apply saveThroughLinks_keeps keeps rest
        intro last fd _ fuel
        exact saveRaw_keeps keeps (guarded_readerCreate _ fuel last) (beginSession fd library.io)
          ⟨⟨rest, rfl⟩, rfl⟩
    | fileSaveOld index filename =>
        apply saveThroughLinks_keeps keeps rest
        intro last fd target fuel
        have created : Proc.Leads (fun s => s = beginSession fd library.io)
            (createOldReader env.traced archive fuel last) (BeforeOutput Ledger.Guarded) := by
          rintro s rfl
          have before : BeforeOutput Ledger.Guarded (beginSession (H := Tagged H) fd library.io) :=
            ⟨rest, rfl⟩
          apply createOldReader_keeps keeps (fun _ id guarded => guarded.forgets id) ?_ rfl before
          exact fun size s path run outside found opens =>
            inside ⟨last, fd, fuel, size, s, path, target, run, outside, found, opens⟩
        exact saveOld_keeps keeps created _ rfl
    | fileName index => exact saves.elim
    | fileIsValid index => exact saves.elim
    | fileDirectory index => exact saves.elim
    | fileSize index => exact saves.elim
    | fileSizeCompressed index => exact saves.elim
    | fileFlagsRaw index => exact saves.elim
  · refine ⟨[], ?_, fun _ => rfl⟩
    rw [io_of_asking saves fuel library]
    exact rest

/-- The calls of a run are guarded, one after the other. -/
theorem guarded_of_fileRun {start library : Library (Traced σ)} {calls : List FileCall}
    (rest : (atRest start.io).Guarded)
    (run : FileRun env.traced archive (StaysInside env.traced archive) start calls library) :
    (atRest library.io).Guarded := by
  induction run with
  | start => exact rest
  | @call _ before after fuel exit _ next inside returns orderly ih =>
      have outcome := guarded_call inside ih fuel
      rw [returns] at outcome
      exact outcome.atRest orderly

end

/-! ### Opening -/

section

variable (opener : Opener σ H)

/-- To ask for the size of a file uses its handle four times. -/
theorem fsize_traced (env : Environment σ H) (file : Tagged H) (world : Traced σ) (held : List Nat) :
    ({ atRest (fsize env.traced file world).2.2 with held := held } : Ledger) =
      (((({ atRest world with held := held } : Ledger).uses file.id).uses file.id).uses
        file.id).uses file.id := rfl

/-- The world after a header has been read: the file has been closed, read before or not. -/
theorem readHeader_io (fuel : Nat) (version index : Int) (file : H) (io : σ) :
    (readHeader opener fuel version index file io).2 =
      (let sized := fsize opener.toEnvironment file io
      let size := (UInt64.ofInt sized.1).toNat
      if size < 4 ∨ 2 ^ 63 ≤ size then opener.callbacks.fclose sized.2.1 sized.2.2
      else
        let read := opener.callbacks.fread sized.2.1 size sized.2.2
        opener.callbacks.fclose read.2.1 read.2.2) := by
  rw [readHeader]
  simp only
  split
  · rfl
  · split <;> rfl

theorem readHeader_keeps {P : Ledger → Prop} (keeps : Ledger.Keeps P) (fuel : Nat) (version index : Int)
    (file : Tagged H) {world : Traced σ} (holds : P { atRest world with held := [file.id] }) :
    P (atRest (readHeader opener.traced fuel version index file world).2) := by
  have uses : ∀ ledger : Ledger, ledger.held = [file.id] → P ledger → P (ledger.uses file.id) :=
    fun ledger held => keeps.uses ledger file.id (held ▸ List.mem_cons_self)
  have closes : ∀ world : Traced σ, P { atRest world with held := [file.id] } →
      P { atRest world with trace := .closed file.id :: world.trace } := by
    intro world holds
    have closed := keeps.closes _ file.id List.mem_cons_self holds
    rw [Ledger.closes, List.erase_cons_head] at closed
    exact closed
  have sized := uses _ rfl (uses _ rfl (uses _ rfl (uses _ rfl holds)))
  rw [← fsize_traced opener.toEnvironment] at sized
  rw [readHeader_io]
  simp only
  split
  · exact closes _ sized
  · exact closes ((fsize opener.toEnvironment.traced file world).2.2.log (.used file.id) _)
      (uses _ rfl sized)

theorem linkHeader_io (fuel : Nat) (version i : Int) (file : H) (fromHdr : Bool) (s : Opening σ) :
    (linkHeader opener fuel version i file fromHdr s).2.io =
      (readHeader opener fuel version i file s.io).2 := by
  rw [linkHeader]
  rcases readHeader opener fuel version i file s.io with ⟨exit, io⟩
  cases exit <;> rfl

/-- The file of a number is held when it has been opened, as the only one. -/
theorem openHeaderFile_keeps {P : Ledger → Prop} (keeps : Ledger.Keeps P) (i : Int) {world : Traced σ}
    (rest : P (atRest world)) :
    P { atRest (openHeaderFile opener.traced i world).2.2 with
      held := ((openHeaderFile opener.traced i world).1.map Tagged.id).toList } := by
  have opened := keeps.opens _ rest
  have hdr : opener.traced.openHeaderForReading i world =
    world.opened (opener.openHeaderForReading i world.io) := rfl
  rw [openHeaderFile, hdr]
  rcases opener.openHeaderForReading i world.io with ⟨_ | handle, io⟩
  · have cab : opener.traced.openForReading i { world with io := io } =
      ({ world with io := io } : Traced σ).opened (opener.openForReading i io) := rfl
    simp only [Traced.opened]
    rw [cab]
    rcases opener.openForReading i io with ⟨_ | handle, io'⟩
    · exact rest
    · exact opened
  · exact opened

/-- No turn of the loop leaves a file open. -/
theorem readHeaders_keeps {P : Ledger → Prop} (keeps : Ledger.Keeps P) (fuel : Nat) (version : Int) :
    Proc.Preserves (fun s : Opening (Traced σ) => P (atRest s.io))
      (readHeaders opener.traced fuel version) := by
  refine .iterate (fun i => ?_) fuel 1
  intro s rest
  have opened := openHeaderFile_keeps opener keeps i rest
  rw [readHeadersTurn]
  rcases found : openHeaderFile opener.traced i s.io with ⟨_ | file, fromHdr, world⟩
  · rw [found] at opened
    exact opened
  · rw [found] at opened
    simp only
    rw [linkHeader_io]
    exact readHeader_keeps opener keeps fuel version i file opened

end

/-! ### Runs -/

/-- A cabinet that has just been opened. -/
def openedLibrary (opener : Opener σ H) (fuel : Nat) (version : Int) (io : σ) :
    Library (Traced σ) where
  fileDescriptors := fun _ => none
  io := (readHeaders opener.traced fuel version { io := { io := io } }).2.io

/-- From the opening of a cabinet on, the callbacks get only handles that their `fopen` has given out
and that have not been closed, through any calls that read nothing from beside the cabinet.  Closing the
cabinet calls none of them. -/
theorem disciplined_of_fileRun (opener : Opener σ H) (openFuel : Nat) (version : Int) (io : σ)
    {archive : Archive} {calls : List FileCall} {library : Library (Traced σ)}
    (run : FileRun opener.traced.toEnvironment archive (StaysInside opener.traced.toEnvironment archive)
      (openedLibrary opener openFuel version io) calls library) :
    Disciplined library.io.trace ∧
      ∀ call fuel, StaysInside opener.traced.toEnvironment archive call library →
        Disciplined (call.run opener.traced.toEnvironment archive fuel library).2.io.trace := by
  have opened := readHeaders_keeps opener Ledger.keeps_guarded openFuel version { io := { io := io } }
    (guarded_start io)
  have rest : (atRest library.io).Guarded := guarded_of_fileRun opened run
  refine ⟨rest.disciplined, fun call fuel inside => ?_⟩
  rcases guarded_call inside rest fuel with ⟨held, guarded, _⟩
  exact guarded.disciplined

/-! ### A file beside the cabinet -/

/-- The header of a cabinet of major version 5 whose only file starts at the end of its volume. -/
def outsideHeader : Bytes :=
  [words [cabSignature, 0x01005000, 0, 20, 1], List.replicate 12 0, words [630],
    List.replicate 12 0, words [1, 0, 0, 1], List.replicate 586 0,
    -- the file table, and the descriptor of the file
    words [12, 8, 12, 0], List.replicate 2 0, words [1, 1, 0, 0, 0, 0, 0, 61],
    List.replicate 16 0].flatten

def outsideArchive : Archive where
  header :=
    { index := 1
      data := outsideHeader
      majorVersion := 5
      common :=
        { signature := cabSignature
          version := 0x01005000
          volumeInfo := 0
          cabDescriptorOffset := 20
          cabDescriptorSize := 1 }
      cab := { fileTableOffset := 630, directoryCount := 1, fileCount := 1, fileTableOffset2 := 0 }
      fileTable := [12, 8] }
  filenamePattern := []

def outsideFiles : HeaderFiles where
  content := fun i => if i = 1 then some outsideHeader else none
  content_lt := by
    intro i data found
    split at found
    · obtain rfl := Option.some.inj found
      decide +kernel
    · cases found

/-- The volume, and one byte under every other name. -/
def outsideDisk : Disk where
  store :=
    { (dividedDisk 1).store with files := fun _ => some [0x61] }

def outsideOpened : Library (Traced Disk) :=
  openedLibrary (smallLibraries.opening outsideFiles) 3 (-1) outsideDisk

def outsideSaved : Library (Traced Disk) :=
  ((FileCall.fileSaveOld 0 none).run smallLibraries.onDisk.traced outsideArchive 5 outsideOpened).2

/-- A process that finds no file beside the cabinet. -/
def insideOpener : Opener Disk Stream :=
  { smallLibraries.opening outsideFiles with
    native := { stdio with fopen := fun _ _ disk => (none, disk) } }

def insideOpened : Library (Traced Disk) := openedLibrary insideOpener 3 (-1) outsideDisk

/-- With no file beside the cabinet, the callbacks get their own handles only. -/
theorem missing_file_disciplined :
    Disciplined ((FileCall.fileSaveOld 0 none).run insideOpener.traced.toEnvironment outsideArchive 5
      insideOpened).2.io.trace := by
  have run : FileRun insideOpener.traced.toEnvironment outsideArchive
      (StaysInside insideOpener.traced.toEnvironment outsideArchive) insideOpened [] insideOpened := .start
  have inside : StaysInside insideOpener.traced.toEnvironment outsideArchive (.fileSaveOld 0 none)
      insideOpened := by
    rintro ⟨_, _, _, _, _, _, _, _, _, _, opens⟩
    cases opens
  have disciplined := disciplined_of_fileRun insideOpener 3 (-1) outsideDisk run
  refine disciplined.2 _ _ ?_
  exact inside

/-- Where the first header is in an `hdr` file, no other file is opened, whatever is in it. -/
theorem readHeaders_io_of_hdr {opener : Opener σ H} {file : H} {io io' : σ}
    (found : opener.openHeaderForReading 1 io = (some file, io')) (fuel : Nat) (version : Int) :
    (readHeaders opener (fuel + 1) version { io := io }).2.io =
      (readHeader opener (fuel + 1) version 1 file io').2 := by
  have opened : openHeaderFile opener 1 io = (some file, true, io') := by
    rw [openHeaderFile, found]
  rw [readHeaders, Proc.iterate]
  show (Proc.bind _ _ ({ io := io } : Opening σ)).2.io = _
  rw [Proc.bind, readHeadersTurn, opened]
  simp only
  rw [linkHeader]
  rcases readHeader opener (fuel + 1) version 1 file io' with ⟨exit, world⟩
  cases exit <;> rfl

/-- The library after the opening, without the parsing of the header. -/
theorem outsideOpened_eq :
    outsideOpened =
      { fileDescriptors := fun _ => none
        io :=
          let traced := (smallLibraries.opening outsideFiles).traced
          let file : Tagged Stream := { id := 0, handle := { content := outsideHeader } }
          let world : Traced Disk := { io := outsideDisk, next := 1, trace := [.opened 0] }
          let sized := fsize traced.toEnvironment file world
          let read := traced.callbacks.fread sized.2.1 (UInt64.ofInt sized.1).toNat sized.2.2
          traced.callbacks.fclose read.2.1 read.2.2 } := by
  rw [outsideOpened, openedLibrary, readHeaders_io_of_hdr rfl, readHeader_io]
  simp only
  rw [if_neg]
  decide +kernel

/-- The header of the first volume, if the cabinet can be opened. -/
def firstHeader : Exit Unit × Opening (Traced Disk) → Option Header
  | (.ret (), s) => (s.list.headerList.bind s.list.nodes).map fun node => node.value.header
  | _ => none

theorem readHeader_of_read {opener : Opener σ H} {file : H} {io : σ} {data : Bytes}
    (sized : (UInt64.ofInt (fsize opener.toEnvironment file io).1).toNat = data.length)
    (long : 4 ≤ data.length) (short : data.length < 2 ^ 63)
    (read : (opener.callbacks.fread (fsize opener.toEnvironment file io).2.1 data.length
      (fsize opener.toEnvironment file io).2.2).1 = data) (fuel : Nat) (version index : Int) :
    (readHeader opener fuel version index file io).1 =
      parseHeader opener.bigEndian fuel version index data := by
  rw [readHeader]
  simp only [sized, read]
  rw [if_neg (by omega), if_neg (not_not_intro rfl)]

/-- A header that is read from an `hdr` file is the first one, and the last. -/
theorem firstHeader_of_hdr {opener : Opener (Traced Disk) H} {file : H} {io io' : Traced Disk}
    {header : OpenedHeader} {fuel : Nat} {version : Int}
    (found : opener.openHeaderForReading 1 io = (some file, io'))
    (read : (readHeader opener (fuel + 1) version 1 file io').1 = .ret header) :
    firstHeader (readHeaders opener (fuel + 1) version { io := io }) = some header.header := by
  have opened : openHeaderFile opener 1 io = (some file, true, io') := by
    rw [openHeaderFile, found]
  have turn : readHeadersTurn opener (fuel + 1) version 1 { io := io } =
      (.ret (.done ()), { list := ({} : HeaderList).append header
                          io := (readHeader opener (fuel + 1) version 1 file io').2 }) := by
    rw [readHeadersTurn, opened]
    simp only
    rw [linkHeader, Proc.run_eq_ret read]
    rfl
  rw [readHeaders, Proc.iterate_succ_of_done turn]
  rfl

theorem outsideHeader_zeros : outsideHeader =
    outsideHeader.take 64 ++ List.replicate 586 0 ++ outsideHeader.drop 650 := by decide +kernel

theorem outsideHeader_parsed : parseHeader false 3 (-1) 1 outsideHeader =
    .ret { header := outsideArchive.header, components := [], fileGroups := [] } :=
  @parseHeader_zeros _ _ _ _ 2 _ _ _ outsideArchive.header.common outsideArchive.header.cab _
    outsideHeader_zeros (by decide +kernel) (by decide) (by decide +kernel) (by decide +kernel)
    (by decide +kernel) (by decide +kernel) (by decide +kernel) (by decide +kernel) (by decide +kernel)

/-- The header file when it has been opened, and the world then. -/
def outsideFile : Tagged Stream × Traced Disk :=
  ({ id := 0, handle := { content := outsideHeader } },
    { io := outsideDisk, next := 1, trace := [.opened 0] })

theorem outsideFile_found : (smallLibraries.opening outsideFiles).traced.openHeaderForReading 1
    { io := outsideDisk } = (some outsideFile.1, outsideFile.2) := rfl

theorem outsideFile_read : (readHeader (smallLibraries.opening outsideFiles).traced 3 (-1) 1 outsideFile.1
    outsideFile.2).1 = .ret { header := outsideArchive.header, components := [], fileGroups := [] } := by
  rw [@readHeader_of_read _ _ _ _ _ outsideHeader (by decide +kernel) (by decide +kernel) (by decide +kernel)
    (by decide +kernel)]
  exact outsideHeader_parsed

theorem outsideRun :
    FileRun smallLibraries.onDisk.traced outsideArchive (fun _ _ => True) outsideOpened
      [.fileSaveOld 0 none] outsideSaved := by
  have returns : ((FileCall.fileSaveOld 0 none).run smallLibraries.onDisk.traced outsideArchive 5
      outsideOpened).1 = .ret () := by
    rw [outsideOpened_eq]
    decide +kernel
  have run := Proc.run_eq_ret returns
  rw [← outsideSaved] at run
  exact .call .start (.fileSaveOld 0 none) trivial run trivial

theorem outsideSaved_trace : outsideSaved.io.trace =
    [.closed 2, .used 2, .used 2, .closed 1, .used 1, .used 1, .used 1, .used 1, .used 1, .used 1, .used 1,
      .opened 1, .closed 0, .used 0, .used 0, .used 0, .used 0, .used 0, .opened 0] := by
  rw [outsideSaved, outsideOpened_eq]
  decide +kernel

/-- The file beside the cabinet is read with callbacks that have not opened it. -/
theorem external_file_not_disciplined :
    firstHeader (readHeaders (smallLibraries.opening outsideFiles).traced 3 (-1)
        { io := { io := outsideDisk } }) = some outsideArchive.header ∧
    FileRun smallLibraries.onDisk.traced outsideArchive (fun _ _ => True) outsideOpened
      [.fileSaveOld 0 none] outsideSaved ∧
    ¬ Disciplined outsideSaved.io.trace := by
  refine ⟨?_, outsideRun, ?_⟩
  · exact firstHeader_of_hdr outsideFile_found outsideFile_read
  · rw [outsideSaved_trace]
    decide

end Unshield
