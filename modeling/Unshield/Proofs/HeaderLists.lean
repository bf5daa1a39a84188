/-
Module: Unshield.Proofs.HeaderLists
Purpose: The headers that opening a cabinet reads, and the list that it links them into: `previous`
  stays at the first header, and so the list holds the first and the last one.
Trusted boundary: none
Main exports: HeaderFiles, Libraries.opening, HeaderRun, HeaderList.Holds, readHeaders_run,
  headers_linked_iff
-/
import Unshield.Core.OpenCabinet
import Unshield.Proofs.FieldReads
import Unshield.Proofs.OffsetLists

namespace Unshield

open Procedure
open LinkedNodes (Linked)

/-! ### The list -/

namespace HeaderList

/-- The list once some headers have been linked: the first one stays where it is, and points to the one
that was linked last. -/
structure Holds (list : HeaderList) (first : OpenedHeader) (rest : List OpenedHeader) : Prop where
  headerList : list.headerList = some 0
  previous : list.previous = some 0
  allocated : list.allocated = rest.length + 1
  node : list.nodes 0 = some
    { value := first, next := if rest = [] then none else some rest.length }
  last : ∀ header ∈ rest.getLast?, list.nodes rest.length = some { value := header }

theorem holds_append_nil (header : OpenedHeader) : Holds (append {} header) header [] where
  headerList := rfl
  previous := rfl
  allocated := rfl
  node := rfl
  last := fun _ member => nomatch member

theorem Holds.append {list : HeaderList} {first : OpenedHeader} {rest : List OpenedHeader}
    (holds : Holds list first rest) (header : OpenedHeader) :
    Holds (list.append header) first (rest ++ [header]) := by
  have fresh : (0 : Nat) ≠ list.allocated := by
    rw [holds.allocated]
    exact Nat.zero_ne_add_one _
  have node : Function.update list.nodes list.allocated (some { value := header }) 0 =
      some { value := first, next := if rest = [] then none else some rest.length } := by
    rw [Function.update_of_ne fresh, holds.node]
  rw [HeaderList.append]
  simp only [holds.previous]
  constructor
  · exact holds.headerList
  · rfl
  · rw [List.length_append]
    exact congrArg (· + 1) holds.allocated
  · show LinkedNodes.setNext _ 0 _ 0 = _
    rw [LinkedNodes.setNext_self node,
      if_neg (List.append_ne_nil_of_right_ne_nil _ (List.cons_ne_nil _ _)), List.length_append,
      holds.allocated]
    rfl
  · intro last member
    rw [List.getLast?_concat, Option.mem_some_iff] at member
    have position : (rest ++ [header]).length = list.allocated := by
      rw [List.length_append, holds.allocated, List.length_singleton]
    rw [position, ← member]
    exact (LinkedNodes.setNext_of_ne fresh.symm _).trans (Function.update_self ..)

theorem holds_foldl (first : OpenedHeader) (rest : List OpenedHeader) :
    Holds (rest.foldl append (append {} first)) first rest := by
  induction rest using List.reverseRecOn with
  | nil => exact holds_append_nil first
  | append_singleton rest last ih =>
      rw [List.foldl_append]
      exact ih.append last

/-- What is left of the headers. -/
def firstAndLast : List OpenedHeader → List OpenedHeader
  | [] => []
  | first :: rest => first :: rest.getLast?.toList

theorem Holds.linked {list : HeaderList} {first : OpenedHeader} {rest : List OpenedHeader}
    (holds : Holds list first rest) :
    Linked list.nodes list.headerList (firstAndLast (first :: rest)) := by
  rw [holds.headerList, firstAndLast]
  cases last : rest.getLast? with
  | none =>
      have nothing := List.getLast?_eq_none_iff.1 last
      have node := holds.node
      rw [if_pos nothing] at node
      exact .cons node .nil
  | some header =>
      have something : rest ≠ [] := by
        rintro rfl
        cases last
      have node := holds.node
      rw [if_neg something] at node
      exact .cons node (.cons (holds.last header last) .nil)

/-- The list that headers are linked into one after the other holds the first and the last of them. -/
theorem linked_foldl (headers : List OpenedHeader) :
    Linked (headers.foldl append {}).nodes (headers.foldl append {}).headerList
      (firstAndLast headers) := by
  cases headers with
  | nil => exact .nil
  | cons first rest => exact (holds_foldl first rest).linked

theorem firstAndLast_eq_iff (headers : List OpenedHeader) :
    firstAndLast headers = headers ↔ headers.length ≤ 2 := by
  match headers with
  | [] => exact iff_of_true rfl (Nat.zero_le _)
  | [_] => exact iff_of_true rfl (Nat.le_succ 1)
  | [_, _] => exact iff_of_true rfl (Nat.le_refl _)
  | first :: second :: third :: rest =>
      apply iff_of_false
      · intro same
        have length := congrArg List.length same
        rw [firstAndLast, List.getLast?_eq_some_getLast (List.cons_ne_nil _ _)] at length
        simp at length
      · simp

/-- Two headers are kept, more are not. -/
theorem linked_foldl_iff (headers : List OpenedHeader) :
    Linked (headers.foldl append {}).nodes (headers.foldl append {}).headerList headers ↔
      headers.length ≤ 2 := by
  rw [← firstAndLast_eq_iff]
  constructor
  · exact (linked_foldl headers).unique
  · intro same
    have linked := linked_foldl headers
    rwa [same] at linked

end HeaderList

/-! ### The files -/

/-- The `hdr` files by their numbers; none is longer than an `off_t` can tell. -/
structure HeaderFiles where
  content : Int → Option Bytes
  content_lt : ∀ i data, content i = some data → data.length < 2 ^ 63

/-- A process that opens a cabinet with the default callbacks. -/
abbrev Libraries.opening (libraries : Libraries) (headers : HeaderFiles) : Opener Disk Stream :=
  { libraries.onDisk with
    openHeaderForReading := fun i disk =>
      ((headers.content i).map fun content => { content }, disk) }

section

variable (bigEndian : Bool) (fuel : Nat) (version : Int) (headers : HeaderFiles)
  (cabinets : Int → Option Bytes)

/-- What the contents of a header file give. -/
def headerOf (i : Int) (content : Bytes) : Exit OpenedHeader :=
  if content.length < 4 then .fail else parseHeader bigEndian fuel version i content

/-- The file that the header with a number is read from. -/
def headerFile (i : Int) : Option Bytes := (headers.content i).or (cabinets i)

/-- The headers from a number on, up to the first one that is missing, cannot be parsed or is from an
`hdr` file. -/
inductive HeaderRun : Int → List OpenedHeader → Prop where
  | missing {i : Int} (absent : headerFile headers cabinets i = none) : HeaderRun i []
  | unparsed {i : Int} {content : Bytes} (file : headerFile headers cabinets i = some content)
      (bad : headerOf bigEndian fuel version i content = .fail) : HeaderRun i []
  | hdr {i : Int} {content : Bytes} {header : OpenedHeader}
      (file : headers.content i = some content)
      (good : headerOf bigEndian fuel version i content = .ret header) : HeaderRun i [header]
  | cab {i : Int} {content : Bytes} {header : OpenedHeader} {rest : List OpenedHeader}
      (no_hdr : headers.content i = none) (file : cabinets i = some content)
      (good : headerOf bigEndian fuel version i content = .ret header)
      (further : HeaderRun (i + 1) rest) : HeaderRun i (header :: rest)

end

section

variable {bigEndian : Bool} {fuel : Nat} {version : Int} {headers : HeaderFiles}
  {cabinets : Int → Option Bytes}

theorem headerFile_eq_of_hdr {i : Int} {content : Bytes} (file : headers.content i = some content) :
    headerFile headers cabinets i = some content := by
  rw [headerFile, file, Option.some_or]

theorem headerFile_eq_of_cab {i : Int} (no_hdr : headers.content i = none) :
    headerFile headers cabinets i = cabinets i := by
  rw [headerFile, no_hdr, Option.none_or]

/-- The files determine the headers. -/
theorem HeaderRun.unique {i : Int} {one two : List OpenedHeader}
    (first : HeaderRun bigEndian fuel version headers cabinets i one)
    (second : HeaderRun bigEndian fuel version headers cabinets i two) : one = two := by
  induction first generalizing two with
  | missing absent =>
      cases second with
      | missing => rfl
      | unparsed => rfl
      | hdr file => cases absent.symm.trans (headerFile_eq_of_hdr file)
      | cab no_hdr file => cases absent.symm.trans ((headerFile_eq_of_cab no_hdr).trans file)
  | unparsed file bad =>
      cases second with
      | missing => rfl
      | unparsed => rfl
      | hdr file' good =>
          cases file.symm.trans (headerFile_eq_of_hdr file')
          cases bad.symm.trans good
      | cab no_hdr file' good =>
          cases file.symm.trans ((headerFile_eq_of_cab no_hdr).trans file')
          cases bad.symm.trans good
  | hdr file good =>
      cases second with
      | missing absent => cases absent.symm.trans (headerFile_eq_of_hdr file)
      | unparsed file' bad =>
          cases file'.symm.trans (headerFile_eq_of_hdr file)
          cases bad.symm.trans good
      | hdr file' good' =>
          cases file.symm.trans file'
          cases good.symm.trans good'
          rfl
      | cab no_hdr => cases no_hdr.symm.trans file
  | cab no_hdr file good _ ih =>
      cases second with
      | missing absent => cases absent.symm.trans ((headerFile_eq_of_cab no_hdr).trans file)
      | unparsed file' bad =>
          cases file'.symm.trans ((headerFile_eq_of_cab no_hdr).trans file)
          cases bad.symm.trans good
      | hdr file' => cases no_hdr.symm.trans file'
      | cab _ file' good' further =>
          cases file.symm.trans file'
          cases good.symm.trans good'
          rw [ih further]

end

/-! ### The loop -/

section

variable {libraries : Libraries} {headers : HeaderFiles} {fuel : Nat} {version : Int}

theorem fsize_onDisk (content : Bytes) (disk : Disk) :
    fsize libraries.onDisk ({ content } : Stream) disk =
      ((content.length : Int), ({ content } : Stream), disk) := by
  simp [fsize, Disk.ftell, Disk.fseek]

theorem toNat_ofInt_length {content : Bytes} (short : content.length < 2 ^ 63) :
    (UInt64.ofInt content.length).toNat = content.length := by
  rw [UInt64.ofInt]
  have small : ((content.length : Int) % 2 ^ 64).toNat = content.length := by omega
  rw [small]
  exact UInt64.toNat_ofNat_of_lt' (Nat.lt_trans short (by decide))

/-- Reading a header is parsing the file, which is closed behind it. -/
theorem readHeader_run {i : Int} {content : Bytes} (short : content.length < 2 ^ 63) (disk : Disk) :
    ∃ disk', readHeader (libraries.opening headers) fuel version i { content } disk =
        (headerOf libraries.bigEndian fuel version i content, disk') ∧
      disk'.store = disk.store := by
  rw [readHeader, fsize_onDisk]
  simp only [toNat_ofInt_length short]
  by_cases tiny : content.length < 4
  · rw [if_pos (Or.inl tiny), headerOf, if_pos tiny]
    exact ⟨_, rfl, rfl⟩
  · rw [if_neg (not_or.2 ⟨tiny, Nat.not_le_of_lt short⟩), headerOf, if_neg tiny]
    simp only [Disk.fread, List.drop_zero, List.take_length, ne_eq, not_true_eq_false, if_false]
    exact ⟨_, rfl, rfl⟩

/-- A file that was opened and is parsed is linked; one that cannot be parsed ends the loop. -/
theorem linkHeader_run {i : Int} {content : Bytes} {fromHdr : Bool} {turn : Proc.Turn Int Unit}
    {s s' : Opening Disk} (short : content.length < 2 ^ 63)
    (run : linkHeader (libraries.opening headers) fuel version i { content } fromHdr s =
      (.ret turn, s')) :
    s'.io.store = s.io.store ∧
      ((∃ header, headerOf libraries.bigEndian fuel version i content = .ret header ∧
          turn = (if fromHdr then .done () else .again (i + 1)) ∧ s'.list = s.list.append header) ∨
        headerOf libraries.bigEndian fuel version i content = .fail ∧ turn = .done () ∧
          s'.list = s.list) := by
  obtain ⟨disk', read, kept⟩ := @readHeader_run libraries headers fuel version i content short s.io
  rw [linkHeader, read] at run
  cases parsed : headerOf libraries.bigEndian fuel version i content with
  | ret header =>
      rw [parsed] at run
      cases run
      exact ⟨kept, .inl ⟨header, rfl, rfl, rfl⟩⟩
  | fail =>
      rw [parsed] at run
      cases run
      exact ⟨kept, .inr ⟨rfl, rfl, rfl⟩⟩
  | abort =>
      rw [parsed] at run
      cases run
  | fault =>
      rw [parsed] at run
      cases run
  | timeout =>
      rw [parsed] at run
      cases run

theorem linkHeader_of_good {i : Int} {content : Bytes} {header : OpenedHeader}
    (short : content.length < 2 ^ 63)
    (good : headerOf libraries.bigEndian fuel version i content = .ret header) (fromHdr : Bool)
    (s : Opening Disk) :
    ∃ s', linkHeader (libraries.opening headers) fuel version i { content } fromHdr s =
        (.ret (if fromHdr then .done () else .again (i + 1)), s') ∧
      s'.io.store = s.io.store := by
  obtain ⟨disk', read, kept⟩ := @readHeader_run libraries headers fuel version i content short s.io
  rw [linkHeader, read, good]
  exact ⟨_, rfl, kept⟩

theorem linkHeader_of_bad {i : Int} {content : Bytes} (short : content.length < 2 ^ 63)
    (bad : headerOf libraries.bigEndian fuel version i content = .fail) (fromHdr : Bool)
    (s : Opening Disk) :
    ∃ s', linkHeader (libraries.opening headers) fuel version i { content } fromHdr s =
      (.ret (.done ()), s') := by
  obtain ⟨disk', read, _⟩ := @readHeader_run libraries headers fuel version i content short s.io
  rw [linkHeader, read, bad]
  exact ⟨_, rfl⟩

theorem readHeadersTurn_of_hdr {i : Int} {content : Bytes} (hdr : headers.content i = some content)
    (s : Opening Disk) :
    readHeadersTurn (libraries.opening headers) fuel version i s =
      linkHeader (libraries.opening headers) fuel version i { content } true s := by
  simp [readHeadersTurn, openHeaderFile, hdr]

theorem readHeadersTurn_of_cab {i : Int} {content : Bytes} {s : Opening Disk}
    (no_hdr : headers.content i = none) (cab : s.io.store.cabinets i = some content) :
    readHeadersTurn (libraries.opening headers) fuel version i s =
      linkHeader (libraries.opening headers) fuel version i { content } false s := by
  simp [readHeadersTurn, openHeaderFile, no_hdr, Disk.openForReading, cab]

theorem readHeadersTurn_of_missing {i : Int} {s : Opening Disk}
    (absent : headerFile headers s.io.store.cabinets i = none) :
    readHeadersTurn (libraries.opening headers) fuel version i s = (.ret (.done ()), s) := by
  obtain ⟨no_hdr, no_cab⟩ := Option.or_eq_none_iff.1 absent
  simp [readHeadersTurn, openHeaderFile, no_hdr, Disk.openForReading, no_cab]

/-- One turn of the loop reads one header of the run, or ends it. -/
theorem readHeadersTurn_run {i : Int} {turn : Proc.Turn Int Unit} {s s' : Opening Disk}
    (run : readHeadersTurn (libraries.opening headers) fuel version i s = (.ret turn, s')) :
    s'.io.store = s.io.store ∧
      ((∃ last, HeaderRun libraries.bigEndian fuel version headers s.io.store.cabinets i last ∧
          turn = .done () ∧ s'.list = last.foldl HeaderList.append s.list) ∨
        ∃ header, turn = .again (i + 1) ∧ s'.list = s.list.append header ∧
          ∀ rest, HeaderRun libraries.bigEndian fuel version headers s.io.store.cabinets (i + 1) rest →
            HeaderRun libraries.bigEndian fuel version headers s.io.store.cabinets i (header :: rest)) := by
  cases hdr : headers.content i with
  | some content =>
      rw [readHeadersTurn_of_hdr hdr] at run
      rcases linkHeader_run (headers.content_lt i content hdr) run with ⟨kept, parsed | failed⟩
      · rcases parsed with ⟨header, good, rfl, linked⟩
        exact ⟨kept, .inl ⟨[header], .hdr hdr good, rfl, linked⟩⟩
      · rcases failed with ⟨bad, rfl, same⟩
        exact ⟨kept, .inl ⟨[], .unparsed (headerFile_eq_of_hdr hdr) bad, rfl, same⟩⟩
  | none =>
      cases cab : s.io.store.cabinets i with
      | none =>
          have absent := (headerFile_eq_of_cab hdr).trans cab
          rw [readHeadersTurn_of_missing absent] at run
          cases run
          exact ⟨rfl, .inl ⟨[], .missing absent, rfl, rfl⟩⟩
      | some content =>
          rw [readHeadersTurn_of_cab hdr cab] at run
          rcases linkHeader_run (s.io.store.cabinets_lt i content cab) run with ⟨kept, parsed | failed⟩
          · rcases parsed with ⟨header, good, rfl, linked⟩
            exact ⟨kept, .inr ⟨header, rfl, linked, fun _ => .cab hdr cab good⟩⟩
          · rcases failed with ⟨bad, rfl, same⟩
            exact ⟨kept,
              .inl ⟨[], .unparsed ((headerFile_eq_of_cab hdr).trans cab) bad, rfl, same⟩⟩

/-- The loop links the headers of a run, one after the other. -/
theorem readHeaders_run (turns : Nat) :
    ∀ {i : Int} {s s' : Opening Disk},
      Proc.iterate (readHeadersTurn (libraries.opening headers) fuel version) turns i s =
        (.ret (), s') →
      ∃ run, HeaderRun libraries.bigEndian fuel version headers s.io.store.cabinets i run ∧
        s'.list = run.foldl HeaderList.append s.list := by
  induction turns with
  | zero =>
      intro i s s' run
      cases run
  | succ turns ih =>
      intro i s s' run
      rw [Proc.iterate] at run
      obtain ⟨turn, middle, first, others⟩ := Proc.bind_eq_ret_iff.1 run
      rcases readHeadersTurn_run first with ⟨kept, ended | further⟩
      · rcases ended with ⟨last, headers_run, rfl, linked⟩
        cases others
        exact ⟨last, headers_run, linked⟩
      · rcases further with ⟨header, rfl, linked, extend⟩
        obtain ⟨rest, rest_run, rest_linked⟩ := ih others
        rw [kept] at rest_run
        rw [linked] at rest_linked
        exact ⟨header :: rest, extend rest rest_run, rest_linked⟩

/-- With a turn for each header and one more, the loop returns. -/
theorem readHeaders_of_run {cabinets : Int → Option Bytes} {i : Int} {all : List OpenedHeader}
    (run : HeaderRun libraries.bigEndian fuel version headers cabinets i all) :
    ∀ {turns : Nat} {s : Opening Disk}, all.length < turns → s.io.store.cabinets = cabinets →
      ∃ s', Proc.iterate (readHeadersTurn (libraries.opening headers) fuel version) turns i s =
        (.ret (), s') := by
  induction run with
  | missing absent =>
      rintro (_ | turns) s enough rfl
      · cases enough
      · exact ⟨s, Proc.iterate_succ_of_done (readHeadersTurn_of_missing absent)⟩
  | @unparsed i content file bad =>
      rintro (_ | turns) s enough rfl
      · cases enough
      · cases hdr : headers.content i with
        | some other =>
            obtain rfl := Option.some.inj ((headerFile_eq_of_hdr hdr).symm.trans file)
            obtain ⟨s', linked⟩ := linkHeader_of_bad (headers.content_lt i other hdr) bad true s
            exact ⟨s', Proc.iterate_succ_of_done ((readHeadersTurn_of_hdr hdr s).trans linked)⟩
        | none =>
            have cab := (headerFile_eq_of_cab hdr).symm.trans file
            obtain ⟨s', linked⟩ := linkHeader_of_bad (s.io.store.cabinets_lt i content cab) bad false s
            exact ⟨s', Proc.iterate_succ_of_done ((readHeadersTurn_of_cab hdr cab).trans linked)⟩
  | @hdr i content header file good =>
      rintro (_ | turns) s enough rfl
      · cases enough
      · obtain ⟨s', linked, _⟩ := linkHeader_of_good (headers.content_lt i content file) good true s
        exact ⟨s', Proc.iterate_succ_of_done ((readHeadersTurn_of_hdr file s).trans linked)⟩
  | @cab i content header rest no_hdr file good _ ih =>
      rintro (_ | turns) s enough rfl
      · cases enough
      · obtain ⟨middle, linked, kept⟩ :=
          linkHeader_of_good (s.io.store.cabinets_lt i content file) good false s
        rw [Proc.iterate_succ_of_again ((readHeadersTurn_of_cab no_hdr file).trans linked)]
        exact ih (Nat.lt_of_succ_lt_succ enough) (congrArg Store.cabinets kept)

/-- The headers that are read are those of the run from 1 on, and the list holds them exactly if there are
no more than two. -/
theorem headers_linked_iff {disk : Disk} {s' : Opening Disk}
    (run : readHeaders (libraries.opening headers) fuel version { io := disk } = (.ret (), s')) :
    ∃ all, (∀ other, HeaderRun libraries.bigEndian fuel version headers disk.store.cabinets 1 other ↔
        other = all) ∧
      (Linked s'.list.nodes s'.list.headerList all ↔ all.length ≤ 2) := by
  obtain ⟨all, all_run, linked⟩ := readHeaders_run fuel run
  refine ⟨all, ?_, ?_⟩
  · intro other
    constructor
    · exact fun other_run => other_run.unique all_run
    · rintro rfl
      exact all_run
  · rw [linked]
    exact HeaderList.linked_foldl_iff all

end

/-! ### Two and three volumes -/

/-- A header with one file, and no components or file groups. -/
def plainHeader : Bytes :=
  littleEndian32 cabSignature ++ littleEndian32 0x01005000 ++ littleEndian32 0 ++ littleEndian32 20 ++
    littleEndian32 1 ++ List.replicate 40 0 ++ littleEndian32 1 ++ List.replicate 590 0

def plainOpenedHeader (index : Int) : OpenedHeader where
  header :=
    { index
      data := plainHeader
      majorVersion := 5
      common :=
        { signature := cabSignature
          version := 0x01005000
          volumeInfo := 0
          cabDescriptorOffset := 20
          cabDescriptorSize := 1 }
      cab := { fileTableOffset := 0, directoryCount := 0, fileCount := 1, fileTableOffset2 := 0 }
      fileTable := [0] }
  components := []
  fileGroups := []

theorem plainHeader_length : plainHeader.length = 654 := by
  decide +kernel

theorem headerOf_plainHeader (index : Int) :
    headerOf false 4 (-1) index plainHeader = .ret (plainOpenedHeader index) := by
  rw [headerOf, plainHeader_length, if_neg (by decide)]
  have zeros : plainHeader = plainHeader.take 64 ++ List.replicate 590 0 ++ [] := by decide +kernel
  exact @parseHeader_zeros _ _ _ _ 3 _ _ _ (plainOpenedHeader 0).header.common
    (plainOpenedHeader 0).header.cab _ zeros (by decide +kernel) (by decide) (by decide +kernel)
    (by decide +kernel) (by decide +kernel) (by decide +kernel) (by decide +kernel) (by decide +kernel)
    (by decide +kernel)

/-- The disk with some volumes, each with the plain header. -/
def volumesDisk (count : Int) : Disk where
  store :=
    { cabinets := fun i => if 1 ≤ i ∧ i ≤ count then some plainHeader else none
      volumeAt := fun _ => none
      files := fun _ => none
      writable := fun _ => false
      room := 0
      cabinets_lt := by
        intro i content found
        split at found
        · obtain rfl := Option.some.inj found
          rw [plainHeader_length]
          decide
        · cases found
      room_lt := room_zero_lt
      volumes_protected := nothing_protected _ }

def noHeaderFiles : HeaderFiles where
  content := fun _ => none
  content_lt := nothing_lt

theorem plainRun_cons {count i : Int} {rest : List OpenedHeader} (within : 1 ≤ i ∧ i ≤ count)
    (further : HeaderRun false 4 (-1) noHeaderFiles (volumesDisk count).store.cabinets (i + 1) rest) :
    HeaderRun false 4 (-1) noHeaderFiles (volumesDisk count).store.cabinets i
      (plainOpenedHeader i :: rest) :=
  .cab rfl (if_pos within) (headerOf_plainHeader i) further

theorem plainRun_nil (count : Int) :
    HeaderRun false 4 (-1) noHeaderFiles (volumesDisk count).store.cabinets (count + 1) [] := by
  apply HeaderRun.missing
  rw [headerFile_eq_of_cab rfl]
  exact if_neg fun within => Int.not_le.2 (Int.lt_succ count) within.2

theorem headers_linked_two_volumes :
    ∃ s', readHeaders (smallLibraries.opening noHeaderFiles) 4 (-1) { io := volumesDisk 2 } =
        (.ret (), s') ∧
      Linked s'.list.nodes s'.list.headerList [plainOpenedHeader 1, plainOpenedHeader 2] := by
  have two := plainRun_cons (show 1 ≤ (1 : Int) ∧ (1 : Int) ≤ 2 by decide)
    (plainRun_cons (by decide) (plainRun_nil 2))
  obtain ⟨s', run⟩ := @readHeaders_of_run smallLibraries noHeaderFiles 4 (-1) _ _ _ two 4
    { io := volumesDisk 2 } (by decide) rfl
  obtain ⟨all, only, linked⟩ := headers_linked_iff run
  obtain rfl := (only _).1 two
  exact ⟨s', run, linked.2 (Nat.le_refl 2)⟩

/-- Of three headers, the second one is lost. -/
theorem headers_lost_three_volumes :
    ∃ s', readHeaders (smallLibraries.opening noHeaderFiles) 4 (-1) { io := volumesDisk 3 } =
        (.ret (), s') ∧
      HeaderRun false 4 (-1) noHeaderFiles (volumesDisk 3).store.cabinets 1
        [plainOpenedHeader 1, plainOpenedHeader 2, plainOpenedHeader 3] ∧
      ¬ Linked s'.list.nodes s'.list.headerList
        [plainOpenedHeader 1, plainOpenedHeader 2, plainOpenedHeader 3] := by
  have three := plainRun_cons (show 1 ≤ (1 : Int) ∧ (1 : Int) ≤ 3 by decide)
    (plainRun_cons (by decide) (plainRun_cons (by decide) (plainRun_nil 3)))
  obtain ⟨s', run⟩ := @readHeaders_of_run smallLibraries noHeaderFiles 4 (-1) _ _ _ three 4
    { io := volumesDisk 3 } (by decide) rfl
  refine ⟨s', run, three, ?_⟩
  obtain ⟨all, all_run, linked⟩ := readHeaders_run 4 run
  obtain rfl := three.unique all_run
  rw [linked]
  exact mt (HeaderList.linked_foldl_iff _).1 (Nat.not_succ_le_self 2)

end Unshield
