/-
Module: Unshield.Proofs.ListingBounds
Purpose: Which names the helper that lists files can put together in its buffer, whatever file of whatever
  range it comes to.
Trusted boundary: none
Main exports: Listing.Fits, Listing.buildDirname_ne_fault_iff, Listing.StaysInside,
  Listing.stays_inside_iff
-/
import Mathlib.Data.List.TakeWhile
import Unshield.Core.ListFiles
import Unshield.Proofs.ExitStatus

namespace Unshield.Listing

open Procedure

/-! ### dirname -/

/-- What stands in front of the name of the directory. -/
def prefixPart : Option Bytes → Bytes
  | some (byte :: rest) => byte :: rest ++ [backslash]
  | some [] => []
  | none => []

/-- The prefix and the name of the directory are not both empty, and with the backslash between them, the
one behind them unless there is one, and a terminator they fill `dirname` at most. -/
def Fits (namePrefix : Option Bytes) (directory : Bytes) : Prop :=
  let text := prefixPart namePrefix ++ directory
  text ≠ [] ∧ text.length + (if text.getLast? = some backslash then 0 else 1) < dirnameSize

instance (namePrefix : Option Bytes) (directory : Bytes) : Decidable (Fits namePrefix directory) :=
  inferInstanceAs (Decidable (_ ∧ _))

section

variable {block stored : Block} {text directory : Bytes} {namePrefix : Option Bytes}

theorem backslash_clean : 0 ∉ [backslash] := by decide

theorem startDirname_isSome (clean : ∀ text, namePrefix = some text → 0 ∉ text)
    (fits : (prefixPart namePrefix).length < block.size) :
    ∃ stored, startDirname block namePrefix = some stored := by
  match namePrefix, clean with
  | none, _ => exact Block.store_isSome block (Nat.succ_le_of_lt fits)
  | some [], _ => exact Block.store_isSome block (Nat.succ_le_of_lt fits)
  | some (byte :: rest), clean =>
      rw [prefixPart, List.length_append] at fits
      obtain ⟨copied, copy⟩ := Block.strcpy_isSome_iff.2 (Nat.lt_of_le_of_lt (Nat.le_add_right _ _) fits)
      rw [← Block.size_of_strcpy copy] at fits
      obtain ⟨stored, join⟩ := (Block.HoldsString.of_strcpy (clean _ rfl) copy).strcat_isSome_iff.2 fits
      exact ⟨stored, Option.bind_eq_some_iff.2 ⟨copied, copy, join⟩⟩

theorem holdsString_of_startDirname (clean : ∀ text, namePrefix = some text → 0 ∉ text)
    (started : startDirname block namePrefix = some stored) :
    stored.HoldsString (prefixPart namePrefix) ∧ stored.size = block.size := by
  have empty (store : block.strcpy [] = some stored) : stored.HoldsString [] ∧ stored.size = block.size :=
    ⟨.of_strcpy List.not_mem_nil store, Block.size_of_strcpy store⟩
  match namePrefix, clean with
  | none, _ => exact empty started
  | some [], _ => exact empty started
  | some (byte :: rest), clean =>
      obtain ⟨copied, copy, join⟩ := Option.bind_eq_some_iff.1 started
      have holds := Block.HoldsString.of_strcpy (clean _ rfl) copy
      refine ⟨holds.of_strcat backslash_clean join, ?_⟩
      rw [holds.size_of_strcat join, Block.size_of_strcpy copy]

/-- The index of the last character. -/
theorem lastIndex_of_length {length : Nat} (nonempty : length ≠ 0) (small : length < dirnameSize) :
    (UInt64.ofNat length - 1).toNat = length - 1 := by
  rw [dirnameSize] at small
  have value : (UInt64.ofNat length).toNat = length := UInt64.toNat_ofNat_of_lt (by
    show length < 2 ^ 64
    omega)
  rw [UInt64.toNat_sub_of_le, value]
  · rfl
  · rw [UInt64.le_iff_toNat_le, value]
    exact Nat.one_le_iff_ne_zero.2 nonempty

theorem closeDirname_isSome_iff (holds : block.HoldsString text) (size : block.size = dirnameSize) :
    (∃ stored, closeDirname block = some stored) ↔
      text ≠ [] ∧ text.length + (if text.getLast? = some backslash then 0 else 1) < dirnameSize := by
  have inside := holds.length_lt
  rw [size] at inside
  have close : closeDirname block = (block.load (UInt64.ofNat text.length - 1).toNat 1).bind fun last =>
      if last ≠ [backslash] then block.strcat [backslash] else some block := by
    rw [closeDirname, holds.strlen_eq]
    rfl
  rw [close]
  by_cases empty : text = []
  · -- The index wraps around.
    have outside : block.load (2 ^ 64 - 1) 1 = none := by
      rw [Block.load, if_neg]
      rw [size, dirnameSize]
      omega
    rw [empty]
    show (∃ stored, (block.load (2 ^ 64 - 1) 1).bind _ = some stored) ↔ _
    rw [outside]
    constructor
    · rintro ⟨stored, closed⟩
      cases closed
    · exact fun fits => absurd rfl fits.1
  · rw [lastIndex_of_length (mt List.length_eq_zero_iff.1 empty) inside, holds.load_last empty,
      Option.bind_some, List.getLast?_eq_some_getLast empty]
    by_cases closed : text.getLast empty = backslash
    · rw [closed, if_neg (not_not_intro rfl), if_pos rfl]
      exact ⟨fun _ => ⟨empty, inside⟩, fun _ => ⟨block, rfl⟩⟩
    · rw [if_pos (by simpa using closed), if_neg (by simpa using closed), holds.strcat_isSome_iff, size]
      exact ⟨fun fits => ⟨empty, fits⟩, And.right⟩

/-- The string for a prefix and a directory can be put together exactly if it fits. -/
theorem dirname_isSome_iff (clean : ∀ text, namePrefix = some text → 0 ∉ text)
    (directoryClean : 0 ∉ directory) (size : block.size = dirnameSize) :
    (∃ started, startDirname block namePrefix = some started ∧
        ∃ stored, completeDirname started (some directory) = some stored) ↔ Fits namePrefix directory := by
  constructor
  · rintro ⟨started, start, stored, complete⟩
    obtain ⟨holds, same⟩ := holdsString_of_startDirname clean start
    obtain ⟨joined, join, close⟩ := Option.bind_eq_some_iff.1 complete
    rw [← holds.size_of_strcat join] at same
    exact (closeDirname_isSome_iff (holds.of_strcat directoryClean join) (same.trans size)).1 ⟨stored, close⟩
  · intro fits
    have bound : (prefixPart namePrefix).length + directory.length < block.size := by
      rw [← List.length_append, size]
      exact Nat.lt_of_le_of_lt (Nat.le_add_right _ _) fits.2
    obtain ⟨started, start⟩ := startDirname_isSome clean (Nat.lt_of_le_of_lt (Nat.le_add_right _ _) bound)
    obtain ⟨holds, same⟩ := holdsString_of_startDirname clean start
    rw [← same] at bound
    obtain ⟨joined, join⟩ := holds.strcat_isSome_iff.2 bound
    rw [← holds.size_of_strcat join] at same
    obtain ⟨stored, close⟩ :=
      (closeDirname_isSome_iff (holds.of_strcat directoryClean join) (same.trans size)).2 fits
    exact ⟨started, start, stored, Option.bind_eq_some_iff.2 ⟨joined, join, close⟩⟩

end

/-! ### Directories -/

section

variable {σ H : Type} {env : Environment σ H} {archive : Archive} {library library' : Library σ}
  {index : Int} {directory : Bytes} {namePrefix : Option Bytes}

/-- The name of the directory of a file by the header. -/
def headerDirectory (env : Environment σ H) (archive : Archive) (index : Int) : Exit (Option Bytes) := do
  let directory ← answerTo (fileDirectory archive) (descriptorAt archive.header (fun _ => none) index)
  directoryName env.bigEndian archive.header directory

theorem listDirectory_exit (consistent : Consistent env archive.header library) (index : Int) :
    (listDirectory env archive index library).1 = headerDirectory env archive index := by
  have answer : (Calls.fileDirectory archive index library).1 = answerTo (fileDirectory archive) _ :=
    consistent.ask (fun fd fd' search => by rw [search.sameRecord]; rfl) index
  rw [headerDirectory, ← answer]
  show (Proc.bind (Calls.fileDirectory archive index) _ library).1 = _
  rw [Proc.bind]
  rcases Calls.fileDirectory archive index library with ⟨exit, between⟩
  cases exit <;> rfl

theorem clean_of_cString {block : Bytes} {p : Nat} {text : Bytes} (read : cString block p = .ret text) :
    0 ∉ text := by
  rw [cString] at read
  split at read
  · rw [← Exit.ret.inj read]
    intro mem
    have nonzero := List.mem_takeWhile_imp (p := (· ≠ (0 : UInt8))) mem
    exact absurd rfl (of_decide_eq_true nonzero)
  · cases read

theorem clean_of_getUtf8String {bigEndian : Bool} {header : Header} {p : Nat} {text : Bytes}
    (read : getUtf8String bigEndian header p = .ret text) : 0 ∉ text := by
  rw [getUtf8String] at read
  split at read
  · obtain ⟨length, -, converted⟩ := Exit.bind_eq_ret_iff.1 read
    obtain ⟨result, -, converted⟩ := Exit.bind_eq_ret_iff.1 converted
    obtain ⟨_, -, text⟩ := Exit.bind_eq_ret_iff.1 converted
    exact clean_of_cString text
  · exact clean_of_cString read

theorem clean_of_headerDirectory (named : headerDirectory env archive index = .ret (some directory)) :
    0 ∉ directory := by
  rw [headerDirectory, Exit.bind_eq_ret_iff] at named
  obtain ⟨number, -, named⟩ := named
  rw [directoryName] at named
  split at named
  · obtain ⟨offset, -, read⟩ := Exit.bind_eq_ret_iff.1 named
    obtain ⟨name, converted, same⟩ := Exit.bind_eq_ret_iff.1 read
    rw [← Option.some.inj (Exit.ret.inj same)]
    exact clean_of_getUtf8String converted
  · cases named

/-- Where the file has a directory, its string is put together in the buffer exactly if it fits. -/
theorem buildDirname_ne_fault_iff (clean : ∀ text, namePrefix = some text → 0 ∉ text)
    (directoryClean : 0 ∉ directory)
    (asked : listDirectory env archive index library = (.ret (some directory), library')) :
    (buildDirname env archive namePrefix index library).1 ≠ .fault ↔ Fits namePrefix directory := by
  have builds := @dirname_isSome_iff { size := dirnameSize, byte := env.garbage } _ _ clean directoryClean rfl
  rw [buildDirname, Proc.access_bind_ne_fault_iff, ← builds]
  refine exists_congr fun started => and_congr_right fun _ => ?_
  rw [Proc.bind_of_ret asked]
  show Exit.ofAccess _ ≠ _ ↔ _
  cases completeDirname started (some directory) <;> simp [Exit.ofAccess]

theorem preserves_listFile (print : Bytes → σ → σ) (namePrefix : Exit (Option Bytes)) (index : Int) :
    Proc.Preserves (Consistent env archive.header) (listFile env archive print namePrefix index) := by
  refine .bind (.ofExit _) fun namePrefix => ?_
  refine .bind (.bind (.ofExit _) fun dirname => ?_) fun dirname => ?_
  · refine .bind (.bind (preserves_ask_consistent _ index) fun directory => .ofExit _) fun directory => ?_
    exact .ofExit _
  · refine .bind (preserves_ask_consistent _ index) fun size => .bind (.ofExit _) fun text => ?_
    refine .bind (preserves_ask_consistent _ index) fun name => ?_
    refine .bind (.modify fun _ holds => ?_) fun _ => .pure _
    exact holds.setIo _

end

/-! ### Runs -/

section

variable {σ H : Type} (env : Environment σ H) (archive : Archive) (settings : Settings)
  (fnmatch : Bytes → Bytes → Bool) (print : Bytes → σ → σ) (namePrefix : Option Bytes)

/-- Whatever turn the loop comes to: if its file is listed and has a directory, no access in building
`dirname` is outside of the buffer. -/
def StaysInside (first last : Int) (start : Program σ) : Prop :=
  ∀ vars program, Proc.Visits (listFilesTurn env archive settings fnmatch print (.ret namePrefix) last)
      (first, 0) start vars program →
    vars.1 ≤ last →
    ∀ library, extractCondition env archive settings fnmatch vars.1 program.library = (.ret true, library) →
    ∀ directory library', listDirectory env archive vars.1 library = (.ret (some directory), library') →
      (buildDirname env archive namePrefix vars.1 library).1 ≠ .fault

variable {env archive settings fnmatch print namePrefix}

/-- The loop comes to indices from `first` on. -/
theorem visited_of_listFilesTurn {namePrefix : Exit (Option Bytes)} {first last : Int} {start : Program σ}
    {vars : Int × Int} {program : Program σ} (consistent : Consistent env archive.header start.library)
    (visits : Proc.Visits (listFilesTurn env archive settings fnmatch print namePrefix last) (first, 0) start
      vars program) : first ≤ vars.1 ∧ Consistent env archive.header program.library := by
  refine @Proc.Visits.holds _ _ _ _ (fun vars program => first ≤ vars.1 ∧ Consistent env archive.header
    program.library) _ _ _ _ ?_ ?_ visits
  · exact ⟨Int.le_refl first, consistent⟩
  · rintro vars program next program' ⟨behind, consistent⟩ run
    rcases helperTurn_eq_ret run with ⟨-, stops, -⟩ | ⟨-, success, processed, same⟩
    · cases stops
    · obtain rfl := Proc.Turn.again.inj same
      refine ⟨by dsimp only; omega, ?_⟩
      exact consistent_of_processFile extractCondition_answers (preserves_listFile print namePrefix) vars.1
        program success program' consistent processed

theorem StaysInside.fits {index : Int} {start : Program σ} {directory : Bytes}
    (inside : StaysInside env archive settings fnmatch print namePrefix index index start)
    (clean : ∀ text, namePrefix = some text → 0 ∉ text)
    (consistent : Consistent env archive.header start.library)
    (selected : isSelected env archive settings fnmatch .extract index = true)
    (named : headerDirectory env archive index = .ret (some directory)) : Fits namePrefix directory := by
  have chosen := Proc.run_eq_ret (extractCondition_selects consistent selected)
  have later := (extractCondition_answers index start.library true _ consistent chosen).2
  have asked := Proc.run_eq_ret ((listDirectory_exit later index).trans named)
  have builds := inside (index, 0) start .start (Int.le_refl index) _ chosen directory _ asked
  exact (buildDirname_ne_fault_iff clean (clean_of_headerDirectory named) asked).1 builds

end

/-- In every part of a range, the files are listed within the buffer exactly if what is to be put together
fits for every file of the range that is valid and selected. -/
theorem stays_inside_iff {σ H : Type} {env : Environment σ H} {archive : Archive} {settings : Settings}
    {fnmatch : Bytes → Bytes → Bool} {print : Bytes → σ → σ} {namePrefix : Option Bytes}
    (clean : ∀ text, namePrefix = some text → 0 ∉ text) {start : Program σ}
    (consistent : Consistent env archive.header start.library) (first last : Int) :
    (∀ first' last', first ≤ first' → last' ≤ last →
        StaysInside env archive settings fnmatch print namePrefix first' last' start) ↔
      ∀ index, first ≤ index → index ≤ last →
        isSelected env archive settings fnmatch .extract index = true →
        ∀ directory, headerDirectory env archive index = .ret (some directory) →
          Fits namePrefix directory := by
  constructor
  · intro inside index behind before selected directory named
    exact (inside index index behind before).fits clean consistent selected named
  · intro fits first' last' behind before vars program visits going library chosen directory library' asked
    obtain ⟨from_first, consistent⟩ := visited_of_listFilesTurn consistent visits
    obtain ⟨selected, later⟩ := extractCondition_answers vars.1 program.library true library consistent chosen
    have named : headerDirectory env archive vars.1 = .ret (some directory) := by
      rw [← listDirectory_exit later vars.1, asked]
    apply (buildDirname_ne_fault_iff clean (clean_of_headerDirectory named) asked).2
    exact fits vars.1 (by omega) (by omega) selected.symm directory named

/-! ### A file in the top directory -/

/-- The names on the command line are not asked for. -/
def listSettings : Settings := { outputDirectory := smallPath }

/-- The cabinet is opened and its files are about to be listed. -/
def listStart : Program World := { library := freshLibrary (rootWorld fun _ => none) }

/-- The name of a group that leaves no room behind it in the buffer. -/
def longName : Bytes := List.replicate 4095 0x67

theorem consistent_listStart :
    Consistent smallLibraries.onWorld validArchive.header listStart.library :=
  consistent_of_opened rfl

theorem headerDirectory_validArchive :
    headerDirectory smallLibraries.onWorld validArchive 0 = .ret (some []) := by decide +kernel

theorem isSelected_validArchive :
    isSelected smallLibraries.onWorld validArchive listSettings (fun _ _ => true) .extract 0 = true := by
  decide +kernel

/-- The directory of the only file has no name, but the group has one. -/
theorem stays_inside_named_group :
    StaysInside smallLibraries.onWorld validArchive listSettings (fun _ _ => true) (fun _ world => world)
      (some [0x67]) 0 0 listStart := by
  refine (stays_inside_iff (by simp) consistent_listStart 0 0).2 ?_ 0 0 (Int.le_refl 0) (Int.le_refl 0)
  intro index behind before _ directory named
  obtain rfl : index = 0 := by omega
  rw [headerDirectory_validArchive] at named
  obtain rfl := Option.some.inj (Exit.ret.inj named)
  decide

/-- Without a name for the group the character in front of the buffer is looked at, and a long name goes
past its end. -/
theorem leaves_buffer :
    ¬ StaysInside smallLibraries.onWorld validArchive listSettings (fun _ _ => true) (fun _ world => world)
        (some []) 0 0 listStart ∧
      ¬ StaysInside smallLibraries.onWorld validArchive listSettings (fun _ _ => true) (fun _ world => world)
        (some longName) 0 0 listStart := by
  constructor
  · intro inside
    have fits := inside.fits (by simp) consistent_listStart isSelected_validArchive
      headerDirectory_validArchive
    exact fits.1 rfl
  · intro inside
    have clean : ∀ text, some longName = some text → 0 ∉ text := by
      intro text same mem
      rw [← Option.some.inj same] at mem
      exact absurd (List.eq_of_mem_replicate mem) (by decide)
    have fits := inside.fits clean consistent_listStart isSelected_validArchive headerDirectory_validArchive
    have length : (prefixPart (some longName) ++ []).length = dirnameSize := by
      rw [List.append_nil, longName, List.replicate_succ, prefixPart, ← List.replicate_succ,
        List.length_append, List.length_replicate]
      rfl
    have bound := Nat.lt_of_le_of_lt (Nat.le_add_right _ _) fits.2
    rw [length] at bound
    exact Nat.lt_irrefl _ bound

end Unshield.Listing
