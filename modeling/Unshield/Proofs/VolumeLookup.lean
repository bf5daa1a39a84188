/-
Module: Unshield.Proofs.VolumeLookup
Purpose: The file that is opened for a volume: the first entry of its directory that has the name but for
  the case of letters, and so another one in another order where several have.
Trusted boundary: none
Main exports: listed, firstMatch, fopenForReading_listed, lookup_iff, asciiLower, lookup_depends_on_order
-/
import Unshield.Foundation.Occurrence
import Unshield.Proofs.FilenamePattern

namespace Unshield

open Procedure
open Formatting (Conversions plainConversions)

/-- Directories whose entries are read in the order of a list. -/
def listed {σ : Type} (listing : Bytes → Option (List Bytes)) : Directories σ (List Bytes) where
  opendir path s := (listing path, s)
  readdir
    | [], s => ((none, []), s)
    | name :: rest, s => ((some name, rest), s)
  closedir _ s := s

section

variable (conversions : Conversions) (pathMax : Nat) (filenamePattern : Bytes) (toLower : UInt8 → UInt8)

/-- The first entry that has the name. -/
def firstMatch (entries : List Bytes) (q : Bytes) : Option Bytes :=
  entries.find? fun name => SameButForCase toLower q name

end

section

variable {conversions : Conversions} {pathMax : Nat} {filenamePattern : Bytes} {toLower : UInt8 → UInt8}
  {σ : Type}

theorem firstMatch_cons (name : Bytes) (entries : List Bytes) (q : Bytes) :
    firstMatch toLower (name :: entries) q =
      if SameButForCase toLower q name then some name else firstMatch toLower entries q := by
  by_cases same : SameButForCase toLower q name
  · rw [if_pos same]
    exact List.find?_cons_of_pos (decide_eq_true same)
  · rw [if_neg same]
    exact List.find?_cons_of_neg fun holds => same (of_decide_eq_true holds)

theorem search_listed {listing : Bytes → Option (List Bytes)} {q : Bytes} {entries : List Bytes} {fuel : Nat}
    (enough : entries.length < fuel) (s : σ) :
    ∃ rest, Proc.iterate (searchTurn (listed listing) toLower q) fuel entries s =
      (.ret (firstMatch toLower entries q, rest), s) := by
  induction entries generalizing fuel with
  | nil =>
      obtain ⟨fuel, rfl⟩ := Nat.exists_eq_succ_of_ne_zero (Nat.ne_of_gt enough)
      exact ⟨[], Proc.iterate_succ_of_done rfl⟩
  | cons name entries ih =>
      obtain ⟨fuel, rfl⟩ := Nat.exists_eq_succ_of_ne_zero (Nat.ne_of_gt (Nat.zero_lt_of_lt enough))
      have turn : searchTurn (listed listing) toLower q (name :: entries) s =
          if SameButForCase toLower q name then (.ret (.done (some name, entries)), s)
          else (.ret (.again entries), s) := by
        show (if SameButForCase toLower q name then _ else _ : Proc σ _) s = _
        split <;> rfl
      rw [firstMatch_cons]
      by_cases same : SameButForCase toLower q name
      · rw [if_pos same] at turn ⊢
        exact ⟨entries, Proc.iterate_succ_of_done turn⟩
      · rw [if_neg same] at turn ⊢
        rw [Proc.iterate_succ_of_again turn]
        exact ih (Nat.lt_of_succ_lt_succ enough)

/-- A directory that can be read decides alone what is opened. -/
theorem fopenForReading_listed {H : Type} {filename dirname suffix : Bytes} {index : Int}
    (named : getFilename conversions pathMax filenamePattern index suffix = .ret filename)
    (based : getBaseDirectoryName pathMax filenamePattern = .ret dirname)
    {listing : Bytes → Option (List Bytes)} {entries : List Bytes} (lists : listing dirname = some entries)
    (fopen : Bytes → σ → Option H × σ) {fuel : Nat} (enough : entries.length < fuel) (s : σ) :
    fopenForReading conversions pathMax filenamePattern (listed listing) toLower fopen fuel index suffix s =
      callBack (((firstMatch toLower entries (requestedName filename)).bind (entryPath pathMax dirname)).elim
        (none, ·) fopen) s := by
  obtain ⟨rest, search⟩ := @search_listed toLower σ listing (requestedName filename) entries fuel enough s
  have opened : callBack ((listed listing : Directories σ (List Bytes)).opendir dirname) s =
      (.ret (some entries), s) := by
    rw [← lists]
    rfl
  have path : volumePath conversions pathMax filenamePattern (listed listing) toLower fuel index suffix s =
      (.ret ((firstMatch toLower entries (requestedName filename)).bind (entryPath pathMax dirname),
        some rest), s) := by
    rw [volumePath, named, based, Proc.ofExit_ret_bind_run, Proc.ofExit_ret_bind_run,
      Proc.bind_of_ret opened]
    dsimp only
    rw [Proc.bind_of_ret search]
    cases firstMatch toLower entries (requestedName filename) <;> rfl
  rw [fopenForReading, Proc.bind_of_ret path]
  rfl

theorem same_of_firstMatch {entries : List Bytes} {q name : Bytes}
    (first : firstMatch toLower entries q = some name) : SameButForCase toLower q name :=
  of_decide_eq_true (@List.find?_some _ (fun name => decide (SameButForCase toLower q name)) _ _ first)

/-- Entries with the requested name but for the case of letters are of its length. -/
theorem entryPath_of_same {dirname q name : Bytes} (same : SameButForCase toLower q name)
    (fits : dirname.length + 1 + q.length < pathMax) :
    entryPath pathMax dirname name = some (dirname ++ slash :: name) := by
  have length : q.length = name.length := by
    rw [← List.length_map toLower, same, List.length_map]
  rw [entryPath, if_neg]
  rw [List.length_append, List.length_cons]
  omega

theorem entryPath_of_long {dirname q name : Bytes} (same : SameButForCase toLower q name)
    (long : ¬ dirname.length + 1 + q.length < pathMax) : entryPath pathMax dirname name = none := by
  have length : q.length = name.length := by
    rw [← List.length_map toLower, same, List.length_map]
  rw [entryPath, if_pos]
  rw [List.length_append, List.length_cons]
  omega

/-- The path that is opened does not depend on the order exactly if, where paths are short enough, there is
nothing to choose from. -/
theorem chosen_of_perm_iff {dirname q : Bytes} {entries : List Bytes} :
    (∀ permuted : List Bytes, permuted.Perm entries →
        (firstMatch toLower permuted q).bind (entryPath pathMax dirname) =
          (firstMatch toLower entries q).bind (entryPath pathMax dirname)) ↔
      (dirname.length + 1 + q.length < pathMax → ∀ one ∈ entries, ∀ two ∈ entries,
        SameButForCase toLower q one → SameButForCase toLower q two → one = two) := by
  have find_iff := @Occurrence.find?_of_perm_iff _ (fun name => decide (SameButForCase toLower q name))
    entries
  simp only [decide_eq_true_eq] at find_iff
  by_cases fits : dirname.length + 1 + q.length < pathMax
  · rw [← find_iff]
    have path : ∀ list : List Bytes, (firstMatch toLower list q).bind (entryPath pathMax dirname) =
        (firstMatch toLower list q).map (dirname ++ slash :: ·) := by
      intro list
      cases first : firstMatch toLower list q with
      | none => rfl
      | some name => exact entryPath_of_same (same_of_firstMatch first) fits
    have injective : Function.Injective fun name : Bytes => dirname ++ slash :: name :=
      fun _ _ same => (List.cons.inj (List.append_cancel_left same)).2
    constructor
    · intro same _ permuted perm
      have chosen := same permuted perm
      rw [path, path] at chosen
      exact Option.map_injective injective chosen
    · intro same permuted perm
      exact congrArg (Option.bind · _) (same fits permuted perm)
  · have none : ∀ list : List Bytes, (firstMatch toLower list q).bind (entryPath pathMax dirname) = none := by
      intro list
      cases first : firstMatch toLower list q with
      | none => rfl
      | some name => exact entryPath_of_long (same_of_firstMatch first) fits
    exact ⟨fun _ fits' => absurd fits' fits, fun _ permuted _ => (none permuted).trans (none entries).symm⟩

/-- A file system that gives paths back tells which one was opened. -/
theorem opened_path_injective {one two : Option Bytes}
    (same : (one.elim (none, ·) (fun path s => (some path, s)) ()).1 =
      (two.elim (none, ·) (fun path s => (some path, s)) ()).1) : one = two := by
  cases one <;> cases two <;> exact same

/-- Without a file name or a base directory no directory is looked at. -/
theorem fopenForReading_of_undefined {D D' H : Type} {index : Int} {suffix : Bytes}
    (undefined : ∀ filename dirname,
      ¬ (getFilename conversions pathMax filenamePattern index suffix = .ret filename ∧
        getBaseDirectoryName pathMax filenamePattern = .ret dirname))
    (one : Directories σ D) (two : Directories σ D') (fopen : Bytes → σ → Option H × σ) (fuel : Nat) :
    fopenForReading conversions pathMax filenamePattern one toLower fopen fuel index suffix =
      fopenForReading conversions pathMax filenamePattern two toLower fopen fuel index suffix := by
  funext s
  rw [fopenForReading, fopenForReading, volumePath, volumePath, Proc.bind_assoc, Proc.bind_assoc]
  refine Proc.bind_congr_run fun filename s' named => ?_
  rw [Proc.bind_assoc, Proc.bind_assoc]
  refine Proc.bind_congr_run fun dirname s'' based => ?_
  exact absurd ⟨congrArg Prod.fst named, congrArg Prod.fst based⟩ (undefined filename dirname)

end

section

variable (conversions : Conversions) (pathMax : Nat) (filenamePattern : Bytes) (toLower : UInt8 → UInt8)
  (index : Int) (suffix : Bytes)

/-- With one listing or the other, the same is done whatever the file system does. -/
def OpensAlike (one two : List Bytes) : Prop :=
  ∀ (σ H : Type) (fopen : Bytes → σ → Option H × σ) (fuel : Nat), one.length < fuel → two.length < fuel →
    fopenForReading conversions pathMax filenamePattern (listed fun _ => some one) toLower fopen fuel index
        suffix =
      fopenForReading conversions pathMax filenamePattern (listed fun _ => some two) toLower fopen fuel index
        suffix

/-- The file that is opened is the first one in the directory with the requested name but for the case of
letters.  It is the same for all orders of the entries exactly if there are not two different entries like
that, or the path is too long for any of them; the entry with the name itself is opened if it is the only
one. -/
theorem lookup_iff (entries : List Bytes) :
    (∀ filename dirname, getFilename conversions pathMax filenamePattern index suffix = .ret filename →
      getBaseDirectoryName pathMax filenamePattern = .ret dirname →
      (∀ (σ H : Type) (fopen : Bytes → σ → Option H × σ) (fuel : Nat) (s : σ), entries.length < fuel →
        fopenForReading conversions pathMax filenamePattern (listed fun _ => some entries) toLower fopen fuel
            index suffix s =
          callBack (((firstMatch toLower entries (requestedName filename)).bind
            (entryPath pathMax dirname)).elim (none, ·) fopen) s) ∧
      (requestedName filename ∈ entries →
        (∀ name ∈ entries, SameButForCase toLower (requestedName filename) name →
          name = requestedName filename) →
        firstMatch toLower entries (requestedName filename) = some (requestedName filename))) ∧
    ((∀ permuted : List Bytes, permuted.Perm entries →
        OpensAlike conversions pathMax filenamePattern toLower index suffix permuted entries) ↔
      ∀ filename dirname, getFilename conversions pathMax filenamePattern index suffix = .ret filename →
        getBaseDirectoryName pathMax filenamePattern = .ret dirname →
        dirname.length + 1 + (requestedName filename).length < pathMax →
        ∀ one ∈ entries, ∀ two ∈ entries, SameButForCase toLower (requestedName filename) one →
          SameButForCase toLower (requestedName filename) two → one = two) := by
  refine ⟨fun filename dirname named based => ⟨?_, ?_⟩, ?_, ?_⟩
  · intro σ H fopen fuel s enough
    exact fopenForReading_listed named based rfl fopen enough s
  · intro member only
    cases first : firstMatch toLower entries (requestedName filename) with
    | none =>
        have same : SameButForCase toLower (requestedName filename) (requestedName filename) := rfl
        exact absurd (decide_eq_true same) (List.find?_eq_none.1 first _ member)
    | some name =>
        exact congrArg some (only name (List.mem_of_find?_eq_some first) (same_of_firstMatch first))
  · intro alike filename dirname named based
    refine chosen_of_perm_iff.1 fun permuted perm => ?_
    have length := perm.length_eq
    -- a file system that gives back the path
    have same := alike permuted perm Unit Bytes (fun path s => (some path, s)) (entries.length + 1)
      (by omega) (by omega)
    have opened := fun list few => @fopenForReading_listed conversions pathMax filenamePattern toLower Unit
      Bytes filename dirname suffix index named based (fun _ => some list) list rfl
      (fun path s => (some path, s)) (entries.length + 1) few ()
    have runs := (opened permuted (by omega)).symm.trans
      ((congrFun same ()).trans (opened entries (by omega)))
    exact (opened_path_injective (Exit.ret.inj (congrArg Prod.fst runs)))
  · intro unique permuted perm σ H fopen fuel enough enough'
    by_cases defined : ∃ filename dirname,
        getFilename conversions pathMax filenamePattern index suffix = .ret filename ∧
          getBaseDirectoryName pathMax filenamePattern = .ret dirname
    · obtain ⟨filename, dirname, named, based⟩ := defined
      funext s
      rw [fopenForReading_listed named based rfl fopen enough s,
        fopenForReading_listed named based rfl fopen enough' s,
        chosen_of_perm_iff.2 (unique filename dirname named based) permuted perm]
    · exact fopenForReading_of_undefined
        (fun filename dirname both => defined ⟨filename, dirname, both⟩) _ _ fopen fuel

end

/-- `tolower` in the "C" locale. -/
def asciiLower (byte : UInt8) : UInt8 := if 0x41 ≤ byte ∧ byte ≤ 0x5a then byte + 0x20 else byte

/-- `data1.cab` -/
def lowerCaseName : Bytes := dataStem ++ firstCabinet

/-- `DATA1.CAB` -/
def upperCaseName : Bytes := [0x44, 0x41, 0x54, 0x41, 0x31, dot, 0x43, 0x41, 0x42]

/-- What is opened as the first volume of `data1.cab`, by its path. -/
def openedFrom (entries : List Bytes) : Exit (Option Bytes) × Unit :=
  fopenForReading plainConversions 4096 (createFilenamePattern lowerCaseName) (listed fun _ => some entries)
    asciiLower (fun path s => (some path, s)) 3 1 cabSuffix ()

/-- In a directory with two files whose names differ in case, the first one is opened, also if the other
one has the very name. -/
theorem lookup_depends_on_order :
    [lowerCaseName, upperCaseName].Perm [upperCaseName, lowerCaseName] ∧
      openedFrom [upperCaseName, lowerCaseName] = (.ret (some (dot :: slash :: upperCaseName)), ()) ∧
      openedFrom [lowerCaseName, upperCaseName] = (.ret (some (dot :: slash :: lowerCaseName)), ()) :=
  ⟨.swap _ _ [], by decide, by decide⟩

end Unshield
