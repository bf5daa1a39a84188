/-
Module: Unshield.Proofs.DirectoryCreation
Purpose: Which directories are tried on the way to a directory, in which order, and that all of it is there
  in the end if only directories are in the way.
Trusted boundary: none
Main exports: System.noting, lastComponent, CreationPoint, Creations, OnlyDirectories, Creates,
  makeSureDirectoryExists_tries, makeSureDirectoryExists_creates
-/
import Unshield.Proofs.ExtractionPath

namespace Unshield

open Procedure
open Paths (Step steps stepOf)

/-! ### The paths that are tried -/

/-- The system calls with a note of each path that `mkdir` was called for. -/
def System.noting {σ : Type} (system : System σ) : System (σ × List Bytes) where
  stat := fun path s => system.stat path s.1
  mkdir := fun path s =>
    let made := system.mkdir path s.1
    (made.1, (made.2, s.2 ++ [path]))
  unlink := fun path s => (system.unlink path s.1, s.2)
  realpath := fun path s => system.realpath path s.1

/-- What stands behind the last slash of a path. -/
def lastComponent (path : Bytes) : Bytes := ((path.splitOn slash).getLast?).getD []

/-- A prefix of the string that a directory can be made for: it ends in front of a slash or with the
string, and dots in front of a slash are none. -/
structure CreationPoint (directory : Bytes) (length : Nat) : Prop where
  pos : 0 < length
  within : length ≤ directory.length
  ends : length = directory.length ∨ directory[length]? = some slash
  not_dots : directory[length]? = some slash →
    lastComponent (directory.take length) ∉ [[dot], [dot, dot]]

/-- The lengths of the prefixes that are tried, one after the other. -/
structure Creations (directory : Bytes) (lengths : List Nat) : Prop where
  increasing : lengths.Pairwise (· < ·)
  points : ∀ length ∈ lengths, CreationPoint directory length

section

variable {σ : Type} {directory : Bytes} {p : Nat} {name tail : Bytes}

theorem length_of_parts (parts : directory.drop p = name ++ tail) (some_name : name ≠ []) :
    p + name.length + tail.length = directory.length := by
  have length := congrArg List.length parts
  have some_bytes := List.length_pos_iff.2 some_name
  rw [List.length_drop, List.length_append] at length
  omega

theorem lastComponent_of_free {front : Bytes} (opens : front = [] ∨ ∃ before, front = before ++ [slash])
    (free : slash ∉ name) : lastComponent (front ++ name) = name := by
  rw [lastComponent]
  rcases opens with rfl | ⟨before, rfl⟩
  · rw [List.nil_append, List.splitOn_eq_singleton free]
    rfl
  · rw [List.append_assoc, List.singleton_append, List.splitOn_append_cons_self,
      List.splitOn_eq_singleton free, List.getLast?_concat]
    rfl

/-- Where the loop has come to a name, the prefix with the name is one to be made. -/
theorem creationPoint_of_name (boundary : AtBoundary directory p) (parts : directory.drop p = name ++ tail)
    (some_name : name ≠ []) (free : slash ∉ name) (bounded : tail = [] ∨ ∃ rest, tail = slash :: rest)
    (no_dots : tail ≠ [] → name ∉ [[dot], [dot, dot]]) :
    CreationPoint directory (p + name.length) where
  pos := Nat.add_pos_right p (List.length_pos_iff.2 some_name)
  within := Nat.le.intro (length_of_parts parts some_name)
  ends := by
    have next := (take_drop_of_parts parts).2
    rcases bounded with rfl | ⟨rest, rfl⟩
    · exact Or.inl (length_of_parts parts some_name)
    · refine Or.inr ?_
      rw [← List.head?_drop, next]
      rfl
  not_dots := by
    intro before_slash
    have next := (take_drop_of_parts parts).2
    rw [(take_drop_of_parts parts).1,
      lastComponent_of_free (boundary.opens parts some_name free) free]
    apply no_dots
    rintro rfl
    rw [← List.head?_drop, next] at before_slash
    cases before_slash

/-- A prefix longer than those before. -/
theorem Creations.concat {lengths : List Nat} {length : Nat} (creations : Creations directory lengths)
    (behind : ∀ earlier ∈ lengths, earlier < length) (point : CreationPoint directory length) :
    Creations directory (lengths ++ [length]) where
  increasing := by
    rw [List.pairwise_append]
    refine ⟨creations.increasing, List.pairwise_singleton _ _, ?_⟩
    intro earlier member next is_next
    rw [List.mem_singleton.1 is_next]
    exact behind earlier member
  points := by
    intro other member
    rcases List.mem_append.1 member with old | new
    · exact creations.points other old
    · rw [List.mem_singleton.1 new]
      exact point

/-- Whether the prefix with the name is tried or not, no more than that is noted. -/
theorem Creations.try_name {lengths : List Nat} {more : List Bytes} (creations : Creations directory lengths)
    (behind : ∀ length ∈ lengths, length ≤ p) (some_name : name ≠ [])
    (point : CreationPoint directory (p + name.length))
    (tried : more = [] ∨ more = [directory.take (p + name.length)]) :
    ∃ lengths', lengths.map directory.take ++ more = lengths'.map directory.take ∧
      Creations directory lengths' ∧ ∀ length ∈ lengths', length ≤ p + name.length := by
  have some_bytes := List.length_pos_iff.2 some_name
  rcases tried with rfl | rfl
  · refine ⟨lengths, List.append_nil _, creations, ?_⟩
    intro length member
    exact Nat.le_add_right_of_le (behind length member)
  · refine ⟨lengths ++ [p + name.length], ?_, creations.concat ?_ point, ?_⟩
    · rw [List.map_append]
      rfl
    · intro earlier member
      have before := behind earlier member
      omega
    · intro length member
      rcases List.mem_append.1 member with old | new
      · exact Nat.le_add_right_of_le (behind length old)
      · exact Nat.le_of_eq (List.mem_singleton.1 new)

/-- One path at most is tried in a turn; to note it changes nothing. -/
theorem makeCurrent_noting (system : System σ) (current : Bytes) (next : Nat) (s : σ) (notes : List Bytes) :
    ∃ outcome s' more, makeCurrent system current next s = (.ret outcome, s') ∧
      makeCurrent system.noting current next (s, notes) = (.ret outcome, (s', notes ++ more)) ∧
      (outcome = .again next ∨ outcome = .done false) ∧ (more = [] ∨ more = [current]) := by
  rw [makeCurrent, makeCurrent]
  by_cases there : system.stat current s = true
  · refine ⟨.again next, s, [], if_pos there, ?_, .inl rfl, .inl rfl⟩
    rw [List.append_nil]
    exact if_pos there
  rw [if_neg there, if_neg (show ¬ system.noting.stat current (s, notes) = true from there)]
  by_cases made : (system.mkdir current s).1 = true
  · exact ⟨.again next, (system.mkdir current s).2, [current], if_pos made, if_pos made, .inl rfl,
      .inr rfl⟩
  · exact ⟨.done false, (system.mkdir current s).2, [current], if_neg made, if_neg made, .inr rfl,
      .inr rfl⟩

/-- Whatever the system does, the loop from `p` on ends, having tried longer and longer prefixes; to note
them changes nothing. -/
theorem makeDirectoryLoop_tries (system : System σ) :
    ∀ (fuel p : Nat) (s : σ) (lengths : List Nat), (directory.drop p).length < fuel →
      AtBoundary directory p → Creations directory lengths → (∀ length ∈ lengths, length ≤ p) →
      ∃ result s' lengths',
        Proc.iterate (makeDirectoryTurn system directory) fuel p s = (.ret result, s') ∧
        Proc.iterate (makeDirectoryTurn system.noting directory) fuel p (s, lengths.map directory.take) =
          (.ret result, (s', lengths'.map directory.take)) ∧
        Creations directory lengths' := by
  intro fuel
  induction fuel with
  | zero =>
      intro p s lengths enough
      cases enough
  | succ fuel ih =>
      intro p s lengths enough boundary creations behind
      rcases makeDirectoryTurn_cases directory p with
        ⟨_, turn⟩ | ⟨name, rest, parts, _, turn⟩ |
        ⟨name, tail, parts, some_name, free, bounded, no_dots, turn⟩
      · exact ⟨true, s, lengths, Proc.iterate_succ_of_done (turn _ _), Proc.iterate_succ_of_done (turn _ _),
          creations⟩
      · rw [Proc.iterate_succ_of_again (turn _ _), Proc.iterate_succ_of_again (turn _ _)]
        apply ih _ s lengths _ (atBoundary_behind_slash parts) creations
        · intro length member
          exact Nat.le_add_right_of_le (behind length member)
        · rw [parts, List.length_append, List.length_cons] at enough
          rw [(take_drop_behind_slash parts).2]
          omega
      · have some_bytes := List.length_pos_iff.2 some_name
        have point := creationPoint_of_name boundary parts some_name free bounded no_dots
        have shorter : (directory.drop (p + name.length)).length < fuel := by
          rw [parts, List.length_append] at enough
          rw [(take_drop_of_parts parts).2]
          omega
        obtain ⟨outcome, s', more, plain, noting, outcomes, tried⟩ := makeCurrent_noting system
          (directory.take (p + name.length)) (p + name.length) s (lengths.map directory.take)
        obtain ⟨lengths', same, creations', behind'⟩ := creations.try_name behind some_name point tried
        rw [same] at noting
        have turn_plain := (turn system s).trans plain
        have turn_noting := (turn system.noting (s, lengths.map directory.take)).trans noting
        rcases outcomes with rfl | rfl
        · rw [Proc.iterate_succ_of_again turn_plain, Proc.iterate_succ_of_again turn_noting]
          exact ih _ s' lengths' shorter (atBoundary_behind parts bounded) creations' behind'
        · exact ⟨false, s', lengths', Proc.iterate_succ_of_done turn_plain,
            Proc.iterate_succ_of_done turn_noting, creations'⟩

/-- It ends, and tries longer and longer prefixes of the string. -/
theorem makeSureDirectoryExists_tries (system : System σ) (directory : Bytes) (s : σ) :
    ∃ result s' lengths, makeSureDirectoryExists system directory s = (.ret result, s') ∧
      makeSureDirectoryExists system.noting directory (s, []) =
        (.ret result, (s', lengths.map directory.take)) ∧
      Creations directory lengths :=
  makeDirectoryLoop_tries system (directory.length + 1) 0 s [] (Nat.lt_succ_self _)
    (atBoundary_start directory) ⟨List.Pairwise.nil, fun _ member => absurd member List.not_mem_nil⟩
    fun _ member => absurd member List.not_mem_nil

end

/-! ### Nothing but directories -/

/-- There are only directories, and whatever is missing in a directory can be made there. -/
structure OnlyDirectories (world : World) : Prop where
  no_file : ∀ place, world.fileAt place = none
  may_create : ∀ place, world.mayCreate place = true

/-- What has been made is where the noted paths lead, nothing else. -/
structure Creates (world world' : World) (notes : List Bytes) : Prop where
  same : World.SameFiles world world'
  kept : ∀ place, world.tree.isDirectory place = true → world'.tree.isDirectory place = true
  made : ∀ path ∈ notes, ∃ place, world'.locate path = some place ∧
    world'.tree.isDirectory place = true ∧ ¬ world.tree.isDirectory place = true
  only : ∀ place, world'.tree.isDirectory place = true →
    world.tree.isDirectory place = true ∨ ∃ path ∈ notes, world'.locate path = some place

theorem creates_nothing (world : World) : Creates world world [] where
  same := ⟨rfl, rfl, rfl, rfl, rfl⟩
  kept := fun _ there => there
  made := fun _ member => absurd member List.not_mem_nil
  only := fun _ => Or.inl

section

variable {world between : World} {notes : List Bytes} {path : Bytes} {place : Place}

theorem taken_eq_isDirectory (only : OnlyDirectories world) (same : World.SameFiles world between)
    (place : Place) : between.taken place = between.tree.isDirectory place := by
  rw [World.taken, World.fileAt_of_sameFiles same, only.no_file]
  exact Bool.or_false _

theorem locate_addDirectory {other : Place} (located : between.locate path = some other)
    (room : between.tree.isDirectory place.dropLast = true) :
    (between.addDirectory place room).locate path = some other := by
  rw [World.locate] at located ⊢
  split at located
  · cases located
  · rename_i nonempty
    rw [if_neg nonempty]
    exact Paths.Tree.walk_mono (fun _ old => World.isDirectory_addDirectory.2 (Or.inr old)) located

/-- One directory is made, and its path is noted. -/
theorem Creates.addDirectory (creates : Creates world between notes)
    (located : between.locate path = some place)
    (missing : ¬ between.tree.isDirectory place = true)
    (room : between.tree.isDirectory place.dropLast = true) :
    Creates world (between.addDirectory place room) (notes ++ [path]) where
  same := creates.same.trans ⟨rfl, rfl, rfl, rfl, rfl⟩
  kept := fun other there => World.isDirectory_addDirectory.2 (Or.inr (creates.kept other there))
  made := by
    intro other member
    rcases List.mem_append.1 member with old | new
    · obtain ⟨lands, leads, there, absent⟩ := creates.made other old
      exact ⟨lands, locate_addDirectory leads room, World.isDirectory_addDirectory.2 (Or.inr there), absent⟩
    · rw [List.mem_singleton.1 new]
      exact ⟨place, locate_addDirectory located room, World.isDirectory_addDirectory.2 (Or.inl rfl),
        mt (creates.kept place) missing⟩
  only := by
    intro other there
    rcases World.isDirectory_addDirectory.1 there with rfl | before
    · exact Or.inr ⟨path, List.mem_append_right _ List.mem_cons_self, locate_addDirectory located room⟩
    · refine (creates.only other before).imp_right ?_
      rintro ⟨earlier, member, leads⟩
      exact ⟨earlier, List.mem_append_left _ member, locate_addDirectory leads room⟩

/-- A turn at a name makes its directory unless it is there. -/
theorem makeCurrent_creates (only : OnlyDirectories world) (creates : Creates world between notes)
    {directory name tail : Bytes} {p : Nat} {here : Place} (stands : StandsAt directory between p here)
    (parts : directory.drop p = name ++ tail) (some_name : name ≠ []) (free : slash ∉ name)
    (bounded : tail = [] ∨ ∃ rest, tail = slash :: rest) :
    ∃ after notes' there, makeCurrent World.system.noting (directory.take (p + name.length))
        (p + name.length) (between, notes) = (.ret (.again (p + name.length)), (after, notes')) ∧
      Creates world after notes' ∧ StandsAt directory after (p + name.length) there := by
  have located := stands.locate_name parts some_name free
  have known := taken_eq_isDirectory only creates.same ((stepOf dot name).from here)
  have stat : World.system.noting.stat (directory.take (p + name.length)) (between, notes) =
      between.tree.isDirectory ((stepOf dot name).from here) :=
    (World.stat_of_locate located).trans known
  rw [makeCurrent, stat]
  by_cases exists_already : between.tree.isDirectory ((stepOf dot name).from here) = true
  · rw [if_pos exists_already]
    exact ⟨between, notes, _, rfl, creates, stands.enter parts some_name free bounded exists_already⟩
  · rw [if_neg exists_already]
    obtain ⟨entry, enters⟩ := stands.down_of_missing exists_already
    have room : between.tree.isDirectory ((stepOf dot name).from here).dropLast = true := by
      rw [enters, Step.from, List.dropLast_concat]
      exact stands.inside
    have permitted : between.mayCreate ((stepOf dot name).from here) = true := by
      rw [creates.same.mayCreate]
      exact only.may_create _
    have made := World.mkdir_of_free located room (known.trans (Bool.eq_false_iff.2 exists_already)) permitted
    have mkdir : World.system.noting.mkdir (directory.take (p + name.length)) (between, notes) =
        (true, between.addDirectory _ room, notes ++ [directory.take (p + name.length)]) := by
      dsimp only [System.noting]
      rw [made]
    rw [mkdir]
    refine ⟨_, _, (stepOf dot name).from here, rfl, creates.addDirectory located exists_already room, ?_⟩
    exact (stands.addDirectory room).enter parts some_name free bounded
      (World.isDirectory_addDirectory.2 (Or.inl rfl))

/-- The loop from `p` on makes all of the way, and returns true. -/
theorem makeDirectoryLoop_creates {directory : Bytes} (only : OnlyDirectories world) :
    ∀ (fuel p : Nat) (between : World) (notes : List Bytes) (here : Place),
      (directory.drop p).length < fuel → StandsAt directory between p here → Creates world between notes →
      ∃ after notes' there,
        Proc.iterate (makeDirectoryTurn World.system.noting directory) fuel p (between, notes) =
          (.ret true, (after, notes')) ∧
        Creates world after notes' ∧
        after.tree.walk (after.start directory) (steps slash dot directory) = some there ∧
        after.tree.isDirectory there = true := by
  intro fuel
  induction fuel with
  | zero =>
      intro p between notes here enough
      cases enough
  | succ fuel ih =>
      intro p between notes here enough stands creates
      rcases makeDirectoryTurn_cases directory p with
        ⟨ended, turn⟩ | ⟨name, rest, parts, dots, turn⟩ |
        ⟨name, tail, parts, some_name, free, bounded, _, turn⟩
      · refine ⟨between, notes, here, Proc.iterate_succ_of_done (turn _ _), creates, ?_, stands.inside⟩
        have whole : directory.take p = directory := List.take_of_length_le (List.drop_eq_nil_iff.1 ended)
        rw [← stands.walked, whole]
      · obtain ⟨lands, later, -⟩ := stands.skip parts dots
        rw [Proc.iterate_succ_of_again (turn _ _)]
        apply ih _ between notes lands _ later creates
        rw [parts, List.length_append, List.length_cons] at enough
        rw [(take_drop_behind_slash parts).2]
        omega
      · obtain ⟨after, notes', there, current, creates', later⟩ :=
          makeCurrent_creates only creates stands parts some_name free bounded
        rw [Proc.iterate_succ_of_again ((turn _ _).trans current)]
        apply ih _ after notes' there _ later creates'
        have some_bytes := List.length_pos_iff.2 some_name
        rw [parts, List.length_append] at enough
        rw [(take_drop_of_parts parts).2]
        omega

end

/-- Making sure that a directory exists ends on every system, and tries longer and longer prefixes of the
string, each in front of a slash or the whole of it, and none that has dots in front of a slash.  Where
there are only directories and whatever is missing can be made, it returns true, all of the directory is
there, and nothing is made but what was tried. -/
theorem makeSureDirectoryExists_creates (directory : Bytes) (nonempty : directory ≠ []) :
    (∀ (σ : Type) (system : System σ) (s : σ), ∃ result s' lengths,
      makeSureDirectoryExists system directory s = (.ret result, s') ∧
      makeSureDirectoryExists system.noting directory (s, []) =
        (.ret result, (s', lengths.map directory.take)) ∧
      Creations directory lengths) ∧
    (∀ world : World, OnlyDirectories world → ∃ (world' : World) (lengths : List Nat) (place : Place),
      makeSureDirectoryExists World.system directory world = (.ret true, world') ∧
      makeSureDirectoryExists World.system.noting directory (world, []) =
        (.ret true, (world', lengths.map directory.take)) ∧
      world'.locate directory = some place ∧ world'.tree.isDirectory place = true ∧
      Creates world world' (lengths.map directory.take)) := by
  constructor
  · exact fun σ system s => makeSureDirectoryExists_tries system directory s
  · intro world only
    obtain ⟨after, notes, there, run, creates, walked, inside⟩ :=
      makeDirectoryLoop_creates only (directory.length + 1) 0 world [] (world.start directory)
        (Nat.lt_succ_self _) (standsAt_start directory world) (creates_nothing world)
    obtain ⟨result, world', lengths, plain, noting, -⟩ :=
      makeSureDirectoryExists_tries World.system directory world
    obtain ⟨rfl, rfl, rfl⟩ : true = result ∧ after = world' ∧ notes = lengths.map directory.take := by
      have same := run.symm.trans noting
      rw [Prod.mk.injEq, Exit.ret.injEq, Prod.mk.injEq] at same
      exact same
    refine ⟨after, lengths, there, plain, run, ?_, inside, creates⟩
    rw [World.locate, if_neg nonempty]
    exact walked

/-- `a/../b` -/
def besidePath : Bytes := [0x61, 0x2f, 0x2e, 0x2e, 0x2f, 0x62]

/-- The way to `a/../b` in an empty root. -/
theorem makeSureDirectoryExists_creates_beside :
    ∃ (world' : World) (lengths : List Nat) (place : Place),
      makeSureDirectoryExists World.system besidePath (rootWorld fun _ => none) = (.ret true, world') ∧
        makeSureDirectoryExists World.system.noting besidePath (rootWorld fun _ => none, []) =
          (.ret true, (world', lengths.map besidePath.take)) ∧
        world'.locate besidePath = some place ∧ world'.tree.isDirectory place = true ∧
        Creates (rootWorld fun _ => none) world' (lengths.map besidePath.take) :=
  (makeSureDirectoryExists_creates besidePath (List.cons_ne_nil _ _)).2 _ ⟨fun _ => rfl, fun _ => rfl⟩

end Unshield
