/-
Module: Unshield.Proofs.DirectorySteps
Purpose: Making sure that a directory exists is making every directory on the way to it that is
  missing, up to the first one that cannot be made.
Trusted boundary: none
Main exports: World.makeWay, World.made, World.isDirectory_makeWay, makeDirectoryTurn_cases, StandsAt,
  makeSureDirectoryExists_run
-/
import Unshield.Core.ExtractFile

namespace Unshield

open Procedure
open Paths (Step steps stepOf)

namespace World

/-! ### The way to a directory -/

/-- The directories on a way that are missing, up to the first one that cannot be made. -/
def made (world : World) : Place → List (Step Bytes) → List Place
  | _, [] => []
  | here, .stay :: path => made world here path
  | here, .up :: path => made world here.dropLast path
  | here, .down name :: path =>
      if world.tree.isDirectory (here ++ [name]) = true then made world (here ++ [name]) path
      else if world.taken (here ++ [name]) = true ∨ world.mayCreate (here ++ [name]) = false then []
      else (here ++ [name]) :: made world (here ++ [name]) path

/-- The world once the missing directories are made. -/
def makeWay : World → Place → List (Step Bytes) → World
  | world, _, [] => world
  | world, here, .stay :: path => makeWay world here path
  | world, here, .up :: path => makeWay world here.dropLast path
  | world, here, .down name :: path =>
      if world.tree.isDirectory (here ++ [name]) = true then makeWay world (here ++ [name]) path
      else if world.taken (here ++ [name]) = true ∨ world.mayCreate (here ++ [name]) = false then world
      else if inside : world.tree.isDirectory (here ++ [name]).dropLast = true then
        makeWay (world.addDirectory (here ++ [name]) inside) (here ++ [name]) path
      else world

/-- Worlds that differ in their directories alone. -/
structure SameFiles (world world' : World) : Prop where
  disk : world'.disk = world.disk
  cwd : world'.cwd = world.cwd
  mayCreate : world'.mayCreate = world.mayCreate
  mayRemove : world'.mayRemove = world.mayRemove
  written : world'.written = world.written

theorem SameFiles.trans {one two three : World} (first : SameFiles one two)
    (second : SameFiles two three) : SameFiles one three :=
  ⟨second.disk.trans first.disk, second.cwd.trans first.cwd, second.mayCreate.trans first.mayCreate,
    second.mayRemove.trans first.mayRemove, second.written.trans first.written⟩

theorem sameFiles_makeWay (path : List (Step Bytes)) :
    ∀ (world : World) (here : Place), SameFiles world (makeWay world here path) := by
  induction path with
  | nil => exact fun world here => ⟨rfl, rfl, rfl, rfl, rfl⟩
  | cons step path ih =>
      intro world here
      cases step with
      | stay => exact ih world here
      | up => exact ih world here.dropLast
      | down name =>
          rw [makeWay]
          split
          · exact ih world _
          · split
            · exact ⟨rfl, rfl, rfl, rfl, rfl⟩
            · split
              · rename_i inside
                have added : SameFiles world (world.addDirectory (here ++ [name]) inside) :=
                  ⟨rfl, rfl, rfl, rfl, rfl⟩
                exact added.trans (ih _ _)
              · exact ⟨rfl, rfl, rfl, rfl, rfl⟩

theorem fileAt_of_sameFiles {world world' : World} (same : SameFiles world world') (place : Place) :
    world'.fileAt place = world.fileAt place := by
  rw [fileAt, same.disk]
  rfl

theorem start_of_sameFiles {world world' : World} (same : SameFiles world world') (path : Bytes) :
    world'.start path = world.start path := by
  rw [start, start, same.cwd]

theorem isDirectory_addDirectory {world : World} {place other : Place}
    {inside : world.tree.isDirectory place.dropLast = true} :
    (world.addDirectory place inside).tree.isDirectory other = true ↔
      other = place ∨ world.tree.isDirectory other = true :=
  Paths.Tree.isDirectory_insert inside

/-- `after` has the directories of `world` and some that `world` could make. -/
structure Extends (world after : World) : Prop where
  same : SameFiles world after
  more : ∀ place, world.tree.isDirectory place = true → after.tree.isDirectory place = true
  less : ∀ place, after.tree.isDirectory place = true → world.tree.isDirectory place = true ∨
    world.taken place = false ∧ world.mayCreate place = true

/-- There is something in the way to make the directory. -/
abbrev Blocked (world : World) (place : Place) : Prop :=
  world.taken place = true ∨ world.mayCreate place = false

namespace Extends

variable {world after : World} {place : Place}

theorem refl (world : World) : Extends world world where
  same := ⟨rfl, rfl, rfl, rfl, rfl⟩
  more := fun _ old => old
  less := fun _ old => Or.inl old

theorem free_of_not_blocked (free : ¬ Blocked world place) :
    world.taken place = false ∧ world.mayCreate place = true := by
  rw [Blocked, not_or, Bool.not_eq_true, Bool.not_eq_false] at free
  exact free

theorem taken_iff (extension : Extends world after) : after.taken place = true ↔
    after.tree.isDirectory place = true ∨ (world.fileAt place).isSome = true := by
  rw [taken, Bool.or_eq_true, fileAt_of_sameFiles extension.same]

/-- What is not there and cannot be made is not made elsewhere. -/
theorem blocked (extension : Extends world after) (old : ¬ world.tree.isDirectory place = true)
    (blocked : Blocked world place) : ¬ after.tree.isDirectory place = true ∧ Blocked after place := by
  constructor
  · intro there
    rcases extension.less place there with old' | ⟨free, permitted⟩
    · exact old old'
    · rcases blocked with taken | denied
      · rw [free] at taken
        cases taken
      · rw [permitted] at denied
        cases denied
  · rw [Blocked, extension.same.mayCreate]
    refine blocked.imp_left fun taken => ?_
    rw [World.taken, Bool.or_eq_true] at taken
    exact extension.taken_iff.2 (taken.imp_left (extension.more place))

/-- What could be made and is not there can still be made. -/
theorem not_blocked (extension : Extends world after) (free : ¬ Blocked world place)
    (new : ¬ after.tree.isDirectory place = true) : ¬ Blocked after place := by
  rw [Blocked, extension.taken_iff, extension.same.mayCreate]
  rintro ((there | file) | denied)
  · exact new there
  · exact free (Or.inl (by rw [taken, file, Bool.or_true]))
  · exact free (Or.inr denied)

theorem addDirectory (extension : Extends world after) (free : ¬ Blocked world place)
    (inside : after.tree.isDirectory place.dropLast = true) :
    Extends world (after.addDirectory place inside) where
  same := extension.same.trans ⟨rfl, rfl, rfl, rfl, rfl⟩
  more := fun other old => isDirectory_addDirectory.2 (Or.inr (extension.more other old))
  less := by
    intro other there
    rcases isDirectory_addDirectory.1 there with rfl | before
    · exact Or.inr (free_of_not_blocked free)
    · exact extension.less other before

end Extends

/-- What is made counts with what is there already. -/
theorem isDirectory_makeWay_of_extended (path : List (Step Bytes)) :
    ∀ (world after : World) (here : Place), Extends world after →
      after.tree.isDirectory here = true →
      ∀ place, (makeWay after here path).tree.isDirectory place = true ↔
        after.tree.isDirectory place = true ∨ place ∈ world.made here path := by
  induction path with
  | nil =>
      intro world after here _ _ place
      exact ⟨Or.inl, fun either => either.elim id fun nothing => nomatch nothing⟩
  | cons step path ih =>
      intro world after here extension there place
      cases step with
      | stay => exact ih world after here extension there place
      | up => exact ih world after here.dropLast extension (Paths.Tree.isDirectory_dropLast there) place
      | down name =>
          rw [makeWay, made]
          by_cases old : world.tree.isDirectory (here ++ [name]) = true
          · have old' := extension.more _ old
            rw [if_pos old, if_pos old']
            exact ih world after (here ++ [name]) extension old' place
          rw [if_neg old]
          by_cases blocked : Blocked world (here ++ [name])
          · obtain ⟨absent, blocked'⟩ := extension.blocked old blocked
            rw [if_neg absent, if_pos blocked', if_pos blocked]
            exact ⟨Or.inl, fun either => either.elim id fun nothing => nomatch nothing⟩
          rw [if_neg blocked]
          by_cases new : after.tree.isDirectory (here ++ [name]) = true
          · rw [if_pos new, ih world after (here ++ [name]) extension new place, List.mem_cons]
            constructor
            · rintro (there' | later)
              · exact Or.inl there'
              · exact Or.inr (Or.inr later)
            · rintro (there' | rfl | later)
              · exact Or.inl there'
              · exact Or.inl new
              · exact Or.inr later
          · have inside : after.tree.isDirectory (here ++ [name]).dropLast = true := by
              rw [List.dropLast_concat]
              exact there
            rw [if_neg new, if_neg (extension.not_blocked blocked new), dif_pos inside,
              ih world _ (here ++ [name]) (extension.addDirectory blocked inside)
                (isDirectory_addDirectory.2 (Or.inl rfl)) place,
              isDirectory_addDirectory, List.mem_cons, or_assoc, or_left_comm]

/-- The directories afterwards are those before and those that are made. -/
theorem isDirectory_makeWay (world : World) {here : Place} (path : List (Step Bytes))
    (there : world.tree.isDirectory here = true) (place : Place) :
    (makeWay world here path).tree.isDirectory place = true ↔
      world.tree.isDirectory place = true ∨ place ∈ world.made here path :=
  isDirectory_makeWay_of_extended path world world here (Extends.refl world) there place

/-- Nothing is made that is there. -/
theorem not_directory_of_made {world : World} {path : List (Step Bytes)} {place : Place} :
    ∀ {here : Place}, place ∈ world.made here path → ¬ world.tree.isDirectory place = true := by
  induction path with
  | nil =>
      intro here member
      cases member
  | cons step path ih =>
      intro here member
      cases step with
      | stay => exact ih member
      | up => exact ih member
      | down name =>
          rw [made] at member
          split at member
          · exact ih member
          · split at member
            · cases member
            · rename_i absent _
              rcases List.mem_cons.1 member with rfl | later
              · exact absent
              · exact ih later

/-! ### Looking up a path -/

theorem start_take (world : World) (directory : Bytes) {k : Nat} (pos : 0 < k) :
    world.start (directory.take k) = world.start directory := by
  rw [start, start, List.head?_take, if_neg (Nat.pos_iff_ne_zero.1 pos)]

theorem start_directory (world : World) (path : Bytes) :
    world.tree.isDirectory (world.start path) = true := by
  rw [start]
  split
  · exact world.tree.root
  · exact world.cwd_directory

theorem locate_take {world : World} {directory : Bytes} {k : Nat} (pos : 0 < k)
    (nonempty : directory ≠ []) :
    world.locate (directory.take k) =
      world.tree.walk (world.start directory) (steps slash dot (directory.take k)) := by
  have taken : directory.take k ≠ [] := by
    rw [ne_eq, List.take_eq_nil_iff, not_or]
    exact ⟨Nat.pos_iff_ne_zero.1 pos, nonempty⟩
  rw [locate, if_neg taken, start_take world directory pos]

/-- A step into a directory that is there makes nothing. -/
theorem makeWay_of_directory {world : World} {here : Place} {step : Step Bytes}
    (there : world.tree.isDirectory (step.from here) = true) (path : List (Step Bytes)) :
    world.makeWay here (step :: path) = world.makeWay (step.from here) path := by
  cases step with
  | stay => rfl
  | up => rfl
  | down name =>
      rw [Step.from] at there
      rw [makeWay, if_pos there]
      rfl

theorem stat_of_locate {world : World} {path : Bytes} {place : Place}
    (located : world.locate path = some place) : system.stat path world = world.taken place := by
  show stat path world = _
  rw [stat, located]

theorem stat_of_lost {world : World} {path : Bytes} (lost : world.locate path = none) :
    system.stat path world = false := by
  show stat path world = _
  rw [stat, lost]

theorem mkdir_of_free {world : World} {path : Bytes} {place : Place}
    (located : world.locate path = some place) (inside : world.tree.isDirectory place.dropLast = true)
    (free : world.taken place = false) (permitted : world.mayCreate place = true) :
    system.mkdir path world = (true, world.addDirectory place inside) := by
  show mkdir path world = _
  rw [mkdir, located]
  simp only
  rw [dif_pos inside, if_pos ⟨free, permitted⟩]

theorem mkdir_of_denied {world : World} {path : Bytes} {place : Place}
    (located : world.locate path = some place) (denied : world.mayCreate place = false) :
    system.mkdir path world = (false, world) := by
  show mkdir path world = _
  rw [mkdir, located]
  simp [denied]

theorem mkdir_of_lost {world : World} {path : Bytes} (lost : world.locate path = none) :
    system.mkdir path world = (false, world) := by
  show mkdir path world = _
  rw [mkdir, lost]

end World

/-! ### make_sure_directory_exists -/

section

variable {directory : Bytes}

/-- The steps of a name and of what is behind it. -/
theorem steps_name {name tail : Bytes} (free : slash ∉ name)
    (bounded : tail = [] ∨ ∃ rest, tail = slash :: rest) :
    ∃ path, steps slash dot (name ++ tail) = stepOf dot name :: path ∧
      ∀ (world : World) (here : Place),
        world.makeWay here (steps slash dot tail) = world.makeWay here path := by
  rcases bounded with rfl | ⟨rest, rfl⟩
  · refine ⟨[], ?_, fun world here => rfl⟩
    rw [List.append_nil, Paths.steps_of_not_mem slash dot free]
  · refine ⟨steps slash dot rest, ?_, ?_⟩
    · rw [Paths.steps_append_sep, Paths.steps_of_not_mem slash dot free]
      rfl
    · intro world here
      rw [Paths.steps_cons_sep]
      rfl

theorem drop_takeWhile_bounded (rest : Bytes) :
    rest.dropWhile (· ≠ slash) = [] ∨ ∃ tail, rest.dropWhile (· ≠ slash) = slash :: tail := by
  cases stop : rest.dropWhile (· ≠ slash) with
  | nil => exact Or.inl rfl
  | cons first tail =>
      have head := List.head?_dropWhile_not (fun byte => decide (byte ≠ slash)) rest
      rw [stop] at head
      have is_slash : first = slash := by simpa using head
      exact Or.inr ⟨tail, by rw [is_slash]⟩

/-- What a turn does depends on the first few bytes of what is left. -/
theorem makeDirectoryTurn_cases (directory : Bytes) (p : Nat) :
    (directory.drop p = [] ∧ ∀ {σ : Type} (system : System σ) (s : σ),
      makeDirectoryTurn system directory p s = (.ret (.done true), s)) ∨
    (∃ name rest, directory.drop p = name ++ slash :: rest ∧
      (name = [] ∨ name = [dot] ∨ name = [dot, dot]) ∧ ∀ {σ : Type} (system : System σ) (s : σ),
      makeDirectoryTurn system directory p s = (.ret (.again (p + (name.length + 1))), s)) ∨
    (∃ name tail, directory.drop p = name ++ tail ∧ name ≠ [] ∧ slash ∉ name ∧
      (tail = [] ∨ ∃ rest, tail = slash :: rest) ∧ (tail ≠ [] → name ∉ [[dot], [dot, dot]]) ∧
      ∀ {σ : Type} (system : System σ) (s : σ), makeDirectoryTurn system directory p s =
        makeCurrent system (directory.take (p + name.length)) (p + name.length) s) := by
  have split : ∀ k (front : Bytes), (directory.drop p).take k = front →
      directory.drop p = front ++ (directory.drop p).drop k := by
    rintro k front rfl
    exact (List.take_append_drop k _).symm
  by_cases ended : directory.drop p = []
  · exact Or.inl ⟨ended, fun system s => by rw [makeDirectoryTurn, if_pos ended]; rfl⟩
  by_cases slashed : (directory.drop p).head? = some slash
  · rcases List.head?_eq_some_iff.1 slashed with ⟨rest, parts⟩
    refine Or.inr (Or.inl ⟨[], rest, parts, Or.inl rfl, fun system s => ?_⟩)
    rw [makeDirectoryTurn, if_neg ended, if_pos slashed]
    rfl
  by_cases dotted : (directory.drop p).take 2 = [dot, slash]
  · refine Or.inr (Or.inl ⟨[dot], _, split 2 _ dotted, Or.inr (Or.inl rfl), fun system s => ?_⟩)
    rw [makeDirectoryTurn, if_neg ended, if_neg slashed, if_pos dotted]
    rfl
  by_cases dots : (directory.drop p).take 3 = [dot, dot, slash]
  · refine Or.inr (Or.inl ⟨[dot, dot], _, split 3 _ dots, Or.inr (Or.inr rfl), fun system s => ?_⟩)
    rw [makeDirectoryTurn, if_neg ended, if_neg slashed, if_neg dotted, if_pos dots]
    rfl
  · have parts := (List.takeWhile_append_dropWhile (p := (· ≠ slash)) (l := directory.drop p)).symm
    refine Or.inr (Or.inr ⟨(directory.drop p).takeWhile (· ≠ slash), _, parts, ?_, ?_,
      drop_takeWhile_bounded _, ?_, fun system s => ?_⟩)
    · cases first : directory.drop p with
      | nil => exact absurd first ended
      | cons byte rest =>
          rw [first, List.head?_cons, Option.some.injEq] at slashed
          rw [List.takeWhile_cons, if_pos (by simpa using slashed)]
          exact List.cons_ne_nil _ _
    · intro member
      have none_slash := List.all_eq_true.1 (List.all_takeWhile (p := (· ≠ slash))) slash member
      simp at none_slash
    · -- dots in front of a slash have been dealt with
      intro some_tail
      rcases drop_takeWhile_bounded (directory.drop p) with no_tail | ⟨rest, tail⟩
      · exact absurd no_tail some_tail
      rw [tail] at parts
      rw [List.mem_cons, List.mem_singleton]
      rintro (single | double)
      · rw [single] at parts
        exact dotted (by rw [parts]; rfl)
      · rw [double] at parts
        exact dots (by rw [parts]; rfl)
    · rw [makeDirectoryTurn, if_neg ended, if_neg slashed, if_neg dotted, if_neg dots]

/-- Where no longer prefix of the path can be looked up, nothing is made any more. -/
theorem makeDirectoryLoop_stuck {world : World} {m : Nat}
    (lost : ∀ k, m < k → k ≤ directory.length → world.locate (directory.take k) = none) :
    ∀ (fuel p : Nat), m ≤ p → (directory.drop p).length < fuel →
      ∃ result, Proc.iterate (makeDirectoryTurn World.system directory) fuel p world =
        (.ret result, world) := by
  intro fuel
  induction fuel with
  | zero =>
      intro p _ enough
      cases enough
  | succ fuel ih =>
      intro p behind enough
      rcases makeDirectoryTurn_cases directory p with
        ⟨_, turn⟩ | ⟨name, rest, parts, _, turn⟩ | ⟨name, tail, parts, some_name, _, _, _, turn⟩
      all_goals replace turn := turn World.system world
      · exact ⟨true, Proc.iterate_succ_of_done turn⟩
      · rw [Proc.iterate_succ_of_again turn]
        apply ih
        · omega
        · have length := congrArg List.length parts
          rw [List.length_append, List.length_cons, List.length_drop] at length
          rw [List.length_drop] at enough ⊢
          omega
      · have length := congrArg List.length parts
        have nonempty := List.length_pos_iff.2 some_name
        rw [List.length_append, List.length_drop] at length
        have nowhere := lost (p + name.length) (by omega) (by omega)
        rw [makeCurrent, World.stat_of_lost nowhere, World.mkdir_of_lost nowhere] at turn
        exact ⟨false, Proc.iterate_succ_of_done turn⟩

/-- The loop stands at `p`: behind a slash, in front of one, or at an end. -/
def AtBoundary (directory : Bytes) (p : Nat) : Prop :=
  (directory.take p = [] ∨ ∃ before, directory.take p = before ++ [slash]) ∨
    directory.drop p = [] ∨ ∃ rest, directory.drop p = slash :: rest

theorem take_drop_of_parts {p : Nat} {name tail : Bytes} (parts : directory.drop p = name ++ tail) :
    directory.take (p + name.length) = directory.take p ++ name ∧
      directory.drop (p + name.length) = tail := by
  constructor
  · rw [List.take_add, parts, List.take_left' rfl]
  · rw [← List.drop_drop, parts, List.drop_left' rfl]

theorem nonempty_of_parts {p : Nat} {name tail : Bytes} (parts : directory.drop p = name ++ tail)
    (some_name : name ≠ []) : directory ≠ [] := by
  rintro rfl
  rw [List.drop_nil] at parts
  exact some_name (List.append_eq_nil_iff.1 parts.symm).1

theorem atBoundary_start (directory : Bytes) : AtBoundary directory 0 := Or.inl (Or.inl rfl)

theorem atBoundary_behind {p : Nat} {name tail : Bytes} (parts : directory.drop p = name ++ tail)
    (bounded : tail = [] ∨ ∃ rest, tail = slash :: rest) : AtBoundary directory (p + name.length) := by
  rw [AtBoundary, (take_drop_of_parts parts).2]
  exact Or.inr bounded

/-- A name that the loop stands in front of begins a component. -/
theorem AtBoundary.opens {p : Nat} {name tail : Bytes} (boundary : AtBoundary directory p)
    (parts : directory.drop p = name ++ tail) (some_name : name ≠ []) (free : slash ∉ name) :
    directory.take p = [] ∨ ∃ before, directory.take p = before ++ [slash] := by
  rcases boundary with opens | ended | ⟨rest, slashed⟩
  · exact opens
  · rw [ended] at parts
    exact absurd (List.append_eq_nil_iff.1 parts.symm).1 some_name
  · rw [slashed] at parts
    cases name with
    | nil => exact absurd rfl some_name
    | cons byte name =>
        rw [List.cons_append, List.cons.injEq] at parts
        rw [← parts.1] at free
        exact absurd List.mem_cons_self free

theorem take_drop_behind_slash {p : Nat} {name rest : Bytes}
    (parts : directory.drop p = name ++ slash :: rest) :
    directory.take (p + (name.length + 1)) = directory.take (p + name.length) ++ [slash] ∧
      directory.drop (p + (name.length + 1)) = rest := by
  have parts' : directory.drop p = (name ++ [slash]) ++ rest := by
    rw [parts, List.append_assoc]
    rfl
  have next := take_drop_of_parts parts'
  rw [List.length_append] at next
  rw [(take_drop_of_parts parts).1, List.append_assoc]
  exact next

theorem atBoundary_behind_slash {p : Nat} {name rest : Bytes}
    (parts : directory.drop p = name ++ slash :: rest) :
    AtBoundary directory (p + (name.length + 1)) := by
  rw [AtBoundary, (take_drop_behind_slash parts).1]
  exact Or.inl (Or.inr ⟨_, rfl⟩)

/-- The loop stands at `p`, and what is in front of it leads to the directory `here`. -/
structure StandsAt (directory : Bytes) (world : World) (p : Nat) (here : Place) : Prop where
  boundary : AtBoundary directory p
  walked : world.tree.walk (world.start directory) (steps slash dot (directory.take p)) = some here
  inside : world.tree.isDirectory here = true

theorem standsAt_start (directory : Bytes) (world : World) :
    StandsAt directory world 0 (world.start directory) where
  boundary := atBoundary_start directory
  walked := Paths.Tree.walk_single (World.start_directory world directory) .stay
  inside := World.start_directory world directory

namespace StandsAt

variable {world : World} {p : Nat} {here : Place} {name tail rest : Bytes}

/-- Behind `directory.take p` a name without slash is one more step. -/
theorem walk_name (stands : StandsAt directory world p here) (parts : directory.drop p = name ++ tail)
    (some_name : name ≠ []) (free : slash ∉ name) :
    world.tree.walk (world.start directory) (steps slash dot (directory.take (p + name.length))) =
      some ((stepOf dot name).from here) := by
  rw [(take_drop_of_parts parts).1, Paths.walk_steps_append slash dot
    (stands.boundary.opens parts some_name free) stands.walked free]
  exact Paths.Tree.walk_single stands.inside _

theorem locate_name (stands : StandsAt directory world p here) (parts : directory.drop p = name ++ tail)
    (some_name : name ≠ []) (free : slash ∉ name) :
    world.locate (directory.take (p + name.length)) = some ((stepOf dot name).from here) := by
  rw [World.locate_take (Nat.add_pos_right p (List.length_pos_iff.2 some_name))
    (nonempty_of_parts parts some_name)]
  exact stands.walk_name parts some_name free

/-- The loop goes on in the directory of the name. -/
theorem enter (stands : StandsAt directory world p here) (parts : directory.drop p = name ++ tail)
    (some_name : name ≠ []) (free : slash ∉ name) (bounded : tail = [] ∨ ∃ rest, tail = slash :: rest)
    (there : world.tree.isDirectory ((stepOf dot name).from here) = true) :
    StandsAt directory world (p + name.length) ((stepOf dot name).from here) where
  boundary := atBoundary_behind parts bounded
  walked := stands.walk_name parts some_name free
  inside := there

/-- A slash, with nothing or with dots before it, is a step that makes nothing. -/
theorem skip (stands : StandsAt directory world p here) (parts : directory.drop p = name ++ slash :: rest)
    (dots : name = [] ∨ name = [dot] ∨ name = [dot, dot]) :
    ∃ lands, StandsAt directory world (p + (name.length + 1)) lands ∧
      ∀ path, world.makeWay here (steps slash dot name ++ path) = world.makeWay lands path := by
  have walks : ∃ lands, world.tree.walk (world.start directory)
        (steps slash dot (directory.take (p + name.length))) = some lands ∧
      world.tree.isDirectory lands = true ∧
      ∀ path, world.makeWay here (steps slash dot name ++ path) = world.makeWay lands path := by
    rcases dots with rfl | rfl | rfl
    · exact ⟨here, stands.walked, stands.inside, fun path => rfl⟩
    · exact ⟨here, stands.walk_name parts (List.cons_ne_nil _ _) (by decide), stands.inside,
        fun path => rfl⟩
    · exact ⟨here.dropLast, stands.walk_name parts (List.cons_ne_nil _ _) (by decide),
        Paths.Tree.isDirectory_dropLast stands.inside, fun path => rfl⟩
  obtain ⟨lands, walked, inside, ways⟩ := walks
  refine ⟨lands, ⟨atBoundary_behind_slash parts, ?_, inside⟩, ways⟩
  rw [(take_drop_behind_slash parts).1, Paths.steps_append_sep, Paths.Tree.walk_append, walked]
  exact Paths.Tree.walk_single inside .stay

/-- Where there is no directory, the name is one that can be entered. -/
theorem down_of_missing (stands : StandsAt directory world p here)
    (missing : ¬ world.tree.isDirectory ((stepOf dot name).from here) = true) :
    ∃ entry, stepOf dot name = .down entry := by
  cases step : stepOf dot name with
  | stay =>
      rw [step] at missing
      exact absurd stands.inside missing
  | up =>
      rw [step] at missing
      exact absurd (Paths.Tree.isDirectory_dropLast stands.inside) missing
  | down entry => exact ⟨entry, rfl⟩

/-- One directory more does not matter. -/
theorem addDirectory (stands : StandsAt directory world p here) {place : Place}
    (room : world.tree.isDirectory place.dropLast = true) :
    StandsAt directory (world.addDirectory place room) p here where
  boundary := stands.boundary
  walked :=
    Paths.Tree.walk_mono (fun _ old => World.isDirectory_addDirectory.2 (Or.inr old)) stands.walked
  inside := World.isDirectory_addDirectory.2 (Or.inr stands.inside)

end StandsAt

/-- There is no way through a file. -/
theorem lost_behind_file {world : World} {m : Nat} {place : Place} {tail : Bytes}
    (nonempty : directory ≠ [])
    (walked : world.tree.walk (world.start directory) (steps slash dot (directory.take m)) = some place)
    (file : ¬ world.tree.isDirectory place = true)
    (bounded : tail = [] ∨ ∃ rest, tail = slash :: rest)
    (next : directory.drop m = tail) :
    ∀ k, m < k → k ≤ directory.length → world.locate (directory.take k) = none := by
  intro k behind within
  rw [World.locate_take (Nat.zero_lt_of_lt behind) nonempty]
  obtain ⟨more, rfl⟩ := Nat.exists_eq_add_of_lt behind
  rw [Nat.add_assoc, List.take_add, next]
  rcases bounded with rfl | ⟨rest, rfl⟩
  · have length := congrArg List.length next
    rw [List.length_drop, List.length_nil] at length
    omega
  · rw [List.take_succ_cons, Paths.steps_append_sep, Paths.Tree.walk_append, walked, Option.bind_some]
    cases path : steps slash dot (rest.take more) with
    | nil =>
        rw [steps, List.map_eq_nil_iff] at path
        exact absurd path (List.splitOn_ne_nil _ _)
    | cons step path => exact Paths.Tree.walk_cons_of_not file

/-- A turn at a name: the directory is there, a file is in the way, the directory may not be made, or it
is made. -/
theorem StandsAt.makeCurrent_cases {world : World} {p : Nat} {here : Place} {name tail : Bytes}
    (stands : StandsAt directory world p here) (parts : directory.drop p = name ++ tail)
    (some_name : name ≠ []) (free : slash ∉ name) :
    (world.tree.isDirectory ((stepOf dot name).from here) = true ∧
      makeCurrent World.system (directory.take (p + name.length)) (p + name.length) world =
        (.ret (.again (p + name.length)), world)) ∨
    ∃ entry, stepOf dot name = .down entry ∧ ¬ world.tree.isDirectory (here ++ [entry]) = true ∧
      ((world.taken (here ++ [entry]) = true ∧
          makeCurrent World.system (directory.take (p + name.length)) (p + name.length) world =
            (.ret (.again (p + name.length)), world)) ∨
        (world.mayCreate (here ++ [entry]) = false ∧
          makeCurrent World.system (directory.take (p + name.length)) (p + name.length) world =
            (.ret (.done false), world)) ∨
        (¬ world.Blocked (here ++ [entry]) ∧
          ∃ inside : world.tree.isDirectory (here ++ [entry]).dropLast = true,
            makeCurrent World.system (directory.take (p + name.length)) (p + name.length) world =
              (.ret (.again (p + name.length)), world.addDirectory (here ++ [entry]) inside))) := by
  have located := stands.locate_name parts some_name free
  rw [makeCurrent, World.stat_of_locate located]
  by_cases there : world.tree.isDirectory ((stepOf dot name).from here) = true
  · refine Or.inl ⟨there, ?_⟩
    rw [World.taken, there]
    rfl
  obtain ⟨entry, enters⟩ := stands.down_of_missing there
  rw [enters, Step.from] at there located ⊢
  refine Or.inr ⟨entry, rfl, there, ?_⟩
  by_cases taken : world.taken (here ++ [entry]) = true
  · exact Or.inl ⟨taken, if_pos taken⟩
  rw [if_neg taken]
  cases permitted : world.mayCreate (here ++ [entry]) with
  | false =>
      rw [World.mkdir_of_denied located permitted]
      exact Or.inr (Or.inl ⟨rfl, rfl⟩)
  | true =>
      have inside : world.tree.isDirectory (here ++ [entry]).dropLast = true := by
        rw [List.dropLast_concat]
        exact stands.inside
      rw [World.mkdir_of_free located inside (Bool.eq_false_iff.2 taken) permitted]
      refine Or.inr (Or.inr ⟨?_, inside, rfl⟩)
      rw [World.Blocked, not_or, permitted]
      exact ⟨taken, nofun⟩

/-- The loop from `p` on makes what is missing on the way from `here`. -/
theorem makeDirectoryLoop_run :
    ∀ (fuel p : Nat) (world : World) (here : Place), (directory.drop p).length < fuel →
      StandsAt directory world p here →
      ∃ result, Proc.iterate (makeDirectoryTurn World.system directory) fuel p world =
        (.ret result, world.makeWay here (steps slash dot (directory.drop p))) := by
  intro fuel
  induction fuel with
  | zero =>
      intro p world here enough
      cases enough
  | succ fuel ih =>
      intro p world here enough stands
      rcases makeDirectoryTurn_cases directory p with
        ⟨ended, turn⟩ | ⟨name, rest, parts, dots, turn⟩ |
        ⟨name, tail, parts, some_name, free, bounded, _, turn⟩
      all_goals replace turn := turn World.system world
      · rw [ended]
        exact ⟨true, Proc.iterate_succ_of_done turn⟩
      · -- a slash, with nothing or with dots before it
        obtain ⟨lands, later, skip⟩ := stands.skip parts dots
        have next := (take_drop_behind_slash parts).2
        rw [Proc.iterate_succ_of_again turn, parts, Paths.steps_append_sep, skip, ← next]
        apply ih _ world lands _ later
        rw [parts, List.length_append, List.length_cons] at enough
        rw [next]
        omega
      · -- a name: its directory exists, or is made, or nothing more is made
        rcases steps_name free bounded with ⟨path, steps_eq, behind⟩
        have next := (take_drop_of_parts parts).2
        have shorter : (directory.drop (p + name.length)).length < fuel := by
          have some_bytes := List.length_pos_iff.2 some_name
          rw [parts, List.length_append] at enough
          rw [next]
          omega
        have entering := fun world stands => @StandsAt.enter directory world p here name tail stands
          parts some_name free bounded
        rw [parts, steps_eq]
        rcases stands.makeCurrent_cases parts some_name free with ⟨there, current⟩ |
          ⟨entry, enters, missing, outcomes⟩
        · rw [Proc.iterate_succ_of_again (turn.trans current), World.makeWay_of_directory there, ← behind,
            ← next]
          exact ih _ world _ shorter (entering world stands there)
        have walked := stands.walk_name parts some_name free
        rw [enters, Step.from] at entering walked
        rw [enters, World.makeWay, if_neg missing]
        rcases outcomes with ⟨taken, current⟩ | ⟨denied, current⟩ | ⟨unblocked, inside, current⟩
        · have lost := lost_behind_file (nonempty_of_parts parts some_name) walked missing bounded next
          rw [Proc.iterate_succ_of_again (turn.trans current), if_pos (Or.inl taken)]
          exact makeDirectoryLoop_stuck lost fuel _ (Nat.le_refl _) shorter
        · rw [if_pos (Or.inr denied)]
          exact ⟨false, Proc.iterate_succ_of_done (turn.trans current)⟩
        · rw [Proc.iterate_succ_of_again (turn.trans current), if_neg unblocked, dif_pos inside, ← behind,
            ← next]
          apply ih _ (world.addDirectory (here ++ [entry]) inside) _ shorter
          exact entering _ (stands.addDirectory inside) (World.isDirectory_addDirectory.2 (Or.inl rfl))

/-- `make_sure_directory_exists` makes the directories that are missing on the way, and nothing else. -/
theorem makeSureDirectoryExists_run (directory : Bytes) (world : World) :
    ∃ result, makeSureDirectoryExists World.system directory world =
      (.ret result, world.makeWay (world.start directory) (steps slash dot directory)) :=
  makeDirectoryLoop_run (directory.length + 1) 0 world (world.start directory) (Nat.lt_succ_self _)
    (standsAt_start directory world)

end

end Unshield
