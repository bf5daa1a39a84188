/-
Module: Unshield.Foundation.Paths
Purpose: Places in a tree of directories, the steps that a path takes between them, the text of a path,
  and when the text of one place is a prefix of the text of another.
Trusted boundary: none
Main exports: Paths.Step, Paths.lexical, Paths.Tree, Paths.Tree.walk, Paths.steps, Paths.render,
  Paths.render_prefix_iff
-/
import Mathlib.Data.List.Infix
import Mathlib.Data.List.Flatten

namespace Paths

/-! ### Steps

A place is the list of the names that lead to it from the root.
-/

variable {N : Type}

/-- What a component of a path does: nothing, leave a directory, or enter one. -/
inductive Step (N : Type) where
  | stay
  | up
  | down (name : N)
deriving Repr, DecidableEq

/-- Where a step leads; there is nothing above the root. -/
def Step.from (here : List N) : Step N → List N
  | .stay => here
  | .up => here.dropLast
  | .down name => here ++ [name]

/-- Where a path leads if every directory on its way exists. -/
def lexical (here : List N) (path : List (Step N)) : List N := path.foldl Step.from here

/-! ### Trees of directories -/

/-- The directories of a file system.  What holds a directory is a directory. -/
structure Tree (N : Type) where
  isDirectory : List N → Bool
  root : isDirectory [] = true
  parent : ∀ place name, isDirectory (place ++ [name]) = true → isDirectory place = true

namespace Tree

variable (tree : Tree N)

/-- Where a path leads: every step starts in a directory that exists. -/
def walk : List N → List (Step N) → Option (List N)
  | here, [] => some here
  | here, step :: path => if tree.isDirectory here then walk (step.from here) path else none

variable {tree} {here there : List N}

theorem isDirectory_dropLast (directory : tree.isDirectory here = true) :
    tree.isDirectory here.dropLast = true := by
  rcases List.eq_nil_or_concat here with rfl | ⟨front, last, rfl⟩
  · exact directory
  · rw [List.concat_eq_append] at directory ⊢
    rw [List.dropLast_concat]
    exact tree.parent front last directory

theorem walk_append (here : List N) (one two : List (Step N)) :
    tree.walk here (one ++ two) = (tree.walk here one).bind fun there => tree.walk there two := by
  induction one generalizing here with
  | nil => rfl
  | cons step one ih =>
      rw [List.cons_append, walk, walk]
      split
      · exact ih _
      · rfl

/-- The way does not matter to where a path leads, only to whether it does. -/
theorem eq_lexical_of_walk {path : List (Step N)} (h : tree.walk here path = some there) :
    there = lexical here path := by
  induction path generalizing here with
  | nil => exact (Option.some.inj h).symm
  | cons step path ih =>
      rw [walk] at h
      split at h
      · exact ih h
      · cases h

theorem walk_single (directory : tree.isDirectory here = true) (step : Step N) :
    tree.walk here [step] = some (step.from here) := by
  rw [walk, if_pos directory]
  rfl

theorem walk_cons_of_not {step : Step N} {path : List (Step N)}
    (fails : tree.isDirectory here ≠ true) : tree.walk here (step :: path) = none := by
  rw [walk, if_neg fails]

/-- More directories, and no way is lost. -/
theorem walk_mono {tree' : Tree N}
    (more : ∀ place, tree.isDirectory place = true → tree'.isDirectory place = true)
    {path : List (Step N)} (h : tree.walk here path = some there) :
    tree'.walk here path = some there := by
  induction path generalizing here with
  | nil => exact h
  | cons step path ih =>
      rw [walk] at h ⊢
      split at h
      · rename_i directory
        rw [if_pos (more here directory)]
        exact ih h
      · cases h

/-- Behind the start of a path there are the places behind the start of what follows its first step. -/
theorem exists_prefix_cons_iff {step : Step N} {path : List (Step N)} {P : List N → Prop} :
    (∃ front, front <+: step :: path ∧ P (lexical here front)) ↔
      P here ∨ ∃ front, front <+: path ∧ P (lexical (step.from here) front) := by
  constructor
  · rintro ⟨front, within, holds⟩
    cases front with
    | nil => exact Or.inl holds
    | cons first front =>
        rw [List.cons_prefix_cons] at within
        obtain ⟨rfl, within⟩ := within
        exact Or.inr ⟨front, within, holds⟩
  · rintro (holds | ⟨front, within, holds⟩)
    · exact ⟨[], List.nil_prefix, holds⟩
    · exact ⟨step :: front, List.cons_prefix_cons.2 ⟨rfl, within⟩, holds⟩

/-- A path leads somewhere if everything on its way is a directory. -/
theorem walk_of_directories {path : List (Step N)}
    (directories : ∀ front, front <+: path → tree.isDirectory (lexical here front) = true) :
    tree.walk here path = some (lexical here path) := by
  induction path generalizing here with
  | nil => rfl
  | cons step path ih =>
      have there : tree.isDirectory here = true := directories [] List.nil_prefix
      rw [walk, if_pos there]
      apply ih
      intro front within
      exact directories (step :: front) (List.cons_prefix_cons.2 ⟨rfl, within⟩)

variable [DecidableEq N]

/-- A new directory in an old one. -/
def insert (tree : Tree N) (place : List N) (inside : tree.isDirectory place.dropLast = true) :
    Tree N where
  isDirectory := fun other => decide (other = place) || tree.isDirectory other
  root := by
    rw [tree.root, Bool.or_true]
  parent := by
    intro other last made
    rw [Bool.or_eq_true, decide_eq_true_eq] at made ⊢
    rcases made with rfl | old
    · rw [List.dropLast_concat] at inside
      exact Or.inr inside
    · exact Or.inr (tree.parent other last old)

theorem isDirectory_insert {place other : List N}
    (inside : tree.isDirectory place.dropLast = true) :
    (tree.insert place inside).isDirectory other = true ↔
      other = place ∨ tree.isDirectory other = true := by
  show (decide _ || _) = true ↔ _
  rw [Bool.or_eq_true, decide_eq_true_eq]

end Tree

/-! ### Texts of paths -/

section

variable {α : Type} (sep dot : α)

section

variable [DecidableEq α]

/-- The step of a component: an empty one and a single dot stay, two dots go up. -/
def stepOf (name : List α) : Step (List α) :=
  if name = [] ∨ name = [dot] then .stay
  else if name = [dot, dot] then .up
  else .down name

/-- The steps of a path. -/
def steps (text : List α) : List (Step (List α)) := (text.splitOn sep).map (stepOf dot)

theorem steps_append_sep (front rest : List α) :
    steps sep dot (front ++ sep :: rest) = steps sep dot front ++ steps sep dot rest := by
  rw [steps, List.splitOn_append_cons_self, List.map_append]
  rfl

theorem steps_cons_sep (rest : List α) :
    steps sep dot (sep :: rest) = .stay :: steps sep dot rest := by
  rw [← List.nil_append (sep :: rest), steps_append_sep]
  rfl

theorem steps_of_not_mem {name : List α} (free : sep ∉ name) :
    steps sep dot name = [stepOf dot name] := by
  rw [steps, List.splitOn_eq_singleton free]
  rfl

/-- Behind a separator, or at the start of a path, a name is a step of its own. -/
theorem walk_steps_append {tree : Tree (List α)} {start here : List (List α)} {front name : List α}
    (opens : front = [] ∨ ∃ before, front = before ++ [sep])
    (there : tree.walk start (steps sep dot front) = some here) (free : sep ∉ name) :
    tree.walk start (steps sep dot (front ++ name)) = tree.walk here [stepOf dot name] := by
  have stays : ∀ {from_here : List (List α)}, tree.walk from_here [Step.stay] = some here →
      from_here = here := fun walked => (Tree.eq_lexical_of_walk walked).symm
  rcases opens with rfl | ⟨before, rfl⟩
  · rw [stays there, List.nil_append, steps_of_not_mem sep dot free]
  · rw [steps_append_sep, Tree.walk_append, Option.bind_eq_some_iff] at there
    rcases there with ⟨middle, walked, stayed⟩
    rw [List.append_assoc, List.cons_append, List.nil_append, steps_append_sep, Tree.walk_append,
      walked, stays stayed, steps_of_not_mem sep dot free]
    rfl

end

/-- The text of a place. -/
def render : List (List α) → List α
  | [] => [sep]
  | names => names.flatMap fun name => sep :: name

/-- A name is not empty and has no separator in it. -/
def Plain (name : List α) : Prop := name ≠ [] ∧ sep ∉ name

instance [DecidableEq α] (name : List α) : Decidable (Plain sep name) := inferInstanceAs (Decidable (_ ∧ _))

/-! ### Prefixes of texts -/

variable {sep}

/-- A place is below another one if it is reached by entering at least one directory more. -/
def StrictlyBelow (above place : List (List α)) : Prop := ∃ name more, place = above ++ name :: more

/-- A place lies in a sibling, or is one, whose name extends the other place's own name. -/
def InLongerSibling (other place : List (List α)) : Prop :=
  ∃ front last suffix more, suffix ≠ [] ∧ other = front ++ [last] ∧
    place = front ++ (last ++ suffix) :: more

theorem StrictlyBelow.ne {above place : List (List α)} (below : StrictlyBelow above place) :
    place ≠ above := by
  rcases below with ⟨name, more, rfl⟩
  intro same
  exact absurd (List.append_right_eq_self.1 same) (List.cons_ne_nil _ _)

theorem StrictlyBelow.not_inLongerSibling {above place : List (List α)}
    (below : StrictlyBelow above place) : ¬ InLongerSibling above place := by
  rintro ⟨front, last, suffix, more, some_suffix, rfl, sibling⟩
  rcases below with ⟨name, others, rfl⟩
  rw [List.append_assoc, List.append_cancel_left_eq, List.cons_append, List.cons.injEq] at sibling
  exact some_suffix (List.self_eq_append_right.1 sibling.1)

theorem append_sep_prefix_iff [DecidableEq α] {one two more others : List α} (one_free : sep ∉ one)
    (two_free : sep ∉ two) (bounded : others = [] ∨ ∃ rest, others = sep :: rest) :
    one ++ sep :: more <+: two ++ others ↔
      one = two ∧ ∃ rest, others = sep :: rest ∧ more <+: rest := by
  constructor
  · rintro ⟨tail, eq⟩
    rw [List.append_assoc, List.cons_append] at eq
    rcases bounded with rfl | ⟨rest, rfl⟩
    · rw [List.append_nil] at eq
      apply absurd _ two_free
      rw [← eq]
      exact List.mem_append_right _ List.mem_cons_self
    · have parts := congrArg (List.splitOn sep) eq
      rw [List.splitOn_append_cons_self_of_not_mem one_free,
        List.splitOn_append_cons_self_of_not_mem two_free, List.cons.injEq] at parts
      rcases parts with ⟨rfl, _⟩
      rw [List.append_cancel_left_eq, List.cons.injEq] at eq
      exact ⟨rfl, rest, rfl, tail, eq.2⟩
  · rintro ⟨rfl, rest, rfl, tail, rfl⟩
    exact ⟨tail, by rw [List.append_assoc, List.cons_append]⟩

theorem prefix_append_iff_of_free {one two others : List α} (one_free : sep ∉ one)
    (bounded : others = [] ∨ ∃ rest, others = sep :: rest) :
    one <+: two ++ others ↔ one <+: two := by
  constructor
  · intro within
    rcases List.prefix_or_prefix_of_prefix within (List.prefix_append two others) with short | long
    · exact short
    · rcases long with ⟨more, rfl⟩
      rw [List.prefix_append_right_inj] at within
      rcases bounded with rfl | ⟨rest, rfl⟩
      · rw [List.prefix_nil.1 within, List.append_nil]
      · cases more with
        | nil => rw [List.append_nil]
        | cons first more =>
            rw [List.cons_prefix_cons] at within
            rw [within.1] at one_free
            exact absurd (List.mem_append_right _ List.mem_cons_self) one_free
  · exact List.prefix_append_of_prefix

variable (sep) in
/-- The text behind the root. -/
def tailText (names : List (List α)) : List α := names.flatMap fun name => sep :: name

theorem tailText_cons (name : List α) (names : List (List α)) :
    tailText sep (name :: names) = sep :: (name ++ tailText sep names) := by
  rw [tailText, List.flatMap_cons, List.cons_append]
  rfl

theorem tailText_bounded (names : List (List α)) :
    tailText sep names = [] ∨ ∃ rest, tailText sep names = sep :: rest := by
  cases names with
  | nil => exact Or.inl rfl
  | cons name names => exact Or.inr ⟨_, tailText_cons name names⟩

theorem render_cons (name : List α) (names : List (List α)) :
    render sep (name :: names) = tailText sep (name :: names) := rfl

/-- The text behind the root keeps the names apart. -/
theorem splitOn_tailText [DecidableEq α] {names : List (List α)} (plain : ∀ part ∈ names, sep ∉ part) :
    (tailText sep names).splitOn sep = [] :: names := by
  have starts (rest : List α) : (sep :: rest).splitOn sep = [] :: rest.splitOn sep :=
    List.splitOn_append_cons_self_of_not_mem List.not_mem_nil rest
  induction names with
  | nil => exact List.splitOn_nil sep
  | cons name names ih =>
      have later := ih fun part member => plain part (List.mem_cons_of_mem _ member)
      have free : sep ∉ name := plain name List.mem_cons_self
      rw [tailText_cons, starts]
      rcases @tailText_bounded _ sep names with nothing | ⟨rest, behind⟩
      · rw [nothing, List.splitOn_nil, List.cons.injEq] at later
        rw [nothing, List.append_nil, ← later.2, List.splitOn_eq_singleton free]
      · rw [behind, starts, List.cons.injEq] at later
        rw [behind, List.splitOn_append_cons_self_of_not_mem free, later.2]

/-- Places with the same text are the same. -/
theorem render_injective [DecidableEq α] {one two : List (List α)} (plain : ∀ part ∈ one, Plain sep part)
    (plain_two : ∀ part ∈ two, Plain sep part) (same : render sep one = render sep two) : one = two := by
  have apart {name : List α} {names : List (List α)} (member : Plain sep name) :
      [sep] ≠ tailText sep (name :: names) := by
    rw [tailText_cons]
    intro same
    exact member.1 (List.append_eq_nil_iff.1 (List.cons.inj same).2.symm).1
  cases one with
  | nil =>
      cases two with
      | nil => rfl
      | cons name names => exact absurd same (apart (plain_two name List.mem_cons_self))
  | cons name names =>
      cases two with
      | nil => exact absurd same.symm (apart (plain name List.mem_cons_self))
      | cons other others =>
          have parts := congrArg (List.splitOn sep) same
          rw [render_cons, render_cons, splitOn_tailText fun part member => (plain part member).2,
            splitOn_tailText fun part member => (plain_two part member).2] at parts
          exact (List.cons.inj parts).2

/-- Nothing but the root itself is above the root. -/
theorem tailText_prefix_nil_iff (name : List α) (names : List (List α)) :
    tailText sep (name :: names) <+: tailText sep [] ↔
      ∃ front last suffix more, name :: names = front ++ [last] ∧
        [] = front ++ (last ++ suffix) :: more := by
  apply iff_of_false
  · rw [tailText_cons]
    rintro ⟨tail, absurd_eq⟩
    cases absurd_eq
  · rintro ⟨front, _, _, _, _, absurd_eq⟩
    cases front <;> cases absurd_eq

theorem tailText_prefix_iff [DecidableEq α] {name : List α} {names place : List (List α)}
    (plain : ∀ part ∈ name :: names, sep ∉ part) (plain_place : ∀ part ∈ place, sep ∉ part) :
    tailText sep (name :: names) <+: tailText sep place ↔
      ∃ front last suffix more, name :: names = front ++ [last] ∧
        place = front ++ (last ++ suffix) :: more := by
  induction names generalizing name place with
  | nil =>
      cases place with
      | nil => exact tailText_prefix_nil_iff _ _
      | cons other others =>
          rw [tailText_cons, tailText_cons, List.cons_prefix_cons, tailText, List.flatMap_nil,
            List.append_nil, and_iff_right rfl,
            prefix_append_iff_of_free (plain name List.mem_cons_self) (tailText_bounded others)]
          constructor
          · rintro ⟨suffix, rfl⟩
            exact ⟨[], name, suffix, others, rfl, rfl⟩
          · rintro ⟨front, last, suffix, more, eq, eq'⟩
            rcases List.append_eq_singleton_iff.1 eq.symm with ⟨rfl, one⟩ | ⟨_, nothing⟩
            · rw [List.cons.injEq] at one
              rw [List.nil_append, List.cons.injEq] at eq'
              exact ⟨suffix, by rw [eq'.1, one.1]⟩
            · cases nothing
  | cons next names ih =>
      cases place with
      | nil => exact tailText_prefix_nil_iff _ _
      | cons other others =>
          have step := @ih next others (fun part member => plain part (List.mem_cons_of_mem _ member))
            (fun part member => plain_place part (List.mem_cons_of_mem _ member))
          rw [tailText_cons, tailText_cons next, tailText_cons other, List.cons_prefix_cons,
            and_iff_right rfl, append_sep_prefix_iff (plain name List.mem_cons_self)
              (plain_place other List.mem_cons_self) (tailText_bounded others)]
          constructor
          · rintro ⟨rfl, rest, eq, within⟩
            have further : tailText sep (next :: names) <+: tailText sep others := by
              rw [tailText_cons, eq, List.cons_prefix_cons]
              exact ⟨rfl, within⟩
            rcases step.1 further with ⟨front, last, suffix, more, one, two⟩
            exact ⟨name :: front, last, suffix, more, by rw [one]; rfl, by rw [two]; rfl⟩
          · rintro ⟨front, last, suffix, more, one, two⟩
            cases front with
            | nil => cases one
            | cons first front =>
                rw [List.cons_append, List.cons.injEq] at one two
                have further := step.2 ⟨front, last, suffix, more, one.2, two.2⟩
                rw [tailText_cons] at further
                refine ⟨one.1.trans two.1.symm, ?_⟩
                rcases @tailText_bounded _ sep others with nothing | ⟨rest, eq⟩
                · rw [nothing] at further
                  cases List.prefix_nil.1 further
                · rw [eq, List.cons_prefix_cons] at further
                  exact ⟨rest, eq, further.2⟩

/-! ### Plain places -/

theorem not_mem_of_mem_splitOn [DecidableEq α] {text name : List α}
    (member : name ∈ text.splitOn sep) : sep ∉ name := by
  induction text generalizing name with
  | nil =>
      rw [List.splitOn_nil, List.mem_singleton] at member
      rw [member]
      exact List.not_mem_nil
  | cons first text ih =>
      rw [List.splitOn_cons_eq_if_modifyHead] at member
      split at member
      · rcases List.mem_cons.1 member with rfl | later
        · exact List.not_mem_nil
        · exact ih later
      · rename_i other
        rcases List.exists_cons_of_ne_nil (List.splitOn_ne_nil sep text) with ⟨head, tail, parts⟩
        rw [parts, List.modifyHead_cons] at member
        rcases List.mem_cons.1 member with rfl | later
        · rw [List.mem_cons, not_or]
          refine ⟨?_, ih (parts ▸ List.mem_cons_self)⟩
          rintro rfl
          exact other BEq.rfl
        · exact ih (parts ▸ List.mem_cons_of_mem _ later)

/-- The directories that a path enters have plain names. -/
theorem plain_of_mem_steps [DecidableEq α] {dot : α} {text name : List α}
    (member : .down name ∈ steps sep dot text) : Plain sep name := by
  obtain ⟨part, within, same⟩ := List.mem_map.1 member
  rw [stepOf] at same
  split at same
  · cases same
  · rename_i some_name
    split at same
    · cases same
    · obtain rfl := Step.down.inj same
      exact ⟨fun nothing => some_name (Or.inl nothing), not_mem_of_mem_splitOn within⟩

/-- Steps with plain names lead from a plain place to plain places only. -/
theorem plain_lexical_of_steps {path : List (Step (List α))}
    (names : ∀ name, .down name ∈ path → Plain sep name) {start : List (List α)}
    (plain : ∀ name ∈ start, Plain sep name) : ∀ name ∈ lexical start path, Plain sep name := by
  induction path generalizing start with
  | nil => exact plain
  | cons step path ih =>
      rw [lexical, List.foldl_cons]
      refine ih (fun name member => names name (List.mem_cons_of_mem _ member)) ?_
      cases step with
      | stay => exact plain
      | up => exact fun name member => plain name (List.mem_of_mem_dropLast member)
      | down name =>
          intro part member
          rcases List.mem_append.1 member with old | new
          · exact plain part old
          · rw [List.mem_singleton.1 new]
            exact names name List.mem_cons_self

/-- A path leads from a plain place to plain places only. -/
theorem plain_lexical [DecidableEq α] {dot : α} {start : List (List α)} (text : List α)
    (plain : ∀ name ∈ start, Plain sep name) :
    ∀ name ∈ lexical start (steps sep dot text), Plain sep name :=
  plain_lexical_of_steps (fun _ => plain_of_mem_steps) plain

/-- The text of a place is a prefix of the text of every place below it, of its own, and of those in
siblings with longer names. -/
theorem render_prefix_iff [DecidableEq α] {other place : List (List α)}
    (plain : ∀ name ∈ other, Plain sep name)
    (plain_place : ∀ name ∈ place, Plain sep name) :
    render sep other <+: render sep place ↔
      StrictlyBelow other place ∨ place = other ∨ InLongerSibling other place := by
  cases other with
  | nil =>
      apply iff_of_true
      · cases place with
        | nil => exact List.prefix_refl _
        | cons name names =>
            rw [render_cons, tailText_cons]
            exact ⟨_, rfl⟩
      · cases place with
        | nil => exact Or.inr (Or.inl rfl)
        | cons name names => exact Or.inl ⟨name, names, rfl⟩
  | cons name names =>
      cases place with
      | nil =>
          apply iff_of_false
          · rw [render_cons, tailText_cons, render, List.cons_prefix_cons, List.prefix_nil,
              List.append_eq_nil_iff]
            exact fun within => (plain name List.mem_cons_self).1 within.2.1
          · rintro (⟨_, _, eq⟩ | eq | ⟨front, _, _, _, _, _, eq⟩)
            · cases eq
            · cases eq
            · cases front <;> cases eq
      | cons first others =>
          rw [render_cons, render_cons, tailText_prefix_iff (fun part member => (plain part member).2)
            (fun part member => (plain_place part member).2)]
          constructor
          · rintro ⟨front, last, suffix, more, one, two⟩
            by_cases longer : suffix = []
            · subst longer
              rw [List.append_nil] at two
              cases more with
              | nil => exact Or.inr (Or.inl (two.trans one.symm))
              | cons next more =>
                  refine Or.inl ⟨next, more, ?_⟩
                  rw [one, two, List.append_assoc]
                  rfl
            · exact Or.inr (Or.inr ⟨front, last, suffix, more, longer, one, two⟩)
          · have parts : ∃ front last, name :: names = front ++ [last] :=
              ⟨_, _, (List.dropLast_append_getLast (List.cons_ne_nil name names)).symm⟩
            rcases parts with ⟨front, last, parts⟩
            rintro (⟨next, more, eq⟩ | eq | ⟨front, last, suffix, more, _, one, two⟩)
            · refine ⟨front, last, [], next :: more, parts, ?_⟩
              rw [eq, parts, List.append_nil, List.append_assoc]
              rfl
            · refine ⟨front, last, [], [], parts, ?_⟩
              rw [eq, parts, List.append_nil]
            · exact ⟨front, last, suffix, more, one, two⟩

end

end Paths
