/-
Module: Unshield.Foundation.Keystream
Purpose: Strings that are coded letter by letter under a key that moves on with every letter: what the
  code of a string has to do with the codes of its pieces, of its letters and with its decoding.
Trusted boundary: none
Main exports: Keystream, Keystream.run, Keystream.runEach, Keystream.run_append,
  Keystream.run_flatten, Keystream.getElem?_run, Keystream.Undoes, Keystream.Undoes.run
-/
import Mathlib.Data.List.Basic
import Mathlib.Logic.Function.Iterate

/-- A code for single letters, under a key that is replaced after each of them. -/
structure Keystream (κ α β : Type) where
  next : κ → κ
  encode : κ → α → β

namespace Keystream

variable {κ α β γ : Type} (code : Keystream κ α β)

/-- The code of a string, and the key that comes after it. -/
def run : List α → κ → List β × κ
  | [], key => ([], key)
  | letter :: rest, key =>
      (code.encode key letter :: (run rest (code.next key)).1, (run rest (code.next key)).2)

/-- The codes of consecutive strings, each under the key that the one before it has left. -/
def runEach : List (List α) → κ → List (List β) × κ
  | [], key => ([], key)
  | piece :: rest, key =>
      ((code.run piece key).1 :: (runEach rest (code.run piece key).2).1,
        (runEach rest (code.run piece key).2).2)

@[simp] theorem run_nil (key : κ) : code.run [] key = ([], key) := rfl

@[simp] theorem run_cons (letter : α) (rest : List α) (key : κ) :
    code.run (letter :: rest) key =
      (code.encode key letter :: (code.run rest (code.next key)).1,
        (code.run rest (code.next key)).2) := rfl

theorem run_append (one two : List α) (key : κ) :
    code.run (one ++ two) key =
      ((code.run one key).1 ++ (code.run two (code.run one key).2).1,
        (code.run two (code.run one key).2).2) := by
  induction one generalizing key with
  | nil => rfl
  | cons letter rest ih => simp [ih]

theorem length_run (letters : List α) (key : κ) :
    (code.run letters key).1.length = letters.length := by
  induction letters generalizing key with
  | nil => rfl
  | cons letter rest ih => simp [ih]

/-- The key moves on once for every letter. -/
theorem key_run (letters : List α) (key : κ) :
    (code.run letters key).2 = code.next^[letters.length] key := by
  induction letters generalizing key with
  | nil => rfl
  | cons letter rest ih => simp [ih]

/-- A letter is coded under the key of its place, whatever the other letters are. -/
theorem getElem?_run (letters : List α) (key : κ) (place : Nat) :
    (code.run letters key).1[place]? = letters[place]?.map (code.encode (code.next^[place] key)) := by
  induction letters generalizing key place with
  | nil => simp
  | cons letter rest ih =>
      cases place with
      | zero => rfl
      | succ place => simp [ih]

/-- It does not show in the code how a string was cut. -/
theorem run_flatten (pieces : List (List α)) (key : κ) :
    code.run pieces.flatten key = ((code.runEach pieces key).1.flatten, (code.runEach pieces key).2) := by
  induction pieces generalizing key with
  | nil => rfl
  | cons piece rest ih =>
      rw [List.flatten_cons, run_append, ih]
      rfl

theorem map_length_runEach (pieces : List (List α)) (key : κ) :
    (code.runEach pieces key).1.map List.length = pieces.map List.length := by
  induction pieces generalizing key with
  | nil => rfl
  | cons piece rest ih =>
      simp only [runEach, List.map_cons, length_run, ih]

/-! ### Decoding -/

variable {code}

/-- The second code takes letters back to what the first one coded, under the same keys. -/
structure Undoes (decode : Keystream κ β γ) (code : Keystream κ α β) (back : α → γ) : Prop where
  next : ∀ key, decode.next key = code.next key
  encode : ∀ key letter, decode.encode key (code.encode key letter) = back letter

theorem Undoes.run {decode : Keystream κ β γ} {back : α → γ} (undoes : Undoes decode code back)
    (letters : List α) (key : κ) :
    (decode.run (code.run letters key).1 key).1 = letters.map back := by
  induction letters generalizing key with
  | nil => rfl
  | cons letter rest ih =>
      simp only [run_cons, List.map_cons, undoes.encode, undoes.next, ih]

end Keystream
