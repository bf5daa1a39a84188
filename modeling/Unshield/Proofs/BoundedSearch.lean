/-
Module: Unshield.Proofs.BoundedSearch
Purpose: When the search for a byte pattern stays within the buffer it is given: its counter goes down by
  one for every candidate, however far the search has moved on.
Trusted boundary: none
Main exports: memchr_cases, SearchResult, SearchesExactly, CandidatesInFront, findBytes_absent,
  findBytes_overrun, findBytes_gap, findBytes_exact_iff
-/
import Unshield.Proofs.Segmentation

namespace Unshield

open Procedure Occurrence

/-! ### Bytes of a block -/

/-- The three ways in which a search for a byte ends: at the first place that holds it, in front of the
end of the stretch, or at the end of the block. -/
theorem memchr_cases (buffer : Block) (byte : UInt8) (n : Nat) :
    ∀ p, p ≤ buffer.size →
      (∃ q, p ≤ q ∧ q < p + n ∧ q < buffer.size ∧ buffer.byte q = byte ∧
        (∀ r, p ≤ r → r < q → buffer.byte r ≠ byte) ∧ memchr buffer byte p n = .ret (some q)) ∨
      (p + n ≤ buffer.size ∧ (∀ r, p ≤ r → r < p + n → buffer.byte r ≠ byte) ∧
        memchr buffer byte p n = .ret none) ∨
      (buffer.size < p + n ∧ (∀ r, p ≤ r → r < buffer.size → buffer.byte r ≠ byte) ∧
        memchr buffer byte p n = .fault) := by
  induction n with
  | zero =>
      intro p inside
      exact Or.inr (Or.inl ⟨inside, fun r low high => absurd high (Nat.not_lt_of_le low), rfl⟩)
  | succ n ih =>
      intro p inside
      by_cases last : p = buffer.size
      · refine Or.inr (Or.inr ⟨by omega, fun r low high => by omega, ?_⟩)
        rw [memchr, Block.load, if_neg (by omega)]
        rfl
      rw [memchr, Block.load_one buffer (by omega), Exit.ofAccess_some, Exit.bind_ret]
      by_cases here : buffer.byte p = byte
      · refine Or.inl ⟨p, Nat.le_refl _, by omega, by omega, here, fun r low high => by omega, ?_⟩
        rw [if_pos (by rw [here])]
      · have elsewhere : ∀ r, p ≤ r → ¬ p + 1 ≤ r → buffer.byte r ≠ byte := by
          intro r low high
          rw [show r = p by omega]
          exact here
        rw [if_neg (by rw [List.cons.injEq]; exact fun same => here same.1)]
        rcases ih (p + 1) (by omega) with
          ⟨q, low, high, within, found, first, run⟩ | ⟨within, absent, run⟩ | ⟨beyond, absent, run⟩
        · refine Or.inl ⟨q, by omega, by omega, within, found, fun r low' high' => ?_, run⟩
          by_cases later : p + 1 ≤ r
          · exact first r later high'
          · exact elsewhere r low' later
        · refine Or.inr (Or.inl ⟨by omega, fun r low high => ?_, run⟩)
          by_cases later : p + 1 ≤ r
          · exact absent r later (by omega)
          · exact elsewhere r low later
        · refine Or.inr (Or.inr ⟨by omega, fun r low high => ?_, run⟩)
          by_cases later : p + 1 ≤ r
          · exact absent r later high
          · exact elsewhere r low later

/-! ### The counter -/

section

variable {buffer : Block} {pattern : Bytes} {base size : Nat}

/-- The pattern stands nowhere in a stretch of the block. -/
def Absent (buffer : Block) (pattern : Bytes) (p size : Nat) : Prop :=
  ∀ i, p ≤ i → i + pattern.length ≤ size → buffer.load i pattern.length ≠ some pattern

theorem Absent.later {p q : Nat} (absent : Absent buffer pattern p size) (le : p ≤ q) :
    Absent buffer pattern q size := fun i low high => absent i (Nat.le_trans le low) high

/-- One candidate that is not a match. -/
theorem findBytes_step {p q left : Nat}
    (run : memchr buffer (pattern.headD 0) p (left + 1) = .ret (some q))
    (enough : pattern.length ≤ left + 1) (within : q + pattern.length ≤ buffer.size)
    (different : buffer.load q pattern.length ≠ some pattern) :
    findBytes buffer pattern p (left + 1) = findBytes buffer pattern (q + 1) left := by
  rcases buffer.load_isSome within with ⟨candidate, loaded⟩
  rw [findBytes, run, Exit.bind_ret]
  simp only
  rw [if_neg (by omega), loaded, Exit.ofAccess_some, Exit.bind_ret, if_neg]
  intro same
  rw [loaded, same] at different
  exact different rfl

/-- As long as no candidate is skipped, the counter tells how much of the buffer is left. -/
theorem findBytes_absent (inside : size ≤ buffer.size) (left : Nat) :
    ∀ p, p + left = size → Absent buffer pattern p size →
      (∀ i j, p ≤ i → i + pattern.length ≤ size → i < j → j < size →
        buffer.byte i ≠ pattern.headD 0 → buffer.byte j ≠ pattern.headD 0) →
      findBytes buffer pattern p left = .ret none := by
  induction left with
  | zero => exact fun p _ _ _ => rfl
  | succ left ih =>
      intro p sum absent front
      rcases memchr_cases buffer (pattern.headD 0) (left + 1) p (by omega) with
        ⟨q, low, high, _, found, first, run⟩ | ⟨_, _, run⟩ | ⟨beyond, _, _⟩
      · by_cases enough : pattern.length ≤ left + 1
        · -- a byte in front of the candidate would be another one, with room for the pattern
          have here : q = p := by
            by_contra skipped
            exact front p q (Nat.le_refl _) (by omega) (by omega) (by omega)
              (first p (Nat.le_refl _) (by omega)) found
          subst here
          rw [findBytes_step run enough (by omega) (absent q low (by omega))]
          apply ih (q + 1) (by omega) (absent.later (Nat.le_succ _))
          exact fun i j le => front i j (by omega)
        · rw [findBytes, run, Exit.bind_ret]
          simp only
          rw [if_pos (by omega)]
      · rw [findBytes, run]
        rfl
      · omega

/-- Once the counter is ahead, the search goes on to the end of the block. -/
theorem findBytes_overrun (left : Nat) :
    ∀ p, p ≤ buffer.size → buffer.size < p + left → pattern.length ≤ left →
      Absent buffer pattern p buffer.size → findBytes buffer pattern p left = .fault := by
  induction left with
  | zero =>
      intro p _ _ enough
      omega
  | succ left ih =>
      intro p inside ahead enough absent
      rcases memchr_cases buffer (pattern.headD 0) (left + 1) p inside with
        ⟨q, low, _, within, _, _, run⟩ | ⟨fits, _, _⟩ | ⟨_, _, run⟩
      · by_cases fits : q + pattern.length ≤ buffer.size
        · rw [findBytes_step run enough fits (absent q low fits)]
          exact ih (q + 1) (by omega) (by omega) (by omega) (absent.later (by omega))
        · rw [findBytes, run, Exit.bind_ret]
          simp only
          rw [if_neg (by omega), Block.load, if_neg fits]
          rfl
      · omega
      · rw [findBytes, run]
        rfl

/-- A candidate behind a byte that is none sets the counter ahead. -/
theorem findBytes_gap (left : Nat) :
    ∀ p i j, p + left = buffer.size → p ≤ i → i + pattern.length ≤ buffer.size → i < j →
      j < buffer.size → buffer.byte i ≠ pattern.headD 0 → buffer.byte j = pattern.headD 0 →
      Absent buffer pattern p buffer.size → findBytes buffer pattern p left = .fault := by
  induction left with
  | zero =>
      intro p i j sum le _ lt inside _ _ _
      omega
  | succ left ih =>
      intro p i j sum le fits lt inside other candidate absent
      rcases memchr_cases buffer (pattern.headD 0) (left + 1) p (by omega) with
        ⟨q, low, _, _, found, first, run⟩ | ⟨_, nowhere, _⟩ | ⟨beyond, _, _⟩
      · have high : q ≤ j := by
          by_contra past
          exact first j (by omega) (by omega) candidate
        by_cases within : q + pattern.length ≤ buffer.size
        · rw [findBytes_step run (by omega) within (absent q low within)]
          by_cases here : q = p
          · have before : q ≠ i := by
              rintro rfl
              exact other found
            exact ih (q + 1) i j (by omega) (by omega) fits lt inside other candidate
              (absent.later (by omega))
          · exact findBytes_overrun left (q + 1) (by omega) (by omega) (by omega)
              (absent.later (by omega))
        · rw [findBytes, run, Exit.bind_ret]
          simp only
          rw [if_neg (by omega), Block.load, if_neg within]
          rfl
      · exact absurd candidate (nowhere j (by omega) (by omega))
      · omega

end

/-! ### Exactness -/

/-- What the search is for: the first place of the pattern, or nothing if it stands nowhere. -/
def SearchResult (pattern bytes : Bytes) : Option Nat → Prop
  | some position => FirstFrom pattern bytes 0 position
  | none => ∀ position, ¬ Occurs pattern bytes position

/-- Wherever the buffer lies and whatever the memory around it holds, the search gives its result. -/
def SearchesExactly (pattern bytes : Bytes) : Prop :=
  ∀ (memory : Block) (buffer : Nat), memory.Holds buffer bytes →
    ∃ result, findBytes memory pattern buffer bytes.length = .ret (result.map (buffer + ·)) ∧
      SearchResult pattern bytes result

/-- Behind a byte that is not the pattern's first, with room for the pattern from there on, that byte
does not come again. -/
def CandidatesInFront (pattern bytes : Bytes) : Prop :=
  ∀ i j, i + pattern.length ≤ bytes.length → i < j → j < bytes.length →
    bytes[i]? ≠ some (pattern.headD 0) → bytes[j]? ≠ some (pattern.headD 0)

/-- The memory that ends where the buffer does. -/
def tightMemory (bytes : Bytes) : Block where
  size := bytes.length
  byte := fun i => (bytes[i]?).getD 0

theorem holds_tightMemory (bytes : Bytes) : (tightMemory bytes).Holds 0 bytes := by
  refine ⟨by simp [tightMemory], ?_⟩
  intro i inside
  simp [tightMemory, List.getElem?_eq_getElem inside]

theorem absent_of_holds {memory : Block} {pattern bytes : Bytes} {buffer : Nat}
    (holds : memory.Holds buffer bytes) (nowhere : ∀ position, ¬ Occurs pattern bytes position) :
    Absent memory pattern buffer (buffer + bytes.length) := by
  intro i low high loaded
  rcases Nat.exists_eq_add_of_le low with ⟨position, rfl⟩
  rw [Block.load_within holds (by omega), Option.some.injEq] at loaded
  exact nowhere position (occurs_iff_take.2 loaded)

/-- A match in the buffer is found, whatever the counter does. -/
theorem searchesExactly_of_occurs {pattern bytes : Bytes} (nonempty : 0 < pattern.length)
    {position : Nat} (occurs : Occurs pattern bytes position) : SearchesExactly pattern bytes := by
  rcases exists_firstFrom (Nat.zero_le position) occurs with ⟨first, _, firstFrom⟩
  have inside := le_length_of_occurs nonempty firstFrom.occurs
  intro memory buffer holds
  refine ⟨some first, ?_, firstFrom⟩
  have loaded : ∀ {place : Nat}, place + pattern.length ≤ bytes.length →
      (memory.load (buffer + place) pattern.length = some pattern ↔ Occurs pattern bytes place) := by
    intro place within
    rw [Block.load_within holds within, Option.some.injEq, occurs_iff_take]
  apply findBytes_run nonempty ((loaded inside).2 firstFrom.occurs)
  · exact Nat.le_add_right _ _
  · omega
  · intro earlier low high
    rcases Nat.exists_eq_add_of_le low with ⟨place, rfl⟩
    rw [ne_eq, loaded (by omega)]
    exact firstFrom.first place (Nat.zero_le _) (by omega)

/-- The search is exact just for the buffers that hold the pattern and for those whose candidates all
stand in front. -/
theorem findBytes_exact_iff {pattern : Bytes} (nonempty : 0 < pattern.length) (bytes : Bytes) :
    SearchesExactly pattern bytes ↔
      (∃ position, Occurs pattern bytes position) ∨ CandidatesInFront pattern bytes := by
  constructor
  · intro exactly
    by_contra neither
    rw [not_or] at neither
    obtain ⟨nowhere, skips⟩ := neither
    rw [not_exists] at nowhere
    rw [CandidatesInFront] at skips
    push Not at skips
    obtain ⟨i, j, fits, lt, inside, other, candidate⟩ := skips
    have holds := holds_tightMemory bytes
    obtain ⟨result, run, _⟩ := exactly _ 0 holds
    have bytes_of : ∀ k < bytes.length, bytes[k]? = some ((tightMemory bytes).byte k) := by
      intro k within
      rw [holds.2 k within, Nat.zero_add]
    have overrun := findBytes_gap bytes.length 0 i j (Nat.zero_add _) (Nat.zero_le _) fits lt inside
      (fun same => other (by rw [bytes_of i (by omega), same]))
      (Option.some.inj ((bytes_of j inside).symm.trans candidate))
      (by
        have absent := absent_of_holds holds nowhere
        rw [Nat.zero_add] at absent
        exact absent)
    rw [overrun] at run
    cases run
  · rintro (⟨position, occurs⟩ | front)
    · exact searchesExactly_of_occurs nonempty occurs
    by_cases somewhere : ∃ position, Occurs pattern bytes position
    · obtain ⟨position, occurs⟩ := somewhere
      exact searchesExactly_of_occurs nonempty occurs
    rw [not_exists] at somewhere
    intro memory buffer holds
    refine ⟨none, ?_, somewhere⟩
    apply findBytes_absent holds.1 bytes.length buffer rfl (absent_of_holds holds somewhere)
    intro i j low fits lt inside other candidate
    rcases Nat.exists_eq_add_of_le low with ⟨place, rfl⟩
    rcases Nat.exists_eq_add_of_le (show buffer ≤ j by omega) with ⟨later, rfl⟩
    apply front place later (by omega) (by omega) (by omega)
    · rw [holds.2 place (by omega), ne_eq, Option.some.injEq]
      exact other
    · rw [holds.2 later (by omega), candidate]

/-- The bytes of an end-of-chunk marker that a longer read has left behind the buffer. -/
def staleMemory : Block where
  size := 16
  byte := fun i => ([0x61, 0x61, 0x00, 0x61, 0x61, 0x00, 0x00, 0xff, 0xff][i]?).getD 0

theorem findBytes_exact_iff_stale :
    SearchesExactly endOfChunk [0x61, 0x61, 0x00, 0x61, 0x61] ↔
      (∃ position, Occurs endOfChunk [0x61, 0x61, 0x00, 0x61, 0x61] position) ∨
        CandidatesInFront endOfChunk [0x61, 0x61, 0x00, 0x61, 0x61] :=
  findBytes_exact_iff (by decide) _

/-- The search finds the marker behind the five bytes it is given, so that a chunk of five bytes and
a marker would be taken from an input of five. -/
theorem findBytes_not_exact :
    ¬ ∀ pattern bytes : Bytes, 0 < pattern.length → SearchesExactly pattern bytes := by
  intro exactly
  obtain ⟨result, run, found⟩ := exactly endOfChunk [0x61, 0x61, 0x00, 0x61, 0x61] (by decide)
    staleMemory 0 ⟨by decide, by decide⟩
  have past : findBytes staleMemory endOfChunk 0 5 = .ret (some 5) := rfl
  change findBytes staleMemory endOfChunk 0 5 = _ at run
  rw [past] at run
  cases result with
  | none => cases run
  | some position =>
      have inside := le_length_of_occurs (by decide) found.occurs
      have five : 5 = 0 + position := Option.some.inj (Exit.ret.inj run)
      simp only [endOfChunk, List.length_cons, List.length_nil] at inside
      omega

end Unshield
