/-
Module: Unshield.Proofs.Segmentation
Purpose: Where the chunks of old-format data end: the search for a marker finds its first occurrence,
  and the one bit behind a marker decides whether the chunk goes on.
Trusted boundary: none
Main exports: findBytes_run, ChunkEnd, chunkSize_run, Segmented, chunkEnd_of_conditions,
  segmented_of_conditions
-/
import Unshield.Core.Uncompress
import Unshield.Foundation.Occurrence

namespace Unshield

open Procedure Occurrence

/-! ### Searching a block -/

/-- A byte that is there is found, or one of the same value before it. -/
theorem memchr_run {buffer : Block} {byte : UInt8} {q : Nat} (found : buffer.byte q = byte)
    (inside : q < buffer.size) (n : Nat) :
    ∀ {p : Nat}, p ≤ q → q < p + n →
      ∃ p', memchr buffer byte p n = .ret (some p') ∧ p ≤ p' ∧ p' ≤ q := by
  induction n with
  | zero =>
      intro p le within
      omega
  | succ n ih =>
      intro p le within
      rw [memchr, Block.load_one buffer (by omega), Exit.ofAccess_some, Exit.bind_ret]
      by_cases here : buffer.byte p = byte
      · refine ⟨p, ?_, Nat.le_refl _, le⟩
        rw [if_pos (by rw [here])]
      · have later : p ≠ q := by
          rintro rfl
          exact here found
        rcases ih (show p + 1 ≤ q by omega) (by omega) with ⟨p', run, low, high⟩
        refine ⟨p', ?_, by omega, high⟩
        rw [if_neg (by rw [List.cons.injEq]; exact fun same => here same.1)]
        exact run

/-- The search finds the first place that holds the pattern.  Although the number of bytes left goes
down by one for every candidate only, the place stays within it. -/
theorem findBytes_run {buffer : Block} {pattern : Bytes} {q : Nat} (nonempty : 0 < pattern.length)
    (found : buffer.load q pattern.length = some pattern) (n : Nat) :
    ∀ {p : Nat}, p ≤ q → q + pattern.length ≤ p + n →
      (∀ earlier, p ≤ earlier → earlier < q →
        buffer.load earlier pattern.length ≠ some pattern) →
      findBytes buffer pattern p n = .ret (some q) := by
  have fits : q + pattern.length ≤ buffer.size := by
    by_contra outside
    rw [Block.load, if_neg outside] at found
    cases found
  have head : buffer.byte q = pattern.headD 0 := by
    rw [Block.load, if_pos fits, Option.some.injEq] at found
    rw [← found]
    cases pattern with
    | nil => cases nonempty
    | cons first rest => simp [List.range_succ_eq_map]
  induction n with
  | zero =>
      intro p le within _
      omega
  | succ n ih =>
      intro p le within first
      rcases memchr_run head (by omega) (n + 1) le (by omega) with ⟨p', run, low, high⟩
      rcases buffer.load_isSome (show p' + pattern.length ≤ buffer.size by omega) with
        ⟨candidate, loaded⟩
      rw [findBytes, run, Exit.bind_ret]
      simp only
      rw [if_neg (by omega), loaded, Exit.ofAccess_some, Exit.bind_ret]
      by_cases here : candidate = pattern
      · have same : p' = q := by
          by_contra different
          apply first p' low (by omega)
          rw [loaded, here]
        rw [if_pos here, same]
      · have before : p' ≠ q := by
          rintro rfl
          apply here
          rw [found] at loaded
          exact (Option.some.inj loaded).symm
        rw [if_neg here]
        apply ih (by omega) (by omega)
        intro earlier le' lt
        exact first earlier (by omega) lt

/-- In a block that holds a stream the search finds the first marker of the stream. -/
theorem findBytes_of_firstFrom {buffer : Block} {base start q : Nat} {stream : Bytes}
    (holds : buffer.Holds base stream) (marker : FirstFrom endOfChunk stream start q) :
    findBytes buffer endOfChunk (base + start) (stream.length - start) = .ret (some (base + q)) := by
  have inside := le_length_of_occurs (by decide) marker.occurs
  have le := marker.le
  have loaded : ∀ {position : Nat}, position + endOfChunk.length ≤ stream.length →
      (buffer.load (base + position) endOfChunk.length = some endOfChunk ↔
        Occurs endOfChunk stream position) := by
    intro position within
    rw [Block.load_within holds within, Option.some.injEq, occurs_iff_take]
  apply findBytes_run (by decide) ((loaded inside).2 marker.occurs)
  · omega
  · omega
  · intro earlier low high
    rcases Nat.exists_eq_add_of_le (show base ≤ earlier by omega) with ⟨position, rfl⟩
    rw [ne_eq, loaded (by omega)]
    exact marker.first position (by omega) (by omega)

/-! ### The end of a chunk -/

/-- From `start` on, the marker that ends the chunk is the one at `position`: the first marker behind
which the stream ends or goes on with an even byte. -/
inductive ChunkEnd (stream : Bytes) : Nat → Nat → Prop where
  | stop {start position : Nat} (marker : FirstFrom endOfChunk stream start position)
      (even : ∀ byte, stream[position + endOfChunk.length]? = some byte → byte &&& 1 = 0) :
      ChunkEnd stream start position
  | skip {start inner position : Nat} {byte : UInt8}
      (marker : FirstFrom endOfChunk stream start inner)
      (next : stream[inner + endOfChunk.length]? = some byte) (odd : byte &&& 1 ≠ 0)
      (rest : ChunkEnd stream (inner + endOfChunk.length) position) :
      ChunkEnd stream start position

variable {stream : Bytes} {start position : Nat}

theorem ChunkEnd.le (chunkEnd : ChunkEnd stream start position) : start ≤ position := by
  induction chunkEnd with
  | stop marker _ => exact marker.le
  | skip marker _ _ _ ih => exact Nat.le_trans marker.le (Nat.le_trans (Nat.le_add_right _ _) ih)

/-- The two loops over markers find the end of the chunk. -/
theorem skipMarkers_run {buffer : Block} {base : Nat} (holds : buffer.Holds base stream)
    (chunkEnd : ChunkEnd stream start position) :
    ∃ first, findBytes buffer endOfChunk (base + start) (stream.length - start) =
        .ret (some (base + first)) ∧
      ∀ fuel, stream.length - start < fuel →
        skipMarkers buffer base stream.length fuel first = .ret (some position) := by
  have next_byte : ∀ {q : Nat}, q + endOfChunk.length < stream.length →
      ∃ byte, stream[q + endOfChunk.length]? = some byte ∧
        buffer.load (base + q + endOfChunk.length) 1 = some [byte] := by
    intro q inside
    refine ⟨stream[q + endOfChunk.length], List.getElem?_eq_getElem inside, ?_⟩
    rw [Nat.add_assoc, Block.load_within holds (by omega), List.drop_eq_getElem_cons inside]
    rfl
  induction chunkEnd with
  | @stop start position marker even =>
      refine ⟨position, findBytes_of_firstFrom holds marker, ?_⟩
      intro fuel enough
      cases fuel with
      | zero => omega
      | succ fuel =>
          rw [skipMarkers]
          by_cases inside : position + endOfChunk.length < stream.length
          · rcases next_byte inside with ⟨byte, next, loaded⟩
            rw [if_pos inside, loaded, Exit.ofAccess_some, Exit.bind_ret]
            exact if_neg (not_not_intro (even byte next))
          · rw [if_neg inside]
  | @skip start inner position byte marker next odd rest ih =>
      refine ⟨inner, findBytes_of_firstFrom holds marker, ?_⟩
      intro fuel enough
      have le := marker.le
      have four : endOfChunk.length = 4 := rfl
      have inside : inner + endOfChunk.length < stream.length := (List.getElem?_eq_some_iff.1 next).1
      rcases next_byte inside with ⟨byte', next', loaded⟩
      rcases ih with ⟨first, found, later⟩
      rw [next, Option.some.injEq] at next'
      subst next'
      cases fuel with
      | zero => omega
      | succ fuel =>
          rw [skipMarkers, if_pos inside, loaded, Exit.ofAccess_some, Exit.bind_ret]
          rw [if_pos (show [byte].headD 0 &&& 1 ≠ 0 from odd)]
          simp only
          rw [found, Exit.bind_ret]
          simp only
          rw [Nat.add_sub_cancel_left]
          exact later fuel (by omega)

theorem chunkSize_run {buffer : Block} {base : Nat} (holds : buffer.Holds base stream)
    (chunkEnd : ChunkEnd stream 0 position) :
    chunkSize buffer base stream.length = .ret (some position) := by
  rcases skipMarkers_run holds chunkEnd with ⟨first, found, later⟩
  have size := holds.1
  rw [Nat.add_zero, Nat.sub_zero] at found
  rw [chunkSize, found, Exit.bind_ret]
  simp only
  rw [Nat.add_sub_cancel_left]
  exact later _ (by omega)

/-! ### Streams of chunks -/

theorem endOfChunk_borderless : Borderless endOfChunk := by decide

/-- Chunks, each one with a marker behind it. -/
def joined (chunks : List Bytes) : Bytes := (chunks.map (· ++ endOfChunk)).flatten

theorem joined_cons (chunk : Bytes) (chunks : List Bytes) :
    joined (chunk :: chunks) = chunk ++ (endOfChunk ++ joined chunks) := by
  rw [joined, List.map_cons, List.flatten_cons, List.append_assoc]
  rfl

theorem joined_append (one two : List Bytes) : joined (one ++ two) = joined one ++ joined two := by
  rw [joined, List.map_append, List.flatten_append]
  rfl

/-- In the stream that the chunks and `tail` make up, every chunk ends at its own marker. -/
def Segmented : List Bytes → Bytes → Prop
  | [], _ => True
  | chunk :: chunks, tail =>
      ChunkEnd (chunk ++ (endOfChunk ++ (joined chunks ++ tail))) 0 chunk.length ∧
        Segmented chunks tail

/-- What a search has found does not depend on what comes behind it. -/
theorem ChunkEnd.of_append {more : Bytes} (chunkEnd : ChunkEnd (stream ++ more) start position)
    (inside : position + endOfChunk.length ≤ stream.length) : ChunkEnd stream start position := by
  induction chunkEnd with
  | stop marker even =>
      apply ChunkEnd.stop ((firstFrom_append_iff inside).1 marker)
      intro byte next
      apply even byte
      rw [List.getElem?_append_left (List.getElem?_eq_some_iff.1 next).1]
      exact next
  | @skip start inner position byte marker next odd rest ih =>
      have le := rest.le
      have four : endOfChunk.length = 4 := rfl
      have within : inner + endOfChunk.length < stream.length := by omega
      rw [List.getElem?_append_left within] at next
      exact .skip ((firstFrom_append_iff (by omega)).1 marker) next odd (ih inside)

theorem Segmented.of_append {chunks : List Bytes} {tail more : Bytes}
    (segmented : Segmented chunks (tail ++ more)) : Segmented chunks tail := by
  induction chunks with
  | nil => trivial
  | cons chunk chunks ih =>
      rcases segmented with ⟨chunkEnd, others⟩
      refine ⟨?_, ih others⟩
      rw [← List.append_assoc (joined chunks), ← List.append_assoc endOfChunk,
        ← List.append_assoc chunk] at chunkEnd
      apply chunkEnd.of_append
      rw [List.length_append, List.length_append]
      omega

theorem Segmented.left {one two : List Bytes} {tail : Bytes} (segmented : Segmented (one ++ two) tail) :
    Segmented one (joined two ++ tail) := by
  induction one with
  | nil => trivial
  | cons chunk one ih =>
      rcases segmented with ⟨chunkEnd, others⟩
      rw [List.append_eq, joined_append, List.append_assoc] at chunkEnd
      exact ⟨chunkEnd, ih others⟩

theorem Segmented.right {one two : List Bytes} {tail : Bytes}
    (segmented : Segmented (one ++ two) tail) : Segmented two tail := by
  induction one with
  | nil => exact segmented
  | cons chunk one ih => exact ih segmented.2

/-- The end of a chunk is found if every marker inside the chunk has an odd byte behind it, still
inside the chunk, and what follows the chunk's own marker starts with an even byte. -/
theorem chunkEnd_of_conditions {chunk rest : Bytes}
    (inner : ∀ position, Occurs endOfChunk chunk position →
      ∃ byte, chunk[position + endOfChunk.length]? = some byte ∧ byte &&& 1 = 1)
    (follow : ∀ byte, rest.head? = some byte → byte &&& 1 = 0) (remaining : Nat) :
    ∀ start, start + remaining = chunk.length →
      ChunkEnd (chunk ++ (endOfChunk ++ rest)) start chunk.length := by
  have own : Occurs endOfChunk (chunk ++ (endOfChunk ++ rest)) chunk.length :=
    (occurs_append_right_iff chunk).2 (occurs_append_self endOfChunk rest)
  induction remaining using Nat.strongRecOn with
  | ind remaining ih =>
      intro start there
      rcases exists_firstFrom (show start ≤ chunk.length by omega) own with ⟨first, le, marker⟩
      by_cases here : first = chunk.length
      · subst here
        apply ChunkEnd.stop marker
        intro byte next
        apply follow byte
        rw [List.getElem?_append_right (Nat.le_add_right _ _), Nat.add_sub_cancel_left,
          List.getElem?_append_right (Nat.le_refl _), Nat.sub_self] at next
        rw [List.head?_eq_getElem?]
        exact next
      · -- markers do not overlap, so this one lies inside the chunk
        have apart := occurs_apart endOfChunk_borderless marker.occurs own (by omega)
        rcases inner first ((occurs_append_iff apart).1 marker.occurs) with ⟨byte, next, odd⟩
        have within := (List.getElem?_eq_some_iff.1 next).1
        have low := marker.le
        apply ChunkEnd.skip marker
        · rw [List.getElem?_append_left within]
          exact next
        · rw [odd]
          decide
        · exact ih (chunk.length - (first + endOfChunk.length))
            (by have four : endOfChunk.length = 4 := rfl; omega) _ (by omega)

/-- Chunks whose inner markers have an odd byte behind them and whose first bytes, but for the first
chunk, are even are told apart. -/
theorem segmented_of_conditions {chunks : List Bytes}
    (inner : ∀ chunk ∈ chunks, ∀ position, Occurs endOfChunk chunk position →
      ∃ byte, chunk[position + endOfChunk.length]? = some byte ∧ byte &&& 1 = 1)
    (follow : ∀ chunk ∈ chunks.tail, ∀ byte, chunk.head? = some byte → byte &&& 1 = 0) :
    Segmented chunks [] := by
  induction chunks with
  | nil => trivial
  | cons chunk chunks ih =>
      constructor
      · apply chunkEnd_of_conditions (inner chunk List.mem_cons_self) _ chunk.length 0
          (Nat.zero_add _)
        intro byte first
        rw [List.append_nil] at first
        cases chunks with
        | nil => cases first
        | cons next chunks =>
            rw [joined_cons] at first
            cases next with
            | nil =>
                rw [← Option.some.inj first]
                rfl
            | cons byte' next => exact follow _ List.mem_cons_self byte first
      · apply ih
        · exact fun chunk member => inner chunk (List.mem_cons_of_mem _ member)
        · exact fun chunk member => follow chunk (List.mem_of_mem_tail member)

end Unshield
