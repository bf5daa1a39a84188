/-
Module: Unshield.Proofs.PortionChunks
Purpose: What comes of old-format data when the portion of each volume is unpacked by itself, and that
  cuts between the chunks of a stream do not matter to it.
Trusted boundary: none
Main exports: Unpacks, portions, UnpacksEach, Extracts, unpacks_of_extracts, CutsBetween,
  unpacksEach_of_cutsBetween
-/
import Unshield.Core.Save
import Unshield.Foundation.Bits
import Unshield.Foundation.SegmentedStream
import Unshield.Proofs.Segmentation
import Unshield.Proofs.UncompressSteps
import Mathlib.Data.List.SplitLengths

namespace Unshield

open Procedure

/-! ### Portion by portion

The output of a portion depends on no more than the bytes of the portion, the memory that they are read
into and the number of bytes that the file still lacks.
-/

/-- The input from `start` on comes to an output, chunk after chunk, as long as there is input left and
the file lacks something.  The search for the end of a chunk may go on behind the input: then it finds a
marker in what the buffer held before. -/
inductive Unpacks (zlib : Zlib) : Block → Nat → UInt64 → UInt32 → Bytes → Block → UInt32 → Prop where
  | done {memory : Block} {start : Nat} {size : UInt64} {left : UInt32} (ended : size = 0 ∨ left = 0) :
      Unpacks zlib memory start size left [] memory left
  | chunk {memory terminated memory' : Block} {start length : Nat} {size : UInt64} {left left' : UInt32}
      {source output more : Bytes} (unfinished : ¬ (size = 0 ∨ left = 0))
      (found : chunkSize memory start size.toNat = .ret (some length))
      (stored : memory.store (start + length) [0] = some terminated)
      (loaded : terminated.load start length = some source)
      (inflates : InflatesOld zlib source output)
      (others : Unpacks zlib terminated (start + length + endOfChunk.length)
        (size - UInt64.ofNat length - UInt64.ofNat endOfChunk.length)
        (left - UInt32.ofNat output.length) more memory' left') :
      Unpacks zlib memory start size left (output ++ more) memory' left'

/-- The parts of a stream that lie in the segments. -/
def portions (segments : List Bytes) (stream : Bytes) : List Bytes :=
  (segments.map List.length).splitLengths stream

theorem portions_cons (segment : Bytes) (rest : List Bytes) (stream : Bytes) :
    portions (segment :: rest) stream =
      stream.take segment.length :: portions rest (stream.drop segment.length) :=
  List.splitLengths_cons _ _ _

/-- The portions come to an output, one after the other, as long as the file lacks something. -/
inductive UnpacksEach (zlib : Zlib) : Block → UInt32 → List Bytes → Bytes → Prop where
  | done {memory : Block} {parts : List Bytes} : UnpacksEach zlib memory 0 parts []
  | portion {memory filled memory' : Block} {left left' : UInt32} {part output more : Bytes}
      {parts : List Bytes} (unfinished : left ≠ 0)
      (read : (memory.resize (growBuffer part.length part.length memory.size)).store 0 part = some filled)
      (unpacks : Unpacks zlib filled 0 (UInt64.ofNat part.length) left output memory' left')
      (others : UnpacksEach zlib memory' left' parts more) :
      UnpacksEach zlib memory left (part :: parts) (output ++ more)

variable {zlib : Zlib} {left left' : UInt32}

/-- Nothing comes of no portion. -/
theorem UnpacksEach.of_nil {memory : Block} {output : Bytes}
    (unpacks : UnpacksEach zlib memory left [] output) : output = [] := by
  cases unpacks
  rfl

/-- Unpacking writes into the buffer and leaves its size alone. -/
theorem Unpacks.size_memory {memory memory' : Block} {start : Nat} {size : UInt64} {output : Bytes}
    (unpacks : Unpacks zlib memory start size left output memory' left') : memory'.size = memory.size := by
  induction unpacks with
  | done _ => rfl
  | chunk _ _ stored _ _ _ ih => exact ih.trans (Block.size_of_store stored)

theorem le_growBuffer (inputSize fuel : Nat) :
    ∀ inputBufferSize, 0 < inputBufferSize → inputSize ≤ inputBufferSize + fuel →
      inputSize ≤ growBuffer inputSize fuel inputBufferSize ∧
        0 < growBuffer inputSize fuel inputBufferSize := by
  induction fuel with
  | zero =>
      intro inputBufferSize positive enough
      exact ⟨enough, positive⟩
  | succ fuel ih =>
      intro inputBufferSize positive enough
      rw [growBuffer]
      split
      · exact ih _ (by omega) (by omega)
      · exact ⟨by omega, positive⟩

/-- The buffer grows so far that the portion fits. -/
theorem exists_filled {memory : Block} (positive : 0 < memory.size) (part : Bytes) :
    ∃ filled, (memory.resize (growBuffer part.length part.length memory.size)).store 0 part = some filled ∧
      0 < filled.size := by
  obtain ⟨fits, still_positive⟩ := le_growBuffer part.length part.length memory.size positive (by omega)
  obtain ⟨filled, stored⟩ := Block.store_isSome
    (memory.resize (growBuffer part.length part.length memory.size))
    (show 0 + part.length ≤ _ by rw [Nat.zero_add]; exact fits)
  refine ⟨filled, stored, ?_⟩
  rw [Block.size_of_store stored]
  exact still_positive

/-! ### Chunks that are told apart -/

/-- Chunk after chunk decompresses, each one while `bytes_left` is not zero: from `left` the counter
goes down to `left'`. -/
inductive Extracts (zlib : Zlib) : UInt32 → List Bytes → Bytes → UInt32 → Prop where
  | done (left : UInt32) : Extracts zlib left [] [] left
  | chunk {left left' : UInt32} {chunk output more : Bytes} {chunks : List Bytes} (unfinished : left ≠ 0)
      (inflates : InflatesOld zlib chunk output)
      (others : Extracts zlib (left - UInt32.ofNat output.length) chunks more left') :
      Extracts zlib left (chunk :: chunks) (output ++ more) left'

theorem Extracts.of_nil {output : Bytes} (extracts : Extracts zlib left [] output left') :
    left = left' ∧ output = [] := by
  cases extracts
  exact ⟨rfl, rfl⟩

theorem Extracts.unfinished_of_cons {chunk output : Bytes} {chunks : List Bytes}
    (extracts : Extracts zlib left (chunk :: chunks) output left') : left ≠ 0 := by
  cases extracts
  assumption

theorem Extracts.append_left {one two : List Bytes} {output : Bytes}
    (extracts : Extracts zlib left (one ++ two) output left') :
    ∃ middle first second, Extracts zlib left one first middle ∧
      Extracts zlib middle two second left' ∧ output = first ++ second := by
  induction one generalizing left output with
  | nil => exact ⟨left, [], output, .done left, extracts, rfl⟩
  | cons chunk one ih =>
      cases extracts with
      | @chunk _ _ _ firstOutput more _ unfinished inflates others =>
          obtain ⟨middle, first, second, front, back, eq⟩ := ih others
          refine ⟨middle, firstOutput ++ first, second, .chunk unfinished inflates front, back, ?_⟩
          rw [eq, List.append_assoc]

/-- Chunks that all decompress, to as many bytes as the counter says, are extracted until the counter
is zero; the chunks left over are empty. -/
theorem exists_extracts {chunks outputs : List Bytes}
    (inflates : List.Forall₂ (InflatesOld zlib) chunks outputs) :
    ∀ {left : UInt32}, left.toNat = outputs.flatten.length →
      ∃ one two, chunks = one ++ two ∧ Extracts zlib left one outputs.flatten 0 := by
  induction inflates with
  | nil =>
      intro left size
      obtain rfl : left = 0 := UInt32.toNat_inj.1 size
      exact ⟨[], [], rfl, .done 0⟩
  | @cons chunk output chunks outputs first _ ih =>
      intro left size
      by_cases finished : left = 0
      · subst finished
        have nothing : (output :: outputs).flatten = [] := List.length_eq_zero_iff.1 size.symm
        rw [nothing]
        exact ⟨[], chunk :: chunks, rfl, .done 0⟩
      · rw [List.flatten_cons, List.length_append] at size
        have next : (left - UInt32.ofNat output.length).toNat = outputs.flatten.length := by
          rw [Bits.uint32_sub_ofNat (by omega), size, Nat.add_sub_cancel_left]
        obtain ⟨one, two, eq, others⟩ := ih next
        rw [List.flatten_cons]
        exact ⟨chunk :: one, two, by rw [eq]; rfl, .chunk finished first others⟩

/-- What is left of the input behind a chunk and its marker. -/
theorem toNat_behind_chunk {size : UInt64} {chunk rest : Bytes}
    (whole : size.toNat = (chunk ++ (endOfChunk ++ rest)).length) :
    (size - UInt64.ofNat chunk.length - UInt64.ofNat endOfChunk.length).toNat = rest.length := by
  rw [List.length_append, List.length_append] at whole
  have four : endOfChunk.length = 4 := rfl
  have bound := size.toNat_lt
  have word : (UInt64.ofNat chunk.length).toNat = chunk.length :=
    UInt64.toNat_ofNat_of_lt' (show chunk.length < 2 ^ 64 by omega)
  have first : (size - UInt64.ofNat chunk.length).toNat = 4 + rest.length := by
    rw [UInt64.toNat_sub_of_le _ _ (by rw [UInt64.le_iff_toNat_le]; omega)]
    omega
  have marker : (UInt64.ofNat endOfChunk.length).toNat = 4 := rfl
  rw [UInt64.toNat_sub_of_le _ _ (by rw [UInt64.le_iff_toNat_le]; omega), first, marker]
  omega

/-- Chunks that end at their own markers and are extracted are what the input comes to. -/
theorem unpacks_of_extracts {chunks : List Bytes} {output : Bytes}
    (extracts : Extracts zlib left chunks output left') :
    ∀ {memory : Block} {start : Nat} {size : UInt64} {tail : Bytes},
      memory.Holds start (joined chunks ++ tail) → size.toNat = (joined chunks ++ tail).length →
      Segmented chunks tail → tail = [] ∨ left' = 0 →
      Unpacks zlib memory start size left output memory left' := by
  induction extracts with
  | done left =>
      intro memory start size tail _ length _ finished
      refine .done (finished.imp ?_ id)
      rintro rfl
      exact UInt64.toNat_inj.1 length
  | @chunk left left' chunk output more chunks unfinished inflates others ih =>
      intro memory start size tail holds length segmented finished
      rw [joined_cons, List.append_assoc, List.append_assoc] at holds length
      obtain ⟨chunkHeld, behind⟩ := Block.holds_append.1 holds
      obtain ⟨markerHeld, restHeld⟩ := Block.holds_append.1 behind
      -- the null byte behind the chunk overwrites the first byte of its marker, which is null
      have null : memory.store (start + chunk.length) [0] = some memory := by
        rw [show endOfChunk = [0] ++ [0, 0xff, 0xff] from rfl, Block.holds_append] at markerHeld
        exact Block.store_of_holds markerHeld.1
      have some_input : ¬ (size = 0 ∨ left = 0) := by
        rintro (zero | zero)
        · rw [zero, List.length_append, List.length_append] at length
          exact absurd length (show ¬ 0 = _ + (4 + _) by omega)
        · exact unfinished zero
      refine .chunk some_input ?_ null (Block.load_of_holds chunkHeld) inflates
        (ih restHeld (toNat_behind_chunk length) segmented.2 finished)
      rw [length]
      exact chunkSize_run holds segmented.1

/-! ### Cuts between chunks -/

/-- Every cut of the segments before the end of the chunks is a cut between two chunks. -/
def CutsBetween (segments chunks : List Bytes) : Prop :=
  ∀ position, SegmentedStream.IsEnd segments position → position < (joined chunks).length →
    ∃ one two, chunks = one ++ two ∧ position = (joined one).length

/-- The cuts behind the first segment are cuts between the chunks that are not in it. -/
theorem CutsBetween.later {segment : Bytes} {rest one two : List Bytes}
    (cuts : CutsBetween (segment :: rest) (one ++ two))
    (length : segment.length = (joined one).length) : CutsBetween rest two := by
  intro position isEnd inside
  have behind : SegmentedStream.IsEnd (segment :: rest) (segment.length + position) :=
    Or.inr ⟨Nat.le_add_right _ _, by rw [Nat.add_sub_cancel_left]; exact isEnd⟩
  obtain ⟨front, back, eq, place⟩ := cuts _ behind (by rw [joined_append, List.length_append]; omega)
  -- the first chunks up to the cut include all of the first segment
  rcases List.append_eq_append_iff.1 eq with ⟨middle, frontEq, twoEq⟩ | ⟨middle, oneEq, _⟩
  · refine ⟨middle, back, twoEq, ?_⟩
    rw [frontEq, joined_append, List.length_append] at place
    omega
  · refine ⟨[], two, rfl, ?_⟩
    rw [oneEq, joined_append, List.length_append] at length
    show position = 0
    omega

theorem length_joined_cons (chunk : Bytes) (chunks : List Bytes) :
    (joined (chunk :: chunks)).length = chunk.length + 4 + (joined chunks).length := by
  rw [joined_cons, List.length_append, List.length_append, Nat.add_assoc]
  rfl

/-- A portion that is filled in is unpacked as its chunks are extracted. -/
theorem unpacksEach_cons {memory : Block} {chunks parts : List Bytes} {part tail output more : Bytes}
    (positive : 0 < memory.size) (unfinished : left ≠ 0) (shape : part = joined chunks ++ tail)
    (small : part.length < 2 ^ 64) (segmented : Segmented chunks tail)
    (extracts : Extracts zlib left chunks output left') (finished : tail = [] ∨ left' = 0)
    (others : ∀ memory' : Block, 0 < memory'.size → UnpacksEach zlib memory' left' parts more) :
    UnpacksEach zlib memory left (part :: parts) (output ++ more) := by
  obtain ⟨filled, read, filled_positive⟩ := exists_filled positive part
  refine .portion unfinished read ?_ (others filled filled_positive)
  subst shape
  exact unpacks_of_extracts extracts (Block.holds_store read) (UInt64.toNat_ofNat_of_lt' small) segmented
    finished

/-- A stream that is cut between its chunks comes to what the chunks are extracted to. -/
theorem unpacksEach_of_cutsBetween (segments : List Bytes) :
    ∀ {memory : Block} {left : UInt32} {chunks : List Bytes} {tail output : Bytes}, 0 < memory.size →
      segments.flatten.length = (joined chunks ++ tail).length → segments.flatten.length < 2 ^ 64 →
      Segmented chunks tail → CutsBetween segments chunks → Extracts zlib left chunks output 0 →
      UnpacksEach zlib memory left (portions segments (joined chunks ++ tail)) output := by
  induction segments with
  | nil =>
      intro memory left chunks tail output _ length _ _ _ extracts
      cases chunks with
      | nil =>
          obtain ⟨rfl, rfl⟩ := extracts.of_nil
          exact .done
      | cons chunk chunks =>
          rw [List.length_append, length_joined_cons] at length
          exact absurd length (show ¬ 0 = _ + 4 + _ + _ by omega)
  | cons segment rest ih =>
      intro memory left chunks tail output positive length small segmented cuts extracts
      cases chunks with
      | nil =>
          obtain ⟨rfl, rfl⟩ := extracts.of_nil
          exact .done
      | cons chunk chunks =>
          have unfinished := extracts.unfinished_of_cons
          rw [List.flatten_cons, List.length_append] at length small
          rw [portions_cons]
          by_cases inside : segment.length < (joined (chunk :: chunks)).length
          · -- the segment ends between two chunks
            obtain ⟨one, two, eq, place⟩ := cuts _ (Or.inl rfl) inside
            rw [eq] at extracts segmented cuts length ⊢
            rw [joined_append, List.append_assoc] at length ⊢
            rw [List.length_append] at length
            obtain ⟨middle, first, second, front, back, rfl⟩ := extracts.append_left
            rw [place, List.take_left, List.drop_left]
            have in_one : Segmented one ([] ++ (joined two ++ tail)) := segmented.left
            refine unpacksEach_cons positive unfinished (List.append_nil _).symm (by omega)
              in_one.of_append front (Or.inl rfl) fun memory' positive' => ?_
            exact ih positive' (by omega) (by omega) segmented.right (cuts.later place) back
          · -- the last chunk that is needed lies in this segment
            have taken : (joined (chunk :: chunks) ++ tail).take segment.length =
                joined (chunk :: chunks) ++
                  tail.take (segment.length - (joined (chunk :: chunks)).length) := by
              rw [List.take_append, List.take_of_length_le (Nat.le_of_not_lt inside)]
            have in_segment : Segmented (chunk :: chunks)
                (tail.take (segment.length - (joined (chunk :: chunks)).length) ++
                  tail.drop (segment.length - (joined (chunk :: chunks)).length)) := by
              rw [List.take_append_drop]
              exact segmented
            have short : ((joined (chunk :: chunks) ++ tail).take segment.length).length < 2 ^ 64 := by
              rw [List.length_take]
              omega
            rw [← List.append_nil output]
            exact unpacksEach_cons positive unfinished taken short in_segment.of_append extracts
              (Or.inr rfl) fun _ _ => .done

end Unshield
