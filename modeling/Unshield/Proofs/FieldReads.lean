/-
Module: Unshield.Proofs.FieldReads
Purpose: Which bytes of a block the readers of its fields need: every field is read exactly if the block
  reaches to its last byte.
Trusted boundary: none
Main exports: mulInt_of_le, mulInt_of_gt, readUint32_isSome_iff, readWords_isSome_iff, parseHeader_zeros,
  readCommonHeader_orderly, readVolumeHeader_isSome
-/
import Unshield.Core.OpenCabinet

namespace Unshield

open Procedure

/-! ### Products of two ints -/

theorem mulInt_of_le {one two : Int} (fits : one * two ≤ intMax) : mulInt one two = .ret (one * two) :=
  if_pos fits

theorem mulInt_of_gt {one two : Int} (overflow : intMax < one * two) : mulInt one two = .fault :=
  if_neg (Int.not_le.2 overflow)

/-! ### Little-endian fields -/

section

variable {block : Bytes} {p : Nat}

theorem readUint32_isSome_iff : (readUint32 block p).isSome ↔ p + 4 ≤ block.length := by
  rw [readUint32]
  constructor
  · intro read
    obtain ⟨word, read⟩ := Option.isSome_iff_exists.1 read
    simp only [Option.bind_eq_bind, Option.bind_eq_some_iff] at read
    obtain ⟨_, _, _, _, _, _, byte3, last, _⟩ := read
    exact (List.getElem?_eq_some_iff.1 last).1
  · intro inside
    simp only [List.getElem?_eq_getElem (show p < block.length by omega),
      List.getElem?_eq_getElem (show p + 1 < block.length by omega),
      List.getElem?_eq_getElem (show p + 2 < block.length by omega),
      List.getElem?_eq_getElem (show p + 3 < block.length by omega), Option.bind_eq_bind,
      Option.bind_some, Option.isSome_some]

theorem readUint32_of_le (inside : p + 4 ≤ block.length) : ∃ word, readUint32 block p = some word :=
  Option.isSome_iff_exists.1 (readUint32_isSome_iff.2 inside)

theorem readUint32_eq_none (outside : block.length < p + 4) : readUint32 block p = none := by
  rw [← Option.not_isSome_iff_eq_none, readUint32_isSome_iff]
  omega

/-- A row of words is read exactly if the block reaches to the last of them. -/
theorem readWords_isSome_iff {count : Nat} (some_words : 0 < count) :
    (readWords block p count).isSome ↔ p + 4 * count ≤ block.length := by
  induction count with
  | zero => cases some_words
  | succ count ih =>
      rw [readWords]
      constructor
      · intro read
        obtain ⟨words, read⟩ := Option.isSome_iff_exists.1 read
        simp only [Option.bind_eq_bind, Option.bind_eq_some_iff] at read
        obtain ⟨_, _, word, last, _⟩ := read
        have inside := readUint32_isSome_iff.1 (Option.isSome_iff_exists.2 ⟨word, last⟩)
        omega
      · intro inside
        obtain ⟨word, last⟩ := @readUint32_of_le block (p + 4 * count) (by omega)
        have front : ∃ words, readWords block p count = some words := by
          cases count with
          | zero => exact ⟨[], rfl⟩
          | succ count => exact Option.isSome_iff_exists.1 ((ih (Nat.succ_pos _)).2 (by omega))
        obtain ⟨words, front⟩ := front
        simp only [front, last, Option.bind_eq_bind, Option.bind_some, Option.isSome_some]

theorem length_readWords {count : Nat} {words : List UInt32}
    (read : readWords block p count = some words) : words.length = count := by
  induction count generalizing words with
  | zero =>
      rw [← Option.some.inj read]
      rfl
  | succ count ih =>
      rw [readWords] at read
      simp only [Option.bind_eq_bind, Option.bind_eq_some_iff, Option.some.injEq] at read
      obtain ⟨front, readFront, word, _, rfl⟩ := read
      rw [List.length_append, ih readFront]
      rfl

end

/-! ### Zeros -/

section

variable {front rest : Bytes} {n p : Nat}

theorem getElem?_zeros (behind : front.length ≤ p) (inside : p < front.length + n) :
    (front ++ List.replicate n 0 ++ rest)[p]? = some 0 := by
  rw [List.getElem?_append_left (by rw [List.length_append, List.length_replicate]; exact inside),
    List.getElem?_append_right behind, List.getElem?_replicate_of_lt (by omega)]

theorem readUint32_zeros (behind : front.length ≤ p) (inside : p + 4 ≤ front.length + n) :
    readUint32 (front ++ List.replicate n 0 ++ rest) p = some 0 := by
  rw [readUint32, getElem?_zeros behind (by omega), getElem?_zeros (by omega) (by omega),
    getElem?_zeros (by omega) (by omega), getElem?_zeros (by omega) (by omega)]
  rfl

/-- Words are zero where the block is. -/
theorem readWords_zeros {count : Nat} (behind : front.length ≤ p)
    (inside : p + 4 * count ≤ front.length + n) :
    readWords (front ++ List.replicate n 0 ++ rest) p count = some (List.replicate count 0) := by
  induction count with
  | zero => rfl
  | succ count ih =>
      rw [readWords, ih (by omega), readUint32_zeros (by omega) (by omega), List.replicate_succ']
      rfl

/-- The lists of buckets without an offset are empty. -/
theorem followBuckets_zeros {Entry : Type} (header : Header) (newEntry : UInt32 → Exit Entry)
    (fuel count : Nat) (array : GrowingArray Entry) :
    followBuckets header newEntry (fuel + 1) (List.replicate count 0) array = .ret array := by
  induction count with
  | zero => rfl
  | succ count ih =>
      rw [List.replicate_succ, followBuckets, followOffsets, if_pos rfl]
      exact ih

/-- A header with zeros for the buckets of its offset lists has no components and no file groups. -/
theorem parseHeader_zeros {bigEndian : Bool} {fuel : Nat} {version index : Int} {data : Bytes}
    {common : CommonHeader} {cab : CabDescriptor} {fileTable : List UInt32}
    (zeros : data = front ++ List.replicate n 0 ++ rest) (signed : readCommonHeader data = .ret common)
    (present : common.cabDescriptorSize ≠ 0)
    (behind : front.length ≤ common.cabDescriptorOffset.toNat + 0x3e)
    (inside : common.cabDescriptorOffset.toNat + 0x276 ≤ front.length + n)
    (tableOffset : readUint32 data (common.cabDescriptorOffset.toNat + 0x0c) = some cab.fileTableOffset)
    (directories : readUint32 data (common.cabDescriptorOffset.toNat + 0x1c) = some cab.directoryCount)
    (files : readUint32 data (common.cabDescriptorOffset.toNat + 0x28) = some cab.fileCount)
    (tableOffset2 : readUint32 data (common.cabDescriptorOffset.toNat + 0x2c) = some cab.fileTableOffset2)
    (table : getFileTable data common cab = .ret fileTable) :
    parseHeader bigEndian (fuel + 1) version index data =
      .ret { header := { index, data, majorVersion := majorVersionOf version common, common, cab, fileTable }
             components := []
             fileGroups := [] } := by
  have fileGroupOffsets : readWords data (common.cabDescriptorOffset.toNat + 0x3e) maxFileGroupCount =
      some (List.replicate maxFileGroupCount 0) := by
    rw [zeros]
    exact readWords_zeros behind (by rw [maxFileGroupCount]; omega)
  have componentOffsets : readWords data (common.cabDescriptorOffset.toNat + 0x15a) maxComponentCount =
      some (List.replicate maxComponentCount 0) := by
    rw [zeros]
    exact readWords_zeros (by omega) (by rw [maxComponentCount]; omega)
  have descriptor : getCabDescriptor data common =
      .ret (cab, { fileGroupOffsets := List.replicate maxFileGroupCount 0
                   componentOffsets := List.replicate maxComponentCount 0 }) := by
    rw [getCabDescriptor, if_pos present]
    simp only [tableOffset, directories, files, tableOffset2, fileGroupOffsets, componentOffsets,
      Exit.ofAccess_some, Exit.bind_ret, Exit.pure_eq]
  rw [parseHeader, signed, Exit.bind_ret, descriptor, Exit.bind_ret]
  simp only [table, getComponents, getFileGroups, followBuckets_zeros, Exit.bind_ret, Exit.pure_eq]
  rfl

end

/-! ### Headers of a volume -/

/-- A common header that is all there is read, or its signature is wrong. -/
theorem readCommonHeader_orderly {p : Bytes} (whole : commonHeaderSize ≤ p.length) :
    (∃ common, readCommonHeader p = .ret common) ∨ readCommonHeader p = .fail := by
  rw [commonHeaderSize] at whole
  obtain ⟨signature, word0⟩ := @readUint32_of_le p 0 (by omega)
  obtain ⟨version, word1⟩ := @readUint32_of_le p 4 (by omega)
  obtain ⟨info, word2⟩ := @readUint32_of_le p 8 (by omega)
  obtain ⟨offset, word3⟩ := @readUint32_of_le p 12 (by omega)
  obtain ⟨size, word4⟩ := @readUint32_of_le p 16 (by omega)
  rw [readCommonHeader]
  simp only [word0, word1, word2, word3, word4, Exit.ofAccess_some, Exit.bind_ret, Exit.pure_eq]
  split
  · exact Or.inr rfl
  · exact Or.inl ⟨_, rfl⟩

theorem exists_bind_eq_some {α β : Type} {loaded : Option α} {next : α → Option β}
    (first : ∃ value, loaded = some value) (rest : ∀ value, ∃ result, next value = some result) :
    ∃ result, (loaded >>= next) = some result := by
  obtain ⟨value, rfl⟩ := first
  exact rest value

theorem readVolumeHeader_isSome {header : Header} {p : Bytes}
    (whole : volumeHeaderSize header ≤ p.length) :
    ∃ volumeHeader, readVolumeHeader header p = some volumeHeader := by
  rw [volumeHeaderSize] at whole
  rw [readVolumeHeader]
  split
  · rename_i old
    rw [if_pos old, volumeHeaderSizeV5] at whole
    rw [readVolumeHeaderV5]
    repeat refine exists_bind_eq_some (readUint32_of_le (by omega)) fun _ => ?_
    exact ⟨_, rfl⟩
  · rename_i new
    rw [if_neg new, volumeHeaderSizeV6] at whole
    rw [readVolumeHeaderV6]
    repeat refine exists_bind_eq_some (readUint32_of_le (by omega)) fun _ => ?_
    exact ⟨_, rfl⟩

end Unshield
