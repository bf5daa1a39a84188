/-
Module: Unshield.Proofs.HeaderBounds
Purpose: Which bytes of a header the parsing of its tables reads, and which entries of the file table are
  read later.
Trusted boundary: none
Main exports: readTables, parseHeader_eq, getFileTable_cases, getCabDescriptor_orderly_iff, TablesInside,
  readTables_orderly_iff, ReadsBelow, file_table_reads_in_range
-/
import Unshield.Foundation.Bits
import Unshield.Proofs.FieldReads

namespace Unshield

open Procedure

/-! ### The tables of a header -/

/-- The common header, the cabinet descriptor and the file table, in the order in which they are read. -/
def readTables (data : Bytes) : Exit (CommonHeader × (CabDescriptor × CabOffsets) × List UInt32) := do
  let common ← readCommonHeader data
  let descriptor ← getCabDescriptor data common
  let fileTable ← getFileTable data common descriptor.1
  pure (common, descriptor, fileTable)

/-- Parsing a header starts with its tables. -/
theorem parseHeader_eq (bigEndian : Bool) (fuel : Nat) (version index : Int) (data : Bytes) :
    parseHeader bigEndian fuel version index data =
      (do
        let (common, (cab, offsets), fileTable) ← readTables data
        let header : Header :=
          { index, data, majorVersion := majorVersionOf version common, common, cab, fileTable }
        let components ← getComponents bigEndian header fuel offsets.componentOffsets
        let fileGroups ← getFileGroups bigEndian header fuel offsets.fileGroupOffsets
        pure { header, components := components.entries, fileGroups := fileGroups.entries }) := by
  rw [parseHeader, readTables, Exit.bind_assoc]
  refine Exit.bind_congr fun common _ => ?_
  rw [Exit.bind_assoc]
  refine Exit.bind_congr fun descriptor _ => ?_
  obtain ⟨cab, offsets⟩ := descriptor
  show (getFileTable data common cab >>= _) = ((getFileTable data common cab >>= _) >>= _)
  rw [Exit.bind_assoc]
  rfl

/-- The end of the cabinet descriptor with both of its tables. -/
def cabDescriptorEnd : Nat := 0x15a + 4 * maxComponentCount

section

variable {data : Bytes} {common : CommonHeader}

/-- The file table fails or is read, all of it from inside the header. -/
theorem getFileTable_cases (cab : CabDescriptor) {start count : Nat}
    (start_eq : start = common.cabDescriptorOffset.toNat + cab.fileTableOffset.toNat)
    (count_eq : count = cab.directoryCount.toNat + cab.fileCount.toNat) :
    (getFileTable data common cab = .fail ∧ (count = 0 ∨ data.length < start + 4 * count)) ∨
      ∃ table, getFileTable data common cab = .ret table ∧ table.length = count ∧ count ≠ 0 ∧
        start + 4 * count ≤ data.length := by
  subst start_eq count_eq
  rw [getFileTable]
  split
  · rename_i empty
    exact Or.inl ⟨rfl, Or.inl empty⟩
  · rename_i nonempty
    split
    · exact Or.inl ⟨rfl, Or.inr (by omega)⟩
    · have inside : common.cabDescriptorOffset.toNat + cab.fileTableOffset.toNat +
          4 * (cab.directoryCount.toNat + cab.fileCount.toNat) ≤ data.length := by omega
      obtain ⟨table, read⟩ := Option.isSome_iff_exists.1
        ((readWords_isSome_iff (Nat.pos_of_ne_zero nonempty)).2 inside)
      rw [read]
      exact Or.inr ⟨table, rfl, length_readWords read, nonempty, inside⟩

/-- The cabinet descriptor fails if there is none; else its reads go as far as its last table does. -/
theorem getCabDescriptor_orderly_iff :
    (getCabDescriptor data common).Orderly ↔
      (common.cabDescriptorSize ≠ 0 →
        common.cabDescriptorOffset.toNat + cabDescriptorEnd ≤ data.length) := by
  rw [getCabDescriptor]
  by_cases some_descriptor : common.cabDescriptorSize ≠ 0
  · rw [if_pos some_descriptor]
    have last := @readWords_isSome_iff data (common.cabDescriptorOffset.toNat + 0x15a) maxComponentCount
      (by decide)
    simp only [Exit.orderly_ofAccess_bind_iff]
    constructor
    · rintro ⟨_, _, _, _, _, _, _, _, _, _, words, read, _⟩ _
      have inside := last.1 (Option.isSome_iff_exists.2 ⟨words, read⟩)
      rw [cabDescriptorEnd]
      omega
    · intro inside
      have inside := inside some_descriptor
      rw [cabDescriptorEnd, ← Nat.add_assoc] at inside
      obtain ⟨components, read⟩ := Option.isSome_iff_exists.1 (last.2 inside)
      rw [maxComponentCount] at inside
      obtain ⟨offset, word0⟩ :=
        @readUint32_of_le data (common.cabDescriptorOffset.toNat + 0x0c) (by omega)
      obtain ⟨directories, word1⟩ :=
        @readUint32_of_le data (common.cabDescriptorOffset.toNat + 0x1c) (by omega)
      obtain ⟨files, word2⟩ := @readUint32_of_le data (common.cabDescriptorOffset.toNat + 0x28) (by omega)
      obtain ⟨offset2, word3⟩ :=
        @readUint32_of_le data (common.cabDescriptorOffset.toNat + 0x2c) (by omega)
      obtain ⟨groups, words⟩ := Option.isSome_iff_exists.1
        ((@readWords_isSome_iff data (common.cabDescriptorOffset.toNat + 0x3e) maxFileGroupCount
          (by decide)).2 (by rw [maxFileGroupCount]; omega))
      exact ⟨offset, word0, directories, word1, files, word2, offset2, word3, groups, words, components,
        read, trivial⟩
  · rw [if_neg some_descriptor]
    exact ⟨fun _ some_size => absurd some_size some_descriptor, fun _ => trivial⟩

/-- The header has its common header, if it starts like one, and its cabinet descriptor, if it says that
there is one. -/
def TablesInside (data : Bytes) : Prop :=
  readUint32 data 0 = some cabSignature →
    commonHeaderSize ≤ data.length ∧
      ∀ offset size, readUint32 data 12 = some offset → readUint32 data 16 = some size → size ≠ 0 →
        offset.toNat + cabDescriptorEnd ≤ data.length

theorem readCommonHeader_of_short (short : data.length < commonHeaderSize)
    (signature : readUint32 data 0 = some cabSignature) : ¬ (readCommonHeader data).Orderly := by
  rw [readCommonHeader, signature, Exit.ofAccess_some, Exit.bind_ret, if_neg (not_not_intro rfl)]
  simp only [Exit.orderly_ofAccess_bind_iff]
  rintro ⟨_, _, _, _, _, _, size, last, _⟩
  rw [readUint32_eq_none short] at last
  cases last

theorem readCommonHeader_of_long (long : commonHeaderSize ≤ data.length)
    (signature : readUint32 data 0 = some cabSignature) :
    ∃ common, readCommonHeader data = .ret common ∧
      readUint32 data 12 = some common.cabDescriptorOffset ∧
      readUint32 data 16 = some common.cabDescriptorSize := by
  rw [commonHeaderSize] at long
  obtain ⟨version, word1⟩ := @readUint32_of_le data 4 (by omega)
  obtain ⟨info, word2⟩ := @readUint32_of_le data 8 (by omega)
  obtain ⟨offset, word3⟩ := @readUint32_of_le data 12 (by omega)
  obtain ⟨size, word4⟩ := @readUint32_of_le data 16 (by omega)
  rw [readCommonHeader]
  simp only [signature, word1, word2, word3, word4, Exit.ofAccess_some, Exit.bind_ret, Exit.pure_eq,
    ne_eq, not_true_eq_false, if_false]
  exact ⟨_, rfl, rfl, rfl⟩

theorem readTables_of_common (read : readCommonHeader data = .ret common) :
    (readTables data).Orderly ↔ (getCabDescriptor data common).Orderly := by
  rw [readTables, read, Exit.bind_ret]
  cases getCabDescriptor data common with
  | ret descriptor =>
      rw [Exit.bind_ret]
      rcases @getFileTable_cases data common descriptor.1 _ _ rfl rfl with
        ⟨failed, _⟩ | ⟨table, tableRead, _⟩
      · rw [failed]
        exact Iff.rfl
      · rw [tableRead]
        exact Iff.rfl
  | fail => exact Iff.rfl
  | abort => exact Iff.rfl
  | fault => exact Iff.rfl
  | timeout => exact Iff.rfl

/-- The tables of a header are read or refused without a look at any byte behind its end just if the
common header and the cabinet descriptor end inside of it. -/
theorem readTables_orderly_iff (four : 4 ≤ data.length) :
    (readTables data).Orderly ↔ TablesInside data := by
  obtain ⟨signature, word⟩ := @readUint32_of_le data 0 (by omega)
  by_cases right : signature = cabSignature
  · subst right
    by_cases long : commonHeaderSize ≤ data.length
    · obtain ⟨common, read, offset, size⟩ := readCommonHeader_of_long long word
      rw [readTables_of_common read, getCabDescriptor_orderly_iff, TablesInside, offset, size]
      constructor
      · intro inside _
        refine ⟨long, ?_⟩
        rintro _ _ same same' some_descriptor
        obtain rfl := Option.some.inj same
        obtain rfl := Option.some.inj same'
        exact inside some_descriptor
      · exact fun inside => (inside word).2 _ _ rfl rfl
    · constructor
      · intro orderly
        have refused := readCommonHeader_of_short (Nat.lt_of_not_le long) word
        rw [readTables] at orderly
        revert orderly refused
        cases readCommonHeader data with
        | ret common => exact fun _ refused => absurd trivial refused
        | fail => exact fun _ refused => absurd trivial refused
        | abort => exact fun orderly _ => orderly.elim
        | fault => exact fun orderly _ => orderly.elim
        | timeout => exact fun orderly _ => orderly.elim
      · exact fun inside => absurd (inside word).1 long
  · have failed : readCommonHeader data = .fail := by
      rw [readCommonHeader, word, Exit.ofAccess_some, Exit.bind_ret, if_pos right]
    rw [readTables, failed]
    constructor
    · intro _ same
      exact absurd (Option.some.inj (word.symm.trans same)) right
    · exact fun _ => trivial

end

/-- A header of nothing but a signature. -/
def signatureOnly : Bytes := [0x49, 0x53, 0x63, 0x28]

/-- A header that says it has a cabinet descriptor, at its own start. -/
def withDescriptor : Bytes := signatureOnly ++ List.replicate 12 0 ++ [1, 0, 0, 0]

/-- A header with a cabinet descriptor for one directory and one file, and their file table behind it. -/
def withTables : Bytes :=
  signatureOnly ++ List.replicate 8 0 ++ [20, 0, 0, 0, 1, 0, 0, 0] ++ List.replicate 12 0 ++
    [0x76, 2, 0, 0] ++ List.replicate 12 0 ++ [1, 0, 0, 0] ++ List.replicate 8 0 ++ [1, 0, 0, 0] ++
    List.replicate 586 0 ++ [12, 0, 0, 0, 8, 0, 0, 0]

theorem readTables_withTables :
    (readTables withTables).Orderly ∧
      (readTables withTables >>= fun tables => pure tables.2.2) = .ret [12, 8] := by
  have length : withTables.length = 658 := by decide +kernel
  have inside : TablesInside withTables := by
    intro _
    refine ⟨by rw [length]; decide, ?_⟩
    intro offset size placed _ _
    have here : readUint32 withTables 12 = some 20 := by decide +kernel
    obtain rfl := Option.some.inj (here.symm.trans placed)
    rw [length]
    decide
  have four : 4 ≤ withTables.length := by
    rw [length]
    decide
  constructor
  · rw [readTables_orderly_iff four]
    exact inside
  · decide +kernel

/-- The size of a header is only compared with 4: the reads of the common header and of the cabinet
descriptor go on behind the end. -/
theorem readTables_behind_end :
    4 ≤ signatureOnly.length ∧ readTables signatureOnly = .fault ∧
      4 ≤ withDescriptor.length ∧ readTables withDescriptor = .fault := by
  decide

/-! ### Entries of the file table -/

/-- Nothing but the first `count` entries of the table shows in the result, not even whether there are
any others. -/
def ReadsBelow {α : Type} (count : Nat) (result : List UInt32 → α) : Prop :=
  ∀ table table', table.take count = table'.take count → result table = result table'

theorem getElem?_of_take_eq {table table' : List UInt32} {count i : Nat}
    (same : table.take count = table'.take count) (below : i < count) : table[i]? = table'[i]? := by
  rw [← List.getElem?_take_of_lt below, same, List.getElem?_take_of_lt below]

/-- `start` in `unshield_get_file_table`, with its 64 bits. -/
def tableStart (common : CommonHeader) (cab : CabDescriptor) : UInt64 :=
  common.cabDescriptorOffset.toUInt64 + cab.fileTableOffset.toUInt64

/-- `count` -/
def tableCount (cab : CabDescriptor) : UInt64 := cab.directoryCount.toUInt64 + cab.fileCount.toUInt64

/-- `bytes` -/
def tableBytes (cab : CabDescriptor) : UInt64 := tableCount cab * 4

theorem toNat_tableStart (common : CommonHeader) (cab : CabDescriptor) :
    (tableStart common cab).toNat = common.cabDescriptorOffset.toNat + cab.fileTableOffset.toNat := by
  have one := common.cabDescriptorOffset.toNat_lt
  have two := cab.fileTableOffset.toNat_lt
  rw [tableStart, UInt64.toNat_add, UInt32.toNat_toUInt64, UInt32.toNat_toUInt64]
  omega

theorem toNat_tableCount (cab : CabDescriptor) :
    (tableCount cab).toNat = cab.directoryCount.toNat + cab.fileCount.toNat := by
  have one := cab.directoryCount.toNat_lt
  have two := cab.fileCount.toNat_lt
  rw [tableCount, UInt64.toNat_add, UInt32.toNat_toUInt64, UInt32.toNat_toUInt64]
  omega

theorem toNat_tableBytes (cab : CabDescriptor) :
    (tableBytes cab).toNat = 4 * (cab.directoryCount.toNat + cab.fileCount.toNat) := by
  have one := cab.directoryCount.toNat_lt
  have two := cab.fileCount.toNat_lt
  rw [tableBytes, UInt64.toNat_mul, toNat_tableCount]
  show (cab.directoryCount.toNat + cab.fileCount.toNat) * 4 % 2 ^ 64 = _
  omega

/-- The check of the file table, as it is made in 64 bits, refuses what does not fit. -/
theorem getFileTable_fails_iff {data : Bytes} {common : CommonHeader} {cab : CabDescriptor} {size : UInt64}
    (whole : data.length = size.toNat) :
    getFileTable data common cab = .fail ↔
      tableCount cab = 0 ∨ tableStart common cab > size ∨
        tableBytes cab > size - tableStart common cab := by
  have start := toNat_tableStart common cab
  have count := toNat_tableCount cab
  have bytes := toNat_tableBytes cab
  have empty : tableCount cab = 0 ↔ (tableCount cab).toNat = 0 := by
    rw [← UInt64.toNat_inj]
    rfl
  have behind : tableStart common cab > size ↔ size.toNat < (tableStart common cab).toNat :=
    UInt64.lt_iff_toNat_lt
  have longer : tableBytes cab > size - tableStart common cab ↔
      (size - tableStart common cab).toNat < (tableBytes cab).toNat := UInt64.lt_iff_toNat_lt
  rw [empty, behind, longer]
  by_cases fits : (tableStart common cab).toNat ≤ size.toNat
  · rw [UInt64.toNat_sub_of_le _ _ (UInt64.le_iff_toNat_le.2 fits), start, count, bytes]
    rcases @getFileTable_cases data common cab _ _ rfl rfl with
      ⟨failed, refused⟩ | ⟨table, read, _, nonempty, inside⟩
    · rw [failed]
      refine ⟨fun _ => ?_, fun _ => rfl⟩
      omega
    · rw [read]
      constructor
      · intro failed
        cases failed
      · omega
  · rcases @getFileTable_cases data common cab _ _ rfl rfl with
      ⟨failed, _⟩ | ⟨table, _, _, _, inside⟩
    · exact ⟨fun _ => Or.inr (Or.inl (Nat.lt_of_not_le fits)), fun _ => failed⟩
    · omega

section

variable {header : Header} {index : Int} {count : Nat}

/-- A directory index that passes the check is below the number of directories. -/
theorem directory_index_lt (valid : 0 ≤ index ∧ index < header.cab.directoryCount.toInt32.toInt) :
    index.toNat < header.cab.directoryCount.toNat := by
  have le := Bits.toInt32_toInt_le header.cab.directoryCount
  omega

/-- The entry of a file whose index passes the check is below both counts together, even where the sum of
32 bits wraps. -/
theorem file_entry_lt (valid : ValidIndex header index) :
    (header.cab.directoryCount + UInt32.ofInt index).toNat <
      header.cab.directoryCount.toNat + header.cab.fileCount.toNat := by
  obtain ⟨nonneg, less⟩ := valid
  have le := Bits.toInt32_toInt_le header.cab.fileCount
  have count_lt := header.cab.fileCount.toNat_lt
  have small : (UInt32.ofInt index).toNat = index.toNat := Bits.uint32_toNat_ofInt nonneg (by omega)
  rw [UInt32.toNat_add]
  have reduced := Nat.mod_le (header.cab.directoryCount.toNat + (UInt32.ofInt index).toNat) (2 ^ 32)
  omega

theorem directoryName_readsBelow (bigEndian : Bool)
    (many : header.cab.directoryCount.toNat ≤ count) :
    ReadsBelow count fun table => directoryName bigEndian { header with fileTable := table } index := by
  intro table table' same
  show directoryName _ _ _ = directoryName _ _ _
  rw [directoryName, directoryName]
  by_cases valid : 0 ≤ index ∧ index < header.cab.directoryCount.toInt32.toInt
  · have lt := directory_index_lt valid
    rw [if_pos valid, if_pos valid]
    simp only [getElem?_of_take_eq same (Nat.lt_of_lt_of_le lt many)]
    rfl
  · rw [if_neg valid, if_neg valid]

theorem getFileDescriptor_readsBelow (σ : Type) (old : header.OldLayout)
    (many : header.cab.directoryCount.toNat + header.cab.fileCount.toNat ≤ count) :
    ReadsBelow count fun table =>
      (getFileDescriptor { header with fileTable := table } index : Proc (Library σ) FileDescriptor) := by
  intro table table' same
  funext library
  show getFileDescriptor _ _ _ = getFileDescriptor _ _ _
  by_cases valid : ValidIndex header index
  · have entry := getElem?_of_take_eq same (Nat.lt_of_lt_of_le (file_entry_lt valid) many)
    have read : readFileDescriptor { header with fileTable := table } index =
        readFileDescriptor { header with fileTable := table' } index := by
      have layout : ∀ table, ({ header with fileTable := table } : Header).OldLayout := fun _ => old
      rw [readFileDescriptor, readFileDescriptor, if_pos (layout table), if_pos (layout table'),
        readFileDescriptorV5, readFileDescriptorV5]
      simp only [entry]
    rw [getFileDescriptor, getFileDescriptor]
    simp only [read]
    rfl
  · have refused : ∀ table, ¬ ValidIndex { header with fileTable := table } index := fun _ => valid
    rw [getFileDescriptor, getFileDescriptor,
      Proc.bind_of_fail (Proc.require_run_of_not (refused table) library),
      Proc.bind_of_fail (Proc.require_run_of_not (refused table') library)]

end

/-- The 64 bits are enough for the file table's arithmetic.  A table is refused if it is empty or does not
fit, and else read from inside the header, with all its entries; and whatever index they are given, the
getters of directory names and of descriptors in old cabinets read no other entry than one of these. -/
theorem file_table_reads_in_range (bigEndian : Bool) (σ : Type) (header : Header) (size : UInt64)
    (whole : header.data.length = size.toNat) :
    ((tableStart header.common header.cab).toNat =
        header.common.cabDescriptorOffset.toNat + header.cab.fileTableOffset.toNat ∧
      (tableCount header.cab).toNat = header.cab.directoryCount.toNat + header.cab.fileCount.toNat ∧
      (tableBytes header.cab).toNat = 4 * (header.cab.directoryCount.toNat + header.cab.fileCount.toNat)) ∧
    (getFileTable header.data header.common header.cab = .fail ↔
      tableCount header.cab = 0 ∨ tableStart header.common header.cab > size ∨
        tableBytes header.cab > size - tableStart header.common header.cab) ∧
    (getFileTable header.data header.common header.cab).Orderly ∧
    ∀ table, getFileTable header.data header.common header.cab = .ret table →
      header.cab.directoryCount.toNat + header.cab.fileCount.toNat ≠ 0 ∧
      header.common.cabDescriptorOffset.toNat + header.cab.fileTableOffset.toNat +
        4 * (header.cab.directoryCount.toNat + header.cab.fileCount.toNat) ≤ size.toNat ∧
      table.length = header.cab.directoryCount.toNat + header.cab.fileCount.toNat ∧
      ∀ index : Int,
        (0 ≤ index ∧ index < header.cab.directoryCount.toInt32.toInt → index.toNat < table.length) ∧
        (ReadsBelow table.length fun table =>
          directoryName bigEndian { header with fileTable := table } index) ∧
        (ValidIndex header index →
          (header.cab.directoryCount + UInt32.ofInt index).toNat < table.length) ∧
        (header.OldLayout → ReadsBelow table.length fun table =>
          (getFileDescriptor { header with fileTable := table } index :
            Proc (Library σ) FileDescriptor)) := by
  refine ⟨⟨toNat_tableStart _ _, toNat_tableCount _, toNat_tableBytes _⟩,
    getFileTable_fails_iff whole, ?_, ?_⟩
  · rcases @getFileTable_cases header.data header.common header.cab _ _ rfl rfl with
      ⟨failed, _⟩ | ⟨table, read, _⟩
    · rw [failed]
      trivial
    · rw [read]
      trivial
  · intro table read
    rcases @getFileTable_cases header.data header.common header.cab _ _ rfl rfl with
      ⟨failed, _⟩ | ⟨_, again, length, nonempty, inside⟩
    · rw [failed] at read
      cases read
    · rw [again] at read
      obtain rfl := Exit.ret.inj read
      refine ⟨nonempty, whole ▸ inside, length, fun index => ?_⟩
      rw [length]
      refine ⟨fun valid => ?_, directoryName_readsBelow bigEndian (Nat.le_add_right _ _), file_entry_lt,
        fun old => getFileDescriptor_readsBelow σ old (Nat.le_refl _)⟩
      exact Nat.lt_of_lt_of_le (directory_index_lt valid) (Nat.le_add_right _ _)

/-- A header whose file table is four bytes for one directory. -/
def oneDirectory : Header where
  index := 1
  data := [0, 0, 0, 0]
  majorVersion := 5
  common := { signature := cabSignature, version := 0, volumeInfo := 0, cabDescriptorOffset := 0,
              cabDescriptorSize := 1 }
  cab := { fileTableOffset := 0, directoryCount := 1, fileCount := 0, fileTableOffset2 := 0 }
  fileTable := [0]

theorem file_table_reads_one_directory :
    getFileTable oneDirectory.data oneDirectory.common oneDirectory.cab = .ret [0] ∧
      ReadsBelow 1 fun table => directoryName false { oneDirectory with fileTable := table } 0 := by
  obtain ⟨_, _, _, returned⟩ := file_table_reads_in_range false Unit oneDirectory 4 rfl
  exact ⟨rfl, ((returned [0] rfl).2.2.2 0).2.1⟩

end Unshield
