/-
Module: Unshield.Proofs.HeaderRoundTrip
Purpose: What a header is encoded from is what is read from it: the file groups and components in their
  order, the directories, and every file with its name.
Trusted boundary: none
Main exports: Placed.item, getUtf8String_of_placed, NodeAt, chain_of_placed, IsGroup, IsComponent,
  IsFile, IsCatalogue, parseHeader_encode
-/
import Unshield.Core.Actions
import Unshield.Proofs.ConverterRoundTrip
import Unshield.Proofs.EntryArrays
import Unshield.Proofs.HeaderBounds
import Unshield.Proofs.HeaderFormat
import Unshield.Proofs.NameReads

namespace Unshield

open Procedure Unicode

/-! ### Parts of what is placed -/

section

variable {block : Bytes} {p : Nat}

theorem Placed.front {one two : Bytes} (placed : Placed block p (one ++ two)) : Placed block p one :=
  (placed.split rfl).1

theorem Placed.behind {one two : Bytes} (placed : Placed block p (one ++ two)) :
    Placed block (p + one.length) two :=
  (placed.split rfl).2

theorem Placed.inside {field : Bytes} (placed : Placed block p field) (nonempty : field ≠ []) :
    p + field.length ≤ block.length := by
  have length := List.length_pos_iff.2 nonempty
  have last := placed (field.length - 1) _ (List.getElem?_eq_getElem (by omega))
  have inside := (List.getElem?_eq_some_iff.1 last).1
  omega

/-- From there on the block starts with the field. -/
theorem Placed.drop {field : Bytes} (placed : Placed block p field) :
    ∃ behind, block.drop p = field ++ behind := by
  induction field generalizing p with
  | nil => exact ⟨_, rfl⟩
  | cons byte field ih =>
      have first : block[p]? = some byte := placed 0 byte rfl
      obtain ⟨within, here⟩ := List.getElem?_eq_some_iff.1 first
      have rest : Placed block (p + 1) field := (@Placed.split _ _ [byte] field 1 placed rfl).2
      obtain ⟨behind, shape⟩ := ih rest
      exact ⟨behind, by rw [List.drop_eq_getElem_cons within, here, shape]; rfl⟩

/-- Each of several items is behind those in front of it. -/
theorem Placed.item {Item : Type} {f : Item → Bytes} {items : List Item} {i : Nat} {item : Item}
    (placed : Placed block p (items.flatMap f)) (there : items[i]? = some item) :
    Placed block (p + ((items.take i).flatMap f).length) (f item) := by
  obtain ⟨within, here⟩ := List.getElem?_eq_some_iff.1 there
  have parts : items.flatMap f =
      (items.take i).flatMap f ++ (f item ++ (items.drop (i + 1)).flatMap f) := by
    conv_lhs => rw [← List.take_append_drop i items, List.drop_eq_getElem_cons within, here]
    rw [List.flatMap_append, List.flatMap_cons]
  rw [parts] at placed
  exact placed.behind.front

theorem readWords_of_placed {list : List UInt32} (placed : Placed block p (words list)) (count : Nat) :
    count ≤ list.length → readWords block p count = some (list.take count) := by
  induction count with
  | zero => exact fun _ => rfl
  | succ count ih =>
      intro within
      have word := readUint32_of_placed_words placed (List.getElem?_eq_getElem within)
      rw [readWords, ih (Nat.le_of_lt within), word]
      exact congrArg some (List.take_concat_get' list count within)

end

/-! ### Names -/

theorem units_halfWords (list : List UInt16) (behind : Bytes) :
    units false (list.flatMap halfWord ++ behind) = list ++ units false behind := by
  induction list with
  | nil => rfl
  | cons word list ih =>
      have unit : word.toUInt8.toUInt16 ||| (word >>> 8).toUInt8.toUInt16 <<< 8 = word :=
        Bits.uint16_or_bytes word
      rw [List.flatMap_cons, List.append_assoc, halfWord, List.cons_append, List.cons_append,
        List.nil_append, units, if_neg Bool.false_ne_true, unit, ih, List.cons_append]

/-- Only the null character has a zero unit. -/
theorem zero_notMem_utf16 {chars : List Char} (nonzero : 0 ∉ Utf8.encode chars) :
    0 ∉ Utf16.encode chars := by
  intro zero
  obtain ⟨c, member, unit⟩ := List.mem_flatMap.1 zero
  have null : c.toNat = 0 := by
    have range := Unicode.toNat_range c
    rw [Utf16.encodeChar] at unit
    split_ifs at unit with small
    · have value := congrArg UInt16.toNat (List.mem_singleton.1 unit)
      rw [UInt16.toNat_ofNat_of_lt' (show c.toNat < 65536 by omega)] at value
      exact value.symm
    · simp only [List.mem_cons, List.not_mem_nil, or_false] at unit
      rcases unit with high | low
      · have value := congrArg UInt16.toNat high
        rw [UInt16.toNat_ofNat_of_lt' (show _ < 65536 by omega)] at value
        exact absurd value (by show 0 ≠ _; omega)
      · have value := congrArg UInt16.toNat low
        rw [UInt16.toNat_ofNat_of_lt' (show _ < 65536 by omega)] at value
        exact absurd value (by show 0 ≠ _; omega)
  refine nonzero (List.mem_flatMap.2 ⟨c, member, ?_⟩)
  have same : Char.ofNat c.toNat = c := Char.ofNat_toNat c
  rw [← same, null, Utf8.utf8EncodeChar_ofNat_one (by decide)]
  exact List.mem_cons_self

section

variable {bigEndian : Bool} {header : Header} {text : Bytes}
  (order : 17 ≤ header.majorVersion → bigEndian = false) (spelled : Spelled header.majorVersion text)

include order spelled

/-- A name is read where it was written. -/
theorem getUtf8String_of_placed {p : Nat}
    (placed : Placed header.data p (nameBytes header.majorVersion text)) :
    getUtf8String bigEndian header p = .ret text := by
  obtain ⟨behind, shape⟩ := placed.drop
  by_cases unicode : 17 ≤ header.majorVersion
  · obtain ⟨chars, rfl⟩ := Utf8.wellFormed_iff_encoded.1 (spelled.wellFormed unicode)
    rw [nameBytes, if_pos unicode, decodeLossy_utf8_encode] at shape
    have stands : units false (header.data.drop p) =
        Utf16.encode chars ++ 0 :: 0 :: units false behind := by
      rw [shape, units_halfWords, List.append_assoc]
      rfl
    have name := nameUnits_terminated (zero_notMem_utf16 spelled.nonzero) stands
    have fits := spelled.fits unicode
    rw [decodeLossy_utf8_encode] at fits
    rw [order unicode, getUtf8String_of_terminated false unicode (by rw [name]; exact fits), name,
      Utf16.decodeLossy_encode]
    rw [name, stands, List.length_append, List.length_cons, List.length_cons]
    omega
  · rw [nameBytes, if_neg unicode, List.append_assoc] at shape
    have string := cString_terminated spelled.nonzero behind
    rw [cString, List.drop_zero] at string
    rw [getUtf8String, if_neg unicode, cString, shape]
    exact string

/-- The reference to a name leads to its characters. -/
theorem headerGetString_of_placed {offset : UInt32} (offset_ne : offset ≠ 0)
    (placed : Placed header.data (header.common.cabDescriptorOffset.toNat + offset.toNat)
      (nameBytes header.majorVersion text)) :
    ∃ name, headerGetString bigEndian header offset = .ret name ∧
      name.text header = .ret (some text) := by
  have read := getUtf8String_of_placed order spelled placed
  rw [headerGetString, headerGetBuffer, if_pos offset_ne]
  by_cases unicode : 17 ≤ header.majorVersion
  · exact ⟨.converted text, by simp only [if_pos unicode, read, Exit.bind_ret, Exit.pure_eq], rfl⟩
  · rw [getUtf8String, if_neg unicode] at read
    refine ⟨.inData (header.common.cabDescriptorOffset.toNat + offset.toNat), ?_, ?_⟩
    · simp only [if_neg unicode, Exit.pure_eq]
    · rw [HeaderString.text, read]
      rfl

end

/-! ### Offset lists -/

/-- The record of the entry is written where the node says. -/
structure NodeAt {Entry : Type} (record : Nat → Entry → Bytes) (header : Header) (node : OffsetList)
    (entry : Entry) : Prop where
  offset_ne : node.descriptorOffset ≠ 0
  placed : Placed header.data
    (header.common.cabDescriptorOffset.toNat + node.descriptorOffset.toNat)
    (record node.descriptorOffset.toNat entry)

theorem ofNat_ne_zero {offset : Nat} (positive : 0 < offset) (small : offset < 2 ^ 32) :
    UInt32.ofNat offset ≠ 0 := by
  intro zero
  have value := congrArg UInt32.toNat zero
  rw [UInt32.toNat_ofNat_of_lt' small] at value
  exact positive.ne' value

theorem readOffsetList_of_placed {header : Header} {offset : UInt32} {list : OffsetList}
    (offset_ne : offset ≠ 0)
    (placed : Placed header.data (header.common.cabDescriptorOffset.toNat + offset.toNat)
      (words [list.nameOffset, list.descriptorOffset, list.nextOffset])) :
    readOffsetList header offset = .ret list := by
  have word := fun i value => @readUint32_of_placed_words _ _ _ i value placed
  rw [readOffsetList, headerGetBuffer, if_pos offset_ne]
  simp only [Exit.ofAccess_some, Exit.bind_ret]
  have first := word 0 _ rfl
  rw [Nat.mul_zero, Nat.add_zero] at first
  rw [first, word 1 _ rfl, word 2 _ rfl]
  rfl

section

variable {Entry : Type} {record : Nat → Entry → Bytes} {header : Header}
  (short : header.data.length < 2 ^ 32)

include short

/-- The list of a bucket is a chain whose nodes have the records of the entries. -/
theorem chain_of_placed {entries : List Entry} {offset : Nat} (positive : 0 < offset)
    (placed : Placed header.data (header.common.cabDescriptorOffset.toNat + offset)
      (chainBytes record offset entries)) :
    ∃ nodes, OffsetChain header (if entries = [] then 0 else UInt32.ofNat offset) nodes ∧
      List.Forall₂ (NodeAt record header) nodes entries := by
  induction entries generalizing offset with
  | nil => exact ⟨[], .done, .nil⟩
  | cons entry entries ih =>
      rw [chainBytes] at placed
      let next := offset + 12 + (record (offset + 12) entry).length
      let node : OffsetList :=
        { nameOffset := 0
          descriptorOffset := UInt32.ofNat (offset + 12)
          nextOffset := if entries = [] then 0 else UInt32.ofNat next }
      have inside := placed.front.inside (List.cons_ne_nil _ _)
      rw [length_words] at inside
      simp only [List.length_cons, List.length_nil] at inside
      have small : offset + 12 < 2 ^ 32 := by omega
      have here : (UInt32.ofNat offset).toNat = offset :=
        UInt32.toNat_ofNat_of_lt' (Nat.lt_of_le_of_lt (Nat.le_add_right _ _) small)
      have there : node.descriptorOffset.toNat = offset + 12 := UInt32.toNat_ofNat_of_lt' small
      have read : readOffsetList header (UInt32.ofNat offset) = .ret node := by
        refine readOffsetList_of_placed (ofNat_ne_zero positive (by omega)) ?_
        rw [here]
        exact placed.front
      have behind : Placed header.data (header.common.cabDescriptorOffset.toNat + (offset + 12))
          (record (offset + 12) entry ++ chainBytes record next entries) := placed.behind
      have rest := behind.behind
      rw [Nat.add_assoc] at rest
      obtain ⟨nodes, chain, written⟩ := ih (by omega) rest
      refine ⟨node :: nodes, ?_, .cons ⟨ofNat_ne_zero (Nat.succ_pos _) small, ?_⟩ written⟩
      · rw [if_neg (List.cons_ne_nil _ _)]
        exact .node (ofNat_ne_zero positive (by omega)) read chain
      · rw [there]
        exact behind.front

/-- And so are the lists of all buckets. -/
theorem chains_of_placed {buckets : List (List Entry)} {offset : Nat} (positive : 0 < offset)
    (placed : Placed header.data (header.common.cabDescriptorOffset.toNat + offset)
      (chainsBytes record offset buckets)) :
    ∃ lists, List.Forall₂ (OffsetChain header) (chainOffsets record offset buckets) lists ∧
      List.Forall₂ (List.Forall₂ (NodeAt record header)) lists buckets := by
  induction buckets generalizing offset with
  | nil => exact ⟨[], .nil, .nil⟩
  | cons entries buckets ih =>
      rw [chainsBytes] at placed
      obtain ⟨nodes, chain, written⟩ := chain_of_placed short positive placed.front
      have behind := placed.behind
      rw [Nat.add_assoc] at behind
      obtain ⟨lists, chains, all⟩ := ih (Nat.add_pos_left positive _) behind
      exact ⟨nodes :: lists, .cons chain chains, .cons written all⟩

end

/-! ### File groups and components -/

theorem treatsAs_generationOf {major : Int} (version : major = 0 ∨ major = 5 ∨ 5 < major) {files : Nat}
    (few : generationOf major = .v6 → files ≤ maxFilesV6) : TreatsAs (generationOf major) major files := by
  by_cases old : major = 0 ∨ major = 5
  · rw [generationOf, if_pos old]
    exact treatsAs_v5 old files
  · have generation : generationOf major = .v6 := if_neg old
    rw [generation]
    exact treatsAs_v6 (by omega) (few generation)

theorem nameBytes_ne_nil (major : Int) (text : Bytes) : nameBytes major text ≠ [] := by
  rw [nameBytes]
  split_ifs
  · rw [List.flatMap_append]
    exact List.append_ne_nil_of_right_ne_nil _ (List.cons_ne_nil _ _)
  · exact List.append_ne_nil_of_right_ne_nil _ (List.cons_ne_nil _ _)

theorem FileGroupRecord.length_bytes {generation : Generation} (record : FileGroupRecord generation) :
    record.bytes.length = generation.fileGroupGap + 12 := by
  simp only [FileGroupRecord.bytes, List.length_append, record.unknown_length, littleEndian32,
    List.length_cons, List.length_nil]
  omega

theorem ComponentRecord.length_bytes {generation : Generation} (record : ComponentRecord generation) :
    record.bytes.length = generation.componentGap + 10 := by
  simp only [ComponentRecord.bytes, List.length_append, record.unknown_length, littleEndian32, halfWord,
    List.length_cons, List.length_nil]
  omega

theorem nameOffsets_cons (major : Int) (offset : Nat) (text : Bytes) (texts : List Bytes) :
    nameOffsets major offset (text :: texts) =
      UInt32.ofNat offset :: nameOffsets major (offset + (nameBytes major text).length) texts := by
  rw [nameOffsets, nameOffsets, List.length_cons, List.range_succ_eq_map, List.map_cons, List.map_map]
  congr 1
  apply List.map_congr_left
  intro i _
  show UInt32.ofNat (offset + ((text :: texts.take i).flatMap (nameBytes major)).length) = _
  rw [List.flatMap_cons, List.length_append, Nat.add_assoc]

theorem getElem?_nameOffsets (major : Int) (offset : Nat) {texts : List Bytes} {i : Nat}
    (within : i < texts.length) :
    (nameOffsets major offset texts)[i]? =
      some (UInt32.ofNat (offset + ((texts.take i).flatMap (nameBytes major)).length)) := by
  rw [nameOffsets, List.getElem?_map, List.getElem?_range within]
  rfl

/-- The name has these characters. -/
def Names (header : Header) (text : Bytes) (name : HeaderString) : Prop :=
  name.text header = .ret (some text)

/-- What is read of a file group is what the entry says. -/
structure IsGroup (header : Header) (fileGroup : FileGroup) (entry : GroupEntry) : Prop where
  name : Names header entry.name fileGroup.name
  firstFile : fileGroup.firstFile = entry.firstFile.toInt32.toInt
  lastFile : fileGroup.lastFile = entry.lastFile.toInt32.toInt

/-- What is read of a component is what the entry says. -/
structure IsComponent (header : Header) (component : Component) (entry : ComponentEntry) : Prop where
  name : Names header entry.name component.name
  fileGroupNames : List.Forall₂ (Names header) entry.fileGroupNames component.fileGroupNames

section

variable {bigEndian : Bool} {header : Header} {node : OffsetList}
  (order : 17 ≤ header.majorVersion → bigEndian = false) (short : header.data.length < 2 ^ 32)

include order short

/-- A name at an offset that is not the start of the descriptor. -/
theorem name_of_placed {text : Bytes} {offset : Nat} (spelled : Spelled header.majorVersion text)
    (positive : 0 < offset)
    (placed : Placed header.data (header.common.cabDescriptorOffset.toNat + offset)
      (nameBytes header.majorVersion text)) :
    ∃ name, headerGetString bigEndian header (UInt32.ofNat offset) = .ret name ∧ Names header text name := by
  have inside := placed.inside (nameBytes_ne_nil _ _)
  have small : offset < 2 ^ 32 := by omega
  refine headerGetString_of_placed order spelled (ofNat_ne_zero positive small) ?_
  rw [UInt32.toNat_ofNat_of_lt' small]
  exact placed

theorem names_of_placed {texts : List Bytes} {offset : Nat}
    (spelled : ∀ text ∈ texts, Spelled header.majorVersion text) (positive : 0 < offset)
    (placed : Placed header.data (header.common.cabDescriptorOffset.toNat + offset)
      (texts.flatMap (nameBytes header.majorVersion))) :
    ∃ names, List.Forall₂ (fun offset name => headerGetString bigEndian header offset = .ret name)
        (nameOffsets header.majorVersion offset texts) names ∧
      List.Forall₂ (Names header) texts names := by
  induction texts generalizing offset with
  | nil => exact ⟨[], .nil, .nil⟩
  | cons text texts ih =>
      rw [List.flatMap_cons] at placed
      obtain ⟨here, later⟩ := List.forall_mem_cons.1 spelled
      obtain ⟨name, read, first⟩ := name_of_placed order short here positive placed.front
      have behind := placed.behind
      rw [Nat.add_assoc] at behind
      obtain ⟨names, reads, rest⟩ := ih later (Nat.add_pos_left positive _) behind
      rw [nameOffsets_cons]
      exact ⟨name :: names, .cons read reads, .cons first rest⟩

variable {files : Nat} (treats : TreatsAs (generationOf header.majorVersion) header.majorVersion files)

include treats

theorem fileGroup_of_nodeAt {entry : GroupEntry} (spelled : Spelled header.majorVersion entry.name)
    (written : NodeAt (groupBytes header.majorVersion) header node entry) :
    ∃ fileGroup, EntryOf (fileGroupNew bigEndian header) node fileGroup ∧
      IsGroup header fileGroup entry := by
  have placed := written.placed
  rw [groupBytes] at placed
  have behind := placed.behind
  rw [FileGroupRecord.length_bytes, Nat.add_assoc] at behind
  obtain ⟨name, read, named⟩ := name_of_placed order short spelled (by omega) behind
  let fileGroup : FileGroup :=
    { name, firstFile := entry.firstFile.toInt32.toInt, lastFile := entry.lastFile.toInt32.toInt }
  have parts : FileGroupAt bigEndian header node.descriptorOffset
      (groupRecord header.majorVersion node.descriptorOffset.toNat entry) fileGroup :=
    ⟨written.offset_ne, placed.front, read, rfl, rfl⟩
  exact ⟨fileGroup, treats.fileGroup bigEndian header _ _ _ rfl parts, named, rfl, rfl⟩

theorem component_of_nodeAt {entry : ComponentEntry} (spelled : Spelled header.majorVersion entry.name)
    (names_spelled : ∀ name ∈ entry.fileGroupNames, Spelled header.majorVersion name)
    (written : NodeAt (componentBytes header.majorVersion) header node entry) :
    ∃ component, EntryOf (componentNew bigEndian header) node component ∧
      IsComponent header component entry := by
  let offset := node.descriptorOffset.toNat
  have placed := written.placed
  rw [componentBytes] at placed
  have table := placed.behind
  rw [ComponentRecord.length_bytes, Nat.add_assoc] at table
  have nameThere : Placed header.data
      (header.common.cabDescriptorOffset.toNat + componentName header.majorVersion offset entry)
      (nameBytes header.majorVersion entry.name ++
        entry.fileGroupNames.flatMap (nameBytes header.majorVersion)) := by
    have behind := table.behind
    rw [length_words, componentRecord, length_nameOffsets, Nat.add_assoc] at behind
    exact behind
  have names := nameThere.behind
  rw [Nat.add_assoc] at names
  have table_pos : 0 < componentTable header.majorVersion offset := by
    rw [componentTable]
    omega
  have name_pos : 0 < componentName header.majorVersion offset entry := Nat.add_pos_left table_pos _
  obtain ⟨name, read, named⟩ := name_of_placed order short spelled name_pos nameThere.front
  obtain ⟨groupNames, reads, all⟩ := names_of_placed order short names_spelled
    (Nat.add_pos_left name_pos _) names
  have inside := nameThere.front.inside (nameBytes_ne_nil _ _)
  have small : componentTable header.majorVersion offset < 2 ^ 32 := by
    rw [componentName] at inside
    omega
  have parts : ComponentAt bigEndian header node.descriptorOffset
      (componentRecord header.majorVersion offset entry) { name, fileGroupNames := groupNames } := by
    refine ⟨written.offset_ne, placed.front, read, fun _ => ofNat_ne_zero table_pos small, ?_, reads⟩
    show Placed _ (_ + (UInt32.ofNat (componentTable header.majorVersion offset)).toNat) _
    rw [UInt32.toNat_ofNat_of_lt' small]
    exact table.front
  exact ⟨_, treats.component bigEndian header _ _ _ rfl parts, named, all⟩

end

/-! ### The areas of a header -/

theorem length_chainOffsets {Entry : Type} (record : Nat → Entry → Bytes) (offset : Nat)
    (buckets : List (List Entry)) : (chainOffsets record offset buckets).length = buckets.length := by
  induction buckets generalizing offset with
  | nil => rfl
  | cons entries buckets ih => rw [chainOffsets, List.length_cons, List.length_cons, ih]

theorem FileRecordV5.length_bytes (record : FileRecordV5) (major : Int) :
    (record.bytes major).length = 42 + if major = 5 then 16 else 0 := by
  simp only [FileRecordV5.bytes, List.length_append, record.unknown1_length, record.unknown2_length,
    littleEndian32, halfWord, List.length_cons, List.length_nil, apply_ite List.length, record.md5_length]
  omega

theorem FileRecordV6.length_bytes (record : FileRecordV6) : record.bytes.length = 0x57 := by
  simp only [FileRecordV6.bytes, List.length_append, record.unknown1_length, record.unknown2_length,
    record.md5_length, littleEndian32, halfWord, doubleWord, List.length_cons, List.length_nil]

theorem length_fileRecordBytes {major : Int} (version : major = 0 ∨ major = 5 ∨ 5 < major)
    (entry : FileEntry) (nameOffset : UInt32) :
    (fileRecordBytes major entry nameOffset).length = fileRecordSize major := by
  rcases version with rfl | rfl | new
  · exact FileRecordV5.length_bytes _ 0
  · exact FileRecordV5.length_bytes _ 5
  · have generation : generationOf major = .v6 := if_neg (by omega)
    rw [fileRecordBytes, fileRecordSize, generation, if_neg (by omega), if_neg (by omega)]
    exact FileRecordV6.length_bytes _

namespace Catalogue

variable (major : Int) (catalogue : Catalogue)

/-- The header that is opened. -/
def header (index : Int) : Header where
  index
  data := catalogue.encode major
  majorVersion := major
  common := catalogue.common
  cab := catalogue.cab major
  fileTable := catalogue.fileTable major

theorem length_fileTable :
    (catalogue.fileTable major).length = catalogue.directories.length + catalogue.files.length := by
  rw [fileTable, List.length_append, length_nameOffsets, List.length_map, List.length_range]

variable {major catalogue} (sound : catalogue.Sound major)

include sound

theorem Sound.length_descriptorBytes : (catalogue.descriptorBytes major).length = cabDescriptorLength := by
  simp only [descriptorBytes, offsets, List.length_append, List.length_replicate, length_words,
    length_chainOffsets, sound.groupBuckets, sound.componentBuckets, List.length_cons, List.length_nil,
    maxFileGroupCount, maxComponentCount, cabDescriptorLength]

theorem Sound.length_encode : (catalogue.encode major).length = commonHeaderSize +
    (catalogue.fileTableStart major + (catalogue.recordsStart major +
      (catalogue.fileRecords major).length)) := by
  have common := length_commonHeaderWords catalogue.common
  have table : (words (catalogue.fileTable major)).length = catalogue.namesStart := by
    rw [length_words, length_fileTable, namesStart]
  simp only [encode, fileArea, fileTableStart, componentsStart, recordsStart, fileNamesStart,
    List.length_append, common, table, sound.length_descriptorBytes]
  omega

variable (major catalogue) in
omit sound in
/-- Where each part is; offsets are counted from the descriptor or from the file table on. -/
structure Areas : Prop where
  descriptor : Placed (catalogue.encode major) commonHeaderSize (catalogue.descriptorBytes major)
  groups : Placed (catalogue.encode major) (commonHeaderSize + cabDescriptorLength)
    (catalogue.groupsArea major)
  components : Placed (catalogue.encode major) (commonHeaderSize + catalogue.componentsStart major)
    (catalogue.componentsArea major)
  table : Placed (catalogue.encode major) (commonHeaderSize + catalogue.fileTableStart major)
    (words (catalogue.fileTable major))
  directories : Placed (catalogue.encode major)
    (commonHeaderSize + catalogue.fileTableStart major + catalogue.namesStart)
    (catalogue.directories.flatMap (nameBytes major))
  names : Placed (catalogue.encode major)
    (commonHeaderSize + catalogue.fileTableStart major + catalogue.fileNamesStart major)
    (catalogue.fileNames.flatMap (nameBytes major))
  records : Placed (catalogue.encode major)
    (commonHeaderSize + catalogue.fileTableStart major + catalogue.recordsStart major)
    (catalogue.fileRecords major)

theorem Sound.areas : catalogue.Areas major := by
  have whole : Placed (catalogue.encode major) 0 (catalogue.encode major) := by
    intro i byte there
    rw [Nat.zero_add]
    exact there
  obtain ⟨_, body⟩ := whole.split (length_commonHeaderWords catalogue.common)
  rw [Nat.zero_add] at body
  obtain ⟨descriptor, lists⟩ := body.split sound.length_descriptorBytes
  have behind := lists.behind
  rw [Nat.add_assoc] at behind
  have area := behind.behind
  rw [Nat.add_assoc] at area
  have table : (words (catalogue.fileTable major)).length = catalogue.namesStart := by
    rw [length_words, length_fileTable, namesStart]
  obtain ⟨fileTable, strings⟩ := area.split table
  have names := strings.behind
  rw [Nat.add_assoc] at names
  have records := names.behind
  rw [Nat.add_assoc] at records
  exact ⟨descriptor, lists.front, behind.front, fileTable, strings.front, names.front, records⟩

/-! ### The tables -/

theorem Sound.starts_lt : catalogue.fileTableStart major < 2 ^ 32 ∧ catalogue.recordsStart major < 2 ^ 32 ∧
    catalogue.directories.length + catalogue.files.length < 2 ^ 30 := by
  have short := sound.length_lt
  rw [sound.length_encode, recordsStart, fileNamesStart, namesStart] at short
  refine ⟨by omega, ?_, by omega⟩
  rw [recordsStart, fileNamesStart, namesStart]
  omega

variable (major catalogue) in
omit sound in
/-- The counts and offsets of the descriptor are not cut off. -/
structure Counted (cab : CabDescriptor) : Prop where
  fileTableOffset : cab.fileTableOffset.toNat = catalogue.fileTableStart major
  directoryCount : cab.directoryCount.toNat = catalogue.directories.length
  fileCount : cab.fileCount.toNat = catalogue.files.length
  fileTableOffset2 : cab.fileTableOffset2.toNat = catalogue.recordsStart major

theorem Sound.counted : catalogue.Counted major (catalogue.cab major) := by
  obtain ⟨table, records, few⟩ := sound.starts_lt
  exact ⟨UInt32.toNat_ofNat_of_lt' table, UInt32.toNat_ofNat_of_lt' (by show _ < 2 ^ 32; omega),
    UInt32.toNat_ofNat_of_lt' (by show _ < 2 ^ 32; omega), UInt32.toNat_ofNat_of_lt' records⟩

theorem Sound.getCabDescriptor_encode :
    getCabDescriptor (catalogue.encode major) catalogue.common =
      .ret (catalogue.cab major, catalogue.offsets major) := by
  obtain ⟨_, placed⟩ := sound.areas.descriptor.split (List.length_replicate (n := 12))
  obtain ⟨fields, rest⟩ := placed.split (length_words _)
  obtain ⟨_, lists⟩ := rest.split (List.length_replicate (n := 14))
  have groupCount : (catalogue.offsets major).fileGroupOffsets.length = maxFileGroupCount :=
    (length_chainOffsets _ _ _).trans sound.groupBuckets
  have componentCount : (catalogue.offsets major).componentOffsets.length = maxComponentCount :=
    (length_chainOffsets _ _ _).trans sound.componentBuckets
  have groups := readWords_of_placed lists.front maxFileGroupCount groupCount.ge
  obtain ⟨_, componentLists⟩ := lists.split (length_words _)
  have components := readWords_of_placed componentLists maxComponentCount componentCount.ge
  rw [List.take_of_length_le groupCount.le] at groups
  rw [List.take_of_length_le componentCount.le] at components
  rw [groupCount] at components
  have word := fun i value => @readUint32_of_placed_words _ _ _ i value fields
  have fileTableOffset : readUint32 (catalogue.encode major) (commonHeaderSize + 0x0c) =
      some (catalogue.cab major).fileTableOffset := word 0 _ rfl
  have directoryCount : readUint32 (catalogue.encode major) (commonHeaderSize + 0x1c) =
      some (catalogue.cab major).directoryCount := word 4 _ rfl
  have fileCount : readUint32 (catalogue.encode major) (commonHeaderSize + 0x28) =
      some (catalogue.cab major).fileCount := word 7 _ rfl
  have fileTableOffset2 : readUint32 (catalogue.encode major) (commonHeaderSize + 0x2c) =
      some (catalogue.cab major).fileTableOffset2 := word 8 _ rfl
  have start : catalogue.common.cabDescriptorOffset.toNat = commonHeaderSize := rfl
  have some_descriptor : UInt32.ofNat cabDescriptorLength ≠ 0 := by decide
  rw [getCabDescriptor, if_pos (show catalogue.common.cabDescriptorSize ≠ 0 from some_descriptor)]
  simp only [start, fileTableOffset, directoryCount, fileCount, fileTableOffset2, Exit.ofAccess_some,
    Exit.bind_ret, show readWords _ (commonHeaderSize + 0x3e) _ = _ from groups,
    show readWords _ (commonHeaderSize + 0x15a) _ = _ from components]
  rfl

theorem Sound.readTables_encode : readTables (catalogue.encode major) =
    .ret (catalogue.common, (catalogue.cab major, catalogue.offsets major), catalogue.fileTable major) := by
  have common : readCommonHeader (catalogue.encode major) = .ret catalogue.common :=
    readCommonHeader_words catalogue.common _
  have counted := sound.counted
  have count : (catalogue.fileTable major).length = catalogue.directories.length + catalogue.files.length :=
    catalogue.length_fileTable major
  have start : catalogue.common.cabDescriptorOffset.toNat + (catalogue.cab major).fileTableOffset.toNat =
      commonHeaderSize + catalogue.fileTableStart major := by
    rw [counted.fileTableOffset]
    rfl
  have words := readWords_of_placed sound.areas.table _ count.ge
  rw [List.take_of_length_le count.le] at words
  have length := sound.length_encode
  rw [recordsStart, fileNamesStart, namesStart] at length
  have table : getFileTable (catalogue.encode major) catalogue.common (catalogue.cab major) =
      .ret (catalogue.fileTable major) := by
    rw [getFileTable]
    simp only [start, counted.directoryCount, counted.fileCount]
    rw [if_neg sound.nonempty.ne', if_neg (by omega), words]
    rfl
  rw [readTables, common, Exit.bind_ret, sound.getCabDescriptor_encode, Exit.bind_ret, table, Exit.bind_ret]
  rfl

end Catalogue

/-! ### Files and directories -/

theorem fileRecordBytes_v5 {major : Int} (generation : generationOf major = .v5) (entry : FileEntry)
    (nameOffset : UInt32) :
    fileRecordBytes major entry nameOffset = (entry.recordV5 nameOffset).bytes major := by
  rw [fileRecordBytes, generation]

theorem fileRecordBytes_v6 {major : Int} (generation : generationOf major = .v6) (entry : FileEntry)
    (nameOffset : UInt32) : fileRecordBytes major entry nameOffset = (entry.recordV6 nameOffset).bytes := by
  rw [fileRecordBytes, generation]

theorem fileRecordBytes_ne_nil {major : Int} (version : major = 0 ∨ major = 5 ∨ 5 < major)
    (entry : FileEntry) (nameOffset : UInt32) : fileRecordBytes major entry nameOffset ≠ [] := by
  intro nil
  have length := length_fileRecordBytes version entry nameOffset
  rw [nil, List.length_nil, fileRecordSize] at length
  split_ifs at length

theorem length_flatMap_of_size {Item : Type} {f : Item → Bytes} {size : Nat} {items : List Item}
    (sizes : ∀ item ∈ items, (f item).length = size) : (items.flatMap f).length = size * items.length := by
  induction items with
  | nil => rfl
  | cons item items ih =>
      obtain ⟨first, rest⟩ := List.forall_mem_cons.1 sizes
      rw [List.flatMap_cons, List.length_append, first, ih rest, List.length_cons, Nat.mul_succ,
        Nat.add_comm]

/-- What the descriptor of a file has in it, with the reference to its name.  In an old cabinet the file
is searched from the volume of the header on, and only version 5 has digests. -/
def FileEntry.descriptor (entry : FileEntry) (header : Header) (nameOffset : UInt32) : FileDescriptor :=
  if header.OldLayout then
    { nameOffset
      directoryIndex := entry.directory.toUInt32
      flags := entry.flags
      expandedSize := entry.expandedSize
      compressedSize := entry.compressedSize
      dataOffset := entry.dataOffset
      md5 := if header.majorVersion = 5 then entry.md5 else List.replicate 16 0
      volume := UInt16.ofInt header.index }
  else
    { nameOffset
      directoryIndex := entry.directory.toUInt32
      flags := entry.flags
      expandedSize := entry.expandedSize
      compressedSize := entry.compressedSize
      dataOffset := entry.dataOffset
      md5 := entry.md5
      volume := entry.volume
      linkPrevious := entry.linkPrevious
      linkNext := entry.linkNext
      linkFlags := entry.linkFlags }

/-- What is read of a file is what the entry says. -/
structure IsFile (bigEndian : Bool) (header : Header) (directories : List Bytes) (fd : FileDescriptor)
    (entry : FileEntry) : Prop where
  fields : fd = entry.descriptor header fd.nameOffset
  name_ne : fd.nameOffset ≠ 0
  name : fileName bigEndian header fd = .ret entry.name
  directory : directoryName bigEndian header fd.directoryIndex.toInt32.toInt =
    .ret directories[entry.directory.toNat]?

theorem toUInt64_toUInt32 {size : UInt64} (small : size.toNat < 2 ^ 32) : size.toUInt32.toUInt64 = size := by
  apply UInt64.toNat_inj.1
  rw [UInt32.toNat_toUInt64, UInt64.toNat_toUInt32]
  exact Nat.mod_eq_of_lt small

namespace Catalogue

variable {major : Int} {catalogue : Catalogue} (sound : catalogue.Sound major)

include sound

/-- Where the record and the name of a file are. -/
theorem Sound.file_placed {i : Nat} {entry : FileEntry} (there : catalogue.files[i]? = some entry) :
    ∃ nameOffset : UInt32, nameOffset ≠ 0 ∧
      Placed (catalogue.encode major) (commonHeaderSize + catalogue.fileTableStart major +
        nameOffset.toNat) (nameBytes major entry.name) ∧
      Placed (catalogue.encode major) (commonHeaderSize + catalogue.fileTableStart major +
        (catalogue.recordsStart major + fileRecordSize major * i))
        (fileRecordBytes major entry nameOffset) := by
  have within := (List.getElem?_eq_some_iff.1 there).1
  have named : catalogue.fileNames[i]? = some entry.name := by
    rw [Catalogue.fileNames, List.getElem?_map, there]
    rfl
  have inNames : i < catalogue.fileNames.length := (List.getElem?_eq_some_iff.1 named).1
  have nameThere := sound.areas.names.item named
  have inside := nameThere.inside (nameBytes_ne_nil _ _)
  have short := sound.length_lt
  have positive : 0 < catalogue.fileNamesStart major := by
    rw [fileNamesStart, namesStart]
    omega
  refine ⟨UInt32.ofNat (catalogue.fileNamesStart major +
    ((catalogue.fileNames.take i).flatMap (nameBytes major)).length),
    ofNat_ne_zero (Nat.add_pos_left positive _) (by omega), ?_, ?_⟩
  · rw [UInt32.toNat_ofNat_of_lt' (by show _ < 2 ^ 32; omega), ← Nat.add_assoc]
    exact nameThere
  · have listed : (catalogue.namedFiles major)[i]? = some (entry, _) :=
      List.getElem?_zip_eq_some.2 ⟨there, getElem?_nameOffsets major _ inNames⟩
    have record := sound.areas.records.item listed
    rw [length_flatMap_of_size fun file _ => length_fileRecordBytes sound.version file.1 file.2,
      List.length_take_of_le (Nat.le_of_lt (List.getElem?_eq_some_iff.1 listed).1)] at record
    rw [← Nat.add_assoc]
    exact record

omit sound in
/-- The entry of the file table for a file. -/
theorem getElem?_fileTable {i : Nat} (within : i < catalogue.files.length) :
    (catalogue.fileTable major)[catalogue.directories.length + i]? =
      some (UInt32.ofNat (catalogue.recordsStart major + fileRecordSize major * i)) := by
  rw [fileTable, List.getElem?_append_right (by rw [length_nameOffsets]; omega), length_nameOffsets,
    Nat.add_sub_cancel_left, List.getElem?_map, List.getElem?_range within]
  rfl

theorem Sound.file_position {i : Nat} (within : i < catalogue.files.length) :
    ((catalogue.cab major).directoryCount + UInt32.ofInt i).toNat = catalogue.directories.length + i := by
  obtain ⟨_, _, few⟩ := sound.starts_lt
  rw [UInt32.toNat_add, sound.counted.directoryCount,
    Bits.uint32_toNat_ofInt (Int.natCast_nonneg i) (by omega), Int.toNat_natCast]
  exact Nat.mod_eq_of_lt (by show _ < 2 ^ 32; omega)

/-- The descriptor of a file is what its entry says. -/
theorem Sound.readFileDescriptor_encode (index : Int) {i : Nat} {entry : FileEntry} {nameOffset : UInt32}
    (there : catalogue.files[i]? = some entry)
    (placed : Placed (catalogue.encode major) (commonHeaderSize + catalogue.fileTableStart major +
        (catalogue.recordsStart major + fileRecordSize major * i))
        (fileRecordBytes major entry nameOffset)) :
    readFileDescriptor (catalogue.header major index) i =
      .ret (entry.descriptor (catalogue.header major index) nameOffset) := by
  obtain ⟨within, here⟩ := List.getElem?_eq_some_iff.1 there
  have member : entry ∈ catalogue.files := here ▸ List.getElem_mem within
  have counted := sound.counted
  have directory : entry.directory.toNat < (catalogue.cab major).directoryCount.toNat := by
    rw [counted.directoryCount]
    exact sound.directories entry member
  have treats := treatsAs_generationOf sound.version sound.few
  by_cases old : major = 0 ∨ major = 5
  · have generation : generationOf major = .v5 := if_pos old
    obtain ⟨expanded, compressed, offset⟩ := sound.narrow generation entry member
    have small : catalogue.recordsStart major + fileRecordSize major * i < 2 ^ 32 := by
      have inside := placed.inside (fileRecordBytes_ne_nil sound.version _ _)
      have short := sound.length_lt
      omega
    rw [generation] at treats
    rw [fileRecordBytes_v5 generation] at placed
    have written : FileAtV5 (catalogue.header major index) i (entry.recordV5 nameOffset)
        (UInt32.ofNat (catalogue.recordsStart major + fileRecordSize major * i)) := by
      refine ⟨?_, ?_, directory⟩
      · show (catalogue.fileTable major)[((catalogue.cab major).directoryCount + _).toNat]? = _
        rw [sound.file_position within, getElem?_fileTable within]
      · show Placed _ (_ + (catalogue.cab major).fileTableOffset.toNat + _) _
        rw [UInt32.toNat_ofNat_of_lt' small, counted.fileTableOffset]
        exact placed
    have layout : (catalogue.header major index).OldLayout := old
    rw [treats.fileV5 _ _ _ _ rfl rfl (Int.ofNat_lt.2 within) written, FileEntry.descriptor, if_pos layout,
      FileRecordV5.descriptor, FileEntry.recordV5, toUInt64_toUInt32 expanded,
      toUInt64_toUInt32 compressed, toUInt64_toUInt32 offset]
  · have generation : generationOf major = .v6 := if_neg old
    have size : fileRecordSize major = 0x57 := by
      rw [fileRecordSize, if_neg (by omega), if_neg (by omega)]
    rw [generation] at treats
    rw [fileRecordBytes_v6 generation, size] at placed
    have written : FileAtV6 (catalogue.header major index) i (entry.recordV6 nameOffset) := by
      refine ⟨?_, directory⟩
      show Placed _ (_ + (catalogue.cab major).fileTableOffset.toNat +
        (catalogue.cab major).fileTableOffset2.toNat + i * 0x57) _
      rw [counted.fileTableOffset, counted.fileTableOffset2, Nat.add_assoc _ _ (i * 0x57), Nat.mul_comm i]
      exact placed
    have layout : ¬ (catalogue.header major index).OldLayout := old
    rw [treats.fileV6 _ _ _ rfl rfl (Int.ofNat_lt.2 within) written, FileEntry.descriptor, if_neg layout]
    rfl

variable {bigEndian : Bool} (order : 17 ≤ major → bigEndian = false) (index : Int)

theorem Sound.fileTableStart_header : Unshield.fileTableStart (catalogue.header major index) =
    commonHeaderSize + catalogue.fileTableStart major := by
  show _ + (catalogue.cab major).fileTableOffset.toNat = _
  rw [sound.counted.fileTableOffset]
  rfl

include order

/-- The directories are those of the catalogue, and beyond them there is none. -/
theorem Sound.directoryName_encode (i : Nat) :
    directoryName bigEndian (catalogue.header major index) i = .ret catalogue.directories[i]? := by
  obtain ⟨_, _, few⟩ := sound.starts_lt
  have count : (catalogue.cab major).directoryCount.toInt32.toInt = catalogue.directories.length := by
    rw [Bits.toInt32_toInt_of_lt (by rw [sound.counted.directoryCount]; omega), sound.counted.directoryCount]
  rw [directoryName]
  by_cases within : i < catalogue.directories.length
  · have valid : 0 ≤ (i : Int) ∧ (i : Int) <
        (catalogue.header major index).cab.directoryCount.toInt32.toInt :=
      ⟨Int.natCast_nonneg i, by show _ < (catalogue.cab major).directoryCount.toInt32.toInt; omega⟩
    have here := List.getElem?_eq_getElem within
    have placed := sound.areas.directories.item here
    have inside := placed.inside (nameBytes_ne_nil _ _)
    have short := sound.length_lt
    have entry : (catalogue.fileTable major)[i]? = some (UInt32.ofNat
        (catalogue.namesStart + ((catalogue.directories.take i).flatMap (nameBytes major)).length)) := by
      rw [fileTable, List.getElem?_append_left (by rw [length_nameOffsets]; exact within),
        getElem?_nameOffsets major _ within]
    have spelled := sound.directoryNames _ (List.getElem_mem within)
    have read := @getUtf8String_of_placed bigEndian (catalogue.header major index) _ order spelled _ placed
    rw [if_pos valid, Int.toNat_natCast, show (catalogue.header major index).fileTable[i]? = _ from entry,
      Exit.ofAccess_some, Exit.bind_ret, sound.fileTableStart_header index,
      UInt32.toNat_ofNat_of_lt' (by show _ < 2 ^ 32; omega), ← Nat.add_assoc, read, Exit.bind_ret, here]
    rfl
  · rw [if_neg, List.getElem?_eq_none (Nat.le_of_not_lt within)]
    · rfl
    · rintro ⟨_, valid⟩
      have valid : (i : Int) < (catalogue.cab major).directoryCount.toInt32.toInt := valid
      omega

/-- Each file is read as its entry says, under its name and in its directory. -/
theorem Sound.isFile_encode {i : Nat} {entry : FileEntry} (there : catalogue.files[i]? = some entry) :
    ∃ fd, readFileDescriptor (catalogue.header major index) i = .ret fd ∧
      IsFile bigEndian (catalogue.header major index) catalogue.directories fd entry := by
  obtain ⟨within, here⟩ := List.getElem?_eq_some_iff.1 there
  have member : entry ∈ catalogue.files := here ▸ List.getElem_mem within
  obtain ⟨nameOffset, nonzero, named, placed⟩ := sound.file_placed there
  have offset : (entry.descriptor (catalogue.header major index) nameOffset).nameOffset = nameOffset := by
    rw [FileEntry.descriptor]
    split_ifs <;> rfl
  have directory : (entry.descriptor (catalogue.header major index) nameOffset).directoryIndex =
      entry.directory.toUInt32 := by
    rw [FileEntry.descriptor]
    split_ifs <;> rfl
  refine ⟨_, sound.readFileDescriptor_encode index there placed, ?_, ?_, ?_, ?_⟩
  · rw [offset]
  · rw [offset]
    exact nonzero
  · rw [fileName, offset, sound.fileTableStart_header index]
    exact @getUtf8String_of_placed bigEndian (catalogue.header major index) _ order
      (sound.fileNames entry member) _ named
  · have small := entry.directory.toNat_lt
    have value : entry.directory.toUInt32.toInt32.toInt = entry.directory.toNat := by
      rw [Bits.toInt32_toInt_of_lt (by rw [UInt16.toNat_toUInt32]; omega), UInt16.toNat_toUInt32]
    rw [directory, value]
    exact sound.directoryName_encode order index _

end Catalogue

/-! ### The whole header -/

theorem Forall₂.exists_between {α β γ : Type} {R : α → γ → Prop} {S : α → β → Prop} {T : β → γ → Prop}
    {as : List α} {cs : List γ} (related : List.Forall₂ R as cs)
    (between : ∀ a, ∀ c ∈ cs, R a c → ∃ b, S a b ∧ T b c) :
    ∃ bs, List.Forall₂ S as bs ∧ List.Forall₂ T bs cs := by
  induction related with
  | nil => exact ⟨[], .nil, .nil⟩
  | cons first rest ih =>
      obtain ⟨b, left, right⟩ := between _ _ List.mem_cons_self first
      obtain ⟨bs, lefts, rights⟩ := ih fun a c member => between a c (List.mem_cons_of_mem _ member)
      exact ⟨b :: bs, .cons left lefts, .cons right rights⟩

theorem Forall₂.exists_of_mem {α β : Type} {R : α → β → Prop} {as : List α} {bs : List β}
    (related : List.Forall₂ R as bs) {a : α} (member : a ∈ as) : ∃ b ∈ bs, R a b := by
  induction related with
  | nil => cases member
  | cons first _ ih =>
      rcases List.mem_cons.1 member with rfl | member
      · exact ⟨_, List.mem_cons_self, first⟩
      · obtain ⟨b, there, related⟩ := ih member
        exact ⟨b, List.mem_cons_of_mem _ there, related⟩

/-- What is opened is what the catalogue says. -/
structure IsCatalogue (bigEndian : Bool) (opened : OpenedHeader) (catalogue : Catalogue) : Prop where
  fileGroups : List.Forall₂ (IsGroup opened.header) opened.fileGroups catalogue.fileGroups.flatten
  components : List.Forall₂ (IsComponent opened.header) opened.components catalogue.components.flatten
  directoryCount : opened.header.cab.directoryCount.toNat = catalogue.directories.length
  directories : ∀ i : Nat, directoryName bigEndian opened.header i = .ret catalogue.directories[i]?
  fileCount : opened.header.cab.fileCount.toNat = catalogue.files.length
  files : ∀ (i : Nat) (entry : FileEntry), catalogue.files[i]? = some entry →
    ∃ fd, readFileDescriptor opened.header i = .ret fd ∧
      IsFile bigEndian opened.header catalogue.directories fd entry

section

variable {header : Header} {Entry Made : Type} {record : Nat → Entry → Bytes}
  {newEntry : UInt32 → Exit Made} {Is : Made → Entry → Prop}

/-- Every entry of a list takes the twelve bytes of its node. -/
theorem le_length_chainBytes (offset : Nat) (entries : List Entry) :
    12 * entries.length ≤ (chainBytes record offset entries).length := by
  induction entries generalizing offset with
  | nil => exact Nat.le_refl _
  | cons entry entries ih =>
      have rest := ih (offset + 12 + (record (offset + 12) entry).length)
      simp only [chainBytes, List.length_append, length_words, List.length_cons, List.length_nil]
      omega

theorem le_length_chainsBytes (offset : Nat) (buckets : List (List Entry)) :
    12 * buckets.flatten.length ≤ (chainsBytes record offset buckets).length := by
  induction buckets generalizing offset with
  | nil => exact Nat.le_refl _
  | cons entries buckets ih =>
      have here := @le_length_chainBytes _ record offset entries
      have rest := ih (offset + (chainBytes record offset entries).length)
      rw [List.flatten_cons, List.length_append, chainsBytes, List.length_append]
      omega

/-- A header of less than four gigabytes has no more entries than an array can take. -/
theorem length_le_mostEntries (short : header.data.length < 2 ^ 32) {buckets : List (List Entry)}
    {p offset : Nat} (placed : Placed header.data p (chainsBytes record offset buckets)) :
    buckets.flatten.length ≤ mostEntries := by
  have bound := @le_length_chainsBytes _ record offset buckets
  rw [mostEntries]
  by_cases nothing : chainsBytes record offset buckets = []
  · rw [nothing, List.length_nil] at bound
    omega
  · have inside := placed.inside nothing
    omega

/-- The entries of all buckets are followed and decoded. -/
theorem followBuckets_of_placed (short : header.data.length < 2 ^ 32) {buckets : List (List Entry)}
    {offset : Nat} (positive : 0 < offset)
    (placed : Placed header.data (header.common.cabDescriptorOffset.toNat + offset)
      (chainsBytes record offset buckets))
    (decodes : ∀ node, ∀ entry ∈ buckets.flatten, NodeAt record header node entry →
      ∃ made, EntryOf newEntry node made ∧ Is made entry) :
    ∃ made, List.Forall₂ Is made buckets.flatten ∧ ∀ fuel, (∀ bucket ∈ buckets, bucket.length < fuel) →
      ∃ array, array.entries = made ∧ followBuckets header newEntry fuel
        (chainOffsets record offset buckets) (.allocate initialAvailable) = .ret array := by
  obtain ⟨lists, chains, nodes⟩ := chains_of_placed short positive placed
  obtain ⟨made, decoded, are⟩ := Forall₂.exists_between nodes fun list bucket member written =>
    Forall₂.exists_between written fun node entry inside =>
      decodes node entry (List.mem_flatten_of_mem member inside)
  refine ⟨made.flatten, List.rel_flatten are, fun fuel enough => ?_⟩
  have turns : ∀ list ∈ lists, list.length < fuel := by
    intro list member
    obtain ⟨bucket, there, written⟩ := Forall₂.exists_of_mem nodes member
    rw [written.length_eq]
    exact enough bucket there
  have few : (lists.map List.length).sum ≤ mostEntries := by
    rw [← List.length_flatten, (List.rel_flatten nodes).length_eq]
    exact length_le_mostEntries short placed
  obtain ⟨array, run, holds⟩ := followBuckets_of_chains chains decoded turns holds_initial (by
    rw [List.length_nil, Nat.zero_add]
    exact few)
  exact ⟨array, holds.entries_eq, run⟩

end

/-- A catalogue is read from its header as it was put there: file groups, components, directories and
files.  Names are converted in the order of a little-endian host. -/
theorem parseHeader_encode {major : Int} {catalogue : Catalogue} (sound : catalogue.Sound major)
    {bigEndian : Bool} (order : 17 ≤ major → bigEndian = false) {version : Int}
    (asked : majorVersionOf version catalogue.common = major) (index : Int) :
    ∃ opened, opened.header = catalogue.header major index ∧ IsCatalogue bigEndian opened catalogue ∧
      ∀ fuel, (∀ bucket ∈ catalogue.fileGroups, bucket.length < fuel) →
        (∀ bucket ∈ catalogue.components, bucket.length < fuel) →
          parseHeader bigEndian fuel version index (catalogue.encode major) = .ret opened := by
  let header := catalogue.header major index
  have short : header.data.length < 2 ^ 32 := sound.length_lt
  have treats := treatsAs_generationOf sound.version sound.few
  obtain ⟨fileGroups, areGroups, groupsRead⟩ :=
    @followBuckets_of_placed header _ _ (groupBytes major) (fileGroupNew bigEndian header)
      (IsGroup header) short catalogue.fileGroups cabDescriptorLength (by decide) sound.areas.groups
      fun node entry member written =>
        @fileGroup_of_nodeAt bigEndian header node order short _ treats entry
          (sound.groupNames entry member) written
  obtain ⟨components, areComponents, componentsRead⟩ :=
    @followBuckets_of_placed header _ _ (componentBytes major) (componentNew bigEndian header)
      (IsComponent header) short catalogue.components (catalogue.componentsStart major)
      (Nat.add_pos_left (by decide) _) sound.areas.components
      fun node entry member written =>
        @component_of_nodeAt bigEndian header node order short _ treats entry
          (sound.componentNames entry member).1 (sound.componentNames entry member).2 written
  refine ⟨{ header, components, fileGroups }, rfl, ⟨areGroups, areComponents,
    sound.counted.directoryCount, sound.directoryName_encode order index, sound.counted.fileCount,
    fun i entry there => sound.isFile_encode order index there⟩, ?_⟩
  intro fuel enoughGroups enoughComponents
  obtain ⟨componentArray, rfl, componentRun⟩ := componentsRead fuel enoughComponents
  obtain ⟨groupArray, rfl, groupRun⟩ := groupsRead fuel enoughGroups
  have componentTable : getComponents bigEndian header fuel (catalogue.offsets major).componentOffsets =
      .ret componentArray := componentRun
  have groupTable : getFileGroups bigEndian header fuel (catalogue.offsets major).fileGroupOffsets =
      .ret groupArray := groupRun
  rw [parseHeader_eq, sound.readTables_encode, Exit.bind_ret]
  simp only [asked]
  show (getComponents bigEndian header fuel _ >>= fun _ => _) = _
  rw [componentTable, Exit.bind_ret]
  show (getFileGroups bigEndian header fuel _ >>= fun _ => _) = _
  rw [groupTable, Exit.bind_ret]
  rfl

end Unshield
