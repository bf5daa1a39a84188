/-
Module: Unshield.Proofs.EntryArrays
Purpose: The component array and the file group array hold the entries of the flattened offset lists, as
  long as their capacity is representable.
Trusted boundary: none
Main exports: Tabulated, tabulated_iff, tables_flattened_iff, ladder, ladder_overflows
-/
import Unshield.Proofs.OffsetLists

namespace Unshield

open Procedure

/-! ### Arrays and lists -/

section

variable {header : Header} {Entry : Type} {newEntry : UInt32 → Exit Entry}

variable (newEntry) in
/-- The runs, with a turn for every node and one more for every list, leave in the array the entries of the
nodes, list after list and node after node, one for each; nothing was stored outside the block, or the
run would be a fault. -/
def Tabulated (lists : List (List OffsetList)) (run : Nat → Exit (GrowingArray Entry)) : Prop :=
  ∃ entries : List Entry, List.Forall₂ (EntryOf newEntry) lists.flatten entries ∧
    ∀ fuel, (∀ nodes ∈ lists, nodes.length < fuel) → ∃ array, run fuel = .ret array ∧
      array.count = (lists.map List.length).sum ∧
      array.block.take array.count = entries.map some ∧
      array.count ≤ array.available ∧ array.block.length = array.available

theorem tabulated_iff {offsets : List UInt32} {lists : List (List OffsetList)}
    (chains : List.Forall₂ (OffsetChain header) offsets lists)
    (decodes : ∀ node ∈ lists.flatten, ∃ entry, EntryOf newEntry node entry) :
    Tabulated newEntry lists (fun fuel => followBuckets header newEntry fuel offsets
      (.allocate initialAvailable)) ↔ (lists.map List.length).sum ≤ mostEntries := by
  constructor
  · rintro ⟨entries, -, runs⟩
    have enough : ∀ nodes ∈ lists, nodes.length < lists.flatten.length + 1 := fun nodes member =>
      Nat.lt_succ_of_le (List.sublist_flatten_of_mem member).length_le
    obtain ⟨array, run, count, -⟩ := runs _ enough
    obtain ⟨_, _, -, -, holds⟩ := chains_of_followBuckets holds_initial run
    rw [intMax_eq] at holds
    rw [← count]
    exact holds.within.trans holds.available_le
  · intro few
    obtain ⟨made, each, all⟩ := exists_entryLists decodes
    have size : made.flatten.length = (lists.map List.length).sum := by
      rw [← all.length_eq, List.length_flatten]
    refine ⟨made.flatten, all, fun fuel enough => ?_⟩
    obtain ⟨array, run, holds⟩ := followBuckets_of_chains chains each enough holds_initial (by
      rw [List.length_nil, Nat.zero_add]
      exact few)
    rw [List.nil_append] at holds
    exact ⟨array, run, holds.count.trans size, holds.filled, holds.within, holds.capacity⟩

end

/-- The arrays of a header whose lists are finite and within its data hold the flattened lists exactly if
neither table has more entries than an `int` can count with a doubled capacity. -/
theorem tables_flattened_iff (bigEndian : Bool) (header : Header)
    {componentOffsets fileGroupOffsets : List UInt32}
    {componentLists fileGroupLists : List (List OffsetList)}
    (componentChains : List.Forall₂ (OffsetChain header) componentOffsets componentLists)
    (fileGroupChains : List.Forall₂ (OffsetChain header) fileGroupOffsets fileGroupLists)
    (components : ∀ node ∈ componentLists.flatten, ∃ component,
      EntryOf (componentNew bigEndian header) node component)
    (fileGroups : ∀ node ∈ fileGroupLists.flatten, ∃ fileGroup,
      EntryOf (fileGroupNew bigEndian header) node fileGroup) :
    (Tabulated (componentNew bigEndian header) componentLists
        (fun fuel => getComponents bigEndian header fuel componentOffsets) ∧
      Tabulated (fileGroupNew bigEndian header) fileGroupLists
        (fun fuel => getFileGroups bigEndian header fuel fileGroupOffsets)) ↔
      (componentLists.map List.length).sum ≤ 2 ^ 30 ∧ (fileGroupLists.map List.length).sum ≤ 2 ^ 30 :=
  and_congr (tabulated_iff componentChains components) (tabulated_iff fileGroupChains fileGroups)

/-! ### Lists that all buckets share -/

/-- A node without a name, with the descriptor at 4. -/
def rung (nextOffset : UInt32) : OffsetList := { nameOffset := 0, descriptorOffset := 4, nextOffset }

/-- Nodes one behind the other, from an offset on. -/
def ladderNodes : Nat → UInt32 → List OffsetList
  | 0, _ => []
  | n + 1, offset => rung (if n = 0 then 0 else offset + 12) :: ladderNodes n (offset + 12)

def nodeBytes (node : OffsetList) : Bytes :=
  words [node.nameOffset, node.descriptorOffset, node.nextOffset]

/-- Zeros for one component and one file group without names, and a list of nodes behind them. -/
def ladder (n : Nat) : Header :=
  { (default : Header) with
    majorVersion := 5
    data := List.replicate 164 0 ++ (ladderNodes n 164).flatMap nodeBytes }

theorem length_ladderNodes (n : Nat) (offset : UInt32) : (ladderNodes n offset).length = n := by
  induction n generalizing offset with
  | zero => rfl
  | succ n ih => rw [ladderNodes, List.length_cons, ih]

theorem descriptorOffset_of_mem_ladderNodes {n : Nat} {offset : UInt32} {node : OffsetList}
    (member : node ∈ ladderNodes n offset) : node.descriptorOffset = 4 := by
  induction n generalizing offset with
  | zero => cases member
  | succ n ih =>
      rcases List.mem_cons.1 member with rfl | member
      · rfl
      · exact ih member

theorem readOffsetList_nodeBytes {header : Header} {front rest : Bytes} {node : OffsetList}
    {offset : UInt32} (data : header.data = front ++ (nodeBytes node ++ rest))
    (start : header.common.cabDescriptorOffset = 0) (nonzero : offset ≠ 0)
    (position : offset.toNat = front.length) : readOffsetList header offset = .ret node := by
  have word := @readUint32_words [node.nameOffset, node.descriptorOffset, node.nextOffset] rest
  have buffer : headerGetBuffer header offset = some front.length := by
    rw [headerGetBuffer, if_pos nonzero, start, position]
    exact congrArg some (Nat.zero_add _)
  have nameOffset := readUint32_append front (nodeBytes node ++ rest) 0
  have descriptorOffset := readUint32_append front (nodeBytes node ++ rest) 4
  have nextOffset := readUint32_append front (nodeBytes node ++ rest) 8
  rw [nodeBytes, word 0 0 rfl rfl, Nat.add_zero] at nameOffset
  rw [nodeBytes, word 4 1 rfl rfl] at descriptorOffset
  rw [nodeBytes, word 8 2 rfl rfl] at nextOffset
  rw [readOffsetList, buffer, data, nodeBytes]
  simp only [Exit.ofAccess_some, Exit.bind_ret, nameOffset, descriptorOffset, nextOffset]
  rfl

/-- The nodes make a list, wherever they begin. -/
theorem offsetChain_ladderNodes {header : Header} {n : Nat} {front : Bytes} {offset : UInt32}
    (data : header.data = front ++ (ladderNodes n offset).flatMap nodeBytes)
    (start : header.common.cabDescriptorOffset = 0) (positive : 0 < front.length)
    (position : offset.toNat = front.length) (few : front.length + 12 * n < 2 ^ 32) :
    OffsetChain header (if n = 0 then 0 else offset) (ladderNodes n offset) := by
  induction n generalizing front offset with
  | zero => exact .done
  | succ n ih =>
      rw [ladderNodes, List.flatMap_cons] at data
      have nonzero : offset ≠ 0 := by
        rintro rfl
        exact positive.ne position
      refine .node nonzero (readOffsetList_nodeBytes data start nonzero position) ?_
      have longer : (front ++ nodeBytes (rung (if n = 0 then 0 else offset + 12))).length =
          front.length + 12 := List.length_append
      have next : (offset + 12).toNat = front.length + 12 := by
        rw [UInt32.toNat_add, position]
        exact Nat.mod_eq_of_lt (by show front.length + 12 < 2 ^ 32; omega)
      refine ih ?_ ?_ (next.trans longer.symm) ?_
      · rw [data, List.append_assoc]
      · rw [longer]
        exact Nat.add_pos_left positive 12
      · rw [longer]
        omega

section

variable (n : Nat)

theorem ladder_data {p : Nat} (within : p < 164) : (ladder n).data[p]? = some 0 := by
  rw [ladder, List.getElem?_append_left (within.trans_eq List.length_replicate.symm),
    List.getElem?_replicate, if_pos within]

theorem readUint16_ladder {p : Nat} (within : p + 1 < 164) : readUint16 (ladder n).data p = some 0 := by
  rw [readUint16, ladder_data n within, ladder_data n (Nat.lt_of_succ_lt within)]
  rfl

theorem readUint32_ladder {p : Nat} (within : p + 3 < 164) : readUint32 (ladder n).data p = some 0 := by
  rw [readUint32, ladder_data n within, ladder_data n (show p + 2 < 164 by omega),
    ladder_data n (show p + 1 < 164 by omega), ladder_data n (show p < 164 by omega)]
  rfl

theorem componentNew_ladder :
    componentNew false (ladder n) 4 = .ret { name := .null, fileGroupNames := [] } := by
  have buffer : headerGetBuffer (ladder n) 4 = some 4 := rfl
  have noName : headerGetString false (ladder n) 0 = .ret .null := rfl
  have layout : (ladder n).OldLayout := .inr rfl
  rw [componentNew, buffer, if_pos layout, Exit.ofAccess_some, Exit.bind_ret,
    readUint32_ladder n (by decide), Exit.ofAccess_some, Exit.bind_ret, noName, Exit.bind_ret]
  dsimp only
  rw [readUint16_ladder n (by decide), readUint32_ladder n (by decide)]
  rfl

theorem fileGroupNew_ladder :
    fileGroupNew false (ladder n) 4 = .ret { name := .null, firstFile := 0, lastFile := 0 } := by
  have buffer : headerGetBuffer (ladder n) 4 = some 4 := rfl
  have noName : headerGetString false (ladder n) 0 = .ret .null := rfl
  have layout : (ladder n).majorVersion ≤ 5 := le_rfl
  rw [fileGroupNew, buffer, if_pos layout, Exit.ofAccess_some, Exit.bind_ret,
    readUint32_ladder n (by decide), Exit.ofAccess_some, Exit.bind_ret, noName, Exit.bind_ret]
  dsimp only
  rw [readUint32_ladder n (by decide), readUint32_ladder n (by decide)]
  rfl

theorem descriptorOffset_of_mem_buckets {node : OffsetList}
    (member : node ∈ (List.replicate 71 (ladderNodes n 164)).flatten) : node.descriptorOffset = 4 := by
  obtain ⟨nodes, bucket, member⟩ := List.mem_flatten.1 member
  obtain rfl := List.eq_of_mem_replicate bucket
  exact descriptorOffset_of_mem_ladderNodes member

theorem exists_component_ladder :
    ∀ node ∈ (List.replicate 71 (ladderNodes n 164)).flatten, ∃ component,
      EntryOf (componentNew false (ladder n)) node component := fun _ member =>
  ⟨_, (congrArg _ (descriptorOffset_of_mem_buckets n member)).trans (componentNew_ladder n)⟩

theorem exists_fileGroup_ladder :
    ∀ node ∈ (List.replicate 71 (ladderNodes n 164)).flatten, ∃ fileGroup,
      EntryOf (fileGroupNew false (ladder n)) node fileGroup := fun _ member =>
  ⟨_, (congrArg _ (descriptorOffset_of_mem_buckets n member)).trans (fileGroupNew_ladder n)⟩

variable {n} (nonempty : n ≠ 0) (few : 164 + 12 * n < 2 ^ 32)

include nonempty few

theorem ladder_chains (buckets : Nat) : List.Forall₂ (OffsetChain (ladder n))
    (List.replicate buckets 164) (List.replicate buckets (ladderNodes n 164)) := by
  have front : (List.replicate 164 0 : Bytes).length = 164 := List.length_replicate
  have chain := @offsetChain_ladderNodes (ladder n) n (List.replicate 164 0) 164 rfl rfl
    (front.symm ▸ by decide) front.symm (front.symm ▸ few)
  rw [if_neg nonempty] at chain
  induction buckets with
  | zero => exact .nil
  | succ buckets ih => exact .cons chain ih

end

theorem tables_flattened_iff_ladder :
    (Tabulated (componentNew false (ladder 1)) (List.replicate 71 (ladderNodes 1 164))
        (fun fuel => getComponents false (ladder 1) fuel (List.replicate 71 164)) ∧
      Tabulated (fileGroupNew false (ladder 1)) (List.replicate 71 (ladderNodes 1 164))
        (fun fuel => getFileGroups false (ladder 1) fuel (List.replicate 71 164))) ↔
      ((List.replicate 71 (ladderNodes 1 164)).map List.length).sum ≤ 2 ^ 30 ∧
        ((List.replicate 71 (ladderNodes 1 164)).map List.length).sum ≤ 2 ^ 30 :=
  have chains := @ladder_chains 1 (by decide) (by decide) 71
  tables_flattened_iff false (ladder 1) chains chains (exists_component_ladder 1) (exists_fileGroup_ladder 1)

/-- The header is well formed, and its components do not go into the array. -/
theorem ladder_overflows :
    List.Forall₂ (OffsetChain (ladder (2 ^ 24))) (List.replicate 71 164)
        (List.replicate 71 (ladderNodes (2 ^ 24) 164)) ∧
      (∀ node ∈ (List.replicate 71 (ladderNodes (2 ^ 24) 164)).flatten, ∃ component,
        EntryOf (componentNew false (ladder (2 ^ 24))) node component) ∧
      ¬ Tabulated (componentNew false (ladder (2 ^ 24))) (List.replicate 71 (ladderNodes (2 ^ 24) 164))
        (fun fuel => getComponents false (ladder (2 ^ 24)) fuel (List.replicate 71 164)) := by
  have chains := @ladder_chains (2 ^ 24) (by decide) (by decide) 71
  refine ⟨chains, exists_component_ladder _, fun tabulated => ?_⟩
  have few := (tabulated_iff chains (exists_component_ladder _)).1 tabulated
  rw [List.map_replicate, List.sum_replicate_nat, length_ladderNodes] at few
  exact absurd few (by decide)

end Unshield
