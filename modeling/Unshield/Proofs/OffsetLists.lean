/-
Module: Unshield.Proofs.OffsetLists
Purpose: What the traversals of the component lists and of the file group lists of a header do: they return
  exactly if every list ends, its nodes lie in the header's data and give entries, and the array can take
  all of these.
Trusted boundary: none
Main exports: OffsetChain, EntryOf, followBuckets_of_chains, chains_of_followBuckets, nextNode, OnList,
  exists_chain_iff, Followable, followBuckets_returns_iff, offsetLists_return_iff
-/
import Unshield.Foundation.Chain
import Unshield.Proofs.HeaderBounds
import Unshield.Proofs.VolumeFormat

namespace Unshield

open Procedure
open Chain (ComesBack)
open StateTransition (Reaches)

/-! ### Chains of nodes -/

section

variable {header : Header} {Entry : Type} {newEntry : UInt32 → Exit Entry}

/-- The largest power of two among the values of an `int`. -/
def mostEntries : Nat := 2 ^ 30

theorem intMax_eq : intMax.toNat = 2 ^ (30 + 1) - 1 := rfl

theorem holds_initial :
    (GrowingArray.allocate initialAvailable : GrowingArray Entry).Holds intMax.toNat [] :=
  @GrowingArray.holds_allocate Entry intMax.toNat 4 (by decide)

variable (header) in
/-- The nodes of a finite list, read within the header's data. -/
inductive OffsetChain : UInt32 → List OffsetList → Prop where
  | done : OffsetChain 0 []
  | node {offset : UInt32} {list : OffsetList} {nodes : List OffsetList} :
      offset ≠ 0 → readOffsetList header offset = .ret list → OffsetChain list.nextOffset nodes →
      OffsetChain offset (list :: nodes)

/-- There is only one chain from an offset. -/
theorem OffsetChain.unique {offset : UInt32} {nodes : List OffsetList}
    (chain : OffsetChain header offset nodes) :
    ∀ {others : List OffsetList}, OffsetChain header offset others → others = nodes := by
  induction chain with
  | done =>
      intro others other
      cases other with
      | done => rfl
      | node nonzero _ _ => exact absurd rfl nonzero
  | node nonzero read rest ih =>
      intro others other
      cases other with
      | done => exact absurd rfl nonzero
      | node _ read' rest' =>
          obtain rfl := Exit.ret.inj (read'.symm.trans read)
          rw [ih rest']

theorem chains_unique {offsets : List UInt32} {lists others : List (List OffsetList)}
    (chains : List.Forall₂ (OffsetChain header) offsets lists)
    (other : List.Forall₂ (OffsetChain header) offsets others) : others = lists := by
  induction chains generalizing others with
  | nil =>
      cases other
      rfl
  | cons chain chains ih =>
      cases other with
      | cons first rest => rw [chain.unique first, ih rest]

variable (newEntry) in
/-- The entry that a node gives. -/
def EntryOf (node : OffsetList) (entry : Entry) : Prop := newEntry node.descriptorOffset = .ret entry

/-- Every node of a chain gives its entry, in order, as long as the array can take it. -/
theorem followOffsets_of_chain {offset : UInt32} {nodes : List OffsetList} {made : List Entry}
    (chain : OffsetChain header offset nodes) (decoded : List.Forall₂ (EntryOf newEntry) nodes made)
    {fuel : Nat} (enough : nodes.length < fuel) {array : GrowingArray Entry} {entries : List Entry}
    (holds : array.Holds intMax.toNat entries) (few : entries.length + nodes.length ≤ mostEntries) :
    ∃ filled, followOffsets header newEntry fuel offset array = .ret filled ∧
      filled.Holds intMax.toNat (entries ++ made) := by
  induction chain generalizing made fuel array entries with
  | done =>
      obtain ⟨fuel, rfl⟩ := Nat.exists_eq_succ_of_ne_zero (Nat.ne_of_gt enough)
      cases decoded
      rw [followOffsets, if_pos rfl, List.append_nil]
      exact ⟨array, rfl, holds⟩
  | @node offset list nodes nonzero read rest ih =>
      obtain ⟨fuel, rfl⟩ := Nat.exists_eq_succ_of_ne_zero (Nat.ne_of_gt (Nat.zero_lt_of_lt enough))
      rw [List.length_cons] at few
      cases decoded with
      | @cons _ entry _ made entryOf decoded =>
          obtain ⟨roomy, grown⟩ := holds.exists_makeRoom (show entries.length < 2 ^ 30 by
            rw [mostEntries] at few
            omega)
          obtain ⟨holds, room⟩ := holds.makeRoom grown
          obtain ⟨stored, put, holds⟩ := holds.store room entry
          obtain ⟨filled, run, holds⟩ := ih decoded (Nat.lt_of_succ_lt_succ enough) holds (by
            rw [List.length_append, List.length_singleton]
            omega)
          refine ⟨filled, ?_, List.append_cons entries entry made ▸ holds⟩
          rw [followOffsets, if_neg nonzero, read, Exit.bind_ret, intMax_eq, grown, Exit.ofAccess_some,
            Exit.bind_ret, entryOf, Exit.bind_ret, put, Exit.ofAccess_some, Exit.bind_ret]
          exact run

/-- A traversal that returns has followed a chain, and the array has the entries of its nodes. -/
theorem chain_of_followOffsets {fuel : Nat} {offset : UInt32} {array filled : GrowingArray Entry}
    {entries : List Entry} (holds : array.Holds intMax.toNat entries)
    (run : followOffsets header newEntry fuel offset array = .ret filled) :
    ∃ nodes made, OffsetChain header offset nodes ∧ List.Forall₂ (EntryOf newEntry) nodes made ∧
      filled.Holds intMax.toNat (entries ++ made) := by
  induction fuel generalizing offset array entries with
  | zero => cases run
  | succ fuel ih =>
      rw [followOffsets] at run
      split_ifs at run with ended
      · obtain rfl := Exit.ret.inj run
        obtain rfl := ended
        exact ⟨[], [], .done, .nil, (List.append_nil entries).symm ▸ holds⟩
      · obtain ⟨list, read, run⟩ := Exit.bind_eq_ret_iff.1 run
        obtain ⟨roomy, grown, run⟩ := Exit.bind_eq_ret_iff.1 run
        obtain ⟨entry, entryOf, run⟩ := Exit.bind_eq_ret_iff.1 run
        obtain ⟨stored, put, run⟩ := Exit.bind_eq_ret_iff.1 run
        obtain ⟨holds, room⟩ := holds.makeRoom (Exit.ofAccess_eq_ret_iff.1 grown)
        obtain ⟨stored', put', holds⟩ := holds.store room entry
        obtain rfl := Option.some.inj (put'.symm.trans (Exit.ofAccess_eq_ret_iff.1 put))
        obtain ⟨nodes, made, chain, decoded, holds⟩ := ih holds run
        exact ⟨list :: nodes, entry :: made, .node ended read chain, .cons entryOf decoded,
          (List.append_cons entries entry made).symm ▸ holds⟩

/-! ### The lists of all buckets -/

theorem followBuckets_of_chains {offsets : List UInt32} {lists : List (List OffsetList)}
    {made : List (List Entry)} (chains : List.Forall₂ (OffsetChain header) offsets lists)
    (decoded : List.Forall₂ (List.Forall₂ (EntryOf newEntry)) lists made) {fuel : Nat}
    (enough : ∀ nodes ∈ lists, nodes.length < fuel) {array : GrowingArray Entry} {entries : List Entry}
    (holds : array.Holds intMax.toNat entries)
    (few : entries.length + (lists.map List.length).sum ≤ mostEntries) :
    ∃ filled, followBuckets header newEntry fuel offsets array = .ret filled ∧
      filled.Holds intMax.toNat (entries ++ made.flatten) := by
  induction chains generalizing made array entries with
  | nil =>
      cases decoded
      rw [List.flatten_nil, List.append_nil]
      exact ⟨array, rfl, holds⟩
  | cons chain chains ih =>
      rw [List.map_cons, List.sum_cons] at few
      cases decoded with
      | cons first decoded =>
          obtain ⟨here, behind⟩ := List.forall_mem_cons.1 enough
          obtain ⟨middle, run, holds⟩ := followOffsets_of_chain chain first here holds (by omega)
          obtain ⟨filled, rest, holds⟩ := ih decoded behind holds (by
            rw [List.length_append, ← first.length_eq]
            omega)
          rw [followBuckets, run, Exit.bind_ret, List.flatten_cons, ← List.append_assoc]
          exact ⟨filled, rest, holds⟩

theorem chains_of_followBuckets {fuel : Nat} {offsets : List UInt32} {array filled : GrowingArray Entry}
    {entries : List Entry} (holds : array.Holds intMax.toNat entries)
    (run : followBuckets header newEntry fuel offsets array = .ret filled) :
    ∃ lists made, List.Forall₂ (OffsetChain header) offsets lists ∧
      List.Forall₂ (List.Forall₂ (EntryOf newEntry)) lists made ∧
      filled.Holds intMax.toNat (entries ++ made.flatten) := by
  induction offsets generalizing array entries with
  | nil =>
      obtain rfl := Exit.ret.inj run
      exact ⟨[], [], .nil, .nil, (List.append_nil entries).symm ▸ holds⟩
  | cons offset offsets ih =>
      obtain ⟨middle, first, run⟩ := Exit.bind_eq_ret_iff.1 run
      obtain ⟨nodes, made, chain, decoded, holds⟩ := chain_of_followOffsets holds first
      obtain ⟨lists, others, chains, rest, holds⟩ := ih holds run
      refine ⟨nodes :: lists, made :: others, .cons chain chains, .cons decoded rest, ?_⟩
      rw [List.flatten_cons, ← List.append_assoc]
      exact holds

theorem exists_entries {nodes : List OffsetList}
    (decodes : ∀ node ∈ nodes, ∃ entry, EntryOf newEntry node entry) :
    ∃ made, List.Forall₂ (EntryOf newEntry) nodes made := by
  induction nodes with
  | nil => exact ⟨[], .nil⟩
  | cons node nodes ih =>
      obtain ⟨⟨entry, entryOf⟩, rest⟩ := List.forall_mem_cons.1 decodes
      obtain ⟨made, decoded⟩ := ih rest
      exact ⟨entry :: made, .cons entryOf decoded⟩

theorem exists_entryLists {lists : List (List OffsetList)}
    (decodes : ∀ node ∈ lists.flatten, ∃ entry, EntryOf newEntry node entry) :
    ∃ made, List.Forall₂ (List.Forall₂ (EntryOf newEntry)) lists made ∧
      List.Forall₂ (EntryOf newEntry) lists.flatten made.flatten := by
  induction lists with
  | nil => exact ⟨[], .nil, .nil⟩
  | cons nodes lists ih =>
      rw [List.flatten_cons] at decodes
      obtain ⟨first, here⟩ := exists_entries fun node member => decodes node (List.mem_append_left _ member)
      obtain ⟨made, each, all⟩ := ih fun node member => decodes node (List.mem_append_right _ member)
      exact ⟨first :: made, .cons here each, List.rel_append here all⟩

/-! ### Where a list goes -/

variable (header) in
/-- The node that a node in the header's data leads to. -/
def nextNode (offset : UInt32) : Option UInt32 :=
  if offset = 0 then none
  else
    match readOffsetList header offset with
    | .ret list => if list.nextOffset = 0 then none else some list.nextOffset
    | _ => none

variable (header) in
/-- A list gets to a node. -/
def OnList (offset node : UInt32) : Prop := node ≠ 0 ∧ Reaches (nextNode header) offset node

theorem nextNode_zero : nextNode header 0 = none := if_pos rfl

theorem nextNode_of_read {offset : UInt32} {list : OffsetList} (nonzero : offset ≠ 0)
    (read : readOffsetList header offset = .ret list) :
    nextNode header offset = if list.nextOffset = 0 then none else some list.nextOffset := by
  rw [nextNode, if_neg nonzero, read]

theorem read_of_nextNode {offset next : UInt32} (step : nextNode header offset = some next) :
    offset ≠ 0 ∧ next ≠ 0 ∧ ∃ list, readOffsetList header offset = .ret list ∧ list.nextOffset = next := by
  rw [nextNode] at step
  split_ifs at step with zero
  split at step
  · rename_i list read
    split_ifs at step with ended
    obtain rfl := Option.some.inj step
    exact ⟨zero, ended, list, read, rfl⟩
  · cases step

/-- From a node a list gets to that node and to where the next one leads. -/
theorem onList_iff_of_read {offset node : UInt32} {list : OffsetList} (nonzero : offset ≠ 0)
    (read : readOffsetList header offset = .ret list) :
    OnList header offset node ↔ node = offset ∨ OnList header list.nextOffset node := by
  have step := nextNode_of_read nonzero read
  constructor
  · rintro ⟨node_ne, reaches⟩
    rcases Relation.ReflTransGen.cases_head reaches with rfl | ⟨next, leads, rest⟩
    · exact Or.inl rfl
    · rw [Option.mem_def, step] at leads
      split_ifs at leads
      obtain rfl := Option.some.inj leads
      exact Or.inr ⟨node_ne, rest⟩
  · rintro (rfl | ⟨node_ne, reaches⟩)
    · exact ⟨nonzero, .refl⟩
    · refine ⟨node_ne, ?_⟩
      by_cases ended : list.nextOffset = 0
      · -- nothing but the end is reached from the end
        rw [ended] at reaches
        rcases Relation.ReflTransGen.cases_head reaches with same | ⟨next, leads, _⟩
        · exact absurd same.symm node_ne
        · rw [Option.mem_def, nextNode_zero] at leads
          cases leads
      · rw [if_neg ended] at step
        exact .head step reaches

theorem not_onList_zero {node : UInt32} : ¬ OnList header 0 node := by
  rintro ⟨node_ne, reaches⟩
  rcases Relation.ReflTransGen.cases_head reaches with same | ⟨next, leads, _⟩
  · exact node_ne same.symm
  · rw [Option.mem_def, nextNode_zero] at leads
    cases leads

/-- The nodes of a chain are those that the list gets to. -/
theorem OffsetChain.mem_iff {offset : UInt32} {nodes : List OffsetList}
    (chain : OffsetChain header offset nodes) (list : OffsetList) :
    list ∈ nodes ↔ ∃ node, OnList header offset node ∧ readOffsetList header node = .ret list := by
  induction chain with
  | done => exact iff_of_false List.not_mem_nil fun ⟨_, onList, _⟩ => not_onList_zero onList
  | node nonzero read rest ih =>
      rw [List.mem_cons, ih]
      simp only [onList_iff_of_read nonzero read, or_and_right, exists_or, exists_eq_left, read,
        Exit.ret.injEq]
      rw [eq_comm]

/-- A list ends exactly if it does not come back to a node and all nodes that it gets to are in the
header's data. -/
theorem exists_chain_iff (offset : UInt32) :
    (∃ nodes, OffsetChain header offset nodes) ↔
      ¬ ComesBack (nextNode header) offset ∧
        ∀ node, OnList header offset node → ∃ list, readOffsetList header node = .ret list := by
  constructor
  · rintro ⟨nodes, chain⟩
    induction chain with
    | done =>
        refine ⟨fun comesBack => ?_, fun node onList => absurd onList not_onList_zero⟩
        obtain ⟨point, step, _⟩ := comesBack.goes_on
        rw [nextNode_zero] at step
        cases step
    | node nonzero read rest ih =>
        refine ⟨fun comesBack => ?_, fun node onList => ?_⟩
        · obtain ⟨point, step, further⟩ := comesBack.goes_on
          obtain ⟨_, _, list, read', rfl⟩ := read_of_nextNode step
          obtain rfl := Exit.ret.inj (read'.symm.trans read)
          exact ih.1 further
        · rcases (onList_iff_of_read nonzero read).1 onList with rfl | later
          · exact ⟨_, read⟩
          · exact ih.2 node later
  · rintro ⟨straight, inside⟩
    obtain ⟨last, reaches, final⟩ := (Chain.ends_iff (Set.toFinite _)).2 straight
    clear straight
    induction reaches using Relation.ReflTransGen.head_induction_on with
    | refl =>
        by_cases zero : last = 0
        · rw [zero]
          exact ⟨[], .done⟩
        · obtain ⟨list, read⟩ := inside last ⟨zero, .refl⟩
          rw [nextNode_of_read zero read] at final
          split_ifs at final with ended
          exact ⟨[list], .node zero read (ended.symm ▸ .done)⟩
    | head step _ ih =>
        obtain ⟨nonzero, _, list, read, rfl⟩ := read_of_nextNode step
        obtain ⟨nodes, chain⟩ := ih fun node onList =>
          inside node ((onList_iff_of_read nonzero read).2 (Or.inr onList))
        exact ⟨list :: nodes, .node nonzero read chain⟩

/-! ### When a traversal returns -/

variable (header newEntry) in
/-- No list of the buckets comes back to a node, every node that a list gets to is in the header's data and
gives an entry, and the lists have no more nodes than the array can grow to. -/
structure Followable (offsets : List UInt32) : Prop where
  straight : ∀ offset ∈ offsets, ¬ ComesBack (nextNode header) offset
  decodes : ∀ offset ∈ offsets, ∀ node, OnList header offset node →
    ∃ list entry, readOffsetList header node = .ret list ∧ EntryOf newEntry list entry
  few : ∀ lists, List.Forall₂ (OffsetChain header) offsets lists →
    (lists.map List.length).sum ≤ mostEntries

/-- The lists of all buckets, if each of them ends. -/
theorem exists_chains {offsets : List UInt32}
    (chains : ∀ offset ∈ offsets, ∃ nodes, OffsetChain header offset nodes) :
    ∃ lists, List.Forall₂ (OffsetChain header) offsets lists := by
  induction offsets with
  | nil => exact ⟨[], .nil⟩
  | cons offset offsets ih =>
      obtain ⟨⟨nodes, chain⟩, rest⟩ := List.forall_mem_cons.1 chains
      obtain ⟨lists, others⟩ := ih rest
      exact ⟨nodes :: lists, .cons chain others⟩

/-- The bucket of a list, and the list of a bucket. -/
theorem exists_of_forall₂_mem {offsets : List UInt32} {lists : List (List OffsetList)}
    (chains : List.Forall₂ (OffsetChain header) offsets lists) :
    (∀ offset ∈ offsets, ∃ nodes ∈ lists, OffsetChain header offset nodes) ∧
      ∀ nodes ∈ lists, ∃ offset ∈ offsets, OffsetChain header offset nodes := by
  induction chains with
  | nil =>
      exact ⟨fun _ member => absurd member List.not_mem_nil,
        fun _ member => absurd member List.not_mem_nil⟩
  | cons chain chains ih =>
      constructor
      · intro offset member
        rcases List.mem_cons.1 member with rfl | later
        · exact ⟨_, List.mem_cons_self, chain⟩
        · obtain ⟨nodes, there, other⟩ := ih.1 offset later
          exact ⟨nodes, List.mem_cons_of_mem _ there, other⟩
      · intro nodes member
        rcases List.mem_cons.1 member with rfl | later
        · exact ⟨_, List.mem_cons_self, chain⟩
        · obtain ⟨offset, there, other⟩ := ih.2 nodes later
          exact ⟨offset, List.mem_cons_of_mem _ there, other⟩

theorem exists_entry_of_mem {lists : List (List OffsetList)} {made : List (List Entry)}
    (decoded : List.Forall₂ (List.Forall₂ (EntryOf newEntry)) lists made) :
    ∀ nodes ∈ lists, ∀ list ∈ nodes, ∃ entry, EntryOf newEntry list entry := by
  induction decoded with
  | nil => exact fun _ member => absurd member List.not_mem_nil
  | cons first rest ih =>
      intro nodes member
      rcases List.mem_cons.1 member with rfl | later
      · intro list there
        obtain ⟨i, within, rfl⟩ := List.getElem_of_mem there
        exact ⟨_, first.get within (first.length_eq ▸ within)⟩
      · exact ih nodes later

/-- Reading the lists of a table returns exactly if they can all be followed to their ends. -/
theorem followBuckets_returns_iff (offsets : List UInt32) :
    (∃ fuel array, followBuckets header newEntry fuel offsets (.allocate initialAvailable) = .ret array) ↔
      Followable header newEntry offsets := by
  constructor
  · rintro ⟨fuel, filled, run⟩
    obtain ⟨lists, made, chains, decoded, holds⟩ := chains_of_followBuckets holds_initial run
    refine ⟨?_, ?_, ?_⟩
    · intro offset member
      obtain ⟨nodes, _, chain⟩ := (exists_of_forall₂_mem chains).1 offset member
      exact ((exists_chain_iff offset).1 ⟨nodes, chain⟩).1
    · intro offset member node onList
      obtain ⟨nodes, there, chain⟩ := (exists_of_forall₂_mem chains).1 offset member
      obtain ⟨list, read⟩ := ((exists_chain_iff offset).1 ⟨nodes, chain⟩).2 node onList
      obtain ⟨entry, entryOf⟩ := exists_entry_of_mem decoded nodes there list
        ((chain.mem_iff list).2 ⟨node, onList, read⟩)
      exact ⟨list, entry, read, entryOf⟩
    · intro others other
      obtain rfl := chains_unique chains other
      have sizes : (others.map List.length).sum = made.flatten.length := by
        rw [List.length_flatten]
        clear chains other holds
        induction decoded with
        | nil => rfl
        | cons first _ ih =>
            rw [List.map_cons, List.map_cons, List.sum_cons, List.sum_cons, ih, first.length_eq]
      rw [intMax_eq] at holds
      have count := holds.count
      rw [List.nil_append] at count
      rw [sizes, ← count]
      exact holds.within.trans holds.available_le
  · intro followable
    obtain ⟨lists, chains⟩ := exists_chains fun offset member =>
      (exists_chain_iff offset).2 ⟨followable.straight offset member, fun node onList => by
        obtain ⟨list, _, read, _⟩ := followable.decodes offset member node onList
        exact ⟨list, read⟩⟩
    obtain ⟨made, decoded, _⟩ := @exists_entryLists _ newEntry lists (by
      intro list member
      obtain ⟨nodes, there, inside⟩ := List.mem_flatten.1 member
      obtain ⟨offset, bucket, chain⟩ := (exists_of_forall₂_mem chains).2 nodes there
      obtain ⟨node, onList, read⟩ := (chain.mem_iff list).1 inside
      obtain ⟨list', entry, read', entryOf⟩ := followable.decodes offset bucket node onList
      obtain rfl := Exit.ret.inj (read'.symm.trans read)
      exact ⟨entry, entryOf⟩)
    have enough : ∀ nodes ∈ lists, nodes.length < lists.flatten.length + 1 := fun nodes member =>
      Nat.lt_succ_of_le (List.sublist_flatten_of_mem member).length_le
    obtain ⟨filled, run, _⟩ := followBuckets_of_chains chains decoded enough holds_initial (by
      rw [List.length_nil, Nat.zero_add]
      exact followable.few lists chains)
    exact ⟨_, filled, run⟩

end

/-- The component table and the file group table are read to their ends exactly if no list comes back to a
node, every node that a list gets to is in the header's data and gives an entry, and neither table has
more entries than the array can grow to. -/
theorem offsetLists_return_iff (bigEndian : Bool) (header : Header) (offsets : List UInt32) :
    ((∃ fuel array, getComponents bigEndian header fuel offsets = .ret array) ↔
      Followable header (componentNew bigEndian header) offsets) ∧
    ((∃ fuel array, getFileGroups bigEndian header fuel offsets = .ret array) ↔
      Followable header (fileGroupNew bigEndian header) offsets) :=
  ⟨followBuckets_returns_iff offsets, followBuckets_returns_iff offsets⟩

/-! ### A list that comes back -/

/-- Two nodes, each with the other one behind it, of an entry that is nothing but zeros. -/
def cyclicNodes : Bytes := words [0, 634, 766] ++ words [0, 634, 754]

/-- The bytes of a header with the two nodes as the first component list and the first file group list. -/
def cyclicBytes : Bytes :=
  words [cabSignature, 0x01005000, 0, 20, 1] ++ List.replicate 40 0 ++ words [1] ++ List.replicate 18 0 ++
    words [754] ++ List.replicate 280 0 ++ words [754] ++ List.replicate 404 0 ++ cyclicNodes

def cyclicHeader : Header where
  index := 1
  data := cyclicBytes
  majorVersion := 5
  common :=
    { signature := cabSignature
      version := 0x01005000
      volumeInfo := 0
      cabDescriptorOffset := 20
      cabDescriptorSize := 1 }
  cab := { fileTableOffset := 0, directoryCount := 0, fileCount := 1, fileTableOffset2 := 0 }
  fileTable := [0]

/-- The buckets of either table. -/
def cyclicOffsets : List UInt32 := 754 :: List.replicate 70 0

theorem readTables_loop :
    readTables cyclicBytes = .ret (cyclicHeader.common,
      (cyclicHeader.cab, { fileGroupOffsets := cyclicOffsets, componentOffsets := cyclicOffsets }), [0]) := by
  decide +kernel

theorem nextNode_loop :
    nextNode cyclicHeader 754 = some 766 ∧ nextNode cyclicHeader 766 = some 754 := by
  constructor <;> decide +kernel

/-- The lists get to the two nodes and to no other. -/
theorem onList_loop {offset node : UInt32} (member : offset ∈ cyclicOffsets)
    (onList : OnList cyclicHeader offset node) : node = 754 ∨ node = 766 := by
  have reached : ∀ {node : UInt32}, Reaches (nextNode cyclicHeader) 754 node → node = 754 ∨ node = 766 := by
    intro node reaches
    induction reaches with
    | refl => exact Or.inl rfl
    | tail _ step ih =>
        rcases ih with rfl | rfl
        · exact Or.inr (Option.some.inj (step.symm.trans nextNode_loop.1))
        · exact Or.inl (Option.some.inj (step.symm.trans nextNode_loop.2))
  rcases List.mem_cons.1 member with rfl | other
  · exact reached onList.2
  · obtain rfl := List.eq_of_mem_replicate other
    exact absurd onList not_onList_zero

theorem comesBack_loop : ComesBack (nextNode cyclicHeader) 754 :=
  ⟨754, .refl, .tail (.single nextNode_loop.1) nextNode_loop.2⟩

/-- A header that opening takes, with all nodes of its lists in its data and with entries that decode: as its
first list comes back, neither table is ever read to its end, and the header is never opened. -/
theorem offsetLists_loop :
    readTables cyclicBytes = .ret (cyclicHeader.common,
      (cyclicHeader.cab, { fileGroupOffsets := cyclicOffsets, componentOffsets := cyclicOffsets }), [0]) ∧
    (∀ offset ∈ cyclicOffsets, ∀ node, OnList cyclicHeader offset node →
      ∃ list component fileGroup, readOffsetList cyclicHeader node = .ret list ∧
        EntryOf (componentNew false cyclicHeader) list component ∧
        EntryOf (fileGroupNew false cyclicHeader) list fileGroup) ∧
    (¬ ∃ fuel array, getComponents false cyclicHeader fuel cyclicOffsets = .ret array) ∧
    (¬ ∃ fuel array, getFileGroups false cyclicHeader fuel cyclicOffsets = .ret array) ∧
    ∀ fuel opened, parseHeader false fuel (-1) 1 cyclicBytes ≠ .ret opened := by
  have component : componentNew false cyclicHeader 634 = .ret ⟨.null, []⟩ := by decide +kernel
  have fileGroup : fileGroupNew false cyclicHeader 634 = .ret ⟨.null, 0, 0⟩ := by decide +kernel
  have components : ¬ ∃ fuel array, getComponents false cyclicHeader fuel cyclicOffsets = .ret array :=
    mt (followBuckets_returns_iff cyclicOffsets).1 fun followable =>
      followable.straight 754 List.mem_cons_self comesBack_loop
  have fileGroups : ¬ ∃ fuel array, getFileGroups false cyclicHeader fuel cyclicOffsets = .ret array :=
    mt (followBuckets_returns_iff cyclicOffsets).1 fun followable =>
      followable.straight 754 List.mem_cons_self comesBack_loop
  refine ⟨readTables_loop, ?_, components, fileGroups, ?_⟩
  · intro offset member node onList
    rcases onList_loop member onList with rfl | rfl
    · exact ⟨⟨0, 634, 766⟩, _, _, by decide +kernel, component, fileGroup⟩
    · exact ⟨⟨0, 634, 754⟩, _, _, by decide +kernel, component, fileGroup⟩
  · intro fuel opened parsed
    rw [parseHeader_eq, readTables_loop, Exit.bind_ret] at parsed
    obtain ⟨array, read, _⟩ := Exit.bind_eq_ret_iff.1 parsed
    exact components ⟨fuel, array, read⟩

end Unshield
