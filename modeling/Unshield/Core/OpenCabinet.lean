/-
Module: Unshield.Core.OpenCabinet
Purpose: Opening a cabinet: the headers of its volumes are read and parsed one after the other, with
  their file tables, components and file groups, and are linked into a list.
Trusted boundary: human-reviewed model of unshield_read_headers and what it calls in
  lib/libunshield.c, lib/helper.c, lib/component.c and lib/file_group.c
Main exports: Opener, Component, FileGroup, OpenedHeader, followOffsets, getComponents, getFileGroups,
  parseHeader, HeaderList, readHeaders
-/
import Unshield.Core.Library
import Unshield.Foundation.GrowingArray
import Unshield.Foundation.LinkedNodes

namespace Unshield

open Procedure

/-- What opening a cabinet calls besides: `unshield_fopen_for_reading` on an `hdr` file. -/
structure Opener (σ H : Type) extends Environment σ H where
  openHeaderForReading : Int → σ → Option H × σ

/-! ### Strings and buffers in a header -/

/-- A `const char*` that points into the header's data, or to a string converted from UTF-16. -/
inductive HeaderString where
  | null
  | inData (p : Nat)
  | converted (text : Bytes)
deriving Repr, DecidableEq

section Parsing

variable (bigEndian : Bool) (header : Header)

/-- `unshield_header_get_buffer`, as an offset into the header's data. -/
def headerGetBuffer (offset : UInt32) : Option Nat :=
  if offset ≠ 0 then some (header.common.cabDescriptorOffset.toNat + offset.toNat) else none

/-- `unshield_header_get_string` -/
def headerGetString (offset : UInt32) : Exit HeaderString :=
  match headerGetBuffer header offset with
  | none => pure .null
  | some p =>
      if header.majorVersion ≥ 17 then do
        let text ← getUtf8String bigEndian header p
        pure (.converted text)
      else pure (.inData p)

/-! ### Components and file groups -/

/-- `UnshieldComponent` -/
structure Component where
  name : HeaderString
  fileGroupNames : List HeaderString
deriving Repr, DecidableEq

/-- `UnshieldFileGroup` -/
structure FileGroup where
  name : HeaderString
  firstFile : Int
  lastFile : Int
deriving Repr, DecidableEq

def maxFileGroupCount : Nat := 71
def maxComponentCount : Nat := 71

/-- The names in the file group table of a component. -/
def readFileGroupNames (p : Nat) : Nat → Exit (List HeaderString)
  | 0 => pure []
  | count + 1 => do
      let names ← readFileGroupNames p count
      let offset ← Exit.ofAccess (readUint32 header.data (p + 4 * count))
      let name ← headerGetString bigEndian header offset
      pure (names ++ [name])

/-- `unshield_component_new` -/
def componentNew (offset : UInt32) : Exit Component := do
  let p ← Exit.ofAccess (headerGetBuffer header offset)
  let nameOffset ← Exit.ofAccess (readUint32 header.data p)
  let name ← headerGetString bigEndian header nameOffset
  let p := p + 4 + (if header.OldLayout then 0x6c else 0x6b)
  let fileGroupCount ← Exit.ofAccess (readUint16 header.data p)
  Exit.assert (fileGroupCount.toNat ≤ maxFileGroupCount)
  let fileGroupTableOffset ← Exit.ofAccess (readUint32 header.data (p + 2))
  if fileGroupCount = 0 then
    pure { name, fileGroupNames := [] }
  else do
    let p ← Exit.ofAccess (headerGetBuffer header fileGroupTableOffset)
    let fileGroupNames ← readFileGroupNames bigEndian header p fileGroupCount.toNat
    pure { name, fileGroupNames }

/-- `unshield_file_group_new` -/
def fileGroupNew (offset : UInt32) : Exit FileGroup := do
  let p ← Exit.ofAccess (headerGetBuffer header offset)
  let nameOffset ← Exit.ofAccess (readUint32 header.data p)
  let name ← headerGetString bigEndian header nameOffset
  let p := p + 4 + (if header.majorVersion ≤ 5 then 0x48 else 0x12)
  let firstFile ← Exit.ofAccess (readUint32 header.data p)
  let lastFile ← Exit.ofAccess (readUint32 header.data (p + 4))
  pure { name, firstFile := firstFile.toInt32.toInt, lastFile := lastFile.toInt32.toInt }

/-- `OffsetList` -/
structure OffsetList where
  nameOffset : UInt32
  descriptorOffset : UInt32
  nextOffset : UInt32
deriving Repr, DecidableEq

/-- The node of an offset list at an offset. -/
def readOffsetList (offset : UInt32) : Exit OffsetList := do
  let p ← Exit.ofAccess (headerGetBuffer header offset)
  let nameOffset ← Exit.ofAccess (readUint32 header.data p)
  let descriptorOffset ← Exit.ofAccess (readUint32 header.data (p + 4))
  let nextOffset ← Exit.ofAccess (readUint32 header.data (p + 8))
  pure { nameOffset, descriptorOffset, nextOffset }

/-- `int available = 16` -/
def initialAvailable : Nat := 16

section

variable {Entry : Type} (newEntry : UInt32 → Exit Entry)

/-- `while (list.next_offset)`: every node of a list gives an entry of the array, which grows when it is
full.  Doubling `available` beyond the range of an `int` is undefined, and so is a store behind the
block. -/
def followOffsets : Nat → UInt32 → GrowingArray Entry → Exit (GrowingArray Entry)
  | 0, _, _ => .timeout
  | fuel + 1, nextOffset, array =>
      if nextOffset = 0 then
        pure array
      else do
        let list ← readOffsetList header nextOffset
        let array ← Exit.ofAccess (array.makeRoom intMax.toNat)
        let entry ← newEntry list.descriptorOffset
        let array ← Exit.ofAccess (array.store entry)
        followOffsets fuel list.nextOffset array

/-- The lists of all buckets. -/
def followBuckets (fuel : Nat) : List UInt32 → GrowingArray Entry → Exit (GrowingArray Entry)
  | [], array => pure array
  | offset :: offsets, array => do
      let array ← followOffsets header newEntry fuel offset array
      followBuckets fuel offsets array

end

/-- `unshield_header_get_components`, with `components` and `component_count` as they are left. -/
def getComponents (fuel : Nat) (componentOffsets : List UInt32) : Exit (GrowingArray Component) :=
  followBuckets header (componentNew bigEndian header) fuel componentOffsets (.allocate initialAvailable)

/-- `unshield_header_get_file_groups`, with `file_groups` and `file_group_count` as they are left. -/
def getFileGroups (fuel : Nat) (fileGroupOffsets : List UInt32) : Exit (GrowingArray FileGroup) :=
  followBuckets header (fileGroupNew bigEndian header) fuel fileGroupOffsets (.allocate initialAvailable)

end Parsing

/-! ### Parsing a header -/

/-- `header->major_version`: the version that was asked for, or the one in the header; a header whose
version is of no known form counts as version 0. -/
def majorVersionOf (version : Int) (common : CommonHeader) : Int :=
  if version ≠ -1 then version
  else if common.version >>> 24 = 1 then (common.version >>> 12 &&& 0xf).toNat
  else if common.version >>> 24 = 2 ∨ common.version >>> 24 = 4 then
    ((common.version &&& 0xffff).toNat / 100 : Nat)
  else 0

/-- `count` words, one after the other. -/
def readWords (data : Bytes) (p : Nat) : Nat → Option (List UInt32)
  | 0 => some []
  | count + 1 => do
      let words ← readWords data p count
      let word ← readUint32 data (p + 4 * count)
      some (words ++ [word])

/-- The offset lists of the cabinet descriptor, one for each bucket. -/
structure CabOffsets where
  fileGroupOffsets : List UInt32
  componentOffsets : List UInt32
deriving Repr, DecidableEq

/-- `unshield_get_cab_descriptor`; the two table sizes, which have to agree or else there is a warning,
are left out. -/
def getCabDescriptor (data : Bytes) (common : CommonHeader) : Exit (CabDescriptor × CabOffsets) :=
  if common.cabDescriptorSize ≠ 0 then do
    let p := common.cabDescriptorOffset.toNat
    let fileTableOffset ← Exit.ofAccess (readUint32 data (p + 0x0c))
    let directoryCount ← Exit.ofAccess (readUint32 data (p + 0x1c))
    let fileCount ← Exit.ofAccess (readUint32 data (p + 0x28))
    let fileTableOffset2 ← Exit.ofAccess (readUint32 data (p + 0x2c))
    let fileGroupOffsets ← Exit.ofAccess (readWords data (p + 0x3e) maxFileGroupCount)
    let componentOffsets ← Exit.ofAccess (readWords data (p + 0x15a) maxComponentCount)
    pure ({ fileTableOffset, directoryCount, fileCount, fileTableOffset2 },
      { fileGroupOffsets, componentOffsets })
  else Exit.fail

/-- `unshield_get_file_table`: fails on an empty table, and on one that is not within the header. -/
def getFileTable (data : Bytes) (common : CommonHeader) (cab : CabDescriptor) :
    Exit (List UInt32) :=
  let start := common.cabDescriptorOffset.toNat + cab.fileTableOffset.toNat
  let count := cab.directoryCount.toNat + cab.fileCount.toNat
  if count = 0 then Exit.fail
  else if start > data.length ∨ count * 4 > data.length - start then Exit.fail
  else Exit.ofAccess (readWords data start count)

/-- A header with everything in it; of the two arrays the slots that are in use. -/
structure OpenedHeader where
  header : Header
  components : List Component
  fileGroups : List FileGroup
deriving Repr, DecidableEq

/-- The parsing of a header's data. -/
def parseHeader (bigEndian : Bool) (fuel : Nat) (version index : Int) (data : Bytes) :
    Exit OpenedHeader := do
  let common ← readCommonHeader data
  let (cab, offsets) ← getCabDescriptor data common
  let fileTable ← getFileTable data common cab
  let header : Header :=
    { index, data, majorVersion := majorVersionOf version common, common, cab, fileTable }
  let components ← getComponents bigEndian header fuel offsets.componentOffsets
  let fileGroups ← getFileGroups bigEndian header fuel offsets.fileGroupOffsets
  pure { header, components := components.entries, fileGroups := fileGroups.entries }

/-! ### The list of headers -/

/-- The headers by their addresses, `unshield->header_list`, and the local variable `previous`. -/
structure HeaderList where
  nodes : Nat → Option (LinkedNodes.Node OpenedHeader) := fun _ => none
  allocated : Nat := 0
  headerList : Option Nat := none
  previous : Option Nat := none

/-- A new header is linked behind `previous`.  If there is none, it is the list, and `previous` is the
new header. -/
def HeaderList.append (list : HeaderList) (header : OpenedHeader) : HeaderList :=
  let address := list.allocated
  let nodes := Function.update list.nodes address (some { value := header })
  match list.previous with
  | some previous =>
      { list with
        nodes := LinkedNodes.setNext nodes previous (some address)
        allocated := address + 1 }
  | none =>
      { nodes, allocated := address + 1, headerList := some address, previous := some address }

/-! ### Reading the headers -/

/-- What `unshield_read_headers` works on. -/
structure Opening (σ : Type) where
  list : HeaderList := {}
  io : σ

section Reading

variable {σ H : Type} (opener : Opener σ H)

/-- The body of the loop of `unshield_read_headers` for a file that was opened, up to the linking.  An
allocation of more than `PTRDIFF_MAX` bytes fails. -/
def readHeader (fuel : Nat) (version index : Int) (file : H) : Proc σ OpenedHeader := fun io =>
  let (size, file, io) := fsize opener.toEnvironment file io
  let size := (UInt64.ofInt size).toNat
  if size < 4 ∨ 2 ^ 63 ≤ size then
    (.fail, opener.callbacks.fclose file io)
  else
    let (data, file, io) := opener.callbacks.fread file size io
    let io := opener.callbacks.fclose file io
    if data.length ≠ size then (.fail, io)
    else (parseHeader opener.bigEndian fuel version index data, io)

/-- The `hdr` file of a number or else the `cab` file, and whether it was the first. -/
def openHeaderFile (i : Int) (io : σ) : Option H × Bool × σ :=
  match opener.openHeaderForReading i io with
  | (some file, io) => (some file, true, io)
  | (none, io) =>
      let opened := opener.openForReading i io
      (opened.1, false, opened.2)

/-- A header that was parsed is linked; an `hdr` file is the last one to be read. -/
def linkHeader (fuel : Nat) (version i : Int) (file : H) (fromHdr : Bool) :
    Proc (Opening σ) (Proc.Turn Int Unit) := fun s =>
  match readHeader opener fuel version i file s.io with
  | (.ret header, io) =>
      (.ret (if fromHdr then .done () else .again (i + 1)), { list := s.list.append header, io })
  | (.fail, io) => (.ret (.done ()), { s with io })
  | (.abort, io) => (.abort, { s with io })
  | (.fault, io) => (.fault, { s with io })
  | (.timeout, io) => (.timeout, { s with io })

/-- One turn of the loop of `unshield_read_headers`; the loop variable is `i`. -/
def readHeadersTurn (fuel : Nat) (version i : Int) : Proc (Opening σ) (Proc.Turn Int Unit) := fun s =>
  match openHeaderFile opener i s.io with
  | (some file, fromHdr, io) => linkHeader opener fuel version i file fromHdr { s with io }
  | (none, _, io) => (.ret (.done ()), { s with io })

/-- `unshield_read_headers`, for an `Unshield` that has no headers yet. -/
def readHeaders (fuel : Nat) (version : Int) : Proc (Opening σ) Unit :=
  Proc.iterate (readHeadersTurn opener fuel version) fuel 1

end Reading

end Unshield
