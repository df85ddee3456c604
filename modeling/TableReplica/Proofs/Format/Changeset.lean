import TableReplica.Proofs.Files.Patching
import TableReplica.Proofs.Format.Grammar

/-!
# Changesets and their encoding

A `Changeset` is what a changeset says, apart from how it is spelled: its revisions and its updates
in order. An update replaces a base file or overwrites blocks. `Changeset.encode` writes it as the
wire format says, and the result is a stream of the grammar (`bytes_stream`). What a changeset makes
of files is told by `content?`, the last content for a base file, and `patches`, the blocks for a
data file in order.
-/

namespace TableReplica.Format

open Apply Files Wire

/-- A block of a file with blocks of this size: its index and its bytes. It starts where a file can
be written, and its number can be spelled. -/
structure IndexedBlock (size : Nat) where
  index : Nat
  data : Bytes
  whole : data.length = size
  within : index * size < offsetBound
  spelled : index + 1 < wordBound

/-- What overwriting a file with a block writes. -/
def IndexedBlock.patch {size : Nat} (block : IndexedBlock size) : Patch where
  offset := block.index * size
  data := block.data

/-- What a chunk says. -/
inductive Update where
  | base (table : TableName) (letter : BaseLetter) (content : Bytes)
      (small : content.length ≤ maxPayloadSize)
  | blocks (table : TableName) (size : Nat) (items : List (IndexedBlock size))
      (small : size ≤ maxPayloadSize)

/-- What a changeset says. -/
structure Changeset where
  startRevision : Nat
  endRevision : Nat
  requiredRevision : Nat
  updates : List Update
  ordered : startRevision < endRevision
  later : endRevision ≤ requiredRevision
  bounded : requiredRevision < wordBound

namespace Update

/-- Write an update as a chunk. -/
def encode : Update → Bytes
  | base table letter content _ =>
    [tagByte .baseFile] ++ packString table.letters ++ [letterByte letter] ++
      packUint content.length ++ content
  | blocks table size items _ =>
    [tagByte .blocks] ++ packString table.letters ++ packUint size ++
      items.flatMap (fun block => packUint (block.index + 1) ++ block.data) ++ packUint 0

/-- The new content that an update gives a base file, if it gives it any. -/
def content? (table : String) (letter : BaseLetter) : Update → Option Bytes
  | base name which content _ => if name.text = table ∧ which = letter then some content else none
  | blocks .. => none

/-- Whether an update is about blocks of a table. -/
def isBlocksOf (table : String) : Update → Bool
  | base .. => false
  | blocks name .. => name.text = table

/-- What an update writes to the data file of a table. -/
def patches (table : String) : Update → List Patch
  | base .. => []
  | blocks name _ items _ => if name.text = table then items.map IndexedBlock.patch else []

/-- Where the blocks of an update end in the data file of a table. -/
def ends (table : String) : Update → List Nat
  | base .. => []
  | blocks name size items _ =>
    if name.text = table then items.map fun block => (block.index + 1) * size else []

/-- Whether an update replaces a base file. -/
def isBase : Update → Bool
  | base .. => true
  | blocks .. => false

/-- The number of blocks in an update. -/
def blockCount : Update → Nat
  | base .. => 0
  | blocks _ _ items _ => items.length

/-- The paths that an update writes to. -/
def paths (directory : Path) : Update → List Path
  | base name letter _ _ =>
    [tempFilePath directory name.text, baseFilePath directory name.text letter]
  | blocks name .. => [dataFilePath directory name.text]

end Update

namespace Changeset

/-- Write a changeset. -/
def encode (changeset : Changeset) : Bytes :=
  Header.encode
      { startRevision := changeset.startRevision, endRevision := changeset.endRevision } ++
    changeset.updates.flatMap Update.encode ++ [tagByte .finish] ++
    packUint changeset.requiredRevision

/-- The last content that a changeset gives a base file. -/
def content? (changeset : Changeset) (table : String) (letter : BaseLetter) : Option Bytes :=
  (changeset.updates.filterMap (Update.content? table letter)).getLast?

/-- What a changeset writes to the data file of a table, in order. -/
def patches (changeset : Changeset) (table : String) : List Patch :=
  changeset.updates.flatMap (Update.patches table)

/-- Where the last of the blocks in the data file of a table ends. -/
def dataEnd (changeset : Changeset) (table : String) : Nat :=
  (changeset.updates.flatMap (Update.ends table)).foldr max 0

/-- The paths that applying a changeset writes to. With a retention count of zero there is no
archive. -/
def paths (directory : Path) (retention : UInt32) (changeset : Changeset) : List Path :=
  (if retention = 0 then [] else [archivePath directory changeset.startRevision]) ++
    changeset.updates.flatMap (Update.paths directory)

end Changeset

/-- A block reaches to its end. -/
theorem IndexedBlock.reach_patch {size : Nat} (block : IndexedBlock size) :
    block.patch.reach = (block.index + 1) * size := by
  rw [Patch.reach, patch, Nat.succ_mul]
  split
  · next hempty =>
      have hdata : block.data = [] := hempty
      have hsize : size = 0 := by rw [← block.whole, hdata, List.length_nil]
      simp [hsize]
  · rw [block.whole]

/-- The writes to a data file reach to the end of the last block. -/
theorem Changeset.span_patches (changeset : Changeset) (table : String) :
    Patch.span (changeset.patches table) = changeset.dataEnd table := by
  have hone (update : Update) :
      (update.patches table).map Patch.reach = update.ends table := by
    cases update with
    | base => rfl
    | blocks name size items small =>
        by_cases hname : name.text = table
        · simp [Update.patches, Update.ends, hname, IndexedBlock.reach_patch]
        · simp [Update.patches, Update.ends, hname]
  rw [Patch.span_eq, patches, dataEnd, List.map_flatMap]
  exact congrArg (fun ends => (changeset.updates.flatMap ends).foldr max 0) (funext hone)

/-- A base file with new content belongs to a table, and is written by way of its temporary file. -/
theorem Changeset.paths_of_content? {changeset : Changeset} {table : String} {letter : BaseLetter}
    {content : Bytes} (h : changeset.content? table letter = some content) (directory : Path)
    (retention : UInt32) :
    (∃ name : TableName, name.text = table) ∧
      tempFilePath directory table ∈ changeset.paths directory retention ∧
      baseFilePath directory table letter ∈ changeset.paths directory retention := by
  obtain ⟨update, hmem, hcontent⟩ := List.mem_filterMap.mp (List.mem_of_getLast? h)
  have hpath {path : Path} (hpath : path ∈ update.paths directory) :
      path ∈ changeset.paths directory retention :=
    List.mem_append_right _ (List.mem_flatMap.mpr ⟨update, hmem, hpath⟩)
  cases update with
  | base name which bytes small =>
      simp only [Update.content?] at hcontent
      split at hcontent
      · next hsame =>
          obtain ⟨rfl, rfl⟩ := hsame
          exact ⟨⟨name, rfl⟩, hpath (by simp [Update.paths]), hpath (by simp [Update.paths])⟩
      · cases hcontent
  | blocks => cases hcontent

/-- Blocks go to the data file of a table. -/
theorem Changeset.paths_of_isBlocksOf {changeset : Changeset} {table : String}
    (h : ∃ update ∈ changeset.updates, update.isBlocksOf table) (directory : Path)
    (retention : UInt32) :
    (∃ name : TableName, name.text = table) ∧
      dataFilePath directory table ∈ changeset.paths directory retention := by
  obtain ⟨update, hmem, hblocks⟩ := h
  cases update with
  | base => cases hblocks
  | blocks name size items small =>
      have hname : name.text = table := of_decide_eq_true hblocks
      subst hname
      exact ⟨⟨name, rfl⟩, List.mem_append_right _
        (List.mem_flatMap.mpr ⟨_, hmem, List.mem_singleton.mpr rfl⟩)⟩

/-- Everything that is counted on the wire fits in a word. -/
theorem lt_wordBound_of_small {size : Nat} (h : size ≤ maxPayloadSize) : size < wordBound :=
  Nat.lt_of_le_of_lt h (by decide)

/-- The field of a table name. -/
def TableName.field (name : TableName) : TableField where
  length := .written name.letters.length (Nat.lt_of_le_of_lt name.short (by decide))
  name
  counts := rfl

/-- The block with its number. -/
def IndexedBlock.numbered {size : Nat} (block : IndexedBlock size) : Block where
  number := .written (block.index + 1) block.spelled
  content := block.data

/-- A block of a changeset fits the chunk it is written in. -/
theorem IndexedBlock.fits_numbered {size : Nat} (block : IndexedBlock size) :
    block.numbered.Fits size where
  numbered := Nat.succ_ne_zero _
  whole := block.whole
  within := block.within

/-- The chunk that an update is written as. -/
def Update.chunk : Update → Chunk
  | base table letter content small =>
    .baseFile table.field letter
      { size := .written content.length (lt_wordBound_of_small small)
        content
        counts := rfl
        small }
  | blocks table size items small =>
    .blocks table.field
      { size := .written size (lt_wordBound_of_small small)
        blocks := items.map IndexedBlock.numbered
        last := .written 0 (by decide)
        small
        fit := by
          intro block hmem
          obtain ⟨item, -, rfl⟩ := List.mem_map.mp hmem
          exact item.fits_numbered
        ends := rfl }

/-- The stream that a changeset is written as. -/
def Changeset.stream (changeset : Changeset) : Stream where
  version := .written formatVersion (by decide)
  startRevision := .written changeset.startRevision (by
    have hlater := changeset.later
    have hordered := changeset.ordered
    have hbounded := changeset.bounded
    omega)
  endRevision := .written changeset.endRevision
    (Nat.lt_of_le_of_lt changeset.later changeset.bounded)
  chunks := changeset.updates.map Update.chunk
  required := .written changeset.requiredRevision changeset.bounded
  supported := rfl
  ordered := changeset.ordered
  later := changeset.later

/-- The chunk of an update is spelled as the update is encoded. -/
theorem Update.bytes_chunk (update : Update) : update.chunk.bytes = update.encode := by
  cases update with
  | base table letter content small =>
      simp [chunk, Chunk.bytes, encode, packString, TableField.bytes, TableName.field,
        Payload.bytes, Numeral.written]
  | blocks table size items small =>
      have hitems : (items.map IndexedBlock.numbered).flatMap Block.bytes =
          items.flatMap fun block => packUint (block.index + 1) ++ block.data := by
        rw [List.flatMap_map]
        rfl
      simp [chunk, Chunk.bytes, encode, packString, TableField.bytes, TableName.field,
        BlockRun.bytes, Numeral.written, hitems]

/-- The stream of a changeset is its encoding. -/
theorem Changeset.bytes_stream (changeset : Changeset) :
    changeset.stream.bytes = changeset.encode := by
  have hchunks : (changeset.updates.map Update.chunk).flatMap Chunk.bytes =
      changeset.updates.flatMap Update.encode := by
    rw [List.flatMap_map]
    exact congrArg (changeset.updates.flatMap ·) (funext Update.bytes_chunk)
  simp [stream, Stream.bytes, encode, Header.encode, Numeral.written, hchunks]

/-- It writes to the paths of the changeset. -/
theorem Changeset.paths_stream (changeset : Changeset) (directory : Path) (retention : UInt32) :
    changeset.stream.paths directory retention = changeset.paths directory retention := by
  have hchunk (update : Update) : update.chunk.paths directory = update.paths directory := by
    cases update <;> rfl
  unfold Stream.paths paths
  simp only [stream, List.flatMap_map, hchunk]
  rfl

/-- It has a base file chunk for each update of a base file. -/
theorem Changeset.baseFiles_stream (changeset : Changeset) :
    changeset.stream.baseFiles = changeset.updates.countP Update.isBase := by
  have hchunk (update : Update) : update.chunk.isBaseFile = update.isBase := by
    cases update <;> rfl
  unfold Stream.baseFiles
  simp only [stream, List.countP_map]
  exact congrArg (changeset.updates.countP ·) (funext hchunk)

/-- It has the blocks of the updates. -/
theorem Changeset.blockCount_stream (changeset : Changeset) :
    changeset.stream.blockCount = (changeset.updates.map Update.blockCount).sum := by
  have hchunk (update : Update) : update.chunk.blockCount = update.blockCount := by
    cases update with
    | base => rfl
    | blocks => exact List.length_map _
  unfold Stream.blockCount
  simp only [stream, List.map_map]
  exact congrArg (fun count => (changeset.updates.map count).sum) (funext hchunk)

end TableReplica.Format
