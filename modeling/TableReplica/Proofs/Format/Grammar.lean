import TableReplica.Apply.Chunks
import TableReplica.Proofs.Format.Numerals
import TableReplica.Wire.Changeset

/-!
# The grammar of changesets

A stream that is a changeset falls into a header, chunks and a required revision, and a chunk into
fields. The structures here are the pieces of a stream, with the bounds that they keep; `bytes` puts
them together again. Integers may have any spelling. A stream falls into pieces in one way only:
`Stream.unambiguous`.
-/

namespace TableReplica.Format

open Apply Files Wire

/-- The name of a table. -/
structure TableName where
  letters : Bytes
  named : letters ≠ []
  lower : letters.all isLowerLetter = true
  short : letters.length ≤ maxTableNameSize
  deriving DecidableEq

/-- The name of a table as it stands in a stream: its length and as many letters. -/
structure TableField where
  length : Numeral
  name : TableName
  counts : length.value = name.letters.length
  deriving DecidableEq

/-- The new content of a base file: its size and as many bytes. -/
structure Payload where
  size : Numeral
  content : Bytes
  counts : size.value = content.length
  small : size.value ≤ maxPayloadSize
  deriving DecidableEq

/-- A block with its number, which is one more than its index. -/
structure Block where
  number : Numeral
  content : Bytes
  deriving DecidableEq

/-- Where a block goes in a file of blocks of this size. -/
def Block.offset (block : Block) (size : Nat) : Nat :=
  (block.number.value - 1) * size

/-- A block has the size of its chunk, and goes where a file can be written. -/
structure Block.Fits (block : Block) (size : Nat) : Prop where
  numbered : block.number.value ≠ 0
  whole : block.content.length = size
  within : block.offset size < offsetBound

/-- The blocks of a chunk: their size, the blocks, and a number that is zero. -/
structure BlockRun where
  size : Numeral
  blocks : List Block
  last : Numeral
  small : size.value ≤ maxPayloadSize
  fit : ∀ block ∈ blocks, block.Fits size.value
  ends : last.value = 0

/-- A chunk, but for the tag that it starts with. -/
inductive Chunk where
  | baseFile (table : TableField) (letter : BaseLetter) (payload : Payload)
  | blocks (table : TableField) (run : BlockRun)

/-- A stream that is a changeset. -/
structure Stream where
  version : Numeral
  startRevision : Numeral
  endRevision : Numeral
  chunks : List Chunk
  required : Numeral
  supported : version.value = formatVersion
  ordered : startRevision.value < endRevision.value
  later : endRevision.value ≤ required.value

/-- The byte that names a base file. -/
def letterByte : BaseLetter → UInt8
  | .a => 0x41
  | .b => 0x42

/-- The byte of a base file names it. -/
theorem ofByte_letterByte (letter : BaseLetter) :
    BaseLetter.ofByte (letterByte letter) = .ok letter := by
  cases letter <;> rfl

/-- Only the byte of a base file names it. -/
theorem letterByte_of_ofByte {byte : UInt8} {letter : BaseLetter}
    (h : BaseLetter.ofByte byte = .ok letter) : letterByte letter = byte := by
  unfold BaseLetter.ofByte at h
  split at h
  · next heq =>
      cases h
      exact heq.symm
  · split at h
    · next heq =>
        cases h
        exact heq.symm
    · cases h

/-- The byte that announces a kind of chunk. -/
def tagByte : ChunkKind → UInt8
  | .finish => 0
  | .baseFile => 1
  | .blocks => 2

/-- Only its tag announces a kind of chunk. -/
theorem tagByte_of_ofByte? {tag : UInt8} {kind : ChunkKind}
    (h : ChunkKind.ofByte? tag = some kind) : tag = tagByte kind := by
  unfold ChunkKind.ofByte? at h
  split at h
  all_goals
    cases h
    try rfl

namespace TableName

/-- The name as a text. -/
def text (name : TableName) : String :=
  String.ofList (name.letters.map fun byte => Char.ofNat byte.toNat)

/-- The text of a table name is spelled by its letters. -/
theorem parse_letters (name : TableName) : parseTableName name.letters = .ok name.text := by
  rw [parseTableName, if_neg name.named, if_pos name.lower]
  rfl

end TableName

/-- The bytes of a table name. -/
def TableField.bytes (field : TableField) : Bytes :=
  field.length.spelling ++ field.name.letters

/-- The bytes of a payload. -/
def Payload.bytes (payload : Payload) : Bytes :=
  payload.size.spelling ++ payload.content

/-- The bytes of a block. -/
def Block.bytes (block : Block) : Bytes :=
  block.number.spelling ++ block.content

/-- The bytes of blocks up to the number that is zero. -/
def BlockRun.bytes (run : BlockRun) : Bytes :=
  run.size.spelling ++ (run.blocks.flatMap Block.bytes ++ run.last.spelling)

namespace Chunk

/-- The bytes of a chunk, with its tag. -/
def bytes : Chunk → Bytes
  | baseFile table letter payload =>
    tagByte .baseFile :: (table.bytes ++ letterByte letter :: payload.bytes)
  | blocks table run => tagByte .blocks :: (table.bytes ++ run.bytes)

/-- Whether a chunk replaces a base file. -/
def isBaseFile : Chunk → Bool
  | baseFile .. => true
  | blocks .. => false

/-- The number of blocks in a chunk. -/
def blockCount : Chunk → Nat
  | baseFile .. => 0
  | blocks _ run => run.blocks.length

/-- The paths that applying a chunk writes to. -/
def paths (directory : Path) : Chunk → List Path
  | baseFile table letter _ =>
    [tempFilePath directory table.name.text, baseFilePath directory table.name.text letter]
  | blocks table _ => [dataFilePath directory table.name.text]

end Chunk

namespace Stream

/-- The bytes of a changeset. -/
def bytes (stream : Stream) : Bytes :=
  magic ++ (stream.version.spelling ++ (stream.startRevision.spelling ++
    (stream.endRevision.spelling ++ durableKind ::
      (stream.chunks.flatMap Chunk.bytes ++ tagByte .finish :: stream.required.spelling))))

/-- The number of base file chunks. -/
def baseFiles (stream : Stream) : Nat :=
  stream.chunks.countP Chunk.isBaseFile

/-- The number of blocks in all chunks. -/
def blockCount (stream : Stream) : Nat :=
  (stream.chunks.map Chunk.blockCount).sum

/-- The paths that applying a changeset writes to. With a retention count of zero there is no
archive. -/
def paths (directory : Path) (retention : UInt32) (stream : Stream) : List Path :=
  (if retention = 0 then [] else [archivePath directory stream.startRevision.value]) ++
    stream.chunks.flatMap (Chunk.paths directory)

end Stream

section

variable {rest other : Bytes}

/-- A table name is spelled before what follows in one way. -/
theorem TableField.unambiguous {first second : TableField}
    (h : first.bytes ++ rest = second.bytes ++ other) : first = second ∧ rest = other := by
  obtain ⟨hlength, hletters, hrest⟩ := Numeral.counted_unambiguous first.counts second.counts h
  obtain ⟨_, ⟨_, _, _, _⟩, _⟩ := first
  obtain ⟨_, ⟨_, _, _, _⟩, _⟩ := second
  cases hlength
  cases hletters
  exact ⟨rfl, hrest⟩

/-- So is a sized content. -/
theorem Payload.unambiguous {first second : Payload}
    (h : first.bytes ++ rest = second.bytes ++ other) : first = second ∧ rest = other := by
  obtain ⟨hsize, hcontent, hrest⟩ := Numeral.counted_unambiguous first.counts second.counts h
  obtain ⟨_, _⟩ := first
  obtain ⟨_, _⟩ := second
  cases hsize
  cases hcontent
  exact ⟨rfl, hrest⟩

/-- The number zero, which ends a chunk, is no number of a block. -/
theorem blocks_unambiguous {size : Nat} {first second : List Block} {last final : Numeral}
    (hfirst : ∀ block ∈ first, block.Fits size) (hsecond : ∀ block ∈ second, block.Fits size)
    (hlast : last.value = 0) (hfinal : final.value = 0)
    (h : first.flatMap Block.bytes ++ (last.spelling ++ rest) =
      second.flatMap Block.bytes ++ (final.spelling ++ other)) :
    first = second ∧ last = final ∧ rest = other := by
  have hstart (block : Block) (more : List Block) (tail : Bytes) :
      (block :: more).flatMap Block.bytes ++ tail =
        block.number.spelling ++ (block.content ++ (more.flatMap Block.bytes ++ tail)) := by
    simp [Block.bytes]
  induction first generalizing second with
  | nil =>
      cases second with
      | nil => exact ⟨rfl, Numeral.unambiguous h⟩
      | cons block more =>
          rw [hstart] at h
          obtain ⟨rfl, -⟩ := Numeral.unambiguous h
          -- The one list ends with a zero where the other goes on with a number.
          exact absurd hlast (hsecond block List.mem_cons_self).numbered
  | cons block more ih =>
      cases second with
      | nil =>
          rw [hstart] at h
          obtain ⟨rfl, -⟩ := Numeral.unambiguous h
          exact absurd hfinal (hfirst block List.mem_cons_self).numbered
      | cons next others =>
          rw [hstart, hstart] at h
          obtain ⟨hnumber, hcontents⟩ := Numeral.unambiguous h
          have hsize : block.content.length = next.content.length := by
            rw [(hfirst block List.mem_cons_self).whole, (hsecond next List.mem_cons_self).whole]
          obtain ⟨hcontent, hmore⟩ := List.append_inj hcontents hsize
          obtain ⟨rfl, hends⟩ := ih (fun block hmem => hfirst block (List.mem_cons_of_mem _ hmem))
            (fun block hmem => hsecond block (List.mem_cons_of_mem _ hmem)) hmore
          obtain ⟨_, _⟩ := block
          cases hnumber
          cases hcontent
          exact ⟨rfl, hends⟩

/-- So are the blocks of a chunk. -/
theorem BlockRun.unambiguous {first second : BlockRun}
    (h : first.bytes ++ rest = second.bytes ++ other) : first = second ∧ rest = other := by
  unfold bytes at h
  simp only [List.append_assoc] at h
  -- The sizes come first, and only with the same size do the blocks fall apart in the same way.
  obtain ⟨hsize, hmore⟩ := Numeral.unambiguous h
  obtain ⟨hblocks, hlast, hrest⟩ :=
    blocks_unambiguous first.fit (hsize ▸ second.fit) first.ends second.ends hmore
  obtain ⟨_, _, _⟩ := first
  obtain ⟨_, _, _⟩ := second
  cases hsize
  cases hblocks
  cases hlast
  exact ⟨rfl, hrest⟩

/-- So is a chunk. -/
theorem Chunk.unambiguous {first second : Chunk}
    (h : first.bytes ++ rest = second.bytes ++ other) : first = second ∧ rest = other := by
  cases first with
  | baseFile table letter payload =>
      cases second with
      | blocks => exact absurd (List.cons.inj h).1 (by decide)
      | baseFile others next content =>
          simp only [bytes, List.cons_append, List.append_assoc, List.cons.injEq, true_and] at h
          obtain ⟨rfl, hmore⟩ := TableField.unambiguous h
          obtain ⟨hbyte, hpayload⟩ := List.cons.inj hmore
          have hletter : letter = next := by
            have hread := ofByte_letterByte letter
            rw [hbyte, ofByte_letterByte] at hread
            exact (Except.ok.inj hread).symm
          obtain ⟨rfl, hrest⟩ := Payload.unambiguous hpayload
          rw [hletter]
          exact ⟨rfl, hrest⟩
  | blocks table run =>
      cases second with
      | baseFile => exact absurd (List.cons.inj h).1 (by decide)
      | blocks others next =>
          simp only [bytes, List.cons_append, List.append_assoc, List.cons.injEq, true_and] at h
          obtain ⟨rfl, hmore⟩ := TableField.unambiguous h
          obtain ⟨rfl, hrest⟩ := BlockRun.unambiguous hmore
          exact ⟨rfl, hrest⟩

/-- A chunk does not start with the tag that ends the sequence. -/
theorem Chunk.bytes_ne_finish (chunk : Chunk) (tail : Bytes) :
    chunk.bytes ++ tail ≠ tagByte .finish :: other := by
  intro h
  cases chunk <;> exact absurd (List.cons.inj h).1 (by decide)

/-- So are chunks before the end tag. -/
theorem chunks_unambiguous {first second : List Chunk}
    (h : first.flatMap Chunk.bytes ++ tagByte .finish :: rest =
      second.flatMap Chunk.bytes ++ tagByte .finish :: other) :
    first = second ∧ rest = other := by
  induction first generalizing second with
  | nil =>
      cases second with
      | nil => exact ⟨rfl, (List.cons.inj h).2⟩
      | cons chunk more =>
          rw [List.flatMap_cons, List.append_assoc] at h
          exact absurd h.symm (chunk.bytes_ne_finish _)
  | cons chunk more ih =>
      cases second with
      | nil =>
          rw [List.flatMap_cons, List.append_assoc] at h
          exact absurd h (chunk.bytes_ne_finish _)
      | cons next others =>
          simp only [List.flatMap_cons, List.append_assoc] at h
          obtain ⟨rfl, hmore⟩ := Chunk.unambiguous h
          obtain ⟨rfl, hrest⟩ := ih hmore
          exact ⟨rfl, hrest⟩

/-- Bytes are a changeset in one way only. -/
theorem Stream.unambiguous {first second : Stream} (h : first.bytes = second.bytes) :
    first = second := by
  obtain ⟨hversion, hmore⟩ := Numeral.unambiguous (List.append_cancel_left h)
  obtain ⟨hstart, hmore⟩ := Numeral.unambiguous hmore
  obtain ⟨hend, hmore⟩ := Numeral.unambiguous hmore
  obtain ⟨hchunks, hlast⟩ := chunks_unambiguous (List.cons.inj hmore).2
  have hspelling : first.required.spelling ++ [] = second.required.spelling ++ [] := by
    rw [hlast]
  obtain ⟨hrequired, -⟩ := Numeral.unambiguous hspelling
  obtain ⟨_, _, _, _, _⟩ := first
  obtain ⟨_, _, _, _, _⟩ := second
  cases hversion
  cases hstart
  cases hend
  cases hchunks
  cases hrequired
  rfl

end

end TableReplica.Format
