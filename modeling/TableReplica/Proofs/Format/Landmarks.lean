import TableReplica.Proofs.Format.Reading

/-!
# Landmarks of a stream

Bytes go to the archive together: a header, a table name, a size, a block number, contents. The
places between them are the landmarks of a stream. An apply that does not come to the end of its
changeset has archived the bytes up to a landmark and made the changes that they ask for, and the
landmark is the last that the stream has under the files there are (`Furthest`). What a landmark is,
`Mark` says for a chunk that is not applied to its end, and `Landmark` for a stream.
-/

namespace TableReplica.Format

open Apply Files Wire

/-- The header of a changeset as it is spelled. -/
structure Preamble where
  version : Numeral
  startRevision : Numeral
  endRevision : Numeral
  supported : version.value = formatVersion
  ordered : startRevision.value < endRevision.value

namespace Preamble

/-- The bytes of a header. -/
def bytes (preamble : Preamble) : Bytes :=
  magic ++ (preamble.version.spelling ++ (preamble.startRevision.spelling ++
    (preamble.endRevision.spelling ++ [durableKind])))

theorem unambiguous {first second : Preamble} {rest other : Bytes}
    (h : first.bytes ++ rest = second.bytes ++ other) : first = second ∧ rest = other := by
  unfold bytes at h
  simp only [List.append_assoc] at h
  obtain ⟨hversion, hmore⟩ := Numeral.unambiguous (List.append_cancel_left h)
  obtain ⟨hstart, hmore⟩ := Numeral.unambiguous hmore
  obtain ⟨hend, hmore⟩ := Numeral.unambiguous hmore
  obtain ⟨-, hrest⟩ := List.cons.inj hmore
  obtain ⟨_, _, _⟩ := first
  obtain ⟨_, _, _⟩ := second
  cases hversion
  cases hstart
  cases hend
  exact ⟨rfl, hrest⟩

/-- A stream has one header at most. -/
theorem eq_of_isPrefix {first second : Preamble} {stream : Bytes} (hfirst : first.bytes <+: stream)
    (hsecond : second.bytes <+: stream) : first = second := by
  obtain ⟨rest, hrest⟩ := hfirst
  obtain ⟨other, hother⟩ := hsecond
  exact (unambiguous (hrest.trans hother.symm)).1

/-- The changeset without chunks that a header can start. -/
def bare (preamble : Preamble) : Stream where
  version := preamble.version
  startRevision := preamble.startRevision
  endRevision := preamble.endRevision
  chunks := []
  required := preamble.endRevision
  supported := preamble.supported
  ordered := preamble.ordered
  later := Nat.le_refl _

end Preamble

/-- The header of a changeset. -/
def Stream.preamble (stream : Stream) : Preamble where
  version := stream.version
  startRevision := stream.startRevision
  endRevision := stream.endRevision
  supported := stream.supported
  ordered := stream.ordered

/-- A changeset is its header, its chunks, the tag that ends them and the required revision. -/
theorem Stream.bytes_eq (stream : Stream) :
    stream.bytes = stream.preamble.bytes ++ (stream.chunks.flatMap Chunk.bytes ++
      tagByte .finish :: stream.required.spelling) := by
  simp [bytes, preamble, Preamble.bytes]

theorem Stream.preamble_isPrefix (stream : Stream) : stream.preamble.bytes <+: stream.bytes := by
  rw [bytes_eq]
  exact List.prefix_append _ _

theorem Chunk.bytes_ne_nil (chunk : Chunk) : chunk.bytes ≠ [] := by
  cases chunk <;> simp [bytes]

/-- Nothing is in the way of the files that a chunk changes. -/
def Chunk.Clear (directory : Path) (files : FileSystem) (chunk : Chunk) : Prop :=
  ∀ path ∈ chunk.paths directory, files.Unobstructed path

end TableReplica.Format

namespace TableReplica.Apply

open Files Transport Wire Format

/-- What can be archived of a block chunk after the last block that was written. -/
inductive Overhang (size : Nat) : Bytes → Prop where
  | nothing : Overhang size []
  /-- A block number, when the contents are awaited. -/
  | number (number : Numeral) :
      number.value ≠ 0 → (number.value - 1) * size < wordBound → Overhang size number.spelling
  /-- A block that lies beyond what a file can hold. -/
  | beyond (block : Block) :
      block.number.value ≠ 0 → block.content.length = size → offsetBound ≤ block.offset size →
        block.offset size < wordBound → Overhang size block.bytes

/-- How far a chunk can be applied, if not to its end: what is archived of it, the changes that are
made, and the one that is refused, if one is. -/
inductive Mark (directory : Path) (files : FileSystem) :
    Bytes → List Effect → Option Effect → Prop where
  | nothing : Mark directory files [] [] none
  | named (kind : ChunkKind) (table : TableField) :
      kind ≠ .finish → Mark directory files (tagByte kind :: table.bytes) [] none
  /-- The letter and the size of a base file. -/
  | sized (table : TableField) (letter : BaseLetter) (size : Numeral) :
      size.value ≤ maxPayloadSize →
        Mark directory files
          (tagByte .baseFile :: (table.bytes ++ letterByte letter :: size.spelling)) [] none
  /-- The contents of a base file that cannot be replaced. -/
  | kept (table : TableField) (letter : BaseLetter) (payload : Payload) :
      ¬ (Chunk.baseFile table letter payload).Clear directory files →
        Mark directory files (Chunk.baseFile table letter payload).bytes []
          (some (.replaceBase table.name.text letter payload.content))
  /-- The size of blocks for a data file that cannot be opened. -/
  | closed (table : TableField) (size : Numeral) :
      size.value ≤ maxPayloadSize → ¬ files.Unobstructed (dataFilePath directory table.name.text) →
        Mark directory files (tagByte .blocks :: (table.bytes ++ size.spelling)) []
          (some (.openData table.name.text))
  /-- The size of blocks, with blocks that were written and what was archived after them. -/
  | blocks (table : TableField) (size : Numeral) (blocks : List Block) {hanging : Bytes} :
      size.value ≤ maxPayloadSize → files.Unobstructed (dataFilePath directory table.name.text) →
        (∀ block ∈ blocks, block.Fits size.value) → Overhang size.value hanging →
        Mark directory files
          (tagByte .blocks :: (table.bytes ++ (size.spelling ++
            (blocks.flatMap Block.bytes ++ hanging))))
          (.openData table.name.text :: blocks.map (Plan.blockChange table.name.text size.value))
          none

/-- How far a stream can be applied, if not to its end: what is archived, the changes that are made,
and the one that is refused, if one is. Chunks are looked at only if the revision that the changeset
applies to is accepted. -/
inductive Landmark (directory : Path) (files : FileSystem) (accepts : Nat → Prop)
    (stream : Bytes) : Bytes → List Effect → Option Effect → Prop where
  | opened (preamble : Preamble) :
      preamble.bytes <+: stream →
        Landmark directory files accepts stream preamble.bytes
          [.openArchive preamble.startRevision.value] none
  /-- Chunks that are applied to their ends, and what can be applied of the next. -/
  | within (preamble : Preamble) (chunks : List Chunk) {bytes : Bytes} {changes : List Effect}
      {refused : Option Effect} :
      accepts preamble.startRevision.value → (∀ chunk ∈ chunks, chunk.Clear directory files) →
        Mark directory files bytes changes refused →
        preamble.bytes ++ (chunks.flatMap Chunk.bytes ++ bytes) <+: stream →
        Landmark directory files accepts stream
          (preamble.bytes ++ (chunks.flatMap Chunk.bytes ++ bytes))
          (.openArchive preamble.startRevision.value ::
            (chunks.flatMap Plan.chunkChanges ++ changes)) refused

/-- The last landmark of a stream: all others come before it, and it tells what is refused. -/
structure Furthest (directory : Path) (files : FileSystem) (accepts : Nat → Prop) (stream : Bytes)
    (bytes : Bytes) (changes : List Effect) (refused : Option Effect) : Prop where
  reached : Landmark directory files accepts stream bytes changes refused
  last : ∀ {before made next}, Landmark directory files accepts stream before made next →
    before <+: bytes ∧ made <+: changes ∧ ∀ effect, next = some effect → refused = some effect

section

variable {directory : Path} {files : FileSystem} {accepts : Nat → Prop} {stream bytes : Bytes}
  {changes : List Effect} {refused : Option Effect}

theorem Landmark.isPrefix (h : Landmark directory files accepts stream bytes changes refused) :
    bytes <+: stream := by
  cases h with
  | opened preamble hinitial => exact hinitial
  | within preamble chunks _ _ _ hinitial => exact hinitial

/-- A landmark of a stream is one of every stream that starts with its bytes. -/
theorem Landmark.of_isPrefix (h : Landmark directory files accepts stream bytes changes refused)
    {other : Bytes} (hother : bytes <+: other) :
    Landmark directory files accepts other bytes changes refused := by
  cases h with
  | opened preamble _ => exact .opened preamble hother
  | within preamble chunks haccepts hclear hmark _ =>
      exact .within preamble chunks haccepts hclear hmark hother

/-- A landmark comes after the header, and the archive of its changeset is opened first. -/
theorem Landmark.preamble (h : Landmark directory files accepts stream bytes changes refused) :
    ∃ preamble : Preamble, preamble.bytes <+: bytes ∧
      ∃ rest, changes = .openArchive preamble.startRevision.value :: rest := by
  cases h with
  | opened preamble _ => exact ⟨preamble, List.prefix_rfl, [], rfl⟩
  | within preamble chunks _ _ _ _ => exact ⟨preamble, List.prefix_append _ _, _, rfl⟩

/-- There is one last landmark at most. -/
theorem Furthest.unique (h : Furthest directory files accepts stream bytes changes refused)
    {others : Bytes} {made : List Effect} {next : Option Effect}
    (hother : Furthest directory files accepts stream others made next) :
    bytes = others ∧ changes = made ∧ refused = next := by
  obtain ⟨hbytes, hchanges, hrefused⟩ := h.last hother.reached
  obtain ⟨hothers, hmade, hnext⟩ := hother.last h.reached
  refine ⟨hothers.eq_of_length_le hbytes.length_le, hmade.eq_of_length_le hchanges.length_le, ?_⟩
  cases next with
  | some effect => exact hrefused effect rfl
  | none =>
      cases refused with
      | none => rfl
      | some effect => cases hnext effect rfl

/-- The last landmark of a stream is the last of the bytes up to it. -/
theorem Furthest.restrict (h : Furthest directory files accepts stream bytes changes refused) :
    Furthest directory files accepts bytes bytes changes refused where
  reached := h.reached.of_isPrefix List.prefix_rfl
  last hlandmark := h.last (hlandmark.of_isPrefix (hlandmark.isPrefix.trans h.reached.isPrefix))

end

end TableReplica.Apply
