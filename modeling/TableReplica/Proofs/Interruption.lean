import TableReplica.Proofs.Progress

/-!
# What a failed apply leaves

An apply that fails among the chunks or after them has applied all chunks before the error to their
ends. Of the chunk in which the error arose it has made nothing, or opened the data file and written
the blocks before the error: `Unfinished` says which. The data files and base files come to just
these edits: `apply_failed`.
-/

namespace TableReplica.Apply

open Files Transport Wire Format

/-- The edits that open a data file and write blocks of one size to it. -/
def blockEdits (table : String) (size : Nat) (blocks : List Block) : List Edit :=
  { name := (ReplicaFile.data table).name, change := .write { offset := 0, data := [] } } ::
    blocks.map fun block =>
      { name := (ReplicaFile.data table).name
        change := .write { offset := block.offset size, data := block.content } }

/-- The edits that a chunk makes when it is applied to its end. -/
def chunkEdits : Chunk → List Edit
  | .baseFile table letter payload =>
    [clearing table.name.text, replacing table.name.text letter payload.content]
  | .blocks table run => blockEdits table.name.text run.size.value run.blocks

/-- What is made of the rest of a stream, where no further chunk is applied to its end. -/
inductive Unfinished (directory : Path) (files : FileSystem) (rest : Bytes) : List Edit → Prop where
  /-- Nothing, if the rest starts neither with a chunk that can be applied nor with the accepted
  size of blocks for a data file that can be opened. -/
  | untouched :
      (∀ chunk : Chunk, chunk.Clear directory files → ¬ chunk.bytes <+: rest) →
      (∀ (table : TableField) (size : Numeral), size.value ≤ maxPayloadSize →
        files.Unobstructed (dataFilePath directory table.name.text) →
          ¬ tagByte .blocks :: (table.bytes ++ size.spelling) <+: rest) →
      Unfinished directory files rest []
  /-- The blocks up to one that is not whole or does not fit, if they do not come to their end. -/
  | blocks (table : TableField) (size : Numeral) (blocks : List Block) (more : Bytes) :
      size.value ≤ maxPayloadSize → files.Unobstructed (dataFilePath directory table.name.text) →
      (∀ block ∈ blocks, block.Fits size.value) →
      rest = tagByte .blocks ::
        (table.bytes ++ (size.spelling ++ (blocks.flatMap Block.bytes ++ more))) →
      (∀ block : Block, block.Fits size.value → ¬ block.bytes <+: more) →
      (∀ last : Numeral, last.value = 0 → ¬ last.spelling <+: more) →
      Unfinished directory files rest (blockEdits table.name.text size.value blocks)

/-- What is left where an apply came to a stop: its stream falls into a header, chunks that were
applied to their ends and a rest, and the files of the tables were edited by the chunks and by what
was made of the rest. -/
structure Interrupted (directory : Path) (accepts : Nat → Prop) (stream : Bytes)
    (before after : FileSystem) (home : Location) (preamble : Preamble) (chunks : List Chunk)
    (rest : Bytes) (edits : List Edit) : Prop where
  leads : before.LeadsTo directory home
  bytes_eq : stream = preamble.bytes ++ (chunks.flatMap Chunk.bytes ++ rest)
  accepted : accepts preamble.startRevision.value
  clear : ∀ chunk ∈ chunks, chunk.Clear directory before
  unfinished : Unfinished directory before rest edits
  /-- Data files and base files are what they were before, with these edits in order. -/
  tables : ∀ table, IsTableName table →
    ∀ file ∈ [ReplicaFile.data table, .base table .a, .base table .b],
      after.get? (home ++ [file.name]) =
        Change.run (Edit.changesAt file.name (chunks.flatMap chunkEdits ++ edits))
          (before.get? (home ++ [file.name]))

section

variable {directory : Path} {files : FileSystem} {accepts : Nat → Prop} {stream bytes : Bytes}
  {changes : List Effect} {refused : Option Effect}

theorem flatMap_edits_blocks (table : String) (size : Nat) (blocks : List Block) :
    (Effect.openData table :: blocks.map (Plan.blockChange table size)).flatMap
      (Effect.edits none) = blockEdits table size blocks := by
  rw [List.flatMap_cons, List.flatMap_map]
  exact congrArg _ (List.map_eq_flatMap ..).symm

/-- The changes of a chunk are its edits. -/
theorem flatMap_edits_chunk (chunk : Chunk) :
    (Plan.chunkChanges chunk).flatMap (Effect.edits none) = chunkEdits chunk := by
  cases chunk with
  | baseFile table letter payload => rfl
  | blocks table run => exact flatMap_edits_blocks _ _ _

theorem chunkChanges_ne_nil (chunk : Chunk) : Plan.chunkChanges chunk ≠ [] := by
  cases chunk <;> simp [Plan.chunkChanges]

/-- What is archived after the last block is not the number that ends the blocks. -/
theorem Overhang.not_last {size : Nat} {hanging : Bytes} (h : Overhang size hanging)
    {last : Numeral} (hlast : last.value = 0) : ¬ last.spelling <+: hanging := by
  rintro ⟨tail, htail⟩
  cases h with
  | nothing => exact last.spelling_ne_nil (List.append_eq_nil_iff.mp htail).1
  | number number hnumber _ =>
      rw [← List.append_nil number.spelling] at htail
      obtain ⟨rfl, -⟩ := Numeral.unambiguous htail
      exact hnumber hlast
  | beyond block hnumber _ _ _ =>
      obtain ⟨rfl, -⟩ := Numeral.unambiguous htail
      exact hnumber hlast

/-- If the revision is accepted, a landmark is one among the chunks. -/
theorem Landmark.exists_mark
    (h : Landmark directory files accepts stream bytes changes refused) {preamble : Preamble}
    (hpreamble : preamble.bytes <+: stream) :
    ∃ (chunks : List Chunk) (reached : Bytes) (made : List Effect),
      (∀ chunk ∈ chunks, chunk.Clear directory files) ∧
      Mark directory files reached made refused ∧
      bytes = preamble.bytes ++ (chunks.flatMap Chunk.bytes ++ reached) ∧
      changes = .openArchive preamble.startRevision.value ::
        (chunks.flatMap Plan.chunkChanges ++ made) := by
  cases h with
  | opened first hinitial =>
      obtain rfl := Preamble.eq_of_isPrefix hpreamble hinitial
      exact ⟨[], [], [], by simp, .nothing, by simp, rfl⟩
  | within first chunks _ hclear hmark hinitial =>
      obtain rfl := Preamble.eq_of_isPrefix hpreamble ((List.prefix_append _ _).trans hinitial)
      exact ⟨chunks, _, _, hclear, hmark, rfl, rfl⟩

/-- However the rest of a stream goes on, it has no mark beyond these bytes and changes. -/
def Final (directory : Path) (files : FileSystem) (reached : Bytes) (made : List Effect)
    (rest : Bytes) : Prop :=
  ∀ (more : List Chunk) {next : Bytes} {others : List Effect} {again : Option Effect},
    (∀ chunk ∈ more, chunk.Clear directory files) → Mark directory files next others again →
      more.flatMap Chunk.bytes ++ next <+: rest →
        more.flatMap Chunk.bytes ++ next <+: reached ∧
          more.flatMap Plan.chunkChanges ++ others <+: made

/-- The last landmark of a stream is final among its chunks. -/
theorem Furthest.final {preamble : Preamble} {chunks : List Chunk} {reached rest : Bytes}
    {made : List Effect}
    (h : Furthest directory files accepts
      (preamble.bytes ++ (chunks.flatMap Chunk.bytes ++ rest))
      (preamble.bytes ++ (chunks.flatMap Chunk.bytes ++ reached))
      (.openArchive preamble.startRevision.value :: (chunks.flatMap Plan.chunkChanges ++ made))
      refused)
    (haccepts : accepts preamble.startRevision.value)
    (hclear : ∀ chunk ∈ chunks, chunk.Clear directory files) :
    Final directory files reached made rest := by
  intro more next others again hmore hmark hinitial
  have hall : ∀ chunk ∈ chunks ++ more, chunk.Clear directory files :=
    List.forall_mem_append.mpr ⟨hclear, hmore⟩
  obtain ⟨hbytes, hmade, -⟩ := h.last (.within preamble (chunks ++ more) haccepts hall hmark (by
    simpa [List.prefix_append_right_inj] using hinitial))
  constructor
  · simpa [List.prefix_append_right_inj] using hbytes
  · simpa [List.prefix_append_right_inj] using hmade

namespace Final

variable {reached rest : Bytes} {table : TableField} {size : Numeral} {blocks : List Block}

/-- Where nothing was made, a chunk that could be applied would be beyond. -/
theorem not_chunk (h : Final directory files reached [] rest) {chunk : Chunk}
    (hclear : chunk.Clear directory files) : ¬ chunk.bytes <+: rest := by
  intro hinitial
  have hmade := (h [chunk] (by simpa using hclear) .nothing (by simpa using hinitial)).2
  simp [chunkChanges_ne_nil] at hmade

/-- So would the size of blocks for a data file that could be opened. -/
theorem not_size (h : Final directory files reached [] rest) (hsmall : size.value ≤ maxPayloadSize)
    (hopen : files.Unobstructed (dataFilePath directory table.name.text)) :
    ¬ tagByte .blocks :: (table.bytes ++ size.spelling) <+: rest := by
  intro hinitial
  have hmade := (h [] (by simp) (.blocks table size [] hsmall hopen (by simp) .nothing)
    (by simpa using hinitial)).2
  simp at hmade

variable {hanging more : Bytes}

/-- Where blocks were written, a further block would be beyond. -/
theorem not_block
    (h : Final directory files
      (tagByte .blocks ::
        (table.bytes ++ (size.spelling ++ (blocks.flatMap Block.bytes ++ hanging))))
      (.openData table.name.text :: blocks.map (Plan.blockChange table.name.text size.value))
      (tagByte .blocks ::
        (table.bytes ++ (size.spelling ++ (blocks.flatMap Block.bytes ++ more)))))
    (hsmall : size.value ≤ maxPayloadSize)
    (hopen : files.Unobstructed (dataFilePath directory table.name.text))
    (hfit : ∀ block ∈ blocks, block.Fits size.value) {block : Block}
    (hfits : block.Fits size.value) : ¬ block.bytes <+: more := by
  intro hinitial
  have hall : ∀ other ∈ blocks ++ [block], other.Fits size.value :=
    List.forall_mem_append.mpr ⟨hfit, by simpa using hfits⟩
  have hmade := (h [] (by simp) (.blocks table size (blocks ++ [block]) hsmall hopen hall .nothing)
    (by simpa [List.prefix_append_right_inj] using hinitial)).2
  have hlength := hmade.length_le
  simp at hlength

/-- And so would the number zero, which ends the chunk. -/
theorem not_last
    (h : Final directory files
      (tagByte .blocks ::
        (table.bytes ++ (size.spelling ++ (blocks.flatMap Block.bytes ++ hanging))))
      (.openData table.name.text :: blocks.map (Plan.blockChange table.name.text size.value))
      (tagByte .blocks ::
        (table.bytes ++ (size.spelling ++ (blocks.flatMap Block.bytes ++ more)))))
    (hsmall : size.value ≤ maxPayloadSize)
    (hopen : files.Unobstructed (dataFilePath directory table.name.text))
    (hfit : ∀ block ∈ blocks, block.Fits size.value) (hover : Overhang size.value hanging)
    {last : Numeral} (hzero : last.value = 0) : ¬ last.spelling <+: more := by
  intro hinitial
  let run : BlockRun := { size, blocks, last, small := hsmall, fit := hfit, ends := hzero }
  have hclear : (Chunk.blocks table run).Clear directory files := fun path hmem => by
    rw [List.mem_singleton.mp hmem]
    exact hopen
  have hbytes := (h [Chunk.blocks table run] (by simpa using hclear) .nothing
    (by simpa [run, Chunk.bytes, BlockRun.bytes, List.prefix_append_right_inj] using hinitial)).1
  exact hover.not_last hzero
    (by simpa [run, Chunk.bytes, BlockRun.bytes, List.prefix_append_right_inj] using hbytes)

end Final

/-- At a final mark no further chunk is applied to its end, and no further block written. -/
theorem Mark.unfinished {reached tail : Bytes} {made : List Effect}
    (h : Mark directory files reached made refused)
    (hfinal : Final directory files reached made (reached ++ tail)) :
    Unfinished directory files (reached ++ tail) (made.flatMap (Effect.edits none)) := by
  cases h with
  | nothing | named | sized | kept | closed =>
      exact .untouched (fun _ => hfinal.not_chunk) fun _ _ => hfinal.not_size
  | @blocks table size blocks hanging hsmall hopen hfit hover =>
      rw [flatMap_edits_blocks]
      have hrest : tagByte .blocks :: (table.bytes ++ (size.spelling ++
          (blocks.flatMap Block.bytes ++ hanging))) ++ tail =
            tagByte .blocks :: (table.bytes ++ (size.spelling ++
              (blocks.flatMap Block.bytes ++ (hanging ++ tail)))) := by
        simp
      rw [hrest] at hfinal ⊢
      exact .blocks table size blocks (hanging ++ tail) hsmall hopen hfit rfl
        (fun _ => hfinal.not_block hsmall hopen hfit)
        fun _ => hfinal.not_last hsmall hopen hfit hover

/-- If the revision is accepted, the changes before the last landmark are those of the chunks that
are applied to their ends, and what is made of the rest. -/
theorem Furthest.unfinished
    (h : Furthest directory files accepts stream bytes changes refused) {preamble : Preamble}
    (hpreamble : preamble.bytes <+: stream) (haccepts : accepts preamble.startRevision.value) :
    ∃ (chunks : List Chunk) (rest : Bytes) (made : List Effect),
      stream = preamble.bytes ++ (chunks.flatMap Chunk.bytes ++ rest) ∧
      (∀ chunk ∈ chunks, chunk.Clear directory files) ∧
      changes = .openArchive preamble.startRevision.value ::
        (chunks.flatMap Plan.chunkChanges ++ made) ∧
      Unfinished directory files rest (made.flatMap (Effect.edits none)) := by
  obtain ⟨tail, htail⟩ := h.reached.isPrefix
  obtain ⟨chunks, reached, made, hclear, hmark, rfl, rfl⟩ := h.reached.exists_mark hpreamble
  simp only [List.append_assoc] at htail
  subst htail
  exact ⟨chunks, reached ++ tail, made, rfl, hclear, rfl,
    hmark.unfinished (h.final haccepts hclear)⟩

end

namespace Replicator

variable (replicator : Replicator)

/-- If an apply fails past the header and the check of the revision, the chunks before the error
were applied to their ends, and the chunk in which the error arose as far as its blocks went.
Nothing else was done to the data files and base files of any table. -/
theorem apply_failed (trusted : Bool) (connection : Connection) (files : FileSystem)
    {failure : Failure}
    (hfailure : (replicator.apply trusted connection files).result = .error failure)
    (hstage : failure.stage ∉ [.awaitingLock, .readingHeader, .checkingRevision]) :
    ∃ home preamble chunks rest edits,
      Interrupted replicator.directory (replicator.Accepts trusted) connection.delivery.bytes files
        (replicator.apply trusted connection files).files home preamble chunks rest edits := by
  obtain ⟨home, hfree⟩ := (replicator.lockFree_or_locked trusted connection files).resolve_right
    fun ⟨other, hother, hlocked, _⟩ => by
      cases hother.symm.trans hfailure
      simp [hlocked] at hstage
  have hprogress := replicator.progress_of_apply hfree trusted connection
  rw [hfailure] at hprogress
  generalize (replicator.apply trusted connection files).files = after at hprogress ⊢
  cases hprogress with
  | unopened _ _ hheader => simp [hheader] at hstage
  | halted _ _ effects refused hhalted hbegun =>
      obtain ⟨-, preamble, hpreamble, haccepts⟩ :=
        hhalted.resolve_left fun hrevision => by simp [hrevision] at hstage
      obtain ⟨chunks, rest, made, hstream, hclear, hchanges, hunfinished⟩ :=
        hbegun.furthest.unfinished hpreamble haccepts
      refine ⟨home, preamble, chunks, rest, _, hfree.leads, hstream, haccepts, hclear, hunfinished,
        fun table htable file hmem => ?_⟩
      obtain ⟨hproper, hlock, htemp, harchive⟩ : file.Proper ∧ file ≠ .lock ∧
          (∀ other, file ≠ .temp other) ∧ ∀ start, file ≠ .archive start := by
        simp only [List.mem_cons, List.not_mem_nil, or_false] at hmem
        rcases hmem with rfl | rfl | rfl <;> exact ⟨htable, by simp, by simp, by simp⟩
      have hlocking : locking.name ≠ file.name :=
        ReplicaFile.name_ne (show ReplicaFile.lock.Proper from trivial) hproper hlock.symm
      have hedits : (changesOf effects).flatMap (Effect.edits none) =
          chunks.flatMap chunkEdits ++ made.flatMap (Effect.edits none) := by
        rw [hchanges, List.flatMap_cons, List.flatMap_append, List.flatMap_assoc]
        simp only [flatMap_edits_chunk]
        rfl
      rw [hbegun.get?_name fun start _ => ReplicaFile.name_ne_archiveName hproper harchive start,
        Edit.changesAt_cons, if_neg hlocking, editsOf, Edit.changesAt_append,
        changesAt_spoils hbegun.orderly hproper htemp, List.append_nil, hedits]

/-- A connection that stalls in the contents of the block interrupts the changeset with one
block. -/
theorem apply_failed_stalled :
    ∃ home preamble chunks rest edits,
      Interrupted sampleReplicator.directory (sampleReplicator.Accepts false)
        stalledSample.delivery.bytes {} (sampleReplicator.apply false stalledSample {}).files
        home preamble chunks rest edits :=
  apply_failed sampleReplicator false stalledSample {} result_stalledSample (by decide)

end Replicator

end TableReplica.Apply
