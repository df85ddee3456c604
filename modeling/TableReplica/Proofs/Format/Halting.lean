import TableReplica.Proofs.Format.Landmarks
import TableReplica.Proofs.Plan.Tracking

/-!
# Plans halt at landmarks

Wherever a plan comes to a halt under the files there are, what was archived by then and the changes
that were made are those of a landmark of the stream. The proof follows each plan by the rules of
`Tracks`; `tracks_plan` puts the pieces together and tells in which stage an apply halts.
-/

namespace TableReplica.Apply

open Files Transport Wire Format

section

variable {directory : Path} {archived : Option Nat} {files : FileSystem}

/-- Nothing is in the way of an append to the archive. -/
theorem Effect.clear_archive (data : Bytes) :
    (Effect.archive data).Clear directory archived files :=
  rfl

/-- With a retention count of zero there is no archive to open. -/
theorem Effect.clear_openArchive {retention : UInt32} {start : Nat} :
    (Effect.openArchive start).Clear directory (if retention = 0 then none else some start) files ↔
      retention = 0 ∨ files.Unobstructed (archivePath directory start) := by
  rw [← FileSystem.obstacle?_eq_none]
  by_cases hretention : retention = 0 <;> simp [Effect.Clear, Effect.obstacle?, hretention]

theorem Effect.clear_openData {table : String} :
    (Effect.openData table).Clear directory archived files ↔
      files.Unobstructed (dataFilePath directory table) := by
  rw [← FileSystem.obstacle?_eq_none]
  simp [Effect.Clear, Effect.obstacle?]

/-- A block is written where the data file was opened. -/
theorem Effect.clear_writeBlock {table : String} (offset : Nat) (block : Bytes) :
    (Effect.writeBlock table offset block).Clear directory archived files ↔
      files.Unobstructed (dataFilePath directory table) :=
  (clear_openData : (Effect.openData table).Clear directory archived files ↔ _)

theorem Effect.clear_replaceBase {table : TableField} {letter : BaseLetter} {payload : Payload} :
    (Effect.replaceBase table.name.text letter payload.content).Clear directory archived files ↔
      (Chunk.baseFile table letter payload).Clear directory files := by
  simp [Effect.Clear, Effect.obstacle?, Chunk.Clear, Chunk.paths, ← FileSystem.obstacle?_eq_none]

end

namespace Plan

section

variable {directory : Path} {archived : Option Nat} {files : FileSystem}
  {stream stored pending : Bytes} {changes : List Effect} {α : Type}

theorem tracks_table {goal : String → Bytes → Bytes → List Effect → Prop}
    {halt : Bytes → List Effect → Effect ⊕ Stop → Prop}
    (hhalt : ∀ stop, halt stored changes (.inr stop))
    (hgoal : ∀ table : TableField,
      goal table.name.text (stored ++ (pending ++ table.bytes)) [] changes) :
    Tracks (Effect.Clear directory archived files) stream stored pending changes Plan.table goal
      halt := by
  refine .bind (Tracks.field (Parses.string _ _) hhalt fun letters bytes hname =>
    .bind (Tracks.demand hhalt fun table hparse => .bind (Tracks.commit Effect.clear_archive
      (.pure ?_))))
  obtain ⟨hshort, length, hcounts, rfl⟩ := hname
  obtain ⟨field, rfl, hbytes⟩ := exists_tableField hcounts hshort hparse
  rw [← hbytes]
  exact hgoal field

/-- A base file chunk halts after its name, after its size, or after contents that are refused. -/
theorem tracks_baseFile {table : TableField} {goal : Nat → Bytes → Bytes → List Effect → Prop}
    {halt : Bytes → List Effect → Effect ⊕ Stop → Prop}
    (hhalt : ∀ stop, halt stored changes (.inr stop))
    (hsized : ∀ letter (size : Numeral) stop, size.value ≤ maxPayloadSize →
      halt (stored ++ letterByte letter :: size.spelling) changes (.inr stop))
    (hkept : ∀ letter (payload : Payload),
      ¬ (Chunk.baseFile table letter payload).Clear directory files →
        halt (stored ++ letterByte letter :: payload.bytes) changes
          (.inl (.replaceBase table.name.text letter payload.content)))
    (hgoal : ∀ letter (payload : Payload),
      (Chunk.baseFile table letter payload).Clear directory files →
        goal payload.size.value (stored ++ letterByte letter :: payload.bytes) []
          (changes ++ [.replaceBase table.name.text letter payload.content])) :
    Tracks (Effect.Clear directory archived files) stream stored [] changes
      (Plan.baseFile table.name.text) goal halt := by
  refine .bind (Tracks.field (Parses.byte _) hhalt fun byte bytes hbyte =>
    .bind (Tracks.demand hhalt fun letter hletter =>
      .bind (Tracks.field (Parses.uint _) hhalt fun value spelling hsize => ?_)))
  subst hbyte
  obtain ⟨size, rfl, rfl⟩ := hsize
  obtain rfl := letterByte_of_ofByte hletter
  split
  · exact Tracks.refuse hhalt
  · next hsmall =>
      have hsmall : size.value ≤ maxPayloadSize := Nat.not_lt.mp hsmall
      refine .bind (Tracks.take Effect.clear_archive (fun stop => hsized letter size stop hsmall)
        fun content hcontent => .bind ?_)
      let payload : Payload := { size, content, counts := hcontent.symm, small := hsmall }
      refine Tracks.effect rfl rfl (fun hrefused => hkept letter payload ?_) fun hclear =>
        .pure (hgoal letter payload ?_)
      · exact fun hclear => hrefused (Effect.clear_replaceBase.mpr hclear)
      · exact Effect.clear_replaceBase.mp hclear

/-- A block is written, ends the chunk, or leaves an overhang where the chunk halts. -/
theorem tracks_blockStep {table : String} {size : Nat} {stats : BlockStats}
    (hopen : files.Unobstructed (dataFilePath directory table))
    {goal : BlockStats ⊕ BlockStats → Bytes → Bytes → List Effect → Prop}
    {halt : Bytes → List Effect → Effect ⊕ Stop → Prop}
    (hhalt : ∀ hanging stop, Overhang size hanging → halt (stored ++ hanging) changes (.inr stop))
    (hblock : ∀ block : Block, block.Fits size →
      goal (.inl { blocks := stats.blocks + 1, bytes := stats.bytes + size })
        (stored ++ block.bytes) [] (changes ++ [blockChange table size block]))
    (hlast : ∀ last : Numeral, last.value = 0 →
      goal (.inr stats) (stored ++ last.spelling) [] changes) :
    Tracks (Effect.Clear directory archived files) stream stored [] changes
      (Plan.blockStep directory table size stats) goal halt := by
  have hstart (stop : Stop) : halt stored changes (.inr stop) := by
    simpa using hhalt [] stop .nothing
  refine .bind (Tracks.field (Parses.uint _) hstart fun value spelling hnumber => .bind ?_)
  obtain ⟨number, rfl, rfl⟩ := hnumber
  rw [List.nil_append]
  rcases hindex : number.value with _ | index
  · exact .bind (Tracks.commit Effect.clear_archive (.pure (.pure (hlast number hindex))))
  · have hoffset : (number.value - 1) * size = index * size := by rw [hindex, Nat.add_sub_cancel]
    have hnumbered : number.value ≠ 0 := by omega
    unfold Plan.numbered Plan.block
    simp only
    split
    · exact Tracks.refuse hstart
    · next hword =>
        have hword : (number.value - 1) * size < wordBound := by omega
        have hawaited := Overhang.number number hnumbered hword
        refine .bind (Tracks.take Effect.clear_archive (fun stop => hhalt _ stop hawaited)
          fun content hcontent => .bind ?_)
        let block : Block := { number, content }
        have hplace : block.offset size = index * size := hoffset
        split
        · next hbeyond =>
            exact Tracks.refuse fun stop => hhalt block.bytes stop
              (.beyond block hnumbered hcontent (by omega) hword)
        · next hwithin =>
            have hfits : block.Fits size := ⟨hnumbered, hcontent, by omega⟩
            have hclear : (Effect.writeBlock table (index * size) content).Clear directory archived
                files := (Effect.clear_writeBlock _ _).mpr hopen
            refine Tracks.effect rfl rfl (fun hrefused => absurd hclear hrefused) fun _ =>
              .pure (.pure ?_)
            rw [← hplace]
            exact hblock block hfits

/-- A block chunk halts after its name, after its size if the data file is refused, or after its
last block. -/
theorem tracks_blocks {table : TableField} {goal : BlockStats → Bytes → Bytes → List Effect → Prop}
    {halt : Bytes → List Effect → Effect ⊕ Stop → Prop}
    (hhalt : ∀ stop, halt stored changes (.inr stop))
    (hclosed : ∀ size : Numeral, size.value ≤ maxPayloadSize →
      ¬ files.Unobstructed (dataFilePath directory table.name.text) →
        halt (stored ++ size.spelling) changes (.inl (.openData table.name.text)))
    (hhanging : ∀ (size : Numeral) (blocks : List Block) hanging stop,
      size.value ≤ maxPayloadSize → files.Unobstructed (dataFilePath directory table.name.text) →
        (∀ block ∈ blocks, block.Fits size.value) → Overhang size.value hanging →
          halt (stored ++ (size.spelling ++ (blocks.flatMap Block.bytes ++ hanging)))
            (changes ++ .openData table.name.text ::
              blocks.map (blockChange table.name.text size.value)) (.inr stop))
    (hgoal : ∀ run : BlockRun, files.Unobstructed (dataFilePath directory table.name.text) →
      ∀ stats, goal stats (stored ++ run.bytes) []
        (changes ++ .openData table.name.text ::
          run.blocks.map (blockChange table.name.text run.size.value))) :
    Tracks (Effect.Clear directory archived files) stream stored [] changes
      (Plan.blocks directory table.name.text) goal halt := by
  refine .bind (Tracks.field (Parses.uint _) hhalt fun value spelling hsize => ?_)
  obtain ⟨size, rfl, rfl⟩ := hsize
  rw [List.nil_append]
  split
  · exact Tracks.refuse hhalt
  · next hsmall =>
      have hsmall : size.value ≤ maxPayloadSize := Nat.not_lt.mp hsmall
      refine .bind (Tracks.commit Effect.clear_archive (.bind (Tracks.effect rfl rfl
        (fun hrefused => hclosed size hsmall (mt Effect.clear_openData.mpr hrefused))
        fun hclear => ?_)))
      have hopen := Effect.clear_openData.mp hclear
      -- Before every round some blocks have been written, and nothing is pending.
      refine .loop (fun _ archive decoded made => ∃ blocks : List Block,
        (∀ block ∈ blocks, block.Fits size.value) ∧
          archive = stored ++ (size.spelling ++ blocks.flatMap Block.bytes) ∧ decoded = [] ∧
          made = changes ++ .openData table.name.text ::
            blocks.map (blockChange table.name.text size.value))
        (fun stats archive decoded made hround => ?_) ⟨[], by simp⟩
      obtain ⟨blocks, hfit, rfl, rfl, rfl⟩ := hround
      refine tracks_blockStep hopen (fun hanging stop hover => ?_) (fun block hfits => ?_)
        fun last hlast => ?_
      · simpa using hhanging size blocks hanging stop hsmall hopen hfit hover
      · refine ⟨blocks ++ [block], ?_, by simp⟩
        rw [List.forall_mem_append]
        exact ⟨hfit, by simpa using hfits⟩
      · simpa [BlockRun.bytes] using hgoal
          { size, blocks, last, small := hsmall, fit := hfit, ends := hlast } hopen stats

/-- A chunk that is not applied to its end halts at a mark of its bytes. -/
theorem tracks_chunkStep {stats : ChunkStats}
    {goal : ChunkStats ⊕ ChunkStats → Bytes → Bytes → List Effect → Prop}
    {halt : Bytes → List Effect → Effect ⊕ Stop → Prop}
    (hmark : ∀ {bytes made refused} reason, Mark directory files bytes made refused →
      reason.getLeft? = refused → halt (stored ++ bytes) (changes ++ made) reason)
    (hchunk : ∀ chunk more, chunk.Clear directory files →
      goal (.inl more) (stored ++ chunk.bytes) [] (changes ++ chunkChanges chunk))
    (hlast : goal (.inr stats) stored [tagByte .finish] changes) :
    Tracks (Effect.Clear directory archived files) stream stored [] changes
      (Plan.chunkStep directory stats) goal halt := by
  have hstart (stop : Stop) : halt stored changes (.inr stop) := by
    simpa using hmark (.inr stop) .nothing rfl
  refine .bind (Tracks.field (Parses.byte _) hstart fun tag bytes htag => .bind ?_)
  subst htag
  rw [List.nil_append]
  have hnamed {kind : ChunkKind} (hkind : kind ≠ .finish) (table : TableField) (stop : Stop) :
      halt (stored ++ tagByte kind :: table.bytes) changes (.inr stop) := by
    simpa using hmark (.inr stop) (.named kind table hkind) rfl
  unfold Plan.tagged
  split
  · exact Tracks.refuse hstart
  · next hkind =>
      obtain rfl := tagByte_of_ofByte? hkind
      exact .pure (.pure hlast)
  · next hkind =>
      obtain rfl := tagByte_of_ofByte? hkind
      refine .bind (tracks_table hstart fun table => .bind (tracks_baseFile
        (hnamed (by decide) table) (fun letter size stop hsmall => ?_)
        (fun letter payload hrefused => ?_) fun letter payload hclear => .pure (.pure ?_)))
      · simpa using hmark (.inr stop) (.sized table letter size hsmall) rfl
      · simpa [Chunk.bytes] using hmark (.inl (.replaceBase table.name.text letter payload.content))
          (.kept table letter payload hrefused) rfl
      · simpa [Chunk.bytes, chunkChanges] using hchunk _ _ hclear
  · next hkind =>
      obtain rfl := tagByte_of_ofByte? hkind
      refine .bind (tracks_table hstart fun table => .bind (tracks_blocks
        (hnamed (by decide) table) (fun size hsmall hobstructed => ?_)
        (fun size blocks hanging stop hsmall hopen hfit hover => ?_)
        fun run hopen stats => .pure (.pure ?_)))
      · simpa using hmark (.inl (.openData table.name.text))
          (.closed table size hsmall hobstructed) rfl
      · simpa using hmark (.inr stop) (.blocks table size blocks hsmall hopen hfit hover) rfl
      · have hclear : (Chunk.blocks table run).Clear directory files := fun path hmem => by
          rw [List.mem_singleton.mp hmem]
          exact hopen
        simpa [Chunk.bytes, chunkChanges] using hchunk _ _ hclear

/-- Chunks are applied to their ends until one halts at a mark, or the end of them is met. -/
theorem tracks_chunks {goal : ChunkStats → Bytes → Bytes → List Effect → Prop}
    {halt : Bytes → List Effect → Effect ⊕ Stop → Prop}
    (hmark : ∀ {chunks : List Chunk} {bytes made refused} reason,
      (∀ chunk ∈ chunks, chunk.Clear directory files) → Mark directory files bytes made refused →
        reason.getLeft? = refused → halt (stored ++ (chunks.flatMap Chunk.bytes ++ bytes))
          (changes ++ (chunks.flatMap chunkChanges ++ made)) reason)
    (hgoal : ∀ (chunks : List Chunk) stats, (∀ chunk ∈ chunks, chunk.Clear directory files) →
      goal stats (stored ++ chunks.flatMap Chunk.bytes) [tagByte .finish]
        (changes ++ chunks.flatMap chunkChanges)) :
    Tracks (Effect.Clear directory archived files) stream stored [] changes (Plan.chunks directory)
      goal halt := by
  refine .loop (fun _ archive decoded made => ∃ chunks : List Chunk,
    (∀ chunk ∈ chunks, chunk.Clear directory files) ∧
      archive = stored ++ chunks.flatMap Chunk.bytes ∧ decoded = [] ∧
      made = changes ++ chunks.flatMap chunkChanges)
    (fun stats archive decoded made hround => ?_) ⟨[], by simp⟩
  obtain ⟨chunks, hclear, rfl, rfl, rfl⟩ := hround
  refine tracks_chunkStep (fun reason hreached hreason => ?_) (fun chunk more hnext => ?_)
    (hgoal chunks stats hclear)
  · simpa using hmark reason hclear hreached hreason
  · refine ⟨chunks ++ [chunk], ?_, by simp⟩
    rw [List.forall_mem_append]
    exact ⟨hclear, by simpa using hnext⟩

/-- Reading the header archives and changes nothing. -/
theorem tracks_header {goal : Header → Bytes → Bytes → List Effect → Prop}
    {halt : Bytes → List Effect → Effect ⊕ Stop → Prop}
    (hhalt : ∀ stop, halt stored changes (.inr stop))
    (hgoal : ∀ preamble : Preamble, goal (headerOf preamble.bare) stored preamble.bytes changes) :
    Tracks (Effect.Clear directory archived files) stream stored [] changes Plan.header goal
      halt := by
  refine .bind (Tracks.field Parses.magic hhalt fun _ bytes hmagic =>
    .bind (Tracks.field (Parses.uint _) hhalt fun version spelling hversion =>
      .bind (Tracks.require hhalt fun hsupported =>
        .bind (Tracks.field (Parses.uint _) hhalt fun start opening hstart =>
          .bind (Tracks.field (Parses.uint _) hhalt fun last closing hend =>
            .bind (Tracks.require hhalt fun hordered =>
              .bind (Tracks.field (Parses.byte _) hhalt fun kind byte hkind =>
                .bind (Tracks.require hhalt fun hdurable => .pure ?_))))))))
  subst hmagic hkind hdurable
  obtain ⟨version, rfl, rfl⟩ := hversion
  obtain ⟨startRevision, rfl, rfl⟩ := hstart
  obtain ⟨endRevision, rfl, rfl⟩ := hend
  simpa [Preamble.bytes, headerOf, Preamble.bare] using hgoal
    { version, startRevision, endRevision, supported := hsupported, ordered := hordered }

/-- The whole header goes to the archive, once that is open. -/
theorem tracks_opening {goal : Header → Bytes → Bytes → List Effect → Prop}
    {halt : Bytes → List Effect → Effect ⊕ Stop → Prop}
    (hhalt : ∀ stop, halt stored changes (.inr stop))
    (hrefused : ∀ preamble : Preamble,
      halt stored changes (.inl (.openArchive preamble.startRevision.value)))
    (hgoal : ∀ preamble : Preamble, goal (headerOf preamble.bare) (stored ++ preamble.bytes) []
      (changes ++ [.openArchive preamble.startRevision.value])) :
    Tracks (Effect.Clear directory archived files) stream stored [] changes Plan.opening goal
      halt :=
  .bind (tracks_header hhalt fun preamble => .bind (Tracks.effect rfl rfl
    (fun _ => hrefused preamble) fun _ => .bind (Tracks.commit Effect.clear_archive
      (.pure (hgoal preamble)))))

theorem tracks_revision {revisions : RevisionReader} {trusted : Bool} {startRevision : Nat}
    {goal : Unit → Bytes → Bytes → List Effect → Prop}
    {halt : Bytes → List Effect → Effect ⊕ Stop → Prop}
    (hhalt : ∀ stop, halt stored changes (.inr stop))
    (hgoal : (trusted = true → revisions directory = .ok startRevision) →
      goal () stored pending changes) :
    Tracks (Effect.Clear directory archived files) stream stored pending changes
      (Plan.revision directory revisions trusted startRevision) goal halt := by
  unfold Plan.revision
  split
  · split
    · exact Tracks.refuse hhalt
    · next current hcurrent =>
        exact Tracks.require hhalt fun hsame => hgoal fun _ => by rw [hcurrent, hsame]
  · next huntrusted => exact .pure (hgoal fun htrusted => absurd htrusted huntrusted)

theorem tracks_required {endRevision : Nat} {goal : Nat → Bytes → Bytes → List Effect → Prop}
    {halt : Bytes → List Effect → Effect ⊕ Stop → Prop}
    (hhalt : ∀ stop, halt stored changes (.inr stop))
    (hgoal : ∀ required : Numeral, endRevision ≤ required.value →
      goal required.value stored (pending ++ required.spelling) changes) :
    Tracks (Effect.Clear directory archived files) stream stored pending changes
      (Plan.required endRevision) goal halt := by
  refine .bind (Tracks.field (Parses.uint _) hhalt fun value bytes hvalue =>
    .bind (Tracks.require hhalt fun hlater => .pure ?_))
  obtain ⟨required, rfl, rfl⟩ := hvalue
  exact hgoal required hlater

end

end Plan

/-- The stage in which an apply halts. -/
def haltStage : Effect ⊕ Halt → Stage :=
  Sum.elim Effect.stage Halt.stage

/-- Where the plan of an apply comes to a halt: before the archive is open, before the chunks are
looked at, or at a landmark among them. -/
inductive Halted (directory : Path) (files : FileSystem) (accepts : Nat → Prop) (stream : Bytes) :
    Bytes → List Effect → Effect ⊕ Halt → Prop where
  | unopened (reason : Effect ⊕ Halt) :
      haltStage reason = .readingHeader → Halted directory files accepts stream [] [] reason
  | unchecked (preamble : Preamble) (stop : Stop) :
      preamble.bytes <+: stream →
        Halted directory files accepts stream preamble.bytes
          [.openArchive preamble.startRevision.value] (.inr { stage := .checkingRevision, stop })
  | within (preamble : Preamble) (chunks : List Chunk) {bytes : Bytes} {changes : List Effect}
      (reason : Effect ⊕ Halt) :
      haltStage reason = .readingChunks ∨ haltStage reason = .readingFooter →
        accepts preamble.startRevision.value → (∀ chunk ∈ chunks, chunk.Clear directory files) →
        Mark directory files bytes changes reason.getLeft? →
        preamble.bytes ++ (chunks.flatMap Chunk.bytes ++ bytes) <+: stream →
        Halted directory files accepts stream
          (preamble.bytes ++ (chunks.flatMap Chunk.bytes ++ bytes))
          (.openArchive preamble.startRevision.value ::
            (chunks.flatMap Plan.chunkChanges ++ changes)) reason

/-- What was archived, what is pending and what was changed when an apply has read a changeset. -/
structure Completed (directory : Path) (files : FileSystem) (accepts : Nat → Prop)
    (changeset : Stream) (receipt : Receipt) (stored pending : Bytes) (changes : List Effect) :
    Prop where
  header : receipt.header = Plan.headerOf changeset
  accepted : accepts changeset.startRevision.value
  clear : ∀ chunk ∈ changeset.chunks, chunk.Clear directory files
  archived : stored = changeset.preamble.bytes ++ changeset.chunks.flatMap Chunk.bytes
  left : pending = tagByte .finish :: changeset.required.spelling
  made : changes = streamChanges changeset

/-- Under any files the plan of an apply halts where a landmark is, or reads a changeset of which
nothing is obstructed. -/
theorem Replicator.tracks_plan (replicator : Replicator) (trusted : Bool) (archived : Option Nat)
    (files : FileSystem) (stream : Bytes) :
    Tracks (Effect.Clear replicator.directory archived files) stream [] [] []
      (replicator.plan trusted)
      (fun receipt stored pending changes => ∃ changeset : Stream,
        Completed replicator.directory files (replicator.Accepts trusted) changeset receipt stored
          pending changes)
      fun stored changes reason => stored <+: stream →
        Halted replicator.directory files (replicator.Accepts trusted) stream stored changes
          reason := by
  refine .bind (.during (Plan.tracks_opening (fun stop _ => .unopened _ rfl)
    (fun preamble _ => .unopened _ rfl) fun preamble => .bind (.during (Plan.tracks_revision
      (fun stop => .unchecked preamble stop) fun haccepts => .bind (.during (Plan.tracks_chunks
        (fun {chunks bytes made refused} reason hclear hmark hreason hinitial => ?_)
        fun chunks stats hclear => .bind (.during (Plan.tracks_required (fun stop => ?_)
          fun required hlater => .pure ?_))))))))
  · subst hreason
    have hstage : haltStage (reason.map id fun stop => Halt.mk .readingChunks stop) =
        .readingChunks := by
      cases reason with
      | inl effect => cases hmark <;> rfl
      | inr stop => rfl
    refine .within preamble chunks _ (.inl hstage) haccepts hclear ?_ ?_
    · cases reason <;> exact hmark
    · exact hinitial
  · intro hinitial
    simpa using Halted.within preamble chunks (.inr { stage := .readingFooter, stop }) (.inr rfl)
      haccepts hclear .nothing (by simpa using hinitial)
  · exact ⟨{ preamble.bare with chunks, required, later := hlater }, rfl, haccepts, hclear, rfl,
      rfl, rfl⟩

end TableReplica.Apply
