import TableReplica.Proofs.Format.Landmarks
import TableReplica.Proofs.Format.Reading

/-!
# Offending fields

A stream is found wrong at a field. The relations here lay out the bytes of a stream up to the last
byte of such a field, each with the error that it deserves: `WrongHeader` for the header,
`WrongChunk` for a chunk, and `Offends` for a whole stream, which is sound before that field.
`Rejects` says that a plan refuses the bytes ahead as they are, and `Offends.rejects` that an apply
refuses a stream which ends with an offending field. So no byte after the field is awaited.
-/

namespace TableReplica.Apply

open Files Transport Wire Format

/-- The bytes of a header up to a field that makes it wrong. -/
inductive WrongHeader : Bytes → ProtocolError → Prop where
  | magic (bytes : Bytes) :
      bytes.length = magic.length → bytes ≠ magic → WrongHeader bytes .badMagic
  | version (version : Numeral) :
      version.value ≠ formatVersion →
        WrongHeader (magic ++ version.spelling) (.unsupportedVersion version.value)
  | revisions (version startRevision endRevision : Numeral) :
      version.value = formatVersion → endRevision.value ≤ startRevision.value →
        WrongHeader (magic ++ (version.spelling ++ (startRevision.spelling ++ endRevision.spelling)))
          (.revisionOrder startRevision.value endRevision.value)
  | kind (version startRevision endRevision : Numeral) (kind : UInt8) :
      version.value = formatVersion → startRevision.value < endRevision.value →
        kind ≠ durableKind →
        WrongHeader (magic ++ (version.spelling ++ (startRevision.spelling ++
          (endRevision.spelling ++ [kind])))) (.unsupportedKind kind)

/-- The bytes of a chunk up to a field that makes it wrong, with the changes asked for before. -/
inductive WrongChunk : Bytes → List Effect → ProtocolError → Prop where
  | tag (tag : UInt8) :
      ChunkKind.ofByte? tag = none → WrongChunk [tag] [] (.unknownChunk tag)
  | nameLength (kind : ChunkKind) (length : Numeral) :
      kind ≠ .finish → maxTableNameSize < length.value →
        WrongChunk (tagByte kind :: length.spelling) []
          (.payloadTooLarge "tablename" length.value maxTableNameSize)
  | name (kind : ChunkKind) (length : Numeral) (letters : Bytes) (error : ProtocolError) :
      kind ≠ .finish → length.value = letters.length → letters.length ≤ maxTableNameSize →
        parseTableName letters = .error error →
        WrongChunk (tagByte kind :: (length.spelling ++ letters)) [] error
  | letter (table : TableField) (byte : UInt8) (error : ProtocolError) :
      BaseLetter.ofByte byte = .error error →
        WrongChunk (tagByte .baseFile :: (table.bytes ++ [byte])) [] error
  | baseSize (table : TableField) (letter : BaseLetter) (size : Numeral) :
      maxPayloadSize < size.value →
        WrongChunk (tagByte .baseFile :: (table.bytes ++ letterByte letter :: size.spelling)) []
          (.payloadTooLarge "base file" size.value maxPayloadSize)
  | blockSize (table : TableField) (size : Numeral) :
      maxPayloadSize < size.value →
        WrongChunk (tagByte .blocks :: (table.bytes ++ size.spelling)) []
          (.payloadTooLarge "block" size.value maxPayloadSize)
  | blockNumber (table : TableField) (size : Numeral) (blocks : List Block) (number : Numeral) :
      size.value ≤ maxPayloadSize → (∀ block ∈ blocks, block.Fits size.value) →
        number.value ≠ 0 → wordBound ≤ (number.value - 1) * size.value →
        WrongChunk
          (tagByte .blocks ::
            (table.bytes ++ (size.spelling ++ (blocks.flatMap Block.bytes ++ number.spelling))))
          (.openData table.name.text ::
            blocks.map (Plan.blockChange table.name.text size.value))
          (.blockOffsetOverflow (number.value - 1) size.value)

/-- The bytes of a stream up to a field that makes it wrong, with the header and the changes of
chunks that come before, if the header is not wrong itself. -/
inductive Offends : Bytes → Option Preamble → List Effect → Stage → ProtocolError → Prop where
  | header {bytes : Bytes} {error : ProtocolError} :
      WrongHeader bytes error → Offends bytes none [] .readingHeader error
  | chunk (preamble : Preamble) (chunks : List Chunk) {bytes : Bytes} {changes : List Effect}
      {error : ProtocolError} :
      WrongChunk bytes changes error →
        Offends (preamble.bytes ++ (chunks.flatMap Chunk.bytes ++ bytes)) (some preamble)
          (chunks.flatMap Plan.chunkChanges ++ changes) .readingChunks error
  | footer (preamble : Preamble) (chunks : List Chunk) (required : Numeral) :
      required.value < preamble.endRevision.value →
        Offends (preamble.bytes ++
            (chunks.flatMap Chunk.bytes ++ tagByte .finish :: required.spelling))
          (some preamble) (chunks.flatMap Plan.chunkChanges) .readingFooter
          (.requiredRevisionTooEarly required.value preamble.endRevision.value)

namespace PlanOf

variable {ε α β σ : Type}

/-- A plan refuses these bytes where they are all that is ahead, after asking for the changes. -/
def Rejects (plan : PlanOf ε α) (bytes : Bytes) (changes : List Effect) (stop : ε) : Prop :=
  ∀ before, before.ahead = bytes → ∃ effects,
    plan before = { effects, outcome := .error stop } ∧ changesOf effects = changes

namespace Rejects

variable {bytes more : Bytes} {changes others : List Effect} {stop : ε}

/-- A sequence refuses what its first plan refuses. -/
theorem first {first : PlanOf ε α} (h : Rejects first bytes changes stop)
    (next : α → PlanOf ε β) : Rejects (first >>= next) bytes changes stop := by
  intro before hahead
  obtain ⟨effects, hplan, hchanges⟩ := h before hahead
  exact ⟨effects, bind_of_error hplan next, hchanges⟩

/-- After a plan that reads its bytes a sequence refuses what its second plan refuses. -/
theorem bind {first : PlanOf ε α} {next : α → PlanOf ε β} {value : α}
    (hfirst : Reads first bytes changes value) (hnext : Rejects (next value) more others stop) :
    Rejects (first >>= next) (bytes ++ more) (changes ++ others) stop := by
  intro before hahead
  obtain ⟨effects, middle, hread, hpassed⟩ := hfirst before more hahead
  have hmiddle : middle.ahead = more := List.append_cancel_left (hpassed.ahead.symm.trans hahead)
  obtain ⟨later, hplan, hothers⟩ := hnext middle hmiddle
  refine ⟨effects ++ later, by rw [bind_of_ok hread, hplan], ?_⟩
  rw [changesOf_append, hpassed.changes_eq, hothers]

/-- A loop refuses what its first round refuses. -/
theorem firstRound {body : σ → PlanOf ε (σ ⊕ α)} {htakes : ∀ state, Takes 1 (body state)}
    {state : σ} (h : Rejects (body state) bytes changes stop) :
    Rejects (loop body htakes state) bytes changes stop := by
  rw [loop_eq]
  exact h.first _

/-- A loop reads one round and then refuses what comes. -/
theorem round {body : σ → PlanOf ε (σ ⊕ α)} {htakes : ∀ state, Takes 1 (body state)}
    {state next : σ} (hround : Reads (body state) bytes changes (.inl next))
    (hloop : Rejects (loop body htakes next) more others stop) :
    Rejects (loop body htakes state) (bytes ++ more) (changes ++ others) stop := by
  rw [loop_eq]
  exact .bind hround hloop

/-- The same bytes and changes may be put together in another way. -/
theorem congr {plan : PlanOf ε α} (h : Rejects plan bytes changes stop) (hbytes : bytes = more)
    (hchanges : changes = others) : Rejects plan more others stop :=
  hbytes ▸ hchanges ▸ h

/-- Following a plan as a stage rejects the same bytes. -/
theorem during {plan : Plan α} {stop : Stop} (h : Rejects plan bytes changes stop)
    (stage : Stage) : Rejects (plan.during stage) bytes changes { stage, stop } := by
  intro before hahead
  obtain ⟨effects, hplan, hchanges⟩ := h before hahead
  refine ⟨effects, ?_, hchanges⟩
  rw [PlanOf.during, hplan]
  rfl

end Rejects

end PlanOf

namespace Plan

open PlanOf (Archives Reads Rejects)

variable {α : Type} {bytes : Bytes}

namespace Rejects

/-- A field that gives no value for its bytes is refused. -/
theorem field {verdict : Verdict α} {stop : Stop} (h : verdict bytes = .error stop) :
    Rejects (Plan.field verdict) bytes [] stop := by
  intro before hahead
  refine ⟨[], ?_, rfl⟩
  rw [Plan.field, hahead, h]
  rfl

/-- Refusing rejects whatever comes. -/
theorem refuse (error : ReplicaError) :
    Rejects (Plan.refuse error : Plan α) [] [] (.refused error) :=
  fun _ _ => ⟨[], rfl, rfl⟩

/-- So does a demand that is not met. -/
theorem demand {outcome : Except ProtocolError α} {error : ProtocolError}
    (h : outcome = .error error) :
    Rejects (Plan.demand outcome) [] [] (.refused (.protocol error)) := by
  rw [h]
  exact refuse _

/-- So does a requirement that does not hold. -/
theorem require {condition : Prop} [Decidable condition] (h : ¬ condition)
    (error : ProtocolError) :
    Rejects (Plan.require condition error) [] [] (.refused (.protocol error)) := by
  rw [Plan.require, if_neg h]
  exact refuse _

end Rejects

/-- A header is refused at its offending field. -/
theorem rejects_header {error : ProtocolError} (h : WrongHeader bytes error) :
    Rejects Plan.header bytes [] (.refused (.protocol error)) := by
  cases h with
  | magic _ hlength hwrong =>
      refine .first (Rejects.field ?_) _
      have hother : ¬ magic <+: bytes := fun hmagic => hwrong (hmagic.eq_of_length hlength.symm).symm
      rw [Verdict.magic, if_neg hother, if_neg (by omega)]
  | version version hversion =>
      have h : Rejects Plan.header (magic ++ (version.spelling ++ [])) ([] ++ ([] ++ []))
          (.refused (.protocol (.unsupportedVersion version.value))) :=
        .bind Reads.magic (.bind (Reads.uint _ version) ((Rejects.require hversion _).first _))
      exact h.congr (by simp) rfl
  | revisions version startRevision endRevision hversion horder =>
      have h : Rejects Plan.header (magic ++ (version.spelling ++ ([] ++ (startRevision.spelling ++
          (endRevision.spelling ++ []))))) ([] ++ ([] ++ ([] ++ ([] ++ ([] ++ [])))))
          (.refused (.protocol (.revisionOrder startRevision.value endRevision.value))) :=
        .bind Reads.magic (.bind (Reads.uint _ version) (.bind (Reads.require hversion _)
          (.bind (Reads.uint _ startRevision) (.bind (Reads.uint _ endRevision)
            ((Rejects.require (Nat.not_lt.mpr horder) _).first _)))))
      exact h.congr (by simp) rfl
  | kind version startRevision endRevision kind hversion hordered hkind =>
      have h : Rejects Plan.header (magic ++ (version.spelling ++ ([] ++ (startRevision.spelling ++
          (endRevision.spelling ++ ([] ++ ([kind] ++ []))))))) ([] ++ ([] ++ ([] ++ ([] ++ ([] ++
          ([] ++ ([] ++ []))))))) (.refused (.protocol (.unsupportedKind kind))) :=
        .bind Reads.magic (.bind (Reads.uint _ version) (.bind (Reads.require hversion _)
          (.bind (Reads.uint _ startRevision) (.bind (Reads.uint _ endRevision)
            (.bind (Reads.require hordered _) (.bind (Reads.byte _ kind)
              ((Rejects.require hkind _).first _)))))))
      exact h.congr (by simp) rfl

section

variable {directory : Path}

/-- A length above the bound is refused before any letter is awaited. -/
theorem rejects_nameLength {length : Numeral} (h : maxTableNameSize < length.value) :
    Rejects Plan.table length.spelling []
      (.refused (.protocol (.payloadTooLarge "tablename" length.value maxTableNameSize))) := by
  refine .first (Rejects.field ?_) _
  have hread : unpackUint length.spelling = .value length.value length.spelling.length := by
    have hwhole := length.unpack_append []
    rwa [List.append_nil] at hwhole
  have hexcess : Cursor.excess? maxTableNameSize length.spelling = some length.value := by
    simp only [Cursor.excess?, hread]
    exact if_pos h
  rw [Verdict.string, hexcess]

/-- A table name is refused that is missing or has other bytes than lower case letters. -/
theorem rejects_name {length : Numeral} {letters : Bytes} {error : ProtocolError}
    (hcounts : length.value = letters.length) (hshort : letters.length ≤ maxTableNameSize)
    (herror : parseTableName letters = .error error) :
    Rejects Plan.table (length.spelling ++ letters) [] (.refused (.protocol error)) := by
  have h : Rejects Plan.table ((length.spelling ++ letters) ++ []) ([] ++ [])
      (.refused (.protocol error)) :=
    .bind (Reads.counted _ (by decide) hcounts hshort) ((Rejects.demand herror).first _)
  exact h.congr (by simp) rfl

/-- A chunk is refused where its table name is. -/
theorem rejects_tagged_table {kind : ChunkKind} (hkind : kind ≠ .finish) {stop : Stop}
    (h : Rejects Plan.table bytes [] stop) :
    Rejects (Plan.tagged directory (tagByte kind)) bytes [] stop := by
  cases kind with
  | finish => exact absurd rfl hkind
  | baseFile => exact h.first _
  | blocks => exact h.first _

/-- A base letter other than the two is refused. -/
theorem rejects_letter (table : String) {byte : UInt8} {error : ProtocolError}
    (herror : BaseLetter.ofByte byte = .error error) :
    Rejects (Plan.baseFile table) [byte] [] (.refused (.protocol error)) := by
  have h : Rejects (Plan.baseFile table) ([byte] ++ []) ([] ++ []) (.refused (.protocol error)) :=
    .bind (Reads.byte _ byte) ((Rejects.demand herror).first _)
  exact h

/-- A base file that is too large is refused by its size. -/
theorem rejects_baseSize (table : String) (letter : BaseLetter) {size : Numeral}
    (hlarge : maxPayloadSize < size.value) :
    Rejects (Plan.baseFile table) (letterByte letter :: size.spelling) []
      (.refused (.protocol (.payloadTooLarge "base file" size.value maxPayloadSize))) := by
  have h : Rejects (Plan.baseFile table) ([letterByte letter] ++ ([] ++ (size.spelling ++ [])))
      ([] ++ ([] ++ ([] ++ [])))
      (.refused (.protocol (.payloadTooLarge "base file" size.value maxPayloadSize))) := by
    refine .bind (Reads.byte _ _) (.bind (Reads.demand (ofByte_letterByte letter))
      (.bind (Reads.uint _ size) ?_))
    rw [if_pos hlarge]
    exact Rejects.refuse _
  exact h.congr (by simp) rfl

/-- So are blocks that are too large. -/
theorem rejects_blockSize (table : String) {size : Numeral} (hlarge : maxPayloadSize < size.value) :
    Rejects (Plan.blocks directory table) size.spelling []
      (.refused (.protocol (.payloadTooLarge "block" size.value maxPayloadSize))) := by
  have h : Rejects (Plan.blocks directory table) (size.spelling ++ []) ([] ++ [])
      (.refused (.protocol (.payloadTooLarge "block" size.value maxPayloadSize))) := by
    refine .bind (Reads.uint _ size) ?_
    rw [if_pos hlarge]
    exact Rejects.refuse _
  exact h.congr (by simp) rfl

/-- A block number that is out of all bounds is refused before its block is awaited. -/
theorem rejects_blockStep (table : String) {size : Nat} {number : Numeral}
    (hnumber : number.value ≠ 0) (hbeyond : wordBound ≤ (number.value - 1) * size)
    (stats : BlockStats) :
    Rejects (Plan.blockStep directory table size stats) number.spelling []
      (.refused (.protocol (.blockOffsetOverflow (number.value - 1) size))) := by
  obtain ⟨index, hindex⟩ := Nat.exists_eq_succ_of_ne_zero hnumber
  have hpred : number.value - 1 = index := by omega
  rw [hpred] at hbeyond ⊢
  have hnumbered : Rejects (Plan.numbered directory table size number.value) [] []
      (.refused (.protocol (.blockOffsetOverflow index size))) := by
    rw [hindex, Plan.numbered]
    simp only [if_pos hbeyond]
    exact Rejects.refuse _
  have h : Rejects (Plan.blockStep directory table size stats) (number.spelling ++ []) ([] ++ [])
      (.refused (.protocol (.blockOffsetOverflow index size))) :=
    .bind (Reads.uint _ number) (hnumbered.first _)
  exact h.congr (by simp) rfl

/-- After any blocks, a block number is refused whose offset is no word. -/
theorem rejects_blockLoop (table : String) {size : Nat} {blocks : List Block}
    (hfit : ∀ block ∈ blocks, block.Fits size) {number : Numeral} (hnumber : number.value ≠ 0)
    (hbeyond : wordBound ≤ (number.value - 1) * size) (stats : BlockStats) :
    Rejects (PlanOf.loop (Plan.blockStep directory table size) (Takes.blockStep _ _ _) stats)
      (blocks.flatMap Block.bytes ++ number.spelling) (blocks.map (blockChange table size))
      (.refused (.protocol (.blockOffsetOverflow (number.value - 1) size))) := by
  induction blocks generalizing stats with
  | nil => exact .firstRound (rejects_blockStep table hnumber hbeyond stats)
  | cons block rest ih =>
      have hround : Reads (Plan.blockStep directory table size stats) block.bytes _ _ :=
        (archives_blockStep table (hfit block List.mem_cons_self) stats).reads
      have hloop := Rejects.round hround
        (ih (fun other hmem => hfit other (List.mem_cons_of_mem _ hmem)) _)
      exact hloop.congr (by simp) rfl

/-- So it is in a block chunk, with the data file open and the blocks before it written. -/
theorem rejects_blocks (table : String) {size : Numeral} (hsmall : size.value ≤ maxPayloadSize)
    {blocks : List Block} (hfit : ∀ block ∈ blocks, block.Fits size.value) {number : Numeral}
    (hnumber : number.value ≠ 0) (hbeyond : wordBound ≤ (number.value - 1) * size.value) :
    Rejects (Plan.blocks directory table)
      (size.spelling ++ (blocks.flatMap Block.bytes ++ number.spelling))
      (.openData table :: blocks.map (blockChange table size.value))
      (.refused (.protocol (.blockOffsetOverflow (number.value - 1) size.value))) := by
  have h : Rejects (Plan.blocks directory table)
      (size.spelling ++ ([] ++ ([] ++ (blocks.flatMap Block.bytes ++ number.spelling))))
      ([] ++ ([] ++ ([.openData table] ++ blocks.map (blockChange table size.value))))
      (.refused (.protocol (.blockOffsetOverflow (number.value - 1) size.value))) := by
    refine .bind (Reads.uint _ size) ?_
    rw [if_neg (Nat.not_lt.mpr hsmall)]
    exact .bind Reads.commit.reads
      (.bind (Reads.effect rfl rfl) (rejects_blockLoop table hfit hnumber hbeyond _))
  exact h

/-- What is refused after the tag of a chunk is refused with it. -/
theorem rejects_chunkStep_tagged {tag : UInt8} {changes : List Effect} {stop : Stop}
    (stats : ChunkStats) (h : Rejects (Plan.tagged directory tag) bytes changes stop) :
    Rejects (Plan.chunkStep directory stats) (tag :: bytes) changes stop := by
  have hstep : Rejects (Plan.chunkStep directory stats) ([tag] ++ bytes) ([] ++ changes) stop :=
    .bind (Reads.byte _ tag) (h.first _)
  exact hstep

/-- A chunk is refused at its offending field. -/
theorem rejects_chunkStep {changes : List Effect} {error : ProtocolError}
    (h : WrongChunk bytes changes error) (stats : ChunkStats) :
    Rejects (Plan.chunkStep directory stats) bytes changes (.refused (.protocol error)) := by
  have htable (table : TableField) : Reads Plan.table table.bytes [] table.name.text :=
    (archives_table table).reads
  cases h with
  | tag tag hunknown =>
      refine rejects_chunkStep_tagged stats ?_
      unfold Plan.tagged
      rw [hunknown]
      exact Rejects.refuse _
  | nameLength kind length hkind hlong =>
      exact rejects_chunkStep_tagged stats (rejects_tagged_table hkind (rejects_nameLength hlong))
  | name kind length letters error hkind hcounts hshort herror =>
      exact rejects_chunkStep_tagged stats
        (rejects_tagged_table hkind (rejects_name hcounts hshort herror))
  | letter table byte error herror =>
      exact rejects_chunkStep_tagged stats
        (.bind (htable table) ((rejects_letter _ herror).first _))
  | baseSize table letter size hlarge =>
      exact rejects_chunkStep_tagged stats
        (.bind (htable table) ((rejects_baseSize _ letter hlarge).first _))
  | blockSize table size hlarge =>
      exact rejects_chunkStep_tagged stats
        (.bind (htable table) ((rejects_blockSize _ hlarge).first _))
  | blockNumber table size blocks number hsmall hfit hnumber hbeyond =>
      exact rejects_chunkStep_tagged stats
        (.bind (htable table) ((rejects_blocks _ hsmall hfit hnumber hbeyond).first _))

/-- Chunks are refused at the offending field of the first wrong one. -/
theorem rejects_chunks (chunks : List Chunk) {changes : List Effect} {error : ProtocolError}
    (h : WrongChunk bytes changes error) (stats : ChunkStats) :
    Rejects (PlanOf.loop (Plan.chunkStep directory) (Takes.chunkStep _) stats)
      (chunks.flatMap Chunk.bytes ++ bytes) (chunks.flatMap chunkChanges ++ changes)
      (.refused (.protocol error)) := by
  induction chunks generalizing stats with
  | nil => exact .firstRound (rejects_chunkStep h stats)
  | cons chunk rest ih =>
      have hround : Reads (Plan.chunkStep directory stats) _ _ _ :=
        (archives_chunkStep chunk stats).reads
      have hloop := Rejects.round hround (ih _)
      exact hloop.congr (by simp) (by simp)

/-- A required revision before the end revision is refused. -/
theorem rejects_required {endRevision : Nat} {required : Numeral}
    (hearly : required.value < endRevision) :
    Rejects (Plan.required endRevision) required.spelling []
      (.refused (.protocol (.requiredRevisionTooEarly required.value endRevision))) := by
  have h : Rejects (Plan.required endRevision) (required.spelling ++ []) ([] ++ [])
      (.refused (.protocol (.requiredRevisionTooEarly required.value endRevision))) :=
    .bind (Reads.uint _ required) ((Rejects.require (Nat.not_le.mpr hearly) _).first _)
  exact h.congr (by simp) rfl

/-- A revision that is not accepted is refused whatever is ahead. -/
theorem rejects_revision {replicator : Replicator} {trusted : Bool} {startRevision : Nat}
    (h : ¬ replicator.Accepts trusted startRevision) :
    trusted = true ∧ ∃ error, (replicator.revisions replicator.directory = .error error ∨
        ∃ current, error = .protocol (.wrongRevision startRevision current)) ∧
      ∀ bytes, Rejects
        (Plan.revision replicator.directory replicator.revisions trusted startRevision) bytes []
        (.refused error) := by
  unfold Replicator.Accepts at h
  rw [Classical.not_imp] at h
  obtain ⟨htrusted, hother⟩ := h
  unfold Plan.revision
  rw [if_pos htrusted]
  cases hcurrent : replicator.revisions replicator.directory with
  | error error => exact ⟨htrusted, error, .inl rfl, fun _ _ _ => ⟨[], rfl, rfl⟩⟩
  | ok current =>
      have hwrong : ¬ current = startRevision := by
        rintro rfl
        exact hother hcurrent
      refine ⟨htrusted, _, .inr ⟨current, rfl⟩, fun _ _ _ => ⟨[], ?_, rfl⟩⟩
      simp only [Plan.require, if_neg hwrong]
      rfl

end

end Plan

section

variable {replicator : Replicator} {trusted : Bool} {bytes : Bytes} {preamble : Option Preamble}
  {changes : List Effect} {stage : Stage} {error : ProtocolError}

/-- What a changeset with this header asks for first. -/
def openingOf (preamble : Option Preamble) : List Effect :=
  preamble.toList.map fun header => .openArchive header.startRevision.value

/-- An apply that accepts the revision refuses a stream at its offending field. -/
theorem Offends.rejects (h : Offends bytes preamble changes stage error)
    (haccepts : ∀ header, preamble = some header →
      replicator.Accepts trusted header.startRevision.value) :
    PlanOf.Rejects (replicator.plan trusted) bytes (openingOf preamble ++ changes)
      { stage, stop := .refused (.protocol error) } := by
  cases h with
  | header hwrong => exact (((Plan.rejects_header hwrong).first _).during _).first _
  | chunk preamble chunks hwrong =>
      have h : PlanOf.Rejects (replicator.plan trusted)
          (preamble.bytes ++ ([] ++ (chunks.flatMap Chunk.bytes ++ _)))
          ([.openArchive preamble.startRevision.value] ++
            ([] ++ (chunks.flatMap Plan.chunkChanges ++ _))) _ :=
        .bind (.during (Plan.archives_opening preamble.bare).reads _)
          (.bind (.during (Plan.reads_revision (haccepts preamble rfl)) _)
            (.first (.during (Plan.rejects_chunks chunks hwrong {}) _) _))
      exact h
  | footer preamble chunks required hearly =>
      have hchunks : PlanOf.Reads (Plan.chunks replicator.directory) _ _ _ :=
        Plan.reads_chunkLoop chunks {}
      have h : PlanOf.Rejects (replicator.plan trusted)
          (preamble.bytes ++ ([] ++ ((chunks.flatMap Chunk.bytes ++ [tagByte .finish]) ++
            required.spelling)))
          ([.openArchive preamble.startRevision.value] ++
            ([] ++ (chunks.flatMap Plan.chunkChanges ++ []))) _ :=
        .bind (.during (Plan.archives_opening preamble.bare).reads _)
          (.bind (.during (Plan.reads_revision (haccepts preamble rfl)) _)
            (.bind (.during hchunks _) (.first (.during (Plan.rejects_required hearly) _) _)))
      exact h.congr (by simp) (by simp [openingOf])

end

end TableReplica.Apply
