import TableReplica.Proofs.Format.Grammar
import TableReplica.Proofs.Plan.Editing

/-!
# Changesets are read

A plan reads the pieces of a stream as the grammar lays them out: from any place where the bytes of
a piece are ahead it moves past them, asks for the changes of the piece, and archives what it passes
sooner or later. `Reads` says so, with one rule for each way of making a plan, and `Archives` says
that everything passed is archived when the value is given. `reads_stream` puts the pieces of a
changeset together.
-/

namespace TableReplica.Apply

open Files Transport Wire Format

/-- Whether an effect only fills the archive. -/
def Effect.fillsArchive : Effect → Bool
  | archive _ => true
  | _ => false

/-- The effects but for those that only fill the archive. -/
def changesOf (effects : List Effect) : List Effect :=
  effects.filter fun effect => !effect.fillsArchive

/-- Effects lead from one place to another: these bytes were passed, these changes asked for, and
everything passed was archived or is pending. -/
structure Passes (bytes : Bytes) (changes effects : List Effect) (before after : Position) :
    Prop where
  ahead : before.ahead = bytes ++ after.ahead
  changes_eq : changesOf effects = changes
  archived : allArchived effects ++ after.pending = before.pending ++ bytes
  committed : after.committed = before.committed + (allArchived effects).length

/-- Effects archive what the first of them archive and what the others do. -/
theorem allArchived_append (first second : List Effect) :
    allArchived (first ++ second) = allArchived first ++ allArchived second :=
  List.flatMap_append

/-- Their changes are those of the first and those of the others. -/
theorem changesOf_append (first second : List Effect) :
    changesOf (first ++ second) = changesOf first ++ changesOf second :=
  List.filter_append ..

namespace Passes

variable {bytes more : Bytes} {changes others effects next : List Effect}
  {before middle after : Position}

/-- Where nothing is passed nothing is asked for. -/
theorem nothing (position : Position) : Passes [] [] [] position position :=
  ⟨rfl, rfl, by simp [allArchived], rfl⟩

/-- What is passed in two parts is passed, one after the other. -/
theorem append (hfirst : Passes bytes changes effects before middle)
    (hsecond : Passes more others next middle after) :
    Passes (bytes ++ more) (changes ++ others) (effects ++ next) before after where
  ahead := by rw [hfirst.ahead, hsecond.ahead, List.append_assoc]
  changes_eq := by rw [changesOf_append, hfirst.changes_eq, hsecond.changes_eq]
  archived := by
    rw [allArchived_append, List.append_assoc, hsecond.archived, ← List.append_assoc,
      hfirst.archived, List.append_assoc]
  committed := by
    rw [hsecond.committed, hfirst.committed, allArchived_append, List.length_append, Nat.add_assoc]

/-- Where nothing is pending, nothing is after no bytes were passed. -/
theorem pending_eq_nil (h : Passes [] changes effects before after)
    (hbefore : before.pending = []) : after.pending = [] := by
  have harchived := h.archived
  rw [hbefore, List.append_nil] at harchived
  exact (List.append_eq_nil_iff.mp harchived).2

end Passes

namespace PlanOf

variable {ε α β σ : Type}

/-- A plan reads these bytes wherever they are ahead: it asks for the changes and gives the
value. -/
def Reads (plan : PlanOf ε α) (bytes : Bytes) (changes : List Effect) (value : α) : Prop :=
  ∀ before rest, before.ahead = bytes ++ rest → ∃ effects after,
    plan before = { effects, outcome := .ok (value, after) } ∧
      Passes bytes changes effects before after

namespace Reads

variable {bytes more : Bytes} {changes others : List Effect}

/-- A value that needs no bytes is read from none. -/
theorem pure (value : α) : Reads (Pure.pure value : PlanOf ε α) [] [] value :=
  fun before _ _ => ⟨[], before, rfl, .nothing before⟩

/-- A sequence reads the bytes of its parts, one after the other. -/
theorem bind {first : PlanOf ε α} {next : α → PlanOf ε β} {value : α} {result : β}
    (hfirst : Reads first bytes changes value) (hnext : Reads (next value) more others result) :
    Reads (first >>= next) (bytes ++ more) (changes ++ others) result := by
  intro before rest hahead
  rw [List.append_assoc] at hahead
  obtain ⟨effects, middle, hread, hpassed⟩ := hfirst before _ hahead
  have hmiddle : middle.ahead = more ++ rest :=
    List.append_cancel_left (hpassed.ahead.symm.trans hahead)
  obtain ⟨later, after, hrest, hpassing⟩ := hnext middle rest hmiddle
  exact ⟨effects ++ later, after, by rw [bind_of_ok hread, hrest], hpassed.append hpassing⟩

/-- The same bytes and changes may be put together in another way. -/
theorem congr {plan : PlanOf ε α} {value : α} (h : Reads plan bytes changes value)
    (hbytes : bytes = more) (hchanges : changes = others) : Reads plan more others value :=
  hbytes ▸ hchanges ▸ h

/-- A loop reads one round and then the others. -/
theorem round {body : σ → PlanOf ε (σ ⊕ α)} {htakes : ∀ state, Takes 1 (body state)}
    {state next : σ} {value : α} (hround : Reads (body state) bytes changes (.inl next))
    (hloop : Reads (loop body htakes next) more others value) :
    Reads (loop body htakes state) (bytes ++ more) (changes ++ others) value := by
  rw [loop_eq]
  exact hround.bind hloop

/-- A loop reads its last round. -/
theorem lastRound {body : σ → PlanOf ε (σ ⊕ α)} {htakes : ∀ state, Takes 1 (body state)}
    {state : σ} {value : α} (hround : Reads (body state) bytes changes (.inr value)) :
    Reads (loop body htakes state) bytes changes value := by
  rw [loop_eq]
  exact (hround.bind (.pure value)).congr (List.append_nil _) (List.append_nil _)

/-- Following a plan as a stage reads the same bytes. -/
theorem during {plan : Plan α} {value : α} (h : Reads plan bytes changes value) (stage : Stage) :
    Reads (plan.during stage) bytes changes value := by
  intro before rest hahead
  obtain ⟨effects, after, hread, hpassed⟩ := h before rest hahead
  refine ⟨effects, after, ?_, hpassed⟩
  rw [PlanOf.during, hread]
  rfl

end Reads

/-- A plan reads these bytes and leaves none of them pending. -/
def Archives (plan : PlanOf ε α) (bytes : Bytes) (changes : List Effect) (value : α) : Prop :=
  ∀ before rest, before.ahead = bytes ++ rest → ∃ effects after,
    plan before = { effects, outcome := .ok (value, after) } ∧
      Passes bytes changes effects before after ∧ after.pending = []

namespace Archives

variable {bytes more : Bytes} {changes others : List Effect}

/-- What is archived was read. -/
theorem reads {plan : PlanOf ε α} {value : α} (h : Archives plan bytes changes value) :
    Reads plan bytes changes value := by
  intro before rest hahead
  obtain ⟨effects, after, hread, hpassed, -⟩ := h before rest hahead
  exact ⟨effects, after, hread, hpassed⟩

/-- A sequence archives its bytes if its last part does. -/
theorem bind {first : PlanOf ε α} {next : α → PlanOf ε β} {value : α} {result : β}
    (hfirst : Reads first bytes changes value) (hnext : Archives (next value) more others result) :
    Archives (first >>= next) (bytes ++ more) (changes ++ others) result := by
  intro before rest hahead
  rw [List.append_assoc] at hahead
  obtain ⟨effects, middle, hread, hpassed⟩ := hfirst before _ hahead
  have hmiddle : middle.ahead = more ++ rest :=
    List.append_cancel_left (hpassed.ahead.symm.trans hahead)
  obtain ⟨later, after, hrest, hpassing, hpending⟩ := hnext middle rest hmiddle
  exact ⟨effects ++ later, after, by rw [bind_of_ok hread, hrest], hpassed.append hpassing,
    hpending⟩

/-- What passes no bytes leaves nothing pending where nothing was. -/
theorem quietly {first : PlanOf ε α} {next : α → PlanOf ε β} {value : α} {result : β}
    (hfirst : Archives first bytes changes value) (hnext : Reads (next value) [] others result) :
    Archives (first >>= next) bytes (changes ++ others) result := by
  intro before rest hahead
  obtain ⟨effects, middle, hread, hpassed, hpending⟩ := hfirst before rest hahead
  obtain ⟨later, after, hrest, hpassing⟩ := hnext middle middle.ahead rfl
  refine ⟨effects ++ later, after, by rw [bind_of_ok hread, hrest], ?_,
    hpassing.pending_eq_nil hpending⟩
  exact List.append_nil bytes ▸ hpassed.append hpassing

/-- The same bytes and changes may be put together in another way. -/
theorem congr {plan : PlanOf ε α} {value : α} (h : Archives plan bytes changes value)
    (hbytes : bytes = more) (hchanges : changes = others) : Archives plan more others value :=
  hbytes ▸ hchanges ▸ h

/-- A loop reads one round and then the others. -/
theorem round {body : σ → PlanOf ε (σ ⊕ α)} {htakes : ∀ state, Takes 1 (body state)}
    {state next : σ} {value : α} (hround : Reads (body state) bytes changes (.inl next))
    (hloop : Archives (loop body htakes next) more others value) :
    Archives (loop body htakes state) (bytes ++ more) (changes ++ others) value := by
  rw [loop_eq]
  exact .bind hround hloop

/-- A loop reads its last round. -/
theorem lastRound {body : σ → PlanOf ε (σ ⊕ α)} {htakes : ∀ state, Takes 1 (body state)}
    {state : σ} {value : α} (hround : Archives (body state) bytes changes (.inr value)) :
    Archives (loop body htakes state) bytes changes value := by
  rw [loop_eq]
  exact (hround.quietly (.pure value)).congr rfl (List.append_nil _)

/-- Following a plan as a stage archives the same bytes. -/
theorem during {plan : Plan α} {value : α} (h : Archives plan bytes changes value)
    (stage : Stage) : Archives (plan.during stage) bytes changes value := by
  intro before rest hahead
  obtain ⟨effects, after, hread, hpassed, hpending⟩ := h before rest hahead
  refine ⟨effects, after, ?_, hpassed, hpending⟩
  rw [PlanOf.during, hread]
  rfl

end Archives

end PlanOf

/-- Whether an apply accepts a changeset for this revision: always, unless the replica is trusted
and is not known to be at it. -/
def Replicator.Accepts (replicator : Replicator) (trusted : Bool) (startRevision : Nat) : Prop :=
  trusted = true → replicator.revisions replicator.directory = .ok startRevision

/-- An apply that is not trusted takes any start revision. -/
theorem Replicator.accepts_untrusted (replicator : Replicator) (startRevision : Nat) :
    replicator.Accepts false startRevision := by
  intro htrusted
  cases htrusted

namespace Plan

open PlanOf (Archives Reads)

variable {α : Type} {bytes : Bytes}

namespace Reads

/-- A field that gives a value for its bytes is read. -/
theorem field {verdict : Verdict α} {value : α}
    (h : ∀ rest, verdict (bytes ++ rest) = .ok (value, bytes.length)) :
    Reads (Plan.field verdict) bytes [] value := by
  intro before rest hahead
  refine ⟨[], before.advance bytes.length, ?_, ?_⟩
  · rw [Plan.field, hahead, h]
    rfl
  · constructor <;> simp [Position.advance, hahead, allArchived, changesOf]

/-- A numeral is read as its value. -/
theorem uint (what : String) (numeral : Numeral) :
    Reads (Plan.field (.uint what)) numeral.spelling [] numeral.value := by
  refine field fun rest => ?_
  rw [Verdict.uint, Verdict.ofDecoder, numeral.unpack_append]

/-- A byte is read as itself. -/
theorem byte (what : String) (byte : UInt8) : Reads (Plan.field (.byte what)) [byte] [] byte :=
  field fun _ => rfl

/-- The magic bytes are recognized. -/
theorem magic : Reads (Plan.field .magic) Wire.magic [] () :=
  field fun _ => if_pos (List.prefix_append _ _)

/-- A string is read whose length says how many bytes follow, if they are no more than allowed. -/
theorem counted (what : String) {max : Nat} (hmax : max + 10 < wordBound) {length : Numeral}
    {content : Bytes} (hcounts : length.value = content.length) (hshort : content.length ≤ max) :
    Reads (Plan.field (.string what max)) (length.spelling ++ content) [] content := by
  refine field fun rest => ?_
  have hread : unpackUint (length.spelling ++ content ++ rest) =
      .value content.length length.spelling.length := by
    rw [List.append_assoc, length.unpack_append, hcounts]
  have hexcess : Cursor.excess? max (length.spelling ++ content ++ rest) = none := by
    simp only [Cursor.excess?, hread]
    exact if_neg (Nat.not_lt.mpr hshort)
  -- A spelling is short, so adding the lengths does not overflow.
  have hword : ¬ wordBound ≤ length.spelling.length + content.length := by
    have hspelling := length.spelling_length_le
    omega
  have hcontent : ((length.spelling ++ content ++ rest).drop length.spelling.length).take
      content.length = content := by
    rw [List.append_assoc, List.drop_left, List.take_left]
  rw [Verdict.string, hexcess]
  simp only [Verdict.ofDecoder, unpackString, hread, if_neg hword]
  rw [if_pos (by simp), hcontent, List.length_append]

/-- A table name is short enough for its string to be read. -/
theorem string (what : String) (table : TableField) :
    Reads (Plan.field (.string what maxTableNameSize)) table.bytes [] table.name.letters :=
  counted what (by decide) table.counts table.name.short

/-- Asking for a change needs no bytes. -/
theorem effect {effect : Effect} (hkept : effect.fillsArchive = false)
    (hbytes : effect.archivedBytes = []) : Reads (Plan.effect effect) [] [effect] () := by
  intro before rest hahead
  refine ⟨[effect], before, rfl, hahead ▸ rfl, ?_, ?_, ?_⟩ <;>
    simp [changesOf, allArchived, hkept, hbytes]

/-- A requirement that holds needs no bytes. -/
theorem require {condition : Prop} [Decidable condition] (h : condition) (error : ProtocolError) :
    Reads (Plan.require condition error) [] [] () := by
  rw [Plan.require, if_pos h]
  exact .pure ()

/-- Nor does a demand that is met. -/
theorem demand {outcome : Except ProtocolError α} {value : α} (h : outcome = .ok value) :
    Reads (Plan.demand outcome) [] [] value := by
  rw [h]
  exact .pure value

/-- Committing archives what is pending. -/
theorem passes_commit (before : Position) :
    Passes [] [] (Plan.commit before).effects before before.commit := by
  unfold Plan.commit
  by_cases hpending : before.pending = [] <;>
    constructor <;>
    simp [hpending, changesOf, allArchived, Position.commit, Effect.fillsArchive,
      Effect.archivedBytes]

/-- Archiving leaves nothing pending. -/
theorem commit : Archives Plan.commit [] [] () :=
  fun before _ _ => ⟨_, before.commit, rfl, passes_commit before, rfl⟩

/-- Bytes that are taken go to the archive behind what was pending. -/
theorem take (what : String) (content : Bytes) :
    Archives (Plan.take what content.length) content [] content := by
  intro before rest hahead
  have henough : content.length ≤ before.commit.ahead.length := by
    simp [Position.commit, hahead]
  have hcontent : before.commit.ahead.take content.length = content := by
    simp [Position.commit, hahead]
  have htaken : Passes content [] [.archive content] before.commit
      (before.commit.take content.length) := by
    constructor <;>
      simp [Position.take, Position.commit, hahead, allArchived, changesOf, Effect.archivedBytes,
        Effect.fillsArchive]
  refine ⟨(Plan.commit before).effects ++ [.archive content], _, ?_,
    (passes_commit before).append htaken, rfl⟩
  have hcommit : Plan.commit before = ⟨(Plan.commit before).effects, .ok ((), before.commit)⟩ := rfl
  rw [Plan.take, PlanOf.bind_of_ok hcommit, Plan.takeAhead, if_pos henough, hcontent]

end Reads

section

variable {directory : Path}

/-- A table name is read and archived. -/
theorem archives_table (table : TableField) :
    Archives Plan.table table.bytes [] table.name.text := by
  have h : Archives Plan.table (table.bytes ++ ([] ++ [])) ([] ++ ([] ++ ([] ++ [])))
      table.name.text :=
    .bind (Reads.string _ table) (.bind (Reads.demand table.name.parse_letters)
      (.quietly Reads.commit (.pure _)))
  exact h.congr (by simp) rfl

/-- The letter and the payload of a base file are read and archived, and the base file is replaced.
-/
theorem archives_baseFile (table : String) (letter : BaseLetter) (payload : Payload) :
    Archives (Plan.baseFile table) (letterByte letter :: payload.bytes)
      [.replaceBase table letter payload.content] payload.size.value := by
  have hcontent : Archives (Plan.take "base file contents" payload.size.value) payload.content []
      payload.content := by
    rw [payload.counts]
    exact Reads.take _ _
  have h : Archives (Plan.baseFile table)
      ([letterByte letter] ++ ([] ++ (payload.size.spelling ++ payload.content)))
      ([] ++ ([] ++ ([] ++ ([] ++ ([.replaceBase table letter payload.content] ++ [])))))
      payload.size.value := by
    refine .bind (Reads.byte _ _) (.bind (Reads.demand (ofByte_letterByte letter))
      (.bind (Reads.uint _ payload.size) ?_))
    rw [if_neg (Nat.not_lt.mpr payload.small)]
    exact hcontent.quietly (.bind (Reads.effect rfl rfl) (.pure _))
  exact h.congr (by simp [Payload.bytes]) rfl

/-- What a block asks for. -/
def blockChange (table : String) (size : Nat) (block : Block) : Effect :=
  .writeBlock table (block.offset size) block.content

/-- A round reads a block that fits, archives it and has it written. -/
theorem archives_blockStep (table : String) {size : Nat} {block : Block} (hfits : block.Fits size)
    (stats : BlockStats) :
    Archives (Plan.blockStep directory table size stats) block.bytes [blockChange table size block]
      (.inl { blocks := stats.blocks + 1, bytes := stats.bytes + size }) := by
  obtain ⟨index, hindex⟩ := Nat.exists_eq_succ_of_ne_zero hfits.numbered
  have hoffset : index * size = block.offset size := by simp [Block.offset, hindex]
  have hwithin : ¬ offsetBound ≤ block.offset size := Nat.not_le.mpr hfits.within
  -- Where a file can be written a word can count.
  have hword : ¬ wordBound ≤ block.offset size := by
    have hbounds : offsetBound ≤ wordBound := by decide
    omega
  have hcontent : Archives (Plan.take "block contents" size) block.content [] block.content :=
    hfits.whole ▸ Reads.take "block contents" block.content
  have hblock : Reads (Plan.block directory table (block.offset size) block.content) []
      [blockChange table size block] () := by
    rw [Plan.block, if_neg hwithin]
    exact Reads.effect rfl rfl
  have hnumbered : Archives (Plan.numbered directory table size block.number.value) block.content
      ([] ++ ([blockChange table size block] ++ [])) true := by
    rw [hindex, Plan.numbered]
    simp only [hoffset, if_neg hword]
    exact hcontent.quietly (.bind hblock (.pure _))
  have h : Archives (Plan.blockStep directory table size stats)
      (block.number.spelling ++ block.content)
      ([] ++ (([] ++ ([blockChange table size block] ++ [])) ++ []))
      (.inl { blocks := stats.blocks + 1, bytes := stats.bytes + size }) :=
    .bind (Reads.uint _ block.number) (hnumbered.quietly (.pure _))
  exact h

/-- The number that is zero ends the blocks. -/
theorem archives_lastBlock (table : String) (size : Nat) {last : Numeral} (hlast : last.value = 0)
    (stats : BlockStats) :
    Archives (Plan.blockStep directory table size stats) last.spelling [] (.inr stats) := by
  have hnumbered :
      Archives (Plan.numbered directory table size last.value) [] ([] ++ []) false := by
    rw [hlast]
    exact Reads.commit.quietly (.pure _)
  have h : Archives (Plan.blockStep directory table size stats) (last.spelling ++ [])
      ([] ++ (([] ++ []) ++ [])) (.inr stats) :=
    .bind (Reads.uint _ last) (hnumbered.quietly (.pure _))
  exact h.congr (by simp) rfl

/-- The rounds read all blocks, up to the number that is zero. -/
theorem archives_blockLoop (table : String) {size : Nat} {blocks : List Block}
    (hfit : ∀ block ∈ blocks, block.Fits size) {last : Numeral} (hlast : last.value = 0)
    (stats : BlockStats) :
    Archives (PlanOf.loop (Plan.blockStep directory table size) (Takes.blockStep _ _ _) stats)
      (blocks.flatMap Block.bytes ++ last.spelling) (blocks.map (blockChange table size))
      { blocks := stats.blocks + blocks.length, bytes := stats.bytes + blocks.length * size } := by
  induction blocks generalizing stats with
  | nil =>
      simp only [List.length_nil, Nat.add_zero, Nat.zero_mul]
      exact .lastRound (archives_lastBlock table size hlast stats)
  | cons block rest ih =>
      have hround : Reads (Plan.blockStep directory table size stats) block.bytes _ _ :=
        (archives_blockStep table (hfit block List.mem_cons_self) stats).reads
      have hstats : ({ blocks := stats.blocks + (block :: rest).length
                       bytes := stats.bytes + (block :: rest).length * size } : BlockStats) =
          { blocks := stats.blocks + 1 + rest.length
            bytes := stats.bytes + size + rest.length * size } := by
        simp only [List.length_cons, Nat.succ_mul, BlockStats.mk.injEq]
        omega
      rw [hstats]
      have hloop := Archives.round hround
        (ih (fun other hmem => hfit other (List.mem_cons_of_mem _ hmem)) _)
      exact hloop.congr (by simp) rfl

/-- A run of blocks is read and archived, and all its blocks are written in order. -/
theorem archives_blocks (table : String) (run : BlockRun) :
    Archives (Plan.blocks directory table) run.bytes
      (.openData table :: run.blocks.map (blockChange table run.size.value))
      { blocks := run.blocks.length, bytes := run.blocks.length * run.size.value } := by
  have hloop : Archives (PlanOf.loop (Plan.blockStep directory table run.size.value)
      (Takes.blockStep _ _ _) {}) (run.blocks.flatMap Block.bytes ++ run.last.spelling)
      (run.blocks.map (blockChange table run.size.value)) { blocks := 0 + _, bytes := 0 + _ } :=
    archives_blockLoop table run.fit run.ends {}
  rw [Nat.zero_add, Nat.zero_add] at hloop
  have h : Archives (Plan.blocks directory table)
      (run.size.spelling ++ ([] ++ ([] ++ (run.blocks.flatMap Block.bytes ++ run.last.spelling))))
      ([] ++ ([] ++ ([.openData table] ++ run.blocks.map (blockChange table run.size.value))))
      { blocks := run.blocks.length, bytes := run.blocks.length * run.size.value } := by
    refine .bind (Reads.uint _ run.size) ?_
    rw [if_neg (Nat.not_lt.mpr run.small)]
    exact .bind Reads.commit.reads (.bind (Reads.effect rfl rfl) hloop)
  exact h

/-- What a chunk asks for. -/
def chunkChanges : Chunk → List Effect
  | .baseFile table letter payload => [.replaceBase table.name.text letter payload.content]
  | .blocks table run =>
    .openData table.name.text :: run.blocks.map (blockChange table.name.text run.size.value)

/-- A chunk is read after its tag, and counted. -/
theorem archives_chunkStep (chunk : Chunk) (stats : ChunkStats) :
    Archives (Plan.chunkStep directory stats) chunk.bytes (chunkChanges chunk)
      (.inl { baseFiles := stats.baseFiles + if chunk.isBaseFile then 1 else 0
              blocks := stats.blocks + chunk.blockCount }) := by
  cases chunk with
  | baseFile table letter payload =>
      have htagged : Archives (Plan.tagged directory (tagByte .baseFile)) (table.bytes ++ _)
          ([] ++ (chunkChanges (.baseFile table letter payload) ++ []))
          (some { baseFiles := 1 }) :=
        .bind (archives_table table).reads
          ((archives_baseFile table.name.text letter payload).quietly (.pure _))
      have h : Archives (Plan.chunkStep directory stats) ([tagByte .baseFile] ++ _)
          ([] ++ (_ ++ [])) (.inl (stats.add { baseFiles := 1 })) :=
        .bind (Reads.byte _ _) (htagged.quietly (.pure _))
      exact h.congr (by simp [Chunk.bytes]) rfl
  | blocks table run =>
      have htagged : Archives (Plan.tagged directory (tagByte .blocks)) (table.bytes ++ run.bytes)
          ([] ++ (chunkChanges (.blocks table run) ++ []))
          (some { blocks := run.blocks.length }) :=
        .bind (archives_table table).reads
          ((archives_blocks table.name.text run).quietly (.pure _))
      have h : Archives (Plan.chunkStep directory stats) ([tagByte .blocks] ++ _)
          ([] ++ (_ ++ [])) (.inl (stats.add { blocks := run.blocks.length })) :=
        .bind (Reads.byte _ _) (htagged.quietly (.pure _))
      exact h.congr (by simp [Chunk.bytes]) (by simp)

/-- The tag that is zero ends the chunks. -/
theorem reads_lastTag (stats : ChunkStats) :
    Reads (Plan.chunkStep directory stats) [tagByte .finish] [] (.inr stats) := by
  have h : Reads (Plan.chunkStep directory stats) ([tagByte .finish] ++ ([] ++ []))
      ([] ++ ([] ++ [])) (.inr stats) :=
    .bind (Reads.byte _ _) (.bind (Reads.pure (none : Option ChunkStats)) (.pure _))
  exact h

/-- The rounds read all chunks, up to the tag that ends them. -/
theorem reads_chunkLoop (chunks : List Chunk) (stats : ChunkStats) :
    Reads (PlanOf.loop (Plan.chunkStep directory) (Takes.chunkStep _) stats)
      (chunks.flatMap Chunk.bytes ++ [tagByte .finish]) (chunks.flatMap chunkChanges)
      { baseFiles := stats.baseFiles + chunks.countP Chunk.isBaseFile
        blocks := stats.blocks + (chunks.map Chunk.blockCount).sum } := by
  induction chunks generalizing stats with
  | nil => exact .lastRound (reads_lastTag stats)
  | cons chunk rest ih =>
      have hstats : ({ baseFiles := stats.baseFiles + (chunk :: rest).countP Chunk.isBaseFile
                       blocks := stats.blocks + ((chunk :: rest).map Chunk.blockCount).sum } :
            ChunkStats) =
          { baseFiles := stats.baseFiles + (if chunk.isBaseFile then 1 else 0) +
              rest.countP Chunk.isBaseFile
            blocks := stats.blocks + chunk.blockCount + (rest.map Chunk.blockCount).sum } := by
        simp only [List.countP_cons, List.map_cons, List.sum_cons, ChunkStats.mk.injEq]
        omega
      rw [hstats]
      have hround : Reads (Plan.chunkStep directory stats) _ _ _ :=
        (archives_chunkStep chunk stats).reads
      have hloop := hround.round (ih _)
      exact hloop.congr (by simp) (by simp)

end

/-- The header of a changeset. -/
def headerOf (stream : Stream) : Header where
  version := stream.version.value
  startRevision := stream.startRevision.value
  endRevision := stream.endRevision.value

/-- The header is read and archived. -/
theorem archives_opening (stream : Stream) :
    Archives Plan.opening (magic ++ (stream.version.spelling ++ (stream.startRevision.spelling ++
        (stream.endRevision.spelling ++ [durableKind]))))
      [.openArchive stream.startRevision.value] (headerOf stream) := by
  have hheader : Reads Plan.header (magic ++ (stream.version.spelling ++ ([] ++
      (stream.startRevision.spelling ++ (stream.endRevision.spelling ++ ([] ++ ([durableKind] ++
        ([] ++ [])))))))) ([] ++ ([] ++ ([] ++ ([] ++ ([] ++ ([] ++ ([] ++ ([] ++ []))))))))
      (headerOf stream) :=
    .bind Reads.magic (.bind (Reads.uint _ stream.version)
      (.bind (Reads.require stream.supported _) (.bind (Reads.uint _ stream.startRevision)
        (.bind (Reads.uint _ stream.endRevision) (.bind (Reads.require stream.ordered _)
          (.bind (Reads.byte _ durableKind) (.bind (Reads.require rfl _) (.pure _))))))))
  have h : Archives Plan.opening (_ ++ ([] ++ []))
      (_ ++ ([.openArchive stream.startRevision.value] ++ ([] ++ []))) (headerOf stream) :=
    .bind hheader (.bind (Reads.effect rfl rfl) (.quietly Reads.commit (.pure _)))
  exact h.congr (by simp) rfl

/-- Checking a revision that is accepted changes nothing. -/
theorem reads_revision {replicator : Replicator} {trusted : Bool} {startRevision : Nat}
    (haccepts : replicator.Accepts trusted startRevision) :
    Reads (Plan.revision replicator.directory replicator.revisions trusted startRevision) [] []
      () := by
  unfold Plan.revision
  split
  · next htrusted =>
      rw [haccepts htrusted]
      exact Reads.require rfl _
  · exact .pure ()

/-- A required revision that is not too early is read. -/
theorem reads_required (stream : Stream) :
    Reads (Plan.required stream.endRevision.value) stream.required.spelling []
      stream.required.value := by
  have h : Reads (Plan.required stream.endRevision.value)
      (stream.required.spelling ++ ([] ++ [])) ([] ++ ([] ++ [])) stream.required.value :=
    .bind (Reads.uint _ stream.required) (.bind (Reads.require stream.later _) (.pure _))
  exact h.congr (by simp) rfl

end Plan

/-- What an apply has read at the end of a changeset. -/
def receiptOf (stream : Stream) : Receipt where
  header := Plan.headerOf stream
  stats := { baseFiles := stream.baseFiles, blocks := stream.blockCount }
  required := stream.required.value

/-- The changes that a changeset asks for. -/
def streamChanges (stream : Stream) : List Effect :=
  .openArchive stream.startRevision.value :: stream.chunks.flatMap Plan.chunkChanges

/-- An apply reads every changeset that it accepts to its end. -/
theorem Replicator.reads_stream (replicator : Replicator) {trusted : Bool} (stream : Stream)
    (haccepts : replicator.Accepts trusted stream.startRevision.value) :
    PlanOf.Reads (replicator.plan trusted) stream.bytes (streamChanges stream)
      (receiptOf stream) := by
  have hchunks : PlanOf.Reads (Plan.chunks replicator.directory) _ _
      { baseFiles := 0 + stream.baseFiles, blocks := 0 + stream.blockCount } :=
    Plan.reads_chunkLoop stream.chunks {}
  rw [Nat.zero_add, Nat.zero_add] at hchunks
  have h : PlanOf.Reads (replicator.plan trusted) (_ ++ ([] ++ (_ ++ (_ ++ []))))
      (_ ++ ([] ++ (_ ++ ([] ++ [])))) (receiptOf stream) :=
    .bind (.during (Plan.archives_opening stream).reads _)
      (.bind (.during (Plan.reads_revision haccepts) _)
        (.bind (.during hchunks _) (.bind (.during (Plan.reads_required stream) _) (.pure _))))
  exact h.congr (by simp [Stream.bytes]) (by simp [streamChanges])

end TableReplica.Apply
