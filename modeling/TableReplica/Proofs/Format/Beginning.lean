import TableReplica.Proofs.Format.Landmarks
import TableReplica.Proofs.Plan.Steadiness

/-!
# Plans come to their landmarks

A plan asks for what the bytes ahead ask for, however they go on. `Begins` says that its first
effects archive these bytes and make these changes; where the files refuse the next effect, it says
which one that is. With the rules here every landmark of a stream is one that the plan of an apply
begins with (`begins_landmark`).
-/

namespace TableReplica.Apply

open Files Transport Wire Format

namespace PlanOf

variable {ε α β σ : Type}

/-- With these bytes pending, a plan that has these bytes ahead starts by archiving all of them and
making the changes, and then asks for the effect that comes next, if one is given. -/
def Begins (pending : Bytes) (plan : PlanOf ε α) (bytes : Bytes) (changes : List Effect)
    (next : Option Effect) : Prop :=
  ∀ before rest, before.pending = pending → before.ahead = bytes ++ rest →
    ∃ done, done ++ next.toList <+: (plan before).effects ∧
      allArchived done = pending ++ bytes ∧ changesOf done = changes

/-- The first effect that a plan asks for, whatever is ahead. -/
def Asks (plan : PlanOf ε α) (effect : Effect) : Prop :=
  ∀ position, [effect] <+: (plan position).effects

/-- A sequence asks for what its first plan asks for. -/
theorem Asks.bind {first : PlanOf ε α} {effect : Effect} (h : Asks first effect)
    (next : α → PlanOf ε β) : Asks (first >>= next) effect :=
  fun position => (h position).trans (effects_prefix_bind first next position)

namespace Begins

variable {pending bytes more : Bytes} {changes others : List Effect} {next : Option Effect}

/-- Every plan begins with nothing. -/
theorem nothing (plan : PlanOf ε α) : Begins [] plan [] [] none :=
  fun _ _ _ _ => ⟨[], List.nil_prefix, rfl, rfl⟩

/-- A plan that asks for an effect first begins with it. -/
theorem asking {plan : PlanOf ε α} {effect : Effect} (h : Asks plan effect) :
    Begins [] plan [] [] (some effect) :=
  fun before _ _ _ => ⟨[], h before, rfl, rfl⟩

/-- A plan that archives what it reads begins with that. -/
theorem of_archives {plan : PlanOf ε α} {value : α} (h : Archives plan bytes changes value) :
    Begins pending plan bytes changes none := by
  intro before rest hpending hahead
  obtain ⟨effects, after, hread, hpassed, hnothing⟩ := h before rest hahead
  refine ⟨effects, ?_, ?_, hpassed.changes_eq⟩
  · rw [hread]
    simp
  · have harchived := hpassed.archived
    rwa [hnothing, List.append_nil, hpending] at harchived

/-- A sequence begins with what its first plan begins with. -/
theorem first {first : PlanOf ε α} (h : Begins pending first bytes changes next)
    (rest : α → PlanOf ε β) : Begins pending (first >>= rest) bytes changes next := by
  intro before last hpending hahead
  obtain ⟨done, hdone, harchived, hchanges⟩ := h before last hpending hahead
  exact ⟨done, hdone.trans (effects_prefix_bind first rest before), harchived, hchanges⟩

/-- A sequence whose first plan has read its bytes begins with these and with what comes next. -/
theorem goesOn {first : PlanOf ε α} {rest : α → PlanOf ε β} {value : α} {effects : List Effect}
    {before middle : Position} {last : Bytes}
    (hread : first before = { effects, outcome := .ok (value, middle) })
    (hpassed : Passes bytes changes effects before middle)
    (hahead : before.ahead = bytes ++ more ++ last)
    (hrest : Begins middle.pending (rest value) more others next) :
    ∃ done, done ++ next.toList <+: ((first >>= rest) before).effects ∧
      allArchived done = before.pending ++ (bytes ++ more) ∧
      changesOf done = changes ++ others := by
  rw [hpassed.ahead, List.append_assoc] at hahead
  obtain ⟨done, hdone, harchived, hchanges⟩ :=
    hrest middle last rfl (List.append_cancel_left hahead)
  refine ⟨effects ++ done, ?_, ?_, by rw [changesOf_append, hpassed.changes_eq, hchanges]⟩
  · rw [bind_of_ok hread, List.append_assoc]
    exact (List.prefix_append_right_inj _).mpr hdone
  · rw [allArchived_append, harchived, ← List.append_assoc, hpassed.archived, List.append_assoc]

/-- After a plan that reads its bytes a sequence goes on, whatever is pending then. -/
theorem bind {first : PlanOf ε α} {rest : α → PlanOf ε β} {value : α}
    (hfirst : Reads first bytes changes value)
    (hrest : ∀ pending, Begins pending (rest value) more others next) :
    Begins pending (first >>= rest) (bytes ++ more) (changes ++ others) next := by
  intro before last hpending hahead
  obtain ⟨effects, middle, hread, hpassed⟩ := hfirst before _ (hahead.trans (List.append_assoc ..))
  rw [← hpending]
  exact goesOn hread hpassed hahead (hrest _)

/-- After a plan that archives its bytes a sequence goes on with nothing pending. -/
theorem after {first : PlanOf ε α} {rest : α → PlanOf ε β} {value : α}
    (hfirst : Archives first bytes changes value)
    (hrest : Begins [] (rest value) more others next) :
    Begins pending (first >>= rest) (bytes ++ more) (changes ++ others) next := by
  intro before last hpending hahead
  obtain ⟨effects, middle, hread, hpassed, hnothing⟩ :=
    hfirst before _ (hahead.trans (List.append_assoc ..))
  rw [← hpending]
  exact goesOn hread hpassed hahead (hnothing ▸ hrest)

/-- After a plan that passes no bytes nothing is pending where nothing was. -/
theorem quietly {first : PlanOf ε α} {rest : α → PlanOf ε β} {value : α}
    (hfirst : Reads first [] changes value) (hrest : Begins [] (rest value) more others next) :
    Begins [] (first >>= rest) more (changes ++ others) next := by
  intro before last hpending hahead
  obtain ⟨effects, middle, hread, hpassed⟩ := hfirst before _ rfl
  have hnothing := hpassed.pending_eq_nil hpending
  have hbegun := goesOn hread hpassed hahead (hnothing ▸ hrest)
  rwa [hpending] at hbegun

/-- The same bytes and changes may be put together in another way. -/
theorem congr {plan : PlanOf ε α} (h : Begins pending plan bytes changes next)
    (hbytes : bytes = more) (hchanges : changes = others) :
    Begins pending plan more others next :=
  hbytes ▸ hchanges ▸ h

/-- Following a plan as a stage begins in the same way. -/
theorem during {plan : Plan α} (h : Begins pending plan bytes changes next) (stage : Stage) :
    Begins pending (plan.during stage) bytes changes next :=
  fun before rest hpending hahead => h before rest hpending hahead

end Begins

end PlanOf

namespace Plan

open PlanOf (Archives Asks Begins Reads)

variable {directory : Path} {pending : Bytes}

/-- Asking for an effect asks for it. -/
theorem asks_effect (effect : Effect) : Asks (Plan.effect effect) effect :=
  fun _ => List.prefix_rfl

/-- Whatever is taken next, what is pending is archived before. -/
theorem begins_take (what : String) (count : Nat) :
    Begins pending (Plan.take what count) [] [] none :=
  (Begins.of_archives Reads.commit).first _

/-- The letter and the size of a base file are archived before its contents are awaited. -/
theorem begins_sized (table : String) (letter : BaseLetter) {size : Numeral}
    (hsmall : size.value ≤ maxPayloadSize) :
    Begins pending (Plan.baseFile table) (letterByte letter :: size.spelling) [] none := by
  have h : Begins pending (Plan.baseFile table)
      ([letterByte letter] ++ ([] ++ (size.spelling ++ []))) ([] ++ ([] ++ ([] ++ []))) none := by
    refine .bind (Reads.byte _ _) fun _ => .bind (Reads.demand (ofByte_letterByte letter))
      fun _ => .bind (Reads.uint _ size) fun _ => ?_
    rw [if_neg (Nat.not_lt.mpr hsmall)]
    exact (begins_take _ _).first _
  exact h.congr (by simp) rfl

/-- The contents of a base file are archived before it is replaced. -/
theorem begins_contents (table : String) (letter : BaseLetter) (payload : Payload) :
    Begins pending (Plan.baseFile table) (letterByte letter :: payload.bytes) []
      (some (.replaceBase table letter payload.content)) := by
  have hcontent : Archives (Plan.take "base file contents" payload.size.value) payload.content []
      payload.content := by
    rw [payload.counts]
    exact Reads.take _ _
  have h : Begins pending (Plan.baseFile table)
      ([letterByte letter] ++ ([] ++ (payload.size.spelling ++ (payload.content ++ []))))
      ([] ++ ([] ++ ([] ++ ([] ++ [])))) (some (.replaceBase table letter payload.content)) := by
    refine .bind (Reads.byte _ _) fun _ => .bind (Reads.demand (ofByte_letterByte letter))
      fun _ => .bind (Reads.uint _ payload.size) fun _ => ?_
    rw [if_neg (Nat.not_lt.mpr payload.small)]
    exact .after hcontent (.asking ((asks_effect _).bind _))
  exact h.congr (by simp [Payload.bytes]) rfl

/-- After the number of a block its contents are awaited, unless it is out of all bounds. -/
theorem begins_numbered (table : String) {size number : Nat} (hnumber : number ≠ 0)
    (hword : (number - 1) * size < wordBound) :
    Begins pending (Plan.numbered directory table size number) [] [] none := by
  obtain ⟨index, rfl⟩ := Nat.exists_eq_succ_of_ne_zero hnumber
  rw [Nat.succ_eq_add_one, Nat.add_sub_cancel] at hword
  unfold Plan.numbered
  simp only [if_neg (Nat.not_le.mpr hword)]
  exact (begins_take _ _).first _

/-- The contents of a block are archived before it is written, or found to lie beyond what a file
can hold. -/
theorem begins_block (table : String) {size number : Nat} (hnumber : number ≠ 0)
    (hword : (number - 1) * size < wordBound) {content : Bytes} (hcontent : content.length = size) :
    Begins pending (Plan.numbered directory table size number) content [] none := by
  obtain ⟨index, rfl⟩ := Nat.exists_eq_succ_of_ne_zero hnumber
  rw [Nat.succ_eq_add_one, Nat.add_sub_cancel] at hword
  unfold Plan.numbered
  simp only [if_neg (Nat.not_le.mpr hword)]
  exact (Begins.of_archives (hcontent ▸ Reads.take "block contents" content)).first _

/-- What hangs over after the last block is archived. -/
theorem begins_hanging (table : String) {size : Nat} {hanging : Bytes}
    (hover : Overhang size hanging) (stats : BlockStats) :
    Begins [] (PlanOf.loop (Plan.blockStep directory table size) (Takes.blockStep _ _ _) stats)
      hanging [] none := by
  rw [PlanOf.loop_eq]
  refine .first ?_ _
  cases hover with
  | nothing => exact .nothing _
  | number number hnumber hword =>
      have h : Begins [] (Plan.blockStep directory table size stats) (number.spelling ++ [])
          ([] ++ []) none :=
        .bind (Reads.uint _ number) fun _ => (begins_numbered table hnumber hword).first _
      exact h.congr (by simp) rfl
  | beyond block hnumber hcontent _ hword =>
      have h : Begins [] (Plan.blockStep directory table size stats)
          (block.number.spelling ++ block.content) ([] ++ []) none :=
        .bind (Reads.uint _ block.number) fun _ =>
          (begins_block table hnumber hword hcontent).first _
      exact h

/-- Blocks are written, and what hangs over after them is archived. -/
theorem begins_blockLoop (table : String) {size : Nat} {blocks : List Block}
    (hfit : ∀ block ∈ blocks, block.Fits size) {hanging : Bytes} (hover : Overhang size hanging)
    (stats : BlockStats) :
    Begins [] (PlanOf.loop (Plan.blockStep directory table size) (Takes.blockStep _ _ _) stats)
      (blocks.flatMap Block.bytes ++ hanging) (blocks.map (blockChange table size)) none := by
  induction blocks generalizing stats with
  | nil => exact begins_hanging table hover stats
  | cons block rest ih =>
      have hround : Archives (Plan.blockStep directory table size stats) block.bytes _ _ :=
        archives_blockStep table (hfit block List.mem_cons_self) stats
      rw [PlanOf.loop_eq]
      have hloop : Begins [] (Plan.blockStep directory table size stats >>= Sum.elim (PlanOf.loop
          (Plan.blockStep directory table size) (Takes.blockStep _ _ _)) Pure.pure) _ _ _ :=
        .after hround (ih (fun other hmem => hfit other (List.mem_cons_of_mem _ hmem)) _)
      exact hloop.congr (by simp) rfl

/-- The size of blocks is archived before the data file is opened. -/
theorem begins_opening (table : String) {size : Numeral} (hsmall : size.value ≤ maxPayloadSize) :
    Begins pending (Plan.blocks directory table) size.spelling [] (some (.openData table)) := by
  have h : Begins pending (Plan.blocks directory table) (size.spelling ++ ([] ++ []))
      ([] ++ ([] ++ [])) (some (.openData table)) := by
    refine .bind (Reads.uint _ size) fun _ => ?_
    rw [if_neg (Nat.not_lt.mpr hsmall)]
    exact .after Reads.commit (.asking ((asks_effect _).bind _))
  exact h.congr (by simp) rfl

/-- A block chunk begins with the opening of the data file and with all its whole blocks. -/
theorem begins_blocks (table : String) {size : Numeral} (hsmall : size.value ≤ maxPayloadSize)
    {blocks : List Block} (hfit : ∀ block ∈ blocks, block.Fits size.value) {hanging : Bytes}
    (hover : Overhang size.value hanging) :
    Begins pending (Plan.blocks directory table)
      (size.spelling ++ (blocks.flatMap Block.bytes ++ hanging))
      (.openData table :: blocks.map (blockChange table size.value)) none := by
  have h : Begins pending (Plan.blocks directory table)
      (size.spelling ++ ([] ++ (blocks.flatMap Block.bytes ++ hanging)))
      ([] ++ ([] ++ ([.openData table] ++ blocks.map (blockChange table size.value)))) none := by
    refine .bind (Reads.uint _ size) fun _ => ?_
    rw [if_neg (Nat.not_lt.mpr hsmall)]
    exact .after Reads.commit
      (.quietly (Reads.effect rfl rfl) (begins_blockLoop table hfit hover _))
  exact h

/-- A chunk begins with its tag and its table name, and goes on from there. -/
theorem begins_tagged {kind : ChunkKind} {table : TableField} {rest : Bytes}
    {changes : List Effect} {next : Option Effect} (stats : ChunkStats)
    (htagged : ∀ pending, Begins pending (Plan.tagged directory (tagByte kind))
      (table.bytes ++ rest) changes next) :
    Begins pending (Plan.chunkStep directory stats) (tagByte kind :: (table.bytes ++ rest)) changes
      next := by
  have h : Begins pending (Plan.chunkStep directory stats)
      ([tagByte kind] ++ (table.bytes ++ rest)) ([] ++ changes) next :=
    .bind (Reads.byte _ _) fun pending => (htagged pending).first _
  exact h

variable {files : FileSystem} {bytes : Bytes} {changes : List Effect} {next : Option Effect}

/-- A chunk comes to its marks. -/
theorem begins_mark (hmark : Mark directory files bytes changes next) (stats : ChunkStats) :
    Begins [] (Plan.chunkStep directory stats) bytes changes next := by
  cases hmark with
  | nothing => exact .nothing _
  | named kind table hkind =>
      have htable : Archives Plan.table table.bytes [] table.name.text := archives_table table
      rw [← List.append_nil table.bytes]
      refine begins_tagged stats fun _ => ?_
      rw [List.append_nil]
      cases kind with
      | finish => exact absurd rfl hkind
      | baseFile => exact (Begins.of_archives htable).first _
      | blocks => exact (Begins.of_archives htable).first _
  | sized table letter size hsmall =>
      exact begins_tagged stats fun _ =>
        .after (archives_table table) ((begins_sized _ letter hsmall).first _)
  | kept table letter payload _ =>
      exact begins_tagged stats fun _ =>
        .after (archives_table table) ((begins_contents _ letter payload).first _)
  | closed table size hsmall _ =>
      exact begins_tagged stats fun _ =>
        .after (archives_table table) ((begins_opening _ hsmall).first _)
  | blocks table size blocks hsmall _ hfit hover =>
      exact begins_tagged stats fun _ =>
        .after (archives_table table) ((begins_blocks _ hsmall hfit hover).first _)

/-- Chunks are applied to their ends, and the next one comes to its marks. -/
theorem begins_chunks (chunks : List Chunk) (hmark : Mark directory files bytes changes next)
    (stats : ChunkStats) :
    Begins [] (PlanOf.loop (Plan.chunkStep directory) (Takes.chunkStep _) stats)
      (chunks.flatMap Chunk.bytes ++ bytes) (chunks.flatMap chunkChanges ++ changes) next := by
  rw [PlanOf.loop_eq]
  induction chunks generalizing stats with
  | nil => exact (begins_mark hmark stats).first _
  | cons chunk rest ih =>
      have hround : Archives (Plan.chunkStep directory stats) chunk.bytes _ _ :=
        archives_chunkStep chunk stats
      have hrest := ih { baseFiles := stats.baseFiles + if chunk.isBaseFile then 1 else 0
                         blocks := stats.blocks + chunk.blockCount }
      rw [← PlanOf.loop_eq] at hrest
      have hloop : Begins [] (Plan.chunkStep directory stats >>= Sum.elim (PlanOf.loop
          (Plan.chunkStep directory) (Takes.chunkStep _)) Pure.pure) _ _ _ :=
        .after hround hrest
      exact hloop.congr (by simp) (by simp)

end Plan

/-- An apply comes to every landmark of its stream. -/
theorem Replicator.begins_landmark {replicator : Replicator} {trusted : Bool} {files : FileSystem}
    {stream bytes : Bytes} {changes : List Effect} {next : Option Effect}
    (h : Landmark replicator.directory files (replicator.Accepts trusted) stream bytes changes
      next) :
    PlanOf.Begins [] (replicator.plan trusted) bytes changes next := by
  cases h with
  | opened preamble _ =>
      exact (PlanOf.Begins.of_archives ((Plan.archives_opening preamble.bare).during _)).first _
  | within preamble chunks haccepts _ hmark _ =>
      have hopening : PlanOf.Archives (Plan.opening.during .readingHeader) preamble.bytes
          [.openArchive preamble.startRevision.value] (Plan.headerOf preamble.bare) :=
        (Plan.archives_opening preamble.bare).during _
      have h : PlanOf.Begins [] (replicator.plan trusted) (preamble.bytes ++ _)
          ([.openArchive preamble.startRevision.value] ++ ([] ++ _)) next :=
        .after hopening (.quietly ((Plan.reads_revision haccepts).during _)
          (((Plan.begins_chunks chunks hmark {}).during _).first _))
      exact h

end TableReplica.Apply
