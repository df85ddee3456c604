import TableReplica.Proofs.Format.Grammar
import TableReplica.Proofs.Plan.Basic

/-!
# What is read is a changeset

A plan that gives a value has passed bytes which the grammar knows. `Parses` says what these bytes
are, with one rule for each way of making a plan; in the rule for a sequence the pieces passed so
far are put in front of those that come. An apply that reads to the end has passed a changeset
(`parses_stream`).
-/

namespace TableReplica.Apply

open Files Transport Wire Format

namespace PlanOf

variable {ε α β σ : Type}

/-- A plan that gives a value has passed bytes that spell it. -/
def Parses (plan : PlanOf ε α) (spells : α → Bytes → Prop) : Prop :=
  ∀ before value after, (plan before).outcome = .ok (value, after) →
    ∃ bytes, before.ahead = bytes ++ after.ahead ∧ spells value bytes

namespace Parses

/-- A value that needs no bytes is spelled by none. -/
theorem pure {value : α} {spells : α → Bytes → Prop} (h : spells value []) :
    Parses (Pure.pure value : PlanOf ε α) spells := by
  intro before _ after hread
  cases hread
  exact ⟨[], rfl, h⟩

/-- A sequence has passed the bytes of its first plan and those of the second after them. -/
theorem bind {first : PlanOf ε α} {next : α → PlanOf ε β} {spells : α → Bytes → Prop}
    {goal : β → Bytes → Prop} (hfirst : Parses first spells)
    (hnext : ∀ value bytes, spells value bytes →
      Parses (next value) fun result more => goal result (bytes ++ more)) :
    Parses (first >>= next) goal := by
  intro before result after h
  obtain ⟨value, middle, hread, hrest⟩ := bind_outcome_eq_ok h
  obtain ⟨bytes, hahead, hspells⟩ := hfirst _ _ _ hread
  obtain ⟨more, hmore, hgoal⟩ := hnext value bytes hspells _ _ _ hrest
  exact ⟨bytes ++ more, by rw [hahead, hmore, List.append_assoc], hgoal⟩

/-- Bytes that spell a value in one way spell it in every way that follows. -/
theorem mono {plan : PlanOf ε α} {spells goal : α → Bytes → Prop} (h : Parses plan spells)
    (himp : ∀ value bytes, spells value bytes → goal value bytes) : Parses plan goal := by
  intro before value after hread
  obtain ⟨bytes, hahead, hspells⟩ := h _ _ _ hread
  exact ⟨bytes, hahead, himp _ _ hspells⟩

/-- A loop has passed what its rounds have passed, one after the other. -/
theorem loop {body : σ → PlanOf ε (σ ⊕ α)} {htakes : ∀ state, Takes 1 (body state)}
    {goal : Bytes → Prop}
    (hbody : ∀ state, Parses (body state) fun round bytes =>
      match round with
      | .inl _ => ∀ more, goal more → goal (bytes ++ more)
      | .inr _ => goal bytes)
    (state : σ) : Parses (PlanOf.loop body htakes state) fun _ bytes => goal bytes := by
  intro before value after h
  fun_induction PlanOf.loop body htakes state before with
  | case1 state before next middle hround ih =>
      obtain ⟨bytes, hahead, hpassed⟩ := hbody state _ _ _ hround
      obtain ⟨more, hmore, hgoal⟩ := ih h
      exact ⟨bytes ++ more, by rw [hahead, hmore, List.append_assoc], hpassed _ hgoal⟩
  | case2 state before last middle hround =>
      cases h
      exact hbody state _ _ _ hround
  | case3 state before stop hround => cases h

/-- Following a plan as a stage passes the same bytes. -/
theorem during {plan : Plan α} {spells : α → Bytes → Prop} (h : Parses plan spells)
    (stage : Stage) : Parses (plan.during stage) spells := by
  intro before value after hread
  refine h before value after ?_
  unfold PlanOf.during at hread
  cases hplan : (plan before).outcome with
  | error stop => simp [hplan, Except.mapError] at hread
  | ok found => simpa [hplan, Except.mapError] using hread

end Parses

end PlanOf

namespace Plan

open PlanOf (Parses)

variable {α : Type}

namespace Parses

/-- A field that gave a value was looking at bytes that start with it. -/
theorem field {verdict : Verdict α} {spells : α → Bytes → Prop}
    (h : ∀ bytes value length, verdict bytes = .ok (value, length) →
      spells value (bytes.take length)) :
    Parses (Plan.field verdict) spells := by
  intro before value after hread
  unfold Plan.field at hread
  cases hverdict : verdict before.ahead with
  | error stop =>
      rw [hverdict] at hread
      cases hread
  | ok found =>
      rw [hverdict] at hread
      cases hread
      exact ⟨_, (List.take_append_drop found.2 before.ahead).symm, h _ _ _ hverdict⟩

/-- An integer that was read is spelled by the bytes that were passed. -/
theorem uint (what : String) : Parses (Plan.field (.uint what)) fun value bytes =>
    ∃ numeral : Numeral, numeral.value = value ∧ numeral.spelling = bytes := by
  refine field fun bytes value length h => ?_
  unfold Verdict.uint Verdict.ofDecoder at h
  split at h
  · next hunpack =>
      cases h
      exact exists_numeral hunpack
  · cases h
  · cases h

/-- A byte spells itself. -/
theorem byte (what : String) : Parses (Plan.field (.byte what)) fun value bytes =>
    bytes = [value] := by
  refine field fun bytes value length h => ?_
  cases bytes with
  | nil => cases h
  | cons first rest =>
      cases h
      rfl

/-- Only the magic bytes pass for the magic bytes. -/
theorem magic : Parses (Plan.field .magic) fun _ bytes => bytes = Wire.magic := by
  refine field fun bytes value length h => ?_
  unfold Verdict.magic at h
  split at h
  · next hmagic =>
      cases h
      exact (List.prefix_iff_eq_take.mp hmagic).symm
  · split at h <;> cases h

/-- A byte string is its length and as many bytes. -/
theorem string (what : String) (max : Nat) : Parses (Plan.field (.string what max))
    fun value bytes => value.length ≤ max ∧ ∃ length : Numeral, length.value = value.length ∧
      bytes = length.spelling ++ value := by
  refine field fun bytes value length h => ?_
  unfold Verdict.string at h
  split at h
  · cases h
  · next hexcess =>
      unfold Verdict.ofDecoder unpackString at h
      cases hunpack : unpackUint bytes with
      | needMore | malformed => simp [hunpack] at h
      | value size count =>
          simp only [Cursor.excess?, hunpack] at hexcess
          by_cases hover : wordBound ≤ count + size
          · simp [hunpack, hover] at h
          by_cases hwhole : count + size ≤ bytes.length
          · simp only [hunpack, if_neg hover, if_pos hwhole, Except.ok.injEq, Prod.mk.injEq] at h
            obtain ⟨rfl, rfl⟩ := h
            obtain ⟨numeral, hvalue, hspelling⟩ := exists_numeral hunpack
            -- The buffer holds the string, so what was taken is as long as its length says.
            have hsize : ((bytes.drop count).take size).length = size :=
              List.length_take_of_le (by rw [List.length_drop]; omega)
            refine ⟨?_, numeral, by rw [hvalue, hsize], by rw [hspelling, List.take_add]⟩
            rw [hsize]
            exact Nat.not_lt.mp fun hlong => by simp [hlong] at hexcess
          · simp [hunpack, hover, hwhole] at h

/-- What refuses has passed nothing. -/
theorem refuse (error : ReplicaError) {spells : α → Bytes → Prop} :
    Parses (Plan.refuse error : Plan α) spells :=
  fun _ _ _ h => nomatch h

/-- A demand that is met passes no bytes. -/
theorem demand (outcome : Except ProtocolError α) : Parses (Plan.demand outcome)
    fun value bytes => bytes = [] ∧ outcome = .ok value := by
  cases outcome with
  | error error => exact refuse _
  | ok value => exact .pure ⟨rfl, rfl⟩

/-- A requirement that is met passes no bytes, and holds. -/
theorem require (condition : Prop) [Decidable condition] (error : ProtocolError) :
    Parses (Plan.require condition error) fun _ bytes => bytes = [] ∧ condition := by
  unfold Plan.require
  split
  · next h => exact .pure ⟨rfl, h⟩
  · exact refuse _

/-- Asking for an effect passes no bytes. -/
theorem effect (effect : Effect) : Parses (Plan.effect effect) fun _ bytes => bytes = [] := by
  intro before value after h
  cases h
  exact ⟨[], rfl, rfl⟩

/-- Nor does archiving what is pending. -/
theorem commit : Parses Plan.commit fun _ bytes => bytes = [] := by
  intro before value after h
  cases h
  exact ⟨[], rfl, rfl⟩

/-- As many bytes are passed as were to be taken. -/
theorem take (what : String) (count : Nat) : Parses (Plan.take what count)
    fun value bytes => bytes = value ∧ value.length = count := by
  refine .bind commit fun _ _ hnothing before value after h => ?_
  cases hnothing
  unfold Plan.takeAhead at h
  split at h
  · next henough =>
      cases h
      refine ⟨_, (List.take_append_drop count before.ahead).symm, rfl, ?_⟩
      rw [List.length_take, Nat.min_eq_left henough]
  · cases h

end Parses

/-- Letters that are taken for the name of a table are one, with the length in front of them. -/
theorem exists_tableField {length : Numeral} {letters : Bytes} {table : String}
    (hcounts : length.value = letters.length) (hshort : letters.length ≤ maxTableNameSize)
    (hparse : parseTableName letters = .ok table) :
    ∃ field : TableField, field.name.text = table ∧ field.bytes = length.spelling ++ letters := by
  unfold parseTableName at hparse
  split at hparse
  · cases hparse
  · next hnamed =>
      split at hparse
      · next hlower =>
          cases hparse
          exact ⟨⟨length, ⟨letters, hnamed, hlower, hshort⟩, hcounts⟩, rfl, rfl⟩
      · cases hparse

/-- A table name that was read is a field of the grammar. -/
theorem parses_table : Parses Plan.table fun table bytes =>
    ∃ field : TableField, field.name.text = table ∧ field.bytes = bytes := by
  refine .bind (Parses.string _ _) fun letters bytes hname => .bind (Parses.demand _)
    fun table nothing hparse => .bind Parses.commit fun _ more hmore => .pure ?_
  obtain ⟨hshort, length, hcounts, rfl⟩ := hname
  obtain ⟨rfl, hparse⟩ := hparse
  cases hmore
  obtain ⟨field, hname, hbytes⟩ := exists_tableField hcounts hshort hparse
  exact ⟨field, hname, by simp [hbytes]⟩

/-- After its table a base file chunk has a letter and a payload. -/
theorem parses_baseFile (table : String) : Parses (Plan.baseFile table) fun _ bytes =>
    ∃ letter payload, bytes = letterByte letter :: Payload.bytes payload := by
  refine .bind (Parses.byte _) fun byte bytes hbyte => .bind (Parses.demand _)
    fun letter nothing hletter => .bind (Parses.uint _) fun size spelling hsize => ?_
  subst hbyte
  obtain ⟨rfl, hletter⟩ := hletter
  obtain ⟨size, rfl, rfl⟩ := hsize
  split
  · exact Parses.refuse _
  · next hsmall =>
      refine .bind (Parses.take _ _) fun content more hcontent => .bind (Parses.effect _)
        fun _ last hlast => .pure ?_
      obtain ⟨rfl, hlength⟩ := hcontent
      cases hlast
      refine ⟨letter, ⟨size, more, hlength.symm, Nat.not_lt.mp hsmall⟩, ?_⟩
      simp [letterByte_of_ofByte hletter, Payload.bytes]

section

variable (directory : Path)

/-- After its number a block has as many bytes as its chunk says, and a place in the file. -/
theorem parses_numbered (table : String) (size number : Nat) :
    Parses (Plan.numbered directory table size number) fun found bytes =>
      if found then number ≠ 0 ∧ bytes.length = size ∧ (number - 1) * size < offsetBound
      else number = 0 ∧ bytes = [] := by
  cases number with
  | zero =>
      refine .bind Parses.commit fun _ bytes hnothing => .pure ?_
      cases hnothing
      exact ⟨rfl, rfl⟩
  | succ index =>
      unfold Plan.numbered Plan.block
      simp only
      split
      · exact Parses.refuse _
      · refine .bind (Parses.take _ _) fun content bytes hcontent => ?_
        obtain ⟨rfl, hlength⟩ := hcontent
        split
        · -- A block beyond what a file can hold is refused, so nothing was parsed.
          exact .bind (Parses.refuse _ : Parses _ fun _ _ => False) fun _ _ h => h.elim
        · next hwithin =>
            refine .bind (Parses.effect _) fun _ more hmore => .pure ?_
            cases hmore
            exact ⟨Nat.succ_ne_zero _, by simpa using hlength, by simpa using hwithin⟩

/-- A round of blocks passes a block that fits, or the number that ends them. -/
theorem parses_blockStep (table : String) (size : Nat) (stats : BlockStats) :
    Parses (Plan.blockStep directory table size stats) fun round bytes =>
      match round with
      | .inl _ => ∃ block : Block, block.Fits size ∧ block.bytes = bytes
      | .inr _ => ∃ last : Numeral, last.value = 0 ∧ last.spelling = bytes := by
  refine .bind (Parses.uint _) fun value spelling hnumber =>
    .bind (parses_numbered directory table size value) fun found bytes hfound => .pure ?_
  obtain ⟨number, rfl, rfl⟩ := hnumber
  cases found with
  | true =>
      obtain ⟨hnumbered, hwhole, hwithin⟩ : number.value ≠ 0 ∧ _ := hfound
      exact ⟨⟨number, bytes⟩, ⟨hnumbered, hwhole, hwithin⟩, by simp [Block.bytes]⟩
  | false =>
      obtain ⟨hlast, rfl⟩ : number.value = 0 ∧ bytes = [] := hfound
      exact ⟨number, hlast, by simp⟩

/-- The blocks of a chunk all fit, and a number that is zero ends them. -/
theorem parses_blockLoop (table : String) (size : Nat) :
    Parses (PlanOf.loop (Plan.blockStep directory table size) (Takes.blockStep _ _ _) {})
      fun _ bytes => ∃ (blocks : List Block) (last : Numeral),
        (∀ block ∈ blocks, block.Fits size) ∧ last.value = 0 ∧
          blocks.flatMap Block.bytes ++ last.spelling = bytes := by
  refine .loop (fun stats => (parses_blockStep directory table size stats).mono
    fun round bytes h => ?_) _
  cases round with
  | inl next =>
      obtain ⟨block, hfits, rfl⟩ := h
      rintro _ ⟨blocks, last, hfit, hlast, rfl⟩
      exact ⟨block :: blocks, last, List.forall_mem_cons.mpr ⟨hfits, hfit⟩, hlast, by simp⟩
  | inr stats =>
      obtain ⟨last, hlast, rfl⟩ := h
      exact ⟨[], last, by simp, hlast, rfl⟩

/-- After its table a block chunk has a run of blocks. -/
theorem parses_blocks (table : String) : Parses (Plan.blocks directory table) fun _ bytes =>
    ∃ run : BlockRun, run.bytes = bytes := by
  refine .bind (Parses.uint _) fun value spelling hsize => ?_
  obtain ⟨size, rfl, rfl⟩ := hsize
  split
  · exact Parses.refuse _
  · next hsmall =>
      refine .bind Parses.commit fun _ nothing hnothing => .bind (Parses.effect _)
        fun _ none hnone => ?_
      cases hnothing
      cases hnone
      refine (parses_blockLoop directory table size.value).mono fun _ bytes h => ?_
      obtain ⟨blocks, last, hfit, hends, rfl⟩ := h
      exact ⟨⟨size, blocks, last, Nat.not_lt.mp hsmall, hfit, hends⟩, by simp [BlockRun.bytes]⟩

/-- A tag and what comes after it are a chunk, or the tag is the last one. -/
theorem parses_tagged (tag : UInt8) : Parses (Plan.tagged directory tag) fun found bytes =>
    match found with
    | some _ => ∃ chunk : Chunk, chunk.bytes = tag :: bytes
    | none => tag = tagByte .finish ∧ bytes = [] := by
  unfold Plan.tagged
  split
  · exact Parses.refuse _
  · next htag => exact .pure ⟨tagByte_of_ofByte? htag, rfl⟩
  · next htag =>
      refine .bind parses_table fun table bytes hname => .bind (parses_baseFile table)
        fun _ more hbase => .pure ?_
      obtain ⟨name, rfl, rfl⟩ := hname
      obtain ⟨letter, payload, rfl⟩ := hbase
      rw [tagByte_of_ofByte? htag]
      exact ⟨.baseFile name letter payload, by simp [Chunk.bytes]⟩
  · next htag =>
      refine .bind parses_table fun table bytes hname => .bind (parses_blocks directory table)
        fun _ more hblocks => .pure ?_
      obtain ⟨name, rfl, rfl⟩ := hname
      obtain ⟨run, rfl⟩ := hblocks
      rw [tagByte_of_ofByte? htag]
      exact ⟨.blocks name run, by simp [Chunk.bytes]⟩

/-- A round of chunks passes a chunk or the last tag. -/
theorem parses_chunkStep (stats : ChunkStats) :
    Parses (Plan.chunkStep directory stats) fun round bytes =>
      match round with
      | .inl _ => ∃ chunk : Chunk, chunk.bytes = bytes
      | .inr _ => bytes = [tagByte .finish] := by
  refine .bind (Parses.byte _) fun tag bytes htag =>
    .bind (parses_tagged directory tag) fun found more hfound => .pure ?_
  subst htag
  cases found with
  | none =>
      obtain ⟨rfl, rfl⟩ := hfound
      rfl
  | some more =>
      obtain ⟨chunk, hchunk⟩ := hfound
      exact ⟨chunk, by simp [hchunk]⟩

/-- The chunks are those of the grammar, with the last tag after them. -/
theorem parses_chunks : Parses (Plan.chunks directory) fun _ bytes =>
    ∃ chunks : List Chunk, chunks.flatMap Chunk.bytes ++ [tagByte .finish] = bytes := by
  refine .loop (fun stats => (parses_chunkStep directory stats).mono fun round bytes h => ?_) _
  cases round with
  | inl next =>
      obtain ⟨chunk, rfl⟩ := h
      rintro _ ⟨chunks, rfl⟩
      exact ⟨chunk :: chunks, by simp⟩
  | inr stats => exact ⟨[], h.symm⟩

end

/-- The header of a changeset as it is spelled, with the revision that it leads to. -/
def SpellsHeader (header : Header) (bytes : Bytes) : Prop :=
  ∃ version startRevision endRevision : Numeral, version.value = formatVersion ∧
    startRevision.value < endRevision.value ∧ endRevision.value = header.endRevision ∧
    magic ++ (version.spelling ++ (startRevision.spelling ++
      (endRevision.spelling ++ [durableKind]))) = bytes

/-- What passes for a header is spelled as one. -/
theorem parses_header : Parses Plan.header SpellsHeader := by
  refine .bind Parses.magic fun _ bytes hmagic => .bind (Parses.uint _)
    fun version spelling hversion => .bind (Parses.require _ _) fun _ nothing hsupported =>
      .bind (Parses.uint _) fun start opening hstart => .bind (Parses.uint _)
        fun last closing hend => .bind (Parses.require _ _) fun _ none hordered =>
          .bind (Parses.byte _) fun kind byte hkind => .bind (Parses.require _ _)
            fun _ rest hdurable => .pure ?_
  subst hmagic
  obtain ⟨version, rfl, rfl⟩ := hversion
  obtain ⟨startRevision, rfl, rfl⟩ := hstart
  obtain ⟨endRevision, rfl, rfl⟩ := hend
  obtain ⟨rfl, hsupported⟩ := hsupported
  obtain ⟨rfl, hordered⟩ := hordered
  obtain ⟨rfl, rfl⟩ := hdurable
  subst hkind
  exact ⟨version, startRevision, endRevision, hsupported, hordered, rfl, by simp⟩

/-- Opening the archive passes no more than the header. -/
theorem parses_opening : Parses Plan.opening SpellsHeader := by
  refine .bind parses_header fun header bytes hheader => .bind (Parses.effect _)
    fun _ nothing hnothing => .bind Parses.commit fun _ none hnone => .pure ?_
  cases hnothing
  cases hnone
  simpa using hheader

/-- The required revision is spelled as an integer that is not too early. -/
theorem parses_required (endRevision : Nat) : Parses (Plan.required endRevision) fun value bytes =>
    ∃ required : Numeral, required.value = value ∧ endRevision ≤ value ∧
      required.spelling = bytes := by
  refine .bind (Parses.uint _) fun value bytes hvalue => .bind (Parses.require _ _)
    fun _ nothing hlater => .pure ?_
  obtain ⟨required, rfl, rfl⟩ := hvalue
  obtain ⟨rfl, hlater⟩ := hlater
  exact ⟨required, rfl, hlater, by simp⟩

/-- The check of the revision passes no bytes. -/
theorem parses_revision (directory : Path) (revisions : RevisionReader) (trusted : Bool)
    (startRevision : Nat) : Parses (Plan.revision directory revisions trusted startRevision)
      fun _ bytes => bytes = [] := by
  unfold Plan.revision
  split
  · split
    · exact Parses.refuse _
    · exact (Parses.require _ _).mono fun _ _ h => h.1
  · exact .pure rfl

end Plan

/-- An apply that reads to its end has passed a changeset. -/
theorem Replicator.parses_stream (replicator : Replicator) (trusted : Bool) :
    PlanOf.Parses (replicator.plan trusted) fun _ bytes =>
      ∃ stream : Stream, stream.bytes = bytes := by
  refine .bind (.during Plan.parses_opening _) fun header bytes hheader =>
    .bind (.during (Plan.parses_revision _ _ _ _) _) fun _ nothing hnothing =>
      .bind (.during (Plan.parses_chunks _) _) fun stats more hchunks =>
        .bind (.during (Plan.parses_required _) _) fun value last hrequired => .pure ?_
  obtain ⟨version, startRevision, endRevision, hsupported, hordered, hend, rfl⟩ := hheader
  cases hnothing
  obtain ⟨chunks, rfl⟩ := hchunks
  obtain ⟨required, rfl, hlater, rfl⟩ := hrequired
  exact ⟨⟨version, startRevision, endRevision, chunks, required, hsupported, hordered,
    hend ▸ hlater⟩, by simp [Stream.bytes]⟩

end TableReplica.Apply
