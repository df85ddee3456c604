import TableReplica.Apply.Replicator
import TableReplica.Proofs.Stream.Field

/-!
# Plans

What an apply does to the files is settled by the bytes of its stream, up to the point where the
file system refuses something. A plan is an apply with the files left out: from a place in the
stream it gives its course, which is the effects that the bytes ask for, in order, and either the
value that was read or why nothing more could be. `Replicator.plan` is the plan of a whole apply.
Plans look neither at the files nor at the ending of the stream, nor at how the bytes arrive.
-/

namespace TableReplica.Apply

open Files Transport Wire

/-- A change that an apply makes to the files of its directory. -/
inductive Effect where
  /-- Start the archive of the changeset that applies to a revision. -/
  | openArchive (startRevision : Nat)
  /-- Append to the archive. -/
  | archive (data : Bytes)
  /-- Open the data file of a table, making an empty one if there is none. -/
  | openData (table : String)
  /-- Write a block to the data file of a table. -/
  | writeBlock (table : String) (offset : Nat) (block : Bytes)
  /-- Give a base file of a table new content. -/
  | replaceBase (table : String) (letter : BaseLetter) (content : Bytes)
  deriving Repr, DecidableEq

/-- What a plan comes to: the effects that were asked for, and the value that was read with the
place reached, or why nothing more could be read. -/
structure Course (ε α : Type) where
  effects : List Effect
  outcome : Except ε (α × Position)

/-- A course for every place in a stream, where `ε` tells why it stops. -/
def PlanOf (ε α : Type) := Position → Course ε α

/-- A plan that stops for want of bytes or because of wrong ones. -/
abbrev Plan (α : Type) := PlanOf Stop α

/-- Where and why the plan of an apply stops. -/
structure Halt where
  stage : Stage
  stop : Stop
  deriving Repr, DecidableEq

namespace PlanOf

variable {ε α β σ : Type}

/-- Read nothing and give a value. -/
def pure (value : α) : PlanOf ε α := fun position =>
  { effects := [], outcome := .ok (value, position) }

/-- Go on with the value that a plan reads. -/
def bind (first : PlanOf ε α) (next : α → PlanOf ε β) : PlanOf ε β := fun position =>
  match (first position).outcome with
  | .ok (value, after) =>
    { effects := (first position).effects ++ (next value after).effects
      outcome := (next value after).outcome }
  | .error stop => { effects := (first position).effects, outcome := .error stop }

instance : Monad (PlanOf ε) where
  pure := PlanOf.pure
  bind := PlanOf.bind

/-- A sequence goes on where its first plan read a value. -/
theorem bind_of_ok {first : PlanOf ε α} {position after : Position} {effects : List Effect}
    {value : α} (h : first position = { effects, outcome := .ok (value, after) })
    (next : α → PlanOf ε β) :
    (first >>= next) position =
      { effects := effects ++ (next value after).effects
        outcome := (next value after).outcome } := by
  show PlanOf.bind first next position = _
  simp [PlanOf.bind, h]

/-- A sequence stops where its first plan does. -/
theorem bind_of_error {first : PlanOf ε α} {position : Position} {effects : List Effect}
    {stop : ε} (h : first position = { effects, outcome := .error stop })
    (next : α → PlanOf ε β) :
    (first >>= next) position = { effects, outcome := .error stop } := by
  show PlanOf.bind first next position = _
  simp [PlanOf.bind, h]

/-- A sequence of plans reads a value just if each of them does. -/
theorem bind_outcome_eq_ok {first : PlanOf ε α} {next : α → PlanOf ε β} {position after : Position}
    {value : β} (h : ((first >>= next) position).outcome = .ok (value, after)) :
    ∃ read middle, (first position).outcome = .ok (read, middle) ∧
      (next read middle).outcome = .ok (value, after) := by
  change (PlanOf.bind first next position).outcome = _ at h
  unfold PlanOf.bind at h
  split at h
  · next read middle hfirst => exact ⟨read, middle, hfirst, h⟩
  · cases h

/-- Reading a value uses up at least `count` bytes. -/
def Takes (count : Nat) (plan : PlanOf ε α) : Prop :=
  ∀ position value after, (plan position).outcome = .ok (value, after) →
    after.ahead.length + count ≤ position.ahead.length

namespace Takes

/-- Giving a value uses up nothing. -/
theorem pure (value : α) : Takes 0 (Pure.pure value : PlanOf ε α) := by
  intro position _ after h
  cases h
  exact Nat.le_refl _

/-- A sequence uses up what its first plan does, and maybe more. -/
theorem bind {first : PlanOf ε α} {next : α → PlanOf ε β} {count : Nat}
    (hfirst : Takes count first) (hnext : ∀ value, Takes 0 (next value)) :
    Takes count (first >>= next) := by
  intro position value after h
  obtain ⟨read, middle, hread, hrest⟩ := bind_outcome_eq_ok h
  have hbefore := hfirst _ _ _ hread
  have hafter := hnext read _ _ _ hrest
  omega

/-- Whatever a plan uses up, it never gives bytes back. -/
theorem none {plan : PlanOf ε α} {count : Nat} (h : Takes count plan) : Takes 0 plan :=
  fun _ _ _ hread => Nat.le_trans (Nat.le_add_right _ _) (h _ _ _ hread)

end Takes

/-- Follow `body` from state to state until it gives a value. -/
def loop (body : σ → PlanOf ε (σ ⊕ α)) (htakes : ∀ state, Takes 1 (body state)) (state : σ) :
    PlanOf ε α := fun position =>
  match _h : (body state position).outcome with
  | .ok (.inl next, after) =>
    { effects := (body state position).effects ++ (loop body htakes next after).effects
      outcome := (loop body htakes next after).outcome }
  | .ok (.inr value, after) =>
    { effects := (body state position).effects, outcome := .ok (value, after) }
  | .error stop => { effects := (body state position).effects, outcome := .error stop }
termination_by position => position.ahead.length
decreasing_by all_goals exact htakes state _ _ _ _h

/-- One round of a loop comes before the others. -/
theorem loop_eq (body : σ → PlanOf ε (σ ⊕ α)) (htakes : ∀ state, Takes 1 (body state))
    (state : σ) :
    loop body htakes state = body state >>= Sum.elim (loop body htakes) Pure.pure := by
  funext position
  show _ = PlanOf.bind _ _ position
  rw [loop, PlanOf.bind]
  split
  · next h =>
      simp only [h]
      rfl
  · next h =>
      simp only [h]
      simp [Sum.elim, Pure.pure, PlanOf.pure]
  · next h => simp only [h]

/-- However often a loop goes round, it never gives bytes back. -/
theorem Takes.loop (body : σ → PlanOf ε (σ ⊕ α)) (htakes : ∀ state, Takes 1 (body state))
    (state : σ) : Takes 0 (loop body htakes state) := by
  intro position value after h
  fun_induction PlanOf.loop body htakes state position with
  | case1 state position next middle hround ih =>
      have hbefore := htakes state _ _ _ hround
      have hafter := ih h
      omega
  | case2 state position read middle hround =>
      cases h
      exact (htakes state).none _ _ _ hround
  | case3 state position stop hround => cases h

/-- Follow a plan as a stage of an apply. -/
def during (stage : Stage) (plan : Plan α) : PlanOf Halt α := fun position =>
  { effects := (plan position).effects
    outcome := (plan position).outcome.mapError fun stop => { stage, stop } }

end PlanOf

namespace Plan

variable {α : Type}

/-- Decode a field of the stream. -/
def field (verdict : Verdict α) : Plan α := fun position =>
  { effects := []
    outcome := (verdict position.ahead).map fun (value, length) =>
      (value, position.advance length) }

/-- Ask for an effect. -/
def effect (effect : Effect) : Plan Unit := fun position =>
  { effects := [effect], outcome := .ok ((), position) }

/-- Stop with an error, whatever is ahead. -/
def refuse (error : ReplicaError) : Plan α := fun _ =>
  { effects := [], outcome := .error (.refused error) }

/-- Go on with a value, or stop with a protocol error. -/
def demand : Except ProtocolError α → Plan α
  | .ok value => pure value
  | .error error => refuse (.protocol error)

/-- Stop with a protocol error unless the condition holds. -/
def require (condition : Prop) [Decidable condition] (error : ProtocolError) : Plan Unit :=
  if condition then pure () else refuse (.protocol error)

/-- Archive what was decoded. -/
def commit : Plan Unit := fun position =>
  { effects := if position.pending = [] then [] else [.archive position.pending]
    outcome := .ok ((), position.commit) }

/-- Archive the next `count` bytes and give them. -/
def takeAhead (what : String) (count : Nat) : Plan Bytes := fun position =>
  if count ≤ position.ahead.length then
    { effects := [.archive (position.ahead.take count)]
      outcome := .ok (position.ahead.take count, position.take count) }
  else { effects := [], outcome := .error (.truncated what) }

/-- Take exactly `count` bytes off the stream, after what was decoded before them. -/
def take (what : String) (count : Nat) : Plan Bytes := do
  commit
  takeAhead what count

/-- Read the header. -/
def header : Plan Header := do
  field .magic
  let version ← field (.uint "version number")
  require (version = formatVersion) (.unsupportedVersion version)
  let startRevision ← field (.uint "start revision")
  let endRevision ← field (.uint "end revision")
  require (startRevision < endRevision) (.revisionOrder startRevision endRevision)
  let kind ← field (.byte "changeset type")
  require (kind = durableKind) (.unsupportedKind kind)
  return { version, startRevision, endRevision, kind }

/-- Read the header, and start the archive with its bytes. -/
def opening : Plan Header := do
  let header ← header
  effect (.openArchive header.startRevision)
  commit
  return header

/-- Check that a trusted replica is at the revision that the changeset applies to. -/
def revision (directory : Path) (revisions : RevisionReader) (trusted : Bool)
    (startRevision : Nat) : Plan Unit :=
  if trusted then
    match revisions directory with
    | .error error => refuse error
    | .ok current => require (current = startRevision) (.wrongRevision startRevision current)
  else pure ()

/-- Read the table that a chunk is about. -/
def table : Plan String := do
  let table ← demand (parseTableName (← field (.string "tablename" maxTableNameSize)))
  commit
  return table

/-- Read a base file chunk after its table name. -/
def baseFile (table : String) : Plan Nat := do
  let letter ← demand (BaseLetter.ofByte (← field (.byte "base file letter")))
  let size ← field (.uint "base file size")
  if maxPayloadSize < size then
    refuse (.protocol (.payloadTooLarge "base file" size maxPayloadSize))
  else do
    let content ← take "base file contents" size
    effect (.replaceBase table letter content)
    return size

section

variable (directory : Path)

/-- Have a block written, unless it lies beyond the offsets of files. -/
def block (table : String) (offset : Nat) (block : Bytes) : Plan Unit :=
  if offsetBound ≤ offset then refuse (.storage .seek (dataFilePath directory table) .invalid)
  else effect (.writeBlock table offset block)

/-- Go on after a block number. The answer tells whether there was a block. -/
def numbered (table : String) (blockSize : Nat) : Nat → Plan Bool
  | 0 => do
    commit
    return false
  | index + 1 =>
    let offset := index * blockSize
    if wordBound ≤ offset then refuse (.protocol (.blockOffsetOverflow index blockSize))
    else do
      let content ← take "block contents" blockSize
      block directory table offset content
      return true

/-- Read a block number and go on after it, with the counts of the blocks before it. -/
def blockStep (table : String) (blockSize : Nat) (stats : BlockStats) :
    Plan (BlockStats ⊕ BlockStats) := do
  let found ← numbered directory table blockSize (← field (.uint "block number"))
  return if found then .inl { blocks := stats.blocks + 1, bytes := stats.bytes + blockSize }
    else .inr stats

end

open PlanOf (Takes)

namespace Takes

/-- A field uses up the bytes that spell it. -/
theorem field {verdict : Verdict α} {count : Nat}
    (h : ∀ {bytes value length}, verdict bytes = .ok (value, length) →
      count ≤ length ∧ length ≤ bytes.length) :
    Takes count (Plan.field verdict) := by
  intro position value after hread
  unfold Plan.field at hread
  cases hverdict : verdict position.ahead with
  | error stop =>
      rw [hverdict] at hread
      cases hread
  | ok found =>
      rw [hverdict] at hread
      cases hread
      have hbounds := h hverdict
      simp only [Position.advance, List.length_drop]
      omega

/-- An integer has a byte at least. -/
theorem uint (what : String) : Takes 1 (Plan.field (.uint what)) := by
  refine field fun {bytes value length} h => ?_
  unfold Verdict.uint Verdict.ofDecoder at h
  split at h
  · next hunpack =>
      cases h
      exact unpackUint_length hunpack
  · cases h
  · cases h

/-- A byte uses up one. -/
theorem byte (what : String) : Takes 1 (Plan.field (.byte what)) := by
  refine field fun {bytes value length} h => ?_
  cases bytes with
  | nil => cases h
  | cons first rest =>
      cases h
      exact ⟨Nat.le_refl _, Nat.succ_le_succ (Nat.zero_le _)⟩

/-- A string has the bytes that are there. -/
theorem string (what : String) (max : Nat) : Takes 0 (Plan.field (.string what max)) := by
  refine field fun {bytes value length} h => ⟨Nat.zero_le _, ?_⟩
  unfold Verdict.string Verdict.ofDecoder at h
  split at h
  · cases h
  · split at h
    · next hunpack =>
        cases h
        exact stable_unpackString.length_le hunpack
    · cases h
    · cases h

/-- What reads no value uses up as much as one likes. -/
theorem refuse (error : ReplicaError) {count : Nat} :
    Takes count (Plan.refuse error : Plan α) :=
  fun _ _ _ h => nomatch h

/-- A demand looks at what was read before. -/
theorem demand (outcome : Except ProtocolError α) : Takes 0 (Plan.demand outcome) := by
  cases outcome with
  | error error => exact refuse _
  | ok value => exact .pure value

/-- An effect uses up nothing. -/
theorem effect (effect : Effect) : Takes 0 (Plan.effect effect) := by
  intro position value after h
  cases h
  exact Nat.le_refl _

/-- Archiving looks back at what was decoded. -/
theorem commit : Takes 0 Plan.commit := by
  intro position value after h
  cases h
  exact Nat.le_refl _

/-- Bytes that are taken were there. -/
theorem takeAhead (what : String) (count : Nat) : Takes 0 (Plan.takeAhead what count) := by
  intro position value after h
  unfold Plan.takeAhead at h
  split at h
  · cases h
    simp only [Position.take, List.length_drop]
    omega
  · cases h

/-- So were those before which something was archived. -/
theorem take (what : String) (count : Nat) : Takes 0 (Plan.take what count) :=
  .bind commit fun _ => takeAhead what count

/-- A table name has the bytes that are there. -/
theorem table : Takes 0 Plan.table :=
  .bind (string _ _) fun _ => .bind (demand _) fun _ => .bind commit fun _ => .pure _

/-- A block is written after its contents were taken. -/
theorem block (directory : Path) (table : String) (offset : Nat) (content : Bytes) :
    Takes 0 (Plan.block directory table offset content) := by
  unfold Plan.block
  split
  · exact refuse _
  · exact effect _

/-- After its number a block has the bytes that are there. -/
theorem numbered (directory : Path) (table : String) (blockSize number : Nat) :
    Takes 0 (Plan.numbered directory table blockSize number) := by
  cases number with
  | zero => exact .bind commit fun _ => .pure _
  | succ index =>
      unfold Plan.numbered
      simp only
      split
      · exact refuse _
      · exact .bind (take _ _) fun _ => .bind (block _ _ _ _) fun _ => .pure _

/-- A block takes at least the byte of its number. -/
theorem blockStep (directory : Path) (table : String) (blockSize : Nat) (stats : BlockStats) :
    Takes 1 (Plan.blockStep directory table blockSize stats) :=
  .bind (uint _) fun _ => .bind (numbered _ _ _ _) fun _ => .pure _

end Takes

section

variable (directory : Path)

/-- Read a block chunk after its table name. -/
def blocks (table : String) : Plan BlockStats := do
  let blockSize ← field (.uint "blocksize")
  if maxPayloadSize < blockSize then
    refuse (.protocol (.payloadTooLarge "block" blockSize maxPayloadSize))
  else do
    commit
    effect (.openData table)
    PlanOf.loop (blockStep directory table blockSize) (Takes.blockStep _ _ _) {}

/-- Go on after the tag of a chunk. -/
def tagged (tag : UInt8) : Plan (Option ChunkStats) :=
  match ChunkKind.ofByte? tag with
  | none => refuse (.protocol (.unknownChunk tag))
  | some .finish => return none
  | some .baseFile => do
    let table ← table
    let _ ← baseFile table
    return some { baseFiles := 1 }
  | some .blocks => do
    let table ← table
    let stats ← blocks directory table
    return some { blocks := stats.blocks }

/-- Read a tag and go on after it, with the counts of the chunks before it. -/
def chunkStep (stats : ChunkStats) : Plan (ChunkStats ⊕ ChunkStats) := do
  return match ← tagged directory (← field (.byte "chunk type")) with
    | some more => .inl (stats.add more)
    | none => .inr stats

end

namespace Takes

/-- So has a base file after its table. -/
theorem baseFile (table : String) : Takes 0 (Plan.baseFile table) := by
  refine .bind (byte _).none fun _ => .bind (demand _) fun _ => .bind (uint _).none fun _ => ?_
  split
  · exact refuse _
  · exact .bind (take _ _) fun _ => .bind (effect _) fun _ => .pure _

/-- So have the blocks after their table. -/
theorem blocks (directory : Path) (table : String) : Takes 0 (Plan.blocks directory table) := by
  refine .bind (uint _).none fun _ => ?_
  split
  · exact refuse _
  · exact .bind commit fun _ => .bind (effect _) fun _ => .loop _ _ _

/-- So has a chunk after its tag. -/
theorem tagged (directory : Path) (tag : UInt8) : Takes 0 (Plan.tagged directory tag) := by
  unfold Plan.tagged
  split
  · exact refuse _
  · exact .pure _
  · exact .bind table fun _ => .bind (baseFile _) fun _ => .pure _
  · exact .bind table fun _ => .bind (blocks _ _) fun _ => .pure _

/-- A chunk takes at least the byte of its tag. -/
theorem chunkStep (directory : Path) (stats : ChunkStats) :
    Takes 1 (Plan.chunkStep directory stats) :=
  .bind (byte _) fun _ => .bind (tagged _ _) fun _ => .pure _

end Takes

/-- Read chunks until the tag that ends them. -/
def chunks (directory : Path) : Plan ChunkStats :=
  PlanOf.loop (chunkStep directory) (Takes.chunkStep directory) {}

/-- Read the required revision. -/
def required (endRevision : Nat) : Plan Nat := do
  let required ← field (.uint "required revision")
  require (endRevision ≤ required) (.requiredRevisionTooEarly required endRevision)
  return required

/-- Come to the end of the stream: archive what was decoded last, unless bytes are ahead or the
stream does not end here. `junk` is the number of bytes that is reported if there are any. -/
def finish (ending : Ending) (junk : Nat) : Plan Unit := fun position =>
  if position.ahead ≠ [] then refuse (.protocol (.trailingJunk junk)) position
  else if ending = .closed then commit position
  else { effects := [], outcome := .error (.truncated "end of changeset") }

end Plan

/-- What an apply has read when it comes to the end of its changeset. -/
structure Receipt where
  header : Header
  stats : ChunkStats
  required : Nat
  deriving Repr, DecidableEq

/-- The plan of a whole apply, but for the end of the stream. -/
def Replicator.plan (replicator : Replicator) (trusted : Bool) : PlanOf Halt Receipt := do
  let header ← Plan.opening.during .readingHeader
  (Plan.revision replicator.directory replicator.revisions trusted
    header.startRevision).during .checkingRevision
  let stats ← (Plan.chunks replicator.directory).during .readingChunks
  let required ← (Plan.required header.endRevision).during .readingFooter
  return { header, stats, required }

/-- The plan of a whole apply. -/
def Replicator.wholePlan (replicator : Replicator) (trusted : Bool) (ending : Ending)
    (junk : Nat) : PlanOf Halt Receipt := do
  let receipt ← replicator.plan trusted
  (Plan.finish ending junk).during .readingFooter
  return receipt

/-- The course of an apply to what a connection delivers. -/
def Replicator.course (replicator : Replicator) (trusted : Bool) (delivery : Delivery)
    (junk : Nat) : Course Halt Receipt :=
  replicator.wholePlan trusted delivery.ending junk { ahead := delivery.bytes }

namespace Replicator

variable {replicator : Replicator} {trusted : Bool} {delivery : Delivery} {effects : List Effect}

/-- A course that stops before the end of its changeset stops there. -/
theorem course_of_error {halt : Halt}
    (h : replicator.plan trusted { ahead := delivery.bytes } = { effects, outcome := .error halt })
    (junk : Nat) :
    replicator.course trusted delivery junk = { effects, outcome := .error halt } :=
  PlanOf.bind_of_error h _

/-- At the end of its changeset a course comes to the end of the stream. -/
theorem course_of_ok {receipt : Receipt} {after : Position}
    (h : replicator.plan trusted { ahead := delivery.bytes } =
      { effects, outcome := .ok (receipt, after) }) (junk : Nat) :
    replicator.course trusted delivery junk =
      if after.ahead ≠ [] then
        { effects
          outcome := .error
            { stage := .readingFooter, stop := .refused (.protocol (.trailingJunk junk)) } }
      else if delivery.ending = .closed then
        { effects := effects ++ (Plan.commit after).effects
          outcome := .ok (receipt, after.commit) }
      else
        { effects
          outcome := .error
            { stage := .readingFooter, stop := .truncated "end of changeset" } } := by
  have hstart := PlanOf.bind_of_ok h fun receipt => do
    (Plan.finish delivery.ending junk).during .readingFooter
    return receipt
  change replicator.course trusted delivery junk = _ at hstart
  rw [hstart]
  change Course.mk (effects ++ (PlanOf.bind _ _ after).effects) (PlanOf.bind _ _ after).outcome = _
  unfold PlanOf.bind PlanOf.during Plan.finish
  by_cases hahead : after.ahead = []
  · by_cases hclosed : delivery.ending = .closed
    · simp [hahead, hclosed, Plan.commit, pure, PlanOf.pure, Except.mapError]
    · simp [hahead, hclosed, Except.mapError]
  · simp [hahead, Plan.refuse, Except.mapError]

/-- The count of junk bytes shows only where there are any. -/
theorem course_uncounted (replicator : Replicator) (trusted : Bool) (delivery : Delivery)
    (first second : Nat) :
    (replicator.course trusted delivery first).effects =
        (replicator.course trusted delivery second).effects ∧
      ((replicator.course trusted delivery first).outcome =
          (replicator.course trusted delivery second).outcome ∨
        (replicator.course trusted delivery first).outcome = .error
            { stage := .readingFooter, stop := .refused (.protocol (.trailingJunk first)) } ∧
          (replicator.course trusted delivery second).outcome = .error
            { stage := .readingFooter, stop := .refused (.protocol (.trailingJunk second)) }) := by
  cases hplan : replicator.plan trusted { ahead := delivery.bytes } with
  | mk effects outcome =>
      cases outcome with
      | error halt =>
          rw [course_of_error hplan, course_of_error hplan]
          exact ⟨rfl, .inl rfl⟩
      | ok read =>
          obtain ⟨receipt, after⟩ := read
          rw [course_of_ok hplan, course_of_ok hplan]
          by_cases hahead : after.ahead ≠ []
          · rw [if_pos hahead, if_pos hahead]
            exact ⟨rfl, .inr ⟨rfl, rfl⟩⟩
          · rw [if_neg hahead, if_neg hahead]
            exact ⟨rfl, .inl rfl⟩

end Replicator

end TableReplica.Apply
