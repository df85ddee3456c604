import TableReplica.Proofs.Plan.Carrying

/-!
# An apply follows its course

The rules of `Carries` are applied along the definitions, from a table name up to all that comes
before the end of the stream. With the end of the stream an apply is settled: what it does to the
files and what it answers are told by `Replicator.follow` from what its connection delivers
(`apply_eq_follow`). The only trace of the reads is the number of junk bytes that an error counts.
-/

namespace TableReplica.Apply

open Files Transport Wire

/-- One round of the blocks of a chunk. -/
def blockRound (path : Path) (place : Location) (blockSize : Nat) (stats : BlockStats) :
    Action (BlockStats ⊕ BlockStats) := do
  let found ← applyNumbered path place blockSize (← readUint "block number")
  return if found then .inl { blocks := stats.blocks + 1, bytes := stats.bytes + blockSize }
    else .inr stats

/-- The blocks of a chunk are a round and then the blocks after it. -/
theorem applyBlockList_eq (path : Path) (place : Location) (blockSize : Nat) (stats : BlockStats) :
    (applyBlockList path place blockSize stats : Action BlockStats) =
      blockRound path place blockSize stats >>=
        Sum.elim (applyBlockList path place blockSize) pure := by
  have hround : blockRound path place blockSize stats = do
      let found ← applyBlock path place blockSize
      return if found then
        .inl { blocks := stats.blocks + 1, bytes := stats.bytes + blockSize }
        else .inr stats := by
    simp only [blockRound, applyBlock, bind_assoc]
  funext session
  rw [hround, applyBlockList]
  show _ = EStateM.bind (EStateM.bind _ _) _ session
  unfold EStateM.bind
  split <;> simp_all [pure, EStateM.pure] <;> rfl

/-- One round of the chunks of a changeset. -/
def chunkRound (directory : Path) (stats : ChunkStats) : Action (ChunkStats ⊕ ChunkStats) := do
  return match ← applyTagged directory (← readByte "chunk type") with
    | some more => .inl (stats.add more)
    | none => .inr stats

/-- The chunks of a changeset are a round and then the chunks after it. -/
theorem applyChunks_eq (directory : Path) (stats : ChunkStats) :
    (applyChunks directory stats : Action ChunkStats) =
      chunkRound directory stats >>= Sum.elim (applyChunks directory) pure := by
  have hround : chunkRound directory stats = do
      return match ← applyChunk directory with
        | some more => .inl (stats.add more)
        | none => .inr stats := by
    simp only [chunkRound, applyChunk, bind_assoc]
  funext session
  rw [hround, applyChunks]
  show _ = EStateM.bind (EStateM.bind _ _) _ session
  unfold EStateM.bind
  split <;> simp_all [pure, EStateM.pure] <;> rfl

/-- Look for the magic bytes. -/
def expectMagic : Action Unit := do
  readAhead "changeset header" magic.length
  let found ← skipLiteral magic
  require (found = true) .badMagic

/-- Looking for the magic bytes is decoding them. -/
theorem expectMagic_session (store : Store) (cursor : Cursor) :
    expectMagic (store.session cursor) = read Cursor.readMagic (store.session cursor) := by
  show EStateM.bind _ _ _ = _
  unfold EStateM.bind readAhead read Cursor.readMagic
  simp only [Store.session]
  rcases cursor.readAhead "changeset header" magic.length with ⟨outcome, ready⟩
  cases outcome with
  | error error => rfl
  | ok _ =>
      show EStateM.bind _ _ _ = _
      unfold EStateM.bind skipLiteral
      simp only
      rcases ready.skipLiteral magic with ⟨found, after⟩
      cases found <;> rfl

/-- A header is the magic bytes and the fields after them. -/
theorem readHeader_eq :
    readHeader = expectMagic >>= fun _ => do
      let version ← readUint "version number"
      require (version = formatVersion) (.unsupportedVersion version)
      let startRevision ← readUint "start revision"
      let endRevision ← readUint "end revision"
      require (startRevision < endRevision) (.revisionOrder startRevision endRevision)
      let kind ← readByte "changeset type"
      require (kind = durableKind) (.unsupportedKind kind)
      return { version, startRevision, endRevision, kind } := by
  simp only [readHeader, expectMagic, bind_assoc]

namespace Carries

variable {directory : Path} {held : Setting → FileSystem → Prop}

/-- Reading a table name carries out its plan. -/
theorem readTable (hdurable : Durable held) :
    CarriesPlain directory held (fun _ => Apply.readTable) Plan.table :=
  bind (read (Cursor.follows_readString _ _)) fun _ => bind (demand _) fun _ =>
    bind (commit hdurable) fun _ => pure _

/-- Applying a base file does. -/
theorem applyBaseFile (table : String) :
    CarriesPlain directory anyFiles (fun _ => Apply.applyBaseFile directory table)
      (Plan.baseFile table) := by
  refine bind (read (Cursor.follows_readByte _)) fun _ => bind (demand _) fun _ =>
    bind (read (Cursor.follows_readUint _)) fun size => ?_
  split
  · exact reject _
  · exact bind (take durable_anyFiles _ _) fun _ => bind (replaceBase _ _ _) fun _ => pure _

/-- Applying what comes after a block number does, with the data file open. -/
theorem applyNumbered (table : String) (blockSize number : Nat) :
    CarriesPlain directory (dataOpen (dataFilePath directory table))
      (fun setting =>
        Apply.applyNumbered (dataFilePath directory table) setting.place blockSize number)
      (Plan.numbered directory table blockSize number) := by
  have hdurable := durable_dataOpen (dataFilePath directory table)
  cases number with
  | zero => exact bind (commit hdurable) fun _ => pure _
  | succ index =>
      unfold Apply.applyNumbered Plan.numbered
      simp only
      split
      · exact reject _
      · exact bind (take hdurable _ _) fun _ => bind (block _ _ _) fun _ => pure _

/-- So does a block with its number. -/
theorem blockRound (table : String) (blockSize : Nat) (stats : BlockStats) :
    CarriesPlain directory (dataOpen (dataFilePath directory table))
      (fun setting =>
        Apply.blockRound (dataFilePath directory table) setting.place blockSize stats)
      (Plan.blockStep directory table blockSize stats) :=
  bind (read (Cursor.follows_readUint _)) fun number =>
    bind (applyNumbered _ _ number) fun _ => pure _

/-- Applying a block chunk does, from where it has opened the data file. -/
theorem applyBlocks (table : String) :
    CarriesPlain directory anyFiles (fun _ => Apply.applyBlocks directory table)
      (Plan.blocks directory table) := by
  refine bind (read (Cursor.follows_readUint _)) fun blockSize => ?_
  split
  · exact reject _
  · refine bind (commit durable_anyFiles) fun _ => openData ?_
    exact loop (blockRound table blockSize) (fun _ _ => applyBlockList_eq _ _ _ _) _

/-- Applying what comes after a tag does. -/
theorem applyTagged (tag : UInt8) :
    CarriesPlain directory anyFiles (fun _ => Apply.applyTagged directory tag)
      (Plan.tagged directory tag) := by
  unfold Apply.applyTagged Plan.tagged
  rcases ChunkKind.ofByte? tag with _ | _ | _ | _
  · exact reject _
  · exact pure _
  · exact bind (readTable durable_anyFiles) fun _ => bind (applyBaseFile _) fun _ => pure _
  · exact bind (readTable durable_anyFiles) fun _ => bind (applyBlocks _) fun _ => pure _

/-- So does a chunk with its tag. -/
theorem chunkRound (stats : ChunkStats) :
    CarriesPlain directory anyFiles (fun _ => Apply.chunkRound directory stats)
      (Plan.chunkStep directory stats) :=
  bind (read (Cursor.follows_readByte _)) fun tag => bind (applyTagged tag) fun _ => pure _

/-- So do all chunks up to the end tag. -/
theorem applyChunks :
    CarriesPlain directory anyFiles (fun _ => Apply.applyChunks directory {})
      (Plan.chunks directory) :=
  loop chunkRound (fun _ _ => applyChunks_eq _ _) _

/-- Looking for the magic bytes gives the verdict on the bytes ahead. -/
theorem expectMagic :
    CarriesPlain directory held (fun _ => Apply.expectMagic) (Plan.field .magic) :=
  congr (fun _ store cursor => expectMagic_session store cursor) (read Cursor.follows_readMagic)

/-- Reading the header carries out its plan. -/
theorem readHeader :
    CarriesPlain directory held (fun _ => Apply.readHeader) Plan.header := by
  rw [readHeader_eq]
  exact bind expectMagic fun _ => bind (read (Cursor.follows_readUint _)) fun _ =>
    bind (require _ _) fun _ => bind (read (Cursor.follows_readUint _)) fun _ =>
      bind (read (Cursor.follows_readUint _)) fun _ => bind (require _ _) fun _ =>
        bind (read (Cursor.follows_readByte _)) fun _ => bind (require _ _) fun _ => pure _

/-- The archive is opened with the number of archives that the setting keeps. -/
theorem openChangeset (replicator : Replicator) :
    CarriesPlain replicator.directory anyFiles
      (fun setting =>
        { replicator with config.maxChangesets := setting.retention }.openChangeset)
      Plan.opening := by
  unfold Replicator.openChangeset
  refine bind readHeader fun header => ?_
  have hopen (setting : Setting) : (do
      let archive ← onFiles
        (Archive.create replicator.directory header.startRevision setting.retention)
      attachArchive archive
      Apply.commit
      return header : Action Header) =
      (onFiles (Archive.create replicator.directory header.startRevision setting.retention) >>=
        attachArchive) >>= fun _ => do
          Apply.commit
          return header := by
    simp only [bind_assoc]
  simp only [hopen]
  exact bind (openArchive _) fun _ => bind (commit durable_anyFiles) fun _ => pure _

/-- Checking the revision does. -/
theorem checkRevision (replicator : Replicator) (trusted : Bool) (startRevision : Nat) :
    CarriesPlain directory held (fun _ => replicator.checkRevision trusted startRevision)
      (Plan.revision replicator.directory replicator.revisions trusted startRevision) := by
  unfold Replicator.checkRevision checkAnswer Plan.revision
  split
  · rcases replicator.revisions replicator.directory with error | current
    · exact refuse _
    · exact require _ _
  · exact pure ()

end Carries

/-- Read the required revision. -/
def readRequired (endRevision : Nat) : Action Nat := do
  let required ← readUint "required revision"
  require (endRevision ≤ required) (.requiredRevisionTooEarly required endRevision)
  return required

/-- Apply the changeset that a session reads, up to the end of the stream. -/
def Replicator.applyContents (replicator : Replicator) (trusted : Bool) :
    ActionOf Failure Receipt := do
  let header ← during .readingHeader replicator.openChangeset
  during .checkingRevision (replicator.checkRevision trusted header.startRevision)
  let stats ← during .readingChunks (applyChunks replicator.directory {})
  let required ← during .readingFooter (readRequired header.endRevision)
  return { header, stats, required }

/-- What comes before the end of the stream is carried out. -/
theorem carries_applyContents (replicator : Replicator) (trusted : Bool) :
    Carries replicator.directory .staged anyFiles
      (fun setting =>
        { replicator with config.maxChangesets := setting.retention }.applyContents trusted)
      (replicator.plan trusted) := by
  refine .bind (.during _ ?_ (.openChangeset replicator)) fun header =>
    .bind (.during _ (Plan.Emits.revision _ _ _ _) (.checkRevision replicator _ _)) fun _ =>
      .bind (.during _ ?_ .applyChunks) fun stats =>
        .bind (.during _ (Plan.Emits.required _) ?_) fun _ => .pure _
  -- What a stage asks for, other than appends, may be refused in that stage only.
  · refine Plan.emits_opening.mono fun effect h => ?_
    cases effect with
    | openArchive startRevision => exact .inl rfl
    | archive data => exact .inr ⟨data, rfl⟩
    | openData | writeBlock | replaceBase => exact h.elim
  · refine (Plan.emits_chunks _).mono fun effect h => ?_
    cases effect with
    | openArchive startRevision => exact h.elim
    | archive data => exact .inr ⟨data, rfl⟩
    | openData | writeBlock | replaceBase => exact .inl rfl
  · exact .bind (.read (Cursor.follows_readUint _)) fun _ => .bind (.require _ _) fun _ => .pure _

/-- Come to the end of the stream and archive what was decoded last. -/
def finishStream : Action Unit := do
  expectEnd
  commit

/-- Where the stream is at its end, what is pending is archived. -/
theorem finishStream_ok {cursor after : Cursor} (h : cursor.expectEnd = (.ok (), after))
    (store : Store) : finishStream (store.session cursor) = commit (store.session after) :=
  bind_of_ok (read_session_ok h store)

/-- Where it is not, nothing more is archived. -/
theorem finishStream_error {cursor after : Cursor} {error : ReplicaError}
    (h : cursor.expectEnd = (.error error, after)) (store : Store) :
    finishStream (store.session cursor) = .error error (store.session after) :=
  bind_of_error (read_session_error h store)

/-- The end of the stream is met as the bytes ahead and the ending tell. Only the number of junk
bytes depends on how much of them the cursor holds. -/
theorem carriesFrom_finishStream (directory : Path) (cursor : Cursor) :
    ∃ junk, CarriesFrom directory .plain anyFiles (fun _ => finishStream)
      (Plan.finish cursor.ending junk) cursor := by
  unfold CarriesFrom CarriesTo
  by_cases hahead : cursor.ahead = []
  · refine ⟨0, ?_⟩
    have hplan : Plan.finish cursor.ending 0 cursor.position =
        if cursor.ending = .closed then Plan.commit cursor.position
        else { effects := [], outcome := .error (.truncated "end of changeset") } := by
      simp [Plan.finish, Cursor.position, hahead]
    rw [hplan]
    obtain ⟨after, hend, halike⟩ := Cursor.expectEnd_of_nil hahead
    cases hending : cursor.ending with
    | closed =>
        have hsame := halike hending
        have hcommits : Carries directory .plain anyFiles (fun _ => Apply.commit) Plan.commit :=
          .commit durable_anyFiles
        obtain ⟨last, hlast, hcommit⟩ := hcommits after
        rw [hsame.position_eq, hsame.ending_eq, hending] at hlast hcommit
        rw [hending] at hend
        refine ⟨last, hlast, fun setting store hheld => ?_⟩
        show Carried _ _ _ _ _ _ (finishStream (store.session cursor))
        rw [finishStream_ok hend]
        exact hcommit setting store hheld
    | stalled | broken =>
        rw [hending] at hend
        refine ⟨after, fun _ _ h => (by cases h), fun setting store _ => ?_⟩
        show Carried _ _ _ _ _ _ (finishStream (store.session cursor))
        rw [finishStream_error hend]
        exact .stopped _ store trivial
  · obtain ⟨junk, after, hend⟩ := Cursor.expectEnd_of_junk hahead
    have hplan : Plan.finish cursor.ending junk cursor.position =
        { effects := [], outcome := .error (.refused (.protocol (.trailingJunk junk))) } := by
      simp [Plan.finish, Plan.refuse, Cursor.position, hahead]
    refine ⟨junk, after, ?_⟩
    rw [hplan]
    refine ⟨fun _ _ h => (by cases h), fun setting store _ => ?_⟩
    show Carried _ _ _ _ _ _ (finishStream (store.session cursor))
    rw [finishStream_error hend]
    exact .stopped (Stop.refused (.protocol (.trailingJunk junk))) store trivial

/-- Running a sequence as a stage is running each part as that stage. -/
theorem during_bind {α β : Type} (stage : Stage) (first : Action α) (next : α → Action β) :
    during stage (first >>= next) =
      during stage first >>= fun value => during stage (next value) := by
  funext session
  show during stage (EStateM.bind _ _) _ = EStateM.bind _ _ _
  unfold EStateM.bind during
  simp only
  cases first session <;> rfl

/-- The result of an apply that has come to its end. -/
def Receipt.applied (receipt : Receipt) (consumed archived : Nat) : Applied where
  startRevision := receipt.header.startRevision
  endRevision := receipt.header.endRevision
  requiredRevision := receipt.required
  stats :=
    { baseFiles := receipt.stats.baseFiles
      blocksWritten := receipt.stats.blocks
      bytesConsumed := consumed
      bytesArchived := archived }

/-- Sum up what was read. -/
def Receipt.summary (receipt : Receipt) : ActionOf Failure Applied := fun session =>
  .ok (receipt.applied session.consumed session.archived) session

namespace Replicator

variable (replicator : Replicator) (trusted : Bool)

/-- Apply the changeset that a session reads, but for the summary. -/
def applyWhole : ActionOf Failure Receipt := do
  let receipt ← replicator.applyContents trusted
  during .readingFooter finishStream
  return receipt

/-- An apply under the lock reads the contents, meets the end of the stream and sums up. -/
theorem applyLocked_eq :
    replicator.applyLocked trusted = replicator.applyWhole trusted >>= Receipt.summary := by
  have hfooter (endRevision : Nat) : readFooter endRevision = do
      let required ← readRequired endRevision
      finishStream
      return required := by
    simp [readFooter, readRequired, finishStream]
  have hpure (required : Nat) : during .readingFooter (pure required) = pure required := rfl
  have hsummary : replicator.applyLocked trusted = (do
      let header ← during .readingHeader replicator.openChangeset
      during .checkingRevision (replicator.checkRevision trusted header.startRevision)
      let stats ← during .readingChunks (applyChunks replicator.directory {})
      let required ← during .readingFooter (readFooter header.endRevision)
      Receipt.summary { header, stats, required }) := rfl
  simp only [hsummary, applyWhole, applyContents, hfooter, during_bind, hpure, bind_assoc,
    pure_bind]

/-- A whole apply is carried out from where a connection starts. -/
theorem carriesFrom_applyWhole (connection : Connection) :
    ∃ junk, CarriesFrom replicator.directory .staged anyFiles
      (fun setting =>
        { replicator with config.maxChangesets := setting.retention }.applyWhole trusted)
      (replicator.wholePlan trusted connection.delivery.ending junk)
      { incoming := connection } := by
  obtain ⟨middle, hto⟩ := carries_applyContents replicator trusted { incoming := connection }
  obtain ⟨junk, hfinish⟩ := carriesFrom_finishStream replicator.directory middle
  refine ⟨junk, hto.bind fun receipt hread => ?_⟩
  rw [(hto.1 _ _ hread).2] at hfinish
  have hstaged := hfinish.during .readingFooter
    (Plan.emits_finish (fun data => .inr ⟨data, rfl⟩) _ _ _)
  exact hstaged.bind fun _ last _ => Carries.pure _ last

/-- Apply what a connection delivers by following its course. -/
def follow (delivery : Delivery) (junk : Nat) (files : FileSystem) :
    Except Failure Applied × FileSystem :=
  match acquireLock replicator.directory files with
  | .error error => (.error { stage := .awaitingLock, error }, files)
  | .ok (lock, locked) =>
    let course := replicator.course trusted delivery junk
    match performAll replicator.directory replicator.config.maxChangesets course.effects
      { files := locked } with
    | (.error failure, spoiled) => (.error failure, releaseLock lock spoiled.files)
    | (.ok (), done) =>
      (match course.outcome with
        | .ok (receipt, after) =>
          .ok (receipt.applied (after.committed + after.pending.length) done.archive.written)
        | .error halt =>
          .error { stage := halt.stage, error := delivery.ending.report halt.stop },
        releaseLock lock done.files)

/-- What an apply answers and does to the files is settled by what its connection delivers, but for
the number of junk bytes that an error counts. That number does not depend on the files. -/
theorem apply_eq_follow (connection : Connection) :
    ∃ junk, ∀ files,
      ((replicator.apply trusted connection files).result,
        (replicator.apply trusted connection files).files) =
      replicator.follow trusted connection.delivery junk files := by
  obtain ⟨junk, last, hlast, hrun⟩ := carriesFrom_applyWhole replicator trusted connection
  refine ⟨junk, fun files => ?_⟩
  unfold apply applySession underLock follow Session.start
  cases hlock : acquireLock replicator.directory files with
  | error error => rfl
  | ok taken =>
      obtain ⟨lock, locked⟩ := taken
      have hcarried : Carried .staged connection.delivery.ending last (fun _ => True)
          (performAll replicator.directory replicator.config.maxChangesets
            (replicator.course trusted connection.delivery junk).effects { files := locked })
          (replicator.course trusted connection.delivery junk).outcome
          (replicator.applyWhole trusted
            { cursor := { incoming := connection }, files := locked }) :=
        hrun { retention := replicator.config.maxChangesets, place := [] }
          { files := locked } trivial
      have hread : ∀ receipt after,
          (replicator.course trusted connection.delivery junk).outcome = .ok (receipt, after) →
            last.position = after :=
        fun receipt after h => (hlast receipt after h).1
      -- An apply that is interrupted has nothing to sum up.
      have hsum (session : Session) : (replicator.applyWhole trusted >>= Receipt.summary) session =
          EStateM.bind (replicator.applyWhole trusted) Receipt.summary session := rfl
      simp only [applyLocked_eq, hsum, EStateM.bind]
      revert hread hcarried
      generalize replicator.applyWhole trusted _ = result
      generalize performAll _ _ _ _ = performed
      generalize (replicator.course trusted connection.delivery junk).outcome = outcome
      intro hcarried hread
      cases hcarried with
      | value receipt after done =>
          obtain rfl := hread receipt after rfl
          rfl
      | stopped halt done => rfl
      | refused failure spoiled outcome stuck => rfl

end Replicator

end TableReplica.Apply
