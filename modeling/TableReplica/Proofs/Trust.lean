import TableReplica.Proofs.Retention
import TableReplica.Proofs.Stream.Enough

/-!
# Trusted replicas

An apply to tables that are known to be good asks at which revision they are, once it has read the
header and opened the archive. Unless the answer is the start revision of the changeset, it fails
there: it has changed no table, and reads nothing that comes after the header. An apply to tables
that may be in any state does not ask. `apply_guarded` says both.
-/

namespace TableReplica.Apply

open Files Transport Wire Format

/-- An action that succeeds does the same with more reads to come, and makes none of them. -/
def Enough {ε α : Type} (action : ActionOf ε α) : Prop :=
  ∀ {cursor : Cursor} {store : Store} {value : α} {after : Session},
    action (store.session cursor) = .ok value after →
      ∃ (last : Cursor) (done : Store), after = done.session last ∧ ∀ later,
        action (store.session (cursor.followedBy later)) =
          .ok value (done.session (last.followedBy later))

namespace Enough

variable {ε α β : Type}

/-- A value is given whatever comes later. -/
theorem pure (value : α) : Enough (Pure.pure value : ActionOf ε α) := by
  intro cursor store _ after h
  cases h
  exact ⟨cursor, store, rfl, fun _ => rfl⟩

/-- A sequence has had enough if its parts have. -/
theorem bind {first : ActionOf ε α} {next : α → ActionOf ε β} (hfirst : Enough first)
    (hnext : ∀ value, Enough (next value)) : Enough (first >>= next) := by
  intro cursor store value after h
  obtain ⟨read, middle, hread, hrest⟩ := exists_of_bind_eq_ok h
  obtain ⟨place, kept, rfl, hlater⟩ := hfirst hread
  obtain ⟨last, done, rfl, hgoes⟩ := hnext read hrest
  refine ⟨last, done, rfl, fun later => ?_⟩
  exact (bind_of_ok (hlater later)).trans (hgoes later)

/-- Reading has had enough if the operation has. -/
theorem read {operation : Cursor → Except ReplicaError α × Cursor} (h : Cursor.Enough operation) :
    Enough (Apply.read operation) := by
  intro cursor store value after hread
  rcases hanswer : operation cursor with ⟨error | found, last⟩
  · rw [read_session_error hanswer] at hread
    cases hread
  · rw [read_session_ok hanswer] at hread
    cases hread
    exact ⟨last, store, rfl, fun later => read_session_ok (h hanswer later) store⟩

/-- A requirement reads nothing. -/
theorem require (condition : Prop) [Decidable condition] (error : ProtocolError) :
    Enough (Apply.require condition error) := by
  unfold Apply.require
  split
  · exact pure ()
  · intro cursor store value after h
    cases h

/-- Working on files reads nothing. -/
theorem onFiles (operation : FileSystem → Except ReplicaError (α × FileSystem)) :
    Enough (Apply.onFiles operation) := by
  intro cursor store value after h
  unfold Apply.onFiles at h ⊢
  simp only [Store.session] at h ⊢
  split at h
  · next found files hfound =>
      cases h
      exact ⟨cursor, { store with files }, rfl, fun _ => rfl⟩
  · cases h

/-- Nor does attaching an archive. -/
theorem attachArchive (archive : Archive) : Enough (Apply.attachArchive archive) := by
  intro cursor store _ after h
  cases h
  exact ⟨cursor, { store with archive }, rfl, fun _ => rfl⟩

/-- Nor does archiving what is pending. -/
theorem commit : Enough Apply.commit := by
  intro cursor store _ after h
  rw [commit_session] at h
  cases h
  exact ⟨cursor.afterCommit, store.afterCommit cursor, rfl,
    fun later => commit_session store (cursor.followedBy later)⟩

/-- Looking for the magic bytes has had enough with them. -/
theorem expectMagic : Enough Apply.expectMagic := by
  intro cursor store _ after h
  rw [expectMagic_session] at h
  obtain ⟨last, done, rfl, hlater⟩ := read Cursor.enough_readMagic h
  exact ⟨last, done, rfl, fun later => (expectMagic_session _ _).trans (hlater later)⟩

/-- A header that was read is the same with more bytes to come. -/
theorem readHeader : Enough Apply.readHeader := by
  rw [readHeader_eq]
  exact bind expectMagic fun _ => bind (read (Cursor.enough_readUint _)) fun _ =>
    bind (require _ _) fun _ => bind (read (Cursor.enough_readUint _)) fun _ =>
      bind (read (Cursor.enough_readUint _)) fun _ => bind (require _ _) fun _ =>
        bind (read (Cursor.enough_readByte _)) fun _ => bind (require _ _) fun _ => pure _

/-- So is a changeset that was opened. -/
theorem openChangeset (replicator : Replicator) : Enough replicator.openChangeset :=
  bind readHeader fun _ => bind (onFiles _) fun _ => bind (attachArchive _) fun _ =>
    bind commit fun _ => pure _

end Enough

/-- A file of a table. -/
def ReplicaFile.OfTable : ReplicaFile → Prop
  | .data table => IsTableName table
  | .base table _ => IsTableName table
  | .temp table => IsTableName table
  | .archive _ => False
  | .lock => False

/-- An apply gets to ask for the revision if its lock is free, its stream begins with a header, and
nothing is in the way of the archive that it is to make. -/
structure Asks (replicator : Replicator) (files : FileSystem) (stream : Bytes)
    (preamble : Preamble) : Prop where
  lock : ∃ taken, acquireLock replicator.directory files = .ok taken
  header : preamble.bytes <+: stream
  archive : replicator.config.maxChangesets = 0 ∨
    files.Unobstructed (archivePath replicator.directory preamble.startRevision.value)

/-- What the answer to the question for the revision settles about an apply that asks it. -/
structure Guarded (replicator : Replicator) (connection : Connection) (before : FileSystem)
    (outcome : Outcome) : Prop where
  /-- The apply succeeds only if the answer is the start revision of the header. -/
  applied : ∀ applied, outcome.result = .ok applied → ∃ preamble : Preamble,
    preamble.bytes <+: connection.delivery.bytes ∧
      applied.startRevision = preamble.startRevision.value ∧
      replicator.revisions replicator.directory = .ok preamble.startRevision.value
  /-- A table file changes only if it is. -/
  changed : ∀ (file : ReplicaFile) (place : Location), file.OfTable →
    before.resolve (file.path replicator.directory) = .ok place →
      outcome.files.get? place ≠ before.get? place → ∃ preamble : Preamble,
        preamble.bytes <+: connection.delivery.bytes ∧
          replicator.revisions replicator.directory = .ok preamble.startRevision.value
  /-- If it is another revision, the apply fails with both. -/
  wrong : ∀ preamble current, Asks replicator before connection.delivery.bytes preamble →
    replicator.revisions replicator.directory = .ok current →
      current ≠ preamble.startRevision.value → outcome.result = .error
        { stage := .checkingRevision
          error := .protocol (.wrongRevision preamble.startRevision.value current) }
  /-- If there is no answer, the apply fails with the error that came instead. -/
  failed : ∀ preamble error, Asks replicator before connection.delivery.bytes preamble →
    replicator.revisions replicator.directory = .error error →
      outcome.result = .error { stage := .checkingRevision, error }
  /-- Either way it leaves all reads alone that come after those that bring the header. -/
  unread : ∀ preamble reads later, connection = reads ++ later →
    Asks replicator before reads.delivery.bytes preamble →
      replicator.revisions replicator.directory ≠ .ok preamble.startRevision.value →
        ∃ left, outcome.remaining = left ++ later
  /-- And it leaves all files as they are, but for the lock file and the archive. -/
  untouched : ∀ preamble, Asks replicator before connection.delivery.bytes preamble →
    replicator.revisions replicator.directory ≠ .ok preamble.startRevision.value →
      ∀ place, before.resolve (lockFilePath replicator.directory) ≠ .ok place →
        (replicator.config.maxChangesets ≠ 0 → before.resolve
          (archivePath replicator.directory preamble.startRevision.value) ≠ .ok place) →
          outcome.files.get? place = before.get? place

section

variable {replicator : Replicator} {trusted : Bool} {home lock : Location}
  {files locked : FileSystem} {connection reads : Connection} {preamble : Preamble}
  {error : ReplicaError} {header : Header} {last : Cursor} {store : Store}

/-- A changeset that is opened is the one that the stream begins with. -/
theorem preamble_of_openChangeset {cursor : Cursor} (hpending : cursor.pending = [])
    {after : Session}
    (h : replicator.openChangeset (store.session cursor) = .ok header after) :
    ∃ preamble : Preamble, preamble.bytes <+: cursor.ahead ∧
      header.startRevision = preamble.startRevision.value := by
  obtain ⟨found, middle, hread, hrest⟩ := exists_of_bind_eq_ok h
  obtain ⟨archive, opened, -, hrest⟩ := exists_of_bind_eq_ok hrest
  obtain ⟨-, attached, -, hrest⟩ := exists_of_bind_eq_ok hrest
  obtain ⟨-, committed, -, hlast⟩ := exists_of_bind_eq_ok hrest
  cases hlast
  exact preamble_of_readHeader hpending hread

/-- Where the reader fails the check fails with its error. -/
theorem checkRevision_of_error (h : replicator.revisions replicator.directory = .error error)
    (start : Nat) (session : Session) :
    replicator.checkRevision true start session = .error error session := by
  simp only [Replicator.checkRevision, checkAnswer, h, if_true]
  rfl

/-- Where the reader gives another revision the check fails with both. -/
theorem checkRevision_of_wrong {start current : Nat}
    (h : replicator.revisions replicator.directory = .ok current) (hwrong : current ≠ start)
    (session : Session) : replicator.checkRevision true start session =
      .error (.protocol (.wrongRevision start current)) session := by
  simp only [Replicator.checkRevision, checkAnswer, h, if_true, require, if_neg hwrong]
  rfl

/-- A check that does not accept a revision fails and does nothing else. -/
theorem checkRevision_refuses {start : Nat}
    (h : replicator.revisions replicator.directory ≠ .ok start) :
    ∃ error, ∀ session, replicator.checkRevision true start session = .error error session := by
  cases hreader : replicator.revisions replicator.directory with
  | error error => exact ⟨error, checkRevision_of_error hreader start⟩
  | ok current =>
      have hwrong : current ≠ start := by
        rintro rfl
        exact h hreader
      exact ⟨_, checkRevision_of_wrong hreader hwrong⟩

/-- An apply that gets to ask for the revision and does not accept the answer fails where it checks
it. -/
theorem stage_of_refused (hasks : Asks replicator files connection.delivery.bytes preamble)
    (hrefused : ¬ replicator.Accepts true preamble.startRevision.value) :
    ∃ failure, (replicator.apply true connection files).result = .error failure ∧
      failure.stage = .checkingRevision := by
  obtain ⟨taken, htaken⟩ := hasks.lock
  obtain ⟨home, hfree⟩ := lockFree_of_acquireLock htaken
  have hprogress := replicator.progress_of_apply hfree true connection
  revert hprogress
  generalize (replicator.apply true connection files).result = result
  intro hprogress
  cases hprogress with
  | unopened failure _ _ hobstructed =>
      obtain ⟨hretention, hblocked⟩ := hobstructed preamble hasks.header
      exact (hasks.archive.elim hretention hblocked).elim
  | halted failure _ effects refused hstage _ =>
      refine ⟨failure, rfl, hstage.resolve_right ?_⟩
      rintro ⟨-, other, hother, haccepts⟩
      rw [Preamble.eq_of_isPrefix hother hasks.header] at haccepts
      exact hrefused haccepts
  | completed changeset _ effects bytes hbytes _ haccepts _ =>
      have hother : changeset.preamble.bytes <+: connection.delivery.bytes :=
        hbytes ▸ changeset.preamble_isPrefix
      rw [← Preamble.eq_of_isPrefix hother hasks.header] at hrefused
      exact absurd haccepts hrefused

/-- An apply that opens its changeset and does not accept the answer to its question fails there. -/
theorem apply_of_refused (hlock : acquireLock replicator.directory files = .ok (lock, locked))
    (hopened : replicator.openChangeset
      (({ files := locked } : Store).session { incoming := connection }) =
        .ok header (store.session last))
    (hrefused : ∀ session, replicator.checkRevision true header.startRevision session =
      .error error session) :
    replicator.apply true connection files =
      { result := .error { stage := .checkingRevision, error }
        remaining := last.incoming
        files := releaseLock lock store.files } := by
  have hcontents : replicator.applyContents true
      (({ files := locked } : Store).session { incoming := connection }) =
        .error { stage := .checkingRevision, error } (store.session last) := by
    rw [Replicator.applyContents, bind_of_ok (during_ok hopened)]
    exact bind_of_error (during_error (hrefused _))
  have hwhole : replicator.applyWhole true
      (({ files := locked } : Store).session { incoming := connection }) =
        .error { stage := .checkingRevision, error } (store.session last) :=
    bind_of_error hcontents
  rw [Replicator.apply_eq_outcomeOf hlock, hwhole]
  rfl

/-- An apply that fails where the revision is checked has opened its changeset. -/
theorem opened_of_stage (hlock : acquireLock replicator.directory files = .ok (lock, locked))
    {failure : Failure} (h : (replicator.apply trusted connection files).result = .error failure)
    (hstage : failure.stage = .checkingRevision) :
    ∃ header last store, replicator.openChangeset
      (({ files := locked } : Store).session { incoming := connection }) =
        .ok header (Store.session store last) := by
  rw [Replicator.apply_eq_outcomeOf hlock] at h
  cases hopened : replicator.openChangeset
    (({ files := locked } : Store).session { incoming := connection }) with
  | ok header after =>
      obtain ⟨last, store, rfl, -⟩ := Enough.openChangeset replicator hopened
      exact ⟨header, last, store, rfl⟩
  | error error after =>
      -- It would have failed in the header.
      have hcontents : replicator.applyContents trusted
          (({ files := locked } : Store).session { incoming := connection }) =
            .error { stage := .readingHeader, error } after :=
        bind_of_error (during_error hopened)
      have hwhole : replicator.applyWhole trusted
          (({ files := locked } : Store).session { incoming := connection }) =
            .error { stage := .readingHeader, error } after :=
        bind_of_error hcontents
      rw [hwhole] at h
      cases h
      cases hstage

/-- However the connection goes on after the reads that bring the header, an apply that does not
accept the answer to its question fails, and leaves the other reads alone. -/
theorem apply_of_asks (hasks : Asks replicator files reads.delivery.bytes preamble)
    (hrefused : ∀ session,
      replicator.checkRevision true preamble.startRevision.value session = .error error session)
    (later : Connection) :
    (replicator.apply true (reads ++ later) files).result =
        .error { stage := .checkingRevision, error } ∧
      ∃ left, (replicator.apply true (reads ++ later) files).remaining = left ++ later := by
  have haccepts : ¬ replicator.Accepts true preamble.startRevision.value := by
    intro haccepts
    have hfails := hrefused (Session.start reads files)
    simp only [Replicator.checkRevision, checkAnswer, haccepts rfl, if_true, require] at hfails
    cases hfails
  obtain ⟨failure, hfailure, hstage⟩ := stage_of_refused hasks haccepts
  obtain ⟨⟨lock, locked⟩, hlock⟩ := hasks.lock
  obtain ⟨header, last, store, hopened⟩ := opened_of_stage hlock hfailure hstage
  -- The header that was read is the one that the reads bring.
  obtain ⟨other, hother, hstart⟩ := preamble_of_openChangeset rfl hopened
  rw [Preamble.eq_of_isPrefix hother hasks.header] at hstart
  rw [← hstart] at hrefused
  obtain ⟨place, done, hsame, hmore⟩ := Enough.openChangeset replicator hopened
  rw [apply_of_refused hlock (hmore later) hrefused]
  exact ⟨rfl, place.incoming, rfl⟩

/-- A table file is neither the lock file nor an archive. -/
theorem ReplicaFile.OfTable.apart {file : ReplicaFile} (h : file.OfTable) {place : Location}
    (hplace : files.resolve (file.path replicator.directory) = .ok place) :
    files.resolve (lockFilePath replicator.directory) ≠ .ok place ∧
      ∀ start, files.resolve (archivePath replicator.directory start) ≠ .ok place := by
  have hfile : file.Proper := by
    cases file <;> first | exact h | exact h.elim
  have hlock : ReplicaFile.lock.Proper := trivial
  refine ⟨fun hother => ?_, fun start hother => ?_⟩
  · obtain rfl := ReplicaFile.place_inj hfile hlock hplace hother
    exact h
  · have harchive : (ReplicaFile.archive start).Proper := trivial
    obtain rfl := ReplicaFile.place_inj hfile harchive hplace hother
    exact h

/-- Where an apply changes a table file, it has accepted the answer to its question. -/
theorem accepts_of_changed (hfree : LockFree replicator.directory home files) {file : ReplicaFile}
    {place : Location} (hfile : file.OfTable)
    (hplace : files.resolve (file.path replicator.directory) = .ok place)
    (hchanged : (replicator.apply trusted connection files).files.get? place ≠ files.get? place) :
    ∃ preamble : Preamble, preamble.bytes <+: connection.delivery.bytes ∧
      replicator.Accepts trusted preamble.startRevision.value := by
  obtain ⟨hlock, harchive⟩ := hfile.apart hplace
  have hprogress := replicator.progress_of_apply hfree trusted connection
  cases hresult : (replicator.apply trusted connection files).result with
  | ok applied =>
      rw [hresult] at hprogress
      cases hprogress with
      | completed changeset _ effects bytes hbytes _ haccepts _ =>
          exact ⟨changeset.preamble, hbytes ▸ changeset.preamble_isPrefix, haccepts⟩
  | error failure =>
      rw [hresult] at hprogress
      cases hprogress with
      | unopened _ _ hstage _ _ =>
          exact absurd (Replicator.get?_of_header hfree hresult hstage hlock) hchanged
      | halted _ _ effects refused hstage _ =>
          rcases hstage with hstage | ⟨-, hheader⟩
          · obtain ⟨preamble, -, hsame, -⟩ :=
              Replicator.archived_of_revision hfree hresult hstage
            exact absurd (hsame place hlock fun _ => harchive _) hchanged
          · exact hheader

end

namespace Replicator

variable (replicator : Replicator)

/-- A trusted apply succeeds, or changes a table, only if the revision reader answers the start
revision of the header. If it answers anything else or fails, so does the apply, without reading
beyond the header. An apply that is not trusted comes to the same whatever the reader says. -/
theorem apply_guarded (connection : Connection) (files : FileSystem) :
    Guarded replicator connection files (replicator.apply true connection files) ∧
      ∀ first second : RevisionReader,
        (replicator.asking first).apply false connection files =
          (replicator.asking second).apply false connection files := by
  refine ⟨?_, fun _ _ => rfl⟩
  refine
    { applied := fun applied happlied => ?_
      changed := fun file place hfile hplace hchanged => ?_
      wrong := fun preamble current hasks hreader hwrong => ?_
      failed := fun preamble error hasks hreader => ?_
      unread := fun preamble reads later hconnection hasks hother => ?_
      untouched := fun preamble hasks hother place hlock harchive => ?_ }
  · rcases replicator.lockFree_or_locked true connection files with
      ⟨home, hfree⟩ | ⟨failure, hfailure, -⟩
    · have hprogress := replicator.progress_of_apply hfree true connection
      rw [happlied] at hprogress
      cases hprogress with
      | completed changeset _ effects bytes hbytes _ haccepts _ =>
          exact ⟨changeset.preamble, hbytes ▸ changeset.preamble_isPrefix, rfl, haccepts rfl⟩
    · rw [happlied] at hfailure
      cases hfailure
  · rcases replicator.lockFree_or_locked true connection files with
      ⟨home, hfree⟩ | ⟨failure, -, -, hsame⟩
    · obtain ⟨preamble, hpreamble, haccepts⟩ := accepts_of_changed hfree hfile hplace hchanged
      exact ⟨preamble, hpreamble, haccepts rfl⟩
    · rw [hsame] at hchanged
      exact absurd rfl hchanged
  · have hresult := (apply_of_asks hasks (checkRevision_of_wrong hreader hwrong) []).1
    rwa [List.append_nil] at hresult
  · have hresult := (apply_of_asks hasks (checkRevision_of_error hreader _) []).1
    rwa [List.append_nil] at hresult
  · obtain ⟨error, hcheck⟩ := checkRevision_refuses hother
    subst hconnection
    exact (apply_of_asks hasks hcheck later).2
  · obtain ⟨taken, htaken⟩ := hasks.lock
    obtain ⟨home, hfree⟩ := lockFree_of_acquireLock htaken
    obtain ⟨failure, hfailure, hstage⟩ :=
      stage_of_refused hasks fun haccepts => hother (haccepts rfl)
    obtain ⟨header, hheader, hsame, -⟩ := archived_of_revision hfree hfailure hstage
    rw [Preamble.eq_of_isPrefix hheader hasks.header] at hsame
    exact hsame place hlock harchive

/-- A replica at another revision than `sampleStream` applies to is left alone, although nothing
comes after the header. -/
theorem apply_guarded_sample :
    ((sampleReplicator.asking (.fixed 7)).apply true
        [.data sampleStream.preamble.bytes, .stall] {}).result =
      .error { stage := .checkingRevision, error := .protocol (.wrongRevision 4 7) } := by
  have hasks : Asks (sampleReplicator.asking (.fixed 7)) {}
      (Connection.delivery [.data sampleStream.preamble.bytes, .stall]).bytes
      sampleStream.preamble :=
    { lock := ⟨_, rfl⟩
      header := by decide
      archive := .inr (by decide) }
  exact (apply_guarded (sampleReplicator.asking (.fixed 7)) _ {}).1.wrong _ 7 hasks rfl (by decide)

end Replicator

end TableReplica.Apply
