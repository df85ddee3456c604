import TableReplica.Proofs.Failures
import TableReplica.Proofs.Progress

/-!
# The failing stage bounds what happened

The stage of a failure tells how far an apply has come. While it awaits the lock it has read nothing
and changed nothing; in the header it has changed at most the lock file; when it checks the revision
it has archived the header and changed no table; and in the footer all chunks up to the end tag have
taken full effect. `Reached` says what was archived and changed in each stage, `tracks_stages` that
the plan of an apply comes to that, and `apply_stage` what it means for the files. Which error may
come in which stage is told by `errorStages`.
-/

namespace TableReplica.Apply

open Files Transport Wire Format

/-- What was archived and changed when an apply halts in a stage, and which effect was refused. -/
inductive Reached (directory : Path) (files : FileSystem) (accepts : Nat → Prop) (stream : Bytes) :
    Stage → Bytes → List Effect → Option Effect → Prop where
  | header (refused : Option Effect) :
      Reached directory files accepts stream .readingHeader [] [] refused
  | revision (preamble : Preamble) :
      Reached directory files accepts stream .checkingRevision preamble.bytes
        [.openArchive preamble.startRevision.value] none
  | chunks (stored : Bytes) (changes : List Effect) (refused : Option Effect) :
      Reached directory files accepts stream .readingChunks stored changes refused
  | footer (preamble : Preamble) (chunks : List Chunk) :
      accepts preamble.startRevision.value → (∀ chunk ∈ chunks, chunk.Clear directory files) →
        preamble.bytes ++ (chunks.flatMap Chunk.bytes ++ [tagByte .finish]) <+: stream →
        Reached directory files accepts stream .readingFooter
          (preamble.bytes ++ chunks.flatMap Chunk.bytes)
          (.openArchive preamble.startRevision.value :: chunks.flatMap Plan.chunkChanges) none

namespace Reached

variable {directory : Path} {files : FileSystem} {accepts : Nat → Prop} {stream stored : Bytes}
  {changes : List Effect} {refused : Option Effect}

theorem of_header
    (h : Reached directory files accepts stream .readingHeader stored changes refused) :
    changes = [] := by
  cases h
  rfl

theorem of_revision
    (h : Reached directory files accepts stream .checkingRevision stored changes refused) :
    ∃ preamble : Preamble, stored = preamble.bytes ∧
      changes = [.openArchive preamble.startRevision.value] ∧ refused = none := by
  cases h with
  | revision preamble => exact ⟨preamble, rfl, rfl, rfl⟩

theorem of_footer
    (h : Reached directory files accepts stream .readingFooter stored changes refused) :
    ∃ preamble : Preamble, ∃ chunks : List Chunk, accepts preamble.startRevision.value ∧
      (∀ chunk ∈ chunks, chunk.Clear directory files) ∧
      preamble.bytes ++ (chunks.flatMap Chunk.bytes ++ [tagByte .finish]) <+: stream ∧
      changes = .openArchive preamble.startRevision.value :: chunks.flatMap Plan.chunkChanges ∧
      refused = none := by
  cases h with
  | footer preamble chunks haccepts hclear hinitial =>
      exact ⟨preamble, chunks, haccepts, hclear, hinitial, rfl, rfl⟩

end Reached

namespace Replicator

/-- Whatever the files are, the plan of an apply has come to what its stage tells when it halts. -/
theorem tracks_stages (replicator : Replicator) (trusted : Bool) (archived : Option Nat)
    (files : FileSystem) (stream : Bytes) :
    Tracks (Effect.Clear replicator.directory archived files) stream [] [] []
      (replicator.plan trusted) (fun _ _ _ _ => True)
      fun stored changes reason => Reached replicator.directory files
        (replicator.Accepts trusted) stream (haltStage reason) stored changes reason.getLeft? := by
  refine .bind (.during (Plan.tracks_opening (fun stop => .header none)
    (fun preamble => .header _) fun preamble => .bind (.during (Plan.tracks_revision
      (fun stop => .revision preamble) fun haccepts => .bind (.during (Plan.tracks_chunks
        (fun {chunks bytes made refused} reason _ hmark hreason => ?_)
        fun chunks stats hclear => .within fun htag => .bind (.during (Plan.tracks_required
          (fun stop => ?_) fun required _ => .pure trivial))))))))
  · have hstage : haltStage (reason.map id fun stop => Halt.mk .readingChunks stop) =
        .readingChunks := by
      subst hreason
      cases reason with
      | inl effect => cases hmark <;> rfl
      | inr stop => rfl
    rw [hstage]
    exact .chunks _ _ _
  · -- The end tag has been read and is not archived yet.
    simpa [haltStage] using Reached.footer preamble chunks haccepts hclear (by simpa using htag)

variable (replicator : Replicator) {trusted : Bool} {home : Location} {files : FileSystem}

/-- What was archived and changed when the course of an apply halts is told by the stage. Past the
header this is what the last landmark tells. -/
theorem reached_of_halts {delivery : Delivery} {junk : Nat} {archived : Option Nat}
    {done : List Effect} {reason : Effect ⊕ Halt}
    (h : (replicator.course trusted delivery junk).Halts
      (Effect.Clear replicator.directory archived files) done reason) :
    Reached replicator.directory files (replicator.Accepts trusted) delivery.bytes
        (haltStage reason) (allArchived done) (changesOf done) reason.getLeft? ∧
      (haltStage reason = .readingHeader ∧ changesOf done = [] ∨
        Furthest replicator.directory files (replicator.Accepts trusted) delivery.bytes
          (allArchived done) (changesOf done) reason.getLeft?) := by
  rcases replicator.halts_of_course h with
    hplan | ⟨⟨receipt, last, hplan⟩, hclear, hstage, hrefused⟩
  · refine ⟨((replicator.tracks_stages trusted archived files delivery.bytes
      { ahead := delivery.bytes } rfl rfl).2 _ _ hplan).1, ?_⟩
    exact (replicator.furthest_of_halts hplan).imp (fun h => ⟨h.1, h.2.2⟩) (·.2)
  · obtain ⟨⟨changeset, hstream, hcompleted⟩, hfurthest⟩ :=
      replicator.furthest_of_completes hplan hclear
    rw [hstage, hrefused]
    refine ⟨?_, .inr hfurthest⟩
    rw [hcompleted.archived, hcompleted.made]
    refine .footer changeset.preamble changeset.chunks hcompleted.accepted hcompleted.clear ?_
    rw [hstream, changeset.bytes_eq]
    exact ⟨changeset.required.spelling ++ last.ahead, by simp⟩

variable {replicator} {connection : Connection}

/-- An apply that takes the lock and fails has only touched the lock file, or it has begun to make
its changes and come to what its stage tells. -/
theorem reached_of_failed (hfree : LockFree replicator.directory home files) {failure : Failure}
    (h : (replicator.apply trusted connection files).result = .error failure) :
    failure.stage = .readingHeader ∧
        Edited home [locking] files (replicator.apply trusted connection files).files ∨
      ∃ effects refused,
        Begun replicator trusted home files connection.delivery.bytes effects refused
            (allArchived effects) (replicator.apply trusted connection files).files ∧
          Reached replicator.directory files (replicator.Accepts trusted) connection.delivery.bytes
            failure.stage (allArchived effects) (changesOf effects) refused := by
  obtain ⟨junk, hanswer, hedited⟩ := apply_of_lockFree hfree trusted connection
  rw [hanswer] at h
  rcases (replicator.course trusted connection.delivery junk).halts_or_completes
    (Effect.Clear replicator.directory (archivedBy replicator.config.maxChangesets
      (replicator.course trusted connection.delivery junk).effects) files) with
    ⟨done, reason, hhalts⟩ | ⟨⟨found, hfound⟩, hclear⟩
  · obtain ⟨error, herror⟩ := replicator.answer_of_halts hhalts connection.delivery.ending
    rw [herror] at h
    cases h
    have hmade : (replicator.attempted files
        (replicator.course trusted connection.delivery junk)).2 = _ := (attempt_of_halts hhalts).1
    rw [hmade] at hedited
    obtain ⟨hreached, ⟨hstage, hnothing⟩ | hfurthest⟩ := replicator.reached_of_halts hhalts
    · left
      rw [replicator.editsOf_unopened (replicator.orderly_course trusted _ junk) hhalts hnothing]
        at hedited
      exact ⟨hstage, hedited⟩
    · exact .inr ⟨done, reason.getLeft?, replicator.begun_of_halts hhalts hfurthest hedited,
        hreached⟩
  · obtain ⟨_, _, _, -, -, -, -, happlied, -⟩ :=
      replicator.begun_of_completes hfound hclear hedited
    rw [happlied] at h
    cases h

/-- An apply that succeeds has read a changeset that it accepts, made all of its changes, and
answers with its revisions and counts. -/
theorem completed_of_applied (hfree : LockFree replicator.directory home files) {applied : Applied}
    (h : (replicator.apply trusted connection files).result = .ok applied) :
    ∃ changeset : Stream, ∃ effects bytes, changeset.bytes = connection.delivery.bytes ∧
      replicator.Accepts trusted changeset.startRevision.value ∧
      applied = appliedOf changeset replicator.config.maxChangesets ∧
      changesOf effects = streamChanges changeset ∧
      Begun replicator trusted home files connection.delivery.bytes effects none bytes
        (replicator.apply trusted connection files).files := by
  obtain ⟨junk, hanswer, hedited⟩ := apply_of_lockFree hfree trusted connection
  rw [hanswer] at h
  rcases (replicator.course trusted connection.delivery junk).halts_or_completes
    (Effect.Clear replicator.directory (archivedBy replicator.config.maxChangesets
      (replicator.course trusted connection.delivery junk).effects) files) with
    ⟨done, reason, hhalts⟩ | ⟨⟨found, hfound⟩, hclear⟩
  · obtain ⟨error, herror⟩ := replicator.answer_of_halts hhalts connection.delivery.ending
    rw [herror] at h
    cases h
  · obtain ⟨changeset, effects, bytes, hbytes, hchanges, -, haccepts, happlied, hbegun⟩ :=
      replicator.begun_of_completes hfound hclear hedited
    rw [happlied] at h
    exact ⟨changeset, effects, bytes, hbytes, haccepts, (Except.ok.inj h).symm, hchanges, hbegun⟩

/-- An apply that succeeds has begun to make its changes and come to the last of them. -/
theorem begun_of_applied (hfree : LockFree replicator.directory home files) {applied : Applied}
    (h : (replicator.apply trusted connection files).result = .ok applied) :
    ∃ changeset : Stream, ∃ effects bytes, changeset.bytes = connection.delivery.bytes ∧
      changesOf effects = streamChanges changeset ∧
      Begun replicator trusted home files connection.delivery.bytes effects none bytes
        (replicator.apply trusted connection files).files := by
  obtain ⟨changeset, effects, bytes, hbytes, -, -, hchanges, hbegun⟩ :=
    completed_of_applied hfree h
  exact ⟨changeset, effects, bytes, hbytes, hchanges, hbegun⟩

/-- A changeset with nothing in its way is applied. -/
theorem applied_of_clear (hfree : LockFree replicator.directory home files) {changeset : Stream}
    (haccepts : replicator.Accepts trusted changeset.startRevision.value)
    (hbytes : changeset.bytes = connection.delivery.bytes)
    (hclosed : connection.delivery.ending = .closed)
    (hclear : ∀ effect ∈ streamChanges changeset, effect.Clear replicator.directory
      (if replicator.config.maxChangesets = 0 then none else some changeset.startRevision.value)
      files) :
    (replicator.apply trusted connection files).result =
      .ok (appliedOf changeset replicator.config.maxChangesets) := by
  obtain ⟨junk, hanswer, -⟩ := apply_of_lockFree hfree trusted connection
  obtain ⟨effects, last, hcourse, hchanges, harchived, hconsumed⟩ :=
    replicator.course_of_stream haccepts hbytes hclosed junk
  have horderly := replicator.orderly_course trusted connection.delivery junk
  rw [hcourse] at hanswer horderly
  rw [← hchanges, ← archivedBy_eq horderly hchanges] at hclear
  exact hanswer.trans
    (answer_of_stream horderly hchanges harchived hconsumed (Effect.clear_of_changes hclear) _).1

end Replicator

section

variable {replicator other : Replicator} {trusted vouched : Bool} {home : Location}
  {files after last : FileSystem} {stream replay bytes : Bytes}
  {effects others changes : List Effect} {start next : Nat} {place : Location}

/-- What became of a file other than the archive is told by the changes after the opening of the
archive. -/
theorem Begun.get?_changed
    (h : Begun replicator trusted home files stream effects none bytes after)
    (hchanges : changesOf effects = .openArchive start :: changes) {name : String}
    (hname : replicator.config.maxChangesets ≠ 0 → name ≠ archiveName start) :
    after.get? (home ++ [name]) =
      Change.run (Edit.changesAt name (locking :: changes.flatMap (Effect.edits none)))
        (files.get? (home ++ [name])) := by
  have harchived := archivedBy_eq (h.orderly.of_isPrefix (List.prefix_append _ _)) hchanges
    replicator.config.maxChangesets
  rw [h.get?_name, hchanges]
  · simp [editsOf, Effect.edits]
  · rw [harchived]
    split
    · simp
    · next hretention => simpa using hname hretention

/-- The place of a file other than the archive. -/
theorem Begun.name_ne_archive
    (h : Begun replicator trusted home files stream effects none bytes after)
    (hhome : files.LeadsTo replicator.directory home)
    (hchanges : changesOf effects = .openArchive start :: changes) {name : String}
    (hplace : replicator.config.maxChangesets ≠ 0 →
      files.resolve (archivePath replicator.directory start) ≠ .ok (home ++ [name])) :
    replicator.config.maxChangesets ≠ 0 → name ≠ archiveName start := by
  rintro hretention rfl
  exact hplace hretention (h.resolve_archive hhome hretention hchanges).1

/-- Applies that make the same changes leave the same files, but for their archives. -/
theorem Begun.get?_same
    (h : Begun replicator trusted home files stream effects none bytes after)
    {remade : Bytes} (hother : Begun other vouched home files replay others none remade last)
    (hhome : files.LeadsTo replicator.directory home)
    (hdirectory : other.directory = replicator.directory)
    (hchanges : changesOf effects = .openArchive start :: changes)
    (hsame : changesOf others = .openArchive next :: changes)
    (hplace : ∀ start, files.resolve (archivePath replicator.directory start) ≠ .ok place) :
    after.get? place = last.get? place := by
  rcases inside_or_outside home place with ⟨name, rfl⟩ | houtside
  · rw [h.get?_changed hchanges (h.name_ne_archive hhome hchanges fun _ => hplace start),
      hother.get?_changed hsame (hother.name_ne_archive (hdirectory ▸ hhome) hsame
        fun _ => hdirectory ▸ hplace next)]
  · rw [h.edited.outside place houtside, hother.edited.outside place houtside]

/-- Where only the lock file and the archive were touched, everything else is as it was. -/
theorem get?_of_locking (hfree : LockFree replicator.directory home files)
    (hnames : ∀ name, place = home ++ [name] → after.get? place =
      Change.run (Edit.changesAt name [locking]) (files.get? place))
    (houtside : (∀ name, place ≠ home ++ [name]) → after.get? place = files.get? place)
    (hplace : files.resolve (lockFilePath replicator.directory) ≠ .ok place) :
    after.get? place = files.get? place := by
  rcases inside_or_outside home place with ⟨name, rfl⟩ | hother
  · have hname : locking.name ≠ name := by
      rintro rfl
      exact hplace hfree.resolve
    rw [hnames name rfl, Edit.changesAt_cons, if_neg hname]
    rfl
  · exact houtside hother

end

/-- All chunks have taken full effect: the files other than archives are as an accepted apply of the
same chunks leaves them, whatever else it reads and whoever makes it, and there is one. -/
structure TookEffect (replicator : Replicator) (chunks : List Chunk) (before after : FileSystem) :
    Prop where
  accepted : ∃ (trusted : Bool) (connection : Connection) (changeset : Stream) (applied : Applied),
    changeset.bytes = connection.delivery.bytes ∧ changeset.chunks = chunks ∧
      (replicator.apply trusted connection before).result = .ok applied
  same : ∀ (other : Replicator) (trusted : Bool) (connection : Connection) (changeset : Stream)
    (applied : Applied), other.directory = replicator.directory →
      changeset.bytes = connection.delivery.bytes → changeset.chunks = chunks →
      (other.apply trusted connection before).result = .ok applied →
        ∀ place, (∀ start, before.resolve (archivePath replicator.directory start) ≠ .ok place) →
          after.get? place = (other.apply trusted connection before).files.get? place

/-- What the stage of a failure tells about the apply. -/
structure Staged (replicator : Replicator) (trusted : Bool) (connection : Connection)
    (before : FileSystem) (outcome : Outcome) (failure : Failure) : Prop where
  /-- The lock is awaited just where it cannot be taken. -/
  locked : failure.stage = .awaitingLock ↔
    acquireLock replicator.directory before = .error failure.error
  /-- Then the error is about the lock, and nothing is read. -/
  unread : failure.stage = .awaitingLock →
    (∃ refusal, failure.error = .lock replicator.directory refusal) ∧
      outcome.remaining = connection
  /-- In the header nothing but the lock file is touched. -/
  header : failure.stage = .readingHeader → ∀ place,
    before.resolve (lockFilePath replicator.directory) ≠ .ok place →
      outcome.files.get? place = before.get? place
  /-- When the revision is checked, nothing but the lock file and the archive is touched, and the
  archive holds just the header. -/
  revision : failure.stage = .checkingRevision →
    ∃ preamble : Preamble, preamble.bytes <+: connection.delivery.bytes ∧
      (∀ place, before.resolve (lockFilePath replicator.directory) ≠ .ok place →
        (replicator.config.maxChangesets ≠ 0 → before.resolve
          (archivePath replicator.directory preamble.startRevision.value) ≠ .ok place) →
          outcome.files.get? place = before.get? place) ∧
      (replicator.config.maxChangesets ≠ 0 → outcome.files.readFile
        (archivePath replicator.directory preamble.startRevision.value) = .ok preamble.bytes)
  /-- In the footer all chunks up to the end tag have taken full effect. -/
  footer : failure.stage = .readingFooter → ∃ (preamble : Preamble) (chunks : List Chunk),
    preamble.bytes ++ (chunks.flatMap Chunk.bytes ++ [tagByte .finish]) <+:
        connection.delivery.bytes ∧
      TookEffect replicator chunks before outcome.files
  /-- The error is found in its stage, or it is what the revision reader says. -/
  found : failure.stage ∈ errorStages failure.error ∨
    failure.stage = .checkingRevision ∧ trusted = true ∧
      replicator.revisions replicator.directory = .error failure.error
  /-- If the revision reader fails with nothing but errors about the revision, every error is found
  in its stage, and all errors about the lock while it is awaited. -/
  faithful : (∀ error, replicator.revisions replicator.directory = .error error →
      ∃ path detail, error = .revision path detail) →
    failure.stage ∈ errorStages failure.error ∧
      (failure.stage = .awaitingLock ↔ ∃ path refusal, failure.error = .lock path refusal)
  /-- Nothing fails when it is done. -/
  undone : failure.stage ≠ .done

namespace Replicator

variable {replicator : Replicator} {trusted : Bool} {home : Location} {files : FileSystem}
  {connection : Connection} {failure : Failure}

/-- An apply that fails with the end tag behind it has done what an accepted one does. -/
theorem tookEffect_of_begun (hfree : LockFree replicator.directory home files)
    {preamble : Preamble} {chunks : List Chunk} {effects : List Effect} {stream bytes : Bytes}
    {after : FileSystem} (haccepts : replicator.Accepts trusted preamble.startRevision.value)
    (hclear : ∀ chunk ∈ chunks, chunk.Clear replicator.directory files)
    (h : Begun replicator trusted home files stream effects none bytes after)
    (hchanges : changesOf effects =
      .openArchive preamble.startRevision.value :: chunks.flatMap Plan.chunkChanges) :
    TookEffect replicator chunks files after := by
  refine ⟨?_, ?_⟩
  · -- The end revision will do as the required one.
    let changeset : Stream :=
      { preamble.bare with chunks, required := preamble.endRevision, later := le_rfl }
    have hsome : changeset.bytes ≠ [] := by
      rw [changeset.bytes_eq]
      simp
    have hdelivery : Connection.delivery ([changeset.bytes].map .data) = _ :=
      Connection.delivery_map_data (by simpa using hsome)
    have hbytes : changeset.bytes = (Connection.delivery ([changeset.bytes].map .data)).bytes := by
      rw [hdelivery]
      simp
    have hopened := h.clear (.openArchive preamble.startRevision.value)
      (List.mem_filter.mp (hchanges ▸ List.mem_cons_self : _ ∈ changesOf effects)).1
    rw [archivedBy_eq (h.orderly.of_isPrefix (List.prefix_append _ _)) hchanges] at hopened
    have hall : ∀ effect ∈ streamChanges changeset, effect.Clear replicator.directory _ files :=
      List.forall_mem_cons.mpr ⟨hopened, List.forall_mem_flatMap.mpr fun chunk hmem =>
        Effect.clear_chunkChanges.mpr (hclear chunk hmem)⟩
    exact ⟨trusted, _, changeset, _, hbytes, rfl,
      applied_of_clear hfree haccepts hbytes (by rw [hdelivery]) hall⟩
  · intro other vouched connection changeset applied hdirectory hbytes hchunks happlied place hplace
    obtain ⟨read, others, remade, hread, hsame, hbegun⟩ :=
      begun_of_applied (hdirectory ▸ hfree) happlied
    obtain rfl := Stream.unambiguous (hread.trans hbytes.symm)
    subst hchunks
    exact h.get?_same hbegun hfree.leads hdirectory hchanges hsame hplace

/-- An apply that cannot take the lock fails while it awaits it, and reads nothing. -/
theorem stage_of_locked {error : ReplicaError}
    (hlock : acquireLock replicator.directory files = .error error)
    (h : (replicator.apply trusted connection files).result = .error failure) :
    failure.stage = .awaitingLock ∧ failure.error = error ∧
      (replicator.apply trusted connection files).remaining = connection := by
  rw [apply_of_lock_error hlock] at h ⊢
  cases h
  exact ⟨rfl, rfl, rfl⟩

/-- An apply that takes the lock does not fail for it. -/
theorem stage_ne_awaitingLock (hfree : LockFree replicator.directory home files)
    (h : (replicator.apply trusted connection files).result = .error failure) :
    failure.stage ≠ .awaitingLock := by
  intro hstage
  rcases reached_of_failed hfree h with ⟨hheader, -⟩ | ⟨effects, refused, -, hreached⟩
  · rw [hstage] at hheader
    cases hheader
  · rw [hstage] at hreached
    cases hreached

/-- What fails in the header has touched nothing but the lock file. -/
theorem get?_of_header (hfree : LockFree replicator.directory home files)
    (h : (replicator.apply trusted connection files).result = .error failure)
    (hstage : failure.stage = .readingHeader) {place : Location}
    (hplace : files.resolve (lockFilePath replicator.directory) ≠ .ok place) :
    (replicator.apply trusted connection files).files.get? place = files.get? place := by
  rcases reached_of_failed hfree h with ⟨-, hedited⟩ | ⟨effects, refused, hbegun, hreached⟩
  · exact get?_of_locking hfree (fun name hname => hname ▸ hedited.inside name)
      (hedited.outside place) hplace
  · rw [hstage] at hreached
    obtain ⟨_, -, -, ⟨rest, hopened⟩, -⟩ := hbegun.preamble
    rw [hreached.of_header] at hopened
    cases hopened

/-- What fails when the revision is checked has archived the header, and touched nothing else but
the lock file. -/
theorem archived_of_revision (hfree : LockFree replicator.directory home files)
    (h : (replicator.apply trusted connection files).result = .error failure)
    (hstage : failure.stage = .checkingRevision) :
    ∃ preamble : Preamble, preamble.bytes <+: connection.delivery.bytes ∧
      (∀ place, files.resolve (lockFilePath replicator.directory) ≠ .ok place →
        (replicator.config.maxChangesets ≠ 0 → files.resolve
          (archivePath replicator.directory preamble.startRevision.value) ≠ .ok place) →
          (replicator.apply trusted connection files).files.get? place = files.get? place) ∧
      (replicator.config.maxChangesets ≠ 0 →
        (replicator.apply trusted connection files).files.readFile
          (archivePath replicator.directory preamble.startRevision.value) = .ok preamble.bytes) := by
  rcases reached_of_failed hfree h with ⟨hheader, -⟩ | ⟨effects, refused, hbegun, hreached⟩
  · rw [hstage] at hheader
    cases hheader
  rw [hstage] at hreached
  obtain ⟨preamble, harchived, hchanges, rfl⟩ := hreached.of_revision
  refine ⟨preamble, harchived ▸ hbegun.furthest.reached.isPrefix, fun place hlock hplace => ?_,
    fun hretention => ?_⟩
  · refine get?_of_locking hfree ?_ (hbegun.edited.outside place) hlock
    rintro name rfl
    exact hbegun.get?_changed hchanges (hbegun.name_ne_archive hfree.leads hchanges hplace)
  · rw [← harchived]
    exact hbegun.readFile_archive hfree.leads hretention hchanges

/-- What fails in the footer has done what an accepted apply does. -/
theorem tookEffect_of_footer (hfree : LockFree replicator.directory home files)
    (h : (replicator.apply trusted connection files).result = .error failure)
    (hstage : failure.stage = .readingFooter) :
    ∃ (preamble : Preamble) (chunks : List Chunk),
      preamble.bytes ++ (chunks.flatMap Chunk.bytes ++ [tagByte .finish]) <+:
          connection.delivery.bytes ∧
        TookEffect replicator chunks files (replicator.apply trusted connection files).files := by
  rcases reached_of_failed hfree h with ⟨hheader, -⟩ | ⟨effects, refused, hbegun, hreached⟩
  · rw [hstage] at hheader
    cases hheader
  rw [hstage] at hreached
  obtain ⟨preamble, chunks, haccepts, hclear, hinitial, hchanges, rfl⟩ := hreached.of_footer
  exact ⟨preamble, chunks, hinitial, tookEffect_of_begun hfree haccepts hclear hbegun hchanges⟩

/-- Just an apply that cannot take the lock fails while it awaits it. -/
theorem stage_eq_awaitingLock
    (h : (replicator.apply trusted connection files).result = .error failure) :
    failure.stage = .awaitingLock ↔
      acquireLock replicator.directory files = .error failure.error := by
  cases hlock : acquireLock replicator.directory files with
  | error error =>
      obtain ⟨hstage, rfl, -⟩ := stage_of_locked hlock h
      exact iff_of_true hstage rfl
  | ok taken =>
      obtain ⟨home, hfree⟩ := lockFree_of_acquireLock hlock
      exact iff_of_false (stage_ne_awaitingLock hfree h) (by simp)

/-- A failure past the lock has found it free. -/
theorem exists_lockFree
    (h : (replicator.apply trusted connection files).result = .error failure)
    (hstage : failure.stage ≠ .awaitingLock) :
    ∃ home, LockFree replicator.directory home files := by
  cases hlock : acquireLock replicator.directory files with
  | error error => exact absurd (stage_of_locked hlock h).1 hstage
  | ok taken => exact lockFree_of_acquireLock hlock

variable (replicator)

/-- Whatever an apply fails with, its stage tells what was read, changed and archived, and which
errors there can be. -/
theorem apply_stage (trusted : Bool) (connection : Connection) (files : FileSystem)
    {failure : Failure} (h : (replicator.apply trusted connection files).result = .error failure) :
    Staged replicator trusted connection files (replicator.apply trusted connection files)
      failure := by
  have hlocked := stage_eq_awaitingLock h
  have hfound := mem_errorStages_of_apply h
  refine ⟨hlocked, fun hstage => ?_, fun hstage place hplace => ?_, fun hstage => ?_,
    fun hstage => ?_, hfound, fun hreader => ?_, fun hdone => ?_⟩
  · have hlock := hlocked.mp hstage
    exact ⟨lock_of_acquireLock hlock, (stage_of_locked hlock h).2.2⟩
  · obtain ⟨home, hfree⟩ := exists_lockFree h (by simp [hstage])
    exact get?_of_header hfree h hstage hplace
  · obtain ⟨home, hfree⟩ := exists_lockFree h (by simp [hstage])
    exact archived_of_revision hfree h hstage
  · obtain ⟨home, hfree⟩ := exists_lockFree h (by simp [hstage])
    exact tookEffect_of_footer hfree h hstage
  · -- What the reader says is an error about the revision, and these are found in its stage.
    have hmem : failure.stage ∈ errorStages failure.error := by
      rcases hfound with hmem | ⟨hstage, -, herror⟩
      · exact hmem
      · obtain ⟨path, detail, hrevision⟩ := hreader _ herror
        rw [hstage, hrevision]
        exact List.mem_singleton.mpr rfl
    refine ⟨hmem, fun hstage => ?_, ?_⟩
    · obtain ⟨refusal, herror⟩ := lock_of_acquireLock (hlocked.mp hstage)
      exact ⟨_, _, herror⟩
    · rintro ⟨path, refusal, herror⟩
      rw [herror] at hmem
      exact List.mem_singleton.mp hmem
  · rcases hfound with hmem | ⟨hstage, -⟩
    · exact done_notMem_errorStages _ (hdone ▸ hmem)
    · rw [hdone] at hstage
      cases hstage

/-- A connection that stalls before the required revision of `sampleStream`. -/
def unfinishedSample : Connection :=
  [.data (sampleStream.bytes.take 26), .stall]

theorem result_unfinishedSample : (sampleReplicator.apply false unfinishedSample {}).result =
    .error { stage := .readingFooter, error := .protocol (.timeout "required revision") } := by
  decide +kernel

/-- The apply fails where it waits for the required revision, with the block written as the apply of
the whole changeset writes it. -/
theorem apply_stage_unfinished :
    (sampleReplicator.apply false unfinishedSample {}).result =
        .error { stage := .readingFooter, error := .protocol (.timeout "required revision") } ∧
      ∀ place, (∀ start, ({} : FileSystem).resolve
          (archivePath sampleReplicator.directory start) ≠ .ok place) →
        (sampleReplicator.apply false unfinishedSample {}).files.get? place =
          (sampleReplicator.apply false [.data sampleStream.bytes] {}).files.get? place := by
  refine ⟨result_unfinishedSample, ?_⟩
  obtain ⟨preamble, chunks, ⟨rest, hrest⟩, htook⟩ :=
    (apply_stage sampleReplicator false unfinishedSample {} result_unfinishedSample).footer rfl
  -- The chunks before the end tag are those of the changeset.
  have hwhole : unfinishedSample.delivery.bytes = sampleStream.preamble.bytes ++
      (sampleStream.chunks.flatMap Chunk.bytes ++ tagByte .finish :: []) := by decide
  rw [hwhole] at hrest
  simp only [List.append_assoc, List.cons_append, List.nil_append] at hrest
  obtain ⟨-, hrest⟩ := Preamble.unambiguous hrest
  obtain ⟨rfl, -⟩ := chunks_unambiguous hrest
  have happlied : (sampleReplicator.apply false [.data sampleStream.bytes] {}).result =
      .ok (appliedOf sampleStream sampleReplicator.config.maxChangesets) := by decide +kernel
  exact htook.same sampleReplicator false _ sampleStream _ rfl rfl rfl happlied

/-- The replica of `sampleReplicator` with a revision reader that fails. -/
def failingReplicator (error : ReplicaError) : Replicator :=
  { sampleReplicator with revisions := fun _ => .error error }

/-- What a revision reader fails with is passed on where it is asked, even if it is the error of a
bad header or the one of a lock that is held. -/
theorem apply_stage_foreign :
    ((failingReplicator (.protocol .badMagic)).apply true [.data sampleStream.bytes] {}).result =
        .error { stage := .checkingRevision, error := .protocol .badMagic } ∧
      ((failingReplicator (.lock sampleReplicator.directory .held)).apply true
        [.data sampleStream.bytes] {}).result =
          .error
            { stage := .checkingRevision, error := .lock sampleReplicator.directory .held } := by
  decide +kernel

end Replicator

end TableReplica.Apply
