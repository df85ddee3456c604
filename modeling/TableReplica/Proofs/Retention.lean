import TableReplica.Proofs.Archiving
import TableReplica.Proofs.Stages
import TableReplica.Proofs.Twins

/-!
# Archiving does not interfere

How many archives are kept makes no difference to what an apply reads, answers and leaves in any
other file, as long as the archive of its changeset can be opened and no reader of revisions looks
at it, or is opened both times or not at all. Read `apply_retention` first: it compares two applies
that keep different numbers of archives. They are twins from where they open their archives, and the
same up to there (`level_openChangeset`). So a reader that looks at any files but the archive gives
both the same answer, and the applies come to what they would with that answer known beforehand
(`applyAsking_eq`). A directory whose path is so long that the path to its archive is refused tells
an apply that keeps an archive from one that does not, and so does a reader that looks for the
archive (`apply_retention_told`).
-/

namespace TableReplica.Apply

open Files Transport Wire Format

/-- What an apply that succeeded did, apart from what it archived. -/
def Applied.unarchived (applied : Applied) : Applied :=
  { applied with stats.bytesArchived := 0 }

/-- Two outcomes are the same, apart from what was archived and from the files at places set
apart. -/
structure Outcome.SameApart (spare : Location → Prop) (first second : Outcome) : Prop where
  result : first.result.map Applied.unarchived = second.result.map Applied.unarchived
  remaining : first.remaining = second.remaining
  files : ∀ place, ¬ spare place → first.files.get? place = second.files.get? place

/-- The answer of a reader for a directory does not depend on what is at places set apart. -/
def FileReader.Ignores (reader : FileReader) (directory : Path) (spare : Location → Prop) : Prop :=
  ∀ first second, SameApart spare first second → reader directory first = reader directory second

/-- Twins over files that are the same but at places set apart, also in what is locked and what is
open for reading. -/
structure Level (origin : FileSystem) (spare : Location → Prop) (first second : Store) : Prop where
  twins : Twins origin spare first second
  apart : SameApart spare first.files second.files

section

variable {directory : Path} {home : Location} {files : FileSystem} {spare : Location → Prop}
  {start : Nat} {retention count : UInt32} {store : Store}

/-- Without an archive a store is level with itself. -/
theorem Level.refl (spare : Location → Prop) {locked : FileSystem}
    (h : files.SameDirectories locked) :
    Level files spare { files := locked } { files := locked } :=
  have hplaced : Store.Placed files spare { files := locked } := ⟨h, by simp [Archive.disabled]⟩
  ⟨⟨hplaced, hplaced, fun _ _ => rfl⟩, .refl spare locked⟩

theorem Level.append (data : Bytes) {one other : Store} (h : Level files spare one other) :
    Level files spare (one.append data) (other.append data) where
  twins := h.twins.append data
  apart := (h.twins.left.append data).2.trans
    (h.apart.trans (h.twins.right.append data).2.symm)

/-- An archive that nothing is in the way of is opened at a place set apart, unless none is kept.
This changes nothing elsewhere. -/
theorem Store.Placed.create (h : store.Placed files spare)
    (hopen : files.Unobstructed (archivePath directory start))
    (hspare : ∀ place, files.resolve (archivePath directory start) = .ok place → spare place)
    (retention : UInt32) :
    ∃ archive opened,
      Archive.create directory start retention store.files = .ok (archive, opened) ∧
        ({ archive, files := opened } : Store).Placed files spare ∧
        SameApart spare opened store.files := by
  unfold Archive.create
  by_cases hretention : retention = 0
  · rw [if_pos hretention]
    exact ⟨_, _, rfl, ⟨h.directories, by simp [Archive.disabled]⟩, .refl spare _⟩
  · obtain ⟨place, hresolve, hclear⟩ := hopen
    simp only [if_neg hretention]
    have hfound := FileSystem.resolve_of_same h.directories hresolve
    have hemptied := store.files.emptied (archivePath directory start)
    generalize hmade : store.files.createEmpty (archivePath directory start) = made at hemptied
    cases hemptied with
    | astray refusal hastray =>
        rw [hfound] at hastray
        cases hastray
    | obstructed blocked hblocked hdirectory =>
        obtain rfl := Except.ok.inj (hfound.symm.trans hblocked)
        exact absurd ((h.directories _).mpr hdirectory) hclear
    | made target opened htarget hfree hview =>
        obtain rfl := Except.ok.inj (hfound.symm.trans htarget)
        have hplace := hspare _ hresolve
        refine ⟨_, _, rfl, ⟨h.directories.trans (.of_made hfree hview), ?_⟩,
          .createEmpty _ hplace hmade⟩
        rintro path found ⟨⟩
        exact hplace

/-- Archives that are opened at the same place, or not at all, leave twins. -/
theorem Agree.openArchive {α : Type} {rest : Action α}
    (hopen : files.Unobstructed (archivePath directory start))
    (hspare : ∀ place, files.resolve (archivePath directory start) = .ok place → spare place)
    (hrest : Agree (Level files spare) rest rest) :
    Agree (Level files spare)
      (onFiles (Archive.create directory start retention) >>= fun archive =>
        attachArchive archive >>= fun _ => rest)
      (onFiles (Archive.create directory start count) >>= fun archive =>
        attachArchive archive >>= fun _ => rest) := by
  intro cursor one two h
  obtain ⟨archive, opened, hfirst, hplaced, hsame⟩ := h.twins.left.create hopen hspare retention
  obtain ⟨other, found, hsecond, hbeside, hagain⟩ := h.twins.right.create hopen hspare count
  have hapart : SameApart spare opened found := hsame.trans (h.apart.trans hagain.symm)
  have hafter :
      Level files spare { archive, files := opened } { archive := other, files := found } :=
    ⟨⟨hplaced, hbeside, hapart.entries⟩, hapart⟩
  exact .onFiles hfirst hsecond (hrest cursor hafter)

/-- A header that is read is the one that the stream begins with. -/
theorem preamble_of_readHeader {cursor : Cursor} (hpending : cursor.pending = []) {store : Store}
    {header : Header} {after : Session}
    (h : readHeader (store.session cursor) = .ok header after) :
    ∃ preamble : Preamble, preamble.bytes <+: cursor.ahead ∧
      header.startRevision = preamble.startRevision.value := by
  -- Reading the header looks at no files, so those of any directory will do.
  let anywhere : Path := .ofText [] "/"
  have hcarries : CarriesPlain anywhere anyFiles (fun _ => readHeader) Plan.header :=
    .readHeader
  obtain ⟨last, -, hrun⟩ := hcarries cursor
  have hcarried := hrun { retention := 0, place := [] } store trivial
  simp only [h] at hcarried
  have hread : ∃ place, (Plan.header cursor.position).outcome = .ok (header, place) := by
    generalize (Plan.header cursor.position).outcome = outcome at hcarried
    generalize performAll _ _ _ _ = performed at hcarried
    cases hcarried with
    | value value place done _ => exact ⟨place, rfl⟩
  obtain ⟨place, hread⟩ := hread
  have htracks : Tracks (Effect.Clear anywhere none {}) cursor.ahead [] [] [] Plan.header
      (fun header stored pending _ => stored = [] ∧ ∃ preamble : Preamble,
        header.startRevision = preamble.startRevision.value ∧ pending = preamble.bytes)
      fun _ _ _ => True :=
    Plan.tracks_header (fun _ => trivial) fun preamble => ⟨rfl, preamble, rfl, rfl⟩
  obtain ⟨⟨hnothing, preamble, hstart, hbytes⟩, hend⟩ :=
    (htracks cursor.position hpending rfl).1 _ header place (by rw [← hread])
      (Plan.Emits.header _)
  rw [hnothing, hbytes] at hend
  exact ⟨preamble, ⟨place.ahead, hend⟩, hstart⟩

end

namespace Replicator

variable (replicator : Replicator) {home : Location} {files locked : FileSystem}

/-- The replicator with another number of archives to keep. -/
def keeping (retention : UInt32) : Replicator :=
  { replicator with config.maxChangesets := retention }

/-- The lock does not depend on how many archives are kept. -/
theorem acquireLock_keeping {taken : Except ReplicaError (Location × FileSystem)}
    (h : acquireLock replicator.directory files = taken) (retention : UInt32) :
    acquireLock (replicator.keeping retention).directory files = taken :=
  h

/-- The replicator with another reader of revisions. -/
def asking (revisions : RevisionReader) : Replicator :=
  { replicator with revisions }

/-- The places where the archive of the changeset that a stream is about can be. -/
def ArchivePlace (files : FileSystem) (stream : Bytes) (place : Location) : Prop :=
  ∃ preamble : Preamble, preamble.bytes <+: stream ∧
    files.resolve (archivePath replicator.directory preamble.startRevision.value) = .ok place

variable {spare : Location → Prop} {cursor : Cursor} {one other : Store} {retention count : UInt32}

/-- Two applies open their archives at the same place, or not at all. -/
theorem level_openChangeset (hpending : cursor.pending = [])
    (hopen : ∀ preamble : Preamble, preamble.bytes <+: cursor.ahead →
      files.Unobstructed (archivePath replicator.directory preamble.startRevision.value))
    (hlevel : Level files (replicator.ArchivePlace files cursor.ahead) one other) :
    Agreed (Level files (replicator.ArchivePlace files cursor.ahead))
      ((replicator.keeping retention).openChangeset (one.session cursor))
      ((replicator.keeping count).openChangeset (other.session cursor)) := by
  refine (Agree.readHeader cursor hlevel).bind fun header last first second hread hsame => ?_
  obtain ⟨preamble, hpreamble, hstart⟩ := preamble_of_readHeader hpending hread
  rw [hstart]
  have hrest : Agree (Level files (replicator.ArchivePlace files cursor.ahead))
      (do commit; return header : Action Header) (do commit; return header : Action Header) :=
    .bind (.commit Level.append) fun _ => .pure header
  exact Agree.openArchive (hopen preamble hpreamble)
    (fun place hresolve => ⟨preamble, hpreamble, hresolve⟩) hrest last hsame

/-- Two applies that keep different numbers of archives come out alike. -/
theorem agreed_applyWhole (trusted : Bool) (hpending : cursor.pending = [])
    (hhome : files.LeadsTo replicator.directory home)
    (hopen : ∀ preamble : Preamble, preamble.bytes <+: cursor.ahead →
      files.Unobstructed (archivePath replicator.directory preamble.startRevision.value))
    (hlevel : Level files (replicator.ArchivePlace files cursor.ahead) one other) :
    Agreed (Twins files (replicator.ArchivePlace files cursor.ahead))
      ((replicator.keeping retention).applyWhole trusted (one.session cursor))
      ((replicator.keeping count).applyWhole trusted (other.session cursor)) := by
  have hopened : Agreed (Twins files (replicator.ArchivePlace files cursor.ahead))
      ((replicator.keeping retention).openChangeset (one.session cursor))
      ((replicator.keeping count).openChangeset (other.session cursor)) :=
    (replicator.level_openChangeset hpending hopen hlevel).mono Level.twins
  refine Agreed.bind (Agreed.bind (hopened.during _) fun header _ _ _ _ htwins =>
    Agree.bind (.during _ ?_) (fun _ => .bind (.during _ (.applyChunks hhome {})) fun stats =>
      .bind (.during _ ?_) fun required => .pure _) _ htwins) fun receipt _ _ _ _ htwins =>
        Agree.bind (.during _ ?_) (fun _ => .pure receipt) _ htwins
  · exact .checkRevision _ _ rfl rfl trusted header.startRevision
  · exact .bind (.read _) fun _ => .bind (.require _ _) fun _ => .pure _
  · exact .bind (.read _) fun _ => .commit Twins.append

/-- The outcome of an apply that has taken the lock. -/
def outcomeOf (lock : Location) : EStateM.Result Failure Session Receipt → Outcome
  | .ok receipt session =>
    { result := .ok (receipt.applied session.consumed session.archived)
      remaining := session.cursor.incoming
      files := releaseLock lock session.files }
  | .error failure session =>
    { result := .error failure
      remaining := session.cursor.incoming
      files := releaseLock lock session.files }

variable {replicator} in
/-- What an apply comes to once it has taken the lock. -/
theorem apply_eq_outcomeOf {lock : Location}
    (hlock : acquireLock replicator.directory files = .ok (lock, locked)) (trusted : Bool)
    (connection : Connection) :
    replicator.apply trusted connection files = outcomeOf lock
      (replicator.applyWhole trusted
        (({ files := locked } : Store).session { incoming := connection })) := by
  unfold apply applySession underLock
  simp only [Session.start, hlock, applyLocked_eq]
  generalize hrun : (replicator.applyWhole trusted >>= Receipt.summary)
    { cursor := { incoming := connection }, files := locked } = result
  change EStateM.bind (replicator.applyWhole trusted) Receipt.summary
    (({ files := locked } : Store).session { incoming := connection }) = result at hrun
  unfold EStateM.bind at hrun
  generalize replicator.applyWhole trusted
    (({ files := locked } : Store).session { incoming := connection }) = whole at hrun
  cases whole <;> subst hrun <;> rfl

/-- Runs that come out alike have the same outcome, but for what they archived. -/
theorem sameApart_of_agreed (lock : Location)
    {first second : EStateM.Result Failure Session Receipt}
    (h : Agreed (Twins files spare) first second) :
    Outcome.SameApart spare (outcomeOf lock first) (outcomeOf lock second) := by
  cases h with
  | value receipt cursor htwins => exact ⟨rfl, rfl, htwins.same⟩
  | error failure cursor htwins => exact ⟨rfl, rfl, htwins.same⟩

/-- However many archives are kept, an apply whose archive can be opened comes to the same if the
revision reader gives the same answer. -/
theorem apply_keeping (trusted : Bool) (connection : Connection) (files : FileSystem)
    (retention count : UInt32)
    (hopen : ∀ preamble : Preamble, preamble.bytes <+: connection.delivery.bytes →
      Openable files (archivePath replicator.directory preamble.startRevision.value)) :
    Outcome.SameApart (replicator.ArchivePlace files connection.delivery.bytes)
      ((replicator.keeping retention).apply trusted connection files)
      ((replicator.keeping count).apply trusted connection files) := by
  cases hlock : acquireLock replicator.directory files with
  | error error =>
      have hfailed (retention : UInt32) :
          (replicator.keeping retention).apply trusted connection files =
            { result := .error { stage := .awaitingLock, error }, remaining := connection, files } :=
        apply_of_lock_error (replicator.acquireLock_keeping hlock retention) trusted connection
      rw [hfailed retention, hfailed count]
      exact ⟨rfl, rfl, fun _ _ => rfl⟩
  | ok taken =>
      obtain ⟨home, hfree⟩ := lockFree_of_acquireLock hlock
      obtain ⟨locked, hlocked, hlocking, -⟩ := acquireLock_of_lockFree hfree
      have hcomes (retention : UInt32) :
          (replicator.keeping retention).apply trusted connection files =
            outcomeOf _ ((replicator.keeping retention).applyWhole trusted
              (({ files := locked } : Store).session { incoming := connection })) :=
        apply_eq_outcomeOf (replicator.acquireLock_keeping hlocked retention) trusted connection
      rw [hcomes retention, hcomes count]
      let cursor : Cursor := { incoming := connection }
      have hclear : ∀ preamble : Preamble, preamble.bytes <+: cursor.ahead →
          files.Unobstructed (archivePath replicator.directory preamble.startRevision.value) :=
        fun preamble hpreamble => (hopen preamble hpreamble).unobstructed hfree
      exact sameApart_of_agreed _ (replicator.agreed_applyWhole trusted rfl hfree.leads hclear
        (.refl _ hlocking.sameDirectories))

variable {replicator} in
/-- Under the lock it matters only what an action does once the lock is taken. -/
theorem underLock_congr {action other : ActionOf Failure Applied} {session : Session}
    (h : ∀ lock files, acquireLock replicator.directory session.files = .ok (lock, files) →
      action { session with files } = other { session with files }) :
    replicator.underLock action session = replicator.underLock other session := by
  unfold underLock
  cases hlock : acquireLock replicator.directory session.files with
  | error error => rfl
  | ok taken => simp only [h taken.1 taken.2 hlock]

variable {replicator} in
/-- It matters only what a check says where the changeset has been opened. -/
theorem applyChecked_congr {check other : Nat → Action Unit} {session : Session}
    (h : ∀ header after, replicator.openChangeset session = .ok header after →
      check header.startRevision after = other header.startRevision after) :
    replicator.applyChecked check session = replicator.applyChecked other session := by
  unfold applyChecked
  cases hopened : replicator.openChangeset session with
  | error error after =>
      rw [bind_of_error (during_error hopened), bind_of_error (during_error hopened)]
  | ok header after =>
      rw [bind_of_ok (during_ok hopened), bind_of_ok (during_ok hopened)]
      have hchecked : during .checkingRevision (check header.startRevision) after =
          during .checkingRevision (other header.startRevision) after := by
        unfold during
        rw [h header after hopened]
      show EStateM.bind _ _ _ = EStateM.bind _ _ _
      unfold EStateM.bind
      rw [hchecked]

/-- The files when a trusted apply asks for the revision: the lock is taken, and the archive holds
the header. -/
def filesAsked (connection : Connection) (files : FileSystem) : FileSystem :=
  match acquireLock replicator.directory files with
  | .error _ => files
  | .ok (_, locked) =>
    let session := ({ files := locked } : Store).session { incoming := connection }
    match replicator.openChangeset session with
    | .ok _ after => after.files
    | .error _ after => after.files

/-- An apply that asks a reader comes to what it would with the answer known beforehand. -/
theorem applyAsking_eq (reader : FileReader) (trusted : Bool) (connection : Connection)
    (files : FileSystem) :
    replicator.applyAsking reader trusted connection files =
      (replicator.asking fun _ => reader replicator.directory
        (replicator.filesAsked connection files)).apply trusted connection files := by
  refine underLock_congr fun lock locked hlock => applyChecked_congr fun header after hopened => ?_
  have hasked : replicator.filesAsked connection files = after.files := by
    have hheader : replicator.openChangeset
        (({ files := locked } : Store).session { incoming := connection }) = .ok header after :=
      hopened
    unfold filesAsked
    rw [show acquireLock replicator.directory files = _ from hlock]
    simp only [hheader]
  unfold checkFiles
  rw [← hasked]
  rfl

/-- An apply that is not trusted asks nobody. -/
theorem applyAsking_untrusted (reader : FileReader) (connection : Connection) (files : FileSystem) :
    replicator.applyAsking reader false connection files =
      replicator.apply false connection files := by
  rw [applyAsking_eq]
  rfl

/-- Two applies ask for the revision when their files are the same but for the archive. -/
theorem sameApart_filesAsked (connection : Connection) (files : FileSystem)
    (retention count : UInt32)
    (hopen : ∀ preamble : Preamble, preamble.bytes <+: connection.delivery.bytes →
      Openable files (archivePath replicator.directory preamble.startRevision.value)) :
    SameApart (replicator.ArchivePlace files connection.delivery.bytes)
      ((replicator.keeping retention).filesAsked connection files)
      ((replicator.keeping count).filesAsked connection files) := by
  unfold filesAsked
  cases hlock : acquireLock replicator.directory files with
  | error error =>
      rw [replicator.acquireLock_keeping hlock, replicator.acquireLock_keeping hlock]
      exact .refl _ files
  | ok taken =>
      obtain ⟨home, hfree⟩ := lockFree_of_acquireLock hlock
      obtain ⟨locked, hlocked, hlocking, -⟩ := acquireLock_of_lockFree hfree
      rw [replicator.acquireLock_keeping hlocked, replicator.acquireLock_keeping hlocked]
      let cursor : Cursor := { incoming := connection }
      have hclear : ∀ preamble : Preamble, preamble.bytes <+: cursor.ahead →
          files.Unobstructed (archivePath replicator.directory preamble.startRevision.value) :=
        fun preamble hpreamble => (hopen preamble hpreamble).unobstructed hfree
      have hlevel : Agreed (Level files (replicator.ArchivePlace files cursor.ahead))
          ((replicator.keeping retention).openChangeset
            (({ files := locked } : Store).session cursor))
          ((replicator.keeping count).openChangeset
            (({ files := locked } : Store).session cursor)) :=
        replicator.level_openChangeset rfl hclear (.refl _ hlocking.sameDirectories)
      simp only
      generalize (replicator.keeping retention).openChangeset _ = first at hlevel
      generalize (replicator.keeping count).openChangeset _ = second at hlevel
      cases hlevel with
      | value header cursor hafter => exact hafter.apart
      | error error cursor hafter => exact hafter.apart

/-- Whether archives are kept decides on how an apply goes on, not how many. -/
theorem keeping_applyAsking (h : retention = 0 ↔ count = 0) :
    (replicator.keeping retention).applyAsking = (replicator.keeping count).applyAsking := by
  have hcreate (start : Nat) : Archive.create replicator.directory start retention =
      Archive.create replicator.directory start count := by
    funext fs
    by_cases hnone : retention = 0 <;> simp [Archive.create, hnone, h.mp, ← h]
  have hopened : (replicator.keeping retention).openChangeset =
      (replicator.keeping count).openChangeset := by
    unfold openChangeset keeping
    simp only [hcreate]
  funext reader trusted connection files
  refine underLock_congr fun lock locked hlock => ?_
  unfold applyChecked
  rw [hopened]
  rfl

/-- However many archives are kept, an apply whose archive can be opened comes to the same: the same
result, apart from the number of bytes archived, or the same error in the same stage, with the same
part of the connection read, and the same files, apart from the archive of the changeset. A reader
that is asked for the revision may look at any files but the archive. If both applies keep archives,
or neither does, they come to the same without these conditions. -/
theorem apply_retention (reader : FileReader) (trusted : Bool) (connection : Connection)
    (files : FileSystem) (retention count : UInt32)
    (h : (retention = 0 ↔ count = 0) ∨
      (∀ preamble : Preamble, preamble.bytes <+: connection.delivery.bytes →
        Openable files (archivePath replicator.directory preamble.startRevision.value)) ∧
      (trusted = true → reader.Ignores replicator.directory
        (replicator.ArchivePlace files connection.delivery.bytes))) :
    Outcome.SameApart (replicator.ArchivePlace files connection.delivery.bytes)
      ((replicator.keeping retention).applyAsking reader trusted connection files)
      ((replicator.keeping count).applyAsking reader trusted connection files) := by
  rcases h with hkept | ⟨hopen, hignores⟩
  · rw [replicator.keeping_applyAsking hkept]
    exact ⟨rfl, rfl, fun _ _ => rfl⟩
  cases trusted with
  | false =>
      rw [applyAsking_untrusted, applyAsking_untrusted]
      exact replicator.apply_keeping false connection files retention count hopen
  | true =>
      rw [applyAsking_eq, applyAsking_eq]
      have hanswer : reader replicator.directory
            ((replicator.keeping retention).filesAsked connection files) =
          reader replicator.directory ((replicator.keeping count).filesAsked connection files) :=
        hignores rfl _ _ (replicator.sameApart_filesAsked connection files retention count hopen)
      let known : RevisionReader := fun _ =>
        reader replicator.directory ((replicator.keeping count).filesAsked connection files)
      show Outcome.SameApart _ (((replicator.keeping retention).asking fun _ =>
        reader replicator.directory _).apply _ _ _) _
      rw [hanswer]
      exact (replicator.asking known).apply_keeping true connection files retention count hopen

/-- A reader that tells the revision by the size of the data file of the table `a`. -/
def sampleReader : FileReader := fun directory files =>
  match files.readFile (dataFilePath directory "a") with
  | .ok bytes => .ok bytes.length
  | .error _ => .error (.revision directory "no table")

/-- Files with a table that the reader takes to be at the revision of `sampleStream`. -/
def sampleFiles : FileSystem where
  entries := [(["a.DB"], .file (Content.empty.overwrite 0 [1, 2, 3, 4]))]

/-- In whatever files, the path to the data file is walked through the root alone. -/
theorem resolve_sampleData (fs : FileSystem) :
    fs.resolve (dataFilePath sampleReplicator.directory "a") = .ok ["a.DB"] := by
  have hroot : sampleReplicator.directory = rootBySlashes 0 := by decide
  have htable : (ReplicaFile.data "a").Proper := ⟨[0x61], by decide⟩
  have hreach : FileSystem.reach (rootBySlashes 0) (ReplicaFile.data "a").name = .ok () := by decide
  have hjoin := FileSystem.resolve_join (leadsTo_rootBySlashes fs 0)
    (ReplicaFile.isPlainName htable)
  rw [hreach, ← hroot] at hjoin
  exact hjoin

/-- The reader looks at nothing but the data file. -/
theorem ignores_sampleReader (h : ¬ spare ["a.DB"]) :
    sampleReader.Ignores sampleReplicator.directory spare := by
  intro first second hsame
  simp only [sampleReader, FileSystem.readFile, resolve_sampleData, bind, Except.bind,
    hsame.entries _ h]

/-- Whether an archive is kept or not, the changeset with one block is applied in the same way to a
table whose reader looks at the data file. -/
theorem apply_retention_sample :
    Outcome.SameApart
      (sampleReplicator.ArchivePlace sampleFiles
        (Connection.delivery [.data sampleStream.bytes]).bytes)
      ((sampleReplicator.keeping 0).applyAsking sampleReader true [.data sampleStream.bytes]
        sampleFiles)
      ((sampleReplicator.keeping 1).applyAsking sampleReader true [.data sampleStream.bytes]
        sampleFiles) := by
  have hpreamble {preamble : Preamble} (h : preamble.bytes <+:
      (Connection.delivery [.data sampleStream.bytes]).bytes) : preamble = sampleStream.preamble :=
    Preamble.eq_of_isPrefix h (by decide)
  refine apply_retention sampleReplicator sampleReader true [.data sampleStream.bytes] sampleFiles
    0 1 (.inr ⟨fun preamble h => ?_, fun _ => ignores_sampleReader ?_⟩)
  · rw [hpreamble h]
    exact ⟨by decide +kernel, by decide +kernel⟩
  · rintro ⟨preamble, h, hresolve⟩
    rw [hpreamble h] at hresolve
    exact absurd hresolve (by decide +kernel)

/-- An apply that succeeds and one that does not are told apart. -/
theorem not_sameApart {first second : Outcome} {applied : Applied}
    (h : first.result = .ok applied) (hfails : ∀ other, second.result ≠ .ok other) :
    ¬ Outcome.SameApart spare first second := by
  intro hsame
  have hresult := hsame.result
  rw [h] at hresult
  cases hsecond : second.result with
  | error failure =>
      rw [hsecond] at hresult
      cases hresult
  | ok other => exact hfails other hsecond

/-- A reader that looks for the archive of the changeset that applies to revision 4. -/
def archiveReader : FileReader := fun directory files =>
  if files.mayExist (archivePath directory 4) then .ok 4 else .ok 5

theorem keeping_cramped (retention count : UInt32) :
    (crampedReplicator retention).keeping count = crampedReplicator count :=
  rfl

/-- Whether an archive is kept tells whether a changeset is applied, although its archive is no
directory, where the path to the archive is too long, and where a reader looks for the archive. -/
theorem apply_retention_told :
    (FileSystem.isDirectory {} (archivePath (crampedReplicator 0).directory
        crampedStream.preamble.startRevision.value) = false ∧
      ∀ reader, ¬ Outcome.SameApart
        ((crampedReplicator 0).ArchivePlace {}
          (Connection.delivery [.data crampedStream.bytes]).bytes)
        (((crampedReplicator 0).keeping 0).applyAsking reader false [.data crampedStream.bytes] {})
        (((crampedReplicator 0).keeping 1).applyAsking reader false [.data crampedStream.bytes] {}))
      ∧
    FileSystem.isDirectory {} (archivePath sampleReplicator.directory
        sampleStream.preamble.startRevision.value) = false ∧
      ¬ Outcome.SameApart
        (sampleReplicator.ArchivePlace {} (Connection.delivery [.data sampleStream.bytes]).bytes)
        ((sampleReplicator.keeping 1).applyAsking archiveReader true [.data sampleStream.bytes] {})
        ((sampleReplicator.keeping 0).applyAsking archiveReader true [.data sampleStream.bytes] {})
    := by
  refine ⟨⟨?_, fun reader => ?_⟩, by decide +kernel, ?_⟩
  · have hfile : (ReplicaFile.archive crampedStream.startRevision.value).Proper := trivial
    exact isDirectory_cramped (ReplicaFile.isPlainName hfile)
  · have hfile : (ReplicaFile.archive crampedStream.startRevision.value).Proper := trivial
    have hbytes : crampedStream.bytes =
        (Connection.delivery [.data crampedStream.bytes]).bytes := by decide
    have hmem : (ReplicaFile.archive crampedStream.startRevision.value).path
        (crampedReplicator 1).directory ∈
          crampedStream.paths (crampedReplicator 1).directory 1 := by simp [paths_crampedStream]
    have hnone : ∀ path ∈ crampedStream.paths (crampedReplicator 0).directory 0,
        FileSystem.Unobstructed {} path := by simp [Stream.paths, crampedStream]
    rw [applyAsking_untrusted, applyAsking_untrusted, keeping_cramped, keeping_cramped]
    exact not_sameApart (applied_of_stream (lockFree_cramped 0) hbytes (by decide) hnone)
      (not_applied_cramped hbytes hfile hmem (by decide))
  · have happlied : ((sampleReplicator.keeping 1).applyAsking archiveReader true
        [.data sampleStream.bytes] {}).result = .ok (appliedOf sampleStream 1) := by
      decide +kernel
    have hrefused : ((sampleReplicator.keeping 0).applyAsking archiveReader true
        [.data sampleStream.bytes] {}).result =
          .error { stage := .checkingRevision, error := .protocol (.wrongRevision 4 5) } := by
      decide +kernel
    exact not_sameApart happlied fun other hother => by
      rw [hrefused] at hother
      cases hother

end Replicator

end TableReplica.Apply
