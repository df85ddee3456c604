import TableReplica.Proofs.Files.Lengths
import TableReplica.Proofs.Outcome
import TableReplica.Proofs.Plan.Arrival
import TableReplica.Proofs.Plan.Contents

/-!
# Which streams are accepted

An untrusted apply succeeds just if its stream is a changeset and ends there, as long as the lock is
free and no file that it writes to is obstructed: `apply_accepts`. The changeset is the only one
that the stream spells, and the answer tells its revisions and counts. A file is obstructed by a
directory in its place, by a name or a path that is too long, and by nothing else
(`ReplicaFile.unobstructed_iff`); that a path can be too long where no name is, and the lock file
can be reached, shows in a directory with a long path (`apply_accepts_cramped`).
-/

namespace TableReplica.Apply

open Files Transport Wire Format

namespace Replicator

variable (replicator : Replicator)

/-- The course of a changeset reads all of it, asks for its changes and archives every byte. -/
theorem course_of_stream {trusted : Bool} {stream : Stream} {delivery : Delivery}
    (haccepts : replicator.Accepts trusted stream.startRevision.value)
    (hbytes : stream.bytes = delivery.bytes) (hclosed : delivery.ending = .closed) (junk : Nat) :
    ∃ effects after,
      replicator.course trusted delivery junk =
          { effects, outcome := .ok (receiptOf stream, after) } ∧
      changesOf effects = streamChanges stream ∧ allArchived effects = stream.bytes ∧
      after.committed + after.pending.length = stream.bytes.length := by
  obtain ⟨effects, after, hplan, hpassed⟩ :=
    replicator.reads_stream stream haccepts { ahead := delivery.bytes } [] (by simp [hbytes])
  have hahead : after.ahead = [] := by
    have hall : delivery.bytes = stream.bytes ++ after.ahead := hpassed.ahead
    rw [hbytes] at hall
    exact List.self_eq_append_right.mp hall
  -- At the end what is still pending is archived, which makes the archive complete.
  have hwhole := hpassed.append (Plan.Reads.passes_commit after)
  rw [List.append_nil, List.append_nil] at hwhole
  have harchived : allArchived (effects ++ (Plan.commit after).effects) = stream.bytes := by
    simpa [Position.commit] using hwhole.archived
  refine ⟨effects ++ (Plan.commit after).effects, after.commit, ?_, hwhole.changes_eq, harchived,
    ?_⟩
  · rw [course_of_ok hplan, if_neg (by simp [hahead]), if_pos hclosed]
  · rw [hwhole.committed, harchived]
    simp [Position.commit]

variable {replicator}

/-- The answer to a changeset of which nothing is obstructed. -/
def appliedOf (stream : Stream) (retention : UInt32) : Applied where
  startRevision := stream.startRevision.value
  endRevision := stream.endRevision.value
  requiredRevision := stream.required.value
  stats :=
    { baseFiles := stream.baseFiles
      blocksWritten := stream.blockCount
      bytesConsumed := stream.bytes.length
      bytesArchived := if retention = 0 then 0 else stream.bytes.length }

/-- A course that has read all of a changeset, with nothing in the way of its effects, makes their
edits and is answered with the revisions and counts of the changeset. -/
theorem answer_of_stream {stream : Stream} {effects : List Effect} {after : Position}
    {files : FileSystem} (horderly : Orderly effects)
    (hchanges : changesOf effects = streamChanges stream)
    (harchived : allArchived effects = stream.bytes)
    (hconsumed : after.committed + after.pending.length = stream.bytes.length)
    (hclear : ∀ effect ∈ effects, effect.obstacle? replicator.directory
      (archivedBy replicator.config.maxChangesets effects) files = none) (ending : Ending) :
    replicator.answer files { effects, outcome := .ok (receiptOf stream, after) } ending =
        .ok (appliedOf stream replicator.config.maxChangesets) ∧
      (replicator.attempted files { effects, outcome := .ok (receiptOf stream, after) }).2 =
        effects.flatMap
          (Effect.edits (archivedBy replicator.config.maxChangesets effects)) := by
  unfold answer attempted
  simp only [attempt_of_clear hclear]
  refine ⟨?_, trivial⟩
  rw [archivedBy_eq horderly hchanges, harchived, hconsumed]
  by_cases hretention : replicator.config.maxChangesets = 0 <;>
    simp [hretention, recorded, appliedOf, Receipt.applied, receiptOf, Plan.headerOf]

/-- A changeset of which nothing is obstructed is answered with its revisions and counts, and makes
the edits that it asks for. -/
theorem attempted_of_stream {stream : Stream} {delivery : Delivery}
    (hbytes : stream.bytes = delivery.bytes) (hclosed : delivery.ending = .closed)
    {files : FileSystem}
    (hclear : ∀ path ∈ stream.paths replicator.directory replicator.config.maxChangesets,
      files.Unobstructed path) (junk : Nat) :
    replicator.answer files (replicator.course false delivery junk) delivery.ending =
        .ok (appliedOf stream replicator.config.maxChangesets) ∧
      ∃ effects, Orderly effects ∧ changesOf effects = streamChanges stream ∧
        allArchived effects = stream.bytes ∧
        (replicator.attempted files (replicator.course false delivery junk)).2 =
          effects.flatMap (Effect.edits (if replicator.config.maxChangesets = 0 then none
            else some stream.startRevision.value)) := by
  obtain ⟨effects, after, hcourse, hchanges, harchived, hconsumed⟩ :=
    replicator.course_of_stream (replicator.accepts_untrusted _) hbytes hclosed junk
  have horderly := replicator.orderly_course false delivery junk
  rw [hcourse] at horderly ⊢
  have hrevision := archivedBy_eq horderly hchanges replicator.config.maxChangesets
  obtain ⟨hanswer, hedits⟩ := answer_of_stream horderly hchanges harchived hconsumed
    (hrevision ▸ Effect.clear_of_changes (hchanges ▸ Effect.clear_streamChanges.mpr hclear))
    delivery.ending
  rw [hrevision] at hedits
  exact ⟨hanswer, effects, horderly, hchanges, harchived, hedits⟩

/-- A course that gives a value has read a changeset and met the end of the stream. -/
theorem stream_of_course {delivery : Delivery} {junk : Nat} {receipt : Receipt} {last : Position}
    (h : (replicator.course false delivery junk).outcome = .ok (receipt, last)) :
    delivery.ending = .closed ∧ ∃ stream : Stream, stream.bytes = delivery.bytes := by
  rcases hplan : replicator.plan false { ahead := delivery.bytes } with
    ⟨effects, halt | ⟨found, after⟩⟩
  · rw [course_of_error hplan] at h
    cases h
  · rw [course_of_ok hplan] at h
    split at h
    · cases h
    · next hahead =>
        split at h
        · next hclosed =>
            obtain ⟨bytes, hall, stream, rfl⟩ := replicator.parses_stream false
              { ahead := delivery.bytes } found after (by rw [hplan])
            refine ⟨hclosed, stream, ?_⟩
            have hall : delivery.bytes = stream.bytes ++ after.ahead := hall
            rw [hall, Decidable.not_not.mp hahead, List.append_nil]
        · cases h

section

variable {home : Location} {files : FileSystem}

/-- What is applied is a changeset. -/
theorem stream_of_applied (hfree : LockFree replicator.directory home files)
    {connection : Connection} {applied : Applied}
    (h : (replicator.apply false connection files).result = .ok applied) :
    connection.delivery.ending = .closed ∧
      ∃ stream : Stream, stream.bytes = connection.delivery.bytes := by
  obtain ⟨junk, hresult, -⟩ := apply_of_lockFree hfree false connection
  rw [hresult] at h
  unfold answer at h
  split at h
  · cases h
  · split at h
    · cases h
    · next hcourse => exact stream_of_course hcourse

/-- A changeset of which nothing is obstructed is applied. -/
theorem applied_of_stream (hfree : LockFree replicator.directory home files)
    {connection : Connection} {stream : Stream}
    (hbytes : stream.bytes = connection.delivery.bytes)
    (hclosed : connection.delivery.ending = .closed)
    (hclear : ∀ path ∈ stream.paths replicator.directory replicator.config.maxChangesets,
      files.Unobstructed path) :
    (replicator.apply false connection files).result =
      .ok (appliedOf stream replicator.config.maxChangesets) := by
  obtain ⟨junk, hresult, -⟩ := apply_of_lockFree hfree false connection
  rw [hresult]
  exact (attempted_of_stream hbytes hclosed hclear junk).1

/-- A changeset that is applied has none of its paths obstructed. -/
theorem unobstructed_of_applied (hfree : LockFree replicator.directory home files)
    {connection : Connection} {applied : Applied}
    (h : (replicator.apply false connection files).result = .ok applied) {stream : Stream}
    (hbytes : stream.bytes = connection.delivery.bytes) :
    ∀ path ∈ stream.paths replicator.directory replicator.config.maxChangesets,
      files.Unobstructed path := by
  obtain ⟨hclosed, -⟩ := stream_of_applied hfree h
  obtain ⟨junk, hresult, -⟩ := apply_of_lockFree hfree false connection
  obtain ⟨effects, last, hcourse, hchanges, -⟩ :=
    replicator.course_of_stream (replicator.accepts_untrusted _) hbytes hclosed junk
  have horderly := replicator.orderly_course false connection.delivery junk
  rw [hresult] at h
  rw [hcourse] at h horderly
  have hattempted : (replicator.attempted files
      { effects, outcome := .ok (receiptOf stream, last) }).1 = .ok () := by
    unfold answer at h
    split at h
    · cases h
    · assumption
  have hclear : ∀ effect ∈ effects, effect.obstacle? replicator.directory _ files = none :=
    clear_of_attempt hattempted
  rw [archivedBy_eq horderly hchanges] at hclear
  refine Effect.clear_streamChanges.mp fun effect hmem => hclear effect ?_
  rw [← hchanges] at hmem
  exact (List.mem_filter.mp hmem).1

end

variable (replicator)

/-- Under a free lock and with nothing in the way of the changeset that a stream spells, an
untrusted apply succeeds just if the stream spells one and ends there. The changeset is the only
one, and the answer tells its revisions and counts. A write below `offsetBound` is taken to succeed
here, as everywhere. -/
theorem apply_accepts (connection : Connection) {files : FileSystem}
    (hlock : ∃ taken, acquireLock replicator.directory files = .ok taken)
    (hclear : ∀ stream : Stream, stream.bytes = connection.delivery.bytes →
      ∀ path ∈ stream.paths replicator.directory replicator.config.maxChangesets,
        files.Unobstructed path) :
    ((∃ applied, (replicator.apply false connection files).result = .ok applied) ↔
      connection.delivery.ending = .closed ∧
        ∃ stream : Stream, stream.bytes = connection.delivery.bytes) ∧
    ∀ applied, (replicator.apply false connection files).result = .ok applied →
      ∃ stream : Stream, stream.bytes = connection.delivery.bytes ∧
        (∀ other : Stream, other.bytes = connection.delivery.bytes → other = stream) ∧
        applied.startRevision = stream.startRevision.value ∧
        applied.endRevision = stream.endRevision.value ∧
        applied.requiredRevision = stream.required.value ∧
        applied.stats.baseFiles = stream.baseFiles ∧
        applied.stats.blocksWritten = stream.blockCount := by
  obtain ⟨taken, htaken⟩ := hlock
  obtain ⟨home, hfree⟩ := lockFree_of_acquireLock htaken
  refine ⟨⟨fun ⟨applied, happlied⟩ => stream_of_applied hfree happlied, ?_⟩,
    fun applied happlied => ?_⟩
  · rintro ⟨hclosed, stream, hbytes⟩
    exact ⟨_, applied_of_stream hfree hbytes hclosed (hclear stream hbytes)⟩
  · obtain ⟨hclosed, stream, hbytes⟩ := stream_of_applied hfree happlied
    -- The answer is the one to this stream, since the bytes are no other.
    rw [applied_of_stream hfree hbytes hclosed (hclear stream hbytes)] at happlied
    cases happlied
    exact ⟨stream, hbytes, fun other hother => Stream.unambiguous (hother.trans hbytes.symm),
      rfl, rfl, rfl, rfl, rfl⟩

/-- The table called `a`. -/
def sampleTable : TableName where
  letters := [0x61]
  named := by decide
  lower := by decide
  short := by decide

/-- A changeset with one block, its end revision spelled in more bytes than it takes. -/
def sampleStream : Stream where
  version := { value := 1, spelling := [1], spells := by decide }
  startRevision := { value := 4, spelling := [4], spells := by decide }
  endRevision := { value := 5, spelling := [0x85, 0], spells := by decide }
  chunks :=
    [.blocks
      { length := { value := 1, spelling := [1], spells := by decide }
        name := sampleTable
        counts := rfl }
      { size := { value := 2, spelling := [2], spells := by decide }
        blocks :=
          [{ number := { value := 3, spelling := [3], spells := by decide }, content := [8, 9] }]
        last := { value := 0, spelling := [0], spells := by decide }
        small := by decide
        fit := by
          intro block hmem
          rw [List.mem_singleton.mp hmem]
          exact ⟨by decide, rfl, by decide⟩
        ends := rfl }]
  required := { value := 5, spelling := [5], spells := by decide }
  supported := rfl
  ordered := by decide
  later := by decide

/-- An apply at the root of empty files accepts the changeset with one block. -/
theorem apply_accepts_sample :
    ∃ applied, (Replicator.apply { directory := .ofText [] "/", config.maxChangesets := 1 } false
      [.data sampleStream.bytes] {}).result = .ok applied := by
  refine (apply_accepts _ _ ⟨_, rfl⟩ ?_).1.mpr ⟨rfl, sampleStream, rfl⟩
  intro stream hbytes
  have hsame : stream = sampleStream := Stream.unambiguous (hbytes.trans rfl)
  subst hsame
  decide

/-- A replica at the root, called by so many slashes that there is room for the name of the lock
file and for no longer one. -/
def crampedReplicator (retention : UInt32) : Replicator where
  directory := rootBySlashes 4080
  config.maxChangesets := retention

section

variable {retention : UInt32} {name : String}

/-- The lock file can be reached. -/
theorem lockFree_cramped (retention : UInt32) :
    LockFree (crampedReplicator retention).directory [] {} where
  leads := leadsTo_rootBySlashes {} 4080
  reach := by
    have hzero : ¬ ((crampedReplicator retention).directory.join lockFileName).hasZero = true := by
      rw [hasZero_join _ isPlainName_lockFileName, not_or]
      exact ⟨by simp [crampedReplicator, hasZero_rootBySlashes], by decide⟩
    have hshort : ((crampedReplicator retention).directory.join lockFileName).text.utf8ByteSize =
        4095 := utf8ByteSize_rootBySlashes_join 4080 isPlainName_lockFileName
    refine FileSystem.reach_eq_ok.mpr ⟨?_, by decide⟩
    exact (check_join _ isPlainName_lockFileName).trans
      ((if_neg hzero).trans (if_neg (by rw [hshort]; decide)))
  clear := by decide
  free := by decide

/-- A longer name cannot be reached. -/
theorem resolve_cramped (hname : IsPlainName name) (hlong : 14 < name.utf8ByteSize)
    (fs : FileSystem) (place : Location) :
    fs.resolve ((crampedReplicator retention).directory.join name) ≠ .ok place := by
  intro hresolve
  have hshort := utf8ByteSize_le_of_check (FileSystem.resolve_eq_ok.mp hresolve).1
  have hsize : ((crampedReplicator retention).directory.join name).text.utf8ByteSize =
      4081 + name.utf8ByteSize := utf8ByteSize_rootBySlashes_join 4080 hname
  rw [hsize, pathLimit] at hshort
  omega

/-- So there is nothing to be read there. -/
theorem readFile_cramped (hname : IsPlainName name) (hlong : 14 < name.utf8ByteSize)
    (fs : FileSystem) (bytes : Bytes) :
    fs.readFile ((crampedReplicator retention).directory.join name) ≠ .ok bytes := by
  have hastray (place : Location) :
      fs.resolve ((crampedReplicator retention).directory.join name) ≠ .ok place :=
    resolve_cramped hname hlong fs place
  unfold FileSystem.readFile
  generalize fs.resolve _ = reached at hastray
  cases reached with
  | error refusal => simp [bind, Except.bind]
  | ok place => exact absurd rfl (hastray place)

/-- No name leads to a directory. -/
theorem isDirectory_cramped (hname : IsPlainName name) :
    FileSystem.isDirectory {} ((crampedReplicator retention).directory.join name) = false := by
  unfold FileSystem.isDirectory
  rw [FileSystem.resolve_join (lockFree_cramped retention).leads hname]
  cases FileSystem.reach (crampedReplicator retention).directory name <;>
    simp [Except.map, FileSystem.get?]

/-- A changeset that writes to a file with a longer name is not applied. -/
theorem not_applied_cramped {stream : Stream} {connection : Connection}
    (hbytes : stream.bytes = connection.delivery.bytes) {file : ReplicaFile} (hfile : file.Proper)
    (hmem : file.path (crampedReplicator retention).directory ∈
      stream.paths (crampedReplicator retention).directory retention)
    (hlong : 14 < file.name.utf8ByteSize) (applied : Applied) :
    ((crampedReplicator retention).apply false connection {}).result ≠ .ok applied := by
  intro happlied
  obtain ⟨place, hresolve, -⟩ :=
    unobstructed_of_applied (lockFree_cramped retention) happlied hbytes _ hmem
  exact resolve_cramped (ReplicaFile.isPlainName hfile) hlong {} place hresolve

end

/-- A changeset without chunks whose archive has a longer name than the lock file. -/
def crampedStream : Stream where
  version := sampleStream.version
  startRevision :=
    { value := 12345678, spelling := [0xce, 0xc2, 0xf1, 0x05], spells := by decide }
  endRevision := { value := 12345679, spelling := [0xcf, 0xc2, 0xf1, 0x05], spells := by decide }
  chunks := []
  required := { value := 12345679, spelling := [0xcf, 0xc2, 0xf1, 0x05], spells := by decide }
  supported := sampleStream.supported
  ordered := by decide
  later := le_rfl

theorem paths_crampedStream (directory : Path) : crampedStream.paths directory 1 =
    [(ReplicaFile.archive crampedStream.startRevision.value).path directory] :=
  rfl

/-- A table whose base files have longer names than the lock file. -/
def longTable : TableName where
  letters := List.replicate 9 0x61
  named := by decide
  lower := by decide
  short := by decide

/-- A changeset with a base file of that table. -/
def longStream : Stream :=
  { sampleStream with
    chunks :=
      [.baseFile
        { length := { value := 9, spelling := [9], spells := by decide }
          name := longTable
          counts := rfl }
        .a
        { size := { value := 1, spelling := [1], spells := by decide }
          content := [7]
          small := by decide
          counts := rfl }] }

theorem paths_longStream (directory : Path) : longStream.paths directory 0 =
    [(ReplicaFile.temp longTable.text).path directory,
      (ReplicaFile.base longTable.text .a).path directory] :=
  rfl

/-- Where the path to a file is too long a changeset is not applied, although no path that it
touches is a directory and no name is too long. -/
theorem apply_accepts_cramped :
    (∃ taken, acquireLock (crampedReplicator 0).directory {} = .ok taken) ∧
      (∀ path ∈ longStream.paths (crampedReplicator 0).directory 0,
        FileSystem.isDirectory {} path = false ∧
          ∀ name, path.split?.2 = some name → name.utf8ByteSize ≤ nameLimit) ∧
      (Connection.delivery [.data longStream.bytes]).bytes = longStream.bytes ∧
      (Connection.delivery [.data longStream.bytes]).ending = .closed ∧
      ∀ applied, ((crampedReplicator 0).apply false [.data longStream.bytes] {}).result ≠
        .ok applied := by
  have htable : IsTableName longTable.text := ⟨_, longTable.parse_letters⟩
  have htemp : (ReplicaFile.temp longTable.text).Proper := htable
  have hbase : (ReplicaFile.base longTable.text .a).Proper := htable
  have hfree {file : ReplicaFile} (hfile : file.Proper)
      (hshort : file.name.utf8ByteSize ≤ nameLimit) :
      FileSystem.isDirectory {} (file.path (crampedReplicator 0).directory) = false ∧
        ∀ name, (file.path (crampedReplicator 0).directory).split?.2 = some name →
          name.utf8ByteSize ≤ nameLimit := by
    have hname := ReplicaFile.isPlainName hfile
    refine ⟨isDirectory_cramped hname, fun name hlast => ?_⟩
    rw [ReplicaFile.path, split?_join _ hname] at hlast
    exact Option.some.inj hlast ▸ hshort
  obtain ⟨locked, hlock, -⟩ := acquireLock_of_lockFree (lockFree_cramped 0)
  refine ⟨⟨_, hlock⟩, ?_, by decide, by decide, ?_⟩
  · rw [paths_longStream, List.forall_mem_cons, List.forall_mem_singleton]
    exact ⟨hfree htemp (by decide), hfree hbase (by decide)⟩
  · have hmem : (ReplicaFile.base longTable.text .a).path (crampedReplicator 0).directory ∈
        longStream.paths (crampedReplicator 0).directory 0 := by simp [paths_longStream]
    exact not_applied_cramped rfl hbase hmem (by decide)

end Replicator

end TableReplica.Apply
