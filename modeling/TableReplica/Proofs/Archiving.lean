import TableReplica.Proofs.Progress

/-!
# What the archive holds

With an archive, an apply that succeeds leaves an exact copy of its stream, and one that fails past
the header leaves the bytes up to the last landmark that it came to. An apply that does not get past
the header, or that keeps no archives, leaves every archive as it was: `apply_archives`. Behind a
header an archive that is `Openable` is opened. One whose path is too long is not, although it is no
directory (`apply_archives_cramped`).
-/

namespace TableReplica.Apply

open Files Transport Wire Format

/-- A path to the file of an archive is not too long and leads to no directory. -/
structure Openable (files : FileSystem) (path : Path) : Prop where
  short : path.text.utf8ByteSize ≤ pathLimit
  file : files.isDirectory path = false

/-- In a directory whose lock is free, nothing is in the way of an archive whose path is not too
long and leads to no directory. -/
theorem Openable.unobstructed {directory : Path} {home : Location} {files : FileSystem}
    {revision : Numeral} (hfree : LockFree directory home files)
    (h : Openable files (archivePath directory revision.value)) :
    files.Unobstructed (archivePath directory revision.value) := by
  have hfile : (ReplicaFile.archive revision.value).Proper := trivial
  exact (ReplicaFile.unobstructed_iff hfile hfree.leads hfree.reach).mpr
    ⟨archiveName_short revision, h.short, h.file⟩

/-- What an apply leaves of the archives. -/
structure Archiving (replicator : Replicator) (trusted : Bool) (stream : Bytes)
    (before : FileSystem) (outcome : Outcome) : Prop where
  /-- An apply that succeeds has archived its stream, and counts the bytes of it. -/
  whole : replicator.config.maxChangesets ≠ 0 → ∀ applied, outcome.result = .ok applied →
    outcome.files.readFile (archivePath replicator.directory applied.startRevision) = .ok stream ∧
      applied.stats.bytesArchived = stream.length ∧ applied.stats.bytesConsumed = stream.length
  /-- An apply that fails past the header has archived the bytes up to the last landmark. -/
  failed : replicator.config.maxChangesets ≠ 0 → ∀ failure, outcome.result = .error failure →
    failure.stage ∉ [.awaitingLock, .readingHeader] →
      ∃ preamble : Preamble, preamble.bytes <+: stream ∧ ∃ bytes changes refused,
        Furthest replicator.directory before (replicator.Accepts trusted) stream bytes changes
            refused ∧
          outcome.files.readFile
            (archivePath replicator.directory preamble.startRevision.value) = .ok bytes
  /-- An apply gets past a header if its archive can be opened. -/
  opened : ∀ preamble : Preamble, preamble.bytes <+: stream →
    Openable before (archivePath replicator.directory preamble.startRevision.value) →
      ∀ failure, outcome.result = .error failure → failure.stage ≠ .readingHeader
  /-- An apply does not get past what is no header. -/
  rejected : (∀ preamble : Preamble, ¬ preamble.bytes <+: stream) →
    ∃ failure, outcome.result = .error failure ∧ failure.stage ∈ [.awaitingLock, .readingHeader]
  /-- An apply that does not get past the header leaves every archive as it was. -/
  unopened : ∀ failure, outcome.result = .error failure →
    failure.stage ∈ [.awaitingLock, .readingHeader] →
      ∀ home start, before.LeadsTo replicator.directory home →
        outcome.files.get? (home ++ [archiveName start]) = before.get? (home ++ [archiveName start])
  /-- So does an apply that keeps no archives. -/
  disabled : replicator.config.maxChangesets = 0 →
    ∀ home start, before.LeadsTo replicator.directory home →
      outcome.files.get? (home ++ [archiveName start]) = before.get? (home ++ [archiveName start])

section

variable {replicator : Replicator} {trusted : Bool} {home : Location} {files : FileSystem}
  {stream : Bytes} {outcome : Outcome}

/-- An apply that only touched the lock leaves every archive as it was. -/
theorem get?_archive_of_locking {after : FileSystem} (h : Edited home [locking] files after)
    (start : Nat) :
    after.get? (home ++ [archiveName start]) = files.get? (home ++ [archiveName start]) := by
  rw [h.inside, changesAt_locking rfl]
  rfl

/-- Every archive but the one that is opened stays as it was. -/
theorem Begun.get?_archive_other {after : FileSystem} {effects : List Effect}
    {refused : Option Effect} {bytes : Bytes}
    (h : Begun replicator trusted home files stream effects refused bytes after) {start : Nat}
    (hother : archivedBy replicator.config.maxChangesets effects ≠ some start) :
    after.get? (home ++ [archiveName start]) = files.get? (home ++ [archiveName start]) := by
  have harchive (other : Nat) : (ReplicaFile.archive other).Proper := trivial
  have hname (other : Nat)
      (hopened : archivedBy replicator.config.maxChangesets effects = some other) :
      archiveName start ≠ archiveName other :=
    ReplicaFile.name_ne (harchive start) (harchive other) fun heq =>
      hother (hopened.trans (congrArg some (ReplicaFile.archive.inj heq).symm))
  have hunarchived : Edit.changesAt (archiveName start)
        (editsOf replicator.directory none files effects refused) =
      Edit.changesAt (archiveName start)
        (editsOf replicator.directory none files (changesOf effects) refused) :=
    changesAt_editsOf (by simp) effects refused
  have hedited := h.edited.inside (archiveName start)
  rw [changesAt_locking rfl, changesAt_editsOf hname, ← hunarchived,
    changesAt_unarchived h.orderly] at hedited
  exact hedited

/-- Without an archive every archive stays as it was. -/
theorem Begun.get?_archive {after : FileSystem} {effects : List Effect} {refused : Option Effect}
    {bytes : Bytes} (h : Begun replicator trusted home files stream effects refused bytes after)
    (hretention : replicator.config.maxChangesets = 0) (start : Nat) :
    after.get? (home ++ [archiveName start]) = files.get? (home ++ [archiveName start]) := by
  obtain ⟨_, -, -, -, harchived⟩ := h.preamble
  rw [if_pos hretention] at harchived
  exact h.get?_archive_other (by simp [harchived])

/-- An apply that does not get past the header leaves the archives alone. -/
theorem Archiving.of_unopened {failure : Failure} (hfailure : outcome.result = .error failure)
    (hstage : failure.stage ∈ [.awaitingLock, .readingHeader])
    (hopened : ∀ preamble : Preamble, preamble.bytes <+: stream →
      Openable files (archivePath replicator.directory preamble.startRevision.value) →
        failure.stage ≠ .readingHeader)
    (hkept : ∀ home start, files.LeadsTo replicator.directory home →
      outcome.files.get? (home ++ [archiveName start]) =
        files.get? (home ++ [archiveName start])) :
    Archiving replicator trusted stream files outcome := by
  have hsame {other : Failure} (hother : outcome.result = .error other) : other = failure :=
    Except.error.inj (hother.symm.trans hfailure)
  refine ⟨fun _ applied happlied => ?_, fun _ other hother hpast => ?_,
    fun preamble hpreamble hopenable other hother => ?_, fun _ => ⟨failure, hfailure, hstage⟩,
    fun _ _ _ => hkept, fun _ => hkept⟩
  · rw [hfailure] at happlied
    cases happlied
  · rw [hsame hother] at hpast
    exact absurd hstage hpast
  · rw [hsame hother]
    exact hopened preamble hpreamble hopenable

/-- However an apply under a free lock comes out, the archives are as its progress tells. -/
theorem Progress.archiving
    (h : Progress replicator trusted home files stream outcome.result outcome.files)
    (hfree : LockFree replicator.directory home files) :
    Archiving replicator trusted stream files outcome := by
  have hhome := hfree.leads
  obtain ⟨result, remaining, after⟩ := outcome
  simp only at h
  cases h with
  | unopened failure _ hstage hobstructed hedited =>
      refine .of_unopened rfl (by simp [hstage])
        (fun preamble hpreamble hopenable =>
          absurd (hopenable.unobstructed hfree) (hobstructed preamble hpreamble).2)
        fun other start hother => ?_
      rw [hother.unique hhome]
      exact get?_archive_of_locking hedited start
  | halted failure _ effects refused hstage hbegun =>
      obtain ⟨preamble, -, hpreamble, ⟨rest, hchanges⟩, -⟩ := hbegun.preamble
      have hpast : failure.stage ∉ [.awaitingLock, .readingHeader] := by
        rcases hstage with hstage | ⟨hstage | hstage, -⟩ <;> simp [hstage]
      refine ⟨by simp, fun hretention _ _ _ => ⟨preamble, hpreamble, _, _, _, hbegun.furthest,
          hbegun.readFile_archive hhome hretention hchanges⟩,
        fun _ _ _ _ hfailure heq => ?_, fun hnone => absurd hpreamble (hnone preamble),
        fun _ hfailure hstage => ?_, fun hretention other start hother => ?_⟩
      · cases hfailure
        simp [heq] at hpast
      · cases hfailure
        exact absurd hstage hpast
      · rw [hother.unique hhome]
        exact hbegun.get?_archive hretention start
  | completed changeset _ effects bytes hbytes harchived haccepts hbegun =>
      obtain ⟨preamble, -, hpreamble, ⟨rest, hchanges⟩, -⟩ := hbegun.preamble
      have hheader : changeset.preamble.bytes <+: stream := hbytes ▸ changeset.preamble_isPrefix
      obtain rfl := Preamble.eq_of_isPrefix hpreamble hheader
      refine ⟨fun hretention applied happlied => ?_, by simp, by simp,
        fun hnone => absurd hheader (hnone _), by simp, fun hretention other start hother => ?_⟩
      · cases happlied
        refine ⟨?_, ?_, ?_⟩
        · rw [← harchived]
          exact hbegun.readFile_archive hhome hretention hchanges
        · simp [Replicator.appliedOf, hretention, hbytes]
        · simp [Replicator.appliedOf, hbytes]
      · rw [hother.unique hhome]
        exact hbegun.get?_archive hretention start

end

namespace Replicator

variable (replicator : Replicator)

/-- Whatever a connection delivers, an apply leaves an exact copy of what it has consumed in the
archive of the changeset, if archives are kept. -/
theorem apply_archives (trusted : Bool) (connection : Connection) (files : FileSystem) :
    Archiving replicator trusted connection.delivery.bytes files
      (replicator.apply trusted connection files) := by
  rcases replicator.lockFree_or_locked trusted connection files with
    ⟨home, hfree⟩ | ⟨failure, hfailure, hstage, hfiles⟩
  · exact (replicator.progress_of_apply hfree trusted connection).archiving hfree
  · refine .of_unopened hfailure (by simp [hstage]) (fun _ _ _ => by simp [hstage])
      fun home start _ => ?_
    rw [hfiles]

/-- If the connection stalls in the contents of the block, the changeset with one block is archived
up to the block number. -/
theorem apply_archives_stalled :
    ∃ changes refused, Furthest sampleReplicator.directory {} (sampleReplicator.Accepts false)
      stalledSample.delivery.bytes (sampleStream.bytes.take 22) changes refused := by
  obtain ⟨preamble, hpreamble, bytes, changes, refused, hfurthest, hfile⟩ :=
    (apply_archives sampleReplicator false stalledSample {}).failed (by decide) _
      result_stalledSample (by decide)
  rw [Preamble.eq_of_isPrefix hpreamble preamble_stalledSample] at hfile
  obtain rfl : sampleStream.bytes.take 22 = bytes :=
    Except.ok.inj (archive_stalledSample.symm.trans hfile)
  exact ⟨changes, refused, hfurthest⟩

/-- Where the path to the archive is too long, an apply fails after the header of a changeset with
nothing archived, although the archive is no directory. -/
theorem apply_archives_cramped :
    let replicator := crampedReplicator 1
    let archive := archivePath replicator.directory crampedStream.preamble.startRevision.value
    let outcome := replicator.apply false [.data crampedStream.bytes] {}
    replicator.config.maxChangesets ≠ 0 ∧
      crampedStream.preamble.bytes <+: (Connection.delivery [.data crampedStream.bytes]).bytes ∧
      FileSystem.isDirectory {} archive = false ∧
      (∃ failure, outcome.result = .error failure) ∧
      ∀ bytes, outcome.files.readFile archive ≠ .ok bytes := by
  have hfile : (ReplicaFile.archive crampedStream.startRevision.value).Proper := trivial
  have hname := ReplicaFile.isPlainName hfile
  have hlong : 14 < (ReplicaFile.archive crampedStream.startRevision.value).name.utf8ByteSize := by
    decide
  have hmem : (ReplicaFile.archive crampedStream.startRevision.value).path
      (crampedReplicator 1).directory ∈
        crampedStream.paths (crampedReplicator 1).directory 1 := by simp [paths_crampedStream]
  have hbytes : crampedStream.bytes = (Connection.delivery [.data crampedStream.bytes]).bytes := by
    decide
  refine ⟨by decide, by decide, isDirectory_cramped hname, ?_, readFile_cramped hname hlong _⟩
  cases hresult : ((crampedReplicator 1).apply false [.data crampedStream.bytes] {}).result with
  | error failure => exact ⟨failure, rfl⟩
  | ok applied => exact absurd hresult (not_applied_cramped hbytes hfile hmem hlong applied)

end Replicator

end TableReplica.Apply
