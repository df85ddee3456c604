import TableReplica.Proofs.Updates

/-!
# What a changeset means

Applying the encoding of a changeset succeeds, however it is cut into reads, and makes of the files
what the changeset says: `apply_changeset`. Base files hold their last content, data files hold
their blocks over what was there before, the archive holds the stream, and nothing else changes.
Where the path to one of the files is too long it does not succeed (`apply_changeset_cramped`).
-/

namespace TableReplica.Files

/-- The bytes of the file that a path leads to, and none if there is no file. -/
def FileSystem.bytesAt (fs : FileSystem) (path : Path) : Bytes :=
  match fs.readFile path with
  | .ok bytes => bytes
  | .error _ => []

/-- Where no directory is, the bytes are those of the content that patches start from. -/
theorem FileSystem.bytesAt_of_resolve {fs : FileSystem} {path : Path} {place : Location}
    (hresolve : fs.resolve path = .ok place) (hclear : fs.get? place ≠ some .directory) :
    fs.bytesAt path = (Change.contentOf (fs.get? place)).bytes := by
  rw [bytesAt, readFile_of_resolve hresolve]
  rcases hentry : fs.get? place with _ | _ | _
  · rfl
  · rfl
  · exact absurd hentry hclear

end TableReplica.Files

namespace TableReplica.Format

open Apply Files

/-- What a changeset makes of the files of a directory. -/
structure Changeset.Realized (changeset : Changeset) (directory : Path) (retention : UInt32)
    (before after : FileSystem) : Prop where
  /-- A base file holds its last content. -/
  base : ∀ table letter content, changeset.content? table letter = some content →
    after.readFile (baseFilePath directory table letter) = .ok content
  /-- No temporary file is left. -/
  temporary : ∀ table letter, (changeset.content? table letter).isSome →
    after.readFile (tempFilePath directory table) = .error .notFound
  /-- A data file reaches to its old end or to that of its last block. Each byte is the one of the
  last block that covers it, the old one if there is none, and zero in a gap. -/
  data : ∀ table, (∃ update ∈ changeset.updates, update.isBlocksOf table) →
    ∃ bytes, after.readFile (dataFilePath directory table) = .ok bytes ∧
      bytes.length =
        max (before.bytesAt (dataFilePath directory table)).length (changeset.dataEnd table) ∧
      ∀ position, bytes[position]?.getD 0 =
        (Patch.last? (changeset.patches table) position).getD
          ((before.bytesAt (dataFilePath directory table))[position]?.getD 0)
  /-- The archive holds the stream. -/
  archive : retention ≠ 0 →
    after.readFile (archivePath directory changeset.startRevision) = .ok changeset.encode
  /-- The lock file is there, with what it held. -/
  lock : after.readFile (lockFilePath directory) = .ok (before.bytesAt (lockFilePath directory))
  /-- Nothing else changes. -/
  others : ∀ place, (∀ path ∈ lockFilePath directory :: changeset.paths directory retention,
    before.resolve path ≠ .ok place) → after.get? place = before.get? place

end TableReplica.Format

namespace TableReplica.Apply

open Files Transport Wire Format

section

variable {directory : Path}

/-- Every edit of a changeset is to a file that it writes to. -/
theorem path_of_edit {changeset : Changeset} {retention : UInt32} {effects : List Effect}
    (hchanges : changesOf effects = streamChanges changeset.stream) :
    ∀ edit ∈ effects.flatMap (Effect.edits (if retention = 0 then none
      else some changeset.startRevision)), ∃ file : ReplicaFile, file.Proper ∧
        edit.name = file.name ∧ file.path directory ∈ changeset.paths directory retention := by
  have harchive {edit : Edit} (hretention : retention ≠ 0)
      (hname : edit.name = archiveName changeset.startRevision) : ∃ file : ReplicaFile,
        file.Proper ∧ edit.name = file.name ∧
          file.path directory ∈ changeset.paths directory retention := by
    refine ⟨.archive changeset.startRevision, trivial, hname, List.mem_append_left _ ?_⟩
    rw [if_neg hretention]
    exact List.mem_singleton.mpr rfl
  intro edit hmem
  obtain ⟨effect, heffect, hedit⟩ := List.mem_flatMap.mp hmem
  by_cases hfills : effect.fillsArchive = true
  · cases effect with
    | archive data =>
        by_cases hretention : retention = 0
        · simp [hretention, Effect.edits] at hedit
        · simp only [hretention, if_false, Effect.edits, List.mem_singleton] at hedit
          exact harchive hretention (by rw [hedit])
    | openArchive | openData | writeBlock | replaceBase => cases hfills
  have hall : edit ∈ (streamChanges changeset.stream).flatMap (Effect.edits (if retention = 0 then
      none else some changeset.startRevision)) := by
    rw [← hchanges]
    exact List.mem_flatMap.mpr ⟨effect, List.mem_filter.mpr ⟨heffect, by simpa using hfills⟩, hedit⟩
  rw [edits_streamChanges] at hall
  rcases List.mem_append.mp hall with hopen | hupdate
  · by_cases hretention : retention = 0
    · simp [hretention, Effect.edits] at hopen
    · simp only [hretention, if_false, Effect.edits, List.mem_singleton] at hopen
      exact harchive hretention (by rw [hopen])
  · obtain ⟨item, hitem, rfl⟩ := List.mem_map.mp hupdate
    obtain ⟨update, hmember, hitem⟩ := List.mem_flatMap.mp hitem
    exact ⟨item.1, proper_of_updateEdits item hitem, rfl, List.mem_append_right _
      (List.mem_flatMap.mpr ⟨update, hmember, path_of_updateEdits item hitem⟩)⟩

end

/-- The effects of a changeset were performed: the lock was free, nothing was in the way, and the
files were edited as the effects ask. -/
structure Enacted (changeset : Changeset) (directory : Path) (retention : UInt32)
    (home : Location) (effects : List Effect) (before after : FileSystem) : Prop where
  free : LockFree directory home before
  clear : ∀ path ∈ changeset.paths directory retention, before.Unobstructed path
  orderly : Orderly effects
  changes : changesOf effects = streamChanges changeset.stream
  archived : allArchived effects = changeset.encode
  edited : Edited home (locking :: effects.flatMap (Effect.edits
    (if retention = 0 then none else some changeset.startRevision))) before after

namespace Enacted

variable {changeset : Changeset} {directory : Path} {retention : UInt32} {home : Location}
  {effects : List Effect} {before after : FileSystem}

/-- The path of a file that is written to leads to its name in the directory. -/
theorem resolve (h : Enacted changeset directory retention home effects before after)
    {file : ReplicaFile} (hfile : file.Proper)
    (hmem : file.path directory ∈ changeset.paths directory retention) :
    before.resolve (file.path directory) = .ok (home ++ [file.name]) ∧
      before.get? (home ++ [file.name]) ≠ some .directory :=
  ReplicaFile.resolve_of_unobstructed h.free.leads hfile (h.clear _ hmem)

/-- What became of a file other than the archive is told by the changeset. -/
theorem get?_file (h : Enacted changeset directory retention home effects before after)
    {file : ReplicaFile} (hfile : file.Proper) (hother : ∀ start, file ≠ .archive start) :
    after.get? (home ++ [file.name]) = Change.run (changesTo file (changesetEdits changeset))
      (before.get? (home ++ [file.name])) := by
  rw [h.edited.inside, changesAt_file h.changes hfile hother]

/-- A base file holds its last content. -/
theorem base (h : Enacted changeset directory retention home effects before after)
    {table : String} {letter : BaseLetter} {content : Bytes}
    (hcontent : changeset.content? table letter = some content) :
    after.readFile (baseFilePath directory table letter) = .ok content := by
  obtain ⟨⟨name, rfl⟩, -, hmem⟩ := Changeset.paths_of_content? hcontent directory retention
  have hfile : (ReplicaFile.base name.text letter).Proper := isTableName_text name
  obtain ⟨hresolve, hentry⟩ := h.resolve hfile hmem
  have hfilled := (h.get?_file hfile (by simp)).trans (run_base hcontent hentry)
  have hfinal := h.edited.readFile hresolve hfilled
  rwa [Content.bytes_ofBytes] at hfinal

/-- Its temporary file is gone. -/
theorem temporary (h : Enacted changeset directory retention home effects before after)
    {table : String} {letter : BaseLetter} {content : Bytes}
    (hcontent : changeset.content? table letter = some content) :
    after.readFile (tempFilePath directory table) = .error .notFound := by
  obtain ⟨⟨name, rfl⟩, hmem, -⟩ := Changeset.paths_of_content? hcontent directory retention
  have hfile : (ReplicaFile.temp name.text).Proper := isTableName_text name
  obtain ⟨hresolve, hentry⟩ := h.resolve hfile hmem
  have hgone := (h.get?_file hfile (by simp)).trans (run_temp hcontent hentry)
  refine (FileSystem.readFile_of_resolve
    (FileSystem.resolve_of_same h.edited.sameDirectories hresolve)).trans ?_
  rw [hgone]

/-- A data file holds its blocks over its old bytes. -/
theorem data (h : Enacted changeset directory retention home effects before after)
    {table : String} (hopens : ∃ update ∈ changeset.updates, update.isBlocksOf table) :
    ∃ bytes, after.readFile (dataFilePath directory table) = .ok bytes ∧
      bytes.length =
        max (before.bytesAt (dataFilePath directory table)).length (changeset.dataEnd table) ∧
      ∀ position, bytes[position]?.getD 0 =
        (Patch.last? (changeset.patches table) position).getD
          ((before.bytesAt (dataFilePath directory table))[position]?.getD 0) := by
  obtain ⟨⟨name, rfl⟩, hmem⟩ := Changeset.paths_of_isBlocksOf hopens directory retention
  have hfile : (ReplicaFile.data name.text).Proper := isTableName_text name
  obtain ⟨hresolve, hentry⟩ := h.resolve hfile hmem
  have hold : before.bytesAt (dataFilePath directory name.text) =
      (Change.contentOf (before.get? (home ++ [(ReplicaFile.data name.text).name]))).bytes :=
    FileSystem.bytesAt_of_resolve hresolve hentry
  have hpatched := (h.get?_file hfile (by simp)).trans (run_data hopens hentry)
  rw [hold]
  refine ⟨_, h.edited.readFile hresolve hpatched, ?_,
    fun position => Content.byteAt_patched _ _ position⟩
  rw [Content.length_bytes, Content.size_patched, Changeset.span_patches]
  rfl

/-- The archive holds the stream. -/
theorem archive (h : Enacted changeset directory retention home effects before after)
    (hretention : retention ≠ 0) :
    after.readFile (archivePath directory changeset.startRevision) = .ok changeset.encode := by
  have hmem : archivePath directory changeset.startRevision ∈ changeset.paths directory retention :=
    List.mem_append_left _ (by simp [hretention])
  have hfile : (ReplicaFile.archive changeset.startRevision).Proper := trivial
  obtain ⟨hresolve, hentry⟩ := h.resolve hfile hmem
  obtain ⟨archive, hbytes, hrun⟩ := run_archive h.orderly h.changes hentry
  have hedited := h.edited.inside (archiveName changeset.startRevision)
  rw [if_neg hretention] at hedited
  rw [← h.archived, ← hbytes]
  exact h.edited.readFile hresolve (hedited.trans hrun)

/-- The lock file holds what it held. -/
theorem lock (h : Enacted changeset directory retention home effects before after) :
    after.readFile (lockFilePath directory) = .ok (before.bytesAt (lockFilePath directory)) := by
  have hfile : ReplicaFile.lock.Proper := trivial
  rw [FileSystem.bytesAt_of_resolve h.free.resolve h.free.clear]
  exact h.edited.readFile h.free.resolve
    ((h.get?_file hfile (by simp)).trans (run_lock h.free.clear))

/-- At any other place nothing changes. -/
theorem others (h : Enacted changeset directory retention home effects before after)
    {place : Location} (hplaces : ∀ path ∈ lockFilePath directory ::
      changeset.paths directory retention, before.resolve path ≠ .ok place) :
    after.get? place = before.get? place := by
  rcases inside_or_outside home place with ⟨name, rfl⟩ | houtside
  · -- No edit has this name, or the path of its file would lead to the place.
    have hnone : Edit.changesAt name (locking :: effects.flatMap (Effect.edits
        (if retention = 0 then none else some changeset.startRevision))) = [] := by
      refine Edit.changesAt_eq_nil.mpr fun edit hmem hname => ?_
      rcases List.mem_cons.mp hmem with rfl | hmem
      · exact hplaces _ List.mem_cons_self (by rw [h.free.resolve, ← hname]; rfl)
      · obtain ⟨file, hfile, hsame, hpath⟩ := path_of_edit h.changes edit hmem
        refine hplaces _ (List.mem_cons_of_mem _ hpath) ?_
        rw [(h.resolve hfile hpath).1, ← hsame, hname]
    rw [h.edited.inside, hnone]
    rfl
  · exact h.edited.outside place houtside

/-- Edits that the effects of a changeset make leave what the changeset says. -/
theorem realized (h : Enacted changeset directory retention home effects before after) :
    changeset.Realized directory retention before after where
  base _ _ _ hcontent := h.base hcontent
  temporary _ _ hsome := by
    obtain ⟨content, hcontent⟩ := Option.isSome_iff_exists.mp hsome
    exact h.temporary hcontent
  data _ hopens := h.data hopens
  archive hretention := h.archive hretention
  lock := h.lock
  others _ hplaces := h.others hplaces

end Enacted

/-- Under a free lock and with nothing in the way, an untrusted apply of the encoding of a changeset
in any reads succeeds, with the revisions and counts of the changeset, and makes of the files what
the changeset says. A write that starts below `offsetBound` is taken to succeed: a file system may
bound the size of a file further. -/
theorem Replicator.apply_changeset (replicator : Replicator) (changeset : Changeset)
    {reads : List Bytes} (hreads : ∀ read ∈ reads, read ≠ [])
    (hencode : reads.flatten = changeset.encode) {files : FileSystem}
    (hlock : ∃ taken, acquireLock replicator.directory files = .ok taken)
    (hclear : ∀ path ∈ changeset.paths replicator.directory replicator.config.maxChangesets,
      files.Unobstructed path) :
    (replicator.apply false (reads.map .data) files).result =
        .ok
          { startRevision := changeset.startRevision
            endRevision := changeset.endRevision
            requiredRevision := changeset.requiredRevision
            stats :=
              { baseFiles := changeset.updates.countP Update.isBase
                blocksWritten := (changeset.updates.map Update.blockCount).sum
                bytesConsumed := changeset.encode.length
                bytesArchived :=
                  if replicator.config.maxChangesets = 0 then 0 else changeset.encode.length } } ∧
      changeset.Realized replicator.directory replicator.config.maxChangesets files
        (replicator.apply false (reads.map .data) files).files := by
  obtain ⟨taken, htaken⟩ := hlock
  obtain ⟨home, hfree⟩ := lockFree_of_acquireLock htaken
  let delivery : Delivery := { bytes := changeset.encode, ending := .closed }
  have hdelivery : Connection.delivery (reads.map .data) = delivery := by
    rw [Connection.delivery_map_data hreads, hencode]
  obtain ⟨junk, hfollow⟩ := replicator.apply_eq_follow false (reads.map .data)
  have hfollowed := hfollow files
  rw [hdelivery] at hfollowed
  obtain ⟨hanswer, hedited, -⟩ := replicator.follow_of_lockFree false hfree delivery junk
  have hbytes : changeset.stream.bytes = delivery.bytes := changeset.bytes_stream
  obtain ⟨happlied, effects, horderly, hchanges, harchived, hedits⟩ :=
    attempted_of_stream hbytes rfl (changeset.paths_stream _ _ ▸ hclear) junk
  refine ⟨(congrArg Prod.fst hfollowed).trans (hanswer.trans (happlied.trans ?_)), ?_⟩
  · rw [appliedOf, changeset.baseFiles_stream, changeset.blockCount_stream, changeset.bytes_stream]
    rfl
  · have hfiles : (replicator.apply false (reads.map .data) files).files =
        (replicator.follow false delivery junk files).2 := congrArg Prod.snd hfollowed
    rw [hfiles]
    rw [hedits] at hedited
    have henacted : Enacted changeset replicator.directory replicator.config.maxChangesets home
        effects files (replicator.follow false delivery junk files).2 :=
      ⟨hfree, hclear, horderly, hchanges, harchived.trans changeset.bytes_stream, hedited⟩
    exact henacted.realized

/-- A changeset with a base file and two blocks, the second over a part of the first. -/
def sampleChangeset : Changeset where
  startRevision := 4
  endRevision := 5
  requiredRevision := 300
  updates :=
    [.base Replicator.sampleTable .a [7] (by decide),
      .blocks Replicator.sampleTable 2 [⟨1, [1, 2], rfl, by decide, by decide⟩] (by decide),
      .blocks Replicator.sampleTable 3 [⟨0, [3, 4, 5], rfl, by decide, by decide⟩] (by decide)]
  ordered := by decide
  later := by decide
  bounded := by decide

/-- The changeset is applied to empty files at the root, in one read. -/
theorem apply_changeset_sample :
    let replicator : Replicator := { directory := .ofText [] "/", config.maxChangesets := 1 }
    sampleChangeset.Realized replicator.directory 1 {}
      (replicator.apply false [.data sampleChangeset.encode] {}).files := by
  have hreads : ∀ read ∈ [sampleChangeset.encode], read ≠ [] := by
    simp [Changeset.encode, Header.encode, magic]
  exact (Replicator.apply_changeset { directory := .ofText [] "/", config.maxChangesets := 1 }
    sampleChangeset hreads (List.append_nil _) ⟨_, rfl⟩ (by decide)).2

/-- A changeset without updates whose archive has a longer name than the lock file. -/
def crampedChangeset : Changeset where
  startRevision := 12345678
  endRevision := 12345679
  requiredRevision := 12345679
  updates := []
  ordered := by decide
  later := le_rfl
  bounded := by decide

/-- Where the path to the archive is too long a changeset is not applied, although no path that it
touches is a directory and it is about no table. -/
theorem apply_changeset_cramped :
    let replicator := Replicator.crampedReplicator 1
    (∃ taken, acquireLock replicator.directory {} = .ok taken) ∧
      crampedChangeset.updates = [] ∧
      (∀ path ∈ crampedChangeset.paths replicator.directory replicator.config.maxChangesets,
        FileSystem.isDirectory {} path = false) ∧
      ∀ applied, (replicator.apply false ([crampedChangeset.encode].map .data) {}).result ≠
        .ok applied := by
  have hfile : (ReplicaFile.archive 12345678).Proper := trivial
  have hpaths : crampedChangeset.paths (Replicator.crampedReplicator 1).directory 1 =
      [(ReplicaFile.archive 12345678).path (Replicator.crampedReplicator 1).directory] := rfl
  have hbytes : crampedChangeset.stream.bytes =
      (Connection.delivery ([crampedChangeset.encode].map .data)).bytes := by
    have hreads : ∀ read ∈ [crampedChangeset.encode], read ≠ [] := by
      simp [Changeset.encode, Header.encode, magic]
    rw [crampedChangeset.bytes_stream, Connection.delivery_map_data hreads]
    exact (List.append_nil _).symm
  obtain ⟨locked, hlock, -⟩ := acquireLock_of_lockFree (Replicator.lockFree_cramped 1)
  refine ⟨⟨_, hlock⟩, rfl, ?_, ?_⟩
  · rw [show (Replicator.crampedReplicator 1).config.maxChangesets = 1 from rfl, hpaths,
      List.forall_mem_singleton]
    exact Replicator.isDirectory_cramped (ReplicaFile.isPlainName hfile)
  · refine Replicator.not_applied_cramped hbytes hfile ?_ (by decide)
    rw [crampedChangeset.paths_stream, hpaths]
    exact List.mem_cons_self

end TableReplica.Apply
