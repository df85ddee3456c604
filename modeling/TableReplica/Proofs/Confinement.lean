import TableReplica.Proofs.Progress

/-!
# No stream escapes its files

Whatever a stream holds, an apply changes only the lock file, the archive of the changeset and the
files of the tables that the chunks of the stream name, each in the replica directory:
`apply_confined`. It makes and removes no directory, leaves the content of the lock file alone, and
leaves no temporary file that was not there before.
-/

namespace TableReplica.Apply

open Files Transport Wire Format

/-- A chunk of a stream starts with these bytes. -/
def HasChunk (stream start : Bytes) : Prop :=
  ∃ (preamble : Preamble) (chunks : List Chunk),
    preamble.bytes ++ (chunks.flatMap Chunk.bytes ++ start) <+: stream

/-- The files that an apply of a stream may change. -/
inductive Touched (retention : UInt32) (stream : Bytes) : ReplicaFile → Prop where
  | lock : Touched retention stream .lock
  | archive (preamble : Preamble) :
      retention ≠ 0 → preamble.bytes <+: stream →
        Touched retention stream (.archive preamble.startRevision.value)
  | data (table : TableField) :
      HasChunk stream (tagByte .blocks :: table.bytes) →
        Touched retention stream (.data table.name.text)
  | temp (table : TableField) :
      HasChunk stream (tagByte .baseFile :: table.bytes) →
        Touched retention stream (.temp table.name.text)
  | base (table : TableField) (letter : BaseLetter) :
      HasChunk stream (tagByte .baseFile :: (table.bytes ++ [letterByte letter])) →
        Touched retention stream (.base table.name.text letter)

/-- The files after are the files before but for files of the directory that the stream is about. -/
structure Confined (directory : Path) (retention : UInt32) (stream : Bytes)
    (before after : FileSystem) : Prop where
  /-- What changes is in the directory, and a file that the stream is about. -/
  inside : ∀ place, after.get? place ≠ before.get? place →
    ∃ home file, before.LeadsTo directory home ∧ Touched retention stream file ∧ file.Proper ∧
      place = home ++ [file.name]
  /-- The lock file stays what it was, or is made empty. -/
  lock : ∀ home, before.LeadsTo directory home →
    after.get? (home ++ [lockFileName]) = before.get? (home ++ [lockFileName]) ∨
      before.get? (home ++ [lockFileName]) = none ∧
        after.get? (home ++ [lockFileName]) = some (.file .empty)
  /-- No directory is made, removed or replaced. -/
  directories : before.SameDirectories after
  /-- A temporary file that is there was there before, with the same content. -/
  temporary : ∀ home table content, before.LeadsTo directory home → IsTableName table →
    after.get? (home ++ [(ReplicaFile.temp table).name]) = some (.file content) →
      before.get? (home ++ [(ReplicaFile.temp table).name]) = some (.file content)
  /-- Different files have different paths, which lead to different places. -/
  distinct : ∀ first second : ReplicaFile, first.Proper → second.Proper → first ≠ second →
    first.path directory ≠ second.path directory ∧
      ∀ place, before.resolve (first.path directory) = .ok place →
        before.resolve (second.path directory) ≠ .ok place

section

variable {directory : Path} {files : FileSystem} {accepts : Nat → Prop} {stream bytes : Bytes}
  {changes : List Effect} {refused : Option Effect} {retention : UInt32}

theorem HasChunk.of_isPrefix {start : Bytes} (h : HasChunk stream bytes)
    (hinitial : start <+: bytes) : HasChunk stream start := by
  obtain ⟨preamble, chunks, hchunk⟩ := h
  exact ⟨preamble, chunks, ((List.prefix_append_right_inj _).mpr
    ((List.prefix_append_right_inj _).mpr hinitial)).trans hchunk⟩

/-- A base file chunk changes the files that it names. -/
theorem touched_of_replaceBase {table : TableField} {letter : BaseLetter} {payload : Payload}
    (h : HasChunk stream (Chunk.baseFile table letter payload).bytes) {file : ReplicaFile}
    (hfile : file ∈ (Effect.replaceBase table.name.text letter payload.content).edited none) :
    Touched retention stream file := by
  simp only [Effect.edited, List.mem_cons, List.not_mem_nil, or_false] at hfile
  rcases hfile with rfl | rfl
  · exact .temp table (h.of_isPrefix (by simp [Chunk.bytes]))
  · exact .base table letter (h.of_isPrefix (by simp [Chunk.bytes]))

/-- Opening a data file and writing blocks to it change the file that the chunk names. -/
theorem touched_of_blocks {table : TableField} {size : Nat} {blocks : List Block}
    (h : HasChunk stream (tagByte .blocks :: table.bytes)) {effect : Effect}
    (heffect : effect ∈ Effect.openData table.name.text ::
      blocks.map (Plan.blockChange table.name.text size)) {file : ReplicaFile}
    (hfile : file ∈ effect.edited none) : Touched retention stream file := by
  have hdata : file = .data table.name.text := by
    rcases List.mem_cons.mp heffect with rfl | hblock
    · exact List.mem_singleton.mp hfile
    · obtain ⟨block, -, rfl⟩ := List.mem_map.mp hblock
      exact List.mem_singleton.mp hfile
  rw [hdata]
  exact .data table h

theorem touched_of_chunk {chunk : Chunk} (h : HasChunk stream chunk.bytes) {effect : Effect}
    (heffect : effect ∈ Plan.chunkChanges chunk) {file : ReplicaFile}
    (hfile : file ∈ effect.edited none) : Touched retention stream file := by
  cases chunk with
  | baseFile table letter payload =>
      rw [List.mem_singleton.mp heffect] at hfile
      exact touched_of_replaceBase h hfile
  | blocks table run =>
      exact touched_of_blocks (h.of_isPrefix (by simp [Chunk.bytes])) heffect hfile

/-- What is changed or refused at a mark is a file that the chunk names. -/
theorem Mark.touched (h : Mark directory files bytes changes refused)
    (hchunk : HasChunk stream bytes) {effect : Effect}
    (heffect : effect ∈ changes ++ refused.toList) {file : ReplicaFile}
    (hfile : file ∈ effect.edited none) : Touched retention stream file := by
  cases h with
  | nothing | named | sized => cases heffect
  | kept table letter payload _ =>
      rw [List.mem_singleton.mp heffect] at hfile
      exact touched_of_replaceBase hchunk hfile
  | closed table size _ _ =>
      have hopened : effect ∈ Effect.openData table.name.text ::
          [].map (Plan.blockChange table.name.text size.value) := heffect
      exact touched_of_blocks (hchunk.of_isPrefix (by simp)) hopened hfile
  | blocks table size blocks _ _ _ _ =>
      rw [Option.toList_none, List.append_nil] at heffect
      exact touched_of_blocks (hchunk.of_isPrefix (by simp)) heffect hfile

/-- What is changed before a landmark, or refused there, is a file that a chunk of the stream
names. -/
theorem Landmark.touched (h : Landmark directory files accepts stream bytes changes refused)
    {effect : Effect} (heffect : effect ∈ changes ++ refused.toList) {file : ReplicaFile}
    (hfile : file ∈ effect.edited none) : Touched retention stream file := by
  cases h with
  | opened preamble _ =>
      rw [List.mem_singleton.mp heffect] at hfile
      cases hfile
  | within preamble chunks _ _ hmark hinitial =>
      rw [List.cons_append, List.append_assoc] at heffect
      rcases List.mem_cons.mp heffect with rfl | hchanged
      · cases hfile
      rcases List.mem_append.mp hchanged with hdone | hlast
      · obtain ⟨chunk, hmem, hchange⟩ := List.mem_flatMap.mp hdone
        obtain ⟨before, after, rfl⟩ := List.append_of_mem hmem
        -- The chunks before this one lead to it.
        refine touched_of_chunk ⟨preamble, before, List.IsPrefix.trans ?_ hinitial⟩ hchange hfile
        simp
      · exact hmark.touched ⟨preamble, chunks, hinitial⟩ hlast hfile

/-- Different files are told apart by their paths, whatever was done. -/
theorem distinct_paths (directory : Path) (files : FileSystem) (first second : ReplicaFile)
    (hfirst : first.Proper) (hsecond : second.Proper) (hne : first ≠ second) :
    first.path directory ≠ second.path directory ∧
      ∀ place, files.resolve (first.path directory) = .ok place →
        files.resolve (second.path directory) ≠ .ok place :=
  ⟨mt (ReplicaFile.path_inj hfirst hsecond) hne,
    fun _ hplace hother => hne (ReplicaFile.place_inj hfirst hsecond hplace hother)⟩

theorem Confined.refl (directory : Path) (retention : UInt32) (stream : Bytes)
    (files : FileSystem) : Confined directory retention stream files files where
  inside _ hchanged := absurd rfl hchanged
  lock _ _ := .inl rfl
  directories := .refl _
  temporary _ _ _ _ _ hfile := hfile
  distinct := distinct_paths directory files

/-- An edit of a file that the stream is about, other than the lock file. A temporary file only
goes. -/
def Touching (retention : UInt32) (stream : Bytes) (edit : Edit) : Prop :=
  ∃ file, Touched retention stream file ∧ file.Proper ∧ file ≠ .lock ∧ edit.name = file.name ∧
    ∀ table, file = .temp table → edit.change = .remove

variable {home : Location} {after : FileSystem} {edits : List Edit}

/-- What changes is the lock file or one that the stream is about. -/
theorem touched_of_edited (hedits : ∀ edit ∈ edits, Touching retention stream edit)
    (hedited : Edited home (locking :: edits) files after) {place : Location}
    (hchanged : after.get? place ≠ files.get? place) :
    ∃ file, Touched retention stream file ∧ file.Proper ∧ place = home ++ [file.name] := by
  rcases inside_or_outside home place with ⟨name, rfl⟩ | houtside
  · have hsome : Edit.changesAt name (locking :: edits) ≠ [] := by
      intro hnone
      rw [hedited.inside, hnone] at hchanged
      exact hchanged rfl
    obtain ⟨change, hchange⟩ := List.exists_mem_of_ne_nil _ hsome
    obtain ⟨edit, hmem, rfl, -⟩ := Edit.mem_changesAt.mp hchange
    rcases List.mem_cons.mp hmem with rfl | hmem
    · exact ⟨.lock, .lock, trivial, rfl⟩
    · obtain ⟨file, htouched, hproper, -, hfile, -⟩ := hedits edit hmem
      exact ⟨file, htouched, hproper, by rw [hfile]⟩
  · exact absurd (hedited.outside place houtside) hchanged

/-- Only taking the lock edits the lock file, which stays what it was or is made empty. -/
theorem lock_of_edited (hedits : ∀ edit ∈ edits, Touching retention stream edit)
    (hedited : Edited home (locking :: edits) files after) :
    after.get? (home ++ [lockFileName]) = files.get? (home ++ [lockFileName]) ∨
      files.get? (home ++ [lockFileName]) = none ∧
        after.get? (home ++ [lockFileName]) = some (.file .empty) := by
  have hlock : ReplicaFile.lock.Proper := trivial
  have hnone : Edit.changesAt lockFileName edits = [] := by
    refine Edit.changesAt_eq_nil.mpr fun edit hmem => ?_
    obtain ⟨file, -, hproper, hother, hname, -⟩ := hedits edit hmem
    rw [hname]
    exact ReplicaFile.name_ne hproper hlock hother
  have hlocking : locking.name = lockFileName := rfl
  rw [hedited.inside, Edit.changesAt_cons, if_pos hlocking, hnone]
  show locking.change.apply _ = _ ∨ _ ∧ locking.change.apply _ = _
  rcases files.get? (home ++ [lockFileName]) with _ | content | _
  · exact .inr ⟨rfl, rfl⟩
  · left
    simp [locking, Change.apply]
  · exact .inl rfl

/-- A temporary file only goes. -/
theorem temporary_of_edited (hedits : ∀ edit ∈ edits, Touching retention stream edit)
    (hedited : Edited home (locking :: edits) files after) {table : String}
    (htable : IsTableName table) {content : Content}
    (hfile : after.get? (home ++ [(ReplicaFile.temp table).name]) = some (.file content)) :
    files.get? (home ++ [(ReplicaFile.temp table).name]) = some (.file content) := by
  have htemp : (ReplicaFile.temp table).Proper := htable
  have hlock : ReplicaFile.lock.Proper := trivial
  rw [hedited.inside] at hfile
  refine Change.eq_of_run_removes (fun change hmem => ?_) hfile
  obtain ⟨edit, hedit, hname, rfl⟩ := Edit.mem_changesAt.mp hmem
  rcases List.mem_cons.mp hedit with rfl | hedit
  · cases ReplicaFile.name_inj hlock htemp hname
  · obtain ⟨file, -, hproper, -, hfile, hremove⟩ := hedits edit hedit
    exact hremove table (ReplicaFile.name_inj hproper htemp (hfile.symm.trans hname))

/-- Edits of files that the stream is about keep an apply confined. -/
theorem Confined.of_edited (hhome : files.LeadsTo directory home)
    (hedits : ∀ edit ∈ edits, Touching retention stream edit)
    (hedited : Edited home (locking :: edits) files after) :
    Confined directory retention stream files after where
  inside place hchanged := by
    obtain ⟨file, htouched, hproper, hplace⟩ := touched_of_edited hedits hedited hchanged
    exact ⟨home, file, hhome, htouched, hproper, hplace⟩
  lock other hother := by
    rw [hother.unique hhome]
    exact lock_of_edited hedits hedited
  directories := hedited.sameDirectories
  temporary other table content hother htable hfile := by
    rw [hother.unique hhome] at hfile ⊢
    exact temporary_of_edited hedits hedited htable hfile
  distinct := distinct_paths directory files

/-- What was done up to a landmark is confined. -/
theorem Begun.confined {replicator : Replicator} {trusted : Bool} {effects : List Effect}
    (h : Begun replicator trusted home files stream effects refused bytes after)
    (hhome : files.LeadsTo replicator.directory home) :
    Confined replicator.directory replicator.config.maxChangesets stream files after := by
  obtain ⟨preamble, -, hpreamble, -, harchived⟩ := h.preamble
  refine .of_edited hhome (fun edit hmem => ?_) h.edited
  obtain ⟨effect, heffect, file, hfile, hproper, hname, htemp⟩ := file_of_editsOf h.orderly hmem
  refine ⟨file, ?_, hproper, ?_, hname, htemp⟩
  · have hchanged (hfills : effect.fillsArchive = false) : effect ∈ changesOf effects ++
        refused.toList := by
      rcases List.mem_append.mp heffect with hmade | hrefused
      · exact List.mem_append_left _ (List.mem_filter.mpr ⟨hmade, by simp [hfills]⟩)
      · exact List.mem_append_right _ hrefused
    cases effect with
    | openArchive | archive =>
        obtain ⟨start, hstart, rfl⟩ := List.mem_map.mp hfile
        rw [Option.mem_toList, harchived] at hstart
        split at hstart
        · cases hstart
        · next hretention =>
            cases hstart
            exact .archive preamble hretention hpreamble
    | openData | writeBlock | replaceBase =>
        exact h.furthest.reached.touched (hchanged rfl) hfile
  · rintro rfl
    exact effect.lock_notMem_edited hfile

end

namespace Replicator

variable (replicator : Replicator)

/-- Whatever a connection brings, an apply changes nothing but the files of the replica that the
stream is about, and these in the ways that their kinds allow. -/
theorem apply_confined (trusted : Bool) (connection : Connection) (files : FileSystem) :
    Confined replicator.directory replicator.config.maxChangesets connection.delivery.bytes files
      (replicator.apply trusted connection files).files := by
  rcases replicator.lockFree_or_locked trusted connection files with
    ⟨home, hfree⟩ | ⟨failure, -, -, hfiles⟩
  · have hprogress := replicator.progress_of_apply hfree trusted connection
    revert hprogress
    generalize (replicator.apply trusted connection files).result = result
    generalize (replicator.apply trusted connection files).files = after
    rintro (⟨failure, _, -, -, hedited⟩ | ⟨failure, _, effects, refused, -, hbegun⟩ |
      ⟨changeset, _, effects, bytes, -, -, -, hbegun⟩)
    · exact .of_edited hfree.leads (by simp) hedited
    · exact hbegun.confined hfree.leads
    · exact hbegun.confined hfree.leads
  · rw [hfiles]
    exact .refl _ _ _ _

/-- The data file that the changeset with one block makes is one that the stream is about. -/
theorem apply_confined_sample :
    ∃ home file, FileSystem.LeadsTo {} sampleReplicator.directory home ∧
      Touched 1 sampleStream.bytes file ∧ file.Proper ∧ ["a.DB"] = home ++ [file.name] :=
  (apply_confined sampleReplicator false [.data sampleStream.bytes] {}).inside ["a.DB"]
    (by decide +kernel)

end Replicator

end TableReplica.Apply
