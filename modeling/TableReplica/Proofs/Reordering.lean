import TableReplica.Proofs.Interruption
import TableReplica.Proofs.Stages
import TableReplica.Proofs.Updates

/-!
# Chunks for different files commute

The chunks of a changeset may be sent in another order, as long as those for one file stay in
theirs. What is made of a file depends on the chunks for it alone, and of a temporary file only on
whether there is a chunk that uses it (`run_rearranged`). What is in the way of a chunk does not
depend on the chunks before it. So the changeset is accepted where it was, with the same answer, and
leaves the same files but for its archive: `apply_rearranged`.
-/

namespace TableReplica.Format

open Apply Files

/-- The file that a chunk is for. -/
def Chunk.target : Chunk → ReplicaFile
  | baseFile table letter _ => .base table.name.text letter
  | blocks table _ => .data table.name.text

theorem Chunk.proper_target (chunk : Chunk) : chunk.target.Proper := by
  cases chunk with
  | baseFile table letter payload => exact isTableName_text table.name
  | blocks table run => exact isTableName_text table.name

/-- The same chunks in another order, which is the same for the chunks that are for one file. -/
structure Rearranges (chunks other : List Chunk) : Prop where
  perm : chunks.Perm other
  order : ∀ file, other.filter (·.target = file) = chunks.filter (·.target = file)

/-- Two chunks that stand side by side and are for different files may change places. -/
theorem Rearranges.swap {first second : Chunk} (h : first.target ≠ second.target)
    (earlier later : List Chunk) :
    Rearranges (earlier ++ first :: second :: later) (earlier ++ second :: first :: later) where
  perm := (List.Perm.swap second first later).append_left earlier
  order file := by
    rw [List.filter_append, List.filter_append]
    by_cases hfirst : first.target = file
    · have hsecond : second.target ≠ file := fun hsecond => h (hfirst.trans hsecond.symm)
      simp [hfirst, hsecond]
    · simp [hfirst, List.filter_cons]

end TableReplica.Format

namespace TableReplica.Apply

open Files Transport Wire Format

section

variable {chunks other : List Chunk} {name : String}

/-- Where a name is not that of its target, a chunk does nothing but remove a temporary file. -/
theorem remove_of_chunk {chunk : Chunk} (hname : chunk.target.name ≠ name) :
    ∀ change ∈ Edit.changesAt name (chunkEdits chunk), change = .remove := by
  intro change hchange
  obtain ⟨edit, hedit, hedited, rfl⟩ := Edit.mem_changesAt.mp hchange
  cases chunk with
  | baseFile table letter payload =>
      simp only [chunkEdits, List.mem_cons, List.not_mem_nil, or_false] at hedit
      rcases hedit with rfl | rfl
      · rfl
      · exact absurd hedited hname
  | blocks table run =>
      rcases List.mem_cons.mp hedit with rfl | hblock
      · exact absurd hedited hname
      · obtain ⟨block, -, rfl⟩ := List.mem_map.mp hblock
        exact absurd hedited hname

/-- A chunk leaves the files that others are for alone. -/
theorem changesAt_chunk_other {chunk against : Chunk} (h : chunk.target ≠ against.target) :
    Edit.changesAt against.target.name (chunkEdits chunk) = [] := by
  have hname : chunk.target.name ≠ against.target.name :=
    ReplicaFile.name_ne chunk.proper_target against.proper_target h
  refine Edit.changesAt_eq_nil.mpr fun edit hedit => ?_
  cases chunk with
  | baseFile table letter payload =>
      simp only [chunkEdits, List.mem_cons, List.not_mem_nil, or_false] at hedit
      rcases hedit with rfl | rfl
      · have htemp : (ReplicaFile.temp table.name.text).Proper := isTableName_text table.name
        have hne : ReplicaFile.temp table.name.text ≠ against.target := by
          cases against <;> simp [Chunk.target]
        exact ReplicaFile.name_ne htemp against.proper_target hne
      · exact hname
  | blocks table run =>
      rcases List.mem_cons.mp hedit with rfl | hblock
      · exact hname
      · obtain ⟨block, -, rfl⟩ := List.mem_map.mp hblock
        exact hname

/-- What chunks make of the file that one is for is told by those that are for this file. -/
theorem changesAt_filter_target (against : Chunk) (chunks : List Chunk) :
    Edit.changesAt against.target.name
        ((chunks.filter (·.target = against.target)).flatMap chunkEdits) =
      Edit.changesAt against.target.name (chunks.flatMap chunkEdits) := by
  induction chunks with
  | nil => rfl
  | cons chunk rest ih =>
      by_cases htarget : chunk.target = against.target
      · rw [List.filter_cons_of_pos (by simpa using htarget), List.flatMap_cons, List.flatMap_cons,
          Edit.changesAt_append, Edit.changesAt_append, ih]
      · rw [List.filter_cons_of_neg (by simpa using htarget), List.flatMap_cons,
          Edit.changesAt_append, changesAt_chunk_other htarget, ih]
        rfl

/-- Chunks that are rearranged make the same of every file. -/
theorem run_rearranged (h : Rearranges chunks other) (name : String) (entry : Option Entry) :
    Change.run (Edit.changesAt name (other.flatMap chunkEdits)) entry =
      Change.run (Edit.changesAt name (chunks.flatMap chunkEdits)) entry := by
  have hmem {chunk : Chunk} : chunk ∈ other ↔ chunk ∈ chunks := h.perm.mem_iff.symm
  by_cases htarget : ∃ chunk ∈ chunks, chunk.target.name = name
  · -- The chunks for this file stand in the same order.
    obtain ⟨against, -, rfl⟩ := htarget
    rw [← changesAt_filter_target, h.order, changesAt_filter_target]
  · -- All that can happen to the file is that it goes.
    have hremoves {list : List Chunk} (hlist : ∀ chunk ∈ list, chunk ∈ chunks) :
        ∀ change ∈ Edit.changesAt name (list.flatMap chunkEdits), change = .remove := by
      intro change hchange
      obtain ⟨edit, hedit, hname, hchange⟩ := Edit.mem_changesAt.mp hchange
      obtain ⟨chunk, hchunk, hedit⟩ := List.mem_flatMap.mp hedit
      exact remove_of_chunk (fun hsame => htarget ⟨chunk, hlist chunk hchunk, hsame⟩) change
        (Edit.mem_changesAt.mpr ⟨edit, hedit, hname, hchange⟩)
    have hnone : Edit.changesAt name (other.flatMap chunkEdits) = [] ↔
        Edit.changesAt name (chunks.flatMap chunkEdits) = [] := by
      simp only [Edit.changesAt_eq_nil, List.mem_flatMap, forall_exists_index, and_imp, hmem]
    exact Change.run_removes_congr (hremoves fun _ => hmem.mp) (hremoves fun _ => id) hnone entry

/-- Chunks that are rearranged are as many, with as many blocks and bytes. -/
theorem appliedOf_rearranged {stream : Stream} (h : Rearranges stream.chunks chunks)
    (retention : UInt32) :
    Replicator.appliedOf { stream with chunks } retention =
      Replicator.appliedOf stream retention := by
  have hfiles : chunks.countP Chunk.isBaseFile = stream.chunks.countP Chunk.isBaseFile :=
    (h.perm.countP_eq _).symm
  have hblocks : (chunks.map Chunk.blockCount).sum = (stream.chunks.map Chunk.blockCount).sum :=
    (h.perm.map _).sum_eq.symm
  have hlength : (chunks.flatMap Chunk.bytes).length = (stream.chunks.flatMap Chunk.bytes).length :=
    (h.perm.flatMap_right _).length_eq.symm
  have hbytes : (Stream.bytes { stream with chunks }).length = stream.bytes.length := by
    simp only [Stream.bytes, List.length_append, List.length_cons, hlength]
  simp only [Replicator.appliedOf, Stream.baseFiles, Stream.blockCount, hfiles, hblocks, hbytes]

/-- Applies of the same chunks, rearranged in one of them, leave the same files but for the
archive. -/
theorem Begun.get?_rearranged {replicator : Replicator} {trusted : Bool} {home place : Location}
    {files after last : FileSystem} {stream replay bytes rest : Bytes}
    {effects others : List Effect}
    {start : Nat} (h : Begun replicator trusted home files stream effects none bytes after)
    (hother : Begun replicator trusted home files replay others none rest last)
    (hhome : files.LeadsTo replicator.directory home) (hrearranged : Rearranges chunks other)
    (hchanges : changesOf effects = .openArchive start :: chunks.flatMap Plan.chunkChanges)
    (hsame : changesOf others = .openArchive start :: other.flatMap Plan.chunkChanges)
    (hplace : replicator.config.maxChangesets ≠ 0 →
      files.resolve (archivePath replicator.directory start) ≠ .ok place) :
    last.get? place = after.get? place := by
  rcases inside_or_outside home place with ⟨name, rfl⟩ | houtside
  · have hedits (list : List Chunk) : (list.flatMap Plan.chunkChanges).flatMap (Effect.edits none) =
        list.flatMap chunkEdits := by
      rw [List.flatMap_assoc]
      exact congrArg (list.flatMap ·) (funext flatMap_edits_chunk)
    have hlocking (edits : List Edit) (entry : Option Entry) :
        Change.run (Edit.changesAt name (locking :: edits)) entry =
          Change.run (Edit.changesAt name edits)
            (Change.run (Edit.changesAt name [locking]) entry) := by
      rw [← Change.run_append, ← Edit.changesAt_append]
      rfl
    rw [h.get?_changed hchanges (h.name_ne_archive hhome hchanges hplace),
      hother.get?_changed hsame (hother.name_ne_archive hhome hsame hplace), hedits, hedits,
      hlocking (other.flatMap chunkEdits), hlocking (chunks.flatMap chunkEdits),
      run_rearranged hrearranged]
  · rw [hother.edited.outside place houtside, h.edited.outside place houtside]

end

namespace Replicator

variable (replicator : Replicator)

/-- An apply that succeeds has read a changeset. With its chunks rearranged the changeset is
accepted too on the same files, in whatever reads it comes, with the same answer, and leaves the
same at every place but that of the archive. -/
theorem apply_rearranged {trusted : Bool} {connection : Connection} {files : FileSystem}
    {applied : Applied} (h : (replicator.apply trusted connection files).result = .ok applied) :
    ∃ stream : Stream, stream.bytes = connection.delivery.bytes ∧
      ∀ chunks, Rearranges stream.chunks chunks → ∀ other : Connection,
        other.delivery = { bytes := Stream.bytes { stream with chunks }, ending := .closed } →
          (replicator.apply trusted other files).result = .ok applied ∧
          ∀ place, (replicator.config.maxChangesets ≠ 0 → files.resolve
              (archivePath replicator.directory stream.startRevision.value) ≠ .ok place) →
            (replicator.apply trusted other files).files.get? place =
              (replicator.apply trusted connection files).files.get? place := by
  rcases replicator.lockFree_or_locked trusted connection files with
    ⟨home, hfree⟩ | ⟨failure, hfailed, -⟩
  · obtain ⟨stream, effects, bytes, hbytes, haccepts, rfl, hchanges, hbegun⟩ :=
      completed_of_applied hfree h
    have hclear : ∀ effect ∈ streamChanges stream, effect.Clear replicator.directory
        (if replicator.config.maxChangesets = 0 then none else some stream.startRevision.value)
        files := by
      have horderly := hbegun.orderly.of_isPrefix (List.prefix_append _ _)
      rw [← hchanges, ← archivedBy_eq horderly hchanges]
      exact fun effect hmem => hbegun.clear effect (List.mem_filter.mp hmem).1
    refine ⟨stream, hbytes, fun chunks hrearranged other hother => ?_⟩
    have hresult : (replicator.apply trusted other files).result =
        .ok (appliedOf stream replicator.config.maxChangesets) := by
      rw [← appliedOf_rearranged hrearranged]
      refine applied_of_clear hfree haccepts (by rw [hother]) (by rw [hother]) fun effect hmem =>
        hclear effect ?_
      rcases List.mem_cons.mp hmem with rfl | hmem
      · exact List.mem_cons_self
      · exact List.mem_cons_of_mem _ ((hrearranged.perm.flatMap_right _).mem_iff.mpr hmem)
    refine ⟨hresult, fun place hplace => ?_⟩
    obtain ⟨remade, others, rest, hread, -, -, hsame, hlast⟩ := completed_of_applied hfree hresult
    obtain rfl : remade = { stream with chunks } :=
      Stream.unambiguous (hread.trans (congrArg Delivery.bytes hother))
    exact hbegun.get?_rearranged hlast hfree.leads hrearranged hchanges hsame hplace
  · rw [hfailed] at h
    cases h

/-- A chunk for the base file `A` of the sample table. Its lengths are spelled as the version is,
all of them being one. -/
def sampleBase : Chunk :=
  .baseFile
    { length := sampleStream.version
      name := sampleTable
      counts := rfl }
    .a
    { size := sampleStream.version
      content := [7]
      counts := rfl
      small := by decide }

/-- The chunk of the sample changeset, which is for the data file of the table. -/
def sampleBlocks : Chunk :=
  sampleStream.chunks.head (List.cons_ne_nil _ _)

/-- The changeset with a base file and a block is answered in the same way if the block comes
first. -/
theorem apply_rearranged_sample :
    (sampleReplicator.apply false
        [.data (Stream.bytes { sampleStream with chunks := [sampleBlocks, sampleBase] })]
          {}).result =
      (sampleReplicator.apply false
        [.data (Stream.bytes { sampleStream with chunks := [sampleBase, sampleBlocks] })]
          {}).result := by
  let stream : Stream := { sampleStream with chunks := [sampleBase, sampleBlocks] }
  have hlock : acquireLock sampleReplicator.directory {} = .ok _ := rfl
  obtain ⟨home, hfree⟩ := lockFree_of_acquireLock hlock
  have happlied : (sampleReplicator.apply false [.data stream.bytes] {}).result =
      .ok (appliedOf stream 1) := applied_of_stream hfree rfl rfl (by decide)
  obtain ⟨read, hread, hsame⟩ := sampleReplicator.apply_rearranged happlied
  obtain rfl : read = stream := Stream.unambiguous (hread.trans rfl)
  rw [happlied]
  exact (hsame [sampleBlocks, sampleBase] (.swap (by decide) [] []) _ rfl).1

end Replicator

end TableReplica.Apply
