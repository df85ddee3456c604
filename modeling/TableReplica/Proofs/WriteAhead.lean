import TableReplica.Proofs.Progress

/-!
# The archive is written ahead

Every change is made after all that it depends on was archived, and nothing is archived that asks
for more. So an apply of the archived bytes makes of the files that were there at first what the
apply that archived them made of them, whether that succeeded or not: `apply_archived`. The reason
is that a stream and what is archived of it have the same last landmark
(`Progress.furthest_archived`).
-/

namespace TableReplica.Apply

open Files Transport Wire Format

section

variable {directory : Path} {files : FileSystem} {accepts other : Nat → Prop} {stream bytes : Bytes}
  {changes : List Effect} {refused : Option Effect}

/-- Nothing is done at a mark that has no bytes. -/
theorem Mark.eq_nothing (h : Mark directory files [] changes refused) :
    changes = [] ∧ refused = none := by
  generalize hbytes : ([] : Bytes) = bytes at h
  cases h with
  | nothing => exact ⟨rfl, rfl⟩
  | named | sized | kept | closed | blocks => simp [Chunk.bytes] at hbytes

/-- A landmark stays one where more revisions are accepted. -/
theorem Landmark.mono (h : Landmark directory files accepts stream bytes changes refused)
    (hmore : ∀ start, accepts start → other start) :
    Landmark directory files other stream bytes changes refused := by
  cases h with
  | opened preamble hinitial => exact .opened preamble hinitial
  | within preamble chunks haccepts hclear hmark hinitial =>
      exact .within preamble chunks (hmore _ haccepts) hclear hmark hinitial

/-- The revision of a header matters only if there is more than the header. -/
theorem Landmark.of_accepts (h : Landmark directory files other stream bytes changes refused)
    (hheader : ∀ preamble : Preamble, preamble.bytes <+: stream →
      accepts preamble.startRevision.value ∨ stream = preamble.bytes) :
    Landmark directory files accepts stream bytes changes refused := by
  cases h with
  | opened preamble hinitial => exact .opened preamble hinitial
  | @within preamble chunks bytes changes refused _ hclear hmark hinitial =>
      have hpreamble := (List.prefix_append _ _).trans hinitial
      rcases hheader preamble hpreamble with haccepts | rfl
      · exact .within preamble chunks haccepts hclear hmark hinitial
      · -- Nothing comes after the header, so the archive was just opened.
        have hnothing : chunks.flatMap Chunk.bytes ++ bytes = [] :=
          List.prefix_nil.mp ((List.prefix_append_right_inj preamble.bytes).mp
            (by simpa using hinitial))
        obtain ⟨hchunks, rfl⟩ := List.append_eq_nil_iff.mp hnothing
        obtain ⟨rfl, rfl⟩ := hmark.eq_nothing
        obtain rfl : chunks = [] := by
          cases chunks with
          | nil => rfl
          | cons chunk rest =>
              exact absurd (List.append_eq_nil_iff.mp hchunks).1 chunk.bytes_ne_nil
        have hopened : Landmark directory files accepts preamble.bytes preamble.bytes
            [.openArchive preamble.startRevision.value] none := .opened preamble hpreamble
        simpa using hopened

/-- Past the header the revision was accepted. -/
theorem Landmark.accepts_or_bare
    (h : Landmark directory files accepts stream bytes changes refused) {preamble : Preamble}
    (hpreamble : preamble.bytes <+: bytes) :
    accepts preamble.startRevision.value ∨ bytes = preamble.bytes := by
  cases h with
  | opened first _ =>
      rw [Preamble.eq_of_isPrefix hpreamble List.prefix_rfl]
      exact .inr rfl
  | within first chunks haccepts _ _ _ =>
      rw [Preamble.eq_of_isPrefix hpreamble (List.prefix_append _ _)]
      exact .inl haccepts

/-- The last landmark stays the last where more revisions are accepted, if the one of the header is
accepted or there is no more than the header. -/
theorem Furthest.of_accepts (h : Furthest directory files accepts stream bytes changes refused)
    (hmore : ∀ start, accepts start → other start)
    (hheader : ∀ preamble : Preamble, preamble.bytes <+: stream →
      accepts preamble.startRevision.value ∨ stream = preamble.bytes) :
    Furthest directory files other stream bytes changes refused where
  reached := h.reached.mono hmore
  last hlandmark := h.last (hlandmark.of_accepts hheader)

end

section

variable {replicator : Replicator} {trusted : Bool} {home : Location} {files after : FileSystem}
  {stream : Bytes} {result : Except Failure Applied}

/-- An apply that has opened its archive has come to the last landmark of what it archived, which is
also the last for an apply that does not check revisions. -/
theorem Progress.furthest_archived
    (h : Progress replicator trusted home files stream result after)
    (hopened : ∀ failure, result = .error failure →
      failure.stage ∉ [.awaitingLock, .readingHeader]) :
    ∃ effects refused bytes,
      Begun replicator trusted home files stream effects refused bytes after ∧
      ∀ again : Replicator, Furthest replicator.directory files (again.Accepts false)
        (allArchived effects) bytes (changesOf effects) refused := by
  have huntrusted (again : Replicator) :
      ∀ start, replicator.Accepts trusted start → again.Accepts false start :=
    fun start _ => again.accepts_untrusted start
  cases h with
  | unopened failure _ hstage => exact absurd (by simp [hstage]) (hopened failure rfl)
  | halted failure _ effects refused _ hbegun =>
      exact ⟨effects, refused, _, hbegun, fun again => hbegun.furthest.restrict.of_accepts
        (huntrusted again) fun _ => hbegun.furthest.reached.accepts_or_bare⟩
  | completed changeset _ effects bytes hbytes harchived haccepts hbegun =>
      refine ⟨effects, none, bytes, hbegun, fun again => ?_⟩
      rw [harchived]
      refine hbegun.furthest.of_accepts (huntrusted again) fun preamble hpreamble => .inl ?_
      rw [Preamble.eq_of_isPrefix hpreamble (hbytes ▸ changeset.preamble_isPrefix)]
      exact haccepts

/-- Applies that make the same changes leave the same files, but for the archive of the one. -/
theorem Begun.get?_eq {effects others : List Effect} {refused next : Option Effect}
    {bytes : Bytes} (h : Begun replicator trusted home files stream effects refused bytes after)
    {again : Replicator} (hdirectory : again.directory = replicator.directory)
    (hretention : again.config.maxChangesets = 0) {replay remade : Bytes} {replayed : FileSystem}
    (hagain : Begun again false home files replay others next remade replayed)
    (hchanges : changesOf others = changesOf effects) (hrefused : next = refused)
    {start : Nat} (harchived : archivedBy replicator.config.maxChangesets effects = some start)
    {place : Location} (hplace : place ≠ home ++ [archiveName start]) :
    replayed.get? place = after.get? place := by
  obtain ⟨_, -, -, -, hunarchived⟩ := hagain.preamble
  rw [if_pos hretention] at hunarchived
  rcases inside_or_outside home place with ⟨name, rfl⟩ | hother
  · have hname : name ≠ archiveName start := fun heq => hplace (by rw [heq])
    rw [hagain.get?_name (by simp [hunarchived]), h.get?_name (by simpa [harchived] using hname),
      hdirectory, hchanges, hrefused]
  · rw [hagain.edited.outside place hother, h.edited.outside place hother]

end

namespace Replicator

variable (replicator : Replicator)

/-- If an apply keeps an archive and has opened it, then whether it succeeded or failed, an apply of
the archived bytes to the files as they were at first leaves every other file as the first apply
did. -/
theorem apply_archived (trusted : Bool) (connection : Connection) (files : FileSystem)
    (hretention : replicator.config.maxChangesets ≠ 0)
    (hopened : ∀ failure, (replicator.apply trusted connection files).result = .error failure →
      failure.stage ∉ [.awaitingLock, .readingHeader]) :
    ∃ (preamble : Preamble) (archived : Bytes), preamble.bytes <+: connection.delivery.bytes ∧
      (replicator.apply trusted connection files).files.readFile
        (archivePath replicator.directory preamble.startRevision.value) = .ok archived ∧
      ∀ (again : Replicator) (replay : Connection), again.directory = replicator.directory →
        again.config.maxChangesets = 0 →
        replay.delivery = { bytes := archived, ending := .closed } →
          ∀ place, files.resolve (archivePath replicator.directory preamble.startRevision.value) ≠
              .ok place →
            (again.apply false replay files).files.get? place =
              (replicator.apply trusted connection files).files.get? place := by
  obtain ⟨home, hfree⟩ := (replicator.lockFree_or_locked trusted connection files).resolve_right
    fun ⟨failure, hfailure, hstage, _⟩ => hopened failure hfailure (by simp [hstage])
  have hprogress := replicator.progress_of_apply hfree trusted connection
  obtain ⟨effects, refused, bytes, hbegun, hfurthest⟩ := hprogress.furthest_archived hopened
  obtain ⟨preamble, -, hpreamble, ⟨rest, hchanges⟩, harchived⟩ := hbegun.preamble
  rw [if_neg hretention] at harchived
  refine ⟨preamble, allArchived effects, hpreamble,
    hbegun.readFile_archive hfree.leads hretention hchanges, ?_⟩
  intro again replay hdirectory hnone hdelivery place hplace
  have hagain := again.progress_of_apply (hdirectory ▸ hfree) false replay
  rw [hdelivery] at hagain
  obtain ⟨header, hheader, -⟩ := (hfurthest again).reached.preamble
  obtain ⟨others, next, remade, hreplayed⟩ :=
    hagain.begun (hheader.trans (hfurthest again).reached.isPrefix) (.inl hnone)
  -- Both applies have come to the last landmark of what was archived, which is one.
  have hlast := hreplayed.furthest
  rw [hdirectory] at hlast
  obtain ⟨-, hsame, hnext⟩ := hlast.unique (hfurthest again)
  refine hbegun.get?_eq hdirectory hnone hreplayed hsame hnext harchived fun heq => hplace ?_
  rw [heq]
  exact (hbegun.resolve_archive hfree.leads hretention hchanges).1

/-- The archive of an apply that stalled in the contents of a block ends with the block number. An
apply of it leaves the data file as the stalled apply did. -/
theorem apply_archived_stalled :
    (Replicator.apply { sampleReplicator with config.maxChangesets := 0 } false
        [.data (sampleStream.bytes.take 22)] {}).files.get? ["a.DB"] =
      (sampleReplicator.apply false stalledSample {}).files.get? ["a.DB"] := by
  obtain ⟨preamble, archived, hpreamble, hfile, hreplay⟩ :=
    apply_archived sampleReplicator false stalledSample {} (by decide) fun failure hfailure => by
      cases hfailure.symm.trans result_stalledSample
      decide
  obtain rfl := Preamble.eq_of_isPrefix hpreamble preamble_stalledSample
  obtain rfl : sampleStream.bytes.take 22 = archived :=
    Except.ok.inj (archive_stalledSample.symm.trans hfile)
  have hplace : FileSystem.resolve {} (archivePath sampleReplicator.directory
      sampleStream.preamble.startRevision.value) ≠ .ok ["a.DB"] := by decide
  exact hreplay { sampleReplicator with config.maxChangesets := 0 }
    [.data (sampleStream.bytes.take 22)] rfl rfl rfl ["a.DB"] hplace

end Replicator

end TableReplica.Apply
