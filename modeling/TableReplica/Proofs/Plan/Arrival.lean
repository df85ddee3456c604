import TableReplica.Proofs.Format.Beginning
import TableReplica.Proofs.Format.Halting

/-!
# How far a plan comes

Under any files a plan halts at a landmark of the stream, and begins with all of them. So what it
has archived and changed by then is told by the last landmark (`furthest_of_halts`), which is the
end of the chunks if the plan gives a value (`furthest_of_completes`).
-/

namespace TableReplica.Apply

open Files Transport Wire Format

section

variable {directory : Path} {archived : Option Nat} {files : FileSystem} {accepts : Nat → Prop}
  {stream bytes : Bytes} {changes : List Effect} {refused : Option Effect}

/-- Nothing is in the way of the changes of a chunk just if none of its paths is obstructed. -/
theorem Effect.clear_chunkChanges {chunk : Chunk} :
    (∀ effect ∈ Plan.chunkChanges chunk, effect.Clear directory archived files) ↔
      chunk.Clear directory files := by
  cases chunk with
  | baseFile table letter payload => exact List.forall_mem_singleton.trans Effect.clear_replaceBase
  | blocks table run =>
      refine ⟨fun h => List.forall_mem_singleton.mpr
        (Effect.clear_openData.mp (h _ List.mem_cons_self)), fun h effect hmem => ?_⟩
      have hopen := h _ List.mem_cons_self
      rcases List.mem_cons.mp hmem with rfl | hblock
      · exact Effect.clear_openData.mpr hopen
      · obtain ⟨block, -, rfl⟩ := List.mem_map.mp hblock
        exact (Effect.clear_writeBlock _ _).mpr hopen

/-- Nothing is in the way of the changes of a stream just if none of its paths is obstructed. -/
theorem Effect.clear_streamChanges {stream : Stream} {retention : UInt32} :
    (∀ effect ∈ streamChanges stream, effect.Clear directory
      (if retention = 0 then none else some stream.startRevision.value) files) ↔
      ∀ path ∈ stream.paths directory retention, files.Unobstructed path := by
  rw [streamChanges, Stream.paths, List.forall_mem_cons, List.forall_mem_append,
    Effect.clear_openArchive, List.forall_mem_flatMap, List.forall_mem_flatMap]
  refine and_congr ?_ (forall₂_congr fun _ _ => Effect.clear_chunkChanges)
  by_cases hretention : retention = 0 <;> simp [hretention]

/-- Nothing is in the way of the changes before a mark, and something is in the way of the one that
is refused there. -/
theorem Mark.clear (h : Mark directory files bytes changes refused) (archived : Option Nat) :
    (∀ effect ∈ changes, effect.Clear directory archived files) ∧
      ∀ effect, refused = some effect → ¬ effect.Clear directory archived files := by
  cases h with
  | nothing | named | sized => simp
  | kept table letter payload hrefused =>
      refine ⟨by simp, fun effect heffect => ?_⟩
      cases heffect
      exact mt Effect.clear_replaceBase.mp hrefused
  | closed table size hsmall hrefused =>
      refine ⟨by simp, fun effect heffect => ?_⟩
      cases heffect
      exact mt Effect.clear_openData.mp hrefused
  | blocks table size blocks hsmall hopen hfit hover =>
      refine ⟨fun effect hmem => ?_, by simp⟩
      rcases List.mem_cons.mp hmem with rfl | hblock
      · exact Effect.clear_openData.mpr hopen
      · obtain ⟨block, -, rfl⟩ := List.mem_map.mp hblock
        exact (Effect.clear_writeBlock _ _).mpr hopen

/-- Only the archive can be in the way of the changes before a landmark. -/
theorem Landmark.clear (h : Landmark directory files accepts stream bytes changes refused)
    (hopen : ∀ preamble : Preamble, preamble.bytes <+: stream →
      (Effect.openArchive preamble.startRevision.value).Clear directory archived files) :
    (∀ effect ∈ changes, effect.Clear directory archived files) ∧
      ∀ effect, refused = some effect → ¬ effect.Clear directory archived files := by
  cases h with
  | opened preamble hinitial => simpa using hopen preamble hinitial
  | within preamble chunks _ hchunks hmark hinitial =>
      obtain ⟨hmade, hrefused⟩ := hmark.clear archived
      refine ⟨?_, hrefused⟩
      simp only [List.forall_mem_cons, List.forall_mem_append, List.forall_mem_flatMap]
      exact ⟨hopen preamble ((List.prefix_append _ _).trans hinitial),
        fun chunk hmem => Effect.clear_chunkChanges.mpr (hchunks chunk hmem), hmade⟩

/-- Whatever is asked for, nothing is in the way of filling the archive. -/
theorem Effect.clear_of_changes {done : List Effect}
    (h : ∀ effect ∈ changesOf done, effect.Clear directory archived files) :
    ∀ effect ∈ done, effect.Clear directory archived files := by
  intro effect hmem
  by_cases hfills : effect.fillsArchive = true
  · cases effect <;> first | rfl | cases hfills
  · exact h effect (List.mem_filter.mpr ⟨hmem, by simpa using hfills⟩)

/-- A stream has one header at most, so its archive can be opened if it was. -/
theorem Landmark.archive_clear
    (h : Landmark directory files accepts stream bytes changes refused)
    (hclear : ∀ effect ∈ changes, effect.Clear directory archived files) :
    ∀ preamble : Preamble, preamble.bytes <+: stream →
      (Effect.openArchive preamble.startRevision.value).Clear directory archived files := by
  intro preamble hpreamble
  obtain ⟨opened, hopened, others, rfl⟩ := h.preamble
  rw [Preamble.eq_of_isPrefix hpreamble (hopened.trans h.isPrefix)]
  exact hclear _ List.mem_cons_self

end

/-- Effects that lead from a place to another come before others in the bytes they archive and the
changes they make. -/
theorem prefix_of_effects {first second : List Effect} (h : first <+: second) :
    allArchived first <+: allArchived second ∧ changesOf first <+: changesOf second := by
  obtain ⟨rest, rfl⟩ := h
  rw [allArchived_append, changesOf_append]
  exact ⟨List.prefix_append _ _, List.prefix_append _ _⟩

namespace Replicator

variable (replicator : Replicator) {trusted : Bool} {archived : Option Nat} {files : FileSystem}
  {stream : Bytes}

/-- The landmark that the effects of a plan have led to is the last. -/
theorem furthest_of_landmark {done : List Effect} {refused : Option Effect}
    (hlandmark : Landmark replicator.directory files (replicator.Accepts trusted) stream
      (allArchived done) (changesOf done) refused)
    (hdone : ∀ effect ∈ done, effect.Clear replicator.directory archived files)
    (hlast : ∀ begun next,
      begun ++ next.toList <+: (replicator.plan trusted { ahead := stream }).effects →
        (∀ effect ∈ begun, effect.Clear replicator.directory archived files) →
        (∀ effect, next = some effect → ¬ effect.Clear replicator.directory archived files) →
          begun <+: done ∧ ∀ effect, next = some effect → refused = some effect) :
    Furthest replicator.directory files (replicator.Accepts trusted) stream (allArchived done)
      (changesOf done) refused where
  reached := hlandmark
  last {before made next} h := by
    obtain ⟨rest, hrest⟩ := h.isPrefix
    obtain ⟨begun, hbegun, hbefore, hmade⟩ :=
      begins_landmark h { ahead := stream } rest rfl hrest.symm
    have hopen := hlandmark.archive_clear
      fun effect hmem => hdone effect (List.mem_filter.mp hmem).1
    obtain ⟨hclear, hrefused⟩ := h.clear hopen
    subst hmade
    obtain ⟨hinitial, hnext⟩ := hlast begun next hbegun (Effect.clear_of_changes hclear) hrefused
    obtain ⟨hbytes, hchanges⟩ := prefix_of_effects hinitial
    rw [hbefore] at hbytes
    exact ⟨hbytes, hchanges, hnext⟩

/-- Where the plan of an apply comes to a halt past the header, it has come to the last
landmark. -/
theorem furthest_of_halts {done : List Effect} {reason : Effect ⊕ Halt}
    (h : (replicator.plan trusted { ahead := stream }).Halts
      (Effect.Clear replicator.directory archived files) done reason) :
    (haltStage reason = .readingHeader ∧ allArchived done = [] ∧ changesOf done = []) ∨
      (haltStage reason = .checkingRevision ∨
        (haltStage reason = .readingChunks ∨ haltStage reason = .readingFooter) ∧
          ∃ preamble : Preamble, preamble.bytes <+: stream ∧
            replicator.Accepts trusted preamble.startRevision.value) ∧
        Furthest replicator.directory files (replicator.Accepts trusted) stream (allArchived done)
          (changesOf done) reason.getLeft? := by
  obtain ⟨hhalted, hinitial⟩ :=
    (replicator.tracks_plan trusted archived files stream { ahead := stream } rfl rfl).2 _ _ h
  have hhalted := hhalted hinitial
  simp only [List.nil_append] at hhalted hinitial
  have hdone : ∀ effect ∈ done, effect.Clear replicator.directory archived files := h.all_clear
  have hlast : ∀ begun next,
      begun ++ next.toList <+: (replicator.plan trusted { ahead := stream }).effects →
        (∀ effect ∈ begun, effect.Clear replicator.directory archived files) →
        (∀ effect, next = some effect → ¬ effect.Clear replicator.directory archived files) →
          begun <+: done ∧ ∀ effect, next = some effect → reason.getLeft? = some effect := by
    intro begun next hbegun hclear hrefused
    refine ⟨h.prefix_of_clear ((List.prefix_append _ _).trans hbegun) hclear, ?_⟩
    rintro effect rfl
    obtain ⟨-, rfl⟩ := h.eq_of_refused hbegun hclear (hrefused effect rfl)
    rfl
  generalize hstored : allArchived done = stored at hhalted
  generalize hmade : changesOf done = made at hhalted
  cases hhalted with
  | unopened reason hstage => exact .inl ⟨hstage, rfl, rfl⟩
  | unchecked preamble stop hpreamble =>
      refine .inr ⟨.inl rfl, ?_⟩
      rw [← hstored, ← hmade]
      refine replicator.furthest_of_landmark ?_ hdone hlast
      rw [hstored, hmade]
      exact .opened preamble hpreamble
  | within preamble chunks reason hstage haccepts hclear hmark hwithin =>
      refine .inr ⟨.inr ⟨hstage, preamble, (List.prefix_append _ _).trans hwithin, haccepts⟩, ?_⟩
      rw [← hstored, ← hmade]
      refine replicator.furthest_of_landmark ?_ hdone hlast
      rw [hstored, hmade]
      exact .within preamble chunks haccepts hclear hmark hwithin

/-- Where the plan of an apply gives a value, it has read a changeset, and the last landmark is the
end of its chunks. -/
theorem furthest_of_completes {effects : List Effect} {receipt : Receipt} {after : Position}
    (hplan : replicator.plan trusted { ahead := stream } =
      { effects, outcome := .ok (receipt, after) })
    (hclear : ∀ effect ∈ effects, effect.Clear replicator.directory archived files) :
    (∃ changeset : Stream, stream = changeset.bytes ++ after.ahead ∧
      Completed replicator.directory files (replicator.Accepts trusted) changeset receipt
        (allArchived effects) after.pending (changesOf effects)) ∧
      Furthest replicator.directory files (replicator.Accepts trusted) stream (allArchived effects)
        (changesOf effects) none := by
  obtain ⟨⟨changeset, hcompleted⟩, hend⟩ :=
    (replicator.tracks_plan trusted archived files stream { ahead := stream } rfl rfl).1 _ _ _ hplan
      hclear
  simp only [List.nil_append] at hcompleted hend
  have hstream : stream = changeset.bytes ++ after.ahead := by
    rw [← hend, hcompleted.archived, hcompleted.left, changeset.bytes_eq]
    simp
  refine ⟨⟨changeset, hstream, hcompleted⟩, ?_⟩
  refine replicator.furthest_of_landmark ?_ hclear fun begun next hbegun _ hrefused => ?_
  · rw [hcompleted.archived, hcompleted.made]
    have hlandmark : Landmark replicator.directory files (replicator.Accepts trusted) stream
        (changeset.preamble.bytes ++ (changeset.chunks.flatMap Chunk.bytes ++ []))
        (.openArchive changeset.preamble.startRevision.value ::
          (changeset.chunks.flatMap Plan.chunkChanges ++ [])) none :=
      .within changeset.preamble changeset.chunks hcompleted.accepted hcompleted.clear .nothing
        (by rw [hstream, changeset.bytes_eq]; simp)
    rw [List.append_nil, List.append_nil] at hlandmark
    exact hlandmark
  · rw [hplan] at hbegun
    refine ⟨(List.prefix_append _ _).trans hbegun, ?_⟩
    rintro effect rfl
    exact absurd (hclear effect (hbegun.subset (by simp))) (hrefused effect rfl)

end Replicator

end TableReplica.Apply
