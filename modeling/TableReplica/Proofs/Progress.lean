import TableReplica.Proofs.Acceptance
import TableReplica.Proofs.Plan.Arrival
import TableReplica.Proofs.Plan.Contents

/-!
# How far an apply comes

An apply that opens its archive makes the changes up to the last landmark of its stream, however it
ends. If it fails, it has archived the bytes up to that landmark, and if it succeeds, the whole
stream. `Progress` says so, and `progress_of_apply` that every apply that takes the lock makes such
progress. What becomes of one file is told by `Begun.get?_name` and `Begun.readFile_archive`.
-/

namespace TableReplica.Apply

open Files Transport Wire Format

theorem Orderly.of_isPrefix {first second : List Effect} (h : Orderly second)
    (hinitial : first <+: second) : Orderly first := by
  cases first with
  | nil => exact .nothing
  | cons effect rest =>
      obtain ⟨more, rfl⟩ := hinitial
      cases h with
      | opening start _ hrest =>
          exact .opening start rest fun other hmem => hrest other (List.mem_append_left _ hmem)

/-- Only the first effect tells which changeset is archived. -/
theorem archivedBy_of_isPrefix {first second : List Effect} (hinitial : first <+: second)
    (hsome : first ≠ []) (retention : UInt32) :
    archivedBy retention second = archivedBy retention first := by
  cases first with
  | nil => exact absurd rfl hsome
  | cons effect rest =>
      obtain ⟨more, rfl⟩ := hinitial
      cases effect <;> rfl

/-- An apply has come to the last landmark of its stream: it made these effects, and the next was
refused, if one is given. -/
structure Begun (replicator : Replicator) (trusted : Bool) (home : Location) (files : FileSystem)
    (stream : Bytes) (effects : List Effect) (refused : Option Effect) (bytes : Bytes)
    (after : FileSystem) : Prop where
  furthest : Furthest replicator.directory files (replicator.Accepts trusted) stream bytes
    (changesOf effects) refused
  orderly : Orderly (effects ++ refused.toList)
  clear : ∀ effect ∈ effects, effect.Clear replicator.directory
    (archivedBy replicator.config.maxChangesets effects) files
  edited : Edited home (locking :: editsOf replicator.directory
    (archivedBy replicator.config.maxChangesets effects) files effects refused) files after

/-- How an apply that has taken the lock comes out: it fails before its archive is open, it fails at
the last landmark of its stream, or it succeeds. -/
inductive Progress (replicator : Replicator) (trusted : Bool) (home : Location)
    (files : FileSystem) (stream : Bytes) : Except Failure Applied → FileSystem → Prop where
  | unopened (failure : Failure) (after : FileSystem) :
      failure.stage = .readingHeader →
        (∀ preamble : Preamble, preamble.bytes <+: stream →
          replicator.config.maxChangesets ≠ 0 ∧ ¬ files.Unobstructed
            (archivePath replicator.directory preamble.startRevision.value)) →
        Edited home [locking] files after →
        Progress replicator trusted home files stream (.error failure) after
  | halted (failure : Failure) (after : FileSystem) (effects : List Effect)
      (refused : Option Effect) :
      (failure.stage = .checkingRevision ∨
        (failure.stage = .readingChunks ∨ failure.stage = .readingFooter) ∧
          ∃ preamble : Preamble, preamble.bytes <+: stream ∧
            replicator.Accepts trusted preamble.startRevision.value) →
        Begun replicator trusted home files stream effects refused (allArchived effects) after →
        Progress replicator trusted home files stream (.error failure) after
  | completed (changeset : Stream) (after : FileSystem) (effects : List Effect) (bytes : Bytes) :
      changeset.bytes = stream → allArchived effects = stream →
        replicator.Accepts trusted changeset.startRevision.value →
        Begun replicator trusted home files stream effects none bytes after →
        Progress replicator trusted home files stream
          (.ok (Replicator.appliedOf changeset replicator.config.maxChangesets)) after

namespace Replicator

variable (replicator : Replicator) {trusted : Bool} {files : FileSystem}

/-- The answer at a halt is an error in its stage. -/
theorem answer_of_halts {course : Course Halt Receipt} {done : List Effect}
    {reason : Effect ⊕ Halt}
    (h : course.Halts (Effect.Clear replicator.directory
      (archivedBy replicator.config.maxChangesets course.effects) files) done reason)
    (ending : Ending) :
    ∃ error, replicator.answer files course ending =
      .error { stage := haltStage reason, error } := by
  obtain ⟨-, hrefused, hstopped⟩ := attempt_of_halts h
  unfold answer attempted
  cases h with
  | refused _ rest effect outcome _ _ =>
      obtain ⟨error, herror⟩ := hrefused effect rfl
      rw [herror]
      exact ⟨error, rfl⟩
  | stopped _ stop _ =>
      rw [hstopped stop rfl]
      exact ⟨_, rfl⟩

/-- A course halts where its plan does, or at the end of a changeset that the stream does not end
with. -/
theorem halts_of_course {delivery : Delivery} {junk : Nat} {archived : Option Nat}
    {done : List Effect} {reason : Effect ⊕ Halt}
    (h : (replicator.course trusted delivery junk).Halts
      (Effect.Clear replicator.directory archived files) done reason) :
    (replicator.plan trusted { ahead := delivery.bytes }).Halts
        (Effect.Clear replicator.directory archived files) done reason ∨
      (∃ receipt after, replicator.plan trusted { ahead := delivery.bytes } =
        { effects := done, outcome := .ok (receipt, after) }) ∧
      (∀ effect ∈ done, effect.Clear replicator.directory archived files) ∧
      haltStage reason = .readingFooter ∧ reason.getLeft? = none := by
  rcases PlanOf.halts_bind h with
    hplan | ⟨effects, receipt, after, later, hplan, hclear, rfl, hlater⟩
  · exact .inl hplan
  right
  rcases PlanOf.halts_bind hlater with hfinish | ⟨_, _, last, _, _, _, _, hpure⟩
  · obtain ⟨inner, hinner, rfl⟩ := PlanOf.halts_during hfinish
    have hfinal : ∀ effect ∈ (Plan.finish delivery.ending junk after).effects,
        effect.Clear replicator.directory archived files :=
      Plan.emits_finish Effect.clear_archive _ _ after
    obtain ⟨stop, hstop, rfl, rfl⟩ := hinner.stopped_of_clear hfinal
    -- Where the stream does not end, nothing more is archived.
    have hnothing : (Plan.finish delivery.ending junk after).effects = [] := by
      unfold Plan.finish at hstop ⊢
      split
      · rfl
      · next hahead =>
          split
          · next hclosed =>
              rw [if_neg hahead, if_pos hclosed] at hstop
              cases hstop
          · rfl
    rw [hnothing, List.append_nil]
    exact ⟨⟨receipt, after, hplan⟩, hclear, rfl, rfl⟩
  · obtain ⟨stop, hstop, -, -⟩ := hpure.stopped_of_clear fun _ hmem => nomatch hmem
    cases hstop

/-- A course that gives a value has read a changeset, to the end of the stream. -/
theorem completed_of_course {delivery : Delivery} {junk : Nat} {archived : Option Nat}
    {found : Receipt × Position}
    (houtcome : (replicator.course trusted delivery junk).outcome = .ok found)
    (hclear : ∀ effect ∈ (replicator.course trusted delivery junk).effects,
      effect.Clear replicator.directory archived files) :
    ∃ changeset : Stream, ∃ bytes, changeset.bytes = delivery.bytes ∧
      delivery.ending = .closed ∧ replicator.Accepts trusted changeset.startRevision.value ∧
      Furthest replicator.directory files (replicator.Accepts trusted) delivery.bytes bytes
        (changesOf (replicator.course trusted delivery junk).effects) none := by
  rcases hplan : replicator.plan trusted { ahead := delivery.bytes } with
    ⟨effects, halt | ⟨receipt, after⟩⟩
  · rw [course_of_error hplan] at houtcome
    cases houtcome
  · rw [course_of_ok hplan] at houtcome hclear ⊢
    by_cases hahead : after.ahead ≠ []
    · rw [if_pos hahead] at houtcome
      cases houtcome
    by_cases hclosed : delivery.ending = .closed
    · simp only [if_neg hahead, if_pos hclosed] at hclear ⊢
      obtain ⟨⟨changeset, hstream, hcompleted⟩, hfurthest⟩ :=
        replicator.furthest_of_completes hplan
          fun effect hmem => hclear effect (List.mem_append_left _ hmem)
      refine ⟨changeset, allArchived effects, ?_, hclosed, hcompleted.accepted, ?_⟩
      · rw [hstream, Decidable.not_not.mp hahead, List.append_nil]
      · rw [changesOf_append, (Plan.Reads.passes_commit after).changes_eq, List.append_nil]
        exact hfurthest
    · rw [if_neg hahead, if_neg hclosed] at houtcome
      cases houtcome

/-- A course that halts before any change was made edits nothing. -/
theorem editsOf_unopened {course : Course Halt Receipt} (horderly : Orderly course.effects)
    {archived : Option Nat} {done : List Effect} {reason : Effect ⊕ Halt}
    (h : course.Halts (Effect.Clear replicator.directory archived files) done reason)
    (hnothing : changesOf done = []) :
    editsOf replicator.directory archived files done reason.getLeft? = [] := by
  have hbegun := horderly.of_isPrefix h.prefix_effects
  generalize reason.getLeft? = refused at hbegun
  generalize hall : done ++ refused.toList = all at hbegun
  cases hbegun with
  | nothing =>
      obtain ⟨rfl, hrefused⟩ := List.append_eq_nil_iff.mp hall
      simp [editsOf, hrefused]
  | opening start rest _ =>
      cases done with
      | nil =>
          -- What is refused is the archive, which spoils nothing.
          obtain ⟨effect, rfl⟩ : ∃ effect, refused = some effect := by
            cases refused with
            | none => cases hall
            | some effect => exact ⟨effect, rfl⟩
          obtain ⟨rfl, -⟩ := List.cons.inj hall
          rfl
      | cons effect others =>
          obtain ⟨rfl, -⟩ := List.cons.inj hall
          cases hnothing

/-- Where an apply comes to a halt before its archive is open, the stream has no header, or the
archive cannot be opened. -/
theorem obstructed_of_unopened {delivery : Delivery} {junk : Nat} {done : List Effect}
    {reason : Effect ⊕ Halt}
    (h : (replicator.course trusted delivery junk).Halts
      (Effect.Clear replicator.directory (archivedBy replicator.config.maxChangesets
        (replicator.course trusted delivery junk).effects) files) done reason)
    (hnothing : changesOf done = []) {preamble : Preamble}
    (hpreamble : preamble.bytes <+: delivery.bytes) :
    replicator.config.maxChangesets ≠ 0 ∧
      ¬ files.Unobstructed (archivePath replicator.directory preamble.startRevision.value) := by
  -- The course begins with opening this archive, whatever comes after the header.
  obtain ⟨rest, hrest⟩ := hpreamble
  have hlandmark : Landmark replicator.directory files (replicator.Accepts trusted) delivery.bytes
      preamble.bytes [.openArchive preamble.startRevision.value] none := .opened preamble ⟨_, hrest⟩
  obtain ⟨begun, hbegun, -, hmade⟩ :=
    begins_landmark hlandmark { ahead := delivery.bytes } rest rfl hrest.symm
  have hinitial : begun <+: (replicator.course trusted delivery junk).effects :=
    ((List.prefix_append _ _).trans hbegun).trans (PlanOf.effects_prefix_bind _ _ _)
  have hsome : begun ≠ [] := by
    rintro rfl
    cases hmade
  have horderly := (replicator.orderly_course trusted delivery junk).of_isPrefix hinitial
  rw [archivedBy_of_isPrefix hinitial hsome, archivedBy_eq horderly hmade] at h
  -- If it could be opened, it would have been, and the halt would come after it.
  have hrefused : ¬ (Effect.openArchive preamble.startRevision.value).Clear replicator.directory
      (if replicator.config.maxChangesets = 0 then none else some preamble.startRevision.value)
      files := by
    intro hclear
    have hpassed := (prefix_of_effects (h.prefix_of_clear hinitial
      (Effect.clear_of_changes (by simpa [hmade] using hclear)))).2
    rw [hmade, hnothing] at hpassed
    cases List.prefix_nil.mp hpassed
  rw [Effect.clear_openArchive, not_or] at hrefused
  exact hrefused

/-- A landmark is past the opening of the archive. -/
theorem ne_nil_of_furthest {stream bytes : Bytes} {effects : List Effect}
    {refused : Option Effect}
    (h : Furthest replicator.directory files (replicator.Accepts trusted) stream bytes
      (changesOf effects) refused) : effects ≠ [] := by
  rintro rfl
  obtain ⟨_, _, _, hchanges⟩ := h.reached.preamble
  cases hchanges

section

variable {home : Location} {delivery : Delivery} {junk : Nat} {after : FileSystem}

/-- What was made before a halt past the header is what an apply has begun. -/
theorem begun_of_halts {done : List Effect} {reason : Effect ⊕ Halt}
    (hhalts : (replicator.course trusted delivery junk).Halts
      (Effect.Clear replicator.directory (archivedBy replicator.config.maxChangesets
        (replicator.course trusted delivery junk).effects) files) done reason)
    (hfurthest : Furthest replicator.directory files (replicator.Accepts trusted) delivery.bytes
      (allArchived done) (changesOf done) reason.getLeft?)
    (hedited : Edited home (locking :: editsOf replicator.directory
      (archivedBy replicator.config.maxChangesets (replicator.course trusted delivery junk).effects)
      files done reason.getLeft?) files after) :
    Begun replicator trusted home files delivery.bytes done reason.getLeft? (allArchived done)
      after := by
  have harchived := archivedBy_of_isPrefix ((List.prefix_append done _).trans hhalts.prefix_effects)
    (replicator.ne_nil_of_furthest hfurthest) replicator.config.maxChangesets
  have hclear := hhalts.all_clear
  rw [harchived] at hedited hclear
  exact ⟨hfurthest,
    (replicator.orderly_course trusted delivery junk).of_isPrefix hhalts.prefix_effects, hclear,
    hedited⟩

/-- An apply whose course comes to a halt fails there. -/
theorem progress_of_halts {done : List Effect} {reason : Effect ⊕ Halt}
    (hhalts : (replicator.course trusted delivery junk).Halts
      (Effect.Clear replicator.directory (archivedBy replicator.config.maxChangesets
        (replicator.course trusted delivery junk).effects) files) done reason)
    (hedited : Edited home
      (locking :: (replicator.attempted files (replicator.course trusted delivery junk)).2) files
      after) :
    Progress replicator trusted home files delivery.bytes
      (replicator.answer files (replicator.course trusted delivery junk) delivery.ending)
      after := by
  obtain ⟨error, herror⟩ := replicator.answer_of_halts hhalts delivery.ending
  have hmade : (replicator.attempted files (replicator.course trusted delivery junk)).2 = _ :=
    (attempt_of_halts hhalts).1
  rw [herror]
  rw [hmade] at hedited
  rcases replicator.halts_of_course hhalts with
    hplan | ⟨⟨receipt, last, hplan⟩, hclear, hstage, hrefused⟩
  · rcases replicator.furthest_of_halts hplan with ⟨hstage, -, hnothing⟩ | ⟨hstage, hfurthest⟩
    · have horderly := replicator.orderly_course trusted delivery junk
      rw [replicator.editsOf_unopened horderly hhalts hnothing] at hedited
      exact .unopened _ _ hstage
        (fun preamble => replicator.obstructed_of_unopened hhalts hnothing) hedited
    · exact .halted _ _ done _ hstage (replicator.begun_of_halts hhalts hfurthest hedited)
  · -- The plan was carried out, so the stream does not end where the changeset does.
    obtain ⟨⟨changeset, hstream, hcompleted⟩, hfurthest⟩ :=
      replicator.furthest_of_completes hplan hclear
    rw [← hrefused] at hfurthest
    refine .halted _ _ done _ (.inr ⟨.inr hstage, changeset.preamble, ?_, hcompleted.accepted⟩)
      (replicator.begun_of_halts hhalts hfurthest hedited)
    rw [hstream]
    exact changeset.preamble_isPrefix.trans (List.prefix_append _ _)

/-- A course that is carried out is the one of a changeset, and all its changes are made. -/
theorem begun_of_completes {found : Receipt × Position}
    (hfound : (replicator.course trusted delivery junk).outcome = .ok found)
    (hclear : ∀ effect ∈ (replicator.course trusted delivery junk).effects,
      effect.Clear replicator.directory (archivedBy replicator.config.maxChangesets
        (replicator.course trusted delivery junk).effects) files)
    (hedited : Edited home
      (locking :: (replicator.attempted files (replicator.course trusted delivery junk)).2) files
      after) :
    ∃ (changeset : Stream) (effects : List Effect) (bytes : Bytes),
      changeset.bytes = delivery.bytes ∧ changesOf effects = streamChanges changeset ∧
      allArchived effects = delivery.bytes ∧
      replicator.Accepts trusted changeset.startRevision.value ∧
      replicator.answer files (replicator.course trusted delivery junk) delivery.ending =
        .ok (appliedOf changeset replicator.config.maxChangesets) ∧
      Begun replicator trusted home files delivery.bytes effects none bytes after := by
  obtain ⟨changeset, bytes, hbytes, hclosed, haccepts, hfurthest⟩ :=
    replicator.completed_of_course hfound hclear
  obtain ⟨effects, last, hcourse, hchanges, harchived, hconsumed⟩ :=
    replicator.course_of_stream haccepts hbytes hclosed junk
  have horderly := replicator.orderly_course trusted delivery junk
  rw [hcourse] at hedited horderly hclear hfurthest ⊢
  obtain ⟨happlied, hmade⟩ :=
    answer_of_stream horderly hchanges harchived hconsumed hclear delivery.ending
  rw [hmade] at hedited
  exact ⟨changeset, effects, bytes, hbytes, hchanges, harchived.trans hbytes, haccepts, happlied,
    hfurthest, by simpa using horderly, hclear, by simpa [editsOf] using hedited⟩

/-- An apply whose course is carried out succeeds. -/
theorem progress_of_completed {found : Receipt × Position}
    (hfound : (replicator.course trusted delivery junk).outcome = .ok found)
    (hclear : ∀ effect ∈ (replicator.course trusted delivery junk).effects,
      effect.Clear replicator.directory (archivedBy replicator.config.maxChangesets
        (replicator.course trusted delivery junk).effects) files)
    (hedited : Edited home
      (locking :: (replicator.attempted files (replicator.course trusted delivery junk)).2) files
      after) :
    Progress replicator trusted home files delivery.bytes
      (replicator.answer files (replicator.course trusted delivery junk) delivery.ending)
      after := by
  obtain ⟨changeset, effects, bytes, hbytes, -, harchived, haccepts, happlied, hbegun⟩ :=
    replicator.begun_of_completes hfound hclear hedited
  rw [happlied]
  exact .completed changeset _ effects bytes hbytes harchived haccepts hbegun

end

/-- An apply that can take the lock makes progress up to the last landmark of its stream. -/
theorem progress_of_apply {home : Location} (hfree : LockFree replicator.directory home files)
    (trusted : Bool) (connection : Connection) :
    Progress replicator trusted home files connection.delivery.bytes
      (replicator.apply trusted connection files).result
      (replicator.apply trusted connection files).files := by
  obtain ⟨junk, hanswer, hedited⟩ := apply_of_lockFree hfree trusted connection
  rw [hanswer]
  rcases (replicator.course trusted connection.delivery junk).halts_or_completes
    (Effect.Clear replicator.directory (archivedBy replicator.config.maxChangesets
      (replicator.course trusted connection.delivery junk).effects) files) with
    ⟨done, reason, hhalts⟩ | ⟨⟨found, hfound⟩, hclear⟩
  · exact replicator.progress_of_halts hhalts hedited
  · exact replicator.progress_of_completed hfound hclear hedited

/-- An apply finds the lock free, or it fails to take it and leaves the files as they are. -/
theorem lockFree_or_locked (trusted : Bool) (connection : Connection) (files : FileSystem) :
    (∃ home, LockFree replicator.directory home files) ∨
      ∃ failure, (replicator.apply trusted connection files).result = .error failure ∧
        failure.stage = .awaitingLock ∧
        (replicator.apply trusted connection files).files = files := by
  cases hlock : acquireLock replicator.directory files with
  | ok taken => exact .inl (lockFree_of_acquireLock hlock)
  | error error =>
      rw [apply_of_lock_error hlock]
      exact .inr ⟨_, rfl, rfl, rfl⟩

end Replicator

section

variable {replicator : Replicator} {trusted : Bool} {home : Location} {files after : FileSystem}
  {stream bytes : Bytes} {effects : List Effect} {refused : Option Effect}

/-- An apply of a stream with a header begins to make its changes, if the archive can be opened. -/
theorem Progress.begun {result : Except Failure Applied}
    (h : Progress replicator trusted home files stream result after) {preamble : Preamble}
    (hpreamble : preamble.bytes <+: stream)
    (hopen : replicator.config.maxChangesets = 0 ∨ files.Unobstructed
      (archivePath replicator.directory preamble.startRevision.value)) :
    ∃ effects refused bytes,
      Begun replicator trusted home files stream effects refused bytes after := by
  cases h with
  | unopened failure _ _ hobstructed =>
      obtain ⟨hretention, hrefused⟩ := hobstructed preamble hpreamble
      exact (hopen.elim hretention hrefused).elim
  | halted failure _ effects refused _ hbegun => exact ⟨effects, refused, _, hbegun⟩
  | completed changeset _ effects bytes _ _ _ hbegun => exact ⟨effects, none, bytes, hbegun⟩

namespace Begun

/-- The archive that is opened first is the one of the changeset that the stream is about. -/
theorem preamble
    (h : Begun replicator trusted home files stream effects refused bytes after) :
    ∃ preamble : Preamble, preamble.bytes <+: bytes ∧ preamble.bytes <+: stream ∧
      (∃ rest, changesOf effects = .openArchive preamble.startRevision.value :: rest) ∧
      archivedBy replicator.config.maxChangesets effects =
        if replicator.config.maxChangesets = 0 then none
        else some preamble.startRevision.value := by
  obtain ⟨preamble, hpreamble, rest, hchanges⟩ := h.furthest.reached.preamble
  have horderly := h.orderly.of_isPrefix (List.prefix_append _ _)
  exact ⟨preamble, hpreamble, hpreamble.trans h.furthest.reached.isPrefix, ⟨rest, hchanges⟩,
    archivedBy_eq horderly hchanges _⟩

/-- What became of a file other than the archive is told by the changes that were made, and the one
that was refused. -/
theorem get?_name (h : Begun replicator trusted home files stream effects refused bytes after)
    {name : String} (hname : ∀ start,
      archivedBy replicator.config.maxChangesets effects = some start → name ≠ archiveName start) :
    after.get? (home ++ [name]) =
      Change.run (Edit.changesAt name
        (locking :: editsOf replicator.directory none files (changesOf effects) refused))
        (files.get? (home ++ [name])) := by
  rw [h.edited.inside, Edit.changesAt_cons, Edit.changesAt_cons, changesAt_editsOf hname]

/-- The path of the archive that was opened leads to its name in the directory. -/
theorem resolve_archive
    (h : Begun replicator trusted home files stream effects refused bytes after)
    (hhome : files.LeadsTo replicator.directory home)
    (hretention : replicator.config.maxChangesets ≠ 0) {start : Nat} {rest : List Effect}
    (hchanges : changesOf effects = .openArchive start :: rest) :
    files.resolve (archivePath replicator.directory start) = .ok (home ++ [archiveName start]) ∧
      files.get? (home ++ [archiveName start]) ≠ some .directory := by
  have hopened : Effect.openArchive start ∈ effects :=
    (List.mem_filter.mp (hchanges ▸ List.mem_cons_self : _ ∈ changesOf effects)).1
  have hclear := h.clear _ hopened
  rw [archivedBy_eq (h.orderly.of_isPrefix (List.prefix_append _ _)) hchanges,
    Effect.clear_openArchive] at hclear
  have hfile : (ReplicaFile.archive start).Proper := trivial
  have hfree : files.Unobstructed ((ReplicaFile.archive start).path replicator.directory) :=
    hclear.resolve_left hretention
  obtain ⟨hresolve, hentry⟩ := ReplicaFile.resolve_of_unobstructed hhome hfile hfree
  exact ⟨hresolve, hentry⟩

/-- The archive holds what was archived. -/
theorem readFile_archive
    (h : Begun replicator trusted home files stream effects refused bytes after)
    (hhome : files.LeadsTo replicator.directory home)
    (hretention : replicator.config.maxChangesets ≠ 0) {start : Nat} {rest : List Effect}
    (hchanges : changesOf effects = .openArchive start :: rest) :
    after.readFile (archivePath replicator.directory start) = .ok (allArchived effects) := by
  have horderly := h.orderly.of_isPrefix (List.prefix_append _ _)
  have harchived : archivedBy replicator.config.maxChangesets effects = some start := by
    rw [archivedBy_eq horderly hchanges, if_neg hretention]
  obtain ⟨hresolve, hentry⟩ := h.resolve_archive hhome hretention hchanges
  obtain ⟨archive, hbytes, hrun⟩ := run_archive horderly hchanges hentry
  have hfile : (ReplicaFile.archive start).Proper := trivial
  have hspoils : Edit.changesAt (archiveName start)
      (refused.toList.flatMap (Effect.spoils replicator.directory files)) = [] :=
    changesAt_spoils h.orderly hfile (by simp)
  have hedited := h.edited.inside (archiveName start)
  rw [harchived, editsOf, ← List.cons_append, Edit.changesAt_append, hspoils,
    List.append_nil] at hedited
  rw [← hbytes]
  exact h.edited.readFile hresolve (hedited.trans hrun)

end Begun

end

namespace Replicator

/-- A replica at the root that keeps one archive. -/
def sampleReplicator : Replicator where
  directory := .ofText [] "/"
  config.maxChangesets := 1

/-- A connection that stalls in the contents of the block of `sampleStream`. -/
def stalledSample : Connection :=
  [.data (sampleStream.bytes.take 23), .stall]

/-- The apply fails where it waits for the rest of the block. -/
theorem result_stalledSample : (sampleReplicator.apply false stalledSample {}).result =
    .error { stage := .readingChunks, error := .protocol (.timeout "block contents") } := by
  decide +kernel

/-- What is archived ends with the block number. -/
theorem archive_stalledSample : (sampleReplicator.apply false stalledSample {}).files.readFile
    (archivePath sampleReplicator.directory sampleStream.preamble.startRevision.value) =
      .ok (sampleStream.bytes.take 22) := by
  decide +kernel

theorem preamble_stalledSample : sampleStream.preamble.bytes <+: stalledSample.delivery.bytes := by
  decide

end Replicator

end TableReplica.Apply
