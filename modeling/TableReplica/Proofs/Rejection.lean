import TableReplica.Proofs.Failures
import TableReplica.Proofs.Format.Offending
import TableReplica.Proofs.Progress
import TableReplica.Proofs.ReadBoundaries

/-!
# Rejection is early and final

An apply that fails without waiting for more bytes fails in the same way however the stream goes on:
its plan refuses the bytes that are there (`Replicator.firm_plan`), or the files refuse an effect
that the bytes ask for. And the bytes need to reach no further than the field that is wrong:
`Offends` lays out all the streams that end there, and none of them is awaited further.
`apply_rejects` says both.
-/

namespace TableReplica.Apply

open Files Transport Wire Format

/-- The paths that an effect writes to, apart from the archive. -/
def Effect.paths (directory : Path) : Effect → List Path
  | openArchive _ | archive _ => []
  | openData table | writeBlock table _ _ => [dataFilePath directory table]
  | replaceBase table letter _ => [tempFilePath directory table, baseFilePath directory table letter]

/-- Nothing is in the way of an effect other than opening the archive if nothing is at its paths. -/
theorem Effect.clear_of_paths {directory : Path} {archived : Option Nat} {files : FileSystem}
    {effect : Effect} (hkind : ∀ start, effect ≠ .openArchive start)
    (h : ∀ path ∈ effect.paths directory, files.Unobstructed path) :
    effect.Clear directory archived files := by
  have hfree : ∀ path ∈ effect.paths directory, files.obstacle? path = none :=
    fun path hmem => FileSystem.obstacle?_eq_none.mpr (h path hmem)
  cases effect with
  | openArchive start => exact absurd rfl (hkind start)
  | archive data => rfl
  | openData table | writeBlock table offset block =>
      have hdata := hfree _ List.mem_cons_self
      simp [Clear, obstacle?, hdata]
  | replaceBase table letter content =>
      have htemp := hfree (tempFilePath directory table) List.mem_cons_self
      have hbase := hfree (baseFilePath directory table letter) (by simp [paths])
      simp [Clear, obstacle?, htemp, hbase]

/-- The courses of a stream that stalls and of one that goes on: the second does all that the first
does, and the same if the first is refused. -/
structure Continues (short long : Course Halt Receipt) : Prop where
  initial : short.effects <+: long.effects
  stopped : ∃ halt, short.outcome = .error halt
  refused : ∀ halt, short.outcome = .error halt → halt.Final →
    long.effects = short.effects ∧ ∃ last, long.outcome = .error last ∧
      ∀ ending other : Ending,
        Failure.uncounted { stage := last.stage, error := ending.report last.stop } =
          Failure.uncounted { stage := halt.stage, error := other.report halt.stop }

/-- A halt for good is reported in the same way however the stream ends. -/
theorem Halt.Final.report_eq {halt : Halt} (h : halt.Final) (ending other : Ending) :
    ending.report halt.stop = other.report halt.stop := by
  obtain ⟨stage, what | error⟩ := halt
  · exact h.elim
  · cases ending <;> cases other <;> rfl

/-- A timeout is reported where more bytes are awaited from a stream that stalls. -/
theorem final_of_not_timeout {halt : Halt}
    (h : (Ending.stalled.report halt.stop).isTimeout = false) : halt.Final := by
  obtain ⟨stage, what | error⟩ := halt
  · cases h
  · trivial

namespace Replicator

variable {replicator : Replicator} {trusted : Bool} {files : FileSystem}

/-- The course of a stream that stalls is continued by that of every stream that goes on. -/
theorem continues_course {short long : Delivery} (hstalled : short.ending = .stalled)
    (hinitial : short.bytes <+: long.bytes) (first second : Nat) :
    Continues (replicator.course trusted short first) (replicator.course trusted long second) := by
  obtain ⟨more, hmore⟩ := hinitial
  have hfirm := replicator.firm_plan trusted
  have hextend : Position.extend { ahead := short.bytes } more = { ahead := long.bytes } := by
    rw [← hmore]
    rfl
  have hbegun : (replicator.plan trusted { ahead := long.bytes }).effects <+:
      (replicator.course trusted long second).effects := PlanOf.effects_prefix_bind _ _ _
  rcases hplan : replicator.plan trusted { ahead := short.bytes } with
    ⟨effects, halt | ⟨receipt, after⟩⟩
  · have hshort := course_of_error hplan first
    rw [hshort]
    refine ⟨?_, ⟨halt, rfl⟩, fun other hother hfinal => ?_⟩
    · have hlonger := hfirm.steady { ahead := short.bytes } more
      rw [hplan, hextend] at hlonger
      revert hbegun hlonger
      generalize replicator.plan trusted { ahead := long.bytes } = longer
      intro hbegun hlonger
      cases hlonger with
      | stopped _ _ _ hless => exact hless.trans hbegun
    · cases hother
      have hsame := hfirm.stands { ahead := short.bytes } halt (by rw [hplan]) hfinal more
      rw [hextend, hplan] at hsame
      rw [course_of_error hsame second]
      exact ⟨rfl, halt, rfl, fun ending last => by rw [hfinal.report_eq ending last]⟩
  · have hread := hfirm.steady.of_ok hplan more
    rw [hextend] at hread
    rw [course_of_ok hplan first]
    by_cases hahead : after.ahead = []
    · -- The changeset is complete, and the end of the stream is awaited.
      rw [if_neg (by simp [hahead]), if_neg (by simp [hstalled])]
      refine ⟨?_, ⟨_, rfl⟩, fun halt hhalt hfinal => ?_⟩
      · rw [hread] at hbegun
        exact hbegun
      · cases hhalt
        exact hfinal.elim
    · -- Bytes are ahead that are too many, and more of them when the stream goes on.
      have hjunk : (after.extend more).ahead ≠ [] := fun hnothing =>
        hahead (List.append_eq_nil_iff.mp hnothing).1
      rw [if_pos hahead, course_of_ok hread second, if_pos hjunk]
      refine ⟨List.prefix_rfl, ⟨_, rfl⟩, fun halt hhalt hfinal => ?_⟩
      cases hhalt
      refine ⟨rfl, _, rfl, fun ending other => ?_⟩
      cases ending <;> cases other <;> rfl

/-- A stream that goes on is followed to the same failure, unless more bytes were awaited. -/
theorem follow_of_continues {short long : Delivery} {first second : Nat}
    (h : Continues (replicator.course trusted short first) (replicator.course trusted long second))
    (hstalled : short.ending = .stalled) {failure : Failure}
    (hfailure : (replicator.follow trusted short first files).1 = .error failure)
    (htimely : failure.error.isTimeout = false) :
    (replicator.follow trusted long second files).1.mapError Failure.uncounted =
        .error failure.uncounted ∧
      (replicator.follow trusted long second files).2 =
        (replicator.follow trusted short first files).2 := by
  obtain ⟨hinitial, ⟨halt, hstopped⟩, hrefused⟩ := h
  unfold follow at hfailure ⊢
  cases hlock : acquireLock replicator.directory files with
  | error error =>
      rw [hlock] at hfailure
      cases hfailure
      exact ⟨rfl, rfl⟩
  | ok taken =>
      obtain ⟨place, locked⟩ := taken
      simp only [hlock] at hfailure ⊢
      rcases hperformed : performAll replicator.directory replicator.config.maxChangesets
        (replicator.course trusted short first).effects { files := locked } with
        ⟨refusal | _, done⟩
      · -- The files refuse what the bytes ask for, whatever comes after them.
        rw [performAll_error_of_isPrefix hinitial hperformed]
        rw [hperformed] at hfailure
        cases hfailure
        exact ⟨rfl, rfl⟩
      · simp only [hperformed, hstopped] at hfailure ⊢
        cases hfailure
        rw [hstalled] at htimely ⊢
        obtain ⟨heffects, last, hlast, hreport⟩ :=
          hrefused halt hstopped (final_of_not_timeout htimely)
        simp only [heffects, hperformed, hlast]
        exact ⟨congrArg Except.error (hreport _ _), trivial⟩

/-- What stands in the way of an apply before it comes to an offending field: nothing, if its lock
is free, the revision of the header is accepted, and nothing is at the paths that are written to. -/
structure Unhindered (replicator : Replicator) (trusted : Bool) (files : FileSystem)
    (preamble : Option Preamble) (changes : List Effect) : Prop where
  lock : ∃ taken, acquireLock replicator.directory files = .ok taken
  accepted : ∀ header, preamble = some header →
    replicator.Accepts trusted header.startRevision.value
  archive : ∀ header, preamble = some header → replicator.config.maxChangesets = 0 ∨
    files.Unobstructed (archivePath replicator.directory header.startRevision.value)
  paths : ∀ effect ∈ changes, ∀ path ∈ effect.paths replicator.directory, files.Unobstructed path

end Replicator

section

variable {replicator : Replicator} {trusted : Bool} {files : FileSystem} {bytes : Bytes}
  {preamble : Option Preamble} {changes : List Effect} {stage : Stage} {error : ProtocolError}

/-- Chunks ask for no archive. -/
theorem WrongChunk.not_openArchive (h : WrongChunk bytes changes error) :
    ∀ effect ∈ changes, ∀ start, effect ≠ .openArchive start := by
  cases h with
  | tag | nameLength | name | letter | baseSize | blockSize => simp
  | blockNumber table size blocks number => simp [Plan.blockChange]

theorem not_openArchive_of_chunkChanges (chunk : Chunk) :
    ∀ effect ∈ Plan.chunkChanges chunk, ∀ start, effect ≠ .openArchive start := by
  cases chunk with
  | baseFile => simp [Plan.chunkChanges]
  | blocks => simp [Plan.chunkChanges, Plan.blockChange]

theorem Offends.not_openArchive (h : Offends bytes preamble changes stage error) :
    ∀ effect ∈ changes, ∀ start, effect ≠ .openArchive start := by
  have hchunks (chunks : List Chunk) :
      ∀ effect ∈ chunks.flatMap Plan.chunkChanges, ∀ start, effect ≠ .openArchive start :=
    List.forall_mem_flatMap.mpr fun chunk _ => not_openArchive_of_chunkChanges chunk
  cases h with
  | header => simp
  | chunk preamble chunks hwrong =>
      exact List.forall_mem_append.mpr ⟨hchunks chunks, hwrong.not_openArchive⟩
  | footer preamble chunks => exact hchunks chunks

/-- The header comes before what offends in a chunk or in the footer. -/
theorem Offends.header_isPrefix {header : Preamble}
    (h : Offends bytes (some header) changes stage error) : header.bytes <+: bytes := by
  cases h with
  | chunk | footer => exact List.prefix_append _ _

/-- An offending field is no field that is awaited. -/
theorem Offends.not_timeout (h : Offends bytes preamble changes stage error) :
    (ReplicaError.protocol error).isTimeout = false := by
  cases h with
  | header hwrong => cases hwrong <;> rfl
  | footer => rfl
  | chunk preamble chunks hwrong =>
      cases hwrong with
      | tag | nameLength | baseSize | blockSize | blockNumber => rfl
      | name kind length letters _ _ _ _ herror =>
          unfold parseTableName at herror
          split at herror
          · cases herror
            rfl
          · split at herror <;> cases herror
            rfl
      | letter table byte _ herror =>
          unfold BaseLetter.ofByte at herror
          split at herror
          · cases herror
          · split at herror <;> cases herror
            rfl

/-- With nothing in its way an apply fails with the error of the offending field. -/
theorem Offends.result_eq (h : Offends bytes preamble changes stage error)
    (hfree : replicator.Unhindered trusted files preamble changes) {connection : Connection}
    (hbytes : connection.delivery.bytes = bytes) :
    (replicator.apply trusted connection files).result =
      .error { stage, error := .protocol error } := by
  obtain ⟨taken, htaken⟩ := hfree.lock
  obtain ⟨home, hlock⟩ := lockFree_of_acquireLock htaken
  obtain ⟨junk, hresult, -⟩ := Replicator.apply_of_lockFree hlock trusted connection
  obtain ⟨effects, hplan, hchanges⟩ :=
    h.rejects hfree.accepted { ahead := connection.delivery.bytes } hbytes
  have horderly := replicator.orderly_course trusted connection.delivery junk
  rw [Replicator.course_of_error hplan] at hresult horderly
  -- The archive is the one of the header, and opened before anything else is changed.
  have hclear : ∀ effect ∈ effects, effect.Clear replicator.directory
      (archivedBy replicator.config.maxChangesets effects) files := by
    refine Effect.clear_of_changes ?_
    rw [hchanges]
    refine List.forall_mem_append.mpr ⟨?_, fun effect hmem =>
      Effect.clear_of_paths (h.not_openArchive effect hmem) (hfree.paths effect hmem)⟩
    cases preamble with
    | none => simp [openingOf]
    | some header =>
        have harchived := archivedBy_eq horderly hchanges replicator.config.maxChangesets
        simp only [openingOf, Option.toList_some, List.map_cons, List.map_nil,
          List.forall_mem_singleton, harchived]
        exact Effect.clear_openArchive.mpr (hfree.archive header rfl)
  rw [hresult, Replicator.answer, Replicator.attempted]
  simp only [attempt_of_clear hclear]
  cases connection.delivery.ending <;> rfl

/-- A stream that is refused is not awaited: only the error that it is refused with may say that it
timed out. -/
theorem Replicator.exists_failure (files : FileSystem) {connection : Connection} {stage : Stage}
    {error : ReplicaError}
    (h : (replicator.plan trusted { ahead := connection.delivery.bytes }).outcome =
      .error { stage, stop := .refused error }) :
    ∃ failure, (replicator.apply trusted connection files).result = .error failure ∧
      (failure.error.isTimeout = true → failure.error = error) := by
  have hcourse (junk : Nat) : (replicator.course trusted connection.delivery junk).outcome =
      .error { stage, stop := .refused error } := by
    rcases hplan : replicator.plan trusted { ahead := connection.delivery.bytes } with
      ⟨effects, outcome⟩
    rw [hplan] at h
    obtain rfl : outcome = _ := h
    rw [Replicator.course_of_error hplan]
  cases hresult : (replicator.apply trusted connection files).result with
  | ok applied =>
      obtain ⟨junk, _, _, _, found, -, -, hfound⟩ := Replicator.performed_of_applied hresult
      rw [hcourse] at hfound
      cases hfound
  | error failure =>
      refine ⟨failure, rfl, fun htimeout => ?_⟩
      cases Replicator.fails_of_apply hresult with
      | locked refusal => cases htimeout
      | obstructed archived effect error hobstacle =>
          obtain ⟨-, action, path, refusal, rfl⟩ := Effect.storage_of_obstacle? hobstacle
          cases htimeout
      | halted halt junk hhalt =>
          rw [hcourse] at hhalt
          cases hhalt
          cases connection.delivery.ending <;> rfl

/-- A stream that ends with an offending field is refused: an apply says that it timed out only if
the revision reader does. -/
theorem Offends.refused (h : Offends bytes preamble changes stage error) {connection : Connection}
    (hbytes : connection.delivery.bytes = bytes) :
    ∃ failure, (replicator.apply trusted connection files).result = .error failure ∧
      (failure.error.isTimeout = true →
        trusted = true ∧ replicator.revisions replicator.directory = .error failure.error) := by
  by_cases haccepts : ∀ header, preamble = some header →
      replicator.Accepts trusted header.startRevision.value
  · obtain ⟨effects, hplan, -⟩ :=
      h.rejects haccepts { ahead := connection.delivery.bytes } hbytes
    obtain ⟨failure, hfailure, htimeout⟩ :=
      Replicator.exists_failure files (by rw [hplan])
    refine ⟨failure, hfailure, fun htrue => ?_⟩
    rw [htimeout htrue, h.not_timeout] at htrue
    cases htrue
  · -- The revision is refused before the field is read.
    simp only [not_forall] at haccepts
    obtain ⟨header, rfl, hrefused⟩ := haccepts
    obtain ⟨rest, rfl⟩ := h.header_isPrefix
    obtain ⟨htrusted, refusal, hrefusal, hrejects⟩ := Plan.rejects_revision hrefused
    have hplan : PlanOf.Rejects (replicator.plan trusted) (header.bytes ++ rest) _ _ :=
      .bind (.during (Plan.archives_opening header.bare).reads _)
        (.first (.during (hrejects rest) _) _)
    obtain ⟨effects, hplan, -⟩ := hplan { ahead := connection.delivery.bytes } hbytes
    obtain ⟨failure, hfailure, htimeout⟩ :=
      Replicator.exists_failure files (by rw [hplan])
    refine ⟨failure, hfailure, fun htrue => ⟨htrusted, ?_⟩⟩
    have hsame := htimeout htrue
    rcases hrefusal with hreader | ⟨current, rfl⟩
    · rw [hsame, hreader]
    · rw [hsame] at htrue
      cases htrue

end

namespace Replicator

variable (replicator : Replicator)

/-- Rejection is early and final. What an apply fails with while its connection stalls, other than a
timeout, it fails with however the stream goes on, in the same stage and with the same files; only
the number of junk bytes that the error counts may differ. And a stream that ends with an offending
field is not awaited any further: the apply fails with something else than a timeout (or with what
the revision reader says), and with the error of that field if nothing is in its way before. -/
theorem apply_rejects (trusted : Bool) (files : FileSystem) (stalled : Connection)
    (hstalled : stalled.delivery.ending = .stalled) :
    (∀ failure, (replicator.apply trusted stalled files).result = .error failure →
      failure.error.isTimeout = false →
        ∀ continued : Connection, stalled.delivery.bytes <+: continued.delivery.bytes →
          (replicator.apply trusted continued files).result.mapError Failure.uncounted =
              .error failure.uncounted ∧
            (replicator.apply trusted continued files).files =
              (replicator.apply trusted stalled files).files) ∧
    ∀ preamble changes stage error, Offends stalled.delivery.bytes preamble changes stage error →
      (∃ failure, (replicator.apply trusted stalled files).result = .error failure ∧
        (failure.error.isTimeout = true →
          trusted = true ∧ replicator.revisions replicator.directory = .error failure.error)) ∧
      (replicator.Unhindered trusted files preamble changes →
        (replicator.apply trusted stalled files).result =
          .error { stage, error := .protocol error }) := by
  refine ⟨fun failure hfailure htimely continued hinitial => ?_,
    fun preamble changes stage error hoffends =>
      ⟨hoffends.refused rfl, fun hfree => hoffends.result_eq hfree rfl⟩⟩
  obtain ⟨first, hfirst⟩ := replicator.apply_eq_follow trusted stalled
  obtain ⟨second, hsecond⟩ := replicator.apply_eq_follow trusted continued
  have hshort := congrArg Prod.fst (hfirst files)
  rw [hfailure] at hshort
  obtain ⟨hresult, hfiles⟩ := follow_of_continues
    (continues_course hstalled hinitial first second) hstalled hshort.symm htimely
  rw [← hfirst files, ← hsecond files] at hfiles
  rw [← hsecond files] at hresult
  exact ⟨hresult, hfiles⟩

/-- A changeset whose first chunk has a tag that no chunk has. -/
def strangeSample : Connection :=
  [.data (sampleStream.preamble.bytes ++ [9]), .stall]

/-- The apply fails at the tag, and does so in the same way when more bytes come in the same read
and the stream ends. -/
theorem apply_rejects_strange :
    (sampleReplicator.apply false strangeSample {}).result =
        .error { stage := .readingChunks, error := .protocol (.unknownChunk 9) } ∧
      (sampleReplicator.apply false [.data (sampleStream.preamble.bytes ++ [9, 1, 0])] {}).files =
        (sampleReplicator.apply false strangeSample {}).files := by
  obtain ⟨hfinal, hearly⟩ := apply_rejects sampleReplicator false {} strangeSample rfl
  have hoffends : Offends strangeSample.delivery.bytes (some sampleStream.preamble) []
      .readingChunks (.unknownChunk 9) :=
    Offends.chunk sampleStream.preamble [] (.tag 9 rfl)
  have hresult := (hearly _ _ _ _ hoffends).2
    { lock := ⟨_, rfl⟩
      accepted := fun _ _ => sampleReplicator.accepts_untrusted _
      archive := by
        rintro header ⟨⟩
        exact .inr (by decide)
      paths := by simp }
  have hsame := hfinal _ hresult rfl [.data (sampleStream.preamble.bytes ++ [9, 1, 0])] (by decide)
  exact ⟨hresult, hsame.2⟩

end Replicator

end TableReplica.Apply
