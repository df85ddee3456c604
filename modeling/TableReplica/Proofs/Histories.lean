import TableReplica.Proofs.Archiving
import TableReplica.Proofs.Locking

/-!
# Archives over many calls

Calls on a directory keep their archives apart. A call opens the archive of one revision at most,
and leaves those of all others as they were (`get?_archive_of_run`). What it opens holds just the
bytes that it archived, whatever was there before (`readFile_of_opens`). So in the end an archive
holds what the last call archived that opened it: `archive_history`.
-/

namespace TableReplica.Apply

open Files Transport Wire Format

/-- The files after calls on a directory, one after the other. -/
def runCalls (directory : Path) (calls : List Call) (files : FileSystem) : FileSystem :=
  calls.foldl (fun files call => (call.run directory files).files) files

/-- A call opens the archive of a revision: it finds the lock free, its stream begins with a header
with this start revision, archives are kept, and nothing is in the way of this one. -/
structure Call.Opens (call : Call) (directory : Path) (files : FileSystem) (start : Nat) : Prop where
  lock : ∃ taken, acquireLock directory files = .ok taken
  header : ∃ preamble : Preamble, preamble.bytes <+: call.connection.delivery.bytes ∧
    preamble.startRevision.value = start
  kept : call.config.maxChangesets ≠ 0
  clear : files.Unobstructed (archivePath directory start)

/-- The bytes that a call archives: all of its stream if it succeeds, and otherwise those up to the
last landmark of the stream. -/
def Call.Archives (call : Call) (directory : Path) (files : FileSystem) (bytes : Bytes) : Prop :=
  match (call.run directory files).result with
  | .ok _ => bytes = call.connection.delivery.bytes
  | .error _ => ∃ changes refused, Furthest directory files
      ((call.replicator directory).Accepts call.trusted) call.connection.delivery.bytes bytes
        changes refused

/-- None of the calls opens the archive of a revision. -/
def NoneOpens (directory : Path) (start : Nat) (calls : List Call) (files : FileSystem) : Prop :=
  ∀ earlier call later, calls = earlier ++ call :: later →
    ¬ call.Opens directory (runCalls directory earlier files) start

section

variable {directory : Path} {home : Location} {files : FileSystem} {call : Call} {calls : List Call}
  {start : Nat} {bytes : Bytes}

/-- What a call archives is settled by its stream and the files before it. -/
theorem Call.Archives.unique (h : call.Archives directory files bytes) {other : Bytes}
    (hother : call.Archives directory files other) : bytes = other := by
  unfold Archives at h hother
  revert h hother
  cases (call.run directory files).result with
  | ok applied =>
      intro h hother
      exact h.trans hother.symm
  | error failure =>
      rintro ⟨changes, refused, h⟩ ⟨made, next, hother⟩
      exact (h.unique hother).1

/-- A call leaves the directories as they were. -/
theorem sameDirectories_of_run (call : Call) (directory : Path) (files : FileSystem) :
    files.SameDirectories (call.run directory files).files :=
  ((call.replicator directory).apply_confined call.trusted call.connection files).directories

/-- A call that opens an archive leaves just the bytes in it that it archived. -/
theorem readFile_of_opens (h : call.Opens directory files start) :
    ∃ bytes, call.Archives directory files bytes ∧
      (call.run directory files).files.readFile (archivePath directory start) = .ok bytes := by
  obtain ⟨taken, htaken⟩ := h.lock
  obtain ⟨home, hfree⟩ := lockFree_of_acquireLock htaken
  obtain ⟨preamble, hpreamble, rfl⟩ := h.header
  have hprogress := (call.replicator directory).progress_of_apply hfree call.trusted call.connection
  unfold Call.Archives
  change Progress (call.replicator directory) call.trusted home files call.connection.delivery.bytes
    (call.run directory files).result (call.run directory files).files at hprogress
  have hheld {effects : List Effect} {refused : Option Effect} {reached : Bytes}
      (hbegun : Begun (call.replicator directory) call.trusted home files
        call.connection.delivery.bytes effects refused reached (call.run directory files).files) :
      (call.run directory files).files.readFile
        (archivePath directory preamble.startRevision.value) = .ok (allArchived effects) := by
    obtain ⟨header, -, hheader, ⟨rest, hchanges⟩, -⟩ := hbegun.preamble
    rw [Preamble.eq_of_isPrefix hheader hpreamble] at hchanges
    exact hbegun.readFile_archive hfree.leads h.kept hchanges
  revert hprogress hheld
  generalize (call.run directory files).result = result
  generalize (call.run directory files).files = after
  intro hprogress hheld
  cases hprogress with
  | unopened failure _ _ hobstructed => exact absurd h.clear (hobstructed preamble hpreamble).2
  | halted failure _ effects refused _ hbegun =>
      exact ⟨allArchived effects, ⟨_, _, hbegun.furthest⟩, hheld hbegun⟩
  | completed changeset _ effects reached _ harchived _ hbegun =>
      exact ⟨allArchived effects, harchived, hheld hbegun⟩

/-- What a call has begun opens the archive that its effects tell. -/
theorem opens_of_begun (hfree : LockFree directory home files) {effects : List Effect}
    {refused : Option Effect} {reached : Bytes} {after : FileSystem}
    (h : Begun (call.replicator directory) call.trusted home files call.connection.delivery.bytes
      effects refused reached after)
    (hopened : archivedBy (call.replicator directory).config.maxChangesets effects = some start) :
    call.Opens directory files start := by
  obtain ⟨preamble, -, hpreamble, ⟨rest, hchanges⟩, harchived⟩ := h.preamble
  rw [hopened] at harchived
  by_cases hnone : (call.replicator directory).config.maxChangesets = 0
  · rw [if_pos hnone] at harchived
    cases harchived
  · rw [if_neg hnone] at harchived
    obtain rfl := Option.some.inj harchived
    obtain ⟨locked, htaken, -, -⟩ := acquireLock_of_lockFree hfree
    exact ⟨⟨_, htaken⟩, ⟨preamble, hpreamble, rfl⟩, hnone, _,
      h.resolve_archive hfree.leads hnone hchanges⟩

/-- A call that does not open an archive leaves it as it was. -/
theorem get?_archive_of_run (hhome : files.LeadsTo directory home)
    (h : ¬ call.Opens directory files start) :
    (call.run directory files).files.get? (home ++ [archiveName start]) =
      files.get? (home ++ [archiveName start]) := by
  rcases (call.replicator directory).lockFree_or_locked call.trusted call.connection files with
    ⟨other, hfree⟩ | ⟨failure, -, -, hsame⟩
  · obtain rfl := hfree.leads.unique hhome
    have hother {effects : List Effect} {refused : Option Effect} {reached : Bytes}
        (hbegun : Begun (call.replicator directory) call.trusted other files
          call.connection.delivery.bytes effects refused reached (call.run directory files).files) :
        archivedBy (call.replicator directory).config.maxChangesets effects ≠ some start :=
      fun hopened => h (opens_of_begun hfree hbegun hopened)
    have hprogress :=
      (call.replicator directory).progress_of_apply hfree call.trusted call.connection
    change Progress _ _ _ _ _ (call.run directory files).result (call.run directory files).files
      at hprogress
    revert hprogress hother
    generalize (call.run directory files).result = result
    generalize (call.run directory files).files = after
    rintro hother (⟨failure, _, -, -, hedited⟩ | ⟨failure, _, effects, refused, -, hbegun⟩ |
      ⟨changeset, _, effects, reached, -, -, -, hbegun⟩)
    · exact get?_archive_of_locking hedited start
    · exact hbegun.get?_archive_other (hother hbegun)
    · exact hbegun.get?_archive_other (hother hbegun)
  · have hfiles : (call.run directory files).files = files := hsame
    rw [hfiles]

/-- What an archive is read as depends on what is at its place. -/
theorem readFile_archive_congr {after : FileSystem} (hhome : files.LeadsTo directory home)
    (hsame : files.SameDirectories after)
    (hentry : after.get? (home ++ [archiveName start]) = files.get? (home ++ [archiveName start])) :
    after.readFile (archivePath directory start) = files.readFile (archivePath directory start) := by
  have hplain := isPlainName_archiveName start
  have hresolve : after.resolve (archivePath directory start) =
      files.resolve (archivePath directory start) :=
    (FileSystem.resolve_join (hhome.of_same hsame) hplain).trans
      (FileSystem.resolve_join hhome hplain).symm
  unfold FileSystem.readFile
  rw [hresolve]
  cases hfound : files.resolve (archivePath directory start) with
  | error refusal => rfl
  | ok place =>
      obtain ⟨other, hleads, -, rfl⟩ := FileSystem.leadsTo_of_resolve_join hplain hfound
      rw [hleads.unique hhome]
      simp only [bind, Except.bind, hentry]

/-- Calls that do not open an archive leave it as it was. -/
theorem get?_archive_of_runCalls (hhome : files.LeadsTo directory home)
    (h : NoneOpens directory start calls files) :
    files.SameDirectories (runCalls directory calls files) ∧
      (runCalls directory calls files).get? (home ++ [archiveName start]) =
        files.get? (home ++ [archiveName start]) := by
  induction calls generalizing files with
  | nil => exact ⟨.refl _, rfl⟩
  | cons call rest ih =>
      have hsame := sameDirectories_of_run call directory files
      obtain ⟨hdirectories, hentry⟩ := ih (hhome.of_same hsame)
        fun earlier other later heq => h (call :: earlier) other later (congrArg _ heq)
      exact ⟨hsame.trans hdirectories,
        hentry.trans (get?_archive_of_run hhome (h [] call rest rfl))⟩

end

/-- What the archive of a revision holds after calls. -/
structure ArchiveHistory (directory : Path) (start : Nat) (calls : List Call)
    (before after : FileSystem) : Prop where
  /-- It holds exactly what was archived by the last call that opened it. -/
  last : ∀ earlier call later, calls = earlier ++ call :: later →
    call.Opens directory (runCalls directory earlier before) start →
      NoneOpens directory start later (runCalls directory (earlier ++ [call]) before) →
        ∃ bytes, call.Archives directory (runCalls directory earlier before) bytes ∧
          (∀ other, call.Archives directory (runCalls directory earlier before) other →
            other = bytes) ∧
          after.readFile (archivePath directory start) = .ok bytes
  /-- If no call opened it, it is as it was. -/
  kept : NoneOpens directory start calls before →
    ∀ home, before.LeadsTo directory home →
      after.get? (home ++ [archiveName start]) = before.get? (home ++ [archiveName start])
  /-- Either no call opened it, or one was the last to do so. -/
  either : NoneOpens directory start calls before ∨
    ∃ earlier call later, calls = earlier ++ call :: later ∧
      call.Opens directory (runCalls directory earlier before) start ∧
      NoneOpens directory start later (runCalls directory (earlier ++ [call]) before)

theorem runCalls_append (directory : Path) (first second : List Call) (files : FileSystem) :
    runCalls directory (first ++ second) files =
      runCalls directory second (runCalls directory first files) :=
  List.foldl_append

/-- If any call opens an archive, one is the last to do so. -/
theorem exists_last_opens (directory : Path) (start : Nat) (calls : List Call)
    (files : FileSystem) :
    NoneOpens directory start calls files ∨
      ∃ earlier call later, calls = earlier ++ call :: later ∧
        call.Opens directory (runCalls directory earlier files) start ∧
        NoneOpens directory start later (runCalls directory (earlier ++ [call]) files) := by
  induction calls generalizing files with
  | nil => exact .inl fun earlier call later heq => by simp at heq
  | cons call rest ih =>
      rcases ih (call.run directory files).files with
        hnone | ⟨earlier, last, later, rfl, hopens, hnone⟩
      · by_cases hopens : call.Opens directory files start
        · exact .inr ⟨[], call, rest, rfl, hopens, hnone⟩
        · refine .inl fun earlier other later heq => ?_
          cases earlier with
          | nil =>
              obtain ⟨rfl, -⟩ := List.cons.inj heq
              exact hopens
          | cons first more =>
              obtain ⟨rfl, hrest⟩ := List.cons.inj heq
              exact hnone more other later hrest
      · exact .inr ⟨call :: earlier, last, later, rfl, hopens, hnone⟩

/-- Whatever calls are made on a directory, and however they end, the archive of a revision holds
exactly what the last call archived that opened it, or it is as it was before all of them. -/
theorem archive_history (directory : Path) (calls : List Call) (files : FileSystem) (start : Nat) :
    ArchiveHistory directory start calls files (runCalls directory calls files) where
  last earlier call later heq hopens hnone := by
    subst heq
    obtain ⟨bytes, harchives, hread⟩ := readFile_of_opens hopens
    refine ⟨bytes, harchives, fun _ hother => hother.unique harchives, ?_⟩
    obtain ⟨taken, htaken⟩ := hopens.lock
    obtain ⟨home, hfree⟩ := lockFree_of_acquireLock htaken
    rw [runCalls_append] at hnone ⊢
    have hhome := hfree.leads.of_same
      (sameDirectories_of_run call directory (runCalls directory earlier files))
    obtain ⟨hsame, hentry⟩ := get?_archive_of_runCalls hhome hnone
    exact (readFile_archive_congr hhome hsame hentry).trans hread
  kept hnone home hhome := (get?_archive_of_runCalls hhome hnone).2
  either := exists_last_opens directory start calls files

/-- A call that keeps an archive of `sampleStream`. -/
def wholeSample : Call where
  config.maxChangesets := 1
  connection := [.data Replicator.sampleStream.bytes]

/-- A call that keeps an archive of it, and stalls after the header. -/
def brokenSample : Call where
  config.maxChangesets := 1
  connection := [.data Replicator.sampleStream.preamble.bytes, .stall]

/-- After both calls the archive holds the header alone, and nothing of the whole changeset that was
there before. -/
theorem archive_history_sample :
    brokenSample.Archives (.ofText [] "/") (runCalls (.ofText [] "/") [wholeSample] {})
      Replicator.sampleStream.preamble.bytes := by
  have hread : (runCalls (.ofText [] "/") [wholeSample, brokenSample] {}).readFile
      (archivePath (.ofText [] "/") 4) = .ok Replicator.sampleStream.preamble.bytes := by
    decide +kernel
  have hfree : LockFree (.ofText [] "/") [] (runCalls (.ofText [] "/") [wholeSample] {}) :=
    lockFree_of_run ⟨⟨rfl, rfl⟩, rfl, by decide, by decide⟩ wholeSample
  obtain ⟨locked, htaken, -, -⟩ := acquireLock_of_lockFree hfree
  have hopens : brokenSample.Opens (.ofText [] "/")
      (runCalls (.ofText [] "/") [wholeSample] {}) 4 :=
    { lock := ⟨_, htaken⟩
      header := ⟨Replicator.sampleStream.preamble, by decide, rfl⟩
      kept := by decide
      clear := by decide +kernel }
  obtain ⟨bytes, harchives, -, hbytes⟩ :=
    (archive_history (.ofText [] "/") [wholeSample, brokenSample] {} 4).last [wholeSample]
      brokenSample [] rfl hopens (fun earlier call later heq => by simp at heq)
  rw [hread] at hbytes
  cases hbytes
  exact harchives

end TableReplica.Apply
