import TableReplica.Proofs.Plan.Editing
import TableReplica.Proofs.Plan.Following

/-!
# What an apply comes to

If the lock of a directory can be taken, an apply edits the lock file, then makes the edits that its
course comes to, and gives the lock back: `follow_of_lockFree`. The answer is the first refusal of
the file system or, if there is none, what the stream tells.
-/

namespace TableReplica.Apply

open Files Transport Wire

/-- The edit that leaves a lock file, empty if there was none. -/
def locking : Edit :=
  { name := lockFileName, change := .write { offset := 0, data := [] } }

/-- The lock file is no archive. -/
theorem changesAt_locking {name : String} {start : Nat} (hname : name = archiveName start)
    (edits : List Edit) : Edit.changesAt name (locking :: edits) = Edit.changesAt name edits := by
  have hother : locking.name ≠ name := by
    rw [hname]
    exact ReplicaFile.name_ne_archiveName (show ReplicaFile.lock.Proper from trivial) (by simp)
      start
  rw [Edit.changesAt_cons, if_neg hother]

/-- The lock on the directory at `home` can be taken. -/
structure LockFree (directory : Path) (home : Location) (fs : FileSystem) : Prop where
  leads : fs.LeadsTo directory home
  reach : FileSystem.reach directory lockFileName = .ok ()
  clear : fs.get? (home ++ [lockFileName]) ≠ some .directory
  free : home ++ [lockFileName] ∉ fs.locked

section

variable {directory : Path} {home : Location} {fs after : FileSystem}

/-- The path of the lock file leads to its name in the directory, if that can be reached. -/
theorem resolve_lockFilePath (hhome : fs.LeadsTo directory home)
    (hreach : FileSystem.reach directory lockFileName = .ok ()) :
    fs.resolve (lockFilePath directory) = .ok (home ++ [lockFileName]) := by
  have hjoin := FileSystem.resolve_join hhome isPlainName_lockFileName
  rw [hreach] at hjoin
  exact hjoin

theorem LockFree.resolve (h : LockFree directory home fs) :
    fs.resolve (lockFilePath directory) = .ok (home ++ [lockFileName]) :=
  resolve_lockFilePath h.leads h.reach

/-- Whoever takes the lock has found the directory and its lock free. -/
theorem lockFree_of_acquireLock {taken : Location × FileSystem}
    (h : acquireLock directory fs = .ok taken) : ∃ home, LockFree directory home fs := by
  unfold acquireLock at h
  cases hresolve : fs.resolve (lockFilePath directory) with
  | error refusal => simp [FileSystem.openOrCreate, hresolve, bind, Except.bind] at h
  | ok place =>
      obtain ⟨home, hhome, hreach, rfl⟩ :=
        FileSystem.leadsTo_of_resolve_join isPlainName_lockFileName hresolve
      rw [FileSystem.openOrCreate_eq hresolve] at h
      refine ⟨home, hhome, hreach, fun hblocked => ?_, fun hheld => ?_⟩
      · rw [hblocked] at h
        cases h
      · rcases hentry : fs.get? (home ++ [lockFileName]) with _ | content | _ <;>
          simp [hentry, hheld, FileSystem.put] at h

/-- A free lock is taken, and the lock file is there afterwards. -/
theorem acquireLock_of_lockFree (h : LockFree directory home fs) :
    ∃ locked, acquireLock directory fs = .ok (home ++ [lockFileName], locked) ∧
      Edited home [locking] fs locked ∧
      locked.locked = (home ++ [lockFileName]) :: fs.locked := by
  unfold acquireLock
  rw [FileSystem.openOrCreate_eq h.resolve]
  -- Taking the lock writes nothing: it makes an empty lock file, or leaves the one that is there.
  rcases hentry : fs.get? (home ++ [lockFileName]) with _ | content | _
  · refine ⟨_, if_neg h.free, .of_view (FileSystem.get?_put fs (by simp) _) ?_, rfl⟩
    rw [hentry]
    rfl
  · refine ⟨_, if_neg h.free, .single fun other => ?_, rfl⟩
    show fs.get? other = _
    by_cases heq : other = home ++ [lockFileName]
    · rw [if_pos heq, heq, hentry, Change.apply_write _ (by simp)]
      simp [Change.contentOf]
    · rw [if_neg heq]
  · exact absurd hentry h.clear

/-- Edits that leave the lock alone leave it free. -/
theorem LockFree.of_edited (h : LockFree directory home fs) {edits : List Edit}
    (hedited : Edited home edits fs after) (hfree : home ++ [lockFileName] ∉ after.locked) :
    LockFree directory home after where
  leads := h.leads.of_same hedited.sameDirectories
  reach := h.reach
  clear := fun hblocked => h.clear ((hedited.sameDirectories _).mpr hblocked)
  free := hfree

end

namespace Replicator

variable (replicator : Replicator)

/-- What the effects of a course come to. -/
def attempted (files : FileSystem) (course : Course Halt Receipt) :
    Except Failure Unit × List Edit :=
  attempt replicator.directory (archivedBy replicator.config.maxChangesets course.effects) files
    course.effects

/-- The answer of an apply: the first refusal of the file system or, if there is none, what the
stream tells. -/
def answer (files : FileSystem) (course : Course Halt Receipt) (ending : Ending) :
    Except Failure Applied :=
  match (replicator.attempted files course).1 with
  | .error failure => .error failure
  | .ok () =>
    match course.outcome with
    | .error halt => .error { stage := halt.stage, error := ending.report halt.stop }
    | .ok (receipt, after) =>
      .ok (receipt.applied (after.committed + after.pending.length)
        (recorded (archivedBy replicator.config.maxChangesets course.effects)
          (allArchived course.effects)))

/-- Under a free lock an apply gives the answer that is told from its course and the files before
it, makes the edits that are told from them, and leaves the lock free. -/
theorem follow_of_lockFree (trusted : Bool) {home : Location} {files : FileSystem}
    (hfree : LockFree replicator.directory home files) (delivery : Delivery) (junk : Nat) :
    (replicator.follow trusted delivery junk files).1 =
        replicator.answer files (replicator.course trusted delivery junk) delivery.ending ∧
      Edited home
        (locking :: (replicator.attempted files (replicator.course trusted delivery junk)).2)
        files (replicator.follow trusted delivery junk files).2 ∧
      LockFree replicator.directory home (replicator.follow trusted delivery junk files).2 := by
  obtain ⟨locked, hlock, hlocking, hheld⟩ := acquireLock_of_lockFree hfree
  have horderly := replicator.orderly_course trusted delivery junk
  unfold follow answer attempted
  simp only [hlock]
  generalize replicator.course trusted delivery junk = course at horderly
  have hsame := hlocking.sameDirectories
  obtain ⟨done, hrun, hedited, hcount, hwritten⟩ :
      PerformsAs replicator.directory home
        (archivedBy replicator.config.maxChangesets course.effects)
        replicator.config.maxChangesets locked course.effects { files := locked } :=
    performAll_orderly (hfree.leads.of_same hsame) horderly
  -- The lock file is in the way of nothing, so the attempt is told from the files before it.
  rw [attempt_of_same hfree.leads hsame horderly.kinds] at hrun hedited hwritten
  have hreleased : Edited home (locking :: (attempt replicator.directory
      (archivedBy replicator.config.maxChangesets course.effects) files course.effects).2) files
      (releaseLock (home ++ [lockFileName]) done.files) := by
    have hall := hlocking.trans hedited
    exact ⟨hall.inside, hall.outside⟩
  -- The lock is held just once, so releasing it frees it.
  have hunlocked : home ++ [lockFileName] ∉
      (releaseLock (home ++ [lockFileName]) done.files).locked := by
    have honce : done.files.locked.count (home ++ [lockFileName]) = 1 := by
      rw [hcount, hheld, List.count_cons_self, List.count_eq_zero_of_not_mem hfree.free]
    show _ ∉ done.files.locked.erase _
    rw [← List.count_eq_zero, List.count_erase_self, honce]
  have hlast := hfree.of_edited hreleased hunlocked
  rw [hrun]
  revert hwritten hreleased
  generalize attempt replicator.directory _ files course.effects = attempted
  obtain ⟨outcome, edits⟩ := attempted
  intro hwritten hreleased
  cases outcome with
  | error failure => exact ⟨rfl, hreleased, hlast⟩
  | ok _ =>
      refine ⟨?_, hreleased, hlast⟩
      have harchived : done.archive.written =
          recorded (archivedBy replicator.config.maxChangesets course.effects)
            (allArchived course.effects) :=
        (hwritten rfl).trans (Nat.zero_add _)
      simp only [harchived]
      rcases course.outcome with halt | ⟨receipt, after⟩ <;> rfl

variable {replicator} {home : Location} {files : FileSystem}

/-- An apply that cannot take its lock reads nothing and changes nothing. -/
theorem apply_of_lock_error {error : ReplicaError}
    (h : acquireLock replicator.directory files = .error error) (trusted : Bool)
    (connection : Connection) :
    replicator.apply trusted connection files =
      { result := .error { stage := .awaitingLock, error }
        remaining := connection
        files } := by
  unfold apply applySession underLock Session.start
  simp only [h]

/-- An apply that finds its lock free answers as its course and the files before it tell, and makes
the edits that are told from them. -/
theorem apply_of_lockFree (hfree : LockFree replicator.directory home files) (trusted : Bool)
    (connection : Connection) :
    ∃ junk, (replicator.apply trusted connection files).result =
        replicator.answer files (replicator.course trusted connection.delivery junk)
          connection.delivery.ending ∧
      Edited home (locking ::
          (replicator.attempted files (replicator.course trusted connection.delivery junk)).2)
        files (replicator.apply trusted connection files).files := by
  obtain ⟨junk, hfollow⟩ := replicator.apply_eq_follow trusted connection
  obtain ⟨hanswer, hedited, -⟩ :=
    replicator.follow_of_lockFree trusted hfree connection.delivery junk
  rw [← hfollow files] at hanswer hedited
  exact ⟨junk, hanswer, hedited⟩

end Replicator

end TableReplica.Apply
