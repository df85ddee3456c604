import TableReplica.Proofs.Confinement
import TableReplica.Proofs.Stages

/-!
# The life of a lock

Writers take the lock on a directory, give it back and make applies, in any order. As long as the
lock file is there, at most one of them holds the lock: `LockAt.step` says what one step leaves, and
`lock_exclusive` what any number of them do. Taking the lock and applying get past the lock just if
nobody holds it, an apply gives it back however it ends, and whoever is refused has read nothing and
changed nothing.
-/

namespace TableReplica.Apply

open Files Transport Wire

/-- A call that applies what a connection brings to a directory. -/
structure Call where
  config : Config := {}
  revisions : RevisionReader := .unknown
  trusted : Bool := false
  connection : Connection

/-- The replicator that a call makes for a directory. -/
def Call.replicator (call : Call) (directory : Path) : Replicator where
  directory
  config := call.config
  revisions := call.revisions

/-- Make a call. -/
def Call.run (call : Call) (directory : Path) (files : FileSystem) : Outcome :=
  (call.replicator directory).apply call.trusted call.connection files

/-- The files, and the locks on a directory that are held. -/
structure Holding where
  files : FileSystem
  held : List Location := []

/-- What a writer may do. -/
inductive LockStep where
  /-- Try to take the lock. -/
  | acquire
  /-- Give back one of the locks that are held. -/
  | release (index : Nat)
  /-- Make an apply from its beginning to its end. -/
  | apply (call : Call)

/-- What is held after a step. -/
def LockStep.run (directory : Path) (state : Holding) : LockStep → Holding
  | acquire =>
    match acquireLock directory state.files with
    | .ok (place, files) => { files, held := place :: state.held }
    | .error _ => state
  | release index =>
    match state.held[index]? with
    | some place => { files := releaseLock place state.files, held := state.held.eraseIdx index }
    | none => state
  | apply call => { state with files := (call.run directory state.files).files }

section

variable {directory : Path} {files found : FileSystem} {held : List Location}

theorem LockStep.run_acquire_ok {place : Location}
    (h : acquireLock directory files = .ok (place, found)) :
    acquire.run directory { files, held } = { files := found, held := place :: held } := by
  unfold run
  rw [h]

theorem LockStep.run_acquire_error {error : ReplicaError}
    (h : acquireLock directory files = .error error) :
    acquire.run directory { files, held } = { files, held } := by
  unfold run
  rw [h]

end

/-- The files at a moment of a call: it has taken the lock and carried out the first of the effects
that its stream asks for. -/
def Call.Passes (call : Call) (directory : Path) (files moment : FileSystem) : Prop :=
  ∃ lock locked effects, acquireLock directory files = .ok (lock, locked) ∧
    effects <+: ((call.replicator directory).course call.trusted call.connection.delivery 0).effects ∧
    moment =
      (performAll directory call.config.maxChangesets effects { files := locked }).2.files

/-- The lock file of a directory is at a place and holds this content. -/
structure LockFile (directory : Path) (home : Location) (content : Content) (files : FileSystem) :
    Prop where
  leads : files.LeadsTo directory home
  reach : FileSystem.reach directory lockFileName = .ok ()
  file : files.get? (home ++ [lockFileName]) = some (.file content)

/-- The lock on a directory is held by nobody, or by one. -/
inductive LockAt (directory : Path) (home : Location) (content : Content) : Holding → Prop where
  | free (files : FileSystem) :
      LockFile directory home content files → home ++ [lockFileName] ∉ files.locked →
        LockAt directory home content { files, held := [] }
  | taken (files : FileSystem) :
      LockFile directory home content files → files.locked.count (home ++ [lockFileName]) = 1 →
        LockAt directory home content { files, held := [home ++ [lockFileName]] }

section

variable {directory : Path} {home : Location} {content : Content} {files after : FileSystem}
  {state : Holding} {call : Call}

/-- A lock that is held cannot be taken. -/
theorem acquireLock_of_held (hhome : files.LeadsTo directory home)
    (hreach : FileSystem.reach directory lockFileName = .ok ())
    (hclear : files.get? (home ++ [lockFileName]) ≠ some .directory)
    (hheld : home ++ [lockFileName] ∈ files.locked) :
    acquireLock directory files = .error (.lock directory .held) := by
  unfold acquireLock
  rw [FileSystem.openOrCreate_eq (resolve_lockFilePath hhome hreach)]
  rcases hentry : files.get? (home ++ [lockFileName]) with _ | content | _
  · exact if_pos hheld
  · exact if_pos hheld
  · exact absurd hentry hclear

namespace LockFile

/-- Where a lock file can be opened, it is in the directory. -/
theorem of_openFile {place : Location}
    (h : files.openFile (lockFilePath directory) = .ok place) :
    ∃ home content, place = home ++ [lockFileName] ∧ LockFile directory home content files := by
  obtain ⟨hresolve, content, hfile⟩ := FileSystem.openFile_eq_ok.mp h
  obtain ⟨home, hhome, hreach, rfl⟩ :=
    FileSystem.leadsTo_of_resolve_join isPlainName_lockFileName hresolve
  exact ⟨home, content, rfl, hhome, hreach, hfile⟩

theorem lockFree (h : LockFile directory home content files)
    (hfree : home ++ [lockFileName] ∉ files.locked) : LockFree directory home files where
  leads := h.leads
  reach := h.reach
  clear := by simp [h.file]
  free := hfree

theorem resolve (h : LockFile directory home content files) :
    files.resolve (lockFilePath directory) = .ok (home ++ [lockFileName]) :=
  resolve_lockFilePath h.leads h.reach

/-- A lock that nobody holds is taken, which changes nothing else. -/
theorem acquireLock_free (h : LockFile directory home content files)
    (hfree : home ++ [lockFileName] ∉ files.locked) :
    acquireLock directory files = .ok (home ++ [lockFileName],
      { files with locked := (home ++ [lockFileName]) :: files.locked }) := by
  unfold acquireLock
  rw [FileSystem.openOrCreate_eq h.resolve, h.file]
  exact if_neg hfree

/-- A lock that is held cannot be taken. -/
theorem acquireLock_held (h : LockFile directory home content files)
    (hheld : home ++ [lockFileName] ∈ files.locked) :
    acquireLock directory files = .error (.lock directory .held) :=
  acquireLock_of_held h.leads h.reach (by simp [h.file]) hheld

/-- An apply leaves the lock file as it is. -/
theorem apply (h : LockFile directory home content files) (call : Call) :
    LockFile directory home content (call.run directory files).files := by
  have hconfined := (call.replicator directory).apply_confined call.trusted call.connection files
  refine ⟨h.leads.of_same hconfined.directories, h.reach, ?_⟩
  rcases hconfined.lock home h.leads with hsame | ⟨hnone, -⟩
  · exact hsame.trans h.file
  · rw [h.file] at hnone
    cases hnone

end LockFile

/-- An apply that finds the lock free gives it back. -/
theorem lockFree_of_run (hfree : LockFree directory home files) (call : Call) :
    LockFree directory home (call.run directory files).files := by
  obtain ⟨junk, hfollow⟩ :=
    (call.replicator directory).apply_eq_follow call.trusted call.connection
  have hlast := ((call.replicator directory).follow_of_lockFree call.trusted hfree
    call.connection.delivery junk).2.2
  rw [← hfollow files] at hlast
  exact hlast

/-- An apply that finds the lock held comes to nothing. -/
theorem run_of_held (h : LockFile directory home content files)
    (hheld : home ++ [lockFileName] ∈ files.locked) (call : Call) :
    call.run directory files =
      { result := .error { stage := .awaitingLock, error := .lock directory .held }
        remaining := call.connection
        files } := by
  have hlock : acquireLock (call.replicator directory).directory files =
      .error (.lock directory .held) := h.acquireLock_held hheld
  exact Replicator.apply_of_lock_error hlock call.trusted call.connection

/-- While an apply that has found the lock free is under way, it holds the lock, and nobody else can
take it. -/
theorem acquireLock_of_passes (h : LockFile directory home content files)
    (hfree : home ++ [lockFileName] ∉ files.locked) {moment : FileSystem}
    (hmoment : call.Passes directory files moment) :
    moment.locked.count (home ++ [lockFileName]) = 1 ∧
      acquireLock directory moment = .error (.lock directory .held) := by
  obtain ⟨lock, locked, effects, hlock, hinitial, rfl⟩ := hmoment
  rw [h.acquireLock_free hfree] at hlock
  cases hlock
  generalize hlocked : ({ files with locked := (home ++ [lockFileName]) :: files.locked } :
    FileSystem) = locked
  have hhome : locked.LeadsTo directory home := hlocked ▸ h.leads.of_same (.refl _)
  have hfile : locked.get? (home ++ [lockFileName]) = some (.file content) := hlocked ▸ h.file
  have hperformed : PerformsAs directory home (archivedBy call.config.maxChangesets effects)
      call.config.maxChangesets locked effects { files := locked } :=
    performAll_orderly hhome
      (((call.replicator directory).orderly_course call.trusted _ 0).of_isPrefix hinitial)
  obtain ⟨done, hrun, hedited, hcount, -⟩ := hperformed
  rw [hrun]
  have honce : done.files.locked.count (home ++ [lockFileName]) = 1 := by
    rw [hcount, ← hlocked]
    simp [List.count_eq_zero_of_not_mem hfree]
  refine ⟨honce, acquireLock_of_held (hhome.of_same hedited.sameDirectories) h.reach
    (fun hblocked => ?_) (List.count_pos_iff.mp (honce ▸ Nat.one_pos))⟩
  have hdirectory := (hedited.sameDirectories _).mpr hblocked
  rw [hfile] at hdirectory
  cases hdirectory

/-- One step leaves the lock with nobody, or with one. -/
theorem LockAt.step (h : LockAt directory home content state) (step : LockStep) :
    LockAt directory home content (step.run directory state) := by
  cases h with
  | free files hfile hfree =>
      cases step with
      | acquire =>
          rw [LockStep.run_acquire_ok (hfile.acquireLock_free hfree)]
          exact .taken _ ⟨hfile.leads.of_same (.refl _), hfile.reach, hfile.file⟩
            (by simp [List.count_eq_zero_of_not_mem hfree])
      | release index => exact .free files hfile hfree
      | apply call =>
          exact .free _ (hfile.apply call) (lockFree_of_run (hfile.lockFree hfree) call).free
  | taken files hfile honce =>
      have hheld : home ++ [lockFileName] ∈ files.locked := List.count_pos_iff.mp (by omega)
      cases step with
      | acquire =>
          rw [LockStep.run_acquire_error (hfile.acquireLock_held hheld)]
          exact .taken files hfile honce
      | release index =>
          cases index with
          | zero =>
              refine .free _ ⟨hfile.leads.of_same (.refl _), hfile.reach, hfile.file⟩ ?_
              rw [← List.count_eq_zero]
              show (files.locked.erase _).count _ = 0
              rw [List.count_erase_self, honce]
          | succ index => exact .taken files hfile honce
      | apply call =>
          show LockAt directory home content
            { files := (call.run directory files).files, held := [home ++ [lockFileName]] }
          rw [run_of_held hfile hheld call]
          exact .taken files hfile honce

/-- Any number of steps leave the lock with nobody, or with one. -/
theorem LockAt.run (h : LockAt directory home content state) (steps : List LockStep) :
    LockAt directory home content (steps.foldl (LockStep.run directory) state) := by
  induction steps generalizing state with
  | nil => exact h
  | cons step rest ih => exact ih (h.step step)

end

/-- What holds of a lock on a directory at any time, whoever has taken it, given it back and applied
changesets before. -/
structure Exclusive (directory : Path) (place : Location) (before : FileSystem) (state : Holding) :
    Prop where
  /-- At most one lock is held. -/
  once : state.held.length ≤ 1
  counted : state.files.locked.count place = state.held.length
  /-- The lock file is where it was and holds what it held. -/
  opens : state.files.openFile (lockFilePath directory) = .ok place
  unaltered : state.files.get? place = before.get? place
  /-- The lock can be taken just if nobody holds it. -/
  acquires : (∃ taken, acquireLock directory state.files = .ok taken) ↔ state.held = []
  /-- An apply gets past the lock just if nobody holds it. -/
  passes : ∀ call : Call, (∀ failure, (call.run directory state.files).result = .error failure →
    failure.stage ≠ .awaitingLock) ↔ state.held = []
  /-- However an apply ends, it leaves the lock as free as it was. -/
  restores : ∀ call : Call,
    (call.run directory state.files).files.locked.count place = state.files.locked.count place
  /-- While an apply is under way, it holds the lock and nobody else can take it. -/
  meanwhile : ∀ (call : Call) (moment : FileSystem), call.Passes directory state.files moment →
    moment.locked.count place = 1 ∧ acquireLock directory moment = .error (.lock directory .held)
  /-- Whoever wants a lock that is held is told so, has read nothing and changed nothing. -/
  refuses : state.held ≠ [] → acquireLock directory state.files = .error (.lock directory .held) ∧
    ∀ call : Call, call.run directory state.files =
      { result := .error { stage := .awaitingLock, error := .lock directory .held }
        remaining := call.connection
        files := state.files }

section

variable {directory : Path} {home : Location} {content : Content} {before : FileSystem}
  {state : Holding}

/-- With the lock held by nobody, or by one, it is exclusive. -/
theorem LockAt.exclusive (h : LockAt directory home content state)
    (hbefore : before.get? (home ++ [lockFileName]) = some (.file content)) :
    Exclusive directory (home ++ [lockFileName]) before state := by
  cases h with
  | free files hfile hfree =>
      have hnone := List.count_eq_zero_of_not_mem hfree
      have htaken := hfile.acquireLock_free hfree
      refine
        { once := by simp
          counted := hnone
          opens := FileSystem.openFile_eq_ok.mpr ⟨hfile.resolve, content, hfile.file⟩
          unaltered := hfile.file.trans hbefore.symm
          acquires := iff_of_true ⟨_, htaken⟩ rfl
          passes := fun call => iff_of_true (fun failure hfailure =>
            Replicator.stage_ne_awaitingLock (hfile.lockFree hfree) hfailure) rfl
          restores := fun call => ?_
          meanwhile := fun call moment => acquireLock_of_passes hfile hfree
          refuses := fun hheld => absurd rfl hheld }
      rw [hnone, List.count_eq_zero]
      exact (lockFree_of_run (hfile.lockFree hfree) call).free
  | taken files hfile honce =>
      have hheld : home ++ [lockFileName] ∈ files.locked := List.count_pos_iff.mp (by omega)
      have hrefused := hfile.acquireLock_held hheld
      refine
        { once := by simp
          counted := honce
          opens := FileSystem.openFile_eq_ok.mpr ⟨hfile.resolve, content, hfile.file⟩
          unaltered := hfile.file.trans hbefore.symm
          acquires := iff_of_false (by simp [hrefused]) (by simp)
          passes := fun call => iff_of_false (fun hpasses => ?_) (by simp)
          restores := fun call => by rw [run_of_held hfile hheld]
          meanwhile := fun call moment hmoment => ?_
          refuses := fun _ => ⟨hrefused, run_of_held hfile hheld⟩ }
      · exact hpasses _ (by rw [run_of_held hfile hheld]) rfl
      · obtain ⟨lock, locked, effects, hlock, -⟩ := hmoment
        rw [hrefused] at hlock
        cases hlock

/-- Whatever writers do on a directory whose lock file is there and free at first, the lock is held
by at most one of them at any time. Taking it and applying get past it just if nobody holds it, an
apply gives it back however it ends, a refusal has read and changed nothing, and the lock file keeps
its content. -/
theorem lock_exclusive {files : FileSystem} {place : Location}
    (hopen : files.openFile (lockFilePath directory) = .ok place) (hfree : place ∉ files.locked)
    (steps : List LockStep) :
    Exclusive directory place files (steps.foldl (LockStep.run directory) { files }) := by
  obtain ⟨home, content, rfl, hfile⟩ := LockFile.of_openFile hopen
  exact (LockAt.run (.free files hfile hfree) steps).exclusive hfile.file

/-- The root directory with a lock file in it. -/
def lockedSample : FileSystem :=
  { entries := [([lockFileName], .file .empty)] }

/-- After the lock was taken, given back and taken again, a call is refused, and nothing of what
its connection brings is read. -/
theorem lock_exclusive_sample :
    (Call.run { connection := [.data Replicator.sampleStream.bytes] } (.ofText [] "/")
      ([.acquire, .release 0, .acquire].foldl (LockStep.run (.ofText [] "/"))
        { files := lockedSample }).files).remaining = [.data Replicator.sampleStream.bytes] := by
  have hopen : lockedSample.openFile (lockFilePath (.ofText [] "/")) = .ok [lockFileName] := by
    decide +kernel
  have hexclusive := lock_exclusive hopen (by decide) [.acquire, .release 0, .acquire]
  rw [(hexclusive.refuses (by decide +kernel)).2]

end

end TableReplica.Apply
