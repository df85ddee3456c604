import TableReplica.Proofs.Files.Renaming
import TableReplica.Proofs.Plan.Emission
import TableReplica.Proofs.Plan.Perform

/-!
# Effects are edits

Every effect of a plan edits files of the replica directory, unless something is in the way. What is
in the way does not change while effects are performed, since no edit makes or removes a directory.
So a performance comes to what `attempt` tells from the files it starts with: the edits of the
effects before the first that is obstructed (`performAll_chunks`, `performAll_orderly`). In these
statements `archived` is the revision whose changeset is archived, if one is.
-/

namespace TableReplica.Apply

open Files Transport Wire

namespace Effect

/-- The edits that an effect makes when nothing is in the way. -/
def edits (archived : Option Nat) : Effect → List Edit
  | openArchive _ =>
    match archived with
    | none => []
    | some start => [{ name := archiveName start, change := .fill .empty }]
  | archive data =>
    match archived with
    | none => []
    | some start => [{ name := archiveName start, change := .append data }]
  | openData table =>
    [{ name := (ReplicaFile.data table).name, change := .write { offset := 0, data := [] } }]
  | writeBlock table offset block =>
    [{ name := (ReplicaFile.data table).name, change := .write { offset, data := block } }]
  | replaceBase table letter content => [clearing table, replacing table letter content]

/-- The error that an effect ends with when something is in the way. -/
def obstacle? (directory : Path) (archived : Option Nat) (files : FileSystem) :
    Effect → Option ReplicaError
  | openArchive _ =>
    archived.bind fun start =>
      (files.obstacle? (archivePath directory start)).map
        (.storage .createArchive (archivePath directory start))
  | archive _ => none
  | openData table | writeBlock table _ _ =>
    (files.obstacle? (dataFilePath directory table)).map
      (.storage .openFile (dataFilePath directory table))
  | replaceBase table letter _ =>
    ((files.obstacle? (tempFilePath directory table)).map
      (.storage .openFile (tempFilePath directory table))).or
    ((files.obstacle? (baseFilePath directory table letter)).map
      (.storage .updateBaseFile (baseFilePath directory table letter)))

/-- The edits that an effect makes although something is in the way. -/
def spoils (directory : Path) (files : FileSystem) : Effect → List Edit
  | replaceBase table _ _ =>
    if (files.obstacle? (tempFilePath directory table)).isSome then [] else [clearing table]
  | _ => []

/-- The bytes that an effect adds to the archive. -/
def archivedBytes : Effect → Bytes
  | archive data => data
  | _ => []

end Effect

/-- The directory is there, and the archive is the file that it is taken for. -/
structure Standing (directory : Path) (home : Location) (archived : Option Nat) (store : Store) :
    Prop where
  leads : store.files.LeadsTo directory home
  records : match archived with
    | none => store.archive.target = none
    | some start => ∃ path content,
        store.archive.target = some (path, home ++ [archiveName start]) ∧
        store.files.get? (home ++ [archiveName start]) = some (.file content) ∧
        content.size = store.archive.written

/-- The number of bytes that go to the archive, if there is one. -/
def recorded (archived : Option Nat) (data : Bytes) : Nat :=
  if archived.isSome then data.length else 0

/-- What comes of performing an effect. -/
inductive Performed (directory : Path) (home : Location) (archived : Option Nat) (effect : Effect)
    (store : Store) : Except ReplicaError Unit × Store → Prop where
  | done (after : Store) :
      effect.obstacle? directory archived store.files = none →
      Edited home (effect.edits archived) store.files after.files →
      after.files.locked.count (home ++ [lockFileName]) =
        store.files.locked.count (home ++ [lockFileName]) →
      Standing directory home archived after →
      after.archive.written = store.archive.written + recorded archived effect.archivedBytes →
      Performed directory home archived effect store (.ok (), after)
  | refused (error : ReplicaError) (spoiled : Store) :
      effect.obstacle? directory archived store.files = some error →
      Edited home (effect.spoils directory store.files) store.files spoiled.files →
      spoiled.files.locked.count (home ++ [lockFileName]) =
        store.files.locked.count (home ++ [lockFileName]) →
      Performed directory home archived effect store (.error error, spoiled)

section

variable {directory : Path} {home : Location} {archived : Option Nat} {store : Store}
  {retention : UInt32} {table : String} {fs : FileSystem}

/-- Edits of other files leave the archive as it is. -/
theorem Standing.of_edited (h : Standing directory home archived store) {edits : List Edit}
    {after : FileSystem} (hedited : Edited home edits store.files after)
    (hnames : ∀ edit ∈ edits, ∀ start, edit.name ≠ archiveName start) :
    Standing directory home archived { store with files := after } where
  leads := h.leads.of_same hedited.sameDirectories
  records := by
    have hrecords := h.records
    cases archived with
    | none => exact hrecords
    | some start =>
        obtain ⟨path, content, htarget, hfile, hsize⟩ := hrecords
        refine ⟨path, content, htarget, ?_, hsize⟩
        have hnone : Edit.changesAt (archiveName start) edits = [] :=
          Edit.changesAt_eq_nil.mpr fun edit hmem => hnames edit hmem start
        show after.get? _ = _
        rw [hedited.inside, hnone]
        exact hfile

/-- The file of a table is no archive. -/
theorem ReplicaFile.name_ne_archiveName {file : ReplicaFile} (h : file.Proper)
    (hother : ∀ start, file ≠ .archive start) (start : Nat) : file.name ≠ archiveName start :=
  name_ne h (show (ReplicaFile.archive start).Proper from trivial) (hother start)

/-- A data file is not opened where something is in the way. -/
theorem openDataFile_of_obstacle (hhome : fs.LeadsTo directory home) (htable : IsTableName table)
    {refusal : Refusal} (h : fs.obstacle? (dataFilePath directory table) = some refusal) :
    openDataFile (dataFilePath directory table) fs =
      .error (.storage .openFile (dataFilePath directory table) refusal) := by
  have hname : IsPlainName (ReplicaFile.data table).name :=
    ReplicaFile.isPlainName (show (ReplicaFile.data table).Proper from htable)
  have hresolve := FileSystem.resolve_join hhome hname
  change fs.resolve (dataFilePath directory table) = _ at hresolve
  unfold openDataFile FileSystem.openFile FileSystem.mayExist
  unfold FileSystem.obstacle? at h
  rw [hresolve] at h ⊢
  cases hreach : FileSystem.reach directory (ReplicaFile.data table).name with
  | error other =>
      rw [hreach] at h
      have hother : other ≠ .notFound := by
        rintro rfl
        exact FileSystem.reach_ne_notFound _ hname hreach
      simp_all [Except.map, bind, Except.bind]
  | ok _ =>
      simp only [hreach, Except.map] at h
      split at h
      · next hdirectory =>
          simp_all [Except.map, bind, Except.bind, throw, throwThe, MonadExceptOf.throw]
      · cases h

/-- With nothing in the way a data file is opened, and made if there is none. -/
theorem openDataFile_of_clear (hhome : fs.LeadsTo directory home) (htable : IsTableName table)
    (h : fs.obstacle? (dataFilePath directory table) = none) :
    ∃ after, openDataFile (dataFilePath directory table) fs =
        .ok (home ++ [(ReplicaFile.data table).name], after) ∧
      (∃ content, after.get? (home ++ [(ReplicaFile.data table).name]) = some (.file content) ∧
        content = Change.contentOf (fs.get? (home ++ [(ReplicaFile.data table).name]))) ∧
      (∀ other, other ≠ home ++ [(ReplicaFile.data table).name] →
        after.get? other = fs.get? other) ∧
      after.locked = fs.locked := by
  have hname : IsPlainName (ReplicaFile.data table).name :=
    ReplicaFile.isPlainName (show (ReplicaFile.data table).Proper from htable)
  obtain ⟨-, hresolve, hclear⟩ := FileSystem.resolve_of_obstacle?_eq_none hhome hname h
  change fs.resolve (dataFilePath directory table) = _ at hresolve
  unfold openDataFile FileSystem.openFile FileSystem.mayExist
  simp only [hresolve, bind, Except.bind]
  rcases hentry : fs.get? (home ++ [(ReplicaFile.data table).name]) with _ | content | _
  · obtain ⟨after, hmade, hview, hlocked⟩ := FileSystem.createEmpty_join hhome hname h
    change fs.createEmpty (dataFilePath directory table) = _ at hmade
    refine ⟨after, ?_, ⟨.empty, (hview _).trans (if_pos rfl), rfl⟩,
      fun other hother => (hview other).trans (if_neg hother), hlocked⟩
    simp [hmade, Except.mapError, throw, throwThe, MonadExceptOf.throw]
  · exact ⟨fs, rfl, ⟨content, hentry, rfl⟩, fun _ _ => rfl, rfl⟩
  · exact absurd hentry hclear

/-- With nothing in the way, opening a data file writes nothing to it. -/
theorem edited_openDataFile (hhome : fs.LeadsTo directory home) (htable : IsTableName table)
    (hfree : fs.obstacle? (dataFilePath directory table) = none) :
    ∃ opened, openDataFile (dataFilePath directory table) fs =
        .ok (home ++ [(ReplicaFile.data table).name], opened) ∧
      Edited home
        [{ name := (ReplicaFile.data table).name, change := .write { offset := 0, data := [] } }]
        fs opened := by
  obtain ⟨opened, hopened, ⟨content, hfile, hcontent⟩, hother, -⟩ :=
    openDataFile_of_clear hhome htable hfree
  have hname : IsPlainName (ReplicaFile.data table).name :=
    ReplicaFile.isPlainName (show (ReplicaFile.data table).Proper from htable)
  obtain ⟨-, -, hclear⟩ := FileSystem.resolve_of_obstacle?_eq_none hhome hname hfree
  refine ⟨opened, hopened, .of_view (fun place => ?_) (Change.apply_write _ hclear)⟩
  split
  · next heq => rw [heq, hfile, Content.overwrite_nil, hcontent]
  · next hne => exact hother place hne

theorem locked_write (fs : FileSystem) (place : Location) (offset : Nat) (data : Bytes) :
    (fs.write place offset data).locked = fs.locked := by
  unfold FileSystem.write
  split <;> rfl

/-- Appending to the archive edits it, if there is one. -/
theorem performed_archive (hstanding : Standing directory home archived store) (data : Bytes) :
    Performed directory home archived (.archive data) store
      (Effect.perform directory retention (.archive data) store) := by
  have hrecords := hstanding.records
  unfold Effect.perform Store.append Archive.append
  cases archived with
  | none =>
      have htarget : store.archive.target = none := hrecords
      simp only [htarget]
      exact .done _ rfl (.refl _ _) rfl hstanding rfl
  | some start =>
      obtain ⟨path, content, htarget, hfile, hsize⟩ := hrecords
      -- The archive writes after what it counts, which is where its file ends.
      simp only [htarget, ← hsize]
      have hedited : Edited home (Effect.edits (some start) (.archive data)) store.files
          (store.files.write (home ++ [archiveName start]) content.size data) := by
        refine .of_view (FileSystem.get?_write _ _ _ _) ?_
        rw [hfile]
        rfl
      refine .done _ rfl hedited (by rw [locked_write]) ?_ (by rw [hsize]; rfl)
      refine ⟨hstanding.leads.of_same hedited.sameDirectories, path,
        content.overwrite content.size data, rfl, ?_, ?_⟩
      · show (store.files.write _ _ _).get? _ = _
        rw [FileSystem.get?_write, if_pos rfl, hfile]
        rfl
      · rw [← Content.length_bytes, Content.bytes_overwrite_size, List.length_append,
          Content.length_bytes]

/-- Opening the data file of a table, and writing to it or leaving it as it is, edits it. -/
theorem performed_data (hstanding : Standing directory home archived store)
    (htable : IsTableName table) {effect : Effect} (offset : Nat) (data : Bytes)
    {change : Location → FileSystem → FileSystem}
    (hobstacle : effect.obstacle? directory archived store.files =
      (store.files.obstacle? (dataFilePath directory table)).map
        (.storage .openFile (dataFilePath directory table)))
    (hedits : effect.edits archived =
      [{ name := (ReplicaFile.data table).name, change := .write { offset, data } }])
    (hspoils : effect.spoils directory store.files = [])
    (hbytes : effect.archivedBytes = [])
    (hchange : ∀ place opened content, opened.get? place = some (.file content) →
      (∀ other, (change place opened).get? other =
        if other = place then some (.file (content.overwrite offset data))
        else opened.get? other) ∧ (change place opened).locked = opened.locked) :
    Performed directory home archived effect store
      (store.onData (dataFilePath directory table) change) := by
  cases hfree : store.files.obstacle? (dataFilePath directory table) with
  | some refusal =>
      rw [Store.onData_error (openDataFile_of_obstacle hstanding.leads htable hfree)]
      refine .refused _ _ (by rw [hobstacle, hfree]; rfl) ?_ rfl
      rw [hspoils]
      exact .refl _ _
  | none =>
      obtain ⟨opened, hopened, ⟨content, hfile, hcontent⟩, hother, hlocked⟩ :=
        openDataFile_of_clear hstanding.leads htable hfree
      have hname : IsPlainName (ReplicaFile.data table).name :=
        ReplicaFile.isPlainName (show (ReplicaFile.data table).Proper from htable)
      obtain ⟨-, -, hclear⟩ :=
        FileSystem.resolve_of_obstacle?_eq_none hstanding.leads hname hfree
      obtain ⟨hview, hkept⟩ := hchange _ _ _ hfile
      have hedited : Edited home (effect.edits archived) store.files
          (change (home ++ [(ReplicaFile.data table).name]) opened) := by
        rw [hedits]
        refine .of_view (fun other => ?_) (Change.apply_write _ hclear)
        rw [hview, ← hcontent]
        by_cases heq : other = home ++ [(ReplicaFile.data table).name]
        · rw [if_pos heq, if_pos heq]
        · rw [if_neg heq, if_neg heq, hother _ heq]
      rw [Store.onData_ok hopened]
      refine .done _ (by rw [hobstacle, hfree]; rfl) hedited (by rw [hkept, hlocked])
        (hstanding.of_edited hedited ?_) (by rw [hbytes]; simp [recorded])
      intro edit hmem start
      rw [hedits] at hmem
      rw [List.mem_singleton.mp hmem]
      exact ReplicaFile.name_ne_archiveName (show (ReplicaFile.data table).Proper from htable)
        (by simp) start

/-- An effect of a chunk makes its edits, or ends with the error of what is in the way. -/
theorem performed (hstanding : Standing directory home archived store) {effect : Effect}
    (heffect : effect.OfChunk) :
    Performed directory home archived effect store (effect.perform directory retention store) := by
  cases effect with
  | openArchive start => exact heffect.elim
  | archive data => exact performed_archive hstanding data
  | openData table =>
      -- Opening the file is writing no bytes to it.
      refine performed_data hstanding heffect 0 [] rfl rfl rfl rfl fun place opened content hfile =>
        ⟨fun other => ?_, rfl⟩
      rw [Content.overwrite_nil]
      split
      · next heq => rw [heq, hfile]
      · rfl
  | writeBlock table offset block =>
      refine performed_data hstanding heffect offset block rfl rfl rfl rfl
        fun place opened content hfile => ⟨fun other => ?_, locked_write _ _ _ _⟩
      rw [FileSystem.get?_write, hfile]
      rfl
  | replaceBase table letter content =>
      have hreplaced := replaced hstanding.leads heffect letter content
      unfold Effect.perform
      simp only
      revert hreplaced
      generalize replaceBaseFile directory table letter content store.files = outcome
      rintro (⟨after, htemp, hbase, hedited, hlocked⟩ | ⟨refusal, htemp⟩ |
        ⟨refusal, after, htemp, hbase, hedited, hlocked⟩)
      · refine .done _ (by simp [Effect.obstacle?, htemp, hbase]) hedited hlocked
          (hstanding.of_edited hedited fun edit hmem start => ?_)
          (by simp [Effect.archivedBytes, recorded])
        simp only [List.mem_cons, List.not_mem_nil, or_false] at hmem
        rcases hmem with rfl | rfl
        · exact ReplicaFile.name_ne_archiveName (show (ReplicaFile.temp table).Proper from heffect)
            (by simp) start
        · exact ReplicaFile.name_ne_archiveName
            (show (ReplicaFile.base table letter).Proper from heffect) (by simp) start
      · exact .refused _ _ (by simp [Effect.obstacle?, htemp])
          (by simp only [Effect.spoils, htemp]; exact .refl _ _) rfl
      · exact .refused _ _ (by simp [Effect.obstacle?, htemp, hbase])
          (by simpa [Effect.spoils, htemp] using hedited) hlocked

/-- Opening the archive makes it an empty file, unless something is in the way. -/
theorem performed_openArchive (hhome : fs.LeadsTo directory home) (start : Nat) :
    Performed directory home (if retention = 0 then none else some start) (.openArchive start)
      { files := fs }
      (Effect.perform directory retention (.openArchive start) { files := fs }) := by
  have hname : IsPlainName (ReplicaFile.archive start).name :=
    ReplicaFile.isPlainName (show (ReplicaFile.archive start).Proper from trivial)
  unfold Effect.perform Archive.create
  simp only
  by_cases hretention : retention = 0
  · -- With a retention count of zero there is no archive to open.
    rw [if_pos hretention, if_pos hretention]
    exact .done _ rfl (.refl _ _) rfl ⟨hhome, rfl⟩ rfl
  · rw [if_neg hretention, if_neg hretention]
    cases hfree : fs.obstacle? (archivePath directory start) with
    | some refusal =>
        rw [FileSystem.createEmpty_of_obstacle hfree]
        exact .refused _ _ (by simp [Effect.obstacle?, hfree]) (.refl _ _) rfl
    | none =>
        obtain ⟨-, -, hclear⟩ := FileSystem.resolve_of_obstacle?_eq_none hhome hname hfree
        obtain ⟨opened, hmade, hview, hlocked⟩ := FileSystem.createEmpty_join hhome hname hfree
        change fs.createEmpty (archivePath directory start) = .ok (home ++ [archiveName start], _)
          at hmade
        change fs.get? (home ++ [archiveName start]) ≠ _ at hclear
        change ∀ other, opened.get? other =
          if other = home ++ [archiveName start] then _ else _ at hview
        rw [hmade]
        have hedited : Edited home (Effect.edits (some start) (.openArchive start)) fs opened :=
          .of_view hview (Change.apply_fill _ hclear)
        exact .done _ (by simp [Effect.obstacle?, hfree]) hedited (by rw [hlocked])
          ⟨hhome.of_same hedited.sameDirectories, _, .empty, rfl, (hview _).trans (if_pos rfl), rfl⟩
          rfl

/-- What is in the way of an effect stays as long as the directories do. -/
theorem Effect.obstacle?_of_same (hhome : fs.LeadsTo directory home) {after : FileSystem}
    (hsame : fs.SameDirectories after) {effect : Effect}
    (heffect : effect.OfChunk ∨ ∃ start, effect = .openArchive start) :
    effect.obstacle? directory archived after = effect.obstacle? directory archived fs ∧
      effect.spoils directory after = effect.spoils directory fs := by
  have hkeep {file : ReplicaFile} (hfile : file.Proper) :
      after.obstacle? (directory.join file.name) = fs.obstacle? (directory.join file.name) :=
    FileSystem.obstacle?_of_same hhome (ReplicaFile.isPlainName hfile) hsame
  rcases heffect with heffect | ⟨start, rfl⟩
  · cases effect with
    | openArchive start => exact heffect.elim
    | archive data => exact ⟨rfl, rfl⟩
    | openData table | writeBlock table offset block =>
        have hdata := hkeep (show (ReplicaFile.data table).Proper from heffect)
        change after.obstacle? (dataFilePath directory table) = _ at hdata
        exact ⟨by simp only [obstacle?, hdata]; rfl, rfl⟩
    | replaceBase table letter content =>
        have htemp := hkeep (show (ReplicaFile.temp table).Proper from heffect)
        have hbase := hkeep (show (ReplicaFile.base table letter).Proper from heffect)
        change after.obstacle? (tempFilePath directory table) =
          fs.obstacle? (tempFilePath directory table) at htemp
        change after.obstacle? (baseFilePath directory table letter) =
          fs.obstacle? (baseFilePath directory table letter) at hbase
        simp only [obstacle?, spoils, htemp, hbase]
        exact ⟨trivial, trivial⟩
  · refine ⟨?_, rfl⟩
    cases archived with
    | none => simp only [obstacle?, Option.bind_none]
    | some revision =>
        have harchive := hkeep (show (ReplicaFile.archive revision).Proper from trivial)
        change after.obstacle? (archivePath directory revision) = _ at harchive
        simp only [obstacle?, Option.bind_some, harchive]
        rfl

/-- What performing effects comes to, and the edits that are made. -/
def attempt (directory : Path) (archived : Option Nat) (files : FileSystem) :
    List Effect → Except Failure Unit × List Edit
  | [] => (.ok (), [])
  | effect :: rest =>
    match effect.obstacle? directory archived files with
    | none =>
      ((attempt directory archived files rest).1,
        effect.edits archived ++ (attempt directory archived files rest).2)
    | some error => (.error { stage := effect.stage, error }, effect.spoils directory files)

/-- An attempt comes to the same as long as the directories stay. -/
theorem attempt_of_same (hhome : fs.LeadsTo directory home) {after : FileSystem}
    (hsame : fs.SameDirectories after) {effects : List Effect}
    (heffects : ∀ effect ∈ effects, effect.OfChunk ∨ ∃ start, effect = .openArchive start) :
    attempt directory archived after effects = attempt directory archived fs effects := by
  induction effects with
  | nil => rfl
  | cons effect rest ih =>
      obtain ⟨hobstacle, hspoils⟩ :
          effect.obstacle? directory archived after = effect.obstacle? directory archived fs ∧
            effect.spoils directory after = effect.spoils directory fs :=
        Effect.obstacle?_of_same hhome hsame (heffects effect List.mem_cons_self)
      rw [attempt, attempt, hobstacle, hspoils,
        ih fun other hmem => heffects other (List.mem_cons_of_mem _ hmem)]

/-- With nothing in the way all effects make their edits. -/
theorem attempt_of_clear {effects : List Effect}
    (hclear : ∀ effect ∈ effects, effect.obstacle? directory archived fs = none) :
    attempt directory archived fs effects = (.ok (), effects.flatMap (Effect.edits archived)) := by
  induction effects with
  | nil => rfl
  | cons effect rest ih =>
      rw [attempt, hclear effect List.mem_cons_self,
        ih fun other hmem => hclear other (List.mem_cons_of_mem _ hmem)]
      rfl

/-- What was attempted to the end had nothing in its way. -/
theorem clear_of_attempt {effects : List Effect}
    (h : (attempt directory archived fs effects).1 = .ok ()) :
    ∀ effect ∈ effects, effect.obstacle? directory archived fs = none := by
  induction effects with
  | nil => simp
  | cons effect rest ih =>
      unfold attempt at h
      split at h
      · next hclear => exact List.forall_mem_cons.mpr ⟨hclear, ih h⟩
      · cases h

/-- The bytes that effects add to the archive. -/
def allArchived (effects : List Effect) : Bytes :=
  effects.flatMap Effect.archivedBytes

theorem recorded_append (archived : Option Nat) (first second : Bytes) :
    recorded archived (first ++ second) = recorded archived first + recorded archived second := by
  unfold recorded
  split
  · exact List.length_append
  · rfl

/-- What a performance leaves behind when it comes to what was attempted. -/
structure Achieved (home : Location) (archived : Option Nat) (effects : List Effect)
    (before after : Store) (attempted : Except Failure Unit × List Edit) : Prop where
  edited : Edited home attempted.2 before.files after.files
  locked : after.files.locked.count (home ++ [lockFileName]) =
    before.files.locked.count (home ++ [lockFileName])
  written : attempted.1 = .ok () →
    after.archive.written = before.archive.written + recorded archived (allArchived effects)

/-- Performing effects on a store comes to what is attempted from the files `fs`. -/
def PerformsAs (directory : Path) (home : Location) (archived : Option Nat) (retention : UInt32)
    (fs : FileSystem) (effects : List Effect) (store : Store) : Prop :=
  ∃ after, performAll directory retention effects store =
      ((attempt directory archived fs effects).1, after) ∧
    Achieved home archived effects store after (attempt directory archived fs effects)

/-- Effects come to what is attempted if the first does, and the others do after it. -/
theorem PerformsAs.cons {effect : Effect} {rest : List Effect}
    (hobstacle : effect.obstacle? directory archived store.files =
      effect.obstacle? directory archived fs)
    (hspoils : effect.spoils directory store.files = effect.spoils directory fs)
    (hperformed : Performed directory home archived effect store
      (effect.perform directory retention store))
    (hrest : ∀ after : Store, Edited home (effect.edits archived) store.files after.files →
      Standing directory home archived after →
      PerformsAs directory home archived retention fs rest after) :
    PerformsAs directory home archived retention fs (effect :: rest) store := by
  unfold PerformsAs performAll attempt
  revert hperformed
  generalize effect.perform directory retention store = outcome
  rintro (⟨after, hfree, hedited, hlocked, hafter, hwritten⟩ |
    ⟨error, spoiled, hrefused, hedited, hlocked⟩)
  · rw [hobstacle] at hfree
    obtain ⟨last, hrun, hachieved⟩ := hrest after hedited hafter
    simp only [hfree]
    refine ⟨last, hrun, hedited.trans hachieved.edited, ?_, fun hok => ?_⟩
    · rw [hachieved.locked, hlocked]
    · rw [hachieved.written hok, hwritten, Nat.add_assoc, ← recorded_append]
      rfl
  · -- The effect is refused, so the others are not performed and nothing is written.
    rw [hobstacle] at hrefused
    rw [hspoils] at hedited
    simp only [hrefused]
    refine ⟨spoiled, rfl, hedited, hlocked, fun hok => ?_⟩
    cases hok

/-- Effects of chunks come to what is told from the directories before them. -/
theorem performAll_chunks (hhome : fs.LeadsTo directory home)
    (hsame : fs.SameDirectories store.files) (hstanding : Standing directory home archived store)
    {effects : List Effect} (heffects : ∀ effect ∈ effects, effect.OfChunk) :
    PerformsAs directory home archived retention fs effects store := by
  induction effects generalizing store with
  | nil => exact ⟨store, rfl, .refl _ _, rfl, fun _ => by simp [allArchived, recorded]⟩
  | cons effect rest ih =>
      have heffect := heffects effect List.mem_cons_self
      obtain ⟨hobstacle, hspoils⟩ :
          effect.obstacle? directory archived store.files = effect.obstacle? directory archived fs ∧
            effect.spoils directory store.files = effect.spoils directory fs :=
        Effect.obstacle?_of_same hhome hsame (.inl heffect)
      -- Edits leave the directories alone, so nothing gets in the way of the others.
      refine .cons hobstacle hspoils (performed hstanding heffect) fun after hedited hafter => ?_
      exact ih (hsame.trans hedited.sameDirectories) hafter
        fun other hmem => heffects other (List.mem_cons_of_mem _ hmem)

/-- The revision whose changeset is archived when effects are performed, if one is. -/
def archivedBy (retention : UInt32) : List Effect → Option Nat
  | .openArchive start :: _ => if retention = 0 then none else some start
  | _ => none

/-- The effects of an apply come to what is told from the files before it. -/
theorem performAll_orderly (hhome : fs.LeadsTo directory home) {effects : List Effect}
    (horderly : Orderly effects) :
    PerformsAs directory home (archivedBy retention effects) retention fs effects
      { files := fs } := by
  cases horderly with
  | nothing => exact ⟨_, rfl, .refl _ _, rfl, fun _ => rfl⟩
  | opening start rest hrest =>
      have hopened : Performed directory home (archivedBy retention (.openArchive start :: rest))
          (.openArchive start) { files := fs }
          (Effect.perform directory retention (.openArchive start) { files := fs }) :=
        performed_openArchive hhome start
      refine .cons rfl rfl hopened fun after hedited hafter => ?_
      exact performAll_chunks hhome hedited.sameDirectories hafter hrest

end

end TableReplica.Apply
