import TableReplica.Proofs.Accounting
import TableReplica.Proofs.Footprints
import TableReplica.Proofs.Stream.Committing

/-!
# What goes to an attached archive

An archive may be attached at any moment, with bytes that were decoded and not committed. From then
on, and until another takes its place, the bytes that each request commits are the bytes that it
appends, whether it fails or not. So the archive holds what was committed since it was attached:
`attached_archive_mirrors`.
-/

namespace TableReplica.Apply

open Files Transport

/-- The archive of a store is the file under this path, which holds these bytes, and counts them. -/
structure Store.Archives (path : Path) (bytes : Bytes) (store : Store) : Prop where
  opened : ∃ place, store.archive.target = some (path, place) ∧
    store.files.openFile path = .ok place
  content : store.files.readFile path = .ok bytes
  written_eq : store.archive.written = bytes.length

namespace Store.Archives

variable {path : Path} {bytes : Bytes} {store : Store}

/-- What is appended to an archive comes after what it holds. -/
theorem append (h : store.Archives path bytes) (data : Bytes) :
    (store.append data).Archives path (bytes ++ data) := by
  obtain ⟨⟨place, htarget, hopen⟩, hcontent, hwritten⟩ := h
  rw [append_of_some htarget]
  have hafter := FileSystem.openFile_write hopen place store.archive.written data
  refine ⟨⟨place, htarget, hafter⟩, ?_, by rw [hwritten, List.length_append]⟩
  obtain ⟨hresolve, content, hfile⟩ := FileSystem.openFile_eq_ok.mp hopen
  rw [FileSystem.readFile_of_resolve hresolve, hfile] at hcontent
  obtain rfl : content.bytes = bytes := Except.ok.inj hcontent
  rw [FileSystem.readFile_of_resolve (FileSystem.openFile_eq_ok.mp hafter).1,
    FileSystem.get?_write, if_pos rfl, hfile, hwritten, Content.length_bytes]
  exact congrArg Except.ok (content.bytes_overwrite_size data)

/-- What was decoded goes to the archive when it is committed. -/
theorem afterCommit (h : store.Archives path bytes) (cursor : Cursor) :
    (store.afterCommit cursor).Archives path (bytes ++ cursor.pending) := by
  unfold Store.afterCommit
  split
  · next hpending => rwa [hpending, List.append_nil]
  · exact h.append cursor.pending

/-- An archive that was opened holds nothing, whatever an earlier one of the same name held. -/
theorem of_create {directory : Path} {start : Nat} {retention : UInt32} {archive : Archive}
    {before after : FileSystem} (hretention : retention ≠ 0)
    (h : Archive.create directory start retention before = .ok (archive, after)) :
    Archives (archivePath directory start) [] { archive, files := after } := by
  simp only [Archive.create, if_neg hretention] at h
  have hmade := before.emptied (archivePath directory start)
  generalize before.createEmpty (archivePath directory start) = made at h hmade
  cases hmade with
  | astray | obstructed => cases h
  | made place made hresolve hfree hview =>
      cases h
      have hreached := FileSystem.resolve_of_same (.of_made hfree hview) hresolve
      have hfile : after.get? place = some (.file .empty) := by rw [hview, if_pos rfl]
      refine ⟨⟨place, rfl, FileSystem.openFile_eq_ok.mpr ⟨hreached, .empty, hfile⟩⟩, ?_, rfl⟩
      rw [FileSystem.readFile_of_resolve hreached, hfile]
      rfl

end Store.Archives

/-- Committing changes nothing but the cursor if there is no archive. -/
theorem Store.afterCommit_of_none {store : Store} (h : store.archive.target = none)
    (cursor : Cursor) : store.afterCommit cursor = store := by
  unfold afterCommit
  split
  · rfl
  · exact append_of_none h cursor.pending

namespace Request

/-- A request that leaves the archive in its place. -/
def Lasting : Request → Prop
  | attachArchive _ => False
  | closeArchive => False
  | _ => True

/-- A request that commits what was decoded before it. -/
def Committing : Request → Prop
  | take _ _ => True
  | commit => True
  | _ => False

/-- Such a request leaves the archive in its place. -/
theorem Committing.lasting {request : Request} (h : request.Committing) : request.Lasting := by
  cases request with
  | take | commit => exact trivial
  | _ => exact absurd h id

/-- What a request leaves: these bytes are committed, and they are what the archive is given. -/
structure Recorded (request : Request) (cursor : Cursor) (store : Store) (settled : Bytes)
    (after : Cursor) (done : Store) : Prop where
  served : (request.serve (store.session cursor)).2 = done.session after
  commits : Cursor.Commits settled cursor after
  archives : request.Lasting → ∀ path bytes, store.Archives path bytes →
    done.Archives path (bytes ++ settled)
  unarchived : request.Lasting → store.archive.target = none → done = store
  committed : request.Committing → after.pending = []

section

variable {cursor : Cursor} {store : Store}

/-- A request to read commits nothing and leaves the store alone. -/
theorem recorded_read (request : Request)
    {operation : Cursor → Except ReplicaError request.Answer × Cursor}
    (haction : request.action = Apply.read operation) {wait : Wait request.Answer}
    (hwait : operation = wait.operation) (hkind : ¬ request.Committing) :
    ∃ settled after done, Recorded request cursor store settled after done := by
  subst hwait
  refine ⟨[], (wait.operation cursor).2, store, ?_, Cursor.tentative_of_wait wait cursor,
    fun _ path bytes h => by rwa [List.append_nil], fun _ _ => rfl, fun h => absurd h hkind⟩
  rw [serve_read haction]

/-- A request to take bytes gives the archive what was decoded, and then the bytes if they come. -/
theorem recorded_take (what : String) (count : Nat) :
    ∃ settled after done, Recorded (take what count) cursor store settled after done := by
  have hcommits := cursor.commits_afterCommit
  have hensured := Cursor.tentative_of_wait (.ensure what count) cursor.afterCommit
  have hpending := Cursor.pending_ensure what count cursor.afterCommit
  rw [← Cursor.ensure_eq_wait] at hensured
  rcases hready : cursor.afterCommit.ensure what count with ⟨error | _, ready⟩
  · rw [hready] at hensured hpending
    refine ⟨_, ready, store.afterCommit cursor, ?_, hcommits.before_none hensured,
      fun _ path bytes h => h.afterCommit cursor,
      fun _ hnone => Store.afterCommit_of_none hnone cursor, fun _ => hpending⟩
    rw [serve_take_error hready]
  · rw [hready] at hensured hpending
    refine ⟨_, ready.afterTake count,
      (store.afterCommit cursor).append (ready.unread.take count), ?_,
      (hcommits.before_none hensured).trans (Cursor.commits_afterTake hpending count),
      fun _ path bytes h => ?_, fun _ hnone => ?_, fun _ => hpending⟩
    · rw [serve_take_ok hready]
    · rw [← List.append_assoc]
      exact (h.afterCommit cursor).append _
    · rw [Store.afterCommit_of_none hnone, Store.append_of_none hnone]

/-- Every request gives the archive the bytes that it commits. -/
theorem recorded (request : Request) (cursor : Cursor) (store : Store) :
    ∃ settled after done, Recorded request cursor store settled after done := by
  cases request with
  | ensure what count => exact recorded_read _ rfl (Cursor.ensure_eq_wait what count) id
  | readAhead what count => exact recorded_read _ rfl (Cursor.readAhead_eq_wait what count) id
  | skipLiteral literal =>
      exact ⟨[], (cursor.skipLiteral literal).2, store, rfl, cursor.commits_skipLiteral literal,
        fun _ path bytes h => by rwa [List.append_nil], fun _ _ => rfl, False.elim⟩
  | readByte what => exact recorded_read _ rfl (Cursor.readByte_eq_wait what) id
  | readUint what => exact recorded_read _ rfl (Cursor.readUint_eq_wait what) id
  | readString what max => exact recorded_read _ rfl (Cursor.readString_eq_wait what max) id
  | take what count => exact recorded_take what count
  | commit =>
      refine ⟨cursor.pending, cursor.afterCommit, store.afterCommit cursor, ?_,
        cursor.commits_afterCommit, fun _ path bytes h => h.afterCommit cursor,
        fun _ hnone => Store.afterCommit_of_none hnone cursor, fun _ => rfl⟩
      rw [serve_commit]
  | expectEnd => exact recorded_read _ rfl Cursor.expectEnd_eq_wait id
  | attachArchive archive =>
      exact ⟨[], cursor, { store with archive }, rfl, .refl cursor, False.elim, False.elim,
        False.elim⟩
  | closeArchive =>
      exact ⟨[], cursor, { store with archive := .disabled }, rfl, .refl cursor, False.elim,
        False.elim, False.elim⟩

/-- A run commits some bytes, which its archive is given if it stays in its place. -/
theorem recordedAll (requests : List Request) (cursor : Cursor) (store : Store) :
    ∃ settled after done, (serveAll requests (store.session cursor)).2 = done.session after ∧
      Cursor.Commits settled cursor after ∧
      ((∀ request ∈ requests, request.Lasting) →
        (∀ path bytes, store.Archives path bytes → done.Archives path (bytes ++ settled)) ∧
          (store.archive.target = none → done = store)) := by
  induction requests generalizing cursor store with
  | nil =>
      exact ⟨[], cursor, store, rfl, .refl cursor,
        fun _ => ⟨fun path bytes h => by rwa [List.append_nil], fun _ => rfl⟩⟩
  | cons request rest ih =>
      obtain ⟨settled, middle, between, hfirst⟩ := request.recorded cursor store
      obtain ⟨more, after, done, hserved, hcommits, hrest⟩ := ih middle between
      refine ⟨settled ++ more, after, done, ?_, hfirst.commits.trans hcommits, fun hlasting => ?_⟩
      · rw [serveAll, hfirst.served, hserved]
      · obtain ⟨hrequest, hothers⟩ := List.forall_mem_cons.mp hlasting
        obtain ⟨harchives, hunarchived⟩ := hrest hothers
        refine ⟨fun path bytes h => ?_, fun hnone => ?_⟩
        · rw [← List.append_assoc]
          exact harchives path _ (hfirst.archives hrequest path bytes h)
        · have hsame := hfirst.unarchived hrequest hnone
          rw [hunarchived (hsame ▸ hnone), hsame]

end

end Request

namespace Session

/-- The archive under a path holds what was committed of a stream after its first bytes, as many of
them as had been committed when it was attached. -/
structure Mirrors (session : Session) (connection : Connection) (path : Path) (origin : Nat) :
    Prop where
  /-- The archive holds the bytes of the stream from there up to the last that was committed. -/
  content : session.files.readFile path =
    .ok ((connection.bytes.take session.cursor.committed).drop origin)
  /-- So many bytes were committed, and all of them are bytes of the stream. -/
  committed_le : session.cursor.committed ≤ connection.bytes.length
  /-- The archive counts those that it holds. -/
  archived_eq : origin + session.archived = session.cursor.committed
  /-- They have all been consumed. -/
  archived_le : origin + session.archived ≤ session.consumed

/-- As long as no archive is attached, whatever else the session is asked for, no bytes are archived
and no file changes. -/
def Unarchived (session : Session) : Prop :=
  ∀ requests : List Request, (∀ request ∈ requests, request.Lasting) →
    (Request.serveAll requests session).2.archived = 0 ∧
      (Request.serveAll requests session).2.files = session.files

/-- An archive that is given what was committed since it was attached mirrors the stream. -/
theorem mirrors_of_archives {connection : Connection} {path : Path} {sooner settled : Bytes}
    {middle cursor : Cursor} {store : Store}
    (hsooner : Cursor.Commits sooner { incoming := connection } middle)
    (hsettled : Cursor.Commits settled middle cursor) (h : store.Archives path settled) :
    (store.session cursor).Mirrors connection path middle.committed := by
  have hall := hsooner.trans hsettled
  have hbytes := hall.bytes_eq
  have hlength : cursor.committed = (sooner ++ settled).length := hall.length_eq.symm
  have horigin : middle.committed = sooner.length := hsooner.length_eq.symm
  have hequal : middle.committed + store.archive.written = cursor.committed := by
    rw [h.written_eq, hsettled.committed_eq]
  refine ⟨?_, ?_, hequal, hequal.le.trans (Nat.le_add_right _ _)⟩
  · calc store.files.readFile path
        = .ok settled := h.content
      _ = .ok ((connection.bytes.take cursor.committed).drop middle.committed) := by
          rw [hbytes, hlength, List.take_left, horigin, List.drop_left]
  · show cursor.committed ≤ connection.bytes.length
    rw [hbytes, hlength]
    exact (List.prefix_append _ _).length_le

/-- After a request that commits, the archive mirrors all that was consumed. -/
theorem consumed_of_committing {connection : Connection} {path : Path} {sooner settled : Bytes}
    {middle cursor : Cursor} {store : Store}
    (hsooner : Cursor.Commits sooner { incoming := connection } middle)
    (hsettled : Cursor.Commits settled middle cursor) (h : store.Archives path settled)
    {request : Request} (hrequest : request.Committing) :
    middle.committed + (request.serve (store.session cursor)).2.archived =
      (request.serve (store.session cursor)).2.consumed := by
  obtain ⟨more, after, done, hrecorded⟩ := request.recorded cursor store
  have hmirrors := mirrors_of_archives hsooner (hsettled.trans hrecorded.commits)
    (hrecorded.archives hrequest.lasting path settled h)
  have hpending : after.pending = [] := hrecorded.committed hrequest
  rw [hrecorded.served, hmirrors.archived_eq]
  show after.committed = after.committed + after.pending.length
  rw [hpending, List.length_nil, Nat.add_zero]

/-- Nothing is archived without an archive. -/
theorem unarchived_of_disabled {session : Session} (hconnection : session.feed = none)
    (h : session.archive = .disabled) : session.Unarchived := by
  obtain ⟨cursor, feed, archive, files⟩ := session
  obtain rfl : feed = none := hconnection
  obtain rfl : archive = .disabled := h
  intro requests hlasting
  obtain ⟨settled, after, done, hserved, -, hkept⟩ :=
    Request.recordedAll requests cursor { archive := .disabled, files }
  obtain rfl := (hkept hlasting).2 rfl
  show (Request.serveAll requests (({ files } : Store).session cursor)).2.archived = 0 ∧
    (Request.serveAll requests (({ files } : Store).session cursor)).2.files = files
  rw [hserved]
  exact ⟨rfl, rfl⟩

end Session

/-- Whatever a connection brings, whatever was asked for `earlier` and whatever is asked for `during`
the time of an archive, failures included: the archive holds exactly the bytes of the stream that
were committed since it was attached, and counts them. They are no more than were consumed since
then, and just as many right after a request that commits. Without an archive, which is before one
is attached, with a retention count of zero and after it is closed, none are counted and no file
changes. -/
theorem attached_archive_mirrors (connection : Connection) (files : FileSystem)
    (earlier during : List Request) (hduring : ∀ request ∈ during, request.Lasting)
    {directory : Path} {start : Nat} {retention : UInt32} {present opened : FileSystem}
    {archive : Archive}
    (hcreated : Archive.create directory start retention present = .ok (archive, opened)) :
    let before := (Request.serveAll earlier (.start connection files)).2
    let attached := ((Request.attachArchive archive).serve { before with files := opened }).2
    let after := (Request.serveAll during attached).2
    (retention ≠ 0 →
      after.Mirrors connection (archivePath directory start) before.cursor.committed ∧
        ∀ request : Request, request.Committing →
          before.cursor.committed + (request.serve after).2.archived =
            (request.serve after).2.consumed) ∧
      (retention = 0 → attached.Unarchived ∧ opened = present) ∧
      (Session.start connection files).Unarchived ∧
      (Request.closeArchive.serve after).2.Unarchived := by
  intro before attached after
  obtain ⟨sooner, middle, old, hbefore, hsooner, -⟩ :=
    Request.recordedAll earlier { incoming := connection } { files }
  have hattached : attached = ({ archive, files := opened } : Store).session middle := by
    show Session.mk before.cursor before.feed archive opened = _
    rw [show before = old.session middle from hbefore]
    rfl
  have horigin : before.cursor.committed = middle.committed := by
    rw [show before = old.session middle from hbefore]
    rfl
  obtain ⟨settled, cursor, done, hserved, hsettled, hkept⟩ :=
    Request.recordedAll during middle { archive, files := opened }
  have hafter : after = done.session cursor := by
    rw [← hserved, ← hattached]
  refine ⟨fun hretention => ?_, fun hretention => ?_, Session.unarchived_of_disabled rfl rfl, ?_⟩
  · have harchives := (hkept hduring).1 _ _ (Store.Archives.of_create hretention hcreated)
    rw [hafter, horigin]
    exact ⟨Session.mirrors_of_archives hsooner hsettled harchives,
      fun request => Session.consumed_of_committing hsooner hsettled harchives⟩
  · rw [Archive.create, if_pos hretention] at hcreated
    cases hcreated
    rw [hattached]
    exact ⟨Session.unarchived_of_disabled rfl rfl, rfl⟩
  · rw [hafter]
    exact Session.unarchived_of_disabled rfl rfl

/-- Requests on `sampleReads` after which two bytes are committed and one more is decoded. -/
def sampleEarlier : List Request :=
  [.readUint "size", .readUint "size", .commit, .readByte "kind"]

/-- Requests of which the first commits what was decoded before it fails, and the second decodes a
byte that nothing commits. -/
def sampleDuring : List Request :=
  [.take "content" 5, .readByte "kind"]

/-- The archive of the sample holds the byte that had been decoded when it was attached, and neither
those committed before nor the one decoded after. -/
theorem attached_archive_mirrors_sample :
    ∃ archive opened, Archive.create (.ofText [] "/") 3 1 {} = .ok (archive, opened) ∧
      (Request.serveAll sampleDuring
        ((Request.attachArchive archive).serve
          { (Request.serveAll sampleEarlier (.start sampleReads {})).2 with
            files := opened }).2).2.files.readFile (archivePath (.ofText [] "/") 3) = .ok [7] := by
  have hcreated : Archive.create (.ofText [] "/") 3 1 {} =
      .ok ({ target := some (archivePath (.ofText [] "/") 3, ["changes3"]) },
        ({} : FileSystem).put ["changes3"] (.file .empty)) := by
    decide +kernel
  have hduring : ∀ request ∈ sampleDuring, request.Lasting := by
    simp [sampleDuring, Request.Lasting]
  obtain ⟨hmirrors, -⟩ :=
    (attached_archive_mirrors sampleReads {} sampleEarlier sampleDuring hduring hcreated).1
      (by decide)
  refine ⟨_, _, hcreated, hmirrors.content.trans ?_⟩
  decide +kernel

end TableReplica.Apply
