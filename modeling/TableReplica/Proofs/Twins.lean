import TableReplica.Proofs.Plan.Editing
import TableReplica.Proofs.Plan.Following

/-!
# Two runs that archive to different places

An action that runs twice, on files that differ only where archives are, reads the same both times.
`Agree` says so: the runs give the same value or fail with the same error, have read as much, and
leave files that again differ only where archives are. There is one rule for each way in which
actions are put together and one for each basic action, none of which looks at an archive. With
these the chunks of a changeset agree (`applyChunks`), whatever became of the archive before them.
-/

namespace TableReplica.Apply

open Files Transport Wire

/-- A round of blocks takes at least the byte of a block number. -/
theorem Consuming.blockRound (path : Path) (place : Location) (blockSize : Nat)
    (stats : BlockStats) : Consuming (Apply.blockRound path place blockSize stats) :=
  bind (readUint _) fun _ => .bind (.applyNumbered _ _ _ _) fun _ => .pure _

/-- A round of chunks takes at least the byte of a tag. -/
theorem Consuming.chunkRound (directory : Path) (stats : ChunkStats) :
    Consuming (Apply.chunkRound directory stats) :=
  bind (readByte _) fun _ => .bind (.applyTagged _ _) fun _ => .pure _

/-- How two runs come out alike. -/
inductive Agreed {ε α : Type} (related : Store → Store → Prop) :
    EStateM.Result ε Session α → EStateM.Result ε Session α → Prop where
  | value (value : α) (cursor : Cursor) {first second : Store} :
      related first second →
        Agreed related (.ok value (first.session cursor)) (.ok value (second.session cursor))
  | error (error : ε) (cursor : Cursor) {first second : Store} :
      related first second →
        Agreed related (.error error (first.session cursor)) (.error error (second.session cursor))

/-- Two actions agree if they come out alike wherever they start to read, on stores that are
related. -/
def Agree {ε α : Type} (related : Store → Store → Prop) (first second : ActionOf ε α) : Prop :=
  ∀ cursor {one other : Store}, related one other →
    Agreed related (first (one.session cursor)) (second (other.session cursor))

section

variable {ε α β σ : Type} {related : Store → Store → Prop}

/-- What follows has to agree only where the first action ends. -/
theorem Agreed.bind {first second : ActionOf ε α} {next other : α → ActionOf ε β}
    {start begin : Session} (h : Agreed related (first start) (second begin))
    (hnext : ∀ value cursor {one two : Store}, first start = .ok value (one.session cursor) →
      related one two →
        Agreed related (next value (one.session cursor)) (other value (two.session cursor))) :
    Agreed related ((first >>= next) start) ((second >>= other) begin) := by
  show Agreed related (EStateM.bind _ _ _) (EStateM.bind _ _ _)
  unfold EStateM.bind
  generalize hfirst : first start = ended at h
  generalize second begin = finished at h
  cases h with
  | value value cursor hrelated => exact hnext value cursor hfirst hrelated
  | error error cursor hrelated => exact .error error cursor hrelated

/-- Runs come out alike for every relation that follows. -/
theorem Agreed.mono {weaker : Store → Store → Prop} {first second : EStateM.Result ε Session α}
    (h : Agreed related first second)
    (hweaker : ∀ {one other : Store}, related one other → weaker one other) :
    Agreed weaker first second := by
  cases h with
  | value value cursor hrelated => exact .value value cursor (hweaker hrelated)
  | error error cursor hrelated => exact .error error cursor (hweaker hrelated)

/-- Running the actions as a stage tells the stage of an error. -/
theorem Agreed.during (stage : Stage) {first second : Action α} {start begin : Session}
    (h : Agreed related (first start) (second begin)) :
    Agreed related (Apply.during stage first start) (Apply.during stage second begin) := by
  unfold Apply.during
  generalize first start = ended at h
  generalize second begin = finished at h
  cases h with
  | value value last hsame => exact .value value last hsame
  | error error last hsame => exact .error _ last hsame

/-- What follows operations that leave the files finds them as they are left. -/
theorem Agreed.onFiles {operation : FileSystem → Except ReplicaError (α × FileSystem)}
    {other : FileSystem → Except ReplicaError (β × FileSystem)} {next : α → Action σ}
    {last : β → Action σ} {cursor : Cursor} {one two : Store} {value : α} {found : β}
    {files left : FileSystem} (hone : operation one.files = .ok (value, files))
    (htwo : other two.files = .ok (found, left))
    (h : Agreed related (next value ({ one with files }.session cursor))
      (last found ({ two with files := left }.session cursor))) :
    Agreed related ((Apply.onFiles operation >>= next) (one.session cursor))
      ((Apply.onFiles other >>= last) (two.session cursor)) := by
  have hfirst : operation (one.session cursor).files = .ok (value, files) := hone
  have hsecond : other (two.session cursor).files = .ok (found, left) := htwo
  rw [onFiles_bind_ok hfirst, onFiles_bind_ok hsecond]
  exact h

namespace Agree

/-- Giving a value looks at no store. -/
theorem pure (value : α) :
    Agree related (Pure.pure value : ActionOf ε α) (Pure.pure value) :=
  fun cursor _ _ h => .value value cursor h

/-- Nor does failing. -/
theorem throw (error : ε) :
    Agree related (MonadExcept.throw error : ActionOf ε α) (MonadExcept.throw error) :=
  fun cursor _ _ h => .error error cursor h

/-- A sequence agrees if its parts do. -/
theorem bind {first second : ActionOf ε α} {next other : α → ActionOf ε β}
    (h : Agree related first second) (hnext : ∀ value, Agree related (next value) (other value)) :
    Agree related (first >>= next) (second >>= other) :=
  fun cursor _ _ hrelated => (h cursor hrelated).bind fun value cursor _ _ _ hrelated =>
    hnext value cursor hrelated

/-- Runs that agree in every round agree as long as they loop. -/
theorem loop {body : σ → Action (σ ⊕ α)} {run : σ → Action α}
    (hrun : ∀ state, run state = body state >>= Sum.elim run Pure.pure)
    (hconsumes : ∀ state, Consuming (body state))
    (hbody : ∀ state, Agree related (body state) (body state)) (state : σ) :
    Agree related (run state) (run state) := by
  intro cursor one other hrelated
  -- What is left to be decoded gets less with every round.
  induction hsupply : cursor.supply using Nat.strongRecOn generalizing state cursor one other with
  | ind supply ih =>
      rw [hrun]
      refine (hbody state cursor hrelated).bind fun round last first second hround hsame => ?_
      have hless : last.supply < cursor.supply := hconsumes state hround
      cases round with
      | inl next => exact ih _ (hsupply ▸ hless) next last hsame rfl
      | inr value => exact .value value last hsame

/-- Rejecting the stream looks at no store. -/
theorem reject (error : ProtocolError) :
    Agree related (Apply.reject error : Action α) (Apply.reject error) :=
  throw _

/-- Nor does a requirement. -/
theorem require (condition : Prop) [Decidable condition] (error : ProtocolError) :
    Agree related (Apply.require condition error) (Apply.require condition error) := by
  unfold Apply.require
  split
  · exact pure ()
  · exact reject error

/-- What follows a demand has to agree only on what the demand lets through. -/
theorem demand {outcome : Except ProtocolError α} {next other : α → Action β}
    (hnext : ∀ value, outcome = .ok value → Agree related (next value) (other value)) :
    Agree related (Apply.demand outcome >>= next) (Apply.demand outcome >>= other) := by
  cases outcome with
  | error error =>
      show Agree related (Apply.reject error : Action β) (Apply.reject error)
      exact reject error
  | ok value => exact hnext value rfl

/-- Reading looks at no store. -/
theorem read (operation : Cursor → Except ReplicaError α × Cursor) :
    Agree related (Apply.read operation) (Apply.read operation) := by
  intro cursor one other hrelated
  rcases hanswer : operation cursor with ⟨error | value, after⟩
  · rw [read_session_error hanswer, read_session_error hanswer]
    exact .error error after hrelated
  · rw [read_session_ok hanswer, read_session_ok hanswer]
    exact .value value after hrelated

/-- Nor does skipping a literal. -/
theorem skipLiteral (literal : Bytes) :
    Agree related (Apply.skipLiteral literal) (Apply.skipLiteral literal) :=
  fun cursor _ _ hrelated =>
    .value (cursor.skipLiteral literal).1 (cursor.skipLiteral literal).2 hrelated

/-- Nor does reading the header. -/
theorem readHeader : Agree related Apply.readHeader Apply.readHeader :=
  bind (read _) fun _ => bind (skipLiteral _) fun _ => bind (require _ _) fun _ =>
    bind (read _) fun _ => bind (require _ _) fun _ => bind (read _) fun _ =>
      bind (read _) fun _ => bind (require _ _) fun _ => bind (read _) fun _ =>
        bind (require _ _) fun _ => pure _

/-- The check of the revision agrees for replicators with the same directory and reader. -/
theorem checkRevision (replicator other : Replicator)
    (hdirectory : other.directory = replicator.directory)
    (hrevisions : other.revisions = replicator.revisions) (trusted : Bool) (startRevision : Nat) :
    Agree related (replicator.checkRevision trusted startRevision)
      (other.checkRevision trusted startRevision) := by
  unfold Replicator.checkRevision checkAnswer
  rw [hdirectory, hrevisions]
  split
  · cases replicator.revisions replicator.directory with
    | error error => exact throw error
    | ok current => exact require _ _
  · exact pure ()

section

variable (happend : ∀ data {one other : Store}, related one other →
  related (one.append data) (other.append data))

include happend

/-- Archiving what is pending agrees if appending does. -/
theorem commit : Agree related Apply.commit Apply.commit := by
  intro cursor one other hrelated
  rw [commit_session, commit_session]
  unfold Store.afterCommit
  by_cases hpending : cursor.pending = []
  · rw [if_pos hpending, if_pos hpending]
    exact .value () _ hrelated
  · rw [if_neg hpending, if_neg hpending]
    exact .value () _ (happend _ hrelated)

/-- So does taking bytes. -/
theorem take (what : String) (count : Nat) :
    Agree related (Apply.take what count) (Apply.take what count) :=
  bind (commit happend) fun _ => bind (read _) fun _ cursor _ _ hrelated => by
    rw [takeUnread_session, takeUnread_session]
    exact .value _ _ (happend _ hrelated)

/-- What follows a table name has to agree only on the names that there are. -/
theorem readTable {next other : String → Action α}
    (hnext : ∀ table, IsTableName table → Agree related (next table) (other table)) :
    Agree related (Apply.readTable >>= next) (Apply.readTable >>= other) := by
  simp only [Apply.readTable, bind_assoc, pure_bind]
  exact bind (read _) fun letters => demand fun table htable => bind (commit happend) fun _ =>
    hnext table ⟨letters, htable⟩

end

/-- Actions that agree do so as a stage. -/
theorem during (stage : Stage) {first second : Action α} (h : Agree related first second) :
    Agree related (Apply.during stage first) (Apply.during stage second) :=
  fun cursor _ _ hrelated => (h cursor hrelated).during stage

end Agree

end

/-- A store over files with the directories of `origin` whose archive is at a place set apart. -/
structure Store.Placed (origin : FileSystem) (spare : Location → Prop) (store : Store) : Prop where
  directories : origin.SameDirectories store.files
  target : ∀ path place, store.archive.target = some (path, place) → spare place

/-- Two stores over files that are the same but at places set apart. -/
structure Twins (origin : FileSystem) (spare : Location → Prop) (first second : Store) : Prop where
  left : first.Placed origin spare
  right : second.Placed origin spare
  same : ∀ place, ¬ spare place → first.files.get? place = second.files.get? place

/-- File systems that are the same but for what is at places set apart. -/
structure SameApart (spare : Location → Prop) (first second : FileSystem) : Prop where
  entries : ∀ place, ¬ spare place → first.get? place = second.get? place
  locked : first.locked = second.locked
  opened : first.opened = second.opened

namespace SameApart

variable {spare : Location → Prop} {first second third : FileSystem}

/-- A file system is the same as itself, whatever is set apart. -/
theorem refl (spare : Location → Prop) (fs : FileSystem) : SameApart spare fs fs :=
  ⟨fun _ _ => rfl, rfl, rfl⟩

/-- Being the same apart from some places works both ways. -/
theorem symm (h : SameApart spare first second) : SameApart spare second first :=
  ⟨fun place hplace => (h.entries place hplace).symm, h.locked.symm, h.opened.symm⟩

/-- Being the same apart from some places carries on. -/
theorem trans (h : SameApart spare first second) (hnext : SameApart spare second third) :
    SameApart spare first third :=
  ⟨fun place hplace => (h.entries place hplace).trans (hnext.entries place hplace),
    h.locked.trans hnext.locked, h.opened.trans hnext.opened⟩

/-- Writing at a place set apart changes nothing else. -/
theorem write (fs : FileSystem) {place : Location} (hplace : spare place) (offset : Nat)
    (data : Bytes) : SameApart spare (fs.write place offset data) fs := by
  refine ⟨fun other hother => ?_, locked_write fs place offset data, ?_⟩
  · rw [FileSystem.get?_write, if_neg]
    rintro rfl
    exact hother hplace
  · unfold FileSystem.write
    split <;> rfl

/-- Opening a file at a place set apart as an empty one changes nothing else. -/
theorem createEmpty (fs : FileSystem) {path : Path} {place : Location} (hplace : spare place)
    {after : FileSystem} (h : fs.createEmpty path = .ok (place, after)) :
    SameApart spare after fs := by
  have hemptied := fs.emptied path
  rw [h] at hemptied
  cases hemptied with
  | made _ _ hresolve _ hview hlocked =>
      refine ⟨fun other hother => ?_, hlocked, ?_⟩
      · rw [hview, if_neg]
        rintro rfl
        exact hother hplace
      · unfold FileSystem.createEmpty at h
        rw [FileSystem.openOrCreate_eq hresolve] at h
        rcases hentry : fs.get? place with _ | _ | _ <;> rw [hentry] at h <;> cases h <;> rfl

end SameApart

section

variable {origin : FileSystem} {spare : Location → Prop} {one other : Store} {directory : Path}
  {home : Location}

/-- Appending to an archive changes what is at a place set apart. -/
theorem Store.Placed.append {store : Store} (h : store.Placed origin spare) (data : Bytes) :
    (store.append data).Placed origin spare ∧
      SameApart spare (store.append data).files store.files := by
  obtain ⟨⟨target, written⟩, files⟩ := store
  cases target with
  | none => exact ⟨h, .refl spare files⟩
  | some target =>
      have hplace := h.target target.1 target.2 rfl
      exact ⟨⟨h.directories.trans (.write _ _ _ _), h.target⟩, .write files hplace written data⟩

namespace Twins

/-- Twins are left by appending to both archives, wherever these are. -/
theorem append (data : Bytes) {one other : Store} (h : Twins origin spare one other) :
    Twins origin spare (one.append data) (other.append data) where
  left := (h.left.append data).1
  right := (h.right.append data).1
  same place hplace := by
    rw [(h.left.append data).2.entries place hplace, (h.right.append data).2.entries place hplace,
      h.same place hplace]

/-- The same edits leave twins. -/
theorem edited (h : Twins origin spare one other) {edits : List Edit} {after last : FileSystem}
    (hone : Edited home edits one.files after) (hother : Edited home edits other.files last) :
    Twins origin spare { one with files := after } { other with files := last } where
  left := ⟨h.left.directories.trans hone.sameDirectories, h.left.target⟩
  right := ⟨h.right.directories.trans hother.sameDirectories, h.right.target⟩
  same place hplace := by
    rcases inside_or_outside home place with ⟨name, rfl⟩ | houtside
    · rw [hone.inside, hother.inside, h.same _ hplace]
    · rw [hone.outside place houtside, hother.outside place houtside, h.same place hplace]

/-- A write to both files leaves twins. -/
theorem write (h : Twins origin spare one other) (place : Location) (offset : Nat) (data : Bytes) :
    Twins origin spare { one with files := one.files.write place offset data }
      { other with files := other.files.write place offset data } where
  left := ⟨h.left.directories.trans (.write _ _ _ _), h.left.target⟩
  right := ⟨h.right.directories.trans (.write _ _ _ _), h.right.target⟩
  same found hfound := by
    rw [FileSystem.get?_write, FileSystem.get?_write]
    split
    · next heq => rw [← heq, h.same found hfound]
    · exact h.same found hfound

end Twins

/-- What is in the way of a file is in its way in all stores over the same directories. -/
theorem Store.Placed.obstacle? {store : Store} (h : store.Placed origin spare)
    (hhome : origin.LeadsTo directory home) {file : ReplicaFile} (hfile : file.Proper) :
    store.files.obstacle? (file.path directory) = origin.obstacle? (file.path directory) :=
  FileSystem.obstacle?_of_same hhome (ReplicaFile.isPlainName hfile) h.directories

namespace Agree

/-- A block goes to the same place. -/
theorem writeBlock (path : Path) (place : Location) (offset : Nat) (block : Bytes) :
    Agree (Twins origin spare) (onFiles (Apply.writeBlock path place offset block))
      (onFiles (Apply.writeBlock path place offset block)) := by
  intro cursor one other htwins
  unfold onFiles Apply.writeBlock
  by_cases hbeyond : offsetBound ≤ offset
  · simp only [if_pos hbeyond]
    exact .error _ cursor htwins
  · simp only [if_neg hbeyond]
    exact .value () cursor (htwins.write place offset block)

variable {table : String} (hhome : origin.LeadsTo directory home) (htable : IsTableName table)

include hhome htable

/-- A data file is opened at the same place, or something is in the way both times. -/
theorem openDataFile :
    Agree (Twins origin spare) (onFiles (Apply.openDataFile (dataFilePath directory table)))
      (onFiles (Apply.openDataFile (dataFilePath directory table))) := by
  intro cursor one other htwins
  have hfile : (ReplicaFile.data table).Proper := htable
  have hone := htwins.left.obstacle? hhome hfile
  have hother := htwins.right.obstacle? hhome hfile
  have hleads := hhome.of_same htwins.left.directories
  have hfound := hhome.of_same htwins.right.directories
  unfold onFiles
  cases hobstacle : origin.obstacle? ((ReplicaFile.data table).path directory) with
  | some refusal =>
      have hfirst := openDataFile_of_obstacle hleads htable (hone.trans hobstacle)
      have hsecond := openDataFile_of_obstacle hfound htable (hother.trans hobstacle)
      simp only [Store.session, hfirst, hsecond]
      exact .error _ cursor htwins
  | none =>
      obtain ⟨after, hfirst, hedited⟩ :=
        edited_openDataFile hleads htable (hone.trans hobstacle)
      obtain ⟨last, hsecond, hsame⟩ :=
        edited_openDataFile hfound htable (hother.trans hobstacle)
      simp only [Store.session, hfirst, hsecond]
      exact .value _ cursor (htwins.edited hedited hsame)

/-- A base file is replaced by the same content, or something is in the way both times. -/
theorem replaceBaseFile (letter : BaseLetter) (content : Bytes) :
    Agree (Twins origin spare)
      (changeFiles (Apply.replaceBaseFile directory table letter content))
      (changeFiles (Apply.replaceBaseFile directory table letter content)) := by
  intro cursor one other htwins
  have htemp : (ReplicaFile.temp table).Proper := htable
  have hbase : (ReplicaFile.base table letter).Proper := htable
  have htempSame : one.files.obstacle? (tempFilePath directory table) =
      other.files.obstacle? (tempFilePath directory table) :=
    (htwins.left.obstacle? hhome htemp).trans (htwins.right.obstacle? hhome htemp).symm
  have hbaseSame : one.files.obstacle? (baseFilePath directory table letter) =
      other.files.obstacle? (baseFilePath directory table letter) :=
    (htwins.left.obstacle? hhome hbase).trans (htwins.right.obstacle? hhome hbase).symm
  have hone := replaced (hhome.of_same htwins.left.directories) htable letter content
  have hother := replaced (hhome.of_same htwins.right.directories) htable letter content
  unfold changeFiles
  simp only [Store.session]
  generalize Apply.replaceBaseFile directory table letter content one.files = first at hone
  generalize Apply.replaceBaseFile directory table letter content other.files = second at hother
  -- The same is in the way both times, so it comes out the same way.
  cases hone with
  | done after hclear hfree hedited =>
      cases hother with
      | done last _ _ hsame => exact .value () cursor (htwins.edited hedited hsame)
      | unprepared refusal hrefused => simp [htempSame, hrefused] at hclear
      | kept refusal last _ hrefused => simp [hbaseSame, hrefused] at hfree
  | unprepared refusal hrefused =>
      rw [htempSame] at hrefused
      cases hother with
      | done last hclear => simp [hrefused] at hclear
      | unprepared found hfound =>
          obtain rfl := Option.some.inj (hrefused.symm.trans hfound)
          exact .error _ cursor htwins
      | kept found last hclear => simp [hrefused] at hclear
  | kept refusal after hclear hrefused hedited =>
      rw [htempSame] at hclear
      rw [hbaseSame] at hrefused
      cases hother with
      | done last _ hfree => simp [hrefused] at hfree
      | unprepared found hfound => simp [hfound] at hclear
      | kept found last _ hfound hsame =>
          obtain rfl := Option.some.inj (hrefused.symm.trans hfound)
          exact .error _ cursor (htwins.edited hedited hsame)

/-- A base file chunk reads the same, and replaces the base file in the same way. -/
theorem applyBaseFile :
    Agree (Twins origin spare) (Apply.applyBaseFile directory table)
      (Apply.applyBaseFile directory table) := by
  refine bind (read _) fun byte => demand fun letter _ => bind (read _) fun size => ?_
  split
  · exact reject _
  · exact bind (take Twins.append _ _) fun content =>
      bind (replaceBaseFile hhome htable letter content) fun _ => pure _

omit hhome htable in
/-- A block is read and written in the same way. -/
theorem applyNumbered (path : Path) (place : Location) (blockSize number : Nat) :
    Agree (Twins origin spare) (Apply.applyNumbered path place blockSize number)
      (Apply.applyNumbered path place blockSize number) := by
  cases number with
  | zero => exact bind (commit Twins.append) fun _ => pure _
  | succ index =>
      unfold Apply.applyNumbered
      simp only
      split
      · exact reject _
      · exact bind (take Twins.append _ _) fun block =>
          bind (writeBlock _ _ _ _) fun _ => pure _

omit hhome htable in
/-- So is a round of blocks. -/
theorem blockRound (path : Path) (place : Location) (blockSize : Nat) (stats : BlockStats) :
    Agree (Twins origin spare) (Apply.blockRound path place blockSize stats)
      (Apply.blockRound path place blockSize stats) :=
  bind (read _) fun number => bind (applyNumbered path place blockSize number) fun _ => pure _

/-- A block chunk opens the data file at the same place, or fails alike, and writes the same blocks.
-/
theorem applyBlocks :
    Agree (Twins origin spare) (Apply.applyBlocks directory table)
      (Apply.applyBlocks directory table) := by
  refine bind (read _) fun blockSize => ?_
  split
  · exact reject _
  · refine bind (commit Twins.append) fun _ => bind (openDataFile hhome htable) fun place => ?_
    exact loop (applyBlockList_eq _ _ _) (fun stats => Consuming.blockRound _ _ _ stats)
      (fun stats => blockRound _ _ _ stats) {}

omit htable in
/-- Whatever a tag announces agrees. -/
theorem applyTagged (tag : UInt8) :
    Agree (Twins origin spare) (Apply.applyTagged directory tag)
      (Apply.applyTagged directory tag) := by
  unfold Apply.applyTagged
  split
  · exact reject _
  · exact pure _
  · exact readTable Twins.append fun table htable =>
      bind (applyBaseFile hhome htable) fun _ => pure _
  · exact readTable Twins.append fun table htable =>
      bind (applyBlocks hhome htable) fun stats => pure _

omit htable in
/-- So does a round of chunks. -/
theorem chunkRound (stats : ChunkStats) :
    Agree (Twins origin spare) (Apply.chunkRound directory stats)
      (Apply.chunkRound directory stats) :=
  bind (read _) fun tag => bind (applyTagged hhome tag) fun _ => pure _

omit htable in
/-- The chunks of a changeset agree. -/
theorem applyChunks (stats : ChunkStats) :
    Agree (Twins origin spare) (Apply.applyChunks directory stats)
      (Apply.applyChunks directory stats) :=
  loop (applyChunks_eq directory) (fun stats => Consuming.chunkRound directory stats)
    (fun stats => chunkRound hhome stats) stats

end Agree

end

end TableReplica.Apply
