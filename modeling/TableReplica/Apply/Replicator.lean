import TableReplica.Apply.Chunks
import TableReplica.Config

/-!
# Applying a changeset

A replicator applies changesets to one directory. An apply takes the lock, reads the header, opens
the archive, checks the revision if the tables are trusted, applies the chunks and reads the footer.
Any failure ends it at once, in the stage it had reached; what was written before stays, and the
lock is given back in every case.

A revision reader tells which revision the tables of a directory are at. It is asked only when the
caller vouches that the tables are intact, and once. A `RevisionReader` answers for the directory as
such. A `FileReader` looks at the files as they are when it is asked, and an apply with one is told
by `applyAsking`.
-/

namespace TableReplica.Apply

open Files Transport Wire

/-- The answer to which revision the tables of a directory are at. -/
abbrev RevisionReader := Path → Except ReplicaError Nat

namespace RevisionReader

/-- The reader that always gives the same answer. -/
def fixed (revision : Nat) : RevisionReader := fun _ => .ok revision

/-- The reader that always fails. -/
def failing (detail : String) : RevisionReader := fun directory =>
  .error (.revision directory detail)

/-- The reader of a replica whose revision cannot be told. -/
def unknown : RevisionReader := failing "no revision source configured"

end RevisionReader

/-- The answer of a reader that looks at the files. -/
abbrev FileReader := Path → FileSystem → Except ReplicaError Nat

/-- How far an apply has come. -/
inductive Stage where
  | awaitingLock
  | readingHeader
  | checkingRevision
  | readingChunks
  | readingFooter
  | done
  deriving Repr, DecidableEq

namespace Stage

/-- All stages, in order. -/
def all : List Stage :=
  [awaitingLock, readingHeader, checkingRevision, readingChunks, readingFooter, done]

/-- The text of a stage. -/
def text : Stage → String
  | awaitingLock => "awaiting lock"
  | readingHeader => "reading header"
  | checkingRevision => "checking revision"
  | readingChunks => "reading chunks"
  | readingFooter => "reading footer"
  | done => "done"

end Stage

/-- A failed apply: the stage it had reached and the error. -/
structure Failure where
  stage : Stage
  error : ReplicaError
  deriving Repr, DecidableEq

/-- What an apply did. -/
structure ApplyStats where
  /-- Base files replaced. -/
  baseFiles : Nat
  /-- Blocks written, over all tables. -/
  blocksWritten : Nat
  /-- Bytes of the stream, from the header to the footer. -/
  bytesConsumed : Nat
  /-- Bytes copied to the archive. -/
  bytesArchived : Nat
  deriving Repr, DecidableEq

/-- The result of an apply that succeeded. -/
structure Applied where
  startRevision : Nat
  endRevision : Nat
  /-- The revision that the replica has to reach before it is consistent again. -/
  requiredRevision : Nat
  stats : ApplyStats
  deriving Repr, DecidableEq

/-- The required revision as it is handed to callers. -/
def Applied.encodedRequiredRevision (applied : Applied) : Bytes :=
  encodeRevision applied.requiredRevision

/-- A directory with the settings for applying changesets to it. -/
structure Replicator where
  directory : Path
  config : Config := {}
  revisions : RevisionReader := .unknown

/-- Everything there is after an apply. -/
structure Outcome where
  result : Except Failure Applied
  /-- The part of the connection that was not read. -/
  remaining : Connection
  files : FileSystem

/-- Run an action as a stage of an apply. -/
def during {α : Type} (stage : Stage) (action : Action α) : ActionOf Failure α := fun session =>
  match action session with
  | .ok value after => .ok value after
  | .error error after => .error { stage, error } after

/-- Fail with a protocol error unless the condition holds. -/
def require (condition : Prop) [Decidable condition] (error : ProtocolError) : Action Unit :=
  if condition then pure () else reject error

/-- Read the header. Its bytes stay pending, so that they can go to the archive once there is
one. -/
def readHeader : Action Header := do
  readAhead "changeset header" magic.length
  let found ← skipLiteral magic
  require (found = true) .badMagic
  let version ← readUint "version number"
  require (version = formatVersion) (.unsupportedVersion version)
  let startRevision ← readUint "start revision"
  let endRevision ← readUint "end revision"
  require (startRevision < endRevision) (.revisionOrder startRevision endRevision)
  let kind ← readByte "changeset type"
  require (kind = durableKind) (.unsupportedKind kind)
  return { version, startRevision, endRevision, kind }

/-- Check the answer to which revision a trusted replica is at: it has to be the revision that the
changeset applies to. -/
def checkAnswer (trusted : Bool) (startRevision : Nat) (answer : Except ReplicaError Nat) :
    Action Unit :=
  if trusted then
    match answer with
    | .error error => throw error
    | .ok current => require (current = startRevision) (.wrongRevision startRevision current)
  else pure ()

/-- Read the footer, which has to be the end of the stream. The result is the required revision. -/
def readFooter (endRevision : Nat) : Action Nat := do
  let required ← readUint "required revision"
  require (endRevision ≤ required) (.requiredRevisionTooEarly required endRevision)
  expectEnd
  commit
  return required

/-- The result of an apply that has come to its end. -/
def summarize (header : Header) (stats : ChunkStats) (required : Nat) (session : Session) :
    Applied :=
  { startRevision := header.startRevision
    endRevision := header.endRevision
    requiredRevision := required
    stats :=
      { baseFiles := stats.baseFiles
        blocksWritten := stats.blocks
        bytesConsumed := session.consumed
        bytesArchived := session.archived } }

namespace Replicator

/-- Read the header, and open the archive with the bytes of the header in it. -/
def openChangeset (replicator : Replicator) : Action Header := do
  let header ← readHeader
  let archive ← onFiles
    (Archive.create replicator.directory header.startRevision replicator.config.maxChangesets)
  attachArchive archive
  commit
  return header

/-- Check that a trusted replica is at the revision that the changeset applies to. -/
def checkRevision (replicator : Replicator) (trusted : Bool) (startRevision : Nat) :
    Action Unit :=
  checkAnswer trusted startRevision (replicator.revisions replicator.directory)

/-- Check the same with a reader that looks at the files as they are now. -/
def checkFiles (replicator : Replicator) (reader : FileReader) (trusted : Bool)
    (startRevision : Nat) : Action Unit := fun session =>
  checkAnswer trusted startRevision (reader replicator.directory session.files) session

/-- Apply the changeset that a session reads, with a check of its start revision. -/
def applyChecked (replicator : Replicator) (check : Nat → Action Unit) :
    ActionOf Failure Applied := do
  let header ← during .readingHeader replicator.openChangeset
  during .checkingRevision (check header.startRevision)
  let stats ← during .readingChunks (applyChunks replicator.directory {})
  let required ← during .readingFooter (readFooter header.endRevision)
  fun session => .ok (summarize header stats required session) session

/-- Apply the changeset that a session reads, under the lock. -/
def applyLocked (replicator : Replicator) (trusted : Bool) : ActionOf Failure Applied :=
  replicator.applyChecked (replicator.checkRevision trusted)

/-- Take the lock for an action, and give it back afterwards. -/
def underLock (replicator : Replicator) (action : ActionOf Failure Applied) (session : Session) :
    Outcome :=
  match acquireLock replicator.directory session.files with
  | .error error =>
    { result := .error { stage := .awaitingLock, error }
      remaining := session.cursor.incoming
      files := session.files }
  | .ok (lock, files) =>
    match action { session with files } with
    | .ok applied session =>
      { result := .ok applied
        remaining := session.cursor.incoming
        files := releaseLock lock session.files }
    | .error failure session =>
      { result := .error failure
        remaining := session.cursor.incoming
        files := releaseLock lock session.files }

/-- Apply the changeset that a session reads. `trusted` tells that the current state of the tables
is known to be good, so that their revision can be checked. -/
def applySession (replicator : Replicator) (trusted : Bool) (session : Session) : Outcome :=
  replicator.underLock (replicator.applyLocked trusted) session

/-- Apply the changeset that a connection brings. -/
def apply (replicator : Replicator) (trusted : Bool) (connection : Connection)
    (files : FileSystem) : Outcome :=
  replicator.applySession trusted (.start connection files)

/-- Apply the changeset that a connection brings, asking a reader that looks at the files. -/
def applyAsking (replicator : Replicator) (reader : FileReader) (trusted : Bool)
    (connection : Connection) (files : FileSystem) : Outcome :=
  replicator.underLock (replicator.applyChecked (replicator.checkFiles reader trusted))
    (.start connection files)

/-- A reader that does not look at the files is asked in the same way. -/
theorem apply_eq_applyAsking (replicator : Replicator) :
    replicator.apply = replicator.applyAsking fun directory _ => replicator.revisions directory :=
  rfl

/-- What an apply hands to its caller: the required revision, encoded. -/
def applyForCaller (replicator : Replicator) (trusted : Bool) (connection : Connection)
    (files : FileSystem) : Except Failure Bytes :=
  (replicator.apply trusted connection files).result.map Applied.encodedRequiredRevision

/-- Apply the changeset that a feed brings. -/
def applyFeed (replicator : Replicator) (trusted : Bool) (feed : Feed) (files : FileSystem) :
    Outcome :=
  replicator.applySession trusted (.startFeed feed files)

end Replicator

end TableReplica.Apply
