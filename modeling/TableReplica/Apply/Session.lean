import TableReplica.Apply.Directory
import TableReplica.Transport.Feed

/-!
# Consuming a stream

A session is a stream that is being read, the archive that its consumed bytes go to, and the files.
The stream is a connection whose reads are known beforehand, or else a feed answers each read when
it comes. An action is a step of a session that may fail; whatever it did before it failed stays
done. Decoding fields only moves the cursor; committing and taking also append to the archive.
-/

namespace TableReplica.Apply

open Files Transport

/-- A stream, its archive and the files. -/
structure Session where
  cursor : Cursor
  /-- What answers the reads, if they are not known beforehand. -/
  feed : Option Feed := none
  archive : Archive := .disabled
  files : FileSystem
  deriving Repr, DecidableEq

/-- A step of a session that may fail with an error of type `ε`. -/
abbrev ActionOf (ε α : Type) := EStateM ε Session α

/-- A step of a session that may fail. -/
abbrev Action (α : Type) := ActionOf ReplicaError α

namespace Session

/-- A session that starts to read a connection. -/
def start (connection : Connection) (files : FileSystem) : Session :=
  { cursor := { incoming := connection }, files }

/-- A session that starts to read from a feed. -/
def startFeed (feed : Feed) (files : FileSystem) : Session :=
  { cursor := { incoming := [] }, feed := some feed, files }

/-- The number of bytes consumed. -/
def consumed (session : Session) : Nat := session.cursor.consumed

/-- The number of bytes in the archive. -/
def archived (session : Session) : Nat := session.archive.written

/-- Append to the archive. -/
def appendArchive (session : Session) (data : Bytes) : Session :=
  let (archive, files) := session.archive.append data session.files
  { session with archive, files }

end Session

/-- Fail with a protocol error. -/
def reject {α : Type} (error : ProtocolError) : Action α :=
  throw (.protocol error)

/-- Go on with a value, or fail with a protocol error. -/
def demand {α : Type} : Except ProtocolError α → Action α
  | .ok value => pure value
  | .error error => reject error

/-- Run an operation of the cursor. -/
def read {α : Type} (operation : Cursor → Except ReplicaError α × Cursor) : Action α :=
  fun session =>
    match session.feed with
    | none =>
      match operation session.cursor with
      | (.ok value, cursor) => .ok value { session with cursor }
      | (.error error, cursor) => .error error { session with cursor }
    | some feed =>
      match feed.drive operation session.files.openContent session.cursor with
      | (.ok value, cursor, feed) => .ok value { session with cursor, feed := some feed }
      | (.error error, cursor, feed) => .error error { session with cursor, feed := some feed }

/-- Run an operation of the file system that leaves the files as they are if it fails. -/
def onFiles {α : Type} (operation : FileSystem → Except ReplicaError (α × FileSystem)) :
    Action α :=
  fun session =>
    match operation session.files with
    | .ok (value, files) => .ok value { session with files }
    | .error error => .error error session

/-- Decode the given bytes if the unread bytes start with them. -/
def skipLiteral (literal : Bytes) : Action Bool :=
  fun session =>
    let (found, cursor) := session.cursor.skipLiteral literal
    .ok found { session with cursor }

/-- Wait until at least `count` bytes are unread. -/
def ensure (what : String) (count : Nat) : Action Unit := read (·.ensure what count)

/-- Wait until `count` bytes are unread or the stream has ended. -/
def readAhead (what : String) (count : Nat) : Action Unit := read (·.readAhead what count)

/-- Decode one byte. -/
def readByte (what : String) : Action UInt8 := read (·.readByte what)

/-- Decode an integer. -/
def readUint (what : String) : Action Nat := read (·.readUint what)

/-- Decode a byte string of at most `max` bytes. -/
def readString (what : String) (max : Nat) : Action Bytes := read (·.readString what max)

/-- Wait for the end of the stream, which no unread byte may come before. -/
def expectEnd : Action Unit := read (·.expectEnd)

/-- Archive what was decoded and have done with it. Nothing happens if nothing was decoded. -/
def commit : Action Unit := fun session =>
  let cursor := session.cursor
  if cursor.pending = [] then .ok () session
  else
    let done := session.appendArchive cursor.pending
    .ok () { done with
      cursor := { cursor with
        pending := []
        committed := cursor.committed + cursor.pending.length }
      feed := session.feed.map (·.cut cursor.pending.length) }

/-- Archive the first `count` unread bytes and have done with them. -/
def takeUnread (count : Nat) : Action Bytes := fun session =>
  let cursor := session.cursor
  let data := Bytes.front cursor.unread count
  let done := session.appendArchive data
  .ok data { done with
    cursor := { cursor with
      unread := cursor.unread.drop count
      committed := cursor.committed + data.length }
    feed := session.feed.map (·.cut data.length) }

/-- Take exactly `count` bytes off the stream. They and all bytes before them are archived first. -/
def take (what : String) (count : Nat) : Action Bytes := do
  commit
  ensure what count
  takeUnread count

/-- Use another archive from here on. -/
def attachArchive (archive : Archive) : Action Unit := fun session =>
  .ok () { session with archive }

/-- Use no archive from here on. -/
def closeArchive : Action Unit := attachArchive .disabled

end TableReplica.Apply
