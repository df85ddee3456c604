import TableReplica.Error
import TableReplica.Transport.Connection
import TableReplica.Wire.Varint

/-!
# Reading a stream field by field

A cursor holds what a stream has delivered so far. Its bytes are either pending, which means
decoded and not yet committed, or unread. Every reading operation first looks at the unread bytes
and asks the connection for more only while they do not suffice: `await` waits for unread bytes of
any kind, and `awaitLength` for a number of them. No operation loses a byte: an operation that fails
leaves the unread bytes where they are.
-/

namespace TableReplica.Transport

open Wire

/-- A stream that is being read. -/
structure Cursor where
  /-- What the reads to come will find. -/
  incoming : Connection
  /-- Whether a read has met the end of the stream. -/
  ended : Bool := false
  /-- Bytes decoded and not yet committed. -/
  pending : Bytes := []
  /-- Bytes received and not yet decoded. -/
  unread : Bytes := []
  /-- The number of bytes committed. -/
  committed : Nat := 0
  deriving Repr, DecidableEq

namespace Cursor

/-- The number of bytes decoded or taken so far, committed or not. -/
def consumed (cursor : Cursor) : Nat :=
  cursor.committed + cursor.pending.length

/-- The number of bytes that the cursor holds. -/
def held (cursor : Cursor) : Nat :=
  cursor.pending.length + cursor.unread.length

/-- The number of bytes that are still to be decoded, received or not. -/
def supply (cursor : Cursor) : Nat :=
  cursor.unread.length + cursor.incoming.size

/-- The cursor with other reads to come. -/
def facing (cursor : Cursor) (incoming : Connection) : Cursor :=
  { cursor with incoming }

/-- The cursor with other bytes unread. -/
def showing (cursor : Cursor) (unread : Bytes) : Cursor :=
  { cursor with unread }

/-- The cursor with more bytes unread. -/
def receive (cursor : Cursor) (bytes : Bytes) : Cursor :=
  { cursor with unread := cursor.unread ++ bytes }

/-- Read once. The answer tells whether any bytes came. -/
def fill (what : String) (cursor : Cursor) : Except ReplicaError Bool × Cursor :=
  if cursor.ended then (.ok false, cursor)
  else
    match cursor.incoming with
    | [] => (.ok false, { cursor with ended := true })
    | .data [] :: rest => (.ok false, { cursor with incoming := rest, ended := true })
    | .data (byte :: more) :: rest => (.ok true, (cursor.facing rest).receive (byte :: more))
    | .fault reason :: rest => (.error (.transport reason), { cursor with incoming := rest })
    | .stall :: _ => (.error (.protocol (.timeout what)), cursor)

/-- A read that brings bytes takes them from the connection. -/
theorem fill_shortens {what : String} {cursor after : Cursor}
    (h : cursor.fill what = (.ok true, after)) :
    after.incoming.length < cursor.incoming.length := by
  unfold fill at h
  split at h
  · cases h
  · split at h <;> cases h
    next eq => simp [eq, facing, receive]

/-- Read until the unread bytes are as wanted. The answer is false if the stream ends first. -/
def await (what : String) (wanted : Bytes → Bool) (cursor : Cursor) :
    Except ReplicaError Bool × Cursor :=
  if wanted cursor.unread then (.ok true, cursor)
  else
    match _h : cursor.fill what with
    | (.ok true, after) => await what wanted after
    | (.ok false, after) => (.ok false, after)
    | (.error error, after) => (.error error, after)
termination_by cursor.incoming.length
decreasing_by exact fill_shortens _h

/-- How many bytes a buffer lacks to have `count` of them. -/
def lacking : Nat → Bytes → Nat
  | 0, _ => 0
  | count + 1, [] => count + 1
  | count + 1, _ :: rest => lacking count rest

/-- The bytes of the pieces that have come, the last of which is the first of the list. -/
def assemble (pieces : List Bytes) : Bytes :=
  pieces.foldl (fun later piece => piece ++ later) []

/-- Read until `missing` more bytes have come after the pieces that have come already, and leave
all of them unread. The answer is false if the stream ends first. -/
def gather (what : String) (missing : Nat) (pieces : List Bytes) (cursor : Cursor) :
    Except ReplicaError Bool × Cursor :=
  if missing = 0 then (.ok true, cursor.showing (assemble pieces))
  else
    match _h : (cursor.showing []).fill what with
    | (.ok true, after) =>
      gather what (lacking missing after.unread) (after.unread :: pieces) after
    | (.ok false, after) => (.ok false, after.showing (assemble pieces))
    | (.error error, after) => (.error error, after.showing (assemble pieces))
termination_by cursor.incoming.length
decreasing_by
  show _ < (cursor.showing []).incoming.length
  exact fill_shortens _h

/-- Read until at least `count` bytes are unread. The answer is false if the stream ends first.
This is `await` for a number of bytes, but it joins the pieces that come only once. -/
def awaitLength (what : String) (count : Nat) (cursor : Cursor) :
    Except ReplicaError Bool × Cursor :=
  match lacking count cursor.unread with
  | 0 => (.ok true, cursor)
  | more + 1 => gather what (more + 1) [cursor.unread] cursor

/-- Count the first `length` unread bytes as decoded. -/
def advance (cursor : Cursor) (length : Nat) : Cursor :=
  { cursor with
    pending := cursor.pending ++ cursor.unread.take length
    unread := cursor.unread.drop length }

/-- Wait until at least `count` bytes are unread. -/
def ensure (what : String) (count : Nat) (cursor : Cursor) : Except ReplicaError Unit × Cursor :=
  match cursor.awaitLength what count with
  | (.ok true, after) => (.ok (), after)
  | (.ok false, after) => (.error (.protocol (.truncated what)), after)
  | (.error error, after) => (.error error, after)

/-- Wait until `count` bytes are unread or the stream has ended. -/
def readAhead (what : String) (count : Nat) (cursor : Cursor) :
    Except ReplicaError Unit × Cursor :=
  match cursor.awaitLength what count with
  | (.ok _, after) => (.ok (), after)
  | (.error error, after) => (.error error, after)

/-- Decode the given bytes if the unread bytes start with them. Nothing is read. -/
def skipLiteral (literal : Bytes) (cursor : Cursor) : Bool × Cursor :=
  if literal.isPrefixOf cursor.unread then (true, cursor.advance literal.length)
  else (false, cursor)

/-- Decode one byte. -/
def readByte (what : String) (cursor : Cursor) : Except ReplicaError UInt8 × Cursor :=
  match cursor.ensure what 1 with
  | (.ok (), after) =>
    match after.unread with
    | byte :: _ => (.ok byte, after.advance 1)
    | [] => (.error (.protocol (.truncated what)), after)
  | (.error error, after) => (.error error, after)

/-- Decode the value at the front of the unread bytes, for which the wait is over. -/
def settle {α : Type} (what : String) (unpack : Bytes → Decoded α) (cursor : Cursor) :
    Except ReplicaError α × Cursor :=
  match unpack cursor.unread with
  | .value value length => (.ok value, cursor.advance length)
  | .malformed => (.error (.protocol (.malformedInteger what)), cursor)
  | .needMore => (.error (.protocol (.truncated what)), cursor)

/-- Wait for a verdict on the unread bytes, and decode the value if there is one. -/
def decode {α : Type} (what : String) (unpack : Bytes → Decoded α) (cursor : Cursor) :
    Except ReplicaError α × Cursor :=
  match cursor.await what fun unread => (unpack unread).settled with
  | (.ok _, after) => after.settle what unpack
  | (.error error, after) => (.error error, after)

/-- Decode an integer. -/
def readUint (what : String) (cursor : Cursor) : Except ReplicaError Nat × Cursor :=
  cursor.decode what unpackUint

/-- The length field at the front of a buffer, if it is complete and above the bound. -/
def excess? (max : Nat) (buffer : Bytes) : Option Nat :=
  match unpackUint buffer with
  | .value size _ => if max < size then some size else none
  | _ => none

/-- Decode a byte string of at most `max` bytes. Its length is judged as soon as it is complete,
before the bytes themselves are waited for. -/
def readString (what : String) (max : Nat) (cursor : Cursor) :
    Except ReplicaError Bytes × Cursor :=
  match cursor.await what fun unread => (unpackUint unread).settled with
  | (.ok _, after) =>
    match excess? max after.unread with
    | some size => (.error (.protocol (.payloadTooLarge what size max)), after)
    | none =>
      match after.awaitLength what (stringSpan after.unread) with
      | (.ok _, full) => full.settle what unpackString
      | (.error error, full) => (.error error, full)
  | (.error error, after) => (.error error, after)

/-- Wait for the end of the stream, which no unread byte may come before. -/
def expectEnd (cursor : Cursor) : Except ReplicaError Unit × Cursor :=
  match cursor.await "end of changeset" (· ≠ []) with
  | (.ok true, after) => (.error (.protocol (.trailingJunk after.unread.length)), after)
  | (.ok false, after) => (.ok (), after)
  | (.error error, after) => (.error error, after)

end Cursor

end TableReplica.Transport
