import TableReplica.Error
import TableReplica.Wire.Varint

/-!
# The fields of a changeset

A changeset starts with twelve fixed bytes, its format version, the revision it applies to, the
revision it leads to, and one byte that tells how durably it was written. After this header it is a
sequence of chunks. Each starts with a tag byte and, unless it ends the sequence, the name of the
table it is about. A base file chunk replaces one of the two base files of the table; a block chunk
overwrites blocks of its data file.

A revision on its own, which is handed to and taken from callers, is an integer on the wire with
nothing after it.
-/

namespace TableReplica.Wire

/-- The bytes that every changeset starts with: `FlintChanges`. -/
def magic : Bytes :=
  [0x46, 0x6c, 0x69, 0x6e, 0x74, 0x43, 0x68, 0x61, 0x6e, 0x67, 0x65, 0x73]

/-- The format version that replicas understand. -/
def formatVersion : Nat := 1

/-- The kind of a changeset that was written with full durability, the only kind accepted. -/
def durableKind : UInt8 := 0

/-- The most bytes that a base file or a block may have. -/
def maxPayloadSize : Nat := 64 * 1024 * 1024

/-- The most bytes that a table name may have. -/
def maxTableNameSize : Nat := 255

/-- The first fields of a changeset. -/
structure Header where
  version : Nat := formatVersion
  startRevision : Nat
  endRevision : Nat
  kind : UInt8 := durableKind
  deriving Repr, DecidableEq

/-- Write a header. -/
def Header.encode (header : Header) : Bytes :=
  magic ++ packUint header.version ++ packUint header.startRevision ++
    packUint header.endRevision ++ [header.kind]

/-- What a tag byte announces. -/
inductive ChunkKind where
  | finish
  | baseFile
  | blocks
  deriving Repr, DecidableEq

/-- The kind of chunk that a tag byte announces. -/
def ChunkKind.ofByte? : UInt8 → Option ChunkKind
  | 0 => some finish
  | 1 => some baseFile
  | 2 => some blocks
  | _ => none

/-- Which of the two base files of a table is meant. -/
inductive BaseLetter where
  | a
  | b
  deriving Repr, DecidableEq

namespace BaseLetter

/-- The base file that a byte names: 0x41 or 0x42. -/
def ofByte (byte : UInt8) : Except ProtocolError BaseLetter :=
  if byte = 0x41 then .ok a
  else if byte = 0x42 then .ok b
  else .error (.invalidBaseLetter byte)

/-- The letter in the file name. -/
def text : BaseLetter → String
  | a => "A"
  | b => "B"

end BaseLetter

/-- Whether a byte is one of the letters `a` to `z`. -/
def isLowerLetter (byte : UInt8) : Bool :=
  0x61 ≤ byte && byte ≤ 0x7a

/-- The table name that bytes spell: one or more letters from `a` to `z`. -/
def parseTableName (raw : Bytes) : Except ProtocolError String :=
  if raw = [] then .error .missingTableName
  else if raw.all isLowerLetter then
    .ok (String.ofList (raw.map fun byte => Char.ofNat byte.toNat))
  else .error (.invalidTableName raw)

/-- Write a revision for a caller. -/
def encodeRevision (revision : Nat) : Bytes :=
  packUint revision

/-- Read a revision from a caller, who has to give nothing else. -/
def decodeRevision (encoded : Bytes) : Except ProtocolError Nat :=
  match unpackUint encoded with
  | .value value length =>
    if length = encoded.length then .ok value else .error .invalidRevision
  | _ => .error .invalidRevision

/-- Whether one encoded revision has reached another. -/
def hasReached (revision target : Bytes) : Except ReplicaError Bool := do
  let revision ← (decodeRevision revision).mapError .protocol
  let target ← (decodeRevision target).mapError .protocol
  return target ≤ revision

end TableReplica.Wire
