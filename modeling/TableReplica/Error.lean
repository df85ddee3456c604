import TableReplica.Files.Path
import TableReplica.Files.Refusal
import TableReplica.Text.Quoted
import TableReplica.Text.Utf8

/-!
# What can go wrong

A `ProtocolError` is the first thing found wrong with a changeset. A `ReplicaError` is anything that
ends an operation on a replica: a protocol error, a refusal of the file system, a lock that cannot
be had, a revision that cannot be read, a broken connection or a bad configuration. The wording is
in `message`, and nowhere else.
-/

namespace TableReplica

open Files

/-- The first thing found wrong with a changeset or an encoded revision. -/
inductive ProtocolError where
  | badMagic
  | unsupportedVersion (version : Nat)
  | malformedInteger (what : String)
  | truncated (what : String)
  | timeout (what : String)
  | revisionOrder (startRevision endRevision : Nat)
  | unsupportedKind (kind : UInt8)
  | wrongRevision (changeset current : Nat)
  | unknownChunk (tag : UInt8)
  | missingTableName
  | invalidTableName (name : Bytes)
  | invalidBaseLetter (letter : UInt8)
  | payloadTooLarge (what : String) (size max : Nat)
  | blockOffsetOverflow (index blockSize : Nat)
  | requiredRevisionTooEarly (required endRevision : Nat)
  | trailingJunk (count : Nat)
  | invalidRevision
  deriving Repr, DecidableEq

/-- The text of a protocol error. -/
def ProtocolError.message : ProtocolError → String
  | badMagic => "invalid changeset magic string"
  | unsupportedVersion version => s!"unsupported changeset version {version}"
  | malformedInteger what => s!"couldn't read a valid {what} from changeset"
  | truncated what => s!"unexpected end of changeset while reading {what}"
  | timeout what => s!"timed out waiting for changeset data ({what})"
  | revisionOrder startRevision endRevision =>
    s!"end revision {endRevision} in changeset is not later than start revision {startRevision}"
  | unsupportedKind kind => s!"unsupported changeset type {kind.toNat}"
  | wrongRevision changeset current =>
    s!"changeset is for revision {changeset}, but replica is at revision {current}"
  | unknownChunk tag => s!"unrecognised item type {tag.toNat} in changeset"
  | missingTableName => "missing tablename in changeset"
  | invalidTableName name =>
    "invalid character in tablename " ++ Text.quote (Text.decodeLenient name) ++ " in changeset"
  | invalidBaseLetter letter =>
    "invalid base file letter 0x" ++ Bytes.toHex [letter] ++ " in changeset"
  | payloadTooLarge what size max => s!"{what} of {size} bytes exceeds the maximum of {max}"
  | blockOffsetOverflow index blockSize =>
    s!"block {index} with block size {blockSize} lies beyond addressable offsets"
  | requiredRevisionTooEarly required endRevision =>
    s!"required revision {required} in changeset is earlier than end revision {endRevision}"
  | trailingJunk count => s!"junk found at end of changeset ({count} bytes)"
  | invalidRevision => "invalid revision string"

/-- What was being done to a file when the file system refused. -/
inductive FileAction where
  | openFile
  | createAndOpen
  | createArchive
  | updateBaseFile
  | seek
  deriving Repr, DecidableEq

/-- The text of a file action. -/
def FileAction.message : FileAction → String
  | openFile => "failed to open"
  | createAndOpen => "failed to create and open"
  | createArchive => "failed to create changeset archive"
  | updateBaseFile => "couldn't update base file"
  | seek => "failed to seek in"

/-- Why a directory could not be locked. -/
inductive LockRefusal where
  /-- The lock file cannot be opened. -/
  | unopenable (lockFile : Path) (refusal : Refusal)
  /-- Another writer holds the lock. -/
  | held
  deriving Repr, DecidableEq

/-- The text of a lock refusal. -/
def LockRefusal.message : LockRefusal → String
  | unopenable lockFile refusal =>
    "couldn't open lock file " ++ lockFile.text ++ ": " ++ refusal.message
  | held => "already locked by another process"

/-- Why a configuration file cannot be used. -/
inductive ConfigFault where
  /-- The file cannot be read as text. -/
  | unreadable (path : Path) (reason : String)
  /-- The text is no valid configuration. -/
  | invalid (path : Path)
  deriving Repr, DecidableEq

/-- The text of a configuration fault. -/
def ConfigFault.message : ConfigFault → String
  | unreadable path reason => "cannot read " ++ path.text ++ ": " ++ reason
  | invalid path => "invalid " ++ path.text ++ ": TOML parse error"

/-- What ends an operation on a replica. -/
inductive ReplicaError where
  | protocol (error : ProtocolError)
  | storage (action : FileAction) (path : Path) (refusal : Refusal)
  | lock (directory : Path) (refusal : LockRefusal)
  | revision (directory : Path) (detail : String)
  | transport (reason : String)
  | config (fault : ConfigFault)
  deriving Repr, DecidableEq

namespace ReplicaError

/-- The text of a replica error. -/
def message : ReplicaError → String
  | protocol error => "changeset rejected: " ++ error.message
  | storage action path refusal => action.message ++ " " ++ path.text ++ ": " ++ refusal.message
  | lock directory refusal => "unable to lock " ++ directory.text ++ ": " ++ refusal.message
  | revision directory detail =>
    "failed to read current revision of " ++ directory.text ++ ": " ++ detail
  | transport reason => "connection failed while reading changeset: " ++ reason
  | config fault => "configuration error: " ++ fault.message

/-- The text of what a replica error was caused by, if it has a cause of its own. -/
def cause? : ReplicaError → Option String
  | protocol error => some error.message
  | storage _ _ refusal => some refusal.message
  | transport reason => some reason
  | _ => none

/-- Whether a changeset or an encoded revision was found wrong. -/
def isProtocol : ReplicaError → Bool
  | protocol _ => true
  | _ => false

/-- Whether the data did not arrive in time. -/
def isTimeout : ReplicaError → Bool
  | protocol (.timeout _) => true
  | _ => false

/-- The number of the file system's refusal, if that is what happened and it has one. -/
def osCode? : ReplicaError → Option Nat
  | storage _ _ refusal => refusal.code?
  | _ => none

end ReplicaError

end TableReplica
