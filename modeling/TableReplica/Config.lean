import TableReplica.Error
import TableReplica.Files.Operations
import TableReplica.Text.Integer
import TableReplica.Toml.Document

/-!
# Configuration

A configuration holds one number, the count of raw changesets to keep; zero means that none is
archived. Counts given as signed numbers are clamped to the range of the field, and a value of the
environment that is no number counts as zero.

A configuration file is a TOML document. Its key `max_changesets` may be missing, and other keys do
not matter.
-/

namespace TableReplica

open Files

/-- The configuration of a replica. -/
structure Config where
  /-- The number of raw changesets to keep. -/
  maxChangesets : UInt32 := 0
  deriving Repr, DecidableEq

namespace Config

/-- The nearest count that the field can hold. -/
def clampCount (count : Int) : UInt32 :=
  (min count.toNat (UInt32.size - 1)).toUInt32

/-- The configuration with another count. -/
def withMaxChangesets (config : Config) (count : Int) : Config :=
  { config with maxChangesets := clampCount count }

/-- Whether changesets are archived. -/
def archives (config : Config) : Bool :=
  0 < config.maxChangesets

/-- The count that a text asks for. White space around the number does not matter. -/
def readCount (chars : List Char) : UInt32 :=
  match Text.signed? (Text.trim chars) with
  | some count => clampCount count
  | none => 0

/-- The configuration that the value of the environment variable asks for, if it is set. -/
def ofEnvironment (value? : Option Bytes) : Config :=
  match value?.bind Text.decode? with
  | some chars => { maxChangesets := readCount chars }
  | none => {}

/-- The key of the number of raw changesets to keep. -/
def countKey : List Char := "max_changesets".toList

/-- The configuration that a document describes: the count has to be an integer of 32 bits. -/
def ofDocument? (root : Toml.Entries) : Option Config :=
  match root.get? countKey with
  | none => some {}
  | some (.leaf (.integer value)) =>
    if 0 ≤ value ∧ value < UInt32.size then some { maxChangesets := value.toNat.toUInt32 } else none
  | some _ => none

/-- The configuration in a file. -/
def load (path : Path) (fs : FileSystem) : Except ReplicaError Config :=
  match fs.readFile path with
  | .error refusal => .error (.config (.unreadable path refusal.message))
  | .ok content =>
    match Text.decode? content with
    | none => .error (.config (.unreadable path "stream did not contain valid UTF-8"))
    | some text =>
      match (Toml.parse? text).bind ofDocument? with
      | some config => .ok config
      | none => .error (.config (.invalid path))

end Config

end TableReplica
