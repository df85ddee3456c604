import TableReplica.Files.Operations
import TableReplica.Wire.Changeset

/-!
# The directory of a replica

The names of the files in a replica directory: for each table a data file, two base files and a
temporary file, for each archived changeset an archive, and one lock file.

A writer locks the lock file of the directory, which it makes if there is none and never changes.
The lock is exclusive: while it is held, taking it fails at once.

An archive is a copy of the stream that is made while the stream is consumed. It starts empty,
whatever an earlier archive of the same name held, and grows by appending. With a retention count
of zero there is none, and appending does nothing.
-/

namespace TableReplica.Apply

open Files Wire

/-- The file whose blocks a block chunk overwrites. -/
def dataFilePath (directory : Path) (table : String) : Path :=
  directory.join (table ++ ".DB")

/-- One of the two base files of a table. -/
def baseFilePath (directory : Path) (table : String) (letter : BaseLetter) : Path :=
  directory.join (table ++ ".base" ++ letter.text)

/-- The file in which the next content of a base file is prepared. -/
def tempFilePath (directory : Path) (table : String) : Path :=
  directory.join (table ++ ".tmp")

/-- The name of the archive of the changeset that applies to a revision. -/
def archiveName (startRevision : Nat) : String :=
  "changes" ++ toString startRevision

/-- The archive of the changeset that applies to a revision. -/
def archivePath (directory : Path) (startRevision : Nat) : Path :=
  directory.join (archiveName startRevision)

/-- The name of the lock file. -/
def lockFileName : String := "tablerepl.lock"

/-- The file whose lock stands for the whole directory. -/
def lockFilePath (directory : Path) : Path :=
  directory.join lockFileName

/-- Take the lock on a directory. -/
def acquireLock (directory : Path) (fs : FileSystem) :
    Except ReplicaError (Location × FileSystem) :=
  match fs.openOrCreate (lockFilePath directory) with
  | .error refusal => .error (.lock directory (.unopenable (lockFilePath directory) refusal))
  | .ok (place, opened) =>
    if place ∈ opened.locked then .error (.lock directory .held)
    else .ok (place, { opened with locked := place :: opened.locked })

/-- Give a lock back. -/
def releaseLock (place : Location) (fs : FileSystem) : FileSystem :=
  { fs with locked := fs.locked.erase place }

/-- Where the consumed bytes of a stream are copied to. -/
structure Archive where
  /-- The open archive file, if there is one. -/
  target : Option (Path × Location) := none
  /-- The number of bytes written to it. -/
  written : Nat := 0
  deriving Repr, DecidableEq

namespace Archive

/-- No archive. -/
def disabled : Archive := {}

/-- Whether there is an archive file. -/
def isEnabled (archive : Archive) : Bool :=
  archive.target.isSome

/-- The path of the archive file. -/
def path? (archive : Archive) : Option Path :=
  archive.target.map (·.1)

/-- Open the archive of the changeset that applies to a revision. -/
def create (directory : Path) (startRevision : Nat) (retention : UInt32) (fs : FileSystem) :
    Except ReplicaError (Archive × FileSystem) :=
  if retention = 0 then .ok (disabled, fs)
  else
    let path := archivePath directory startRevision
    match fs.createEmpty path with
    | .error refusal => .error (.storage .createArchive path refusal)
    | .ok (place, opened) => .ok ({ target := some (path, place) }, opened)

/-- Append to the archive. -/
def append (archive : Archive) (data : Bytes) (fs : FileSystem) : Archive × FileSystem :=
  match archive.target with
  | none => (archive, fs)
  | some (_, place) =>
    ({ archive with written := archive.written + data.length },
      fs.write place archive.written data)

end Archive

end TableReplica.Apply
