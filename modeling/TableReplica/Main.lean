import TableReplica.CommandLine.Program

/-!
# The command line

The outer layer of the program: it finds out what the machine offers, runs the program on that and
makes the disk agree with the files that the run leaves. What a run looks at is known beforehand:
the places on the way to each path of the command line, and what lies in the directory of the
replica. Standard input is read to its end or until the deadline, whichever comes first.
-/

namespace TableReplica.CommandLine

open Apply Files Transport

/-- The environment variable for the number of changesets to keep. -/
def retentionVariable : String := "TABLEREPL_MAX_CHANGESETS"

/-- The text of a place. -/
def placeText (place : Location) : String := "/" ++ "/".intercalate place

/-- The place that an absolute text without dots names. -/
def placeOf (text : String) : Location :=
  (Path.ofText [] text).steps.filterMap fun step =>
    match step with
    | .name name => some name
    | _ => none

/-- The places that a walk may look at, the one that it ends at first. -/
def visited (path : Path) : List Location :=
  path.steps.foldl
    (fun seen step =>
      match step, seen with
      | .name name, place :: _ => (place ++ [name]) :: seen
      | .up, place :: _ => place.dropLast :: seen
      | _, _ => seen)
    [path.origin]

/-- The place that a walk ends at. -/
def destination (path : Path) : Location :=
  (visited path).headD path.origin

/-- The names in a directory, or none if the place is no directory. -/
def namesIn (place : Location) : IO (List String) := do
  let path := (← IO.currentDir) / placeText place
  if ← path.isDir then return (← path.readDir).toList.map (·.fileName) else return []

/-- What rests at a place on the disk. -/
def entryAt? (place : Location) : IO (Option Entry) := do
  let path := (← IO.currentDir) / placeText place
  if ← path.isDir then return some .directory
  else if ← path.pathExists then return some (.file ⟨← IO.FS.readBinFile path⟩)
  else return none

/-- The part of the disk that applying a changeset may look at. -/
def survey (arguments : ApplyArguments) (workingDirectory : Location) : IO FileSystem := do
  let directory := Path.ofText workingDirectory arguments.directory
  let texts := arguments.input?.toList ++ arguments.config?.toList
  let paths := directory :: texts.map (Path.ofText workingDirectory)
  let replica := destination directory
  let inside := (← namesIn replica).map fun name => replica ++ [name]
  let places := (paths.flatMap visited ++ inside).eraseDups
  let entries ← places.filterMapM fun place => do
    return (← entryAt? place).map fun entry => (place, entry)
  return { entries }

/-- Lock a file of the disk for as long as the handle is kept. There is no handle if the file is
missing or another process has locked it; the flag tells whether it is the latter. -/
def lockFile (place : Location) : IO (Option IO.FS.Handle × Bool) := do
  if (← entryAt? place).any (· ≠ .directory) then
    let handle ← IO.FS.Handle.mk (placeText place) .readWrite
    if ← handle.tryLock then return (some handle, false) else return (none, true)
  else return (none, false)

/-- Make a disk that agrees with `before` agree with `after`. -/
def store (before after : FileSystem) : IO Unit := do
  for (place, _) in before.entries do
    if (after.get? place).isNone then IO.FS.removeFile (placeText place)
  for (place, entry) in after.entries.reverse do
    if before.get? place ≠ some entry then
      match entry with
      | .directory => IO.FS.createDir (placeText place)
      | .file content => IO.FS.writeBinFile (placeText place) content.packed

/-- Note every piece that standard input brings, the last one first. -/
def gather (pieces : IO.Ref Connection) : IO Unit := do
  let input ← IO.getStdin
  try
    repeat
      let piece ← input.read Pipe.fetchLimit.toUSize
      if piece.isEmpty then break
      pieces.modify (.data piece.toList :: ·)
  catch error => pieces.modify (.fault error.toString :: ·)

/-- What standard input brings before the clock shows `deadline`, in milliseconds. -/
def receive (deadline : Nat) : IO Connection := do
  let pieces ← IO.mkRef []
  let reader ← IO.asTask (gather pieces) .dedicated
  repeat
    if (← IO.hasFinished reader) || deadline ≤ (← IO.monoMsNow) then break
    IO.sleep 5
  let ending := if ← IO.hasFinished reader then [] else [Arrival.stall]
  return (← pieces.get).reverse ++ ending

/-- Print how a run ends. -/
def announce (ending : Ending) : IO UInt32 := do
  (← IO.getStdout).putStr ending.output
  (← IO.getStdout).flush
  if let some report := ending.report? then
    (← IO.getStderr).putStrLn ("Error: " ++ report.text)
  return ending.exitCode.toUInt32

/-- Run the program on this machine. -/
def runHere (arguments : List String) : IO UInt32 := do
  let workingDirectory := placeOf (← IO.currentDir).toString
  let retentionVariable? := (← IO.getEnv retentionVariable).map Bytes.ofText
  let now ← IO.monoMsNow
  let machine : Machine :=
    { files := {}
      workingDirectory
      standardInput := []
      retentionVariable?
      clock := now / 1000 }
  match parse retentionVariable? arguments with
  | .ok { command := .apply apply, .. } =>
    let standardInput ←
      if apply.input?.isSome then pure [] else receive (now + apply.timeout * 1000)
    let lockPlace := destination (lockFilePath (.ofText workingDirectory apply.directory))
    let (handle?, busy) ← lockFile lockPlace
    let found ← survey apply workingDirectory
    let files := { found with locked := if busy then [lockPlace] else [] }
    let ending := run { machine with standardInput, files } arguments
    store files ending.files
    if let some handle := handle? then handle.unlock
    announce ending
  | _ => announce (run machine arguments)

end TableReplica.CommandLine

/-- Apply a changeset to a replica directory, or compare two revisions. -/
def main (arguments : List String) : IO UInt32 :=
  TableReplica.CommandLine.runHere arguments
