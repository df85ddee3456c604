import TableReplica.Files.Operations

/-!
# Making, removing and listing directories

Making a directory makes the missing ones on the way to it first; what was made stays even if a
later one cannot be made. A listing gives everything below a place, in the order of the paths as
byte strings.
-/

namespace TableReplica.Files

namespace FileSystem

variable (fs : FileSystem)

/-- Make one directory in an existing one. -/
def makeDirectory (path : Path) : Except Refusal FileSystem := do
  let (parent, last) ← fs.parentOf path
  match last with
  | none => throw .alreadyExists
  | some name =>
    let place ← child parent name
    match fs.get? place with
    | some _ => throw .alreadyExists
    | none => return fs.put place .directory

/-- Drop the steps that lead nowhere else. -/
def dropIdle : List Step → List Step :=
  List.dropWhile fun step => step = .here || step = .slash

/-- The paths to the directories that hold what a path leads to, nearest first, given its steps
from the last to the first. -/
def ancestorSteps : List Step → List (List Step)
  | [] => []
  | .here :: rest => ancestorSteps rest
  | .slash :: rest => ancestorSteps rest
  | _ :: rest => dropIdle rest :: ancestorSteps rest

/-- A path with its ancestors, nearest first. -/
def ancestors (path : Path) : List Path :=
  path :: (ancestorSteps path.steps.reverse).filterMap fun reversed =>
    if reversed = [] then none else some { path with steps := reversed.reverse }

/-- The missing directories at the front of the list, outermost first, after making the nearest
ancestor that could be made. -/
def makeNearest : List Path → List Path → Except Refusal Unit × FileSystem × List Path
  | [], missing => (.ok (), fs, missing)
  | path :: outer, missing =>
    match fs.makeDirectory path with
    | .ok made => (.ok (), made, missing)
    | .error .notFound => makeNearest outer (path :: missing)
    | .error refusal =>
      if refusal = .alreadyExists ∧ fs.isDirectory path then (.ok (), fs, missing)
      else (.error refusal, fs, missing)

/-- Make each directory in turn, accepting those that exist. -/
def makeEach (fs : FileSystem) : List Path → Except Refusal Unit × FileSystem
  | [] => (.ok (), fs)
  | path :: rest =>
    match fs.makeDirectory path with
    | .ok made => makeEach made rest
    | .error refusal =>
      if refusal = .alreadyExists ∧ fs.isDirectory path then makeEach fs rest
      else (.error refusal, fs)

/-- Make a directory and the missing ones on the way to it. There is nothing to make for an empty
path. -/
def makeDirectories (path : Path) : Except Refusal Unit × FileSystem :=
  if path.text = "" then (.ok (), fs)
  else
    match fs.makeNearest (ancestors path) [] with
    | (.ok (), made, missing) => makeEach made missing
    | (.error refusal, made, _) => (.error refusal, made)

/-- Remove everything at and below a place, with the locks on it. -/
def removeTree (place : Location) : FileSystem :=
  { entries := fs.entries.filter fun item => !place.isPrefixOf item.1
    locked := fs.locked.filter fun held => !place.isPrefixOf held
    opened := fs.openAfter (place.isPrefixOf ·) }

/-- Everything below a place, by its path from there. -/
def listing (place : Location) : List (String × Entry) :=
  let below := fs.entries.filter fun item => place.isPrefixOf item.1 && item.1 ≠ place
  let named := below.map fun item => ("/".intercalate (item.1.drop place.length), item.2)
  named.mergeSort fun a b => a.1 ≤ b.1

end FileSystem

end TableReplica.Files
