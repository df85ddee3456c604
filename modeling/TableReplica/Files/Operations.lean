import TableReplica.Files.FileSystem

/-!
# Operations on files

What the file system does when a file is opened, written, renamed or removed. An operation that
fails changes nothing. A directory is never opened, never removed as a file and never replaced by a
file; a path that leads through something missing or through a file is refused as the walk is. A
file that is open for reading stays what it is when it is renamed, replaced or removed
(`openContent_moveFile`, `openContent_takeAway`); writing to it changes what its reader finds.
-/

namespace TableReplica.Files

namespace FileSystem

variable (fs : FileSystem)

/-- Find an existing file and open it. -/
def openFile (path : Path) : Except Refusal Location := do
  let place ← fs.resolve path
  match fs.get? place with
  | none => throw .notFound
  | some .directory => throw .isDirectory
  | some (.file _) => return place

/-- Open a file for writing, making an empty one if there is none. -/
def openOrCreate (path : Path) : Except Refusal (Location × FileSystem) := do
  let place ← fs.resolve path
  match fs.get? place with
  | none => return (place, fs.put place (.file .empty))
  | some .directory => throw .isDirectory
  | some (.file _) => return (place, fs)

/-- Open a file for writing as an empty one, whatever it held. -/
def createEmpty (path : Path) : Except Refusal (Location × FileSystem) := do
  let (place, opened) ← fs.openOrCreate path
  return (place, opened.put place (.file .empty))

/-- Write to an open file at an offset. -/
def write (place : Location) (offset : Nat) (data : Bytes) : FileSystem :=
  match fs.get? place with
  | some (.file content) => fs.put place (.file (content.overwrite offset data))
  | _ => fs

/-- Read a whole file. -/
def readFile (path : Path) : Except Refusal Bytes := do
  match fs.get? (← fs.resolve path) with
  | none => throw .notFound
  | some .directory => throw .isDirectory
  | some (.file content) => return content.bytes

/-- Open an existing file for reading. -/
def openForReading (path : Path) : Except Refusal FileSystem := do
  return { fs with opened := some (.placed (← fs.openFile path)) }

/-- Whether a path leads to something, or cannot be looked at to tell. -/
def mayExist (path : Path) : Bool :=
  match fs.resolve path with
  | .ok place => (fs.get? place).isSome
  | .error refusal => refusal ≠ .notFound

/-- Whether a path leads to a directory. -/
def isDirectory (path : Path) : Bool :=
  match fs.resolve path with
  | .ok place => fs.get? place = some .directory
  | .error _ => false

/-- Take a file away from its place. A lock on it goes with it. -/
def takeAway (place : Location) : FileSystem :=
  { fs.erase place with
    locked := fs.locked.erase place
    opened := fs.openAfter (· = place) }

/-- A file that is taken away can still be read by whoever has it open. -/
theorem openContent_takeAway {place : Location} (h : place ≠ []) :
    (fs.takeAway place).openContent = fs.openContent := by
  match eq : fs.opened with
  | none => simp [openContent, takeAway, openAfter, eq]
  | some (.detached content) => simp [openContent, takeAway, openAfter, eq]
  | some (.placed held) =>
    by_cases same : held = place
    · simp [openContent, takeAway, openAfter, eq, same]
    · have kept : (fs.takeAway place).get? held = fs.get? held := by
        have := fs.get?_erase h held
        rw [if_neg same] at this
        exact this
      have opened : (fs.takeAway place).opened = some (.placed held) := by
        simp [takeAway, openAfter, eq, same]
      simp only [openContent, opened, eq, kept]

/-- Remove a file. -/
def removeFile (path : Path) : Except Refusal FileSystem := do
  let place ← fs.resolve path
  match fs.get? place with
  | none => throw .notFound
  | some .directory => throw .isDirectory
  | some (.file _) => return fs.takeAway place

/-- Remove a file if there is one, and leave alone what is no file. -/
def discard (path : Path) : FileSystem :=
  match fs.removeFile path with
  | .ok removed => removed
  | .error _ => fs

/-- The directory that holds the last name of a path, with that name. The name is missing if the
path does not end in one. -/
def parentOf (path : Path) : Except Refusal (Location × Option String) := do
  path.check
  let (before, last) := path.split?
  let parent ← fs.walk path.origin before
  match fs.get? parent with
  | none => throw .notFound
  | some (.file _) => throw .notDirectory
  | some .directory => return (parent, last)

/-- The place of a name in a directory. -/
def child (parent : Location) (name : String) : Except Refusal Location :=
  if nameLimit < name.utf8ByteSize then throw .nameTooLong else return parent ++ [name]

/-- Where a place below `source` is once `source` has become `target`. -/
def moved (source target place : Location) : Location :=
  if source.isPrefixOf place then target ++ place.drop source.length else place

/-- Give everything at and below `source` a place at and below `target`. -/
def moveTree (source target : Location) : FileSystem :=
  { entries := (fs.entries.filter (·.1 ≠ target)).map fun item =>
      (moved source target item.1, item.2)
    locked := (fs.locked.filter (· ≠ target)).map (moved source target)
    opened := (fs.openAfter (· = target)).map (·.move (moved source target)) }

/-- Give a file another place, in place of any other file. -/
def moveFile (source target : Location) (content : Content) : FileSystem :=
  let renamed := fun place => if place = source then target else place
  { (fs.erase source).put target (.file content) with
    locked := (fs.locked.filter (· ≠ target)).map renamed
    opened := (fs.openAfter (· = target)).map (·.move renamed) }

/-- A rename changes nothing for whoever has a file open. -/
theorem openContent_moveFile {source target : Location} {content : Content} (hsource : source ≠ [])
    (htarget : target ≠ []) (h : fs.get? source = some (.file content)) :
    (fs.moveFile source target content).openContent = fs.openContent := by
  match eq : fs.opened with
  | none => simp [openContent, moveFile, openAfter, eq]
  | some (.detached content) => simp [openContent, moveFile, openAfter, eq, OpenFile.move]
  | some (.placed held) =>
    have view (other : Location) : (fs.moveFile source target content).get? other =
        if other = target then some (.file content)
        else if other = source then none else fs.get? other := by
      have := (fs.erase source).get?_put htarget (.file content) other
      rw [fs.get?_erase hsource] at this
      exact this
    by_cases replaced : held = target
    · simp [openContent, moveFile, openAfter, eq, replaced, OpenFile.move]
    · by_cases moved : held = source
      · subst moved
        have opened : (fs.moveFile held target content).opened = some (.placed target) := by
          simp [moveFile, openAfter, eq, replaced, OpenFile.move]
        simp [openContent, opened, eq, view, h]
      · have opened : (fs.moveFile source target content).opened = some (.placed held) := by
          simp [moveFile, openAfter, eq, replaced, OpenFile.move, moved]
        simp only [openContent, opened, eq, view, if_neg replaced, if_neg moved]

/-- Rename a file or a directory. A file replaces a file, and a directory an empty directory. -/
def rename (source target : Path) : Except Refusal FileSystem := do
  if source.hasZero ∨ target.hasZero then throw .zeroInPath
  let (sourceParent, sourceName?) ← fs.parentOf source
  let (targetParent, targetName?) ← fs.parentOf target
  match sourceName?, targetName? with
  | some sourceName, some targetName =>
    let sourcePlace ← child sourceParent sourceName
    match fs.get? sourcePlace with
    | none => throw .notFound
    | some entry =>
      let targetPlace ← child targetParent targetName
      if entry ≠ .directory ∧ (source.endsInSlash ∨ target.endsInSlash) then throw .notDirectory
      else if sourcePlace = targetPlace then return fs
      else if entry = .directory ∧ sourcePlace.isPrefixOf targetPlace then throw .invalid
      else if targetPlace.isPrefixOf sourcePlace then throw .notEmpty
      else
        match entry, fs.get? targetPlace with
        | .file _, some .directory => throw .isDirectory
        | .directory, some (.file _) => throw .notDirectory
        | .file content, _ => return fs.moveFile sourcePlace targetPlace content
        | .directory, _ =>
          if fs.isOccupied targetPlace then throw .notEmpty
          else return fs.moveTree sourcePlace targetPlace
  | _, _ => throw .busy

end FileSystem

end TableReplica.Files
