import TableReplica.Files.Content
import TableReplica.Files.Path
import TableReplica.Files.Refusal

/-!
# The file tree

A file system maps places to entries, an entry being a file with its content or a directory, and
knows which files are locked and which one is open for reading. `get?` is the view: every operation
is described by what `get?` says after it. The root is always a directory. A path with a zero
character in it, without any characters or of more than 4095 bytes is refused as it is; walking any
other visits directories only, and refuses what is missing, what is a file, and names of more than
255 bytes, in that order.

Left out are links, hard and symbolic, so that a file has one name; permissions and limits on
resources, so that nobody is refused for who asks; and the trouble of a disk. A write that starts
below an offset of 2^63 succeeds, however far the file reaches after it, nothing that was written
has to be flushed or synced to be there, and no write comes late.
-/

namespace TableReplica.Files

/-- What rests at a place. -/
inductive Entry where
  | file (content : Content)
  | directory
  deriving Repr, DecidableEq

/-- A file that is open for reading. It can still be read after it was renamed, replaced or
removed. -/
inductive OpenFile where
  /-- The file at this place. -/
  | placed (place : Location)
  /-- A file that no path leads to any more. -/
  | detached (content : Content)
  deriving Repr, DecidableEq

/-- An open file after its place, if it has one, became another. -/
def OpenFile.move (renamed : Location → Location) : OpenFile → OpenFile
  | placed place => placed (renamed place)
  | detached content => detached content

/-- A file tree, with the places of the files that are locked and the file that is open for
reading, if there is one. -/
structure FileSystem where
  entries : List (Location × Entry) := []
  locked : List Location := []
  opened : Option OpenFile := none
  deriving Repr, DecidableEq

/-- The most bytes that a name may have. -/
def nameLimit : Nat := 255

/-- The most bytes that the text of a path may have. -/
def pathLimit : Nat := 4095

/-- Whether the text of a path holds a zero character. -/
def Path.hasZero (path : Path) : Bool :=
  path.text.toList.contains '\x00'

/-- Refuse a path that cannot be handed over, is empty or is too long, before it is walked. -/
def Path.check (path : Path) : Except Refusal Unit :=
  if path.hasZero then throw .zeroInPath
  else if path.text = "" then throw .notFound
  else if pathLimit < path.text.utf8ByteSize then throw .nameTooLong
  else return ()

namespace FileSystem

/-- The entry at a place. -/
def get? (fs : FileSystem) (place : Location) : Option Entry :=
  if place = [] then some .directory else fs.entries.lookup place

/-- Put an entry at a place, in place of any other. -/
def put (fs : FileSystem) (place : Location) (entry : Entry) : FileSystem :=
  { fs with entries := (place, entry) :: fs.entries.filter (·.1 ≠ place) }

/-- Leave nothing at a place. -/
def erase (fs : FileSystem) (place : Location) : FileSystem :=
  { fs with entries := fs.entries.filter (·.1 ≠ place) }

/-- Whether a place is a directory with something in it. -/
def isOccupied (fs : FileSystem) (place : Location) : Bool :=
  fs.entries.any fun item => place.isPrefixOf item.1 && item.1 ≠ place

/-- Walk from a place. The place reached may be missing, unless the walk goes on from it. -/
def walk (fs : FileSystem) (place : Location) : List Step → Except Refusal Location
  | [] => .ok place
  | step :: rest =>
    match fs.get? place with
    | none => .error .notFound
    | some (.file _) => .error .notDirectory
    | some .directory =>
      match step with
      | .here => walk fs place rest
      | .slash => walk fs place rest
      | .up => walk fs place.dropLast rest
      | .name name =>
        if nameLimit < name.utf8ByteSize then .error .nameTooLong
        else walk fs (place ++ [name]) rest

/-- The place that a path leads to. -/
def resolve (fs : FileSystem) (path : Path) : Except Refusal Location := do
  path.check
  fs.walk path.origin path.steps

/-- What the file that is open for reading holds. -/
def openContent (fs : FileSystem) : Content :=
  match fs.opened with
  | none => .empty
  | some (.detached content) => content
  | some (.placed place) =>
    match fs.get? place with
    | some (.file content) => content
    | _ => .empty

/-- The file that is open for reading, once the places that `gone` holds of lead nowhere. -/
def openAfter (fs : FileSystem) (gone : Location → Bool) : Option OpenFile :=
  match fs.opened with
  | some (.placed place) =>
    if gone place then some (.detached fs.openContent) else some (.placed place)
  | opened => opened

@[simp] theorem get?_root (fs : FileSystem) : fs.get? [] = some .directory := by
  simp [get?]

/-- Dropping a key from a list of pairs hides that key only. -/
theorem lookup_filter_ne (entries : List (Location × Entry)) (place other : Location) :
    (entries.filter (·.1 ≠ place)).lookup other =
      if other = place then none else entries.lookup other := by
  induction entries with
  | nil => simp
  | cons item rest ih =>
    obtain ⟨key, entry⟩ := item
    by_cases hkey : key = place
    · rw [List.filter_cons_of_neg (by simpa using hkey), ih]
      by_cases eq : other = place
      · simp [eq]
      · have differs : (other == key) = false := by simpa [hkey] using eq
        simp [eq, List.lookup_cons, differs]
    · rw [List.filter_cons_of_pos (by simpa using hkey)]
      by_cases same : other = key
      · subst same
        simp [hkey]
      · have differs : (other == key) = false := by simpa using same
        simp only [List.lookup_cons, differs]
        exact ih

theorem get?_put (fs : FileSystem) {place : Location} (h : place ≠ []) (entry : Entry)
    (other : Location) :
    (fs.put place entry).get? other = if other = place then some entry else fs.get? other := by
  by_cases eq : other = place
  · subst eq
    simp [get?, put, h]
  · have differs : (other == place) = false := by simpa using eq
    simp only [get?, put, List.lookup_cons, differs, lookup_filter_ne, if_neg eq]

theorem get?_erase (fs : FileSystem) {place : Location} (h : place ≠ []) (other : Location) :
    (fs.erase place).get? other = if other = place then none else fs.get? other := by
  by_cases root : other = []
  · subst root
    simp [Ne.symm h]
  · simp only [get?, erase, lookup_filter_ne, if_neg root]

end FileSystem

end TableReplica.Files
