/-!
# Paths

A path keeps the text it was given, which is what messages show, together with its reading: the
place where the walk starts and the steps it takes. Joining a relative text to a path appends to
both; joining an absolute one starts over.
-/

namespace TableReplica.Files

/-- A place in the file tree: the names from the root down. -/
abbrev Location := List String

/-- One step of a walk through the file tree. -/
inductive Step where
  /-- Stay in this directory. -/
  | here
  /-- Go to the parent directory. -/
  | up
  /-- A trailing slash: what was reached has to be a directory. -/
  | slash
  /-- Go to the entry of this name. -/
  | name (name : String)
  deriving Repr, DecidableEq

/-- A path as given and as read. -/
structure Path where
  /-- The text shown in messages. -/
  text : String
  /-- Where the walk starts. -/
  origin : Location
  /-- The steps of the walk. -/
  steps : List Step
  deriving Repr, DecidableEq

/-- The pieces of a text between its slashes. -/
def splitSlash : List Char → List (List Char)
  | [] => [[]]
  | c :: rest =>
    if c = '/' then [] :: splitSlash rest
    else
      match splitSlash rest with
      | [] => [[c]]
      | piece :: pieces => (c :: piece) :: pieces

/-- The step that a piece between slashes asks for. A piece without characters asks for none. -/
def pieceStep? : List Char → Option Step
  | [] => none
  | ['.'] => some .here
  | ['.', '.'] => some .up
  | piece => some (.name (String.ofList piece))

/-- The steps that a text asks for, with a last one for a slash at the end. -/
def stepsOf (text : List Char) : List Step :=
  (splitSlash text).filterMap pieceStep? ++ if text.getLast? = some '/' then [.slash] else []

namespace Path

/-- Whether a text names a place from the root. -/
def isAbsoluteText (text : String) : Bool :=
  text.toList.head? = some '/'

/-- The path that a text means to a process working in `cwd`. -/
def ofText (cwd : Location) (text : String) : Path :=
  { text, origin := if isAbsoluteText text then [] else cwd, steps := stepsOf text.toList }

/-- The text of a path with a relative text below it: one slash is put between unless the first is
empty or ends in one. -/
def joinText (text below : String) : String :=
  if text.toList.getLast?.all (· = '/') then text ++ below else text ++ "/" ++ below

/-- The path to `below` from `path`. -/
def join (path : Path) (below : String) : Path :=
  if isAbsoluteText below then ofText [] below
  else
    { text := joinText path.text below
      origin := path.origin
      steps := path.steps ++ stepsOf below.toList }

/-- The steps to the parent and the last name, when the path ends in a name or a name and a
slash. -/
def split? (path : Path) : List Step × Option String :=
  match path.steps.reverse.dropWhile (· = .slash) with
  | .name name :: before => (before.reverse, some name)
  | others => (others.reverse, none)

/-- Whether the path ends in a slash. -/
def endsInSlash (path : Path) : Bool :=
  path.steps.getLast? = some .slash

end Path

end TableReplica.Files
