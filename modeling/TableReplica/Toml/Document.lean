import TableReplica.Toml.Value

/-!
# Documents

A document is a sequence of lines: pairs of a key and a value, headers of tables, headers of
elements of a series, comments and empty lines. The pairs up to the first header belong to the root
table, and those after a header to the table it names, which takes its place when the next header or
the end comes.
-/

namespace TableReplica.Toml

open Reader

/-- A line of a document that means something. -/
inductive Line where
  | pair (key : List (List Char)) (value : Value)
  | table (path : List (List Char))
  | series (path : List (List Char))

/-- A line with a key and a value. -/
def pairLine : Reader Line := do
  let key ← key
  let _ ← char '='
  spaces
  let value ← value
  restOfLine
  return .pair key value

/-- A line with a header. -/
def headerLine : Reader Line :=
  (do
    literal ['[', '[']
    let path ← key
    literal [']', ']']
    restOfLine
    return .series path) <|>
  (do
    let _ ← char '['
    let path ← key
    let _ ← char ']'
    restOfLine
    return .table path)

/-- A line, which means nothing if it holds at most a comment. -/
def line : Reader (Option Line) := do
  match ← peek with
  | some '#' =>
    comment
    newline <|> endOfText
    return none
  | some '[' => some <$> headerLine
  | some '\n' => newline *> pure none
  | some '\r' => newline *> pure none
  | _ => some <$> pairLine

/-- All lines of a document that mean something. -/
def lines : Reader (List Line) := do
  let _ ← option? (char (Char.ofNat 0xfeff))
  spaces
  let found ← many (line <* spaces)
  endOfText
  return found.filterMap id

/-- A document on the way: the tables that have taken their place, and the table that is being
defined, with its path. -/
structure Draft where
  root : Entries := []
  current : Entries := []
  path : List (List Char) := []
  inSeries : Bool := false

namespace Draft

/-- Let the table that is being defined take its place. -/
def settle (draft : Draft) : Option Entries :=
  match draft.path.getLast? with
  | none => some draft.current
  | some last =>
    let finish := if draft.inSeries then Entries.finishSeries else Entries.finishTable
    (draft.root.modify (finish last draft.current) draft.path.dropLast).map (·.2)

/-- Go on with a line. -/
def add (draft : Draft) : Line → Option Draft
  | .pair key value => do
    let last ← key.getLast?
    let current ← draft.current.insert key.dropLast last value
    return { draft with current }
  | .table path => do
    let root ← draft.settle
    let last ← path.getLast?
    let (current, root) ← root.modify (Entries.beginTable last) path.dropLast
    return { root, current, path }
  | .series path => do
    let root ← draft.settle
    let last ← path.getLast?
    let (_, root) ← root.modify (Entries.beginSeries last) path.dropLast
    return { root, path, inSeries := true }

end Draft

/-- The root table of a document, or none if the text is no document. -/
def parse? (text : List Char) : Option Entries := do
  let (found, _) ← lines.run text
  let draft ← found.foldlM Draft.add {}
  draft.settle

end TableReplica.Toml
