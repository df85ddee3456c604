import TableReplica.Toml.Number
import TableReplica.Toml.Quote

/-!
# Tables and values

What the keys of a TOML document stand for, and the rules for putting more into a table. A table is
defined by a header of its own, or comes into being because a header names a table inside it, or
because a dotted key leads through it. Only a table of the second kind may still be defined, and
only tables of the last kind may be filled by dotted keys. No key is ever given a second meaning.

Arrays may go over several lines and end in a comma; tables within a line may not. The keys of a
table within a line follow the rules of all tables, and nothing can be put into it afterwards.
-/

namespace TableReplica.Toml

/-- A value in a document. -/
inductive Value where
  | text (chars : List Char)
  | integer (value : Int)
  | float (written : List Char)
  | boolean (value : Bool)
  | moment (written : List Char)
  | array (items : List Value)
  /-- The pairs of a table within a line, each with the parts of its key. -/
  | table (pairs : List (List (List Char) × Value))

/-- How a table came into being. -/
inductive TableKind where
  /-- By its own header, or as an element of a series. -/
  | defined
  /-- By a header that leads through it. -/
  | passed
  /-- By a dotted key that leads through it. -/
  | dotted
  deriving DecidableEq

/-- What a key stands for. -/
inductive Node where
  | leaf (value : Value)
  | table (kind : TableKind) (entries : List (List Char × Node))
  /-- A series of tables under one key, the last one first. -/
  | series (tables : List (List (List Char × Node)))

/-- The keys of a table with what they stand for. -/
abbrev Entries := List (List Char × Node)

namespace Entries

/-- What a key stands for. -/
def get? (entries : Entries) (key : List Char) : Option Node :=
  entries.lookup key

/-- The table with one key standing for something else, or added at the end. -/
def set (entries : Entries) (key : List Char) (node : Node) : Entries :=
  match entries with
  | [] => [(key, node)]
  | entry :: rest => if entry.1 = key then (key, node) :: rest else entry :: set rest key node

/-- The table without a key. -/
def remove (entries : Entries) (key : List Char) : Entries :=
  entries.filter (·.1 ≠ key)

/-- Put a value at the end of a dotted key, given the parts before the last and the last. -/
def insert (entries : Entries) : List (List Char) → List Char → Value → Option Entries
  | [], last, value =>
    match entries.get? last with
    | none => some (entries.set last (.leaf value))
    | some _ => none
  | first :: path, last, value =>
    match entries.get? first with
    | none => do
      let child ← insert [] path last value
      return entries.set first (.table .dotted child)
    | some (.leaf _) => none
    | some (.table .defined _) => none
    | some (.table kind child) =>
      if path = [] ∧ kind ≠ .dotted then none
      else do
        let child ← insert child path last value
        return entries.set first (.table kind child)
    | some (.series []) => none
    | some (.series (current :: earlier)) =>
      if path = [] then none
      else do
        let current ← insert current path last value
        return entries.set first (.series (current :: earlier))

/-- Change the table that a header leads through, making tables on the way. The change may also
give an answer. -/
def modify {α : Type} (entries : Entries) (change : Entries → Option (α × Entries)) :
    List (List Char) → Option (α × Entries)
  | [] => change entries
  | first :: path =>
    match entries.get? first with
    | none => do
      let (answer, child) ← modify [] change path
      return (answer, entries.set first (.table .passed child))
    | some (.leaf _) => none
    | some (.table kind child) => do
      let (answer, child) ← modify child change path
      return (answer, entries.set first (.table kind child))
    | some (.series []) => none
    | some (.series (current :: earlier)) => do
      let (answer, current) ← modify current change path
      return (answer, entries.set first (.series (current :: earlier)))

/-- Begin to define a table: take it out if it exists only because headers lead through it. -/
def beginTable (last : List Char) (parent : Entries) : Option (Entries × Entries) :=
  match parent.get? last with
  | none => some ([], parent)
  | some (.table .passed child) => some (child, parent.remove last)
  | some _ => none

/-- Finish defining a table. -/
def finishTable (last : List Char) (entries parent : Entries) : Option (Unit × Entries) :=
  match parent.get? last with
  | none => some ((), parent.set last (.table .defined entries))
  | some (.table .passed _) => some ((), parent.set last (.table .defined entries))
  | some _ => none

/-- Begin another table of a series. -/
def beginSeries (last : List Char) (parent : Entries) : Option (Unit × Entries) :=
  match parent.get? last with
  | none => some ((), parent.set last (.series []))
  | some (.series _) => some ((), parent)
  | some _ => none

/-- Finish another table of a series. -/
def finishSeries (last : List Char) (entries parent : Entries) : Option (Unit × Entries) :=
  match parent.get? last with
  | none => some ((), parent.set last (.series [entries]))
  | some (.series tables) => some ((), parent.set last (.series (entries :: tables)))
  | some _ => none

end Entries

open Reader

/-- The keys of a table within a line, or none if they contradict each other. -/
def lineTable? (pairs : List (List (List Char) × Value)) : Option Entries :=
  pairs.foldlM
    (fun entries (key, value) =>
      match key.getLast? with
      | some last => entries.insert key.dropLast last value
      | none => none)
    ([] : Entries)

/-- A value that is neither an array nor a table. -/
def scalar : Reader Value :=
  (.text <$> anyString) <|>
  (.moment <$> moment) <|>
  (.float <$> float) <|>
  (.integer <$> integer) <|>
  (do
    literal ['t', 'r', 'u', 'e']
    return .boolean true) <|>
  (do
    literal ['f', 'a', 'l', 's', 'e']
    return .boolean false)

/-- An array of values. -/
def arrayOf (value : Reader Value) : Reader Value := do
  let _ ← char '['
  let items ← option? (separated1 (filler *> value <* filler) (char ','))
  if items.isSome then
    let _ ← option? (char ',')
  filler
  let _ ← char ']'
  return .array (items.getD [])

/-- A table within a line. -/
def tableOf (value : Reader Value) : Reader Value := do
  let _ ← char '\x7b'
  let pairs ← option? (separated1
    (do
      let key ← key
      let _ ← char '='
      spaces
      let value ← value
      spaces
      return (key, value))
    (char ','))
  spaces
  let _ ← char '\x7d'
  let pairs := pairs.getD []
  match lineTable? pairs with
  | some _ => return .table pairs
  | none => fail

/-- A value whose arrays and tables are nested at most `depth` deep. -/
def valueWithin : Nat → Reader Value
  | 0 => scalar
  | depth + 1 => scalar <|> arrayOf (valueWithin depth) <|> tableOf (valueWithin depth)

/-- A value. -/
def value : Reader Value := valueWithin depthLimit

end TableReplica.Toml
