/-!
# Readers

A reader takes characters from the front of a text, or fails and takes none. Readers are run one
after the other, as alternatives, or again and again for as long as they take something. The first
ones are for the parts of a TOML document that are below its values: which characters may stand
where, blanks, line ends and comments.
-/

namespace TableReplica.Toml

/-- Takes characters from the front of a text, or fails. -/
abbrev Reader (α : Type) := StateT (List Char) Option α

namespace Reader

variable {α β : Type}

/-- Fail. -/
def fail : Reader α := fun _ => none

/-- The next character, which stays. -/
def peek : Reader (Option Char) := fun text => some (text.head?, text)

/-- Succeed at the end of the text only. -/
def endOfText : Reader Unit
  | [] => some ((), [])
  | _ => none

/-- Take one character with a property. -/
def one (accepts : Char → Bool) : Reader Char
  | c :: rest => if accepts c then some (c, rest) else none
  | [] => none

/-- Take one given character. -/
def char (c : Char) : Reader Char := one (· == c)

/-- Take given characters. -/
def literal : List Char → Reader Unit
  | [] => pure ()
  | c :: rest => do
    let _ ← char c
    literal rest

/-- Take all characters up to the first without a property. -/
def span (accepts : Char → Bool) : Reader (List Char) := fun text =>
  some (text.takeWhile accepts, text.dropWhile accepts)

/-- Take all characters up to the first without a property, and at least one. -/
def span1 (accepts : Char → Bool) : Reader (List Char) := do
  let first ← one accepts
  let more ← span accepts
  return first :: more

/-- Take exactly `count` characters with a property. -/
def exactly (accepts : Char → Bool) : Nat → Reader (List Char)
  | 0 => pure []
  | count + 1 => do
    let first ← one accepts
    let more ← exactly accepts count
    return first :: more

/-- Run a reader, or go on without it if it fails. -/
def option? (reader : Reader α) : Reader (Option α) :=
  (some <$> reader) <|> pure none

/-- Succeed with what a reader takes only if it has a property. -/
def guarded (reader : Reader α) (accepts : α → Bool) : Reader α := do
  let value ← reader
  if accepts value then pure value else fail

/-- Run a reader that must be followed by something, which stays. -/
def followedBy (reader : Reader α) (next : Reader β) : Reader α := do
  let value ← reader
  let rest ← get
  match next.run rest with
  | some _ => return value
  | none => fail

/-- Run a reader again and again for as long as it succeeds and takes something. -/
def manyFrom (reader : Reader α) (text : List Char) : List α × List Char :=
  match reader.run text with
  | none => ([], text)
  | some (value, rest) =>
    if rest.length < text.length then
      let (values, final) := manyFrom reader rest
      (value :: values, final)
    else ([], text)
termination_by text.length

/-- Run a reader again and again for as long as it succeeds and takes something. -/
def many (reader : Reader α) : Reader (List α) := fun text => some (manyFrom reader text)

/-- Run a reader one or more times. -/
def many1 (reader : Reader α) : Reader (List α) := do
  let first ← reader
  let more ← many reader
  return first :: more

/-- Run a reader one or more times with a separator in between. -/
def separated1 (reader : Reader α) (separator : Reader β) : Reader (List α) := do
  let first ← reader
  let more ← many (separator *> reader)
  return first :: more

end Reader

open Reader

/-- A space or a tab. -/
def isSpace (c : Char) : Bool := c == ' ' || c == '\t'

/-- An ASCII digit. -/
def isDigit (c : Char) : Bool := '0' ≤ c && c ≤ '9'

/-- A hexadecimal digit. -/
def isHexDigit (c : Char) : Bool :=
  isDigit c || ('a' ≤ c && c ≤ 'f') || ('A' ≤ c && c ≤ 'F')

/-- The value of a hexadecimal digit. -/
def hexValue (c : Char) : Nat :=
  if isDigit c then c.toNat - 48 else if c ≤ 'F' then c.toNat - 55 else c.toNat - 87

/-- The number that digits write in a base. -/
def ofDigits (base : Nat) (digits : List Char) : Nat :=
  digits.foldl (fun value c => value * base + hexValue c) 0

/-- A character that may stand within a line: a tab, or any character that is no control. -/
def isInLine (c : Char) : Bool :=
  c == '\t' || (0x20 ≤ c.toNat && c.toNat != 0x7f)

/-- A character of a key without quotes. -/
def isBareKey (c : Char) : Bool :=
  isDigit c || ('a' ≤ c && c ≤ 'z') || ('A' ≤ c && c ≤ 'Z') || c == '_' || c == '-'

/-- Spaces and tabs. -/
def spaces : Reader Unit := do
  let _ ← span isSpace

/-- The end of a line. -/
def newline : Reader Unit :=
  literal ['\n'] <|> literal ['\r', '\n']

/-- A comment, without the end of its line. -/
def comment : Reader Unit := do
  let _ ← char '#'
  let _ ← span isInLine

/-- The rest of a line after a value: blanks, perhaps a comment, and the end of the line or of the
text. -/
def restOfLine : Reader Unit := do
  spaces
  let _ ← option? comment
  newline <|> endOfText

/-- Blanks, line ends and comments that end in a line end. -/
def filler : Reader Unit := do
  spaces
  let _ ← many (do
    let _ ← option? comment
    newline
    spaces)

end TableReplica.Toml
