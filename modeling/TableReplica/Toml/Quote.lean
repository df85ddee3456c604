import TableReplica.Toml.Reader

/-!
# Strings

The four kinds of TOML strings: with or without escapes, on one line or on several. Within a
string on several lines, one or two quotes may stand alone and also before the closing three.
-/

namespace TableReplica.Toml

open Reader

/-- The double quote. -/
def doubleQuote : Char := '\x22'

/-- The single quote. -/
def singleQuote : Char := '\x27'

/-- A character that stands for itself in a string with escapes. -/
def isPlain (c : Char) : Bool := isInLine c && c != doubleQuote && c != '\\'

/-- A character of a string without escapes. -/
def isVerbatim (c : Char) : Bool := isInLine c && c != singleQuote

/-- A character written as `count` hexadecimal digits. -/
def codePoint (count : Nat) : Reader Char := do
  let code := ofDigits 16 (← exactly isHexDigit count)
  if code.isValidChar then pure (Char.ofNat code) else fail

/-- An escaped character. -/
def escape : Reader Char := do
  let _ ← char '\\'
  match ← one fun _ => true with
  | 'b' => return '\x08'
  | 'f' => return '\x0c'
  | 'n' => return '\n'
  | 'r' => return '\r'
  | 't' => return '\t'
  | 'u' => codePoint 4
  | 'U' => codePoint 8
  | '\\' => return '\\'
  | '\x22' => return '\x22'
  | _ => fail

/-- A string with escapes on one line. -/
def basicString : Reader (List Char) := do
  let _ ← char doubleQuote
  let chars ← many (one isPlain <|> escape)
  let _ ← char doubleQuote
  return chars

/-- A string without escapes on one line. -/
def verbatimString : Reader (List Char) := do
  let _ ← char singleQuote
  let chars ← span isVerbatim
  let _ ← char singleQuote
  return chars

/-- A backslash at the end of a line, which stands for nothing up to the next character that is
neither blank nor a line end. -/
def lineContinuation : Reader (List Char) := do
  let _ ← many1 (do
    let _ ← char '\\'
    spaces
    newline
    many (newline <|> (do let _ ← span1 isSpace)))
  return []

/-- The line end within a string. -/
def innerNewline : Reader (List Char) := do
  newline
  return ['\n']

/-- One or two quotes before something that stays. -/
def quotesBefore {α : Type} (quote : Char) (next : Reader α) : Reader (List Char) :=
  followedBy (exactly (· == quote) 2) next <|> followedBy (exactly (· == quote) 1) next

/-- A string on several lines between three quotes each. -/
def multilineString (quote : Char) (content : Reader (List Char)) : Reader (List Char) := do
  let fence := [quote, quote, quote]
  literal fence
  let _ ← option? newline
  let start ← many content
  let middle ← many (do
    let quotes ← quotesBefore quote (one (· != quote))
    let first ← content
    let more ← many content
    return quotes ++ first ++ more.flatten)
  let final ← option? (quotesBefore quote (literal fence))
  literal fence
  return start.flatten ++ middle.flatten ++ final.getD []

/-- A string with escapes on several lines. -/
def multilineBasic : Reader (List Char) :=
  multilineString doubleQuote
    (span1 isPlain <|> lineContinuation <|> (do return [← escape]) <|> innerNewline)

/-- A string without escapes on several lines. -/
def multilineVerbatim : Reader (List Char) :=
  multilineString singleQuote (span1 isVerbatim <|> innerNewline)

/-- A string of any kind. -/
def anyString : Reader (List Char) :=
  multilineBasic <|> basicString <|> multilineVerbatim <|> verbatimString

/-- One part of a key. -/
def simpleKey : Reader (List Char) :=
  basicString <|> verbatimString <|> span1 isBareKey

/-- The most parts that a key may have, and the most arrays and tables a value may be nested in. -/
def depthLimit : Nat := 79

/-- A key: its parts, with dots in between and blanks around each. -/
def key : Reader (List (List Char)) :=
  guarded (separated1 (spaces *> simpleKey <* spaces) (char '.')) (·.length ≤ depthLimit)

end TableReplica.Toml
