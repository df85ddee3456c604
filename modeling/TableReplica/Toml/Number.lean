import TableReplica.Text.Integer
import TableReplica.Toml.Reader

/-!
# Numbers, dates and times

TOML integers and floats. Underscores may stand between two digits. An integer has to fit in 64
bits of two's complement. A float is kept as it is written; one that is too large is refused if it
is positive.

A moment is a date, a time of day, or a date with a time of day and perhaps an offset. Every field
has a fixed number of digits and its own range; the range of the day depends on the month and the
year. A moment is kept as it is written.
-/

namespace TableReplica.Toml

open Reader

/-- The characters that a reader takes. -/
def taken {α : Type} (reader : Reader α) : Reader (List Char) := fun text => do
  let (_, rest) ← reader.run text
  return (text.take (text.length - rest.length), rest)

/-- Digits with underscores between them. The result has no underscores. -/
def digitRun (accepts : Char → Bool) : Reader (List Char) := do
  let first ← one accepts
  let more ← many (one accepts <|> (char '_' *> one accepts))
  return first :: more

/-- A sign, if there is one. -/
def sign : Reader (Option Char) :=
  option? (one fun c => c == '+' || c == '-')

/-- The digits of a decimal integer: no leading zero unless it is the only digit. -/
def decimalDigits : Reader (List Char) := do
  match ← peek with
  | some '0' => exactly isDigit 1
  | _ => digitRun isDigit

/-- The integer with a sign and a magnitude, if it fits in 64 bits. -/
def boundedInt (sign : Option Char) (magnitude : Nat) : Reader Int :=
  let value : Int := if sign = some '-' then -(magnitude : Int) else magnitude
  if Text.fitsSigned value then pure value else fail

/-- An integer in a base that a zero and a letter announce. -/
def basedInteger (letter : Char) (base : Nat) (accepts : Char → Bool) : Reader Int := do
  literal ['0', letter]
  boundedInt none (ofDigits base (← digitRun accepts))

/-- An integer. -/
def integer : Reader Int :=
  basedInteger 'x' 16 isHexDigit <|>
  basedInteger 'o' 8 (fun c => '0' ≤ c && c ≤ '7') <|>
  basedInteger 'b' 2 (fun c => c == '0' || c == '1') <|>
  (do
    let sign ← sign
    boundedInt sign (ofDigits 10 (← decimalDigits)))

/-- The exponent of a float. -/
def exponent : Reader Int := do
  let _ ← one fun c => c == 'e' || c == 'E'
  let sign ← sign
  let digits ← digitRun isDigit
  return if sign = some '-' then -(ofDigits 10 digits : Int) else ofDigits 10 digits

/-- Whether `mantissa * 10 ^ exponent` is beyond every number that a double can be rounded to, which
starts half a unit above the largest double. -/
def isBeyondDouble (mantissa : Nat) (exponent : Int) : Bool :=
  let bound := (1 <<< 1024) - (1 <<< 970)
  if mantissa = 0 then false
  else
    let digits : Int := (Nat.toDigits 10 mantissa).length
    if digits + exponent > 310 then true
    else if digits + exponent < 300 then false
    else if 0 ≤ exponent then bound ≤ mantissa * Nat.pow 10 exponent.toNat
    else bound * Nat.pow 10 (-exponent).toNat ≤ mantissa

/-- A float with a fraction, an exponent or both. -/
def finiteFloat : Reader Unit := do
  let sign ← sign
  let whole ← decimalDigits
  let fraction ← option? (char '.' *> digitRun isDigit)
  let power ← match fraction with
    | some _ => option? exponent
    | none => some <$> exponent
  let fraction := fraction.getD []
  let scaled := power.getD 0 - (fraction.length : Int)
  if sign ≠ some '-' ∧ isBeyondDouble (ofDigits 10 (whole ++ fraction)) scaled then fail

/-- An infinity or a value that is no number. -/
def specialFloat : Reader Unit := do
  let _ ← sign
  literal ['i', 'n', 'f'] <|> literal ['n', 'a', 'n']

/-- A float, as it is written. -/
def float : Reader (List Char) :=
  taken (finiteFloat <|> specialFloat)

/-- A number of exactly `count` digits between two bounds. -/
def field (count low high : Nat) : Reader Nat :=
  guarded (ofDigits 10 <$> exactly isDigit count) fun value => low ≤ value && value ≤ high

/-- Whether a year has a leap day. -/
def isLeapYear (year : Nat) : Bool :=
  year % 4 = 0 && (year % 100 ≠ 0 || year % 400 = 0)

/-- The number of days of a month. -/
def daysInMonth (year month : Nat) : Nat :=
  if month = 2 then (if isLeapYear year then 29 else 28)
  else if month = 4 ∨ month = 6 ∨ month = 9 ∨ month = 11 then 30
  else 31

/-- A date. -/
def date : Reader Unit := do
  let year ← field 4 0 9999
  let _ ← char '-'
  let month ← field 2 1 12
  let _ ← char '-'
  let _ ← field 2 1 (daysInMonth year month)

/-- A time of day. The sixtieth second is that of a leap second. -/
def time : Reader Unit := do
  let _ ← field 2 0 23
  let _ ← char ':'
  let _ ← field 2 0 59
  let _ ← char ':'
  let _ ← field 2 0 60
  let _ ← option? (char '.' *> span1 isDigit)

/-- The offset of a time from universal time. -/
def offset : Reader Unit :=
  (do let _ ← one fun c => c == 'Z' || c == 'z') <|>
  (do
    let _ ← one fun c => c == '+' || c == '-'
    let _ ← field 2 0 23
    let _ ← char ':'
    let _ ← field 2 0 59)

/-- What may stand between a date and a time. -/
def isTimeMark (c : Char) : Bool := c == 'T' || c == 't' || c == ' '

/-- A date, a time or both, as written. -/
def moment : Reader (List Char) :=
  taken ((do
    date
    let _ ← option? (do
      let _ ← one isTimeMark
      time
      let _ ← option? offset)) <|> time)

end TableReplica.Toml
