/-!
# Integers in decimal text

An optional sign followed by one or more ASCII digits, with nothing before, between or after. A
number that does not fit in 64 bits is refused like any other text. Whoever allows white space
around a number trims the text first; white space is every character with the Unicode property
`White_Space`.
-/

namespace TableReplica.Text

/-- The value of an ASCII digit. -/
def digit? (c : Char) : Option Nat :=
  if '0' ≤ c ∧ c ≤ '9' then some (c.toNat - 48) else none

/-- The number that these digits go on to form after `value`. -/
def digitsFrom? (value : Nat) : List Char → Option Nat
  | [] => some value
  | c :: rest => do
    let d ← digit? c
    digitsFrom? (10 * value + d) rest

/-- The number written by one or more digits. -/
def natural? : List Char → Option Nat
  | [] => none
  | chars => digitsFrom? 0 chars

/-- Whether a number fits in 64 bits of two's complement. -/
def fitsSigned (value : Int) : Bool :=
  -(UInt64.size / 2 : Nat) ≤ value && value < (UInt64.size / 2 : Nat)

/-- A number that fits in 64 bits, with an optional plus sign. -/
def unsigned? (chars : List Char) : Option Nat := do
  let digits := match chars with
    | '+' :: rest => rest
    | _ => chars
  let value ← natural? digits
  if value < UInt64.size then some value else none

/-- A number that fits in 64 bits of two's complement, with an optional sign. -/
def signed? (chars : List Char) : Option Int := do
  let value ← match chars with
    | '-' :: rest => (natural? rest).map fun value => -(value : Int)
    | '+' :: rest => (natural? rest).map Int.ofNat
    | _ => (natural? chars).map Int.ofNat
  if fitsSigned value then some value else none

/-- Whether a character is white space. -/
def isBlank (c : Char) : Bool :=
  let code := c.toNat
  (9 ≤ code && code ≤ 13) || code == 0x20 || code == 0x85 || code == 0xa0 || code == 0x1680 ||
    (0x2000 ≤ code && code ≤ 0x200a) || code == 0x2028 || code == 0x2029 || code == 0x202f ||
    code == 0x205f || code == 0x3000

/-- The characters up to the last that is not white space. -/
def trimEnd (chars : List Char) : List Char :=
  (chars.reverse.dropWhile isBlank).reverse

/-- The characters from the first to the last that is not white space. -/
def trim (chars : List Char) : List Char :=
  trimEnd (chars.dropWhile isBlank)

end TableReplica.Text
