import TableReplica.Bytes

/-!
# UTF-8

Bytes are read as UTF-8 by cutting them into well-formed characters and ill-formed parts. An
ill-formed part is as long as possible while it could still begin a character, so a lone byte that
can begin none is a part of its own. Strict reading refuses any ill-formed part; lenient reading
puts U+FFFD in its place.
-/

namespace TableReplica.Text

/-- Whether a byte continues a character. -/
def isContinuation (byte : UInt8) : Bool :=
  0x80 ≤ byte && byte ≤ 0xbf

/-- How many bytes follow a first byte, and which range the second byte has to be in. Bytes that
begin no character have no shape. -/
def shape? (first : UInt8) : Option (Nat × UInt8 × UInt8) :=
  if first ≤ 0x7f then some (0, 0x80, 0xbf)
  else if 0xc2 ≤ first && first ≤ 0xdf then some (1, 0x80, 0xbf)
  else if first == 0xe0 then some (2, 0xa0, 0xbf)
  else if first == 0xed then some (2, 0x80, 0x9f)
  else if 0xe1 ≤ first && first ≤ 0xef then some (2, 0x80, 0xbf)
  else if first == 0xf0 then some (3, 0x90, 0xbf)
  else if 0xf1 ≤ first && first ≤ 0xf3 then some (3, 0x80, 0xbf)
  else if first == 0xf4 then some (3, 0x80, 0x8f)
  else none

/-- The bits of the first byte of a character that `count` bytes follow. -/
def firstBits (count : Nat) (first : UInt8) : Nat :=
  match count with
  | 0 => first.toNat
  | 1 => first.toNat % 32
  | 2 => first.toNat % 16
  | _ => first.toNat % 8

/-- The bytes that can follow a first byte of this shape, at the front of `rest`. -/
def followers (count : Nat) (low high : UInt8) (rest : Bytes) : Bytes :=
  match count, rest with
  | 0, _ => []
  | _, [] => []
  | count + 1, second :: more =>
    if low ≤ second && second ≤ high then second :: (more.take count).takeWhile isContinuation
    else []

/-- The character that begins with `first`, or none if it is ill-formed, and the number of bytes
it or the ill-formed part takes after the first. -/
def scanOne (first : UInt8) (rest : Bytes) : Option Char × Nat :=
  match shape? first with
  | none => (none, 0)
  | some (count, low, high) =>
    let found := followers count low high rest
    if found.length = count then
      let code := found.foldl (fun code byte => code * 64 + byte.toNat % 64) (firstBits count first)
      (some (Char.ofNat code), count)
    else (none, found.length)

/-- Cut bytes into characters and ill-formed parts. -/
def scan (bytes : Bytes) : List (Option Char) :=
  match bytes with
  | [] => []
  | first :: rest =>
    let (item, taken) := scanOne first rest
    item :: scan (rest.drop taken)
termination_by bytes.length
decreasing_by
  simp only [List.length_drop, List.length_cons]
  omega

/-- The text that bytes encode, if all of it is well-formed. -/
def decode? (bytes : Bytes) : Option (List Char) :=
  (scan bytes).mapM id

/-- The text that bytes encode, with U+FFFD for each ill-formed part. -/
def decodeLenient (bytes : Bytes) : List Char :=
  (scan bytes).map fun item => item.getD (Char.ofNat 0xfffd)

end TableReplica.Text
