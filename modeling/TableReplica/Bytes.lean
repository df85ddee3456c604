/-!
# Byte strings

A byte string is a list of bytes. Everything that travels over a connection is one, and so is the
view of what rests in a file. This module holds the conversions that the rest of the library needs.
-/

namespace TableReplica

/-- A byte string. -/
abbrev Bytes := List UInt8

namespace Bytes

/-- The UTF-8 encoding of a text. -/
def ofText (text : String) : Bytes :=
  text.toUTF8.data.toList

/-- The first `count` bytes, or all if there are no more. Nothing is copied in that case. -/
def front (bytes : Bytes) (count : Nat) : Bytes :=
  if bytes.drop count = [] then bytes else bytes.take count

@[simp] theorem front_eq_take (bytes : Bytes) (count : Nat) :
    bytes.front count = bytes.take count := by
  unfold front
  split
  · next none => rw [List.take_of_length_le (List.drop_eq_nil_iff.mp none)]
  · rfl

/-- The lower-case hexadecimal digit for a value below sixteen. -/
def hexDigit (value : Nat) : Char :=
  if value < 10 then Char.ofNat (48 + value) else Char.ofNat (87 + value)

/-- Two lower-case hexadecimal digits for each byte. -/
def toHex (bytes : Bytes) : String :=
  String.ofList (bytes.flatMap fun byte => [hexDigit (byte.toNat / 16), hexDigit (byte.toNat % 16)])

end Bytes

end TableReplica
