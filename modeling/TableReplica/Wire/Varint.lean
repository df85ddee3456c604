import TableReplica.Bytes

/-!
# Integers and byte strings on the wire

An unsigned integer is written seven bits at a time, lowest first, with the high bit set on every
byte but the last. Reading looks at the front of a buffer that may still grow, so its verdict is a
`Decoded`: a value and the number of bytes it took, a request for more bytes, or a refusal. A value
has to fit in 64 bits; a byte whose bits would leave that width is refused as soon as it is seen.
A byte string is written as its length followed by its bytes. The length is an integer; one that
would end past the last 64-bit position is refused.
-/

namespace TableReplica.Wire

/-- The verdict on the front of a buffer. -/
inductive Decoded (α : Type) where
  /-- The buffer starts with this value, written in `length` bytes. -/
  | value (value : α) (length : Nat)
  /-- The buffer ends before the value does. -/
  | needMore
  /-- No value starts like this. -/
  | malformed
  deriving Repr, DecidableEq

/-- Whether the verdict needs no further bytes. -/
def Decoded.settled {α : Type} : Decoded α → Bool
  | .needMore => false
  | _ => true

/-- The request for more bytes is the one verdict that is not settled. -/
theorem Decoded.settled_eq_false_iff {α : Type} {verdict : Decoded α} :
    verdict.settled = false ↔ verdict = .needMore := by
  cases verdict <;> simp [settled]

theorem Decoded.settled_iff {α : Type} {verdict : Decoded α} :
    verdict.settled = true ↔ verdict ≠ .needMore := by
  rw [ne_eq, ← settled_eq_false_iff, Bool.not_eq_false]

/-- Values of integers on the wire stay below this bound. -/
def wordBound : Nat := UInt64.size

/-- The seven bits a byte carries. -/
def payload (byte : UInt8) : Nat := byte.toNat % 128

/-- Whether the bits of `byte` still fit below the word bound when they count from bit `shift`. -/
def fits (shift : Nat) (byte : UInt8) : Bool :=
  shift < 64 && payload byte <<< shift < wordBound

/-- Read an integer whose first byte counts from bit `shift` of the whole. The value is scaled
down by that shift. -/
def unpackUintFrom (shift : Nat) : Bytes → Decoded Nat
  | [] => .needMore
  | byte :: rest =>
    if fits shift byte then
      if byte < 128 then .value (payload byte) 1
      else
        match unpackUintFrom (shift + 7) rest with
        | .value value length => .value (payload byte + 128 * value) (length + 1)
        | .needMore => .needMore
        | .malformed => .malformed
    else .malformed

/-- Read an integer from the front of a buffer. -/
def unpackUint (buffer : Bytes) : Decoded Nat :=
  unpackUintFrom 0 buffer

/-- Write an integer in as few bytes as it takes. -/
def packUint (value : Nat) : Bytes :=
  if value < 128 then [value.toUInt8]
  else (value % 128 + 128).toUInt8 :: packUint (value / 128)
termination_by value
decreasing_by omega

/-- A value takes at least one byte, and no more than there are. -/
theorem unpackUintFrom_length {shift : Nat} {buffer : Bytes} {value length : Nat}
    (h : unpackUintFrom shift buffer = .value value length) :
    1 ≤ length ∧ length ≤ buffer.length := by
  induction buffer generalizing shift value length with
  | nil => simp [unpackUintFrom] at h
  | cons byte rest ih =>
    unfold unpackUintFrom at h
    split at h
    · split at h
      · cases h
        simp
      · split at h
        · next inner =>
          cases h
          have := ih inner
          simp only [List.length_cons]
          omega
        · cases h
        · cases h
    · cases h

/-- A value takes at least one byte, and no more than there are. -/
theorem unpackUint_length {buffer : Bytes} {value length : Nat}
    (h : unpackUint buffer = .value value length) : 1 ≤ length ∧ length ≤ buffer.length :=
  unpackUintFrom_length h

/-- A verdict on an integer holds of every longer buffer. -/
theorem unpackUintFrom_append {shift : Nat} {buffer : Bytes}
    (h : (unpackUintFrom shift buffer).settled = true) (more : Bytes) :
    unpackUintFrom shift (buffer ++ more) = unpackUintFrom shift buffer := by
  induction buffer generalizing shift with
  | nil => simp [unpackUintFrom, Decoded.settled] at h
  | cons byte rest ih =>
    simp only [List.cons_append, unpackUintFrom] at h ⊢
    split at h
    · next fit =>
      simp only [if_pos fit] at h ⊢
      split at h
      · next last => simp only [if_pos last]
      · next goesOn =>
        simp only [if_neg goesOn]
        rw [ih]
        revert h
        cases unpackUintFrom (shift + 7) rest <;> simp [Decoded.settled]
    · next fit => simp only [if_neg fit]

/-- A verdict on an integer holds of every longer buffer. -/
theorem unpackUint_append {buffer : Bytes} (h : (unpackUint buffer).settled = true)
    (more : Bytes) : unpackUint (buffer ++ more) = unpackUint buffer :=
  unpackUintFrom_append h more

/-- Write a byte string after its length. -/
def packString (bytes : Bytes) : Bytes :=
  packUint bytes.length ++ bytes

/-- Read a byte string from the front of a buffer. The reported length counts the length field. -/
def unpackString (buffer : Bytes) : Decoded Bytes :=
  match unpackUint buffer with
  | .value size length =>
    if wordBound ≤ length + size then .malformed
    else if length + size ≤ buffer.length then
      .value ((buffer.drop length).take size) (length + size)
    else .needMore
  | .needMore => .needMore
  | .malformed => .malformed

/-- The number of bytes that the byte string at the front of a buffer takes, and zero if there is no
telling or no byte string starts like this. -/
def stringSpan (buffer : Bytes) : Nat :=
  match unpackUint buffer with
  | .value size length => if wordBound ≤ length + size then 0 else length + size
  | _ => 0

/-- Once the length of a byte string is known, its verdict waits for as many bytes as it takes. -/
theorem settled_unpackString {buffer : Bytes} (h : (unpackUint buffer).settled = true)
    (more : Bytes) :
    (unpackString (buffer ++ more)).settled =
      decide (stringSpan buffer ≤ (buffer ++ more).length) := by
  unfold unpackString stringSpan
  rw [unpackUint_append h more]
  revert h
  cases unpackUint buffer with
  | value size length =>
    intro _
    simp only
    split
    · simp [Decoded.settled]
    · split <;> simp_all [Decoded.settled]
  | needMore => simp [Decoded.settled]
  | malformed => simp [Decoded.settled]

end TableReplica.Wire
