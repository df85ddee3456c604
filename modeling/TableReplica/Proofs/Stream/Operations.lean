import TableReplica.Proofs.Machine.Reading

/-!
# One shape for all operations that wait

Every operation of a cursor that reads waits until the unread bytes are as it wants them, or until
the stream has ended, and then goes by the unread bytes alone: they tell what it answers and how
many of them it decodes. A `Wait` is what such an operation is made of. There is one equation for
each operation, so what holds of every wait holds of every operation.
-/

namespace TableReplica.Transport

open Wire

/-- What an operation is made of that waits and then decides. -/
structure Wait (α : Type) where
  /-- What a timeout is reported for. -/
  what : String
  /-- The unread bytes that are waited for. -/
  wanted : Bytes → Bool
  /-- The answer, and the number of unread bytes that it decodes. It may depend on whether the bytes
  came that were waited for. -/
  verdict : Bool → Bytes → Except ProtocolError α × Nat

namespace Wait

variable {α : Type}

/-- What an operation does when the wait is over. -/
def finish (wait : Wait α) (found : Bool) (cursor : Cursor) : Except ReplicaError α × Cursor :=
  ((wait.verdict found cursor.unread).1.mapError .protocol,
    cursor.advance (wait.verdict found cursor.unread).2)

/-- The operation that waits and then decides. -/
def operation (wait : Wait α) (cursor : Cursor) : Except ReplicaError α × Cursor :=
  Cursor.conclude wait.finish (cursor.await wait.what wait.wanted)

/-- The answer that a decoder gives. -/
def judge (what : String) : Decoded α → Except ProtocolError α × Nat
  | .value value length => (.ok value, length)
  | .malformed => (.error (.malformedInteger what), 0)
  | .needMore => (.error (.truncated what), 0)

/-- Waiting for a number of bytes, which must come. -/
def ensure (what : String) (count : Nat) : Wait Unit where
  what
  wanted := (count ≤ ·.length)
  verdict found _ := (if found then .ok () else .error (.truncated what), 0)

/-- Waiting for a number of bytes, which need not come. -/
def readAhead (what : String) (count : Nat) : Wait Unit where
  what
  wanted := (count ≤ ·.length)
  verdict _ _ := (.ok (), 0)

/-- Waiting for a byte and decoding it. -/
def readByte (what : String) : Wait UInt8 where
  what
  wanted := (1 ≤ ·.length)
  verdict _ unread :=
    match unread with
    | byte :: _ => (.ok byte, 1)
    | [] => (.error (.truncated what), 0)

/-- Waiting until a decoder has settled on the unread bytes, and decoding what it finds. -/
def decode (what : String) (unpack : Bytes → Decoded α) : Wait α where
  what
  wanted unread := (unpack unread).settled
  verdict _ unread := judge what (unpack unread)

/-- Waiting for a string of at most `max` bytes, or for a length beyond them. -/
def readString (what : String) (max : Nat) : Wait Bytes where
  what
  wanted := Cursor.stringSettled max
  verdict _ unread :=
    match Cursor.excess? max unread with
    | some size => (.error (.payloadTooLarge what size max), 0)
    | none => judge what (unpackString unread)

/-- Waiting for the end of the stream, where every byte is one too many. -/
def expectEnd : Wait Unit where
  what := "end of changeset"
  wanted := (· ≠ [])
  verdict found unread := (if found then .error (.trailingJunk unread.length) else .ok (), 0)

end Wait

namespace Cursor

variable {α : Type}

/-- Decoding no bytes leaves the cursor as it is. -/
theorem advance_zero (cursor : Cursor) : cursor.advance 0 = cursor := by
  simp [advance]

/-- Operations that do the same after a wait come to the same. -/
theorem conclude_congr {finish other : Bool → Cursor → Except ReplicaError α × Cursor}
    (h : ∀ found after, finish found after = other found after)
    (waited : Except ReplicaError Bool × Cursor) :
    conclude finish waited = conclude other waited := by
  obtain rfl : finish = other := funext fun found => funext (h found)
  rfl

/-- The operation that ensures a number of bytes waits for them. -/
theorem ensure_eq_wait (what : String) (count : Nat) :
    ensure what count = (Wait.ensure what count).operation := by
  funext cursor
  rw [ensure_eq_conclude]
  refine conclude_congr (fun found after => ?_) _
  cases found <;> simp [Wait.finish, Wait.ensure, advance_zero, Except.mapError]

/-- So does the one that reads ahead, and it is content with less. -/
theorem readAhead_eq_wait (what : String) (count : Nat) :
    readAhead what count = (Wait.readAhead what count).operation := by
  funext cursor
  rw [readAhead_eq_conclude]
  refine conclude_congr (fun found after => ?_) _
  simp [Wait.finish, Wait.readAhead, advance_zero, Except.mapError]

/-- What a decoder has settled on is judged by the unread bytes alone. -/
theorem settle_eq_judge (what : String) (unpack : Bytes → Decoded α) (cursor : Cursor) :
    cursor.settle what unpack =
      ((Wait.judge what (unpack cursor.unread)).1.mapError .protocol,
        cursor.advance (Wait.judge what (unpack cursor.unread)).2) := by
  unfold settle
  cases unpack cursor.unread <;> simp [Wait.judge, advance_zero, Except.mapError]

/-- Reading an integer waits until its last byte is there, or it has too many. -/
theorem readUint_eq_wait (what : String) :
    readUint what = (Wait.decode what unpackUint).operation := by
  funext cursor
  rw [readUint, decode_eq_conclude]
  exact conclude_congr (fun _ after => settle_eq_judge what unpackUint after) _

/-- Reading a string waits until it is there, or is known to be too long. -/
theorem readString_eq_wait (what : String) (max : Nat) :
    readString what max = (Wait.readString what max).operation := by
  funext cursor
  rw [readString_eq_conclude]
  refine conclude_congr (fun _ after => ?_) _
  simp only [settleString, Wait.finish, Wait.readString]
  cases excess? max after.unread with
  | some size => simp [advance_zero, Except.mapError]
  | none => exact settle_eq_judge what unpackString after

/-- Expecting the end waits for the end, or for the first byte of junk. -/
theorem expectEnd_eq_wait : expectEnd = Wait.expectEnd.operation := by
  funext cursor
  rw [expectEnd_eq_conclude]
  refine conclude_congr (fun found after => ?_) _
  cases found <;> simp [Wait.finish, Wait.expectEnd, advance_zero, Except.mapError]

/-- Reading a byte waits for it. -/
theorem readByte_eq_wait (what : String) : readByte what = (Wait.readByte what).operation := by
  funext cursor
  unfold readByte Wait.operation
  rw [ensure_eq_conclude]
  show _ = conclude _ (cursor.await what (1 ≤ ·.length))
  rcases hwaited : cursor.await what (1 ≤ ·.length) with ⟨error | found, after⟩
  · rfl
  · cases found with
    | true =>
        simp only [conclude, Wait.finish, Wait.readByte, if_true]
        cases after.unread with
        | nil => simp [advance_zero, Except.mapError]
        | cons byte rest => rfl
    | false =>
        -- The stream has ended before a first byte.
        have hnone : after.unread = [] :=
          List.length_eq_zero_iff.mp (Nat.lt_one_iff.mp
            (not_le.mp (of_decide_eq_false (short_of_await hwaited))))
        simp [conclude, Wait.finish, Wait.readByte, hnone, advance_zero, Except.mapError]

end Cursor

end TableReplica.Transport
