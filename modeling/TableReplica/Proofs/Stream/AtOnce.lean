import TableReplica.Proofs.Stream.Spending

/-!
# Decoding piece by piece and at once

A field is decoded while its bytes come, by a decoder that is tried on more and more of them. What
comes of it is what the decoder says of all the bytes ahead at once: those that the buffer holds and
those that the connection still delivers, however it cuts them. `AnswersAs` spells that out for a
verdict of the decoder, and `reads_at_once` says it of integers and of byte strings. A byte string
is refused for its length where the length alone is decoded and above the bound.
-/

namespace TableReplica.Transport

open Wire

/-- The error of a reading whose bytes do not suffice, by what comes after them. -/
def Ending.shortage (what : String) : Ending → ReplicaError
  | closed => .protocol (.truncated what)
  | stalled => .protocol (.timeout what)
  | broken reason => .transport reason

theorem Ending.report_truncated (what : String) (ending : Ending) :
    ending.report (.truncated what) = ending.shortage what := by
  cases ending <;> rfl

/-- No shortage is mistaken for bytes that are wrong. -/
theorem Ending.shortage_ne_malformed (what : String) (ending : Ending) :
    ending.shortage what ≠ .protocol (.malformedInteger what) := by
  cases ending <;> simp [shortage]

namespace Cursor

/-- A cursor has moved on by the next `length` bytes: they count as decoded and no byte else. -/
structure MovesOn (cursor : Cursor) (length : Nat) (after : Cursor) : Prop where
  ahead_eq : after.ahead = cursor.ahead.drop length
  pending_eq : after.pending = cursor.pending ++ cursor.ahead.take length
  committed_eq : after.committed = cursor.committed
  consumed_eq : after.consumed = cursor.consumed + length

/-- A reading answers as a decoder says of all the bytes ahead: it moves on by the bytes of the
value, fails at bytes that are wrong, or fails as the ending tells if the bytes do not suffice. -/
structure AnswersAs {α : Type} (what : String) (verdict : Decoded α) (cursor : Cursor)
    (answer : Except ReplicaError α × Cursor) : Prop where
  value_iff (value : α) (length : Nat) :
    answer.1 = .ok value ∧ cursor.MovesOn length answer.2 ↔ verdict = .value value length
  malformed_iff : answer.1 = .error (.protocol (.malformedInteger what)) ↔ verdict = .malformed
  needMore_iff : answer.1 = .error (cursor.ending.shortage what) ↔ verdict = .needMore

section

variable {α : Type} {what : String} {cursor after : Cursor} {length other : Nat}

/-- Moving on by bytes that are ahead decodes just these. -/
theorem movesOn_of_position (hlength : length ≤ cursor.ahead.length)
    (hposition : after.position = cursor.position.advance length) :
    cursor.MovesOn length after where
  ahead_eq := congrArg Position.ahead hposition
  pending_eq := congrArg Position.pending hposition
  committed_eq := congrArg Position.committed hposition
  consumed_eq := by
    have hpending : after.pending = cursor.pending ++ cursor.ahead.take length :=
      congrArg Position.pending hposition
    have hcommitted : after.committed = cursor.committed := congrArg Position.committed hposition
    rw [consumed, consumed, hpending, hcommitted, List.length_append,
      List.length_take_of_le hlength, Nat.add_assoc]

/-- A cursor moves on by one number of bytes. -/
theorem MovesOn.unique (h : cursor.MovesOn length after) (hother : cursor.MovesOn other after) :
    length = other :=
  Nat.add_left_cancel (h.consumed_eq.symm.trans hother.consumed_eq)

/-- An operation that gives the verdict of a decoder answers as the decoder says. -/
theorem answersAs_of_gives {unpack : Bytes → Decoded α} (hstable : Stable unpack)
    {answer : Except ReplicaError α × Cursor}
    (h : Gives cursor (Verdict.ofDecoder what unpack cursor.ahead) answer) :
    AnswersAs what (unpack cursor.ahead) cursor answer := by
  unfold Verdict.ofDecoder at h
  cases hverdict : unpack cursor.ahead with
  | value value length =>
      rw [hverdict] at h
      cases h with
      | value _ _ after hposition _ =>
          have hmoves := movesOn_of_position (hstable.length_le hverdict) hposition
          refine ⟨fun other count => ⟨?_, ?_⟩, by simp, by simp⟩
          · rintro ⟨hvalue, hcount⟩
            obtain rfl : value = other := by simpa using hvalue
            rw [hmoves.unique hcount]
          · intro hsame
            cases hsame
            exact ⟨rfl, hmoves⟩
  | malformed =>
      rw [hverdict] at h
      cases h with
      | stop _ after =>
          have hne := cursor.ending.shortage_ne_malformed what
          refine ⟨by simp, by simp [Ending.report], ?_⟩
          simpa [Ending.report] using Ne.symm hne
  | needMore =>
      rw [hverdict] at h
      cases h with
      | stop _ after =>
          have hne := cursor.ending.shortage_ne_malformed what
          rw [Ending.report_truncated]
          exact ⟨by simp, by simpa using hne, by simp⟩

/-- A byte string is too large if its length is there and above the bound. -/
theorem excess?_eq_some {max size : Nat} {bytes : Bytes} :
    excess? max bytes = some size ↔
      max < size ∧ ∃ length, unpackUint bytes = .value size length := by
  unfold excess?
  cases unpackUint bytes with
  | value found length =>
      simp only [Option.ite_none_right_eq_some, Option.some.injEq, Decoded.value.injEq,
        exists_and_left, exists_eq', and_true]
      constructor
      · rintro ⟨hlarge, rfl⟩
        exact ⟨hlarge, rfl⟩
      · rintro ⟨hlarge, rfl⟩
        exact ⟨hlarge, rfl⟩
  | needMore | malformed => simp

/-- A byte string is refused for its length where the length ahead is above the bound. -/
theorem readString_tooLarge_iff (what : String) (max size : Nat) (cursor : Cursor) :
    (cursor.readString what max).1 = .error (.protocol (.payloadTooLarge what size max)) ↔
      excess? max cursor.ahead = some size := by
  have hgives := follows_readString what max cursor
  unfold Verdict.string at hgives
  generalize cursor.readString what max = answer at hgives ⊢
  cases hexcess : excess? max cursor.ahead with
  | some found =>
      rw [hexcess] at hgives
      cases hgives with
      | stop _ after => simp [Ending.report]
  | none =>
      -- The string itself is decoded, and what that fails with is another error.
      rw [hexcess] at hgives
      have hanswers := answersAs_of_gives stable_unpackString hgives
      simp only [reduceCtorEq, iff_false]
      intro herror
      cases hverdict : unpackString cursor.ahead with
      | value value length =>
          have hvalue := ((hanswers.value_iff value length).mpr hverdict).1
          simp [hvalue] at herror
      | malformed =>
          have hmalformed := hanswers.malformed_iff.mpr hverdict
          simp [hmalformed] at herror
      | needMore =>
          have hshort := hanswers.needMore_iff.mpr hverdict
          rw [hshort] at herror
          revert herror
          cases cursor.ending <;> simp [Ending.shortage]

end

/-- From every place of a stream, an integer and a byte string are read as their decoders say of all
the bytes ahead at once, however they are cut into reads: with the value and its bytes counted as
decoded, with a refusal, or, if the bytes do not suffice, with the error that belongs to what comes
after them. A byte string whose length is above the bound is refused with that length before
anything else, and no other is refused so. -/
theorem reads_at_once (what : String) (max : Nat) (cursor : Cursor) :
    AnswersAs what (unpackUint cursor.ahead) cursor (cursor.readUint what) ∧
      (∀ size, (cursor.readString what max).1 =
          .error (.protocol (.payloadTooLarge what size max)) ↔
        max < size ∧ ∃ length, unpackUint cursor.ahead = .value size length) ∧
      ((¬ ∃ size length, max < size ∧ unpackUint cursor.ahead = .value size length) →
        AnswersAs what (unpackString cursor.ahead) cursor (cursor.readString what max)) := by
  refine ⟨answersAs_of_gives stable_unpackUint (follows_readUint what cursor),
    fun size => (readString_tooLarge_iff what max size cursor).trans excess?_eq_some,
    fun hsmall => ?_⟩
  · have hexcess : excess? max cursor.ahead = none := by
      rw [Option.eq_none_iff_forall_ne_some]
      intro size hsize
      obtain ⟨hlarge, length, hlength⟩ := excess?_eq_some.mp hsize
      exact hsmall ⟨size, length, hlarge, hlength⟩
    have hgives := follows_readString what max cursor
    rw [Verdict.string, hexcess] at hgives
    exact answersAs_of_gives stable_unpackString hgives

/-- A cursor before a byte string whose last byte does not come before the deadline. -/
def stalledString : Cursor :=
  { incoming := [.data [3, 5], .data [6], .stall] }

/-- The byte string is waited for until the time is over. -/
theorem reads_at_once_stalled :
    (stalledString.readString "path" 8).1 = .error (.protocol (.timeout "path")) := by
  have hlength : unpackUint stalledString.ahead = .value 3 1 := by decide +kernel
  have hsmall : ¬ ∃ size length, 8 < size ∧
      unpackUint stalledString.ahead = .value size length := by
    rintro ⟨size, length, hlarge, hvalue⟩
    rw [hlength] at hvalue
    cases hvalue
    exact absurd hlarge (by decide)
  exact ((reads_at_once "path" 8 stalledString).2.2 hsmall).needMore_iff.mpr (by decide +kernel)

end Cursor

end TableReplica.Transport
