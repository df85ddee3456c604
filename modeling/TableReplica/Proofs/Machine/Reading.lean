import TableReplica.Proofs.Machine.Programs
import TableReplica.Proofs.Plan.Carrying
import TableReplica.Proofs.Stream.Enough

/-!
# Reading from a machine's buffer

A cursor keeps the bytes decoded and the bytes unread apart. A machine keeps them in one buffer, and
waits for more of them in a loop of its own for each operation. `Store.memory` is the memory that
holds what a cursor and a store hold. The main results are one equation for each operation, such as
`readUint_memory`: on that memory the program of the machine is no fault, and comes to what the
operation of the cursor comes to. They need that the stream is `InBounds`.
-/

namespace TableReplica.Transport

open Wire

/-- The number of bytes of the stream that have been decoded or taken. -/
def Position.consumed (position : Position) : Nat :=
  position.committed + position.pending.length

/-- The number of bytes of the stream, those before the position and those ahead of it. -/
def Position.extent (position : Position) : Nat :=
  position.consumed + position.ahead.length

namespace Cursor

/-- Go on after waiting, whether it has found what was wanted or the end of the stream. -/
def conclude {α : Type} (finish : Bool → Cursor → Except ReplicaError α × Cursor) :
    Except ReplicaError Bool × Cursor → Except ReplicaError α × Cursor
  | (.ok found, after) => finish found after
  | (.error error, after) => (.error error, after)

variable {what : String} {wanted sooner : Bytes → Bool} {cursor after : Cursor}

/-- Waiting may be done in two parts, if the second wants no less than the first. -/
theorem await_await (h : ∀ unread, wanted unread = true → sooner unread = true) :
    cursor.await what wanted =
      conclude (fun found ready => if found then ready.await what wanted else (.ok false, ready))
        (cursor.await what sooner) := by
  have hboth {unread : Bytes} (hshort : ¬ sooner unread = true) : wanted unread = false :=
    Bool.eq_false_iff.mpr fun hwanted => hshort (h unread hwanted)
  fun_induction await what sooner cursor with
  | case1 cursor henough => rfl
  | case2 cursor hshort middle hfill ih => rw [await_of_fill (hboth hshort) hfill, ih]
  | case3 cursor hshort middle hfill | case4 cursor hshort error middle hfill =>
      rw [await_of_stop (hboth hshort) hfill (by simp)]
      rfl

/-- Waiting adds to the unread bytes. -/
theorem exists_unread_await (what : String) (wanted : Bytes → Bool) (cursor : Cursor) :
    ∃ more, (cursor.await what wanted).2.unread = cursor.unread ++ more := by
  fun_induction await what wanted cursor with
  | case1 cursor henough => exact ⟨[], (List.append_nil _).symm⟩
  | case2 cursor hshort middle hfill ih =>
      obtain ⟨piece, hpiece⟩ := exists_unread_fill hfill
      obtain ⟨more, hmore⟩ := ih
      exact ⟨piece ++ more, by rw [hmore, hpiece, List.append_assoc]⟩
  | case3 cursor hshort middle hfill | case4 cursor hshort error middle hfill =>
      exact ⟨[], by rw [unread_fill hfill (by simp), List.append_nil]⟩

/-- Waiting for a number of bytes ends as the rest of the stream tells. -/
theorem ensure_eq_conclude (what : String) (count : Nat) (cursor : Cursor) :
    cursor.ensure what count =
      conclude (fun found after =>
          (if found then .ok () else .error (.protocol (.truncated what)), after))
        (cursor.await what (count ≤ ·.length)) := by
  unfold ensure
  rw [awaitLength_eq]
  rcases cursor.await what (count ≤ ·.length) with ⟨error | found, after⟩
  · rfl
  · cases found <;> rfl

/-- Reading ahead is waiting for bytes, with any verdict. -/
theorem readAhead_eq_conclude (what : String) (count : Nat) (cursor : Cursor) :
    cursor.readAhead what count =
      conclude (fun _ after => (.ok (), after)) (cursor.await what (count ≤ ·.length)) := by
  unfold readAhead
  rw [awaitLength_eq]
  rcases cursor.await what (count ≤ ·.length) with ⟨error | found, after⟩ <;> rfl

/-- Decoding is waiting until the verdict is settled. -/
theorem decode_eq_conclude {α : Type} (what : String) (unpack : Bytes → Decoded α)
    (cursor : Cursor) :
    cursor.decode what unpack =
      conclude (fun _ after => after.settle what unpack)
        (cursor.await what fun unread => (unpack unread).settled) := by
  unfold decode
  rcases cursor.await what fun unread => (unpack unread).settled with ⟨error | found, after⟩ <;> rfl

/-- Expecting the end is waiting for a byte, which must not come. -/
theorem expectEnd_eq_conclude (cursor : Cursor) :
    cursor.expectEnd =
      conclude (fun found after =>
          (if found then .error (.protocol (.trailingJunk after.unread.length)) else .ok (), after))
        (cursor.await "end of changeset" (· ≠ [])) := by
  unfold expectEnd
  rcases cursor.await "end of changeset" (· ≠ []) with ⟨error | found, after⟩
  · rfl
  · cases found <;> rfl

/-- Whether nothing more is to be waited for: the length of a byte string is above the bound, or the
string is complete. -/
def stringSettled (max : Nat) (unread : Bytes) : Bool :=
  (excess? max unread).isSome || (unpackString unread).settled

/-- What comes of a byte string that nothing more is to be waited for. -/
def settleString (what : String) (max : Nat) (cursor : Cursor) :
    Except ReplicaError Bytes × Cursor :=
  match excess? max cursor.unread with
  | some size => (.error (.protocol (.payloadTooLarge what size max)), cursor)
  | none => cursor.settle what unpackString

/-- A byte string is not judged before its length is known. -/
theorem settled_of_stringSettled {max : Nat} {unread : Bytes}
    (h : stringSettled max unread = true) : (unpackUint unread).settled = true := by
  unfold stringSettled excess? unpackString at h
  cases hlength : unpackUint unread <;> simp_all [Decoded.settled]

/-- Judging the length of a byte string and waiting for the string may be done at once. -/
theorem readString_eq_conclude (what : String) (max : Nat) (cursor : Cursor) :
    cursor.readString what max =
      conclude (fun _ after => after.settleString what max)
        (cursor.await what (stringSettled max)) := by
  rw [readString_eq, await_await fun _ => settled_of_stringSettled]
  rcases hlength : cursor.await what fun unread => (unpackUint unread).settled with
    ⟨error | found, ready⟩
  · rfl
  · cases found with
    | false =>
        -- The stream has ended within the length, so the string is not there either.
        have hshort := short_of_await hlength
        have hneed : unpackUint ready.unread = .needMore := Decoded.settled_eq_false_iff.mp hshort
        have hexcess : excess? max ready.unread = none := by simp [excess?, hneed]
        have hstring : unpackString ready.unread = .needMore := by simp [unpackString, hneed]
        have hstop : ready.fill what = (.ok false, ready) := by
          simp [fill, ended_of_await hlength hshort]
        simp only [hexcess, conclude, settleString, decode_eq_conclude, Bool.false_eq_true,
          if_false]
        rw [await_of_stop (by simp [hstring, Decoded.settled]) hstop (by simp)]
    | true =>
        have hknown := wanted_of_await hlength
        cases hexcess : excess? max ready.unread with
        | some size =>
            have hwanted : stringSettled max ready.unread = true := by simp [stringSettled, hexcess]
            simp only [conclude, if_true, await_of_wanted hwanted, settleString, hexcess]
        | none =>
            -- The length stays within the bound, so it is the string alone that is waited for.
            have hstill (more : Bytes) : excess? max (ready.unread ++ more) = none := by
              rw [excess?_append max hknown, hexcess]
            have hsame : ready.await what (stringSettled max) =
                ready.await what fun unread => (unpackString unread).settled :=
              await_congr what fun more => by simp [stringSettled, hstill more]
            obtain ⟨more, hmore⟩ :=
              exists_unread_await what (fun unread => (unpackString unread).settled) ready
            simp only [hexcess, conclude, if_true, hsame, decode_eq_conclude]
            rcases hwaited : ready.await what fun unread => (unpackString unread).settled with
              ⟨error | found, full⟩
            · rfl
            · have hfull : full.unread = ready.unread ++ more := by rw [← hmore, hwaited]
              simp only [settleString, hfull, hstill more]

end Cursor

end TableReplica.Transport

namespace TableReplica.Apply

open Transport Machine

/-- The memory that holds what a cursor and a store hold. -/
def Store.memory (store : Store) (cursor : Cursor) : Memory :=
  { incoming := cursor.incoming
    ended := cursor.ended
    buffer := cursor.pending ++ cursor.unread
    decoded := cursor.pending.length
    consumed := cursor.committed
    archive := store.archive
    files := store.files }

/-- What a program comes to that does what an operation of the cursor does. -/
def Store.answer {α : Type} (store : Store) :
    Except ReplicaError α × Cursor → EStateM.Result (Abort ReplicaError) Memory α
  | (.ok value, after) => .ok value (store.memory after)
  | (.error error, after) => .error (.error error) (store.memory after)

/-- What a round comes to that leaves its loop with what an operation of the cursor gives. -/
def Store.leave {α : Type} (store : Store) :
    Except ReplicaError α × Cursor → EStateM.Result (Abort ReplicaError) Memory (Unit ⊕ α)
  | (.ok value, after) => .ok (.inr value) (store.memory after)
  | (.error error, after) => .error (.error error) (store.memory after)

end TableReplica.Apply

namespace TableReplica.Machine

open Files Transport Wire Apply

/-- A sequence goes on with the result of an operation that is no fault. -/
theorem check_bind {ε α β : Type} {checked : Checked α} {next : α → ProgramOf ε β}
    {memory : Memory} {value : α} (h : checked = .ok value) :
    (check checked >>= next) memory = next value memory :=
  bind_of_ok (by rw [h]; rfl)

/-- The stream of a cursor has less than `2 ^ 63` bytes, and no more of them are in the archive than
have been committed. -/
structure InBounds (cursor : Cursor) (store : Store) : Prop where
  extent_lt : cursor.position.extent < 2 ^ 63
  written_le : store.archive.written ≤ cursor.committed

section

variable {α : Type} {what : String} {cursor after : Cursor} {store : Store}

/-- At the same place of the stream the bounds are the same. -/
theorem InBounds.of_alike (h : InBounds cursor store) (halike : after.Alike cursor) :
    InBounds after store :=
  ⟨halike.position_eq ▸ h.extent_lt, halike.committed_eq ▸ h.written_le⟩

/-- The bytes committed and those in the buffer can be counted in a word. -/
theorem InBounds.held_lt (h : InBounds cursor store) :
    cursor.committed + cursor.pending.length + cursor.unread.length < wordBound := by
  have hextent := h.extent_lt
  have hunread := cursor.unread_prefix_ahead.length_le
  have hword : 2 ^ 63 < wordBound := by decide
  simp only [Position.extent, Position.consumed, Cursor.position] at hextent
  omega

/-- The bytes that are available are those not decoded yet. -/
theorem available_memory (store : Store) (cursor : Cursor) :
    available (store.memory cursor) = .ok cursor.unread.length (store.memory cursor) := by
  have hlength : sub (cursor.pending ++ cursor.unread).length cursor.pending.length =
      .ok cursor.unread.length := by
    rw [sub_of_le (by simp), List.length_append, Nat.add_sub_cancel_left]
  show check (sub _ _) (store.memory cursor) = _
  simp only [Store.memory, hlength]
  rfl

/-- They are found behind the position in the buffer. -/
theorem undecoded_memory (store : Store) (cursor : Cursor) :
    undecoded (store.memory cursor) = .ok cursor.unread (store.memory cursor) := by
  have hpart : slice (cursor.pending ++ cursor.unread) cursor.pending.length
      (cursor.pending ++ cursor.unread).length = .ok cursor.unread := by
    rw [slice_of_le (by simp) (Nat.le_refl _), List.drop_left, List.length_append,
      Nat.add_sub_cancel_left, List.take_length]
  show check (slice _ _ _) (store.memory cursor) = _
  simp only [Store.memory, hpart]
  rfl

/-- The index moves over bytes that the buffer holds. -/
theorem advance_memory (hbounds : InBounds cursor store) {count : Nat}
    (hcount : count ≤ cursor.unread.length) :
    advance count (store.memory cursor) = .ok () (store.memory (cursor.advance count)) := by
  have hheld := hbounds.held_lt
  have hsum : add wordBound (store.memory cursor).decoded count =
      .ok (cursor.pending.length + count) :=
    add_of_lt (show cursor.pending.length + count < wordBound by omega)
  show (check (add wordBound (store.memory cursor).decoded count) >>= _) (store.memory cursor) = _
  rw [check_bind hsum]
  show EStateM.Result.ok () _ = _
  simp only [Store.memory, Cursor.advance, List.append_assoc, List.take_append_drop,
    List.length_append, List.length_take, Nat.min_eq_left hcount]

/-- Filling the buffer is filling the cursor. -/
theorem fill_memory (what : String) (store : Store) (cursor : Cursor) :
    fill what (store.memory cursor) = store.answer (cursor.fill what) := by
  obtain ⟨incoming, ended, pending, unread, committed⟩ := cursor
  unfold fill Cursor.fill
  cases ended with
  | true => rfl
  | false =>
      rcases incoming with _ | ⟨⟨_ | ⟨byte, more⟩⟩ | reason | _, rest⟩
      case cons.data.cons =>
        simp [Store.memory, Store.answer, Cursor.facing, Cursor.receive]
      all_goals rfl

/-- A loop that reads until the undecoded bytes are as wanted comes to what waiting for them comes
to. Each of its rounds either leaves it or reads once. -/
theorem loop_memory {wanted : Bytes → Bool} {round : Program (Unit ⊕ α)}
    {finish : Bool → Cursor → Except ReplicaError α × Cursor} (ended : Program (Unit ⊕ α))
    (hfound : ∀ cursor, InBounds cursor store → wanted cursor.unread = true →
      round (store.memory cursor) = store.leave (finish true cursor))
    (hshort : ∀ cursor, wanted cursor.unread = false →
      round (store.memory cursor) = fillOr what ended (store.memory cursor))
    (hended : ∀ cursor, wanted cursor.unread = false →
      ended (store.memory cursor) = store.leave (finish false cursor))
    (hbounds : InBounds cursor store) :
    loop Memory.reads (fun _ => round) () (store.memory cursor) =
      store.answer (Cursor.conclude finish (cursor.await what wanted)) := by
  fun_induction Cursor.await what wanted cursor with
  | case1 cursor henough =>
      rw [loop, hfound cursor hbounds henough]
      rcases hfinish : finish true cursor with ⟨error | value, after⟩ <;>
        simp [Cursor.conclude, hfinish, Store.leave, Store.answer]
  | case2 cursor hmiss middle hfill ih =>
      have hread : fill what (store.memory cursor) = .ok true (store.memory middle) := by
        rw [fill_memory, hfill]
        rfl
      have hround : round (store.memory cursor) = .ok (.inl ()) (store.memory middle) := by
        rw [hshort cursor (Bool.eq_false_iff.mpr hmiss), fillOr, bind_of_ok hread]
        rfl
      have hless : (store.memory middle).reads < (store.memory cursor).reads :=
        Cursor.fill_shortens hfill
      rw [loop, hround]
      simp only
      rw [dif_pos hless, ih (hbounds.of_alike (Cursor.alike_of_fill hfill))]
  | case3 cursor hmiss after hfill =>
      have hsame : after.unread = cursor.unread := Cursor.unread_fill hfill (by simp)
      have hread : fill what (store.memory cursor) = .ok false (store.memory after) := by
        rw [fill_memory, hfill]
        rfl
      have hround : round (store.memory cursor) = store.leave (finish false after) := by
        rw [hshort cursor (Bool.eq_false_iff.mpr hmiss), fillOr, bind_of_ok hread,
          ← hended after (hsame ▸ Bool.eq_false_iff.mpr hmiss)]
        rfl
      rw [loop, hround]
      rcases hfinish : finish false after with ⟨error | value, last⟩ <;>
        simp [Cursor.conclude, hfinish, Store.leave, Store.answer]
  | case4 cursor hmiss error after hfill =>
      have hread : fill what (store.memory cursor) =
          .error (.error error) (store.memory after) := by
        rw [fill_memory, hfill]
        rfl
      have hround : round (store.memory cursor) = .error (.error error) (store.memory after) := by
        rw [hshort cursor (Bool.eq_false_iff.mpr hmiss), fillOr, bind_of_error hread]
      rw [loop, hround]
      rfl

/-- Waiting for a number of bytes is no fault. -/
theorem ensure_memory (hbounds : InBounds cursor store) (what : String) (count : Nat) :
    ensure what count (store.memory cursor) = store.answer (cursor.ensure what count) := by
  rw [Cursor.ensure_eq_conclude]
  refine loop_memory (reject (.truncated what)) ?_ ?_ ?_ hbounds
  · intro cursor _ hwanted
    rw [ensureRound, bind_of_ok (available_memory store cursor),
      if_neg (not_lt.mpr (of_decide_eq_true hwanted))]
    rfl
  · intro cursor hmiss
    rw [ensureRound, bind_of_ok (available_memory store cursor),
      if_pos (not_le.mp (of_decide_eq_false hmiss))]
  · exact fun _ _ => rfl

/-- Reading ahead is no fault. -/
theorem readAhead_memory (hbounds : InBounds cursor store) (what : String) (count : Nat) :
    readAhead what count (store.memory cursor) = store.answer (cursor.readAhead what count) := by
  rw [Cursor.readAhead_eq_conclude]
  refine loop_memory (return .inr ()) ?_ ?_ ?_ hbounds
  · intro cursor _ hwanted
    rw [aheadRound, bind_of_ok (available_memory store cursor),
      if_neg (not_lt.mpr (of_decide_eq_true hwanted))]
    rfl
  · intro cursor hmiss
    rw [aheadRound, bind_of_ok (available_memory store cursor),
      if_pos (not_le.mp (of_decide_eq_false hmiss))]
  · exact fun _ _ => rfl

/-- Waiting for the end of the stream is no fault. -/
theorem expectEnd_memory (hbounds : InBounds cursor store) :
    expectEnd (store.memory cursor) = store.answer cursor.expectEnd := by
  rw [Cursor.expectEnd_eq_conclude]
  refine loop_memory (return .inr ()) ?_ ?_ ?_ hbounds
  · intro cursor _ hwanted
    have hjunk : 0 < cursor.unread.length := List.length_pos_iff.mpr (of_decide_eq_true hwanted)
    rw [endRound, bind_of_ok (available_memory store cursor), if_pos hjunk]
    rfl
  · intro cursor hmiss
    have hnone : ¬ 0 < cursor.unread.length :=
      fun hjunk => of_decide_eq_false hmiss (List.length_pos_iff.mp hjunk)
    rw [endRound, bind_of_ok (available_memory store cursor), if_neg hnone]
  · exact fun _ _ => rfl

/-- Decoding the value that the undecoded bytes start with is no fault. -/
theorem settle_memory {unpack : Bytes → Decoded α} (hstable : Stable unpack) (what : String)
    (hbounds : InBounds cursor store) (hsettled : (unpack cursor.unread).settled = true) :
    settle what (unpack cursor.unread) (store.memory cursor) =
      store.leave (cursor.settle what unpack) := by
  unfold Cursor.settle
  cases hunpack : unpack cursor.unread with
  | value value length =>
      rw [settle, bind_of_ok (advance_memory hbounds (hstable.length_le hunpack))]
      rfl
  | malformed => rfl
  | needMore => simp [hunpack, Decoded.settled] at hsettled

/-- A round of reading an integer looks at the bytes not decoded yet. -/
theorem uintRound_memory (what : String) (store : Store) (cursor : Cursor) :
    uintRound what (store.memory cursor) =
      settle what (Wire.unpackUint cursor.unread) (store.memory cursor) := by
  rw [uintRound, bind_of_ok (undecoded_memory store cursor), check_bind (unpackUint_eq _)]

/-- Decoding an integer is no fault. -/
theorem readUint_memory (hbounds : InBounds cursor store) (what : String) :
    readUint what (store.memory cursor) = store.answer (cursor.readUint what) := by
  rw [Cursor.readUint, Cursor.decode_eq_conclude]
  have hmore {unread : Bytes} (hmiss : (Wire.unpackUint unread).settled = false) :
      Wire.unpackUint unread = .needMore :=
    Decoded.settled_eq_false_iff.mp hmiss
  refine loop_memory (reject (.truncated what)) ?_ ?_ ?_ hbounds
  · intro cursor hinside hsettled
    rw [uintRound_memory, settle_memory stable_unpackUint what hinside hsettled]
  · intro cursor hmiss
    rw [uintRound_memory, hmore hmiss]
    rfl
  · intro cursor hmiss
    rw [Cursor.settle, hmore hmiss]
    rfl

/-- A round of decoding a byte string stops if its length is above the bound. -/
theorem stringRound_of_excess {max size : Nat}
    (h : Cursor.excess? max cursor.unread = some size) (what : String) (store : Store) :
    stringRound what max (store.memory cursor) =
      .error (.error (.protocol (.payloadTooLarge what size max))) (store.memory cursor) := by
  rw [stringRound, bind_of_ok (undecoded_memory store cursor), check_bind (unpackUint_eq _)]
  unfold Cursor.excess? at h
  cases hunpack : Wire.unpackUint cursor.unread with
  | value found length =>
      simp only [hunpack, ite_eq_iff, Option.some.injEq, reduceCtorEq, and_false, or_false] at h
      obtain ⟨hlarge, rfl⟩ := h
      have hlimit : limit what max (.value found length) (store.memory cursor) =
          .error (.error (.protocol (.payloadTooLarge what found max))) (store.memory cursor) := by
        rw [limit, require, if_neg (not_le.mpr hlarge)]
        rfl
      exact bind_of_error hlimit
  | needMore | malformed => simp [hunpack] at h

/-- A round of decoding a byte string goes on to the string if its length is not above the bound. -/
theorem stringRound_of_within {max : Nat} (h : Cursor.excess? max cursor.unread = none)
    (what : String) (store : Store) :
    stringRound what max (store.memory cursor) =
      settle what (Wire.unpackString cursor.unread) (store.memory cursor) := by
  rw [stringRound, bind_of_ok (undecoded_memory store cursor), check_bind (unpackUint_eq _)]
  have hlimit : limit what max (Wire.unpackUint cursor.unread) (store.memory cursor) =
      .ok () (store.memory cursor) := by
    unfold Cursor.excess? at h
    cases hunpack : Wire.unpackUint cursor.unread with
    | value size length =>
        simp only [hunpack, ite_eq_right_iff, reduceCtorEq, imp_false, not_lt] at h
        rw [limit, require, if_pos h]
        rfl
    | needMore | malformed => rfl
  rw [bind_of_ok hlimit, bind_of_ok (undecoded_memory store cursor), check_bind (unpackString_eq _)]

/-- Decoding a byte string is no fault. -/
theorem readString_memory (hbounds : InBounds cursor store) (what : String) (max : Nat) :
    readString what max (store.memory cursor) = store.answer (cursor.readString what max) := by
  rw [Cursor.readString_eq_conclude]
  have hmore {unread : Bytes} (hmiss : Cursor.stringSettled max unread = false) :
      Cursor.excess? max unread = none ∧ Wire.unpackString unread = .needMore := by
    simp only [Cursor.stringSettled, Bool.or_eq_false_iff, Option.isSome_eq_false_iff,
      Option.isNone_iff_eq_none] at hmiss
    exact ⟨hmiss.1, Decoded.settled_eq_false_iff.mp hmiss.2⟩
  refine loop_memory (reject (.truncated what)) ?_ ?_ ?_ hbounds
  · intro cursor hinside hsettled
    cases hexcess : Cursor.excess? max cursor.unread with
    | some size =>
        rw [stringRound_of_excess hexcess, Cursor.settleString, hexcess]
        rfl
    | none =>
        have hstring : (Wire.unpackString cursor.unread).settled = true := by
          simpa [Cursor.stringSettled, hexcess] using hsettled
        rw [stringRound_of_within hexcess, Cursor.settleString, hexcess,
          settle_memory stable_unpackString what hinside hstring]
  · intro cursor hmiss
    rw [stringRound_of_within (hmore hmiss).1, (hmore hmiss).2]
    rfl
  · intro cursor hmiss
    simp only [Cursor.settleString, (hmore hmiss).1, Cursor.settle, (hmore hmiss).2]
    rfl

/-- Looking for a literal is no fault. -/
theorem skipLiteral_memory (hbounds : InBounds cursor store) (literal : Bytes) :
    skipLiteral literal (store.memory cursor) =
      .ok (cursor.skipLiteral literal).1 (store.memory (cursor.skipLiteral literal).2) := by
  rw [skipLiteral, bind_of_ok (undecoded_memory store cursor)]
  unfold Cursor.skipLiteral
  by_cases hfound : literal.isPrefixOf cursor.unread = true
  · have hlength := (List.isPrefixOf_iff_prefix.mp hfound).length_le
    rw [if_pos hfound, if_pos hfound, bind_of_ok (advance_memory hbounds hlength)]
    rfl
  · rw [if_neg hfound, if_neg hfound]
    rfl

/-- Decoding a byte is no fault. -/
theorem readByte_memory (hbounds : InBounds cursor store) (what : String) :
    readByte what (store.memory cursor) = store.answer (cursor.readByte what) := by
  have hensure := ensure_memory hbounds what 1
  unfold readByte Cursor.readByte
  obtain ⟨ready, ⟨-, hready, halike, hheld⟩ | ⟨-, hfailed⟩⟩ := Cursor.ensure_spec what 1 cursor
  · rw [hready] at hensure ⊢
    obtain ⟨byte, rest, hunread⟩ := List.exists_cons_of_length_pos hheld
    have hbyte : byteAt (store.memory ready).buffer (store.memory ready).decoded = .ok byte := by
      simp [byteAt, Store.memory, hunread]
    have hadvance := advance_memory (hbounds.of_alike halike) hheld
    rw [bind_of_ok hensure]
    show (check (byteAt (store.memory ready).buffer (store.memory ready).decoded) >>= _)
      (store.memory ready) = _
    rw [check_bind hbyte, bind_of_ok hadvance]
    simp only [hunread]
    rfl
  · rw [hfailed] at hensure ⊢
    rw [bind_of_error hensure]
    rfl

end

end TableReplica.Machine
