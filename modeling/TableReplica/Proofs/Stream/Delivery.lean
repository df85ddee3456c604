import Mathlib
import TableReplica.Transport.Waiting

/-!
# What a connection delivers

A connection cuts its data into reads. `Connection.delivery` forgets the cuts: it keeps the bytes
that come before anything else happens, and what happens then. A cursor that waits moves bytes from
the connection to its buffer, so the bytes `ahead` of it, received or not, stay the same. Read
`awaited` first: waiting ends either with enough bytes in the buffer, or with all the bytes that
there will be and an answer that depends on the ending alone.
-/

namespace TableReplica.Transport

/-- What comes after the last byte that a connection delivers. -/
inductive Ending where
  /-- The stream ends. -/
  | closed
  /-- Nothing more comes before the deadline. -/
  | stalled
  /-- A read fails. -/
  | broken (reason : String)
  deriving Repr, DecidableEq

/-- What a read answers that meets the ending of a connection. -/
def Ending.answer (what : String) : Ending → Except ReplicaError Bool
  | closed => .ok false
  | stalled => .error (.protocol (.timeout what))
  | broken reason => .error (.transport reason)

/-- The bytes that a connection delivers and what comes after them. -/
structure Delivery where
  bytes : Bytes
  ending : Ending
  deriving Repr, DecidableEq

/-- What a connection delivers, however it cuts its data into reads. -/
def Connection.delivery : Connection → Delivery
  | [] => { bytes := [], ending := .closed }
  | .data [] :: _ => { bytes := [], ending := .closed }
  | .data (byte :: more) :: rest =>
    { bytes := byte :: more ++ (delivery rest).bytes, ending := (delivery rest).ending }
  | .fault reason :: _ => { bytes := [], ending := .broken reason }
  | .stall :: _ => { bytes := [], ending := .stalled }

/-- Reads that bring bytes, one after the other, deliver all of them. -/
theorem Connection.delivery_map_data {reads : List Bytes} (h : ∀ read ∈ reads, read ≠ []) :
    Connection.delivery (reads.map .data) = { bytes := reads.flatten, ending := .closed } := by
  induction reads with
  | nil => rfl
  | cons read rest ih =>
      have hrest := ih fun other hmem => h other (List.mem_cons_of_mem _ hmem)
      cases read with
      | nil => exact absurd rfl (h [] List.mem_cons_self)
      | cons byte more =>
          rw [List.map_cons, Connection.delivery, hrest, List.flatten_cons]

/-- A place in a stream: what was decoded since the last commit, and what is still to come. -/
structure Position where
  /-- The bytes that are still to be decoded. -/
  ahead : Bytes
  /-- Bytes decoded and not yet committed. -/
  pending : Bytes := []
  /-- The number of bytes committed. -/
  committed : Nat := 0
  deriving Repr, DecidableEq

namespace Position

/-- The place after the next `length` bytes were decoded. -/
def advance (position : Position) (length : Nat) : Position :=
  { position with
    ahead := position.ahead.drop length
    pending := position.pending ++ position.ahead.take length }

/-- The place after everything decoded was committed. -/
def commit (position : Position) : Position :=
  { position with
    pending := []
    committed := position.committed + position.pending.length }

/-- The place after the next `length` bytes were taken off the stream, which is after a commit. -/
def take (position : Position) (length : Nat) : Position :=
  { position with
    ahead := position.ahead.drop length
    committed := position.committed + (position.ahead.take length).length }

end Position

namespace Cursor

/-- The bytes that are still to be decoded, received or not. -/
def ahead (cursor : Cursor) : Bytes :=
  if cursor.ended then cursor.unread else cursor.unread ++ cursor.incoming.delivery.bytes

/-- What comes after the bytes ahead. -/
def ending (cursor : Cursor) : Ending :=
  if cursor.ended then .closed else cursor.incoming.delivery.ending

/-- Where the cursor stands in its stream. -/
def position (cursor : Cursor) : Position :=
  { ahead := cursor.ahead, pending := cursor.pending, committed := cursor.committed }

/-- Two cursors stand at the same place of the same stream. Only their buffers may differ, in how
many of the bytes ahead they hold. -/
structure Alike (first second : Cursor) : Prop where
  position_eq : first.position = second.position
  ending_eq : first.ending = second.ending

namespace Alike

variable {first second third : Cursor}

/-- A cursor is like itself. -/
theorem refl (cursor : Cursor) : cursor.Alike cursor :=
  ⟨rfl, rfl⟩

/-- Cursors that are like the same cursor are alike. -/
theorem trans (hfirst : first.Alike second) (hsecond : second.Alike third) : first.Alike third :=
  ⟨hfirst.1.trans hsecond.1, hfirst.2.trans hsecond.2⟩

/-- Cursors that are alike have the same bytes ahead. -/
theorem ahead_eq (h : first.Alike second) : first.ahead = second.ahead :=
  congrArg Position.ahead h.position_eq

/-- They have the same bytes pending. -/
theorem pending_eq (h : first.Alike second) : first.pending = second.pending :=
  congrArg Position.pending h.position_eq

/-- They have committed as many. -/
theorem committed_eq (h : first.Alike second) : first.committed = second.committed :=
  congrArg Position.committed h.position_eq

end Alike

/-- The buffer holds the first of the bytes ahead. -/
theorem unread_prefix_ahead (cursor : Cursor) : cursor.unread <+: cursor.ahead := by
  unfold ahead
  split
  · exact List.prefix_rfl
  · exact List.prefix_append _ _

/-- What waiting may come to, by what is ahead of the cursor that waits. -/
inductive Awaited (what : String) (wanted : Bytes → Bool) (cursor : Cursor) :
    Except ReplicaError Bool × Cursor → Prop where
  | found (after : Cursor) :
      after.Alike cursor → wanted after.unread = true →
      Awaited what wanted cursor (.ok true, after)
  | missed (after : Cursor) :
      after.unread = cursor.ahead → wanted cursor.ahead = false →
      after.pending = cursor.pending → after.committed = cursor.committed →
      (cursor.ending = .closed → after.Alike cursor) →
      Awaited what wanted cursor (cursor.ending.answer what, after)

variable {what : String} {wanted : Bytes → Bool} {cursor after : Cursor}
  {outcome : Except ReplicaError Bool}

/-- A read that brings bytes leaves the cursor at the same place of the stream. -/
theorem alike_of_fill (h : cursor.fill what = (.ok true, after)) : after.Alike cursor := by
  unfold fill at h
  split at h
  · cases h
  · next hopen =>
      split at h
      case h_3 byte more rest hincoming =>
          cases h
          constructor
          · simp [position, ahead, facing, receive, hopen, hincoming, Connection.delivery]
          · simp [ending, facing, receive, hopen, hincoming, Connection.delivery]
      all_goals cases h

/-- A read that brings nothing has met the ending, with all the bytes ahead in the buffer. -/
theorem fill_stop (h : cursor.fill what = (outcome, after)) (hstop : outcome ≠ .ok true) :
    outcome = cursor.ending.answer what ∧ after.unread = cursor.ahead ∧
      after.pending = cursor.pending ∧ after.committed = cursor.committed ∧
      (cursor.ending = .closed → after.Alike cursor) := by
  unfold fill at h
  split at h
  · next hended =>
      cases h
      exact ⟨by simp [ending, hended, Ending.answer], by simp [ahead, hended], rfl, rfl,
        fun _ => .refl _⟩
  · next hopen =>
      split at h <;> cases h
      case h_3 => exact absurd rfl hstop
      all_goals
        next hincoming =>
          refine ⟨?_, ?_, rfl, rfl, fun hclosed => ⟨?_, ?_⟩⟩ <;>
            simp_all [position, ahead, ending, Connection.delivery, Ending.answer]

/-- Waiting ends with enough bytes in the buffer, or with all that there will be. -/
theorem awaited (what : String) (wanted : Bytes → Bool) (cursor : Cursor) :
    Awaited what wanted cursor (cursor.await what wanted) := by
  fun_induction await what wanted cursor with
  | case1 cursor henough => exact .found cursor (.refl cursor) henough
  | case2 cursor hshort middle hfill ih =>
      -- A read brought bytes and left the place alone, so waiting goes on from the same place.
      have hsame := alike_of_fill hfill
      cases hwaited : middle.await what wanted with
      | mk outcome after =>
          rw [hwaited] at ih
          cases ih with
          | found _ halike hwanted => exact .found _ (halike.trans hsame) hwanted
          | missed _ hunread hmiss hpending hcommitted hclosed =>
              rw [hsame.ending_eq]
              exact .missed _ (hunread.trans hsame.ahead_eq) (hsame.ahead_eq ▸ hmiss)
                (hpending.trans hsame.pending_eq) (hcommitted.trans hsame.committed_eq)
                fun h => (hclosed (hsame.ending_eq.trans h)).trans hsame
  | case3 cursor hshort middle hfill | case4 cursor hshort error middle hfill =>
      obtain ⟨houtcome, hunread, hpending, hcommitted, hclosed⟩ := fill_stop hfill (by simp)
      rw [houtcome]
      refine .missed _ hunread ?_ hpending hcommitted hclosed
      -- The read brought nothing, so the buffer that fell short is all that is ahead.
      rw [← hunread, unread_fill hfill (by simp)]
      exact Bool.eq_false_iff.mpr hshort

/-- The cursor after everything decoded was committed. -/
def afterCommit (cursor : Cursor) : Cursor :=
  { cursor with
    pending := []
    committed := cursor.committed + cursor.pending.length }

/-- Committing a cursor commits its position. -/
theorem position_afterCommit (cursor : Cursor) :
    cursor.afterCommit.position = cursor.position.commit :=
  rfl

/-- There is nothing to commit if nothing was decoded. -/
theorem afterCommit_of_nil {cursor : Cursor} (h : cursor.pending = []) :
    cursor.afterCommit = cursor := by
  obtain ⟨incoming, ended, pending, unread, committed⟩ := cursor
  cases h
  rfl

/-- The cursor after the first `count` unread bytes were taken. -/
def afterTake (cursor : Cursor) (count : Nat) : Cursor :=
  { cursor with
    unread := cursor.unread.drop count
    committed := cursor.committed + (cursor.unread.take count).length }

/-- Bytes that the buffer holds are the first of those ahead. -/
theorem take_unread {cursor : Cursor} {count : Nat} (h : count ≤ cursor.unread.length) :
    cursor.unread.take count = cursor.ahead.take count := by
  obtain ⟨more, hahead⟩ := cursor.unread_prefix_ahead
  rw [← hahead, List.take_append_of_le_length h]

/-- Taking bytes from a cursor takes them from its position. -/
theorem position_afterTake {cursor : Cursor} {count : Nat} (h : count ≤ cursor.unread.length) :
    (cursor.afterTake count).position = cursor.position.take count := by
  have hdrop : (cursor.afterTake count).ahead = cursor.ahead.drop count := by
    unfold ahead
    cases hended : cursor.ended <;>
      simp [afterTake, hended, List.drop_append_of_le_length h]
  rw [position, hdrop]
  simp only [Position.take, position, ← take_unread h]
  rfl

end Cursor

end TableReplica.Transport
