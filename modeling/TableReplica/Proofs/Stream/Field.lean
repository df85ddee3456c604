import TableReplica.Proofs.Stream.Delivery
import TableReplica.Wire.Changeset

/-!
# Fields of a stream

What a reading operation answers is settled by the bytes ahead of the cursor: they start with a
value, or they are wrong whatever follows them, or they do not suffice. A `Verdict` tells which, and
`Follows` says that an operation answers by it, in however many reads the bytes come. The ending of
the stream matters only where the bytes do not suffice. The main results are one theorem for each
operation: `follows_readByte`, `follows_readUint`, `follows_readString` and `ensure_spec`.
-/

namespace TableReplica.Transport

open Wire

/-- Why nothing more can be decoded. -/
inductive Stop where
  /-- The bytes ahead do not suffice. The error is the one to report if the stream is closed. -/
  | starved (what : String) (closed : ProtocolError)
  /-- The bytes ahead are wrong, whatever comes after them. -/
  | refused (error : ReplicaError)
  deriving Repr, DecidableEq

/-- The bytes ahead end before the item that is wanted. -/
def Stop.truncated (what : String) : Stop := .starved what (.truncated what)

/-- The error that is reported when nothing more can be decoded. -/
def Ending.report : Ending → Stop → ReplicaError
  | _, .refused error => error
  | .closed, .starved _ error => .protocol error
  | .stalled, .starved what _ => .protocol (.timeout what)
  | .broken reason, .starved _ _ => .transport reason

/-- What the bytes ahead of a cursor start with: a value and the number of bytes that it takes. -/
abbrev Verdict (α : Type) := Bytes → Except Stop (α × Nat)

namespace Verdict

/-- One byte. -/
def byte (what : String) : Verdict UInt8
  | [] => .error (.truncated what)
  | first :: _ => .ok (first, 1)

/-- A value on which a decoder gives the verdict. -/
def ofDecoder {α : Type} (what : String) (unpack : Bytes → Decoded α) : Verdict α := fun bytes =>
  match unpack bytes with
  | .value value length => .ok (value, length)
  | .malformed => .error (.refused (.protocol (.malformedInteger what)))
  | .needMore => .error (.truncated what)

/-- An integer. -/
def uint (what : String) : Verdict Nat := ofDecoder what unpackUint

/-- A byte string of at most `max` bytes. -/
def string (what : String) (max : Nat) : Verdict Bytes := fun bytes =>
  match Cursor.excess? max bytes with
  | some size => .error (.refused (.protocol (.payloadTooLarge what size max)))
  | none => ofDecoder what unpackString bytes

/-- The bytes that every changeset starts with. -/
def magic : Verdict Unit := fun bytes =>
  if Wire.magic <+: bytes then .ok ((), Wire.magic.length)
  else if bytes.length < Wire.magic.length then .error (.starved "changeset header" .badMagic)
  else .error (.refused (.protocol .badMagic))

end Verdict

/-- The verdict of a decoder stands once it is settled, and a value lies within the buffer. -/
structure Stable {α : Type} (unpack : Bytes → Decoded α) : Prop where
  append {buffer : Bytes} (h : (unpack buffer).settled = true) (more : Bytes) :
    unpack (buffer ++ more) = unpack buffer
  length_le {buffer : Bytes} {value : α} {length : Nat}
    (h : unpack buffer = .value value length) : length ≤ buffer.length

/-- Of a value that takes all the bytes, no smaller part of them can tell. -/
theorem Stable.needMore_of_isPrefix {α : Type} {unpack : Bytes → Decoded α}
    (hstable : Stable unpack) {value : α} {whole initial : Bytes}
    (hwhole : unpack whole = .value value whole.length) (hinitial : initial <+: whole)
    (hproper : initial ≠ whole) : unpack initial = .needMore := by
  by_contra hverdict
  obtain ⟨more, rfl⟩ := hinitial
  rw [hstable.append (Decoded.settled_iff.mpr hverdict)] at hwhole
  have hlength : (initial ++ more).length ≤ initial.length := hstable.length_le hwhole
  rw [List.length_append] at hlength
  have hnil : more = [] := List.length_eq_zero_iff.mp (by omega)
  exact hproper (by rw [hnil, List.append_nil])

theorem stable_unpackUint : Stable unpackUint :=
  ⟨unpackUint_append, fun h => (unpackUint_length h).2⟩

/-- A byte string with a complete length is settled as soon as it can be. -/
theorem stable_unpackString : Stable unpackString := by
  constructor
  · intro buffer hsettled more
    -- A settled length stays, and the string stays once the buffer reaches to its end.
    unfold unpackString at hsettled ⊢
    cases huint : unpackUint buffer with
    | needMore => simp [huint, Decoded.settled] at hsettled
    | malformed => rw [unpackUint_append (by simp [huint, Decoded.settled]), huint]
    | value size length =>
        rw [unpackUint_append (by simp [huint, Decoded.settled]), huint]
        simp only [huint] at hsettled ⊢
        split at hsettled
        · next hover => rw [if_pos hover, if_pos hover]
        · next hfits =>
            split at hsettled
            · next hwhole =>
                rw [if_neg hfits, if_neg hfits, if_pos hwhole,
                  if_pos (Nat.le_trans hwhole (by simp)), List.drop_append_of_le_length (by omega),
                  List.take_append_of_le_length (by simp; omega)]
            · simp [Decoded.settled] at hsettled
  · intro buffer value length h
    unfold unpackString at h
    split at h
    · split at h
      · cases h
      · split at h
        · cases h
          assumption
        · cases h
    all_goals cases h

namespace Cursor

/-- An answer gives a verdict on the bytes ahead: it has decoded the value and moved on by its
length, or it has failed as the ending of the stream tells. -/
inductive Gives {α : Type} (cursor : Cursor) :
    Except Stop (α × Nat) → Except ReplicaError α × Cursor → Prop where
  | value (value : α) (length : Nat) (after : Cursor) :
      after.position = cursor.position.advance length → after.ending = cursor.ending →
      Gives cursor (.ok (value, length)) (.ok value, after)
  | stop (stop : Stop) (after : Cursor) :
      Gives cursor (.error stop) (.error (cursor.ending.report stop), after)

/-- Where the buffer ends does not matter. -/
theorem Gives.of_alike {α : Type} {first second : Cursor} {verdict : Except Stop (α × Nat)}
    {answer : Except ReplicaError α × Cursor} (halike : first.Alike second)
    (h : Gives first verdict answer) : Gives second verdict answer := by
  cases h with
  | value value length after hposition hending =>
      exact .value _ _ _ (halike.position_eq ▸ hposition) (hending.trans halike.ending_eq)
  | stop stop after =>
      rw [halike.ending_eq]
      exact .stop _ _

/-- An operation gives the verdict of a field on the bytes ahead. -/
def Follows {α : Type} (operation : Cursor → Except ReplicaError α × Cursor)
    (field : Verdict α) : Prop :=
  ∀ cursor : Cursor, Gives cursor (field cursor.ahead) (operation cursor)

/-- An operation gives the value that its field finds ahead. -/
theorem Follows.of_ok {α : Type} {operation : Cursor → Except ReplicaError α × Cursor}
    {field : Verdict α} (h : Follows operation field) {cursor : Cursor} {value : α} {length : Nat}
    (hfield : field cursor.ahead = .ok (value, length)) :
    ∃ after, operation cursor = (.ok value, after) ∧
      after.position = cursor.position.advance length ∧ after.ending = cursor.ending := by
  have hgives := h cursor
  rw [hfield] at hgives
  generalize operation cursor = answer at hgives
  cases hgives with
  | value _ _ after hposition hending => exact ⟨after, rfl, hposition, hending⟩

/-- An operation fails where its field does. -/
theorem Follows.of_error {α : Type} {operation : Cursor → Except ReplicaError α × Cursor}
    {field : Verdict α} (h : Follows operation field) {cursor : Cursor} {stop : Stop}
    (hfield : field cursor.ahead = .error stop) :
    ∃ after, operation cursor = (.error (cursor.ending.report stop), after) := by
  have hgives := h cursor
  rw [hfield] at hgives
  generalize operation cursor = answer at hgives
  cases hgives with
  | stop _ after => exact ⟨after, rfl⟩

/-- Decoding bytes that the buffer holds moves the cursor on by them. -/
theorem position_advance {cursor : Cursor} {length : Nat} (h : length ≤ cursor.unread.length) :
    (cursor.advance length).position = cursor.position.advance length := by
  have hnext : (cursor.advance length).ahead = cursor.ahead.drop length := by
    unfold ahead
    cases hended : cursor.ended <;>
      simp [advance, hended, List.drop_append_of_le_length h]
  rw [position, hnext]
  simp only [Position.advance, position, ← take_unread h]
  rfl

theorem ending_advance (cursor : Cursor) (length : Nat) :
    (cursor.advance length).ending = cursor.ending :=
  rfl

variable {what : String} {cursor : Cursor}

/-- Waiting for a number of bytes succeeds if there are as many ahead. -/
theorem ensure_spec (what : String) (count : Nat) (cursor : Cursor) :
    ∃ after, (count ≤ cursor.ahead.length ∧ cursor.ensure what count = (.ok (), after) ∧
        after.Alike cursor ∧ count ≤ after.unread.length) ∨
      (cursor.ahead.length < count ∧ cursor.ensure what count =
        (.error (cursor.ending.report (.truncated what)), after)) := by
  unfold ensure
  rw [awaitLength_eq]
  cases hwaited : cursor.await what (count ≤ ·.length) with
  | mk outcome after =>
      have hcases := hwaited ▸ awaited what (count ≤ ·.length) cursor
      refine ⟨after, ?_⟩
      cases hcases with
      | found _ halike henough =>
          have hcount : count ≤ after.unread.length := of_decide_eq_true henough
          have hbound := after.unread_prefix_ahead.length_le
          rw [halike.ahead_eq] at hbound
          exact .inl ⟨Nat.le_trans hcount hbound, rfl, halike, hcount⟩
      | missed _ _ hshort =>
          refine .inr ⟨Nat.lt_of_not_le (of_decide_eq_false hshort), ?_⟩
          cases cursor.ending <;> rfl

/-- Reading a byte takes the first of the bytes ahead. -/
theorem follows_readByte (what : String) : Follows (readByte what) (.byte what) := by
  intro cursor
  unfold readByte
  obtain ⟨ready, ⟨henough, hready, halike, hheld⟩ | ⟨hshort, hfailed⟩⟩ :=
    ensure_spec what 1 cursor
  · obtain ⟨more, hahead⟩ := ready.unread_prefix_ahead
    cases hunread : ready.unread with
    | nil => simp [hunread] at hheld
    | cons first rest =>
        have hfirst : cursor.ahead = first :: (rest ++ more) := by
          rw [← halike.ahead_eq, ← hahead, hunread, List.cons_append]
        rw [hfirst, hready]
        simp only [hunread]
        refine .of_alike halike (.value _ _ _ (position_advance hheld) (ending_advance _ _))
  · have hnone : cursor.ahead = [] := List.length_eq_zero_iff.mp (by omega)
    rw [hnone, hfailed]
    exact .stop _ _

/-- A byte that is ahead is read. -/
theorem readByte_of_ahead (what : String) {byte : UInt8} {rest : Bytes}
    (h : cursor.ahead = byte :: rest) :
    ∃ after, cursor.readByte what = (.ok byte, after) ∧
      after.position = {
        ahead := rest
        pending := cursor.pending ++ [byte]
        committed := cursor.committed } := by
  have hfield : Verdict.byte what cursor.ahead = .ok (byte, 1) := by rw [h, Verdict.byte]
  obtain ⟨after, hread, hposition, -⟩ := (follows_readByte what).of_ok hfield
  refine ⟨after, hread, ?_⟩
  rw [hposition]
  simp [Position.advance, position, h]

theorem readByte_of_nil (what : String) (h : cursor.ahead = []) :
    ∃ error after, cursor.readByte what = (.error error, after) := by
  have hfield : Verdict.byte what cursor.ahead = .error (.truncated what) := by
    rw [h, Verdict.byte]
  obtain ⟨after, hread⟩ := (follows_readByte what).of_error hfield
  exact ⟨_, after, hread⟩

/-- Waiting for a settled verdict gives the verdict on all the bytes ahead. -/
theorem follows_decode {α : Type} (what : String) {unpack : Bytes → Decoded α}
    (hstable : Stable unpack) : Follows (decode what unpack) (.ofDecoder what unpack) := by
  intro cursor
  unfold decode Verdict.ofDecoder
  cases hwaited : cursor.await what fun unread => (unpack unread).settled with
  | mk outcome after =>
      have hcases := hwaited ▸ awaited what (fun unread => (unpack unread).settled) cursor
      cases hcases with
      | found _ halike hsettled =>
          -- The verdict on the buffer is settled, so the bytes beyond it do not change it.
          obtain ⟨more, hahead⟩ := after.unread_prefix_ahead
          have hverdict : unpack cursor.ahead = unpack after.unread := by
            rw [← halike.ahead_eq, ← hahead, hstable.append hsettled]
          rw [hverdict]
          simp only [settle]
          cases hunpack : unpack after.unread with
          | value value length =>
              exact .of_alike halike (.value _ _ _ (position_advance (hstable.length_le hunpack))
                (ending_advance _ _))
          | malformed => exact .stop (.refused _) _
          | needMore => simp [hunpack, Decoded.settled] at hsettled
      | missed _ hunread hshort =>
          -- Not even all the bytes ahead suffice, so the answer is the ending's.
          have hneed : unpack cursor.ahead = .needMore := Decoded.settled_eq_false_iff.mp hshort
          have hstop : Gives cursor (.error (.truncated what) : Except Stop (α × Nat))
              (.error (cursor.ending.report (.truncated what)), after) := .stop _ _
          rw [hneed]
          revert hstop
          cases cursor.ending <;>
            simp [Ending.answer, settle, hunread, hneed, Ending.report, Stop.truncated]

/-- Reading an integer gives the verdict of the decoder on the bytes ahead. -/
theorem follows_readUint (what : String) : Follows (readUint what) (.uint what) :=
  follows_decode what stable_unpackUint

/-- Whether a length is above the bound is known once it is settled. -/
theorem excess?_append {buffer : Bytes} (max : Nat) (h : (unpackUint buffer).settled = true)
    (more : Bytes) : excess? max (buffer ++ more) = excess? max buffer := by
  unfold excess?
  rw [unpackUint_append h]

/-- Reading a byte string judges the length ahead, and then all of the string. -/
theorem follows_readString (what : String) (max : Nat) :
    Follows (readString what max) (.string what max) := by
  intro cursor
  rw [readString_eq]
  unfold Verdict.string
  cases hwaited : cursor.await what fun unread => (unpackUint unread).settled with
  | mk outcome after =>
      have hcases := hwaited ▸ awaited what (fun unread => (unpackUint unread).settled) cursor
      cases hcases with
      | found _ halike hsettled =>
          obtain ⟨more, hahead⟩ := after.unread_prefix_ahead
          have hexcess : excess? max cursor.ahead = excess? max after.unread := by
            rw [← halike.ahead_eq, ← hahead, excess?_append max hsettled]
          simp only [hexcess]
          -- The length is known. If it is not refused, the string is decoded from the same place.
          cases excess? max after.unread with
          | some size => exact .stop (.refused _) _
          | none =>
              rw [← halike.ahead_eq]
              exact .of_alike halike (follows_decode what stable_unpackString after)
      | missed _ hunread hshort hpending hcommitted hclosed =>
          have hneed : unpackUint cursor.ahead = .needMore :=
            Decoded.settled_eq_false_iff.mp hshort
          have hexcess : excess? max cursor.ahead = none := by simp [excess?, hneed]
          have hstring : Verdict.ofDecoder what unpackString cursor.ahead =
              .error (.truncated what) := by
            simp [Verdict.ofDecoder, unpackString, hneed]
          rw [hexcess]
          cases hending : cursor.ending with
          | closed =>
              -- The length is incomplete, and decoding the string finds the same end.
              have halike := hclosed hending
              simp only [Ending.answer, hunread, hexcess]
              rw [← halike.ahead_eq]
              exact .of_alike halike (follows_decode what stable_unpackString after)
          | stalled | broken =>
              have hstop : Gives cursor (.error (.truncated what) : Except Stop (Bytes × Nat))
                  (.error (cursor.ending.report (.truncated what)), after) := .stop _ _
              rw [hending] at hstop
              rw [hstring]
              exact hstop

/-- Reading ahead ends with as many bytes in the buffer as are wanted, or with all that there will
be, unless the stream does not even end. -/
theorem readAhead_spec (what : String) (count : Nat) (cursor : Cursor) (closed : ProtocolError) :
    ∃ after, (cursor.readAhead what count = (.ok (), after) ∧ after.Alike cursor ∧
        (count ≤ after.unread.length ∨ after.unread = cursor.ahead ∧ cursor.ending = .closed)) ∨
      (cursor.ahead.length < count ∧ cursor.ending ≠ .closed ∧ cursor.readAhead what count =
        (.error (cursor.ending.report (.starved what closed)), after)) := by
  unfold readAhead
  rw [awaitLength_eq]
  cases hwaited : cursor.await what (count ≤ ·.length) with
  | mk outcome after =>
      have hcases := hwaited ▸ awaited what (count ≤ ·.length) cursor
      refine ⟨after, ?_⟩
      cases hcases with
      | found _ halike henough => exact .inl ⟨rfl, halike, .inl (of_decide_eq_true henough)⟩
      | missed _ hunread hshort _ _ hclosed =>
          cases hending : cursor.ending with
          | closed => exact .inl ⟨rfl, hclosed hending, .inr ⟨hunread, rfl⟩⟩
          | stalled | broken =>
              exact .inr ⟨Nat.lt_of_not_le (of_decide_eq_false hshort), by simp, rfl⟩

/-- A literal is looked for in the buffer, which tells the same as all the bytes ahead if it holds
enough of them. -/
theorem prefix_unread_iff {literal : Bytes}
    (h : literal.length ≤ cursor.unread.length ∨ cursor.unread = cursor.ahead) :
    literal <+: cursor.unread ↔ literal <+: cursor.ahead := by
  rcases h with hlong | hall
  · obtain ⟨more, hahead⟩ := cursor.unread_prefix_ahead
    rw [← hahead]
    exact ⟨fun h => h.trans (List.prefix_append _ _),
      fun h => List.prefix_of_prefix_length_le h (List.prefix_append _ _) hlong⟩
  · rw [hall]

/-- Read ahead as far as the magic bytes reach, and decode them. -/
def readMagic (cursor : Cursor) : Except ReplicaError Unit × Cursor :=
  match cursor.readAhead "changeset header" magic.length with
  | (.ok (), ready) =>
    match ready.skipLiteral magic with
    | (true, after) => (.ok (), after)
    | (false, after) => (.error (.protocol .badMagic), after)
  | (.error error, after) => (.error error, after)

/-- Reading the magic bytes gives the verdict on the bytes ahead. A stream that is closed too early
does not start with them. -/
theorem follows_readMagic : Follows readMagic .magic := by
  intro cursor
  unfold readMagic Verdict.magic
  obtain ⟨ready, ⟨hready, halike, hheld⟩ | ⟨hshort, hopen, hfailed⟩⟩ :=
    readAhead_spec "changeset header" magic.length cursor .badMagic
  · have hiff : magic <+: ready.unread ↔ magic <+: cursor.ahead := by
      rw [← halike.ahead_eq]
      exact prefix_unread_iff (hheld.imp id fun h => h.1.trans halike.ahead_eq.symm)
    rw [hready]
    simp only [skipLiteral, List.isPrefixOf_iff_prefix, hiff]
    by_cases hmagic : magic <+: cursor.ahead
    · simp only [if_pos hmagic]
      exact .of_alike halike (.value _ _ _ (position_advance (hiff.mpr hmagic).length_le)
        (ending_advance _ _))
    · simp only [if_neg hmagic]
      split
      · next hshort =>
          -- Fewer bytes than the magic ones are left to look at only if the stream is closed.
          rcases hheld with hlong | ⟨-, hclosed⟩
          · have hbound := ready.unread_prefix_ahead.length_le
            rw [halike.ahead_eq] at hbound
            omega
          · have hstop : Gives cursor
                (.error (.starved "changeset header" .badMagic) : Except Stop (Unit × Nat))
                (.error (cursor.ending.report (.starved "changeset header" .badMagic)), ready) :=
              .stop _ _
            rwa [hclosed] at hstop
      · exact .stop (.refused _) _
  · have hmagic : ¬ magic <+: cursor.ahead := fun h => absurd h.length_le (by omega)
    rw [hfailed, if_neg hmagic, if_pos hshort]
    exact .stop _ _

/-- Bytes ahead are junk at the end of a changeset. How many of them the error counts depends on
the reads. -/
theorem expectEnd_of_junk {cursor : Cursor} (h : cursor.ahead ≠ []) :
    ∃ count after, cursor.expectEnd = (.error (.protocol (.trailingJunk count)), after) := by
  unfold expectEnd
  cases hwaited : cursor.await "end of changeset" (· ≠ []) with
  | mk outcome after =>
      have hcases := hwaited ▸
        awaited "end of changeset" (fun unread => decide (unread ≠ [])) cursor
      cases hcases with
      | found => exact ⟨_, _, rfl⟩
      | missed _ _ hnone => simp [h] at hnone

/-- With no bytes ahead the end of a changeset is found if the stream is closed. -/
theorem expectEnd_of_nil {cursor : Cursor} (h : cursor.ahead = []) :
    ∃ after, cursor.expectEnd =
        (match cursor.ending with
          | .closed => .ok ()
          | ending => .error (ending.report (.truncated "end of changeset")), after) ∧
      (cursor.ending = .closed → after.Alike cursor) := by
  unfold expectEnd
  cases hwaited : cursor.await "end of changeset" (· ≠ []) with
  | mk outcome after =>
      have hcases := hwaited ▸
        awaited "end of changeset" (fun unread => decide (unread ≠ [])) cursor
      cases hcases with
      | found _ halike hsome =>
          have hinitial := after.unread_prefix_ahead
          rw [halike.ahead_eq, h, List.prefix_nil] at hinitial
          simp [hinitial] at hsome
      | missed _ _ _ _ _ hclosed =>
          refine ⟨after, ?_, hclosed⟩
          cases cursor.ending <;> rfl

end Cursor

end TableReplica.Transport
