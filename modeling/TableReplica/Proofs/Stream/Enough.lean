import TableReplica.Proofs.Stream.Field

/-!
# Reads that are enough

An operation that succeeds has had enough reads, so it comes to the same if more reads are to come
after them, and it leaves those alone. `Enough` says so of an operation on a cursor. There is one
theorem for each operation that reads a field of a header.
-/

namespace TableReplica.Transport.Cursor

open Wire

/-- The cursor with more reads to come after the others. -/
def followedBy (cursor : Cursor) (later : Connection) : Cursor :=
  cursor.facing (cursor.incoming ++ later)

/-- An operation that succeeds does the same with more reads to come, and makes none of them. -/
def Enough {α : Type} (operation : Cursor → Except ReplicaError α × Cursor) : Prop :=
  ∀ {cursor after : Cursor} {value : α}, operation cursor = (.ok value, after) →
    ∀ later, operation (cursor.followedBy later) = (.ok value, after.followedBy later)

variable {what : String} {wanted : Bytes → Bool} {cursor after : Cursor}

/-- A read that brings bytes leaves the reads after it alone. -/
theorem fill_followedBy (h : cursor.fill what = (.ok true, after)) (later : Connection) :
    (cursor.followedBy later).fill what = (.ok true, after.followedBy later) := by
  obtain ⟨incoming, ended, pending, unread, committed⟩ := cursor
  unfold fill at h
  split at h
  · cases h
  · next hopen =>
      split at h <;> cases h
      next byte more rest hincoming =>
        obtain rfl : incoming = .data (byte :: more) :: rest := hincoming
        exact if_neg hopen

/-- Waiting that ends with bytes as wanted leaves the reads after it alone. -/
theorem await_followedBy (h : cursor.await what wanted = (.ok true, after)) (later : Connection) :
    (cursor.followedBy later).await what wanted = (.ok true, after.followedBy later) := by
  fun_induction await what wanted cursor with
  | case1 cursor henough =>
      cases h
      exact await_of_wanted henough
  | case2 cursor hshort middle hfill ih =>
      have hstill : wanted (cursor.followedBy later).unread = false := Bool.eq_false_iff.mpr hshort
      rw [await_of_fill hstill (fill_followedBy hfill later)]
      exact ih h
  | case3 | case4 => cases h

/-- Where the stream ends before the bytes are as wanted, they are not. -/
theorem short_of_await (h : cursor.await what wanted = (.ok false, after)) :
    wanted after.unread = false := by
  fun_induction await what wanted cursor with
  | case1 | case4 => cases h
  | case2 cursor hshort middle hfill ih => exact ih h
  | case3 cursor hshort middle hfill =>
      cases h
      rw [unread_fill hfill (by simp)]
      exact Bool.eq_false_iff.mpr hshort

/-- Where waiting ends with bytes as wanted, they are. -/
theorem wanted_of_await (h : cursor.await what wanted = (.ok true, after)) :
    wanted after.unread = true := by
  fun_induction await what wanted cursor with
  | case1 cursor henough =>
      cases h
      exact henough
  | case2 cursor hshort middle hfill ih => exact ih h
  | case3 | case4 => cases h

/-- A value is decoded from a buffer that starts with it, once it does. -/
theorem decode_eq_ok {α : Type} {unpack : Bytes → Decoded α} {value : α} :
    cursor.decode what unpack = (.ok value, after) ↔
      ∃ ready length, (cursor.await what fun unread => (unpack unread).settled) = (.ok true, ready) ∧
        unpack ready.unread = .value value length ∧ after = ready.advance length := by
  unfold decode settle
  constructor
  · intro h
    rcases hwaited : cursor.await what fun unread => (unpack unread).settled with
      ⟨error | found, ready⟩
    · simp [hwaited] at h
    · simp only [hwaited] at h
      split at h
      · next length hvalue =>
          cases h
          cases found with
          | true => exact ⟨ready, length, rfl, hvalue, rfl⟩
          | false =>
              -- At the end of the stream no verdict was settled.
              have hshort := short_of_await hwaited
              simp [hvalue, Decoded.settled] at hshort
      · cases h
      · cases h
  · rintro ⟨ready, length, hwaited, hvalue, rfl⟩
    simp only [hwaited, hvalue]

/-- A byte is decoded once the buffer has one. -/
theorem readByte_eq_ok {byte : UInt8} :
    cursor.readByte what = (.ok byte, after) ↔
      ∃ ready rest, cursor.awaitLength what 1 = (.ok true, ready) ∧ ready.unread = byte :: rest ∧
        after = ready.advance 1 := by
  unfold readByte ensure
  constructor
  · intro h
    rcases hwaited : cursor.awaitLength what 1 with ⟨error | found, ready⟩
    · simp [hwaited] at h
    · cases found with
      | false => simp [hwaited] at h
      | true =>
          cases hunread : ready.unread with
          | nil => simp [hwaited, hunread] at h
          | cons first rest =>
              simp only [hwaited, hunread, Prod.mk.injEq, Except.ok.injEq] at h
              obtain ⟨rfl, rfl⟩ := h
              exact ⟨ready, rest, rfl, hunread, rfl⟩
  · rintro ⟨ready, rest, hwaited, hunread, rfl⟩
    simp only [hwaited, hunread]

/-- The magic bytes are decoded once the buffer starts with them. -/
theorem readMagic_eq_ok :
    cursor.readMagic = (.ok (), after) ↔
      ∃ ready, cursor.awaitLength "changeset header" magic.length = (.ok true, ready) ∧
        magic <+: ready.unread ∧ after = ready.advance magic.length := by
  unfold readMagic readAhead skipLiteral
  simp only [List.isPrefixOf_iff_prefix]
  constructor
  · intro h
    rcases hwaited : cursor.awaitLength "changeset header" magic.length with
      ⟨error | found, ready⟩
    · simp [hwaited] at h
    · by_cases hmagic : magic <+: ready.unread
      · simp only [hwaited, if_pos hmagic, Prod.mk.injEq, true_and] at h
        cases found with
        | true => exact ⟨ready, rfl, hmagic, h.symm⟩
        | false =>
            -- At the end of the stream the buffer is shorter than the magic bytes.
            rw [awaitLength_eq] at hwaited
            exact absurd hmagic.length_le (of_decide_eq_false (short_of_await hwaited))
      · simp [hwaited, if_neg hmagic] at h
  · rintro ⟨ready, hwaited, hmagic, rfl⟩
    simp only [hwaited, if_pos hmagic]

theorem enough_decode {α : Type} (what : String) (unpack : Bytes → Decoded α) :
    Enough (decode what unpack) := by
  intro cursor after value h later
  obtain ⟨ready, length, hwaited, hvalue, rfl⟩ := decode_eq_ok.mp h
  exact decode_eq_ok.mpr ⟨_, length, await_followedBy hwaited later, hvalue, rfl⟩

theorem enough_readUint (what : String) : Enough (readUint what) :=
  enough_decode what unpackUint

/-- Waiting for a number of bytes that come leaves the reads after them alone. -/
theorem awaitLength_followedBy {count : Nat} (h : cursor.awaitLength what count = (.ok true, after))
    (later : Connection) :
    (cursor.followedBy later).awaitLength what count = (.ok true, after.followedBy later) := by
  rw [awaitLength_eq] at h ⊢
  exact await_followedBy h later

theorem enough_readByte (what : String) : Enough (readByte what) := by
  intro cursor after byte h later
  obtain ⟨ready, rest, hwaited, hunread, rfl⟩ := readByte_eq_ok.mp h
  exact readByte_eq_ok.mpr ⟨_, rest, awaitLength_followedBy hwaited later, hunread, rfl⟩

theorem enough_readMagic : Enough readMagic := by
  intro cursor after _ h later
  obtain ⟨ready, hwaited, hmagic, rfl⟩ := readMagic_eq_ok.mp h
  exact readMagic_eq_ok.mpr ⟨_, awaitLength_followedBy hwaited later, hmagic, rfl⟩

end TableReplica.Transport.Cursor
