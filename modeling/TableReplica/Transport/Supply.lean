import TableReplica.Transport.Waiting

/-!
# Reading uses up the stream

The supply of a cursor is the number of bytes that are still to be decoded. Waiting for bytes moves
them and changes no count, so every operation of a cursor leaves the supply as it is or lowers it by
what it decodes; reading a byte or an integer lowers it. The loops over a changeset end for this
reason.
-/

namespace TableReplica.Transport.Cursor

open Wire

variable {cursor after : Cursor}

/-- The supply is what was read and what is to come. -/
theorem supply_facing (cursor : Cursor) (incoming : Connection) :
    (cursor.facing incoming).supply = cursor.unread.length + incoming.size :=
  rfl

/-- A read moves bytes that were to come to those that were read. -/
theorem supply_fill (what : String) (cursor : Cursor) :
    (cursor.fill what).2.supply = cursor.supply := by
  unfold fill
  split
  · rfl
  · split <;> simp_all [supply, facing, receive, Connection.size, Arrival.size]
    omega

/-- So do all reads of a wait. -/
theorem supply_await (what : String) (wanted : Bytes → Bool) (cursor : Cursor) :
    (cursor.await what wanted).2.supply = cursor.supply := by
  fun_induction await what wanted cursor with
  | case1 => rfl
  | case2 cursor _ after eq ih =>
    rw [ih, ← supply_fill what cursor, eq]
  | case3 cursor _ after eq => rw [← supply_fill what cursor, eq]
  | case4 cursor _ error after eq => rw [← supply_fill what cursor, eq]

/-- Decoding bytes lowers the supply by as many. -/
theorem supply_advance (cursor : Cursor) (length : Nat) :
    (cursor.advance length).supply + min length cursor.unread.length = cursor.supply := by
  simp only [supply, advance, List.length_drop]
  omega

/-- Waiting for bytes decodes none. -/
theorem supply_ensure (what : String) (count : Nat) (cursor : Cursor) :
    (cursor.ensure what count).2.supply = cursor.supply := by
  have h := supply_await what (fun unread => decide (count ≤ unread.length)) cursor
  unfold ensure
  rw [awaitLength_eq]
  split <;> simp_all

/-- Reading a byte lowers the supply. -/
theorem supply_readByte_lt {what : String} {byte : UInt8}
    (h : cursor.readByte what = (.ok byte, after)) : after.supply < cursor.supply := by
  have same := supply_ensure what 1 cursor
  unfold readByte at h
  split at h
  · next ready eq =>
    rw [eq] at same
    split at h
    · next unread =>
      cases h
      have lower := supply_advance ready 1
      simp only [unread, List.length_cons] at lower
      simp only at same
      omega
    · cases h
  · cases h

/-- Decoding a value never raises the supply. -/
theorem supply_decode_le {α : Type} (what : String) (unpack : Bytes → Decoded α) (cursor : Cursor) :
    (cursor.decode what unpack).2.supply ≤ cursor.supply := by
  have same := supply_await what (fun unread => (unpack unread).settled) cursor
  unfold decode settle
  split
  · next ready eq =>
    rw [eq] at same
    split
    · next length _ =>
      have lower := supply_advance ready length
      simp only at same ⊢
      omega
    · simp_all
    · simp_all
  · simp_all

/-- Reading an integer lowers the supply. -/
theorem supply_readUint_lt {what : String} {value : Nat}
    (h : cursor.readUint what = (.ok value, after)) : after.supply < cursor.supply := by
  have same := supply_await what (fun unread => (unpackUint unread).settled) cursor
  unfold readUint decode settle at h
  split at h
  · next ready eq =>
    rw [eq] at same
    split at h
    · next length unpacked =>
      cases h
      have lower := supply_advance ready length
      have bounds := unpackUint_length unpacked
      simp only at same
      omega
    · cases h
    · cases h
  · cases h

/-- Nor does reading a string. -/
theorem supply_readString_le (what : String) (max : Nat) (cursor : Cursor) :
    (cursor.readString what max).2.supply ≤ cursor.supply := by
  have same := supply_await what (fun unread => (unpackUint unread).settled) cursor
  rw [readString_eq]
  split
  · next ready eq =>
    rw [eq] at same
    split
    · simp_all
    · have lower := supply_decode_le what unpackString ready
      simp only at same
      omega
  · simp_all

end TableReplica.Transport.Cursor
