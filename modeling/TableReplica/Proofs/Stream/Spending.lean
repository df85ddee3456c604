import TableReplica.Proofs.Format.Numerals
import TableReplica.Proofs.Machine.Reading

/-!
# What an operation takes off its stream

From one cursor to a later one bytes come in and bytes are consumed. `Spends` weighs them against
each other: the bytes that were unread and those that came since are the bytes consumed and then
those that are unread now. `Conserves` says of an operation that it spends what its answer stands
for, and nothing if it fails. There is one theorem for each operation of a cursor.
-/

namespace TableReplica.Transport

open Wire Format

/-- The data bytes that an arrival brings. -/
def Arrival.bytes : Arrival → Bytes
  | data bytes => bytes
  | _ => []

/-- The data bytes that the reads of a connection bring, whatever happens between them. -/
def Connection.bytes (connection : Connection) : Bytes :=
  connection.flatMap Arrival.bytes

/-- Connections one after the other bring the bytes of both. -/
theorem Connection.bytes_append (first second : Connection) :
    bytes (first ++ second) = first.bytes ++ second.bytes :=
  List.flatMap_append

/-- A connection brings as many bytes as its size says. -/
theorem Connection.length_bytes (connection : Connection) :
    connection.bytes.length = connection.size := by
  induction connection with
  | nil => rfl
  | cons arrival rest ih =>
      rw [bytes, List.flatMap_cons, List.length_append, ← bytes, ih, size]
      cases arrival <;> rfl

/-- What comes before anything else happens is not all of it. -/
theorem Connection.length_delivery_le (connection : Connection) :
    connection.delivery.bytes.length ≤ connection.size := by
  fun_induction delivery connection with
  | case3 byte more rest ih =>
      simp only [List.length_append, size, Arrival.size]
      omega
  | case1 | case2 | case4 | case5 => exact Nat.zero_le _

namespace Cursor

/-- Between two cursors these bytes were consumed, of those unread and those read since, and what
was committed stays so. -/
structure Spends (spent : Bytes) (cursor after : Cursor) : Prop where
  balance : ∃ reads : Connection, cursor.incoming = reads ++ after.incoming ∧
    cursor.unread ++ reads.bytes = spent ++ after.unread
  consumed_eq : after.consumed = cursor.consumed + spent.length
  committed_le : cursor.committed ≤ after.committed

/-- An operation that succeeds may spend bytes as its answer says. One that fails spends none. -/
def Charges {α : Type} (costs : α → Bytes → Prop) : Except ReplicaError α → Bytes → Prop
  | .ok value, spent => costs value spent
  | .error _, spent => spent = []

/-- An operation spends what its answer stands for. -/
def Conserves {α : Type} (operation : Cursor → Except ReplicaError α × Cursor)
    (costs : α → Bytes → Prop) : Prop :=
  ∀ cursor, ∃ spent, Charges costs (operation cursor).1 spent ∧
    Spends spent cursor (operation cursor).2

/-- An answer that stands for no bytes. -/
def Free {α : Type} : α → Bytes → Prop := fun _ spent => spent = []

section

variable {α : Type} {what : String} {spent more : Bytes} {cursor middle after : Cursor}

namespace Spends

/-- Nothing is spent where nothing is read and nothing decoded. -/
theorem still (hincoming : after.incoming = cursor.incoming)
    (hunread : after.unread = cursor.unread) (hconsumed : after.consumed = cursor.consumed)
    (hcommitted : cursor.committed ≤ after.committed) :
    Spends [] cursor after :=
  ⟨⟨[], hincoming.symm, by rw [hunread]; exact List.append_nil _⟩, hconsumed, hcommitted⟩

/-- Doing nothing spends nothing. -/
theorem refl (cursor : Cursor) : Spends [] cursor cursor :=
  still rfl rfl rfl (Nat.le_refl _)

/-- What is spent adds up. -/
theorem trans (hfirst : Spends spent cursor middle) (hsecond : Spends more middle after) :
    Spends (spent ++ more) cursor after := by
  obtain ⟨⟨reads, hreads, hbytes⟩, hconsumed, hcommitted⟩ := hfirst
  obtain ⟨⟨later, hlater, hothers⟩, htotal, hmore⟩ := hsecond
  refine ⟨⟨reads ++ later, by rw [hreads, hlater, List.append_assoc], ?_⟩, ?_,
    hcommitted.trans hmore⟩
  · calc cursor.unread ++ Connection.bytes (reads ++ later)
        = (cursor.unread ++ reads.bytes) ++ later.bytes := by
          rw [Connection.bytes_append, List.append_assoc]
      _ = spent ++ (middle.unread ++ later.bytes) := by rw [hbytes, List.append_assoc]
      _ = spent ++ more ++ after.unread := by rw [hothers, List.append_assoc]
  · rw [htotal, hconsumed, List.length_append, Nat.add_assoc]

/-- Nothing is spent before something is. -/
theorem after_free (hfirst : Spends [] cursor middle) (hsecond : Spends spent middle after) :
    Spends spent cursor after :=
  hfirst.trans hsecond

/-- The bytes still to be read, unread or consumed are as many as before. -/
theorem conserved (h : Spends spent cursor after) :
    after.consumed + after.unread.length + after.incoming.size =
      cursor.consumed + cursor.unread.length + cursor.incoming.size := by
  obtain ⟨⟨reads, hreads, hbytes⟩, hconsumed, -⟩ := h
  have hlength := congrArg List.length hbytes
  rw [← Connection.length_bytes, ← Connection.length_bytes, hreads, Connection.bytes_append]
  simp only [List.length_append] at hlength ⊢
  omega

end Spends

/-- A read moves bytes from the connection to the buffer. -/
theorem spends_fill (what : String) (cursor : Cursor) :
    Spends [] cursor (cursor.fill what).2 := by
  unfold fill
  split
  · exact .refl cursor
  · split
    · exact .still rfl rfl rfl (Nat.le_refl _)
    · next rest hincoming =>
        exact ⟨⟨[.data []], hincoming, List.append_nil _⟩, rfl, Nat.le_refl _⟩
    · next byte more rest hincoming =>
        refine ⟨⟨[.data (byte :: more)], hincoming, ?_⟩, rfl, Nat.le_refl _⟩
        simp [Connection.bytes, Arrival.bytes, facing, receive]
    · next reason rest hincoming =>
        exact ⟨⟨[.fault reason], hincoming, List.append_nil _⟩, rfl, Nat.le_refl _⟩
    · exact .refl cursor

/-- Waiting moves bytes from the connection to the buffer. -/
theorem spends_await (what : String) (wanted : Bytes → Bool) (cursor : Cursor) :
    Spends [] cursor (cursor.await what wanted).2 := by
  fun_induction await what wanted cursor with
  | case1 cursor _ => exact .refl cursor
  | case2 cursor _ middle hfill ih =>
      have hread := spends_fill what cursor
      rw [hfill] at hread
      exact hread.after_free ih
  | case3 cursor _ middle hfill | case4 cursor _ error middle hfill =>
      have hread := spends_fill what cursor
      rwa [hfill] at hread

/-- Decoding spends the bytes that it counts as decoded. -/
theorem spends_advance {length : Nat} (h : length ≤ cursor.unread.length) :
    Spends (cursor.unread.take length) cursor (cursor.advance length) := by
  refine ⟨⟨[], rfl, ?_⟩, ?_, Nat.le_refl _⟩
  · simp [Connection.bytes, advance]
  · simp [consumed, advance, h, Nat.add_assoc]

/-- Committing spends nothing that was not spent when it was decoded. -/
theorem spends_afterCommit (cursor : Cursor) : Spends [] cursor cursor.afterCommit :=
  .still rfl rfl rfl (Nat.le_add_right _ _)

/-- Taking spends the bytes that it takes. -/
theorem spends_afterTake (cursor : Cursor) (count : Nat) :
    Spends (cursor.unread.take count) cursor (cursor.afterTake count) := by
  refine ⟨⟨[], rfl, ?_⟩, ?_, Nat.le_add_right _ _⟩
  · simp [Connection.bytes, afterTake]
  · simp only [consumed, afterTake]
    omega

/-- An operation that waits first spends what it spends when the wait is over. -/
theorem conserves_conclude {wanted : Bytes → Bool} {costs : α → Bytes → Prop}
    {finish : Bool → Cursor → Except ReplicaError α × Cursor}
    (h : ∀ found after, ∃ spent, Charges costs (finish found after).1 spent ∧
      Spends spent after (finish found after).2) :
    Conserves (fun cursor => conclude finish (cursor.await what wanted)) costs := by
  intro cursor
  have hwait := spends_await what wanted cursor
  show ∃ spent, Charges costs (conclude finish (cursor.await what wanted)).1 spent ∧
    Spends spent cursor (conclude finish (cursor.await what wanted)).2
  generalize cursor.await what wanted = waited at hwait ⊢
  obtain ⟨error | found, ready⟩ := waited
  · exact ⟨[], rfl, hwait⟩
  · obtain ⟨spent, hcharged, hspent⟩ := h found ready
    exact ⟨spent, hcharged, hwait.after_free hspent⟩

/-- What fails on the spot, or answers for no bytes, spends none. -/
theorem charges_free (outcome : Except ReplicaError α) : Charges Free outcome [] := by
  cases outcome <;> rfl

/-- Waiting for bytes spends nothing. -/
theorem conserves_ensure (what : String) (count : Nat) : Conserves (ensure what count) Free := by
  rw [funext (ensure_eq_conclude what count)]
  exact conserves_conclude fun _ after => ⟨[], charges_free _, .refl after⟩

/-- Nor does reading ahead. -/
theorem conserves_readAhead (what : String) (count : Nat) :
    Conserves (readAhead what count) Free := by
  rw [funext (readAhead_eq_conclude what count)]
  exact conserves_conclude fun _ after => ⟨[], charges_free _, .refl after⟩

/-- Nor does looking for the end. -/
theorem conserves_expectEnd : Conserves expectEnd Free := by
  rw [funext expectEnd_eq_conclude]
  exact conserves_conclude fun _ after => ⟨[], charges_free _, .refl after⟩

/-- Decoding spends the bytes of the value that was decoded. -/
theorem spends_settle {unpack : Bytes → Decoded α} (hstable : Stable unpack)
    {costs : α → Bytes → Prop} (cursor : Cursor)
    (hcosts : ∀ value length, unpack cursor.unread = .value value length →
      costs value (cursor.unread.take length)) :
    ∃ spent, Charges costs (cursor.settle what unpack).1 spent ∧
      Spends spent cursor (cursor.settle what unpack).2 := by
  unfold settle
  split
  · next value length hvalue =>
      exact ⟨_, hcosts value length hvalue, spends_advance (hstable.length_le hvalue)⟩
  · exact ⟨[], rfl, .refl cursor⟩
  · exact ⟨[], rfl, .refl cursor⟩

/-- An integer spends one of its spellings. -/
theorem conserves_readUint (what : String) :
    Conserves (readUint what) fun value spent =>
      ∃ numeral : Numeral, numeral.value = value ∧ numeral.spelling = spent := by
  rw [show readUint what = _ from funext (decode_eq_conclude what unpackUint)]
  exact conserves_conclude fun _ after =>
    spends_settle stable_unpackUint after fun _ _ hvalue => exists_numeral hvalue

/-- A byte string within the bound is read off its length and its bytes. -/
theorem exists_of_unpackString {max length : Nat} {buffer value : Bytes}
    (hbound : excess? max buffer = none) (h : unpackString buffer = .value value length) :
    value.length ≤ max ∧ ∃ numeral : Numeral, numeral.value = value.length ∧
      numeral.spelling ++ value = buffer.take length := by
  unfold unpackString at h
  unfold excess? at hbound
  split at h
  · next size start hsize =>
      obtain ⟨numeral, hnumeral, hspelling⟩ := exists_numeral hsize
      simp only [hsize, ite_eq_right_iff, reduceCtorEq, imp_false, not_lt] at hbound
      split at h
      · cases h
      · split at h
        · cases h
          have hlength : ((buffer.drop start).take size).length = size := by
            rw [List.length_take, List.length_drop]
            omega
          rw [hlength]
          exact ⟨hbound, numeral, hnumeral, by rw [hspelling, List.take_add]⟩
        · cases h
  · cases h
  · cases h

/-- A byte string spends a spelling of its length and its bytes. -/
theorem conserves_readString (what : String) (max : Nat) :
    Conserves (readString what max) fun value spent => value.length ≤ max ∧
      ∃ numeral : Numeral, numeral.value = value.length ∧ numeral.spelling ++ value = spent := by
  rw [funext (readString_eq_conclude what max)]
  refine conserves_conclude fun _ after => ?_
  unfold settleString
  cases hexcess : excess? max after.unread with
  | some size => exact ⟨[], rfl, .refl after⟩
  | none =>
      exact spends_settle stable_unpackString after fun _ _ hvalue =>
        exists_of_unpackString hexcess hvalue

/-- A byte spends itself. -/
theorem conserves_readByte (what : String) :
    Conserves (readByte what) fun byte spent => spent = [byte] := by
  intro cursor
  obtain ⟨spent, hcharged, hspent⟩ := conserves_ensure what 1 cursor
  unfold readByte
  rcases hready : cursor.ensure what 1 with ⟨error | _, ready⟩
  · rw [hready] at hcharged hspent
    exact ⟨spent, hcharged, hspent⟩
  · rw [hready] at hcharged hspent
    obtain rfl : spent = [] := hcharged
    simp only
    split
    · next byte rest hunread =>
        have htaken : Spends (ready.unread.take 1) ready (ready.advance 1) :=
          spends_advance (by simp [hunread])
        rw [hunread] at htaken
        exact ⟨[byte], rfl, hspent.after_free htaken⟩
    · exact ⟨[], rfl, hspent⟩

/-- A literal spends itself if it is there. -/
theorem spends_skipLiteral (literal : Bytes) (cursor : Cursor) :
    Spends (if (cursor.skipLiteral literal).1 then literal else []) cursor
      (cursor.skipLiteral literal).2 := by
  unfold skipLiteral
  split
  · next hfound =>
      have hinitial := List.isPrefixOf_iff_prefix.mp hfound
      have htaken := spends_advance hinitial.length_le
      rwa [← List.prefix_iff_eq_take.mp hinitial] at htaken
  · exact .refl cursor

end

end Cursor

end TableReplica.Transport
