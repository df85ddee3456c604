import TableReplica.Proofs.Codec.Digits
import TableReplica.Proofs.Stream.AtOnce

/-!
# When more bytes can help

An integer of which only some bytes are there is `Completable` if there are bytes that complete it.
Ten bytes that all say that more come are not, since an eleventh byte has no place in a word, but
more are asked for if the ten fit into a word so far: such a buffer is an `Overrun`. There is no other
one. Every buffer that nothing completes is refused at once, except for an overrun, which is refused
with the next byte (`unpackUint_of_overrun_append`). A reader waits for that byte. The main result is
`unpackUint_completable`, and `unpackUint_completable_overrun` shows an overrun.
-/

namespace TableReplica.Wire

open Transport

variable {buffer rest : Bytes} {length : Nat}

/-- There are bytes after which the buffer starts with an integer. -/
def Completable (buffer : Bytes) : Prop :=
  ∃ tail value length, unpackUint (buffer ++ tail) = .value value length

/-- Ten bytes that fit into a word, although the tenth says that more come. -/
structure Overrun (buffer : Bytes) : Prop where
  length_eq : buffer.length = 10
  goesOn : ∀ byte ∈ buffer, byte &&& 0x80 ≠ 0
  denoted_lt : denoted buffer < wordBound

theorem pos_of_extent? (h : extent? buffer = some length) : 0 < length := by
  obtain ⟨last, -, rfl⟩ := Option.map_eq_some_iff.mp h
  exact Nat.succ_pos last

/-- Bytes that say that more come do not end an integer. -/
theorem extent?_append (h : ∀ byte ∈ buffer, byte &&& 0x80 ≠ 0) :
    extent? (buffer ++ rest) = (extent? rest).map (· + buffer.length) := by
  induction buffer with
  | nil => simp
  | cons byte buffer ih =>
      obtain ⟨hbyte, hbuffer⟩ := List.forall_mem_cons.mp h
      have hmore : ¬ byte < 128 := mt (Machine.high_eq_zero_iff byte).mpr hbyte
      rw [List.cons_append, extent?_cons, if_neg hmore, ih hbuffer, Option.map_map]
      rfl

/-- A buffer with room for one more byte is completed by a zero. -/
theorem completable_of_needMore (h : unpackUint buffer = .needMore) (hlength : buffer.length < 10) :
    Completable buffer := by
  obtain ⟨hbytes, -, hfits⟩ := unpackUint_eq_needMore_iff.mp h
  refine ⟨[0], denoted buffer, buffer.length + 1, unpackUint_eq_value_iff.mpr ?_⟩
  have hwhole : (buffer ++ [0]).take (buffer.length + 1) = buffer ++ [0] :=
    List.take_of_length_le (by rw [List.length_append, List.length_singleton])
  have hzero : denoted [0] = 0 := rfl
  refine ⟨?_, hlength, ?_, hfits⟩
  · rw [extent?_append hbytes, Nat.add_comm]
    rfl
  · rw [hwhole, denoted_append, hzero, Nat.mul_zero, Nat.add_zero]

/-- What is refused is not completed by anything. -/
theorem not_completable_of_malformed (h : unpackUint buffer = .malformed) :
    ¬ Completable buffer := by
  rintro ⟨tail, value, length, hvalue⟩
  rw [unpackUint_append (by rw [h]; rfl), h] at hvalue
  cases hvalue

theorem unpackUint_of_overrun (h : Overrun buffer) : unpackUint buffer = .needMore :=
  unpackUint_eq_needMore_iff.mpr ⟨h.goesOn, h.length_eq.le, h.denoted_lt⟩

/-- After an overrun any byte is one too many. -/
theorem unpackUint_of_overrun_append (h : Overrun buffer) (byte : UInt8) (more : Bytes) :
    unpackUint (buffer ++ byte :: more) = .malformed := by
  have hten := h.length_eq
  cases hverdict : unpackUint (buffer ++ byte :: more) with
  | malformed => rfl
  | needMore =>
      have hlength := (unpackUint_eq_needMore_iff.mp hverdict).2.1
      rw [List.length_append, List.length_cons] at hlength
      omega
  | value value length =>
      obtain ⟨hextent, hlength, -⟩ := unpackUint_eq_value_iff.mp hverdict
      rw [extent?_append h.goesOn] at hextent
      obtain ⟨later, hlater, rfl⟩ := Option.map_eq_some_iff.mp hextent
      have hpos : 0 < later := pos_of_extent? hlater
      omega

theorem not_completable_of_overrun (h : Overrun buffer) : ¬ Completable buffer := by
  rintro ⟨tail, value, length, hvalue⟩
  cases tail with
  | nil =>
      rw [List.append_nil, unpackUint_of_overrun h] at hvalue
      cases hvalue
  | cons byte more =>
      rw [unpackUint_of_overrun_append h] at hvalue
      cases hvalue

/-- A buffer that nothing completes is refused, unless it is an overrun. -/
theorem unpackUint_eq_malformed_iff :
    unpackUint buffer = .malformed ↔ ¬ Completable buffer ∧ ¬ Overrun buffer := by
  constructor
  · intro h
    refine ⟨not_completable_of_malformed h, fun hoverrun => ?_⟩
    rw [unpackUint_of_overrun hoverrun] at h
    cases h
  · rintro ⟨hnever, hoverrun⟩
    cases hverdict : unpackUint buffer with
    | malformed => rfl
    | value value length =>
        exact absurd ⟨[], value, length, by rw [List.append_nil, hverdict]⟩ hnever
    | needMore =>
        obtain ⟨hbytes, hlength, hfits⟩ := unpackUint_eq_needMore_iff.mp hverdict
        rcases hlength.lt_or_eq with hless | hten
        · exact absurd (completable_of_needMore hverdict hless) hnever
        · exact absurd ⟨hten, hbytes, hfits⟩ hoverrun

variable (what : String) {cursor : Cursor}

/-- Bytes in the buffer that no integer starts with are refused without a read. -/
theorem readUint_of_malformed (h : unpackUint cursor.unread = .malformed) :
    cursor.readUint what = (.error (.protocol (.malformedInteger what)), cursor) := by
  have hready : cursor.await what (fun unread => (unpackUint unread).settled) =
      (.ok true, cursor) := by
    apply Cursor.await_of_wanted
    rw [h]
    rfl
  rw [Cursor.readUint, Cursor.decode, hready]
  simp only [Cursor.settle, h]

/-- After an overrun a reader waits for one more byte, and refuses it. -/
theorem readUint_of_overrun (h : Overrun buffer) :
    (cursor.ahead = buffer → (cursor.readUint what).1 = .error (cursor.ending.shortage what)) ∧
      ∀ byte more, cursor.ahead = buffer ++ byte :: more →
        (cursor.readUint what).1 = .error (.protocol (.malformedInteger what)) := by
  have hanswers := Cursor.answersAs_of_gives stable_unpackUint (Cursor.follows_readUint what cursor)
  constructor
  · intro hahead
    exact hanswers.needMore_iff.mpr (by rw [hahead, unpackUint_of_overrun h])
  · intro byte more hahead
    exact hanswers.malformed_iff.mpr (by rw [hahead, unpackUint_of_overrun_append h])

/-- A buffer that nothing completes is refused at once, and so a reader that holds it fails without
a read, unless the buffer is an overrun. For an overrun more bytes are asked for, although nothing
completes it, and a reader that has only an overrun ahead waits until the stream ends, fails or
stalls. -/
theorem unpackUint_completable (buffer : Bytes) :
    (unpackUint buffer = .malformed ↔ ¬ Completable buffer ∧ ¬ Overrun buffer) ∧
      (¬ Completable buffer → ¬ Overrun buffer → ∀ what (cursor : Cursor), cursor.unread = buffer →
        cursor.readUint what = (.error (.protocol (.malformedInteger what)), cursor)) ∧
      (Overrun buffer → unpackUint buffer = .needMore ∧ ¬ Completable buffer ∧
        ∀ what (cursor : Cursor),
          (cursor.ahead = buffer →
            (cursor.readUint what).1 = .error (cursor.ending.shortage what)) ∧
          ∀ byte more, cursor.ahead = buffer ++ byte :: more →
            (cursor.readUint what).1 = .error (.protocol (.malformedInteger what))) := by
  refine ⟨unpackUint_eq_malformed_iff, fun hnever hoverrun what cursor hunread => ?_,
    fun hoverrun => ⟨unpackUint_of_overrun hoverrun, not_completable_of_overrun hoverrun,
      fun what cursor => readUint_of_overrun what hoverrun⟩⟩
  exact readUint_of_malformed what
    (by rw [hunread, unpackUint_eq_malformed_iff.mpr ⟨hnever, hoverrun⟩])

/-- The highest bit of a word in a tenth byte, which says that more bytes come. -/
def highestBit : Bytes :=
  List.replicate 9 0x80 ++ [0x81]

theorem overrun_highestBit : Overrun highestBit :=
  ⟨rfl, by decide +kernel, by decide⟩

/-- A reader that has the highest bit of a word ahead waits until the deadline. -/
theorem unpackUint_completable_stalled :
    (({ incoming := [.data highestBit, .stall] } : Cursor).readUint "revision").1 =
      .error (.protocol (.timeout "revision")) :=
  (((unpackUint_completable highestBit).2.2 overrun_highestBit).2.2 "revision" _).1 (by decide)

/-- Asking for more bytes does not mean that any bytes can complete the integer: none complete the
highest bit of a word in a byte that says that more come. A reader that has received these bytes
fails with the end of the stream or the deadline, and not with the bytes. -/
theorem unpackUint_completable_overrun :
    unpackUint highestBit = .needMore ∧
      (∀ tail value length, unpackUint (highestBit ++ tail) ≠ .value value length) ∧
      (({ incoming := [], unread := highestBit } : Cursor).readUint "revision").1 =
        .error (.protocol (.truncated "revision")) ∧
      (({ incoming := [.stall], unread := highestBit } : Cursor).readUint "revision").1 =
        .error (.protocol (.timeout "revision")) :=
  ⟨unpackUint_of_overrun overrun_highestBit,
    fun tail value length hvalue =>
      not_completable_of_overrun overrun_highestBit ⟨tail, value, length, hvalue⟩,
    (readUint_of_overrun "revision" overrun_highestBit).1 (by decide),
    (readUint_of_overrun "revision" overrun_highestBit).1 (by decide)⟩

end TableReplica.Wire
