import TableReplica.Transport.Cursor

/-!
# Waiting for a number of bytes

`awaitLength` joins the pieces of a long field once, and is `await` for the same number of bytes
(`awaitLength_eq`). What is wanted of the unread bytes matters only for the bytes that they may
become, since reading adds to them (`await_congr`). A verdict on an integer or on the length of a
byte string does not change when bytes are added, so waiting for a byte string is waiting for as
many bytes as it takes (`readString_eq`).
-/

namespace TableReplica.Transport.Cursor

open Wire

theorem lacking_eq (count : Nat) (buffer : Bytes) :
    lacking count buffer = count - buffer.length := by
  fun_induction lacking count buffer <;> simp_all

theorem assemble_cons (piece : Bytes) (pieces : List Bytes) :
    assemble (piece :: pieces) = assemble pieces ++ piece := by
  have split (tail : Bytes) (pieces : List Bytes) :
      pieces.foldl (fun later piece => piece ++ later) tail = assemble pieces ++ tail := by
    induction pieces generalizing tail with
    | nil => rfl
    | cons first rest ih =>
      rw [assemble, List.foldl_cons, List.foldl_cons, ih, ih]
      simp
  rw [assemble, List.foldl_cons, split]
  simp

variable {what : String} {wanted : Bytes → Bool} {cursor after : Cursor}
  {outcome : Except ReplicaError Bool}

/-- A read does not look at the unread bytes, and adds to them. -/
theorem fill_showing (h : (cursor.showing []).fill what = (outcome, after)) (unread : Bytes) :
    (cursor.showing unread).fill what = (outcome, after.showing (unread ++ after.unread)) := by
  obtain ⟨incoming, ended, pending, old, committed⟩ := cursor
  unfold fill at h ⊢
  cases ended with
  | true =>
    cases h
    simp [showing]
  | false =>
    match incoming with
    | [] | .data [] :: _ | .data (_ :: _) :: _ | .fault _ :: _ | .stall :: _ =>
      cases h
      simp [showing, facing, receive]

/-- A read that brings no bytes leaves the unread bytes as they are. -/
theorem unread_fill (h : cursor.fill what = (outcome, after)) (nothing : outcome ≠ .ok true) :
    after.unread = cursor.unread := by
  unfold fill at h
  split at h
  · cases h
    rfl
  · split at h <;> cases h
    case h_3 => exact absurd rfl nothing
    all_goals rfl

/-- A read that brings bytes adds them to the unread ones. -/
theorem exists_unread_fill (h : cursor.fill what = (.ok true, after)) :
    ∃ piece, after.unread = cursor.unread ++ piece := by
  unfold fill at h
  split at h
  · cases h
  · split at h <;> cases h
    exact ⟨_, rfl⟩

theorem await_of_wanted (h : wanted cursor.unread = true) :
    cursor.await what wanted = (.ok true, cursor) := by
  rw [await, if_pos h]

/-- Waiting goes on after a read that brings bytes. -/
theorem await_of_fill (short : wanted cursor.unread = false)
    (h : cursor.fill what = (.ok true, after)) :
    cursor.await what wanted = after.await what wanted := by
  rw [await, if_neg (by simp [short])]
  split
  · next found =>
    rw [h] at found
    cases found
    rfl
  · next found => simp [h] at found
  · next found => simp [h] at found

/-- Waiting ends with a read that brings no bytes. -/
theorem await_of_stop (short : wanted cursor.unread = false)
    (h : cursor.fill what = (outcome, after)) (nothing : outcome ≠ .ok true) :
    cursor.await what wanted = (outcome, after) := by
  rw [await, if_neg (by simp [short])]
  split
  · next found =>
    rw [h] at found
    cases found
    exact absurd rfl nothing
  · next found => rw [← found, h]
  · next found => rw [← found, h]

/-- Gathering is waiting for as many bytes as there will be then. -/
theorem gather_eq (what : String) (count : Nat) {missing : Nat} {pieces : List Bytes}
    {cursor : Cursor} (h : missing = count - (assemble pieces).length) :
    gather what missing pieces cursor =
      (cursor.showing (assemble pieces)).await what (count ≤ ·.length) := by
  fun_induction gather what missing pieces cursor with
  | case1 pieces cursor =>
    rw [await_of_wanted (decide_eq_true (by simp only [showing]; omega))]
  | case2 missing pieces cursor more after eq ih =>
    have short : decide (count ≤ (assemble pieces).length) = false := decide_eq_false (by omega)
    rw [await_of_fill short (fill_showing eq _), ← assemble_cons,
      ih (by rw [lacking_eq, assemble_cons, List.length_append]; omega)]
  | case3 missing pieces cursor more after eq =>
    have short : decide (count ≤ (assemble pieces).length) = false := decide_eq_false (by omega)
    rw [await_of_stop short (fill_showing eq _) (by simp), unread_fill eq (by simp)]
    simp [showing]
  | case4 missing pieces cursor more error after eq =>
    have short : decide (count ≤ (assemble pieces).length) = false := decide_eq_false (by omega)
    rw [await_of_stop short (fill_showing eq _) (by simp), unread_fill eq (by simp)]
    simp [showing]

/-- Waiting for a number of bytes in one go is waiting for them. -/
theorem awaitLength_eq (what : String) (count : Nat) (cursor : Cursor) :
    cursor.awaitLength what count = cursor.await what (count ≤ ·.length) := by
  have whole : assemble [cursor.unread] = cursor.unread := List.append_nil _
  have lack := lacking_eq count cursor.unread
  unfold awaitLength
  split
  · next none => rw [await_of_wanted (decide_eq_true (by omega))]
  · next more some =>
    rw [gather_eq what count (by rw [whole]; omega), whole]
    rfl

/-- What is wanted matters only for what the unread bytes may become. -/
theorem await_congr (what : String) {first second : Bytes → Bool} {cursor : Cursor}
    (h : ∀ more, first (cursor.unread ++ more) = second (cursor.unread ++ more)) :
    cursor.await what first = cursor.await what second := by
  have same : first cursor.unread = second cursor.unread := by simpa using h []
  fun_induction await what first cursor with
  | case1 cursor enough => rw [await_of_wanted (same ▸ enough)]
  | case2 cursor short after eq ih =>
    rw [Bool.eq_false_iff.mpr short] at same
    obtain ⟨piece, grown⟩ := exists_unread_fill eq
    have next (more : Bytes) : first (after.unread ++ more) = second (after.unread ++ more) := by
      rw [grown, List.append_assoc, h]
    rw [await_of_fill same.symm eq, ih next (by simpa using next [])]
  | case3 cursor short after eq | case4 cursor short error after eq =>
    rw [Bool.eq_false_iff.mpr short] at same
    rw [await_of_stop same.symm eq (by simp)]

/-- Waiting ends with bytes as wanted, or else at the end of the stream. -/
theorem ended_of_await {found : Bool} (h : cursor.await what wanted = (.ok found, after))
    (short : wanted after.unread = false) : after.ended = true := by
  fun_induction await what wanted cursor with
  | case1 cursor enough =>
    cases h
    simp [enough] at short
  | case2 cursor _ middle eq ih => exact ih h
  | case3 cursor _ middle eq =>
    cases h
    unfold fill at eq
    split at eq
    · next finished =>
      cases eq
      exact finished
    · split at eq <;> cases eq <;> rfl
  | case4 cursor _ error middle eq => cases h

/-- Reading a byte string is judging its length and then waiting for a verdict on all of it. -/
theorem readString_eq (what : String) (max : Nat) (cursor : Cursor) :
    cursor.readString what max =
      match cursor.await what fun unread => (unpackUint unread).settled with
      | (.ok _, after) =>
        match excess? max after.unread with
        | some size => (.error (.protocol (.payloadTooLarge what size max)), after)
        | none => after.decode what unpackString
      | (.error error, after) => (.error error, after) := by
  unfold readString
  match waited : cursor.await what fun unread => (unpackUint unread).settled with
  | (.error error, after) => rfl
  | (.ok found, after) =>
    simp only
    cases excess? max after.unread with
    | some size => rfl
    | none =>
      simp only [decode, awaitLength_eq]
      cases known : (unpackUint after.unread).settled with
      | true =>
        have same : after.await what (fun unread => (unpackString unread).settled) =
            after.await what (stringSpan after.unread ≤ ·.length) :=
          await_congr what (settled_unpackString known)
        rw [same]
      | false =>
        have unknown : unpackUint after.unread = .needMore := Decoded.settled_eq_false_iff.mp known
        have span : stringSpan after.unread = 0 := by simp [stringSpan, unknown]
        have stop : after.fill what = (.ok false, after) := by
          simp [fill, ended_of_await waited known]
        have short : (unpackString after.unread).settled = false := by
          simp [unpackString, unknown, Decoded.settled]
        rw [span, await_of_wanted (by simp), await_of_stop short stop (by simp)]

end TableReplica.Transport.Cursor
