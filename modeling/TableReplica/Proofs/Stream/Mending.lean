import TableReplica.Proofs.Stream.Operations

/-!
# Faults that pass

A fault fails one read and takes nothing with it. On the `mended` connection, which has no faults,
the operation that met it would have gone on, and it does so when it is run again: `Resumable` says
that what was received before the fault is not received again, and that an operation that met none
comes to what it comes to on the mended connection. Every operation that waits is resumable.
-/

namespace TableReplica.Transport

open Wire

/-- Whether a read fails that will not fail again. -/
def Arrival.isFault : Arrival → Bool
  | fault _ => true
  | _ => false

/-- The connection without its faults. -/
def Connection.mended (connection : Connection) : Connection :=
  connection.filter (!·.isFault)

namespace Cursor

/-- The cursor of a connection without the faults. -/
def mended (cursor : Cursor) : Cursor :=
  cursor.facing cursor.incoming.mended

/-- What came of an operation is that a read failed. -/
def Faulted {α : Type} (outcome : Except ReplicaError α) : Prop :=
  ∃ reason, outcome = .error (.transport reason)

/-- What comes of an operation, faults or not: either what comes of it without the faults, or a
fault, from which it goes on to what comes of it without them, with fewer reads to come. -/
inductive Resumes {α : Type} (operation : Cursor → Except ReplicaError α × Cursor)
    (cursor : Cursor) : Except ReplicaError α × Cursor → Prop where
  | settled (outcome : Except ReplicaError α) (after : Cursor) :
      ¬ Faulted outcome → operation cursor.mended = (outcome, after.mended) →
        Resumes operation cursor (outcome, after)
  | faulted (reason : String) (after : Cursor) :
      operation cursor.mended = operation after.mended →
        after.incoming.length < cursor.incoming.length →
          Resumes operation cursor (.error (.transport reason), after)

/-- An operation that can be run again after a fault as if the fault had not been. -/
def Resumable {α : Type} (operation : Cursor → Except ReplicaError α × Cursor) : Prop :=
  ∀ cursor, Resumes operation cursor (operation cursor)

section

variable {α : Type}

theorem not_faulted_ok (value : α) : ¬ Faulted (.ok value : Except ReplicaError α) := by
  rintro ⟨reason, ⟨⟩⟩

theorem not_faulted_protocol (error : ProtocolError) :
    ¬ Faulted (.error (.protocol error) : Except ReplicaError α) := by
  rintro ⟨reason, ⟨⟩⟩

/-- A fault is one whatever was asked for. -/
theorem Faulted.of_error {β : Type} {error : ReplicaError}
    (h : Faulted (.error error : Except ReplicaError α)) :
    Faulted (.error error : Except ReplicaError β) := by
  obtain ⟨reason, hreason⟩ := h
  cases hreason
  exact ⟨reason, rfl⟩

/-- A read comes to the same without the faults, or it met one, which is all that it took. -/
theorem fill_mended (what : String) (cursor : Cursor) :
    (¬ Faulted (cursor.fill what).1 ∧
        cursor.mended.fill what = ((cursor.fill what).1, (cursor.fill what).2.mended)) ∨
      ∃ reason, (cursor.fill what).1 = .error (.transport reason) ∧
        (cursor.fill what).2.mended = cursor.mended ∧
          (cursor.fill what).2.incoming.length < cursor.incoming.length := by
  obtain ⟨incoming, ended, pending, unread, committed⟩ := cursor
  cases ended with
  | true => exact .inl ⟨not_faulted_ok false, rfl⟩
  | false =>
      rcases incoming with _ | ⟨⟨_ | ⟨byte, more⟩⟩ | reason | _, rest⟩
      case cons.fault => exact .inr ⟨reason, rfl, rfl, Nat.lt_succ_self _⟩
      case cons.stall => exact .inl ⟨not_faulted_protocol _, rfl⟩
      all_goals exact .inl ⟨not_faulted_ok _, rfl⟩

/-- Waiting goes on after a fault with what was received before it. -/
theorem resumable_await (what : String) (wanted : Bytes → Bool) :
    Resumable (await what wanted) := by
  intro cursor
  fun_induction await what wanted cursor with
  | case1 cursor henough => exact .settled _ _ (not_faulted_ok true) (await_of_wanted henough)
  | case2 cursor hshort middle hfill ih =>
      have hread := fill_mended what cursor
      rw [hfill] at hread
      obtain ⟨-, hmended⟩ | ⟨reason, hfault, -⟩ := hread
      · -- The read brought bytes without the faults too, and waiting goes on from there.
        have hgoes : cursor.mended.await what wanted = middle.mended.await what wanted :=
          await_of_fill (Bool.eq_false_iff.mpr hshort) hmended
        generalize middle.await what wanted = waited at ih
        cases ih with
        | settled outcome after hclean hsame => exact .settled _ _ hclean (hgoes.trans hsame)
        | faulted reason after hsame hfewer =>
            exact .faulted _ _ (hgoes.trans hsame) (hfewer.trans (fill_shortens hfill))
      · cases hfault
  | case3 cursor hshort middle hfill | case4 cursor hshort error middle hfill =>
      have hread := fill_mended what cursor
      rw [hfill] at hread
      obtain ⟨hclean, hmended⟩ | ⟨reason, hfault, hsame, hfewer⟩ := hread
      · exact .settled _ _ hclean (await_of_stop (Bool.eq_false_iff.mpr hshort) hmended (by simp))
      · cases hfault
        all_goals exact .faulted _ _ (congrArg _ hsame.symm) hfewer

/-- What is decided by the unread bytes alone is no fault. -/
theorem not_faulted_verdict (answer : Except ProtocolError α) :
    ¬ Faulted (answer.mapError .protocol : Except ReplicaError α) := by
  cases answer with
  | ok value => exact not_faulted_ok value
  | error error => exact not_faulted_protocol error

/-- An operation that waits and then decides can be run again: the wait goes on where it was, and
the decision does not depend on the reads to come. -/
theorem resumable_of_wait (wait : Wait α) : Resumable wait.operation := by
  intro cursor
  have hwaited := resumable_await wait.what wait.wanted cursor
  show Resumes _ cursor (conclude wait.finish (cursor.await wait.what wait.wanted))
  generalize cursor.await wait.what wait.wanted = waited at hwaited
  cases hwaited with
  | settled outcome after hclean hsame =>
      have hmended : wait.operation cursor.mended = conclude wait.finish (outcome, after.mended) :=
        congrArg (conclude wait.finish) hsame
      cases outcome with
      | ok found => exact .settled _ _ (not_faulted_verdict _) hmended
      | error error => exact .settled _ _ (mt Faulted.of_error hclean) hmended
  | faulted reason after hsame hfewer =>
      exact .faulted reason after (congrArg (conclude wait.finish) hsame) hfewer

theorem skipLiteral_mended (literal : Bytes) (cursor : Cursor) :
    cursor.mended.skipLiteral literal =
      ((cursor.skipLiteral literal).1, (cursor.skipLiteral literal).2.mended) := by
  have hunread : cursor.mended.unread = cursor.unread := rfl
  unfold skipLiteral
  rw [hunread]
  split <;> rfl

end

end Cursor

end TableReplica.Transport
