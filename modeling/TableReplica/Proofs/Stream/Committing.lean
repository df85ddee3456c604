import TableReplica.Proofs.Stream.Operations
import TableReplica.Proofs.Stream.Spending

/-!
# What an operation commits

A stream is its committed bytes and then those of the cursor: the pending ones, the unread ones and
those still to come. `Commits` says which bytes went from the second part to the first between two
cursors. Reading only moves bytes within the second part, whatever comes of it, so every operation
that waits is `Tentative`.
-/

namespace TableReplica.Transport

open Wire

namespace Cursor

/-- The bytes of the stream that are not committed, decoded or received or neither. -/
def uncommitted (cursor : Cursor) : Bytes :=
  cursor.pending ++ cursor.unread ++ cursor.incoming.bytes

/-- Between two cursors these bytes were committed, the first of those that were not. -/
structure Commits (settled : Bytes) (cursor after : Cursor) : Prop where
  uncommitted_eq : cursor.uncommitted = settled ++ after.uncommitted
  committed_eq : after.committed = cursor.committed + settled.length

/-- An operation that commits nothing, whatever comes of it. -/
def Tentative {α : Type} (operation : Cursor → Except ReplicaError α × Cursor) : Prop :=
  ∀ cursor, Commits [] cursor (operation cursor).2

section

variable {α : Type} {settled more : Bytes} {cursor middle after : Cursor}

namespace Commits

theorem refl (cursor : Cursor) : Commits [] cursor cursor :=
  ⟨rfl, rfl⟩

/-- What is committed adds up, in the order in which it was. -/
theorem trans (hfirst : Commits settled cursor middle) (hsecond : Commits more middle after) :
    Commits (settled ++ more) cursor after where
  uncommitted_eq := by
    rw [hfirst.uncommitted_eq, hsecond.uncommitted_eq, List.append_assoc]
  committed_eq := by
    rw [hsecond.committed_eq, hfirst.committed_eq, List.length_append, Nat.add_assoc]

/-- Nothing is committed before something is. -/
theorem after_none (hfirst : Commits [] cursor middle) (hsecond : Commits settled middle after) :
    Commits settled cursor after :=
  hfirst.trans hsecond

/-- Nothing is committed after something was. -/
theorem before_none (hfirst : Commits settled cursor middle) (hsecond : Commits [] middle after) :
    Commits settled cursor after := by
  have hboth := hfirst.trans hsecond
  rwa [List.append_nil] at hboth

/-- What was committed since a connection was opened comes first in what the connection brings. -/
theorem bytes_eq {connection : Connection} (h : Commits settled { incoming := connection } cursor) :
    connection.bytes = settled ++ cursor.uncommitted :=
  h.uncommitted_eq

/-- What was committed since a connection was opened is all that is committed. -/
theorem length_eq {connection : Connection}
    (h : Commits settled { incoming := connection } cursor) : settled.length = cursor.committed :=
  (h.committed_eq.trans (Nat.zero_add _)).symm

end Commits

/-- Waiting leaves what was decoded and what was committed as they are. -/
theorem kept_await (what : String) (wanted : Bytes → Bool) (cursor : Cursor) :
    (cursor.await what wanted).2.pending = cursor.pending ∧
      (cursor.await what wanted).2.committed = cursor.committed := by
  have hwaited := awaited what wanted cursor
  generalize cursor.await what wanted = waited at hwaited
  cases hwaited with
  | found after halike _ => exact ⟨halike.pending_eq, halike.committed_eq⟩
  | missed after _ _ hpending hcommitted _ => exact ⟨hpending, hcommitted⟩

/-- Waiting moves bytes from those still to come to the unread ones. -/
theorem commits_await (what : String) (wanted : Bytes → Bool) (cursor : Cursor) :
    Commits [] cursor (cursor.await what wanted).2 := by
  obtain ⟨⟨reads, hreads, hbytes⟩, -, -⟩ := spends_await what wanted cursor
  obtain ⟨hpending, hcommitted⟩ := kept_await what wanted cursor
  refine ⟨?_, hcommitted⟩
  calc cursor.uncommitted
      = cursor.pending ++ (cursor.unread ++ reads.bytes) ++
          (cursor.await what wanted).2.incoming.bytes := by
        rw [uncommitted, hreads, Connection.bytes_append]
        simp only [List.append_assoc]
    _ = (cursor.await what wanted).2.uncommitted := by rw [hbytes, List.nil_append, ← hpending]; rfl

/-- Decoding moves bytes from the unread ones to the pending ones. -/
theorem commits_advance (cursor : Cursor) (length : Nat) :
    Commits [] cursor (cursor.advance length) :=
  ⟨by simp [uncommitted, advance], rfl⟩

/-- An operation that waits and then decides commits nothing. -/
theorem tentative_of_wait (wait : Wait α) : Tentative wait.operation := by
  intro cursor
  have hwaited := commits_await wait.what wait.wanted cursor
  unfold Wait.operation
  generalize cursor.await wait.what wait.wanted = waited at hwaited ⊢
  obtain ⟨error | found, after⟩ := waited
  · exact hwaited
  · exact hwaited.after_none (commits_advance after _)

/-- Waiting for a number of bytes leaves what was decoded as it is, whether they come or not. -/
theorem pending_ensure (what : String) (count : Nat) (cursor : Cursor) :
    (cursor.ensure what count).2.pending = cursor.pending := by
  rw [ensure_eq_conclude, ← (kept_await what (count ≤ ·.length) cursor).1]
  rcases cursor.await what (count ≤ ·.length) with ⟨error | found, after⟩ <;> rfl

theorem commits_skipLiteral (literal : Bytes) (cursor : Cursor) :
    Commits [] cursor (cursor.skipLiteral literal).2 := by
  unfold skipLiteral
  split
  · exact commits_advance cursor _
  · exact .refl cursor

/-- Committing commits what was pending. -/
theorem commits_afterCommit (cursor : Cursor) : Commits cursor.pending cursor cursor.afterCommit :=
  ⟨by simp [uncommitted, afterCommit], rfl⟩

/-- Taking commits the bytes that it takes, if nothing is pending before them. -/
theorem commits_afterTake (h : cursor.pending = []) (count : Nat) :
    Commits (cursor.unread.take count) cursor (cursor.afterTake count) :=
  ⟨by simp [uncommitted, afterTake, h, ← List.append_assoc], rfl⟩

end

end Cursor

end TableReplica.Transport
