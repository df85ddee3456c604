import TableReplica.Proofs.Accounting
import TableReplica.Proofs.Stream.Committing
import TableReplica.Proofs.Stream.Mending

/-!
# Requests that are made again

A fault of the connection fails the request that meets it. Whoever makes the request again, as often
as it takes, gets what the connection without its faults would have given, and leaves the session
that it would have left: `requests_outlast_faults`. One request is compared with itself on the
mended connection (`Request.resumes`). Taking bytes is the case to look at, since it commits before
it waits and must not archive the same bytes again.
-/

namespace TableReplica.Apply

open Files Transport

/-- The session on a connection without the faults. It differs in nothing else. -/
def Session.mended (session : Session) : Session :=
  { session with cursor := session.cursor.mended }

namespace Request

/-- A request is made again as long as a fault fails it. -/
inductive Insists (request : Request) :
    Session → Except ReplicaError request.Answer → Session → Prop where
  | settled (session : Session) :
      ¬ Cursor.Faulted (request.serve session).1 →
        Insists request session (request.serve session).1 (request.serve session).2
  | again (session : Session) (outcome : Except ReplicaError request.Answer) (after : Session) :
      Cursor.Faulted (request.serve session).1 →
        Insists request (request.serve session).2 outcome after →
          Insists request session outcome after

/-- One request after the other is made, each as often as it takes. -/
inductive InsistsAll : List Request → Session → List Served → Session → Prop where
  | done (session : Session) : InsistsAll [] session [] session
  | next (request : Request) (rest : List Request) (session middle after : Session)
      (outcome : Except ReplicaError request.Answer) (others : List Served) :
      Insists request session outcome middle → InsistsAll rest middle others after →
        InsistsAll (request :: rest) session (⟨request, outcome⟩ :: others) after

/-- What comes of a request, faults or not: either what comes of it without the faults, or a fault,
from which it goes on to what comes of it without them, with fewer reads to come. -/
inductive Resumes (request : Request) (cursor : Cursor) (store : Store) :
    Except ReplicaError request.Answer × Session → Prop where
  | settled (outcome : Except ReplicaError request.Answer) (after : Cursor) (done : Store) :
      ¬ Cursor.Faulted outcome →
        request.serve (store.session cursor.mended) = (outcome, done.session after.mended) →
          Resumes request cursor store (outcome, done.session after)
  | faulted (reason : String) (after : Cursor) (done : Store) :
      request.serve (store.session cursor.mended) = request.serve (done.session after.mended) →
        after.incoming.length < cursor.incoming.length →
          Resumes request cursor store (.error (.transport reason), done.session after)

section

variable {cursor other : Cursor} {store done : Store}

/-- A request to read can be made again because its operation can be run again. -/
theorem resumes_read (request : Request)
    {operation : Cursor → Except ReplicaError request.Answer × Cursor}
    (haction : request.action = Apply.read operation) {wait : Wait request.Answer}
    (hwait : operation = wait.operation) :
    Resumes request cursor store (request.serve (store.session cursor)) := by
  subst hwait
  have hresumes := Cursor.resumable_of_wait wait cursor
  rw [serve_read haction]
  generalize wait.operation cursor = result at hresumes
  cases hresumes with
  | settled outcome after hclean hsame =>
      exact .settled outcome after store hclean (by rw [serve_read haction, hsame])
  | faulted reason after hsame hfewer =>
      exact .faulted reason after store (by rw [serve_read haction, serve_read haction, hsame])
        hfewer

/-- Taking bytes depends on what is left by committing, and on what waiting for them then comes
to. -/
theorem serve_take_congr {what : String} {count : Nat}
    (hstore : store.afterCommit cursor = done.afterCommit other)
    (hensure : cursor.afterCommit.ensure what count = other.afterCommit.ensure what count) :
    (take what count).serve (store.session cursor) =
      (take what count).serve (done.session other) := by
  rcases hready : other.afterCommit.ensure what count with ⟨error | _, ready⟩
  · rw [serve_take_error (hensure.trans hready), serve_take_error hready, hstore]
  · rw [serve_take_ok (hensure.trans hready), serve_take_ok hready, hstore]

/-- A request to take bytes can be made again: there is nothing left to commit then. -/
theorem resumes_take (what : String) (count : Nat) :
    Resumes (take what count) cursor store ((take what count).serve (store.session cursor)) := by
  have hresumes := Cursor.resumable_of_wait (.ensure what count) cursor.afterCommit
  have hpending := Cursor.pending_ensure what count cursor.afterCommit
  rw [← Cursor.ensure_eq_wait] at hresumes
  rcases hready : cursor.afterCommit.ensure what count with ⟨outcome, ready⟩
  rw [hready] at hresumes hpending
  cases hresumes with
  | settled _ _ hclean hsame =>
      have hmended : cursor.mended.afterCommit.ensure what count = (outcome, ready.mended) := hsame
      cases outcome with
      | ok _ =>
          rw [serve_take_ok hready]
          exact .settled _ (ready.afterTake count) _ (Cursor.not_faulted_ok _)
            (serve_take_ok hmended store)
      | error error =>
          rw [serve_take_error hready]
          exact .settled _ ready _ (mt Cursor.Faulted.of_error hclean)
            (serve_take_error hmended store)
  | faulted reason _ hsame hfewer =>
      have hnone : ready.mended.pending = [] := hpending
      rw [serve_take_error hready]
      refine .faulted reason ready _ (serve_take_congr ?_ ?_) hfewer
      · rw [Store.afterCommit, Store.afterCommit, Store.afterCommit, if_pos hnone]
        rfl
      · rw [Cursor.afterCommit_of_nil hnone]
        exact hsame

/-- Every request can be made again after a fault as if the fault had not been. -/
theorem resumes (request : Request) (cursor : Cursor) (store : Store) :
    Resumes request cursor store (request.serve (store.session cursor)) := by
  cases request with
  | ensure what count => exact resumes_read _ rfl (Cursor.ensure_eq_wait what count)
  | readAhead what count => exact resumes_read _ rfl (Cursor.readAhead_eq_wait what count)
  | skipLiteral literal =>
      have hmended : (skipLiteral literal).serve (store.session cursor.mended) =
          (.ok (cursor.mended.skipLiteral literal).1,
            store.session (cursor.mended.skipLiteral literal).2) := rfl
      rw [Cursor.skipLiteral_mended] at hmended
      exact .settled _ (cursor.skipLiteral literal).2 store (Cursor.not_faulted_ok _) hmended
  | readByte what => exact resumes_read _ rfl (Cursor.readByte_eq_wait what)
  | readUint what => exact resumes_read _ rfl (Cursor.readUint_eq_wait what)
  | readString what max => exact resumes_read _ rfl (Cursor.readString_eq_wait what max)
  | take what count => exact resumes_take what count
  | commit =>
      rw [serve_commit]
      exact .settled _ cursor.afterCommit _ (Cursor.not_faulted_ok _)
        (serve_commit store cursor.mended)
  | expectEnd => exact resumes_read _ rfl Cursor.expectEnd_eq_wait
  | attachArchive archive =>
      exact .settled _ cursor { store with archive } (Cursor.not_faulted_ok _) rfl
  | closeArchive =>
      exact .settled _ cursor { store with archive := .disabled } (Cursor.not_faulted_ok _) rfl

/-- A request that is made again comes in the end to what it comes to without the faults. -/
theorem exists_insists (request : Request) (cursor : Cursor) (store : Store) :
    ∃ (outcome : Except ReplicaError request.Answer) (after : Cursor) (done : Store),
      Insists request (store.session cursor) outcome (done.session after) ∧
        request.serve (store.session cursor.mended) = (outcome, done.session after.mended) := by
  -- Every fault takes one of the reads to come.
  induction hreads : cursor.incoming.length using Nat.strongRecOn generalizing cursor store with
  | ind reads ih =>
      have hresumes := request.resumes cursor store
      generalize hserved : request.serve (store.session cursor) = served at hresumes
      cases hresumes with
      | settled outcome after done hclean hsame =>
          refine ⟨outcome, after, done, ?_, hsame⟩
          have hsettled := Insists.settled (store.session cursor) (by rwa [hserved])
          rwa [hserved] at hsettled
      | faulted reason middle between hsame hfewer =>
          obtain ⟨outcome, after, done, hinsists, hmended⟩ :=
            ih _ (hreads ▸ hfewer) middle between rfl
          refine ⟨outcome, after, done, .again _ _ _ ?_ ?_, hsame.trans hmended⟩
          · rw [hserved]
            exact ⟨reason, rfl⟩
          · rwa [hserved]

/-- Making a request again leaves nothing open. -/
theorem Insists.unique {request : Request} {session after last : Session}
    {outcome final : Except ReplicaError request.Answer}
    (h : Insists request session outcome after) (hother : Insists request session final last) :
    outcome = final ∧ after = last := by
  induction h with
  | settled session hclean =>
      cases hother with
      | settled => exact ⟨rfl, rfl⟩
      | again _ _ _ hfaulted _ => exact absurd hfaulted hclean
  | again session outcome after hfaulted _ ih =>
      cases hother with
      | settled _ hclean => exact absurd hfaulted hclean
      | again _ _ _ _ hrest => exact ih hrest

end

/-- Whatever a cursor has before it, with faults in any number and at any places, and whatever is
asked for in whatever order: if each request is made again as long as a fault fails it, this comes
to an end, every request is answered as it is without the faults, be it with a value or with an
error, and the session that is left differs in nothing but the faults still to come. So the same
bytes were consumed and the same were archived, none of them twice. -/
theorem requests_outlast_faults (cursor : Cursor) (store : Store) (requests : List Request) :
    (∃ served after, InsistsAll requests (store.session cursor) served after) ∧
      ∀ served after, InsistsAll requests (store.session cursor) served after →
        served = (serveAll requests (store.session cursor.mended)).1 ∧
          after.mended = (serveAll requests (store.session cursor.mended)).2 := by
  induction requests generalizing cursor store with
  | nil =>
      refine ⟨⟨[], _, .done _⟩, fun served after h => ?_⟩
      cases h
      exact ⟨rfl, rfl⟩
  | cons request rest ih =>
      obtain ⟨outcome, middle, between, hinsists, hmended⟩ := request.exists_insists cursor store
      obtain ⟨⟨others, last, hothers⟩, hall⟩ := ih middle between
      refine ⟨⟨_, last, .next request rest _ _ _ _ _ hinsists hothers⟩, fun served after h => ?_⟩
      cases h with
      | next _ _ _ found _ final more hfirst hrest =>
          obtain ⟨rfl, rfl⟩ := hinsists.unique hfirst
          obtain ⟨hserved, hafter⟩ := hall more after hrest
          simp only [serveAll, hmended]
          exact ⟨by rw [hserved], hafter⟩

end Request

end TableReplica.Apply
