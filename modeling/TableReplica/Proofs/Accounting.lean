import TableReplica.Proofs.Machine.Mirroring
import TableReplica.Proofs.Stream.Spending

/-!
# Accounting for every byte

A cursor is asked for one thing after the other, in any order and whatever comes of each request.
The books of a run say which bytes every request has taken off the stream, which is what its answer
stands for, and nothing if it failed. `requests_balance` is the main theorem: at every point of
every run they balance with the memory that holds the session.
-/

namespace TableReplica.Apply

open Files Transport Wire Format Machine

/-- What a cursor can be asked for. -/
inductive Request where
  | ensure (what : String) (count : Nat)
  | readAhead (what : String) (count : Nat)
  | skipLiteral (literal : Bytes)
  | readByte (what : String)
  | readUint (what : String)
  | readString (what : String) (max : Nat)
  | take (what : String) (count : Nat)
  | commit
  | expectEnd
  | attachArchive (archive : Archive)
  | closeArchive
  deriving Repr, DecidableEq

namespace Request

/-- What a request is answered with. -/
abbrev Answer : Request → Type
  | skipLiteral _ => Bool
  | readByte _ => UInt8
  | readUint _ => Nat
  | readString _ _ => Bytes
  | take _ _ => Bytes
  | _ => Unit

/-- The action that meets a request. -/
def action : (request : Request) → Action request.Answer
  | ensure what count => Apply.ensure what count
  | readAhead what count => Apply.readAhead what count
  | skipLiteral literal => Apply.skipLiteral literal
  | readByte what => Apply.readByte what
  | readUint what => Apply.readUint what
  | readString what max => Apply.readString what max
  | take what count => Apply.take what count
  | commit => Apply.commit
  | expectEnd => Apply.expectEnd
  | attachArchive archive => Apply.attachArchive archive
  | closeArchive => Apply.closeArchive

/-- The program of a machine that meets a request. -/
def program : (request : Request) → Program request.Answer
  | ensure what count => Machine.ensure what count
  | readAhead what count => Machine.readAhead what count
  | skipLiteral literal => Machine.skipLiteral literal
  | readByte what => Machine.readByte what
  | readUint what => Machine.readUint what
  | readString what max => Machine.readString what max
  | take what count => Machine.take what count
  | commit => Machine.commit
  | expectEnd => Machine.expectEnd
  | attachArchive archive => Machine.attachArchive archive
  | closeArchive => Machine.attachArchive .disabled

/-- The bytes that an answer stands for: what was decoded or taken. -/
def Costs : (request : Request) → request.Answer → Bytes → Prop
  | skipLiteral literal, found, spent => spent = bif found then literal else []
  | readByte _, byte, spent => spent = [byte]
  | readUint _, value, spent =>
    ∃ numeral : Numeral, numeral.value = value ∧ numeral.spelling = spent
  | readString _ max, value, spent => List.length value ≤ max ∧
    ∃ numeral : Numeral, numeral.value = List.length value ∧ numeral.spelling ++ value = spent
  | take _ count, data, spent => List.length data = count ∧ spent = data
  | _, _, spent => spent = []

/-- What comes of a request, and the session that it leaves. -/
def serve (request : Request) (session : Session) :
    Except ReplicaError request.Answer × Session :=
  match request.action session with
  | .ok answer after => (.ok answer, after)
  | .error error after => (.error error, after)

/-- What comes of a request on a machine, and the memory that it leaves. -/
def run (request : Request) (memory : Memory) :
    Checked (Except ReplicaError request.Answer × Memory) :=
  match request.program memory with
  | .ok answer after => .ok (.ok answer, after)
  | .error (.error error) after => .ok (.error error, after)
  | .error (.fault fault) _ => .error fault

/-- A request with what came of it. -/
structure Served where
  request : Request
  outcome : Except ReplicaError request.Answer

/-- What comes of one request after the other. -/
def serveAll : List Request → Session → List Served × Session
  | [], session => ([], session)
  | request :: rest, session =>
    let first := request.serve session
    let others := serveAll rest first.2
    (⟨request, first.1⟩ :: others.1, others.2)

/-- What comes of one request after the other on a machine. -/
def runAll : List Request → Memory → Checked (List Served × Memory)
  | [], memory => .ok ([], memory)
  | request :: rest, memory =>
    match request.run memory with
    | .error fault => .error fault
    | .ok first =>
      match runAll rest first.2 with
      | .error fault => .error fault
      | .ok others => .ok (⟨request, first.1⟩ :: others.1, others.2)

/-- An archive that is attached is one that nothing was written to. -/
def Fresh : Request → Prop
  | attachArchive archive => archive.written = 0
  | _ => True

/-- How a request is met: what it spends on the stream, and that a machine comes to the same. -/
structure Met (request : Request) (cursor : Cursor) (store : Store)
    (outcome : Except ReplicaError request.Answer) (spent : Bytes) (after : Cursor)
    (done : Store) : Prop where
  served : request.serve (store.session cursor) = (outcome, done.session after)
  charged : Cursor.Charges request.Costs outcome spent
  spends : Cursor.Spends spent cursor after
  ran : InBounds cursor store → request.run (store.memory cursor) = .ok (outcome, done.memory after)
  written_le : request.Fresh → store.archive.written ≤ cursor.committed →
    done.archive.written ≤ after.committed

section

variable {cursor : Cursor} {store : Store}

/-- A request to read leaves what the operation of the cursor leaves. -/
theorem serve_read {request : Request}
    {operation : Cursor → Except ReplicaError request.Answer × Cursor}
    (haction : request.action = Apply.read operation) (store : Store) (cursor : Cursor) :
    request.serve (store.session cursor) =
      ((operation cursor).1, store.session (operation cursor).2) := by
  unfold serve
  rcases hanswer : operation cursor with ⟨error | value, after⟩
  · rw [haction, read_session_error hanswer]
  · rw [haction, read_session_ok hanswer]

theorem serve_commit (store : Store) (cursor : Cursor) :
    commit.serve (store.session cursor) =
      (.ok (), (store.afterCommit cursor).session cursor.afterCommit) := by
  unfold serve
  rw [action, commit_session]

/-- A request to take bytes that come commits what was decoded and then takes them. -/
theorem serve_take_ok {what : String} {count : Nat} {ready : Cursor}
    (h : cursor.afterCommit.ensure what count = (.ok (), ready)) (store : Store) :
    (take what count).serve (store.session cursor) =
      (.ok (ready.unread.take count),
        ((store.afterCommit cursor).append (ready.unread.take count)).session
          (ready.afterTake count)) := by
  unfold serve
  rw [action, take_session_ok h]

/-- A request to take bytes that do not come only commits what was decoded. -/
theorem serve_take_error {what : String} {count : Nat} {ready : Cursor} {error : ReplicaError}
    (h : cursor.afterCommit.ensure what count = (.error error, ready)) (store : Store) :
    (take what count).serve (store.session cursor) =
      (.error error, (store.afterCommit cursor).session ready) := by
  unfold serve
  rw [action, take_session_error h]

/-- A request to read is met by the operation of the cursor. -/
theorem met_read (request : Request)
    {operation : Cursor → Except ReplicaError request.Answer × Cursor}
    (haction : request.action = Apply.read operation)
    (hcosts : Cursor.Conserves operation request.Costs)
    (hprogram : InBounds cursor store →
      request.program (store.memory cursor) = store.answer (operation cursor)) :
    ∃ outcome spent after done, Met request cursor store outcome spent after done := by
  obtain ⟨spent, hcharged, hspends⟩ := hcosts cursor
  refine ⟨(operation cursor).1, spent, (operation cursor).2, store, serve_read haction store cursor,
    hcharged, hspends, fun hbounds => ?_, fun _ hwritten => hwritten.trans hspends.committed_le⟩
  unfold run
  rw [hprogram hbounds]
  rcases operation cursor with ⟨error | value, after⟩ <;> rfl

/-- A request to skip a literal is met by looking for it. -/
theorem met_skipLiteral (literal : Bytes) :
    ∃ outcome spent after done,
      Met (skipLiteral literal) cursor store outcome spent after done := by
  have hspends := cursor.spends_skipLiteral literal
  refine ⟨.ok (cursor.skipLiteral literal).1, _, _, store, rfl, ?_, hspends, fun hbounds => ?_,
    fun _ hwritten => hwritten.trans hspends.committed_le⟩
  · show _ = bif _ then _ else _
    rw [Bool.cond_eq_ite]
  · unfold run
    rw [program, skipLiteral_memory hbounds]
    rfl

/-- A request to commit spends nothing. -/
theorem met_commit :
    ∃ outcome spent after done, Met commit cursor store outcome spent after done := by
  refine ⟨.ok (), [], cursor.afterCommit, store.afterCommit cursor, serve_commit store cursor, rfl,
    cursor.spends_afterCommit, fun hbounds => ?_, fun _ => written_afterCommit_le⟩
  unfold run
  rw [program, commit_memory hbounds]

/-- A request to take bytes commits what was decoded, whether they come or not. -/
theorem met_take (what : String) (count : Nat) :
    ∃ outcome spent after done, Met (take what count) cursor store outcome spent after done := by
  have hfree := cursor.spends_afterCommit
  obtain ⟨spent, hcharged, hwaited⟩ := Cursor.conserves_ensure what count cursor.afterCommit
  obtain ⟨ready, ⟨-, hready, halike, hcount⟩ | ⟨-, hfailed⟩⟩ :=
    Cursor.ensure_spec what count cursor.afterCommit
  · rw [hready] at hcharged hwaited
    obtain rfl : spent = [] := hcharged
    have hspends := hfree.after_free (hwaited.after_free (ready.spends_afterTake count))
    refine ⟨.ok (ready.unread.take count), _, ready.afterTake count,
      (store.afterCommit cursor).append (ready.unread.take count), serve_take_ok hready store,
      ⟨List.length_take_of_le hcount, rfl⟩, hspends, fun hbounds => ?_, fun _ hwritten => ?_⟩
    · have hinside := hbounds.of_commit
      have hensure := ensure_memory hinside what count
      rw [hready] at hensure
      have htake : Machine.take what count (store.memory cursor) = _ :=
        (bind_of_ok (commit_memory hbounds)).trans ((bind_of_ok hensure).trans
          (takeUnread_memory (hinside.of_alike halike) halike.pending_eq hcount))
      unfold run
      rw [program, htake]
    · refine written_afterTake_le count ?_
      rw [halike.committed_eq]
      exact written_afterCommit_le hwritten
  · rw [hfailed] at hcharged hwaited
    obtain rfl : spent = [] := hcharged
    refine ⟨.error (cursor.afterCommit.ending.report (.truncated what)), [], ready,
      store.afterCommit cursor, serve_take_error hfailed store, rfl, hfree.after_free hwaited,
      fun hbounds => ?_, fun _ hwritten => ?_⟩
    · have hensure := ensure_memory hbounds.of_commit what count
      rw [hfailed] at hensure
      have htake : Machine.take what count (store.memory cursor) = _ :=
        (bind_of_ok (commit_memory hbounds)).trans (bind_of_error hensure)
      unfold run
      rw [program, htake]
    · exact (written_afterCommit_le hwritten).trans hwaited.committed_le

/-- Every request is met, and spends what its answer stands for. -/
theorem met (request : Request) (cursor : Cursor) (store : Store) :
    ∃ outcome spent after done, Met request cursor store outcome spent after done := by
  cases request with
  | ensure what count =>
      exact met_read _ rfl (Cursor.conserves_ensure what count) (ensure_memory · what count)
  | readAhead what count =>
      exact met_read _ rfl (Cursor.conserves_readAhead what count) (readAhead_memory · what count)
  | skipLiteral literal => exact met_skipLiteral literal
  | readByte what => exact met_read _ rfl (Cursor.conserves_readByte what) (readByte_memory · what)
  | readUint what => exact met_read _ rfl (Cursor.conserves_readUint what) (readUint_memory · what)
  | readString what max =>
      exact met_read _ rfl (Cursor.conserves_readString what max) (readString_memory · what max)
  | take what count => exact met_take what count
  | commit => exact met_commit
  | expectEnd => exact met_read _ rfl Cursor.conserves_expectEnd expectEnd_memory
  | attachArchive archive =>
      exact ⟨.ok (), [], cursor, { store with archive }, rfl, rfl, .refl cursor, fun _ => rfl,
        fun hfresh _ => Nat.le_trans (Nat.le_of_eq hfresh) (Nat.zero_le _)⟩
  | closeArchive =>
      exact ⟨.ok (), [], cursor, { store with archive := .disabled }, rfl, rfl, .refl cursor,
        fun _ => rfl, fun _ _ => Nat.zero_le _⟩

end

end Request

/-- The memory that holds what a session holds. -/
def Session.memory (session : Session) : Memory :=
  Store.memory { archive := session.archive, files := session.files } session.cursor

/-- The books of a stream balance: what was consumed comes first in what the connection delivered,
and what is undecoded in the buffer comes next and last. -/
structure Balanced (connection : Connection) (consumed : Bytes) (memory : Memory) : Prop where
  decoded_le : memory.decoded ≤ memory.buffer.length
  delivered : ∃ reads : Connection, connection = reads ++ memory.incoming ∧
    reads.bytes = consumed ++ memory.buffer.drop memory.decoded
  consumed_eq : memory.consumed + memory.decoded = consumed.length

/-- The books of a run, from a session in which these bytes were consumed: they balance before the
first request and after each, which adds the bytes that its answer stands for. -/
inductive Books (connection : Connection) : Bytes → List Request → Session → Prop where
  | close (consumed : Bytes) (session : Session) :
      Balanced connection consumed session.memory → Books connection consumed [] session
  | entry (consumed spent : Bytes) (request : Request) (rest : List Request) (session : Session) :
      Balanced connection consumed session.memory →
        Cursor.Charges request.Costs (request.serve session).1 spent →
          (request.serve session).2.consumed = session.consumed + spent.length →
            Books connection (consumed ++ spent) rest (request.serve session).2 →
              Books connection consumed (request :: rest) session

section

variable {connection : Connection} {consumed : Bytes} {cursor : Cursor} {store : Store}

/-- The books balance with all that was consumed since the connection was opened. -/
theorem balanced_of_spends (h : Cursor.Spends consumed { incoming := connection } cursor)
    (store : Store) : Balanced connection consumed (store.memory cursor) := by
  obtain ⟨⟨reads, hreads, hbytes⟩, hconsumed, -⟩ := h
  refine ⟨?_, ⟨reads, hreads, ?_⟩, ?_⟩
  · simp [Store.memory]
  · simpa [Store.memory] using hbytes
  · simpa [Store.memory, Cursor.consumed] using hconsumed

/-- No point of a short stream is out of bounds. -/
theorem inBounds_of_spends (hsize : connection.size < 2 ^ 63)
    (h : Cursor.Spends consumed { incoming := connection } cursor)
    (hwritten : store.archive.written ≤ cursor.committed) : InBounds cursor store := by
  refine ⟨?_, hwritten⟩
  have hconserved := h.conserved
  have hahead : cursor.ahead.length ≤ cursor.unread.length + cursor.incoming.size := by
    have hdelivery := cursor.incoming.length_delivery_le
    unfold Cursor.ahead
    split
    · exact Nat.le_add_right _ _
    · rw [List.length_append]
      omega
  simp only [Cursor.consumed, Position.extent, Position.consumed, Cursor.position,
    List.length_nil] at hconserved ⊢
  omega

/-- From wherever a run has come, the books of the rest of it balance. -/
theorem books_of_spends (h : Cursor.Spends consumed { incoming := connection } cursor)
    (store : Store) (requests : List Request) :
    Books connection consumed requests (store.session cursor) := by
  induction requests generalizing consumed cursor store with
  | nil => exact .close _ _ (balanced_of_spends h store)
  | cons request rest ih =>
      obtain ⟨outcome, spent, after, done, hmet⟩ := request.met cursor store
      refine .entry consumed spent request rest _ (balanced_of_spends h store) ?_ ?_ ?_
      · rw [hmet.served]
        exact hmet.charged
      · rw [hmet.served]
        exact hmet.spends.consumed_eq
      · rw [hmet.served]
        exact ih (h.trans hmet.spends) done

/-- From wherever a run has come, a machine goes on as the session does. -/
theorem runAll_of_spends (hsize : connection.size < 2 ^ 63)
    (h : Cursor.Spends consumed { incoming := connection } cursor)
    (hwritten : store.archive.written ≤ cursor.committed) {requests : List Request}
    (hfresh : ∀ request ∈ requests, request.Fresh) :
    Request.runAll requests (store.memory cursor) =
      .ok ((Request.serveAll requests (store.session cursor)).1,
        (Request.serveAll requests (store.session cursor)).2.memory) := by
  induction requests generalizing consumed cursor store with
  | nil => rfl
  | cons request rest ih =>
      obtain ⟨hfirst, hothers⟩ := List.forall_mem_cons.mp hfresh
      obtain ⟨outcome, spent, after, done, hmet⟩ := request.met cursor store
      have hrest := ih (h.trans hmet.spends) (hmet.written_le hfirst hwritten) hothers
      have hran := hmet.ran (inBounds_of_spends hsize h hwritten)
      simp only [Request.runAll, Request.serveAll, hran, hmet.served, hrest]

end

/-- Whatever a connection brings, faults, stalls and empty reads included, and whatever is asked for
in whatever order, the books of the run balance at every point: each request that succeeds consumes
what its answer stands for, one that fails consumes nothing, and what was delivered is what was
consumed and then what is undecoded. On a connection of less than `2 ^ 63` bytes, with archives that
start empty, a machine that keeps one buffer and an index into it gives the same answers and comes
to the memory that the books speak of, without a fault. -/
theorem requests_balance (connection : Connection) (files : FileSystem) (requests : List Request) :
    Books connection [] requests (.start connection files) ∧
      (connection.size < 2 ^ 63 → (∀ request ∈ requests, request.Fresh) →
        Request.runAll requests { incoming := connection, files } =
          .ok ((Request.serveAll requests (.start connection files)).1,
            (Request.serveAll requests (.start connection files)).2.memory)) := by
  have hstart : Cursor.Spends [] { incoming := connection } { incoming := connection } := .refl _
  have hempty : ({ files } : Store).archive.written ≤ Cursor.committed { incoming := connection } :=
    Nat.le_refl 0
  exact ⟨books_of_spends hstart { files } requests,
    fun hsize hfresh => runAll_of_spends hsize hstart hempty hfresh⟩

/-- A connection with a fault in the middle of an integer, and with bytes after its end. -/
def sampleReads : Connection :=
  [.data [0xac], .fault "reset", .data [0x02, 7, 8, 9], .data [], .data [10]]

/-- Requests two of which fail, one at the fault and one in the middle of taking bytes. -/
def sampleRequests : List Request :=
  [.readUint "size", .readUint "size", .skipLiteral [7], .take "content" 3, .expectEnd,
    .take "content" 2, .closeArchive, .expectEnd]

/-- On the sample the machine ends with all five bytes of the stream consumed and the buffer empty,
without having read on after the end of the stream. -/
theorem requests_balance_sample :
    (Request.runAll sampleRequests { incoming := sampleReads, files := {} }).map (·.2) =
      .ok { incoming := [.data [10]], ended := true, consumed := 5, files := {} } := by
  rw [(requests_balance sampleReads {} sampleRequests).2 (by decide) (by simp [sampleRequests,
    Request.Fresh])]
  decide +kernel

end TableReplica.Apply
