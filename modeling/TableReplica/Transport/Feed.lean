import TableReplica.Files.Content
import TableReplica.Transport.Buffer
import TableReplica.Transport.Supply

/-!
# Answering reads one by one

What a connection delivers is known beforehand. A feed finds it out read by read: how much a read
brings depends on the room in the buffer, and what a file holds depends on what has been written to
it by then. `drive` runs an operation of a cursor against a feed. It offers the operation nothing
but a fault; an operation that takes the fault wants to read, so the feed is read once and the
operation starts again. This is right because an operation that meets a fault leaves the cursor as
it was. `size_drive_le` and `size_drive_lt` say that nothing is decoded twice.
-/

namespace TableReplica.Transport

open Files

/-- Where a feed takes its bytes from. -/
inductive Origin where
  /-- A connection that is read ahead. -/
  | pipe (pipe : Pipe)
  /-- The file that is open for reading, from this offset on. -/
  | file (position : Nat)
  deriving Repr, DecidableEq

/-- What answers the reads of a cursor. -/
structure Feed where
  origin : Origin
  buffer : Buffer := {}
  deriving Repr, DecidableEq

namespace Feed

/-- The most bytes that one read takes. -/
def readLimit : Nat := 2097152

/-- The feed that delivers a connection. -/
def ofConnection (connection : Connection) : Feed :=
  { origin := .pipe { incoming := connection } }

/-- The feed that delivers the file that is open for reading. -/
def ofFile : Feed := { origin := .file 0 }

/-- A bound for the number of bytes that the feed may still bring. -/
def size (feed : Feed) : Nat :=
  match feed.origin with
  | .pipe pipe => pipe.size
  | .file position => offsetBound - position

/-- Have done with `count` bytes at the front of the buffer. -/
def cut (feed : Feed) (count : Nat) : Feed :=
  { feed with buffer := feed.buffer.cut count }

@[simp] theorem size_cut (feed : Feed) (count : Nat) : (feed.cut count).size = feed.size :=
  rfl

/-- What a read finds when `held` bytes are in the buffer and the open file holds `content`. -/
def read (feed : Feed) (content : Content) (held : Nat) : Arrival × Feed :=
  let buffer := feed.buffer.reserve held
  let room := min readLimit (buffer.room held)
  match feed.origin with
  | .pipe pipe =>
    let (arrival, after) := pipe.read room
    (arrival, { origin := .pipe after, buffer })
  | .file position =>
    let data := content.window position (min room (offsetBound - position))
    (.data data, { origin := .file (position + data.length), buffer })

/-- A read takes from a feed what it finds. -/
theorem size_read (feed : Feed) (content : Content) (held : Nat) :
    (feed.read content held).1.size + (feed.read content held).2.size = feed.size := by
  unfold read size
  split
  · next pipe eq => simpa [eq] using pipe.size_read _
  · simp only [Arrival.size, Content.bytes_window, List.length_take, List.length_drop, *]
    omega

/-- The arrival that an operation takes if it wants to read. -/
def wish : Arrival := .fault ""

/-- What comes of one attempt to run an operation. -/
inductive Attempt (α : Type) where
  /-- The operation has come to its end. -/
  | settled (outcome : Except ReplicaError α) (cursor : Cursor) (feed : Feed)
  /-- A read brought bytes, so that the operation can be tried again. -/
  | again (cursor : Cursor) (feed : Feed)

/-- Try an operation with nothing to read, and read once if it wants to. -/
def attempt {α : Type} (operation : Cursor → Except ReplicaError α × Cursor) (content : Content)
    (feed : Feed) (cursor : Cursor) : Attempt α :=
  match operation (cursor.facing [wish]) with
  | (outcome, after) =>
    if after.incoming ≠ [] then .settled outcome (after.facing []) feed
    else
      match feed.read content cursor.held with
      | (.data (byte :: more), rest) => .again (cursor.receive (byte :: more)) rest
      | (arrival, rest) =>
        match operation (cursor.facing [arrival]) with
        | (outcome, after) => .settled outcome (after.facing []) rest

section

variable {α : Type} {operation : Cursor → Except ReplicaError α × Cursor} {content : Content}
  {feed rest : Feed} {cursor after : Cursor} {outcome : Except ReplicaError α} {value : α}

/-- A read moves bytes from the feed to the cursor. -/
theorem size_attempt_again (h : attempt operation content feed cursor = .again after rest) :
    after.unread.length + rest.size = cursor.unread.length + feed.size ∧
      rest.size < feed.size := by
  have same := feed.size_read content cursor.held
  unfold attempt at h
  split at h
  split at h
  · cases h
  · split at h
    · next found =>
      cases h
      rw [found] at same
      simp only [Arrival.size, List.length_cons] at same
      simp only [Cursor.receive, List.length_append, List.length_cons]
      omega
    · cases h

/-- An operation that settles has taken from the feed at most what it took from the connection. -/
theorem exists_of_attempt_settled
    (h : attempt operation content feed cursor = .settled outcome after rest) :
    ∃ incoming reached, operation (cursor.facing incoming) = (outcome, reached) ∧
      after = reached.facing [] ∧ incoming.size + rest.size = feed.size := by
  have same := feed.size_read content cursor.held
  unfold attempt at h
  split at h
  next tried =>
  split at h
  · cases h
    exact ⟨_, _, tried, rfl, by simp [Connection.size, Arrival.size, wish]⟩
  · split at h
    · cases h
    · next _ found =>
      split at h
      next driven =>
      cases h
      rw [found] at same
      exact ⟨_, _, driven, rfl, by simpa [Connection.size] using same⟩

end

/-- Run an operation of a cursor, reading from a feed whenever it wants to. -/
def drive {α : Type} (operation : Cursor → Except ReplicaError α × Cursor) (content : Content)
    (feed : Feed) (cursor : Cursor) : Except ReplicaError α × Cursor × Feed :=
  match _h : attempt operation content feed cursor with
  | .settled outcome after rest => (outcome, after, rest)
  | .again after rest => drive operation content rest after
termination_by feed.size
decreasing_by exact (size_attempt_again _h).2

variable {α : Type} {operation : Cursor → Except ReplicaError α × Cursor}

/-- Driving an operation that never raises the supply does not raise it either. -/
theorem size_drive_le (h : ∀ cursor, (operation cursor).2.supply ≤ cursor.supply)
    (content : Content) (feed : Feed) (cursor : Cursor) :
    (drive operation content feed cursor).2.1.supply +
        (drive operation content feed cursor).2.2.size ≤
      cursor.unread.length + feed.size := by
  fun_induction drive operation content feed cursor with
  | case1 feed cursor outcome after rest settled =>
    obtain ⟨incoming, reached, ran, rfl, same⟩ := exists_of_attempt_settled settled
    have bound := h (cursor.facing incoming)
    rw [ran] at bound
    simp only [Cursor.supply_facing, Connection.size] at bound ⊢
    simp only [Cursor.supply] at bound
    omega
  | case2 feed cursor after rest again ih =>
    have same := size_attempt_again again
    omega

/-- An operation whose success lowers the supply lowers it when it is driven. -/
theorem size_drive_lt
    (h : ∀ {cursor value after}, operation cursor = (.ok value, after) →
      after.supply < cursor.supply)
    {content : Content} {feed rest : Feed} {cursor after : Cursor} {value : α}
    (success : drive operation content feed cursor = (.ok value, after, rest)) :
    after.supply + rest.size < cursor.unread.length + feed.size := by
  fun_induction drive operation content feed cursor with
  | case1 feed cursor outcome ended left settled =>
    cases success
    obtain ⟨incoming, reached, ran, rfl, same⟩ := exists_of_attempt_settled settled
    have bound := h ran
    simp only [Cursor.supply_facing, Connection.size] at bound ⊢
    simp only [Cursor.supply] at bound
    omega
  | case2 feed cursor middle left again ih =>
    have lower := ih success
    have same := size_attempt_again again
    omega

end Feed

end TableReplica.Transport
