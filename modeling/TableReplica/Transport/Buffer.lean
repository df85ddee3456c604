import TableReplica.Transport.Connection

/-!
# Buffers

The bytes that a cursor holds lie at the front of a part of one block of memory; the rest of the
part is room for what a read brings. Bytes that are done with are cut off at the front, which moves
the start of the part. Before a read the part is enlarged if its room has become too small: if the
block goes on behind it, by what is missing; else, if what lies before it suffices, by moving its
bytes to the start of the block; else by moving them to a block of at least twice the size.
`minimumRoom_le_room_reserve` says that every read then has room.

A pipe is a connection that is read ahead: a read of less than 8192 bytes is answered from bytes
that were fetched before, and only when there are none left does it fetch up to 8192 more. A larger
read that finds none left takes what the connection offers as it is. `size_read` says that a pipe
neither loses nor repeats a byte.
-/

namespace TableReplica.Transport

/-- The part of a block of memory that holds the bytes of a cursor. -/
structure Buffer where
  /-- The size of the block. -/
  block : Nat := 1024
  /-- Where in the block the part starts. -/
  start : Nat := 0
  /-- The size of the part. -/
  size : Nat := 1024
  /-- Whether anything was ever cut off. Until then the part is the whole block. -/
  divided : Bool := false
  deriving Repr, DecidableEq

namespace Buffer

/-- The room that a read has at least. -/
def minimumRoom : Nat := 1024

/-- The room for a read when `held` bytes are in the buffer. -/
def room (buffer : Buffer) (held : Nat) : Nat := buffer.size - held

/-- Make room for a read when `held` bytes are in the buffer. -/
def reserve (buffer : Buffer) (held : Nat) : Buffer :=
  let needed := held + minimumRoom
  if needed ≤ buffer.size then buffer
  else if buffer.divided ∧ buffer.start + needed ≤ buffer.block then
    { buffer with size := needed }
  else if buffer.divided ∧ needed ≤ buffer.block ∧ held ≤ buffer.start then
    { buffer with start := 0, size := buffer.block }
  else
    let block := max (2 * buffer.block) (buffer.start + needed)
    { buffer with block, size := block - buffer.start }

/-- Cut `count` bytes off at the front. -/
def cut (buffer : Buffer) (count : Nat) : Buffer :=
  { buffer with
    start := buffer.start + count
    size := buffer.size - count
    divided := true }

/-- Every read has room. -/
theorem minimumRoom_le_room_reserve (buffer : Buffer) (held : Nat) :
    minimumRoom ≤ (buffer.reserve held).room held := by
  simp only [reserve, room]
  split
  · omega
  · split
    · simp only
      omega
    · split
      · simp only
        omega
      · simp only
        omega

end Buffer

/-- A connection that is read ahead. -/
structure Pipe where
  incoming : Connection
  /-- How many bytes of the data in front have been fetched. -/
  fetched : Nat := 0
  deriving Repr, DecidableEq

namespace Pipe

/-- The most bytes that are fetched at once. -/
def fetchLimit : Nat := 8192

/-- The number of data bytes that a pipe still brings. -/
def size (pipe : Pipe) : Nat := pipe.incoming.size

/-- The bytes at hand for a read with the given room, when `available` bytes are in front. -/
def atHand (pipe : Pipe) (room available : Nat) : Nat :=
  if pipe.fetched ≠ 0 then pipe.fetched
  else if fetchLimit ≤ room then min room available
  else min fetchLimit available

/-- What is left of a connection after `count` bytes of the data in front. -/
def leave (data : Bytes) (count : Nat) (rest : Connection) : Connection :=
  match data.drop count with
  | [] => rest
  | left => .data left :: rest

/-- What a read of at most `room` bytes finds. At the end it finds data of no length. -/
def read (pipe : Pipe) (room : Nat) : Arrival × Pipe :=
  match pipe.incoming with
  | .data data :: rest =>
    let ready := pipe.atHand room data.length
    let count := min room ready
    (.data (data.take count), { incoming := leave data count rest, fetched := ready - count })
  | .fault reason :: rest => (.fault reason, { pipe with incoming := rest })
  | .stall :: _ => (.stall, pipe)
  | [] => (.data [], pipe)

theorem size_leave (data : Bytes) (count : Nat) (rest : Connection) :
    Connection.size (leave data count rest) = (data.drop count).length + Connection.size rest := by
  unfold leave
  split <;> simp_all [Connection.size, Arrival.size]

/-- A read takes from a pipe what it finds. -/
theorem size_read (pipe : Pipe) (room : Nat) :
    (pipe.read room).1.size + (pipe.read room).2.size = pipe.size := by
  unfold read size
  split <;> simp_all [Connection.size, Arrival.size, size_leave]
  omega

end Pipe

end TableReplica.Transport
