import TableReplica.Bytes

/-!
# Connections

A connection is the list of what its reads will find. A read that finds data takes all of it, and
data of no length means that the stream has ended; so does a connection with nothing left. A fault
fails one read. A stall fails the read that meets it and every later one, since no more data will
come before the deadline.

Left out is data that comes after the deadline: a read that finds such data ready would take it,
while a stall is never over.
-/

namespace TableReplica.Transport

/-- What one read finds. -/
inductive Arrival where
  | data (bytes : Bytes)
  | fault (reason : String)
  | stall
  deriving Repr, DecidableEq

/-- The number of data bytes that an arrival brings. -/
def Arrival.size : Arrival → Nat
  | data bytes => bytes.length
  | _ => 0

/-- What the reads of a connection will find, in order. -/
abbrev Connection := List Arrival

namespace Connection

/-- The most bytes that one read takes off a piece. -/
def pieceLimit : Nat := 1024

/-- The reads that deliver one piece of data. A piece of no length is one read of no length. -/
def ofPiece (piece : Bytes) : Connection :=
  match _h : piece.drop pieceLimit with
  | [] => [.data piece]
  | next :: rest => .data (piece.take pieceLimit) :: ofPiece (next :: rest)
termination_by piece.length
decreasing_by
  have := congrArg List.length _h
  simp only [List.length_drop, pieceLimit, List.length_cons] at *
  omega

/-- The number of data bytes that a connection still brings. -/
def size : Connection → Nat
  | [] => 0
  | arrival :: rest => arrival.size + size rest

end Connection

end TableReplica.Transport
