import TableReplica.Apply.Thrift

/-!
# Block chunks

A block chunk overwrites blocks of one size in the data file of a table, in the order in which they
arrive. The file is made if there is none. A block number of zero ends the chunk; any other is one
more than the index of the block that follows it.
-/

namespace TableReplica.Apply

open Files Transport Wire

/-- The number of blocks in a chunk and the bytes in them. -/
structure BlockStats where
  blocks : Nat := 0
  bytes : Nat := 0
  deriving Repr, DecidableEq

/-- Open a data file for writing. It is made only if nothing is there. -/
def openDataFile (path : Path) (fs : FileSystem) : Except ReplicaError (Location × FileSystem) :=
  match fs.openFile path with
  | .ok place => .ok (place, fs)
  | .error refusal =>
    if fs.mayExist path then .error (.storage .openFile path refusal)
    else (fs.createEmpty path).mapError (.storage .createAndOpen path)

/-- Write a block at an offset of a data file. -/
def writeBlock (path : Path) (place : Location) (offset : Nat) (block : Bytes) (fs : FileSystem) :
    Except ReplicaError (Unit × FileSystem) :=
  if offsetBound ≤ offset then .error (.storage .seek path .invalid)
  else .ok ((), fs.write place offset block)

/-- Go on after a block number: write the block it announces, or end the chunk if it is zero. The
answer tells whether there was a block. -/
def applyNumbered (path : Path) (place : Location) (blockSize : Nat) : Nat → Action Bool
  | 0 => do
    commit
    return false
  | index + 1 =>
    let offset := index * blockSize
    if wordBound ≤ offset then reject (.blockOffsetOverflow index blockSize)
    else do
      let block ← take "block contents" blockSize
      onFiles (writeBlock path place offset block)
      return true

/-- Read the next block number and go on after it. -/
def applyBlock (path : Path) (place : Location) (blockSize : Nat) : Action Bool := do
  applyNumbered path place blockSize (← readUint "block number")

theorem Thrifty.applyNumbered (path : Path) (place : Location) (blockSize number : Nat) :
    Thrifty (Apply.applyNumbered path place blockSize number) := by
  cases number with
  | zero => exact bind commit fun _ => pure _
  | succ index =>
    unfold Apply.applyNumbered
    simp only
    split
    · exact reject _
    · exact bind (take _ _) fun _ => bind (onFiles _) fun _ => pure _

theorem Thrifty.applyBlock (path : Path) (place : Location) (blockSize : Nat) :
    Thrifty (Apply.applyBlock path place blockSize) :=
  bind (readUint _) fun _ => applyNumbered _ _ _ _

/-- A block takes at least the byte of its number. -/
theorem Consuming.applyBlock (path : Path) (place : Location) (blockSize : Nat) :
    Consuming (Apply.applyBlock path place blockSize) :=
  bind (readUint _) fun _ => .applyNumbered _ _ _ _

/-- Apply blocks until the chunk ends. -/
def applyBlockList (path : Path) (place : Location) (blockSize : Nat) (stats : BlockStats)
    (session : Session) : EStateM.Result ReplicaError Session BlockStats :=
  match _h : applyBlock path place blockSize session with
  | .ok true after =>
    applyBlockList path place blockSize
      { blocks := stats.blocks + 1, bytes := stats.bytes + blockSize } after
  | .ok false after => .ok stats after
  | .error error after => .error error after
termination_by session.supply
decreasing_by exact Consuming.applyBlock _ _ _ _h

/-- Apply a block chunk whose table name has been read. -/
def applyBlocks (directory : Path) (table : String) : Action BlockStats := do
  let blockSize ← readUint "blocksize"
  if maxPayloadSize < blockSize then reject (.payloadTooLarge "block" blockSize maxPayloadSize)
  else do
    commit
    let path := dataFilePath directory table
    let place ← onFiles (openDataFile path)
    applyBlockList path place blockSize {}

namespace Thrifty

theorem applyBlockList (path : Path) (place : Location) (blockSize : Nat) (stats : BlockStats) :
    Thrifty (Apply.applyBlockList path place blockSize stats) := by
  intro session
  fun_induction Apply.applyBlockList path place blockSize stats session with
  | case1 stats session after eq ih =>
    exact Nat.le_trans ih (Nat.le_of_lt (Consuming.applyBlock _ _ _ eq))
  | case2 stats session after eq => exact Nat.le_of_lt (Consuming.applyBlock _ _ _ eq)
  | case3 stats session error after eq =>
    have h := applyBlock path place blockSize session
    rw [eq] at h
    exact h

theorem applyBlocks (directory : Path) (table : String) :
    Thrifty (Apply.applyBlocks directory table) := by
  refine bind (readUint _) fun _ => ?_
  split
  · exact reject _
  · exact bind commit fun _ => bind (onFiles _) fun _ => applyBlockList _ _ _ _

end Thrifty

end TableReplica.Apply
