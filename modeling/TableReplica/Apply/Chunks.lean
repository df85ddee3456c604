import TableReplica.Apply.BaseFile
import TableReplica.Apply.Blocks

/-!
# The chunks of a changeset

Chunks are applied one after the other, as soon as they have arrived, until the tag that ends them.
-/

namespace TableReplica.Apply

open Files Transport Wire

/-- What a number of chunks did. -/
structure ChunkStats where
  baseFiles : Nat := 0
  blocks : Nat := 0
  deriving Repr, DecidableEq

/-- What two numbers of chunks did together. -/
def ChunkStats.add (first second : ChunkStats) : ChunkStats :=
  { baseFiles := first.baseFiles + second.baseFiles, blocks := first.blocks + second.blocks }

/-- Read the table that a chunk is about. -/
def readTable : Action String := do
  let table ← demand (parseTableName (← readString "tablename" maxTableNameSize))
  commit
  return table

/-- Go on after the tag of a chunk: apply the chunk, or end if the tag says so. -/
def applyTagged (directory : Path) (tag : UInt8) : Action (Option ChunkStats) :=
  match ChunkKind.ofByte? tag with
  | none => reject (.unknownChunk tag)
  | some .finish => return none
  | some .baseFile => do
    let table ← readTable
    let _ ← applyBaseFile directory table
    return some { baseFiles := 1 }
  | some .blocks => do
    let table ← readTable
    let stats ← applyBlocks directory table
    return some { blocks := stats.blocks }

/-- Read the next tag and go on after it. -/
def applyChunk (directory : Path) : Action (Option ChunkStats) := do
  applyTagged directory (← readByte "chunk type")

theorem Thrifty.readTable : Thrifty Apply.readTable :=
  bind (readString _ _) fun _ => bind (demand _) fun _ => bind commit fun _ => pure _

theorem Thrifty.applyTagged (directory : Path) (tag : UInt8) :
    Thrifty (Apply.applyTagged directory tag) := by
  unfold Apply.applyTagged
  split
  · exact reject _
  · exact pure _
  · exact bind readTable fun _ => bind (applyBaseFile _ _) fun _ => pure _
  · exact bind readTable fun _ => bind (applyBlocks _ _) fun _ => pure _

/-- A chunk takes at least the byte of its tag. -/
theorem Consuming.applyChunk (directory : Path) : Consuming (Apply.applyChunk directory) :=
  bind (readByte _) fun _ => .applyTagged _ _

/-- Apply chunks until the tag that ends them. -/
def applyChunks (directory : Path) (stats : ChunkStats) (session : Session) :
    EStateM.Result ReplicaError Session ChunkStats :=
  match _h : applyChunk directory session with
  | .ok (some more) after => applyChunks directory (stats.add more) after
  | .ok none after => .ok stats after
  | .error error after => .error error after
termination_by session.supply
decreasing_by exact Consuming.applyChunk _ _h

end TableReplica.Apply
