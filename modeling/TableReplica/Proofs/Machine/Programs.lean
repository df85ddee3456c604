import TableReplica.Apply.Replicator
import TableReplica.Proofs.Machine.Words

/-!
# An apply as a machine runs it

A machine holds the stream in one buffer, with the index up to which it is decoded, and counts in
words. Here an apply is written down as a program on such a memory, with every difference, sum,
conversion, index and part of a buffer as a `Checked` operation, and with every loop as a `loop`
that has to make progress. A program stops with an error of the apply or with a fault, so one that
ends in any other way has met no fault on its way.
-/

namespace TableReplica.Machine

open Files Transport Wire Apply

/-- What a machine keeps while it applies a changeset. -/
structure Memory where
  /-- What the reads to come will find. -/
  incoming : Connection
  /-- Whether a read has met the end of the stream. -/
  ended : Bool := false
  /-- Bytes received and not yet committed. -/
  buffer : Bytes := []
  /-- The index up to which the buffer is decoded. -/
  decoded : Nat := 0
  /-- The number of bytes committed. -/
  consumed : Nat := 0
  archive : Archive := .disabled
  files : FileSystem
  deriving Repr, DecidableEq

/-- Why a program stops. -/
inductive Abort (ε : Type) where
  | fault (fault : Fault)
  | error (error : ε)
  deriving Repr, DecidableEq

/-- A program that may stop with an error of type `ε`, or with a fault. -/
abbrev ProgramOf (ε α : Type) := EStateM (Abort ε) Memory α

/-- A program that may stop with an error, or with a fault. -/
abbrev Program (α : Type) := ProgramOf ReplicaError α

/-- Go on with the result of an operation, unless it is a fault. -/
def check {ε α : Type} : Checked α → ProgramOf ε α
  | .ok value => pure value
  | .error fault => throw (.fault fault)

/-- Stop with a protocol error. -/
def reject {α : Type} (error : ProtocolError) : Program α :=
  throw (.error (.protocol error))

/-- Go on with a value, or stop with a protocol error. -/
def demand {α : Type} : Except ProtocolError α → Program α
  | .ok value => pure value
  | .error error => reject error

/-- Stop with a protocol error unless the condition holds. -/
def require (condition : Prop) [Decidable condition] (error : ProtocolError) : Program Unit :=
  if condition then pure () else reject error

/-- Run rounds until one of them leaves the loop with a value. Each round that goes on with a new
state has to lower the rank of the memory. -/
def loop {ε σ α : Type} (rank : Memory → Nat) (round : σ → ProgramOf ε (σ ⊕ α)) (state : σ)
    (memory : Memory) : EStateM.Result (Abort ε) Memory α :=
  match round state memory with
  | .ok (.inl next) after =>
    if _h : rank after < rank memory then loop rank round next after
    else .error (.fault .stuck) after
  | .ok (.inr value) after => .ok value after
  | .error abort after => .error abort after
termination_by rank memory

/-- The number of reads to come. -/
def Memory.reads (memory : Memory) : Nat := memory.incoming.length

/-- The number of bytes that are still to be decoded. -/
def Memory.supply (memory : Memory) : Nat :=
  memory.buffer.length - memory.decoded + memory.incoming.size

/-- The number of bytes received and not yet decoded. -/
def available : Program Nat := do
  let memory ← get
  check (sub memory.buffer.length memory.decoded)

/-- The bytes received and not yet decoded. -/
def undecoded : Program Bytes := do
  let memory ← get
  check (slice memory.buffer memory.decoded memory.buffer.length)

/-- Count the next `count` bytes as decoded. -/
def advance (count : Nat) : Program Unit := do
  let memory ← get
  let decoded ← check (add wordBound memory.decoded count)
  set { memory with decoded }

/-- Cut the first `count` bytes off the buffer. -/
def splitTo (count : Nat) : Program Bytes := do
  let memory ← get
  let data ← check (slice memory.buffer 0 count)
  set { memory with buffer := memory.buffer.drop count }
  return data

/-- Count bytes as committed. -/
def consume (count : Nat) : Program Unit := do
  let memory ← get
  let consumed ← check (add wordBound memory.consumed count)
  set { memory with consumed }

/-- The number of bytes committed or decoded. -/
def totalConsumed {ε : Type} : ProgramOf ε Nat := do
  let memory ← get
  check (add wordBound memory.consumed memory.decoded)

/-- Append to the archive, if there is one. -/
def appendArchive (data : Bytes) : Program Unit := do
  let memory ← get
  match memory.archive.target with
  | none => return ()
  | some (_, place) =>
    let written ← check (add wordBound memory.archive.written data.length)
    set { memory with
      archive := { memory.archive with written }
      files := memory.files.write place memory.archive.written data }

/-- Use another archive from here on. -/
def attachArchive (archive : Archive) : Program Unit :=
  modify fun memory => { memory with archive }

/-- Run an operation of the file system that leaves the files as they are if it fails. -/
def onFiles {α : Type} (operation : FileSystem → Except ReplicaError (α × FileSystem)) :
    Program α :=
  fun memory =>
    match operation memory.files with
    | .ok (value, files) => .ok value { memory with files }
    | .error error => .error (.error error) memory

/-- Run an operation of the file system that may leave changes behind even if it fails. -/
def changeFiles (operation : FileSystem → Except ReplicaError Unit × FileSystem) : Program Unit :=
  fun memory =>
    match operation memory.files with
    | (.ok (), files) => .ok () { memory with files }
    | (.error error, files) => .error (.error error) { memory with files }

/-- Read once. The answer tells whether any bytes came. -/
def fill (what : String) : Program Bool := fun memory =>
  if memory.ended then .ok false memory
  else
    match memory.incoming with
    | [] => .ok false { memory with ended := true }
    | .data [] :: rest => .ok false { memory with incoming := rest, ended := true }
    | .data (byte :: more) :: rest =>
      .ok true { memory with incoming := rest, buffer := memory.buffer ++ byte :: more }
    | .fault reason :: rest => .error (.error (.transport reason)) { memory with incoming := rest }
    | .stall :: _ => .error (.error (.protocol (.timeout what))) memory

/-- Read once more and go on, unless the stream has ended. -/
def fillOr {α : Type} (what : String) (ended : Program (Unit ⊕ α)) : Program (Unit ⊕ α) := do
  if ← fill what then return .inl ()
  else ended

/-- A round of waiting for `count` undecoded bytes. -/
def ensureRound (what : String) (count : Nat) : Program (Unit ⊕ Unit) := do
  if (← available) < count then fillOr what (reject (.truncated what))
  else return .inr ()

/-- A round of waiting for `count` undecoded bytes or the end of the stream. -/
def aheadRound (what : String) (count : Nat) : Program (Unit ⊕ Unit) := do
  if (← available) < count then fillOr what (return .inr ())
  else return .inr ()

/-- Go on by the verdict on the undecoded bytes. -/
def settle {α : Type} (what : String) : Decoded α → Program (Unit ⊕ α)
  | .value value length => do
    advance length
    return .inr value
  | .malformed => reject (.malformedInteger what)
  | .needMore => fillOr what (reject (.truncated what))

/-- A round of decoding an integer. -/
def uintRound (what : String) : Program (Unit ⊕ Nat) := do
  settle what (← check (unpackUint (← undecoded)))

/-- Stop if a length field is complete and above the bound. -/
def limit (what : String) (max : Nat) : Decoded Nat → Program Unit
  | .value size _ => require (size ≤ max) (.payloadTooLarge what size max)
  | _ => return ()

/-- A round of decoding a byte string of at most `max` bytes. -/
def stringRound (what : String) (max : Nat) : Program (Unit ⊕ Bytes) := do
  limit what max (← check (unpackUint (← undecoded)))
  settle what (← check (unpackString (← undecoded)))

/-- A round of waiting for the end of the stream. -/
def endRound : Program (Unit ⊕ Unit) := do
  let junk ← available
  if 0 < junk then reject (.trailingJunk junk)
  else fillOr "end of changeset" (return .inr ())

/-- Wait for `count` undecoded bytes. -/
def ensure (what : String) (count : Nat) : Program Unit :=
  loop Memory.reads (fun _ => ensureRound what count) ()

/-- Wait for `count` undecoded bytes or the end of the stream. -/
def readAhead (what : String) (count : Nat) : Program Unit :=
  loop Memory.reads (fun _ => aheadRound what count) ()

/-- Decode the given bytes if the undecoded bytes start with them. -/
def skipLiteral (literal : Bytes) : Program Bool := do
  if literal.isPrefixOf (← undecoded) then
    advance literal.length
    return true
  else return false

/-- Decode one byte. -/
def readByte (what : String) : Program UInt8 := do
  ensure what 1
  let memory ← get
  let byte ← check (byteAt memory.buffer memory.decoded)
  advance 1
  return byte

/-- Decode an integer. -/
def readUint (what : String) : Program Nat :=
  loop Memory.reads (fun _ => uintRound what) ()

/-- Decode a byte string of at most `max` bytes. -/
def readString (what : String) (max : Nat) : Program Bytes :=
  loop Memory.reads (fun _ => stringRound what max) ()

/-- Wait for the end of the stream, which no undecoded byte may come before. -/
def expectEnd : Program Unit :=
  loop Memory.reads (fun _ => endRound) ()

/-- Archive what was decoded and have done with it. -/
def commit : Program Unit := do
  let memory ← get
  if memory.decoded = 0 then return ()
  else
    let done ← splitTo memory.decoded
    modify fun memory => { memory with decoded := 0 }
    consume done.length
    appendArchive done

/-- Take exactly `count` bytes off the stream. -/
def take (what : String) (count : Nat) : Program Bytes := do
  commit
  ensure what count
  let data ← splitTo count
  appendArchive data
  consume count
  return data

/-- Read the header. -/
def readHeader : Program Header := do
  readAhead "changeset header" magic.length
  let found ← skipLiteral magic
  require (found = true) .badMagic
  let version ← readUint "version number"
  require (version = formatVersion) (.unsupportedVersion version)
  let startRevision ← readUint "start revision"
  let endRevision ← readUint "end revision"
  require (startRevision < endRevision) (.revisionOrder startRevision endRevision)
  let kind ← readByte "changeset type"
  require (kind = durableKind) (.unsupportedKind kind)
  return { version, startRevision, endRevision, kind }

/-- Read the header, and open the archive with the bytes of the header in it. -/
def openChangeset (replicator : Replicator) : Program Header := do
  let header ← readHeader
  let archive ← onFiles
    (Archive.create replicator.directory header.startRevision replicator.config.maxChangesets)
  attachArchive archive
  commit
  return header

/-- Check that a trusted replica is at the revision that the changeset applies to. -/
def checkRevision (replicator : Replicator) (trusted : Bool) (startRevision : Nat) :
    Program Unit :=
  if trusted then
    match replicator.revisions replicator.directory with
    | .error error => throw (.error error)
    | .ok current => require (current = startRevision) (.wrongRevision startRevision current)
  else pure ()

/-- Apply a base file chunk whose table name has been read. -/
def applyBaseFile (directory : Path) (table : String) : Program Nat := do
  let letter ← demand (BaseLetter.ofByte (← readByte "base file letter"))
  let size ← readUint "base file size"
  if maxPayloadSize < size then reject (.payloadTooLarge "base file" size maxPayloadSize)
  else
    let content ← take "base file contents" (← check (narrow sizeBound size))
    changeFiles (replaceBaseFile directory table letter content)
    return size

/-- A round of the blocks of a chunk. -/
def blockRound (path : Path) (place : Location) (blockSize : Nat) (stats : BlockStats) :
    Program (BlockStats ⊕ BlockStats) := do
  let number ← readUint "block number"
  if number = 0 then
    commit
    return .inr stats
  else
    let index ← check (sub number 1)
    match mul? index blockSize with
    | none => reject (.blockOffsetOverflow index blockSize)
    | some offset =>
      let block ← take "block contents" (← check (narrow sizeBound blockSize))
      onFiles (writeBlock path place offset block)
      let blocks ← check (add wordBound stats.blocks 1)
      let bytes ← check (add wordBound stats.bytes blockSize)
      return .inl { blocks, bytes }

/-- Apply a block chunk whose table name has been read. -/
def applyBlocks (directory : Path) (table : String) : Program BlockStats := do
  let blockSize ← readUint "blocksize"
  if maxPayloadSize < blockSize then
    reject (.payloadTooLarge "block" blockSize maxPayloadSize)
  else
    commit
    let path := dataFilePath directory table
    let place ← onFiles (openDataFile path)
    loop Memory.supply (blockRound path place blockSize) {}

/-- Read the table that a chunk is about. -/
def readTable : Program String := do
  let table ← demand (parseTableName (← readString "tablename" maxTableNameSize))
  commit
  return table

/-- A round of the chunks of a changeset. -/
def chunkRound (directory : Path) (stats : ChunkStats) : Program (ChunkStats ⊕ ChunkStats) := do
  let tag ← readByte "chunk type"
  match ChunkKind.ofByte? tag with
  | none => reject (.unknownChunk tag)
  | some kind =>
    if kind = .finish then return .inr stats
    else
      let table ← readTable
      match kind with
      | .baseFile =>
        let _ ← applyBaseFile directory table
        let baseFiles ← check (add wordBound stats.baseFiles 1)
        return .inl { stats with baseFiles }
      | .blocks =>
        let more ← applyBlocks directory table
        let blocks ← check (add wordBound stats.blocks more.blocks)
        return .inl { stats with blocks }
      | .finish => check (.error .unreachable)

/-- Read the footer, which has to be the end of the stream. -/
def readFooter (endRevision : Nat) : Program Nat := do
  let required ← readUint "required revision"
  require (endRevision ≤ required) (.requiredRevisionTooEarly required endRevision)
  expectEnd
  commit
  return required

/-- Run a program as a stage of an apply. -/
def during {α : Type} (stage : Stage) (program : Program α) : ProgramOf Failure α := fun memory =>
  match program memory with
  | .ok value after => .ok value after
  | .error (.fault fault) after => .error (.fault fault) after
  | .error (.error error) after => .error (.error { stage, error }) after

/-- Tell what an apply that has come to its end did. -/
def summarize (header : Header) (stats : ChunkStats) (required : Nat) :
    ProgramOf Failure Applied := do
  let memory ← get
  let consumed ← totalConsumed
  return {
    startRevision := header.startRevision
    endRevision := header.endRevision
    requiredRevision := required
    stats :=
      { baseFiles := stats.baseFiles
        blocksWritten := stats.blocks
        bytesConsumed := consumed
        bytesArchived := memory.archive.written } }

/-- Apply the changeset that comes in, under the lock. -/
def applyLocked (replicator : Replicator) (trusted : Bool) : ProgramOf Failure Applied := do
  let header ← during .readingHeader (openChangeset replicator)
  during .checkingRevision (checkRevision replicator trusted header.startRevision)
  let stats ← during .readingChunks
    (loop Memory.supply (chunkRound replicator.directory) {})
  let required ← during .readingFooter (readFooter header.endRevision)
  summarize header stats required

/-- Apply the changeset that a connection brings. -/
def apply (replicator : Replicator) (trusted : Bool) (connection : Connection)
    (files : FileSystem) : Checked Outcome :=
  match acquireLock replicator.directory files with
  | .error error =>
    .ok {
      result := .error { stage := .awaitingLock, error }
      remaining := connection
      files }
  | .ok (lock, locked) =>
    match applyLocked replicator trusted { incoming := connection, files := locked } with
    | .ok applied memory =>
      .ok {
        result := .ok applied
        remaining := memory.incoming
        files := releaseLock lock memory.files }
    | .error (.error failure) memory =>
      .ok {
        result := .error failure
        remaining := memory.incoming
        files := releaseLock lock memory.files }
    | .error (.fault fault) _ => .error fault

end TableReplica.Machine
