import TableReplica.Apply.Thrift

/-!
# Base file chunks

A base file is replaced as a whole. The new content is written to the temporary file of the table,
which is then renamed onto the base file. A rename that is reported as failed counts as done if the
temporary file is gone afterwards. However the replacement fails, no temporary file is left.
-/

namespace TableReplica.Apply

open Files Transport Wire

/-- Rename a temporary file onto its target. A failed rename counts as done if the temporary file
is missing; otherwise the file is removed and the failure of the rename is reported. -/
def renameIntoPlace (temp target : Path) (fs : FileSystem) :
    Except ReplicaError Unit × FileSystem :=
  match fs.rename temp target with
  | .ok renamed => (.ok (), renamed)
  | .error refusal =>
    match fs.removeFile temp with
    | .error .notFound => (.ok (), fs)
    | .error _ => (.error (.storage .updateBaseFile target refusal), fs)
    | .ok removed => (.error (.storage .updateBaseFile target refusal), removed)

/-- Give a base file new content by way of the temporary file of its table. -/
def replaceBaseFile (directory : Path) (table : String) (letter : BaseLetter) (content : Bytes)
    (fs : FileSystem) : Except ReplicaError Unit × FileSystem :=
  let temp := tempFilePath directory table
  match fs.createEmpty temp with
  | .error refusal => (.error (.storage .openFile temp refusal), fs.discard temp)
  | .ok (place, opened) =>
    let target := baseFilePath directory table letter
    match renameIntoPlace temp target (opened.write place 0 content) with
    | (.ok (), replaced) => (.ok (), replaced)
    | (.error error, refused) => (.error error, refused.discard temp)

/-- Run an operation of the file system that may leave changes behind even if it fails. -/
def changeFiles (operation : FileSystem → Except ReplicaError Unit × FileSystem) : Action Unit :=
  fun session =>
    match operation session.files with
    | (.ok (), files) => .ok () { session with files }
    | (.error error, files) => .error error { session with files }

/-- Apply a base file chunk whose table name has been read. The result is the size of the file. -/
def applyBaseFile (directory : Path) (table : String) : Action Nat := do
  let letter ← demand (BaseLetter.ofByte (← readByte "base file letter"))
  let size ← readUint "base file size"
  if maxPayloadSize < size then reject (.payloadTooLarge "base file" size maxPayloadSize)
  else do
    let content ← take "base file contents" size
    changeFiles (replaceBaseFile directory table letter content)
    return size

namespace Thrifty

theorem changeFiles (operation : FileSystem → Except ReplicaError Unit × FileSystem) :
    Thrifty (Apply.changeFiles operation) := by
  refine of_supply_eq fun session => ?_
  unfold Apply.changeFiles
  split <;> rfl

theorem applyBaseFile (directory : Path) (table : String) :
    Thrifty (Apply.applyBaseFile directory table) := by
  refine bind (readByte _) fun _ => bind (demand _) fun _ => bind (readUint _) fun _ => ?_
  split
  · exact reject _
  · exact bind (take _ _) fun _ => bind (changeFiles _) fun _ => pure _

end Thrifty

end TableReplica.Apply
