import TableReplica.Proofs.Acceptance
import TableReplica.Proofs.Format.Changeset
import TableReplica.Proofs.Plan.Contents

/-!
# What updates change

The effects of a changeset edit files of the replica: every update changes base files, temporary
files or a data file of its table. What becomes of one file depends on the changes to it alone
(`changesAt_file`), which come to the last content of a base file (`run_base`), to no temporary file
(`run_temp`), and to the blocks of a data file over what it held (`run_data`).
-/

namespace TableReplica.Apply

open Files Transport Wire Format

/-- A change to a file of a replica, as an edit of its name. -/
def editOf (item : ReplicaFile × Change) : Edit :=
  { name := item.1.name, change := item.2 }

/-- The changes to one file, in order. -/
def changesTo (file : ReplicaFile) (items : List (ReplicaFile × Change)) : List Change :=
  items.filterMap fun item => if item.1 = file then some item.2 else none

/-- The first item changes its own file. -/
theorem changesTo_cons (file : ReplicaFile) (item : ReplicaFile × Change)
    (rest : List (ReplicaFile × Change)) :
    changesTo file (item :: rest) =
      if item.1 = file then item.2 :: changesTo file rest else changesTo file rest := by
  unfold changesTo
  by_cases h : item.1 = file <;> simp [h]

/-- Different files have different names, so the changes to a name are those to its file. -/
theorem changesAt_map_editOf {file : ReplicaFile} (hfile : file.Proper)
    {items : List (ReplicaFile × Change)} (hitems : ∀ item ∈ items, item.1.Proper) :
    Edit.changesAt file.name (items.map editOf) = changesTo file items := by
  induction items with
  | nil => rfl
  | cons item rest ih =>
      have hrest := ih fun other hmem => hitems other (List.mem_cons_of_mem _ hmem)
      have hiff : (editOf item).name = file.name ↔ item.1 = file :=
        ⟨ReplicaFile.name_inj (hitems item List.mem_cons_self) hfile, congrArg ReplicaFile.name⟩
      rw [List.map_cons, Edit.changesAt_cons, changesTo_cons, hrest]
      simp only [hiff]
      rfl

/-- What opening the data file of a table changes. -/
def opening : Change :=
  .write { offset := 0, data := [] }

/-- The changes that an update makes to files. -/
def updateEdits : Update → List (ReplicaFile × Change)
  | .base name letter content _ =>
    [(.temp name.text, .remove), (.base name.text letter, .fill (.ofBytes content))]
  | .blocks name _ items _ =>
    (.data name.text, opening) ::
      items.map fun block => (.data name.text, .write block.patch)

/-- The changes that a changeset makes to files other than its archive. -/
def changesetEdits (changeset : Changeset) : List (ReplicaFile × Change) :=
  (.lock, opening) :: changeset.updates.flatMap updateEdits

/-- The text of a table name is one. -/
theorem isTableName_text (name : TableName) : IsTableName name.text :=
  ⟨name.letters, name.parse_letters⟩

/-- An update edits files of its table. -/
theorem proper_of_updateEdits {update : Update} : ∀ item ∈ updateEdits update, item.1.Proper := by
  intro item hmem
  cases update with
  | base name letter content _ =>
      simp only [updateEdits, List.mem_cons, List.not_mem_nil, or_false] at hmem
      rcases hmem with rfl | rfl
      · exact isTableName_text name
      · exact isTableName_text name
  | blocks name _ items _ =>
      rcases List.mem_cons.mp hmem with rfl | hmem
      · exact isTableName_text name
      · obtain ⟨block, -, rfl⟩ := List.mem_map.mp hmem
        exact isTableName_text name

/-- An update writes to the files that it changes. -/
theorem path_of_updateEdits {update : Update} {directory : Path} :
    ∀ item ∈ updateEdits update, item.1.path directory ∈ update.paths directory := by
  intro item hmem
  cases update with
  | base name letter content _ =>
      simp only [updateEdits, List.mem_cons, List.not_mem_nil, or_false] at hmem
      rcases hmem with rfl | rfl
      · exact List.mem_cons_self
      · exact List.mem_cons_of_mem _ List.mem_cons_self
  | blocks name _ items _ =>
      rcases List.mem_cons.mp hmem with rfl | hmem
      · exact List.mem_cons_self
      · obtain ⟨block, -, rfl⟩ := List.mem_map.mp hmem
        exact List.mem_cons_self

/-- A changeset edits files of a replica. -/
theorem proper_of_changesetEdits {changeset : Changeset} :
    ∀ item ∈ changesetEdits changeset, item.1.Proper := by
  intro item hmem
  rcases List.mem_cons.mp hmem with rfl | hmem
  · exact trivial
  · obtain ⟨update, -, hitem⟩ := List.mem_flatMap.mp hmem
    exact proper_of_updateEdits item hitem

section

variable {archived : Option Nat}

/-- An update asks for the changes that it makes. -/
theorem edits_chunkChanges (update : Update) :
    (Plan.chunkChanges update.chunk).flatMap (Effect.edits archived) =
      (updateEdits update).map editOf := by
  cases update with
  | base name letter content small => rfl
  | blocks name size items small =>
      have hitems : ((items.map IndexedBlock.numbered).map
          (Plan.blockChange name.text size)).flatMap (Effect.edits archived) =
            (items.map fun block => (ReplicaFile.data name.text, Change.write block.patch)).map
              editOf := by
        rw [List.map_map, List.map_map, List.flatMap_map, List.map_eq_flatMap]
        rfl
      exact congrArg (editOf (.data name.text, opening) :: ·) hitems

variable {changeset : Changeset}

/-- The updates of a changeset make their changes in order. -/
theorem edits_streamChanges (changeset : Changeset) :
    (streamChanges changeset.stream).flatMap (Effect.edits archived) =
      Effect.edits archived (.openArchive changeset.startRevision) ++
        (changeset.updates.flatMap updateEdits).map editOf := by
  have hupdates : ((changeset.updates.map Update.chunk).flatMap Plan.chunkChanges).flatMap
      (Effect.edits archived) = (changeset.updates.flatMap updateEdits).map editOf := by
    rw [List.flatMap_map, List.flatMap_assoc, List.map_flatMap]
    exact congrArg (changeset.updates.flatMap ·) (funext edits_chunkChanges)
  rw [← hupdates]
  rfl

/-- What happens to a file other than the archive is told by the changeset. -/
theorem changesAt_file {effects : List Effect}
    (hchanges : changesOf effects = streamChanges changeset.stream) {file : ReplicaFile}
    (hfile : file.Proper) (hother : ∀ start, file ≠ .archive start) :
    Edit.changesAt file.name (locking :: effects.flatMap (Effect.edits archived)) =
      changesTo file (changesetEdits changeset) := by
  have hname := ReplicaFile.name_ne_archiveName hfile hother
  -- Names tell files apart, so the changes at the name are those to the file.
  have hall : Edit.changesAt file.name ((changesetEdits changeset).map editOf) = _ :=
    changesAt_map_editOf hfile proper_of_changesetEdits
  rw [← hall, changesetEdits, List.map_cons, Edit.changesAt_cons, Edit.changesAt_cons,
    changesAt_effects fun start _ => hname start, hchanges, edits_streamChanges]
  rfl

/-- The changes to a file that updates make, in order. -/
theorem changesTo_updates (file : ReplicaFile) (hlock : file ≠ .lock) (changeset : Changeset) :
    changesTo file (changesetEdits changeset) =
      changeset.updates.flatMap fun update => changesTo file (updateEdits update) := by
  rw [changesetEdits, changesTo_cons, if_neg (Ne.symm hlock)]
  exact List.filterMap_flatMap

/-- What an update writes to the data file of a table, with a write of no bytes where it opens
it. -/
def openingPatches (table : String) (update : Update) : List Patch :=
  if update.isBlocksOf table then { offset := 0, data := [] } :: update.patches table else []

/-- An update writes its blocks to the data file, after an empty write that makes the file. -/
theorem changesTo_data (table : String) (update : Update) :
    changesTo (.data table) (updateEdits update) = (openingPatches table update).map .write := by
  cases update with
  | base name letter content small => rfl
  | blocks name size items small =>
      by_cases hname : name.text = table
      · simp [updateEdits, changesTo, openingPatches, Update.isBlocksOf, Update.patches, hname,
          opening, List.filterMap_map]
      · simp [updateEdits, changesTo, openingPatches, Update.isBlocksOf, hname, List.filterMap_map]

/-- Opening a data file writes nothing. -/
theorem patched_openings (content : Content) (table : String) (updates : List Update) :
    content.patched (updates.flatMap (openingPatches table)) =
      content.patched (updates.flatMap (Update.patches table)) := by
  have hone (content : Content) (update : Update) :
      content.patched (openingPatches table update) = content.patched (update.patches table) := by
    unfold openingPatches
    split
    · exact congrArg (·.patched (update.patches table)) (Content.overwrite_nil content 0)
    · next hother =>
        cases update with
        | base => rfl
        | blocks name size items small =>
            have hname : name.text ≠ table := by simpa [Update.isBlocksOf] using hother
            simp [Update.patches, hname]
  induction updates generalizing content with
  | nil => rfl
  | cons update rest ih =>
      rw [List.flatMap_cons, List.flatMap_cons, Content.patched_append, Content.patched_append,
        hone, ih]

/-- A data file holds its blocks over what was there. -/
theorem run_data {table : String} (hopens : ∃ update ∈ changeset.updates, update.isBlocksOf table)
    {entry : Option Entry} (hentry : entry ≠ some .directory) :
    Change.run (changesTo (.data table) (changesetEdits changeset)) entry =
      some (.file ((Change.contentOf entry).patched (changeset.patches table))) := by
  obtain ⟨update, hmem, hblocks⟩ := hopens
  -- Opening the file counts as a write, so the file is there even if there are no blocks.
  have hsome : changeset.updates.flatMap (openingPatches table) ≠ [] := by
    intro hnil
    have hnone := List.flatMap_eq_nil_iff.mp hnil update hmem
    simp [openingPatches, hblocks] at hnone
  have hwrites : changesTo (.data table) (changesetEdits changeset) =
      (changeset.updates.flatMap (openingPatches table)).map .write := by
    rw [changesTo_updates _ (by simp), List.map_flatMap]
    exact congrArg (changeset.updates.flatMap ·) (funext (changesTo_data table))
  rw [hwrites, Change.run_patches hsome hentry, patched_openings]
  rfl

/-- Blocks change no file but the data file of their table. -/
theorem changesTo_blocks {file : ReplicaFile} (name : TableName) {size : Nat}
    (items : List (IndexedBlock size)) (small : size ≤ maxPayloadSize)
    (hother : ∀ table, file ≠ .data table) :
    changesTo file (updateEdits (.blocks name size items small)) = [] := by
  have hname := Ne.symm (hother name.text)
  simp [updateEdits, changesTo, hname, List.filterMap_map]

/-- Updates fill a base file with each of its contents in turn. -/
theorem changesTo_base (table : String) (letter : BaseLetter) (updates : List Update) :
    updates.flatMap (fun update => changesTo (.base table letter) (updateEdits update)) =
      ((updates.filterMap (Update.content? table letter)).map Content.ofBytes).map .fill := by
  induction updates with
  | nil => rfl
  | cons update rest ih =>
      rw [List.flatMap_cons, ih]
      cases update with
      | base name which content small =>
          by_cases hsame : name.text = table ∧ which = letter
          · simp [updateEdits, changesTo, Update.content?, hsame]
          · simp [updateEdits, changesTo, Update.content?, hsame]
      | blocks name size items small =>
          rw [changesTo_blocks name items small (by simp)]
          rfl

/-- A base file holds its last content. -/
theorem run_base {table : String} {letter : BaseLetter} {content : Bytes}
    (hlast : changeset.content? table letter = some content) {entry : Option Entry}
    (hentry : entry ≠ some .directory) :
    Change.run (changesTo (.base table letter) (changesetEdits changeset)) entry =
      some (.file (.ofBytes content)) := by
  rw [changesTo_updates _ (by simp), changesTo_base]
  refine Change.run_fills ?_ hentry
  rw [List.getLast?_map]
  exact congrArg (Option.map Content.ofBytes) hlast

/-- No temporary file is left of a table that has got a base file. -/
theorem run_temp {table : String} {letter : BaseLetter} {content : Bytes}
    (hlast : changeset.content? table letter = some content) {entry : Option Entry}
    (hentry : entry ≠ some .directory) :
    Change.run (changesTo (.temp table) (changesetEdits changeset)) entry = none := by
  obtain ⟨update, hmem, hcontent⟩ :=
    List.mem_filterMap.mp (List.mem_of_getLast? hlast)
  refine Change.run_removes ?_ ?_ hentry
  · rw [changesTo_updates _ (by simp)]
    intro hnil
    have hnone := List.flatMap_eq_nil_iff.mp hnil update hmem
    cases update with
    | base name which bytes small =>
        have hname : name.text = table := by
          simp only [Update.content?] at hcontent
          split at hcontent
          · next hsame => exact hsame.1
          · cases hcontent
        simp [updateEdits, changesTo, hname] at hnone
    | blocks => cases hcontent
  · intro change hchange
    rw [changesTo_updates _ (by simp)] at hchange
    obtain ⟨other, -, hother⟩ := List.mem_flatMap.mp hchange
    cases other with
    | base name which bytes small =>
        have hremove : name.text = table ∧ .remove = change := by
          simpa [updateEdits, changesTo] using hother
        exact hremove.2.symm
    | blocks name size items small =>
        rw [changesTo_blocks name items small (by simp)] at hother
        cases hother

/-- The lock file stays what it was, or is made. -/
theorem run_lock {entry : Option Entry} (hentry : entry ≠ some .directory) :
    Change.run (changesTo .lock (changesetEdits changeset)) entry =
      some (.file (Change.contentOf entry)) := by
  have hupdate (update : Update) : changesTo .lock (updateEdits update) = [] := by
    cases update with
    | base name letter content small => rfl
    | blocks name size items small => exact changesTo_blocks name items small (by simp)
  have hnone : changesTo .lock (changeset.updates.flatMap updateEdits) = [] := by
    unfold changesTo
    rw [List.filterMap_flatMap]
    exact List.flatMap_eq_nil_iff.mpr fun update _ => hupdate update
  rw [changesetEdits, changesTo_cons, if_pos rfl, hnone]
  show opening.apply entry = _
  rw [opening, Change.apply_write _ hentry, Content.overwrite_nil]

end

end TableReplica.Apply
