import TableReplica.Proofs.Format.Reading
import TableReplica.Proofs.Plan.Repeating
import TableReplica.Proofs.Plan.Tracking

/-!
# What the effects of an apply make of a file

What becomes of a file depends on the edits of its name alone. For a file that is not the archive
these are told by the changes among the effects, without what only fills the archive
(`changesAt_editsOf`), and the archive holds the bytes that the effects archive, in order
(`run_archive`).
-/

namespace TableReplica.Apply

open Files Transport Wire Format

/-- The edits of effects that were made, and of the one that was refused after them. -/
def editsOf (directory : Path) (archived : Option Nat) (files : FileSystem) (done : List Effect)
    (refused : Option Effect) : List Edit :=
  done.flatMap (Effect.edits archived) ++ refused.toList.flatMap (Effect.spoils directory files)

section

variable {directory : Path} {archived : Option Nat} {files : FileSystem} {ε : Type}

/-- What is attempted comes to a halt where the course does. -/
theorem attempt_of_halts {α : Type} {course : Course ε α} {done : List Effect}
    {reason : Effect ⊕ ε}
    (h : course.Halts (Effect.Clear directory archived files) done reason) :
    (attempt directory archived files course.effects).2 =
        editsOf directory archived files done reason.getLeft? ∧
      (∀ effect, reason = .inl effect → ∃ error,
        (attempt directory archived files course.effects).1 =
          .error { stage := effect.stage, error }) ∧
      ∀ stop, reason = .inr stop →
        (attempt directory archived files course.effects).1 = .ok () := by
  cases h with
  | refused _ rest effect outcome hdone hrefused =>
      obtain ⟨error, herror⟩ := Option.ne_none_iff_exists'.mp hrefused
      have hattempt : attempt directory archived files (done ++ effect :: rest) =
          (.error { stage := effect.stage, error },
            editsOf directory archived files done (some effect)) := by
        rw [attempt_append, attempt_of_clear hdone, attempt, herror]
        simp [editsOf]
      simp [hattempt]
  | stopped _ stop hdone =>
      simp [attempt_of_clear hdone, editsOf]

/-- The revision whose changeset is archived. -/
theorem archivedBy_eq {effects changes : List Effect} {start : Nat} (horderly : Orderly effects)
    (hchanges : changesOf effects = .openArchive start :: changes) (retention : UInt32) :
    archivedBy retention effects = if retention = 0 then none else some start := by
  cases horderly with
  | nothing => cases hchanges
  | opening opened rest _ =>
      obtain ⟨hstart, -⟩ := List.cons.inj hchanges
      cases hstart
      rfl

/-- The files that an effect edits. -/
def Effect.edited (archived : Option Nat) : Effect → List ReplicaFile
  | openArchive _ | archive _ => archived.toList.map .archive
  | openData table | writeBlock table _ _ => [.data table]
  | replaceBase table letter _ => [.temp table, .base table letter]

/-- An effect edits its files, whether it is made or refused. All that is done to a temporary file
is that it goes. -/
theorem Effect.file_of_edit {effect : Effect} {edit : Edit}
    (h : edit ∈ effect.edits archived ++ effect.spoils directory files) :
    ∃ file ∈ effect.edited archived, edit.name = file.name ∧
      ∀ table, file = .temp table → edit.change = .remove := by
  cases effect with
  | openArchive | archive =>
      cases archived with
      | none => cases h
      | some start =>
          obtain rfl := List.mem_singleton.mp h
          exact ⟨.archive start, List.mem_singleton.mpr rfl, rfl, by simp⟩
  | openData table | writeBlock table =>
      obtain rfl := List.mem_singleton.mp h
      exact ⟨.data table, List.mem_singleton.mpr rfl, rfl, by simp⟩
  | replaceBase table letter content =>
      have hclearing : ∃ file ∈ (replaceBase table letter content).edited archived,
          (clearing table).name = file.name ∧
            ∀ other, file = .temp other → (clearing table).change = .remove :=
        ⟨.temp table, List.mem_cons_self, rfl, fun _ _ => rfl⟩
      simp only [edits, spoils, List.cons_append, List.nil_append, List.mem_cons] at h
      rcases h with rfl | rfl | hspoil
      · exact hclearing
      · exact ⟨.base table letter, by simp [edited], rfl, by simp⟩
      · split at hspoil
        · cases hspoil
        · obtain rfl := List.mem_singleton.mp hspoil
          exact hclearing

/-- No effect edits the lock file. -/
theorem Effect.lock_notMem_edited (effect : Effect) : .lock ∉ effect.edited archived := by
  cases effect <;> simp [edited]

/-- Effects edit files that an apply uses. -/
theorem file_of_editsOf {done : List Effect} {refused : Option Effect}
    (horderly : Orderly (done ++ refused.toList)) {edit : Edit}
    (h : edit ∈ editsOf directory archived files done refused) :
    ∃ effect ∈ done ++ refused.toList, ∃ file ∈ effect.edited archived,
      file.Proper ∧ edit.name = file.name ∧
        ∀ table, file = .temp table → edit.change = .remove := by
  have hproper {effect : Effect} (hmem : effect ∈ done ++ refused.toList) {file : ReplicaFile}
      (hfile : file ∈ effect.edited archived) : file.Proper := by
    rcases horderly.kinds effect hmem with hchunk | ⟨start, rfl⟩
    · cases effect with
      | openArchive => exact hchunk.elim
      | archive =>
          obtain ⟨_, -, rfl⟩ := List.mem_map.mp hfile
          exact trivial
      | openData table | writeBlock table =>
          rw [List.mem_singleton.mp hfile]
          exact hchunk
      | replaceBase table letter =>
          simp only [Effect.edited, List.mem_cons, List.not_mem_nil, or_false] at hfile
          rcases hfile with rfl | rfl <;> exact hchunk
    · obtain ⟨_, -, rfl⟩ := List.mem_map.mp hfile
      exact trivial
  have hedit : ∃ effect ∈ done ++ refused.toList,
      edit ∈ effect.edits archived ++ effect.spoils directory files := by
    rcases List.mem_append.mp h with hmade | hspoiled
    · obtain ⟨effect, hmem, hedit⟩ := List.mem_flatMap.mp hmade
      exact ⟨effect, List.mem_append_left _ hmem, List.mem_append_left _ hedit⟩
    · obtain ⟨effect, hmem, hedit⟩ := List.mem_flatMap.mp hspoiled
      exact ⟨effect, List.mem_append_right _ hmem, List.mem_append_right _ hedit⟩
  obtain ⟨effect, hmem, hedit⟩ := hedit
  obtain ⟨file, hfile, hname, htemp⟩ := Effect.file_of_edit hedit
  exact ⟨effect, hmem, file, hfile, hproper hmem hfile, hname, htemp⟩

/-- What is refused spoils temporary files only. -/
theorem changesAt_spoils {done : List Effect} {refused : Option Effect}
    (horderly : Orderly (done ++ refused.toList)) {file : ReplicaFile} (hfile : file.Proper)
    (hother : ∀ table, file ≠ .temp table) :
    Edit.changesAt file.name (refused.toList.flatMap (Effect.spoils directory files)) = [] := by
  refine Edit.changesAt_eq_nil.mpr fun edit hmem => ?_
  obtain ⟨effect, heffect, hspoil⟩ := List.mem_flatMap.mp hmem
  have hkind := horderly.kinds effect (List.mem_append_right _ heffect)
  cases effect with
  | replaceBase table letter content =>
      have htemp : (ReplicaFile.temp table).Proper := hkind.resolve_right (by simp)
      rw [Effect.spoils] at hspoil
      split at hspoil
      · cases hspoil
      · rw [List.mem_singleton.mp hspoil]
        exact ReplicaFile.name_ne htemp hfile (hother table).symm
  | openArchive | archive | openData | writeBlock => cases hspoil

/-- Without an archive no name of an archive is edited. -/
theorem changesAt_unarchived {done : List Effect} {refused : Option Effect}
    (horderly : Orderly (done ++ refused.toList)) (start : Nat) :
    Edit.changesAt (archiveName start) (editsOf directory none files done refused) = [] := by
  refine Edit.changesAt_eq_nil.mpr fun edit hmem => ?_
  obtain ⟨effect, -, file, hfile, hproper, hname, -⟩ := file_of_editsOf horderly hmem
  have hother (start : Nat) : file ≠ .archive start := by
    rintro rfl
    cases effect <;> simp [Effect.edited] at hfile
  rw [hname]
  exact ReplicaFile.name_ne_archiveName hproper hother start

/-- A file other than the archive is edited as if there were no archive. -/
theorem changesAt_effects {name : String}
    (hname : ∀ start, archived = some start → name ≠ archiveName start) (effects : List Effect) :
    Edit.changesAt name (effects.flatMap (Effect.edits archived)) =
      Edit.changesAt name ((changesOf effects).flatMap (Effect.edits none)) := by
  induction effects with
  | nil => rfl
  | cons effect rest ih =>
      have hone : Edit.changesAt name (effect.edits archived) =
          Edit.changesAt name (effect.edits none) := by
        cases effect with
        | openArchive | archive =>
            cases archived with
            | none => rfl
            | some start => simp [Effect.edits, Edit.changesAt, Ne.symm (hname start rfl)]
        | openData | writeBlock | replaceBase => rfl
      rw [List.flatMap_cons, Edit.changesAt_append, ih, hone]
      cases hfills : effect.fillsArchive with
      | true =>
          have hchanges : changesOf (effect :: rest) = changesOf rest :=
            List.filter_cons_of_neg (by simp [hfills])
          rw [hchanges]
          cases effect <;> first | rfl | cases hfills
      | false =>
          have hchanges : changesOf (effect :: rest) = effect :: changesOf rest :=
            List.filter_cons_of_pos (by simp [hfills])
          rw [hchanges, List.flatMap_cons, Edit.changesAt_append]

/-- What is done to a file other than the archive is told by the changes alone. -/
theorem changesAt_editsOf {name : String}
    (hname : ∀ start, archived = some start → name ≠ archiveName start) (done : List Effect)
    (refused : Option Effect) :
    Edit.changesAt name (editsOf directory archived files done refused) =
      Edit.changesAt name (editsOf directory none files (changesOf done) refused) := by
  unfold editsOf
  rw [Edit.changesAt_append, Edit.changesAt_append, changesAt_effects hname]

/-- An effect of a chunk adds to the archive what it archives. -/
theorem run_archived {effect : Effect} (heffect : effect.OfChunk) (start : Nat)
    (content : Content) :
    Change.run (Edit.changesAt (archiveName start) (effect.edits (some start)))
        (some (.file content)) =
      some (.file (content.overwrite content.size effect.archivedBytes)) := by
  have hname {file : ReplicaFile} (hfile : file.Proper) (hother : ∀ start, file ≠ .archive start) :
      file.name ≠ archiveName start := ReplicaFile.name_ne_archiveName hfile hother start
  cases effect with
  | openArchive => exact heffect.elim
  | archive data =>
      have hchanges : Edit.changesAt (archiveName start)
          (Effect.edits (some start) (.archive data)) = [.append data] := by
        simp [Effect.edits, Edit.changesAt]
      rw [hchanges]
      rfl
  | openData table | writeBlock table offset block =>
      have hdata := hname (show (ReplicaFile.data table).Proper from heffect) (by simp)
      simp [Effect.edits, Edit.changesAt, hdata, Effect.archivedBytes, Change.run]
  | replaceBase table letter base =>
      have htemp := hname (show (ReplicaFile.temp table).Proper from heffect) (by simp)
      have hbase := hname (show (ReplicaFile.base table letter).Proper from heffect) (by simp)
      simp [Effect.edits, Edit.changesAt, clearing, replacing, htemp, hbase, Effect.archivedBytes,
        Change.run]

/-- Effects of chunks add to the archive what they archive, in order. -/
theorem run_allArchived {effects : List Effect} (heffects : ∀ effect ∈ effects, effect.OfChunk)
    (start : Nat) (content : Content) :
    ∃ grown : Content, grown.bytes = content.bytes ++ allArchived effects ∧
      Change.run (Edit.changesAt (archiveName start)
        (effects.flatMap (Effect.edits (some start)))) (some (.file content)) =
          some (.file grown) := by
  induction effects generalizing content with
  | nil => exact ⟨content, (List.append_nil _).symm, rfl⟩
  | cons effect rest ih =>
      obtain ⟨grown, hbytes, hrun⟩ :=
        ih (fun other hmem => heffects other (List.mem_cons_of_mem _ hmem))
          (content.overwrite content.size effect.archivedBytes)
      refine ⟨grown, ?_, ?_⟩
      · rw [hbytes, Content.bytes_overwrite_size, List.append_assoc]
        rfl
      · rw [List.flatMap_cons, Edit.changesAt_append, Change.run_append,
          run_archived (heffects effect List.mem_cons_self)]
        exact hrun

/-- The archive that is opened starts out empty and holds what the effects archive. -/
theorem run_archive {effects changes : List Effect} {start : Nat} (horderly : Orderly effects)
    (hchanges : changesOf effects = .openArchive start :: changes) {entry : Option Entry}
    (hentry : entry ≠ some .directory) :
    ∃ archive : Content, archive.bytes = allArchived effects ∧
      Change.run (Edit.changesAt (archiveName start)
        (locking :: effects.flatMap (Effect.edits (some start)))) entry = some (.file archive) := by
  cases horderly with
  | nothing => cases hchanges
  | opening opened rest hrest =>
      obtain ⟨hstart, -⟩ := List.cons.inj hchanges
      obtain rfl : opened = start := Effect.openArchive.inj hstart
      obtain ⟨archive, hbytes, hrun⟩ := run_allArchived hrest opened .empty
      refine ⟨archive, hbytes, ?_⟩
      have hfill : Edit.changesAt (archiveName opened)
          (Effect.edits (some opened) (.openArchive opened)) = [.fill .empty] := by
        simp [Effect.edits, Edit.changesAt]
      have hlast : [Content.empty].getLast? = some .empty := rfl
      have hempty : Change.run [.fill .empty] entry = some (.file .empty) :=
        Change.run_fills hlast hentry
      rw [changesAt_locking rfl, List.flatMap_cons, Edit.changesAt_append, Change.run_append, hfill,
        hempty]
      exact hrun

end

end TableReplica.Apply
