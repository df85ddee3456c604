import TableReplica.Proofs.Outcome

/-!
# Edits that can be made again

A file of the replica directory is edited in one way only: data files are patched, base files and
temporary files are replaced or go, and the archive is emptied before it grows. Each of these can be
done again after it was begun, so the edits of an apply make no difference to what the same edits
come to later: `run_attempt_again`.
-/

namespace TableReplica.Apply

open Files Transport Wire

/-- The changes that an apply makes to a file. -/
def Suits (archived : Option Nat) (change : Change) : ReplicaFile → Prop
  | .data _ => ∃ patch, .write patch = change
  | .lock => ∃ patch, .write patch = change
  | .base _ _ => change.Resets
  | .temp _ => change.Resets
  | .archive start => archived = some start

/-- The ways in which an apply edits the files of its directory. -/
def Fitting (archived : Option Nat) (edit : Edit) : Prop :=
  ∃ file : ReplicaFile, file.Proper ∧ edit.name = file.name ∧ Suits archived edit.change file

section

variable {directory : Path} {archived : Option Nat} {files : FileSystem} {retention : UInt32}

theorem fitting_locking (archived : Option Nat) : Fitting archived locking :=
  ⟨.lock, trivial, rfl, _, rfl⟩

theorem fitting_edits {effect : Effect}
    (heffect : effect.OfChunk ∨ ∃ start, effect = .openArchive start) :
    ∀ edit ∈ effect.edits archived ++ effect.spoils directory files, Fitting archived edit := by
  have hclearing {table : String} (htable : IsTableName table) :
      Fitting archived (clearing table) :=
    ⟨.temp table, htable, rfl, trivial⟩
  intro edit hmem
  rcases heffect with heffect | ⟨start, rfl⟩
  · cases effect with
    | openArchive start => exact heffect.elim
    | archive data =>
        cases archived with
        | none => cases hmem
        | some start =>
            obtain rfl := List.mem_singleton.mp hmem
            exact ⟨.archive start, trivial, rfl, rfl⟩
    | openData table | writeBlock table offset block =>
        obtain rfl := List.mem_singleton.mp hmem
        exact ⟨.data table, heffect, rfl, _, rfl⟩
    | replaceBase table letter content =>
        rcases List.mem_append.mp hmem with hedit | hspoil
        · simp only [Effect.edits, List.mem_cons, List.not_mem_nil, or_false] at hedit
          rcases hedit with rfl | rfl
          · exact hclearing heffect
          · exact ⟨.base table letter, heffect, rfl, trivial⟩
        · cases hobstacle : files.obstacle? (tempFilePath directory table) with
          | some refusal => simp [Effect.spoils, hobstacle] at hspoil
          | none =>
              obtain rfl : edit = clearing table := by
                simpa [Effect.spoils, hobstacle] using hspoil
              exact hclearing heffect
  · cases archived with
    | none => cases hmem
    | some revision =>
        obtain rfl := List.mem_singleton.mp hmem
        exact ⟨.archive revision, trivial, rfl, rfl⟩

theorem fitting_attempt {effects : List Effect}
    (heffects : ∀ effect ∈ effects, effect.OfChunk ∨ ∃ start, effect = .openArchive start) :
    ∀ edit ∈ (attempt directory archived files effects).2, Fitting archived edit := by
  induction effects with
  | nil => exact fun _ hmem => nomatch hmem
  | cons effect rest ih =>
      have hfirst : ∀ edit ∈ effect.edits archived ++ effect.spoils directory files,
          Fitting archived edit := fitting_edits (heffects effect List.mem_cons_self)
      intro edit hmem
      unfold attempt at hmem
      split at hmem
      · rcases List.mem_append.mp hmem with hedit | hrest
        · exact hfirst edit (List.mem_append_left _ hedit)
        · exact ih (fun other hother => heffects other (List.mem_cons_of_mem _ hother)) edit hrest
      · exact hfirst edit (List.mem_append_right _ hmem)

/-- The changes made to one name, unless it is the archive, can be made again. -/
theorem repeatable_of_fitting {edits : List Edit} (hfit : ∀ edit ∈ edits, Fitting archived edit)
    {name : String} (hname : ∀ start, archived = some start → name ≠ archiveName start) :
    Change.Repeatable (Edit.changesAt name edits) := by
  have hchange : ∀ change ∈ Edit.changesAt name edits, ∃ file : ReplicaFile, file.Proper ∧
      name = file.name ∧ Suits archived change file := by
    intro change hmem
    obtain ⟨edit, hedit, rfl, rfl⟩ := Edit.mem_changesAt.mp hmem
    exact hfit edit hedit
  revert hchange
  generalize Edit.changesAt name edits = changes
  intro hchange
  cases changes with
  | nil => exact .patches []
  | cons first rest =>
      obtain ⟨file, hproper, hfile, hfirst⟩ := hchange first List.mem_cons_self
      -- All changes to the name are changes to the one file of that name.
      have hsuits : ∀ change ∈ first :: rest, Suits archived change file := by
        intro change hmem
        obtain ⟨other, hother, heq, hsuits⟩ := hchange change hmem
        rwa [ReplicaFile.name_inj hproper hother (hfile.symm.trans heq)]
      cases file with
      | data table | lock => exact .of_writes hsuits
      | base table letter | temp table => exact .reset rest hfirst
      | archive start => exact absurd hfile (hname start hfirst)

/-- Attempting a sequence is attempting its first part and then, if nothing is in the way of that,
the second. -/
theorem attempt_append (first second : List Effect) :
    attempt directory archived files (first ++ second) =
      match attempt directory archived files first with
      | (.ok (), edits) =>
        ((attempt directory archived files second).1,
          edits ++ (attempt directory archived files second).2)
      | (.error failure, edits) => (.error failure, edits) := by
  induction first with
  | nil => rfl
  | cons effect rest ih =>
      rw [List.cons_append, attempt, attempt]
      cases effect.obstacle? directory archived files with
      | some error => rfl
      | none =>
          simp only [ih]
          rcases attempt directory archived files rest with ⟨failure | _, edits⟩
          · rfl
          · simp

/-- Effects on the archive alone edit nothing but the archive. -/
theorem changesAt_archives {tail : List Effect}
    (htail : ∀ effect ∈ tail, ∃ data, effect = .archive data) {name : String}
    (hname : ∀ start, archived = some start → name ≠ archiveName start) :
    Edit.changesAt name (attempt directory archived files tail).2 = [] := by
  induction tail with
  | nil => rfl
  | cons effect rest ih =>
      obtain ⟨data, rfl⟩ := htail effect List.mem_cons_self
      rw [attempt]
      show Edit.changesAt name (Effect.edits archived (.archive data) ++ _) = _
      rw [Edit.changesAt_append, ih fun other hmem => htail other (List.mem_cons_of_mem _ hmem),
        List.append_nil]
      cases archived with
      | none => rfl
      | some start => simp [Effect.edits, Edit.changesAt, Ne.symm (hname start rfl)]

/-- Effects that were begun edit a file, unless it is the archive, by a first part of what all
effects come to. -/
theorem changesAt_begun {shared tail whole : List Effect} (hinitial : shared <+: whole)
    (htail : ∀ effect ∈ tail, ∃ data, effect = .archive data) {name : String}
    (hname : ∀ start, archived = some start → name ≠ archiveName start) :
    Edit.changesAt name (attempt directory archived files (shared ++ tail)).2 <+:
      Edit.changesAt name (attempt directory archived files whole).2 := by
  obtain ⟨rest, rfl⟩ := hinitial
  rw [attempt_append, attempt_append]
  rcases attempt directory archived files shared with ⟨failure | _, edits⟩
  · exact List.prefix_refl _
  · simp only [Edit.changesAt_append]
    rw [changesAt_archives htail hname, List.append_nil]
    exact List.prefix_append _ _

/-- Effects that only fill the archive come after it was opened. -/
theorem Orderly.eq_nil {tail : List Effect} (horderly : Orderly tail)
    (htail : ∀ effect ∈ tail, ∃ data, effect = .archive data) : tail = [] := by
  cases horderly with
  | nothing => rfl
  | opening start rest _ =>
      obtain ⟨data, hdata⟩ := htail _ List.mem_cons_self
      cases hdata

/-- The archive starts anew, whatever was begun before. -/
theorem run_archive_again {start : Nat} (rest begun : List Effect)
    (entry : Option Entry) :
    Change.run (Edit.changesAt (archiveName start)
        (attempt directory (some start) files (.openArchive start :: rest)).2)
      (Change.run (Edit.changesAt (archiveName start)
        (attempt directory (some start) files (.openArchive start :: begun)).2) entry) =
    Change.run (Edit.changesAt (archiveName start)
        (attempt directory (some start) files (.openArchive start :: rest)).2) entry := by
  unfold attempt
  cases (Effect.openArchive start).obstacle? directory (some start) files with
  | some error => rfl
  | none =>
      -- The first change to the archive empties it, so what is there does not matter.
      have hfill (edits : List Edit) : Edit.changesAt (archiveName start)
          ((Effect.openArchive start).edits (some start) ++ edits) =
            .fill .empty :: Edit.changesAt (archiveName start) edits :=
        List.filterMap_cons_some (if_pos rfl)
      simp only [hfill]
      have hresets : (Change.fill .empty).Resets := trivial
      exact Change.run_of_reset hresets _ _ entry

/-- Edits that only begin what the edits of all effects do to a file make no difference there,
unless the file is the archive. -/
theorem run_begun_again {whole : List Effect} (hwhole : Orderly whole) {begun : List Edit}
    {name : String} (hname : ∀ start, archived = some start → name ≠ archiveName start)
    (hbegin : Edit.changesAt name begun <+:
      Edit.changesAt name (attempt directory archived files whole).2)
    (entry : Option Entry) :
    Change.run (Edit.changesAt name (locking :: (attempt directory archived files whole).2))
      (Change.run (Edit.changesAt name (locking :: begun)) entry) =
    Change.run (Edit.changesAt name (locking :: (attempt directory archived files whole).2))
      entry := by
  have hrepeatable : Change.Repeatable (Edit.changesAt name
      (locking :: (attempt directory archived files whole).2)) := by
    refine repeatable_of_fitting (fun edit hmem => ?_) hname
    rcases List.mem_cons.mp hmem with rfl | hmem
    · exact fitting_locking _
    · exact fitting_attempt hwhole.kinds edit hmem
  have hbegins : Edit.changesAt name (locking :: begun) <+: Edit.changesAt name
      (locking :: (attempt directory archived files whole).2) := by
    have hlocked := List.prefix_append_right_inj (Edit.changesAt name [locking]) |>.mpr hbegin
    rwa [← Edit.changesAt_append, ← Edit.changesAt_append] at hlocked
  obtain ⟨rest, hrest⟩ := hbegins
  rw [← hrest] at hrepeatable ⊢
  exact Change.run_again hrepeatable entry

/-- The edits of effects that were begun, and of a last entry in the archive, make no difference to
what the edits of all effects come to. -/
theorem run_attempt_again {shared tail whole : List Effect} (hwhole : Orderly whole)
    (hbegun : Orderly (shared ++ tail)) (hinitial : shared <+: whole)
    (htail : ∀ effect ∈ tail, ∃ data, effect = .archive data) (name : String)
    (entry : Option Entry) :
    Change.run (Edit.changesAt name
        (locking :: (attempt directory (archivedBy retention whole) files whole).2))
      (Change.run (Edit.changesAt name (locking ::
        (attempt directory (archivedBy retention (shared ++ tail)) files (shared ++ tail)).2))
        entry) =
    Change.run (Edit.changesAt name
      (locking :: (attempt directory (archivedBy retention whole) files whole).2)) entry := by
  -- The archive starts anew only if its opening was begun, so the first effect decides.
  cases shared with
  | nil =>
      -- Nothing was begun but the lock file.
      obtain rfl : tail = [] := hbegun.eq_nil htail
      by_cases harchive : ∃ start, name = archiveName start
      · obtain ⟨start, hname⟩ := harchive
        rw [changesAt_locking hname (attempt directory (archivedBy retention ([] ++ [])) files _).2]
        rfl
      · have hnothing : Edit.changesAt name [] <+: Edit.changesAt name
            (attempt directory (archivedBy retention whole) files whole).2 := List.nil_prefix
        exact run_begun_again hwhole (fun start _ hname => harchive ⟨start, hname⟩) hnothing entry
  | cons effect others =>
      obtain ⟨rest, rfl⟩ := hinitial
      have hsame : archivedBy retention (effect :: others ++ tail) =
          archivedBy retention (effect :: others ++ rest) := by
        cases effect <;> rfl
      rw [hsame]
      by_cases harchive : ∃ start, archivedBy retention (effect :: others ++ rest) = some start ∧
          name = archiveName start
      · obtain ⟨start, harchived, rfl⟩ := harchive
        rw [harchived, changesAt_locking rfl, changesAt_locking rfl]
        cases hwhole with
        | opening opened _ _ =>
            obtain ⟨-, rfl⟩ : retention ≠ 0 ∧ opened = start := by
              simpa [archivedBy] using harchived
            exact run_archive_again _ _ entry
      · have hother : ∀ start, archivedBy retention (effect :: others ++ rest) = some start →
            name ≠ archiveName start :=
          fun start harchived hname => harchive ⟨start, harchived, hname⟩
        exact run_begun_again hwhole hother
          (changesAt_begun (List.prefix_append _ _) htail hother) entry

end

end TableReplica.Apply
