import TableReplica.Proofs.Files.Moving

/-!
# Renaming with a fallback

A file is put into place by a rename, and a rename that is refused is taken for one that happened if
its source is missing. Whatever the file tree and whatever the two paths name, there are three ways
this can come out. The rename moves what is there (`Moved`). It is refused and the source is
missing, and then nothing has changed and the answer is that all is well. Or it is refused for good:
the answer is the refusal of the rename, and at most the source is gone (`Cleared`).
`renameIntoPlace_outcome` says so, and that success is never reported while the source is a file at
another place than the target's.
-/

namespace TableReplica.Apply

open Files

/-- What a rename has moved. The target holds what the source held, with all that was in it, the
source is gone unless it is the target, and everything else is as it was. -/
structure Moved (temp target : Path) (before after : FileSystem) (source place : Location) :
    Prop where
  leads : before.resolve temp = .ok source
  named : before.namedPlace target = .ok place
  held : before.get? source ≠ none ∧ after.get? place = before.get? source
  inside : before.get? source = some .directory →
    ∀ rest, after.get? (place ++ rest) = before.get? (source ++ rest)
  file (content : Content) : before.get? source = some (.file content) →
    after.look target = .ok (some (.file content))
  gone : source ≠ place → after.get? source = none
  others (other : Location) : ¬ source <+: other → ¬ place <+: other →
    after.get? other = before.get? other

/-- What is left when a rename was refused for good. Its source is gone if the path leads to a file,
and nothing has changed if it does not. -/
structure Cleared (temp : Path) (before after : FileSystem) : Prop where
  others (place : Location) : before.resolve temp ≠ .ok place →
    after.get? place = before.get? place
  gone (content : Content) : before.look temp = .ok (some (.file content)) →
    after.look temp = .ok none
  untouched : (∀ content, before.look temp ≠ .ok (some (.file content))) → after = before

section

variable {temp target : Path} {fs after : FileSystem}

/-- What a rename moves is what the path to its source leads to. -/
theorem moves_of_rename (h : fs.rename temp target = .ok after) :
    ∃ source place, fs.resolve temp = .ok source ∧ fs.namedPlace target = .ok place ∧
      fs.Moves source place after ∧
      (∀ content, fs.get? source = some (.file content) → fs.resolve target = .ok place) := by
  obtain ⟨source, place, hsource, hplace, hmoves, hends⟩ := FileSystem.moves_of_rename h
  refine ⟨source, place, ?_, hplace, hmoves, fun content hfile => ?_⟩
  · by_cases hdirectory : fs.get? source = some .directory
    · exact FileSystem.resolve_of_namedPlace hsource (.inr hdirectory)
    · exact FileSystem.resolve_of_namedPlace hsource (.inl (hends hdirectory).1)
  · have hnot : fs.get? source ≠ some .directory := by simp [hfile]
    exact FileSystem.resolve_of_namedPlace hplace (.inl (hends hnot).2)

theorem moved_of_rename (h : fs.rename temp target = .ok after) :
    ∃ source place, Moved temp target fs after source place := by
  obtain ⟨source, place, hsource, hplace, hmoves, htarget⟩ := moves_of_rename h
  refine ⟨source, place, hsource, hplace, ⟨hmoves.exists_entry, hmoves.held⟩, hmoves.below,
    fun content hfile => ?_, hmoves.gone, fun other => hmoves.other⟩
  have hresolve := FileSystem.resolve_of_same (hmoves.sameDirectories hfile) (htarget content hfile)
  rw [FileSystem.look_of_resolve hresolve, hmoves.held, hfile]

/-- After a rename the path to its source leads to no file but the target. -/
theorem namedPlace_of_left (h : fs.rename temp target = .ok after) {other : Location}
    {content : Content} (hresolve : after.resolve temp = .ok other)
    (hfile : after.get? other = some (.file content)) : fs.namedPlace target = .ok other := by
  obtain ⟨source, place, hsource, hplace, hmoves, -⟩ := moves_of_rename h
  obtain rfl := hmoves.left hsource hresolve
  by_cases heq : other = place
  · rw [hplace, heq]
  · rw [hmoves.gone heq] at hfile
    cases hfile

/-- A file is removed where the path leads to one. -/
theorem exists_of_removeFile (h : fs.removeFile temp = .ok after) :
    ∃ place content, fs.resolve temp = .ok place ∧ fs.get? place = some (.file content) ∧
      after = fs.takeAway place := by
  obtain ⟨place, hresolve, h⟩ := FileSystem.exists_of_bind_ok h
  split at h
  · cases h
  · cases h
  · next content hfile =>
      cases h
      exact ⟨place, content, hresolve, hfile, rfl⟩

/-- Removing the source leaves everything else. -/
theorem cleared_of_removed (h : fs.removeFile temp = .ok after) : Cleared temp fs after := by
  obtain ⟨place, content, hresolve, hfile, rfl⟩ := exists_of_removeFile h
  have hfree : fs.get? place ≠ some .directory := by simp [hfile]
  have hview := fs.get?_takeAway (FileSystem.ne_root_of_not_directory hfree)
  refine ⟨fun other hother => ?_, fun _ _ => ?_, fun hnone => ?_⟩
  · have hne : other ≠ place := fun heq => hother (heq ▸ hresolve)
    rw [hview, if_neg hne]
  · have hsame : fs.SameDirectories (fs.takeAway place) := by
      intro other
      rw [hview]
      split
      · next heq => simp [heq, hfile]
      · exact Iff.rfl
    rw [FileSystem.look_of_resolve (FileSystem.resolve_of_same hsame hresolve), hview, if_pos rfl]
  · exact absurd ((FileSystem.look_of_resolve hresolve).trans (congrArg _ hfile)) (hnone content)

/-- Where no file can be removed, none is there. -/
theorem look_of_not_removed {refusal : Refusal} (h : fs.removeFile temp = .error refusal)
    (content : Content) : fs.look temp ≠ .ok (some (.file content)) := by
  intro hlook
  cases hresolve : fs.resolve temp with
  | error other => simp [FileSystem.look, hresolve, Except.map] at hlook
  | ok place =>
      rw [FileSystem.look_of_resolve hresolve] at hlook
      rw [FileSystem.removeFile_eq hresolve (Except.ok.inj hlook)] at h
      cases h

theorem renameIntoPlace_of_ok (h : fs.rename temp target = .ok after) :
    renameIntoPlace temp target fs = (.ok (), after) := by
  simp only [renameIntoPlace, h]

section

variable {refusal : Refusal} (h : fs.rename temp target = .error refusal)

include h

/-- With its source missing a rename counts as done. -/
theorem renameIntoPlace_of_missing (hmissing : fs.removeFile temp = .error .notFound) :
    renameIntoPlace temp target fs = (.ok (), fs) := by
  simp only [renameIntoPlace, h, hmissing]

/-- With its source there a rename is refused for good, and the source removed if it is a file. -/
theorem renameIntoPlace_of_present (hpresent : fs.removeFile temp ≠ .error .notFound) :
    ∃ after, renameIntoPlace temp target fs =
        (.error (.storage .updateBaseFile target refusal), after) ∧ Cleared temp fs after := by
  unfold renameIntoPlace
  simp only [h]
  split
  · next hmissing => exact absurd hmissing hpresent
  · next hkept =>
      exact ⟨fs, rfl, fun _ _ => rfl,
        fun content hfile => absurd hfile (look_of_not_removed hkept content), fun _ => rfl⟩
  · next removed hremoved => exact ⟨removed, rfl, cleared_of_removed hremoved⟩

end

end

/-- Whatever there is at two paths, a rename that succeeds puts what the first leads to in the place
that the second names. One that is refused counts as done if and only if the first path is missing,
and then nothing at all has changed. Otherwise the refusal of the rename is reported for the target,
with its number and not that of the removal, and nothing but the file at the first path is gone.
Success is not reported while the first path leads to a file elsewhere than where the second one
is. -/
theorem renameIntoPlace_outcome (temp target : Path) (fs : FileSystem) :
    (∀ after, fs.rename temp target = .ok after →
      renameIntoPlace temp target fs = (.ok (), after) ∧
        ∃ source place, Moved temp target fs after source place) ∧
    (∀ refusal, fs.rename temp target = .error refusal →
      ((renameIntoPlace temp target fs).1 = .ok () ↔ fs.removeFile temp = .error .notFound) ∧
      (fs.removeFile temp = .error .notFound → (renameIntoPlace temp target fs).2 = fs) ∧
      (fs.removeFile temp ≠ .error .notFound →
        (renameIntoPlace temp target fs).1 =
          .error (.storage .updateBaseFile target refusal) ∧
        (ReplicaError.storage .updateBaseFile target refusal).osCode? = refusal.code? ∧
        Cleared temp fs (renameIntoPlace temp target fs).2)) ∧
    ((renameIntoPlace temp target fs).1 = .ok () →
      ∀ place content, (renameIntoPlace temp target fs).2.resolve temp = .ok place →
        (renameIntoPlace temp target fs).2.get? place = some (.file content) →
          fs.namedPlace target = .ok place) := by
  cases hrename : fs.rename temp target with
  | ok renamed =>
      rw [renameIntoPlace_of_ok hrename]
      refine ⟨fun after h => ?_, by simp, fun _ place content => namedPlace_of_left hrename⟩
      obtain rfl := Except.ok.inj h
      exact ⟨rfl, moved_of_rename hrename⟩
  | error refusal =>
      by_cases hmissing : fs.removeFile temp = .error .notFound
      · rw [renameIntoPlace_of_missing hrename hmissing]
        refine ⟨by simp, by simp [hmissing], fun _ place content hresolve hfile => ?_⟩
        -- Nothing has changed, and where there is no file to remove there is none.
        rw [FileSystem.removeFile_eq hresolve hfile] at hmissing
        cases hmissing
      · obtain ⟨after, hanswer, hcleared⟩ := renameIntoPlace_of_present hrename hmissing
        rw [hanswer]
        refine ⟨by simp, fun other h => ?_, by simp⟩
        obtain rfl := Except.error.inj h
        exact ⟨by simp [hmissing], fun h => absurd h hmissing, fun _ => ⟨rfl, rfl, hcleared⟩⟩

/-- A file that is to be renamed onto a directory with a file in it. -/
def blockedPlaces : FileSystem where
  entries :=
    [(["a.tmp"], .file (.ofBytes [7])), (["a.baseB"], .directory),
      (["a.baseB", "old"], .file (.ofBytes [1]))]

/-- The rename is refused because of the directory, which keeps its file, and the source is gone. -/
theorem renameIntoPlace_outcome_blocked :
    (renameIntoPlace (.ofText [] "/a.tmp") (.ofText [] "/a.baseB") blockedPlaces).1 =
        .error (.storage .updateBaseFile (.ofText [] "/a.baseB") .isDirectory) ∧
      Cleared (.ofText [] "/a.tmp") blockedPlaces
        (renameIntoPlace (.ofText [] "/a.tmp") (.ofText [] "/a.baseB") blockedPlaces).2 := by
  have hrename : blockedPlaces.rename (.ofText [] "/a.tmp") (.ofText [] "/a.baseB") =
      .error .isDirectory := by decide +kernel
  have hpresent : blockedPlaces.removeFile (.ofText [] "/a.tmp") ≠ .error .notFound := by
    decide +kernel
  obtain ⟨-, hrefused, -⟩ :=
    renameIntoPlace_outcome (.ofText [] "/a.tmp") (.ofText [] "/a.baseB") blockedPlaces
  obtain ⟨-, -, hfor_good⟩ := hrefused _ hrename
  obtain ⟨hanswer, -, hcleared⟩ := hfor_good hpresent
  exact ⟨hanswer, hcleared⟩

end TableReplica.Apply
