import Mathlib
import TableReplica.Apply.Blocks

/-!
# Where paths lead

A walk looks at directories only, so a path leads to the same place as long as the directories stay
what they are: `walk_of_same`. Writing to a file, making one in place of nothing and removing one
leave the directories alone. What a path leads to is told by `openFile_eq_ok`, and `get?_write` says
what a write does to every place.
-/

namespace TableReplica.Files

/-- The entry after a write. Nothing is written to a directory. -/
def Entry.overwrite (offset : Nat) (data : Bytes) : Entry → Entry
  | file content => file (content.overwrite offset data)
  | directory => directory

namespace FileSystem

variable {fs before after : FileSystem} {place : Location}

/-- What is no directory is not the root. -/
theorem ne_root_of_not_directory (h : fs.get? place ≠ some .directory) : place ≠ [] := by
  rintro rfl
  exact h fs.get?_root

/-- A write changes the file that is written to. -/
theorem get?_write (fs : FileSystem) (place : Location) (offset : Nat) (data : Bytes)
    (other : Location) :
    (fs.write place offset data).get? other =
      if other = place then (fs.get? place).map (.overwrite offset data) else fs.get? other := by
  unfold write
  split
  · next content hfile =>
      have hroot : place ≠ [] := ne_root_of_not_directory (by rw [hfile]; simp)
      rw [fs.get?_put hroot, hfile]
      rfl
  · next hother =>
      split
      · next heq =>
          rw [heq]
          cases hentry : fs.get? place with
          | none => rfl
          | some entry =>
              cases entry with
              | directory => rfl
              | file content => exact absurd hentry (hother content)
      · rfl

/-- The same places are directories. -/
def SameDirectories (before after : FileSystem) : Prop :=
  ∀ place, before.get? place = some .directory ↔ after.get? place = some .directory

namespace SameDirectories

/-- Directories are the same as long as nothing happens. -/
theorem refl (fs : FileSystem) : SameDirectories fs fs :=
  fun _ => Iff.rfl

/-- They stay the same from one moment to the next. -/
theorem trans {middle : FileSystem} (hfirst : SameDirectories before middle)
    (hsecond : SameDirectories middle after) : SameDirectories before after :=
  fun place => (hfirst place).trans (hsecond place)

/-- Writing to a file leaves them. -/
theorem write (fs : FileSystem) (place : Location) (offset : Nat) (data : Bytes) :
    SameDirectories fs (fs.write place offset data) := by
  intro other
  rw [get?_write]
  split
  · next heq =>
      subst heq
      cases hentry : fs.get? other with
      | none => simp
      | some entry => cases entry <;> simp [Entry.overwrite]
  · exact Iff.rfl

end SameDirectories

/-- A walk that arrives has gone through directories only. -/
theorem walk_of_same (h : SameDirectories before after) {steps : List Step} {last : Location}
    (hwalk : before.walk place steps = .ok last) : after.walk place steps = .ok last := by
  induction steps generalizing place with
  | nil => exact hwalk
  | cons step rest ih =>
      unfold walk at hwalk
      split at hwalk
      · cases hwalk
      · cases hwalk
      · next hdirectory =>
          unfold walk
          rw [(h place).mp hdirectory]
          cases step with
          | here => exact ih hwalk
          | slash => exact ih hwalk
          | up => exact ih hwalk
          | name name =>
              simp only at hwalk ⊢
              split at hwalk
              · cases hwalk
              · next hfits =>
                  rw [if_neg hfits]
                  exact ih hwalk

/-- A path leads somewhere if it can be handed over and the walk arrives. -/
theorem resolve_eq_ok {path : Path} :
    fs.resolve path = .ok place ↔
      path.check = .ok () ∧ fs.walk path.origin path.steps = .ok place := by
  unfold resolve
  cases path.check with
  | error refusal => simp [bind, Except.bind]
  | ok _ => simp [bind, Except.bind]

/-- A path leads to the same place as long as the directories are the same. -/
theorem resolve_of_same (h : SameDirectories before after) {path : Path}
    (hresolve : before.resolve path = .ok place) : after.resolve path = .ok place := by
  rw [resolve_eq_ok] at hresolve ⊢
  exact ⟨hresolve.1, walk_of_same h hresolve.2⟩

/-- No walk looks at what a file holds, so a write does not change where it leads. -/
theorem walk_write (fs : FileSystem) (written : Location) (offset : Nat) (data : Bytes)
    (place : Location) (steps : List Step) :
    (fs.write written offset data).walk place steps = fs.walk place steps := by
  induction steps generalizing place with
  | nil => rfl
  | cons step rest ih =>
      simp only [walk, get?_write, ih]
      by_cases hplace : place = written
      · rw [if_pos hplace, hplace]
        rcases fs.get? written with _ | _ | _ <;> rfl
      · rw [if_neg hplace]

/-- So it does after writing to a file. -/
theorem resolve_write (fs : FileSystem) (written : Location) (offset : Nat) (data : Bytes)
    (path : Path) : (fs.write written offset data).resolve path = fs.resolve path := by
  simp only [resolve, walk_write]

/-- What a path leads to: a file, a directory or nothing. Some paths lead nowhere. -/
def look (fs : FileSystem) (path : Path) : Except Refusal (Option Entry) :=
  (fs.resolve path).map fs.get?

/-- What a path leads to is at the place that it leads to. -/
theorem look_of_resolve {path : Path} (h : fs.resolve path = .ok place) :
    fs.look path = .ok (fs.get? place) := by
  rw [look, h]
  rfl

/-- A path leads to the same if it does not lead to what is written to. -/
theorem look_write {path : Path} {written : Location} (h : fs.resolve path ≠ .ok written)
    (offset : Nat) (data : Bytes) : (fs.write written offset data).look path = fs.look path := by
  rw [look, look, resolve_write]
  cases hresolve : fs.resolve path with
  | error refusal => rfl
  | ok place =>
      have hother : place ≠ written := fun heq => h (by rw [hresolve, heq])
      show Except.ok _ = Except.ok _
      rw [get?_write, if_neg hother]

/-- Reading a file gives what is at the place that the path leads to. -/
theorem readFile_of_resolve {path : Path} (h : fs.resolve path = .ok place) :
    fs.readFile path =
      match fs.get? place with
      | none => .error .notFound
      | some .directory => .error .isDirectory
      | some (.file content) => .ok content.bytes := by
  unfold readFile
  rw [h]
  show (match fs.get? place with | none => _ | some .directory => _ | some (.file content) => _) = _
  rcases fs.get? place with _ | _ | _ <;> rfl

/-- Opening a file finds the place of a file that the path leads to. -/
theorem openFile_eq_ok {path : Path} :
    fs.openFile path = .ok place ↔
      fs.resolve path = .ok place ∧ ∃ content, fs.get? place = some (.file content) := by
  unfold openFile
  cases hresolve : fs.resolve path with
  | error refusal => simp [bind, Except.bind]
  | ok found =>
      simp only [bind, Except.bind, Except.ok.injEq]
      constructor
      · intro h
        split at h
        · cases h
        · cases h
        · next content hfile =>
            cases h
            exact ⟨rfl, content, hfile⟩
      · rintro ⟨rfl, content, hfile⟩
        rw [hfile]
        rfl

/-- A file that was open can be opened still after a write. -/
theorem openFile_write {path : Path} (h : fs.openFile path = .ok place) (other : Location)
    (offset : Nat) (data : Bytes) : (fs.write other offset data).openFile path = .ok place := by
  rw [openFile_eq_ok] at h ⊢
  obtain ⟨hresolve, content, hfile⟩ := h
  refine ⟨resolve_of_same (.write _ _ _ _) hresolve, ?_⟩
  rw [get?_write]
  split
  · next heq =>
      rw [← heq, hfile]
      exact ⟨_, rfl⟩
  · exact ⟨content, hfile⟩

/-- Opening a file for writing makes one where nothing is. -/
theorem openOrCreate_eq {path : Path} (h : fs.resolve path = .ok place) :
    fs.openOrCreate path =
      match fs.get? place with
      | none => .ok (place, fs.put place (.file .empty))
      | some .directory => .error .isDirectory
      | some (.file _) => .ok (place, fs) := by
  unfold openOrCreate
  simp only [h, bind, Except.bind]
  rcases fs.get? place with _ | _ | _ <;> rfl

/-- What comes of making an empty file. -/
inductive Emptied (fs : FileSystem) (path : Path) :
    Except Refusal (Location × FileSystem) → Prop where
  | astray (refusal : Refusal) :
      fs.resolve path = .error refusal → Emptied fs path (.error refusal)
  | obstructed (place : Location) :
      fs.resolve path = .ok place → fs.get? place = some .directory →
      Emptied fs path (.error .isDirectory)
  | made (place : Location) (after : FileSystem) :
      fs.resolve path = .ok place → fs.get? place ≠ some .directory →
      (∀ other, after.get? other =
        if other = place then some (.file .empty) else fs.get? other) →
      after.locked = fs.locked → Emptied fs path (.ok (place, after))

/-- An empty file is made where a path leads to a file or to nothing. -/
theorem emptied (fs : FileSystem) (path : Path) : Emptied fs path (fs.createEmpty path) := by
  unfold createEmpty
  cases hresolve : fs.resolve path with
  | error refusal =>
      have hopen : fs.openOrCreate path = .error refusal := by
        simp [openOrCreate, hresolve, bind, Except.bind]
      rw [hopen]
      exact .astray refusal hresolve
  | ok place =>
      rw [openOrCreate_eq hresolve]
      rcases hentry : fs.get? place with _ | content | _
      · have hfree : fs.get? place ≠ some .directory := by rw [hentry]; simp
        have hroot := ne_root_of_not_directory hfree
        -- The file is made where nothing is and then emptied, which puts it there twice.
        refine .made place _ hresolve hfree (fun other => ?_) rfl
        rw [get?_put _ hroot, get?_put _ hroot]
        split <;> rfl
      · have hfree : fs.get? place ≠ some .directory := by rw [hentry]; simp
        exact .made place _ hresolve hfree
          (fun other => get?_put _ (ne_root_of_not_directory hfree) _ _) rfl
      · exact .obstructed place hresolve hentry

/-- Where no directory is, putting a file changes no directory. -/
theorem SameDirectories.of_made {content : Content} (hfree : before.get? place ≠ some .directory)
    (hview : ∀ other, after.get? other =
      if other = place then some (.file content) else before.get? other) :
    SameDirectories before after := by
  intro other
  rw [hview]
  split
  · next heq => simp [heq, hfree]
  · exact Iff.rfl

end FileSystem

end TableReplica.Files

namespace TableReplica.Apply

open Files

/-- A data file that was opened for writing is there. -/
theorem openFile_of_openDataFile {path : Path} {fs after : FileSystem} {place : Location}
    (h : openDataFile path fs = .ok (place, after)) : after.openFile path = .ok place := by
  unfold openDataFile at h
  split at h
  · next hopen =>
      cases h
      exact hopen
  · split at h
    · cases h
    · -- There was no file, so it is open once an empty one was made.
      have hmade := fs.emptied path
      revert h hmade
      generalize fs.createEmpty path = made
      rintro h (⟨_, _⟩ | ⟨_, _, _⟩ | ⟨found, opened, hresolve, hfree, hview, -⟩)
      · cases h
      · cases h
      · cases h
        refine FileSystem.openFile_eq_ok.mpr
          ⟨FileSystem.resolve_of_same (.of_made hfree hview) hresolve, .empty, ?_⟩
        rw [hview, if_pos rfl]

end TableReplica.Apply
