import TableReplica.Proofs.Files.Renaming
import TableReplica.Proofs.Plan.Carrying

/-!
# What a step leaves alone

A step of an apply changes the archive and the files that it is about. `Keeps` says that nothing
else has changed: the other files of the replica are what they were, and so is whatever is at any
other place of the file tree. Footprints of steps in a row add up (`Keeps.trans`). Taking bytes
off the stream has none (`Keeps.taken`), a write that of its file (`Keeps.write`), and edits those
of the names that they edit (`Keeps.of_edited`).
-/

namespace TableReplica.Apply

open Files Transport

/-- The archive, if there is one, is no file of a table and not the lock file. -/
def Store.Apart (store : Store) (directory : Path) : Prop :=
  ∀ path place, store.archive.target = some (path, place) →
    ∀ file : ReplicaFile, file.Proper → (∀ start, file ≠ .archive start) →
      store.files.resolve (file.path directory) ≠ .ok place

/-- The store after a write to a file that is open. -/
def Store.write (store : Store) (place : Location) (offset : Nat) (data : Bytes) : Store :=
  { store with files := store.files.write place offset data }

/-- The store after bytes were taken off the stream: what was decoded before is archived, and then
they are. -/
def Store.taken (store : Store) (cursor : Cursor) (data : Bytes) : Store :=
  (store.afterCommit cursor).append data

/-- No file has changed but the archive and those of a list. -/
structure Keeps (directory : Path) (changed : List ReplicaFile) (before after : Store) : Prop where
  /-- The archive is the same file. -/
  target : after.archive.target = before.archive.target
  /-- The paths of the replica lead where they led. -/
  resolve : ∀ file : ReplicaFile, file.Proper →
    after.files.resolve (file.path directory) = before.files.resolve (file.path directory)
  /-- The other files of the replica are what they were, be they missing or even directories. -/
  files : ∀ file : ReplicaFile, file.Proper → (∀ start, file ≠ .archive start) → file ∉ changed →
    after.files.look (file.path directory) = before.files.look (file.path directory)
  /-- What is at any other place is what it was. -/
  places : ∀ place, (∀ path, before.archive.target ≠ some (path, place)) →
    (∀ file ∈ changed, before.files.resolve (file.path directory) ≠ .ok place) →
    after.files.get? place = before.files.get? place

section

variable {directory : Path} {changed more : List ReplicaFile} {before middle after store : Store}

theorem Store.append_of_none (h : store.archive.target = none) (data : Bytes) :
    store.append data = store := by
  unfold append Archive.append
  simp only [h]

/-- What is archived is written to the archive after what it counts. -/
theorem Store.append_of_some {path : Path} {place : Location}
    (h : store.archive.target = some (path, place)) (data : Bytes) :
    store.append data =
      { archive := { store.archive with written := store.archive.written + data.length }
        files := store.files.write place store.archive.written data } := by
  unfold append Archive.append
  simp only [h]

/-- An archive that was opened under its name is no other file. -/
theorem Store.apart_of_archive {start : Nat} {place : Location}
    (h : store.archive.target = some (archivePath directory start, place))
    (hplace : store.files.resolve (archivePath directory start) = .ok place) :
    store.Apart directory := by
  intro path other htarget file hfile hother hresolve
  rw [h] at htarget
  cases htarget
  have harchive : (ReplicaFile.archive start).Proper := trivial
  exact hother start (ReplicaFile.place_inj hfile harchive hresolve hplace)

namespace Keeps

theorem refl (directory : Path) (store : Store) : Keeps directory [] store store :=
  ⟨rfl, fun _ _ => rfl, fun _ _ _ _ => rfl, fun _ _ _ => rfl⟩

theorem mono (h : Keeps directory changed before after) (hmore : changed ⊆ more) :
    Keeps directory more before after where
  target := h.target
  resolve := h.resolve
  files file hfile hother hkept := h.files file hfile hother fun hmem => hkept (hmore hmem)
  places place harchive hkept := h.places place harchive fun file hmem => hkept file (hmore hmem)

theorem trans (hfirst : Keeps directory changed before middle)
    (hproper : ∀ file ∈ changed, file.Proper) (hsecond : Keeps directory changed middle after) :
    Keeps directory changed before after where
  target := hsecond.target.trans hfirst.target
  resolve file hfile := (hsecond.resolve file hfile).trans (hfirst.resolve file hfile)
  files file hfile hother hkept :=
    (hsecond.files file hfile hother hkept).trans (hfirst.files file hfile hother hkept)
  places place harchive hkept := by
    refine (hsecond.places place ?_ fun file hmem => ?_).trans (hfirst.places place harchive hkept)
    · rwa [hfirst.target]
    · rw [hfirst.resolve file (hproper file hmem)]
      exact hkept file hmem

/-- A step that changes nothing but the archive adds nothing to the footprint of the next. -/
theorem trans_of_nil (hfirst : Keeps directory [] before middle)
    (hproper : ∀ file ∈ changed, file.Proper) (hsecond : Keeps directory changed middle after) :
    Keeps directory changed before after :=
  (hfirst.mono (List.nil_subset _)).trans hproper hsecond

/-- The archive stays where it is, and so do the other files. -/
theorem apart (h : Keeps directory changed before after) (hapart : before.Apart directory) :
    after.Apart directory := by
  intro path place htarget file hfile hother
  rw [h.target] at htarget
  rw [h.resolve file hfile]
  exact hapart path place htarget file hfile hother

/-- A write to a file changes this file alone. -/
theorem write {file : ReplicaFile} (hfile : file.Proper) {place : Location}
    (hplace : store.files.resolve (file.path directory) = .ok place) (offset : Nat)
    (data : Bytes) :
    Keeps directory [file] store (store.write place offset data) where
  target := rfl
  resolve other _ := FileSystem.resolve_write _ _ _ _ _
  files other hproper _ hkept := by
    refine FileSystem.look_write (fun hresolve => ?_) offset data
    exact hkept (List.mem_singleton.mpr (ReplicaFile.place_inj hproper hfile hresolve hplace))
  places other _ hkept := by
    show (store.files.write place offset data).get? other = _
    have hother : other ≠ place := by
      rintro rfl
      exact hkept file (List.mem_singleton.mpr rfl) hplace
    rw [FileSystem.get?_write, if_neg hother]

/-- Archiving changes nothing but the archive. -/
theorem append (hapart : store.Apart directory) (data : Bytes) :
    Keeps directory [] store (store.append data) := by
  cases htarget : store.archive.target with
  | none =>
      rw [Store.append_of_none htarget]
      exact .refl directory store
  | some target =>
      obtain ⟨path, place⟩ := target
      rw [Store.append_of_some htarget]
      refine ⟨rfl, fun _ _ => FileSystem.resolve_write _ _ _ _ _, fun file hfile hother _ => ?_,
        fun other harchive _ => ?_⟩
      · exact FileSystem.look_write (hapart path place htarget file hfile hother) _ _
      · have hne : other ≠ place := by
          rintro rfl
          exact harchive path htarget
        show (store.files.write place store.archive.written data).get? other = _
        rw [FileSystem.get?_write, if_neg hne]

theorem afterCommit (hapart : store.Apart directory) (cursor : Cursor) :
    Keeps directory [] store (store.afterCommit cursor) := by
  unfold Store.afterCommit
  split
  · exact .refl directory store
  · exact .append hapart _

/-- Taking bytes off the stream changes nothing but the archive. -/
theorem taken (hapart : store.Apart directory) (cursor : Cursor) (data : Bytes) :
    Keeps directory [] store (store.taken cursor data) := by
  have hcommit : Keeps directory [] store (store.afterCommit cursor) := .afterCommit hapart cursor
  exact hcommit.trans (fun _ hmem => nomatch hmem) (.append (hcommit.apart hapart) data)

/-- What was in the way of a file that is kept still is. -/
theorem obstacle? (h : Keeps directory changed before after) {file : ReplicaFile}
    (hfile : file.Proper) (hother : ∀ start, file ≠ .archive start) (hkept : file ∉ changed) :
    after.files.obstacle? (file.path directory) = before.files.obstacle? (file.path directory) :=
  FileSystem.obstacle?_of_look (h.files file hfile hother hkept)

/-- Edits change the files whose names they edit. -/
theorem of_edited {home : Location} {edits : List Edit} {files : FileSystem}
    (hhome : store.files.LeadsTo directory home) (hedited : Edited home edits store.files files)
    (hedits : ∀ edit ∈ edits, ∃ file ∈ changed, file.Proper ∧ edit.name = file.name ∧
      store.files.resolve (file.path directory) = .ok (home ++ [file.name])) :
    Keeps directory changed store { store with files } := by
  have hafter : files.LeadsTo directory home := hhome.of_same hedited.sameDirectories
  refine ⟨rfl, fun file hfile => ?_, fun file hfile _ hkept => ?_, fun place _ hkept => ?_⟩
  · have hname : IsPlainName file.name := ReplicaFile.isPlainName hfile
    exact (FileSystem.resolve_join hafter hname).trans (FileSystem.resolve_join hhome hname).symm
  · have hname : IsPlainName file.name := ReplicaFile.isPlainName hfile
    have hnone : Edit.changesAt file.name edits = [] := by
      refine Edit.changesAt_eq_nil.mpr fun edit hmem heq => ?_
      obtain ⟨other, hother, hproper, hedit, -⟩ := hedits edit hmem
      rw [← ReplicaFile.name_inj hproper hfile (hedit.symm.trans heq)] at hkept
      exact hkept hother
    show files.look (directory.join file.name) = store.files.look (directory.join file.name)
    rw [FileSystem.look_join hafter hname, FileSystem.look_join hhome hname, hedited.inside, hnone]
    rfl
  · rcases inside_or_outside home place with ⟨name, rfl⟩ | houtside
    · have hnone : Edit.changesAt name edits = [] := by
        refine Edit.changesAt_eq_nil.mpr fun edit hmem heq => ?_
        obtain ⟨file, hfile, -, hedit, hresolve⟩ := hedits edit hmem
        rw [← heq, hedit] at hkept
        exact hkept file hfile hresolve
      show files.get? _ = _
      rw [hedited.inside, hnone]
      rfl
    · exact hedited.outside place houtside

end Keeps

end

end TableReplica.Apply
