import TableReplica.Proofs.Plan.Basic

/-!
# Performing effects

A store is what the effects of a plan change: the archive and the files. Effects are performed in
order until the file system refuses one, which ends the performance in the stage of that effect.
-/

namespace TableReplica.Apply

open Files Transport Wire

/-- The archive of an apply and the files. -/
structure Store where
  archive : Archive := .disabled
  files : FileSystem
  deriving Repr, DecidableEq

/-- Append to the archive. -/
def Store.append (store : Store) (data : Bytes) : Store :=
  { archive := (store.archive.append data store.files).1
    files := (store.archive.append data store.files).2 }

/-- Open a data file and change the files once it is open. -/
def Store.onData (store : Store) (path : Path) (change : Location → FileSystem → FileSystem) :
    Except ReplicaError Unit × Store :=
  match openDataFile path store.files with
  | .ok (place, files) => (.ok (), { store with files := change place files })
  | .error error => (.error error, store)

theorem Store.onData_ok {store : Store} {path : Path} {place : Location} {files : FileSystem}
    (h : openDataFile path store.files = .ok (place, files))
    (change : Location → FileSystem → FileSystem) :
    store.onData path change = (.ok (), { store with files := change place files }) := by
  rw [onData, h]

theorem Store.onData_error {store : Store} {path : Path} {error : ReplicaError}
    (h : openDataFile path store.files = .error error)
    (change : Location → FileSystem → FileSystem) :
    store.onData path change = (.error error, store) := by
  rw [onData, h]

/-- The stage of an apply in which an effect is asked for. The first bytes are archived before the
revision is checked, but appending to an archive is never refused. -/
def Effect.stage : Effect → Stage
  | openArchive _ => .readingHeader
  | _ => .readingChunks

section

variable (directory : Path) (retention : UInt32)

/-- Perform one effect. The data file that a block goes to is opened again, which finds the file
that was opened for the chunk. -/
def Effect.perform : Effect → Store → Except ReplicaError Unit × Store
  | .openArchive startRevision, store =>
    match Archive.create directory startRevision retention store.files with
    | .ok opened => (.ok (), { archive := opened.1, files := opened.2 })
    | .error error => (.error error, store)
  | .archive data, store => (.ok (), store.append data)
  | .openData table, store => store.onData (dataFilePath directory table) fun _ files => files
  | .writeBlock table offset block, store =>
    store.onData (dataFilePath directory table) fun place files => files.write place offset block
  | .replaceBase table letter content, store =>
    let replaced := replaceBaseFile directory table letter content store.files
    (replaced.1, { store with files := replaced.2 })

/-- Perform effects in order until one is refused. -/
def performAll : List Effect → Store → Except Failure Unit × Store
  | [], store => (.ok (), store)
  | effect :: rest, store =>
    match effect.perform directory retention store with
    | (.ok (), after) => performAll rest after
    | (.error error, after) => (.error { stage := effect.stage, error }, after)

variable {directory retention}

theorem performAll_append (first second : List Effect) (store : Store) :
    performAll directory retention (first ++ second) store =
      match performAll directory retention first store with
      | (.ok (), after) => performAll directory retention second after
      | (.error failure, after) => (.error failure, after) := by
  induction first generalizing store with
  | nil => rfl
  | cons effect rest ih =>
      simp only [List.cons_append, performAll]
      cases effect.perform directory retention store with
      | mk outcome after =>
          cases outcome with
          | ok _ => exact ih after
          | error error => rfl

/-- What can be performed can be begun. -/
theorem performAll_of_isPrefix {first second : List Effect} (hinitial : first <+: second)
    {store done : Store} (h : performAll directory retention second store = (.ok (), done)) :
    ∃ begun, performAll directory retention first store = (.ok (), begun) := by
  obtain ⟨rest, rfl⟩ := hinitial
  rw [performAll_append] at h
  rcases hfirst : performAll directory retention first store with ⟨failure | _, begun⟩
  · rw [hfirst] at h
    cases h
  · exact ⟨begun, rfl⟩

/-- What is refused at first is refused, whatever comes after it. -/
theorem performAll_error_of_isPrefix {first second : List Effect} (hinitial : first <+: second)
    {store spoiled : Store} {failure : Failure}
    (h : performAll directory retention first store = (.error failure, spoiled)) :
    performAll directory retention second store = (.error failure, spoiled) := by
  obtain ⟨rest, rfl⟩ := hinitial
  rw [performAll_append, h]

/-- A performance fails at an effect, in its stage. Appending to the archive is never refused. -/
theorem exists_of_performAll_error {effects : List Effect} {store spoiled : Store}
    {failure : Failure}
    (h : performAll directory retention effects store = (.error failure, spoiled)) :
    ∃ effect ∈ effects, effect.stage = failure.stage ∧ ∀ data, effect ≠ .archive data := by
  induction effects generalizing store with
  | nil => cases h
  | cons effect rest ih =>
      unfold performAll at h
      split at h
      · next hdone =>
          obtain ⟨other, hmem, hother⟩ := ih h
          exact ⟨other, List.mem_cons_of_mem _ hmem, hother⟩
      · next error after hrefused =>
          cases h
          refine ⟨effect, List.mem_cons_self, rfl, ?_⟩
          rintro data rfl
          cases hrefused

theorem performAll_singleton (effect : Effect) (store : Store) :
    performAll directory retention [effect] store =
      match effect.perform directory retention store with
      | (.ok (), after) => (.ok (), after)
      | (.error error, after) => (.error { stage := effect.stage, error }, after) :=
  rfl

end

end TableReplica.Apply
