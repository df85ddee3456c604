import TableReplica.Proofs.Files.Patching
import TableReplica.Proofs.Files.Walking

/-!
# Editing the files of a directory

An edit is a change to what is at one name of a directory: a file goes, gets new content, is patched
or grows. `Edited` says that the files after are the files before with edits made in order and
nothing else changed. What was made of a name depends on the edits of that name alone, and no edit
makes or removes a directory. The main result is `Change.run_again`: making edits that can be
repeated once more, after any of them have been made already, makes no difference.
-/

namespace TableReplica.Files

/-- A change to what is at a name. A directory stays what it is. -/
inductive Change where
  /-- The file goes. -/
  | remove
  /-- The file gets this content, whatever it held. -/
  | fill (content : Content)
  /-- Bytes are written to the file, which is made if there is none. -/
  | write (patch : Patch)
  /-- Bytes are written at the end of the file. -/
  | append (data : Bytes)
  deriving Repr, DecidableEq

namespace Change

/-- The entry after a change. -/
def apply : Change → Option Entry → Option Entry
  | _, some .directory => some .directory
  | remove, _ => none
  | fill content, _ => some (.file content)
  | write patch, some (.file content) => some (.file (content.overwrite patch.offset patch.data))
  | write patch, none => some (.file (Content.empty.overwrite patch.offset patch.data))
  | append data, some (.file content) => some (.file (content.overwrite content.size data))
  | append _, none => none

/-- The entry after changes in order. -/
def run (changes : List Change) (entry : Option Entry) : Option Entry :=
  changes.foldl (fun entry change => change.apply entry) entry

/-- Changes in two parts are made one part after the other. -/
theorem run_append (first second : List Change) (entry : Option Entry) :
    run (first ++ second) entry = run second (run first entry) :=
  List.foldl_append

/-- A change neither makes nor removes a directory. -/
theorem apply_eq_directory {change : Change} {entry : Option Entry} :
    change.apply entry = some .directory ↔ entry = some .directory := by
  rcases entry with _ | _ | _ <;> cases change <;> simp [apply]

/-- Nor do many changes. -/
theorem run_eq_directory {changes : List Change} {entry : Option Entry} :
    run changes entry = some .directory ↔ entry = some .directory := by
  induction changes generalizing entry with
  | nil => exact Iff.rfl
  | cons change rest ih =>
      have hrest : run rest (change.apply entry) = some .directory ↔
          change.apply entry = some .directory := ih
      exact hrest.trans apply_eq_directory

/-- What a file holds after this change does not depend on what was there. -/
def Resets : Change → Prop
  | remove => True
  | fill _ => True
  | write _ => False
  | append _ => False

/-- Changes that can be made again: they start by resetting the file, or they only patch it. -/
inductive Repeatable : List Change → Prop where
  | reset {change : Change} (rest : List Change) : change.Resets → Repeatable (change :: rest)
  | patches (patches : List Patch) : Repeatable (patches.map .write)

/-- A change that resets leaves nothing of what was there, but for a directory. -/
theorem apply_of_resets {change : Change} (h : change.Resets) {first second : Option Entry}
    (hsame : first = some .directory ↔ second = some .directory) :
    change.apply first = change.apply second := by
  rcases first with _ | _ | _ <;> rcases second with _ | _ | _ <;> cases change <;>
    simp_all [apply, Resets]

/-- The content that patches start from. -/
def contentOf : Option Entry → Content
  | some (.file content) => content
  | _ => .empty

/-- A write to what is no directory makes a file. -/
theorem apply_write (patch : Patch) {entry : Option Entry} (h : entry ≠ some .directory) :
    (Change.write patch).apply entry =
      some (.file ((contentOf entry).overwrite patch.offset patch.data)) := by
  rcases entry with _ | _ | _
  · rfl
  · rfl
  · exact absurd rfl h

/-- Filling what is no directory makes a file. -/
theorem apply_fill (content : Content) {entry : Option Entry} (h : entry ≠ some .directory) :
    (fill content).apply entry = some (.file content) := by
  rcases entry with _ | _ | _
  · rfl
  · rfl
  · exact absurd rfl h

/-- Removing leaves nothing where no directory was. -/
theorem apply_remove {entry : Option Entry} (h : entry ≠ some .directory) :
    remove.apply entry = none := by
  rcases entry with _ | _ | _
  · rfl
  · rfl
  · exact absurd rfl h

/-- Patches of what is no directory make a file. -/
theorem run_patches {patches : List Patch} {entry : Option Entry} (hpatches : patches ≠ [])
    (hentry : entry ≠ some .directory) :
    run (patches.map .write) entry = some (.file ((contentOf entry).patched patches)) := by
  induction patches generalizing entry with
  | nil => exact absurd rfl hpatches
  | cons patch rest ih =>
      show run (rest.map .write) ((Change.write patch).apply entry) = _
      rw [apply_write patch hentry]
      cases rest with
      | nil => rfl
      | cons next others =>
          rw [ih (by simp) (by simp)]
          rfl

/-- Writes may be repeated. -/
theorem Repeatable.of_writes {changes : List Change}
    (h : ∀ change ∈ changes, ∃ patch, .write patch = change) : Repeatable changes := by
  have hpatches : ∃ patches : List Patch, patches.map .write = changes := by
    induction changes with
    | nil => exact ⟨[], rfl⟩
    | cons change rest ih =>
        obtain ⟨patch, rfl⟩ := h change List.mem_cons_self
        obtain ⟨patches, rfl⟩ := ih fun other hmem => h other (List.mem_cons_of_mem _ hmem)
        exact ⟨patch :: patches, rfl⟩
  obtain ⟨patches, rfl⟩ := hpatches
  exact .patches patches

/-- Whatever happened before, a reset gives the same. -/
theorem run_of_reset {change : Change} (h : change.Resets) (rest before : List Change)
    (entry : Option Entry) :
    run (change :: rest) (run before entry) = run (change :: rest) entry := by
  show run rest (apply _ _) = run rest (apply _ _)
  rw [apply_of_resets h run_eq_directory]

/-- Changes that can be made again give the same when some of them were made before. -/
theorem run_again {first second : List Change} (h : Repeatable (first ++ second))
    (entry : Option Entry) :
    run (first ++ second) (run first entry) = run (first ++ second) entry := by
  generalize hall : first ++ second = changes at h
  cases h with
  | reset rest hresets => exact run_of_reset hresets rest first entry
  | patches patches =>
      -- Both parts patch the file, so the first is written again under the second.
      obtain ⟨front, back, rfl, rfl, rfl⟩ := List.map_eq_append_iff.mp hall.symm
      by_cases hentry : entry = some .directory
      · rw [run_eq_directory.mpr hentry, hentry]
      · cases front with
        | nil => rfl
        | cons patch rest =>
            have hsome : patch :: rest ≠ [] := List.cons_ne_nil _ _
            have hmade := run_patches hsome hentry
            rw [hmade, run_patches (by simp) (by simp), run_patches (by simp) hentry]
            show some (Entry.file (((contentOf entry).patched (patch :: rest)).patched _)) = _
            rw [Content.patched_again]

/-- Where a file is filled again and again, the last content stays. -/
theorem run_fills {contents : List Content} {last : Content} (h : contents.getLast? = some last)
    {entry : Option Entry} (hentry : entry ≠ some .directory) :
    run (contents.map .fill) entry = some (.file last) := by
  obtain ⟨others, rfl⟩ := List.getLast?_eq_some_iff.mp h
  rw [List.map_append, run_append]
  -- Whatever the others left, it is no directory, and the last fill does not look at it.
  have hkept : run (others.map .fill) entry ≠ some .directory := fun hdirectory =>
    hentry (run_eq_directory.mp hdirectory)
  exact apply_fill last hkept

/-- A file that is removed is gone, unless it is a directory. -/
theorem run_removes {changes : List Change} (hsome : changes ≠ [])
    (h : ∀ change ∈ changes, change = .remove) {entry : Option Entry}
    (hentry : entry ≠ some .directory) : run changes entry = none := by
  induction changes generalizing entry with
  | nil => exact absurd rfl hsome
  | cons change rest ih =>
      obtain rfl := h change List.mem_cons_self
      show run rest (apply .remove entry) = none
      rw [apply_remove hentry]
      cases rest with
      | nil => rfl
      | cons =>
          exact ih (by simp) (fun other hmem => h other (List.mem_cons_of_mem _ hmem)) (by simp)

/-- Where a file only goes, it does not matter how often. -/
theorem run_removes_congr {first second : List Change} (hfirst : ∀ change ∈ first, change = .remove)
    (hsecond : ∀ change ∈ second, change = .remove) (hnone : first = [] ↔ second = [])
    (entry : Option Entry) : run first entry = run second entry := by
  by_cases hentry : entry = some .directory
  · rw [run_eq_directory.mpr hentry, run_eq_directory.mpr hentry]
  by_cases hnil : first = []
  · rw [hnil, hnone.mp hnil]
  · rw [run_removes hnil hfirst hentry, run_removes (mt hnone.mpr hnil) hsecond hentry]

/-- A file that only goes, if anything happens to it, is there only if it was before. -/
theorem eq_of_run_removes {changes : List Change} (h : ∀ change ∈ changes, change = .remove)
    {entry : Option Entry} {content : Content} (hfile : run changes entry = some (.file content)) :
    entry = some (.file content) := by
  cases changes with
  | nil => exact hfile
  | cons change rest =>
      by_cases hentry : entry = some .directory
      · rw [run_eq_directory.mpr hentry] at hfile
        cases hfile
      · rw [run_removes (List.cons_ne_nil _ _) h hentry] at hfile
        cases hfile

end Change

/-- A change to what is at a name of a directory. -/
structure Edit where
  name : String
  change : Change
  deriving Repr, DecidableEq

/-- The changes that edits make to a name, in order. -/
def Edit.changesAt (name : String) (edits : List Edit) : List Change :=
  edits.filterMap fun edit => if edit.name = name then some edit.change else none

/-- The first edit changes the file of its name. -/
theorem Edit.changesAt_cons (name : String) (edit : Edit) (rest : List Edit) :
    changesAt name (edit :: rest) =
      if edit.name = name then edit.change :: changesAt name rest else changesAt name rest := by
  unfold changesAt
  by_cases h : edit.name = name <;> simp [h]

/-- Edits in two parts change a file one part after the other. -/
theorem Edit.changesAt_append (name : String) (first second : List Edit) :
    changesAt name (first ++ second) = changesAt name first ++ changesAt name second :=
  List.filterMap_append

/-- A file is changed by the edits of its name. -/
theorem Edit.mem_changesAt {name : String} {edits : List Edit} {change : Change} :
    change ∈ changesAt name edits ↔ ∃ edit ∈ edits, edit.name = name ∧ edit.change = change := by
  unfold changesAt
  rw [List.mem_filterMap]
  refine exists_congr fun edit => and_congr_right fun _ => ?_
  by_cases h : edit.name = name <;> simp [h]

/-- A file is not changed if no edit has its name. -/
theorem Edit.changesAt_eq_nil {name : String} {edits : List Edit} :
    changesAt name edits = [] ↔ ∀ edit ∈ edits, edit.name ≠ name := by
  unfold changesAt
  rw [List.filterMap_eq_nil_iff]
  refine forall₂_congr fun edit _ => ?_
  by_cases h : edit.name = name <;> simp [h]

/-- A place is that of a name in a directory or not. -/
theorem inside_or_outside (home place : Location) :
    (∃ name, place = home ++ [name]) ∨ ∀ name, place ≠ home ++ [name] := by
  rw [← not_exists]
  exact em _

/-- The files after are the files before with edits made to the directory at `home`. -/
structure Edited (home : Location) (edits : List Edit) (before after : FileSystem) : Prop where
  inside : ∀ name, after.get? (home ++ [name]) =
    Change.run (Edit.changesAt name edits) (before.get? (home ++ [name]))
  outside : ∀ place, (∀ name, place ≠ home ++ [name]) → after.get? place = before.get? place

namespace Edited

variable {home : Location} {before middle after : FileSystem} {first second : List Edit}

/-- Without edits nothing changes. -/
theorem refl (home : Location) (files : FileSystem) : Edited home [] files files :=
  ⟨fun _ => rfl, fun _ _ => rfl⟩

/-- Edits may be made one part after the other. -/
theorem trans (hfirst : Edited home first before middle)
    (hsecond : Edited home second middle after) :
    Edited home (first ++ second) before after where
  inside name := by
    rw [hsecond.inside, hfirst.inside, Edit.changesAt_append, Change.run_append]
  outside place h := (hsecond.outside place h).trans (hfirst.outside place h)

/-- One edit changes what is at its place. -/
theorem single {name : String} {change : Change}
    (hview : ∀ place, after.get? place =
      if place = home ++ [name] then change.apply (before.get? place) else before.get? place) :
    Edited home [{ name, change }] before after where
  inside other := by
    rw [hview]
    by_cases heq : name = other
    · subst heq
      simp [Edit.changesAt, Change.run]
    · have hplace : home ++ [other] ≠ home ++ [name] := by
        simpa using Ne.symm heq
      rw [if_neg hplace]
      simp [Edit.changesAt, heq, Change.run]
  outside place h := by
    rw [hview, if_neg (h name)]

/-- An edit is told from what is at its place afterwards. -/
theorem of_view {name : String} {change : Change} {entry : Option Entry}
    (hview : ∀ place, after.get? place =
      if place = home ++ [name] then entry else before.get? place)
    (hentry : change.apply (before.get? (home ++ [name])) = entry) :
    Edited home [{ name, change }] before after := by
  refine .single fun place => ?_
  rw [hview]
  split
  · next heq => rw [heq, hentry]
  · rfl

/-- Edits neither make nor remove a directory. -/
theorem sameDirectories (h : Edited home first before after) :
    FileSystem.SameDirectories before after := by
  intro place
  rcases inside_or_outside home place with ⟨name, rfl⟩ | houtside
  · rw [h.inside, Change.run_eq_directory]
  · rw [h.outside place houtside]

/-- Paths lead where they led, so a file is read where its path led to. -/
theorem readFile (h : Edited home first before after) {path : Path} {place : Location}
    {content : Content} (hresolve : before.resolve path = .ok place)
    (hfile : after.get? place = some (.file content)) :
    after.readFile path = .ok content.bytes := by
  rw [FileSystem.readFile_of_resolve (FileSystem.resolve_of_same h.sameDirectories hresolve), hfile]

end Edited

end TableReplica.Files
