import TableReplica.Proofs.Files.Renaming

/-!
# What a rename moves

A rename gives what is at one place, and all that is below it, another place. `Moves` has one case
for each way in which it can succeed, and `moves_of_rename` says that there are no others. What the
new place holds (`Moves.held`, `Moves.below`), what stays where it is (`Moves.outside`) and where
the old path leads afterwards (`Moves.left`) hold in each of them, whatever the file tree.
-/

namespace TableReplica.Files

/-- Under a new key is what was under the old one, if no other key has become the new one. -/
theorem lookup_map_key {entries : List (Location × Entry)} {renamed : Location → Location}
    {old new : Location} (h : ∀ item ∈ entries, renamed item.1 = new ↔ item.1 = old) :
    (entries.map fun item => (renamed item.1, item.2)).lookup new = entries.lookup old := by
  induction entries with
  | nil => rfl
  | cons item rest ih =>
      obtain ⟨key, entry⟩ := item
      have hfirst : renamed key = new ↔ key = old := h (key, entry) List.mem_cons_self
      have hrest := ih fun other hmem => h other (List.mem_cons_of_mem _ hmem)
      by_cases hkey : key = old
      · obtain rfl : renamed key = new := hfirst.mpr hkey
        subst hkey
        simp
      · have hnew : ¬ renamed key = new := fun heq => hkey (hfirst.mp heq)
        simp [List.lookup_cons, beq_eq_false_iff_ne.mpr (Ne.symm hkey),
          beq_eq_false_iff_ne.mpr (Ne.symm hnew), hrest]

/-- A path that ends in a name is the way to it, the name and perhaps slashes. -/
theorem Path.steps_of_split? {path : Path} {name : String} (h : path.split?.2 = some name) :
    ∃ slashes, path.steps = path.split?.1 ++ .name name :: slashes ∧
      ∀ step ∈ slashes, step = .slash := by
  unfold split? at h ⊢
  split at h
  · next other before hrest =>
      cases h
      refine ⟨(path.steps.reverse.takeWhile (· = .slash)).reverse, ?_, fun step hmem => ?_⟩
      · calc path.steps
            = (path.steps.reverse.takeWhile (· = .slash) ++
                path.steps.reverse.dropWhile (· = .slash)).reverse := by
              rw [List.takeWhile_append_dropWhile, List.reverse_reverse]
          _ = before.reverse ++
                .name name :: (path.steps.reverse.takeWhile (· = .slash)).reverse := by
              rw [hrest, List.reverse_append, List.reverse_cons, List.append_assoc,
                List.singleton_append]
      · simpa using List.mem_takeWhile_imp (List.mem_reverse.mp hmem)
  · cases h

namespace FileSystem

/-- The place that a path names, whatever is there: that of its last name in the directory before
it. -/
def namedPlace (fs : FileSystem) (path : Path) : Except Refusal Location := do
  match ← fs.parentOf path with
  | (parent, some name) => child parent name
  | (_, none) => throw .busy

/-- What becomes of a file system when what is at one place gets another. -/
inductive Moves (fs : FileSystem) (source target : Location) : FileSystem → Prop where
  /-- Both places are the same. -/
  | same (entry : Entry) :
      fs.get? source = some entry → source = target → Moves fs source target fs
  /-- A file takes the place of nothing or of a file. -/
  | file (content : Content) :
      fs.get? source = some (.file content) → fs.get? target ≠ some .directory →
      source ≠ target → Moves fs source target (fs.moveFile source target content)
  /-- A directory with all that is in it takes the place of nothing or of an empty directory. -/
  | tree :
      fs.get? source = some .directory → (∀ content, fs.get? target ≠ some (.file content)) →
      fs.isOccupied target = false → ¬ source <+: target → ¬ target <+: source →
      Moves fs source target (fs.moveTree source target)

section

variable {fs after : FileSystem} {path : Path} {source target place : Location}

/-- A sequence of operations succeeds only if each of them does. -/
theorem exists_of_bind_ok {α β : Type} {first : Except Refusal α} {next : α → Except Refusal β}
    {value : β} (h : first >>= next = .ok value) :
    ∃ found, first = .ok found ∧ next found = .ok value := by
  cases first with
  | error refusal => cases h
  | ok found => exact ⟨found, rfl, h⟩

/-- The directory of the last name is where the way to it leads. -/
theorem walk_of_parentOf {parent : Location} {last : Option String}
    (h : fs.parentOf path = .ok (parent, last)) :
    path.check = .ok () ∧ fs.walk path.origin path.split?.1 = .ok parent ∧
      fs.get? parent = some .directory ∧ path.split?.2 = last := by
  obtain ⟨_, hcheck, h⟩ := exists_of_bind_ok h
  obtain ⟨reached, hwalk, h⟩ := exists_of_bind_ok h
  split at h
  · cases h
  · cases h
  · next hdirectory =>
      cases h
      exact ⟨hcheck, hwalk, hdirectory, rfl⟩

/-- A name that is not too long has its place in a directory. -/
theorem eq_of_child {parent : Location} {name : String} (h : child parent name = .ok place) :
    ¬ nameLimit < name.utf8ByteSize ∧ place = parent ++ [name] := by
  unfold child at h
  split at h
  · cases h
  · next hshort =>
      cases h
      exact ⟨hshort, rfl⟩

/-- Slashes after a directory stay there. -/
theorem walk_slashes (h : fs.get? place = some .directory) {slashes : List Step}
    (hslashes : ∀ step ∈ slashes, step = .slash) : fs.walk place slashes = .ok place := by
  induction slashes with
  | nil => rfl
  | cons step rest ih =>
      obtain ⟨rfl, hrest⟩ := List.forall_mem_cons.mp hslashes
      simp only [walk, h]
      exact ih hrest

theorem namedPlace_eq_ok :
    fs.namedPlace path = .ok place ↔
      ∃ parent name,
        fs.parentOf path = .ok (parent, some name) ∧ child parent name = .ok place := by
  unfold namedPlace
  rcases fs.parentOf path with refusal | ⟨parent, _ | name⟩ <;>
    simp [bind, Except.bind, throw, throwThe, MonadExceptOf.throw]

/-- A path leads to the place that it names if it does not end in a slash, or if a directory is
there. -/
theorem resolve_of_namedPlace (h : fs.namedPlace path = .ok place)
    (hslash : path.endsInSlash = false ∨ fs.get? place = some .directory) :
    fs.resolve path = .ok place := by
  obtain ⟨parent, name, hparent, hchild⟩ := namedPlace_eq_ok.mp h
  obtain ⟨hcheck, hwalk, hdirectory, hname⟩ := walk_of_parentOf hparent
  obtain ⟨hshort, rfl⟩ := eq_of_child hchild
  obtain ⟨slashes, hsteps, hslashes⟩ := Path.steps_of_split? hname
  have hlast : fs.walk (parent ++ [name]) slashes = .ok (parent ++ [name]) := by
    rcases hslash with hnone | hthere
    · -- The last of the slashes would be the last step of the path.
      cases hend : slashes.getLast? with
      | none => rw [List.getLast?_eq_none_iff.mp hend, walk]
      | some step =>
          obtain rfl := hslashes step (List.mem_of_getLast? hend)
          simp [Path.endsInSlash, hsteps, List.getLast?_append, List.getLast?_cons, hend] at hnone
    · exact walk_slashes hthere hslashes
  refine resolve_eq_ok.mpr ⟨hcheck, ?_⟩
  rw [hsteps, walk_append, hwalk]
  simp only [Except.bind, walk, hdirectory, if_neg hshort]
  exact hlast

/-- What is below the source goes below the target. -/
theorem moved_below (source target below : Location) :
    moved source target (source ++ below) = target ++ below := by
  simp [moved]

theorem moved_apart (target : Location) (h : ¬ source <+: place) :
    moved source target place = place :=
  if_neg (List.isPrefixOf_iff_prefix.not.mpr h)

section

variable (hfree : fs.isOccupied target = false) (hsource : ¬ source <+: target)
  (htarget : ¬ target <+: source)

include hfree

/-- Nothing but what goes away is below a target that is not occupied. -/
theorem apart_of_free {item : Location × Entry}
    (hitem : item ∈ fs.entries.filter (·.1 ≠ target)) : ¬ target <+: item.1 := by
  intro hbelow
  obtain ⟨hmem, hkept⟩ := List.mem_filter.mp hitem
  have hoccupied : fs.isOccupied target = true :=
    List.any_eq_true.mpr ⟨item, hmem, by
      simpa [List.isPrefixOf_iff_prefix.mpr hbelow] using hkept⟩
  rw [hfree] at hoccupied
  cases hoccupied

/-- Nothing at all is there. -/
theorem get?_of_free {below : Location} (hbelow : below ≠ []) :
    fs.get? (target ++ below) = none := by
  have hne : target ++ below ≠ target := by simpa using hbelow
  rw [get?, if_neg (by simp [hbelow]), List.lookup_eq_none_iff]
  intro item hmem
  have hkey : target ++ below ≠ item.1 := by
    intro heq
    have hitem : item ∈ fs.entries.filter (·.1 ≠ target) :=
      List.mem_filter.mpr ⟨hmem, by simpa [← heq] using hne⟩
    exact apart_of_free hfree hitem (heq ▸ List.prefix_append target below)
  simpa using hkey

/-- After a tree was moved, a place has what was at the place that has become it. -/
theorem get?_moveTree_of_iff {old new : Location} (hold : ¬ target <+: old) (hroot : old ≠ [])
    (hnew : new ≠ [])
    (h : ∀ key, ¬ target <+: key → (moved source target key = new ↔ key = old)) :
    (fs.moveTree source target).get? new = fs.get? old := by
  have hne : old ≠ target := fun heq => hold (heq ▸ List.prefix_rfl)
  rw [get?, get?, if_neg hnew, if_neg hroot]
  show ((fs.entries.filter (·.1 ≠ target)).map _).lookup new = _
  rw [lookup_map_key fun item hitem => h item.1 (apart_of_free hfree hitem), lookup_filter_ne,
    if_neg hne]

/-- What is elsewhere stays. -/
theorem get?_moveTree_other (hbefore : ¬ source <+: place) (hafter : ¬ target <+: place) :
    (fs.moveTree source target).get? place = fs.get? place := by
  by_cases hroot : place = []
  · rw [hroot, get?_root, get?_root]
  · refine get?_moveTree_of_iff hfree hafter hroot hroot fun key hapart => ?_
    by_cases hkey : source <+: key
    · obtain ⟨rest, rfl⟩ := hkey
      rw [moved_below]
      constructor
      · rintro rfl
        exact absurd (List.prefix_append target rest) hafter
      · rintro rfl
        exact absurd (List.prefix_append source rest) hbefore
    · rw [moved_apart target hkey]

include hsource htarget

/-- A tree that was moved is below its target. -/
theorem get?_moveTree_target (below : Location) :
    (fs.moveTree source target).get? (target ++ below) = fs.get? (source ++ below) := by
  have hold : ¬ target <+: source ++ below := fun hbelow =>
    (List.prefix_or_prefix_of_prefix hbelow (List.prefix_append source below)).elim htarget hsource
  have hroot : source ++ below ≠ [] := fun hnil =>
    hsource ((List.append_eq_nil_iff.mp hnil).1 ▸ List.nil_prefix)
  have hnew : target ++ below ≠ [] := fun hnil =>
    htarget ((List.append_eq_nil_iff.mp hnil).1 ▸ List.nil_prefix)
  refine get?_moveTree_of_iff hfree hold hroot hnew fun key hapart => ?_
  by_cases hkey : source <+: key
  · obtain ⟨rest, rfl⟩ := hkey
    rw [moved_below, List.append_cancel_left_eq, List.append_cancel_left_eq]
  · rw [moved_apart target hkey]
    constructor
    · rintro rfl
      exact absurd (List.prefix_append target below) hapart
    · rintro rfl
      exact absurd (List.prefix_append source below) hkey

omit hfree in
/-- Nothing is left where a tree was. -/
theorem get?_moveTree_source (below : Location) :
    (fs.moveTree source target).get? (source ++ below) = none := by
  have hroot : source ++ below ≠ [] := fun hnil =>
    hsource ((List.append_eq_nil_iff.mp hnil).1 ▸ List.nil_prefix)
  rw [get?, if_neg hroot, List.lookup_eq_none_iff]
  intro item hmem
  obtain ⟨old, -, rfl⟩ := List.mem_map.mp hmem
  have hkey : source ++ below ≠ moved source target old.1 := by
    by_cases hold : source <+: old.1
    · obtain ⟨rest, hrest⟩ := hold
      rw [← hrest, moved_below]
      intro heq
      exact (List.prefix_or_prefix_of_prefix (List.prefix_append source below)
        (heq ▸ List.prefix_append target rest)).elim hsource htarget
    · rw [moved_apart target hold]
      exact fun heq => hold (heq ▸ List.prefix_append source below)
  simpa using hkey

end

/-- What is at each place after a file was moved to where no directory is. -/
theorem get?_moveFile_of_free {content : Content} (hfile : fs.get? source = some (.file content))
    (hfree : fs.get? target ≠ some .directory) (place : Location) :
    (fs.moveFile source target content).get? place =
      if place = target then some (.file content)
      else if place = source then none else fs.get? place := by
  have hsource : fs.get? source ≠ some .directory := by simp [hfile]
  exact get?_moveFile (ne_root_of_not_directory hsource) (ne_root_of_not_directory hfree) content
    place

namespace Moves

variable (h : fs.Moves source target after)

include h

/-- Only what is there is moved. -/
theorem exists_entry : fs.get? source ≠ none := by
  cases h with
  | same entry hentry => simp [hentry]
  | file content hfile => simp [hfile]
  | tree hthere => simp [hthere]

/-- The target holds what the source held. -/
theorem held : after.get? target = fs.get? source := by
  cases h with
  | same entry hentry heq => rw [heq]
  | file content hfile hfree _ => rw [get?_moveFile_of_free hfile hfree, if_pos rfl, hfile]
  | tree _ _ hfree hsource htarget =>
      simpa using get?_moveTree_target hfree hsource htarget []

/-- All that was in a directory is in it still. -/
theorem below (hdirectory : fs.get? source = some .directory) (rest : Location) :
    after.get? (target ++ rest) = fs.get? (source ++ rest) := by
  cases h with
  | same entry hentry heq => rw [heq]
  | file content hfile => simp [hfile] at hdirectory
  | tree _ _ hfree hsource htarget => exact get?_moveTree_target hfree hsource htarget rest

/-- Nothing is left at the source, if it is not the target. -/
theorem gone (hne : source ≠ target) : after.get? source = none := by
  cases h with
  | same entry hentry heq => exact absurd heq hne
  | file content hfile hfree _ =>
      rw [get?_moveFile_of_free hfile hfree, if_neg hne, if_pos rfl]
  | tree _ _ _ hsource htarget => simpa using get?_moveTree_source hsource htarget []

/-- What is at and below neither of the places stays. -/
theorem other (hbefore : ¬ source <+: place) (hafter : ¬ target <+: place) :
    after.get? place = fs.get? place := by
  cases h with
  | same => rfl
  | file content hfile hfree _ =>
      have hsource : place ≠ source := fun heq => hbefore (heq ▸ List.prefix_rfl)
      have htarget : place ≠ target := fun heq => hafter (heq ▸ List.prefix_rfl)
      rw [get?_moveFile_of_free hfile hfree, if_neg htarget, if_neg hsource]
  | tree _ _ hfree _ _ => exact get?_moveTree_other hfree hbefore hafter

/-- A rename makes a directory missing or leaves it one. -/
theorem directory (hdirectory : fs.get? place = some .directory) :
    after.get? place = some .directory ∨ after.get? place = none := by
  cases h with
  | same => exact .inl hdirectory
  | file content hfile hfree _ =>
      have hsource : place ≠ source := by
        rintro rfl
        simp [hfile] at hdirectory
      have htarget : place ≠ target := by
        rintro rfl
        exact hfree hdirectory
      rw [get?_moveFile_of_free hfile hfree, if_neg htarget, if_neg hsource]
      exact .inl hdirectory
  | tree hthere _ hfree hsource htarget =>
      by_cases hbefore : source <+: place
      · obtain ⟨rest, rfl⟩ := hbefore
        exact .inr (get?_moveTree_source hsource htarget rest)
      · by_cases hafter : target <+: place
        · obtain ⟨rest, rfl⟩ := hafter
          by_cases hrest : rest = []
          · subst hrest
            have hmoved := get?_moveTree_target hfree hsource htarget []
            exact .inl (hmoved.trans (by simpa using hthere))
          · simp [get?_of_free hfree hrest] at hdirectory
        · exact .inl ((get?_moveTree_other hfree hbefore hafter).trans hdirectory)

/-- No directory comes or goes when a file is moved. -/
theorem sameDirectories {content : Content} (hcontent : fs.get? source = some (.file content)) :
    SameDirectories fs after := by
  cases h with
  | same => exact .refl fs
  | file content hfile hfree _ =>
      intro other
      rw [get?_moveFile_of_free hfile hfree]
      split
      · next heq => simp [heq, hfree]
      · split
        · next heq => simp [heq, hfile]
        · exact Iff.rfl
  | tree hthere => simp [hthere] at hcontent

end Moves

/-- Where directories have only gone missing, a walk that still arrives comes to the same place. -/
theorem walk_of_directory {before : FileSystem}
    (h : ∀ place, before.get? place = some .directory →
      after.get? place = some .directory ∨ after.get? place = none)
    {start last reached : Location} {steps : List Step}
    (hbefore : before.walk start steps = .ok last) (hafter : after.walk start steps = .ok reached) :
    reached = last := by
  induction steps generalizing start with
  | nil =>
      cases hbefore
      cases hafter
      rfl
  | cons step rest ih =>
      unfold walk at hbefore hafter
      split at hbefore
      · cases hbefore
      · cases hbefore
      · next hdirectory =>
          rcases h start hdirectory with hsame | hnone
          · rw [hsame] at hafter
            cases step with
            | here => exact ih hbefore hafter
            | slash => exact ih hbefore hafter
            | up => exact ih hbefore hafter
            | name name =>
                simp only at hbefore hafter
                split at hbefore
                · cases hbefore
                · next hshort =>
                    rw [if_neg hshort] at hafter
                    exact ih hbefore hafter
          · rw [hnone] at hafter
            cases hafter

/-- The path to what was moved leads nowhere else afterwards. -/
theorem Moves.left (h : fs.Moves source target after) (hbefore : fs.resolve path = .ok source)
    (hafter : after.resolve path = .ok place) : place = source :=
  walk_of_directory (fun _ => h.directory) (resolve_eq_ok.mp hbefore).2 (resolve_eq_ok.mp hafter).2

end

/-- A rename that succeeds has moved what the one path names to where the other one does. -/
theorem moves_of_rename {fs after : FileSystem} {temp goal : Path}
    (h : fs.rename temp goal = .ok after) :
    ∃ source target, fs.namedPlace temp = .ok source ∧ fs.namedPlace goal = .ok target ∧
      Moves fs source target after ∧
      (fs.get? source ≠ some .directory → temp.endsInSlash = false ∧ goal.endsInSlash = false) := by
  unfold rename at h
  split at h
  · cases h
  obtain ⟨⟨sourceParent, sourceName?⟩, hsource, h⟩ := exists_of_bind_ok h
  obtain ⟨⟨goalParent, goalName?⟩, hgoal, h⟩ := exists_of_bind_ok h
  rcases sourceName? with _ | sourceName
  · cases h
  rcases goalName? with _ | goalName
  · cases h
  obtain ⟨source, hsourceChild, h⟩ := exists_of_bind_ok h
  split at h
  · cases h
  next entry hentry =>
  obtain ⟨target, hgoalChild, h⟩ := exists_of_bind_ok h
  refine ⟨source, target, namedPlace_eq_ok.mpr ⟨_, _, hsource, hsourceChild⟩,
    namedPlace_eq_ok.mpr ⟨_, _, hgoal, hgoalChild⟩, ?_⟩
  split at h
  · cases h
  next hslash =>
  have hends (hfile : fs.get? source ≠ some .directory) :
      temp.endsInSlash = false ∧ goal.endsInSlash = false := by
    have hentryFile : entry ≠ .directory := fun heq => hfile (heq ▸ hentry)
    simpa [hentryFile] using hslash
  refine ⟨?_, hends⟩
  split at h
  · next heq =>
      cases h
      exact .same entry hentry heq
  next hne =>
  split at h
  · cases h
  next hsub =>
  split at h
  · cases h
  next hsup =>
  rw [List.isPrefixOf_iff_prefix] at hsup
  split at h
  · cases h
  · cases h
  · next content _ hfree =>
      cases h
      exact .file content hentry hfree hne
  · next hfree =>
      split at h
      · cases h
      · next hoccupied =>
          cases h
          rw [List.isPrefixOf_iff_prefix] at hsub
          exact .tree hentry hfree
            (Bool.eq_false_iff.mpr hoccupied) (fun hbelow => hsub ⟨rfl, hbelow⟩) hsup

end FileSystem

end TableReplica.Files
