import TableReplica.Apply.BaseFile
import TableReplica.Proofs.Files.Edits
import TableReplica.Proofs.Files.Names

/-!
# Replacing a file

In a directory that exists, a file is renamed onto another unless something stands in the way of the
target (`rename_join`). With that, giving a base file new content edits two names: the temporary
file goes and the base file is filled. If the base file is obstructed the temporary file goes all
the same.
-/

namespace TableReplica.Files

namespace FileSystem

variable {fs : FileSystem} {directory : Path} {home : Location}

/-- What is at each place after a file was renamed. -/
theorem get?_moveFile {source target : Location} (hsource : source ≠ []) (htarget : target ≠ [])
    (content : Content) (place : Location) :
    (fs.moveFile source target content).get? place =
      if place = target then some (.file content)
      else if place = source then none else fs.get? place := by
  have hview := (fs.erase source).get?_put htarget (.file content) place
  rw [fs.get?_erase hsource] at hview
  exact hview

theorem locked_moveFile {source target place : Location} (content : Content)
    (hsource : place ≠ source) (htarget : place ≠ target) :
    (fs.moveFile source target content).locked.count place = fs.locked.count place := by
  show List.count place ((fs.locked.filter (· ≠ target)).map fun held =>
    if held = source then target else held) = _
  rw [List.count_eq_countP, List.countP_map, List.countP_filter, List.count_eq_countP]
  refine List.countP_congr fun held _ => ?_
  by_cases hmoved : held = source
  · simp [hmoved, Ne.symm hsource, Ne.symm htarget]
  · simp only [Function.comp, if_neg hmoved, beq_iff_eq, Bool.and_eq_true, decide_eq_true_eq,
      and_iff_left_iff_imp]
    rintro rfl
    exact htarget

/-- A file whose path is clear is removed from its place. -/
theorem removeFile_eq {path : Path} {place : Location} {content : Content}
    (hresolve : fs.resolve path = .ok place) (hfile : fs.get? place = some (.file content)) :
    fs.removeFile path = .ok (fs.takeAway place) := by
  simp [removeFile, hresolve, hfile, bind, Except.bind, pure, Except.pure]

/-- What is at each place after a file was taken away. -/
theorem get?_takeAway {place : Location} (h : place ≠ []) (other : Location) :
    (fs.takeAway place).get? other = if other = place then none else fs.get? other :=
  fs.get?_erase h other

/-- No empty file is made where something is in the way. -/
theorem createEmpty_of_obstacle {path : Path} {refusal : Refusal}
    (h : fs.obstacle? path = some refusal) : fs.createEmpty path = .error refusal := by
  unfold obstacle? at h
  have hemptied := fs.emptied path
  revert hemptied
  generalize fs.createEmpty path = made
  rintro (⟨other, hresolve⟩ | ⟨place, hresolve, hdirectory⟩ |
    ⟨place, opened, hresolve, hfree, -, -⟩)
  · simp_all
  · simp_all
  · simp_all

/-- With nothing in the way an empty file is made at the name. -/
theorem createEmpty_join {name : String} (hhome : fs.LeadsTo directory home)
    (hname : IsPlainName name) (hfree : fs.obstacle? (directory.join name) = none) :
    ∃ after, fs.createEmpty (directory.join name) = .ok (home ++ [name], after) ∧
      (∀ other, after.get? other =
        if other = home ++ [name] then some (.file .empty) else fs.get? other) ∧
      after.locked = fs.locked := by
  obtain ⟨-, hresolved, hclear⟩ := resolve_of_obstacle?_eq_none hhome hname hfree
  have hemptied := fs.emptied (directory.join name)
  revert hemptied
  generalize fs.createEmpty (directory.join name) = made
  rintro (⟨other, hresolve⟩ | ⟨place, hresolve, hdirectory⟩ |
    ⟨place, opened, hresolve, -, hview, hlocked⟩)
  · simp_all
  · simp_all
  · obtain rfl : place = home ++ [name] := by simpa [hresolve] using hresolved
    exact ⟨opened, rfl, hview, hlocked⟩

/-- With nothing in the way a file with any content is made at the name. -/
theorem createEmpty_write {name : String} (hhome : fs.LeadsTo directory home)
    (hname : IsPlainName name) (hfree : fs.obstacle? (directory.join name) = none)
    (content : Bytes) :
    ∃ opened, fs.createEmpty (directory.join name) = .ok (home ++ [name], opened) ∧
      (∀ other, (opened.write (home ++ [name]) 0 content).get? other =
        if other = home ++ [name] then some (.file (.ofBytes content)) else fs.get? other) ∧
      (opened.write (home ++ [name]) 0 content).locked = fs.locked := by
  obtain ⟨opened, hmade, hopened, hlocked⟩ := createEmpty_join hhome hname hfree
  refine ⟨opened, hmade, fun other => ?_, ?_⟩
  · have hcontent : Content.empty.overwrite 0 content = .ofBytes content := by
      apply Content.ext
      rw [Content.bytes_ofBytes]
      exact Content.bytes_overwrite_size .empty content
    rw [get?_write, hopened, hopened, if_pos rfl]
    by_cases heq : other = home ++ [name]
    · rw [if_pos heq, if_pos heq]
      simp [Entry.overwrite, hcontent]
    · rw [if_neg heq, if_neg heq, if_neg heq]
  · rw [← hlocked]
    unfold write
    split <;> rfl

/-- Nothing is discarded where something is in the way. -/
theorem discard_of_obstacle {path : Path} {refusal : Refusal}
    (h : fs.obstacle? path = some refusal) : fs.discard path = fs := by
  unfold obstacle? at h
  unfold discard removeFile
  cases hresolve : fs.resolve path with
  | error other => rfl
  | ok place =>
      simp only [hresolve] at h
      split at h
      · next hdirectory =>
          simp [hdirectory, bind, Except.bind, throw, throwThe, MonadExceptOf.throw]
      · cases h

/-- Nothing is discarded where nothing is. -/
theorem discard_of_none {path : Path} {place : Location} (hresolve : fs.resolve path = .ok place)
    (hnone : fs.get? place = none) : fs.discard path = fs := by
  simp [discard, removeFile, hresolve, hnone, bind, Except.bind, throw, throwThe,
    MonadExceptOf.throw]

/-- A path that can be handed over has no zero in it. -/
theorem hasZero_of_check {path : Path} (h : path.check = .ok ()) : path.hasZero = false := by
  unfold Path.check at h
  split at h
  · cases h
  · next hzero => simpa using hzero

theorem endsInSlash_join (directory : Path) {name : String} (h : IsPlainName name) :
    (directory.join name).endsInSlash = false := by
  simp [Path.endsInSlash, (join_plain directory h).2]

/-- Two names in a directory are not one below the other. -/
theorem isPrefixOf_names {home : Location} {first second : String} (h : first ≠ second) :
    List.isPrefixOf (home ++ [first]) (home ++ [second]) = false := by
  rw [Bool.eq_false_iff, ne_eq, List.isPrefixOf_iff_prefix]
  intro hinitial
  have hsame := List.IsPrefix.eq_of_length hinitial (by simp)
  simp only [List.append_cancel_left_eq, List.cons.injEq, and_true] at hsame
  exact h hsame

/-- A file in a directory is renamed onto another name in it, unless something is in the way. -/
theorem rename_join {source target : String} {content : Content}
    (hhome : fs.LeadsTo directory home) (hsource : IsPlainName source)
    (htarget : IsPlainName target) (hne : source ≠ target)
    (hreach : reach directory source = .ok ())
    (hfile : fs.get? (home ++ [source]) = some (.file content)) :
    fs.rename (directory.join source) (directory.join target) =
      match fs.obstacle? (directory.join target) with
      | some refusal => .error refusal
      | none => .ok (fs.moveFile (home ++ [source]) (home ++ [target]) content) := by
  obtain ⟨hcheck, hshort⟩ := reach_eq_ok.mp hreach
  rw [obstacle?_join hhome htarget]
  unfold rename
  simp only [hasZero_of_check hcheck, Bool.false_eq_true, false_or, parentOf_join hhome hsource,
    hcheck, parentOf_join hhome htarget]
  cases hlook : (directory.join target).check with
  | error refusal =>
      have hreached : reach directory target = .error refusal := by
        simp [reach, hlook, bind, Except.bind]
      rw [hreached]
      by_cases hzero : (directory.join target).hasZero = true
      · -- A zero is found before anything else, as it is when the path is checked.
        have hrefusal : refusal = .zeroInPath := by
          simpa [Path.check, hzero, throw, throwThe, MonadExceptOf.throw] using hlook.symm
        rw [if_pos hzero, hrefusal]
        rfl
      · rw [if_neg hzero]
        rfl
  | ok _ =>
      have hzero : ¬ (directory.join target).hasZero = true := by
        simp [hasZero_of_check hlook]
      have hplaces : home ++ [source] ≠ home ++ [target] := by simpa using hne
      rw [if_neg hzero]
      by_cases hlong : nameLimit < target.utf8ByteSize
      · have hreached : reach directory target = .error .nameTooLong := by
          simp [reach, hlook, hlong, bind, Except.bind, throw, throwThe, MonadExceptOf.throw]
        simp [hreached, child, hshort, hlong, hfile, bind, Except.bind, Except.map, pure,
          Except.pure, throw, throwThe, MonadExceptOf.throw]
      · have hreached : reach directory target = .ok () := reach_eq_ok.mpr ⟨hlook, hlong⟩
        simp only [hreached, child, hshort, hlong, hfile, bind, Except.bind, Except.map, pure,
          Except.pure, endsInSlash_join directory hsource, endsInSlash_join directory htarget,
          if_false, hplaces, isPrefixOf_names (Ne.symm hne), reduceCtorEq, false_and,
          Bool.false_eq_true, or_self, and_false]
        rcases hentry : fs.get? (home ++ [target]) with _ | _ | _ <;>
          simp [throw, throwThe, MonadExceptOf.throw]

end FileSystem

end TableReplica.Files

namespace TableReplica.Apply

open Files Wire

/-- The edit that leaves no temporary file of a table. -/
def clearing (table : String) : Edit :=
  { name := (ReplicaFile.temp table).name, change := .remove }

/-- The edit that gives a base file new content. -/
def replacing (table : String) (letter : BaseLetter) (content : Bytes) : Edit :=
  { name := (ReplicaFile.base table letter).name, change := .fill (.ofBytes content) }

/-- What comes of giving a base file new content. -/
inductive Replaced (directory : Path) (home : Location) (table : String) (letter : BaseLetter)
    (content : Bytes) (fs : FileSystem) : Except ReplicaError Unit × FileSystem → Prop where
  | done (after : FileSystem) :
      fs.obstacle? (tempFilePath directory table) = none →
      fs.obstacle? (baseFilePath directory table letter) = none →
      Edited home [clearing table, replacing table letter content] fs after →
      after.locked.count (home ++ [lockFileName]) = fs.locked.count (home ++ [lockFileName]) →
      Replaced directory home table letter content fs (.ok (), after)
  | unprepared (refusal : Refusal) :
      fs.obstacle? (tempFilePath directory table) = some refusal →
      Replaced directory home table letter content fs
        (.error (.storage .openFile (tempFilePath directory table) refusal), fs)
  | kept (refusal : Refusal) (after : FileSystem) :
      fs.obstacle? (tempFilePath directory table) = none →
      fs.obstacle? (baseFilePath directory table letter) = some refusal →
      Edited home [clearing table] fs after →
      after.locked.count (home ++ [lockFileName]) = fs.locked.count (home ++ [lockFileName]) →
      Replaced directory home table letter content fs
        (.error (.storage .updateBaseFile (baseFilePath directory table letter) refusal), after)

section

variable {directory : Path} {home : Location} {table : String} {fs : FileSystem}

/-- The temporary file is renamed onto its target or, if that is obstructed, taken away. -/
theorem renameIntoPlace_join {source target : String} {content : Content}
    (hhome : fs.LeadsTo directory home) (hsource : IsPlainName source)
    (htarget : IsPlainName target) (hne : source ≠ target)
    (hreach : FileSystem.reach directory source = .ok ())
    (hfile : fs.get? (home ++ [source]) = some (.file content)) :
    renameIntoPlace (directory.join source) (directory.join target) fs =
      match fs.obstacle? (directory.join target) with
      | some refusal =>
        (.error (.storage .updateBaseFile (directory.join target) refusal),
          fs.takeAway (home ++ [source]))
      | none => (.ok (), fs.moveFile (home ++ [source]) (home ++ [target]) content) := by
  have hresolve : fs.resolve (directory.join source) = .ok (home ++ [source]) := by
    rw [FileSystem.resolve_join hhome hsource, hreach]
    rfl
  unfold renameIntoPlace
  rw [FileSystem.rename_join hhome hsource htarget hne hreach hfile]
  cases fs.obstacle? (directory.join target) with
  | none => rfl
  | some refusal => simp only [FileSystem.removeFile_eq hresolve hfile]

/-- Nothing happens if the temporary file cannot be opened. -/
theorem replaceBaseFile_of_obstacle {refusal : Refusal}
    (h : fs.obstacle? (tempFilePath directory table) = some refusal) (letter : BaseLetter)
    (content : Bytes) :
    replaceBaseFile directory table letter content fs =
      (.error (.storage .openFile (tempFilePath directory table) refusal), fs) := by
  unfold replaceBaseFile
  simp only [FileSystem.createEmpty_of_obstacle h, FileSystem.discard_of_obstacle h]

/-- A temporary file that is gone was cleared, whether there was one before or not. -/
theorem edited_clearing {after : FileSystem}
    (hclear : fs.get? (home ++ [(ReplicaFile.temp table).name]) ≠ some .directory)
    (hview : ∀ other, after.get? other =
      if other = home ++ [(ReplicaFile.temp table).name] then none else fs.get? other) :
    Edited home [clearing table] fs after :=
  .of_view hview (Change.apply_remove hclear)

section

variable {prepared : FileSystem} {content : Bytes}
  (hprepared : ∀ other, prepared.get? other =
    if other = home ++ [(ReplicaFile.temp table).name] then some (.file (.ofBytes content))
    else fs.get? other)

include hprepared

/-- Taking a prepared file away leaves no trace of it. -/
theorem edited_takeAway
    (hclear : fs.get? (home ++ [(ReplicaFile.temp table).name]) ≠ some .directory) :
    Edited home [clearing table] fs
      (prepared.takeAway (home ++ [(ReplicaFile.temp table).name])) := by
  have hplace : home ++ [(ReplicaFile.temp table).name] ≠ [] := by simp
  refine edited_clearing hclear fun other => ?_
  rw [FileSystem.get?_takeAway hplace, hprepared]
  split <;> rfl

/-- Moving a prepared file is clearing its name and filling the base file. -/
theorem edited_moveFile {letter : BaseLetter} (htable : IsTableName table)
    (hclear : fs.get? (home ++ [(ReplicaFile.temp table).name]) ≠ some .directory)
    (hbaseClear : fs.get? (home ++ [(ReplicaFile.base table letter).name]) ≠ some .directory) :
    Edited home [clearing table, replacing table letter content] fs
      (prepared.moveFile (home ++ [(ReplicaFile.temp table).name])
        (home ++ [(ReplicaFile.base table letter).name]) (.ofBytes content)) := by
  have hne : (ReplicaFile.base table letter).name ≠ (ReplicaFile.temp table).name :=
    ReplicaFile.name_ne htable htable (by simp)
  have htempPlace : home ++ [(ReplicaFile.temp table).name] ≠ [] := by simp
  have hbasePlace : home ++ [(ReplicaFile.base table letter).name] ≠ [] := by simp
  have hcleared : Edited home [clearing table] fs
      (fs.erase (home ++ [(ReplicaFile.temp table).name])) :=
    edited_clearing hclear (fs.get?_erase htempPlace)
  refine hcleared.trans (.of_view (fun place => ?_) (Change.apply_fill _ ?_))
  · rw [FileSystem.get?_moveFile htempPlace hbasePlace, hprepared, fs.get?_erase htempPlace]
    split
    · rfl
    · split <;> rfl
  · rw [fs.get?_erase htempPlace, if_neg (by simpa using hne)]
    exact hbaseClear

end

/-- A base file gets its new content by way of the temporary file, which is gone afterwards. -/
theorem replaced (hhome : fs.LeadsTo directory home) (htable : IsTableName table)
    (letter : BaseLetter) (content : Bytes) :
    Replaced directory home table letter content fs
      (replaceBaseFile directory table letter content fs) := by
  have hproperTemp : (ReplicaFile.temp table).Proper := htable
  have hproperBase : (ReplicaFile.base table letter).Proper := htable
  have htemp : IsPlainName (ReplicaFile.temp table).name := ReplicaFile.isPlainName hproperTemp
  have hbase : IsPlainName (ReplicaFile.base table letter).name :=
    ReplicaFile.isPlainName hproperBase
  have hne : (ReplicaFile.temp table).name ≠ (ReplicaFile.base table letter).name :=
    ReplicaFile.name_ne hproperTemp hproperBase (by simp)
  have hlock : ReplicaFile.lock.Proper := trivial
  have hlockTemp : lockFileName ≠ (ReplicaFile.temp table).name :=
    ReplicaFile.name_ne hlock hproperTemp (by simp)
  have hlockBase : lockFileName ≠ (ReplicaFile.base table letter).name :=
    ReplicaFile.name_ne hlock hproperBase (by simp)
  cases hobstacle : fs.obstacle? (tempFilePath directory table) with
  | some refusal =>
      rw [replaceBaseFile_of_obstacle hobstacle]
      exact .unprepared refusal hobstacle
  | none =>
      unfold replaceBaseFile
      obtain ⟨hreach, hresolve, hclear⟩ :=
        FileSystem.resolve_of_obstacle?_eq_none hhome htemp hobstacle
      obtain ⟨opened, hmade, hview, hlocked⟩ :=
        FileSystem.createEmpty_write hhome htemp hobstacle content
      change fs.createEmpty (tempFilePath directory table) = _ at hmade
      simp only [hmade]
      generalize opened.write (home ++ [(ReplicaFile.temp table).name]) 0 content = prepared
        at hview hlocked
      -- Preparing the temporary file moves no directory, so the base file is obstructed as before.
      have hsame : fs.SameDirectories prepared := .of_made hclear hview
      have hrenamed := renameIntoPlace_join (hhome.of_same hsame) htemp hbase hne hreach
        ((hview _).trans (if_pos rfl))
      rw [FileSystem.obstacle?_of_same hhome hbase hsame] at hrenamed
      change renameIntoPlace (tempFilePath directory table) (baseFilePath directory table letter)
        prepared = match fs.obstacle? (baseFilePath directory table letter) with
          | some refusal =>
            (.error (.storage .updateBaseFile (baseFilePath directory table letter) refusal), _)
          | none => _ at hrenamed
      cases hbaseObstacle : fs.obstacle? (baseFilePath directory table letter) with
      | some refusal =>
          rw [hbaseObstacle] at hrenamed
          have hcleared := edited_takeAway hview hclear
          have hgone : (prepared.takeAway (home ++ [(ReplicaFile.temp table).name])).get?
              (home ++ [(ReplicaFile.temp table).name]) = none := by
            rw [FileSystem.get?_takeAway (by simp), if_pos rfl]
          have hdiscard := FileSystem.discard_of_none
            (FileSystem.resolve_of_same hcleared.sameDirectories hresolve) hgone
          change FileSystem.discard _ (tempFilePath directory table) = _ at hdiscard
          simp only [hrenamed, hdiscard]
          refine .kept refusal _ hobstacle hbaseObstacle hcleared ?_
          show (prepared.locked.erase _).count _ = _
          rw [List.count_erase_of_ne (by simpa using hlockTemp), hlocked]
      | none =>
          rw [hbaseObstacle] at hrenamed
          simp only [hrenamed]
          obtain ⟨-, -, hbaseClear⟩ :=
            FileSystem.resolve_of_obstacle?_eq_none hhome hbase hbaseObstacle
          refine .done _ hobstacle hbaseObstacle (edited_moveFile hview htable hclear hbaseClear) ?_
          rw [FileSystem.locked_moveFile _ (by simpa using hlockTemp) (by simpa using hlockBase),
            hlocked]

end

end TableReplica.Apply
