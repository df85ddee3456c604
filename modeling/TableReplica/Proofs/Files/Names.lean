import TableReplica.Apply.Directory
import TableReplica.Proofs.Files.Walking

/-!
# The names of the files of a replica

An apply uses five kinds of files of a replica directory. A table is named by letters, so what
comes before the first dot of a file name tells the table and what comes from there on tells the
kind: different files have different names (`ReplicaFile.name_inj`). None of the names has a slash
in it, so the path to a file leads from the directory to the place of its name (`resolve_join`),
unless the path or the name is too long.
-/

namespace TableReplica.Files

/-- A name that is one step of a walk. -/
def IsPlainName (name : String) : Prop :=
  '/' ∉ name.toList ∧ 3 ≤ name.toList.length

/-- A text without a slash is not split. -/
theorem splitSlash_of_notMem {chars : List Char} (h : '/' ∉ chars) :
    splitSlash chars = [chars] := by
  induction chars with
  | nil => rfl
  | cons c rest ih =>
      rw [List.mem_cons, not_or] at h
      rw [splitSlash, if_neg (Ne.symm h.1), ih h.2]

/-- A plain name is one step. -/
theorem stepsOf_plain {name : String} (h : IsPlainName name) :
    stepsOf name.toList = [.name name] := by
  have hlast : name.toList.getLast? ≠ some '/' := fun hslash =>
    h.1 (List.mem_of_getLast? hslash)
  rw [stepsOf, splitSlash_of_notMem h.1, if_neg hlast]
  -- With three characters or more the name is neither empty nor made of dots alone.
  have hpiece : pieceStep? name.toList = some (.name (String.ofList name.toList)) := by
    have hlong := h.2
    generalize name.toList = chars at hlong
    rcases chars with _ | ⟨first, _ | ⟨second, _ | ⟨third, rest⟩⟩⟩ <;>
      simp_all [pieceStep?]
  simp [hpiece, String.ofList_toList]

/-- A plain name does not begin at the root. -/
theorem isAbsoluteText_plain {name : String} (h : IsPlainName name) :
    Path.isAbsoluteText name = false := by
  unfold Path.isAbsoluteText
  rw [decide_eq_false_iff_not]
  exact fun hslash => h.1 (List.mem_of_head? hslash)

/-- A plain name adds a step to the path of a directory. -/
theorem join_plain (directory : Path) {name : String} (h : IsPlainName name) :
    (directory.join name).origin = directory.origin ∧
      (directory.join name).steps = directory.steps ++ [.name name] := by
  simp [Path.join, isAbsoluteText_plain h, stepsOf_plain h]

/-- The path to a name ends in it. -/
theorem split?_join (directory : Path) {name : String} (h : IsPlainName name) :
    (directory.join name).split? = (directory.steps, some name) := by
  simp [Path.split?, (join_plain directory h).2]

/-- The path to a plain name is written as the two with a slash between them, if there is none yet.
-/
theorem text_join (directory : Path) {name : String} (h : IsPlainName name) :
    (directory.join name).text = Path.joinText directory.text name := by
  simp [Path.join, isAbsoluteText_plain h]

/-- The path to a name has a text. -/
theorem text_join_ne_empty (directory : Path) {name : String} (h : IsPlainName name) :
    (directory.join name).text ≠ "" := by
  have hname : name.toList ≠ [] := List.ne_nil_of_length_pos (by have := h.2; omega)
  rw [text_join directory h, Path.joinText, ← String.toList_inj.ne]
  split <;> simp [String.toList_append, hname]

/-- The path to a name is refused only for a zero or for its length. -/
theorem check_join (directory : Path) {name : String} (h : IsPlainName name) :
    (directory.join name).check =
      if (directory.join name).hasZero then .error .zeroInPath
      else if pathLimit < (directory.join name).text.utf8ByteSize then .error .nameTooLong
      else .ok () := by
  rw [Path.check, if_neg (text_join_ne_empty directory h)]
  rfl

namespace FileSystem

/-- A path leads to the directory at `home`. -/
structure LeadsTo (fs : FileSystem) (path : Path) (home : Location) : Prop where
  walk_eq : fs.walk path.origin path.steps = .ok home
  isDirectory : fs.get? home = some .directory

/-- A path leads to one place. -/
theorem LeadsTo.unique {fs : FileSystem} {path : Path} {home other : Location}
    (h : fs.LeadsTo path home) (hother : fs.LeadsTo path other) : home = other :=
  Except.ok.inj (h.walk_eq.symm.trans hother.walk_eq)

/-- A path leads to the same directory as long as the directories are the same. -/
theorem LeadsTo.of_same {before after : FileSystem} {path : Path} {home : Location}
    (h : before.LeadsTo path home) (hsame : SameDirectories before after) :
    after.LeadsTo path home :=
  ⟨walk_of_same hsame h.walk_eq, (hsame home).mp h.isDirectory⟩

/-- A walk in two parts goes on from where the first part arrives. -/
theorem walk_append (fs : FileSystem) (place : Location) (first second : List Step) :
    fs.walk place (first ++ second) = (fs.walk place first).bind (fs.walk · second) := by
  induction first generalizing place with
  | nil => rfl
  | cons step rest ih =>
      simp only [List.cons_append, walk]
      cases fs.get? place with
      | none => rfl
      | some entry =>
          cases entry with
          | file content => rfl
          | directory =>
              cases step with
              | here => exact ih _
              | slash => exact ih _
              | up => exact ih _
              | name name =>
                  simp only
                  split
                  · rfl
                  · exact ih _

/-- Whether a name in a directory can be reached at all, whatever is there. -/
def reach (directory : Path) (name : String) : Except Refusal Unit := do
  (directory.join name).check
  if nameLimit < name.utf8ByteSize then throw .nameTooLong

variable {fs : FileSystem} {directory : Path} {home : Location} {name : String}

/-- A name can be reached if the path to it can be handed over and it is not too long. -/
theorem reach_eq_ok :
    reach directory name = .ok () ↔
      (directory.join name).check = .ok () ∧ ¬ nameLimit < name.utf8ByteSize := by
  unfold reach
  cases (directory.join name).check with
  | error refusal => simp [bind, Except.bind]
  | ok _ =>
      by_cases hlong : nameLimit < name.utf8ByteSize <;>
        simp [hlong, bind, Except.bind, throw, throwThe, MonadExceptOf.throw, pure, Except.pure]

/-- A path to a name in a directory that leads somewhere goes through the directory. -/
theorem leadsTo_of_resolve_join {place : Location} (hname : IsPlainName name)
    (h : fs.resolve (directory.join name) = .ok place) :
    ∃ home, fs.LeadsTo directory home ∧ reach directory name = .ok () ∧
      place = home ++ [name] := by
  obtain ⟨hcheck, hwalk⟩ := resolve_eq_ok.mp h
  obtain ⟨horigin, hsteps⟩ := join_plain directory hname
  rw [horigin, hsteps, walk_append] at hwalk
  -- The walk to the name is one to the directory and a last step.
  cases hhome : fs.walk directory.origin directory.steps with
  | error refusal => simp [hhome, Except.bind] at hwalk
  | ok home =>
      simp only [hhome, Except.bind, walk] at hwalk
      split at hwalk
      · cases hwalk
      · cases hwalk
      · next hdirectory =>
          split at hwalk
          · cases hwalk
          · next hshort =>
              cases hwalk
              exact ⟨home, ⟨hhome, hdirectory⟩, reach_eq_ok.mpr ⟨hcheck, hshort⟩, rfl⟩

/-- The path to a name in a directory leads to the place of the name. -/
theorem resolve_join (hhome : fs.LeadsTo directory home) (hname : IsPlainName name) :
    fs.resolve (directory.join name) = (reach directory name).map fun _ => home ++ [name] := by
  obtain ⟨horigin, hsteps⟩ := join_plain directory hname
  unfold resolve reach
  cases (directory.join name).check with
  | error refusal => rfl
  | ok _ =>
      simp only [bind, Except.bind, horigin, hsteps, walk_append, hhome.walk_eq, walk,
        hhome.isDirectory]
      split <;> rfl

/-- What keeps a path from leading to a file that can be written: it leads nowhere, or to a
directory. -/
def obstacle? (fs : FileSystem) (path : Path) : Option Refusal :=
  match fs.resolve path with
  | .error refusal => some refusal
  | .ok place => if fs.get? place = some .directory then some .isDirectory else none

/-- A path leads to a place where a file is or can be. -/
def Unobstructed (fs : FileSystem) (path : Path) : Prop :=
  ∃ place, fs.resolve path = .ok place ∧ fs.get? place ≠ some .directory

/-- Only what a path leads to can be in the way. -/
theorem obstacle?_of_look {after : FileSystem} {path : Path} (h : after.look path = fs.look path) :
    after.obstacle? path = fs.obstacle? path := by
  have hlook (files : FileSystem) : files.obstacle? path =
      match files.look path with
      | .error refusal => some refusal
      | .ok entry => if entry = some .directory then some .isDirectory else none := by
    unfold obstacle? look
    cases files.resolve path <;> rfl
  rw [hlook, hlook, h]

/-- Nothing is in the way of a path if it has no obstacle. -/
theorem obstacle?_eq_none {path : Path} : fs.obstacle? path = none ↔ fs.Unobstructed path := by
  unfold obstacle? Unobstructed
  cases fs.resolve path with
  | error refusal => simp
  | ok place => simp

instance (fs : FileSystem) (path : Path) : Decidable (fs.Unobstructed path) :=
  decidable_of_iff _ obstacle?_eq_none

/-- The obstacle of a name in a directory is that it cannot be reached or that a directory has it.
-/
theorem obstacle?_join (hhome : fs.LeadsTo directory home) (hname : IsPlainName name) :
    fs.obstacle? (directory.join name) =
      match reach directory name with
      | .error refusal => some refusal
      | .ok _ =>
        if fs.get? (home ++ [name]) = some .directory then some .isDirectory else none := by
  rw [obstacle?, resolve_join hhome hname]
  cases reach directory name <;> rfl

/-- What stands in the way stays as long as the directories do. -/
theorem obstacle?_of_same {after : FileSystem} (hhome : fs.LeadsTo directory home)
    (hname : IsPlainName name) (hsame : SameDirectories fs after) :
    after.obstacle? (directory.join name) = fs.obstacle? (directory.join name) := by
  rw [obstacle?_join hhome hname, obstacle?_join (hhome.of_same hsame) hname]
  simp only [hsame (home ++ [name])]

/-- The path to a name in a directory leads to what is there, if the name can be reached. -/
theorem look_join (hhome : fs.LeadsTo directory home) (hname : IsPlainName name) :
    fs.look (directory.join name) =
      (reach directory name).map fun _ => fs.get? (home ++ [name]) := by
  rw [look, resolve_join hhome hname]
  cases reach directory name <;> rfl

/-- With nothing in the way a path leads to its name in the directory. -/
theorem resolve_of_obstacle?_eq_none (hhome : fs.LeadsTo directory home)
    (hname : IsPlainName name) (hfree : fs.obstacle? (directory.join name) = none) :
    reach directory name = .ok () ∧ fs.resolve (directory.join name) = .ok (home ++ [name]) ∧
      fs.get? (home ++ [name]) ≠ some .directory := by
  rw [obstacle?_join hhome hname] at hfree
  rw [resolve_join hhome hname]
  cases hreach : reach directory name with
  | error refusal =>
      rw [hreach] at hfree
      cases hfree
  | ok _ =>
      rw [hreach] at hfree
      refine ⟨rfl, rfl, fun hdirectory => ?_⟩
      simp [hdirectory] at hfree

/-- A name in a directory is not refused as missing. -/
theorem reach_ne_notFound (directory : Path) (h : IsPlainName name) :
    reach directory name ≠ .error .notFound := by
  unfold reach
  rw [check_join directory h]
  simp only [bind, Except.bind, throw, throwThe, MonadExceptOf.throw, pure, Except.pure]
  by_cases hzero : (directory.join name).hasZero = true
  · simp [hzero]
  · by_cases hlong : pathLimit < (directory.join name).text.utf8ByteSize
    · simp [hzero, hlong]
    · by_cases hname : nameLimit < name.utf8ByteSize <;> simp [hzero, hlong, hname]

/-- The directory of a name is where the path to the directory leads. -/
theorem parentOf_join (hhome : fs.LeadsTo directory home) (hname : IsPlainName name) :
    fs.parentOf (directory.join name) =
      (directory.join name).check.map fun _ => (home, some name) := by
  have horigin := (join_plain directory hname).1
  have hsplit := split?_join directory hname
  unfold parentOf
  cases (directory.join name).check with
  | error refusal => rfl
  | ok _ => simp [bind, Except.bind, hsplit, horigin, hhome.walk_eq, hhome.isDirectory, pure,
      Except.pure, Except.map]

end FileSystem

end TableReplica.Files

namespace TableReplica.Apply

open Files Wire

/-- Whether a text is the name of a table: bytes that a changeset may hold spell it. -/
def IsTableName (table : String) : Prop :=
  ∃ raw, parseTableName raw = .ok table

/-- A byte of a table name is the code of a lower case letter. -/
theorem isLower_of_isLowerLetter {byte : UInt8} (h : isLowerLetter byte = true) :
    (Char.ofNat byte.toNat).isLower = true := by
  have hbounds : 0x61 ≤ byte.toNat ∧ byte.toNat ≤ 0x7a := by
    simpa [isLowerLetter, UInt8.le_iff_toNat_le] using h
  -- The byte is the code of its letter, so the bounds carry over.
  have hvalid : byte.toNat.isValidChar := .inl (by omega)
  have hvalue : (Char.ofNat byte.toNat).val.toNat = byte.toNat := by
    simp [Char.ofNat, hvalid, Char.ofNatAux]
  simp only [Char.isLower, Bool.and_eq_true, decide_eq_true_eq, ge_iff_le, UInt32.le_iff_toNat_le,
    hvalue]
  exact hbounds

/-- The name of a table has only lower-case letters, and at least one. -/
theorem IsTableName.letters {table : String} (h : IsTableName table) :
    table.toList ≠ [] ∧ ∀ c ∈ table.toList, c.isLower = true := by
  obtain ⟨raw, hraw⟩ := h
  unfold parseTableName at hraw
  split at hraw
  · cases hraw
  · next hsome =>
      split at hraw
      · next hletters =>
          cases hraw
          rw [String.toList_ofList]
          refine ⟨by simpa using hsome, fun c hmem => ?_⟩
          obtain ⟨byte, hbyte, rfl⟩ := List.mem_map.mp hmem
          exact isLower_of_isLowerLetter (List.all_eq_true.mp hletters byte hbyte)
      · cases hraw

/-- A file that an apply uses. -/
inductive ReplicaFile where
  | data (table : String)
  | base (table : String) (letter : BaseLetter)
  | temp (table : String)
  | archive (startRevision : Nat)
  | lock
  deriving Repr, DecidableEq

namespace ReplicaFile

/-- The name of a file in the directory. -/
def name : ReplicaFile → String
  | data table => table ++ ".DB"
  | base table letter => table ++ ".base" ++ letter.text
  | temp table => table ++ ".tmp"
  | archive startRevision => archiveName startRevision
  | lock => lockFileName

/-- The path to a file. -/
def path (directory : Path) (file : ReplicaFile) : Path :=
  directory.join file.name

/-- A file that belongs to a table belongs to one with a name. -/
def Proper : ReplicaFile → Prop
  | data table => IsTableName table
  | base table _ => IsTableName table
  | temp table => IsTableName table
  | archive _ => True
  | lock => True

/-- What comes before the first dot. -/
def stem : ReplicaFile → List Char
  | data table => table.toList
  | base table _ => table.toList
  | temp table => table.toList
  | archive startRevision =>
    ['c', 'h', 'a', 'n', 'g', 'e', 's'] ++ Nat.toDigits 10 startRevision
  | lock => ['t', 'a', 'b', 'l', 'e', 'r', 'e', 'p', 'l']

/-- What comes from the first dot on. -/
def extension : ReplicaFile → List Char
  | data _ => ['.', 'D', 'B']
  | base _ .a => ['.', 'b', 'a', 's', 'e', 'A']
  | base _ .b => ['.', 'b', 'a', 's', 'e', 'B']
  | temp _ => ['.', 't', 'm', 'p']
  | archive _ => []
  | lock => ['.', 'l', 'o', 'c', 'k']

/-- A name is its stem followed by its extension. -/
theorem toList_name (file : ReplicaFile) : file.name.toList = file.stem ++ file.extension := by
  cases file with
  | data table => simp [name, stem, extension, String.toList_append]
  | base table letter =>
      cases letter <;> simp [name, stem, extension, String.toList_append, BaseLetter.text]
  | temp table => simp [name, stem, extension, String.toList_append]
  | archive startRevision =>
      simp [name, archiveName, stem, extension, String.toList_append, toString, Nat.toList_repr]
  | lock => rfl

/-- Neither a dot nor a slash is in front of the first dot. -/
theorem stem_ordinary {file : ReplicaFile} (h : file.Proper) {c : Char} (hmem : c ∈ file.stem) :
    c ≠ '.' ∧ c ≠ '/' := by
  have hletter {table : String} (htable : IsTableName table) (hc : c ∈ table.toList) :
      c ≠ '.' ∧ c ≠ '/' := by
    have hlower := htable.letters.2 c hc
    constructor <;> rintro rfl <;> exact absurd hlower (by decide)
  cases file with
  | data table => exact hletter h hmem
  | base table letter => exact hletter h hmem
  | temp table => exact hletter h hmem
  | archive startRevision =>
      rcases List.mem_append.mp hmem with hword | hdigit
      · constructor <;> rintro rfl <;> exact absurd hword (by decide)
      · have hdigit := Nat.isDigit_of_mem_toDigits (by decide) (by decide) hdigit
        constructor <;> rintro rfl <;> exact absurd hdigit (by decide)
  | lock => constructor <;> rintro rfl <;> exact absurd hmem (by decide)

/-- There is at most one dot. -/
theorem extension_ordinary (file : ReplicaFile) :
    '/' ∉ file.extension ∧ file.extension.takeWhile (· ≠ '.') = [] ∧
      file.extension.dropWhile (· ≠ '.') = file.extension := by
  cases file with
  | data table => simp [extension]
  | base table letter => cases letter <;> simp [extension]
  | temp table => simp [extension]
  | archive startRevision => simp [extension]
  | lock => simp [extension]

/-- The file names of a replica are plain. -/
theorem isPlainName {file : ReplicaFile} (h : file.Proper) : IsPlainName file.name := by
  rw [IsPlainName, toList_name]
  constructor
  · intro hslash
    rcases List.mem_append.mp hslash with hstem | hextension
    · exact (stem_ordinary h hstem).2 rfl
    · exact file.extension_ordinary.1 hextension
  · rw [List.length_append]
    cases file with
    | data table => simp [extension]
    | base table letter => cases letter <;> simp [extension]
    | temp table => simp [extension]
    | archive startRevision =>
        simp only [stem, List.length_append, List.length_cons]
        omega
    | lock => decide

/-- What comes before the first dot, and what comes from there on, can be told from the name. -/
theorem split_name {file : ReplicaFile} (h : file.Proper) :
    file.name.toList.takeWhile (· ≠ '.') = file.stem ∧
      file.name.toList.dropWhile (· ≠ '.') = file.extension := by
  have hstem : ∀ c ∈ file.stem, decide (c ≠ '.') = true := fun c hmem =>
    decide_eq_true (stem_ordinary h hmem).1
  obtain ⟨-, hnone, hall⟩ := file.extension_ordinary
  rw [toList_name, List.takeWhile_append_of_pos hstem, List.dropWhile_append_of_pos hstem, hnone,
    hall, List.append_nil]
  exact ⟨rfl, rfl⟩

/-- Different files have different names. -/
theorem name_inj {first second : ReplicaFile} (hfirst : first.Proper) (hsecond : second.Proper)
    (h : first.name = second.name) : first = second := by
  -- The stems agree and so do the extensions, of which no two kinds of files have the same.
  obtain ⟨hstem, hextension⟩ := split_name hfirst
  rw [h, (split_name hsecond).1] at hstem
  rw [h, (split_name hsecond).2] at hextension
  have hdigits {m n : Nat} (hsame : Nat.toDigits 10 m = Nat.toDigits 10 n) : m = n :=
    calc
      m = Nat.ofDigitChars 10 (Nat.toDigits 10 m) 0 := Nat.ofDigitChars_ten_toDigits.symm
      _ = Nat.ofDigitChars 10 (Nat.toDigits 10 n) 0 := by rw [hsame]
      _ = n := Nat.ofDigitChars_ten_toDigits
  rcases first with _ | ⟨_, _ | _⟩ | _ | _ | _ <;> rcases second with _ | ⟨_, _ | _⟩ | _ | _ | _ <;>
    simp_all [stem, extension, String.toList_inj]
  exact hdigits hstem.symm

/-- Different files have different names. -/
theorem name_ne {first second : ReplicaFile} (hfirst : first.Proper) (hsecond : second.Proper)
    (hne : first ≠ second) : first.name ≠ second.name :=
  fun heq => hne (name_inj hfirst hsecond heq)

/-- Different files have different paths. -/
theorem path_inj {directory : Path} {first second : ReplicaFile} (hfirst : first.Proper)
    (hsecond : second.Proper) (h : first.path directory = second.path directory) :
    first = second := by
  have hsteps : directory.steps ++ [.name first.name] = directory.steps ++ [.name second.name] := by
    rw [← (join_plain directory (isPlainName hfirst)).2,
      ← (join_plain directory (isPlainName hsecond)).2]
    exact congrArg Path.steps h
  have hname : [Step.name first.name] = [.name second.name] := List.append_cancel_left hsteps
  exact name_inj hfirst hsecond (Step.name.inj (List.head_eq_of_cons_eq hname))

/-- The paths of different files lead to different places. -/
theorem place_inj {fs : FileSystem} {directory : Path} {first second : ReplicaFile}
    (hfirst : first.Proper) (hsecond : second.Proper) {place : Location}
    (hplace : fs.resolve (first.path directory) = .ok place)
    (hother : fs.resolve (second.path directory) = .ok place) : first = second := by
  obtain ⟨home, hhome, -, rfl⟩ :=
    FileSystem.leadsTo_of_resolve_join (isPlainName hfirst) hplace
  obtain ⟨other, hleads, -, hsame⟩ :=
    FileSystem.leadsTo_of_resolve_join (isPlainName hsecond) hother
  rw [hleads.unique hhome] at hsame
  have hname : [first.name] = [second.name] := List.append_cancel_left hsame
  exact name_inj hfirst hsecond (List.head_eq_of_cons_eq hname)

/-- The unobstructed path of a file leads to its name in the directory, where no directory is. -/
theorem resolve_of_unobstructed {fs : FileSystem} {directory : Path} {home : Location}
    (hhome : fs.LeadsTo directory home) {file : ReplicaFile} (hfile : file.Proper)
    (hclear : fs.Unobstructed (file.path directory)) :
    fs.resolve (file.path directory) = .ok (home ++ [file.name]) ∧
      fs.get? (home ++ [file.name]) ≠ some .directory := by
  obtain ⟨-, hplace⟩ := FileSystem.resolve_of_obstacle?_eq_none hhome (isPlainName hfile)
    (FileSystem.obstacle?_eq_none.mpr hclear)
  exact hplace

end ReplicaFile

/-- The name of the lock file is plain. -/
theorem isPlainName_lockFileName : IsPlainName lockFileName :=
  ReplicaFile.isPlainName (show ReplicaFile.lock.Proper from trivial)

/-- So is the name of an archive. -/
theorem isPlainName_archiveName (start : Nat) : IsPlainName (archiveName start) := by
  have hfile : (ReplicaFile.archive start).Proper := trivial
  have hname := ReplicaFile.isPlainName hfile
  exact hname

end TableReplica.Apply
