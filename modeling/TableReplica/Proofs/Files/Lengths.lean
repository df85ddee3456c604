import TableReplica.Proofs.Files.Renaming
import TableReplica.Proofs.Format.Numerals

/-!
# How long paths are

The path to a file is refused for its length where that of another in the same directory is not.
None of the names holds a zero, so in a directory whose lock file can be reached it is only the
length of its name or of its path that can keep a file from being reached (`reach_iff`), and the
name of an archive is never too long (`archiveName_short`). A directory called by many slashes has a
path as long as one likes (`rootBySlashes`).
-/

namespace TableReplica.Files

/-- A character takes four bytes at most. -/
theorem utf8ByteSize_le (text : String) : text.utf8ByteSize ≤ 4 * text.toList.length := by
  have hlist (chars : List Char) : String.utf8Len chars ≤ 4 * chars.length := by
    induction chars with
    | nil => simp
    | cons c rest ih =>
        have hc := Char.utf8Size_le_four c
        simp only [String.utf8Len_cons, List.length_cons]
        omega
  have htext := hlist text.toList
  rwa [← String.utf8ByteSize_ofList, String.ofList_toList] at htext

/-- A path that can be handed over is no longer than a path may be. -/
theorem utf8ByteSize_le_of_check {path : Path} (h : path.check = .ok ()) :
    path.text.utf8ByteSize ≤ pathLimit := by
  unfold Path.check at h
  split at h
  · cases h
  · split at h
    · cases h
    · split at h
      · cases h
      · next hshort => exact Nat.not_lt.mp hshort

/-- At most a slash is put between a path and a name. -/
theorem toList_joinText (text below : String) :
    ∃ between, between ⊆ ['/'] ∧
      (Path.joinText text below).toList = text.toList ++ (between ++ below.toList) := by
  unfold Path.joinText
  split
  · exact ⟨[], by simp, by simp [String.toList_append]⟩
  · exact ⟨['/'], List.Subset.refl _, by simp [String.toList_append]⟩

/-- The path to a name has a zero where the path to the directory or the name has one. -/
theorem hasZero_join (directory : Path) {name : String} (h : IsPlainName name) :
    (directory.join name).hasZero = true ↔ directory.hasZero = true ∨ '\x00' ∈ name.toList := by
  obtain ⟨between, hslash, htext⟩ := toList_joinText directory.text name
  have hbetween : '\x00' ∉ between := fun hmem =>
    absurd (List.mem_singleton.mp (hslash hmem)) (by decide)
  simp [Path.hasZero, text_join directory h, htext, hbetween]

/-- The root, called by a number of slashes. -/
def rootBySlashes (count : Nat) : Path :=
  .ofText [] (String.ofList (List.replicate (count + 1) '/'))

/-- Between slashes there are only pieces without characters. -/
theorem splitSlash_replicate (count : Nat) :
    splitSlash (List.replicate count '/') = List.replicate (count + 1) [] := by
  induction count with
  | zero => rfl
  | succ count ih =>
      rw [List.replicate_succ, splitSlash, if_pos rfl, ih]
      rfl

theorem steps_rootBySlashes (count : Nat) : (rootBySlashes count).steps = [.slash] := by
  have hpieces : (List.replicate (count + 2) ([] : List Char)).filterMap pieceStep? = [] :=
    List.filterMap_eq_nil_iff.mpr fun piece hmem => by
      rw [List.eq_of_mem_replicate hmem]
      rfl
  show stepsOf (String.ofList (List.replicate (count + 1) '/')).toList = _
  rw [String.toList_ofList, stepsOf, splitSlash_replicate, hpieces, List.getLast?_replicate]
  rfl

/-- Slashes lead to the root. -/
theorem leadsTo_rootBySlashes (fs : FileSystem) (count : Nat) :
    fs.LeadsTo (rootBySlashes count) [] := by
  have horigin : (rootBySlashes count).origin = [] := by simp [rootBySlashes, Path.ofText]
  refine ⟨?_, fs.get?_root⟩
  rw [horigin, steps_rootBySlashes, FileSystem.walk, FileSystem.get?_root]
  rfl

theorem hasZero_rootBySlashes (count : Nat) : (rootBySlashes count).hasZero = false := by
  simp [Path.hasZero, rootBySlashes, Path.ofText, List.mem_replicate]

/-- No slash is put between the slashes and a name. -/
theorem utf8ByteSize_rootBySlashes_join (count : Nat) {name : String} (h : IsPlainName name) :
    ((rootBySlashes count).join name).text.utf8ByteSize = count + 1 + name.utf8ByteSize := by
  have hlist (count : Nat) : String.utf8Len (List.replicate count '/') = count := by
    induction count with
    | zero => rfl
    | succ count ih =>
        rw [List.replicate_succ, String.utf8Len_cons, ih]
        rfl
  have htext : Path.joinText (rootBySlashes count).text name =
      (rootBySlashes count).text ++ name := by
    refine if_pos ?_
    simp [rootBySlashes, Path.ofText, List.getLast?_replicate]
  rw [text_join _ h, htext, String.utf8ByteSize_append]
  show (String.ofList _).utf8ByteSize + _ = _
  rw [String.utf8ByteSize_ofList, hlist]

end TableReplica.Files

namespace TableReplica.Apply

open Files Wire Format

namespace ReplicaFile

/-- The name of a file of a replica holds no zero. -/
theorem zero_notMem_name {file : ReplicaFile} (h : file.Proper) : '\x00' ∉ file.name.toList := by
  rw [toList_name, List.mem_append, not_or]
  have hletter {table : String} (htable : IsTableName table) : '\x00' ∉ table.toList :=
    fun hmem => absurd (htable.letters.2 _ hmem) (by decide)
  have hword {word : List Char} (hnone : '\x00' ∉ word) (number : Nat) :
      '\x00' ∉ word ++ Nat.toDigits 10 number := by
    rw [List.mem_append, not_or]
    exact ⟨hnone, fun hmem =>
      absurd (Nat.isDigit_of_mem_toDigits (by decide) (by decide) hmem) (by decide)⟩
  cases file with
  | data table => exact ⟨hletter h, by simp [extension]⟩
  | base table letter => exact ⟨hletter h, by cases letter <;> simp [extension]⟩
  | temp table => exact ⟨hletter h, by simp [extension]⟩
  | archive start => exact ⟨hword (by decide) start, by simp [extension]⟩
  | lock => exact ⟨by decide, by simp [extension]⟩

/-- In a directory whose lock file can be reached, the other files can be reached unless their names
or their paths are too long. -/
theorem reach_iff {file : ReplicaFile} (hfile : file.Proper) {directory : Path}
    (hlock : FileSystem.reach directory lockFileName = .ok ()) :
    FileSystem.reach directory file.name = .ok () ↔
      file.name.utf8ByteSize ≤ nameLimit ∧
        (file.path directory).text.utf8ByteSize ≤ pathLimit := by
  have hlockZero := FileSystem.hasZero_of_check (FileSystem.reach_eq_ok.mp hlock).1
  have hdirectory : ¬ directory.hasZero = true := fun hzero => by
    rw [(hasZero_join directory isPlainName_lockFileName).mpr (.inl hzero)] at hlockZero
    cases hlockZero
  have hzero : ¬ (directory.join file.name).hasZero = true := by
    rw [hasZero_join directory (isPlainName hfile), not_or]
    exact ⟨hdirectory, zero_notMem_name hfile⟩
  rw [FileSystem.reach_eq_ok, check_join directory (isPlainName hfile), if_neg hzero, and_comm,
    Nat.not_lt]
  refine and_congr_right fun _ => ?_
  show (if pathLimit < (file.path directory).text.utf8ByteSize then _ else _) = _ ↔ _
  split
  · next hlong => simpa using hlong
  · next hshort => simpa using hshort

/-- In a directory whose lock file can be reached, a file is obstructed just if its name or its path
is too long or a directory is in its place. -/
theorem unobstructed_iff {file : ReplicaFile} (hfile : file.Proper) {fs : FileSystem}
    {directory : Path} {home : Location} (hhome : fs.LeadsTo directory home)
    (hlock : FileSystem.reach directory lockFileName = .ok ()) :
    fs.Unobstructed (file.path directory) ↔
      file.name.utf8ByteSize ≤ nameLimit ∧
        (file.path directory).text.utf8ByteSize ≤ pathLimit ∧
          fs.isDirectory (file.path directory) = false := by
  have hresolve : fs.resolve (file.path directory) = _ :=
    FileSystem.resolve_join hhome (isPlainName hfile)
  rw [← and_assoc, ← reach_iff hfile hlock]
  unfold FileSystem.Unobstructed FileSystem.isDirectory
  rw [hresolve]
  cases FileSystem.reach directory file.name with
  | error refusal => simp [Except.map]
  | ok _ => simp [Except.map]

end ReplicaFile

/-- The name of an archive is no longer than a name may be. -/
theorem archiveName_short (revision : Numeral) :
    (archiveName revision.value).utf8ByteSize ≤ nameLimit := by
  have hname : (archiveName revision.value).toList =
      ['c', 'h', 'a', 'n', 'g', 'e', 's'] ++ Nat.toDigits 10 revision.value ++ [] :=
    (ReplicaFile.archive revision.value).toList_name
  have hvalue : revision.value < 10 ^ 22 := revision.value_lt.trans (by decide)
  have hdigits : (Nat.toDigits 10 revision.value).length ≤ 22 :=
    Nat.toDigits_length 10 _ 22 (by decide) hvalue
  have hlength : (archiveName revision.value).toList.length ≤ 29 := by
    simp only [hname, List.length_append, List.length_cons, List.length_nil]
    omega
  calc
    (archiveName revision.value).utf8ByteSize ≤ 4 * (archiveName revision.value).toList.length :=
      utf8ByteSize_le _
    _ ≤ 4 * 29 := Nat.mul_le_mul_left 4 hlength
    _ ≤ nameLimit := by decide

end TableReplica.Apply
