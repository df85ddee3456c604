import TableReplica.Proofs.Footprints
import TableReplica.Proofs.Format.Grammar
import TableReplica.Proofs.Plan.Following

/-!
# Base files are replaced as a whole or not at all

A base file chunk either gives its base file the content that it announces or leaves both base files
of the table alone. `Replacing` tells the ways it can come out: the replacement succeeds, the stream
does not hold all of the content, the temporary file cannot be opened, or the base file is in the
way of the rename. `applyBaseFile_replaces` says that there are no others, whatever the directory
holds. In none of them is a temporary file left that was opened.
-/

namespace TableReplica.Apply

open Files Transport Wire Format

/-- What comes of a base file chunk from a cursor with a store. -/
inductive Replacing (directory : Path) (table : String) (cursor : Cursor) (store : Store) :
    EStateM.Result ReplicaError Session Nat → Prop where
  /-- The base file holds what the stream announces, whatever it held, and the temporary file is
  gone. -/
  | replaced (letter : BaseLetter) (payload : Payload) (rest : Bytes) (last : Cursor)
      (done : Store) :
      cursor.ahead = letterByte letter :: (payload.bytes ++ rest) →
      last.ahead = rest →
      done.files.look (baseFilePath directory table letter) =
        .ok (some (.file (.ofBytes payload.content))) →
      done.files.look (tempFilePath directory table) = .ok none →
      Keeps directory [.temp table, .base table letter] store done →
      Replacing directory table cursor store (.ok payload.content.length (done.session last))
  /-- The stream holds no letter with all of a content, and no file changes but the archive. -/
  | incomplete (error : ReplicaError) (last : Cursor) (done : Store) :
      (∀ letter (payload : Payload) rest,
        cursor.ahead ≠ letterByte letter :: (payload.bytes ++ rest)) →
      Keeps directory [] store done →
      Replacing directory table cursor store (.error error (done.session last))
  /-- The temporary file cannot be opened, and no file changes but the archive. -/
  | unopened (letter : BaseLetter) (payload : Payload) (rest : Bytes) (refusal : Refusal)
      (last : Cursor) (done : Store) :
      cursor.ahead = letterByte letter :: (payload.bytes ++ rest) →
      store.files.obstacle? (tempFilePath directory table) = some refusal →
      Keeps directory [] store done →
      Replacing directory table cursor store
        (.error (.storage .openFile (tempFilePath directory table) refusal) (done.session last))
  /-- The base file is in the way of the rename and stays what it is. The temporary file, which was
  opened, is gone. -/
  | refused (letter : BaseLetter) (payload : Payload) (rest : Bytes) (refusal : Refusal)
      (last : Cursor) (done : Store) :
      cursor.ahead = letterByte letter :: (payload.bytes ++ rest) →
      store.files.obstacle? (tempFilePath directory table) = none →
      store.files.obstacle? (baseFilePath directory table letter) = some refusal →
      done.files.look (tempFilePath directory table) = .ok none →
      Keeps directory [.temp table] store done →
      Replacing directory table cursor store
        (.error (.storage .updateBaseFile (baseFilePath directory table letter) refusal)
          (done.session last))

section

variable {directory : Path} {table : String} {store : Store} {cursor : Cursor}

/-- Reading a letter that is ahead comes to the size. -/
theorem applyBaseFile_of_letter (directory : Path) (table : String) (store : Store)
    {letter : BaseLetter} {more : Bytes} (hahead : cursor.ahead = letterByte letter :: more) :
    ∃ lettered : Cursor, lettered.ahead = more ∧
      applyBaseFile directory table (store.session cursor) =
        (do
          let size ← readUint "base file size"
          if maxPayloadSize < size then
            reject (.payloadTooLarge "base file" size maxPayloadSize)
          else
            let content ← take "base file contents" size
            changeFiles (replaceBaseFile directory table letter content)
            return size : Action Nat) (store.session lettered) := by
  obtain ⟨lettered, hletter, hafter⟩ := Cursor.readByte_of_ahead "base file letter" hahead
  refine ⟨lettered, congrArg Position.ahead hafter, ?_⟩
  have hdemand : demand (.ok letter) (store.session lettered) = .ok letter _ := rfl
  unfold applyBaseFile
  rw [readByte, bind_of_ok (read_session_ok hletter store), ofByte_letterByte]
  exact bind_of_ok hdemand

/-- Reading a letter and a size that are ahead comes to the content. -/
theorem applyBaseFile_of_size (directory : Path) (table : String) (store : Store)
    {letter : BaseLetter} {size : Numeral} {rest : Bytes}
    (hahead : cursor.ahead = letterByte letter :: (size.spelling ++ rest)) :
    ∃ sized : Cursor, sized.ahead = rest ∧
      applyBaseFile directory table (store.session cursor) =
        (if maxPayloadSize < size.value then
          reject (.payloadTooLarge "base file" size.value maxPayloadSize)
        else do
          let content ← take "base file contents" size.value
          changeFiles (replaceBaseFile directory table letter content)
          return size.value : Action Nat) (store.session sized) := by
  obtain ⟨lettered, hnext, hrun⟩ := applyBaseFile_of_letter directory table store hahead
  obtain ⟨sized, hsize, hposition, -⟩ := readUint_of_ahead "base file size" size hnext
  refine ⟨sized, congrArg Position.ahead hposition, hrun.trans ?_⟩
  exact bind_of_ok (read_session_ok hsize store)

/-- With a letter ahead but no size a chunk fails. -/
theorem applyBaseFile_of_unsized (directory : Path) (table : String) (store : Store)
    {letter : BaseLetter} {more : Bytes} (hahead : cursor.ahead = letterByte letter :: more)
    (hnone : ∀ (size : Numeral) (rest : Bytes), more ≠ size.spelling ++ rest) :
    ∃ error last,
      applyBaseFile directory table (store.session cursor) = .error error (store.session last) := by
  obtain ⟨lettered, hnext, hrun⟩ := applyBaseFile_of_letter directory table store hahead
  obtain ⟨error, last, hsize⟩ := readUint_of_none "base file size" (hnext ▸ hnone)
  exact ⟨error, last, hrun.trans (bind_of_error (read_session_error hsize store))⟩

/-- With no letter ahead a chunk fails. -/
theorem applyBaseFile_of_unlettered (directory : Path) (table : String) (store : Store)
    (hnone : ∀ letter more, cursor.ahead ≠ letterByte letter :: more) :
    ∃ error last,
      applyBaseFile directory table (store.session cursor) = .error error (store.session last) := by
  cases hahead : cursor.ahead with
  | nil =>
      obtain ⟨error, last, hread⟩ := Cursor.readByte_of_nil "base file letter" hahead
      exact ⟨error, last, bind_of_error (read_session_error hread store)⟩
  | cons byte more =>
      obtain ⟨last, hread, -⟩ := Cursor.readByte_of_ahead "base file letter" hahead
      cases hletter : BaseLetter.ofByte byte with
      | ok letter => exact absurd (letterByte_of_ofByte hletter ▸ hahead) (hnone letter more)
      | error error =>
          refine ⟨.protocol error, last, ?_⟩
          unfold applyBaseFile
          rw [readByte, bind_of_ok (read_session_ok hread store), hletter]
          rfl

/-- Where no letter has all of a content after it, a chunk fails, and no file changes but the
archive. -/
theorem applyBaseFile_of_incomplete (hapart : store.Apart directory)
    (h : ∀ letter (payload : Payload) rest,
      cursor.ahead ≠ letterByte letter :: (payload.bytes ++ rest)) :
    ∃ error last done, applyBaseFile directory table (store.session cursor) =
        .error error (done.session last) ∧ Keeps directory [] store done := by
  by_cases hletter : ∃ letter more, cursor.ahead = letterByte letter :: more
  case neg =>
      obtain ⟨error, last, hrun⟩ := applyBaseFile_of_unlettered directory table store
        fun letter more hahead => hletter ⟨letter, more, hahead⟩
      exact ⟨error, last, store, hrun, .refl directory store⟩
  obtain ⟨letter, more, hahead⟩ := hletter
  by_cases hsize : ∃ (size : Numeral) (rest : Bytes), more = size.spelling ++ rest
  case neg =>
      obtain ⟨error, last, hrun⟩ := applyBaseFile_of_unsized directory table store hahead
        fun size rest hmore => hsize ⟨size, rest, hmore⟩
      exact ⟨error, last, store, hrun, .refl directory store⟩
  obtain ⟨size, rest, rfl⟩ := hsize
  obtain ⟨sized, hrest, hrun⟩ := applyBaseFile_of_size directory table store hahead
  rw [hrun]
  by_cases hlarge : maxPayloadSize < size.value
  · rw [if_pos hlarge]
    exact ⟨_, sized, store, rfl, .refl directory store⟩
  · rw [if_neg hlarge]
    rcases Nat.lt_or_ge rest.length size.value with hshort | hlong
    · obtain ⟨last, hfailed⟩ := take_of_short "base file contents" (hrest.symm ▸ hshort)
      exact ⟨_, last, store.afterCommit sized, bind_of_error (hfailed store),
        .afterCommit hapart sized⟩
    · -- All of the content is there, which cannot be.
      have hcount : (rest.take size.value).length = size.value := List.length_take_of_le hlong
      have hpayload : cursor.ahead = letterByte letter ::
          ((Payload.mk size (rest.take size.value) hcount.symm (Nat.not_lt.mp hlarge)).bytes ++
            rest.drop size.value) := by
        rw [Payload.bytes, List.append_assoc, List.take_append_drop]
        exact hahead
      exact absurd hpayload (h _ _ _)

/-- Where one has, the chunk comes to what replacing the base file comes to. -/
theorem applyBaseFile_of_complete (directory : Path) (table : String) (store : Store)
    {letter : BaseLetter} {payload : Payload} {rest : Bytes}
    (hahead : cursor.ahead = letterByte letter :: (payload.bytes ++ rest)) :
    ∃ sized last : Cursor, last.ahead = rest ∧
      applyBaseFile directory table (store.session cursor) =
        (do
          changeFiles (replaceBaseFile directory table letter payload.content)
          return payload.size.value : Action Nat)
          ((store.taken sized payload.content).session last) := by
  rw [Payload.bytes, List.append_assoc] at hahead
  obtain ⟨sized, hrest, hrun⟩ := applyBaseFile_of_size directory table store hahead
  obtain ⟨last, htake, hposition, -⟩ :=
    take_of_ahead "base file contents" hrest payload.counts.symm
  refine ⟨sized, last, congrArg Position.ahead hposition, ?_⟩
  rw [hrun, if_neg (Nat.not_lt.mpr payload.small)]
  exact bind_of_ok (htake store)

end

/-- What a name leads to after edits of its directory. -/
theorem look_of_edited {directory : Path} {home : Location} {edits : List Edit}
    {before after : FileSystem} (hhome : before.LeadsTo directory home)
    (hedited : Edited home edits before after) {file : ReplicaFile} (hfile : file.Proper)
    (hfree : before.obstacle? (file.path directory) = none) :
    after.look (file.path directory) =
      .ok (Change.run (Edit.changesAt file.name edits) (before.get? (home ++ [file.name]))) := by
  obtain ⟨hresolve, -⟩ := ReplicaFile.resolve_of_unobstructed hhome hfile
    (FileSystem.obstacle?_eq_none.mp hfree)
  rw [FileSystem.look_of_resolve (FileSystem.resolve_of_same hedited.sameDirectories hresolve),
    hedited.inside]

section

variable {directory : Path} {table : String} {home : Location} {letter : BaseLetter}
  {content : Bytes} {before : Store} {after : FileSystem}

/-- After a replacement the base file has its content, and there is no temporary file. -/
theorem look_of_replaced (hhome : before.files.LeadsTo directory home) (htable : IsTableName table)
    (htemp : before.files.obstacle? (tempFilePath directory table) = none)
    (hbase : before.files.obstacle? (baseFilePath directory table letter) = none)
    (hedited : Edited home [clearing table, replacing table letter content] before.files after) :
    after.look (baseFilePath directory table letter) = .ok (some (.file (.ofBytes content))) ∧
      after.look (tempFilePath directory table) = .ok none ∧
      Keeps directory [.temp table, .base table letter] before { before with files := after } := by
  have hproperTemp : (ReplicaFile.temp table).Proper := htable
  have hproperBase : (ReplicaFile.base table letter).Proper := htable
  have hne : (ReplicaFile.temp table).name ≠ (ReplicaFile.base table letter).name :=
    ReplicaFile.name_ne hproperTemp hproperBase (by simp)
  obtain ⟨htempPlace, htempClear⟩ := ReplicaFile.resolve_of_unobstructed hhome hproperTemp
    (FileSystem.obstacle?_eq_none.mp htemp)
  obtain ⟨hbasePlace, hbaseClear⟩ := ReplicaFile.resolve_of_unobstructed hhome hproperBase
    (FileSystem.obstacle?_eq_none.mp hbase)
  have hbaseChanges : Edit.changesAt (ReplicaFile.base table letter).name
      [clearing table, replacing table letter content] = [.fill (.ofBytes content)] := by
    simp [Edit.changesAt, clearing, replacing, hne]
  have htempChanges : Edit.changesAt (ReplicaFile.temp table).name
      [clearing table, replacing table letter content] = [.remove] := by
    simp [Edit.changesAt, clearing, replacing, Ne.symm hne]
  refine ⟨?_, ?_, .of_edited hhome hedited fun edit hmem => ?_⟩
  · refine (look_of_edited hhome hedited hproperBase hbase).trans (congrArg Except.ok ?_)
    rw [hbaseChanges]
    exact Change.apply_fill _ hbaseClear
  · refine (look_of_edited hhome hedited hproperTemp htemp).trans (congrArg Except.ok ?_)
    rw [htempChanges]
    exact Change.apply_remove htempClear
  · simp only [List.mem_cons, List.not_mem_nil, or_false] at hmem
    rcases hmem with rfl | rfl
    · exact ⟨.temp table, by simp, hproperTemp, rfl, htempPlace⟩
    · exact ⟨.base table letter, by simp, hproperBase, rfl, hbasePlace⟩

/-- After a refused rename there is no temporary file. -/
theorem look_of_cleared (hhome : before.files.LeadsTo directory home) (htable : IsTableName table)
    (htemp : before.files.obstacle? (tempFilePath directory table) = none)
    (hedited : Edited home [clearing table] before.files after) :
    after.look (tempFilePath directory table) = .ok none ∧
      Keeps directory [.temp table] before { before with files := after } := by
  have hproper : (ReplicaFile.temp table).Proper := htable
  obtain ⟨hplace, hclear⟩ := ReplicaFile.resolve_of_unobstructed hhome hproper
    (FileSystem.obstacle?_eq_none.mp htemp)
  have hchanges : Edit.changesAt (ReplicaFile.temp table).name [clearing table] = [.remove] := by
    simp [Edit.changesAt, clearing]
  refine ⟨?_, .of_edited hhome hedited fun edit hmem => ?_⟩
  · refine (look_of_edited hhome hedited hproper htemp).trans (congrArg Except.ok ?_)
    rw [hchanges]
    exact Change.apply_remove hclear
  · rw [List.mem_singleton.mp hmem]
    exact ⟨.temp table, by simp, hproper, rfl, hplace⟩

end

section

variable {operation : FileSystem → Except ReplicaError Unit × FileSystem} {next : Unit → Action Nat}
  {session : Session} {files : FileSystem}

/-- What follows a change of the files finds them changed. -/
theorem changeFiles_bind_ok (h : operation session.files = (.ok (), files)) :
    (changeFiles operation >>= next) session = next () { session with files } :=
  bind_of_ok (by simp only [changeFiles, h])

/-- A change of the files that fails may leave changes behind. -/
theorem changeFiles_bind_error {error : ReplicaError}
    (h : operation session.files = (.error error, files)) :
    (changeFiles operation >>= next) session = .error error { session with files } :=
  bind_of_error (by simp only [changeFiles, h])

end

/-- What comes of a chunk whose content has been taken off the stream. -/
theorem replacing_of_taken {directory : Path} {table : String} (htable : IsTableName table)
    {store : Store} (hapart : store.Apart directory) {cursor sized last : Cursor}
    {letter : BaseLetter} {payload : Payload} {rest : Bytes}
    (hahead : cursor.ahead = letterByte letter :: (payload.bytes ++ rest))
    (hlast : last.ahead = rest) :
    Replacing directory table cursor store
      ((do
        changeFiles (replaceBaseFile directory table letter payload.content)
        return payload.size.value : Action Nat)
        ((store.taken sized payload.content).session last)) := by
  have hproperTemp : (ReplicaFile.temp table).Proper := htable
  have hproperBase : (ReplicaFile.base table letter).Proper := htable
  have htaken : Keeps directory [] store (store.taken sized payload.content) :=
    .taken hapart sized payload.content
  have htempSame := htaken.obstacle? hproperTemp (by simp) (by simp)
  have hbaseSame := htaken.obstacle? hproperBase (by simp) (by simp)
  change _ = store.files.obstacle? (tempFilePath directory table) at htempSame
  change _ = store.files.obstacle? (baseFilePath directory table letter) at hbaseSame
  generalize store.taken sized payload.content = taken at htaken htempSame hbaseSame
  cases htemp : taken.files.obstacle? (tempFilePath directory table) with
  | some refusal =>
      rw [changeFiles_bind_error (replaceBaseFile_of_obstacle htemp letter payload.content)]
      exact .unopened letter payload rest refusal last taken hahead (htempSame.symm.trans htemp)
        htaken
  | none =>
      -- The temporary file is in a directory, since there is a place for it.
      obtain ⟨place, hplace, -⟩ := FileSystem.obstacle?_eq_none.mp htemp
      obtain ⟨home, hhome, -, -⟩ :=
        FileSystem.leadsTo_of_resolve_join (ReplicaFile.isPlainName hproperTemp) hplace
      have hreplaced := replaced hhome htable letter payload.content
      cases hresult : replaceBaseFile directory table letter payload.content taken.files with
      | mk outcome after =>
          rw [hresult] at hreplaced
          cases hreplaced with
          | done _ _ hbase hedited _ =>
              obtain ⟨hheld, hgone, hkeeps⟩ := look_of_replaced hhome htable htemp hbase hedited
              rw [changeFiles_bind_ok hresult, payload.counts]
              exact .replaced letter payload rest last { taken with files := after } hahead hlast
                hheld hgone (htaken.trans_of_nil (by simp [hproperTemp, hproperBase]) hkeeps)
          | unprepared refusal hobstacle =>
              rw [htemp] at hobstacle
              cases hobstacle
          | kept refusal _ _ hbase hedited _ =>
              obtain ⟨hgone, hkeeps⟩ := look_of_cleared hhome htable htemp hedited
              rw [changeFiles_bind_error hresult]
              exact .refused letter payload rest refusal last { taken with files := after } hahead
                (htempSame.symm.trans htemp) (hbaseSame.symm.trans hbase) hgone
                (htaken.trans_of_nil (by simp [hproperTemp]) hkeeps)

/-- A base file chunk for any table replaces its base file as a whole or not at all. -/
theorem applyBaseFile_replaces (directory : Path) {table : String} (htable : IsTableName table)
    (cursor : Cursor) {store : Store} (hapart : store.Apart directory) :
    Replacing directory table cursor store
      (applyBaseFile directory table (store.session cursor)) := by
  by_cases hcomplete : ∃ (letter : BaseLetter) (payload : Payload) (rest : Bytes),
      cursor.ahead = letterByte letter :: (payload.bytes ++ rest)
  · obtain ⟨letter, payload, rest, hahead⟩ := hcomplete
    obtain ⟨sized, last, hlast, hrun⟩ := applyBaseFile_of_complete directory table store hahead
    rw [hrun]
    exact replacing_of_taken htable hapart hahead hlast
  · have hnone (letter : BaseLetter) (payload : Payload) (rest : Bytes) :
        cursor.ahead ≠ letterByte letter :: (payload.bytes ++ rest) :=
      fun hahead => hcomplete ⟨letter, payload, rest, hahead⟩
    obtain ⟨error, last, done, hrun, hkeeps⟩ := applyBaseFile_of_incomplete hapart hnone
    rw [hrun]
    exact .incomplete error last done hnone hkeeps

/-- Three bytes as the new content of a base file. -/
def samplePayload : Payload where
  size := { value := 3, spelling := [0x83, 0], spells := by decide }
  content := [7, 8, 9]
  counts := rfl
  small := by decide

/-- A chunk that has them for the base file `B`, after its table name. -/
def samplePayloadReads : Cursor where
  incoming := [.data (letterByte .b :: samplePayload.bytes), .stall]

/-- A directory with an old base file, a directory in place of the other base file, a temporary file
that was left behind and an archive that was just opened. -/
def samplePayloadStore : Store where
  archive := { target := some (archivePath (.ofText [] "/") 6, ["changes6"]) }
  files.entries :=
    [(["a.baseB"], .file (.ofBytes [1, 2])), (["a.baseA"], .directory),
      (["a.tmp"], .file (.ofBytes [3])), (["changes6"], .file .empty)]

/-- The sample replaces the old base file, leaves the directory alone and clears the temporary file
away. -/
theorem applyBaseFile_replaces_sample :
    ∃ (last : Cursor) (done : Store),
      applyBaseFile (.ofText [] "/") "a" (samplePayloadStore.session samplePayloadReads) =
        .ok 3 (done.session last) ∧
      done.files.look (baseFilePath (.ofText [] "/") "a" .b) =
        .ok (some (.file (.ofBytes [7, 8, 9]))) ∧
      done.files.look (baseFilePath (.ofText [] "/") "a" .a) = .ok (some .directory) ∧
      done.files.look (tempFilePath (.ofText [] "/") "a") = .ok none := by
  have htable : IsTableName "a" := ⟨[0x61], rfl⟩
  have hother : (ReplicaFile.base "a" .a).Proper := htable
  have hapart : samplePayloadStore.Apart (.ofText [] "/") :=
    Store.apart_of_archive rfl (by decide +kernel)
  have hahead : samplePayloadReads.ahead = letterByte .b :: (samplePayload.bytes ++ []) := by decide
  have hsample {letter : BaseLetter} {payload : Payload} {rest : Bytes}
      (h : samplePayloadReads.ahead = letterByte letter :: (payload.bytes ++ rest)) :
      letter = .b ∧ payload = samplePayload := by
    rw [hahead] at h
    obtain ⟨hletter, hpayload⟩ := List.cons.inj h
    cases letter with
    | a => exact absurd hletter (by decide)
    | b => exact ⟨rfl, (Payload.unambiguous hpayload).1.symm⟩
  have htemp : samplePayloadStore.files.obstacle? (tempFilePath (.ofText [] "/") "a") = none := by
    decide +kernel
  have hbase : samplePayloadStore.files.obstacle? (baseFilePath (.ofText [] "/") "a" .b) =
      none := by decide +kernel
  have hreplaces := applyBaseFile_replaces (.ofText [] "/") htable samplePayloadReads hapart
  generalize applyBaseFile (.ofText [] "/") "a" (samplePayloadStore.session samplePayloadReads) =
    result at hreplaces ⊢
  cases hreplaces with
  | replaced letter payload rest last done hread _ hheld hgone hkeeps =>
      obtain ⟨rfl, rfl⟩ := hsample hread
      refine ⟨last, done, rfl, hheld, ?_, hgone⟩
      exact (hkeeps.files (.base "a" .a) hother (by simp) (by simp)).trans (by decide +kernel)
  | incomplete error last done hnone _ => exact absurd hahead (hnone _ _ _)
  | unopened _ _ _ refusal _ _ _ hobstacle _ =>
      rw [htemp] at hobstacle
      cases hobstacle
  | refused letter payload rest refusal _ _ hread _ hobstacle _ _ =>
      obtain ⟨rfl, -⟩ := hsample hread
      rw [hbase] at hobstacle
      cases hobstacle

end TableReplica.Apply
