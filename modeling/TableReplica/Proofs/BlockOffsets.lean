import TableReplica.Proofs.Footprints
import TableReplica.Proofs.Format.Grammar
import TableReplica.Proofs.Plan.Editing
import TableReplica.Proofs.Plan.Following

/-!
# Where blocks land

The offset of a block is its index times the size of the blocks, and it is never anything else: an
offset that is no word is refused as soon as the number of the block has been read, one that is no
offset in a file once the block has been taken off the stream, and at any other the block lands
where it goes and nowhere else. `applyBlocks_meets` says so for any block of a chunk, whatever
blocks came before it.
-/

namespace TableReplica.Files

/-- What a file holds before and after a block landed in it. -/
structure Landed (offset : Nat) (block : Bytes) (before after : Content) : Prop where
  /-- The block is where it goes. -/
  inside : ∀ index (h : index < block.length), after.bytes[offset + index]? = some block[index]
  /-- No other byte has changed. -/
  outside : ∀ position < before.size, position < offset ∨ offset + block.length ≤ position →
    after.bytes[position]? = before.bytes[position]?
  /-- Zeros fill the gap between the old end and the block. -/
  gap : block ≠ [] → ∀ position < offset, before.size ≤ position → after.bytes[position]? = some 0
  /-- The file reaches to the end of the block, unless it was longer. -/
  size : block ≠ [] → after.size = max before.size (offset + block.length)
  /-- A block of no bytes changes nothing. -/
  empty : block = [] → after = before

namespace Content

/-- Within a file the byte at a position is one of those that the file holds. -/
theorem getElem?_bytes {content : Content} {position : Nat} (h : position < content.size) :
    content.bytes[position]? = some (content.byteAt position) := by
  rw [byteAt, List.getElem?_eq_getElem (by simpa using h)]
  rfl

/-- A write lands at its offset. -/
theorem landed_overwrite (content : Content) (offset : Nat) (block : Bytes) :
    Landed offset block content (content.overwrite offset block) := by
  have hbyte (position : Nat) := content.byteAt_overwrite { offset, data := block } position
  have hother {position : Nat} (h : position < offset ∨ offset + block.length ≤ position) :
      Patch.at? { offset, data := block } position = none :=
    Patch.at?_eq_none h
  by_cases hempty : block = []
  · subst hempty
    rw [overwrite_nil]
    exact ⟨fun index h => absurd h (Nat.not_lt_zero index), fun _ _ _ => rfl,
      fun h => absurd rfl h, fun h => absurd rfl h, fun _ => rfl⟩
  · have hsize := content.size_overwrite offset hempty
    have hsome : 0 < block.length := List.length_pos_iff.mpr hempty
    refine ⟨fun index h => ?_, fun position hheld h => ?_, fun _ position h hgap => ?_,
      fun _ => hsize, fun h => absurd h hempty⟩
    · rw [getElem?_bytes (by omega), hbyte]
      simp [Patch.at?, h]
    · rw [getElem?_bytes (by omega), getElem?_bytes hheld, hbyte, hother h]
      rfl
    · have hzero : content.byteAt position = 0 := by
        rw [byteAt, List.getElem?_eq_none (by simpa using hgap)]
        rfl
      rw [getElem?_bytes (by omega), hbyte, hother (.inl h), ← hzero]
      rfl

end Content

end TableReplica.Files

namespace TableReplica.Apply

open Files Transport Wire Format

/-- The write that puts a block where it goes in a file of blocks of this size. -/
def blockPatch (size : Nat) (block : Block) : Patch where
  offset := block.offset size
  data := block.content

/-- A chunk is about to read the number of a block. What it decoded is committed, and the data file,
which is open, is the only one that has changed since `start`. -/
structure AtNumber (directory : Path) (table : String) (place : Location) (start : Store)
    (content : Content) (position : Position) (head : Cursor) (store : Store) : Prop where
  position : head.position = position
  keeps : Keeps directory [.data table] start store
  place : store.files.resolve (dataFilePath directory table) = .ok place
  content : store.files.look (dataFilePath directory table) = .ok (some (.file content))

/-- What comes of a block from when its number has been read, by where its first byte would go. The
number was read with the store that is given, and left the cursor at `tagged`. -/
structure BlockMet (directory : Path) (table : String) (place : Location) (size number : Nat)
    (stats : BlockStats) (store : Store) (tagged : Cursor)
    (result : EStateM.Result ReplicaError Session BlockStats) : Prop where
  /-- An offset that is no word is refused on the spot: nothing is awaited, archived or consumed. -/
  overflow : wordBound ≤ (number - 1) * size →
    result = .error (.protocol (.blockOffsetOverflow (number - 1) size)) (store.session tagged)
  /-- Otherwise the block is waited for. If it does not come, no file changes but the archive. -/
  short : (number - 1) * size < wordBound → tagged.ahead.length < size →
    ∃ last done, Keeps directory [] store done ∧
      result = .error (tagged.ending.report (.truncated "block contents")) (done.session last)
  /-- An offset that is none in a file is refused once the block has been consumed and archived. No
  file changes but the archive. -/
  beyond : ∀ block rest, tagged.ahead = block ++ rest → block.length = size →
    offsetBound ≤ (number - 1) * size → (number - 1) * size < wordBound →
    ∃ last,
      last.position = { ahead := rest, pending := [], committed := tagged.consumed + size } ∧
      Keeps directory [] store (store.taken tagged block) ∧
      result = .error (.storage .seek (dataFilePath directory table) .invalid)
        ((store.taken tagged block).session last)
  /-- At any other offset the block lands in the data file, and the chunk goes on after it. -/
  lands : ∀ block rest, tagged.ahead = block ++ rest → block.length = size →
    (number - 1) * size < offsetBound →
    ∃ last done before after,
      last.position = { ahead := rest, pending := [], committed := tagged.consumed + size } ∧
      last.ending = tagged.ending ∧
      done = (store.taken tagged block).write place ((number - 1) * size) block ∧
      Keeps directory [.data table] store done ∧
      store.files.look (dataFilePath directory table) = .ok (some (.file before)) ∧
      done.files.look (dataFilePath directory table) = .ok (some (.file after)) ∧
      Landed ((number - 1) * size) block before after ∧
      result = applyBlockList (dataFilePath directory table) place size
        { blocks := stats.blocks + 1, bytes := stats.bytes + size } (done.session last)

section

variable {path : Path} {place : Location} {size number : Nat}

/-- A chunk goes on after a block. -/
theorem applyBlockList_of_ok {session after : Session} (stats : BlockStats)
    (h : applyBlock path place size session = .ok true after) :
    applyBlockList path place size stats session =
      applyBlockList path place size
        { blocks := stats.blocks + 1, bytes := stats.bytes + size } after := by
  rw [applyBlockList]
  split <;> simp_all

/-- A chunk fails where a block does. -/
theorem applyBlockList_of_error {session after : Session} {error : ReplicaError}
    (stats : BlockStats) (h : applyBlock path place size session = .error error after) :
    applyBlockList path place size stats session = .error error after := by
  rw [applyBlockList]
  split <;> simp_all

/-- A round of a chunk reads a number and goes on with it. -/
theorem applyBlock_of_number {head tagged : Cursor}
    (h : head.readUint "block number" = (.ok number, tagged)) (store : Store) :
    applyBlock path place size (store.session head) =
      applyNumbered path place size number (store.session tagged) :=
  bind_of_ok (read_session_ok h store)

variable (hnumber : number ≠ 0)

include hnumber

/-- An offset that is no word is refused at once. -/
theorem applyNumbered_of_overflow (h : wordBound ≤ (number - 1) * size) (session : Session) :
    applyNumbered path place size number session =
      .error (.protocol (.blockOffsetOverflow (number - 1) size)) session := by
  obtain ⟨index, rfl⟩ := Nat.exists_eq_succ_of_ne_zero hnumber
  unfold applyNumbered
  exact congrFun (if_pos h) session

/-- With any other offset the block is taken off the stream and then written. -/
theorem applyNumbered_of_word (h : (number - 1) * size < wordBound) :
    applyNumbered path place size number = do
      let block ← take "block contents" size
      onFiles (writeBlock path place ((number - 1) * size) block)
      return true := by
  obtain ⟨index, rfl⟩ := Nat.exists_eq_succ_of_ne_zero hnumber
  exact if_neg (Nat.not_le.mpr h)

variable {tagged last : Cursor} {store : Store} {block : Bytes}

/-- An offset that is none in a file is refused when the block has been taken. -/
theorem applyNumbered_of_beyond (hword : (number - 1) * size < wordBound)
    (hbeyond : offsetBound ≤ (number - 1) * size)
    (htake : take "block contents" size (store.session tagged) =
      .ok block ((store.taken tagged block).session last)) :
    applyNumbered path place size number (store.session tagged) =
      .error (.storage .seek path .invalid) ((store.taken tagged block).session last) := by
  rw [applyNumbered_of_word hnumber hword, bind_of_ok htake]
  exact onFiles_bind_error (by simp [writeBlock, hbeyond])

/-- At any other offset the block is written when it has been taken. -/
theorem applyNumbered_of_within (hwithin : (number - 1) * size < offsetBound)
    (htake : take "block contents" size (store.session tagged) =
      .ok block ((store.taken tagged block).session last)) :
    applyNumbered path place size number (store.session tagged) =
      .ok true
        (((store.taken tagged block).write place ((number - 1) * size) block).session last) := by
  have hword : (number - 1) * size < wordBound := hwithin.trans (by decide)
  rw [applyNumbered_of_word hnumber hword, bind_of_ok htake,
    onFiles_bind_ok (by rw [writeBlock, if_neg (Nat.not_le.mpr hwithin)])]
  rfl

end

section

variable {directory : Path} {table : String} {place : Location} {size : Nat} {store : Store}

/-- What the data file holds once a block was taken off the stream and written. -/
theorem look_written (htable : IsTableName table) (hapart : store.Apart directory)
    (hplace : store.files.resolve (dataFilePath directory table) = .ok place) {before : Content}
    (hbefore : store.files.look (dataFilePath directory table) = .ok (some (.file before)))
    (tagged : Cursor) (offset : Nat) (block : Bytes) :
    Keeps directory [.data table] store ((store.taken tagged block).write place offset block) ∧
      ((store.taken tagged block).write place offset block).files.look
        (dataFilePath directory table) = .ok (some (.file (before.overwrite offset block))) := by
  have hproper : (ReplicaFile.data table).Proper := htable
  have htaken : Keeps directory [] store (store.taken tagged block) := .taken hapart tagged block
  have hresolve : (store.taken tagged block).files.resolve (dataFilePath directory table) =
      .ok place := (htaken.resolve (.data table) hproper).trans hplace
  have hwritten : Keeps directory [.data table] (store.taken tagged block) _ :=
    .write hproper hresolve offset block
  refine ⟨htaken.trans_of_nil (by simpa using hproper) hwritten, ?_⟩
  have hheld : (store.taken tagged block).files.look (dataFilePath directory table) =
      .ok (some (.file before)) :=
    (htaken.files (.data table) hproper (by simp) (by simp)).trans hbefore
  rw [FileSystem.look_of_resolve hresolve] at hheld
  have hopen := (hwritten.resolve (.data table) hproper).trans hresolve
  refine (FileSystem.look_of_resolve hopen).trans ?_
  show Except.ok ((FileSystem.write _ _ _ _).get? place) = _
  rw [FileSystem.get?_write, if_pos rfl, Except.ok.inj hheld]
  rfl

variable {start : Store} {content : Content} {committed : Nat} {head : Cursor}

/-- A block that is announced is met as its offset tells. -/
theorem blockMet (htable : IsTableName table) (hapart : store.Apart directory)
    {position : Position}
    (hstart : AtNumber directory table place start content position head store) {number : Nat}
    (hnumber : number ≠ 0) {tagged : Cursor}
    (hread : head.readUint "block number" = (.ok number, tagged)) (stats : BlockStats) :
    BlockMet directory table place size number stats store tagged
      (applyBlockList (dataFilePath directory table) place size stats (store.session head)) := by
  have hround : applyBlock (dataFilePath directory table) place size (store.session head) = _ :=
    applyBlock_of_number hread store
  refine ⟨fun hoverflow => ?_, fun hword hshort => ?_,
    fun block rest hahead hlength hbeyond hword => ?_, fun block rest hahead hlength hwithin => ?_⟩
  · exact applyBlockList_of_error stats
      (hround.trans (applyNumbered_of_overflow hnumber hoverflow _))
  · obtain ⟨last, hfailed⟩ := take_of_short "block contents" hshort
    refine ⟨last, store.afterCommit tagged, .afterCommit hapart tagged, ?_⟩
    refine applyBlockList_of_error stats (hround.trans ?_)
    rw [applyNumbered_of_word hnumber hword]
    exact bind_of_error (hfailed store)
  · obtain ⟨last, htake, hposition, -⟩ := take_of_ahead "block contents" hahead hlength
    refine ⟨last, hposition, .taken hapart tagged block, ?_⟩
    exact applyBlockList_of_error stats
      (hround.trans (applyNumbered_of_beyond hnumber hword hbeyond (htake store)))
  · obtain ⟨last, htake, hposition, hending⟩ := take_of_ahead "block contents" hahead hlength
    obtain ⟨hkeeps, hafter⟩ :=
      look_written htable hapart hstart.place hstart.content tagged _ block
    refine ⟨last, _, content, _, hposition, hending, rfl, hkeeps, hstart.content, hafter,
      content.landed_overwrite _ _, ?_⟩
    exact applyBlockList_of_ok stats
      (hround.trans (applyNumbered_of_within hnumber hwithin (htake store)))

/-- A block that fits is written, and the chunk comes to the next number. -/
theorem atNumber_of_block (htable : IsTableName table) (hapart : start.Apart directory)
    {block : Block} (hfits : block.Fits size) {rest : Bytes}
    (hstart : AtNumber directory table place start content
      { ahead := block.bytes ++ rest, pending := [], committed } head store)
    (stats : BlockStats) :
    ∃ next done, applyBlockList (dataFilePath directory table) place size stats
        (store.session head) =
          applyBlockList (dataFilePath directory table) place size
            { blocks := stats.blocks + 1, bytes := stats.bytes + size } (done.session next) ∧
      AtNumber directory table place start (content.patched [blockPatch size block])
        { ahead := rest, pending := [], committed := committed + block.bytes.length }
        next done := by
  have hproper : (ReplicaFile.data table).Proper := htable
  have hahead : head.ahead = block.number.spelling ++ (block.content ++ rest) := by
    rw [← List.append_assoc]
    exact congrArg Position.ahead hstart.position
  obtain ⟨tagged, hread, htagged, -⟩ := readUint_of_ahead "block number" block.number hahead
  obtain ⟨last, htake, hlast, -⟩ := take_of_ahead "block contents"
    (show tagged.ahead = block.content ++ rest from congrArg Position.ahead htagged) hfits.whole
  have hround : applyBlock (dataFilePath directory table) place size (store.session head) = _ :=
    applyBlock_of_number hread store
  obtain ⟨hkeeps, hafter⟩ := look_written htable (hstart.keeps.apart hapart) hstart.place
    hstart.content tagged (block.offset size) block.content
  refine ⟨last, _, applyBlockList_of_ok stats (hround.trans
    (applyNumbered_of_within hfits.numbered hfits.within (htake store))), ?_, ?_, ?_, hafter⟩
  · have hdecoded : tagged.consumed = committed + block.number.spelling.length := by
      show tagged.position.committed + tagged.position.pending.length = _
      rw [htagged]
      show head.position.committed + (head.position.pending ++ block.number.spelling).length = _
      rw [hstart.position]
      rfl
    rw [hlast, hdecoded, Block.bytes, List.length_append, hfits.whole, Nat.add_assoc]
  · exact hstart.keeps.trans (by simpa using hproper) hkeeps
  · exact (hkeeps.resolve (.data table) hproper).trans hstart.place

/-- Blocks that fit are written one after the other. -/
theorem atNumber_of_blocks (htable : IsTableName table) (hapart : start.Apart directory)
    {blocks : List Block} (hfit : ∀ block ∈ blocks, block.Fits size) {rest : Bytes}
    (hstart : AtNumber directory table place start content
      { ahead := blocks.flatMap Block.bytes ++ rest, pending := [], committed } head store)
    (stats : BlockStats) :
    ∃ counts next done, applyBlockList (dataFilePath directory table) place size stats
        (store.session head) =
          applyBlockList (dataFilePath directory table) place size counts (done.session next) ∧
      AtNumber directory table place start (content.patched (blocks.map (blockPatch size)))
        { ahead := rest
          pending := []
          committed := committed + (blocks.flatMap Block.bytes).length } next done := by
  induction blocks generalizing store content committed head stats with
  | nil => exact ⟨stats, head, store, rfl, hstart⟩
  | cons block more ih =>
      rw [List.flatMap_cons, List.append_assoc] at hstart
      obtain ⟨middle, between, hblock, hnext⟩ :=
        atNumber_of_block htable hapart (hfit block List.mem_cons_self) hstart stats
      obtain ⟨counts, next, done, hmore, hlast⟩ :=
        ih (fun other hmem => hfit other (List.mem_cons_of_mem _ hmem)) hnext _
      refine ⟨counts, next, done, hblock.trans hmore, ?_⟩
      rw [List.flatMap_cons, List.length_append, ← Nat.add_assoc]
      exact hlast

/-- Opening the data file makes it if nothing is there, and changes nothing else. -/
theorem keeps_openDataFile (htable : IsTableName table)
    (hplace : store.files.resolve (dataFilePath directory table) = .ok place)
    (hfile : store.files.get? place ≠ some .directory) :
    ∃ opened, openDataFile (dataFilePath directory table) store.files = .ok (place, opened) ∧
      Keeps directory [.data table] store { store with files := opened } ∧
      opened.get? place = some (.file (Change.contentOf (store.files.get? place))) := by
  have hproper : (ReplicaFile.data table).Proper := htable
  have hname : IsPlainName (ReplicaFile.data table).name := ReplicaFile.isPlainName hproper
  obtain ⟨home, hhome, -, rfl⟩ := FileSystem.leadsTo_of_resolve_join hname hplace
  have hfree : store.files.obstacle? (dataFilePath directory table) = none :=
    FileSystem.obstacle?_eq_none.mpr ⟨_, hplace, hfile⟩
  obtain ⟨opened, hopened, hedited⟩ := edited_openDataFile hhome htable hfree
  refine ⟨opened, hopened, .of_edited hhome hedited fun edit hmem => ?_, ?_⟩
  · rw [List.mem_singleton.mp hmem]
    exact ⟨.data table, List.mem_singleton.mpr rfl, hproper, rfl, hplace⟩
  · rw [hedited.inside, Edit.changesAt_cons, if_pos rfl]
    show (Change.write { offset := 0, data := [] }).apply _ = _
    rw [Change.apply_write _ hfile, Content.overwrite_nil]

/-- A chunk whose data file can be opened comes to the number of its first block. -/
theorem atNumber_of_size (htable : IsTableName table) (hapart : store.Apart directory)
    (hplace : store.files.resolve (dataFilePath directory table) = .ok place)
    (hfile : store.files.get? place ≠ some .directory) {blockSize : Numeral}
    (hsmall : blockSize.value ≤ maxPayloadSize) {cursor : Cursor} {rest : Bytes}
    (hahead : cursor.ahead = blockSize.spelling ++ rest) :
    ∃ opened next, applyBlocks directory table (store.session cursor) =
        applyBlockList (dataFilePath directory table) place blockSize.value {}
          (opened.session next) ∧
      AtNumber directory table place store (Change.contentOf (store.files.get? place))
        { ahead := rest
          pending := []
          committed := cursor.consumed + blockSize.spelling.length } next opened := by
  have hproper : (ReplicaFile.data table).Proper := htable
  obtain ⟨sized, hread, hsized, -⟩ := readUint_of_ahead "blocksize" blockSize hahead
  -- Committing the size leaves the data file as it is.
  have hcommit : Keeps directory [] store (store.afterCommit sized) := .afterCommit hapart sized
  have hresolve : (store.afterCommit sized).files.resolve (dataFilePath directory table) =
      .ok place := (hcommit.resolve (.data table) hproper).trans hplace
  have hlook : (store.afterCommit sized).files.look (dataFilePath directory table) =
      store.files.look (dataFilePath directory table) :=
    hcommit.files (.data table) hproper (by simp) (by simp)
  rw [FileSystem.look_of_resolve hresolve, FileSystem.look_of_resolve hplace] at hlook
  have hsame := Except.ok.inj hlook
  obtain ⟨opened, hopened, hkeeps, hheld⟩ := keeps_openDataFile htable hresolve (hsame ▸ hfile)
  have hopen := (hkeeps.resolve (.data table) hproper).trans hresolve
  refine ⟨{ store.afterCommit sized with files := opened }, sized.afterCommit, ?_, ?_,
    hcommit.trans_of_nil (by simpa using hproper) hkeeps, hopen, ?_⟩
  · unfold applyBlocks
    rw [readUint, bind_of_ok (read_session_ok hread store), if_neg (Nat.not_lt.mpr hsmall),
      bind_of_ok (commit_session store sized)]
    exact onFiles_bind_ok hopened
  · rw [Cursor.position_afterCommit, hsized]
    simp [Position.commit, Cursor.consumed, Nat.add_assoc]
  · refine (FileSystem.look_of_resolve hopen).trans (congrArg Except.ok ?_)
    rw [← hsame]
    exact hheld

end

/-- Wherever the number of a block comes in a chunk, the block is met as its offset tells: the
blocks before it were written, nothing after its number has been looked at, and what comes of it is
`BlockMet`. -/
theorem applyBlocks_meets (directory : Path) {table : String} (htable : IsTableName table)
    {size number : Numeral} (hsmall : size.value ≤ maxPayloadSize) (hnumber : number.value ≠ 0)
    {earlier : List Block} (hfit : ∀ block ∈ earlier, block.Fits size.value) {cursor : Cursor}
    {rest : Bytes}
    (hahead : cursor.ahead =
      size.spelling ++ (earlier.flatMap Block.bytes ++ (number.spelling ++ rest)))
    {store : Store} (hapart : store.Apart directory)
    (hclear : store.files.Unobstructed (dataFilePath directory table)) :
    ∃ place old counts head reached tagged,
      store.files.look (dataFilePath directory table) = .ok old ∧
      AtNumber directory table place store
        ((Change.contentOf old).patched (earlier.map (blockPatch size.value)))
        { ahead := number.spelling ++ rest
          pending := []
          committed :=
            cursor.consumed + size.spelling.length + (earlier.flatMap Block.bytes).length }
        head reached ∧
      head.readUint "block number" = (.ok number.value, tagged) ∧
      tagged.position = { head.position with ahead := rest, pending := number.spelling } ∧
      BlockMet directory table place size.value number.value counts reached tagged
        (applyBlocks directory table (store.session cursor)) := by
  obtain ⟨place, hplace, hfile⟩ := hclear
  obtain ⟨opened, first, hopened, hfirst⟩ :=
    atNumber_of_size htable hapart hplace hfile hsmall hahead
  obtain ⟨counts, head, reached, hblocks, hhead⟩ :=
    atNumber_of_blocks htable hapart hfit hfirst {}
  have hnext : head.ahead = number.spelling ++ rest := congrArg Position.ahead hhead.position
  obtain ⟨tagged, hread, htagged, -⟩ := readUint_of_ahead "block number" number hnext
  refine ⟨place, _, counts, head, reached, tagged, FileSystem.look_of_resolve hplace, hhead, hread,
    ?_, ?_⟩
  · rw [htagged]
    show Position.mk rest (head.position.pending ++ number.spelling) head.position.committed = _
    rw [hhead.position]
    rfl
  · rw [hopened, hblocks]
    exact blockMet htable (hhead.keeps.apart hapart) hhead hnumber hread counts

/-- Six as the size of blocks, spelled in more bytes than it takes. -/
def sampleBlockSize : Numeral where
  value := 6
  spelling := [0x86, 0]
  spells := by decide

/-- The second block of a file. -/
def sampleSecondBlock : Block where
  number := { value := 2, spelling := [0x82, 0], spells := by decide }
  content := [1, 2, 3, 4, 5, 6]

/-- The greatest number that a block can have. -/
def lastBlockNumber : Numeral where
  value := 2 ^ 64 - 1
  spelling := [0xff, 0xff, 0xff, 0xff, 0xff, 0xff, 0xff, 0xff, 0xff, 1]
  spells := by decide

/-- A store at the root, with an archive that was just opened. -/
def sampleStore : Store where
  archive := { target := some (archivePath (.ofText [] "/") 6, ["changes6"]) }
  files := { entries := [(["changes6"], .file .empty)] }

/-- A chunk with these two blocks, after its table name. -/
def sampleBlockReads : Cursor where
  incoming :=
    [.data (sampleBlockSize.spelling ++ sampleSecondBlock.bytes), .data lastBlockNumber.spelling,
      .stall]

/-- The second block makes a new data file, with zeros in place of the first. The block with the
greatest number is refused after it. -/
theorem applyBlocks_meets_sample :
    ∃ (reached : Store) (tagged : Cursor),
      applyBlocks (.ofText [] "/") "a" (sampleStore.session sampleBlockReads) =
        .error (.protocol (.blockOffsetOverflow (2 ^ 64 - 2) 6)) (reached.session tagged) ∧
      reached.files.look (dataFilePath (.ofText [] "/") "a") =
        .ok (some (.file (.ofBytes [0, 0, 0, 0, 0, 0, 1, 2, 3, 4, 5, 6]))) := by
  have htable : IsTableName "a" := ⟨[0x61], rfl⟩
  have hapart : sampleStore.Apart (.ofText [] "/") :=
    Store.apart_of_archive rfl (by decide +kernel)
  have hfit : ∀ block ∈ [sampleSecondBlock], block.Fits sampleBlockSize.value := by
    intro block hmem
    rw [List.mem_singleton.mp hmem]
    exact ⟨by decide, rfl, by decide⟩
  have hahead : sampleBlockReads.ahead = sampleBlockSize.spelling ++
      ([sampleSecondBlock].flatMap Block.bytes ++ (lastBlockNumber.spelling ++ [])) := by decide
  have hnone : sampleStore.files.look (dataFilePath (.ofText [] "/") "a") = .ok none := by
    decide +kernel
  obtain ⟨place, old, counts, head, reached, tagged, hold, hhead, -, -, hmet⟩ :=
    applyBlocks_meets (.ofText [] "/") htable (show sampleBlockSize.value ≤ _ by decide)
      (show lastBlockNumber.value ≠ 0 by decide) hfit hahead hapart (by decide +kernel)
  refine ⟨reached, tagged, hmet.overflow (by decide), ?_⟩
  rw [hhead.content, Except.ok.inj (hold.symm.trans hnone)]
  decide +kernel

end TableReplica.Apply
