import TableReplica.Proofs.Machine.Mirroring
import TableReplica.Proofs.Progress
import TableReplica.Proofs.Twins

/-!
# Applying a changeset without a fault

The bytes of a changeset are chosen by whoever sends it. They can make an apply fail with an error,
but not with a difference below zero, a sum that does not fit its width, a shift out of a word, an
index outside the buffer or any other `Fault`. The program of the machine mirrors the apply along
its definitions, from the header to the footer, on every stream of less than `2 ^ 63` bytes. Its
counters fit their words because a chunk, a block and a byte of a block each take a byte of the
stream. The main result is `apply_faultless`.
-/

namespace TableReplica.Machine

open Files Transport Wire Apply

/-- What has been consumed can be counted in a word. -/
theorem InBounds.consumed_lt {cursor : Cursor} {store : Store} (h : InBounds cursor store) :
    cursor.position.consumed < wordBound := by
  have hheld := h.held_lt
  show cursor.committed + cursor.pending.length < wordBound
  omega

/-- An archive has no bytes when it is made. -/
theorem written_of_create {directory : Path} {startRevision : Nat} {retention : UInt32}
    {files opened : FileSystem} {archive : Archive}
    (h : Archive.create directory startRevision retention files = .ok (archive, opened)) :
    archive.written = 0 := by
  unfold Archive.create at h
  split at h
  · cases h
    rfl
  · simp only at h
    split at h
    · cases h
    · cases h
      rfl

/-- A size within the bound is an index on every machine. -/
theorem narrow_size {size : Nat} (h : ¬ maxPayloadSize < size) : narrow sizeBound size = .ok size :=
  narrow_of_lt (lt_of_le_of_lt (not_lt.mp h) (by decide))

namespace Mirrors

/-- The checked program reads the header as the apply does. -/
theorem readHeader : Mirrors 0 Machine.readHeader Apply.readHeader :=
  bind (readAhead _ _) fun _ => bind (skipLiteral _) fun _ => bind (require _ _) fun _ =>
    bind (readUint _) fun _ => bind (require _ _) fun _ => bind (readUint _) fun _ =>
      bind (readUint _) fun _ => bind (require _ _) fun _ => bind (readByte _) fun _ =>
        bind (require _ _) fun _ => pure _

/-- It opens the changeset in the same way. -/
theorem openChangeset (replicator : Replicator) :
    Mirrors 0 (Machine.openChangeset replicator) replicator.openChangeset := by
  unfold Machine.openChangeset Replicator.openChangeset
  refine bind readHeader fun header => ?_
  simp only [← bind_assoc _ Machine.attachArchive, ← bind_assoc _ Apply.attachArchive]
  exact bind (openArchive written_of_create) fun _ => bind commit fun _ => pure _

/-- It checks the revision in the same way. -/
theorem checkRevision (replicator : Replicator) (trusted : Bool) (startRevision : Nat) :
    Mirrors 0 (Machine.checkRevision replicator trusted startRevision)
      (replicator.checkRevision trusted startRevision) := by
  unfold Machine.checkRevision Replicator.checkRevision checkAnswer
  split
  · cases replicator.revisions replicator.directory with
    | error error => exact throw error
    | ok current => exact require _ _
  · exact pure ()

/-- It reads a table name in the same way. -/
theorem readTable : Mirrors 0 Machine.readTable Apply.readTable :=
  bind (readString _ _) fun _ => bind (demand _) fun _ => bind commit fun _ => pure _

/-- It applies a base file in the same way. -/
theorem applyBaseFile (directory : Path) (table : String) :
    Mirrors 0 (Machine.applyBaseFile directory table) (Apply.applyBaseFile directory table) := by
  refine bind (readByte _) fun _ => bind (demand _) fun _ => bind (readUint _) fun size => ?_
  split
  · exact reject _
  · next hsize =>
      exact check (narrow_size hsize) (bind (take _ _) fun _ =>
        bind (changeFiles _) fun _ => pure _)

/-- It reads what follows the end tag in the same way. -/
theorem readFooter (endRevision : Nat) :
    Mirrors 0 (Machine.readFooter endRevision) (Apply.readFooter endRevision) :=
  bind (readUint _) fun _ => bind (require _ _) fun _ => bind expectEnd fun _ =>
    bind commit fun _ => pure _

end Mirrors

/-- What the blocks of a chunk have counted takes bytes of the stream after the first `start`. -/
structure Counted (start : Nat) (stats : BlockStats) (cursor : Cursor) : Prop where
  blocks_le : start + stats.blocks ≤ cursor.position.consumed
  bytes_le : start + stats.bytes ≤ cursor.position.consumed

/-- A round of blocks counts a block, which takes the bytes of its number and its contents. -/
theorem Mirrored.blockRound {start blockSize : Nat} (hsize : ¬ maxPayloadSize < blockSize)
    (path : Path) (place : Location) (stats : BlockStats) {cursor : Cursor} {store : Store}
    (hbounds : InBounds cursor store) (hcounted : Counted start stats cursor) :
    Mirrored (Sum.elim (Counted start) (Counted start))
      (Machine.blockRound path place blockSize stats (store.memory cursor))
      (Apply.blockRound path place blockSize stats (store.session cursor)) := by
  refine (Mirrors.readUint _ hbounds).bind fun number after store hinside hgrown => ?_
  obtain ⟨hblocks, hbytes⟩ := hcounted
  cases number with
  | zero =>
      rw [if_pos rfl, Apply.applyNumbered, bind_assoc]
      refine (Mirrors.commit hinside).bind fun _ last store hlast hmore => ?_
      have hkept : Counted start stats last := ⟨by omega, by omega⟩
      exact .value (Sum.inr stats) last store hlast hkept
  | succ index =>
      have hindex : sub (index + 1) 1 = .ok index := sub_of_le (Nat.le_add_left 1 index)
      rw [if_neg (Nat.succ_ne_zero index), check_bind hindex, Apply.applyNumbered]
      simp only [mul?]
      by_cases hoffset : index * blockSize < wordBound
      · rw [if_pos hoffset, if_neg (not_le.mpr hoffset)]
        simp only [bind_assoc]
        rw [check_bind (narrow_size hsize)]
        refine (Mirrors.take _ _ hinside).bind fun block middle store hmiddle htaken => ?_
        refine (Mirrors.onFiles _ hmiddle).bind fun _ last store hlast hwritten => ?_
        have hfits := hlast.consumed_lt
        rw [check_bind (add_of_lt (show stats.blocks + 1 < wordBound by omega)),
          check_bind (add_of_lt (show stats.bytes + blockSize < wordBound by omega))]
        have hkept : Counted start { blocks := stats.blocks + 1, bytes := stats.bytes + blockSize }
            last := ⟨by simp only; omega, by simp only; omega⟩
        exact .value (Sum.inl _) last store hlast hkept
      · rw [if_neg hoffset, if_pos (not_lt.mp hoffset)]
        exact .error _ after store

/-- The blocks of a chunk take no fewer bytes of the stream than they count. -/
theorem Mirrored.applyBlocks (directory : Path) (table : String) {cursor : Cursor} {store : Store}
    (hbounds : InBounds cursor store) :
    Mirrored (Counted cursor.position.consumed)
      (Machine.applyBlocks directory table (store.memory cursor))
      (Apply.applyBlocks directory table (store.session cursor)) := by
  refine (Mirrors.readUint _ hbounds).bind fun blockSize after store hinside hgrown => ?_
  by_cases hsize : maxPayloadSize < blockSize
  · rw [if_pos hsize, if_pos hsize]
    exact .error _ after store
  · rw [if_neg hsize, if_neg hsize]
    refine (Mirrors.commit hinside).bind fun _ middle store hmiddle hcommitted => ?_
    refine (Mirrors.onFiles _ hmiddle).bind fun place last store hlast hopened => ?_
    have hstart : Counted cursor.position.consumed {} last :=
      ⟨by simp only; omega, by simp only; omega⟩
    exact .loop (fun _ => applyBlockList_eq _ _ _ _) (fun _ => Consuming.blockRound _ _ _ _)
      (fun stats _ _ hbounds hcounted =>
        Mirrored.blockRound hsize _ place stats hbounds hcounted) {} hlast hstart

/-- What the chunks of a changeset have counted takes bytes of the stream. -/
structure Tallied (stats : ChunkStats) (cursor : Cursor) : Prop where
  baseFiles_le : stats.baseFiles ≤ cursor.position.consumed
  blocks_le : stats.blocks ≤ cursor.position.consumed

/-- A round of chunks counts a base file, which takes the byte of its tag, or some blocks. -/
theorem Mirrored.chunkRound (directory : Path) (stats : ChunkStats) {cursor : Cursor}
    {store : Store} (hbounds : InBounds cursor store) (htallied : Tallied stats cursor) :
    Mirrored (Sum.elim Tallied Tallied)
      (Machine.chunkRound directory stats (store.memory cursor))
      (Apply.chunkRound directory stats (store.session cursor)) := by
  refine (Mirrors.readByte _ hbounds).bind fun tag after store hinside hgrown => ?_
  obtain ⟨hbaseFiles, hblocks⟩ := htallied
  unfold Apply.applyTagged
  cases ChunkKind.ofByte? tag with
  | none => exact .error _ after store
  | some kind =>
      cases kind with
      | finish =>
          have hkept : Tallied stats after := ⟨by omega, by omega⟩
          exact .value (Sum.inr stats) after store hinside hkept
      | baseFile =>
          simp only [reduceCtorEq, if_false, bind_assoc]
          refine (Mirrors.readTable hinside).bind fun table middle store hmiddle hnamed => ?_
          refine (Mirrors.applyBaseFile _ _ hmiddle).bind fun _ last store hlast happlied => ?_
          have hfits := hlast.consumed_lt
          rw [check_bind (add_of_lt (show stats.baseFiles + 1 < wordBound by omega))]
          have hkept : Tallied (stats.add { baseFiles := 1 }) last :=
            ⟨by simp only [ChunkStats.add]; omega, by simp only [ChunkStats.add]; omega⟩
          exact .value (Sum.inl _) last store hlast hkept
      | blocks =>
          simp only [reduceCtorEq, if_false, bind_assoc]
          refine (Mirrors.readTable hinside).bind fun table middle store hmiddle hnamed => ?_
          refine (Mirrored.applyBlocks _ _ hmiddle).bind fun more last store hlast hcounted => ?_
          obtain ⟨hmore, -⟩ := hcounted
          have hfits := hlast.consumed_lt
          rw [check_bind (add_of_lt (show stats.blocks + more.blocks < wordBound by omega))]
          have hkept : Tallied (stats.add { blocks := more.blocks }) last :=
            ⟨by simp only [ChunkStats.add]; omega, by simp only [ChunkStats.add]; omega⟩
          exact .value (Sum.inl _) last store hlast hkept

/-- The chunks of a changeset take no fewer bytes of the stream than they count. -/
theorem Mirrored.chunks (directory : Path) {cursor : Cursor} {store : Store}
    (hbounds : InBounds cursor store) :
    Mirrored Tallied
      (Machine.loop Memory.supply (Machine.chunkRound directory) {} (store.memory cursor))
      (Apply.applyChunks directory {} (store.session cursor)) :=
  .loop (fun _ => applyChunks_eq _ _) (fun _ => Consuming.chunkRound _ _)
    (fun stats _ _ hbounds htallied => Mirrored.chunkRound directory stats hbounds htallied) {}
    hbounds ⟨Nat.zero_le _, Nat.zero_le _⟩

/-- What an apply did is told without a fault. -/
theorem Mirrored.summarize (header : Header) (stats : ChunkStats) (required : Nat)
    {cursor : Cursor} {store : Store} (hbounds : InBounds cursor store) :
    Mirrored (fun _ _ => True) (Machine.summarize header stats required (store.memory cursor))
      (.ok (Apply.summarize header stats required (store.session cursor))
        (store.session cursor)) := by
  have hsum : add wordBound (store.memory cursor).consumed (store.memory cursor).decoded =
      .ok cursor.consumed :=
    add_of_lt hbounds.consumed_lt
  have htotal : (totalConsumed : ProgramOf Failure Nat) (store.memory cursor) =
      .ok cursor.consumed (store.memory cursor) := by
    show check (add wordBound (store.memory cursor).consumed (store.memory cursor).decoded) _ = _
    rw [hsum]
    rfl
  show Mirrored _ ((totalConsumed >>= _ : ProgramOf Failure Applied) (store.memory cursor)) _
  rw [bind_of_ok htotal]
  exact .value _ cursor store hbounds trivial

/-- Under the lock a changeset is applied without a fault. -/
theorem Mirrored.applyLocked (replicator : Replicator) (trusted : Bool) {cursor : Cursor}
    {store : Store} (hbounds : InBounds cursor store) :
    Mirrored (fun _ _ => True) (Machine.applyLocked replicator trusted (store.memory cursor))
      (replicator.applyLocked trusted (store.session cursor)) := by
  refine ((Mirrors.openChangeset replicator hbounds).during .readingHeader).bind
    fun header _ _ hopened _ => ?_
  refine ((Mirrors.checkRevision replicator trusted _ hopened).during .checkingRevision).bind
    fun _ _ _ hchecked _ => ?_
  refine ((Mirrored.chunks _ hchecked).during .readingChunks).bind fun stats _ _ happlied _ => ?_
  refine ((Mirrors.readFooter _ happlied).during .readingFooter).bind fun required _ _ hread _ => ?_
  exact .summarize header stats required hread

/-- On a connection that delivers less than `2 ^ 63` bytes an apply is no fault. -/
theorem apply_eq {connection : Connection} (hsize : connection.delivery.bytes.length < 2 ^ 63)
    (replicator : Replicator) (trusted : Bool) (files : FileSystem) :
    apply replicator trusted connection files =
      .ok (replicator.apply trusted connection files) := by
  show apply _ _ _ _ = .ok (replicator.applySession trusted (.start connection files))
  unfold apply Replicator.applySession Replicator.underLock
  have hfiles : (Session.start connection files).files = files := rfl
  rw [hfiles]
  rcases acquireLock replicator.directory files with error | ⟨lock, locked⟩
  · rfl
  · have hbounds : InBounds { incoming := connection } { files := locked } :=
      ⟨by simpa [Cursor.position, Position.extent, Position.consumed, Cursor.ahead] using hsize,
        Nat.le_refl 0⟩
    have hmirrored : Mirrored _
        (applyLocked replicator trusted { incoming := connection, files := locked })
        (replicator.applyLocked trusted { Session.start connection files with files := locked }) :=
      Mirrored.applyLocked replicator trusted hbounds
    simp only
    generalize applyLocked replicator trusted _ = result at hmirrored ⊢
    generalize replicator.applyLocked trusted _ = answer at hmirrored ⊢
    cases hmirrored with
    | value applied last store _ _ => rfl
    | error failure last store => rfl

/-- On a connection that delivers less than `2 ^ 63` bytes, whatever they are, an apply meets no
fault at any point: the program of the machine, where each operation that may be a fault is checked,
comes to what the apply comes to. So do the reading of integers and byte strings from any buffer and
the writing of integers. -/
theorem apply_faultless {connection : Connection}
    (hsize : connection.delivery.bytes.length < 2 ^ 63) (replicator : Replicator) (trusted : Bool)
    (files : FileSystem) :
    apply replicator trusted connection files =
        .ok (replicator.apply trusted connection files) ∧
      (∀ buffer, unpackUint buffer = .ok (Wire.unpackUint buffer) ∧
        unpackString buffer = .ok (Wire.unpackString buffer)) ∧
      ∀ value, packUint value = .ok (Wire.packUint value) :=
  ⟨apply_eq hsize replicator trusted files,
    fun buffer => ⟨unpackUint_eq buffer, unpackString_eq buffer⟩, packUint_eq⟩

/-- The machine counts what there is in `sampleStream`. -/
theorem apply_faultless_sample :
    (apply Replicator.sampleReplicator false [.data Replicator.sampleStream.bytes] {}).map
        Outcome.result =
      .ok (.ok {
        startRevision := 4
        endRevision := 5
        requiredRevision := 5
        stats :=
          { baseFiles := 0, blocksWritten := 1, bytesConsumed := 27, bytesArchived := 27 } }) := by
  have happlied : (Replicator.sampleReplicator.apply false
      [.data Replicator.sampleStream.bytes] {}).result =
        .ok {
          startRevision := 4
          endRevision := 5
          requiredRevision := 5
          stats :=
            { baseFiles := 0, blocksWritten := 1, bytesConsumed := 27, bytesArchived := 27 } } := by
    decide +kernel
  rw [(apply_faultless (by decide) Replicator.sampleReplicator false {}).1]
  exact congrArg Except.ok happlied

end TableReplica.Machine
