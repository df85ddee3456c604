import TableReplica.Proofs.Machine.Reading

/-!
# Programs that mirror actions

A program mirrors an action if, on a stream within the bounds, the two come out alike: with the same
value or the same error, the memory of the machine then holding what the session holds. A fault is
not alike to anything. `Mirrors` also counts the bytes of the stream that both have consumed if they
succeed, since the counters of a machine fit their words for the one reason that each thing counted
takes bytes of the stream. There is one rule for each way in which programs are put together and one
for each basic program.
-/

namespace TableReplica.Transport.Position

/-- Decoding bytes that are there consumes them. -/
theorem consumed_advance (position : Position) (length : Nat) :
    (position.advance length).consumed = position.consumed + min length position.ahead.length := by
  simp only [consumed, advance, List.length_append, List.length_take]
  omega

/-- Decoding moves bytes from ahead to behind. -/
theorem extent_advance (position : Position) (length : Nat) :
    (position.advance length).extent = position.extent := by
  rw [extent, consumed_advance, extent]
  simp only [advance, List.length_drop]
  omega

/-- What is archived was consumed before. -/
theorem consumed_commit (position : Position) : position.commit.consumed = position.consumed :=
  rfl

/-- Taking bytes that are there consumes them. -/
theorem consumed_take (position : Position) (length : Nat) :
    (position.take length).consumed = position.consumed + min length position.ahead.length := by
  simp only [consumed, take, List.length_take]
  omega

/-- Taking moves bytes from ahead to behind. -/
theorem extent_take (position : Position) (length : Nat) :
    (position.take length).extent = position.extent := by
  rw [extent, consumed_take, extent]
  simp only [take, List.length_drop]
  omega

end TableReplica.Transport.Position

namespace TableReplica.Machine

open Files Transport Wire Apply

/-- How a program and an action come out alike: with the same value within the bounds, as `promise`
says of it and the cursor, or with the same error. -/
inductive Mirrored {ε α : Type} (promise : α → Cursor → Prop) :
    EStateM.Result (Abort ε) Memory α → EStateM.Result ε Session α → Prop where
  | value (value : α) (cursor : Cursor) (store : Store) :
      InBounds cursor store → promise value cursor →
        Mirrored promise (.ok value (store.memory cursor)) (.ok value (store.session cursor))
  | error (error : ε) (cursor : Cursor) (store : Store) :
      Mirrored promise (.error (.error error) (store.memory cursor))
        (.error error (store.session cursor))

/-- On a stream within the bounds a program and an action come out alike, and if they succeed they
have consumed at least `gain` bytes. -/
def Mirrors {ε α : Type} (gain : Nat) (program : ProgramOf ε α) (action : ActionOf ε α) : Prop :=
  ∀ {cursor store}, InBounds cursor store →
    Mirrored (fun _ after => cursor.position.consumed + gain ≤ after.position.consumed)
      (program (store.memory cursor)) (action (store.session cursor))

section

variable {ε α β σ : Type} {promise : α → Cursor → Prop} {cursor : Cursor} {store : Store}

/-- The machine has as many bytes to decode as the session that it stands for. -/
theorem supply_memory (store : Store) (cursor : Cursor) :
    (store.memory cursor).supply = cursor.supply := by
  simp [Store.memory, Memory.supply, Cursor.supply]

/-- Decoding stays within the bounds. -/
theorem InBounds.of_advance {after : Cursor} {length : Nat} (h : InBounds cursor store)
    (hposition : after.position = cursor.position.advance length) : InBounds after store where
  extent_lt := by
    rw [hposition, Position.extent_advance]
    exact h.extent_lt
  written_le := by
    rw [show after.committed = cursor.committed from congrArg Position.committed hposition]
    exact h.written_le

/-- What is promised may be less. -/
theorem Mirrored.mono {other : α → Cursor → Prop} {result : EStateM.Result (Abort ε) Memory α}
    {answer : EStateM.Result ε Session α} (h : Mirrored promise result answer)
    (hpromise : ∀ value after, promise value after → other value after) :
    Mirrored other result answer := by
  cases h with
  | value value after store hbounds hkept =>
      exact .value value after store hbounds (hpromise value after hkept)
  | error error after store => exact .error error after store

/-- What follows may build on what the first promises. -/
theorem Mirrored.bind {kept : β → Cursor → Prop} {program : ProgramOf ε α} {action : ActionOf ε α}
    {next : α → ProgramOf ε β} {rest : α → ActionOf ε β} {memory : Memory} {session : Session}
    (h : Mirrored promise (program memory) (action session))
    (hnext : ∀ value cursor store, InBounds cursor store → promise value cursor →
      Mirrored kept (next value (store.memory cursor)) (rest value (store.session cursor))) :
    Mirrored kept ((program >>= next) memory) ((action >>= rest) session) := by
  show Mirrored kept (EStateM.bind _ _ _) (EStateM.bind _ _ _)
  unfold EStateM.bind
  generalize program memory = result at h
  generalize action session = answer at h
  cases h with
  | value value after store hbounds hkept => exact hnext value after store hbounds hkept
  | error error after store => exact .error error after store

/-- Running both as a stage tells the stage of an error. -/
theorem Mirrored.during {program : Program α} {action : Action α} {memory : Memory}
    {session : Session} (stage : Stage) (h : Mirrored promise (program memory) (action session)) :
    Mirrored promise (Machine.during stage program memory) (Apply.during stage action session) := by
  unfold Machine.during Apply.during
  generalize program memory = result at h
  generalize action session = answer at h
  cases h with
  | value value after store hbounds hkept => exact .value value after store hbounds hkept
  | error error after store => exact .error _ after store

/-- An operation of the cursor is mirrored by a program that comes to the same. -/
theorem Mirrored.read {operation : Cursor → Except ReplicaError α × Cursor} {program : Program α}
    (hprogram : program (store.memory cursor) = store.answer (operation cursor))
    (hvalue : ∀ value after, operation cursor = (.ok value, after) →
      InBounds after store ∧ promise value after) :
    Mirrored promise (program (store.memory cursor))
      (Apply.read operation (store.session cursor)) := by
  rw [hprogram]
  rcases hanswer : operation cursor with ⟨error | value, after⟩
  · rw [read_session_error hanswer]
    exact .error error after store
  · rw [read_session_ok hanswer]
    obtain ⟨hbounds, hkept⟩ := hvalue value after hanswer
    exact .value value after store hbounds hkept

/-- Rounds that mirror each other make loops that do, if each of them consumes bytes and keeps what
the state of the loop counts. -/
theorem Mirrored.loop {round : σ → Program (σ ⊕ α)} {body : σ → Action (σ ⊕ α)}
    {run : σ → Action α} {kept : σ → Cursor → Prop}
    (hrun : ∀ state, run state = body state >>= Sum.elim run Pure.pure)
    (hconsumes : ∀ state, Consuming (body state))
    (hround : ∀ state cursor store, InBounds cursor store → kept state cursor →
      Mirrored (Sum.elim kept promise) (round state (store.memory cursor))
        (body state (store.session cursor)))
    (state : σ) (hbounds : InBounds cursor store) (hkept : kept state cursor) :
    Mirrored promise (Machine.loop Memory.supply round state (store.memory cursor))
      (run state (store.session cursor)) := by
  -- What is left to be decoded gets less with every round.
  induction hsupply : cursor.supply using Nat.strongRecOn generalizing state cursor store with
  | ind supply ih =>
      have hstep := hround state cursor store hbounds hkept
      rw [Machine.loop, hrun]
      show Mirrored promise _ (EStateM.bind _ _ _)
      unfold EStateM.bind
      generalize hbody : body state (store.session cursor) = answer at hstep
      generalize round state (store.memory cursor) = result at hstep
      cases hstep with
      | error error after store => exact .error error after store
      | value value after store hinside hnext =>
          cases value with
          | inr value => exact .value value after store hinside hnext
          | inl next =>
              have hless : after.supply < cursor.supply := hconsumes state hbody
              simp only
              rw [dif_pos (by rwa [supply_memory, supply_memory])]
              exact ih _ (hsupply ▸ hless) next hinside hnext rfl

namespace Mirrors

/-- Giving a value meets no fault. -/
theorem pure (value : α) :
    Mirrors 0 (Pure.pure value : ProgramOf ε α) (Pure.pure value : ActionOf ε α) :=
  fun hbounds => .value value _ _ hbounds (Nat.le_refl _)

/-- Nor does failing with an error. -/
theorem throw (error : ε) :
    Mirrors 0 (MonadExcept.throw (.error error) : ProgramOf ε α)
      (MonadExcept.throw error : ActionOf ε α) :=
  fun _ => .error error _ _

/-- The parts of a sequence mirror each other. What the first consumes is not counted. -/
theorem bind {gain : Nat} {program : ProgramOf ε α} {action : ActionOf ε α}
    {next : α → ProgramOf ε β} {rest : α → ActionOf ε β} (h : Mirrors gain program action)
    (hnext : ∀ value, Mirrors 0 (next value) (rest value)) :
    Mirrors 0 (program >>= next) (action >>= rest) :=
  fun hbounds => (h hbounds).bind fun value _ _ hinside hgrown =>
    (hnext value hinside).mono fun _ _ hmore => by omega

/-- An operation that is no fault goes unnoticed. -/
theorem check {checked : Checked β} {value : β} {next : β → ProgramOf ε α}
    {action : ActionOf ε α} (hchecked : checked = .ok value) (h : Mirrors 0 (next value) action) :
    Mirrors 0 (Machine.check checked >>= next) action := by
  intro cursor store hbounds
  rw [check_bind hchecked]
  exact h hbounds

/-- Rejecting the stream meets no fault. -/
theorem reject (error : ProtocolError) :
    Mirrors 0 (Machine.reject error : Program α) (Apply.reject error) :=
  throw _

/-- Nor does a demand, met or not. -/
theorem demand (outcome : Except ProtocolError α) :
    Mirrors 0 (Machine.demand outcome) (Apply.demand outcome) := by
  cases outcome with
  | ok value => exact pure value
  | error error => exact reject error

/-- Nor does a requirement. -/
theorem require (condition : Prop) [Decidable condition] (error : ProtocolError) :
    Mirrors 0 (Machine.require condition error) (Apply.require condition error) := by
  unfold Machine.require Apply.require
  split
  · exact pure ()
  · exact reject error

/-- A program that is run as a stage tells its errors with the stage, and meets the same faults. -/
theorem during (stage : Stage) {program : Program α} {action : Action α}
    (h : Mirrors 0 program action) :
    Mirrors 0 (Machine.during stage program) (Apply.during stage action) :=
  fun hbounds => (h hbounds).during stage

/-- An operation of the cursor that decodes a field consumes as many bytes as the field has. -/
theorem read {gain : Nat} {operation : Cursor → Except ReplicaError α × Cursor}
    {program : Program α} {verdict : Verdict α} (hfollows : Cursor.Follows operation verdict)
    (hgain : ∀ {ahead value length}, verdict ahead = .ok (value, length) →
      gain ≤ min length ahead.length)
    (hprogram : ∀ {cursor store}, InBounds cursor store →
      program (store.memory cursor) = store.answer (operation cursor)) :
    Mirrors gain program (Apply.read operation) := by
  intro cursor store hbounds
  refine .read (hprogram hbounds) fun value after hanswer => ?_
  have hgives := hfollows cursor
  rw [hanswer] at hgives
  generalize hverdict : verdict cursor.ahead = found at hgives
  cases hgives with
  | value _ length _ hposition _ =>
      have hlength : gain ≤ min length cursor.position.ahead.length := hgain hverdict
      refine ⟨hbounds.of_advance hposition, ?_⟩
      rw [hposition, Position.consumed_advance]
      omega

/-- Reading a byte decodes one that is there. -/
theorem readByte (what : String) : Mirrors 1 (Machine.readByte what) (Apply.readByte what) := by
  refine read (Cursor.follows_readByte what) (fun {ahead} _ _ hverdict => ?_)
    fun hbounds => readByte_memory hbounds what
  cases ahead with
  | nil => cases hverdict
  | cons first rest =>
      cases hverdict
      simp

/-- Reading an integer decodes the bytes that spell it. -/
theorem readUint (what : String) : Mirrors 1 (Machine.readUint what) (Apply.readUint what) := by
  refine read (Cursor.follows_readUint what) (fun {ahead} _ _ hverdict => ?_)
    fun hbounds => readUint_memory hbounds what
  unfold Verdict.uint Verdict.ofDecoder at hverdict
  split at hverdict
  · next hunpack =>
      cases hverdict
      have hlength := unpackUint_length hunpack
      omega
  · cases hverdict
  · cases hverdict

/-- Reading a string decodes the bytes that spell it, or fails. -/
theorem readString (what : String) (max : Nat) :
    Mirrors 0 (Machine.readString what max) (Apply.readString what max) :=
  read (Cursor.follows_readString what max) (fun _ => Nat.zero_le _)
    fun hbounds => readString_memory hbounds what max

/-- Reading ahead decodes nothing. -/
theorem readAhead (what : String) (count : Nat) :
    Mirrors 0 (Machine.readAhead what count) (Apply.readAhead what count) := by
  intro cursor store hbounds
  refine .read (readAhead_memory hbounds what count) fun _ after hanswer => ?_
  obtain ⟨ready, ⟨hready, halike, -⟩ | ⟨-, -, hfailed⟩⟩ :=
    Cursor.readAhead_spec what count cursor .badMagic
  · obtain rfl : ready = after := congrArg Prod.snd (hready.symm.trans hanswer)
    exact ⟨hbounds.of_alike halike, by rw [halike.position_eq]; exact Nat.le_refl _⟩
  · rw [hfailed] at hanswer
    cases hanswer

/-- Skipping a literal decodes it where it is there. -/
theorem skipLiteral (literal : Bytes) :
    Mirrors 0 (Machine.skipLiteral literal) (Apply.skipLiteral literal) := by
  intro cursor store hbounds
  have haction : Apply.skipLiteral literal (store.session cursor) =
      .ok (cursor.skipLiteral literal).1 (store.session (cursor.skipLiteral literal).2) := rfl
  rw [skipLiteral_memory hbounds, haction]
  unfold Cursor.skipLiteral
  split
  · next hfound =>
      have hposition : (cursor.advance literal.length).position = _ :=
        Cursor.position_advance (List.isPrefixOf_iff_prefix.mp hfound).length_le
      refine .value true _ store (hbounds.of_advance hposition) ?_
      rw [hposition, Position.consumed_advance]
      omega
  · exact .value false cursor store hbounds (Nat.le_refl _)

/-- Expecting the end decodes nothing. -/
theorem expectEnd : Mirrors 0 Machine.expectEnd Apply.expectEnd := by
  intro cursor store hbounds
  refine .read (expectEnd_memory hbounds) fun _ after hanswer => ?_
  by_cases hahead : cursor.ahead = []
  · obtain ⟨last, hlast, halike⟩ := Cursor.expectEnd_of_nil hahead
    cases hending : cursor.ending with
    | closed =>
        have hsame := halike hending
        rw [hending, hanswer] at hlast
        obtain rfl : after = last := congrArg Prod.snd hlast
        exact ⟨hbounds.of_alike hsame, by rw [hsame.position_eq]; exact Nat.le_refl _⟩
    | stalled | broken =>
        rw [hending, hanswer] at hlast
        cases hlast
  · obtain ⟨junk, last, hjunk⟩ := Cursor.expectEnd_of_junk hahead
    rw [hjunk] at hanswer
    cases hanswer

/-- Work on the files is the same for the machine. -/
theorem onFiles (operation : FileSystem → Except ReplicaError (α × FileSystem)) :
    Mirrors 0 (Machine.onFiles operation) (Apply.onFiles operation) := by
  intro cursor store hbounds
  have hfiles : (store.memory cursor).files = (store.session cursor).files := rfl
  unfold Machine.onFiles Apply.onFiles
  rw [hfiles]
  rcases operation (store.session cursor).files with error | ⟨value, files⟩
  · exact .error error cursor store
  · exact .value value cursor { store with files } ⟨hbounds.extent_lt, hbounds.written_le⟩
      (Nat.le_refl _)

/-- So is work that changes them even if it fails. -/
theorem changeFiles (operation : FileSystem → Except ReplicaError Unit × FileSystem) :
    Mirrors 0 (Machine.changeFiles operation) (Apply.changeFiles operation) := by
  intro cursor store hbounds
  have hfiles : (store.memory cursor).files = (store.session cursor).files := rfl
  unfold Machine.changeFiles Apply.changeFiles
  rw [hfiles]
  rcases operation (store.session cursor).files with ⟨error | _, files⟩
  · exact .error error cursor { store with files }
  · exact .value () cursor { store with files } ⟨hbounds.extent_lt, hbounds.written_le⟩
      (Nat.le_refl _)

/-- An archive that is opened has no bytes yet. -/
theorem openArchive {operation : FileSystem → Except ReplicaError (Archive × FileSystem)}
    (hempty : ∀ {files archive opened}, operation files = .ok (archive, opened) →
      archive.written = 0) :
    Mirrors 0 (Machine.onFiles operation >>= Machine.attachArchive)
      (Apply.onFiles operation >>= Apply.attachArchive) := by
  intro cursor store hbounds
  rcases hopened : operation store.files with error | ⟨archive, files⟩
  · have hprogram : Machine.onFiles operation (store.memory cursor) =
        .error (.error error) (store.memory cursor) := by
      simp only [Machine.onFiles, Store.memory, hopened]
    rw [bind_of_error hprogram, onFiles_bind_error hopened]
    exact .error error cursor store
  · have hprogram : Machine.onFiles operation (store.memory cursor) =
        .ok archive { store.memory cursor with files } := by
      simp only [Machine.onFiles, Store.memory, hopened]
    rw [bind_of_ok hprogram, onFiles_bind_ok hopened]
    have hwritten : archive.written ≤ cursor.committed := by
      rw [hempty hopened]
      exact Nat.zero_le _
    exact .value () cursor { archive, files } ⟨hbounds.extent_lt, hwritten⟩ (Nat.le_refl _)

end Mirrors

/-- Appending to the archive counts its bytes, if there is one. -/
theorem appendArchive_memory {data : Bytes}
    (h : store.archive.written + data.length < wordBound) :
    appendArchive data (store.memory cursor) = .ok () ((store.append data).memory cursor) := by
  obtain ⟨⟨target, written⟩, files⟩ := store
  cases target with
  | none => rfl
  | some target =>
      have hsum : add wordBound written data.length = .ok (written + data.length) := add_of_lt h
      show (check (add wordBound written data.length) >>= _) _ = _
      rw [check_bind hsum]
      rfl

/-- At most the bytes that are appended are added to the archive. -/
theorem written_append_le (store : Store) (data : Bytes) :
    (store.append data).archive.written ≤ store.archive.written + data.length := by
  unfold Store.append Archive.append
  split
  · exact Nat.le_add_right _ _
  · exact Nat.le_refl _

/-- Bytes that are there can be split off. -/
theorem splitTo_eq {memory : Memory} {count : Nat} (h : count ≤ memory.buffer.length) :
    splitTo count memory =
      .ok (memory.buffer.take count) { memory with buffer := memory.buffer.drop count } := by
  have hpart : slice memory.buffer 0 count = .ok (memory.buffer.take count) :=
    slice_of_le (Nat.zero_le _) h
  show (check (slice memory.buffer 0 count) >>= _) memory = _
  rw [check_bind hpart]
  rfl

/-- Bytes can be counted as long as their number fits a word. -/
theorem consume_eq {memory : Memory} {count : Nat} (h : memory.consumed + count < wordBound) :
    consume count memory = .ok () { memory with consumed := memory.consumed + count } := by
  show (check (add wordBound memory.consumed count) >>= _) memory = _
  rw [check_bind (add_of_lt h)]
  rfl

/-- Committing is no fault. -/
theorem commit_memory (hbounds : InBounds cursor store) :
    commit (store.memory cursor) =
      .ok () ((store.afterCommit cursor).memory cursor.afterCommit) := by
  have hheld := hbounds.held_lt
  have hwritten := hbounds.written_le
  have hstart : commit (store.memory cursor) =
      (if cursor.pending.length = 0 then return ()
        else do
          let done ← splitTo cursor.pending.length
          modify fun memory => { memory with decoded := 0 }
          consume done.length
          appendArchive done : Program Unit) (store.memory cursor) := rfl
  rw [hstart]
  unfold Store.afterCommit
  by_cases hpending : cursor.pending = []
  · rw [if_pos (List.length_eq_zero_iff.mpr hpending), if_pos hpending,
      Cursor.afterCommit_of_nil hpending]
    rfl
  · rw [if_neg (mt List.length_eq_zero_iff.mp hpending), if_neg hpending]
    have hcut : splitTo cursor.pending.length (store.memory cursor) =
        .ok cursor.pending { store.memory cursor with buffer := cursor.unread } := by
      have hlength : cursor.pending.length ≤ (store.memory cursor).buffer.length := by
        simp [Store.memory]
      rw [splitTo_eq hlength]
      simp [Store.memory]
    have hcount : consume cursor.pending.length
        { store.memory cursor with buffer := cursor.unread, decoded := 0 } =
          .ok () (store.memory cursor.afterCommit) :=
      consume_eq (show cursor.committed + cursor.pending.length < wordBound by omega)
    have happend : appendArchive cursor.pending (store.memory cursor.afterCommit) =
        .ok () ((store.append cursor.pending).memory cursor.afterCommit) :=
      appendArchive_memory (by omega)
    rw [bind_of_ok hcut]
    exact (bind_of_ok hcount).trans happend

/-- Committing archives no more than it commits. -/
theorem written_afterCommit_le (h : store.archive.written ≤ cursor.committed) :
    (store.afterCommit cursor).archive.written ≤ cursor.afterCommit.committed := by
  unfold Store.afterCommit
  split
  · exact Nat.le_add_right_of_le h
  · exact (written_append_le store cursor.pending).trans (Nat.add_le_add_right h _)

/-- Taking archives no more than it commits. -/
theorem written_afterTake_le (count : Nat) (h : store.archive.written ≤ cursor.committed) :
    (store.append (cursor.unread.take count)).archive.written ≤
      (cursor.afterTake count).committed :=
  (written_append_le _ _).trans (Nat.add_le_add_right h _)

/-- Archiving what is pending stays in bounds. -/
theorem InBounds.of_commit (h : InBounds cursor store) :
    InBounds cursor.afterCommit (store.afterCommit cursor) :=
  ⟨h.extent_lt, written_afterCommit_le h.written_le⟩

/-- What was decoded is committed, and nothing is consumed. -/
theorem Mirrored.commit (hbounds : InBounds cursor store) :
    Mirrored (fun _ after => after = cursor.afterCommit) (Machine.commit (store.memory cursor))
      (Apply.commit (store.session cursor)) := by
  rw [commit_memory hbounds, commit_session]
  exact .value () cursor.afterCommit (store.afterCommit cursor) hbounds.of_commit rfl

/-- Waiting for a number of bytes ends at the same place of the stream, with as many of them in the
buffer. -/
theorem Mirrored.ensure (hbounds : InBounds cursor store) (what : String) (count : Nat) :
    Mirrored (fun _ after => after.Alike cursor ∧ count ≤ after.unread.length)
      (Machine.ensure what count (store.memory cursor))
      (Apply.ensure what count (store.session cursor)) := by
  refine .read (ensure_memory hbounds what count) fun _ after hanswer => ?_
  obtain ⟨ready, ⟨-, hready, halike, hheld⟩ | ⟨-, hfailed⟩⟩ := Cursor.ensure_spec what count cursor
  · obtain rfl : ready = after := congrArg Prod.snd (hready.symm.trans hanswer)
    exact ⟨hbounds.of_alike halike, halike, hheld⟩
  · rw [hfailed] at hanswer
    cases hanswer

/-- Taking bytes that the buffer starts with is no fault. -/
theorem takeUnread_memory (hbounds : InBounds cursor store) (hpending : cursor.pending = [])
    {count : Nat} (hcount : count ≤ cursor.unread.length) :
    (do
      let data ← splitTo count
      appendArchive data
      consume count
      return data : Program Bytes) (store.memory cursor) =
        .ok (cursor.unread.take count)
          ((store.append (cursor.unread.take count)).memory (cursor.afterTake count)) := by
  have hheld := hbounds.held_lt
  have hwritten := hbounds.written_le
  have hlength : (cursor.unread.take count).length = count := by simp [hcount]
  have hcut : splitTo count (store.memory cursor) =
      .ok (cursor.unread.take count)
        (store.memory (cursor.showing (cursor.unread.drop count))) := by
    rw [splitTo_eq (by simp [Store.memory]; omega)]
    simp [Store.memory, hpending, Cursor.showing]
  have happend : appendArchive (cursor.unread.take count)
      (store.memory (cursor.showing (cursor.unread.drop count))) = _ :=
    appendArchive_memory (by omega)
  have hcount :
      consume count ((store.append (cursor.unread.take count)).memory
        (cursor.showing (cursor.unread.drop count))) =
          .ok () ((store.append (cursor.unread.take count)).memory (cursor.afterTake count)) := by
    rw [consume_eq (show cursor.committed + count < wordBound by omega)]
    simp [Store.memory, Cursor.showing, Cursor.afterTake, hlength]
  rw [bind_of_ok hcut, bind_of_ok happend, bind_of_ok hcount]
  rfl

namespace Mirrors

/-- Archiving what is pending consumes nothing. -/
theorem commit : Mirrors 0 Machine.commit Apply.commit :=
  fun hbounds => (Mirrored.commit hbounds).mono fun _ after hafter => by
    rw [hafter, Cursor.position_afterCommit, Position.consumed_commit]
    exact Nat.le_refl _

/-- Taking a number of bytes consumes as many. -/
theorem take (what : String) (count : Nat) :
    Mirrors count (Machine.take what count) (Apply.take what count) := by
  intro cursor store hbounds
  refine (Mirrored.commit hbounds).bind fun _ middle store hinside hmiddle => ?_
  refine (Mirrored.ensure hinside what count).bind fun _ ready store hready hplace => ?_
  obtain ⟨halike, hcount⟩ := hplace
  have hpending : ready.pending = [] := by rw [halike.pending_eq, hmiddle]; rfl
  have hconsumed : ready.position.consumed = cursor.position.consumed := by
    rw [halike.position_eq, hmiddle, Cursor.position_afterCommit, Position.consumed_commit]
  have hafter := Cursor.position_afterTake hcount
  have hahead : count ≤ ready.position.ahead.length :=
    hcount.trans ready.unread_prefix_ahead.length_le
  rw [takeUnread_memory hready hpending hcount, takeUnread_session]
  refine .value _ (ready.afterTake count) _ ⟨?_, written_afterTake_le count hready.written_le⟩ ?_
  · rw [hafter, Position.extent_take]
    exact hready.extent_lt
  · rw [hafter, Position.consumed_take]
    omega

end Mirrors

end

end TableReplica.Machine
