import TableReplica.Apply.Session

/-!
# Actions use up the stream

An action is thrifty if no outcome of it leaves more bytes to be decoded than there were before, and
consuming if its success leaves fewer. Actions made of thrifty ones are thrifty, and consuming if
the first of them is. A loop over consuming steps ends.
-/

namespace TableReplica.Apply

open Files Transport

/-- The number of bytes that are still to be decoded, or a bound for it if a feed brings them. -/
def Session.supply (session : Session) : Nat :=
  match session.feed with
  | none => session.cursor.supply
  | some feed => session.cursor.unread.length + feed.size

/-- The session that an action leaves behind, however it ends. -/
def leftBy {ε α : Type} : EStateM.Result ε Session α → Session
  | .ok _ session => session
  | .error _ session => session

/-- Running an operation of the cursor moves the cursor, and the feed if there is one. -/
theorem leftBy_read {α : Type} (operation : Cursor → Except ReplicaError α × Cursor)
    (session : Session) :
    leftBy (read operation session) =
      match session.feed with
      | none => { session with cursor := (operation session.cursor).2 }
      | some feed =>
        let driven := feed.drive operation session.files.openContent session.cursor
        { session with cursor := driven.2.1, feed := some driven.2.2 } := by
  unfold read
  split <;> split <;> simp_all [leftBy]

/-- No outcome leaves more bytes to be decoded than there were before. -/
def Thrifty {ε α : Type} (action : ActionOf ε α) : Prop :=
  ∀ session, (leftBy (action session)).supply ≤ session.supply

/-- Success leaves fewer bytes to be decoded than there were before. -/
def Consuming {ε α : Type} (action : ActionOf ε α) : Prop :=
  ∀ {session value after}, action session = .ok value after → after.supply < session.supply

namespace Thrifty

variable {ε α β : Type}

/-- An action that decodes nothing is thrifty. -/
theorem of_supply_eq {action : ActionOf ε α}
    (h : ∀ session, (leftBy (action session)).supply = session.supply) : Thrifty action :=
  fun session => Nat.le_of_eq (h session)

/-- Giving a value decodes nothing. -/
theorem pure (value : α) : Thrifty (Pure.pure value : ActionOf ε α) :=
  of_supply_eq fun _ => rfl

/-- Nor does failing. -/
theorem throw (error : ε) : Thrifty (MonadExcept.throw error : ActionOf ε α) :=
  of_supply_eq fun _ => rfl

/-- A sequence of thrifty actions is thrifty, wherever it ends. -/
theorem bind {first : ActionOf ε α} {next : α → ActionOf ε β} (hfirst : Thrifty first)
    (hnext : ∀ value, Thrifty (next value)) : Thrifty (first >>= next) := by
  intro session
  have h := hfirst session
  show (leftBy (EStateM.bind first next session)).supply ≤ _
  unfold EStateM.bind
  split
  · next value after eq =>
    rw [eq] at h
    exact Nat.le_trans (hnext value after) h
  · next error after eq =>
    rw [eq] at h
    exact h

/-- Rejecting the stream decodes nothing. -/
theorem reject (error : ProtocolError) : Thrifty (Apply.reject error : Action α) :=
  throw _

/-- Nor does a demand, met or not. -/
theorem demand (outcome : Except ProtocolError α) : Thrifty (Apply.demand outcome) := by
  cases outcome
  · exact reject _
  · exact pure _

/-- An operation that is thrifty with what a cursor has is so with what a feed brings. -/
theorem read {operation : Cursor → Except ReplicaError α × Cursor}
    (h : ∀ cursor, (operation cursor).2.supply ≤ cursor.supply) :
    Thrifty (Apply.read operation) := by
  intro session
  rw [leftBy_read]
  match eq : session.feed with
  | none =>
    have bound := h session.cursor
    simpa only [Session.supply, eq] using bound
  | some feed =>
    have bound := feed.size_drive_le h session.files.openContent session.cursor
    simp only [Session.supply, eq, Cursor.supply] at bound ⊢
    omega

/-- Work on the files decodes nothing. -/
theorem onFiles (operation : FileSystem → Except ReplicaError (α × FileSystem)) :
    Thrifty (Apply.onFiles operation) := by
  refine of_supply_eq fun session => ?_
  unfold Apply.onFiles
  split <;> rfl

/-- Waiting for bytes decodes none. -/
theorem ensure (what : String) (count : Nat) : Thrifty (Apply.ensure what count) :=
  read fun cursor => Nat.le_of_eq (Cursor.supply_ensure what count cursor)

/-- Reading an integer decodes its bytes, or none if it fails. -/
theorem readUint (what : String) : Thrifty (Apply.readUint what) :=
  read (Cursor.supply_decode_le what _)

/-- Reading a byte decodes it, or nothing if it fails. -/
theorem readByte (what : String) : Thrifty (Apply.readByte what) := by
  refine read fun cursor => ?_
  match h : cursor.readByte what with
  | (.ok byte, after) => exact Nat.le_of_lt (Cursor.supply_readByte_lt h)
  | (.error error, after) =>
    have same := Cursor.supply_ensure what 1 cursor
    unfold Cursor.readByte at h
    split at h
    · next ready eq =>
      split at h
      · cases h
      · cases h
        simp_all
    · cases h
      simp_all

/-- Reading a string decodes its bytes, or none if it fails. -/
theorem readString (what : String) (max : Nat) : Thrifty (Apply.readString what max) :=
  read (Cursor.supply_readString_le what max)

/-- Archiving what was decoded decodes nothing more. -/
theorem commit : Thrifty Apply.commit := by
  refine of_supply_eq fun session => ?_
  unfold Apply.commit
  simp only
  split
  · rfl
  · cases eq : session.feed <;> simp [leftBy, Session.supply, Cursor.supply, eq]

/-- Taking bytes leaves fewer of them, or as many if none are taken. -/
theorem takeUnread (count : Nat) : Thrifty (Apply.takeUnread count) := by
  intro session
  cases eq : session.feed <;>
    simp only [Apply.takeUnread, leftBy, Session.supply, Cursor.supply, List.length_drop, eq,
      Option.map_none, Option.map_some, Feed.size_cut] <;>
    omega

/-- Taking bytes that have to be waited for is thrifty, since each of its steps is. -/
theorem take (what : String) (count : Nat) : Thrifty (Apply.take what count) :=
  bind commit fun _ => bind (ensure what count) fun _ => takeUnread count

end Thrifty

namespace Consuming

variable {ε α β : Type}

/-- A sequence is consuming if its first action is and the next is thrifty. -/
theorem bind {first : ActionOf ε α} {next : α → ActionOf ε β} (hfirst : Consuming first)
    (hnext : ∀ value, Thrifty (next value)) : Consuming (first >>= next) := by
  intro session value after h
  change EStateM.bind first next session = _ at h
  unfold EStateM.bind at h
  split at h
  · next value middle eq =>
    have rest := hnext value middle
    rw [h] at rest
    exact Nat.lt_of_le_of_lt rest (hfirst eq)
  · cases h

/-- An operation that consumes what a cursor has consumes what a feed brings. -/
theorem read {operation : Cursor → Except ReplicaError α × Cursor}
    (h : ∀ {cursor value after}, operation cursor = (.ok value, after) →
      after.supply < cursor.supply) :
    Consuming (Apply.read operation) := by
  intro session value after success
  unfold Apply.read at success
  split at success
  · next eq =>
    split at success
    · next decoded =>
      cases success
      simpa only [Session.supply, eq] using h decoded
    · cases success
  · next feed eq =>
    split at success
    · next decoded =>
      cases success
      have bound := Feed.size_drive_lt h decoded
      simp only [Session.supply, eq, Cursor.supply] at bound ⊢
      omega
    · cases success

/-- An integer has a byte at least. -/
theorem readUint (what : String) : Consuming (Apply.readUint what) :=
  read Cursor.supply_readUint_lt

/-- A byte that was read is one fewer to come. -/
theorem readByte (what : String) : Consuming (Apply.readByte what) :=
  read Cursor.supply_readByte_lt

end Consuming

end TableReplica.Apply
