import TableReplica.Proofs.Files.Walking
import TableReplica.Proofs.Plan.Emission
import TableReplica.Proofs.Plan.Perform

/-!
# Carrying out a plan

An action carries out a plan if running it from a place in a stream is performing the effects of the
plan from there and then giving what the plan reads, or failing as the file system or the stream
makes it fail. `Carries` says so for every store, and that the cursor an action ends with does not
depend on the store. There is one rule for each way in which actions are put together, such as
`Carries.bind` and `Carries.loop`, and one for each basic action.
-/

namespace TableReplica.Apply

open Files Transport Wire

/-- The session that reads with a cursor and changes a store. -/
def Store.session (store : Store) (cursor : Cursor) : Session :=
  { cursor, archive := store.archive, files := store.files }

/-- What an action may depend on besides the stream and the store. -/
structure Setting where
  /-- The number of archives to keep. -/
  retention : UInt32
  /-- The place of the data file that is open. -/
  place : Location

/-- How an action accounts for what stopped it: the stream, or a refusal of the file system. -/
structure Account (ε ε' : Type) where
  stopped : Ending → ε → ε'
  refused : Failure → ε'

/-- Actions within a stage give the error. -/
def Account.plain : Account Stop ReplicaError where
  stopped := Ending.report
  refused := Failure.error

/-- Stages give the error with the stage. -/
def Account.staged : Account Halt Failure where
  stopped ending halt := { stage := halt.stage, error := ending.report halt.stop }
  refused := id

/-- What comes of an action whose plan has the given outcome, when its effects were performed. -/
inductive Carried {ε ε' α : Type} (account : Account ε ε') (ending : Ending) (last : Cursor)
    (kept : FileSystem → Prop) :
    Except Failure Unit × Store → Except ε (α × Position) →
      EStateM.Result ε' Session α → Prop where
  | value (value : α) (after : Position) (done : Store) :
      kept done.files →
      Carried account ending last kept (.ok (), done) (.ok (value, after))
        (.ok value (done.session last))
  | stopped (stop : ε) (done : Store) :
      kept done.files →
      Carried account ending last kept (.ok (), done) (.error stop)
        (.error (account.stopped ending stop) (done.session last))
  | refused (failure : Failure) (spoiled : Store) (outcome : Except ε (α × Position))
      (stuck : Cursor) :
      Carried account ending last kept (.error failure, spoiled) outcome
        (.error (account.refused failure) (spoiled.session stuck))

/-- Less may be held of the files afterwards. -/
theorem Carried.mono {ε ε' α : Type} {account : Account ε ε'} {ending : Ending} {last : Cursor}
    {kept less : FileSystem → Prop} {performed : Except Failure Unit × Store}
    {outcome : Except ε (α × Position)} {result : EStateM.Result ε' Session α}
    (h : Carried account ending last kept performed outcome result)
    (himp : ∀ files, kept files → less files) :
    Carried account ending last less performed outcome result := by
  cases h with
  | value value after done hkept => exact .value value after done (himp _ hkept)
  | stopped stop done hkept => exact .stopped stop done (himp _ hkept)
  | refused failure spoiled outcome stuck => exact .refused failure spoiled outcome stuck

/-- From where a cursor stands, an action carries out a plan and comes to where another cursor
stands, as long as its files are as they are held to be. -/
def CarriesTo {ε ε' α : Type} (directory : Path) (account : Account ε ε')
    (held : Setting → FileSystem → Prop) (action : Setting → ActionOf ε' α)
    (plan : PlanOf ε α) (cursor last : Cursor) : Prop :=
  (∀ value after, (plan cursor.position).outcome = .ok (value, after) →
    last.position = after ∧ last.ending = cursor.ending) ∧
  ∀ setting store, held setting store.files →
    Carried account cursor.ending last (held setting)
      (performAll directory setting.retention (plan cursor.position).effects store)
      (plan cursor.position).outcome (action setting (store.session cursor))

/-- An action carries out a plan from where a cursor stands. -/
def CarriesFrom {ε ε' α : Type} (directory : Path) (account : Account ε ε')
    (held : Setting → FileSystem → Prop) (action : Setting → ActionOf ε' α)
    (plan : PlanOf ε α) (cursor : Cursor) : Prop :=
  ∃ last, CarriesTo directory account held action plan cursor last

/-- An action carries out a plan, wherever it starts. -/
def Carries {ε ε' α : Type} (directory : Path) (account : Account ε ε')
    (held : Setting → FileSystem → Prop) (action : Setting → ActionOf ε' α)
    (plan : PlanOf ε α) : Prop :=
  ∀ cursor, CarriesFrom directory account held action plan cursor

/-- Nothing is held of the files. -/
def anyFiles : Setting → FileSystem → Prop := fun _ _ => True

/-- The path of the data file leads to the place that is open. -/
def dataOpen (path : Path) : Setting → FileSystem → Prop := fun setting files =>
  files.openFile path = .ok setting.place

/-- What is held of the files holds still after a file was written to. -/
def Durable (held : Setting → FileSystem → Prop) : Prop :=
  ∀ setting files place offset data, held setting files →
    held setting (files.write place offset data)

/-- Any files stay files. -/
theorem durable_anyFiles : Durable anyFiles :=
  fun _ _ _ _ _ _ => trivial

/-- An open data file stays open when files are written to. -/
theorem durable_dataOpen (path : Path) : Durable (dataOpen path) :=
  fun _ _ _ _ _ h => FileSystem.openFile_write h _ _ _

section

variable {ε ε' α β σ : Type} {directory : Path} {account : Account ε ε'}
  {held : Setting → FileSystem → Prop}

/-- What follows has to be carried out only from where the first action ends. -/
theorem CarriesTo.bind {first : Setting → ActionOf ε' α} {next : Setting → α → ActionOf ε' β}
    {plan : PlanOf ε α} {rest : α → PlanOf ε β} {cursor middle : Cursor}
    (hfirst : CarriesTo directory account held first plan cursor middle)
    (hnext : ∀ value, (plan cursor.position).outcome = .ok (value, middle.position) →
      CarriesFrom directory account held (fun setting => next setting value) (rest value) middle) :
    CarriesFrom directory account held (fun setting => first setting >>= next setting)
      (plan >>= rest) cursor := by
  obtain ⟨hmiddle, hrun⟩ := hfirst
  cases hplan : plan cursor.position with
  | mk effects outcome =>
      rw [hplan] at hmiddle hrun
      cases outcome with
      | error stop =>
          -- The plan stops, so the action does too or was refused before.
          refine ⟨middle, fun value after h => ?_, fun setting store hheld => ?_⟩
          · rw [PlanOf.bind_of_error hplan] at h
            cases h
          · rw [PlanOf.bind_of_error hplan]
            have hcarried := hrun setting store hheld
            show Carried _ _ _ _ _ _ (EStateM.bind _ _ _)
            unfold EStateM.bind
            revert hcarried
            generalize first setting (store.session cursor) = result
            generalize performAll directory setting.retention effects store = performed
            intro hcarried
            cases hcarried with
            | stopped _ done hkept => exact .stopped stop done hkept
            | refused failure spoiled _ stuck => exact .refused failure spoiled _ stuck
      | ok read =>
          -- The action goes on where the plan does, unless it was refused.
          obtain ⟨value, after⟩ := read
          obtain ⟨hposition, hending⟩ := hmiddle value after rfl
          obtain ⟨last, hlast, hrest⟩ := hnext value (by rw [hplan, hposition])
          rw [hposition, hending] at hrest
          rw [hposition] at hlast
          refine ⟨last, fun result final h => ?_, fun setting store hheld => ?_⟩
          · rw [PlanOf.bind_of_ok hplan] at h
            exact ⟨(hlast result final h).1, (hlast result final h).2.trans hending⟩
          · rw [PlanOf.bind_of_ok hplan, performAll_append]
            have hcarried := hrun setting store hheld
            show Carried _ _ _ _ _ _ (EStateM.bind _ _ _)
            unfold EStateM.bind
            revert hcarried
            generalize first setting (store.session cursor) = result
            generalize performAll directory setting.retention effects store = performed
            intro hcarried
            cases hcarried with
            | value _ _ done hkept => exact hrest setting done hkept
            | refused failure spoiled _ stuck => exact .refused failure spoiled _ stuck

theorem CarriesFrom.bind {first : Setting → ActionOf ε' α} {next : Setting → α → ActionOf ε' β}
    {plan : PlanOf ε α} {rest : α → PlanOf ε β} {cursor : Cursor}
    (hfirst : CarriesFrom directory account held first plan cursor)
    (hnext : ∀ value middle, (plan cursor.position).outcome = .ok (value, middle.position) →
      CarriesFrom directory account held (fun setting => next setting value) (rest value) middle) :
    CarriesFrom directory account held (fun setting => first setting >>= next setting)
      (plan >>= rest) cursor := by
  obtain ⟨middle, hmiddle⟩ := hfirst
  exact hmiddle.bind fun value => hnext value middle

section

variable {σ : Type} {first : EStateM ε σ α} {next : α → EStateM ε σ β} {start after : σ}

/-- A sequence goes on from where its first part ends. -/
theorem bind_of_ok {value : α} (h : first start = .ok value after) :
    (first >>= next) start = next value after := by
  show EStateM.bind _ _ _ = _
  unfold EStateM.bind
  rw [h]

/-- A sequence fails where its first part does. -/
theorem bind_of_error {error : ε} (h : first start = .error error after) :
    (first >>= next) start = .error error after := by
  show EStateM.bind _ _ _ = _
  unfold EStateM.bind
  rw [h]

/-- A sequence succeeds only if each of its parts does. -/
theorem exists_of_bind_eq_ok {value : β} (h : (first >>= next) start = .ok value after) :
    ∃ found middle, first start = .ok found middle ∧ next found middle = .ok value after := by
  change EStateM.bind first next start = _ at h
  unfold EStateM.bind at h
  split at h
  · next found middle hfound => exact ⟨found, middle, hfound, h⟩
  · cases h

end

/-- Reading gives what the operation gives, and leaves the store alone. -/
theorem read_session_ok {operation : Cursor → Except ReplicaError α × Cursor}
    {cursor after : Cursor} {value : α} (h : operation cursor = (.ok value, after))
    (store : Store) :
    Apply.read operation (store.session cursor) = .ok value (store.session after) := by
  unfold Apply.read Store.session
  simp only [h]

/-- A read that fails leaves the store. -/
theorem read_session_error {operation : Cursor → Except ReplicaError α × Cursor}
    {cursor after : Cursor} {error : ReplicaError} (h : operation cursor = (.error error, after))
    (store : Store) :
    Apply.read operation (store.session cursor) = .error error (store.session after) := by
  unfold Apply.read Store.session
  simp only [h]

/-- The store after everything decoded was committed. -/
def Store.afterCommit (store : Store) (cursor : Cursor) : Store :=
  if cursor.pending = [] then store else store.append cursor.pending

/-- Committing archives what is pending, if anything is. -/
theorem commit_session (store : Store) (cursor : Cursor) :
    commit (store.session cursor) =
      .ok () ((store.afterCommit cursor).session cursor.afterCommit) := by
  unfold Store.afterCommit
  by_cases hpending : cursor.pending = []
  · have hstay : commit (store.session cursor) = .ok () (store.session cursor) := if_pos hpending
    rw [hstay, if_pos hpending, Cursor.afterCommit_of_nil hpending]
  · have hmove : commit (store.session cursor) =
        .ok () ((store.append cursor.pending).session cursor.afterCommit) := if_neg hpending
    rw [hmove, if_neg hpending]

/-- Taking unread bytes archives them. -/
theorem takeUnread_session (count : Nat) (store : Store) (cursor : Cursor) :
    takeUnread count (store.session cursor) =
      .ok (cursor.unread.take count)
        ((store.append (cursor.unread.take count)).session (cursor.afterTake count)) := by
  unfold takeUnread Cursor.afterTake
  simp only [Bytes.front_eq_take]
  rfl

/-- Taking bytes commits, waits for them and takes them. -/
theorem take_session_ok {what : String} {count : Nat} {cursor ready : Cursor}
    (h : cursor.afterCommit.ensure what count = (.ok (), ready)) (store : Store) :
    take what count (store.session cursor) =
      .ok (ready.unread.take count)
        (((store.afterCommit cursor).append (ready.unread.take count)).session
          (ready.afterTake count)) :=
  (bind_of_ok (commit_session store cursor)).trans
    ((bind_of_ok (read_session_ok h _)).trans (takeUnread_session count _ ready))

/-- What was decoded is committed even if the bytes to take do not come. -/
theorem take_session_error {what : String} {count : Nat} {cursor ready : Cursor}
    {error : ReplicaError} (h : cursor.afterCommit.ensure what count = (.error error, ready))
    (store : Store) :
    take what count (store.session cursor) =
      .error error ((store.afterCommit cursor).session ready) :=
  (bind_of_ok (commit_session store cursor)).trans (bind_of_error (read_session_error h _))

/-- If enough bytes are ahead, waiting for them ends and they are taken and archived. -/
theorem takeAhead_of_le (what : String) {count : Nat} {cursor : Cursor}
    (h : count ≤ cursor.ahead.length) :
    ∃ after, (∀ store : Store,
        (Apply.ensure what count >>= fun _ => takeUnread count) (store.session cursor) =
          .ok (cursor.ahead.take count) ((store.append (cursor.ahead.take count)).session after)) ∧
      after.position = cursor.position.take count ∧ after.ending = cursor.ending := by
  obtain ⟨ready, ⟨-, hready, halike, hheld⟩ | ⟨hshort, -⟩⟩ := Cursor.ensure_spec what count cursor
  · -- The bytes that are taken off the buffer are the first of those ahead.
    have htaken : ready.unread.take count = cursor.ahead.take count := by
      rw [Cursor.take_unread hheld, halike.ahead_eq]
    refine ⟨ready.afterTake count, fun store => ?_, ?_, halike.ending_eq⟩
    · rw [Apply.ensure, bind_of_ok (read_session_ok hready store), ← htaken]
      exact takeUnread_session count store ready
    · rw [Cursor.position_afterTake hheld, halike.position_eq]
  · omega

/-- If too few bytes are ahead, none are taken. -/
theorem takeAhead_of_lt (what : String) {count : Nat} {cursor : Cursor}
    (h : cursor.ahead.length < count) :
    ∃ after, ∀ store : Store,
      (Apply.ensure what count >>= fun _ => takeUnread count) (store.session cursor) =
        .error (cursor.ending.report (.truncated what)) (store.session after) := by
  obtain ⟨ready, ⟨hlong, -⟩ | ⟨-, hfailed⟩⟩ := Cursor.ensure_spec what count cursor
  · omega
  · exact ⟨ready, fun store => bind_of_error (read_session_error hfailed store)⟩

/-- Bytes that are ahead are taken, and archived after what was decoded before them. -/
theorem take_of_ahead (what : String) {count : Nat} {cursor : Cursor} {data rest : Bytes}
    (h : cursor.ahead = data ++ rest) (hcount : data.length = count) :
    ∃ after, (∀ store : Store, take what count (store.session cursor) =
        .ok data (((store.afterCommit cursor).append data).session after)) ∧
      after.position = { ahead := rest, pending := [], committed := cursor.consumed + count } ∧
      after.ending = cursor.ending := by
  have hahead : cursor.afterCommit.ahead = data ++ rest := h
  have hfront : cursor.afterCommit.ahead.take count = data := by
    rw [hahead, ← hcount, List.take_left]
  have hlong : count ≤ cursor.afterCommit.ahead.length := by
    rw [hahead, List.length_append, ← hcount]
    exact Nat.le_add_right _ _
  obtain ⟨after, htake, hposition, hending⟩ := takeAhead_of_le what hlong
  rw [hfront] at htake
  refine ⟨after, fun store => (bind_of_ok (commit_session store cursor)).trans (htake _), ?_,
    hending⟩
  have hcommitted : cursor.afterCommit.position =
      { ahead := data ++ rest, pending := [], committed := cursor.consumed } := by
    rw [Cursor.position, hahead]
    rfl
  rw [hposition, hcommitted]
  simp [Position.take, ← hcount]

/-- What was decoded is archived even if too few bytes are ahead. -/
theorem take_of_short (what : String) {count : Nat} {cursor : Cursor}
    (h : cursor.ahead.length < count) :
    ∃ after, ∀ store : Store, take what count (store.session cursor) =
      .error (cursor.ending.report (.truncated what))
        ((store.afterCommit cursor).session after) := by
  have hahead : cursor.afterCommit.ahead.length < count := h
  obtain ⟨after, hfailed⟩ := takeAhead_of_lt what hahead
  exact ⟨after, fun store => (bind_of_ok (commit_session store cursor)).trans (hfailed _)⟩

section

variable {operation : FileSystem → Except ReplicaError (α × FileSystem)} {next : α → Action β}
  {session : Session}

/-- What follows an operation on the files finds them as the operation left them. -/
theorem onFiles_bind_ok {value : α} {files : FileSystem}
    (h : operation session.files = .ok (value, files)) :
    (onFiles operation >>= next) session = next value { session with files } :=
  bind_of_ok (by simp only [onFiles, h])

/-- A sequence fails where work on the files does. -/
theorem onFiles_bind_error {error : ReplicaError} (h : operation session.files = .error error) :
    (onFiles operation >>= next) session = .error error session :=
  bind_of_error (by simp only [onFiles, h])

end

/-- A stage ends as its action does. -/
theorem during_ok {stage : Stage} {action : Action α} {session after : Session} {value : α}
    (h : action session = .ok value after) :
    Apply.during stage action session = .ok value after := by
  unfold Apply.during
  rw [h]

/-- A stage fails where its action does, and is named. -/
theorem during_error {stage : Stage} {action : Action α} {session after : Session}
    {error : ReplicaError} (h : action session = .error error after) :
    Apply.during stage action session = .error { stage, error } after := by
  unfold Apply.during
  rw [h]

namespace Carries

/-- Giving a value carries out the plan that gives it. -/
theorem pure (value : α) :
    Carries directory account held (fun _ => Pure.pure value) (Pure.pure value) := by
  intro cursor
  refine ⟨cursor, fun _ _ h => ?_, fun setting store hheld => ?_⟩
  · cases h
    exact ⟨rfl, rfl⟩
  · exact .value value cursor.position store hheld

theorem bind {first : Setting → ActionOf ε' α} {next : Setting → α → ActionOf ε' β}
    {plan : PlanOf ε α} {rest : α → PlanOf ε β}
    (hfirst : Carries directory account held first plan)
    (hnext : ∀ value, Carries directory account held (fun setting => next setting value)
      (rest value)) :
    Carries directory account held (fun setting => first setting >>= next setting)
      (plan >>= rest) :=
  fun cursor => (hfirst cursor).bind fun value middle _ => hnext value middle

/-- A loop carries out a loop if each of its rounds does. -/
theorem loop {round : Setting → σ → ActionOf ε' (σ ⊕ α)} {action : Setting → σ → ActionOf ε' α}
    {body : σ → PlanOf ε (σ ⊕ α)} {htakes : ∀ state, PlanOf.Takes 1 (body state)}
    (hround : ∀ state, Carries directory account held (fun setting => round setting state)
      (body state))
    (haction : ∀ setting state,
      action setting state = round setting state >>= Sum.elim (action setting) Pure.pure)
    (state : σ) :
    Carries directory account held (fun setting => action setting state)
      (PlanOf.loop body htakes state) := by
  intro cursor
  -- The bytes ahead get fewer with every round.
  induction hsize : cursor.position.ahead.length using Nat.strongRecOn
    generalizing cursor state with
  | ind size ih =>
      rw [PlanOf.loop_eq, funext fun setting => haction setting state]
      refine (hround state cursor).bind fun value middle hread => ?_
      have hshorter := htakes state _ _ _ hread
      cases value with
      | inl next => exact ih _ (by omega) next middle rfl
      | inr value => exact Carries.pure value middle

/-- Only what an action does without a feed matters. -/
theorem congr {first second : Setting → ActionOf ε' α} {plan : PlanOf ε α}
    (heq : ∀ setting store cursor,
      first setting (Store.session store cursor) = second setting (store.session cursor))
    (hsecond : Carries directory account held second plan) :
    Carries directory account held first plan := by
  intro cursor
  obtain ⟨last, hlast, hrun⟩ := hsecond cursor
  refine ⟨last, hlast, fun setting store hheld => ?_⟩
  rw [heq]
  exact hrun setting store hheld

/-- Actions that fail at once carry out plans that stop at once. -/
theorem fail (stop : ε) (error : ε') (h : ∀ ending, account.stopped ending stop = error)
    {plan : PlanOf ε α}
    (hplan : ∀ position, plan position = { effects := [], outcome := .error stop }) :
    Carries directory account held (fun _ => throw error) plan := by
  intro cursor
  refine ⟨cursor, fun value after hread => ?_, fun setting store hheld => ?_⟩
  · rw [hplan] at hread
    cases hread
  · rw [hplan, ← h cursor.ending]
    exact .stopped stop store hheld

end Carries

end

section

variable {α : Type} {directory : Path} {held : Setting → FileSystem → Prop}

/-- An action of a stage carries out a plan. -/
abbrev CarriesPlain (directory : Path) (held : Setting → FileSystem → Prop)
    (action : Setting → Action α) (plan : Plan α) : Prop :=
  Carries directory .plain held action plan

namespace Carries

/-- Failing carries out a refusal. -/
theorem refuse (error : ReplicaError) :
    CarriesPlain (α := α) directory held (fun _ => throw error) (Plan.refuse error) :=
  fail (.refused error) error (fun ending => by cases ending <;> rfl) fun _ => rfl

/-- So does rejecting the stream. -/
theorem reject (error : ProtocolError) :
    CarriesPlain (α := α) directory held (fun _ => Apply.reject error)
      (Plan.refuse (.protocol error)) :=
  refuse _

/-- A demand is carried out as it is planned. -/
theorem demand (outcome : Except ProtocolError α) :
    CarriesPlain directory held (fun _ => Apply.demand outcome) (Plan.demand outcome) := by
  cases outcome with
  | error error => exact reject error
  | ok value => exact pure value

/-- So is a requirement. -/
theorem require (condition : Prop) [Decidable condition] (error : ProtocolError) :
    CarriesPlain directory held (fun _ => Apply.require condition error)
      (Plan.require condition error) := by
  unfold Apply.require Plan.require
  split
  · exact pure ()
  · exact reject error

/-- Running an operation of the cursor carries out reading the field that it follows. -/
theorem read {operation : Cursor → Except ReplicaError α × Cursor} {verdict : Verdict α}
    (h : Cursor.Follows operation verdict) :
    CarriesPlain directory held (fun _ => Apply.read operation) (Plan.field verdict) := by
  intro cursor
  unfold CarriesFrom CarriesTo Plan.field
  cases hfield : verdict cursor.position.ahead with
  | ok found =>
      obtain ⟨value, length⟩ := found
      obtain ⟨after, hanswer, hposition, hending⟩ := h.of_ok hfield
      refine ⟨after, fun _ _ hread => ?_, fun setting store hheld => ?_⟩
      · cases hread
        exact ⟨hposition, hending⟩
      · simp only [performAll, read_session_ok hanswer]
        exact .value value _ store hheld
  | error stop =>
      obtain ⟨after, hanswer⟩ := h.of_error hfield
      refine ⟨after, fun _ _ hread => ?_, fun setting store hheld => ?_⟩
      · cases hread
      · simp only [performAll, read_session_error hanswer]
        exact .stopped stop store hheld

/-- Appending to the archive changes nothing that is held durably. -/
theorem held_append (hdurable : Durable held) {setting : Setting} {store : Store} (data : Bytes)
    (hheld : held setting store.files) : held setting (store.append data).files := by
  unfold Store.append Archive.append
  split
  · exact hheld
  · exact hdurable _ _ _ _ _ hheld

/-- Archiving what is pending carries out the append that is planned. -/
theorem commit (hdurable : Durable held) :
    CarriesPlain directory held (fun _ => Apply.commit) Plan.commit := by
  intro cursor
  refine ⟨cursor.afterCommit, fun _ _ hread => ?_, fun setting store hheld => ?_⟩
  · cases hread
    exact ⟨cursor.position_afterCommit, rfl⟩
  · show Carried _ _ _ _
      (performAll _ _ (if cursor.pending = [] then [] else [.archive cursor.pending]) store) _
      (Apply.commit (store.session cursor))
    rw [commit_session, Store.afterCommit]
    by_cases hpending : cursor.pending = []
    · rw [if_pos hpending, if_pos hpending]
      exact .value () _ store hheld
    · rw [if_neg hpending, if_neg hpending]
      exact .value () _ _ (held_append hdurable _ hheld)

/-- Waiting for bytes and taking them carries out taking them from the bytes ahead. -/
theorem takeAhead (hdurable : Durable held) (what : String) (count : Nat) :
    CarriesPlain directory held (fun _ => Apply.ensure what count >>= fun _ => takeUnread count)
      (Plan.takeAhead what count) := by
  intro cursor
  unfold CarriesFrom CarriesTo Plan.takeAhead
  by_cases henough : count ≤ cursor.position.ahead.length
  · obtain ⟨last, hmove, hposition, hending⟩ := takeAhead_of_le what henough
    rw [if_pos henough]
    refine ⟨last, fun _ _ hread => ?_, fun setting store hheld => ?_⟩
    · cases hread
      exact ⟨hposition, hending⟩
    · show Carried _ _ _ _ _ _
        ((Apply.ensure what count >>= fun _ => takeUnread count) (store.session cursor))
      rw [hmove]
      exact .value _ _ _ (held_append hdurable _ hheld)
  · obtain ⟨last, hstop⟩ := takeAhead_of_lt what (Nat.lt_of_not_le henough)
    rw [if_neg henough]
    refine ⟨last, fun _ _ hread => ?_, fun setting store hheld => ?_⟩
    · cases hread
    · show Carried _ _ _ _ _ _
        ((Apply.ensure what count >>= fun _ => takeUnread count) (store.session cursor))
      rw [hstop]
      exact .stopped _ store hheld

/-- Taking bytes carries out the appends that are planned. -/
theorem take (hdurable : Durable held) (what : String) (count : Nat) :
    CarriesPlain directory held (fun _ => Apply.take what count) (Plan.take what count) :=
  bind (commit hdurable) fun _ => takeAhead hdurable what count

/-- Performing an effect that changes the files alone carries out asking for it. -/
theorem effect {action : Setting → Action Unit} {effect : Effect}
    (h : ∀ setting store cursor, held setting store.files →
      match effect.perform directory setting.retention store with
      | (.ok (), done) =>
        action setting (store.session cursor) = .ok () (done.session cursor) ∧
          held setting done.files
      | (.error error, spoiled) =>
        action setting (store.session cursor) = .error error (spoiled.session cursor)) :
    CarriesPlain directory held action (Plan.effect effect) := by
  intro cursor
  refine ⟨cursor, fun _ _ hread => ?_, fun setting store hheld => ?_⟩
  · cases hread
    exact ⟨rfl, rfl⟩
  · have hperform := h setting store cursor hheld
    show Carried _ _ _ _ (performAll _ _ [effect] store) _ _
    rw [performAll_singleton]
    revert hperform
    rcases effect.perform directory setting.retention store with ⟨outcome, done⟩
    cases outcome with
    | ok _ =>
        rintro ⟨haction, hkept⟩
        rw [haction]
        exact .value () _ done hkept
    | error error =>
        intro haction
        rw [haction]
        exact .refused { stage := effect.stage, error } done _ cursor

/-- Opening an archive carries out its effect, and so does using none. -/
theorem openArchive (startRevision : Nat) :
    CarriesPlain directory anyFiles
      (fun setting => onFiles (Archive.create directory startRevision setting.retention) >>=
        attachArchive)
      (Plan.effect (.openArchive startRevision)) := by
  refine effect fun setting store cursor _ => ?_
  simp only [Effect.perform]
  cases hcreate : Archive.create directory startRevision setting.retention store.files with
  | error error => exact onFiles_bind_error hcreate
  | ok opened => exact ⟨onFiles_bind_ok hcreate, trivial⟩

/-- Replacing a base file carries out its effect. -/
theorem replaceBase (table : String) (letter : BaseLetter) (content : Bytes) :
    CarriesPlain directory anyFiles
      (fun _ => changeFiles (replaceBaseFile directory table letter content))
      (Plan.effect (.replaceBase table letter content)) := by
  refine effect fun setting store cursor _ => ?_
  simp only [Effect.perform, changeFiles, Store.session]
  rcases replaceBaseFile directory table letter content store.files with ⟨outcome, replaced⟩
  cases outcome with
  | error error => exact rfl
  | ok _ => exact ⟨rfl, trivial⟩

/-- A block goes to the place of the data file that is open. -/
theorem block (table : String) (offset : Nat) (content : Bytes) :
    CarriesPlain directory (dataOpen (dataFilePath directory table))
      (fun setting =>
        onFiles (writeBlock (dataFilePath directory table) setting.place offset content))
      (Plan.block directory table offset content) := by
  unfold Plan.block
  split
  · next hbeyond =>
      have hrun : (fun setting : Setting => onFiles
          (writeBlock (dataFilePath directory table) setting.place offset content)) =
          fun _ => throw (.storage .seek (dataFilePath directory table) .invalid) := by
        funext setting session
        simp [onFiles, writeBlock, hbeyond, throw, throwThe, MonadExceptOf.throw, EStateM.throw]
      rw [hrun]
      exact refuse _
  · next hfits =>
      refine effect fun setting store cursor hopen => ?_
      -- Opening the file once more finds the place where the action writes.
      have hplace : openDataFile (dataFilePath directory table) store.files =
          .ok (setting.place, store.files) := by
        have hfound : store.files.openFile (dataFilePath directory table) = .ok setting.place :=
          hopen
        unfold openDataFile
        rw [hfound]
      simp only [Effect.perform, Store.onData_ok hplace]
      refine ⟨?_, FileSystem.openFile_write hopen _ _ _⟩
      simp only [onFiles, writeBlock, Store.session, if_neg hfits]

/-- What follows the opening of a data file finds it open. -/
theorem openData {α : Type} {table : String} {next : Location → Action α} {rest : Plan α}
    (hnext : CarriesPlain directory (dataOpen (dataFilePath directory table))
      (fun setting => next setting.place) rest) :
    CarriesPlain directory anyFiles
      (fun _ => onFiles (openDataFile (dataFilePath directory table)) >>= next)
      (Plan.effect (.openData table) >>= fun _ => rest) := by
  intro cursor
  obtain ⟨last, hlast, hrest⟩ := hnext cursor
  have hplan : (Plan.effect (.openData table) >>= fun _ => rest) cursor.position =
      { effects := .openData table :: (rest cursor.position).effects
        outcome := (rest cursor.position).outcome } :=
    PlanOf.bind_of_ok (show Plan.effect (.openData table) cursor.position =
      { effects := [.openData table], outcome := .ok ((), cursor.position) } from rfl) _
  refine ⟨last, fun value after hread => ?_, fun setting store _ => ?_⟩
  · rw [hplan] at hread
    exact hlast value after hread
  · rw [hplan]
    show Carried _ _ _ _ (performAll _ _ (.openData table :: (rest cursor.position).effects) store)
      (rest cursor.position).outcome
      ((onFiles (openDataFile (dataFilePath directory table)) >>= next) (store.session cursor))
    simp only [performAll, Effect.perform]
    cases hopened : openDataFile (dataFilePath directory table) store.files with
    | error error =>
        rw [onFiles_bind_error hopened, Store.onData_error hopened]
        exact .refused _ store _ cursor
    | ok opened =>
        obtain ⟨place, files⟩ := opened
        rw [onFiles_bind_ok hopened, Store.onData_ok hopened]
        -- The rest runs in the setting with the place that was opened.
        exact (hrest { setting with place } { store with files }
          (openFile_of_openDataFile hopened)).mono fun _ _ => trivial

end Carries

/-- A stage carries out a plan if only effects of that stage may be refused. -/
theorem CarriesFrom.during {action : Setting → Action α} {plan : Plan α} {cursor : Cursor}
    (stage : Stage)
    (hemitted : ∀ effect ∈ (plan cursor.position).effects,
      effect.stage = stage ∨ ∃ data, effect = .archive data)
    (h : CarriesFrom directory .plain held action plan cursor) :
    CarriesFrom directory .staged held (fun setting => Apply.during stage (action setting))
      (plan.during stage) cursor := by
  obtain ⟨last, hlast, hrun⟩ := h
  unfold CarriesFrom CarriesTo PlanOf.during
  revert hemitted hlast hrun
  rcases plan cursor.position with ⟨effects, outcome⟩
  intro hemitted hlast hrun
  refine ⟨last, fun value after hread => ?_, fun setting store hheld => ?_⟩
  · cases outcome with
    | error stop => cases hread
    | ok read =>
        cases hread
        exact hlast _ _ rfl
  · have hcarried := hrun setting store hheld
    revert hcarried
    generalize hresult : action setting (store.session cursor) = result
    cases hperformed : performAll directory setting.retention effects store with
    | mk performed done =>
        intro hcarried
        cases hcarried with
        | value value after done hkept =>
            simp only [during_ok hresult]
            exact .value value after done hkept
        | stopped stop done hkept =>
            simp only [during_error hresult]
            exact .stopped (Halt.mk stage stop) done hkept
        | refused failure spoiled outcome stuck =>
            -- What was refused is an effect of this stage, since no append is.
            obtain ⟨effect, hmem, hstage, hother⟩ := exists_of_performAll_error hperformed
            have hwithin : failure.stage = stage := by
              rcases hemitted effect hmem with hsame | ⟨data, harchive⟩
              · rw [← hstage, hsame]
              · exact absurd harchive (hother data)
            subst hwithin
            simp only [during_error hresult]
            exact .refused failure done _ stuck

/-- What carries out a plan does so as a stage. -/
theorem Carries.during {action : Setting → Action α} {plan : Plan α} (stage : Stage)
    (hemits : plan.Emits fun effect => effect.stage = stage ∨ ∃ data, effect = .archive data)
    (h : CarriesPlain directory held action plan) :
    Carries directory .staged held (fun setting => Apply.during stage (action setting))
      (plan.during stage) :=
  fun cursor => (h cursor).during stage (hemits cursor.position)

end

end TableReplica.Apply
