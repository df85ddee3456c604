import TableReplica.Proofs.Plan.Finality

/-!
# Why a plan stops

The error that ends an apply tells the stage in which it was found, but for errors that come up
wherever bytes are awaited. `errorStages` lists the stages of an error. `Stops` says why a plan may
stop, with one rule for each way of making a plan, and `stops_plan` puts them together: an apply
stops for an error of its stage, or the revision reader fails, or the stream is shorter than the
magic bytes.
-/

namespace TableReplica.Apply

open Files Transport Wire

/-- The stages in which an apply awaits bytes. -/
def readingStages : List Stage := [.readingHeader, .readingChunks, .readingFooter]

/-- The stages in which an apply finds a protocol error. The error about encoded revisions is found
by none. -/
def protocolStages : ProtocolError → List Stage
  | .badMagic | .unsupportedVersion _ | .revisionOrder _ _ | .unsupportedKind _ => [.readingHeader]
  | .wrongRevision _ _ => [.checkingRevision]
  | .unknownChunk _ | .missingTableName | .invalidTableName _ | .invalidBaseLetter _ |
    .payloadTooLarge _ _ _ | .blockOffsetOverflow _ _ => [.readingChunks]
  | .requiredRevisionTooEarly _ _ | .trailingJunk _ => [.readingFooter]
  | .malformedInteger _ | .truncated _ | .timeout _ => readingStages
  | .invalidRevision => []

/-- The stages in which an apply finds an error. -/
def errorStages : ReplicaError → List Stage
  | .protocol error => protocolStages error
  | .storage .createArchive _ _ => [.readingHeader]
  | .storage _ _ _ => [.readingChunks]
  | .lock _ _ => [.awaitingLock]
  | .revision _ _ => [.checkingRevision]
  | .transport _ => readingStages
  | .config _ => []

/-- No error is found when an apply is done. -/
theorem done_notMem_errorStages (error : ReplicaError) : Stage.done ∉ errorStages error := by
  cases error with
  | protocol error => cases error <;> simp [errorStages, protocolStages, readingStages]
  | storage action => cases action <;> simp [errorStages]
  | lock | revision | transport | config => simp [errorStages, readingStages]

/-- A stop for want of bytes is found where bytes are awaited, and one for wrong bytes in the stages
of its error. -/
def FoundIn (stage : Stage) : Stop → Prop
  | .starved what closed => stage ∈ readingStages ∧ closed = .truncated what
  | .refused error => stage ∈ errorStages error

/-- However the stream ends, the error that is reported belongs to the stage. -/
theorem mem_errorStages_report {stage : Stage} {stop : Stop} (h : FoundIn stage stop)
    (ending : Ending) : stage ∈ errorStages (ending.report stop) := by
  cases stop with
  | refused error => cases ending <;> exact h
  | starved what closed =>
      obtain ⟨hreading, rfl⟩ := h
      cases ending <;> exact hreading

namespace PlanOf

variable {ε α β σ : Type} {reason : ε → Prop}

/-- A plan stops for a reason. -/
def Stops (reason : ε → Prop) (plan : PlanOf ε α) : Prop :=
  ∀ position stop, (plan position).outcome = .error stop → reason stop

namespace Stops

/-- A plan that always gives a value stops for no reason. -/
theorem of_ok {plan : PlanOf ε α}
    (h : ∀ position, ∃ found, (plan position).outcome = .ok found) : Stops reason plan := by
  intro position stop hstop
  obtain ⟨found, hfound⟩ := h position
  rw [hfound] at hstop
  cases hstop

/-- A value is no stop. -/
theorem pure (value : α) : Stops reason (Pure.pure value : PlanOf ε α) :=
  of_ok fun position => ⟨(value, position), rfl⟩

/-- A sequence stops for the reasons of its parts. -/
theorem bind {first : PlanOf ε α} {next : α → PlanOf ε β} (hfirst : Stops reason first)
    (hnext : ∀ value, Stops reason (next value)) : Stops reason (first >>= next) := by
  intro position stop hstop
  rcases bind_outcome_eq_error hstop with hstopped | ⟨_, value, after, _, hlater⟩
  · exact hfirst position stop hstopped
  · exact hnext value after stop hlater

/-- A loop stops for the reasons of its rounds. -/
theorem loop {body : σ → PlanOf ε (σ ⊕ α)} {htakes : ∀ state, Takes 1 (body state)}
    (hbody : ∀ state, Stops reason (body state)) (state : σ) :
    Stops reason (PlanOf.loop body htakes state) := by
  intro position stop hstop
  fun_induction PlanOf.loop body htakes state position with
  | case1 state position next middle hround ih => exact ih hstop
  | case2 state position value middle hround => cases hstop
  | case3 state position other hround =>
      cases hstop
      exact hbody state position stop hround

end Stops

/-- A plan that is followed as a stage stops where it would, and tells the stage. -/
theorem during_outcome_eq_error {plan : Plan α} {stage : Stage} {position : Position} {halt : Halt}
    (h : (plan.during stage position).outcome = .error halt) :
    ∃ stop, (plan position).outcome = .error stop ∧ halt = { stage, stop } := by
  unfold PlanOf.during at h
  cases hplan : (plan position).outcome with
  | ok found =>
      rw [hplan] at h
      cases h
  | error stop =>
      rw [hplan] at h
      cases h
      exact ⟨stop, rfl, rfl⟩

end PlanOf

namespace Plan

open PlanOf (Stops)

variable {α : Type} {stage : Stage}

namespace Stops

variable {reason : Stop → Prop}

/-- A field stops for the reasons of its verdict. -/
theorem field {verdict : Verdict α} (h : ∀ bytes stop, verdict bytes = .error stop → reason stop) :
    Stops reason (Plan.field verdict) := by
  intro position stop hstop
  unfold Plan.field at hstop
  cases hverdict : verdict position.ahead with
  | ok found =>
      rw [hverdict] at hstop
      cases hstop
  | error other =>
      rw [hverdict] at hstop
      cases hstop
      exact h _ _ hverdict

/-- Bytes are missed where bytes are awaited. -/
theorem truncated (hstage : stage ∈ readingStages) (what : String) :
    FoundIn stage (.truncated what) :=
  ⟨hstage, rfl⟩

/-- A byte can only be missed. -/
theorem byte (hstage : stage ∈ readingStages) (what : String) :
    Stops (FoundIn stage) (Plan.field (.byte what)) := by
  refine field fun bytes stop h => ?_
  cases bytes with
  | nil =>
      cases h
      exact truncated hstage what
  | cons first rest => cases h

/-- What is decoded can be missed or malformed, in any stage that awaits bytes. -/
theorem ofDecoder (hstage : stage ∈ readingStages) (what : String) {unpack : Bytes → Decoded α}
    {bytes : Bytes} {stop : Stop} (h : Verdict.ofDecoder what unpack bytes = .error stop) :
    FoundIn stage stop := by
  unfold Verdict.ofDecoder at h
  split at h
  · cases h
  · cases h
    exact hstage
  · cases h
    exact truncated hstage what

/-- An integer can be missed or malformed. -/
theorem uint (hstage : stage ∈ readingStages) (what : String) :
    Stops (FoundIn stage) (Plan.field (.uint what)) :=
  field fun _ _ h => ofDecoder hstage what h

/-- Only chunks have names. -/
theorem string (what : String) (max : Nat) :
    Stops (FoundIn .readingChunks) (Plan.field (.string what max)) := by
  refine field fun bytes stop h => ?_
  unfold Verdict.string at h
  split at h
  · cases h
    exact List.mem_singleton.mpr rfl
  · exact ofDecoder (by decide) what h

/-- A refusal stops for its error. -/
theorem refuse {error : ReplicaError} (h : reason (.refused error)) :
    Stops reason (Plan.refuse error : Plan α) := by
  intro position stop hstop
  cases hstop
  exact h

/-- A demand stops for the errors that it may meet. -/
theorem demand {outcome : Except ProtocolError α}
    (h : ∀ error, outcome = .error error → reason (.refused (.protocol error))) :
    Stops reason (Plan.demand outcome) := by
  cases outcome with
  | error error => exact refuse (h error rfl)
  | ok value => exact .pure value

/-- A requirement stops for its error. -/
theorem require {condition : Prop} [Decidable condition] {error : ProtocolError}
    (h : reason (.refused (.protocol error))) : Stops reason (Plan.require condition error) := by
  unfold Plan.require
  split
  · exact .pure ()
  · exact refuse h

/-- Asking for an effect never stops. -/
theorem effect (effect : Effect) : Stops reason (Plan.effect effect) :=
  .of_ok fun position => ⟨((), position), rfl⟩

/-- Nor does archiving what is pending. -/
theorem commit : Stops reason Plan.commit :=
  .of_ok fun position => ⟨((), position.commit), rfl⟩

/-- Bytes to be taken can only be missed. -/
theorem take (hstage : stage ∈ readingStages) (what : String) (count : Nat) :
    Stops (FoundIn stage) (Plan.take what count) := by
  refine .bind commit fun _ position stop hstop => ?_
  unfold Plan.takeAhead at hstop
  split at hstop
  · cases hstop
  · cases hstop
    exact truncated hstage what

end Stops

/-- The header stops for an error of its own, or because the bytes end before the magic ones do. -/
theorem header_outcome_eq_error {position : Position} {stop : Stop}
    (h : (Plan.header position).outcome = .error stop) :
    FoundIn .readingHeader stop ∨
      position.ahead.length < magic.length ∧ stop = .starved "changeset header" .badMagic := by
  rcases PlanOf.bind_outcome_eq_error h with hmagic | ⟨_, _, after, _, hlater⟩
  · unfold Plan.field Verdict.magic at hmagic
    split at hmagic
    · cases hmagic
    · split at hmagic
      · next hshort =>
          cases hmagic
          exact .inr ⟨hshort, rfl⟩
      · cases hmagic
        exact .inl (List.mem_singleton.mpr rfl)
  · refine .inl (PlanOf.Stops.bind (Stops.uint (by decide) _) (fun _ => .bind (Stops.require ?_)
      fun _ => .bind (Stops.uint (by decide) _) fun _ => .bind (Stops.uint (by decide) _)
        fun _ => .bind (Stops.require ?_) fun _ => .bind (Stops.byte (by decide) _)
          fun _ => .bind (Stops.require ?_) fun _ => .pure _) after stop hlater)
    all_goals exact List.mem_singleton.mpr rfl

/-- Opening the archive adds no reason to those of the header. -/
theorem opening_outcome_eq_error {position : Position} {stop : Stop}
    (h : (Plan.opening position).outcome = .error stop) :
    FoundIn .readingHeader stop ∨
      position.ahead.length < magic.length ∧ stop = .starved "changeset header" .badMagic := by
  rcases PlanOf.bind_outcome_eq_error h with hheader | ⟨_, _, after, _, hlater⟩
  · exact header_outcome_eq_error hheader
  · exact .inl (PlanOf.Stops.bind (Stops.effect _) (fun _ => .bind Stops.commit fun _ => .pure _)
      after stop hlater)

section

variable (directory : Path)

/-- Checking a revision stops because the reader fails or tells another one. -/
theorem stops_revision (revisions : RevisionReader) (trusted : Bool) (startRevision : Nat) :
    PlanOf.Stops (fun stop => FoundIn .checkingRevision stop ∨
      trusted = true ∧ ∃ error, revisions directory = .error error ∧ stop = .refused error)
      (Plan.revision directory revisions trusted startRevision) := by
  unfold Plan.revision
  split
  · next htrusted =>
      split
      · next error hfailed => exact Stops.refuse (.inr ⟨htrusted, error, hfailed, rfl⟩)
      · exact Stops.require (.inl (List.mem_singleton.mpr rfl))
  · exact .pure ()

/-- A table name that is too long, missing or ill-spelled is found among the chunks. -/
theorem stops_table : PlanOf.Stops (FoundIn .readingChunks) Plan.table := by
  refine .bind (Stops.string _ _) fun letters => .bind (Stops.demand fun error h => ?_) fun _ =>
    .bind Stops.commit fun _ => .pure _
  unfold parseTableName at h
  split at h
  · cases h
    exact List.mem_singleton.mpr rfl
  · split at h
    · cases h
    · cases h
      exact List.mem_singleton.mpr rfl

/-- So is the letter of a base file that names none, and a size that is too large. -/
theorem stops_baseFile (table : String) :
    PlanOf.Stops (FoundIn .readingChunks) (Plan.baseFile table) := by
  refine .bind (Stops.byte (by decide) _) fun letter => .bind (Stops.demand fun error h => ?_)
    fun _ => .bind (Stops.uint (by decide) _) fun _ => ?_
  · unfold BaseLetter.ofByte at h
    split at h
    · cases h
    · split at h
      · cases h
      · cases h
        exact List.mem_singleton.mpr rfl
  · split
    · exact Stops.refuse (List.mem_singleton.mpr rfl)
    · exact .bind (Stops.take (by decide) _ _) fun _ => .bind (Stops.effect _) fun _ => .pure _

/-- So is a block that lies beyond what can be addressed, or beyond what a file can hold. -/
theorem stops_numbered (table : String) (blockSize number : Nat) :
    PlanOf.Stops (FoundIn .readingChunks) (Plan.numbered directory table blockSize number) := by
  cases number with
  | zero => exact .bind Stops.commit fun _ => .pure _
  | succ index =>
      unfold Plan.numbered Plan.block
      simp only
      split
      · exact Stops.refuse (List.mem_singleton.mpr rfl)
      · refine .bind (Stops.take (by decide) _ _) fun _ => .bind ?_ fun _ => .pure _
        split
        · exact Stops.refuse (List.mem_singleton.mpr rfl)
        · exact Stops.effect _

/-- So is a block size that is too large, and what is found in a round of blocks. -/
theorem stops_blocks (table : String) :
    PlanOf.Stops (FoundIn .readingChunks) (Plan.blocks directory table) := by
  refine .bind (Stops.uint (by decide) _) fun _ => ?_
  split
  · exact Stops.refuse (List.mem_singleton.mpr rfl)
  · exact .bind Stops.commit fun _ => .bind (Stops.effect _) fun _ => .loop (fun _ =>
      .bind (Stops.uint (by decide) _) fun _ => .bind (stops_numbered directory _ _ _)
        fun _ => .pure _) _

/-- So is a tag that announces nothing, and what is found in the chunk that a tag announces. -/
theorem stops_tagged (tag : UInt8) :
    PlanOf.Stops (FoundIn .readingChunks) (Plan.tagged directory tag) := by
  unfold Plan.tagged
  split
  · exact Stops.refuse (List.mem_singleton.mpr rfl)
  · exact .pure _
  · exact .bind stops_table fun _ => .bind (stops_baseFile _) fun _ => .pure _
  · exact .bind stops_table fun _ => .bind (stops_blocks directory _) fun _ => .pure _

/-- All that the chunks stop for is found among them. -/
theorem stops_chunks : PlanOf.Stops (FoundIn .readingChunks) (Plan.chunks directory) :=
  .loop (fun _ => .bind (Stops.byte (by decide) _) fun _ => .bind (stops_tagged directory _)
    fun _ => .pure _) _

/-- A required revision that is too early is found in the footer. -/
theorem stops_required (endRevision : Nat) :
    PlanOf.Stops (FoundIn .readingFooter) (Plan.required endRevision) :=
  .bind (Stops.uint (by decide) _) fun _ => .bind (Stops.require (List.mem_singleton.mpr rfl))
    fun _ => .pure _

end

end Plan

/-- Why an apply comes to a halt with these bytes ahead. -/
inductive HaltsFor (replicator : Replicator) (trusted : Bool) (ahead : Bytes) : Halt → Prop where
  /-- The bytes end before the magic ones do. -/
  | magic :
      ahead.length < magic.length →
        HaltsFor replicator trusted ahead
          { stage := .readingHeader, stop := .starved "changeset header" .badMagic }
  /-- The revision reader fails. -/
  | reader (error : ReplicaError) :
      trusted = true → replicator.revisions replicator.directory = .error error →
        HaltsFor replicator trusted ahead { stage := .checkingRevision, stop := .refused error }
  /-- An error of the stage is found. -/
  | found (stage : Stage) (stop : Stop) :
      FoundIn stage stop → HaltsFor replicator trusted ahead { stage, stop }

/-- An apply stops for one of the reasons that there are. -/
theorem Replicator.stops_plan (replicator : Replicator) (trusted : Bool) {position : Position}
    {halt : Halt} (h : (replicator.plan trusted position).outcome = .error halt) :
    HaltsFor replicator trusted position.ahead halt := by
  rcases PlanOf.bind_outcome_eq_error h with hopening | ⟨_, header, opened, _, hrest⟩
  · obtain ⟨stop, hstop, rfl⟩ := PlanOf.during_outcome_eq_error hopening
    rcases Plan.opening_outcome_eq_error hstop with hfound | ⟨hshort, rfl⟩
    · exact .found _ stop hfound
    · exact .magic hshort
  rcases PlanOf.bind_outcome_eq_error hrest with hrevision | ⟨_, _, checked, _, hrest⟩
  · obtain ⟨stop, hstop, rfl⟩ := PlanOf.during_outcome_eq_error hrevision
    rcases Plan.stops_revision _ _ _ _ _ stop hstop with hfound | ⟨htrusted, error, hfailed, rfl⟩
    · exact .found _ stop hfound
    · exact .reader error htrusted hfailed
  rcases PlanOf.bind_outcome_eq_error hrest with hchunks | ⟨_, stats, ended, _, hrest⟩
  · obtain ⟨stop, hstop, rfl⟩ := PlanOf.during_outcome_eq_error hchunks
    exact .found _ stop (Plan.stops_chunks _ _ stop hstop)
  rcases PlanOf.bind_outcome_eq_error hrest with hrequired | ⟨_, required, after, _, hlast⟩
  · obtain ⟨stop, hstop, rfl⟩ := PlanOf.during_outcome_eq_error hrequired
    exact .found _ stop (Plan.stops_required _ _ stop hstop)
  · cases hlast

end TableReplica.Apply
