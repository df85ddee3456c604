import TableReplica.Proofs.Plan.Steadiness

/-!
# Refusals are final

Bytes that a field refuses cannot be put right by bytes after them. So a plan that refuses its bytes
takes the same course when more bytes come, and only a plan that wants more bytes may get on.
`Firm` says so of a plan, with one rule for each way of making one; the plan of an apply is firm
(`firm_plan`).
-/

namespace TableReplica.Transport

open Wire

/-- Whether more bytes leave a stop as it is. -/
def Stop.Final : Stop → Prop
  | .starved _ _ => False
  | .refused _ => True

/-- A stream that was cut short may go on. -/
theorem Stop.not_final_truncated (what : String) : ¬ (Stop.truncated what).Final := id

namespace Verdict

variable {α : Type}

/-- A field that refuses some bytes also refuses them when more come. -/
def Insists (verdict : Verdict α) : Prop :=
  ∀ ⦃bytes stop⦄, verdict bytes = .error stop → stop.Final →
    ∀ more, verdict (bytes ++ more) = .error stop

/-- A byte is never refused, only awaited. -/
theorem insists_byte (what : String) : Insists (byte what) := by
  intro bytes stop h hfinal
  cases bytes with
  | nil =>
      cases h
      exact hfinal.elim
  | cons first rest => cases h

/-- What a stable decoder finds malformed stays malformed. -/
theorem insists_ofDecoder (what : String) {unpack : Bytes → Decoded α} (hstable : Stable unpack) :
    Insists (ofDecoder what unpack) := by
  intro bytes stop h hfinal more
  unfold ofDecoder at h
  split at h
  · cases h
  · next hunpack =>
      cases h
      rw [ofDecoder, hstable.append (by simp [hunpack, Decoded.settled]), hunpack]
  · cases h
    exact hfinal.elim

/-- An integer that is malformed is so whatever comes after it. -/
theorem insists_uint (what : String) : Insists (uint what) :=
  insists_ofDecoder what stable_unpackUint

/-- A length above the bound is known once it is complete, and so is one that is malformed. -/
theorem insists_string (what : String) (max : Nat) : Insists (string what max) := by
  intro bytes stop h hfinal more
  -- Either way the length is complete, so more bytes leave the check of the bound as it is.
  have hsettled : (unpackUint bytes).settled = true := by
    unfold string Cursor.excess? ofDecoder unpackString at h
    cases hsize : unpackUint bytes with
    | value size length => rfl
    | malformed => rfl
    | needMore =>
        rw [hsize] at h
        cases h
        exact hfinal.elim
  unfold string at h ⊢
  rw [Cursor.excess?_append max hsettled]
  split at h
  · exact h
  · exact insists_ofDecoder what stable_unpackString h hfinal more

/-- Bytes that reach as far as the magic ones and are others remain others. -/
theorem insists_magic : Insists magic := by
  intro bytes stop h hfinal more
  unfold magic at h
  split at h
  · cases h
  · next hwrong =>
      split at h
      · cases h
        exact hfinal.elim
      · next hlong =>
          -- The bytes reach as far as the magic ones do, and are others.
          have hfar : Wire.magic.length ≤ bytes.length := Nat.not_lt.mp hlong
          have hother : ¬ Wire.magic <+: bytes ++ more := fun hmagic =>
            hwrong (List.prefix_of_prefix_length_le hmagic (List.prefix_append _ _) hfar)
          rw [magic, if_neg hother, if_neg (by rw [List.length_append]; omega)]
          exact h

end Verdict

end TableReplica.Transport

namespace TableReplica.Apply

open Files Transport Wire

/-- Whether more bytes leave the halt of an apply as it is. -/
def Halt.Final (halt : Halt) : Prop := halt.stop.Final

namespace PlanOf

variable {ε α β σ : Type} {final : ε → Prop}

/-- A steady plan goes on reading a value when more bytes come. -/
theorem Steady.of_ok {plan : PlanOf ε α} (h : Steady plan) {position after : Position}
    {effects : List Effect} {value : α}
    (hread : plan position = { effects, outcome := .ok (value, after) }) (more : Bytes) :
    plan (position.extend more) = { effects, outcome := .ok (value, after.extend more) } := by
  have hlonger := h position more
  rw [hread] at hlonger
  generalize plan (position.extend more) = longer at hlonger ⊢
  cases hlonger
  rfl

/-- A sequence stops in its first plan, or after it in the second. -/
theorem bind_outcome_eq_error {first : PlanOf ε α} {next : α → PlanOf ε β} {position : Position}
    {stop : ε} (h : ((first >>= next) position).outcome = .error stop) :
    (first position).outcome = .error stop ∨
      ∃ effects value after, first position = { effects, outcome := .ok (value, after) } ∧
        (next value after).outcome = .error stop := by
  rcases hfirst : first position with ⟨effects, other | ⟨value, after⟩⟩
  · rw [bind_of_error hfirst] at h
    cases h
    exact .inl rfl
  · rw [bind_of_ok hfirst] at h
    exact .inr ⟨effects, value, after, rfl, h⟩

/-- A sequence whose first plan stops in the same way twice takes the same course twice. -/
theorem bind_of_stopped {first : PlanOf ε α} {position other : Position} {stop : ε}
    (hsame : first other = first position) (hstop : (first position).outcome = .error stop)
    (next : α → PlanOf ε β) : (first >>= next) other = (first >>= next) position := by
  rcases hfirst : first position with ⟨effects, outcome⟩
  rw [hfirst] at hsame hstop
  obtain rfl : outcome = .error stop := hstop
  rw [bind_of_error hsame, bind_of_error hfirst]

/-- What a plan does with some bytes it also does when more come after them, and where it stops for
good it does nothing else. -/
structure Firm (final : ε → Prop) (plan : PlanOf ε α) : Prop where
  steady : Steady plan
  stands : ∀ position stop, (plan position).outcome = .error stop → final stop →
    ∀ more, plan (position.extend more) = plan position

namespace Firm

/-- A plan that never stops for good is firm if it is steady. -/
theorem of_steady {plan : PlanOf ε α} (hsteady : Steady plan)
    (hstops : ∀ position stop, (plan position).outcome = .error stop → ¬ final stop) :
    Firm final plan :=
  ⟨hsteady, fun position stop hstop hfinal => absurd hfinal (hstops position stop hstop)⟩

/-- A value is no stop. -/
theorem pure (value : α) : Firm final (Pure.pure value : PlanOf ε α) :=
  of_steady (.pure value) fun _ _ hstop => nomatch hstop

/-- A sequence is firm if its parts are: where it stops for good, the first plan stops for good, or
the second does after the same value. -/
theorem bind {first : PlanOf ε α} {next : α → PlanOf ε β} (hfirst : Firm final first)
    (hnext : ∀ value, Firm final (next value)) : Firm final (first >>= next) := by
  refine ⟨.bind hfirst.steady fun value => (hnext value).steady, ?_⟩
  intro position stop hstop hfinal more
  rcases bind_outcome_eq_error hstop with hstopped | ⟨effects, value, after, hread, hlater⟩
  · exact bind_of_stopped (hfirst.stands position stop hstopped hfinal more) hstopped next
  · rw [bind_of_ok hread, bind_of_ok (hfirst.steady.of_ok hread more),
      (hnext value).stands after stop hlater hfinal more]

/-- A loop is firm if each of its rounds is. -/
theorem loop {body : σ → PlanOf ε (σ ⊕ α)} {htakes : ∀ state, Takes 1 (body state)}
    (hbody : ∀ state, Firm final (body state)) (state : σ) :
    Firm final (PlanOf.loop body htakes state) := by
  refine ⟨.loop (fun other => (hbody other).steady) state, ?_⟩
  intro position stop hstop hfinal more
  -- The bytes ahead get fewer with every round.
  induction hsize : position.ahead.length using Nat.strongRecOn generalizing position state with
  | ind size ih =>
      rw [PlanOf.loop_eq] at hstop ⊢
      rcases bind_outcome_eq_error hstop with hstopped | ⟨effects, round, after, hread, hlater⟩
      · exact bind_of_stopped ((hbody state).stands position stop hstopped hfinal more) hstopped _
      · rw [bind_of_ok hread, bind_of_ok ((hbody state).steady.of_ok hread more)]
        cases round with
        | inl next =>
            have hshorter := htakes state position _ after (by rw [hread])
            have hsame : PlanOf.loop body htakes next (after.extend more) =
                PlanOf.loop body htakes next after := ih _ (by omega) next after hlater rfl
            simp only [Sum.elim_inl, hsame]
        | inr value => cases hlater

/-- Following a plan as a stage leaves open just what the plan leaves open. -/
theorem during {plan : Plan α} (h : Firm Stop.Final plan) (stage : Stage) :
    Firm Halt.Final (plan.during stage) := by
  refine ⟨h.steady.during stage, fun position halt hhalt hfinal more => ?_⟩
  unfold PlanOf.during at hhalt ⊢
  cases houtcome : (plan position).outcome with
  | ok found =>
      rw [houtcome] at hhalt
      cases hhalt
  | error stop =>
      rw [houtcome] at hhalt
      cases hhalt
      rw [h.stands position stop houtcome hfinal more, houtcome]

end Firm

end PlanOf

namespace Plan

open PlanOf (Firm Steady)

variable {α : Type}

namespace Firm

/-- A field is firm if its values and its refusals stay. -/
theorem field {verdict : Verdict α} (hsettles : verdict.Settles) (hinsists : verdict.Insists) :
    Firm Stop.Final (Plan.field verdict) := by
  refine ⟨Plan.Steady.field hsettles, fun position stop hstop hfinal more => ?_⟩
  cases hverdict : verdict position.ahead with
  | ok found =>
      simp only [Plan.field, hverdict] at hstop
      cases hstop
  | error other =>
      have hshort : Plan.field verdict position = { effects := [], outcome := .error other } := by
        simp only [Plan.field, hverdict]
        rfl
      rw [hshort] at hstop
      cases hstop
      have hextended : verdict (position.extend more).ahead = .error stop :=
        hinsists hverdict hfinal more
      rw [hshort]
      simp only [Plan.field, hextended]
      rfl

/-- A byte is read, or awaited. -/
theorem byte (what : String) : Firm Stop.Final (Plan.field (.byte what)) :=
  field (Verdict.settles_byte what) (Verdict.insists_byte what)

/-- An integer is read, refused for good, or awaited. -/
theorem uint (what : String) : Firm Stop.Final (Plan.field (.uint what)) :=
  field (Verdict.settles_uint what) (Verdict.insists_uint what)

/-- A string is read, refused for good, or awaited. -/
theorem string (what : String) (max : Nat) : Firm Stop.Final (Plan.field (.string what max)) :=
  field (Verdict.settles_string what max) (Verdict.insists_string what max)

/-- Asking for an effect never stops. -/
theorem effect (effect : Effect) : Firm Stop.Final (Plan.effect effect) :=
  .of_steady (Plan.Steady.effect effect) fun _ _ hstop => nomatch hstop

/-- A refusal does not look at the bytes. -/
theorem refuse (error : ReplicaError) : Firm Stop.Final (Plan.refuse error : Plan α) :=
  ⟨Plan.Steady.refuse error, fun _ _ _ _ _ => rfl⟩

/-- What is demanded was read before, so more bytes make no difference. -/
theorem demand (outcome : Except ProtocolError α) : Firm Stop.Final (Plan.demand outcome) := by
  cases outcome with
  | error error => exact refuse _
  | ok value => exact .pure value

/-- So it is with what is required. -/
theorem require (condition : Prop) [Decidable condition] (error : ProtocolError) :
    Firm Stop.Final (Plan.require condition error) := by
  unfold Plan.require
  split
  · exact .pure ()
  · exact refuse _

/-- Archiving what is pending never stops. -/
theorem commit : Firm Stop.Final Plan.commit :=
  .of_steady Plan.Steady.commit fun _ _ hstop => nomatch hstop

/-- Bytes are taken, or awaited. -/
theorem takeAhead (what : String) (count : Nat) : Firm Stop.Final (Plan.takeAhead what count) := by
  refine .of_steady (Plan.Steady.takeAhead what count) fun position stop hstop => ?_
  unfold Plan.takeAhead at hstop
  split at hstop
  · cases hstop
  · cases hstop
    exact Stop.not_final_truncated what

/-- Archiving what is pending before bytes are taken makes no difference. -/
theorem take (what : String) (count : Nat) : Firm Stop.Final (Plan.take what count) :=
  .bind commit fun _ => takeAhead what count

end Firm

section

variable (directory : Path)

/-- The header is refused for good, and its archive is opened once it has been read. -/
theorem firm_opening : Firm Stop.Final Plan.opening := by
  refine .bind ?_ fun _ => .bind (Firm.effect _) fun _ => .bind Firm.commit fun _ => .pure _
  exact .bind (Firm.field Verdict.settles_magic Verdict.insists_magic) fun _ =>
    .bind (Firm.uint _) fun _ => .bind (Firm.require _ _) fun _ => .bind (Firm.uint _) fun _ =>
      .bind (Firm.uint _) fun _ => .bind (Firm.require _ _) fun _ => .bind (Firm.byte _) fun _ =>
        .bind (Firm.require _ _) fun _ => .pure _

/-- The check of the revision looks at no byte. -/
theorem firm_revision (revisions : RevisionReader) (trusted : Bool) (startRevision : Nat) :
    Firm Stop.Final (Plan.revision directory revisions trusted startRevision) := by
  unfold Plan.revision
  split
  · split
    · exact Firm.refuse _
    · exact Firm.require _ _
  · exact .pure ()

/-- A table name is refused for good. -/
theorem firm_table : Firm Stop.Final Plan.table :=
  .bind (Firm.string _ _) fun _ => .bind (Firm.demand _) fun _ => .bind Firm.commit fun _ => .pure _

/-- So are the letter and the size of a base file, and its contents are only awaited. -/
theorem firm_baseFile (table : String) : Firm Stop.Final (Plan.baseFile table) := by
  refine .bind (Firm.byte _) fun _ => .bind (Firm.demand _) fun _ => .bind (Firm.uint _) fun _ => ?_
  split
  · exact Firm.refuse _
  · exact .bind (Firm.take _ _) fun _ => .bind (Firm.effect _) fun _ => .pure _

/-- A block number that is beyond what can be addressed, or beyond what a file can hold, stays so.
-/
theorem firm_numbered (table : String) (blockSize number : Nat) :
    Firm Stop.Final (Plan.numbered directory table blockSize number) := by
  cases number with
  | zero => exact .bind Firm.commit fun _ => .pure _
  | succ index =>
      unfold Plan.numbered Plan.block
      simp only
      split
      · exact Firm.refuse _
      · refine .bind (Firm.take _ _) fun _ => .bind ?_ fun _ => .pure _
        split
        · exact Firm.refuse _
        · exact Firm.effect _

/-- A block size is refused for good, and then every round of blocks is firm. -/
theorem firm_blocks (table : String) : Firm Stop.Final (Plan.blocks directory table) := by
  refine .bind (Firm.uint _) fun _ => ?_
  split
  · exact Firm.refuse _
  · exact .bind Firm.commit fun _ => .bind (Firm.effect _) fun _ => .loop (fun _ =>
      .bind (Firm.uint _) fun _ => .bind (firm_numbered directory _ _ _) fun _ => .pure _) _

/-- A tag that announces nothing never will. -/
theorem firm_tagged (tag : UInt8) : Firm Stop.Final (Plan.tagged directory tag) := by
  unfold Plan.tagged
  split
  · exact Firm.refuse _
  · exact .pure _
  · exact .bind firm_table fun _ => .bind (firm_baseFile _) fun _ => .pure _
  · exact .bind firm_table fun _ => .bind (firm_blocks directory _) fun _ => .pure _

/-- The chunks are firm, since each round of them is. -/
theorem firm_chunks : Firm Stop.Final (Plan.chunks directory) :=
  .loop (fun _ => .bind (Firm.byte _) fun _ => .bind (firm_tagged directory _) fun _ => .pure _) _

/-- A required revision that is too early stays so. -/
theorem firm_required (endRevision : Nat) : Firm Stop.Final (Plan.required endRevision) :=
  .bind (Firm.uint _) fun _ => .bind (Firm.require _ _) fun _ => .pure _

end

end Plan

/-- An apply that refuses its bytes refuses them however they go on. -/
theorem Replicator.firm_plan (replicator : Replicator) (trusted : Bool) :
    PlanOf.Firm Halt.Final (replicator.plan trusted) :=
  .bind (.during Plan.firm_opening _) fun _ =>
    .bind (.during (Plan.firm_revision _ _ _ _) _) fun _ =>
      .bind (.during (Plan.firm_chunks _) _) fun _ =>
        .bind (.during (Plan.firm_required _) _) fun _ => .pure _

end TableReplica.Apply
