import TableReplica.Proofs.Plan.Basic

/-!
# More bytes change nothing that was settled

A plan is followed while its bytes arrive, so what it does with some bytes it also does when more
come after them. `Steady` says so of a plan: a value that was read stays, with the same effects, and
a plan that stopped has asked only for what it asks for first with more bytes. There is one rule for
each way of making a plan out of others (`PlanOf.Steady`) and one for each plan that looks at the
bytes (`Plan.Steady`). A plan that is steady makes what an interrupted apply did a beginning of what
an apply of the whole stream does.
-/

namespace TableReplica.Transport

open Wire

/-- The same place with more bytes after those ahead. -/
def Position.extend (position : Position) (more : Bytes) : Position :=
  { position with ahead := position.ahead ++ more }

/-- Decoding bytes that are there does not look at those that come later. -/
theorem Position.advance_extend {position : Position} {length : Nat}
    (h : length ≤ position.ahead.length) (more : Bytes) :
    (position.extend more).advance length = (position.advance length).extend more := by
  simp [extend, advance, List.drop_append_of_le_length h, List.take_append_of_le_length h]

/-- Nor does taking bytes that are there. -/
theorem Position.take_extend {position : Position} {length : Nat}
    (h : length ≤ position.ahead.length) (more : Bytes) :
    (position.extend more).take length = (position.take length).extend more := by
  simp [extend, take, List.drop_append_of_le_length h, List.take_append_of_le_length h]

namespace Verdict

variable {α : Type}

/-- A value that a field gives takes up bytes that are there, and stays when more come. -/
def Settles (verdict : Verdict α) : Prop :=
  ∀ ⦃bytes value length⦄, verdict bytes = .ok (value, length) →
    length ≤ bytes.length ∧ ∀ more, verdict (bytes ++ more) = .ok (value, length)

/-- The first byte is the first byte whatever comes after it. -/
theorem settles_byte (what : String) : Settles (byte what) := by
  intro bytes value length h
  cases bytes with
  | nil => cases h
  | cons first rest =>
      cases h
      exact ⟨Nat.succ_le_succ (Nat.zero_le _), fun _ => rfl⟩

/-- What a stable decoder decodes takes up bytes that are there. -/
theorem settles_ofDecoder (what : String) {unpack : Bytes → Decoded α} (hstable : Stable unpack) :
    Settles (ofDecoder what unpack) := by
  intro bytes value length h
  unfold ofDecoder at h
  split at h
  · next hunpack =>
      cases h
      refine ⟨hstable.length_le hunpack, fun more => ?_⟩
      rw [ofDecoder, hstable.append (by simp [hunpack, Decoded.settled]), hunpack]
  · cases h
  · cases h

/-- An integer ends with its last byte, which tells that it is the last. -/
theorem settles_uint (what : String) : Settles (uint what) :=
  settles_ofDecoder what stable_unpackUint

/-- A string that was read is complete, and so is its length, so the check of the bound comes to the
same. -/
theorem settles_string (what : String) (max : Nat) : Settles (string what max) := by
  intro bytes value length h
  unfold string at h
  split at h
  · cases h
  · next hbound =>
      obtain ⟨hlength, hmore⟩ := settles_ofDecoder what stable_unpackString h
      refine ⟨hlength, fun more => ?_⟩
      -- The string is complete, so its length is.
      have hsettled : (unpackUint bytes).settled = true := by
        unfold ofDecoder unpackString at h
        cases hsize : unpackUint bytes <;> simp_all [Decoded.settled]
      rw [string, Cursor.excess?_append max hsettled, hbound]
      exact hmore more

/-- Bytes that begin with the magic ones do so however they go on. -/
theorem settles_magic : Settles magic := by
  intro bytes value length h
  unfold magic at h
  split at h
  · next hmagic =>
      cases h
      refine ⟨hmagic.length_le, fun more => ?_⟩
      rw [magic, if_pos (hmagic.trans (List.prefix_append _ _))]
  · split at h <;> cases h

end Verdict

end TableReplica.Transport

namespace TableReplica.Apply

open Files Transport Wire

/-- What more bytes make of a course: a value that was read stays, and a course that stopped may
get on. -/
inductive Lengthened {ε α : Type} (more : Bytes) : Course ε α → Course ε α → Prop where
  | settled (effects : List Effect) (value : α) (after : Position) :
      Lengthened more { effects, outcome := .ok (value, after) }
        { effects, outcome := .ok (value, after.extend more) }
  | stopped (effects : List Effect) (stop : ε) (later : Course ε α) :
      effects <+: later.effects → Lengthened more { effects, outcome := .error stop } later

namespace PlanOf

variable {ε α β σ : Type}

/-- A sequence of plans asks first for what its first plan asks for. -/
theorem effects_prefix_bind (first : PlanOf ε α) (next : α → PlanOf ε β) (position : Position) :
    (first position).effects <+: ((first >>= next) position).effects := by
  show _ <+: (PlanOf.bind first next position).effects
  unfold PlanOf.bind
  split
  · exact List.prefix_append _ _
  · exact List.prefix_rfl

/-- A sequence gets on with more bytes if its first plan does, and what follows does wherever the
first plan ends. -/
theorem lengthened_bind {first : PlanOf ε α} {next : α → PlanOf ε β} {position : Position}
    {more : Bytes} (hfirst : Lengthened more (first position) (first (position.extend more)))
    (hnext : ∀ value after, (first position).outcome = .ok (value, after) →
      Lengthened more (next value after) (next value (after.extend more))) :
    Lengthened more ((first >>= next) position) ((first >>= next) (position.extend more)) := by
  generalize hshort : first position = short at hfirst
  generalize hlong : first (position.extend more) = long at hfirst
  cases hfirst with
  | settled effects value after =>
      -- Both go on with the same value, the one with more bytes ahead than the other.
      rw [bind_of_ok hshort, bind_of_ok hlong]
      have hrest := hnext value after (by rw [hshort])
      revert hrest
      generalize next value after = rest
      generalize next value (after.extend more) = longer
      intro hrest
      cases hrest with
      | settled others result last => exact .settled _ result last
      | stopped others stop later hinitial =>
          exact .stopped _ stop _ (List.prefix_append_right_inj effects |>.mpr hinitial)
  | stopped effects stop later hinitial =>
      -- The longer course may get on with what follows, which only adds effects.
      rw [bind_of_error hshort]
      refine .stopped _ stop _ (hinitial.trans ?_)
      rw [← hlong]
      exact effects_prefix_bind _ _ _

/-- What a plan does with some bytes it also does when more come after them. -/
def Steady (plan : PlanOf ε α) : Prop :=
  ∀ position more, Lengthened more (plan position) (plan (position.extend more))

namespace Steady

/-- A value is given without a look at the bytes. -/
theorem pure (value : α) : Steady (Pure.pure value : PlanOf ε α) :=
  fun position _ => .settled [] value position

/-- A sequence is steady if its parts are. -/
theorem bind {first : PlanOf ε α} {next : α → PlanOf ε β} (hfirst : Steady first)
    (hnext : ∀ value, Steady (next value)) : Steady (first >>= next) :=
  fun position more => lengthened_bind (hfirst position more) fun value after _ =>
    hnext value after more

/-- A loop is steady if each of its rounds is. -/
theorem loop {body : σ → PlanOf ε (σ ⊕ α)} {htakes : ∀ state, Takes 1 (body state)}
    (hbody : ∀ state, Steady (body state)) (state : σ) :
    Steady (PlanOf.loop body htakes state) := by
  intro position more
  -- The bytes ahead get fewer with every round.
  induction hsize : position.ahead.length using Nat.strongRecOn generalizing position state with
  | ind size ih =>
      rw [PlanOf.loop_eq]
      refine lengthened_bind (hbody state position more) fun value after hread => ?_
      have hshorter := htakes state _ _ _ hread
      cases value with
      | inl next => exact ih _ (by omega) next after rfl
      | inr value => exact pure value after more

/-- Following a plan as a stage only names the stage in which it stops. -/
theorem during {plan : Plan α} (h : Steady plan) (stage : Stage) :
    Steady (plan.during stage) := by
  intro position more
  have hplan := h position more
  unfold PlanOf.during
  revert hplan
  generalize plan position = short
  generalize plan (position.extend more) = long
  intro hplan
  cases hplan with
  | settled effects value after => exact .settled effects value after
  | stopped effects stop later hinitial => exact .stopped effects (Halt.mk stage stop) _ hinitial

end Steady

end PlanOf

namespace Plan

open PlanOf (Steady)

variable {α : Type}

namespace Steady

/-- A field is steady if its values stay. -/
theorem field {verdict : Verdict α} (h : verdict.Settles) : Steady (Plan.field verdict) := by
  intro position more
  cases hverdict : verdict position.ahead with
  | error stop =>
      have hplan : Plan.field verdict position = { effects := [], outcome := .error stop } := by
        simp only [Plan.field, hverdict]
        rfl
      rw [hplan]
      exact .stopped [] stop _ List.nil_prefix
  | ok found =>
      obtain ⟨value, length⟩ := found
      obtain ⟨hlength, hmore⟩ := h hverdict
      have hshort : Plan.field verdict position =
          { effects := [], outcome := .ok (value, position.advance length) } := by
        simp only [Plan.field, hverdict]
        rfl
      have hlong : Plan.field verdict (position.extend more) =
          { effects := [], outcome := .ok (value, (position.advance length).extend more) } := by
        have hextended : verdict (position.extend more).ahead = .ok (value, length) := hmore more
        simp only [Plan.field, hextended, ← Position.advance_extend hlength]
        rfl
      rw [hshort, hlong]
      exact .settled [] value _

/-- An effect is asked for without a look at the bytes. -/
theorem effect (effect : Effect) : Steady (Plan.effect effect) :=
  fun position _ => .settled [effect] () position

/-- A plan that refuses has asked for nothing. -/
theorem refuse (error : ReplicaError) : Steady (Plan.refuse error : Plan α) :=
  fun _ _ => .stopped [] _ _ List.nil_prefix

/-- Archiving what is pending does not look at the bytes ahead. -/
theorem commit : Steady Plan.commit :=
  fun position _ => .settled _ () position.commit

/-- The bytes that are taken are the same if there are more than enough. If there are too few, the
plan stops and may get on with more. -/
theorem takeAhead (what : String) (count : Nat) : Steady (Plan.takeAhead what count) := by
  intro position more
  unfold Plan.takeAhead
  split
  · next henough =>
      have hlong : count ≤ (position.extend more).ahead.length := by
        simp only [Position.extend, List.length_append]
        omega
      rw [if_pos hlong, Position.take_extend henough]
      simp only [Position.extend, List.take_append_of_le_length henough]
      exact .settled [_] _ _
  · exact .stopped [] _ _ List.nil_prefix

end Steady

end Plan

end TableReplica.Apply
