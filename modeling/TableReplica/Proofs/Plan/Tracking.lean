import TableReplica.Proofs.Format.Parsing
import TableReplica.Proofs.Format.Reading

/-!
# Where a plan is brought to a halt

An apply follows its plan until the plan stops or the files refuse an effect. `Course.Halts` tells
which effects were made by then and why there are no more. `Tracks` is a logic for it: from what was
archived, what is pending and what was changed before a plan, its rules tell the same of the place
where the plan gives a value, and what was archived and changed where it comes to a halt. There is
one rule for each way of making a plan, and each asks only for what can happen there.
-/

namespace TableReplica.Apply

open Files Transport Wire

/-- Nothing is in the way of an effect. -/
def Effect.Clear (directory : Path) (archived : Option Nat) (files : FileSystem)
    (effect : Effect) : Prop :=
  effect.obstacle? directory archived files = none

/-- A course comes to a halt after these effects: the next one is refused, or there is none and the
course stops. -/
inductive Course.Halts {ε α : Type} (clear : Effect → Prop) :
    Course ε α → List Effect → Effect ⊕ ε → Prop where
  | refused (done rest : List Effect) (effect : Effect) (outcome : Except ε (α × Position)) :
      (∀ before ∈ done, clear before) → ¬ clear effect →
        Halts clear { effects := done ++ effect :: rest, outcome } done (.inl effect)
  | stopped (done : List Effect) (stop : ε) :
      (∀ before ∈ done, clear before) →
        Halts clear { effects := done, outcome := .error stop } done (.inr stop)

section

variable {ε α β σ : Type} {clear : Effect → Prop}

namespace Course.Halts

variable {course : Course ε α} {done begun : List Effect} {reason : Effect ⊕ ε}

/-- Every effect before the halt was clear. -/
theorem all_clear (h : course.Halts clear done reason) : ∀ effect ∈ done, clear effect := by
  cases h with
  | refused _ _ _ _ hdone _ => exact hdone
  | stopped _ _ hdone => exact hdone

/-- Effects that a course begins with and that nothing is in the way of are made before it halts. -/
theorem prefix_of_clear (h : course.Halts clear done reason) (hbegun : begun <+: course.effects)
    (hclear : ∀ effect ∈ begun, clear effect) : begun <+: done := by
  cases h with
  | refused _ rest effect outcome hdone hrefused =>
      rcases List.prefix_or_prefix_of_prefix hbegun (List.prefix_append done _) with hless | hmore
      · exact hless
      · -- If there were more of them, they would take in the effect that is refused.
        obtain ⟨others, rfl⟩ := hmore
        have hothers : others <+: effect :: rest := (List.prefix_append_right_inj done).mp hbegun
        cases others with
        | nil => simp
        | cons next others =>
            obtain ⟨rfl, -⟩ := List.cons_prefix_cons.mp hothers
            exact absurd (hclear next (by simp)) hrefused
  | stopped _ stop hdone => exact hbegun

/-- A course halts at the first effect that something is in the way of. -/
theorem eq_of_refused (h : course.Halts clear done reason) {effect : Effect}
    (hbegun : begun ++ [effect] <+: course.effects) (hclear : ∀ before ∈ begun, clear before)
    (hrefused : ¬ clear effect) : begun = done ∧ reason = .inl effect := by
  have hinitial := h.prefix_of_clear ((List.prefix_append _ _).trans hbegun) hclear
  cases h with
  | refused _ rest next outcome hdone _ =>
      obtain ⟨others, rfl⟩ := hinitial
      rw [List.append_assoc, List.prefix_append_right_inj] at hbegun
      cases others with
      | nil =>
          obtain ⟨rfl, -⟩ := List.cons_prefix_cons.mp hbegun
          exact ⟨(List.append_nil _).symm, rfl⟩
      | cons other others =>
          obtain ⟨rfl, -⟩ := List.cons_prefix_cons.mp hbegun
          exact absurd (hdone effect (by simp)) hrefused
  | stopped _ stop hdone =>
      obtain ⟨others, hothers⟩ := hbegun
      have hmem : effect ∈ done :=
        (List.IsPrefix.subset ⟨others, hothers⟩ : begun ++ [effect] ⊆ done) (by simp)
      exact absurd (hdone effect hmem) hrefused

/-- A course asks for what it has made by then, and for what is refused. -/
theorem prefix_effects (h : course.Halts clear done reason) :
    done ++ reason.getLeft?.toList <+: course.effects := by
  cases h with
  | refused _ rest effect _ _ _ => exact ⟨rest, by simp⟩
  | stopped _ stop _ => exact ⟨[], by simp⟩

/-- With nothing in the way a course halts only where it stops. -/
theorem stopped_of_clear (h : course.Halts clear done reason)
    (hclear : ∀ effect ∈ course.effects, clear effect) :
    ∃ stop, course.outcome = .error stop ∧ done = course.effects ∧ reason = .inr stop := by
  cases h with
  | refused _ rest effect outcome _ hrefused => exact absurd (hclear effect (by simp)) hrefused
  | stopped _ stop _ => exact ⟨stop, rfl, rfl, rfl⟩

end Course.Halts

/-- A course halts, unless all its effects can be made and it gives a value. -/
theorem Course.halts_or_completes (clear : Effect → Prop) (course : Course ε α) :
    (∃ done reason, course.Halts clear done reason) ∨
      (∃ value, course.outcome = .ok value) ∧ ∀ effect ∈ course.effects, clear effect := by
  obtain ⟨effects, outcome⟩ := course
  by_cases hclear : ∀ effect ∈ effects, clear effect
  · rcases outcome with stop | value
    · exact .inl ⟨effects, _, .stopped _ stop hclear⟩
    · exact .inr ⟨⟨value, rfl⟩, hclear⟩
  · -- The first effect that something is in the way of splits the effects in two.
    left
    induction effects with
    | nil => simp at hclear
    | cons effect rest ih =>
        by_cases hfirst : clear effect
        · have hrest : ¬ ∀ other ∈ rest, clear other := fun hall =>
            hclear (List.forall_mem_cons.mpr ⟨hfirst, hall⟩)
          obtain ⟨done, reason, hhalts⟩ := ih hrest
          cases hhalts with
          | refused _ rest next _ hdone hrefused =>
              exact ⟨effect :: done, _,
                .refused (effect :: done) rest next outcome
                  (List.forall_mem_cons.mpr ⟨hfirst, hdone⟩) hrefused⟩
          | stopped _ stop hdone => exact absurd hdone hrest
        · exact ⟨[], _, .refused [] rest effect outcome (by simp) hfirst⟩

/-- A sequence halts in its first plan, or after it in the second. -/
theorem PlanOf.halts_bind {first : PlanOf ε α} {next : α → PlanOf ε β} {position : Position}
    {done : List Effect} {reason : Effect ⊕ ε}
    (h : ((first >>= next) position).Halts clear done reason) :
    (first position).Halts clear done reason ∨
      ∃ effects value after later,
        first position = { effects, outcome := .ok (value, after) } ∧
        (∀ effect ∈ effects, clear effect) ∧ done = effects ++ later ∧
        (next value after).Halts clear later reason := by
  rcases hfirst : first position with ⟨effects, stop | ⟨value, after⟩⟩
  · rw [PlanOf.bind_of_error hfirst] at h
    left
    cases h with
    | refused _ rest effect _ hdone hrefused => exact .refused _ _ _ _ hdone hrefused
    | stopped _ _ hdone => exact .stopped _ _ hdone
  · rw [PlanOf.bind_of_ok hfirst] at h
    generalize hlater : next value after = later at h
    obtain ⟨others, outcome⟩ := later
    generalize hall : effects ++ others = all at h
    cases h with
    | refused _ rest effect _ hdone hrefused =>
        rcases List.append_eq_append_iff.mp hall with ⟨later, rfl, rfl⟩ | ⟨front, rfl, hrest⟩
        · right
          rw [List.forall_mem_append] at hdone
          exact ⟨effects, value, after, later, rfl, hdone.1, rfl, hlater ▸
            .refused _ _ _ _ hdone.2 hrefused⟩
        · cases front with
          | nil =>
              right
              rw [List.nil_append] at hrest
              exact ⟨_, value, after, [], rfl, by simpa using hdone, by simp, hlater ▸ hrest ▸
                .refused [] _ _ _ (by simp) hrefused⟩
          | cons other front =>
              left
              obtain ⟨rfl, -⟩ := List.cons.inj hrest
              exact .refused _ _ _ _ hdone hrefused
    | stopped _ stop hdone =>
        right
        subst hall
        rw [List.forall_mem_append] at hdone
        exact ⟨effects, value, after, others, rfl, hdone.1, rfl, hlater ▸ .stopped _ _ hdone.2⟩

/-- A plan that is followed as a stage halts where it would, and tells the stage. -/
theorem PlanOf.halts_during {plan : Plan α} {stage : Stage} {position : Position}
    {done : List Effect} {reason : Effect ⊕ Halt}
    (h : (plan.during stage position).Halts clear done reason) :
    ∃ inner, (plan position).Halts clear done inner ∧
      reason = inner.map id fun stop => { stage, stop } := by
  unfold PlanOf.during at h
  rcases hplan : plan position with ⟨effects, stop | found⟩
  · rw [hplan] at h
    cases h with
    | refused _ rest effect _ hdone hrefused =>
        exact ⟨.inl effect, .refused _ _ _ _ hdone hrefused, rfl⟩
    | stopped _ _ hdone => exact ⟨.inr stop, .stopped _ _ hdone, rfl⟩
  · rw [hplan] at h
    cases h with
    | refused _ rest effect _ hdone hrefused =>
        exact ⟨.inl effect, .refused _ _ _ _ hdone hrefused, rfl⟩

/-- From a place with `stored` archived, `pending` decoded and `changes` made, a plan gives values
only where the goal holds of the same, and comes to a halt only where `halt` holds of what was
archived and changed by then. Whatever is archived, pending or ahead makes up the stream. -/
def Tracks (clear : Effect → Prop) (stream stored pending : Bytes) (changes : List Effect)
    (plan : PlanOf ε α) (goal : α → Bytes → Bytes → List Effect → Prop)
    (halt : Bytes → List Effect → Effect ⊕ ε → Prop) : Prop :=
  ∀ before, before.pending = pending → stored ++ (pending ++ before.ahead) = stream →
    (∀ effects value after, plan before = { effects, outcome := .ok (value, after) } →
      (∀ effect ∈ effects, clear effect) →
        goal value (stored ++ allArchived effects) after.pending (changes ++ changesOf effects) ∧
          stored ++ allArchived effects ++ (after.pending ++ after.ahead) = stream) ∧
    ∀ done reason, (plan before).Halts clear done reason →
      halt (stored ++ allArchived done) (changes ++ changesOf done) reason ∧
        stored ++ allArchived done <+: stream

namespace Tracks

variable {stream stored pending : Bytes} {changes : List Effect}
  {halt : Bytes → List Effect → Effect ⊕ ε → Prop}

/-- Whoever follows a plan that gives a value without any effect is where the value was read. -/
theorem of_quiet {plan : PlanOf ε α} {goal : α → Bytes → Bytes → List Effect → Prop}
    (hquiet : ∀ position, (plan position).effects = [])
    (hgoal : ∀ before value after, (plan before).outcome = .ok (value, after) →
      before.pending = pending → ∃ bytes, before.ahead = bytes ++ after.ahead ∧
        after.pending = pending ++ bytes ∧ goal value stored (pending ++ bytes) changes)
    (hhalt : ∀ before stop, (plan before).outcome = .error stop →
      halt stored changes (.inr stop)) :
    Tracks clear stream stored pending changes plan goal halt := by
  intro before hpending hstream
  have hnothing := hquiet before
  refine ⟨fun effects value after hplan _ => ?_, fun done reason hhalts => ?_⟩
  · obtain ⟨bytes, hahead, hafter, hvalue⟩ := hgoal before value after (by rw [hplan]) hpending
    rw [hplan] at hnothing
    obtain rfl : effects = [] := hnothing
    rw [hahead] at hstream
    simpa [allArchived, changesOf, hafter] using ⟨hvalue, hstream⟩
  · generalize hplan : plan before = course at hnothing hhalts
    cases hhalts with
    | refused _ rest effect _ _ _ => simp at hnothing
    | stopped _ stop _ =>
        obtain rfl : done = [] := hnothing
        simpa [allArchived, changesOf, ← hstream] using hhalt before stop (by rw [hplan])

/-- A value is given where the goal holds. -/
theorem pure {goal : α → Bytes → Bytes → List Effect → Prop} {value : α}
    (h : goal value stored pending changes) :
    Tracks clear stream stored pending changes (Pure.pure value) goal halt := by
  refine of_quiet (fun _ => rfl) (fun before read after hread hpending => ?_)
    fun before stop hread => ?_
  · cases hread
    exact ⟨[], rfl, by simp [hpending], by simpa using h⟩
  · cases hread

/-- What follows a plan starts where the plan came to. -/
theorem bind {first : PlanOf ε α} {next : α → PlanOf ε β}
    {goal : β → Bytes → Bytes → List Effect → Prop}
    (h : Tracks clear stream stored pending changes first (fun value stored pending changes =>
      Tracks clear stream stored pending changes (next value) goal halt) halt) :
    Tracks clear stream stored pending changes (first >>= next) goal halt := by
  intro before hpending hstream
  obtain ⟨hread, hhalt⟩ := h before hpending hstream
  refine ⟨fun effects value after hplan hclear => ?_, fun done reason hhalts => ?_⟩
  · rcases hfirst : first before with ⟨begun, stop | ⟨read, middle⟩⟩
    · rw [PlanOf.bind_of_error hfirst] at hplan
      cases hplan
    · rw [PlanOf.bind_of_ok hfirst] at hplan
      obtain ⟨rfl, hlast⟩ := Course.mk.inj hplan
      rw [List.forall_mem_append] at hclear
      obtain ⟨hnext, hmiddle⟩ := hread begun read middle hfirst hclear.1
      have hrest : next read middle =
          { effects := (next read middle).effects, outcome := .ok (value, after) } := by
        rw [← hlast]
      obtain ⟨hgoal, hend⟩ := (hnext middle rfl hmiddle).1 _ value after hrest hclear.2
      rw [allArchived_append, changesOf_append, ← List.append_assoc, ← List.append_assoc]
      exact ⟨hgoal, hend⟩
  · rcases PlanOf.halts_bind hhalts with hfirst | ⟨begun, read, middle, later, hfirst, hclear, rfl,
      hlater⟩
    · exact hhalt done reason hfirst
    · obtain ⟨hnext, hmiddle⟩ := hread begun read middle hfirst hclear
      have hlast := (hnext middle rfl hmiddle).2 later reason hlater
      rwa [allArchived_append, changesOf_append, ← List.append_assoc, ← List.append_assoc]

/-- A goal may be weakened. -/
theorem mono {plan : PlanOf ε α} {goal better : α → Bytes → Bytes → List Effect → Prop}
    (h : Tracks clear stream stored pending changes plan goal halt)
    (himp : ∀ value stored pending changes, goal value stored pending changes →
      better value stored pending changes) :
    Tracks clear stream stored pending changes plan better halt := by
  intro before hpending hstream
  obtain ⟨hread, hhalt⟩ := h before hpending hstream
  refine ⟨fun effects value after hplan hclear => ?_, hhalt⟩
  obtain ⟨hgoal, hend⟩ := hread effects value after hplan hclear
  exact ⟨himp _ _ _ _ hgoal, hend⟩

/-- A plan that takes bytes gets on in the stream. -/
theorem grows {plan : PlanOf ε α} {goal : α → Bytes → Bytes → List Effect → Prop}
    (htakes : PlanOf.Takes 1 plan)
    (h : Tracks clear stream stored pending changes plan goal halt) :
    Tracks clear stream stored pending changes plan (fun value archived decoded made =>
      goal value archived decoded made ∧
        stored.length + pending.length < archived.length + decoded.length ∧
        archived.length + decoded.length ≤ stream.length) halt := by
  intro before hpending hstream
  obtain ⟨hread, hhalt⟩ := h before hpending hstream
  refine ⟨fun effects value after hplan hclear => ?_, hhalt⟩
  obtain ⟨hgoal, hend⟩ := hread effects value after hplan hclear
  have htaken := htakes before value after (by rw [hplan])
  have hsame := congrArg List.length (hstream.trans hend.symm)
  have hwhole := congrArg List.length hend
  simp only [List.length_append] at hsame hwhole ⊢
  exact ⟨⟨hgoal, by omega, by omega⟩, hend⟩

/-- What holds before every round of a loop, and after each that goes on, holds as long as the loop
is followed. -/
theorem loop {body : σ → PlanOf ε (σ ⊕ α)} {htakes : ∀ state, PlanOf.Takes 1 (body state)}
    {goal : α → Bytes → Bytes → List Effect → Prop}
    (invariant : σ → Bytes → Bytes → List Effect → Prop)
    (hbody : ∀ state stored pending changes, invariant state stored pending changes →
      Tracks clear stream stored pending changes (body state)
        (fun round stored pending changes =>
          Sum.elim (invariant · stored pending changes) (goal · stored pending changes) round) halt)
    {state : σ} (hstate : invariant state stored pending changes) :
    Tracks clear stream stored pending changes (PlanOf.loop body htakes state) goal halt := by
  -- What is left of the stream gets less with every round.
  induction hsize : stream.length - (stored.length + pending.length) using Nat.strongRecOn
    generalizing state stored pending changes with
  | ind size ih =>
      rw [PlanOf.loop_eq]
      refine .bind (((hbody state _ _ _ hstate).grows (htakes state)).mono ?_)
      rintro (next | value) archived decoded made ⟨hround, hmore, hwithin⟩
      · exact ih _ (by omega) hround rfl
      · exact .pure hround

/-- What is archived and pending before a plan is the beginning of the stream. -/
theorem within {plan : PlanOf ε α} {goal : α → Bytes → Bytes → List Effect → Prop}
    (h : stored ++ pending <+: stream →
      Tracks clear stream stored pending changes plan goal halt) :
    Tracks clear stream stored pending changes plan goal halt := by
  intro before hpending hstream
  exact h ⟨before.ahead, by rw [← hstream, List.append_assoc]⟩ before hpending hstream

/-- Following a plan as a stage adds the stage to what it halts for. -/
theorem during {plan : Plan α} {goal : α → Bytes → Bytes → List Effect → Prop} {stage : Stage}
    {halt : Bytes → List Effect → Effect ⊕ Halt → Prop}
    (h : Tracks clear stream stored pending changes plan goal fun stored changes reason =>
      halt stored changes (reason.map id fun stop => { stage, stop })) :
    Tracks clear stream stored pending changes (plan.during stage) goal halt := by
  intro before hpending hstream
  obtain ⟨hread, hhalt⟩ := h before hpending hstream
  refine ⟨fun effects value after hplan hclear => ?_, fun done reason hhalts => ?_⟩
  · refine hread effects value after ?_ hclear
    unfold PlanOf.during at hplan
    rcases hinner : plan before with ⟨others, stop | found⟩
    all_goals
      rw [hinner] at hplan
      cases hplan
    rfl
  · obtain ⟨inner, hinner, rfl⟩ := PlanOf.halts_during hhalts
    exact hhalt done inner hinner

end Tracks

end

namespace Plan.Tracks

section

variable {α : Type} {clear : Effect → Prop} {stream stored pending : Bytes} {changes : List Effect}
  {halt : Bytes → List Effect → Effect ⊕ Stop → Prop}

/-- A field is read, or the plan stops where it is. -/
theorem field {verdict : Verdict α} {spells : α → Bytes → Prop}
    {goal : α → Bytes → Bytes → List Effect → Prop}
    (hparses : PlanOf.Parses (Plan.field verdict) spells)
    (hhalt : ∀ stop, halt stored changes (.inr stop))
    (hgoal : ∀ value bytes, spells value bytes → goal value stored (pending ++ bytes) changes) :
    Tracks clear stream stored pending changes (Plan.field verdict) goal halt := by
  refine .of_quiet (fun _ => rfl) (fun before value after hread hpending => ?_)
    fun _ stop _ => hhalt stop
  obtain ⟨bytes, hahead, hspells⟩ := hparses before value after hread
  refine ⟨bytes, hahead, ?_, hgoal value bytes hspells⟩
  -- A field adds to what is pending the bytes by which it gets on.
  unfold Plan.field at hread
  cases hverdict : verdict before.ahead with
  | error stop =>
      rw [hverdict] at hread
      cases hread
  | ok found =>
      rw [hverdict] at hread
      cases hread
      have hbytes : bytes = before.ahead.take found.2 := by
        refine List.append_cancel_right (hahead.symm.trans ?_)
        exact (List.take_append_drop found.2 before.ahead).symm
      rw [hbytes, ← hpending]
      rfl

/-- Refusing halts. -/
theorem refuse {error : ReplicaError} {goal : α → Bytes → Bytes → List Effect → Prop}
    (hhalt : ∀ stop, halt stored changes (.inr stop)) :
    Tracks clear stream stored pending changes (Plan.refuse error : Plan α) goal halt :=
  .of_quiet (fun _ => rfl) (fun _ _ _ hread => nomatch hread) fun _ stop _ => hhalt stop

/-- A demand halts unless it is met. -/
theorem demand {outcome : Except ProtocolError α} {goal : α → Bytes → Bytes → List Effect → Prop}
    (hhalt : ∀ stop, halt stored changes (.inr stop))
    (hgoal : ∀ value, outcome = .ok value → goal value stored pending changes) :
    Tracks clear stream stored pending changes (Plan.demand outcome) goal halt := by
  cases outcome with
  | error error => exact refuse hhalt
  | ok value => exact .pure (hgoal value rfl)

/-- A requirement halts unless it holds. -/
theorem require {condition : Prop} [Decidable condition] {error : ProtocolError}
    {goal : Unit → Bytes → Bytes → List Effect → Prop}
    (hhalt : ∀ stop, halt stored changes (.inr stop))
    (hgoal : condition → goal () stored pending changes) :
    Tracks clear stream stored pending changes (Plan.require condition error) goal halt := by
  unfold Plan.require
  split
  · next h => exact .pure (hgoal h)
  · exact refuse hhalt

/-- An effect other than an append is made, or the plan halts before it. -/
theorem effect {effect : Effect} {goal : Unit → Bytes → Bytes → List Effect → Prop}
    (hkept : effect.fillsArchive = false) (hbytes : effect.archivedBytes = [])
    (hhalt : ¬ clear effect → halt stored changes (.inl effect))
    (hgoal : clear effect → goal () stored pending (changes ++ [effect])) :
    Tracks clear stream stored pending changes (Plan.effect effect) goal halt := by
  intro before hpending hstream
  refine ⟨fun effects value after hplan hclear => ?_, fun done reason hhalts => ?_⟩
  · cases hplan
    simpa [allArchived, changesOf, hkept, hbytes, hpending] using
      ⟨hgoal (hclear effect List.mem_cons_self), hstream⟩
  · unfold Plan.effect at hhalts
    generalize hall : [effect] = effects at hhalts
    cases hhalts with
    | refused _ rest other _ hdone hrefused =>
        cases done with
        | nil =>
            obtain ⟨rfl, -⟩ := List.cons.inj hall
            simpa [allArchived, changesOf, ← hstream] using hhalt hrefused
        | cons first others => simp at hall

/-- What is pending is archived. -/
theorem commit (harchive : ∀ data, clear (.archive data))
    {goal : Unit → Bytes → Bytes → List Effect → Prop}
    (hgoal : goal () (stored ++ pending) [] changes) :
    Tracks clear stream stored pending changes Plan.commit goal halt := by
  intro before hpending hstream
  subst hpending
  have hpassed := Plan.Reads.passes_commit before
  have hall : allArchived (Plan.commit before).effects = before.pending := by
    simpa [Position.commit] using hpassed.archived
  refine ⟨fun effects value after hplan _ => ?_, fun done reason hhalts => ?_⟩
  · rw [hplan] at hpassed hall
    cases hplan
    simpa [hall, hpassed.changes_eq, Position.commit] using ⟨hgoal, hstream⟩
  · have hclear : PlanOf.Emits clear Plan.commit := Plan.Emits.commit harchive
    obtain ⟨stop, hstop, -, -⟩ := hhalts.stopped_of_clear (hclear before)
    cases hstop

/-- What is pending is archived, and then the bytes that were asked for are, if they are there. -/
theorem take (harchive : ∀ data, clear (.archive data)) {what : String} {count : Nat}
    {goal : Bytes → Bytes → Bytes → List Effect → Prop}
    (hhalt : ∀ stop, halt (stored ++ pending) changes (.inr stop))
    (hgoal : ∀ content, content.length = count →
      goal content (stored ++ (pending ++ content)) [] changes) :
    Tracks clear stream stored pending changes (Plan.take what count) goal halt := by
  refine .bind (commit harchive fun before hpending hstream => ?_)
  rw [List.nil_append] at hstream
  unfold Plan.takeAhead
  split
  · next henough =>
      refine ⟨fun effects value after hplan _ => ?_, fun done reason hhalts => ?_⟩
      · cases hplan
        have hcontent := hgoal (before.ahead.take count) (List.length_take_of_le henough)
        simpa [allArchived, changesOf, Effect.archivedBytes, Effect.fillsArchive, Position.take,
          hpending] using And.intro hcontent hstream
      · obtain ⟨stop, hstop, -, -⟩ := hhalts.stopped_of_clear (by simpa using harchive _)
        cases hstop
  · refine ⟨fun effects value after hplan _ => (by cases hplan), fun done reason hhalts => ?_⟩
    obtain ⟨stop, -, rfl, rfl⟩ := hhalts.stopped_of_clear (by simp)
    simpa [allArchived, changesOf, ← hstream] using hhalt stop

end

end Plan.Tracks

end TableReplica.Apply
