import TableReplica.Proofs.Files.Names
import TableReplica.Proofs.Plan.Basic

/-!
# The effects that plans ask for

`Emits` says of a plan that all effects it asks for are of some kind. The header asks for the
archive and fills it; the chunks ask for changes to the files of tables whose names were checked,
and fill the archive too (`emits_chunks`); nothing else asks for anything. So an apply opens its
archive before it asks for anything else, and does not open another: `orderly_course`.
-/

namespace TableReplica.Apply

open Files Transport Wire

namespace Effect

/-- An effect that the header may ask for. -/
def OfHeader : Effect → Prop
  | openArchive _ => True
  | archive _ => True
  | _ => False

/-- An effect that chunks may ask for. -/
def OfChunk : Effect → Prop
  | openArchive _ => False
  | archive _ => True
  | openData table => IsTableName table
  | writeBlock table _ _ => IsTableName table
  | replaceBase table _ _ => IsTableName table

end Effect

namespace PlanOf

variable {ε α β σ : Type}

/-- All effects that a plan asks for are good. -/
def Emits (good : Effect → Prop) (plan : PlanOf ε α) : Prop :=
  ∀ position, ∀ effect ∈ (plan position).effects, good effect

namespace Emits

variable {good : Effect → Prop}

/-- What is good is better if good effects are. -/
theorem mono {better : Effect → Prop} {plan : PlanOf ε α} (h : Emits good plan)
    (himp : ∀ effect, good effect → better effect) : Emits better plan :=
  fun position effect hmem => himp effect (h position effect hmem)

/-- Giving a value asks for nothing. -/
theorem pure (value : α) : Emits good (Pure.pure value : PlanOf ε α) :=
  fun _ _ hmem => nomatch hmem

/-- What follows a plan has to be good only for the values that it reads. -/
theorem bind {first : PlanOf ε α} {next : α → PlanOf ε β} (hfirst : Emits good first)
    (hnext : ∀ value position after, (first position).outcome = .ok (value, after) →
      Emits good (next value)) :
    Emits good (first >>= next) := by
  intro position effect hmem
  change effect ∈ (PlanOf.bind first next position).effects at hmem
  unfold PlanOf.bind at hmem
  split at hmem
  · next value after hread =>
      rcases List.mem_append.mp hmem with hbefore | hafter
      · exact hfirst position effect hbefore
      · exact hnext value position after hread after effect hafter
  · exact hfirst position effect hmem

/-- A loop asks for what its rounds ask for. -/
theorem loop {body : σ → PlanOf ε (σ ⊕ α)} {htakes : ∀ state, Takes 1 (body state)}
    (hbody : ∀ state, Emits good (body state)) (state : σ) :
    Emits good (PlanOf.loop body htakes state) := by
  intro position effect hmem
  fun_induction PlanOf.loop body htakes state position with
  | case1 state position next after hround ih =>
      rcases List.mem_append.mp hmem with hbefore | hafter
      · exact hbody state position effect hbefore
      · exact ih hafter
  | case2 state position value after hround => exact hbody state position effect hmem
  | case3 state position stop hround => exact hbody state position effect hmem

/-- Following a plan as a stage asks for what the plan asks for. -/
theorem during {plan : Plan α} (h : Emits good plan) (stage : Stage) :
    Emits good (plan.during stage) :=
  fun position effect hmem => h position effect hmem

end Emits

end PlanOf

namespace Plan

open PlanOf (Emits)

variable {α : Type}

namespace Emits

variable {good : Effect → Prop}

/-- Decoding a field asks for nothing. -/
theorem field (verdict : Verdict α) : Emits good (Plan.field verdict) :=
  fun _ _ hmem => nomatch hmem

/-- An effect that is asked for has to be good itself. -/
theorem effect {effect : Effect} (h : good effect) : Emits good (Plan.effect effect) := by
  intro position other hmem
  rw [List.mem_singleton.mp hmem]
  exact h

/-- Refusing asks for nothing. -/
theorem refuse (error : ReplicaError) : Emits good (Plan.refuse error : Plan α) :=
  fun _ _ hmem => nomatch hmem

/-- Nor does a demand, met or not. -/
theorem demand (outcome : Except ProtocolError α) : Emits good (Plan.demand outcome) := by
  cases outcome with
  | error error => exact refuse _
  | ok value => exact .pure value

/-- Nor does a requirement. -/
theorem require (condition : Prop) [Decidable condition] (error : ProtocolError) :
    Emits good (Plan.require condition error) := by
  unfold Plan.require
  split
  · exact .pure ()
  · exact refuse _

/-- Archiving asks for appends. -/
theorem commit (h : ∀ data, good (.archive data)) : Emits good Plan.commit := by
  intro position effect hmem
  change effect ∈ (if position.pending = [] then [] else [Effect.archive position.pending]) at hmem
  split at hmem
  · cases hmem
  · rw [List.mem_singleton.mp hmem]
    exact h _

/-- So does taking bytes. -/
theorem takeAhead (h : ∀ data, good (.archive data)) (what : String) (count : Nat) :
    Emits good (Plan.takeAhead what count) := by
  intro position effect hmem
  unfold Plan.takeAhead at hmem
  split at hmem
  · rw [List.mem_singleton.mp hmem]
    exact h _
  · cases hmem

/-- So does taking bytes after archiving those before them. -/
theorem take (h : ∀ data, good (.archive data)) (what : String) (count : Nat) :
    Emits good (Plan.take what count) :=
  .bind (commit h) fun _ _ _ _ => takeAhead h what count

/-- Reading the header asks for nothing. -/
theorem header : Emits good Plan.header :=
  .bind (field _) fun _ _ _ _ => .bind (field _) fun _ _ _ _ => .bind (require _ _) fun _ _ _ _ =>
    .bind (field _) fun _ _ _ _ => .bind (field _) fun _ _ _ _ =>
      .bind (require _ _) fun _ _ _ _ => .bind (field _) fun _ _ _ _ =>
        .bind (require _ _) fun _ _ _ _ => .pure _

/-- Checking the revision asks for nothing. -/
theorem revision (directory : Path) (revisions : RevisionReader) (trusted : Bool)
    (startRevision : Nat) :
    Emits good (Plan.revision directory revisions trusted startRevision) := by
  unfold Plan.revision
  split
  · split
    · exact refuse _
    · exact require _ _
  · exact .pure ()

/-- Neither does reading the required revision. -/
theorem required (endRevision : Nat) : Emits good (Plan.required endRevision) :=
  .bind (field _) fun _ _ _ _ => .bind (require _ _) fun _ _ _ _ => .pure _

end Emits

/-- The header asks for an archive and for nothing else. -/
theorem emits_opening : Emits Effect.OfHeader Plan.opening :=
  .bind Emits.header fun _ _ _ _ => .bind (Emits.effect trivial) fun _ _ _ _ =>
    .bind (Emits.commit fun _ => trivial) fun _ _ _ _ => .pure _

/-- A name that was read is the name of a table. -/
theorem isTableName_of_table {position after : Position} {table : String}
    (h : (Plan.table position).outcome = .ok (table, after)) : IsTableName table := by
  -- The name is what parsing the bytes read gave, or the plan would have stopped there.
  obtain ⟨raw, middle, -, hrest⟩ := PlanOf.bind_outcome_eq_ok h
  obtain ⟨name, found, hname, hlast⟩ := PlanOf.bind_outcome_eq_ok hrest
  obtain ⟨_, _, -, hlast⟩ := PlanOf.bind_outcome_eq_ok hlast
  cases hlast
  refine ⟨raw, ?_⟩
  cases hparse : parseTableName raw with
  | error error =>
      rw [hparse] at hname
      cases hname
  | ok parsed =>
      rw [hparse] at hname
      cases hname
      rfl

section

variable {directory : Path} {table : String}

/-- A table name is archived. -/
theorem emits_table : Emits Effect.OfChunk Plan.table :=
  .bind (Emits.field _) fun _ _ _ _ => .bind (Emits.demand _) fun _ _ _ _ =>
    .bind (Emits.commit fun _ => trivial) fun _ _ _ _ => .pure _

/-- A base file chunk asks to replace a base file of its table, once its contents are archived. -/
theorem emits_baseFile (htable : IsTableName table) :
    Emits Effect.OfChunk (Plan.baseFile table) := by
  refine .bind (Emits.field _) fun _ _ _ _ => .bind (Emits.demand _) fun _ _ _ _ =>
    .bind (Emits.field _) fun _ _ _ _ => ?_
  split
  · exact Emits.refuse _
  · exact .bind (Emits.take (fun _ => trivial) _ _) fun _ _ _ _ =>
      .bind (Emits.effect htable) fun _ _ _ _ => .pure _

/-- A block asks to be written to the data file of its table. -/
theorem emits_block (htable : IsTableName table) (offset : Nat) (content : Bytes) :
    Emits Effect.OfChunk (Plan.block directory table offset content) := by
  unfold Plan.block
  split
  · exact Emits.refuse _
  · exact Emits.effect htable

/-- What comes after a block number asks for no more than a block does. -/
theorem emits_numbered (htable : IsTableName table) (blockSize number : Nat) :
    Emits Effect.OfChunk (Plan.numbered directory table blockSize number) := by
  cases number with
  | zero => exact .bind (Emits.commit fun _ => trivial) fun _ _ _ _ => .pure _
  | succ index =>
      unfold Plan.numbered
      simp only
      split
      · exact Emits.refuse _
      · exact .bind (Emits.take (fun _ => trivial) _ _) fun _ _ _ _ =>
          .bind (emits_block htable _ _) fun _ _ _ _ => .pure _

/-- A block chunk asks to open the data file of its table, and then for its blocks. -/
theorem emits_blocks (htable : IsTableName table) :
    Emits Effect.OfChunk (Plan.blocks directory table) := by
  refine .bind (Emits.field _) fun _ _ _ _ => ?_
  split
  · exact Emits.refuse _
  · exact .bind (Emits.commit fun _ => trivial) fun _ _ _ _ =>
      .bind (Emits.effect htable) fun _ _ _ _ => .loop (fun _ =>
        .bind (Emits.field _) fun _ _ _ _ => .bind (emits_numbered htable _ _) fun _ _ _ _ =>
          .pure _) _

/-- A chunk asks for changes to files of a table whose name was checked. -/
theorem emits_tagged (tag : UInt8) : Emits Effect.OfChunk (Plan.tagged directory tag) := by
  unfold Plan.tagged
  split
  · exact Emits.refuse _
  · exact .pure _
  · exact .bind emits_table fun _ _ _ hread =>
      .bind (emits_baseFile (isTableName_of_table hread)) fun _ _ _ _ => .pure _
  · exact .bind emits_table fun _ _ _ hread =>
      .bind (emits_blocks (isTableName_of_table hread)) fun _ _ _ _ => .pure _

/-- Chunks change files of tables and fill the archive. -/
theorem emits_chunks (directory : Path) : Emits Effect.OfChunk (Plan.chunks directory) :=
  .loop (fun _ => .bind (Emits.field _) fun _ _ _ _ =>
    .bind (emits_tagged _) fun _ _ _ _ => .pure _) _

end

end Plan

/-- The effects of an apply: the archive is opened before anything else is asked for. -/
inductive Orderly : List Effect → Prop where
  | nothing : Orderly []
  | opening (start : Nat) (rest : List Effect) :
      (∀ effect ∈ rest, effect.OfChunk) → Orderly (.openArchive start :: rest)

/-- Effects that are in order are those of a header or of chunks. -/
theorem Orderly.kinds {effects : List Effect} (h : Orderly effects) :
    ∀ effect ∈ effects, effect.OfChunk ∨ ∃ start, effect = .openArchive start := by
  cases h with
  | nothing => exact fun _ hmem => nomatch hmem
  | opening start rest hrest =>
      intro effect hmem
      rcases List.mem_cons.mp hmem with rfl | hmem
      · exact .inr ⟨start, rfl⟩
      · exact .inl (hrest effect hmem)

namespace PlanOf

variable {ε α β : Type}

/-- A plan opens the archive first, and gives a value only after it has done so. -/
def Opens (plan : PlanOf ε α) : Prop :=
  ∀ position, Orderly (plan position).effects ∧
    ∀ value after, (plan position).outcome = .ok (value, after) → (plan position).effects ≠ []

namespace Opens

/-- A plan that asks for nothing may come before the archive is opened. -/
theorem after {first : PlanOf ε α} {next : α → PlanOf ε β} (hfirst : Emits (fun _ => False) first)
    (hnext : ∀ value, Opens (next value)) : Opens (first >>= next) := by
  intro position
  have hnothing : (first position).effects = [] :=
    List.eq_nil_iff_forall_not_mem.mpr (hfirst position)
  cases hread : first position with
  | mk effects outcome =>
      rw [hread] at hnothing
      cases hnothing
      cases outcome with
      | error stop =>
          rw [bind_of_error hread]
          exact ⟨.nothing, fun _ _ h => nomatch h⟩
      | ok found =>
          obtain ⟨value, middle⟩ := found
          rw [bind_of_ok hread]
          exact hnext value middle

/-- Chunks may come after the archive was opened. -/
theorem bind {first : PlanOf ε α} {next : α → PlanOf ε β} (hfirst : Opens first)
    (hnext : ∀ value, Emits Effect.OfChunk (next value)) : Opens (first >>= next) := by
  intro position
  obtain ⟨horderly, hopened⟩ := hfirst position
  cases hread : first position with
  | mk effects outcome =>
      rw [hread] at horderly hopened
      cases outcome with
      | error stop =>
          rw [bind_of_error hread]
          exact ⟨horderly, fun _ _ h => nomatch h⟩
      | ok found =>
          obtain ⟨value, middle⟩ := found
          rw [bind_of_ok hread]
          cases horderly with
          -- A plan that opens the archive has asked for something by the time it gives a value.
          | nothing => exact absurd rfl (hopened value middle rfl)
          | opening start rest hrest =>
              refine ⟨.opening start (rest ++ (next value middle).effects) fun effect hmem => ?_,
                fun _ _ _ => List.cons_ne_nil _ _⟩
              rcases List.mem_append.mp hmem with hbefore | hafter
              · exact hrest effect hbefore
              · exact hnext value middle effect hafter

/-- Opening the archive comes before chunks. -/
theorem opening {start : Nat} {next : Plan α} (hnext : next.Emits Effect.OfChunk) :
    Opens (Plan.effect (.openArchive start) >>= fun _ => next) := by
  refine bind (fun position => ⟨.opening start [] fun _ hmem => ?_, fun _ _ _ => ?_⟩)
    fun _ => hnext
  · cases hmem
  · exact List.cons_ne_nil _ _

/-- Following a plan as a stage leaves the order of its effects. -/
theorem during {plan : Plan α} (h : Opens plan) (stage : Stage) : Opens (plan.during stage) := by
  intro position
  obtain ⟨horderly, hopened⟩ := h position
  refine ⟨horderly, fun value after hread => ?_⟩
  cases houtcome : (plan position).outcome with
  | error stop =>
      simp [PlanOf.during, houtcome, Except.mapError] at hread
  | ok found => exact hopened found.1 found.2 houtcome

end Opens

end PlanOf

namespace Plan

open PlanOf (Emits Opens)

/-- What the header asks for begins with the opening of the archive. -/
theorem opens_opening : Opens Plan.opening :=
  .after Emits.header fun _ =>
    .opening (.bind (Emits.commit fun _ => trivial) fun _ _ _ _ => .pure _)

/-- The end of the stream asks for the archive alone. -/
theorem emits_finish {good : Effect → Prop} (h : ∀ data, good (.archive data)) (ending : Ending)
    (junk : Nat) : Emits good (Plan.finish ending junk) := by
  intro position effect hmem
  unfold Plan.finish at hmem
  split at hmem
  · cases hmem
  · split at hmem
    · exact Emits.commit h position effect hmem
    · cases hmem

end Plan

namespace Replicator

variable (replicator : Replicator) (trusted : Bool)

/-- So does what an apply asks for. -/
theorem opens_plan : PlanOf.Opens (replicator.plan trusted) :=
  .bind (.during Plan.opens_opening _) fun _ =>
    .bind (.during (Plan.Emits.revision _ _ _ _) _) fun _ _ _ _ =>
      .bind (.during (Plan.emits_chunks _) _) fun _ _ _ _ =>
        .bind (.during (Plan.Emits.required _) _) fun _ _ _ _ => .pure _

/-- An apply asks for its archive, and then for what its chunks ask for. -/
theorem orderly_course (delivery : Delivery) (junk : Nat) :
    Orderly (replicator.course trusted delivery junk).effects :=
  (PlanOf.Opens.bind (replicator.opens_plan trusted) (fun _ =>
    .bind (.during (Plan.emits_finish (fun _ => trivial) _ _) _) fun _ _ _ _ => .pure _)
    { ahead := delivery.bytes }).1

end Replicator

end TableReplica.Apply
