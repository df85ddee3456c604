import TableReplica.Proofs.Outcome
import TableReplica.Proofs.Plan.Stopping

/-!
# How an apply fails

There are three ways for an apply to fail: it cannot take the lock, something is in the way of a
file that it writes to, or its stream comes to a halt. `fails_of_apply` tells which, and
`mem_errorStages_of_apply` that the stage of a failure is one in which its error is found, unless
the error is the revision reader's own. An apply that does not fail has come to the end of its
course (`performed_of_applied`).
-/

namespace TableReplica.Apply

open Files Transport Wire

/-- What cannot be locked is reported as such. -/
theorem lock_of_acquireLock {directory : Path} {files : FileSystem} {error : ReplicaError}
    (h : acquireLock directory files = .error error) : ∃ refusal, error = .lock directory refusal := by
  unfold acquireLock at h
  split at h
  · cases h
    exact ⟨_, rfl⟩
  · split at h
    · cases h
      exact ⟨_, rfl⟩
    · cases h

section

variable {directory : Path} {archived : Option Nat} {files : FileSystem}

/-- What is in the way of an effect is an error of its stage, found by the file system. -/
theorem Effect.storage_of_obstacle? {effect : Effect} {error : ReplicaError}
    (h : effect.obstacle? directory archived files = some error) :
    effect.stage ∈ errorStages error ∧
      ∃ action path refusal, error = .storage action path refusal := by
  cases effect with
  | openArchive start =>
      obtain ⟨revision, -, hblocked⟩ := Option.bind_eq_some_iff.mp h
      obtain ⟨refusal, -, rfl⟩ := Option.map_eq_some_iff.mp hblocked
      exact ⟨List.mem_singleton.mpr rfl, _, _, _, rfl⟩
  | archive data => cases h
  | openData table | writeBlock table offset block =>
      obtain ⟨refusal, -, rfl⟩ := Option.map_eq_some_iff.mp h
      exact ⟨List.mem_singleton.mpr rfl, _, _, _, rfl⟩
  | replaceBase table letter content =>
      rcases Option.or_eq_some_iff.mp h with hblocked | ⟨-, hblocked⟩
      all_goals
        obtain ⟨refusal, -, rfl⟩ := Option.map_eq_some_iff.mp hblocked
        exact ⟨List.mem_singleton.mpr rfl, _, _, _, rfl⟩

/-- An attempt fails at an effect that something is in the way of. -/
theorem exists_of_attempt_error {effects : List Effect} {failure : Failure}
    (h : (attempt directory archived files effects).1 = .error failure) :
    ∃ effect ∈ effects, failure.stage = effect.stage ∧
      effect.obstacle? directory archived files = some failure.error := by
  induction effects with
  | nil => cases h
  | cons effect rest ih =>
      unfold attempt at h
      cases hobstacle : effect.obstacle? directory archived files with
      | none =>
          rw [hobstacle] at h
          obtain ⟨other, hmem, hother⟩ := ih h
          exact ⟨other, List.mem_cons_of_mem _ hmem, hother⟩
      | some error =>
          rw [hobstacle] at h
          cases h
          exact ⟨effect, List.mem_cons_self, rfl, hobstacle⟩

end

namespace Replicator

variable (replicator : Replicator) (trusted : Bool)

/-- The course of an apply stops where its plan does, or at the end of the changeset. -/
theorem haltsFor_of_course {delivery : Delivery} {junk : Nat} {halt : Halt}
    (h : (replicator.course trusted delivery junk).outcome = .error halt) :
    HaltsFor replicator trusted delivery.bytes halt := by
  rcases PlanOf.bind_outcome_eq_error h with hplan | ⟨_, receipt, after, _, hlater⟩
  · exact replicator.stops_plan trusted hplan
  rcases PlanOf.bind_outcome_eq_error hlater with hfinish | ⟨_, _, last, _, hlast⟩
  · obtain ⟨stop, hstop, rfl⟩ := PlanOf.during_outcome_eq_error hfinish
    refine .found _ stop ?_
    unfold Plan.finish at hstop
    split at hstop
    · cases hstop
      exact List.mem_singleton.mpr rfl
    · split at hstop
      · cases hstop
      · cases hstop
        exact Plan.Stops.truncated (by decide) _
  · cases hlast

/-- The ways for an apply to fail. -/
inductive Fails (connection : Connection) (files : FileSystem) : Failure → Prop where
  /-- The lock cannot be taken. -/
  | locked (refusal : LockRefusal) :
      acquireLock replicator.directory files = .error (.lock replicator.directory refusal) →
        Fails connection files
          { stage := .awaitingLock, error := .lock replicator.directory refusal }
  /-- Something is in the way of an effect. -/
  | obstructed (archived : Option Nat) (effect : Effect) (error : ReplicaError) :
      effect.obstacle? replicator.directory archived files = some error →
        Fails connection files { stage := effect.stage, error }
  /-- The stream comes to a halt. -/
  | halted (halt : Halt) (junk : Nat) :
      (replicator.course trusted connection.delivery junk).outcome = .error halt →
        Fails connection files
          { stage := halt.stage, error := connection.delivery.ending.report halt.stop }

variable {replicator trusted} {connection : Connection} {files : FileSystem} {failure : Failure}

/-- An answer that is an error tells what is in the way, or where the course stops. -/
theorem fails_of_answer {junk : Nat}
    (h : replicator.answer files (replicator.course trusted connection.delivery junk)
      connection.delivery.ending = .error failure) :
    replicator.Fails trusted connection files failure := by
  unfold answer at h
  split at h
  · next hattempted =>
      cases h
      obtain ⟨effect, -, hstage, hobstacle⟩ := exists_of_attempt_error hattempted
      obtain ⟨stage, error⟩ := failure
      cases hstage
      exact .obstructed _ effect error hobstacle
  · split at h
    · next halt hhalt =>
        cases h
        exact .halted halt junk hhalt
    · cases h

/-- Whatever an apply fails with, it fails in one of three ways. -/
theorem fails_of_apply (h : (replicator.apply trusted connection files).result = .error failure) :
    replicator.Fails trusted connection files failure := by
  cases hlock : acquireLock replicator.directory files with
  | error error =>
      rw [apply_of_lock_error hlock] at h
      cases h
      obtain ⟨refusal, rfl⟩ := lock_of_acquireLock hlock
      exact .locked refusal hlock
  | ok taken =>
      obtain ⟨home, hfree⟩ := lockFree_of_acquireLock hlock
      obtain ⟨junk, hresult, -⟩ := apply_of_lockFree hfree trusted connection
      exact fails_of_answer (hresult.symm.trans h)

/-- The stage of a failure is one in which its error is found, unless the error is the revision
reader's own. -/
theorem mem_errorStages_of_apply
    (h : (replicator.apply trusted connection files).result = .error failure) :
    failure.stage ∈ errorStages failure.error ∨
      failure.stage = .checkingRevision ∧ trusted = true ∧
        replicator.revisions replicator.directory = .error failure.error := by
  cases fails_of_apply h with
  | locked refusal => exact .inl (List.mem_singleton.mpr rfl)
  | obstructed archived effect error hobstacle =>
      exact .inl (Effect.storage_of_obstacle? hobstacle).1
  | halted halt junk hhalt =>
      cases replicator.haltsFor_of_course trusted hhalt with
      | magic hshort =>
          refine .inl ?_
          cases connection.delivery.ending <;> exact List.mem_cons_self
      | reader error htrusted hfailed =>
          refine .inr ⟨rfl, htrusted, ?_⟩
          rw [hfailed]
          cases connection.delivery.ending <;> rfl
      | found stage stop hfound => exact .inl (mem_errorStages_report hfound _)

/-- An apply that succeeds was able to take the lock, to do all that its course asks for, and to
come to the end of its course. -/
theorem performed_of_applied {applied : Applied}
    (h : (replicator.apply trusted connection files).result = .ok applied) :
    ∃ junk place locked done found,
      acquireLock replicator.directory files = .ok (place, locked) ∧
      performAll replicator.directory replicator.config.maxChangesets
        (replicator.course trusted connection.delivery junk).effects { files := locked } =
          (.ok (), done) ∧
      (replicator.course trusted connection.delivery junk).outcome = .ok found := by
  obtain ⟨junk, hfollow⟩ := replicator.apply_eq_follow trusted connection
  have hresult := (congrArg Prod.fst (hfollow files)).symm.trans h
  unfold follow at hresult
  split at hresult
  · cases hresult
  · next place locked hlock =>
      simp only at hresult
      split at hresult
      · cases hresult
      · next done hperformed =>
          simp only at hresult
          split at hresult
          · next receipt last hcourse =>
              exact ⟨junk, place, locked, done, _, hlock, hperformed, hcourse⟩
          · cases hresult

end Replicator

end TableReplica.Apply
