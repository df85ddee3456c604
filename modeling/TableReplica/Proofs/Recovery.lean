import TableReplica.Proofs.Plan.Finality
import TableReplica.Proofs.Plan.Following
import TableReplica.Proofs.Plan.Repeating
import TableReplica.Proofs.Progress
import TableReplica.Proofs.ReadBoundaries

/-!
# Recovery by applying again

An apply that was interrupted leaves a first part of its effects behind. Applying the whole
changeset afterwards gives what it would have given at once, whatever was interrupted before, how
often and where: `apply_after_attempts`. The invariant that an attempt preserves is `Recoverable`:
the edits of the whole changeset still come to the same.
-/

namespace TableReplica.Apply

open Files Transport Wire

namespace Replicator

variable (replicator : Replicator)

/-- An apply of the first bytes of a stream asks for a first part of what an apply of the stream
asks for, and then for nothing but the archive. -/
theorem course_of_begun (trusted : Bool) {attempt direct : Delivery}
    (hinitial : attempt.bytes <+: direct.bytes) (first second : Nat) :
    ∃ shared tail, (replicator.course trusted attempt first).effects = shared ++ tail ∧
      shared <+: (replicator.course trusted direct second).effects ∧
      ∀ effect ∈ tail, ∃ data, effect = .archive data := by
  obtain ⟨more, hmore⟩ := hinitial
  have hlengthened : Lengthened more (replicator.plan trusted { ahead := attempt.bytes })
      (replicator.plan trusted { ahead := direct.bytes }) := by
    rw [← hmore]
    exact (replicator.firm_plan trusted).steady { ahead := attempt.bytes } more
  have hwhole : (replicator.plan trusted { ahead := direct.bytes }).effects <+:
      (replicator.course trusted direct second).effects :=
    PlanOf.effects_prefix_bind _ _ _
  generalize hlong : replicator.plan trusted { ahead := direct.bytes } = long at hlengthened hwhole
  generalize hshort : replicator.plan trusted { ahead := attempt.bytes } = short at hlengthened
  cases hlengthened with
  | settled effects receipt after =>
      -- The attempt held a whole changeset. All that it asks for beyond it is the last append.
      rw [course_of_ok hshort]
      split
      · exact ⟨effects, [], by simp, hwhole, by simp⟩
      · split
        · have hcommit : PlanOf.Emits (fun effect => ∃ data, effect = .archive data) Plan.commit :=
            Plan.Emits.commit fun data => ⟨data, rfl⟩
          exact ⟨effects, (Plan.commit after).effects, rfl, hwhole, hcommit after⟩
        · exact ⟨effects, [], by simp, hwhole, by simp⟩
  | stopped effects halt later hbegun =>
      rw [course_of_error hshort]
      exact ⟨effects, [], by simp, hbegun.trans hwhole, by simp⟩

/-- After attempts at a changeset, the edits of its course come to what they came to before. -/
structure Recoverable (home : Location) (course : Course Halt Receipt)
    (before after : FileSystem) : Prop where
  lockFree : LockFree replicator.directory home after
  sameDirectories : before.SameDirectories after
  inside : ∀ name,
    Change.run (Edit.changesAt name (locking :: (replicator.attempted before course).2))
        (after.get? (home ++ [name])) =
      Change.run (Edit.changesAt name (locking :: (replicator.attempted before course).2))
        (before.get? (home ++ [name]))
  outside : ∀ place, (∀ name, place ≠ home ++ [name]) → after.get? place = before.get? place

namespace Recoverable

variable {replicator} {home : Location} {files recovered : FileSystem}

theorem refl (hfree : LockFree replicator.directory home files) (course : Course Halt Receipt) :
    replicator.Recoverable home course files files :=
  ⟨hfree, .refl _, fun _ => rfl, fun _ _ => rfl⟩

/-- What a course comes to is told from the files as they were before the attempts. -/
theorem attempted_eq {course : Course Halt Receipt}
    (h : replicator.Recoverable home course files recovered)
    (hfree : LockFree replicator.directory home files) {other : Course Halt Receipt}
    (horderly : Orderly other.effects) :
    replicator.attempted recovered other = replicator.attempted files other :=
  attempt_of_same hfree.leads h.sameDirectories horderly.kinds

/-- An attempt leaves the files recoverable. -/
theorem attempt {trusted : Bool} {attempt direct : Delivery} {junk : Nat}
    (hfree : LockFree replicator.directory home files)
    (h : replicator.Recoverable home (replicator.course trusted direct junk) files recovered)
    (hinitial : attempt.bytes <+: direct.bytes) (count : Nat) :
    replicator.Recoverable home (replicator.course trusted direct junk) files
      (replicator.follow trusted attempt count recovered).2 := by
  obtain ⟨-, hedited, hstillFree⟩ :=
    replicator.follow_of_lockFree trusted h.lockFree attempt count
  have hwhole := replicator.orderly_course trusted direct junk
  have hbegun := replicator.orderly_course trusted attempt count
  rw [h.attempted_eq hfree hbegun] at hedited
  -- The attempt made edits that the whole begins with, and making these again changes nothing.
  refine ⟨hstillFree, h.sameDirectories.trans hedited.sameDirectories, fun name => ?_,
    fun place hplace => (hedited.outside place hplace).trans (h.outside place hplace)⟩
  rw [hedited.inside, ← h.inside]
  obtain ⟨shared, tail, heffects, hshared, htail⟩ :=
    replicator.course_of_begun trusted hinitial count junk
  rw [heffects] at hbegun
  unfold attempted
  rw [heffects]
  exact run_attempt_again hwhole hbegun hshared htail name _

/-- Any number of attempts leaves the files recoverable. -/
theorem attempts {trusted : Bool} {direct : Delivery} {junk : Nat} (attempts : List Connection)
    (hfree : LockFree replicator.directory home files)
    (hprefixes : ∀ attempt ∈ attempts, attempt.delivery.bytes <+: direct.bytes)
    (h : replicator.Recoverable home (replicator.course trusted direct junk) files recovered) :
    replicator.Recoverable home (replicator.course trusted direct junk) files
      (attempts.foldl (fun files attempt => (replicator.apply trusted attempt files).files)
        recovered) := by
  induction attempts generalizing recovered with
  | nil => exact h
  | cons attempt rest ih =>
      obtain ⟨count, hfollow⟩ := replicator.apply_eq_follow trusted attempt
      refine ih (fun other hmem => hprefixes other (List.mem_cons_of_mem _ hmem)) ?_
      have hafter : (replicator.apply trusted attempt recovered).files =
          (replicator.follow trusted attempt.delivery count recovered).2 :=
        congrArg Prod.snd (hfollow recovered)
      show replicator.Recoverable home _ files (replicator.apply trusted attempt recovered).files
      rw [hafter]
      exact h.attempt hfree (hprefixes attempt List.mem_cons_self) count

end Recoverable

/-- Nothing is attempted while the lock cannot be taken. -/
theorem files_of_locked {trusted : Bool} {files : FileSystem} {error : ReplicaError}
    (hlock : acquireLock replicator.directory files = .error error) (attempts : List Connection) :
    attempts.foldl (fun files attempt => (replicator.apply trusted attempt files).files) files =
      files := by
  induction attempts with
  | nil => rfl
  | cons attempt rest ih =>
      have hsame : (replicator.apply trusted attempt files).files = files := by
        obtain ⟨count, hfollow⟩ := replicator.apply_eq_follow trusted attempt
        refine (congrArg Prod.snd (hfollow files)).trans ?_
        unfold follow
        rw [hlock]
      rw [List.foldl_cons, hsame]
      exact ih

/-- Following a course after attempts gives the answer and the files that following it at once
gives. -/
theorem follow_after_attempts (attempts : List Connection) {direct : Delivery}
    (hprefixes : ∀ attempt ∈ attempts, attempt.delivery.bytes <+: direct.bytes) (junk : Nat)
    (trusted : Bool) (files : FileSystem) :
    (replicator.follow trusted direct junk (attempts.foldl
        (fun files attempt => (replicator.apply trusted attempt files).files) files)).1 =
        (replicator.follow trusted direct junk files).1 ∧
      ∀ place, (replicator.follow trusted direct junk (attempts.foldl
          (fun files attempt => (replicator.apply trusted attempt files).files)
            files)).2.get? place =
        (replicator.follow trusted direct junk files).2.get? place := by
  cases hlock : acquireLock replicator.directory files with
  | error error =>
      rw [replicator.files_of_locked hlock]
      exact ⟨rfl, fun _ => rfl⟩
  | ok taken =>
      obtain ⟨home, hfree⟩ := lockFree_of_acquireLock hlock
      have h : replicator.Recoverable home (replicator.course trusted direct junk) files _ :=
        .attempts attempts hfree hprefixes (.refl hfree _)
      revert h
      generalize attempts.foldl _ files = recovered
      intro h
      obtain ⟨honce, hdone, -⟩ := replicator.follow_of_lockFree trusted hfree direct junk
      obtain ⟨hafter, hagain, -⟩ := replicator.follow_of_lockFree trusted h.lockFree direct junk
      -- What is in the way of the course is what was in its way before the attempts.
      have hsame := h.attempted_eq hfree (replicator.orderly_course trusted direct junk)
      refine ⟨?_, fun place => ?_⟩
      · rw [honce, hafter]
        unfold answer
        rw [hsame]
      · rw [hsame] at hagain
        rcases inside_or_outside home place with ⟨name, rfl⟩ | hplace
        · rw [hagain.inside, hdone.inside, h.inside]
        · rw [hagain.outside place hplace, hdone.outside place hplace, h.outside place hplace]

/-- Applying a changeset after any interrupted attempts at it gives the result that applying it at
once gives, and leaves the same files. If the connection cuts the bytes in another way, the number
of junk bytes that an error counts may differ. -/
theorem apply_after_attempts (attempts : List Connection) {direct again : Connection}
    (hagain : again.delivery = direct.delivery)
    (hprefixes : ∀ attempt ∈ attempts, attempt.delivery.bytes <+: direct.delivery.bytes)
    (files : FileSystem) :
    let recovered := attempts.foldl
      (fun files attempt => (replicator.apply false attempt files).files) files
    (replicator.apply false again recovered).result.mapError Failure.uncounted =
        (replicator.apply false direct files).result.mapError Failure.uncounted ∧
      (again = direct → (replicator.apply false again recovered).result =
        (replicator.apply false direct files).result) ∧
      ∀ place, (replicator.apply false again recovered).files.get? place =
        (replicator.apply false direct files).files.get? place := by
  intro recovered
  obtain ⟨count, honce⟩ := replicator.apply_eq_follow false direct
  obtain ⟨other, hlater⟩ := replicator.apply_eq_follow false again
  obtain ⟨hresult, hfiles⟩ :=
    replicator.follow_after_attempts attempts hprefixes count false files
  -- Following the course with the junk count of `direct` is what `direct` itself would do.
  obtain ⟨huncounted, hsame⟩ :=
    replicator.follow_uncounted false direct.delivery other count recovered
  rw [← honce files] at hresult hfiles
  refine ⟨?_, ?_, fun place => ?_⟩
  · rw [← hagain, ← hlater recovered, hagain] at huncounted
    exact huncounted.trans (congrArg _ hresult)
  · rintro rfl
    rw [← honce recovered] at hresult
    exact hresult
  · rw [← hagain, ← hlater recovered, hagain] at hsame
    exact (congrArg (·.get? place) hsame).trans (hfiles place)

/-- Attempts at `sampleStream`: one stalls in the contents of the block, and one loses its
connection after them. -/
def interruptedSample : List Connection :=
  [[.data (sampleStream.bytes.take 23), .stall],
    [.data (sampleStream.bytes.take 9), .data ((sampleStream.bytes.take 24).drop 9),
      .fault "reset"]]

/-- The attempts write the block and archive the stream up to it, and then the changeset is applied
as if they had not been made. -/
theorem apply_after_attempts_interrupted :
    let recovered := interruptedSample.foldl
      (fun files attempt => (sampleReplicator.apply false attempt files).files) {}
    recovered.readFile (dataFilePath sampleReplicator.directory "a") = .ok [0, 0, 0, 0, 8, 9] ∧
      recovered.readFile (archivePath sampleReplicator.directory 4) =
        .ok (sampleStream.bytes.take 24) ∧
      (sampleReplicator.apply false [.data sampleStream.bytes] recovered).result =
        (sampleReplicator.apply false [.data sampleStream.bytes] {}).result ∧
      ∀ place,
        (sampleReplicator.apply false [.data sampleStream.bytes] recovered).files.get? place =
          (sampleReplicator.apply false [.data sampleStream.bytes] {}).files.get? place := by
  have hsame : Connection.delivery [.data sampleStream.bytes] =
      Connection.delivery [.data sampleStream.bytes] := rfl
  have hagain := apply_after_attempts sampleReplicator interruptedSample hsame (by decide) {}
  exact ⟨by decide +kernel, by decide +kernel, hagain.2.1 rfl, hagain.2.2⟩

end Replicator

end TableReplica.Apply
