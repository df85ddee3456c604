import TableReplica.Proofs.Codec.Canonical
import TableReplica.Proofs.Stages

/-!
# Whether a replica has caught up

A caller of an apply is handed the required revision, encoded, and goes on until the revision that
the replica has come to has reached it. Encoded revisions are compared as the numbers that they
stand for, in whichever way these are spelled, and bytes that stand for no number are refused
(`hasReached_of_standsFor`, `hasReached_of_invalid`). What an apply hands to its caller stands for
the required revision in the footer of its changeset. The main result is `apply_requires`.
-/

namespace TableReplica.Wire

variable {encoded first second : Bytes} {revision reached target : Nat}

/-- The bytes spell a revision, and there is nothing after it. -/
def StandsFor (encoded : Bytes) (revision : Nat) : Prop :=
  unpackUint encoded = .value revision encoded.length

instance : Decidable (StandsFor encoded revision) :=
  inferInstanceAs (Decidable (_ = _))

/-- Reading a revision from a caller gives the one that the bytes stand for. -/
theorem decodeRevision_of_standsFor (h : StandsFor encoded revision) :
    decodeRevision encoded = .ok revision := by
  unfold StandsFor at h
  simp only [decodeRevision, h, if_pos]

/-- Bytes that stand for no revision are refused. -/
theorem decodeRevision_of_invalid (h : ¬ ∃ revision, StandsFor encoded revision) :
    decodeRevision encoded = .error .invalidRevision := by
  unfold decodeRevision
  split
  · next value length hvalue =>
      have hshort : length ≠ encoded.length := by
        rintro rfl
        exact h ⟨value, hvalue⟩
      rw [if_neg hshort]
  · rfl

/-- A revision that is written for a caller stands for itself. -/
theorem standsFor_encodeRevision (h : revision < wordBound) :
    StandsFor (encodeRevision revision) revision := by
  have hread := (canonical_packUint h).decoded []
  rwa [List.append_nil] at hread

/-- Encoded revisions are compared as the numbers that they stand for. -/
theorem hasReached_of_standsFor (hfirst : StandsFor first reached)
    (hsecond : StandsFor second target) :
    hasReached first second = .ok (decide (target ≤ reached)) := by
  unfold hasReached
  rw [decodeRevision_of_standsFor hfirst, decodeRevision_of_standsFor hsecond]
  rfl

/-- Nothing is compared with bytes that stand for no revision. -/
theorem hasReached_of_invalid
    (h : (¬ ∃ reached, StandsFor first reached) ∨ ¬ ∃ target, StandsFor second target) :
    hasReached first second = .error (.protocol .invalidRevision) := by
  unfold hasReached
  by_cases hfirst : ∃ reached, StandsFor first reached
  · obtain ⟨reached, hreached⟩ := hfirst
    rw [decodeRevision_of_standsFor hreached,
      decodeRevision_of_invalid (h.resolve_left (not_not_intro ⟨reached, hreached⟩))]
    rfl
  · rw [decodeRevision_of_invalid hfirst]
    rfl

end TableReplica.Wire

namespace TableReplica.Apply

open Files Transport Wire Format

/-- What a caller learns from the encoded revision that comes back for a changeset: it is the
required one, and another revision is told to have reached it just if it is as high. -/
structure Requires (changeset : Stream) (encoded : Bytes) : Prop where
  decoded : decodeRevision encoded = .ok changeset.required.value
  ordered : changeset.startRevision.value < changeset.endRevision.value
  later : changeset.endRevision.value ≤ changeset.required.value
  reached : ∀ revision < 2 ^ 64,
    hasReached (encodeRevision revision) encoded =
      .ok (decide (changeset.required.value ≤ revision))
  atEnd : hasReached (encodeRevision changeset.endRevision.value) encoded =
    .ok (decide (changeset.required.value = changeset.endRevision.value))
  atStart : hasReached (encodeRevision changeset.startRevision.value) encoded = .ok false

/-- The encoded required revision of a changeset tells its caller when to stop. -/
theorem requires_encodeRevision (changeset : Stream) :
    Requires changeset (encodeRevision changeset.required.value) := by
  have hordered := changeset.ordered
  have hlater := changeset.later
  have hrequired := standsFor_encodeRevision changeset.required.value_lt
  have hreached (numeral : Numeral) :
      hasReached (encodeRevision numeral.value) (encodeRevision changeset.required.value) =
        .ok (decide (changeset.required.value ≤ numeral.value)) :=
    hasReached_of_standsFor (standsFor_encodeRevision numeral.value_lt) hrequired
  refine ⟨decodeRevision_of_standsFor hrequired, hordered, hlater, fun revision hrevision =>
    hasReached_of_standsFor (standsFor_encodeRevision hrevision) hrequired, ?_, ?_⟩
  · rw [hreached]
    exact congrArg Except.ok (decide_eq_decide.mpr ⟨fun h => h.antisymm hlater, fun h => h.le⟩)
  · rw [hreached]
    exact congrArg Except.ok (decide_eq_false (by omega))

namespace Replicator

/-- What is handed to a caller encodes the required revision of the one changeset that was read. -/
theorem exists_of_applyForCaller {replicator : Replicator} {trusted : Bool}
    {connection : Connection} {files : FileSystem} {encoded : Bytes}
    (h : replicator.applyForCaller trusted connection files = .ok encoded) :
    ∃ changeset : Stream, changeset.bytes = connection.delivery.bytes ∧
      encoded = encodeRevision changeset.required.value := by
  unfold applyForCaller at h
  cases hresult : (replicator.apply trusted connection files).result with
  | error failure =>
      rw [hresult] at h
      cases h
  | ok applied =>
      rw [hresult] at h
      cases h
      obtain ⟨_, place, locked, _, _, hlock, -⟩ := performed_of_applied hresult
      obtain ⟨home, hfree⟩ := lockFree_of_acquireLock hlock
      obtain ⟨changeset, effects, bytes, hbytes, -, happlied, -⟩ :=
        completed_of_applied hfree hresult
      exact ⟨changeset, hbytes, congrArg Applied.encodedRequiredRevision happlied⟩

/-- Two encoded revisions are compared as the numbers that they stand for, and bytes that stand for
no number are refused. A revision that was encoded stands for itself. What an apply hands to its
caller, of whatever connection and files, is the required revision of the one changeset that it
read: no lower than the end revision, which is reached just if it is the required one, and higher
than the start revision, which is never reached. -/
theorem apply_requires :
    (∀ (first second : Bytes) (reached target : Nat), StandsFor first reached →
      StandsFor second target → hasReached first second = .ok (decide (target ≤ reached))) ∧
    (∀ first second : Bytes,
      ((¬ ∃ reached, StandsFor first reached) ∨ ¬ ∃ target, StandsFor second target) →
        hasReached first second = .error (.protocol .invalidRevision)) ∧
    (∀ revision < 2 ^ 64, decodeRevision (encodeRevision revision) = .ok revision) ∧
    ∀ (replicator : Replicator) (trusted : Bool) (connection : Connection) (files : FileSystem)
      (encoded : Bytes), replicator.applyForCaller trusted connection files = .ok encoded →
        ∃ changeset : Stream, changeset.bytes = connection.delivery.bytes ∧
          (∀ other : Stream, other.bytes = connection.delivery.bytes → other = changeset) ∧
          Requires changeset encoded := by
  refine ⟨fun _ _ _ _ hfirst hsecond => hasReached_of_standsFor hfirst hsecond,
    fun _ _ h => hasReached_of_invalid h,
    fun _ hrevision => decodeRevision_of_standsFor (standsFor_encodeRevision hrevision), ?_⟩
  intro replicator trusted connection files encoded hencoded
  obtain ⟨changeset, hbytes, rfl⟩ := exists_of_applyForCaller hencoded
  exact ⟨changeset, hbytes, fun other hother => Stream.unambiguous (hother.trans hbytes.symm),
    requires_encodeRevision changeset⟩

/-- A replica that is trusted to be at revision 4 gets a changeset that requires revision 5 at its
end. Revision 5 has reached it in two bytes, too, but not in two bytes that say that more come. -/
theorem apply_requires_sample :
    (∃ changeset : Stream, changeset.bytes = sampleStream.bytes ∧ Requires changeset [5]) ∧
      hasReached [0x85, 0] [5] = .ok true ∧
      hasReached [0x85, 0x80] [5] = .error (.protocol .invalidRevision) := by
  obtain ⟨hcompared, hrefused, -, hreturned⟩ := apply_requires
  have hfive : StandsFor [5] 5 := by decide
  have hpadded : StandsFor [0x85, 0] 5 := by decide
  have hopen : ¬ ∃ reached, StandsFor [0x85, 0x80] reached := fun ⟨_, hreached⟩ => by cases hreached
  obtain ⟨changeset, hbytes, -, hrequires⟩ := hreturned
    { directory := .ofText [] "/", revisions := .fixed 4 } true [.data sampleStream.bytes] {} [5]
    (by decide +kernel)
  exact ⟨⟨changeset, hbytes, hrequires⟩, hcompared _ _ _ _ hpadded hfive,
    hrefused _ _ (.inl hopen)⟩

end Replicator

end TableReplica.Apply
