import TableReplica.Proofs.Plan.Following

/-!
# Read boundaries do not matter

Two connections may cut the same bytes into reads in different ways. An apply of the one and an
apply of the other follow the same course, so they give the same answer and leave the same files:
`apply_eq_of_delivery_eq`. Only the number of bytes that an error about trailing junk counts is not
settled by what is delivered, and `Failure.uncounted` leaves it out of the comparison.
-/

namespace TableReplica.Apply

open Files Transport Wire

/-- The error without the number of junk bytes that it counts, if it counts any. -/
def uncountedError : ReplicaError → ReplicaError
  | .protocol (.trailingJunk _) => .protocol (.trailingJunk 0)
  | error => error

/-- The failure without the number of junk bytes that it counts, if it counts any. -/
def Failure.uncounted (failure : Failure) : Failure :=
  { failure with error := uncountedError failure.error }

namespace Replicator

variable (replicator : Replicator) (trusted : Bool)

/-- Following a course with another number of junk bytes ends in the same way. -/
theorem follow_uncounted (delivery : Delivery) (first second : Nat) (files : FileSystem) :
    (replicator.follow trusted delivery first files).1.mapError Failure.uncounted =
        (replicator.follow trusted delivery second files).1.mapError Failure.uncounted ∧
      (replicator.follow trusted delivery first files).2 =
        (replicator.follow trusted delivery second files).2 := by
  obtain ⟨heffects, houtcome⟩ := replicator.course_uncounted trusted delivery first second
  unfold follow
  cases acquireLock replicator.directory files with
  | error error => exact ⟨rfl, rfl⟩
  | ok taken =>
      obtain ⟨lock, locked⟩ := taken
      simp only [heffects]
      rcases performAll replicator.directory replicator.config.maxChangesets
        (replicator.course trusted delivery second).effects { files := locked } with
        ⟨failure | _, done⟩
      · exact ⟨rfl, rfl⟩
      · -- Either the number is not asked for, or it is all that the two courses differ in.
        rcases houtcome with hsame | ⟨hfirst, hsecond⟩
        · rw [hsame]
          exact ⟨rfl, rfl⟩
        · rw [hfirst, hsecond]
          refine ⟨?_, rfl⟩
          cases delivery.ending <;> rfl

/-- Connections that deliver the same bytes and end in the same way are applied with the same
result and leave the same files, however they cut the bytes into reads. -/
theorem apply_eq_of_delivery_eq {first second : Connection}
    (h : first.delivery = second.delivery) (files : FileSystem) :
    (replicator.apply trusted first files).result.mapError Failure.uncounted =
        (replicator.apply trusted second files).result.mapError Failure.uncounted ∧
      (replicator.apply trusted first files).files =
        (replicator.apply trusted second files).files := by
  obtain ⟨junk, hfirst⟩ := replicator.apply_eq_follow trusted first
  obtain ⟨other, hsecond⟩ := replicator.apply_eq_follow trusted second
  have hresults := replicator.follow_uncounted trusted second.delivery junk other files
  rw [← hsecond files, ← h, ← hfirst files] at hresults
  exact hresults

/-- A stream that stalls in its header fails in the same way whether its magic bytes come in one
read or in two. -/
theorem apply_eq_of_delivery_eq_stalled :
    Connection.delivery [.data magic, .data [1, 0], .stall] =
        Connection.delivery [.data [0x46], .data (magic.drop 1 ++ [1, 0]), .stall] ∧
      (Replicator.apply { directory := .ofText [] "/" } false
          [.data magic, .data [1, 0], .stall] {}).result.mapError Failure.uncounted =
        (Replicator.apply { directory := .ofText [] "/" } false
          [.data [0x46], .data (magic.drop 1 ++ [1, 0]), .stall] {}).result.mapError
            Failure.uncounted :=
  ⟨by decide, (apply_eq_of_delivery_eq _ false (by decide) {}).1⟩

end Replicator

end TableReplica.Apply
