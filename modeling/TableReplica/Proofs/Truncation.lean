import TableReplica.Proofs.Acceptance
import TableReplica.Proofs.Failures

/-!
# Truncation and padding

A changeset tells where it ends. A stream that is cut short inside a changeset fails for want of
bytes, one that goes on after a changeset fails for the bytes that are too many, and neither ever
passes for a changeset of its own (`apply_delimits`). The reason is that all three streams are
followed by one plan: it stops where the bytes end, and comes to the end of the changeset with the
bytes ahead that are too many.
-/

namespace TableReplica.Apply

open Files Transport Wire Format

namespace Replicator

variable (replicator : Replicator)

/-- No changeset goes on after another one. -/
theorem bytes_eq_of_isPrefix {first second : Stream} (h : first.bytes <+: second.bytes) :
    first.bytes = second.bytes := by
  let replicator : Replicator := { directory := .ofText [] "/" }
  obtain ⟨rest, hrest⟩ := h
  obtain ⟨_, short, hshort, hpassed⟩ :=
    replicator.reads_stream first (replicator.accepts_untrusted _) { ahead := second.bytes } rest
      hrest.symm
  obtain ⟨_, long, hlong, hwhole⟩ :=
    replicator.reads_stream second (replicator.accepts_untrusted _) { ahead := second.bytes } []
      (List.append_nil _).symm
  -- One plan reads both, so it comes to the end of both at the same place.
  obtain rfl : short = long := by
    rw [hshort] at hlong
    exact (Prod.mk.inj (Except.ok.inj (Course.mk.inj hlong).2)).2
  have hnothing : short.ahead = [] := List.self_eq_append_right.mp hwhole.ahead
  have hall : second.bytes = first.bytes ++ short.ahead := hpassed.ahead
  rw [hall, hnothing, List.append_nil]

/-- A stream that ends before the magic bytes do is awaited no further than them. -/
theorem plan_of_short (trusted : Bool) {position : Position}
    (h : position.ahead.length < magic.length) :
    replicator.plan trusted position =
      { effects := []
        outcome := .error
          { stage := .readingHeader, stop := .starved "changeset header" .badMagic } } := by
  have hother : ¬ magic <+: position.ahead := fun hmagic => absurd hmagic.length_le (by omega)
  have hverdict : Verdict.magic position.ahead =
      .error (.starved "changeset header" .badMagic) := by
    rw [Verdict.magic, if_neg hother, if_pos h]
  have hfield : Plan.field .magic position =
      { effects := [], outcome := .error (.starved "changeset header" .badMagic) } := by
    simp only [Plan.field, hverdict]
    rfl
  have hheader : Plan.header position = _ := PlanOf.bind_of_error hfield _
  have hopening : Plan.opening position = _ := PlanOf.bind_of_error hheader _
  have hduring : Plan.opening.during .readingHeader position =
      { effects := []
        outcome := .error
          { stage := .readingHeader, stop := .starved "changeset header" .badMagic } } := by
    rw [PlanOf.during, hopening]
    rfl
  exact PlanOf.bind_of_error hduring _

/-- A stream that was applied: the lock was taken, the plan read all of it, and nothing was in the
way of what it asked for. -/
structure AppliedAs (trusted : Bool) (bytes : Bytes) (files : FileSystem) (place : Location)
    (locked : FileSystem) (effects : List Effect) (receipt : Receipt) (last : Position) : Prop where
  lock : acquireLock replicator.directory files = .ok (place, locked)
  plan_eq : replicator.plan trusted { ahead := bytes } = { effects, outcome := .ok (receipt, last) }
  finished : last.ahead = []
  performed : ∃ done, performAll replicator.directory replicator.config.maxChangesets effects
    { files := locked } = (.ok (), done)

variable {replicator} {trusted : Bool} {connection : Connection} {files locked : FileSystem}
  {place : Location} {effects : List Effect}

/-- What an apply answers once the lock is taken. -/
theorem result_of_lock (hlock : acquireLock replicator.directory files = .ok (place, locked))
    (trusted : Bool) (connection : Connection) :
    ∃ junk, ∀ effects halt done,
      replicator.course trusted connection.delivery junk = { effects, outcome := .error halt } →
      performAll replicator.directory replicator.config.maxChangesets effects
        { files := locked } = (.ok (), done) →
        (replicator.apply trusted connection files).result =
          .error { stage := halt.stage, error := connection.delivery.ending.report halt.stop } := by
  obtain ⟨junk, hfollow⟩ := replicator.apply_eq_follow trusted connection
  refine ⟨junk, fun effects halt done hcourse hperformed => ?_⟩
  refine (congrArg Prod.fst (hfollow files)).trans ?_
  unfold follow
  simp only [hlock, hcourse, hperformed]

/-- A plan that stops is answered with the reason for it, as long as nothing is in the way. -/
theorem result_of_plan_error
    (hlock : acquireLock replicator.directory files = .ok (place, locked)) {halt : Halt}
    (hplan : replicator.plan trusted { ahead := connection.delivery.bytes } =
      { effects, outcome := .error halt })
    (hperformed : ∃ done, performAll replicator.directory replicator.config.maxChangesets effects
      { files := locked } = (.ok (), done)) :
    (replicator.apply trusted connection files).result =
      .error { stage := halt.stage, error := connection.delivery.ending.report halt.stop } := by
  obtain ⟨done, hdone⟩ := hperformed
  obtain ⟨junk, hresult⟩ := result_of_lock hlock trusted connection
  exact hresult effects halt done (course_of_error hplan junk) hdone

/-- A plan that leaves bytes ahead is answered with an error about them. -/
theorem result_of_plan_ahead
    (hlock : acquireLock replicator.directory files = .ok (place, locked)) {receipt : Receipt}
    {after : Position}
    (hplan : replicator.plan trusted { ahead := connection.delivery.bytes } =
      { effects, outcome := .ok (receipt, after) }) (hahead : after.ahead ≠ [])
    (hperformed : ∃ done, performAll replicator.directory replicator.config.maxChangesets effects
      { files := locked } = (.ok (), done)) :
    ∃ count, (replicator.apply trusted connection files).result =
      .error { stage := .readingFooter, error := .protocol (.trailingJunk count) } := by
  obtain ⟨done, hdone⟩ := hperformed
  obtain ⟨junk, hresult⟩ := result_of_lock hlock trusted connection
  have hcourse := (course_of_ok hplan junk).trans (if_pos hahead)
  refine ⟨junk, (hresult effects _ done hcourse hdone).trans ?_⟩
  cases connection.delivery.ending <;> rfl

/-- A success tells what the plan read. -/
theorem exists_appliedAs {applied : Applied}
    (h : (replicator.apply trusted connection files).result = .ok applied) :
    ∃ place locked effects receipt last, replicator.AppliedAs trusted connection.delivery.bytes
      files place locked effects receipt last := by
  obtain ⟨junk, place, locked, done, found, hlock, hperformed, hcourse⟩ := performed_of_applied h
  have hbegun : (replicator.plan trusted { ahead := connection.delivery.bytes }).effects <+:
      (replicator.course trusted connection.delivery junk).effects :=
    PlanOf.effects_prefix_bind _ _ _
  have hplanned := performAll_of_isPrefix hbegun hperformed
  rcases hplan : replicator.plan trusted { ahead := connection.delivery.bytes } with
    ⟨effects, halt | ⟨receipt, last⟩⟩
  · rw [course_of_error hplan] at hcourse
    cases hcourse
  · rw [course_of_ok hplan] at hcourse
    rw [hplan] at hplanned
    by_cases hahead : last.ahead = []
    · exact ⟨place, locked, effects, receipt, last, hlock, hplan, hahead, hplanned⟩
    · rw [if_pos hahead] at hcourse
      cases hcourse

/-- What an untrusted apply accepts is a changeset. -/
theorem stream_of_result {applied : Applied}
    (h : (replicator.apply false connection files).result = .ok applied) :
    ∃ stream : Stream, stream.bytes = connection.delivery.bytes := by
  obtain ⟨junk, place, locked, done, found, -, -, hcourse⟩ := performed_of_applied h
  exact (stream_of_course hcourse).2

section

variable {bytes : Bytes} {receipt : Receipt} {last : Position}

/-- Where a stream that was applied is cut short, its plan wants more bytes. -/
theorem AppliedAs.starved (h : replicator.AppliedAs trusted bytes files place locked effects
    receipt last) {cut : Bytes} (hcut : cut <+: bytes) (hne : cut ≠ bytes) :
    ∃ begun stage what closed, begun <+: effects ∧
      replicator.plan trusted { ahead := cut } =
        { effects := begun, outcome := .error { stage, stop := .starved what closed } } := by
  obtain ⟨more, rfl⟩ := hcut
  have hfirm := replicator.firm_plan trusted
  have hlonger := hfirm.steady { ahead := cut } more
  have hwhole : replicator.plan trusted (Position.extend { ahead := cut } more) = _ := h.plan_eq
  rcases hplan : replicator.plan trusted { ahead := cut } with
    ⟨begun, ⟨stage, what | error⟩ | ⟨early, after⟩⟩
  · rw [hplan, hwhole] at hlonger
    cases hlonger with
    | stopped _ _ _ hinitial => exact ⟨begun, stage, _, _, hinitial, rfl⟩
  · -- What is refused would be refused in the whole stream.
    have hsame := hfirm.stands { ahead := cut } { stage, stop := .refused error } (by rw [hplan])
      trivial more
    rw [hwhole, hplan] at hsame
    cases hsame
  · -- A changeset that ended before would leave bytes ahead.
    have hread := hfirm.steady.of_ok hplan more
    rw [hwhole] at hread
    have hlast : last = after.extend more :=
      (Prod.mk.inj (Except.ok.inj (Course.mk.inj hread).2)).2
    have hahead : after.ahead ++ more = [] := by
      rw [← h.finished, hlast]
      rfl
    exact absurd (List.append_eq_nil_iff.mp hahead).2 (by simpa using hne)

/-- An apply of a stream that was applied, but cut short, fails for want of bytes. -/
theorem AppliedAs.result_cut (h : replicator.AppliedAs trusted bytes files place locked effects
    receipt last) {cut : Connection} (hclosed : cut.delivery.ending = .closed)
    (hcut : cut.delivery.bytes <+: bytes) (hne : cut.delivery.bytes ≠ bytes) :
    if cut.delivery.bytes.length < magic.length then
      (replicator.apply trusted cut files).result =
        .error { stage := .readingHeader, error := .protocol .badMagic }
    else ∃ stage what, (replicator.apply trusted cut files).result =
      .error { stage, error := .protocol (.truncated what) } := by
  obtain ⟨begun, stage, what, closed, hbegun, hplan⟩ := h.starved hcut hne
  obtain ⟨done, hdone⟩ := h.performed
  have hresult := result_of_plan_error h.lock hplan (performAll_of_isPrefix hbegun hdone)
  rw [hclosed] at hresult
  split
  · next hshort =>
      rw [replicator.plan_of_short trusted hshort] at hplan
      cases hplan
      exact hresult
  · next hlong =>
      have hreason : HaltsFor replicator trusted cut.delivery.bytes _ :=
        replicator.stops_plan trusted (congrArg Course.outcome hplan)
      cases hreason with
      | magic hshort => exact absurd hshort hlong
      | found _ _ hfound =>
          obtain ⟨-, rfl⟩ := hfound
          exact ⟨stage, what, hresult⟩

/-- An apply of a stream that was applied, with more bytes after it, fails for the bytes that are
too many. -/
theorem AppliedAs.result_padded (h : replicator.AppliedAs trusted bytes files place locked effects
    receipt last) {padded : Connection} (hpadded : bytes <+: padded.delivery.bytes)
    (hne : padded.delivery.bytes ≠ bytes) :
    ∃ count, (replicator.apply trusted padded files).result =
      .error { stage := .readingFooter, error := .protocol (.trailingJunk count) } := by
  obtain ⟨extra, hextra⟩ := hpadded
  have hread := (replicator.firm_plan trusted).steady.of_ok h.plan_eq extra
  have hplan : replicator.plan trusted { ahead := padded.delivery.bytes } =
      { effects, outcome := .ok (receipt, last.extend extra) } := by
    rw [← hextra]
    exact hread
  refine result_of_plan_ahead h.lock hplan (fun hnothing => hne ?_) h.performed
  have hall : last.ahead ++ extra = [] := hnothing
  rw [← hextra, (List.append_eq_nil_iff.mp hall).2, List.append_nil]

end

variable (replicator)

/-- Where an untrusted apply accepts a stream, it accepts neither what is left of the stream when it
is cut short nor the stream with more bytes after it, in whatever reads the bytes come. A cut stream
is reported as no changeset if not even its magic bytes are there, and as truncated otherwise; bytes
that are too many are reported as junk. So no stream that is accepted anywhere goes on after this
one. -/
theorem apply_delimits (files : FileSystem) (accepted : Connection)
    (h : ∃ applied, (replicator.apply false accepted files).result = .ok applied) :
    (∀ cut : Connection, cut.delivery.ending = .closed →
      cut.delivery.bytes <+: accepted.delivery.bytes →
      cut.delivery.bytes ≠ accepted.delivery.bytes →
        if cut.delivery.bytes.length < magic.length then
          (replicator.apply false cut files).result =
            .error { stage := .readingHeader, error := .protocol .badMagic }
        else ∃ stage what, (replicator.apply false cut files).result =
          .error { stage, error := .protocol (.truncated what) }) ∧
    (∀ padded : Connection, accepted.delivery.bytes <+: padded.delivery.bytes →
      padded.delivery.bytes ≠ accepted.delivery.bytes →
        ∃ count, (replicator.apply false padded files).result =
          .error { stage := .readingFooter, error := .protocol (.trailingJunk count) }) ∧
    ∀ (other : Replicator) (others : FileSystem) (longer : Connection),
      accepted.delivery.bytes <+: longer.delivery.bytes →
      (∃ applied, (other.apply false longer others).result = .ok applied) →
        longer.delivery.bytes = accepted.delivery.bytes := by
  obtain ⟨applied, hresult⟩ := h
  obtain ⟨stream, hstream⟩ := stream_of_result hresult
  obtain ⟨place, locked, effects, receipt, last, happlied⟩ := exists_appliedAs hresult
  refine ⟨fun cut hclosed hcut hne => happlied.result_cut hclosed hcut hne,
    fun padded hpadded hne => happlied.result_padded hpadded hne, ?_⟩
  rintro other others longer hlonger ⟨answer, hanswer⟩
  obtain ⟨whole, hwhole⟩ := stream_of_result hanswer
  rw [← hstream, ← hwhole] at hlonger ⊢
  exact (bytes_eq_of_isPrefix hlonger).symm

/-- The changeset with one block, cut in its block and with a byte after it. -/
theorem apply_delimits_sample :
    (∃ stage what, (Replicator.apply { directory := .ofText [] "/" } false
      [.data (sampleStream.bytes.take 23)] {}).result =
        .error { stage, error := .protocol (.truncated what) }) ∧
    ∃ count, (Replicator.apply { directory := .ofText [] "/" } false
      [.data sampleStream.bytes, .data [0]] {}).result =
        .error { stage := .readingFooter, error := .protocol (.trailingJunk count) } := by
  have haccepted : ∃ applied, (Replicator.apply { directory := .ofText [] "/" } false
      [.data sampleStream.bytes] {}).result = .ok applied :=
    ⟨appliedOf sampleStream ({} : Config).maxChangesets, by decide +kernel⟩
  obtain ⟨hcut, hpadded, -⟩ := apply_delimits { directory := .ofText [] "/" } {}
    [.data sampleStream.bytes] haccepted
  exact ⟨hcut [.data (sampleStream.bytes.take 23)] rfl (by decide) (by decide),
    hpadded [.data sampleStream.bytes, .data [0]] (by decide) (by decide)⟩

end Replicator

end TableReplica.Apply
