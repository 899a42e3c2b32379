import AcemcpRelay.PublicationReplies

/-!
# Two readers of one reply

A publication is completed on two paths, by the call that publishes and by the reconciler. They
read a reply alike exactly if it has no revision, or is a whole JSON text of a state that the
direct path asks for, or has a revision from 1 on and no state in which the publication has not
completed. Otherwise the direct path completes where the reconciler waits: it asks for no state
`completed`, a text with something behind it reports no state to it, and it takes revision 0.
-/
namespace AcemcpRelay

open Store Wire ToolContent

variable {Number : Type} {finite : Number → Bool} {int64 : Number → Option Int}
  {content : ToolContent Number} {jobID rootID : String}

/-! ### Reports -/

/-- The text of a report. -/
def Report.reply (numeral : Int → Number) (report : Report) : ToolContent Number where
  alone := true
  first := some (.object (match report with
    | .notSubmitted => [("state", .string "not_submitted")]
    | .publishing => [("state", .string "publishing")]
    | .completed revision =>
      [("state", .string "completed"), ("revision", .number (numeral revision))]
    | .failed => [("state", .string "failed")]
    | .cancelled => [("state", .string "cancelled")]))

section Reports

variable {numeral : Int → Number} (fits : ∀ n, finite (numeral n) = true)
  (reads : ∀ n, int64 (numeral n) = some n)

include reads in
theorem extractCloudRevision_completed (revision : Int) :
    extractCloudRevision int64 ((Report.completed revision).reply numeral) =
      if revision < 0 then .error "revision is not a non-negative integer" else .ok revision := by
  have found : (unwrapped (GoMap.ofMembers
      [("state", .string "completed"), ("revision", .number (numeral revision))])).get "revision" =
        some (.number (numeral revision)) := rfl
  simp [extractCloudRevision, Report.reply, asObject, Value.decodedMap, Value.decodedMembers,
    Value.decoded, found, reads]

include fits in
theorem publicationState_completed (revision : Int) :
    publicationState finite ((Report.completed revision).reply numeral) = "completed" := by
  have whole : ((Report.completed revision).reply numeral).Whole finite := by
    refine ⟨rfl, fun value found => ?_⟩
    cases found
    simp [Value.decoded, Value.decodedMembers, fits]
  rw [publicationState_of_whole whole]
  rfl

include fits in
theorem publicationFailure_completed (revision : Int) :
    publicationFailure finite ((Report.completed revision).reply numeral) = none := by
  rw [publicationFailure_eq_none, publicationState_completed fits revision]
  decide

include fits reads in
/-- The direct path on a report is the direct path on its text. -/
theorem afterPublish_eq_directPublish (report : Report) :
    afterPublish jobID rootID (some report) =
      (directPublish finite int64 jobID rootID (report.reply numeral)).toOption := by
  cases report with
  | completed revision =>
    have unaccepted : publishAccepted finite ((Report.completed revision).reply numeral) = false := by
      rw [← Bool.not_eq_true, publishAccepted_iff, publicationState_completed fits revision]
      decide
    simp only [directPublish, publicationFailure_completed fits, unaccepted, extractCloudRevision_completed reads,
      afterPublish]
    split <;> rfl
  | notSubmitted => rfl
  | publishing => rfl
  | failed => rfl
  | cancelled => rfl

include fits reads in
/-- The reconciler on a report is the reconciler on its text. -/
theorem afterStatus_eq_reconcilePublication (overdue : Bool) (report : Report) :
    afterStatus jobID overdue (some report) =
      (reconcilePublication finite int64 jobID overdue (report.reply numeral)).toOption.join := by
  cases report with
  | completed revision =>
    simp only [reconcilePublication, publicationFailure_completed fits,
      publicationState_completed fits, extractCloudRevision_completed reads, afterStatus]
    split <;> rfl
  | notSubmitted => cases overdue <;> rfl
  | publishing => cases overdue <;> rfl
  | failed => rfl
  | cancelled => rfl

end Reports

/-! ### Agreement -/

/-- The reconciler goes on to a completion only where nothing has failed, and with a revision
only where the state is `completed`. -/
theorem reconcilePublication_eq_check {overdue : Bool} {known : Option Int}
    (decided : reconcilePublication finite int64 jobID overdue content =
      .ok (some (.check jobID known))) :
    publicationState finite content ∉ ["failed", "cancelled"] ∧
      (known.isSome → publicationState finite content = "completed") := by
  unfold reconcilePublication at decided
  cases failure : publicationFailure finite content with
  | some message => simp [failure] at decided
  | none =>
    refine ⟨publicationFailure_eq_none.mp failure, fun revised => ?_⟩
    rw [failure] at decided
    by_contra running
    simp only [if_neg running] at decided
    -- without that state it cancels, submits again, waits or fails
    repeat' split at decided
    all_goals cases decided
    cases revised

/-- A revision from 1 on is taken from the reconciler, whether the direct path has recorded it
or not. -/
theorem afterIntent_of_pos {revision recorded : Int} (positive : 1 ≤ revision)
    (same : recorded ≤ 0 ∨ recorded = revision) :
    afterIntent jobID rootID (some revision) recorded = some (.finish jobID rootID revision) := by
  have taken : ¬(revision < 1 ∨ (0 < recorded ∧ recorded ≠ revision)) := by omega
  simp only [afterIntent, if_neg taken]

/-- The states in which a publication has not completed. -/
def openStates : List String :=
  ["pending", "leased", "publishing", "not_submitted", "failed", "cancelled"]

/-- A revision that is read comes with a state that stops the direct path, in a whole text, or
counts from 1 and comes with no state in which the publication has not completed. -/
def ToolContent.Consistent (finite : Number → Bool) (int64 : Number → Option Int)
    (content : ToolContent Number) : Prop :=
  ∀ revision, extractCloudRevision int64 content = .ok revision →
    (content.Whole finite ∧ content.state ∈ ["failed", "cancelled", "publishing"]) ∨
      (1 ≤ revision ∧ content.state ∉ openStates)

/-- The state that is read is that of the text, or none. -/
theorem publicationState_mem {states : List String} (none : "" ∉ states) :
    publicationState finite content ∈ states ↔ content.Whole finite ∧ content.state ∈ states := by
  by_cases whole : content.Whole finite
  · rw [publicationState_of_whole whole]
    simp [whole]
  · rw [publicationState_of_not_whole whole]
    simp [whole, none]

/-- The reconciler completes nothing that has failed. -/
theorem reconcilePublication_ne_check {overdue : Bool} {known : Option Int}
    (ended : content.state ∈ ["failed", "cancelled"]) :
    reconcilePublication finite int64 jobID overdue content ≠ .ok (some (.check jobID known)) := by
  intro decided
  obtain ⟨unseen, completed⟩ := reconcilePublication_eq_check decided
  have broken : ¬ content.Whole finite := fun whole =>
    unseen ((publicationState_mem (by decide)).mpr ⟨whole, ended⟩)
  have silent := publicationState_of_not_whole broken
  have failure : publicationFailure finite content = none := publicationFailure_eq_none.mpr unseen
  -- without a state there is nothing to go on with
  unfold reconcilePublication at decided
  rw [failure, silent] at decided
  cases overdue <;> cases decided

/-- Both paths read a reply alike exactly if it is consistent: the direct path then completes
nothing that is still in progress or has failed, and what it completes the reconciler would
take. The reconciler completes nothing that has failed in any case. -/
theorem publication_paths_agree (finite : Number → Bool) (int64 : Number → Option Int)
    (content : ToolContent Number) (jobID rootID : String) :
    ((content.state ∈ ["pending", "leased", "publishing", "not_submitted"] →
      ∀ revision, directPublish finite int64 jobID rootID content ≠
        .ok (.record jobID rootID revision)) ∧
    (content.state ∈ ["failed", "cancelled"] →
      (∀ revision, directPublish finite int64 jobID rootID content ≠
        .ok (.record jobID rootID revision)) ∧
      ∀ overdue known, reconcilePublication finite int64 jobID overdue content ≠
        .ok (some (.check jobID known))) ∧
    ∀ revision, directPublish finite int64 jobID rootID content =
        .ok (.record jobID rootID revision) →
      ∀ recorded, recorded ≤ 0 ∨ recorded = revision →
        afterIntent jobID rootID (some revision) recorded =
          some (.finish jobID rootID revision)) ↔ content.Consistent finite int64 := by
  have commits (revision : Int) : directPublish finite int64 jobID rootID content =
      .ok (.record jobID rootID revision) ↔
      ¬ (content.Whole finite ∧ content.state ∈ ["failed", "cancelled", "publishing"]) ∧
        extractCloudRevision int64 content = .ok revision := by
    rw [directPublish_eq_record, publicationState_mem (by decide)]
  constructor
  · rintro ⟨waiting, ended, accepted⟩ revision read
    by_cases stopped : content.Whole finite ∧ content.state ∈ ["failed", "cancelled", "publishing"]
    · exact .inl stopped
    have recorded := (commits revision).mpr ⟨stopped, read⟩
    refine .inr ⟨?_, fun listed => ?_⟩
    · -- the reconciler takes it with nothing recorded before
      have taken := accepted revision recorded 0 (.inl le_rfl)
      by_contra small
      simp only [afterIntent, if_pos (.inl (by omega) : revision < 1 ∨ _)] at taken
      cases taken
    · have states : content.state ∈ ["pending", "leased", "publishing", "not_submitted"] ++
          ["failed", "cancelled"] := listed
      rcases List.mem_append.mp states with running | final
      · exact waiting running revision recorded
      · exact (ended final).1 revision recorded
  · intro consistent
    have completed {revision : Int} (recorded : directPublish finite int64 jobID rootID content =
        .ok (.record jobID rootID revision)) : 1 ≤ revision ∧ content.state ∉ openStates := by
      obtain ⟨unstopped, read⟩ := (commits revision).mp recorded
      exact (consistent revision read).resolve_left unstopped
    refine ⟨fun running revision recorded => ?_, fun final => ⟨fun revision recorded => ?_, ?_⟩, ?_⟩
    · exact (completed recorded).2 (List.mem_append_left ["failed", "cancelled"] running)
    · exact (completed recorded).2
        (List.mem_append_right ["pending", "leased", "publishing", "not_submitted"] final)
    · exact fun overdue known => reconcilePublication_ne_check final
    · intro revision recorded before same
      exact afterIntent_of_pos (completed recorded).1 same

/-- An integer literal is in the range of a `float64`. -/
def inFloat64 (n : Int) : Bool := decide (n.natAbs.log2 < 1024)

/-- An integer literal as an `int64`. -/
def asInt64 (n : Int) : Option Int :=
  if -2 ^ 63 ≤ n ∧ n < 2 ^ 63 then some n else none

/-- The text of an object that reports a state and a revision. -/
def stateReply (state : String) (revision : Int) (alone : Bool) : ToolContent Int where
  first := some (.object [("state", .string state), ("revision", .number revision)])
  alone := alone

theorem publication_paths_agree_completed :
    (stateReply "completed" 7 true).Consistent inFloat64 asInt64 ∧
      afterIntent "job" "root" (some 7) 0 = some (.finish "job" "root" 7) := by
  have consistent : (stateReply "completed" 7 true).Consistent inFloat64 asInt64 := by
    intro revision read
    cases read
    exact .inr (by decide)
  obtain ⟨-, -, accepted⟩ := (publication_paths_agree inFloat64 asInt64
    (stateReply "completed" 7 true) "job" "root").mpr consistent
  exact ⟨consistent, accepted 7 rfl 0 (.inl le_rfl)⟩

/-- The direct path completes a job whose publication is pending, one whose publication has
failed, if something stands behind the reply, and one at revision 0, which the reconciler
refuses. -/
theorem direct_path_completes_early :
    (stateReply "pending" 1 true).state = "pending" ∧
      directPublish inFloat64 asInt64 "job" "root" (stateReply "pending" 1 true) =
        .ok (.record "job" "root" 1) ∧
    (stateReply "failed" 1 false).state = "failed" ∧
      directPublish inFloat64 asInt64 "job" "root" (stateReply "failed" 1 false) =
        .ok (.record "job" "root" 1) ∧
    directPublish inFloat64 asInt64 "job" "root" (stateReply "completed" 0 true) =
        .ok (.record "job" "root" 0) ∧
      afterIntent "job" "root" (some 0) 0 = none :=
  ⟨rfl, rfl, rfl, rfl, rfl, rfl⟩

end AcemcpRelay
