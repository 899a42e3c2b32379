import AcemcpRelay.DeletionSteps
import AcemcpRelay.SystemSteps

/-!
# Durable root deletion

A deletion job is worked on by one attempt after the other. A worker may be inside a
slow call of LCE when its claim runs out, the job is claimed again, finished and
pruned, and the root indexed anew; what it does afterwards must have no effect.

## Proof strategy

Every write of a worker names its attempt. A row gets an attempt by a claim only, and
attempts are not issued twice, so an attempt that a row does not carry, or that has
ended, is out for good. A row leaves the active states by the transaction that deletes
the Relay rows, and no transaction makes it active again.
-/
namespace AcemcpRelay

open Store Database

/-- The job that a deletion worker works on. -/
def Point.deletion : Point → Option RootDeletionJob
  | .attemptCurrent job | .deletionCloud job | .deletionRelay job _ _ | .deletionError job => some job
  | _ => none

/-- The job on whose behalf an event acts, and how long its transaction waits. -/
def System.worker (system : System) : SystemEvent → Option (RootDeletionJob × Nat)
  | .other (.commit waited (.recordDeletionError job _)) => some (job, waited)
  | .advance token answer =>
    (system.calls.lookup token).bind fun call => call.point.deletion.map (·, answer.waited)
  | _ => none

/-- Identifiers of jobs and attempts are new, a worker reports on a job that it was
given, and it finishes a job as a call that holds the lease. -/
def System.deletionRules (system : System) : SystemEvent → Bool
  | .other (.commit _ (.claimDeletion attempt _)) =>
    system.claimed.all fun job => job.attemptID != some attempt
  | .other (.commit _ (.submitDeletion _ _ _ _ id _)) => system.claimed.all fun job => job.id != id
  | .other (.commit _ (.recordDeletionError job _)) => system.claimed.contains job
  | .other (.commit _ (.finishDeletion _ _)) => false
  | _ => true

/-- The event is the transaction of a worker that marks the row and deletes the Relay
rows of its root: its claim is current and a receipt of LCE names job and root. -/
structure Finishes (sha256 : String → String) (system : System) (event : SystemEvent)
    (row : RootDeletionJob) : Prop where
  exists_call : ∃ call ∈ system.calls, ∃ answer job receipt count deletedFiles,
    event = .advance call.token answer ∧ call.point = .deletionRelay job receipt count ∧
    system.holdsLease call = true ∧ job ∈ system.claimed ∧
    receipt.operationID = row.id ∧ receipt.rootID = row.rootID ∧
    row.claimedBy job (system.world.clock - answer.waited) = true ∧
    row.finish (system.world.clock - answer.waited) deletedFiles ∈
      (system.step sha256 event).world.db.rootDeletionJobs ∧
    (system.step sha256 event).world.db =
      { (system.world.db.clearRootIndexState row.userID row.rootID).2 with
        rootDeletionJobs := (system.step sha256 event).world.db.rootDeletionJobs }

/-- No row carries the attempt any more, or its job has ended. -/
def Superseded (system : System) (job : RootDeletionJob) : Prop :=
  ∀ row ∈ system.world.db.rootDeletionJobs, row.id = job.id → row.attemptID = job.attemptID →
    row.status ≠ .running

/-! ### What a worker runs -/

section Advance

variable {sha256 : String → String} {answer : Answer} {tenant : String} {clock : Nat}
  {db : Database} {cloud : Cloud} {point next : Point}

theorem advance_finishes {job : RootDeletionJob} {cloudCount : Int}
    (runs : (point.advance sha256 answer tenant clock db cloud).transaction =
      some (.finishDeletion job cloudCount)) :
    ∃ receipt, point = .deletionRelay job receipt cloudCount := by
  cases point with
  | deletionRelay job receipt count =>
    cases runs
    exact ⟨receipt, rfl⟩
  | _ =>
    simp only [Point.advance] at runs
    repeat' split at runs
    all_goals cases runs

/-- Calls neither submit nor claim deletions. -/
theorem advance_no_claim {transaction : Transaction}
    (runs : (point.advance sha256 answer tenant clock db cloud).transaction = some transaction) :
    (∀ attempt locked, transaction ≠ .claimDeletion attempt locked) ∧
      ∀ tenantID actorID rootID retryJobID id wait,
        transaction ≠ .submitDeletion tenantID actorID rootID retryJobID id wait := by
  cases point <;> simp only [Point.advance] at runs <;> repeat' split at runs
  all_goals cases runs
  all_goals simp

/-- The transactions of a worker. -/
theorem advance_deletion (sha256 : String → String) (answer : Answer) (tenant : String) (clock : Nat)
    (db : Database) (cloud : Cloud) {point : Point} {job : RootDeletionJob} (works : point.deletion = some job) :
    (point.advance sha256 answer tenant clock db cloud).transaction = none ∨
      (∃ cloudCount, (point.advance sha256 answer tenant clock db cloud).transaction =
        some (.finishDeletion job cloudCount)) ∨
      (point.advance sha256 answer tenant clock db cloud).transaction =
        some (.recordDeletionError job false) := by
  cases point with
  | attemptCurrent | deletionCloud =>
    cases works
    exact .inl rfl
  | deletionRelay _ _ cloudCount =>
    cases works
    exact .inr (.inl ⟨cloudCount, rfl⟩)
  | deletionError =>
    cases works
    exact .inr (.inr rfl)
  | _ => cases works

/-- A worker keeps to its job, and goes on to the Relay rows with a receipt for it. -/
theorem advance_keeps_deletion {job : RootDeletionJob}
    (moves : (point.advance sha256 answer tenant clock db cloud).next = some next)
    (works : next.deletion = some job) : point.deletion = some job := by
  cases point <;>
    simp only [Point.advance, afterIntent, afterPublish, afterStatus, afterCancel] at moves <;>
    repeat' split at moves
  all_goals cases moves
  all_goals exact works

theorem advance_receipt {job : RootDeletionJob} {receipt : DeletionReceipt} {count : Int}
    (moves : (point.advance sha256 answer tenant clock db cloud).next =
      some (.deletionRelay job receipt count)) :
    receipt.operationID = job.id ∧ receipt.rootID = job.rootID := by
  cases point with
  | deletionCloud job' =>
    simp only [Point.advance, Option.some.injEq] at moves
    split at moves
    next found _ accepted =>
      cases moves
      obtain ⟨_, same, operation, root, -⟩ := rootDeletionReceipt_eq_ok accepted
      rw [found] at same
      cases same
      exact ⟨operation, root⟩
    · cases moves
  | _ =>
    simp only [Point.advance, afterIntent, afterPublish, afterStatus, afterCancel] at moves
    repeat' split at moves
    all_goals cases moves

end Advance

/-- Where a deletion job comes from in a step of the system. -/
theorem Stepped.deletion_source {sha256 : String → String} {system after : System}
    {event : SystemEvent} (stepped : Stepped sha256 system event after) {row : RootDeletionJob}
    (member : row ∈ after.world.db.rootDeletionJobs) :
    (∃ now transaction, ∃ old ∈ system.world.db.rootDeletionJobs,
      DeletionChange now transaction old row ∧ ∀ attempt locked,
        transaction = .claimDeletion attempt locked →
          ∃ waited, event = .other (.commit waited (.claimDeletion attempt locked))) ∨
    ∃ waited now tenantID actorID rootID id wait,
      event = .other (.commit waited (.submitDeletion tenantID actorID rootID "" id wait)) ∧
      row = .submitted now tenantID actorID rootID id := by
  have kept (stored : row ∈ system.world.db.rootDeletionJobs) :
      ∃ now transaction, ∃ old ∈ system.world.db.rootDeletionJobs,
        DeletionChange now transaction old row ∧ ∀ attempt locked,
          transaction = .claimDeletion attempt locked →
            ∃ waited, event = .other (.commit waited (.claimDeletion attempt locked)) :=
    ⟨0, .sweep [], row, stored, .same _ row, by simp⟩
  cases stepped with
  | idle | landed | lost | aborted => exact .inl (kept member)
  | other event accepted =>
    cases event with
    | tick => exact .inl (kept member)
    | commit waited transaction =>
      simp only [System.background, World.step] at member
      split at member
      · rcases mem_exec_deletions member with ⟨old, stored, change⟩ |
          ⟨tenantID, actorID, rootID, id, wait, rfl, same, -⟩
        · exact .inl ⟨_, transaction, old, stored, change, fun attempt locked same =>
            ⟨waited, by rw [same]⟩⟩
        · exact .inr ⟨waited, _, tenantID, actorID, rootID, id, wait, rfl, same⟩
      · exact .inl (kept member)
  | entered waited token tenant spelling operation point =>
    rw [System.begin_db] at member
    rcases mem_exec_deletions member with ⟨old, stored, change⟩ | ⟨_, _, _, _, _, impossible, -⟩
    · exact .inl ⟨_, _, old, stored, change, by simp⟩
    · cases impossible
  | advanced call inFlight answer effect next allowed possible =>
    simp only [System.apply] at member
    cases runs : effect.transaction with
    | none =>
      rw [runs] at member
      exact .inl (kept member)
    | some transaction =>
      rw [runs] at member possible
      rw [System.commit_db possible] at member
      rw [next] at runs
      obtain ⟨noClaim, noSubmission⟩ := advance_no_claim runs
      rcases mem_exec_deletions member with ⟨old, stored, change⟩ | ⟨_, _, _, _, _, impossible, -⟩
      · exact .inl ⟨_, transaction, old, stored, change, fun attempt locked same =>
          absurd same (noClaim attempt locked)⟩
      · exact absurd impossible (noSubmission _ _ _ _ _ _)

/-! ### Claims -/

/-- What the workers know of the jobs they were given. -/
structure ClaimDiscipline (system : System) : Prop where
  works : ∀ call ∈ system.calls, ∀ job, call.point.deletion = some job → job ∈ system.claimed
  receipts : ∀ call ∈ system.calls, ∀ job receipt count,
    call.point = .deletionRelay job receipt count →
      receipt.operationID = job.id ∧ receipt.rootID = job.rootID
  same : ∀ job ∈ system.claimed, ∀ row ∈ system.world.db.rootDeletionJobs, row.id = job.id →
    row.userID = job.userID ∧ row.rootID = job.rootID

/-- The job that a claim hands out is the row as it is then. -/
theorem mem_claims {world : World} {event : Event} {job : RootDeletionJob}
    (listed : job ∈ System.claims world event) :
    ∃ waited attempt locked, event = .commit waited (.claimDeletion attempt locked) ∧
      ∃ candidate ∈ world.db.rootDeletionJobs, candidate.claimable (world.clock - waited) = true ∧
        job = candidate.claim (world.clock - waited) attempt := by
  unfold System.claims at listed
  split at listed
  next waited attempt locked =>
    refine ⟨waited, attempt, locked, rfl, ?_⟩
    rcases world.db.claimRootDeletion_cases (world.clock - waited) attempt locked with
      ⟨none, -⟩ | ⟨candidate, stored, claimable, some, -⟩
    · rw [none] at listed
      cases listed
    · rw [some] at listed
      exact ⟨candidate, stored, claimable, by simpa using listed⟩
  · cases listed

/-- A worker works on a job that it was given. -/
theorem works_step {sha256 : String → String} {system after : System} {event : SystemEvent}
    (works : ∀ call ∈ system.calls, ∀ job, call.point.deletion = some job → job ∈ system.claimed)
    (stepped : Stepped sha256 system event after) :
    ∀ call ∈ after.calls, ∀ job, call.point.deletion = some job → job ∈ after.claimed := by
  cases stepped with
  | idle | landed | lost | aborted => exact works
  | other event accepted =>
    exact fun call inFlight job here => List.mem_append_right _ (works call inFlight job here)
  | entered waited token tenant spelling operation point admitted fresh claimed =>
    refine System.forall_begin works fun job here => ?_
    cases Operation.enters admitted with
    | rootDeletion given =>
      cases here
      exact List.contains_iff_mem.mp (Bool.and_eq_true_iff.mp claimed).1
    | _ => cases here
  | advanced call inFlight answer effect next =>
    refine System.forall_moveOn inFlight (fun other known _ => works other known)
      fun point moves job here => ?_
    rw [next] at moves
    exact works call inFlight job (advance_keeps_deletion moves here)

namespace ClaimDiscipline

variable {sha256 : String → String} {system after : System} {event : SystemEvent}

theorem initial : ClaimDiscipline System.initial where
  works call member := absurd member (Table.not_mem_empty call)
  receipts call member := absurd member (Table.not_mem_empty call)
  same _ member := nomatch member

/-- The rows of a job that has been claimed keep what it says about them. -/
theorem same_step (discipline : ClaimDiscipline system)
    (rules : system.deletionRules event = true) (stepped : Stepped sha256 system event after) :
    ∀ job ∈ system.claimed, ∀ row ∈ after.world.db.rootDeletionJobs, row.id = job.id →
      row.userID = job.userID ∧ row.rootID = job.rootID := by
  intro job claimed row member same
  rcases stepped.deletion_source member with ⟨now, transaction, old, stored, change, -⟩ |
    ⟨waited, now, tenantID, actorID, rootID, id, wait, rfl, rfl⟩
  · obtain ⟨id, user, root⟩ := change.identity
    rw [user, root]
    exact discipline.same job claimed old stored (id.symm.trans same)
  · -- the identifier of a new job is not one that was claimed before
    simp only [System.deletionRules, List.all_eq_true, bne_iff_ne] at rules
    exact absurd same.symm (rules job claimed)

theorem step (discipline : ClaimDiscipline system) (rules : system.deletionRules event = true)
    (stepped : Stepped sha256 system event after) : ClaimDiscipline after := by
  have kept := discipline.same_step rules stepped
  have works := works_step discipline.works stepped
  cases stepped with
  | idle => exact discipline
  | landed | lost | aborted => exact ⟨works, discipline.receipts, kept⟩
  | other event accepted =>
    refine ⟨works, discipline.receipts, fun job listed row member same => ?_⟩
    rcases List.mem_append.mp listed with new | claimed
    · -- the row is the claimed one, before or after the claim
      obtain ⟨waited, attempt, locked, rfl, candidate, source, -, rfl⟩ := mem_claims new
      simp only [System.background, World.step, World.admissible, if_true] at member
      rcases mem_exec_deletions member with ⟨old, stored, change⟩ | ⟨_, _, _, _, _, impossible, -⟩
      · obtain ⟨id, user, root⟩ := change.identity
        obtain rfl := Table.eq_of_key_eq stored source (id.symm.trans same)
        exact ⟨user, root⟩
      · cases impossible
    · exact kept job claimed row member same
  | entered waited token tenant spelling operation point admitted =>
    refine ⟨works, System.forall_begin discipline.receipts fun job receipt count stands => ?_, kept⟩
    cases Operation.enters admitted <;> cases stands
  | advanced call inFlight answer effect next =>
    refine ⟨works, System.forall_moveOn inFlight (fun other known _ => discipline.receipts other known)
      fun point moves job receipt count stands => ?_, kept⟩
    obtain rfl : point = .deletionRelay job receipt count := stands
    rw [next] at moves
    exact advance_receipt moves

end ClaimDiscipline

/-! ### The ways of a job -/

section Ways

variable {sha256 : String → String} {system : System} {event : SystemEvent}

/-- The finishing transaction of a worker whose claim is current. -/
theorem finishes_of_exec (discipline : ClaimDiscipline system) {call : Call}
    (inFlight : call ∈ system.calls) {answer : Answer} {job row : RootDeletionJob}
    {receipt : DeletionReceipt} {count : Int} {deletedFiles : Int}
    (point : call.point = .deletionRelay job receipt count)
    (holds : system.holdsLease call = true)
    (next : system.step sha256 (.advance call.token answer) = system.apply sha256 call answer
      (call.point.advance sha256 answer call.tenant system.world.clock system.world.db system.cloud))
    (stored : row ∈ system.world.db.rootDeletionJobs)
    (current : row.claimedBy job (system.world.clock - answer.waited) = true)
    (marked : row.finish (system.world.clock - answer.waited) deletedFiles ∈
      (system.step sha256 (.advance call.token answer)).world.db.rootDeletionJobs) :
    Finishes sha256 system (.advance call.token answer) row := by
  have claimed := discipline.works call inFlight job (by rw [point]; rfl)
  obtain ⟨operation, root⟩ := discipline.receipts call inFlight job receipt count point
  have identity := (RootDeletionJob.claimedBy_iff.mp current).1
  obtain ⟨user, sameRoot⟩ := discipline.same job claimed row stored identity
  refine ⟨call, inFlight, answer, job, receipt, count, deletedFiles, rfl, point, holds, claimed,
    by rw [operation, identity], by rw [root, sameRoot], current, marked, ?_⟩
  have present : system.world.db.rootDeletionAttemptCurrent (system.world.clock - answer.waited)
      job = true := Table.holds_eq_true.mpr ⟨row, stored, current⟩
  rw [next, point, user, sameRoot]
  simp [Point.advance, System.apply, System.commit, World.step, World.admissible, exec,
    finishRootDeletion, present, settle]

/-- An active job stays active until it is finished. -/
theorem active_or_finishes (discipline : ClaimDiscipline system)
    (rules : system.deletionRules event = true) {row : RootDeletionJob}
    (stored : row ∈ system.world.db.rootDeletionJobs) (active : row.active = true) :
    (∃ later ∈ (system.step sha256 event).world.db.rootDeletionJobs,
      later.id = row.id ∧ later.active = true) ∨ Finishes sha256 system event row := by
  have stays : (∃ later ∈ system.world.db.rootDeletionJobs,
      later.id = row.id ∧ later.active = true) := ⟨row, stored, rfl, active⟩
  have stepped := system.stepped sha256 event
  generalize result : system.step sha256 event = after at stepped
  cases stepped with
  | idle | landed | lost | aborted => exact .inl stays
  | other event accepted =>
    cases event with
    | tick => exact .inl stays
    | commit waited transaction =>
      simp only [System.background, World.step]
      split
      · obtain ⟨later, kept, change⟩ := exec_active_deletion (system.world.clock - waited)
          system.world.clock transaction stored active
        rcases change.active_or_finished active with goesOn | ⟨job, count, _, rfl, -⟩
        · exact .inl ⟨later, kept, change.identity.1, goesOn⟩
        · cases rules
      · exact .inl stays
  | entered waited token tenant spelling operation point =>
    rw [System.begin_db]
    obtain ⟨later, kept, change⟩ := exec_active_deletion (system.world.clock - waited)
      system.world.clock (.acquire tenant (operation.resource spelling) operation.kind token
        operation.mode) stored active
    rcases change.active_or_finished active with goesOn | ⟨_, _, _, impossible, -⟩
    · exact .inl ⟨later, kept, change.identity.1, goesOn⟩
    · cases impossible
  | advanced call inFlight answer effect next allowed possible =>
    simp only [System.apply]
    cases runs : effect.transaction with
    | none => exact .inl stays
    | some transaction =>
      rw [runs] at possible
      rw [System.commit_db possible]
      obtain ⟨later, kept, change⟩ := exec_active_deletion (system.world.clock - answer.waited)
        system.world.clock transaction stored active
      rcases change.active_or_finished active with goesOn | ⟨job, count, deletedFiles, rfl, current,
        rfl⟩
      · exact .inl ⟨later, kept, change.identity.1, goesOn⟩
      · right
        have transacts := runs
        rw [next] at transacts
        obtain ⟨receipt, point⟩ := advance_finishes transacts
        have holds : system.holdsLease call = true := by
          rw [point] at allowed
          exact allowed.resolve_left (by simp [Point.detached])
        have marked : row.finish (system.world.clock - answer.waited) deletedFiles ∈
            (system.step sha256 (.advance call.token answer)).world.db.rootDeletionJobs := by
          rw [result]
          simp only [System.apply, runs]
          rw [System.commit_db possible]
          exact kept
        exact finishes_of_exec discipline inFlight point holds (by rw [result, next]) stored current
          marked

/-- A worker whose claim is not current changes nothing. -/
theorem worker_without_claim {job : RootDeletionJob} {waited : Nat}
    (works : system.worker event = some (job, waited))
    (stale : ∀ row ∈ system.world.db.rootDeletionJobs,
      row.claimedBy job (system.world.clock - waited) = false) :
    (system.step sha256 event).world.db = system.world.db := by
  unfold System.worker at works
  split at works
  · cases works
    simp only [System.step]
    split
    · rfl
    · simp only [System.background, World.step, World.admissible, if_true]
      exact (exec_stale stale _ 0).1
  next token answer =>
    obtain ⟨call, found, given⟩ := Option.bind_eq_some_iff.mp works
    obtain ⟨job', here, same⟩ := Option.map_eq_some_iff.mp given
    cases same
    rw [System.step_advance sha256 found]
    split
    next enabled =>
      have possible := (Bool.and_eq_true_iff.mp enabled).2
      simp only [System.apply]
      rcases advance_deletion sha256 answer call.tenant system.world.clock system.world.db
        system.cloud here with none | ⟨count, finishes⟩ | reports
      · rw [none]
        rfl
      · rw [finishes] at possible ⊢
        rw [System.commit_db possible]
        exact (exec_stale stale false count).2
      · rw [reports] at possible ⊢
        rw [System.commit_db possible]
        exact (exec_stale stale false 0).1
    · rfl
  · cases works

/-- A worker touches Relay rows in the transaction that finishes its job only. -/
theorem worker_index (discipline : ClaimDiscipline system) {job : RootDeletionJob} {waited : Nat}
    (works : system.worker event = some (job, waited)) :
    SameIndex system.world.db (system.step sha256 event).world.db ∨
      ∃ row ∈ system.world.db.rootDeletionJobs, Finishes sha256 system event row := by
  -- without a row that this job still claims, the worker's step does nothing
  by_cases claimed : ∀ row ∈ system.world.db.rootDeletionJobs,
      row.claimedBy job (system.world.clock - waited) = false
  · rw [worker_without_claim works claimed]
    exact .inl (.refl _)
  simp only [not_forall, Bool.not_eq_false] at claimed
  obtain ⟨row, stored, current⟩ := claimed
  unfold System.worker at works
  split at works
  · cases works
    simp only [System.step]
    split
    · exact .inl (.refl _)
    · simp only [System.background, World.step, World.admissible, if_true]
      exact .inl (exec_sameIndex _ _ _ rfl)
  next token answer =>
    obtain ⟨call, found, given⟩ := Option.bind_eq_some_iff.mp works
    obtain ⟨job', here, same⟩ := Option.map_eq_some_iff.mp given
    cases same
    obtain ⟨inFlight, rfl⟩ := Table.lookup_eq_some.mp found
    have result := System.step_advance sha256 found answer
    split at result
    next enabled =>
      rw [result]
      obtain ⟨allowed, possible⟩ := Bool.and_eq_true_iff.mp enabled
      simp only [System.apply]
      rcases advance_deletion sha256 answer call.tenant system.world.clock system.world.db
        system.cloud here with none | ⟨count, finishes⟩ | reports
      · rw [none]
        exact .inl (.refl _)
      · obtain ⟨receipt, point⟩ := advance_finishes finishes
        have holds : system.holdsLease call = true := by simpa [point, Point.detached] using allowed
        obtain ⟨deletedFiles, marks⟩ := exec_marks system.world.clock stored current count
        have marked : row.finish (system.world.clock - answer.waited) deletedFiles ∈
            (system.step sha256 (.advance call.token answer)).world.db.rootDeletionJobs := by
          rw [finishes] at possible
          rw [result]
          simp only [System.apply, finishes]
          rw [System.commit_db possible]
          exact marks
        exact .inr ⟨row, stored, finishes_of_exec discipline inFlight point holds result stored
          current marked⟩
      · rw [reports] at possible ⊢
        rw [System.commit_db possible]
        exact .inl (exec_sameIndex _ _ _ rfl)
    · rw [result]
      exact .inl (.refl _)
  · cases works

/-- A job that has ended and was claimed under this identifier stays ended. -/
theorem ended_step {jobID : String} (claimed : ∃ job ∈ system.claimed, job.id = jobID)
    (rules : system.deletionRules event = true)
    (ended : ∀ row ∈ system.world.db.rootDeletionJobs, row.id = jobID → row.active = false) :
    ∀ row ∈ (system.step sha256 event).world.db.rootDeletionJobs, row.id = jobID →
      row.active = false := by
  intro row member same
  rcases (system.stepped sha256 event).deletion_source member with
    ⟨now, transaction, old, stored, change, -⟩ |
    ⟨waited, now, tenantID, actorID, rootID, id, wait, rfl, rfl⟩
  · have before := ended old stored (change.identity.1.symm.trans same)
    rw [change.eq_of_inactive before]
    exact before
  · obtain ⟨job, given, rfl⟩ := claimed
    simp only [System.deletionRules, List.all_eq_true, bne_iff_ne] at rules
    exact absurd same.symm (rules job given)

/-- An attempt that is out stays out. -/
theorem superseded_step {job : RootDeletionJob} (given : job ∈ system.claimed)
    (rules : system.deletionRules event = true)
    (superseded : Superseded system job) : Superseded (system.step sha256 event) job := by
  intro row member id carried running
  rcases (system.stepped sha256 event).deletion_source member with
    ⟨now, transaction, old, stored, change, claims⟩ |
    ⟨waited, now, tenantID, actorID, rootID, newID, wait, rfl, rfl⟩
  · have before := superseded old stored (change.identity.1.symm.trans id)
    cases change with
    | same | resumed | paused => exact before carried running
    | claimed fresh locked =>
      -- attempts are not issued twice
      obtain ⟨waited, rfl⟩ := claims fresh locked rfl
      simp only [System.deletionRules, List.all_eq_true, bne_iff_ne] at rules
      exact rules job given carried.symm
    | reported _ _ _ current =>
      exact before carried (RootDeletionJob.claimedBy_iff.mp current).2.2.2.2.1
    | finished => cases running
  · cases running

theorem claimed_step {job : RootDeletionJob} (given : job ∈ system.claimed) :
    job ∈ (system.step sha256 event).claimed := by
  have stepped := system.stepped sha256 event
  generalize system.step sha256 event = after at stepped
  cases stepped with
  | other => exact List.mem_append_right _ given
  | idle | entered | advanced | landed | lost | aborted => exact given

/-- An attempt that is out does not hold the claim at any time. -/
theorem Superseded.not_claimed {job : RootDeletionJob} (superseded : Superseded system job)
    {row : RootDeletionJob} (stored : row ∈ system.world.db.rootDeletionJobs) (now : Nat) :
    row.claimedBy job now = false := by
  by_contra current
  rw [Bool.not_eq_false, RootDeletionJob.claimedBy_iff] at current
  obtain ⟨id, -, attempt, -, running, -⟩ := current
  exact superseded row stored id attempt running

end Ways

/-! ### Runs -/

section Run

variable {sha256 : String → String} {system : System}

theorem claimDiscipline_along {events : List SystemEvent}
    (rules : Along (System.step sha256) (fun system event => system.deletionRules event = true)
      System.initial events) :
    ClaimDiscipline (runFrom (System.step sha256) System.initial events) :=
  invariant_along (fun system event before allowed => before.step allowed
    (system.stepped sha256 event)) ClaimDiscipline.initial events rules

theorem ended_along {jobID : String} {events : List SystemEvent}
    (rules : Along (System.step sha256) (fun system event => system.deletionRules event = true)
      system events) (claimed : ∃ job ∈ system.claimed, job.id = jobID)
    (ended : ∀ row ∈ system.world.db.rootDeletionJobs, row.id = jobID → row.active = false) :
    ∀ row ∈ (runFrom (System.step sha256) system events).world.db.rootDeletionJobs,
      row.id = jobID → row.active = false := by
  refine (invariant_along (P := fun system : System => (∃ job ∈ system.claimed, job.id = jobID) ∧
      ∀ row ∈ system.world.db.rootDeletionJobs, row.id = jobID → row.active = false)
    (fun system event before allowed => ?_) ⟨claimed, ended⟩ events rules).2
  exact ⟨before.1.imp fun job => .imp_left claimed_step, ended_step before.1 allowed before.2⟩

theorem superseded_along {job : RootDeletionJob} {events : List SystemEvent}
    (rules : Along (System.step sha256) (fun system event => system.deletionRules event = true)
      system events) (given : job ∈ system.claimed) (superseded : Superseded system job) :
    Superseded (runFrom (System.step sha256) system events) job := by
  refine (invariant_along (P := fun system : System => job ∈ system.claimed ∧ Superseded system job)
    (fun system event before allowed => ?_) ⟨given, superseded⟩ events rules).2
  exact ⟨claimed_step before.1, superseded_step before.1 allowed before.2⟩

/-- Right after its finishing transaction a job is over. -/
theorem Finishes.ended {event : SystemEvent} {row : RootDeletionJob}
    (finishes : Finishes sha256 system event row) :
    (∃ job ∈ (system.step sha256 event).claimed, job.id = row.id) ∧
      ∀ later ∈ (system.step sha256 event).world.db.rootDeletionJobs, later.id = row.id →
        later.active = false := by
  obtain ⟨call, -, answer, job, receipt, count, deletedFiles, -, -, -, given, -, -, current, marked,
    -⟩ := finishes.exists_call
  refine ⟨⟨job, claimed_step given, (RootDeletionJob.claimedBy_iff.mp current).1.symm⟩, ?_⟩
  intro later member same
  rw [Table.eq_of_key_eq member marked same]
  rfl

end Run

/-- In every run of workers, recoveries and everything else, each step: leaves an active
deletion job active, or is the one transaction that finishes it and deletes the
Relay rows of its root, by the attempt that holds the claim and has the receipt; after
that the job is never active again. A worker's step that does not hold the current
claim changes nothing, and no other step of a worker touches Relay rows. An attempt
that was superseded, or whose job has ended, never holds the claim again. -/
theorem rootDeletion_fenced (sha256 : String → String) (events : List SystemEvent)
    (rules : Along (System.step sha256) (fun system event => system.deletionRules event = true)
      System.initial events) :
    ∀ before event after system, events = before ++ event :: after →
      system = runFrom (System.step sha256) System.initial before →
      (∀ row ∈ system.world.db.rootDeletionJobs, row.active = true →
        (∃ later ∈ (system.step sha256 event).world.db.rootDeletionJobs,
          later.id = row.id ∧ later.active = true) ∨ Finishes sha256 system event row) ∧
      (∀ row ∈ system.world.db.rootDeletionJobs, Finishes sha256 system event row →
        ∀ middle rest, after = middle ++ rest →
        ∀ later ∈ (runFrom (System.step sha256) (system.step sha256 event) middle
          ).world.db.rootDeletionJobs, later.id = row.id → later.active = false) ∧
      (∀ job waited, system.worker event = some (job, waited) →
        (SameIndex system.world.db (system.step sha256 event).world.db ∨
          ∃ row ∈ system.world.db.rootDeletionJobs, Finishes sha256 system event row) ∧
        ((∀ row ∈ system.world.db.rootDeletionJobs,
            row.claimedBy job (system.world.clock - waited) = false) →
          (system.step sha256 event).world.db = system.world.db)) ∧
      ∀ job ∈ system.claimed, Superseded system job → ∀ middle rest,
        event :: after = middle ++ rest →
        ∀ row ∈ (runFrom (System.step sha256) system middle).world.db.rootDeletionJobs, ∀ now,
          row.claimedBy job now = false := by
  rintro before event after system rfl rfl
  obtain ⟨earlier, allowed, later⟩ := along_append.mp rules
  have discipline := claimDiscipline_along earlier
  refine ⟨fun row stored active => active_or_finishes discipline allowed stored active, ?_, ?_, ?_⟩
  · rintro row stored finishes middle rest rfl
    obtain ⟨claimed, ended⟩ := finishes.ended
    exact ended_along (along_append.mp later).1 claimed ended
  · intro job waited works
    exact ⟨worker_index discipline works, worker_without_claim works⟩
  · intro job given superseded middle rest same row member now
    have remaining := (along_append.mp rules).2
    rw [same] at remaining
    exact (superseded_along (along_append.mp remaining).1 given superseded).not_claimed member now

/-- A deletion is submitted and claimed, and its worker has the receipt of LCE. -/
def confirmedDeletion : List SystemEvent :=
  [.other (.commit 0 (.submitDeletion "tenant" "owner" "root" "" "deletion" 0)),
    .other (.commit 0 (.claimDeletion "attempt" [])),
    .enter 0 "worker" "tenant" "" (.rootDeletion
      ((RootDeletionJob.submitted 0 "tenant" "owner" "root" "deletion").claim 0 "attempt")),
    .advance "worker" {},
    .advance "worker" { receipt := some ⟨"deletion", "root", some true, some 0⟩ }]

theorem rootDeletion_fenced_confirmed :
    Along (System.step id) (fun system event => system.deletionRules event = true) System.initial
        (confirmedDeletion ++ [.advance "worker" {}]) ∧
      ∃ row ∈ (runFrom (System.step id) System.initial confirmedDeletion).world.db.rootDeletionJobs,
        Finishes id (runFrom (System.step id) System.initial confirmedDeletion)
          (.advance "worker" {}) row := by
  have rules : Along (System.step id) (fun system event => system.deletionRules event = true)
      System.initial (confirmedDeletion ++ [.advance "worker" {}]) := by
    decide +kernel
  have waits : (runFrom (System.step id) System.initial confirmedDeletion
      ).world.db.rootDeletionJobs.holds (·.active) = true := by
    decide +kernel
  have done : ((runFrom (System.step id) System.initial confirmedDeletion).step id
      (.advance "worker" {})).world.db.rootDeletionJobs.holds (·.active) = false := by
    decide +kernel
  obtain ⟨row, stored, active⟩ := Table.holds_eq_true.mp waits
  obtain ⟨ways, -⟩ := rootDeletion_fenced id _ rules confirmedDeletion (.advance "worker" {}) [] _
    rfl rfl
  rcases ways row stored active with ⟨later, member, -, stays⟩ | finishes
  · rw [Table.holds_eq_false.mp done later member] at stays
    cases stays
  · exact ⟨rules, row, stored, finishes⟩

end AcemcpRelay
