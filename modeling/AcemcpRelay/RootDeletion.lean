import AcemcpRelay.Operations
import AcemcpRelay.RootState
import Mathlib.Data.List.Sort

/-!
# Durable root deletion

`root_deletion_jobs.go`. A row in status `queued` or `running` is a marker: while
it stands, no index operation of the tenant is admitted except the deletion
itself. Workers claim the row, clear the root at LCE under an exclusive lease,
and delete the Relay rows in the transaction that marks the row `succeeded`.
-/
namespace AcemcpRelay

open Store

def rootDeletionClaimDuration : Nat := 15 * 60 * 1000

def rootDeletionMaxAttempts : Nat := 5

/-- `rootDeletionRetryDelay`, in milliseconds. -/
def rootDeletionRetryDelay (attempts : Nat) : Nat :=
  min (10 * 60 * 1000) (5 * 1000 * 2 ^ min (attempts - 1) 7)

def deletionRetrying : String := "删除结果暂无法确认，后台将自动重试。"

def deletionPaused : String :=
  "自动重试已停止，删除结果仍未确认。请点击该索引行的「重试删除」；在此之前该工作区的索引会保持暂停。"

inductive DeletionError where
  | busy
  | rateLimited
  | noRows
  | constraint
  deriving DecidableEq, Repr

namespace RootDeletionJob

/-- The claim of a running attempt has run out: `claim_until < NOW()`. -/
def claimLapsed (job : RootDeletionJob) (now : Nat) : Bool :=
  match job.claimUntil with
  | some deadline => decide (deadline < now)
  | none => false

/-- `id = $1 AND user_id = $2 AND attempt_id = $3 AND status = 'running' AND claim_until > NOW()`:
the attempt that `job` was read in is still the current one. -/
def claimedBy (row job : RootDeletionJob) (now : Nat) : Bool :=
  row.id == job.id && row.userID == job.userID && row.attemptID == job.attemptID &&
    job.attemptID.isSome && row.status == .running &&
    match row.claimUntil with
    | some deadline => decide (now < deadline)
    | none => false

/-- Out of attempts with nobody working on it. -/
def exhausted (job : RootDeletionJob) (now : Nat) : Bool :=
  job.status == .running && job.claimLapsed now &&
    decide (rootDeletionMaxAttempts ≤ job.attemptCount) && !job.recoveryRequired

def claimable (job : RootDeletionJob) (now : Nat) : Bool :=
  (job.status == .queued || (job.status == .running && job.claimLapsed now)) &&
    decide (job.nextAttemptAt ≤ now) && !job.recoveryRequired &&
    decide (job.attemptCount < rootDeletionMaxAttempts)

/-- The owner's retry of a paused job. -/
def resume (job : RootDeletionJob) (now : Nat) : RootDeletionJob :=
  { job with recoveryRequired := false, attemptCount := 0, error := "",
             nextAttemptAt := now, updatedAt := now }

def submitted (now : Nat) (tenantID actorID rootID id : String) : RootDeletionJob :=
  { id, userID := tenantID, actorID, rootID, status := .queued,
    nextAttemptAt := now, createdAt := now, updatedAt := now }

/-- The claim of an attempt. -/
def claim (job : RootDeletionJob) (now : Nat) (attempt : String) : RootDeletionJob :=
  { job with status := .running, attemptID := some attempt,
             claimUntil := some (now + rootDeletionClaimDuration), updatedAt := now,
             attemptCount := job.attemptCount + 1 }

/-- A job out of attempts waits for its owner. -/
def pause (job : RootDeletionJob) (now : Nat) : RootDeletionJob :=
  { job with recoveryRequired := true, updatedAt := now, error := deletionPaused }

end RootDeletionJob

/-- A receipt of `codebase_clear_index`; a field that is missing is `none`. -/
structure DeletionReceipt where
  operationID : String
  rootID : String
  deleted : Option Bool
  deletedFiles : Option Int
  deriving DecidableEq, Repr

/-- `rootDeletionReceipt`: the number of files that LCE deleted. A content that is
not such a receipt at all is `none`. -/
def rootDeletionReceipt (content : Option DeletionReceipt) (job : RootDeletionJob) :
    Except String Int :=
  match content with
  | none => .error "invalid deletion receipt"
  | some receipt =>
    match receipt.deletedFiles with
    | none => .error "deletion receipt does not confirm this operation"
    | some deletedFiles =>
      if receipt.operationID ≠ job.id ∨ receipt.rootID ≠ job.rootID ∨ receipt.deleted = none ∨
          deletedFiles < 0 then .error "deletion receipt does not confirm this operation"
      else .ok deletedFiles

/-- What a receipt that is accepted says. -/
theorem rootDeletionReceipt_eq_ok {content : Option DeletionReceipt} {job : RootDeletionJob}
    {count : Int} (accepted : rootDeletionReceipt content job = .ok count) :
    ∃ receipt, content = some receipt ∧ receipt.operationID = job.id ∧
      receipt.rootID = job.rootID ∧ receipt.deletedFiles = some count ∧ 0 ≤ count := by
  unfold rootDeletionReceipt at accepted
  split at accepted
  · cases accepted
  next receipt =>
    split at accepted
    · cases accepted
    next deletedFiles reported =>
      split at accepted
      · cases accepted
      next confirms =>
        cases accepted
        simp only [ne_eq, not_or, not_not, Int.not_lt] at confirms
        exact ⟨receipt, rfl, confirms.1, confirms.2.1, reported, confirms.2.2.2⟩

namespace Database

/-- `submitRootDeletion`. `wait` is the answer of `checkDeleteRootRateLimit` and
`id` the fresh identifier of a new job. -/
def submitRootDeletion (now : Nat) (tenantID actorID rootID retryJobID id : String) (wait : Nat)
    (db : Database) : Except DeletionError (RootDeletionJob × Database) :=
  match db.rootDeletionJobs.select (fun job => job.userID == tenantID && job.active) with
  | job :: _ =>
    -- a tenant has one active deletion: it is joined or resumed, and nothing else gets in
    if job.rootID ≠ rootID ∨ (retryJobID ≠ "" ∧ retryJobID ≠ job.id) then .error .busy
    else if retryJobID ≠ "" ∧ job.recoveryRequired then
      .ok (job.resume now, { db with
        rootDeletionJobs := db.rootDeletionJobs.update
          (fun row => row.id == job.id && row.userID == tenantID && row.recoveryRequired)
          (·.resume now) })
    else .ok (job, db)
  | [] =>
    -- a retry of a deletion that is over is answered with its row and starts nothing
    if retryJobID ≠ "" then
      match db.rootDeletionJobs.select (fun job =>
          job.id == retryJobID && job.userID == tenantID && job.rootID == rootID) with
      | job :: _ => .ok (job, db)
      | [] => .error .noRows
    -- the three things that a deletion waits for: leases, running jobs and a platform reset
    else if db.leases.holds (fun lease => lease.userID == tenantID && lease.live now) ||
        db.indexJobs.holds (fun job => job.userID == tenantID && job.status == .running) ||
        db.platformConfigJobs.holds PlatformConfigJob.fencing then .error .busy
    -- asked last, so that a refused submission does not use up the limit
    else if 0 < wait then .error .rateLimited
    else
      match db.rootDeletionJobs.insert [.submitted now tenantID actorID rootID id] with
      | some rootDeletionJobs =>
        .ok (.submitted now tenantID actorID rootID id, { db with rootDeletionJobs })
      | none => .error .constraint

/-- What a submission can do: nothing, resume a paused job, or set the marker of a
tenant that is idle. -/
theorem submitRootDeletion_cases {db after : Database} {now wait : Nat}
    {tenantID actorID rootID retryJobID id : String} {job : RootDeletionJob}
    (committed : db.submitRootDeletion now tenantID actorID rootID retryJobID id wait =
      .ok (job, after)) :
    after = db ∨
    (∃ paused, after = { db with
      rootDeletionJobs := db.rootDeletionJobs.update
        (fun row => row.id == paused && row.userID == tenantID && row.recoveryRequired)
        (·.resume now) }) ∨
    ∃ rootDeletionJobs, after = { db with rootDeletionJobs } ∧
      db.rootDeletionJobs.insert [.submitted now tenantID actorID rootID id] =
        some rootDeletionJobs ∧
      db.rootDeletionJobs.select (fun job => job.userID == tenantID && job.active) = [] ∧
      db.leases.holds (fun lease => lease.userID == tenantID && lease.live now) = false ∧
      db.indexJobs.holds (fun job => job.userID == tenantID && job.status == .running) = false ∧
      db.platformConfigJobs.holds PlatformConfigJob.fencing = false := by
  unfold submitRootDeletion at committed
  split at committed
  next found others _ =>
    -- the tenant has an active job already
    split at committed
    · simp at committed
    · split at committed
      · simp only [Except.ok.injEq, Prod.mk.injEq] at committed
        exact .inr (.inl ⟨found.id, committed.2.symm⟩)
      · simp only [Except.ok.injEq, Prod.mk.injEq] at committed
        exact .inl committed.2.symm
  next none_active =>
    split at committed
    · -- a repeated recovery request answers with the finished job
      split at committed
      · simp only [Except.ok.injEq, Prod.mk.injEq] at committed
        exact .inl committed.2.symm
      · simp at committed
    · split at committed
      · simp at committed
      next idle =>
        simp only [Bool.or_eq_true, not_or, Bool.not_eq_true] at idle
        split at committed
        · simp at committed
        · split at committed
          next rootDeletionJobs inserted =>
            simp only [Except.ok.injEq, Prod.mk.injEq] at committed
            exact .inr (.inr ⟨rootDeletionJobs, committed.2.symm, inserted, none_active,
              idle.1.1, idle.1.2, idle.2⟩)
          · simp at committed

/-- `claimRootDeletion`. Rows in `locked` are locked by another transaction and
skipped. Jobs out of attempts are paused even when there is nothing to claim. -/
def claimRootDeletion (now : Nat) (attempt : String) (locked : List String) (db : Database) :
    Option RootDeletionJob × Database :=
  let byAge (p : RootDeletionJob → Bool) : List RootDeletionJob :=
    (db.rootDeletionJobs.select fun job => p job && !locked.contains job.id).insertionSort
      fun a b => a.createdAt ≤ b.createdAt
  -- rows whose attempts are used up are paused by the same transaction, before the claim
  let stopped := ((byAge (·.exhausted now)).take 100).map (·.id)
  let paused := db.rootDeletionJobs.update (fun job => stopped.contains job.id) (·.pause now)
  match byAge (·.claimable now) with
  | [] => (none, { db with rootDeletionJobs := paused })
  | candidate :: _ =>
    (some (candidate.claim now attempt), { db with
      rootDeletionJobs := paused.update (·.id == candidate.id) (·.claim now attempt) })

/-- `rootDeletionAttemptCurrent`. -/
def rootDeletionAttemptCurrent (now : Nat) (job : RootDeletionJob) (db : Database) : Bool :=
  db.rootDeletionJobs.holds (·.claimedBy job now)

/-- `recordRootDeletionError`. A deferral gives the attempt back. -/
def recordRootDeletionError (now : Nat) (job : RootDeletionJob) (deferOnly : Bool) (db : Database) :
    Database :=
  -- a deferral gives the attempt back that the claim has counted
  let attempts := if deferOnly then job.attemptCount - 1 else job.attemptCount
  let recoveryRequired := decide (rootDeletionMaxAttempts ≤ attempts)
  { db with
    rootDeletionJobs := db.rootDeletionJobs.update (·.claimedBy job now) (fun row =>
      { row with
        status := .running, updatedAt := now, attemptCount := attempts
        error := if recoveryRequired then deletionPaused else deletionRetrying
        recoveryRequired := recoveryRequired, claimUntil := some now
        nextAttemptAt := now + rootDeletionRetryDelay attempts }) }

/-- `finishRootDeletion`: success and the removal of the Relay rows commit together. -/
def finishRootDeletion (now : Nat) (job : RootDeletionJob) (cloudCount : Int) (db : Database) :
    Except DeletionError Database :=
  if db.rootDeletionAttemptCurrent now job then
    -- one transaction clears the relay's rows and closes the job
    let (count, cleared) := db.clearRootIndexState job.userID job.rootID
    .ok { cleared with
      rootDeletionJobs := db.rootDeletionJobs.update
        (fun row => row.id == job.id && row.userID == job.userID && row.attemptID == job.attemptID)
        (fun row => { row with
          status := .succeeded, error := "", updatedAt := now, claimUntil := none
          deletedFiles := if 0 < cloudCount then cloudCount else count }) }
  else .error .noRows

/-- `pruneRootDeletionHistory` deletes some of the finished jobs; which ones it is
left with by age and row locks is the argument. -/
def pruneRootDeletionHistory (now : Nat) (pruned : List String) (db : Database) : Database :=
  { db with
    rootDeletionJobs := db.rootDeletionJobs.delete fun job =>
      !job.active && decide (job.updatedAt + 7 * 24 * 60 * 60 * 1000 < now) && pruned.contains job.id }

end Database

/-! ### Markers are set by submissions only -/

/-- The later row is not active, or the earlier one was for the same tenant and root. -/
def RootDeletionJob.ActiveFrom (old row : RootDeletionJob) : Prop :=
  row.active = true → old.active = true ∧ old.id = row.id ∧ old.userID = row.userID ∧
    old.rootID = row.rootID

namespace RootDeletionJob.ActiveFrom

theorem refl (job : RootDeletionJob) : job.ActiveFrom job := fun active => ⟨active, rfl, rfl, rfl⟩

theorem trans (a b c : RootDeletionJob) (first : a.ActiveFrom b) (second : b.ActiveFrom c) :
    a.ActiveFrom c := by
  intro active
  obtain ⟨activeB, idB, userB, rootB⟩ := second active
  obtain ⟨activeA, idA, userA, rootA⟩ := first activeB
  exact ⟨activeA, idA.trans idB, userA.trans userB, rootA.trans rootB⟩

end RootDeletionJob.ActiveFrom

namespace Database

variable {db : Database}

theorem claimRootDeletion_traces (now : Nat) (attempt : String) (locked : List String) :
    Table.Traces RootDeletionJob.ActiveFrom db.rootDeletionJobs
      (db.claimRootDeletion now attempt locked).2.rootDeletionJobs := by
  unfold claimRootDeletion
  have paused (stopped : List String) : Table.Traces RootDeletionJob.ActiveFrom
      db.rootDeletionJobs (db.rootDeletionJobs.update (fun job => stopped.contains job.id)
        (·.pause now)) :=
    Table.traces_update .refl fun row _ _ active => ⟨active, rfl, rfl, rfl⟩
  dsimp only
  split
  · exact paused _
  next candidate others sorted =>
    -- the claimed row was queued or running, so it was active
    have first : candidate ∈ db.rootDeletionJobs.select (fun job =>
        job.claimable now && !locked.contains job.id) := by
      rw [← List.mem_insertionSort (fun a b => a.createdAt ≤ b.createdAt), sorted]
      exact List.mem_cons_self
    obtain ⟨stored, claimable⟩ := Table.mem_select.mp first
    simp only [RootDeletionJob.claimable, Bool.and_eq_true, Bool.or_eq_true, beq_iff_eq]
      at claimable
    have wasActive : candidate.active = true := by
      rcases claimable.1.1.1.1 with queued | ⟨running, -⟩ <;> simp [RootDeletionJob.active, *]
    refine (paused _).trans RootDeletionJob.ActiveFrom.trans (Table.traces_update .refl ?_)
    intro row kept hit _
    rw [beq_iff_eq] at hit
    refine ⟨?_, rfl, rfl, rfl⟩
    rcases Table.mem_update_cases kept with ⟨unchanged, -⟩ | ⟨old, unchanged, -, rfl⟩ <;>
      · rw [← Table.eq_of_key_eq stored unchanged hit.symm] at *
        exact wasActive

theorem recordRootDeletionError_traces (now : Nat) (job : RootDeletionJob) (deferOnly : Bool) :
    Table.Traces RootDeletionJob.ActiveFrom db.rootDeletionJobs
      (db.recordRootDeletionError now job deferOnly).rootDeletionJobs := by
  apply Table.traces_update .refl
  intro row _ current _
  simp only [RootDeletionJob.claimedBy, Bool.and_eq_true, beq_iff_eq] at current
  exact ⟨by simp [RootDeletionJob.active, current.1.2], rfl, rfl, rfl⟩

theorem finishRootDeletion_eq_ok {after : Database} {now : Nat} {job : RootDeletionJob}
    {cloudCount : Int} (committed : db.finishRootDeletion now job cloudCount = .ok after) :
    db.rootDeletionAttemptCurrent now job = true ∧
      after = { (db.clearRootIndexState job.userID job.rootID).2 with
        rootDeletionJobs := after.rootDeletionJobs } ∧
      Table.Traces RootDeletionJob.ActiveFrom db.rootDeletionJobs after.rootDeletionJobs := by
  unfold finishRootDeletion at committed
  split at committed
  next current =>
    simp only [Except.ok.injEq] at committed
    rw [← committed]
    refine ⟨current, rfl, Table.traces_update .refl ?_⟩
    intro row _ _ active
    simp [RootDeletionJob.active] at active
  · simp at committed

end Database

end AcemcpRelay
