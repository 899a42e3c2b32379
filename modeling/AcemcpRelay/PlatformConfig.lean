import AcemcpRelay.Operations
import AcemcpRelay.RootState
import Mathlib.Data.List.Sort

/-!
# Platform configuration jobs

`platform_config_jobs.go`. A job that changes the embedding fences every tenant
from its admission to its receipt; on a completed receipt all index state is
cleared in the transaction that marks the job `succeeded`.
-/
namespace AcemcpRelay

open Store

def platformConfigJobMaxAttempts : Nat := 5

def platformConfigClaimDuration : Nat := 15 * 60 * 1000

inductive ConfigError where
  | identityMismatch
  | busy
  | unconfirmed
  | noRows
  | constraint
  deriving DecidableEq, Repr

inductive ReceiptState where
  | completed
  | rejected
  | other
  deriving DecidableEq, Repr

/-- `cloudPlatformConfigOperation`, without the result that is only stored. -/
structure ConfigReceipt where
  operationID : String
  state : ReceiptState
  embeddingChanged : Bool
  error : String
  deriving DecidableEq, Repr

/-- The text `finishPlatformConfigJob` stores with a receipt. -/
def receiptMessage (receipt : ConfigReceipt) : String :=
  match receipt.state with
  | .rejected =>
    if receipt.error = "PLATFORM_MODEL_CONFIG_EXPIRED" then
      "Configuration preparation expired before commit; reload and validate again"
    else "Configuration changed before this operation committed; reload and submit again"
  | _ => ""

namespace PlatformConfigJob

def claimLapsed (job : PlatformConfigJob) (now : Nat) : Bool :=
  match job.claimUntil with
  | some deadline => decide (deadline < now)
  | none => false

/-- `id=$1 AND attempt_id=$2 AND status='running' AND claim_until>NOW()`. -/
def claimedBy (row job : PlatformConfigJob) (now : Nat) : Bool :=
  row.id == job.id && row.attemptID == job.attemptID && job.attemptID.isSome &&
    row.status == .running &&
    match row.claimUntil with
    | some deadline => decide (now < deadline)
    | none => false

def exhausted (job : PlatformConfigJob) (now : Nat) : Bool :=
  job.status == .running && job.claimLapsed now &&
    decide (platformConfigJobMaxAttempts ≤ job.attemptCount) && !job.recoveryRequired

def claimable (job : PlatformConfigJob) (now : Nat) : Bool :=
  (job.status == .pending || (job.status == .running && job.claimLapsed now)) &&
    decide (job.nextAttemptAt ≤ now) && !job.recoveryRequired &&
    decide (job.attemptCount < platformConfigJobMaxAttempts)

def enqueued (now : Nat) (id sectionName : String) (embeddingChanged : Bool) : PlatformConfigJob :=
  { id, sectionName, embeddingChanged, status := .pending,
    nextAttemptAt := now, createdAt := now, updatedAt := now }

def claim (job : PlatformConfigJob) (now : Nat) (attempt : String) : PlatformConfigJob :=
  { job with status := .running, attemptID := some attempt, attemptCount := job.attemptCount + 1,
             claimUntil := some (now + platformConfigClaimDuration), updatedAt := now }

/-- The job with its receipt. -/
def close (job : PlatformConfigJob) (now : Nat) (receipt : ConfigReceipt) : PlatformConfigJob :=
  { job with
    status := if receipt.state = .rejected then .rejected else .succeeded
    error := receiptMessage receipt
    claimUntil := none, recoveryRequired := false, updatedAt := now }

theorem close_not_fencing (job : PlatformConfigJob) (now : Nat) (receipt : ConfigReceipt) :
    (job.close now receipt).fencing = false := by
  unfold close fencing active
  split <;> simp

end PlatformConfigJob

namespace Database

/-- `enqueuePlatformConfigJob`. -/
def enqueuePlatformConfigJob (now : Nat) (id sectionName : String) (embeddingChanged : Bool)
    (db : Database) : Except ConfigError (PlatformConfigJob × Database) :=
  match db.platformConfigJobs.lookup id with
  | some existing =>
    -- the identifier is the caller's: the same operation again is answered with its row
    if existing.sectionName ≠ sectionName ∨ existing.embeddingChanged ≠ embeddingChanged then
      .error .identityMismatch
    else .ok (existing, db)
  | none =>
    if db.platformConfigJobs.holds PlatformConfigJob.active ||
        -- only a change of the embedding has to wait for work on the index
        (embeddingChanged && (db.leases.holds (·.live now) ||
          db.rootDeletionJobs.holds RootDeletionJob.active)) then .error .busy
    else
      match db.platformConfigJobs.insert [.enqueued now id sectionName embeddingChanged] with
      | some platformConfigJobs =>
        .ok (.enqueued now id sectionName embeddingChanged, { db with platformConfigJobs })
      | none => .error .constraint

/-- What an admission can do: nothing, or a new job that found no other active one
and, if it fences the platform, no live lease and no deletion marker. -/
theorem enqueuePlatformConfigJob_cases {db after : Database} {now : Nat} {id sectionName : String}
    {embeddingChanged : Bool} {job : PlatformConfigJob}
    (committed : db.enqueuePlatformConfigJob now id sectionName embeddingChanged =
      .ok (job, after)) :
    after = db ∨
    ∃ platformConfigJobs, after = { db with platformConfigJobs } ∧
      db.platformConfigJobs.insert [.enqueued now id sectionName embeddingChanged] =
        some platformConfigJobs ∧
      db.platformConfigJobs.holds PlatformConfigJob.active = false ∧
      (embeddingChanged = true → db.leases.holds (·.live now) = false ∧
        db.rootDeletionJobs.holds RootDeletionJob.active = false) := by
  unfold enqueuePlatformConfigJob at committed
  split at committed
  · split at committed
    · simp at committed
    · simp only [Except.ok.injEq, Prod.mk.injEq] at committed
      exact .inl committed.2.symm
  · split at committed
    · simp at committed
    next free =>
      simp only [Bool.or_eq_true, not_or, Bool.not_eq_true, Bool.and_eq_true, not_and] at free
      split at committed
      next platformConfigJobs inserted =>
        simp only [Except.ok.injEq, Prod.mk.injEq] at committed
        exact .inr ⟨platformConfigJobs, committed.2.symm, inserted, free.1, free.2⟩
      · simp at committed

/-- The `UPDATE` of `recoverPlatformConfigJob`. -/
def recoverPlatformConfigJob (now : Nat) (id : String) (db : Database) : Database :=
  { db with
    platformConfigJobs := db.platformConfigJobs.update
      (fun job => job.id == id && job.status == .running && job.recoveryRequired)
      (fun job => { job with
        recoveryRequired := false, attemptCount := 0, nextAttemptAt := now, updatedAt := now
        error := "" }) }

def configUnconfirmed : String := "Configuration outcome is unconfirmed; recovery is required"

/-- `claimPlatformConfigJob`. -/
def claimPlatformConfigJob (now : Nat) (attempt : String) (locked : List String) (db : Database) :
    Option PlatformConfigJob × Database :=
  let paused := db.platformConfigJobs.update (·.exhausted now)
    (fun job => { job with recoveryRequired := true, error := configUnconfirmed, updatedAt := now })
  match (db.platformConfigJobs.select fun job => job.claimable now && !locked.contains job.id
      ).insertionSort fun a b => a.createdAt ≤ b.createdAt with
  | [] => (none, { db with platformConfigJobs := paused })
  | candidate :: _ =>
    (some (candidate.claim now attempt), { db with
      platformConfigJobs := paused.update (·.id == candidate.id) (·.claim now attempt) })

/-- `finishPlatformConfigJob`. -/
def finishPlatformConfigJob (now : Nat) (job : PlatformConfigJob) (receipt : ConfigReceipt)
    (db : Database) : Except ConfigError Database :=
  if receipt.operationID ≠ job.id ∨ receipt.embeddingChanged ≠ job.embeddingChanged ∨
      receipt.state = .other then .error .unconfirmed
  else if db.platformConfigJobs.holds (·.claimedBy job now) then
    let finished := db.platformConfigJobs.update
      (fun row => row.id == job.id && row.attemptID == job.attemptID)
      (·.close now receipt)
    -- new embeddings make every snapshot worthless, of every tenant
    let cleared := if receipt.state = .completed ∧ job.embeddingChanged then
      db.clearAllRelayIndexState else db
    .ok { cleared with platformConfigJobs := finished }
  else .error .noRows

/-- `deferPlatformConfigJob`. -/
def deferPlatformConfigJob (now retryDelay : Nat) (job : PlatformConfigJob) (db : Database) :
    Database :=
  let paused := decide (platformConfigJobMaxAttempts ≤ job.attemptCount)
  { db with
    platformConfigJobs := db.platformConfigJobs.update (·.claimedBy job now) (fun row =>
      { row with
        claimUntil := some now, nextAttemptAt := now + retryDelay, recoveryRequired := paused
        error := if paused then configUnconfirmed
          else "Configuration outcome is unconfirmed; reconciliation will retry"
        updatedAt := now }) }

end Database

/-! ### The platform fence is set by admissions only -/

/-- The later row does not fence the platform, or the earlier one did. -/
def PlatformConfigJob.FencingFrom (old row : PlatformConfigJob) : Prop :=
  row.fencing = true → old.fencing = true

theorem PlatformConfigJob.FencingFrom.refl (job : PlatformConfigJob) : job.FencingFrom job :=
  fun fencing => fencing

theorem PlatformConfigJob.fencing_of_status {old row : PlatformConfigJob}
    (active : old.active = true) (same : row.embeddingChanged = old.embeddingChanged) :
    old.FencingFrom row := by
  intro stays
  simp only [fencing, Bool.and_eq_true, same] at stays ⊢
  exact ⟨stays.1, active⟩

namespace Database

variable {db : Database}

theorem claimPlatformConfigJob_traces (now : Nat) (attempt : String) (locked : List String) :
    Table.Traces PlatformConfigJob.FencingFrom db.platformConfigJobs
      (db.claimPlatformConfigJob now attempt locked).2.platformConfigJobs := by
  unfold claimPlatformConfigJob
  dsimp only
  split
  · exact Table.traces_update .refl fun row _ _ fencing => fencing
  next candidate others sorted =>
    have first : candidate ∈ db.platformConfigJobs.select (fun job =>
        job.claimable now && !locked.contains job.id) := by
      rw [← List.mem_insertionSort (fun a b => a.createdAt ≤ b.createdAt), sorted]
      exact List.mem_cons_self
    obtain ⟨stored, claimable⟩ := Table.mem_select.mp first
    simp only [PlatformConfigJob.claimable, Bool.and_eq_true, Bool.or_eq_true, beq_iff_eq]
      at claimable
    have wasActive : candidate.active = true := by
      rcases claimable.1.1.1.1 with pending | ⟨running, -⟩ <;> simp [PlatformConfigJob.active, *]
    refine Table.Traces.trans (fun _ _ _ first second fencing => first (second fencing))
      (Table.traces_update .refl fun row _ _ fencing => fencing) (Table.traces_update .refl ?_)
    intro row kept hit
    rw [beq_iff_eq] at hit
    refine PlatformConfigJob.fencing_of_status ?_ rfl
    rcases Table.mem_update_cases kept with ⟨unchanged, -⟩ | ⟨old, unchanged, -, rfl⟩ <;>
      · rw [← Table.eq_of_key_eq stored unchanged hit.symm] at *
        exact wasActive

/-- A receipt closes the job; one that completes a change of the embedding clears
all index state, leases included, in the same transaction. -/
theorem finishPlatformConfigJob_eq_ok {after : Database} {now : Nat} {job : PlatformConfigJob}
    {receipt : ConfigReceipt}
    (committed : db.finishPlatformConfigJob now job receipt = .ok after) :
    after.rootDeletionJobs = db.rootDeletionJobs ∧
      Table.Traces PlatformConfigJob.FencingFrom db.platformConfigJobs after.platformConfigJobs ∧
      (after = { db with platformConfigJobs := after.platformConfigJobs } ∨
        after = { db.clearAllRelayIndexState with
          platformConfigJobs := after.platformConfigJobs }) := by
  unfold finishPlatformConfigJob at committed
  split at committed
  · simp at committed
  next confirmed =>
    split at committed
    · simp only [Except.ok.injEq] at committed
      rw [← committed]
      refine ⟨by dsimp only; split <;> rfl, Table.traces_update .refl ?_, ?_⟩
      · intro row _ _ fencing
        rw [PlatformConfigJob.close_not_fencing] at fencing
        simp at fencing
      · dsimp only
        split
        · exact .inr rfl
        · exact .inl rfl
    · simp at committed

end Database

end AcemcpRelay
