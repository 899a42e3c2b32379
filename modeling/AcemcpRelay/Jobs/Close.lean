import AcemcpRelay.Jobs.Publish

/-!
# Failing and sweeping

The transaction of `failIndexJob` and the timeout sweep.
-/
namespace AcemcpRelay

open Store

/-- The error a client reported, as `failIndexJob` stores it. -/
def reportedFailure (failure : String) : String :=
  let bounded := truncateUTF8 (trimSpace failure) 2000
  if bounded = "" then "client reported indexing failure" else bounded

/-- The row is expired for the sweep, which compares with Go's clock. -/
def IndexJob.expired (job : IndexJob) (clock : Nat) : Bool :=
  job.status == .running && indexJobHeartbeatExpired job.phase job.heartbeatAt clock

/-- The diagnostic columns the sweep writes, spelled out in its `CASE` expressions. -/
def sweptDiagnostic (phase : JobPhase) : IndexFailureDiagnostic :=
  match phase with
  | .created => ⟨"client_disconnected", "client", "restart_client"⟩
  | _ => ⟨"heartbeat_timeout", "relay", "restart_client"⟩

def IndexJob.sweep (job : IndexJob) (now : Nat) : IndexJob :=
  { job.closed now .timedOut (timedOutIndexJobError job.phase) (sweptDiagnostic job.phase) with
    failedFiles := job.remaining }

/-- The sweep stores what the start-path reclaim stores. -/
theorem IndexJob.sweep_eq_reclaim (job : IndexJob) (now : Nat) : job.sweep now = job.reclaim now := by
  have same : sweptDiagnostic job.phase =
      classifyIndexFailure .timedOut (timedOutIndexJobError job.phase) := by
    cases job.phase <;> decide
  simp only [sweep, reclaim, same]

namespace Database

/-- What `failIndexJob` reads first: the job, unless the tenant has none of that name. -/
inductive FailCheck where
  | returned (job : IndexJob)
  | proceed
  deriving DecidableEq

/-- A client cannot fail work that the server owns, or work that is done. -/
def checkFailable (userID jobID : String) (db : Database) : Except String FailCheck :=
  match db.loadIndexJob userID jobID with
  | none => .error "sql: no rows in result set"
  | some job =>
    -- neither is an error to the client: it gets the job back
    if job.phase = .publishing ∨ job.status = .completed then .ok (.returned job) else .ok .proceed

/-- The transaction of `failIndexJob`; of the job it checks the status only. The
result carries the root for the `abort` that follows. -/
def failIndexJob (now : Nat) (userID jobID failure : String) (diagnostic : IndexFailureDiagnostic)
    (db : Database) : Except String (String × Database) :=
  match db.loadIndexJob userID jobID with
  | none => .error "index job not found"
  | some job =>
    -- the guard is `status = 'running'`; a job that has come to `publishing` since passes it
    match db.markIndexJobFailed now userID jobID failure diagnostic with
    | none => .error "index job is not running"
    | some failed => .ok (job.rootID, failed)

/-- `sweepExpiredIndexJobs`; rows in `locked` are skipped. The first component is
the list of jobs whose LCE state is to be aborted. -/
def sweepExpiredIndexJobs (now clock : Nat) (locked : List String) (db : Database) :
    List IndexJob × Database :=
  let swept (job : IndexJob) : Bool := job.expired clock && !locked.contains job.id
  let jobs := db.indexJobs.select swept
  (jobs, { db with
    indexJobs := db.indexJobs.update swept (·.sweep now)
    indexJobFiles := db.indexJobFiles.delete fun file => jobs.any (·.id == file.jobID) })

end Database

end AcemcpRelay
