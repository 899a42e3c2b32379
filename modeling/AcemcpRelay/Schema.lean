import AcemcpRelay.Store.Table

/-!
# The relay's index tables

The rows of `migrateIndexingTables`, column by column, and the database made of
them. Time is in milliseconds. A `user_id` column holds a tenant: the
organization of the API key, or the user where there is none.

`index_job_files.job_id` references `index_jobs(id) ON DELETE CASCADE`, which is
`Database.deleteJobs`.
-/
namespace AcemcpRelay

open Store

inductive JobMode where
  | full
  | incremental
  deriving DecidableEq, Repr

inductive JobPhase where
  | created
  | uploading
  | indexing
  | publishing
  | done
  deriving DecidableEq, Repr

inductive JobStatus where
  | running
  | completed
  | failed
  | timedOut
  deriving DecidableEq, Repr

/-- The text of the `status` column. -/
def JobStatus.text : JobStatus → String
  | .running => "running"
  | .completed => "completed"
  | .failed => "failed"
  | .timedOut => "timed_out"

/-- No job leaves one of these. -/
def JobStatus.terminal : JobStatus → Bool
  | .running => false
  | .completed | .failed | .timedOut => true

theorem JobStatus.terminal_iff (status : JobStatus) :
    status.terminal = true ↔ status ≠ .running := by
  cases status <;> simp [JobStatus.terminal]

/-- A row of `index_jobs`. -/
structure IndexJob where
  id : String
  userID : String
  workspaceID : String
  workspaceName : String
  rootID : String
  branch : String
  revision : String
  mode : JobMode
  phase : JobPhase := .created
  status : JobStatus := .running
  workspaceFiles : Nat
  totalFiles : Nat
  indexedFiles : Nat := 0
  failedFiles : Int := 0
  totalChunks : Int
  indexedChunks : Int := 0
  chunkCountFallback : Bool := false
  deletedCount : Nat
  deletionsSent : Bool := false
  error : String := ""
  errorCode : String := ""
  errorOrigin : String := ""
  recovery : String := ""
  cloudRevision : Int := 0
  startedAt : Nat
  heartbeatAt : Nat
  completedAt : Option Nat := none
  publishingSince : Option Nat := none
  deriving DecidableEq, Repr

/-- A row of `index_job_files`: one manifest entry of a job. -/
structure JobFile where
  jobID : String
  path : String
  hash : String
  size : Int
  estimatedChunks : Int
  needsIndex : Bool
  indexed : Bool := false
  deriving DecidableEq, Repr

def JobFile.key (file : JobFile) : String × String := (file.jobID, file.path)

/-- A row of `indexed_files`: one file of the last completed snapshot. -/
structure IndexedFile where
  userID : String
  workspaceID : String
  path : String
  hash : String
  size : Int
  estimatedChunks : Int
  deriving DecidableEq, Repr

def IndexedFile.key (file : IndexedFile) : String × String × String :=
  (file.userID, file.workspaceID, file.path)

/-- A row of `index_workspaces`. -/
structure IndexWorkspace where
  userID : String
  workspaceID : String
  workspaceName : String
  rootID : String
  branch : String
  revision : String
  cloudRevision : Int
  indexedAt : Nat
  deriving DecidableEq, Repr

def IndexWorkspace.key (workspace : IndexWorkspace) : String × String :=
  (workspace.userID, workspace.workspaceID)

inductive OperationMode where
  | shared
  | exclusive
  deriving DecidableEq, Repr

/-- A row of `index_operation_leases`. -/
structure OperationLease where
  token : String
  userID : String
  resource : String
  mode : OperationMode
  kind : String
  expiresAt : Nat
  deriving DecidableEq, Repr

inductive DeletionStatus where
  | queued
  | running
  | succeeded
  | failed
  deriving DecidableEq, Repr

/-- A row of `root_deletion_jobs`. -/
structure RootDeletionJob where
  id : String
  userID : String
  actorID : String
  rootID : String
  status : DeletionStatus
  attemptID : Option String := none
  claimUntil : Option Nat := none
  attemptCount : Nat := 0
  recoveryRequired : Bool := false
  nextAttemptAt : Nat
  deletedFiles : Int := 0
  error : String := ""
  createdAt : Nat
  updatedAt : Nat
  deriving DecidableEq, Repr

/-- `status IN ('queued', 'running')`: the durable marker that fences the tenant. -/
def RootDeletionJob.active (job : RootDeletionJob) : Bool :=
  match job.status with
  | .queued | .running => true
  | .succeeded | .failed => false

inductive ConfigStatus where
  | pending
  | running
  | succeeded
  | rejected
  deriving DecidableEq, Repr

/-- A row of `platform_config_jobs`. -/
structure PlatformConfigJob where
  id : String
  sectionName : String
  embeddingChanged : Bool
  status : ConfigStatus
  attemptID : Option String := none
  claimUntil : Option Nat := none
  attemptCount : Nat := 0
  recoveryRequired : Bool := false
  nextAttemptAt : Nat
  error : String := ""
  createdAt : Nat
  updatedAt : Nat
  deriving DecidableEq, Repr

/-- `status IN ('pending', 'running')`. -/
def PlatformConfigJob.active (job : PlatformConfigJob) : Bool :=
  match job.status with
  | .pending | .running => true
  | .succeeded | .rejected => false

/-- `embedding_changed AND status IN ('pending','running')`: the platform-wide fence. -/
def PlatformConfigJob.fencing (job : PlatformConfigJob) : Bool :=
  job.embeddingChanged && job.active

structure Database where
  indexJobs : Table IndexJob.id
  indexJobFiles : Table JobFile.key
  indexedFiles : Table IndexedFile.key
  indexWorkspaces : Table IndexWorkspace.key
  leases : Table OperationLease.token
  rootDeletionJobs : Table RootDeletionJob.id
  platformConfigJobs : Table PlatformConfigJob.id

namespace Database

def empty : Database where
  indexJobs := .empty
  indexJobFiles := .empty
  indexedFiles := .empty
  indexWorkspaces := .empty
  leases := .empty
  rootDeletionJobs := .empty
  platformConfigJobs := .empty

/-- `DELETE FROM index_jobs WHERE p`; the manifest rows go with their jobs. -/
def deleteJobs (db : Database) (p : IndexJob → Bool) : Database :=
  { db with
    indexJobs := db.indexJobs.delete p
    indexJobFiles := db.indexJobFiles.delete fun file =>
      db.indexJobs.holds fun job => p job && job.id == file.jobID }

/-- `DELETE FROM index_job_files WHERE job_id = $1`. -/
def deleteManifest (db : Database) (jobID : String) : Database :=
  { db with indexJobFiles := db.indexJobFiles.delete (·.jobID == jobID) }

/-- `UPDATE index_jobs SET f WHERE p`. -/
def updateJobs (db : Database) (p : IndexJob → Bool) (f : IndexJob → IndexJob)
    (keeps : ∀ job, (f job).id = job.id := by exact Table.keeps_key fun _ => rfl) : Database :=
  { db with indexJobs := db.indexJobs.update p f keeps }

end Database

end AcemcpRelay
