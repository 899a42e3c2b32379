import AcemcpRelay.Jobs.Upload

/-!
# Completing and publishing

The statements of `completeIndexJobUnderLease` and of the publication
reconciler: the checks, the intent that hands the job over to the server, what is
recorded of LCE's answer, and the final transaction that replaces the snapshot.
-/
namespace AcemcpRelay

open Store

/-- What `completeIndexJobUnderLease` reads before it publishes. -/
inductive CompleteCheck where
  | completed (job : IndexJob)
  | ready (rootID : String) (cloudRevision : Int)

/-- The checks both the first read and the final transaction make. -/
def IndexJob.completable (job : IndexJob) : Except String Unit :=
  if job.status ≠ .running then .error ("index job is " ++ job.status.text)
  else if job.indexedFiles ≠ job.totalFiles then .error "index job still has pending files"
  else if 0 < job.deletedCount ∧ ¬ job.deletionsSent then
    .error "index job still has pending deletions"
  else .ok ()

/-- The `UPDATE` of the job in the final transaction. -/
def IndexJob.complete (job : IndexJob) (now : Nat) (cloudRevision : Int) : IndexJob :=
  { job with
    status := .completed, phase := .done
    -- estimates and counts are not mixed: one estimated batch keeps the estimate for all
    totalChunks := if job.chunkCountFallback then job.totalChunks else job.indexedChunks
    cloudRevision, heartbeatAt := now, completedAt := some now }

/-- The `UPDATE` of `markIndexJobFailed` and `finishFailedPublication`. -/
def IndexJob.fail (job : IndexJob) (now : Nat) (failure : String)
    (diagnostic : IndexFailureDiagnostic) : IndexJob :=
  { job.closed now .failed failure diagnostic with
    failedFiles := job.remaining, heartbeatAt := now }

namespace Database

/-- The first read of `completeIndexJobUnderLease`. -/
def checkCompletable (userID jobID : String) (db : Database) : Except String CompleteCheck :=
  match db.loadIndexJob userID jobID with
  | none => .error "index job not found"
  | some job =>
    if job.status = .completed then .ok (.completed job)
    else match job.completable with
      | .error message => .error message
      | .ok () => .ok (.ready job.rootID job.cloudRevision)

/-- The publication intent. -/
def publishIntent (now : Nat) (userID jobID : String) (db : Database) : Except String Database :=
  if db.indexJobs.holds (·.runningAs userID jobID) then
    .ok (db.updateJobs (·.runningAs userID jobID) (fun job =>
      { job with
        phase := .publishing, heartbeatAt := now
        -- a second intent keeps the deadline that the first one has started
        publishingSince := some (job.publishingSince.getD now) }))
  else .error "publication handoff lost running job"

/-- The `UPDATE` after LCE accepted the publication. -/
def publicationAccepted (now : Nat) (userID jobID : String) (db : Database) : Database :=
  db.updateJobs (·.runningAs userID jobID)
    (fun job => { job with phase := .publishing, heartbeatAt := now })

/-- The `UPDATE` after LCE returned a revision. -/
def recordCloudRevision (now : Nat) (userID jobID : String) (cloudRevision : Int) (db : Database) :
    Database :=
  db.updateJobs (·.runningAs userID jobID)
    (fun job => { job with cloudRevision, heartbeatAt := now })

/-- The snapshot rows that the final transaction writes. -/
def snapshotRows (db : Database) (job : IndexJob) : List IndexedFile :=
  (db.indexJobFiles.select (·.jobID == job.id)).map fun file =>
    { userID := job.userID, workspaceID := job.workspaceID, path := file.path, hash := file.hash
      size := file.size, estimatedChunks := file.estimatedChunks }

/-- The workspace row it writes. -/
def workspaceRow (now : Nat) (job : IndexJob) (rootID : String) (cloudRevision : Int) :
    IndexWorkspace :=
  { userID := job.userID, workspaceID := job.workspaceID, workspaceName := job.workspaceName
    rootID, branch := job.branch, revision := job.revision, cloudRevision, indexedAt := now }

/-- `INSERT INTO index_workspaces … ON CONFLICT DO UPDATE`. -/
def upsertWorkspace (row : IndexWorkspace) (db : Database) : Option Database :=
  ((db.indexWorkspaces.delete (·.key == row.key)).insert [row]).map fun indexWorkspaces =>
    { db with indexWorkspaces }

/-- The final transaction of `completeIndexJobUnderLease`. `rootID` was read before. -/
def completeIndexJob (now : Nat) (userID jobID rootID : String) (cloudRevision : Int)
    (db : Database) : Except String Database :=
  match db.loadIndexJob userID jobID with
  | none => .error "index job not found"
  | some job =>
    match job.completable with
    | .error message => .error message
    | .ok () =>
      -- the snapshot of the workspace is replaced as a whole
      let kept := db.indexedFiles.delete fun file =>
        file.userID == userID && file.workspaceID == job.workspaceID
      match kept.insert (db.snapshotRows job) with
      | none => .error databaseError
      | some indexedFiles =>
        match { db with indexedFiles }.upsertWorkspace (workspaceRow now job rootID cloudRevision) with
        | none => .error databaseError
        | some published => .ok
          ((published.updateJobs (·.id == jobID) (·.complete now cloudRevision)).deleteManifest jobID)

/-- `markIndexJobFailed` and the `DELETE` of the manifest that follows it in both of
its transactions; `none` when the job is not running any more. -/
def markIndexJobFailed (now : Nat) (userID jobID failure : String)
    (diagnostic : IndexFailureDiagnostic) (db : Database) : Option Database :=
  if db.indexJobs.holds (·.runningAs userID jobID) then
    some ((db.updateJobs (·.runningAs userID jobID) (·.fail now failure diagnostic)
      ).deleteManifest jobID)
  else none

/-- `finishFailedPublication`: LCE answered that the publication ended without effect. -/
def finishFailedPublication (now : Nat) (userID jobID failure : String) (db : Database) :
    Option Database :=
  db.markIndexJobFailed now userID jobID failure (classifyIndexFailure .failed failure)

/-- The job is one the reconciler may work on. -/
def publicationActive (userID jobID : String) (db : Database) : Bool :=
  db.indexJobs.holds fun job => job.runningAs userID jobID && job.phase == .publishing

theorem id_heartbeatAt (now : Nat) (job : IndexJob) :
    ({ job with heartbeatAt := now } : IndexJob).id = job.id := rfl

/-- The scheduling `UPDATE` of `reconcileIndexPublications`. -/
def touchPublication (now : Nat) (userID jobID : String) (db : Database) : Database :=
  db.updateJobs (fun job => job.runningAs userID jobID && job.phase == .publishing)
    (fun job => { job with heartbeatAt := now }) (id_heartbeatAt now)

end Database

end AcemcpRelay
