import AcemcpRelay.Failure
import AcemcpRelay.Manifest
import AcemcpRelay.RootState

/-!
# Starting an index job

The transactions of `createIndexJob`: `inspectActiveIndexJob`, the one that
compares the manifest with the last snapshot and inserts the job, and the two
statements that close a job whose LCE `begin` failed. Each is a function on the
database; the calls between them are in `AcemcpRelay.System`.
-/
namespace AcemcpRelay

open Store

def indexProtocolVersion : Int := 1

def indexJobInitialUploadTimeout : Nat := 2 * 60 * 1000

def indexJobHeartbeatTimeout : Nat := 10 * 60 * 1000

def maxIndexRootIDLen : Nat := 128

/-- An error reported by PostgreSQL. -/
def databaseError : String := "database error"

/-! ### Closing a job -/

namespace IndexJob

/-- The columns every statement that ends a job unsuccessfully sets. -/
def closed (job : IndexJob) (now : Nat) (status : JobStatus) (failure : String)
    (diagnostic : IndexFailureDiagnostic) : IndexJob :=
  { job with
    status, phase := .done, error := failure
    errorCode := diagnostic.code, errorOrigin := diagnostic.origin
    recovery := diagnostic.recovery, completedAt := some now }

/-- `failed_files = total_files - indexed_files`. -/
def remaining (job : IndexJob) : Int := (job.totalFiles : Int) - job.indexedFiles

/-- `status = 'running'` on a job of the tenant: the guard of most updates. -/
def runningAs (job : IndexJob) (userID jobID : String) : Bool :=
  job.id == jobID && job.userID == userID && job.status == .running

end IndexJob

/-! ### Expiry -/

/-- `indexJobHeartbeatExpired`: published work is never the client's to lose. -/
def indexJobHeartbeatExpired (phase : JobPhase) (heartbeatAt now : Nat) : Bool :=
  match phase with
  | .publishing => false
  | .created => decide (heartbeatAt + indexJobInitialUploadTimeout < now)
  | _ => decide (heartbeatAt + indexJobHeartbeatTimeout < now)

def timedOutIndexJobError (phase : JobPhase) : String :=
  match phase with
  | .created => "index client disconnected before first upload"
  | _ => "index job heartbeat timed out"

/-- The `UPDATE` of the start-path reclaim, at transaction time `now`. -/
def IndexJob.reclaim (job : IndexJob) (now : Nat) : IndexJob :=
  let failure := timedOutIndexJobError job.phase
  { job.closed now .timedOut failure (classifyIndexFailure .timedOut failure) with
    failedFiles := job.remaining }

/-- What `inspectActiveIndexJob` found: a job that still owns the workspace, or
the expired ones it took back. -/
inductive ActiveInspection where
  | active (job : IndexJob)
  | reclaimed (jobs : List IndexJob)

namespace Database

/-- The running jobs of a workspace, newest first. -/
def runningJobs (db : Database) (userID workspaceID : String) : List IndexJob :=
  (db.indexJobs.select fun job =>
    job.userID == userID && job.workspaceID == workspaceID && job.status == .running).insertionSort
      fun a b => b.startedAt ≤ a.startedAt

/-- `inspectActiveIndexJob`. `clock` is Go's `time.Now()`, `now` the transaction's `NOW()`. -/
def inspectActiveIndexJob (now clock : Nat) (userID workspaceID : String) (db : Database) :
    ActiveInspection × Database :=
  let running := db.runningJobs userID workspaceID
  -- one live job is enough to leave all rows alone, the expired ones included
  match running.find? fun job => !indexJobHeartbeatExpired job.phase job.heartbeatAt clock with
  | some job => (.active job, db)
  | none =>
    let expired (id : String) : Bool := running.any (·.id == id)
    (.reclaimed running, { db with
      indexJobs := db.indexJobs.update (fun job => expired job.id) (·.reclaim now)
      indexJobFiles := db.indexJobFiles.delete fun file => expired file.jobID })

end Database

/-! ### The request -/

/-- `indexStartRequest`. -/
structure StartRequest where
  protocolVersion : Int := indexProtocolVersion
  workspaceID : String
  workspaceName : String
  branch : String
  revision : String
  files : List ManifestFile
  unreadableFiles : List String
  rootID : String
  deriving DecidableEq, Repr

/-- The checks of `createIndexJob` before it takes its lease: the request with
its texts trimmed and its manifest normalized. -/
def normalizeStartRequest (req : StartRequest) : Except String StartRequest :=
  let workspaceID := trimSpace req.workspaceID
  let rootID := normalizeIndexRootID req.rootID
  if req.protocolVersion ≠ indexProtocolVersion then
    .error ("unsupported indexing protocol version " ++ toString req.protocolVersion ++
      " (server requires 1)")
  else if workspaceID = "" ∨ 128 < workspaceID.utf8ByteSize then
    .error "workspace_id is required and must not exceed 128 bytes"
  else if rootID = "" then .error "root_id is required by indexing protocol v1"
  else if maxIndexRootIDLen < rootID.utf8ByteSize then .error "root_id exceeds 128 bytes"
  -- unreadable paths stay as they are: they are looked up when the snapshot is there
  else match normalizeManifest req.files with
    | .error message => .error message
    | .ok files => .ok
      { req with
        workspaceID, rootID, files
        workspaceName := trimSpace req.workspaceName
        branch := trimSpace req.branch, revision := trimSpace req.revision }

theorem normalizeStartRequest_eq_ok {req normalized : StartRequest}
    (accepted : normalizeStartRequest req = .ok normalized) :
    normalizeManifest req.files = .ok normalized.files ∧
      normalized.rootID = normalizeIndexRootID req.rootID ∧
      normalized.rootID ≠ "" ∧ normalized.rootID.utf8ByteSize ≤ maxIndexRootIDLen := by
  unfold normalizeStartRequest at accepted
  simp only at accepted
  split at accepted
  · simp at accepted
  split at accepted
  · simp at accepted
  split at accepted
  · simp at accepted
  next named =>
    split at accepted
    · simp at accepted
    next short =>
      split at accepted
      · simp at accepted
      next files valid =>
        rw [Except.ok.injEq] at accepted
        subst accepted
        exact ⟨valid, rfl, named, Nat.le_of_not_lt short⟩

/-- What the creating transaction of `createIndexJob` did. -/
inductive CreateOutcome where
  | unchanged
  | rateLimited (wait : Nat)
  | created (job : IndexJob) (pending deleted : List String)
  deriving DecidableEq, Repr

/-- The manifest row of a file. -/
def manifestRow (jobID : String) (pending : List String) (file : ManifestFile) : JobFile :=
  { jobID, path := file.path, hash := file.hash, size := file.size
    estimatedChunks := file.estimatedChunks, needsIndex := pending.contains file.path }

namespace Database

/-- `loadIndexedWorkspaceRoot`. -/
def loadIndexedWorkspaceRoot (userID workspaceID : String) (db : Database) : Option String :=
  (db.indexWorkspaces.lookup (userID, workspaceID)).map (normalizeIndexRootID ·.rootID)

/-- The root a workspace is moving away from: `workspaceRootBindingChanged`. -/
def movedFrom (userID : String) (req : StartRequest) (db : Database) : Option String :=
  (db.loadIndexedWorkspaceRoot userID req.workspaceID).filter fun stored =>
    normalizeIndexRootID stored != normalizeIndexRootID req.rootID

/-- `loadIndexedSnapshot`. -/
def loadIndexedSnapshot (userID workspaceID : String) (db : Database) : List ManifestFile :=
  (db.indexedFiles.select fun file => file.userID == userID && file.workspaceID == workspaceID).map
    fun file => { path := file.path, hash := file.hash, size := file.size,
                  estimatedChunks := file.estimatedChunks }

theorem mem_loadIndexedSnapshot {userID workspaceID : String} {db : Database} {old : ManifestFile} :
    old ∈ db.loadIndexedSnapshot userID workspaceID ↔ ∃ file ∈ db.indexedFiles,
      file.userID = userID ∧ file.workspaceID = workspaceID ∧
        old = { path := file.path, hash := file.hash, size := file.size
                estimatedChunks := file.estimatedChunks } := by
  simp only [loadIndexedSnapshot, List.mem_map, Table.mem_select, Bool.and_eq_true, beq_iff_eq,
    and_assoc, eq_comm (a := old)]

/-- A snapshot has one entry a path. -/
theorem loadIndexedSnapshot_nodup (userID workspaceID : String) (db : Database) :
    ((db.loadIndexedSnapshot userID workspaceID).map (·.path)).Nodup := by
  rw [loadIndexedSnapshot, List.map_map]
  apply Table.nodup_map_select
  intro a _ b _ ha hb same
  simp only [Bool.and_eq_true, beq_iff_eq] at ha hb
  simp only [Function.comp] at same
  simp only [IndexedFile.key, ha.1, ha.2, hb.1, hb.2, same]

def workspaceExists (userID workspaceID : String) (db : Database) : Bool :=
  (db.indexWorkspaces.lookup (userID, workspaceID)).isSome

/-- The job row that `createIndexJob` inserts. -/
def newIndexJob (now : Nat) (userID jobID : String) (req : StartRequest) (mode : JobMode)
    (workspaceFiles : Nat) (diff : ManifestDiff) : IndexJob :=
  { id := jobID, userID, workspaceID := req.workspaceID, workspaceName := req.workspaceName
    rootID := req.rootID, branch := req.branch, revision := req.revision, mode
    workspaceFiles, totalFiles := diff.pending.length, totalChunks := diff.estimatedChunks
    deletedCount := diff.deleted.length, startedAt := now, heartbeatAt := now }

/-- `INSERT INTO index_jobs` and the `COPY` of the manifest. -/
def insertIndexJob (job : IndexJob) (files : List ManifestFile) (pending : List String)
    (db : Database) : Except String Database :=
  -- the other columns are wide enough for what the checks let through
  if varchar 255 job.userID && files.all (varchar 128 ·.hash) then
    match db.indexJobs.insert [job],
        db.indexJobFiles.insert (files.map (manifestRow job.id pending)) with
    | some indexJobs, some indexJobFiles => .ok { db with indexJobs, indexJobFiles }
    | _, _ => .error databaseError
  else .error databaseError

/-- The creating transaction of `createIndexJob`, for a normalized request. `wait`
is the answer of `checkIndexStartRateLimit` and `jobID` the fresh identifier. -/
def createIndexJob (now : Nat) (userID : String) (req : StartRequest) (wait : Nat) (jobID : String)
    (db : Database) : Except String (CreateOutcome × Database) :=
  let previous := db.loadIndexedSnapshot userID req.workspaceID
  let present := db.workspaceExists userID req.workspaceID
  match graftUnreadablePaths previous req.files req.unreadableFiles with
  | .error message => .error message
  | .ok files =>
    let diff := diffManifest previous files
    -- nothing to send: the row of the workspace is brought up to date, and no job is made
    if present ∧ diff.pending = [] ∧ diff.deleted = [] then
      .ok (.unchanged, { db with
        indexWorkspaces := db.indexWorkspaces.update
          (fun row => row.userID == userID && row.workspaceID == req.workspaceID)
          (fun row => { row with
            workspaceName := req.workspaceName, rootID := req.rootID
            branch := req.branch, revision := req.revision }) })
    -- the limiter is asked for a start that has something to send, and only then
    else if 0 < wait then .ok (.rateLimited wait, db)
    else
      -- `full` tells LCE to replace the root, so it is for workspaces without a snapshot
      let mode := if present then JobMode.incremental else JobMode.full
      let job := newIndexJob now userID jobID req mode files.length diff
      (db.insertIndexJob job files diff.pending).map fun after =>
        (.created job diff.pending diff.deleted, after)

/-- The `UPDATE` after a failed `begin`. It leaves `failed_files` alone. -/
def failIndexBegin (now : Nat) (userID jobID detail : String) (db : Database) : Database :=
  let failure := "LCE cloud index begin failed: " ++ detail
  db.updateJobs (·.runningAs userID jobID) (fun job =>
    { job.closed now .failed failure (classifyIndexFailure .failed failure) with heartbeatAt := now })

end Database

end AcemcpRelay
