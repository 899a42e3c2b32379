import AcemcpRelay.Cloud
import AcemcpRelay.Transactions
import AcemcpRelay.UploadCall

/-!
# Calls in flight

The operations that hold a lease, statement by statement. A `Point` is where a
call stands, with everything it has read that it will still use; `Point.advance`
is the next statement, transaction or LCE request, and where the call stands
afterwards. Between two of them any other call may run.

The environment decides, in an `Answer`, whether a request reaches LCE, whether
its reply comes back, and which of the statements whose errors the code ignores
fail. A call that fails elsewhere, or whose process stops, does not advance again.
-/
namespace AcemcpRelay

open Store

/-- An operation as it is requested, after the handler's own checks. -/
inductive Operation where
  | start (req : StartRequest)
  | upload (req : UploadRequest)
  | complete (jobID : String)
  /-- A job that the reconciler selected; `overdue` is the test of its age. -/
  | reconcile (jobID : String) (overdue : Bool)
  | fail (jobID : String) (report : FailureReport)
  | clearIndex
  | dismissRootFailure (rootID : String)
  | deleteRoot (rootID : String)
  /-- A claimed deletion job. -/
  | rootDeletion (job : RootDeletionJob)

inductive Point where
  -- createIndexJob
  | inspect (req normalized : StartRequest)
  | loadRoot (req normalized : StartRequest)
  | clearOldRoot (req normalized : StartRequest) (old : String)
  | resetBinding (req normalized : StartRequest) (old : String)
  | create (req normalized : StartRequest)
  | begin (job : IndexJob) (attempt : Nat)
  | abortBegin (job : IndexJob) (detail : String)
  | markBegin (job : IndexJob) (detail : String)
  | dropManifest (job : IndexJob)
  -- uploadIndexBatch
  | prepare (req : UploadRequest)
  | beat (rootID : String) (batch : PreparedBatch)
  | stage (rootID : String) (batch : PreparedBatch)
  | commit (batch : PreparedBatch)
  -- completeIndexJobUnderLease; a reconciler may know the revision
  | check (jobID : String) (knownRevision : Option Int)
  | intend (jobID rootID : String) (knownRevision : Option Int) (cloudRevision : Int)
  | publish (jobID rootID : String)
  | accepted (jobID : String)
  | rejected (jobID failure : String)
  | record (jobID rootID : String) (cloudRevision : Int)
  | finish (jobID rootID : String) (cloudRevision : Int)
  -- reconcileIndexPublication
  | revalidate (jobID : String) (overdue : Bool)
  | status (jobID : String) (overdue : Bool)
  | cancel (jobID : String)
  -- failIndexJob
  | load (jobID : String) (report : FailureReport)
  | markFailed (jobID : String) (report : FailureReport)
  | abortFailed (jobID : String)
  -- handleClearIndex
  | clearRelay
  | clearCloud
  -- handleDismissRootFailure
  | findRunning (rootID : String)
  | findPublished (rootID : String)
  | dismissCloud (rootID : String)
  | dismissRelay (rootID : String) (hasPublishedIndex : Bool)
  -- handleDeleteRoot
  | deleteFindRunning (rootID : String)
  | deleteCloud (rootID : String)
  | deleteRelay (rootID : String)
  -- processRootDeletion
  | attemptCurrent (job : RootDeletionJob)
  | deletionCloud (job : RootDeletionJob)
  | deletionRelay (job : RootDeletionJob) (receipt : DeletionReceipt) (cloudCount : Int)
  | deletionError (job : RootDeletionJob)

namespace Operation

def kind : Operation → String
  | .start _ => "create-job"
  | .upload _ => indexUploadBatchKind
  | .complete _ => "complete-job"
  | .reconcile _ _ => "reconcile-publication"
  | .fail _ _ => "fail-job"
  | .clearIndex => "clear-index"
  | .dismissRootFailure _ => "dismiss-root-failure"
  | .deleteRoot _ => "delete-root"
  | .rootDeletion _ => deleteRootJobKind

/-- The job that a shared operation works on. -/
def jobID? : Operation → Option String
  | .upload req => some req.jobID
  | .complete jobID | .reconcile jobID _ | .fail jobID _ => some jobID
  | _ => none

def mode (operation : Operation) : OperationMode :=
  if operation.jobID?.isSome then .shared else .exclusive

/-- The resource of the lease. The text of a job identifier is the caller's. -/
def resource (spelling : String) (operation : Operation) : String :=
  if operation.jobID?.isSome then indexJobOperationResource spelling else "*"

/-- Where a call stands once it has its lease. -/
def enter : Operation → Except String Point
  | .start req => (normalizeStartRequest req).map (.inspect req)
  | .upload req => (validateUpload req).map .prepare
  | .complete jobID => .ok (.check jobID none)
  | .reconcile jobID overdue => .ok (.revalidate jobID overdue)
  | .fail jobID report => .ok (.load jobID report)
  | .clearIndex => .ok .clearRelay
  | .dismissRootFailure rootID => .ok (.findRunning (normalizeIndexRootID rootID))
  | .deleteRoot rootID => .ok (.deleteFindRunning (normalizeIndexRootID rootID))
  | .rootDeletion job => .ok (.attemptCurrent job)

end Operation

/-- What the environment decides about one step of a call. -/
structure Answer where
  /-- The time that a transaction waits between its `NOW()` and its commit. -/
  waited : Nat := 0
  /-- A statement whose error the code ignores fails. -/
  failed : Bool := false
  /-- The request is executed by LCE. -/
  reached : Bool := true
  /-- Its reply comes back, and is not an error. -/
  heard : Bool := true
  decision : Decision := .accept
  /-- The text of the error if it does not. -/
  detail : String := ""
  /-- `uuid.New()`. -/
  jobID : String := ""
  /-- The answer of a rate limiter. -/
  wait : Nat := 0
  /-- The number of chunks in the reply. -/
  count : Int := 0
  exactCount : Bool := true
  /-- The receipt in the reply to the request of a deletion job. -/
  receipt : Option DeletionReceipt := none

/-- What a start tells its caller. -/
inductive StartAnswer where
  | busy
  | unchanged
  | started
  deriving DecidableEq, Repr

/-- What is remembered of a start besides its effects. -/
inductive Note where
  | inserted (jobID : String)
  | begun (jobID : String)
  | answered (answer : StartAnswer)
  deriving DecidableEq, Repr

/-- One step of a call: a transaction or a request or neither, and the next point,
if the call goes on. -/
structure Effect where
  transaction : Option Transaction := none
  request : Option Request := none
  next : Option Point := none
  /-- Jobs whose area is to be aborted once the transaction has committed. -/
  aborts : List String := []
  notes : List Note := []

def lceBeginRetryAttempts : Nat := 2

def isTransientLCEResourceError (detail : String) : Bool :=
  let lower := toLower detail
  contains lower "timeout exceeded when trying to connect" ||
    contains lower "canceling statement due to lock timeout" ||
    contains lower "cloud platform maintenance in progress"

/-- The expired jobs whose area is still open at LCE. -/
def abortsOf (jobs : List IndexJob) : List String :=
  (jobs.filter fun job => decide (job.cloudRevision ≤ 0)).map (·.id)

namespace Answer

def sends (answer : Answer) (request : Request) : Option Request :=
  if answer.reached then some request else none

/-- A reply came back. -/
def replied (answer : Answer) : Bool := answer.reached && answer.heard

end Answer

section

variable (sha256 : String → String) (answer : Answer)

/-- The report in the reply to a request about a publication. -/
def Answer.reads (cloud : Cloud) (request : Request) (jobID : String) : Option Report :=
  if answer.replied then (cloud.serve sha256 answer.decision request).report jobID else none

/-- `completeIndexJobUnderLease` after the intent: is there still something to publish? -/
def afterIntent (jobID rootID : String) (knownRevision : Option Int) (cloudRevision : Int) :
    Option Point :=
  match knownRevision with
  | some revision =>
    if revision < 1 ∨ (0 < cloudRevision ∧ cloudRevision ≠ revision) then none
    else some (.finish jobID rootID revision)
  | none =>
    if 0 < cloudRevision then some (.finish jobID rootID cloudRevision)
    else some (.publish jobID rootID)

/-- `completeIndexJobUnderLease` after the reply to `publish`. -/
def afterPublish (jobID rootID : String) : Option Report → Option Point
  | some .failed => some (.rejected jobID "cloud publication failed")
  | some .cancelled => some (.rejected jobID "cloud publication cancelled")
  | some .publishing => some (.accepted jobID)
  | some (.completed revision) =>
    if revision < 0 then none else some (.record jobID rootID revision)
  | some .notSubmitted | none => none

/-- `reconcileIndexPublication` after the reply to `status`. -/
def afterStatus (jobID : String) (overdue : Bool) : Option Report → Option Point
  | some .failed => some (.rejected jobID "cloud publication failed")
  | some .cancelled => some (.rejected jobID "cloud publication cancelled")
  | some (.completed revision) =>
    if revision < 0 then none else some (.check jobID (some revision))
  | some .notSubmitted => some (if overdue then .cancel jobID else .check jobID none)
  | some .publishing | none => if overdue then some (.cancel jobID) else none

/-- `reconcileIndexPublication` after the reply to `abort`. -/
def afterCancel (jobID : String) : Option Report → Option Point
  | some .cancelled =>
    some (.rejected jobID "cloud publication deadline exceeded; cancellation confirmed")
  | _ => none

/-- The step that a call takes from a point. -/
def Point.advance (tenant : String) (clock : Nat) (db : Database) (cloud : Cloud) :
    Point → Effect
  -- a live job answers the start as busy; expired ones are taken back and aborted at LCE
  | .inspect req normalized =>
    let now := clock - answer.waited
    { transaction := some (.inspect tenant normalized.workspaceID)
      next := match (db.inspectActiveIndexJob now clock tenant normalized.workspaceID).1 with
        | .active _ => none
        | .reclaimed _ => some (.loadRoot req normalized)
      aborts := match (db.inspectActiveIndexJob now clock tenant normalized.workspaceID).1 with
        | .active _ => []
        | .reclaimed jobs => abortsOf jobs
      notes := match (db.inspectActiveIndexJob now clock tenant normalized.workspaceID).1 with
        | .active _ => [.answered .busy]
        | .reclaimed _ => [] }
  -- a workspace that was bound to another root leaves that one first, at LCE and then here
  | .loadRoot req normalized =>
    match db.movedFrom tenant normalized with
    | none => { next := some (.create req normalized) }
    | some old => { next := some (.clearOldRoot req normalized old) }
  | .clearOldRoot req normalized old =>
    { request := answer.sends (.clearRoot tenant (lceIndexRootID old))
      next := if answer.replied then some (.resetBinding req normalized old) else none }
  | .resetBinding req normalized old =>
    { transaction := some (.clearRoot tenant old), next := some (.create req normalized) }
  | .create req normalized =>
    let transaction := some (Transaction.create tenant req answer.wait answer.jobID)
    -- the rate limiter has been asked inside the transaction, so its answer is part of the step
    match db.createIndexJob (clock - answer.waited) tenant normalized answer.wait answer.jobID with
    | .error _ => { transaction }
    | .ok (.unchanged, _) => { transaction, notes := [.answered .unchanged] }
    | .ok (.rateLimited _, _) => { transaction, notes := [.answered .busy] }
    | .ok (.created job _ _, _) =>
      { transaction, next := some (.begin job 0), notes := [.inserted job.id] }
  | .begin job attempt =>
    let request := answer.sends (.begin tenant job.id job.rootID (job.mode == .full))
    let notes := [Note.begun job.id]
    if answer.replied then { request, notes := .answered .started :: notes }
    -- contention at LCE that passes within seconds is waited out under the same lease
    else if attempt < lceBeginRetryAttempts ∧ isTransientLCEResourceError answer.detail then
      { request, notes, next := some (.begin job (attempt + 1)) }
    else { request, notes, next := some (.abortBegin job answer.detail) }
  | .abortBegin job detail =>
    { request := answer.sends (.abort job.id), next := some (.markBegin job detail) }
  -- errors of this statement and of the next are dropped; the caller gets that of `begin`
  | .markBegin job detail =>
    { transaction := if answer.failed then none else some (.failBegin tenant job.id detail)
      next := some (.dropManifest job) }
  | .dropManifest job =>
    { transaction := if answer.failed then none else some (.dropManifest job.id) }
  | .prepare req =>
    match db.prepareIndexBatch sha256 tenant req with
    | .error _ => {}
    | .ok batch => { next := some (.beat req.rootID batch) }
  | .beat rootID batch =>
    { transaction := some (.uploadHeartbeat tenant batch.job.id)
      -- both size limits are checked between the statement and the LCE call
      next := match (do
          let _ ← db.uploadHeartbeat (clock - answer.waited) tenant batch.job.id
          let _ ← validateIndexBatchSize batch.staged
          validateMCPToolCallBody "codebase_remote_index"
            (stageArgs tenant batch.job.id rootID batch.staged batch.deleted)) with
        | .error _ => none
        | .ok _ => some (.stage rootID batch) }
  | .stage _ batch =>
    { request := answer.sends (.stage batch.job.id batch.staged batch.deleted)
      next := if answer.replied then some (.commit batch) else none }
  | .commit batch =>
    -- without a count in the reply, the estimates of the staged files stand for it
    let chunks := if answer.exactCount then answer.count
      else answer.count + (batch.staged.map (·.estimatedChunks)).sum
    { transaction := some (.commitBatch tenant batch.job.id (batch.staged.map (·.path)) chunks
        (!answer.exactCount) (batch.deleted ≠ [])) }
  -- a job that is completed already is answered as it is
  | .check jobID knownRevision =>
    match db.checkCompletable tenant jobID with
    | .error _ | .ok (.completed _) => {}
    | .ok (.ready rootID cloudRevision) =>
      { next := some (.intend jobID rootID knownRevision cloudRevision) }
  | .intend jobID rootID knownRevision cloudRevision =>
    { transaction := some (.intent tenant jobID)
      next := match db.publishIntent (clock - answer.waited) tenant jobID with
        | .error _ => none
        | .ok _ => afterIntent jobID rootID knownRevision cloudRevision }
  | .publish jobID rootID =>
    { request := answer.sends (.publish jobID)
      next := afterPublish jobID rootID (answer.reads sha256 cloud (.publish jobID) jobID) }
  | .accepted jobID => { transaction := some (.accepted tenant jobID) }
  | .rejected jobID failure => { transaction := some (.failPublication tenant jobID failure) }
  -- an error of this statement is logged and does not stop the completion
  | .record jobID rootID cloudRevision =>
    { transaction := if answer.failed then none
        else some (.recordRevision tenant jobID cloudRevision)
      next := some (.finish jobID rootID cloudRevision) }
  | .finish jobID rootID cloudRevision =>
    { transaction := some (.complete tenant jobID rootID cloudRevision) }
  | .revalidate jobID overdue =>
    { next := if db.publicationActive tenant jobID then some (.status jobID overdue) else none }
  | .status jobID overdue =>
    { request := answer.sends (.status jobID)
      next := afterStatus jobID overdue (answer.reads sha256 cloud (.status jobID) jobID) }
  | .cancel jobID =>
    { request := answer.sends (.abort jobID)
      next := afterCancel jobID (answer.reads sha256 cloud (.abort jobID) jobID) }
  -- the phase is read here and not looked at again by the transaction
  | .load jobID report =>
    { next := match db.checkFailable tenant jobID with
        | .ok .proceed => some (.markFailed jobID report)
        | .ok (.returned _) | .error _ => none }
  | .markFailed jobID report =>
    { transaction := some (.fail tenant jobID report)
      next := match (do
          let diagnostic ← resolveReportedIndexFailureDiagnostic .failed report.error
            report.errorCode report.errorOrigin report.recovery
          db.failIndexJob (clock - answer.waited) tenant jobID (reportedFailure report.error)
            diagnostic) with
        | .error _ => none
        | .ok _ => some (.abortFailed jobID) }
  | .abortFailed jobID => { request := answer.sends (.abort jobID) }
  -- the relay first: a snapshot over an empty LCE would keep files from being sent again
  | .clearRelay => { transaction := some (.clearUser tenant), next := some .clearCloud }
  | .clearCloud => { request := answer.sends (.clearTenant tenant) }
  | .findRunning rootID =>
    { next := if db.hasRunningJobForRoot tenant rootID then none else some (.findPublished rootID) }
  -- a root with a snapshot keeps its content, and only its failed jobs go
  | .findPublished rootID =>
    { next := if db.rootHasPublishedIndex tenant rootID then some (.dismissRelay rootID true)
        else some (.dismissCloud rootID) }
  | .dismissCloud rootID =>
    { request := answer.sends (.clearRoot tenant (lceIndexRootID rootID))
      next := if answer.replied then some (.dismissRelay rootID false) else none }
  | .dismissRelay rootID hasPublishedIndex =>
    { transaction := some (.dismiss tenant rootID hasPublishedIndex) }
  -- LCE first: while it refuses, the root stays listed and can be deleted again
  | .deleteFindRunning rootID =>
    { next := if db.hasRunningJobForRoot tenant rootID ∨ 0 < answer.wait then none
        else some (.deleteCloud rootID) }
  | .deleteCloud rootID =>
    { request := answer.sends (.clearRoot tenant (lceIndexRootID rootID))
      next := if answer.replied then some (.deleteRelay rootID) else none }
  | .deleteRelay rootID => { transaction := some (.clearRoot tenant rootID) }
  | .attemptCurrent job =>
    { next := if db.rootDeletionAttemptCurrent clock job then some (.deletionCloud job) else none }
  -- a reply without a fitting receipt is an error of the attempt, and the worker tries again
  | .deletionCloud job =>
    { request := answer.sends (.clearRoot tenant (lceIndexRootID job.rootID))
      next := some (match answer.receipt, answer.replied, rootDeletionReceipt answer.receipt job with
        | some receipt, true, .ok count => .deletionRelay job receipt count
        | _, _, _ => .deletionError job) }
  | .deletionRelay job _ cloudCount =>
    { transaction := some (.finishDeletion job cloudCount)
      next := match db.finishRootDeletion (clock - answer.waited) job cloudCount with
        | .error _ => some (.deletionError job)
        | .ok _ => none }
  | .deletionError job => { transaction := some (.recordDeletionError job false) }

end

end AcemcpRelay
