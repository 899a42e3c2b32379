import AcemcpRelay.Jobs.Close
import AcemcpRelay.PlatformConfig
import AcemcpRelay.RootDeletion
import AcemcpRelay.Store.Transition

/-!
# Committed transactions

Every transaction that the index code commits, with the arguments its caller
chose, and its effect on the database. A transaction that fails is rolled back
and changes nothing. A run of the relay processes is a list of transactions in the
order of their commits, each of them carried out as a whole.

That is an idealisation. The longer transactions of one tenant exclude each other
by the tenant's advisory lock, but statements that do not take it, such as the
renewal of a lease, may commit between two reads of such a transaction or between
the test and the insertion of an admission; here they come before or after it.

A run at this level puts no restriction on who sends which transaction when: the
arguments of an `upload` may stem from a read that is long out of date. Results
that need the order of the steps inside one call are proved over
`AcemcpRelay.System`.
-/
namespace AcemcpRelay

open Store

/-- A failure reported by the `fail` operation. -/
structure FailureReport where
  error : String
  errorCode : String
  errorOrigin : String
  recovery : String
  deriving DecidableEq, Repr

inductive Transaction where
  -- index_operations.go
  | acquire (userID resource kind token : String) (mode : OperationMode)
  | renew (userID token : String)
  | release (userID token : String)
  -- createIndexJob
  | inspect (userID workspaceID : String)
  | create (userID : String) (req : StartRequest) (wait : Nat) (jobID : String)
  | failBegin (userID jobID detail : String)
  | dropManifest (jobID : String)
  -- uploadIndexBatch and the heartbeat operation
  | uploadHeartbeat (userID jobID : String)
  | commitBatch (userID jobID : String) (paths : List String) (chunks : Int)
      (fallback sentDeletions : Bool)
  | heartbeat (userID jobID : String)
  -- completeIndexJob and reconcileIndexPublication
  | intent (userID jobID : String)
  | accepted (userID jobID : String)
  | recordRevision (userID jobID : String) (cloudRevision : Int)
  | complete (userID jobID rootID : String) (cloudRevision : Int)
  | failPublication (userID jobID failure : String)
  | touch (userID jobID : String)
  -- failIndexJob and sweepExpiredIndexJobs
  | fail (userID jobID : String) (report : FailureReport)
  | sweep (locked : List String)
  -- clear-index, delete-root, rebinding, dismiss-root-failure
  | clearUser (userID : String)
  | clearRoot (userID rootID : String)
  | dismiss (userID rootID : String) (hasPublishedIndex : Bool)
  -- root_deletion_jobs.go
  | submitDeletion (tenantID actorID rootID retryJobID id : String) (wait : Nat)
  | claimDeletion (attempt : String) (locked : List String)
  | recordDeletionError (job : RootDeletionJob) (deferOnly : Bool)
  | finishDeletion (job : RootDeletionJob) (cloudCount : Int)
  | pruneDeletions (pruned : List String)
  -- platform_config_jobs.go
  | enqueueConfig (id sectionName : String) (embeddingChanged : Bool)
  | recoverConfig (id : String)
  | claimConfig (attempt : String) (locked : List String)
  | finishConfig (job : PlatformConfigJob) (receipt : ConfigReceipt)
  | deferConfig (job : PlatformConfigJob)

namespace Database

/-- The database after a transaction that may have been rolled back. -/
def settle {ε : Type} (db : Database) : Except ε Database → Database
  | .ok after => after
  | .error _ => db

/-- The effect of a transaction that started at `now` and commits at `clock`. -/
def exec (now clock : Nat) (db : Database) : Transaction → Database
  | .acquire userID resource kind token mode =>
    ((db.tryAcquireIndexOperation now userID resource kind token mode).map (·.2)).getD db
  | .renew userID token => db.renewIndexOperation now userID token
  | .release userID token => db.releaseIndexOperation userID token
  | .inspect userID workspaceID => (db.inspectActiveIndexJob now clock userID workspaceID).2
  -- the caller has normalized the request already, and does so with the same result
  | .create userID req wait jobID => db.settle do
    let normalized ← normalizeStartRequest req
    (·.2) <$> db.createIndexJob now userID normalized wait jobID
  | .failBegin userID jobID detail => db.failIndexBegin now userID jobID detail
  | .dropManifest jobID => db.deleteManifest jobID
  | .uploadHeartbeat userID jobID => db.settle (db.uploadHeartbeat now userID jobID)
  | .commitBatch userID jobID paths chunks fallback sentDeletions =>
    db.settle (db.commitIndexBatch now userID jobID paths chunks fallback sentDeletions)
  | .heartbeat userID jobID => db.heartbeat now userID jobID
  | .intent userID jobID => db.settle (db.publishIntent now userID jobID)
  | .accepted userID jobID => db.publicationAccepted now userID jobID
  | .recordRevision userID jobID cloudRevision =>
    db.recordCloudRevision now userID jobID cloudRevision
  | .complete userID jobID rootID cloudRevision =>
    db.settle (db.completeIndexJob now userID jobID rootID cloudRevision)
  | .failPublication userID jobID failure =>
    -- a job that is not running any more is answered and left as it is
    (db.finishFailedPublication now userID jobID failure).getD db
  | .touch userID jobID => db.touchPublication now userID jobID
  | .fail userID jobID report => db.settle do
    let diagnostic ← resolveReportedIndexFailureDiagnostic .failed report.error report.errorCode
      report.errorOrigin report.recovery
    (·.2) <$> db.failIndexJob now userID jobID (reportedFailure report.error) diagnostic
  | .sweep locked => (db.sweepExpiredIndexJobs now clock locked).2
  | .clearUser userID => db.clearUserIndexState userID
  | .clearRoot userID rootID => (db.clearRootIndexState userID rootID).2
  | .dismiss userID rootID hasPublishedIndex =>
    db.dismissRootFailureState userID rootID hasPublishedIndex
  | .submitDeletion tenantID actorID rootID retryJobID id wait =>
    db.settle ((·.2) <$> db.submitRootDeletion now tenantID actorID rootID retryJobID id wait)
  | .claimDeletion attempt locked => (db.claimRootDeletion now attempt locked).2
  | .recordDeletionError job deferOnly => db.recordRootDeletionError now job deferOnly
  | .finishDeletion job cloudCount => db.settle (db.finishRootDeletion now job cloudCount)
  | .pruneDeletions pruned => db.pruneRootDeletionHistory now pruned
  | .enqueueConfig id sectionName embeddingChanged =>
    db.settle ((·.2) <$> db.enqueuePlatformConfigJob now id sectionName embeddingChanged)
  | .recoverConfig id => db.recoverPlatformConfigJob now id
  | .claimConfig attempt locked => (db.claimPlatformConfigJob now attempt locked).2
  | .finishConfig job receipt => db.settle (db.finishPlatformConfigJob now job receipt)
  | .deferConfig job =>
    db.deferPlatformConfigJob now (rootDeletionRetryDelay job.attemptCount) job

end Database

/-! ### Runs -/

structure World where
  clock : Nat
  db : Database
  /-- The job identifiers handed out so far; `uuid.New` does not repeat one. -/
  issued : List String := []

/-- All tables are empty. -/
def World.initial : World := { clock := 0, db := Database.empty }

inductive Event where
  | tick (elapsed : Nat)
  /-- A transaction that started `waited` before it commits. -/
  | commit (waited : Nat) (transaction : Transaction)

namespace World

/-- The transaction is one that can happen: a new job has a new identifier. -/
def admissible (world : World) : Transaction → Bool
  | .create _ _ _ jobID => !world.issued.contains jobID
  | _ => true

def issue (world : World) : Transaction → List String
  | .create _ _ _ jobID => jobID :: world.issued
  | _ => world.issued

def step (world : World) : Event → World
  | .tick elapsed => { world with clock := world.clock + elapsed }
  | .commit waited transaction =>
    if world.admissible transaction then
      { world with
        db := world.db.exec (world.clock - waited) world.clock transaction
        issued := world.issue transaction }
    else world

/-- What every transaction preserves, every step of a run preserves. -/
theorem step_of_exec {P : Database → Prop}
    (preserved : ∀ db now clock transaction, P db → P (db.exec now clock transaction))
    (world : World) (event : Event) (before : P world.db) : P (world.step event).db := by
  cases event with
  | tick => exact before
  | commit waited transaction =>
    simp only [step]
    split
    · exact preserved _ _ _ _ before
    · exact before

end World

end AcemcpRelay
