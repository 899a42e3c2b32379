import AcemcpRelay.Schema
import AcemcpRelay.Text

/-!
# Removing index state

The statements that delete a tenant's rows: all of them (`clear-index`), those of
one root (`delete-root`, durable root deletion, a workspace moving to another
root), the failed jobs of one root (`dismiss-root-failure`), or everybody's (a
platform reset). From `index_jobs.go`, `root_admin.go` and
`platform_model_config.go`.
-/
namespace AcemcpRelay

open Store

def normalizeIndexRootID (value : String) : String := trimSpace value

def defaultLCEIndexRootID : String := "default"

/-- The root identifier sent to LCE: an empty (legacy) root is the default one. -/
def lceIndexRootID (value : String) : String :=
  if normalizeIndexRootID value = "" then defaultLCEIndexRootID else normalizeIndexRootID value

/-- `CASE WHEN BTRIM(root_id) = '' THEN 'default' ELSE BTRIM(root_id) END`. -/
def storedRoot (rootID : String) : String :=
  if btrim rootID = "" then defaultLCEIndexRootID else btrim rootID

namespace IndexJob

/-- The job is one of the tenant's for the root, as the clearing statements match it. -/
def onRoot (job : IndexJob) (userID root : String) : Bool :=
  job.userID == userID && storedRoot job.rootID == root

end IndexJob

namespace IndexWorkspace

def onRoot (workspace : IndexWorkspace) (userID root : String) : Bool :=
  workspace.userID == userID && storedRoot workspace.rootID == root

end IndexWorkspace

namespace Database

/-- `clearUserIndexStateTx`. -/
def clearUserIndexState (userID : String) (db : Database) : Database :=
  { db.deleteJobs (·.userID == userID) with
    indexedFiles := db.indexedFiles.delete (·.userID == userID)
    indexWorkspaces := db.indexWorkspaces.delete (·.userID == userID) }

/-- The snapshot rows whose workspace is bound to the root. -/
def boundToRoot (db : Database) (userID root : String) (file : IndexedFile) : Bool :=
  file.userID == userID && db.indexWorkspaces.holds fun workspace =>
    file.workspaceID == workspace.workspaceID && workspace.onRoot userID root

/-- `clearRootIndexStateTx`; the first component is its `deleted_files`. -/
def clearRootIndexState (userID rootID : String) (db : Database) : Nat × Database :=
  let root := lceIndexRootID rootID
  (db.indexedFiles.count (db.boundToRoot userID root),
    { db.deleteJobs (·.onRoot userID root) with
      indexedFiles := db.indexedFiles.delete (db.boundToRoot userID root)
      indexWorkspaces := db.indexWorkspaces.delete (·.onRoot userID root) })

/-- `clearAllRelayIndexStateTx`. -/
def clearAllRelayIndexState (db : Database) : Database :=
  { db.deleteJobs (fun _ => true) with
    indexedFiles := db.indexedFiles.delete fun _ => true
    indexWorkspaces := db.indexWorkspaces.delete fun _ => true
    leases := db.leases.delete fun _ => true }

/-- `hasRunningJobForRoot`. -/
def hasRunningJobForRoot (userID rootID : String) (db : Database) : Bool :=
  db.indexJobs.holds fun job =>
    job.status == .running && job.onRoot userID (lceIndexRootID rootID)

/-- `rootHasPublishedIndex`. -/
def rootHasPublishedIndex (userID rootID : String) (db : Database) : Bool :=
  db.indexedFiles.holds fun file => db.indexWorkspaces.holds fun workspace =>
    file.userID == workspace.userID && file.workspaceID == workspace.workspaceID &&
      workspace.onRoot userID (lceIndexRootID rootID)

/-- `dismissRootFailureState`. The flag was read in an earlier statement. -/
def dismissRootFailureState (userID rootID : String) (hasPublishedIndex : Bool) (db : Database) :
    Database :=
  let root := lceIndexRootID rootID
  let dismissed := db.deleteJobs fun job =>
    job.onRoot userID root && (job.status == .failed || job.status == .timedOut)
  if hasPublishedIndex then dismissed
  else { dismissed with indexWorkspaces := db.indexWorkspaces.delete (·.onRoot userID root) }

end Database

end AcemcpRelay
