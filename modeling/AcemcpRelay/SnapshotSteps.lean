import AcemcpRelay.JobSteps

/-!
# Steps of the snapshots

What a transaction can do to `indexed_files` and `index_workspaces`. Rows appear in
one place only, the final transaction of a completion; a start that finds nothing
to do rewrites the description of its workspace; everything else deletes rows or
leaves the two tables alone.
-/
namespace AcemcpRelay

open Store

/-- What a transaction does to the snapshots. -/
inductive SnapshotChange (now : Nat) (db after : Database) : Transaction → Prop where
  | same (transaction : Transaction) (files : after.indexedFiles = db.indexedFiles)
      (workspaces : after.indexWorkspaces = db.indexWorkspaces) :
      SnapshotChange now db after transaction
  /-- A start that answers unchanged. -/
  | described (userID : String) (req : StartRequest) (wait : Nat) (jobID : String)
      (normalized : StartRequest) (accepted : normalizeStartRequest req = .ok normalized)
      (files : after.indexedFiles = db.indexedFiles)
      (workspaces : after.indexWorkspaces = db.indexWorkspaces.update
        (fun row => row.userID == userID && row.workspaceID == normalized.workspaceID)
        (fun row => { row with
          workspaceName := normalized.workspaceName, rootID := normalized.rootID
          branch := normalized.branch, revision := normalized.revision })) :
      SnapshotChange now db after (.create userID req wait jobID)
  | published (userID jobID rootID : String) (cloudRevision : Int) (job : IndexJob)
      (found : db.loadIndexJob userID jobID = some job) (ready : job.completable = .ok ())
      (files : (db.indexedFiles.delete fun file =>
          file.userID == userID && file.workspaceID == job.workspaceID).insert
            (db.snapshotRows job) = some after.indexedFiles)
      (workspaces : (db.indexWorkspaces.delete
          (·.key == (Database.workspaceRow now job rootID cloudRevision).key)).insert
            [Database.workspaceRow now job rootID cloudRevision] = some after.indexWorkspaces) :
      SnapshotChange now db after (.complete userID jobID rootID cloudRevision)
  | clearedUser (userID : String)
      (files : after.indexedFiles = db.indexedFiles.delete (·.userID == userID))
      (workspaces : after.indexWorkspaces = db.indexWorkspaces.delete (·.userID == userID)) :
      SnapshotChange now db after (.clearUser userID)
  | clearedRoot (transaction : Transaction) (userID rootID : String)
      (by_root : transaction = .clearRoot userID rootID ∨
        ∃ job cloudCount, transaction = .finishDeletion job cloudCount ∧ job.userID = userID ∧
          job.rootID = rootID)
      (files : after.indexedFiles =
        db.indexedFiles.delete (db.boundToRoot userID (lceIndexRootID rootID)))
      (workspaces : after.indexWorkspaces =
        db.indexWorkspaces.delete (·.onRoot userID (lceIndexRootID rootID))) :
      SnapshotChange now db after transaction
  | clearedAll (job : PlatformConfigJob) (receipt : ConfigReceipt)
      (files : after.indexedFiles = db.indexedFiles.delete fun _ => true)
      (workspaces : after.indexWorkspaces = db.indexWorkspaces.delete fun _ => true) :
      SnapshotChange now db after (.finishConfig job receipt)
  | dismissed (userID rootID : String) (files : after.indexedFiles = db.indexedFiles)
      (workspaces : after.indexWorkspaces =
        db.indexWorkspaces.delete (·.onRoot userID (lceIndexRootID rootID))) :
      SnapshotChange now db after (.dismiss userID rootID false)

namespace Database

theorem exec_snapshots (db : Database) (now clock : Nat) (transaction : Transaction) :
    SnapshotChange now db (db.exec now clock transaction) transaction := by
  by_cases fences : transaction.onFences = true
  · have same := exec_sameIndex db now clock fences
    exact .same _ same.files same.workspaces
  have settled {ε : Type} {result : Except ε Database} (rolledBack : SnapshotChange now db db transaction)
      (committed : ∀ after, result = .ok after → SnapshotChange now db after transaction) :
      SnapshotChange now db (db.settle result) transaction :=
    settle_cases (P := fun after => SnapshotChange now db after transaction) rolledBack committed
  have unchanged : SnapshotChange now db db transaction := .same _ rfl rfl
  cases transaction with
  | create userID req wait jobID =>
    rcases exec_create_cases db now clock userID req wait jobID with
      same | ⟨normalized, outcome, accepted, created⟩
    · rw [same]
      exact unchanged
    obtain ⟨files, diff, -, -, ⟨-, -, -, -, same⟩ | ⟨-, same⟩ | ⟨job, -, -, -, inserted⟩⟩ :=
      createIndexJob_cases created
    · rw [same]
      exact .described userID req wait jobID normalized accepted rfl rfl
    · rw [same]
      exact unchanged
    · obtain ⟨jobs, rows, -, -, same⟩ := insertIndexJob_eq_ok inserted
      rw [same]
      exact .same _ rfl rfl
  | inspect userID workspaceID =>
    simp only [exec]
    rcases inspectActiveIndexJob_cases now clock userID workspaceID db with
      ⟨job, same⟩ | ⟨expired, same⟩ <;> rw [same] <;> exact .same _ rfl rfl
  | commitBatch userID jobID paths chunks fallback sentDeletions =>
    refine settled unchanged fun after committed => ?_
    obtain ⟨job, marked, -, -, all, rfl⟩ := commitIndexBatch_eq_ok committed
    obtain ⟨-, -, files, workspaces⟩ := markAllIndexed_frame all
    exact .same _ files workspaces
  | uploadHeartbeat userID jobID =>
    refine settled unchanged fun after committed => ?_
    rw [uploadHeartbeat_eq_ok committed]
    exact .same _ rfl rfl
  | intent userID jobID =>
    refine settled unchanged fun after committed => ?_
    rw [publishIntent_eq_ok committed]
    exact .same _ rfl rfl
  | complete userID jobID rootID cloudRevision =>
    refine settled unchanged fun after committed => ?_
    obtain ⟨job, files, workspaces, found, ready, copied, written, rfl⟩ :=
      completeIndexJob_eq_ok committed
    exact .published userID jobID rootID cloudRevision job found ready copied written
  | failPublication userID jobID failure =>
    simp only [exec, finishFailedPublication]
    cases marked : db.markIndexJobFailed now userID jobID failure
        (classifyIndexFailure .failed failure) with
    | none => exact unchanged
    | some after =>
      rw [Option.getD_some, markIndexJobFailed_eq_some marked]
      exact .same _ rfl rfl
  | fail userID jobID report =>
    rcases exec_fail_cases db now clock userID jobID report with same | ⟨_, _, failed⟩
    · rw [same]
      exact unchanged
    · rw [markIndexJobFailed_eq_some failed]
      exact .same _ rfl rfl
  | clearUser userID => exact .clearedUser userID rfl rfl
  | clearRoot userID rootID => exact .clearedRoot _ userID rootID (.inl rfl) rfl rfl
  | finishDeletion job cloudCount =>
    refine settled unchanged fun after committed => ?_
    rw [(finishRootDeletion_eq_ok committed).2.1]
    exact .clearedRoot _ job.userID job.rootID (.inr ⟨job, cloudCount, rfl, rfl, rfl⟩) rfl rfl
  | finishConfig job receipt =>
    refine settled unchanged fun after committed => ?_
    rcases (finishPlatformConfigJob_eq_ok committed).2.2 with same | same
    · rw [same]
      exact .same _ rfl rfl
    · rw [same]
      exact .clearedAll job receipt rfl rfl
  | dismiss userID rootID hasPublishedIndex =>
    cases hasPublishedIndex with
    | true => exact .same _ rfl rfl
    | false => exact .dismissed userID rootID rfl rfl
  | failBegin | dropManifest | heartbeat | accepted | recordRevision | touch | sweep =>
    exact .same _ rfl rfl
  | _ => exact absurd rfl fences

end Database

end AcemcpRelay
