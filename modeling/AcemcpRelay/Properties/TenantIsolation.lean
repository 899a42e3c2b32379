import AcemcpRelay.Jobs.Status
import AcemcpRelay.ManifestSteps
import AcemcpRelay.Properties.RootDeletionFence

/-!
# Tenants

Rows carry their tenant, except those of `index_job_files`, which carry a job. Many
statements name a row by a job identifier alone and rely on a check earlier in the same
transaction, and one, the clean-up of a start whose `begin` failed, on the fact that
the start made the job itself.

## Proof strategy

`SameFor` says that the rows of one tenant are as before, `Transaction.tenant` for whom a
transaction runs. A transaction hits rows of its own tenant only, statement by statement.
The clean-up needs an invariant of the calls in flight: the identifier that a start was
given does not come to belong to anybody else.
-/
namespace AcemcpRelay

open Store Database

/-- The rows of a tenant are as before. -/
structure SameFor (tenant : String) (db after : Database) : Prop where
  jobs : after.indexJobs.select (·.userID == tenant) = db.indexJobs.select (·.userID == tenant)
  files : after.indexedFiles.select (·.userID == tenant) =
    db.indexedFiles.select (·.userID == tenant)
  workspaces : after.indexWorkspaces.select (·.userID == tenant) =
    db.indexWorkspaces.select (·.userID == tenant)
  leases : after.leases.select (·.userID == tenant) = db.leases.select (·.userID == tenant)
  deletions : after.rootDeletionJobs.select (·.userID == tenant) =
    db.rootDeletionJobs.select (·.userID == tenant)
  manifests : ∀ job ∈ db.indexJobs, job.userID = tenant → after.manifest job.id = db.manifest job.id

namespace Transaction

/-- The tenant for whom a transaction runs. The sweep, the claims and the configuration
jobs run for all, and a clean-up does not say. -/
def tenant : Transaction → Option String
  | .acquire userID _ _ _ _ | .renew userID _ | .release userID _
  | .inspect userID _ | .create userID _ _ _ | .failBegin userID _ _
  | .uploadHeartbeat userID _ | .commitBatch userID _ _ _ _ _ | .heartbeat userID _
  | .intent userID _ | .accepted userID _ | .recordRevision userID _ _ | .complete userID _ _ _
  | .failPublication userID _ _ | .touch userID _ | .fail userID _ _
  | .clearUser userID | .clearRoot userID _ | .dismiss userID _ _
  | .submitDeletion userID _ _ _ _ _ => some userID
  | .recordDeletionError job _ | .finishDeletion job _ => some job.userID
  | .dropManifest _ | .sweep _ | .claimDeletion _ _ | .pruneDeletions _
  | .enqueueConfig _ _ _ | .recoverConfig _ | .claimConfig _ _ | .finishConfig _ _
  | .deferConfig _ => none

end Transaction

namespace SameFor

variable {tenant owner : String} {db : Database}

theorem refl (tenant : String) (db : Database) : SameFor tenant db db :=
  ⟨rfl, rfl, rfl, rfl, rfl, fun _ _ _ => rfl⟩

theorem trans {a b c : Database} (first : SameFor tenant a b) (second : SameFor tenant b c) :
    SameFor tenant a c where
  jobs := second.jobs.trans first.jobs
  files := second.files.trans first.files
  workspaces := second.workspaces.trans first.workspaces
  leases := second.leases.trans first.leases
  deletions := second.deletions.trans first.deletions
  manifests := by
    intro job stored own
    have listed : job ∈ b.indexJobs.select (·.userID == tenant) := by
      rw [first.jobs]
      exact Table.mem_select.mpr ⟨stored, by simpa using own⟩
    exact (second.manifests job (Table.mem_select.mp listed).1 own).trans
      (first.manifests job stored own)

/-- An update of jobs of another tenant. -/
theorem updateJobs (other : tenant ≠ owner) {p : IndexJob → Bool} {f : IndexJob → IndexJob}
    (keeps : ∀ job, (f job).id = job.id)
    (hits : ∀ job ∈ db.indexJobs, p job = true → job.userID = owner)
    (owners : ∀ job, (f job).userID = job.userID) :
    SameFor tenant db (db.updateJobs p f keeps) := by
  refine ⟨Table.select_update ?_ keeps, rfl, rfl, rfl, rfl, fun _ _ _ => rfl⟩
  intro job stored hit
  have apart : job.userID ≠ tenant := by
    rw [hits job stored hit]
    exact other.symm
  simp [owners, apart]

theorem deleteManifest {jobID : String}
    (apart : ∀ job ∈ db.indexJobs, job.id = jobID → job.userID ≠ tenant) :
    SameFor tenant db (db.deleteManifest jobID) := by
  refine ⟨rfl, rfl, rfl, rfl, rfl, fun job stored own => ?_⟩
  exact manifest_deleteManifest fun same => apart job stored same own

theorem deleteJobs (other : tenant ≠ owner) {p : IndexJob → Bool}
    (hits : ∀ job ∈ db.indexJobs, p job = true → job.userID = owner) :
    SameFor tenant db (db.deleteJobs p) := by
  have spared {job : IndexJob} (stored : job ∈ db.indexJobs) (own : job.userID = tenant) :
      p job = false := by
    by_contra hit
    exact other (own.symm.trans (hits job stored (by simpa using hit)))
  refine ⟨Table.select_delete fun job stored own => spared stored (by simpa using own), rfl, rfl,
    rfl, rfl, fun job stored own => ?_⟩
  exact manifest_deleteJobs (Table.mem_delete.mpr ⟨stored, spared stored own⟩)

/-- Snapshot rows and workspaces of another tenant are replaced. -/
theorem withSnapshots {files : Table IndexedFile.key} {workspaces : Table IndexWorkspace.key}
    (sameFiles : files.select (·.userID == tenant) = db.indexedFiles.select (·.userID == tenant))
    (sameWorkspaces : workspaces.select (·.userID == tenant) =
      db.indexWorkspaces.select (·.userID == tenant)) :
    SameFor tenant db { db with indexedFiles := files, indexWorkspaces := workspaces } :=
  ⟨rfl, sameFiles, sameWorkspaces, rfl, rfl, fun _ _ _ => rfl⟩

theorem withDeletions {rows : Table RootDeletionJob.id}
    (same : rows.select (·.userID == tenant) = db.rootDeletionJobs.select (·.userID == tenant)) :
    SameFor tenant db { db with rootDeletionJobs := rows } :=
  ⟨rfl, rfl, rfl, rfl, same, fun _ _ _ => rfl⟩

theorem withLeases {leases : Table OperationLease.token}
    (same : leases.select (·.userID == tenant) = db.leases.select (·.userID == tenant)) :
    SameFor tenant db { db with leases } :=
  ⟨rfl, rfl, rfl, same, rfl, fun _ _ _ => rfl⟩

/-! ### Transactions, one by one -/

variable {now clock : Nat} {after : Database} {jobID rootID : String}

/-- The updates of one running job. -/
theorem updateRunning (other : tenant ≠ owner) {p : IndexJob → Bool} {f : IndexJob → IndexJob}
    (keeps : ∀ job, (f job).id = job.id) (running : ∀ job, p job = true → job.runningAs owner jobID)
    (owners : ∀ job, (f job).userID = job.userID) :
    SameFor tenant db (db.updateJobs p f keeps) :=
  updateJobs other keeps
    (fun job _ hit => (IndexJob.runningAs_iff.mp (running job hit)).2.1) owners

theorem acquire (other : tenant ≠ owner) (resource kind token : String) (mode : OperationMode) :
    SameFor tenant db (db.exec now clock (.acquire owner resource kind token mode)) := by
  have dropped : (db.dropExpiredLeases now owner).select (·.userID == tenant) =
      db.leases.select (·.userID == tenant) := by
    refine Table.select_delete fun lease _ own => ?_
    have mine : lease.userID = tenant := by simpa using own
    simp [mine, other]
  simp only [exec, tryAcquireIndexOperation]
  split
  · cases inserted : (db.dropExpiredLeases now owner).insert
        [wantedLease now owner resource kind token mode] with
    | none =>
      simp only [wantedLease] at inserted
      rw [inserted]
      exact refl tenant db
    | some leases =>
      have added : leases.select (·.userID == tenant) = db.leases.select (·.userID == tenant) := by
        rw [Table.select_insert inserted (by simpa [wantedLease] using other.symm), dropped]
      simp only [wantedLease] at inserted
      rw [inserted]
      exact withLeases added
  · exact withLeases dropped

theorem renew (other : tenant ≠ owner) (token : String) :
    SameFor tenant db (db.renewIndexOperation now owner token) := by
  refine withLeases (Table.select_update fun lease _ hit => ?_)
  simp only [Bool.and_eq_true, beq_iff_eq] at hit
  simp [OperationLease.renew, hit.1, other.symm]

theorem release (other : tenant ≠ owner) (token : String) :
    SameFor tenant db (db.releaseIndexOperation owner token) := by
  refine withLeases (Table.select_delete fun lease _ own => ?_)
  have mine : lease.userID = tenant := by simpa using own
  simp [mine, other]

theorem inspect (other : tenant ≠ owner) (workspaceID : String) :
    SameFor tenant db (db.inspectActiveIndexJob now clock owner workspaceID).2 := by
  rcases inspectActiveIndexJob_cases now clock owner workspaceID db with
    ⟨job, same⟩ | ⟨-, same⟩ <;> rw [same]
  · exact refl tenant db
  -- the expired jobs are the owner's, and a job is found by its identifier
  have mine {job : IndexJob} (stored : job ∈ db.indexJobs)
      (hit : (db.runningJobs owner workspaceID).any (·.id == job.id) = true) :
      job.userID = owner :=
    (mem_runningJobs.mp (mem_of_any_id (fun job listed => (mem_runningJobs.mp listed).1) stored
      hit)).2.1
  refine ⟨Table.select_update fun job stored hit => ?_, rfl, rfl, rfl, rfl, fun job stored own => ?_⟩
  · have apart : job.userID ≠ tenant := mine stored hit ▸ other.symm
    simpa [IndexJob.reclaim, IndexJob.closed] using apart
  · refine Table.select_delete fun file _ listed => ?_
    have named : file.jobID = job.id := by simpa using listed
    by_contra hit
    rw [Bool.not_eq_false, named] at hit
    exact other (own.symm.trans (mine stored hit))

theorem create (other : tenant ≠ owner) (req : StartRequest) (wait : Nat) (jobID : String) :
    SameFor tenant db (db.exec now clock (.create owner req wait jobID)) := by
  rcases exec_create_cases db now clock owner req wait jobID with
    same | ⟨normalized, outcome, -, created⟩
  · rw [same]
    exact refl tenant db
  obtain ⟨files, diff, -, -, ⟨-, -, -, -, same⟩ | ⟨-, same⟩ | ⟨job, new, -, -, inserted⟩⟩ :=
    createIndexJob_cases created
  · rw [same]
    refine withSnapshots rfl (Table.select_update fun row _ hit => ?_)
    simp only [Bool.and_eq_true, beq_iff_eq] at hit
    simp [hit.1, other.symm]
  · rw [same]
    exact refl tenant db
  · obtain ⟨jobs, rows, added, copied, same⟩ := insertIndexJob_eq_ok inserted
    have mine : job.userID = owner := by rw [new]; rfl
    rw [same]
    refine ⟨Table.select_insert added (by simpa [mine] using other.symm), rfl, rfl, rfl, rfl,
      fun old stored _ => Table.select_insert copied fun file listed => ?_⟩
    -- the new job has an identifier of its own
    obtain ⟨source, -, rfl⟩ := List.mem_map.mp listed
    have fresh : old.id ≠ job.id := Table.key_fresh added stored List.mem_cons_self
    simpa [manifestRow] using fresh.symm

theorem commitBatch (other : tenant ≠ owner) {paths : List String} {chunks : Int}
    {fallback sentDeletions : Bool}
    (committed : db.commitIndexBatch now owner jobID paths chunks fallback sentDeletions =
      .ok after) : SameFor tenant db after := by
  obtain ⟨job, marked, found, -, all, rfl⟩ := commitIndexBatch_eq_ok committed
  obtain ⟨stored, rfl, mine⟩ := loadIndexJob_eq_some.mp found
  obtain ⟨fences, jobs, files, workspaces⟩ := markAllIndexed_frame all
  have sameMarked : SameFor tenant db marked := by
    refine ⟨by rw [jobs], by rw [files], by rw [workspaces], by rw [fences.leases],
      by rw [fences.deletions], fun row member own => manifest_markAllIndexed (fun same => ?_) all⟩
    rw [Table.eq_of_key_eq member stored same, mine] at own
    exact other own.symm
  refine sameMarked.trans ?_
  refine updateJobs other _ (fun row member hit => ?_) fun _ => rfl
  rw [jobs] at member
  rw [Table.eq_of_key_eq member stored (by simpa using hit)]
  exact mine

theorem complete (other : tenant ≠ owner) {cloudRevision : Int}
    (committed : db.completeIndexJob now owner jobID rootID cloudRevision = .ok after) :
    SameFor tenant db after := by
  obtain ⟨job, files, workspaces, found, -, copied, written, rfl⟩ := completeIndexJob_eq_ok committed
  obtain ⟨stored, rfl, mine⟩ := loadIndexJob_eq_some.mp found
  have apart {row : IndexJob} (member : row ∈ db.indexJobs) (same : row.id = job.id) :
      row.userID ≠ tenant := by
    rw [Table.eq_of_key_eq member stored same, mine]
    exact other.symm
  refine ⟨Table.select_update fun row member hit => ?_, ?_, ?_, rfl, rfl, fun row member own => ?_⟩
  · have away := apart member (by simpa using hit)
    simpa [IndexJob.complete] using away
  · rw [Table.select_insert copied, Table.select_delete]
    · intro file _ own
      have theirs : file.userID = tenant := by simpa using own
      simp [theirs, other]
    · intro file listed
      obtain ⟨row, -, rfl⟩ := List.mem_map.mp listed
      simpa [mine] using other.symm
  · rw [Table.select_insert written (by simpa [workspaceRow, mine] using other.symm),
      Table.select_delete]
    intro workspace _ own
    have theirs : workspace.userID = tenant := by simpa using own
    simp [IndexWorkspace.key, workspaceRow, theirs, mine, other]
  · exact manifest_deleteManifest fun same => apart member same own

theorem markFailed (other : tenant ≠ owner) {failure : String} {diagnostic : IndexFailureDiagnostic}
    (marked : db.markIndexJobFailed now owner jobID failure diagnostic = some after) :
    SameFor tenant db after := by
  obtain ⟨job, stored, hit⟩ := markIndexJobFailed_holds marked
  obtain ⟨rfl, mine, -⟩ := IndexJob.runningAs_iff.mp hit
  rw [markIndexJobFailed_eq_some marked]
  have failed : SameFor tenant db (db.updateJobs (·.runningAs owner job.id)
      (·.fail now failure diagnostic)) := updateRunning other _ (fun _ hit => hit) fun _ => rfl
  refine failed.trans (deleteManifest fun row member same => ?_)
  -- the failed row is the one of that identifier
  dsimp only [Database.updateJobs] at member
  rcases Table.mem_update_cases member with ⟨old, missed⟩ | ⟨old, -, running, rfl⟩
  · rw [Table.eq_of_key_eq old stored same, mine]
    exact other.symm
  · have theirs := (IndexJob.runningAs_iff.mp running).2.1
    simpa [IndexJob.fail, IndexJob.closed, theirs] using other.symm

theorem clearUser (other : tenant ≠ owner) : SameFor tenant db (db.clearUserIndexState owner) := by
  refine (deleteJobs other fun job _ hit => by simpa using hit).trans
    (withSnapshots (Table.select_delete fun file _ own => ?_)
      (Table.select_delete fun workspace _ own => ?_))
  · have theirs : file.userID = tenant := by simpa using own
    simp [theirs, other]
  · have theirs : workspace.userID = tenant := by simpa using own
    simp [theirs, other]

theorem onRoot_eq_false {workspace : IndexWorkspace} (other : tenant ≠ owner)
    (own : (workspace.userID == tenant) = true) (root : String) :
    workspace.onRoot owner root = false := by
  have theirs : workspace.userID = tenant := by simpa using own
  simp [IndexWorkspace.onRoot, theirs, other]

theorem clearRoot (other : tenant ≠ owner) (rootID : String) :
    SameFor tenant db (db.clearRootIndexState owner rootID).2 := by
  refine (deleteJobs other fun job _ hit => ?_).trans
    (withSnapshots (Table.select_delete fun file _ own => ?_)
      (Table.select_delete fun workspace _ own => onRoot_eq_false other own _))
  · simp only [IndexJob.onRoot, Bool.and_eq_true, beq_iff_eq] at hit
    exact hit.1
  · have theirs : file.userID = tenant := by simpa using own
    simp [boundToRoot, theirs, other]

theorem dismiss (other : tenant ≠ owner) (rootID : String) (hasPublishedIndex : Bool) :
    SameFor tenant db (db.dismissRootFailureState owner rootID hasPublishedIndex) := by
  have jobs : SameFor tenant db (db.deleteJobs fun job => job.onRoot owner (lceIndexRootID rootID) &&
      (job.status == .failed || job.status == .timedOut)) := by
    refine deleteJobs other fun job _ hit => ?_
    simp only [IndexJob.onRoot, Bool.and_eq_true, beq_iff_eq] at hit
    exact hit.1.1
  cases hasPublishedIndex with
  | true => exact jobs
  | false =>
    exact jobs.trans (withSnapshots rfl
      (Table.select_delete fun workspace _ own => onRoot_eq_false other own _))

theorem submit (other : tenant ≠ owner) {actorID retryJobID id : String} {wait : Nat}
    {job : RootDeletionJob}
    (committed : db.submitRootDeletion now owner actorID rootID retryJobID id wait =
      .ok (job, after)) : SameFor tenant db after := by
  rcases submitRootDeletion_cases committed with rfl | ⟨paused, rfl⟩ | ⟨jobs, rfl, inserted, -⟩
  · exact refl tenant after
  · refine withDeletions (Table.select_update fun row _ hit => ?_)
    simp only [Bool.and_eq_true, beq_iff_eq] at hit
    simpa [RootDeletionJob.resume, hit.1.2] using other.symm
  · exact withDeletions (Table.select_insert inserted
      (by simpa [RootDeletionJob.submitted] using other.symm))

theorem report {job : RootDeletionJob} (other : tenant ≠ job.userID) (deferOnly : Bool) :
    SameFor tenant db (db.recordRootDeletionError now job deferOnly) := by
  refine withDeletions (Table.select_update fun row _ hit => ?_)
  simp only [RootDeletionJob.claimedBy, Bool.and_eq_true, beq_iff_eq] at hit
  simpa [hit.1.1.1.1.2] using other.symm

theorem finish {job : RootDeletionJob} (other : tenant ≠ job.userID) {cloudCount : Int}
    (committed : db.finishRootDeletion now job cloudCount = .ok after) :
    SameFor tenant db after := by
  unfold finishRootDeletion at committed
  split at committed
  · cases committed
    refine (clearRoot other job.rootID).trans (withDeletions
      (Table.select_update fun row _ hit => ?_))
    simp only [Bool.and_eq_true, beq_iff_eq] at hit
    simpa [hit.1.2] using other.symm
  · cases committed

end SameFor

/-- A transaction leaves the rows of all tenants but its own alone. -/
theorem exec_sameFor {tenant owner : String} {db : Database} {now clock : Nat}
    {transaction : Transaction} (runs : transaction.tenant = some owner) (other : tenant ≠ owner) :
    SameFor tenant db (db.exec now clock transaction) := by
  have settled {ε : Type} {result : Except ε Database}
      (committed : ∀ after, result = .ok after → SameFor tenant db after) :
      SameFor tenant db (db.settle result) :=
    settle_cases (P := fun after => SameFor tenant db after) (.refl tenant db) committed
  -- `runs` names the owner; transactions without one work for all tenants and are excluded
  cases transaction with
  | acquire userID resource kind token mode =>
    cases runs
    exact .acquire other resource kind token mode
  | renew userID token =>
    cases runs
    exact .renew other token
  | release userID token =>
    cases runs
    exact .release other token
  | inspect userID workspaceID =>
    cases runs
    exact .inspect other workspaceID
  | create userID req wait jobID =>
    cases runs
    exact .create other req wait jobID
  | failBegin userID jobID detail =>
    cases runs
    exact .updateRunning other _ (fun _ hit => hit) fun _ => rfl
  | uploadHeartbeat userID jobID =>
    cases runs
    refine settled fun after committed => ?_
    rw [uploadHeartbeat_eq_ok committed]
    exact .updateRunning other _ (fun _ hit => (Bool.and_eq_true_iff.mp hit).1) fun _ => rfl
  | commitBatch userID jobID paths chunks fallback sentDeletions =>
    cases runs
    exact settled fun after => .commitBatch other
  | heartbeat userID jobID =>
    cases runs
    exact .updateRunning other _ (fun _ hit => (Bool.and_eq_true_iff.mp hit).1) fun _ => rfl
  | intent userID jobID =>
    cases runs
    refine settled fun after committed => ?_
    rw [publishIntent_eq_ok committed]
    exact .updateRunning other _ (fun _ hit => hit) fun _ => rfl
  | accepted userID jobID | recordRevision userID jobID cloudRevision =>
    cases runs
    exact .updateRunning other _ (fun _ hit => hit) fun _ => rfl
  | complete userID jobID rootID cloudRevision =>
    cases runs
    exact settled fun after => .complete other
  | failPublication userID jobID failure =>
    cases runs
    simp only [exec, finishFailedPublication]
    cases marked : db.markIndexJobFailed now owner jobID failure
        (classifyIndexFailure .failed failure) with
    | none => exact .refl tenant db
    | some after => exact .markFailed other marked
  | touch userID jobID =>
    cases runs
    exact .updateRunning other _ (fun _ hit => (Bool.and_eq_true_iff.mp hit).1) fun _ => rfl
  | fail userID jobID report =>
    cases runs
    rcases exec_fail_cases db now clock owner jobID report with same | ⟨diagnostic, -, marked⟩
    · rw [same]
      exact .refl tenant db
    · exact .markFailed other marked
  | clearUser userID =>
    cases runs
    exact .clearUser other
  | clearRoot userID rootID =>
    cases runs
    exact .clearRoot other rootID
  | dismiss userID rootID hasPublishedIndex =>
    cases runs
    exact .dismiss other rootID hasPublishedIndex
  | submitDeletion userID actorID rootID retryJobID id wait =>
    cases runs
    simp only [exec]
    rcases db.settle_map_eq (db.submitRootDeletion now owner actorID rootID retryJobID id wait)
      with same | ⟨job, submitted⟩
    · rw [same]
      exact .refl tenant db
    · exact .submit other submitted
  | recordDeletionError job deferOnly =>
    cases runs
    exact .report other deferOnly
  | finishDeletion job cloudCount =>
    cases runs
    exact settled fun after => .finish other
  | dropManifest | sweep | claimDeletion | pruneDeletions | enqueueConfig | recoverConfig
  | claimConfig | finishConfig | deferConfig => cases runs

/-! ### Calls in flight -/

/-- The job that a start has made, as long as the start is about it. -/
def Point.made : Point → Option IndexJob
  | .begin job _ | .abortBegin job _ | .markBegin job _ | .dropManifest job => some job
  | _ => none

/-- The transaction of a call runs for the tenant of the call, or removes the manifest of
the job that the call has made. -/
theorem Point.advance_tenant {sha256 : String → String} {answer : Answer} {tenant : String}
    {clock : Nat} {db : Database} {cloud : Cloud} {point : Point} {transaction : Transaction}
    (works : ∀ job, point.deletion = some job → job.userID = tenant)
    (runs : (point.advance sha256 answer tenant clock db cloud).transaction = some transaction) :
    transaction.tenant = some tenant ∨
      ∃ job, point.made = some job ∧ transaction = .dropManifest job.id := by
  cases point with
  | dropManifest job =>
    simp only [Point.advance] at runs
    split at runs
    · cases runs
    · cases runs
      exact .inr ⟨job, rfl, rfl⟩
  | deletionRelay job _ _ | deletionError job =>
    cases runs
    exact .inl (congrArg some (works job rfl))
  | _ =>
    simp only [Point.advance] at runs
    repeat' split at runs
    all_goals first
      | cases runs
        exact .inl rfl
      | cases runs

/-- What the calls know about whose rows they name. -/
structure TenantDiscipline (system : System) : Prop where
  issued : system.world.JobsIssued
  made : ∀ call ∈ system.calls, ∀ job, call.point.made = some job → job.id ∈ system.world.issued ∧
    ∀ row ∈ system.world.db.indexJobs, row.id = job.id → row.userID = call.tenant
  works : ∀ call ∈ system.calls, ∀ job, call.point.deletion = some job → job.userID = call.tenant

/-- The job that a start goes on with is the one it has made, and its own. -/
theorem advance_made {sha256 : String → String} {answer : Answer} {tenant : String} {clock : Nat}
    {db : Database} {cloud : Cloud} {point next : Point} {job : IndexJob}
    (moves : (point.advance sha256 answer tenant clock db cloud).next = some next)
    (made : next.made = some job) : point.made = some job ∨
      ∃ req, (point.advance sha256 answer tenant clock db cloud).transaction =
        some (.create tenant req answer.wait job.id) := by
  cases point with
  | create req normalized =>
    simp only [Point.advance] at moves ⊢
    split at moves
    all_goals cases moves
    next created =>
      cases made
      obtain ⟨_, _, -, -, ⟨same, -⟩ | ⟨same, -⟩ | ⟨_, rfl, same, -⟩⟩ := createIndexJob_cases created
      all_goals cases same
      exact .inr ⟨req, rfl⟩
  | _ =>
    simp only [Point.advance, afterIntent, afterPublish, afterStatus, afterCancel] at moves
    repeat' split at moves
    all_goals cases moves
    all_goals exact .inl made

namespace TenantDiscipline

variable {sha256 : String → String} {system after : System} {event : SystemEvent}

theorem initial {world : World} (issued : world.JobsIssued) :
    TenantDiscipline { System.initial with world } where
  issued := issued
  made call member := absurd member (Table.not_mem_empty call)
  works call member := absurd member (Table.not_mem_empty call)

/-- What holds of the job of a start holds after any step. -/
theorem made_world (discipline : TenantDiscipline system) {call : Call}
    (inFlight : call ∈ system.calls) {job : IndexJob} (made : call.point.made = some job)
    (event : Event) : job.id ∈ (system.world.step event).issued ∧
      ∀ row ∈ (system.world.step event).db.indexJobs, row.id = job.id → row.userID = call.tenant := by
  obtain ⟨known, owned⟩ := discipline.made call inFlight job made
  exact ⟨World.mem_issued_step known event, World.column_step SameJob.userID known owned event⟩

/-- The job that a start has just made. -/
theorem made_new (discipline : TenantDiscipline system) {tenant jobID : String} {req : StartRequest}
    {wait waited : Nat}
    (possible : system.possible (some (.create tenant req wait jobID)) = true) :
    jobID ∈ (system.world.step (.commit waited (.create tenant req wait jobID))).issued ∧
      ∀ row ∈ (system.world.step (.commit waited (.create tenant req wait jobID))).db.indexJobs,
        row.id = jobID → row.userID = tenant := by
  have admissible : system.world.admissible (.create tenant req wait jobID) = true := possible
  simp only [World.step, admissible, if_true]
  refine ⟨List.mem_cons_self, fun row member same => ?_⟩
  rcases mem_exec_jobs member with ⟨old, stored, change⟩ | ⟨files, created⟩
  · -- no stored job has the new identifier
    have known := discipline.issued old stored
    rw [← change.sameJob.id, same] at known
    simp [World.admissible, known] at admissible
  · obtain ⟨_, _, _, _, _, sameTransaction, -, -, -, new, -⟩ := created
    cases sameTransaction
    rw [new]
    rfl

theorem step (discipline : TenantDiscipline system) (stepped : Stepped sha256 system event after) :
    TenantDiscipline after := by
  have issued : after.world.JobsIssued :=
    stepped.preserves discipline.issued fun event => discipline.issued.step event
  -- jobs keep their owner, so what a call has made or works on stays its tenant's
  cases stepped with
  | idle => exact discipline
  | landed | lost | aborted => exact ⟨issued, discipline.made, discipline.works⟩
  | other event accepted =>
    exact ⟨issued, fun call inFlight job made => discipline.made_world inFlight made event,
      discipline.works⟩
  | entered waited token tenant spelling operation point admitted fresh claimed =>
    refine ⟨issued, System.forall_begin (fun call inFlight job made =>
      discipline.made_world inFlight made _) fun job made => ?_,
      System.forall_begin discipline.works fun job works => ?_⟩
    · cases Operation.enters admitted <;> cases made
    · cases Operation.enters admitted with
      | rootDeletion given =>
        cases works
        have both := Bool.and_eq_true_iff.mp claimed
        exact beq_iff_eq.mp both.2
      | _ => cases works
  | advanced call inFlight answer effect next allowed possible =>
    refine ⟨issued, System.forall_moveOn inFlight (fun other known _ job made => ?_)
      fun point moves job made => ?_, System.forall_moveOn inFlight
        (fun other known _ => discipline.works other known) fun point moves job works => ?_⟩
    · simp only [System.apply]
      cases effect.transaction with
      | none => exact discipline.made other known job made
      | some transaction => exact discipline.made_world known made _
    · rw [next] at moves
      simp only [System.apply]
      rcases advance_made moves made with before | ⟨req, runs⟩
      · cases effect.transaction with
        | none => exact discipline.made call inFlight job before
        | some transaction => exact discipline.made_world inFlight before _
      · rw [next] at possible ⊢
        rw [runs] at possible ⊢
        exact discipline.made_new possible
    · rw [next] at moves
      exact discipline.works call inFlight job (advance_keeps_deletion moves works)

end TenantDiscipline

/-- The tenant for whom an event acts. -/
def System.tenant (system : System) : SystemEvent → Option String
  | .other (.commit _ transaction) => transaction.tenant
  | .enter _ _ tenant _ _ => some tenant
  | .advance token _ => (system.calls.lookup token).map (·.tenant)
  | _ => none

/-- A step for one tenant leaves the rows of the others alone. -/
theorem sameFor_step {sha256 : String → String} {system : System} {event : SystemEvent}
    (discipline : TenantDiscipline system) {tenant owner : String}
    (acts : system.tenant event = some owner) (other : tenant ≠ owner) :
    SameFor tenant system.world.db (system.step sha256 event).world.db := by
  have stepped := system.stepped sha256 event
  generalize system.step sha256 event = after at stepped
  cases stepped with
  | idle | landed | lost | aborted => exact .refl tenant system.world.db
  | other event accepted =>
    cases event with
    | tick => exact .refl tenant system.world.db
    | commit waited transaction =>
      simp only [System.background, World.step]
      split
      · exact exec_sameFor acts other
      · exact .refl tenant system.world.db
  | entered waited token tenant' spelling operation point =>
    rw [System.begin_db]
    exact exec_sameFor acts other
  | advanced call inFlight answer effect next allowed possible =>
    have found : system.calls.lookup call.token = some call :=
      Table.lookup_eq_some.mpr ⟨inFlight, rfl⟩
    simp only [System.tenant, found, Option.map_some, Option.some.injEq] at acts
    simp only [System.apply]
    cases runs : effect.transaction with
    | none => exact .refl tenant system.world.db
    | some transaction =>
      rw [runs] at possible
      rw [System.commit_db possible]
      rw [next] at runs
      rcases Point.advance_tenant (discipline.works call inFlight) runs with own | ⟨job, made, rfl⟩
      · exact exec_sameFor (own.trans (congrArg some acts)) other
      · refine .deleteManifest fun row member same => ?_
        rw [(discipline.made call inFlight job made).2 row member same, acts]
        exact other.symm

/-! ### Job identifiers of others -/

/-- The tenant has no job of that identifier. Another tenant may have it. -/
def NotOwn (db : Database) (tenant jobID : String) : Prop :=
  ∀ job ∈ db.indexJobs, job.id = jobID → job.userID ≠ tenant

/-- The job that the first step of a call looks up. -/
def Point.names : Point → Option String
  | .prepare req => some req.jobID
  | .check jobID _ | .load jobID _ => some jobID
  | _ => none

/-- The error that a call returns when its first look at the job fails. -/
def Point.refusal (sha256 : String → String) (tenant : String) (db : Database) :
    Point → Option String
  | .prepare req =>
    match db.prepareIndexBatch sha256 tenant req with
    | .error message => some message
    | .ok _ => none
  | .check jobID _ =>
    match db.checkCompletable tenant jobID with
    | .error message => some message
    | .ok _ => none
  | .load jobID _ =>
    match db.checkFailable tenant jobID with
    | .error message => some message
    | .ok _ => none
  | _ => none

/-- What an operation answers when there is no such job. -/
def Operation.notFound : Operation → String
  | .fail _ _ => "sql: no rows in result set"
  | _ => "index job not found"

section Foreign

variable {db : Database} {tenant jobID : String}

theorem loadIndexJob_notOwn (foreign : NotOwn db tenant jobID) :
    db.loadIndexJob tenant jobID = none := by
  rw [Option.eq_none_iff_forall_ne_some]
  intro job found
  obtain ⟨stored, same, own⟩ := loadIndexJob_eq_some.mp found
  exact foreign job stored same own

theorem getIndexJob_notOwn (foreign : NotOwn db tenant jobID) :
    db.getIndexJob tenant jobID = .error "index job not found" := by
  simp only [getIndexJob, loadIndexJob_notOwn foreign]

theorem handleHeartbeat_notOwn (foreign : NotOwn db tenant jobID) (now : Nat)
    (renewed : Except String Unit) :
    db.handleHeartbeat now tenant jobID renewed = (.error "index job not found", db) := by
  simp only [handleHeartbeat, getIndexJob_notOwn foreign]

/-- A call about a job that is not the tenant's ends at its first look. -/
theorem advance_notOwn (foreign : NotOwn db tenant jobID) {operation : Operation} {point : Point}
    (entered : operation.enter = .ok point) (names : point.names = some jobID)
    (sha256 : String → String) (answer : Answer) (clock : Nat) (cloud : Cloud) :
    point.advance sha256 answer tenant clock db cloud = {} ∧
      point.refusal sha256 tenant db = some operation.notFound := by
  have missing := loadIndexJob_notOwn foreign
  cases Operation.enters entered with
  | upload req valid =>
    cases names
    simp [Point.advance, Point.refusal, Operation.notFound, prepareIndexBatch, missing]
  | complete =>
    cases names
    simp [Point.advance, Point.refusal, Operation.notFound, checkCompletable, missing]
  | fail =>
    cases names
    simp [Point.advance, Point.refusal, Operation.notFound, checkFailable, missing]
  | _ => cases names

/-- The admission of a lease does not look at jobs. -/
theorem tryAcquire_deleteJobs (p : IndexJob → Bool) (now : Nat) (resource kind token : String)
    (mode : OperationMode) :
    (db.deleteJobs p).tryAcquireIndexOperation now tenant resource kind token mode =
      (db.tryAcquireIndexOperation now tenant resource kind token mode).map fun result =>
        (result.1, result.2.deleteJobs p) := by
  have same (wanted : OperationLease) : (db.deleteJobs p).admits now wanted = db.admits now wanted := rfl
  have remaining : (db.deleteJobs p).dropExpiredLeases now tenant = db.dropExpiredLeases now tenant := rfl
  simp only [tryAcquireIndexOperation, same, remaining]
  split
  · rw [Option.map_map]
    rfl
  · rfl

/-- The retry of a deletion job that is not the tenant's. -/
theorem submission_notOwn {retryJobID : String}
    (foreign : ∀ job ∈ db.rootDeletionJobs, job.id = retryJobID → job.userID ≠ tenant)
    (named : retryJobID ≠ "") (now : Nat) (actorID rootID id : String) (wait : Nat) :
    db.submitRootDeletion now tenant actorID rootID retryJobID id wait =
      .error (if db.rootDeletionJobs.holds (fun job => job.userID == tenant && job.active) then .busy
        else .noRows) := by
  unfold submitRootDeletion
  split
  next found others listed =>
    obtain ⟨stored, matching⟩ := Table.mem_select.mp (listed ▸ List.mem_cons_self :
      found ∈ db.rootDeletionJobs.select fun job => job.userID == tenant && job.active)
    have holds : db.rootDeletionJobs.holds (fun job => job.userID == tenant && job.active) = true :=
      Table.holds_eq_true.mpr ⟨found, stored, matching⟩
    simp only [Bool.and_eq_true, beq_iff_eq] at matching
    have different : retryJobID ≠ found.id := fun same => foreign found stored same.symm matching.1
    rw [if_pos (.inr ⟨named, different⟩), holds, if_pos rfl]
  next none =>
    have idle : db.rootDeletionJobs.holds (fun job => job.userID == tenant && job.active) = false := by
      rw [Table.holds_eq_false]
      intro job stored
      by_contra active
      have listed : job ∈ db.rootDeletionJobs.select (fun job =>
          job.userID == tenant && job.active) :=
        Table.mem_select.mpr ⟨stored, by simpa using active⟩
      rw [none] at listed
      cases listed
    rw [if_pos named, idle]
    split
    next found others listed =>
      obtain ⟨stored, matching⟩ := Table.mem_select.mp (listed ▸ List.mem_cons_self :
        found ∈ db.rootDeletionJobs.select fun job =>
          job.id == retryJobID && job.userID == tenant && job.rootID == rootID)
      simp only [Bool.and_eq_true, beq_iff_eq] at matching
      exact absurd matching.1.2 (foreign found stored matching.1.1)
    · rfl

end Foreign

/-- From any database, in every run, each step that acts for a tenant leaves the rows of
every other tenant as they are. And whatever a tenant asks about a job identifier that
is not its own is answered and done in one way, whether or not the identifier is
another's: status and heartbeat, the calls with a lease, whose admission does not look
at jobs, and the retry of a deletion. -/
theorem tenant_isolation (sha256 : String → String) :
    (∀ world : World, world.JobsIssued → ∀ events event system,
      system = runFrom (System.step sha256) { System.initial with world } events →
      ∀ owner, system.tenant event = some owner → ∀ tenant, tenant ≠ owner →
        SameFor tenant system.world.db (system.step sha256 event).world.db) ∧
    (∀ db tenant jobID, NotOwn db tenant jobID →
      db.getIndexJob tenant jobID = .error "index job not found" ∧
      (∀ now renewed, db.handleHeartbeat now tenant jobID renewed =
        (.error "index job not found", db)) ∧
      ∀ (operation : Operation) (point : Point), operation.enter = .ok point →
        point.names = some jobID → ∀ answer clock cloud,
          point.advance sha256 answer tenant clock db cloud = {} ∧
          point.refusal sha256 tenant db = some operation.notFound) ∧
    (∀ (db : Database) p now tenant resource kind token mode,
      (db.deleteJobs p).tryAcquireIndexOperation now tenant resource kind token mode =
        (db.tryAcquireIndexOperation now tenant resource kind token mode).map fun result =>
          (result.1, result.2.deleteJobs p)) ∧
    ∀ (db : Database) tenant retryJobID, retryJobID ≠ "" →
      (∀ job ∈ db.rootDeletionJobs, job.id = retryJobID → job.userID ≠ tenant) →
      ∀ now actorID rootID id wait,
        db.submitRootDeletion now tenant actorID rootID retryJobID id wait =
          .error (if db.rootDeletionJobs.holds (fun job => job.userID == tenant && job.active)
            then .busy else .noRows) := by
  refine ⟨?_, ?_, ?_, ?_⟩
  · rintro world issued events event system rfl owner acts tenant other
    have discipline : TenantDiscipline
        (runFrom (System.step sha256) { System.initial with world } events) :=
      invariant_run (fun system event before => before.step (system.stepped sha256 event))
        (TenantDiscipline.initial issued) events
    exact sameFor_step discipline acts other
  · intro db tenant jobID foreign
    exact ⟨getIndexJob_notOwn foreign, handleHeartbeat_notOwn foreign,
      fun operation point entered names => advance_notOwn foreign entered names sha256⟩
  · intro db p now tenant
    exact tryAcquire_deleteJobs p now
  · intro db tenant retryJobID named foreign now actorID rootID id wait
    exact submission_notOwn foreign named now actorID rootID id wait

/-- A database in which another tenant has a running job. -/
def theirJob : World where
  clock := 0
  db := { Database.empty with
    indexJobs := ⟨[newIndexJob 0 "them" "job" ⟨1, "root", "root", "", "", [], [], "root"⟩ .full 0
      ⟨[], [], 0⟩], by decide⟩ }
  issued := ["job"]

theorem tenant_isolation_theirJob :
    SameFor "them" theirJob.db
        (({ System.initial with world := theirJob } : System).step id
          (.other (.commit 0 (.fail "us" "job" ⟨"stop", "", "", ""⟩)))).world.db ∧
      theirJob.db.getIndexJob "us" "job" = .error "index job not found" := by
  obtain ⟨steps, answers, -⟩ := tenant_isolation id
  have issued : theirJob.JobsIssued := by
    intro job stored
    rw [List.mem_singleton.mp stored]
    exact List.mem_singleton.mpr rfl
  have foreign : NotOwn theirJob.db "us" "job" := by
    intro job stored _
    rw [List.mem_singleton.mp stored]
    decide
  exact ⟨steps theirJob issued [] _ _ rfl "us" rfl "them" (by decide),
    (answers theirJob.db "us" "job" foreign).1⟩

end AcemcpRelay
