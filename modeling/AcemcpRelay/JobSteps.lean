import AcemcpRelay.Frame

/-!
# What a transaction does to a job

`JobChange` lists every way in which a committed transaction rewrites a row of
`index_jobs`, `FileChange` every way in which it rewrites a row of
`index_job_files`. Rows are created by `create` only, which is `Created`. All
invariants of jobs are read off these three.
-/
namespace AcemcpRelay

open Store

/-- The job has no manifest rows. -/
def Database.NoManifest (db : Database) (jobID : String) : Prop :=
  ∀ file ∈ db.indexJobFiles, file.jobID ≠ jobID

instance (db : Database) (jobID : String) : Decidable (db.NoManifest jobID) :=
  inferInstanceAs (Decidable (∀ file ∈ db.indexJobFiles, file.jobID ≠ jobID))

theorem IndexJob.runningAs_iff {job : IndexJob} {userID jobID : String} :
    job.runningAs userID jobID = true ↔
      job.id = jobID ∧ job.userID = userID ∧ job.status = .running := by
  simp [IndexJob.runningAs, and_assoc]

/-- How the row of a running job changes. The closing transactions but one remove
the manifest together with the status. -/
inductive JobChange (now clock : Nat) (db after : Database) :
    Transaction → IndexJob → IndexJob → Prop where
  | same (transaction : Transaction) (job : IndexJob) :
      JobChange now clock db after transaction job job
  | reclaimed (job : IndexJob) (running : job.status = .running)
      (expired : indexJobHeartbeatExpired job.phase job.heartbeatAt clock = true)
      (emptied : after.NoManifest job.id) :
      JobChange now clock db after (.inspect job.userID job.workspaceID) job (job.reclaim now)
  | beginFailed (job : IndexJob) (running : job.status = .running) (detail : String) :
      JobChange now clock db after (.failBegin job.userID job.id detail) job
        { job.closed now .failed ("LCE cloud index begin failed: " ++ detail)
            (classifyIndexFailure .failed ("LCE cloud index begin failed: " ++ detail)) with
          heartbeatAt := now }
  | uploading (job : IndexJob) (running : job.status = .running)
      (client : job.phase ≠ .publishing) :
      JobChange now clock db after (.uploadHeartbeat job.userID job.id) job
        { job with phase := .uploading, heartbeatAt := now }
  | committed (job : IndexJob) (running : job.status = .running) (paths : List String)
      (chunks : Int) (fallback sentDeletions : Bool) (marked : Database)
      (all : db.markAllIndexed job.id paths = .ok marked) :
      JobChange now clock db after
        (.commitBatch job.userID job.id paths chunks fallback sentDeletions) job
        { job with
          phase := .indexing
          indexedFiles := job.indexedFiles + paths.length
          indexedChunks := job.indexedChunks + chunks
          chunkCountFallback := job.chunkCountFallback || fallback
          deletionsSent := job.deletionsSent || sentDeletions
          heartbeatAt := now }
  | beat (job : IndexJob) (running : job.status = .running) (client : job.phase ≠ .publishing) :
      JobChange now clock db after (.heartbeat job.userID job.id) job { job with heartbeatAt := now }
  | handedOver (job : IndexJob) (running : job.status = .running) :
      JobChange now clock db after (.intent job.userID job.id) job
        { job with
          phase := .publishing, heartbeatAt := now
          publishingSince := some (job.publishingSince.getD now) }
  | accepted (job : IndexJob) (running : job.status = .running) :
      JobChange now clock db after (.accepted job.userID job.id) job
        { job with phase := .publishing, heartbeatAt := now }
  | recorded (job : IndexJob) (running : job.status = .running) (cloudRevision : Int) :
      JobChange now clock db after (.recordRevision job.userID job.id cloudRevision) job
        { job with cloudRevision, heartbeatAt := now }
  | completed (job : IndexJob) (ready : job.completable = .ok ()) (rootID : String)
      (cloudRevision : Int) (emptied : after.NoManifest job.id) :
      JobChange now clock db after (.complete job.userID job.id rootID cloudRevision) job
        (job.complete now cloudRevision)
  | publicationFailed (job : IndexJob) (running : job.status = .running) (failure : String)
      (emptied : after.NoManifest job.id) :
      JobChange now clock db after (.failPublication job.userID job.id failure) job
        (job.fail now failure (classifyIndexFailure .failed failure))
  | touched (job : IndexJob) (running : job.status = .running)
      (server : job.phase = .publishing) :
      JobChange now clock db after (.touch job.userID job.id) job { job with heartbeatAt := now }
  | failed (job : IndexJob) (running : job.status = .running) (report : FailureReport)
      (diagnostic : IndexFailureDiagnostic)
      (resolved : resolveReportedIndexFailureDiagnostic .failed report.error report.errorCode
        report.errorOrigin report.recovery = .ok diagnostic)
      (emptied : after.NoManifest job.id) :
      JobChange now clock db after (.fail job.userID job.id report) job
        (job.fail now (reportedFailure report.error) diagnostic)
  | swept (job : IndexJob) (locked : List String) (expired : job.expired clock = true)
      (emptied : after.NoManifest job.id) :
      JobChange now clock db after (.sweep locked) job (job.sweep now)

/-- How a manifest row changes: a committed upload marks it. -/
inductive FileChange : Transaction → JobFile → JobFile → Prop where
  | same (transaction : Transaction) (file : JobFile) : FileChange transaction file file
  | marked (file : JobFile) (pending : file.needsIndex = true ∧ file.indexed = false)
      (userID jobID : String) (owner : file.jobID = jobID) (paths : List String)
      (named : file.path ∈ paths) (chunks : Int) (fallback sentDeletions : Bool) :
      FileChange (.commitBatch userID jobID paths chunks fallback sentDeletions) file
        { file with indexed := true }

/-- The transaction inserted this job with a manifest of these files. -/
structure Created (now : Nat) (db after : Database) (transaction : Transaction) (job : IndexJob)
    (files : List ManifestFile) : Prop where
  exists_request : ∃ userID req wait normalized diff,
    transaction = .create userID req wait job.id ∧ normalizeStartRequest req = .ok normalized ∧
    graftUnreadablePaths (db.loadIndexedSnapshot userID normalized.workspaceID) normalized.files
      normalized.unreadableFiles = .ok files ∧
    diff = diffManifest (db.loadIndexedSnapshot userID normalized.workspaceID) files ∧
    job = Database.newIndexJob now userID job.id normalized
      (if db.workspaceExists userID normalized.workspaceID then .incremental else .full)
      files.length diff ∧
    db.insertIndexJob job files diff.pending = .ok after

/-- The transaction deletes the jobs that satisfy the predicate. -/
inductive Removes : Transaction → (IndexJob → Bool) → Prop where
  | user (userID : String) : Removes (.clearUser userID) (·.userID == userID)
  | root (userID rootID : String) :
      Removes (.clearRoot userID rootID) (·.onRoot userID (lceIndexRootID rootID))
  | deletion (job : RootDeletionJob) (cloudCount : Int) :
      Removes (.finishDeletion job cloudCount) (·.onRoot job.userID (lceIndexRootID job.rootID))
  | platform (job : PlatformConfigJob) (receipt : ConfigReceipt) :
      Removes (.finishConfig job receipt) (fun _ => true)
  | dismissed (userID rootID : String) (hasPublishedIndex : Bool) :
      Removes (.dismiss userID rootID hasPublishedIndex) (fun job =>
        job.onRoot userID (lceIndexRootID rootID) &&
          (job.status == .failed || job.status == .timedOut))

namespace Database

variable {db : Database} {now clock : Nat}

theorem noManifest_deleteManifest (db : Database) (jobID : String) :
    (db.deleteManifest jobID).NoManifest jobID := by
  intro file member
  have kept := (Table.mem_delete.mp member).2
  simpa using kept

theorem loadIndexJob_eq_some {userID jobID : String} {job : IndexJob} :
    db.loadIndexJob userID jobID = some job ↔
      job ∈ db.indexJobs ∧ job.id = jobID ∧ job.userID = userID := by
  simp [loadIndexJob, Option.filter_eq_some_iff, Table.lookup_eq_some, and_assoc]

theorem completable_eq_ok {job : IndexJob} (ready : job.completable = .ok ()) :
    job.status = .running ∧ job.indexedFiles = job.totalFiles ∧
      (0 < job.deletedCount → job.deletionsSent = true) := by
  unfold IndexJob.completable at ready
  split at ready
  · simp at ready
  next running =>
    split at ready
    · simp at ready
    next all =>
      split at ready
      · simp at ready
      next sent =>
        refine ⟨not_not.mp running, not_not.mp all, fun some => ?_⟩
        by_contra unsent
        exact sent ⟨some, by simpa using unsent⟩

theorem mem_runningJobs {userID workspaceID : String} {job : IndexJob} :
    job ∈ db.runningJobs userID workspaceID ↔
      job ∈ db.indexJobs ∧ job.userID = userID ∧ job.workspaceID = workspaceID ∧
        job.status = .running := by
  simp [runningJobs, List.mem_insertionSort, and_assoc]

/-- The reclaim hits the running jobs of the workspace, all of them expired. -/
theorem inspectActiveIndexJob_cases (now clock : Nat) (userID workspaceID : String)
    (db : Database) :
    (∃ job, db.inspectActiveIndexJob now clock userID workspaceID = (.active job, db)) ∨
      (∀ job ∈ db.runningJobs userID workspaceID,
        indexJobHeartbeatExpired job.phase job.heartbeatAt clock = true) ∧
      db.inspectActiveIndexJob now clock userID workspaceID =
        (.reclaimed (db.runningJobs userID workspaceID), { db with
          indexJobs := db.indexJobs.update
            (fun job => (db.runningJobs userID workspaceID).any (·.id == job.id)) (·.reclaim now)
          indexJobFiles := db.indexJobFiles.delete fun file =>
            (db.runningJobs userID workspaceID).any (·.id == file.jobID) }) := by
  unfold inspectActiveIndexJob
  simp only
  split
  next job found => exact .inl ⟨job, rfl⟩
  next none =>
    refine .inr ⟨fun job listed => ?_, rfl⟩
    simpa using List.find?_eq_none.mp none job listed

/-- Reading a table by the identifier of a listed row finds that row. -/
theorem mem_of_any_id {jobs : List IndexJob} (listed : ∀ job ∈ jobs, job ∈ db.indexJobs)
    {row : IndexJob} (stored : row ∈ db.indexJobs) (hit : jobs.any (·.id == row.id) = true) :
    row ∈ jobs := by
  obtain ⟨job, member, same⟩ := List.any_eq_true.mp hit
  rw [← Table.eq_of_key_eq (listed job member) stored (by simpa using same)]
  exact member

theorem markIndexed_manifest {after : Database} {jobID path : String}
    (committed : db.markIndexed jobID path = .ok after) :
    after.indexJobFiles = db.indexJobFiles.update
      (fun file => file.jobID == jobID && file.path == path && file.needsIndex && !file.indexed)
      (fun file => { file with indexed := true }) := by
  unfold markIndexed at committed
  simp only at committed
  split at committed
  · simp only [Except.ok.injEq] at committed
    subst committed
    rfl
  · simp at committed

/-- The manifest file is still to be committed. -/
def Pending (db : Database) (jobID path : String) : Prop :=
  ∃ file ∈ db.indexJobFiles, file.jobID = jobID ∧ file.path = path ∧ file.needsIndex = true ∧
    file.indexed = false

instance (db : Database) (jobID path : String) : Decidable (db.Pending jobID path) :=
  inferInstanceAs (Decidable (∃ file ∈ db.indexJobFiles, file.jobID = jobID ∧
    file.path = path ∧ file.needsIndex = true ∧ file.indexed = false))

theorem markIndexed_ok_iff {jobID path : String} :
    (∃ after, db.markIndexed jobID path = .ok after) ↔ db.Pending jobID path := by
  unfold markIndexed
  simp only
  split
  next found =>
    obtain ⟨file, stored, hit⟩ := Table.holds_eq_true.mp found
    simp only [Bool.and_eq_true, beq_iff_eq, Bool.not_eq_true'] at hit
    exact ⟨fun _ => ⟨file, stored, hit.1.1.1, hit.1.1.2, hit.1.2, hit.2⟩, fun _ => ⟨_, rfl⟩⟩
  next missed =>
    constructor
    · rintro ⟨after, committed⟩
      simp at committed
    · rintro ⟨file, stored, owner, named, needed, unmarked⟩
      exact absurd (Table.holds_eq_true.mpr ⟨file, stored, by simp [owner, named, needed, unmarked]⟩)
        missed

/-- Marking one file leaves the other pending files pending, and no others. -/
theorem pending_markIndexed {after : Database} {jobID path other : String}
    (committed : db.markIndexed jobID path = .ok after) :
    after.Pending jobID other ↔ db.Pending jobID other ∧ other ≠ path := by
  unfold Pending
  rw [markIndexed_manifest committed]
  constructor
  · rintro ⟨file, member, owner, named, needed, unmarked⟩
    rcases Table.mem_update_cases member with ⟨stored, missed⟩ | ⟨old, -, -, rfl⟩
    · refine ⟨⟨file, stored, owner, named, needed, unmarked⟩, fun same => ?_⟩
      simp [owner, named, same, needed, unmarked] at missed
    · cases unmarked
  · rintro ⟨⟨file, stored, owner, named, needed, unmarked⟩, different⟩
    refine ⟨file, Table.mem_update_of_not stored ?_, owner, named, needed, unmarked⟩
    simp [owner, named, different]

/-- A batch is recorded iff its paths are all pending and no path occurs twice. -/
theorem markAllIndexed_ok_iff {jobID : String} {paths : List String} :
    (∃ after, db.markAllIndexed jobID paths = .ok after) ↔
      paths.Nodup ∧ ∀ path ∈ paths, db.Pending jobID path := by
  induction paths generalizing db with
  | nil => simp [markAllIndexed]
  | cons path rest ih =>
    simp only [markAllIndexed, List.nodup_cons, List.forall_mem_cons]
    cases first : db.markIndexed jobID path with
    | error message =>
      have missing : ¬ db.Pending jobID path := by
        rw [← markIndexed_ok_iff, first]
        simp
      simp [missing]
    | ok marked =>
      have here : db.Pending jobID path := markIndexed_ok_iff.mp ⟨marked, first⟩
      rw [ih]
      simp only [pending_markIndexed first]
      constructor
      · rintro ⟨distinct, all⟩
        exact ⟨⟨fun again => (all path again).2 rfl, distinct⟩, here, fun p m => (all p m).1⟩
      · rintro ⟨⟨absent, distinct⟩, -, all⟩
        exact ⟨distinct, fun p m => ⟨all p m, fun same => absent (same ▸ m)⟩⟩

/-- What a batch leaves pending. -/
theorem pending_markAllIndexed {after : Database} {jobID other : String} {paths : List String}
    (committed : db.markAllIndexed jobID paths = .ok after) :
    after.Pending jobID other ↔ db.Pending jobID other ∧ other ∉ paths := by
  induction paths generalizing db with
  | nil =>
    simp only [markAllIndexed, Except.ok.injEq] at committed
    simp [committed]
  | cons path rest ih =>
    simp only [markAllIndexed] at committed
    split at committed
    · simp at committed
    next marked first =>
      rw [ih committed, pending_markIndexed first, List.mem_cons, not_or, and_assoc]

/-- A row of the marked manifest was there before, and if it changed it was pending. -/
theorem markAllIndexed_traces {after : Database} {userID jobID : String} {paths : List String}
    {chunks : Int} {fallback sentDeletions : Bool}
    (committed : db.markAllIndexed jobID paths = .ok after) :
    Table.Traces (FileChange (.commitBatch userID jobID paths chunks fallback sentDeletions))
      db.indexJobFiles after.indexJobFiles := by
  -- the paths still to mark shrink while the transaction's own list stays, so the
  -- induction is over a suffix of it
  suffices general : ∀ rest, rest ⊆ paths → ∀ before : Database,
      before.markAllIndexed jobID rest = .ok after →
      Table.Traces (FileChange (.commitBatch userID jobID paths chunks fallback sentDeletions))
        before.indexJobFiles after.indexJobFiles from
    general paths (fun _ member => member) db committed
  intro rest
  induction rest with
  | nil =>
    intro _ before done
    simp only [markAllIndexed, Except.ok.injEq] at done
    subst done
    exact Table.Traces.refl (.same _)
  | cons path rest ih =>
    intro within before done
    simp only [markAllIndexed] at done
    split at done
    · simp at done
    next marked first =>
      have later := ih (fun _ member => within (List.mem_cons_of_mem _ member)) marked done
      intro file member
      obtain ⟨between, stored, change⟩ := later file member
      rw [markIndexed_manifest first] at stored
      rcases Table.mem_update_cases stored with ⟨source, -⟩ | ⟨old, source, hit, rfl⟩
      · exact ⟨between, source, change⟩
      · simp only [Bool.and_eq_true, beq_iff_eq, Bool.not_eq_true'] at hit
        obtain ⟨⟨⟨rfl, rfl⟩, needed⟩, unmarked⟩ := hit
        refine ⟨old, source, ?_⟩
        cases change with
        | same => exact .marked old ⟨needed, unmarked⟩ _ _ rfl _ (within (by simp)) _ _ _
        | marked _ pending => exact absurd pending.2 (by simp)

theorem created_of_create (db : Database) (now clock : Nat) (userID : String) (req : StartRequest)
    (wait : Nat) (jobID : String) :
    SameIndex db { db.exec now clock (.create userID req wait jobID) with
        indexWorkspaces := db.indexWorkspaces } ∨
      ∃ job files, Created now db (db.exec now clock (.create userID req wait jobID))
        (.create userID req wait jobID) job files := by
  rcases exec_create_cases db now clock userID req wait jobID with
    same | ⟨normalized, outcome, accepted, created⟩
  · rw [same]
    exact .inl (.refl db)
  obtain ⟨files, diff, grafted, compared, ⟨-, -, -, -, same⟩ | ⟨-, same⟩ |
    ⟨job, rfl, -, -, inserted⟩⟩ := createIndexJob_cases created
  · rw [same]
    exact .inl (.refl db)
  · rw [same]
    exact .inl (.refl db)
  · exact .inr ⟨_, files, userID, req, wait, normalized, diff, rfl, accepted, grafted, compared,
      rfl, inserted⟩

end Database

namespace Created

variable {now : Nat} {db after : Database} {transaction : Transaction} {job : IndexJob}
  {files : List ManifestFile}

theorem status (created : Created now db after transaction job files) : job.status = .running := by
  obtain ⟨userID, req, wait, normalized, diff, -, -, -, -, same, -⟩ := created
  rw [same]
  rfl

theorem mem_jobs (created : Created now db after transaction job files) {row : IndexJob} :
    row ∈ after.indexJobs ↔ row ∈ db.indexJobs ∨ row = job := by
  obtain ⟨userID, req, wait, normalized, diff, -, -, -, -, -, inserted⟩ := created
  obtain ⟨jobs, rows, placed, -, rfl⟩ := Database.insertIndexJob_eq_ok inserted
  rw [Table.mem_insert placed, List.mem_singleton]

theorem fresh (created : Created now db after transaction job files) {old : IndexJob}
    (stored : old ∈ db.indexJobs) : old.id ≠ job.id := by
  obtain ⟨userID, req, wait, normalized, diff, -, -, -, -, -, inserted⟩ := created
  obtain ⟨jobs, rows, placed, -, rfl⟩ := Database.insertIndexJob_eq_ok inserted
  exact Table.key_fresh placed stored (List.mem_singleton_self job)

theorem mem_manifest (created : Created now db after transaction job files) {file : JobFile}
    (member : file ∈ after.indexJobFiles) : file ∈ db.indexJobFiles ∨ file.jobID = job.id := by
  obtain ⟨userID, req, wait, normalized, diff, -, -, -, -, -, inserted⟩ := created
  obtain ⟨jobs, rows, -, copied, rfl⟩ := Database.insertIndexJob_eq_ok inserted
  refine ((Table.mem_insert copied).mp member).imp_right fun added => ?_
  obtain ⟨source, -, rfl⟩ := List.mem_map.mp added
  rfl

end Created

namespace Database

variable {db : Database} {now clock : Nat}

/-! ### The rows of `index_jobs`

One lemma for each transaction that writes the table: the update as its function performs it
is one that `JobChange` lists. -/

section Jobs

variable {after : Database} {transaction : Transaction} {userID jobID : String}

theorem rewrites_of_same (jobs : after.indexJobs = db.indexJobs) :
    Table.Rewrites (JobChange now clock db after transaction) db.indexJobs after.indexJobs := by
  rw [jobs]
  exact .refl (.same _)

theorem rewrites_settle {ε : Type} {result : Except ε Database}
    (committed : ∀ after, result = .ok after →
      Table.Rewrites (JobChange now clock db after transaction) db.indexJobs after.indexJobs) :
    Table.Rewrites (JobChange now clock db (db.settle result) transaction) db.indexJobs
      (db.settle result).indexJobs := by
  rcases db.settle_eq result with same | success
  · rw [same]
    exact rewrites_of_same rfl
  · exact committed _ success

/-- An update that hits the running job of that name only. -/
theorem rewrites_running {p : IndexJob → Bool} {change : IndexJob → IndexJob}
    (names : ∀ row, p row = true → row.runningAs userID jobID = true)
    (listed : ∀ row, row.id = jobID → row.userID = userID → row.status = .running → p row = true →
      JobChange now clock db after transaction row (change row))
    (keeps : ∀ job, (change job).id = job.id := by exact Store.Table.keeps_key fun _ => rfl) :
    Table.Rewrites (JobChange now clock db after transaction) db.indexJobs
      (db.indexJobs.update p change keeps) := by
  refine Table.rewrites_update (.same _) (fun row _ hit => ?_) keeps
  obtain ⟨named, owner, running⟩ := IndexJob.runningAs_iff.mp (names row hit)
  exact listed row named owner running hit

/-- An update of the job that the transaction has read. -/
theorem rewrites_loaded {job : IndexJob} {change : IndexJob → IndexJob}
    (found : db.loadIndexJob userID jobID = some job)
    (listed : JobChange now clock db after transaction job (change job))
    (keeps : ∀ job, (change job).id = job.id := by exact Store.Table.keeps_key fun _ => rfl) :
    Table.Rewrites (JobChange now clock db after transaction) db.indexJobs
      (db.indexJobs.update (·.id == jobID) change keeps) := by
  obtain ⟨stored, named, -⟩ := loadIndexJob_eq_some.mp found
  refine Table.rewrites_update (.same _) (fun row member hit => ?_) keeps
  rw [Table.eq_of_key_eq member stored ((beq_iff_eq.mp hit).trans named.symm)]
  exact listed

theorem inspect_jobs (workspaceID : String) (db : Database) :
    Table.Rewrites (JobChange now clock db
        (db.inspectActiveIndexJob now clock userID workspaceID).2 (.inspect userID workspaceID))
      db.indexJobs (db.inspectActiveIndexJob now clock userID workspaceID).2.indexJobs := by
  rcases inspectActiveIndexJob_cases now clock userID workspaceID db with
    ⟨job, same⟩ | ⟨expired, same⟩
  · rw [same]
    exact rewrites_of_same rfl
  rw [same]
  refine Table.rewrites_update (.same _) fun row stored hit => ?_
  have listed : row ∈ db.runningJobs userID workspaceID :=
    mem_of_any_id (fun job member => (mem_runningJobs.mp member).1) stored hit
  obtain ⟨-, rfl, rfl, running⟩ := mem_runningJobs.mp listed
  refine .reclaimed row running (expired row listed) fun file member => ?_
  have missed := (Table.mem_delete.mp member).2
  rintro same
  rw [same, hit] at missed
  exact Bool.noConfusion missed

theorem commitIndexBatch_jobs {paths : List String} {chunks : Int} {fallback sentDeletions : Bool}
    (committed : db.commitIndexBatch now userID jobID paths chunks fallback sentDeletions =
      .ok after) :
    Table.Rewrites (JobChange now clock db after
        (.commitBatch userID jobID paths chunks fallback sentDeletions))
      db.indexJobs after.indexJobs := by
  obtain ⟨job, marked, found, running, all, rfl⟩ := commitIndexBatch_eq_ok committed
  obtain ⟨-, rfl, rfl⟩ := loadIndexJob_eq_some.mp found
  simp only [updateJobs, (markAllIndexed_frame all).2.1]
  exact rewrites_loaded found
    (.committed job running paths chunks fallback sentDeletions marked all)

theorem completeIndexJob_jobs {rootID : String} {cloudRevision : Int}
    (committed : db.completeIndexJob now userID jobID rootID cloudRevision = .ok after) :
    Table.Rewrites (JobChange now clock db after (.complete userID jobID rootID cloudRevision))
      db.indexJobs after.indexJobs := by
  obtain ⟨job, files, workspaces, found, ready, -, -, rfl⟩ := completeIndexJob_eq_ok committed
  obtain ⟨-, rfl, rfl⟩ := loadIndexJob_eq_some.mp found
  refine rewrites_loaded found (.completed job ready rootID cloudRevision ?_)
  exact noManifest_deleteManifest db job.id

theorem markIndexJobFailed_jobs {failure : String} {diagnostic : IndexFailureDiagnostic}
    (marked : db.markIndexJobFailed now userID jobID failure diagnostic = some after)
    (listed : ∀ row, row.id = jobID → row.userID = userID → row.status = .running →
      after.NoManifest row.id →
        JobChange now clock db after transaction row (row.fail now failure diagnostic)) :
    Table.Rewrites (JobChange now clock db after transaction) db.indexJobs after.indexJobs := by
  obtain rfl := markIndexJobFailed_eq_some marked
  refine rewrites_running (fun _ hit => hit) fun row named owner running _ =>
    listed row named owner running ?_
  rw [named]
  exact noManifest_deleteManifest _ jobID

theorem sweepExpiredIndexJobs_jobs (locked : List String) (db : Database) :
    Table.Rewrites (JobChange now clock db (db.sweepExpiredIndexJobs now clock locked).2
        (.sweep locked)) db.indexJobs (db.sweepExpiredIndexJobs now clock locked).2.indexJobs := by
  refine Table.rewrites_update (.same _) fun row stored hit => ?_
  have swept := (Bool.and_eq_true_iff.mp hit).1
  refine .swept row locked swept fun file member same => ?_
  have missed := (Table.mem_delete.mp member).2
  rw [List.any_eq_false] at missed
  exact missed row (Table.mem_select.mpr ⟨stored, hit⟩) (by simp [same])

end Jobs

/-- A transaction rewrites the rows of `index_jobs`, deletes some, or inserts one. -/
theorem exec_jobs (db : Database) (now clock : Nat) (transaction : Transaction) :
    Table.Rewrites (JobChange now clock db (db.exec now clock transaction) transaction) db.indexJobs
      (db.exec now clock transaction).indexJobs ∨
    (∃ p, Removes transaction p ∧
      (db.exec now clock transaction).indexJobs = db.indexJobs.delete p ∧
      (db.exec now clock transaction).indexJobFiles = (db.deleteJobs p).indexJobFiles) ∨
    ∃ job files, Created now db (db.exec now clock transaction) transaction job files := by
  have client {p q : IndexJob → Bool} (row : IndexJob) (hit : (p row && q row) = true) :
      p row = true := (Bool.and_eq_true_iff.mp hit).1
  -- transactions that write other tables only are the last case
  cases transaction with
  | create userID req wait jobID =>
    rcases created_of_create db now clock userID req wait jobID with same | created
    · exact .inl (rewrites_of_same same.jobs)
    · exact .inr (.inr created)
  | inspect userID workspaceID => exact .inl (inspect_jobs workspaceID db)
  | failBegin userID jobID detail =>
    refine .inl (rewrites_running (fun _ hit => hit) ?_)
    rintro row rfl rfl running -
    exact .beginFailed row running detail
  | uploadHeartbeat userID jobID =>
    refine .inl (rewrites_settle fun after committed => ?_)
    rw [uploadHeartbeat_eq_ok committed]
    refine rewrites_running client ?_
    rintro row rfl rfl running hit
    exact .uploading row running (by simpa using (Bool.and_eq_true_iff.mp hit).2)
  | commitBatch => exact .inl (rewrites_settle fun _ committed => commitIndexBatch_jobs committed)
  | heartbeat userID jobID =>
    refine .inl (rewrites_running client ?_)
    rintro row rfl rfl running hit
    exact .beat row running (by simpa using (Bool.and_eq_true_iff.mp hit).2)
  | intent userID jobID =>
    refine .inl (rewrites_settle fun after committed => ?_)
    rw [publishIntent_eq_ok committed]
    refine rewrites_running (fun _ hit => hit) ?_
    rintro row rfl rfl running -
    exact .handedOver row running
  | accepted userID jobID =>
    refine .inl (rewrites_running (fun _ hit => hit) ?_)
    rintro row rfl rfl running -
    exact .accepted row running
  | recordRevision userID jobID cloudRevision =>
    refine .inl (rewrites_running (fun _ hit => hit) ?_)
    rintro row rfl rfl running -
    exact .recorded row running cloudRevision
  | complete => exact .inl (rewrites_settle fun _ committed => completeIndexJob_jobs committed)
  | failPublication userID jobID failure =>
    refine .inl ?_
    simp only [exec, finishFailedPublication]
    cases marked : db.markIndexJobFailed now userID jobID failure
        (classifyIndexFailure .failed failure) with
    | none => exact rewrites_of_same rfl
    | some after =>
      refine markIndexJobFailed_jobs marked ?_
      rintro row rfl rfl running emptied
      exact .publicationFailed row running failure emptied
  | touch userID jobID =>
    refine .inl (rewrites_running client ?_)
    rintro row rfl rfl running hit
    exact .touched row running (by simpa using (Bool.and_eq_true_iff.mp hit).2)
  | fail userID jobID report =>
    refine .inl ?_
    rcases exec_fail_cases db now clock userID jobID report with
      same | ⟨diagnostic, resolved, failed⟩
    · exact rewrites_of_same (by rw [same])
    · refine markIndexJobFailed_jobs failed ?_
      rintro row rfl rfl running emptied
      exact .failed row running report diagnostic resolved emptied
  | sweep locked => exact .inl (sweepExpiredIndexJobs_jobs locked db)
  | dismiss userID rootID hasPublishedIndex =>
    refine .inr (.inl ⟨_, .dismissed userID rootID hasPublishedIndex, ?_⟩)
    simp only [exec, dismissRootFailureState]
    split <;> exact ⟨rfl, rfl⟩
  | finishDeletion job cloudCount =>
    simp only [exec]
    rcases db.settle_eq (db.finishRootDeletion now job cloudCount) with same | committed
    · exact .inl (rewrites_of_same (by rw [same]))
    · refine .inr (.inl ⟨_, .deletion job cloudCount, ?_⟩)
      rw [(finishRootDeletion_eq_ok committed).2.1]
      exact ⟨rfl, rfl⟩
  | finishConfig job receipt =>
    simp only [exec]
    rcases db.settle_eq (db.finishPlatformConfigJob now job receipt) with same | committed
    · exact .inl (rewrites_of_same (by rw [same]))
    · rcases (finishPlatformConfigJob_eq_ok committed).2.2 with same | cleared
      · exact .inl (rewrites_of_same (by rw [same]))
      · refine .inr (.inl ⟨_, .platform job receipt, ?_⟩)
        rw [cleared]
        exact ⟨rfl, rfl⟩
  | clearUser userID => exact .inr (.inl ⟨_, .user userID, rfl, rfl⟩)
  | clearRoot userID rootID => exact .inr (.inl ⟨_, .root userID rootID, rfl, rfl⟩)
  | dropManifest => exact .inl (rewrites_of_same rfl)
  | _ => exact .inl (rewrites_of_same (exec_sameIndex db now clock rfl).jobs)

/-- Every row of `index_jobs` comes from an earlier one, or was created. -/
theorem mem_exec_jobs {transaction : Transaction} {row : IndexJob}
    (member : row ∈ (db.exec now clock transaction).indexJobs) :
    (∃ old ∈ db.indexJobs,
      JobChange now clock db (db.exec now clock transaction) transaction old row) ∨
    ∃ files, Created now db (db.exec now clock transaction) transaction row files := by
  rcases db.exec_jobs now clock transaction with rewritten | ⟨p, -, same, -⟩ |
    ⟨job, files, created⟩
  · exact .inl (rewritten.source row member)
  · rw [same] at member
    exact .inl ⟨row, (Table.mem_delete.mp member).1, .same _ _⟩
  · rcases created.mem_jobs.mp member with stored | rfl
    · exact .inl ⟨row, stored, .same _ _⟩
    · exact .inr ⟨files, created⟩

/-- Every manifest row comes from an earlier one, or was created with its job. -/
theorem exec_manifests (db : Database) (now clock : Nat) (transaction : Transaction) :
    Table.Traces (FileChange transaction) db.indexJobFiles
      (db.exec now clock transaction).indexJobFiles ∨
    ∃ job files, Created now db (db.exec now clock transaction) transaction job files := by
  have unchanged : Table.Traces (FileChange transaction) db.indexJobFiles db.indexJobFiles :=
    Table.Traces.refl (.same _)
  have kept (p : JobFile → Bool) : Table.Traces (FileChange transaction) db.indexJobFiles
      (db.indexJobFiles.delete p) := Table.traces_delete (.same _) p
  have settled {ε : Type} {result : Except ε Database} (committed : ∀ after, result = .ok after →
      Table.Traces (FileChange transaction) db.indexJobFiles after.indexJobFiles) :
      Table.Traces (FileChange transaction) db.indexJobFiles (db.settle result).indexJobFiles :=
    settle_cases (P := fun after => Table.Traces _ _ after.indexJobFiles) unchanged committed
  -- manifest rows are marked by one transaction; all others keep or delete them
  cases transaction with
  | create userID req wait jobID =>
    rcases created_of_create db now clock userID req wait jobID with same | created
    · have manifests := same.manifests
      dsimp only at manifests
      rw [manifests]
      exact .inl unchanged
    · exact .inr created
  | inspect userID workspaceID =>
    simp only [exec]
    rcases inspectActiveIndexJob_cases now clock userID workspaceID db with
      ⟨job, same⟩ | ⟨-, same⟩
    · rw [same]
      exact .inl unchanged
    · rw [same]
      exact .inl (kept _)
  | commitBatch userID jobID paths chunks fallback sentDeletions =>
    simp only [exec]
    refine .inl (settled fun after committed => ?_)
    obtain ⟨job, marked, -, -, all, rfl⟩ := commitIndexBatch_eq_ok committed
    change Table.Traces _ _ marked.indexJobFiles
    exact markAllIndexed_traces all
  | uploadHeartbeat userID jobID =>
    simp only [exec]
    refine .inl (settled fun after committed => ?_)
    rw [uploadHeartbeat_eq_ok committed]
    exact unchanged
  | intent userID jobID =>
    simp only [exec]
    refine .inl (settled fun after committed => ?_)
    rw [publishIntent_eq_ok committed]
    exact unchanged
  | complete userID jobID rootID cloudRevision =>
    simp only [exec]
    refine .inl (settled fun after committed => ?_)
    obtain ⟨job, files, workspaces, -, -, -, -, rfl⟩ := completeIndexJob_eq_ok committed
    exact kept _
  | failPublication userID jobID failure =>
    simp only [exec, finishFailedPublication]
    cases marked : db.markIndexJobFailed now userID jobID failure
        (classifyIndexFailure .failed failure) with
    | none => exact .inl unchanged
    | some after =>
      rw [Option.getD_some, markIndexJobFailed_eq_some marked]
      exact .inl (kept _)
  | fail userID jobID report =>
    rcases exec_fail_cases db now clock userID jobID report with same | ⟨_, _, failed⟩
    · rw [same]
      exact .inl unchanged
    · rw [markIndexJobFailed_eq_some failed]
      exact .inl (kept _)
  | dismiss userID rootID hasPublishedIndex =>
    simp only [exec, dismissRootFailureState]
    split <;> exact .inl (kept _)
  | finishDeletion job cloudCount =>
    simp only [exec]
    refine .inl (settled fun after committed => ?_)
    rw [(finishRootDeletion_eq_ok committed).2.1]
    exact kept _
  | finishConfig job receipt =>
    simp only [exec]
    refine .inl (settled fun after committed => ?_)
    rcases (finishPlatformConfigJob_eq_ok committed).2.2 with same | cleared
    · rw [same]
      exact unchanged
    · rw [cleared]
      exact kept _
  | dropManifest | sweep | clearUser | clearRoot => exact .inl (kept _)
  | failBegin | heartbeat | accepted | recordRevision | touch => exact .inl unchanged
  | _ =>
    rw [(exec_sameIndex db now clock rfl).manifests]
    exact .inl unchanged

end Database

/-! ### Consequences -/

/-- The columns that no transaction rewrites. -/
structure SameJob (old row : IndexJob) : Prop where
  id : row.id = old.id
  userID : row.userID = old.userID
  workspaceID : row.workspaceID = old.workspaceID
  rootID : row.rootID = old.rootID
  mode : row.mode = old.mode
  totalFiles : row.totalFiles = old.totalFiles
  deletedCount : row.deletedCount = old.deletedCount

namespace JobChange

variable {now clock : Nat} {db after : Database} {transaction : Transaction} {old row : IndexJob}

theorem sameJob (change : JobChange now clock db after transaction old row) : SameJob old row := by
  cases change <;> exact ⟨rfl, rfl, rfl, rfl, rfl, rfl, rfl⟩

/-- Every statement that writes a job asks for a running one. -/
theorem eq_of_terminal (change : JobChange now clock db after transaction old row)
    (closed : old.status ≠ .running) : row = old := by
  cases change with
  | same => rfl
  | completed _ ready => exact absurd (Database.completable_eq_ok ready).1 closed
  | swept _ _ expired =>
    simp only [IndexJob.expired, Bool.and_eq_true, beq_iff_eq] at expired
    exact absurd expired.1 closed
  | _ => exact absurd ‹old.status = .running› closed

/-- Only a committed batch moves the progress of a job. -/
theorem counters (change : JobChange now clock db after transaction old row) :
    (∃ userID paths chunks fallback sentDeletions,
      transaction = .commitBatch userID row.id paths chunks fallback sentDeletions) ∨
    (row.indexedFiles = old.indexedFiles ∧ row.deletionsSent = old.deletionsSent) := by
  cases change with
  | committed _ running paths chunks fallback sentDeletions =>
    exact .inl ⟨_, paths, chunks, fallback, sentDeletions, rfl⟩
  | _ => exact .inr ⟨rfl, rfl⟩

end JobChange

theorem FileChange.jobID {transaction : Transaction} {old file : JobFile}
    (change : FileChange transaction old file) : file.jobID = old.jobID := by
  cases change <;> rfl

/-- A job that has lost its manifest does not get another. -/
theorem Database.noManifest_exec {db : Database} {now clock : Nat} {transaction : Transaction}
    {job : IndexJob} (stored : job ∈ db.indexJobs) (emptied : db.NoManifest job.id) :
    (db.exec now clock transaction).NoManifest job.id := by
  intro file member
  rcases db.exec_manifests now clock transaction with traced | ⟨new, files, created⟩
  · obtain ⟨old, source, change⟩ := traced file member
    rw [change.jobID]
    exact emptied old source
  · rcases created.mem_manifest member with source | owner
    · exact emptied file source
    · rw [owner]
      exact (created.fresh stored).symm

/-! ### Identifiers -/

/-- The identifier of every stored job has been issued. -/
def World.JobsIssued (world : World) : Prop := ∀ job ∈ world.db.indexJobs, job.id ∈ world.issued

theorem World.mem_issue {world : World} {jobID : String} (old : jobID ∈ world.issued)
    (transaction : Transaction) : jobID ∈ world.issue transaction := by
  cases transaction with
  | create => exact List.mem_cons_of_mem _ old
  | _ => exact old

theorem World.mem_issued_step {world : World} {jobID : String} (old : jobID ∈ world.issued)
    (event : Event) : jobID ∈ (world.step event).issued := by
  cases event with
  | tick => exact old
  | commit waited transaction =>
    simp only [step]
    split
    · exact mem_issue old transaction
    · exact old

theorem World.JobsIssued.exec {world : World} (issued : world.JobsIssued) {now clock : Nat}
    {transaction : Transaction} {job : IndexJob}
    (member : job ∈ (world.db.exec now clock transaction).indexJobs) :
    job.id ∈ world.issue transaction := by
  rcases Database.mem_exec_jobs member with ⟨old, stored, change⟩ | ⟨files, created⟩
  · rw [change.sameJob.id]
    exact mem_issue (issued old stored) transaction
  · obtain ⟨_, _, _, _, _, rfl, -⟩ := created
    exact List.mem_cons_self

theorem World.JobsIssued.step {world : World} (issued : world.JobsIssued) (event : Event) :
    (world.step event).JobsIssued := by
  cases event with
  | tick => exact issued
  | commit waited transaction =>
    simp only [World.step]
    split
    · exact fun job member => issued.exec member
    · exact issued

/-- A new job has an identifier that was never issued before. -/
theorem World.not_issued_of_created {world : World} {now : Nat} {after : Database}
    {transaction : Transaction} {job : IndexJob} {files : List ManifestFile}
    (possible : world.admissible transaction = true)
    (created : Created now world.db after transaction job files) : job.id ∉ world.issued := by
  obtain ⟨_, _, _, _, _, rfl, -⟩ := created
  simpa [admissible] using possible

/-- What a job is made with and keeps, its issued identifier stands for. -/
theorem World.column_step {α : Type} {f : IndexJob → α}
    (kept : ∀ {old row : IndexJob}, SameJob old row → f row = f old) {world : World} {jobID : String}
    {value : α} (known : jobID ∈ world.issued)
    (stands : ∀ row ∈ world.db.indexJobs, row.id = jobID → f row = value) (event : Event) :
    ∀ row ∈ (world.step event).db.indexJobs, row.id = jobID → f row = value := by
  cases event with
  | tick => exact stands
  | commit waited transaction =>
    by_cases possible : world.admissible transaction = true
    · intro row member same
      simp only [World.step, possible, if_true] at member
      rcases Database.mem_exec_jobs member with ⟨old, stored, change⟩ | ⟨files, created⟩
      · rw [kept change.sameJob]
        exact stands old stored (change.sameJob.id.symm.trans same)
      · rw [← same] at known
        exact absurd known (World.not_issued_of_created possible created)
    · simpa [World.step, possible] using stands

end AcemcpRelay
