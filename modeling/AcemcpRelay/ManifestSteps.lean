import AcemcpRelay.JobSteps

/-!
# The manifest of a running job

Nothing but an upload writes into the manifest of a job that keeps running, and
an upload only turns pending rows into indexed ones. One statement is left over:
the `DELETE` after a failed `begin`, which names the job and does not look at it.
-/
namespace AcemcpRelay

open Store

namespace Database

/-- The manifest rows of a job. -/
def manifest (db : Database) (jobID : String) : List JobFile :=
  db.indexJobFiles.select (·.jobID == jobID)

/-- `index_job_files.job_id REFERENCES index_jobs(id) ON DELETE CASCADE`. -/
def ManifestsReferenced (db : Database) : Prop :=
  ∀ file ∈ db.indexJobFiles, ∃ job ∈ db.indexJobs, job.id = file.jobID

variable {db : Database} {now clock : Nat}

theorem mem_manifest {jobID : String} {file : JobFile} :
    file ∈ db.manifest jobID ↔ file ∈ db.indexJobFiles ∧ file.jobID = jobID := by
  simp [manifest]

/-- Deleting jobs takes along the manifests of those jobs only. -/
theorem manifest_deleteJobs {p : IndexJob → Bool} {row : IndexJob}
    (kept : row ∈ (db.deleteJobs p).indexJobs) :
    (db.deleteJobs p).manifest row.id = db.manifest row.id := by
  obtain ⟨stored, missed⟩ := Table.mem_delete.mp kept
  apply Table.select_delete
  intro file _ owner
  rw [Table.holds_eq_false]
  intro job member
  cases hit : p job with
  | false => rfl
  | true =>
    -- a deleted job with this identifier would be the kept one
    have different : job.id ≠ row.id := by
      intro same
      rw [Table.eq_of_key_eq member stored same, missed] at hit
      cases hit
    have owned : file.jobID = row.id := by simpa using owner
    simpa [owned] using different

theorem manifest_deleteManifest {jobID other : String} (different : other ≠ jobID) :
    (db.deleteManifest jobID).manifest other = db.manifest other := by
  apply Table.select_delete
  intro file _ owner
  have owned : file.jobID = other := by simpa using owner
  simpa [owned] using different

theorem manifest_markAllIndexed {after : Database} {jobID other : String} {paths : List String}
    (different : other ≠ jobID) (committed : db.markAllIndexed jobID paths = .ok after) :
    after.manifest other = db.manifest other := by
  induction paths generalizing db with
  | nil =>
    simp only [markAllIndexed, Except.ok.injEq] at committed
    rw [committed]
  | cons path rest ih =>
    simp only [markAllIndexed] at committed
    split at committed
    · simp at committed
    next marked first =>
      rw [ih committed]
      simp only [manifest, markIndexed_manifest first]
      apply Table.select_update
      intro file _ hit
      simp only [Bool.and_eq_true, beq_iff_eq] at hit
      have owner : file.jobID ≠ other := by
        rw [hit.1.1.1]
        exact different.symm
      simpa using owner

/-- A job that is running afterwards was not hit by an update that ends jobs. -/
theorem not_hit_of_running {p : IndexJob → Bool} {f : IndexJob → IndexJob} {row job : IndexJob}
    {keeps : ∀ job, (f job).id = job.id} (ends : ∀ job, (f job).status ≠ .running)
    (member : row ∈ db.indexJobs.update p f keeps) (running : row.status = .running)
    (stored : job ∈ db.indexJobs) (hit : p job = true) : row.id ≠ job.id := by
  intro same
  rcases Table.mem_update_cases member with ⟨source, missed⟩ | ⟨old, -, -, rfl⟩
  · rw [Table.eq_of_key_eq source stored same, hit] at missed
    cases missed
  · exact ends old running

theorem manifest_markIndexJobFailed {after : Database} {userID jobID failure : String}
    {diagnostic : IndexFailureDiagnostic} {row : IndexJob}
    (marked : db.markIndexJobFailed now userID jobID failure diagnostic = some after)
    (member : row ∈ after.indexJobs) (running : row.status = .running) :
    after.manifest row.id = db.manifest row.id := by
  obtain ⟨job, stored, hit⟩ := markIndexJobFailed_holds marked
  rw [markIndexJobFailed_eq_some marked] at member ⊢
  apply manifest_deleteManifest
  rw [← (IndexJob.runningAs_iff.mp hit).1]
  dsimp only [updateJobs, deleteManifest] at member
  exact not_hit_of_running (fun _ => by simp [IndexJob.fail, IndexJob.closed]) member
    running stored hit

/-- The manifests of jobs that an update has ended are deleted, and no others. -/
theorem manifest_deleteEnded {p : IndexJob → Bool} {f : IndexJob → IndexJob} {row : IndexJob}
    {keeps : ∀ job, (f job).id = job.id} {ended : List IndexJob}
    (ends : ∀ job, (f job).status ≠ .running)
    (hit : ∀ job ∈ ended, job ∈ db.indexJobs ∧ p job = true)
    (member : row ∈ db.indexJobs.update p f keeps) (running : row.status = .running) :
    (db.indexJobFiles.delete fun file => ended.any (·.id == file.jobID)).select (·.jobID == row.id) =
      db.manifest row.id := by
  refine Table.select_delete fun file _ owner => ?_
  rw [List.any_eq_false, beq_iff_eq.mp owner]
  intro job listed same
  obtain ⟨stored, hits⟩ := hit job listed
  exact not_hit_of_running ends member running stored hits (beq_iff_eq.mp same).symm

theorem manifest_inspectActiveIndexJob {userID workspaceID : String} {row : IndexJob}
    (member : row ∈ (db.inspectActiveIndexJob now clock userID workspaceID).2.indexJobs)
    (running : row.status = .running) :
    (db.inspectActiveIndexJob now clock userID workspaceID).2.manifest row.id =
      db.manifest row.id := by
  rcases inspectActiveIndexJob_cases now clock userID workspaceID db with ⟨job, same⟩ | ⟨-, same⟩
  · rw [same]
  · rw [same] at member ⊢
    dsimp only at member
    refine manifest_deleteEnded (fun _ => by simp [IndexJob.reclaim, IndexJob.closed])
      (fun job listed => ⟨(mem_runningJobs.mp listed).1, ?_⟩) member running
    exact List.any_eq_true.mpr ⟨job, listed, beq_self_eq_true job.id⟩

theorem manifest_sweepExpiredIndexJobs {locked : List String} {row : IndexJob}
    (member : row ∈ (db.sweepExpiredIndexJobs now clock locked).2.indexJobs)
    (running : row.status = .running) :
    (db.sweepExpiredIndexJobs now clock locked).2.manifest row.id = db.manifest row.id := by
  dsimp only [sweepExpiredIndexJobs] at member
  exact manifest_deleteEnded (fun _ => by simp [IndexJob.sweep, IndexJob.closed])
    (fun _ listed => Table.mem_select.mp listed) member running

theorem manifest_completeIndexJob {after : Database} {userID jobID rootID : String}
    {cloudRevision : Int} {row : IndexJob}
    (committed : db.completeIndexJob now userID jobID rootID cloudRevision = .ok after)
    (member : row ∈ after.indexJobs) (running : row.status = .running) :
    after.manifest row.id = db.manifest row.id := by
  obtain ⟨job, files, workspaces, found, -, -, -, rfl⟩ := completeIndexJob_eq_ok committed
  obtain ⟨source, named, -⟩ := loadIndexJob_eq_some.mp found
  apply manifest_deleteManifest
  rw [← named]
  dsimp only at member
  exact not_hit_of_running (fun _ => by simp [IndexJob.complete]) member running source
    (by simp [named])

/-- A job that was there before is not the one that a start inserts. -/
theorem manifest_created {after : Database} {transaction : Transaction} {job old : IndexJob}
    {files : List ManifestFile} (created : Created now db after transaction job files)
    (stored : old ∈ db.indexJobs) : after.manifest old.id = db.manifest old.id := by
  have fresh : old.id ≠ job.id := created.fresh stored
  obtain ⟨_, _, _, _, _, -, -, -, -, -, inserted⟩ := created
  obtain ⟨jobs, rows, -, copied, written⟩ := insertIndexJob_eq_ok inserted
  rw [manifest, written]
  refine Table.select_insert copied fun file added => ?_
  obtain ⟨source, -, rfl⟩ := List.mem_map.mp added
  simpa [manifestRow] using fresh.symm

/-- The ways in which the manifest of a job that runs on changes. -/
inductive ManifestChange (db after : Database) (jobID : String) : Transaction → Prop where
  | same (transaction : Transaction) (same : after.manifest jobID = db.manifest jobID) :
      ManifestChange db after jobID transaction
  | marked (userID : String) (paths : List String) (chunks : Int) (fallback sentDeletions : Bool)
      (marked : Database) (all : db.markAllIndexed jobID paths = .ok marked)
      (same : after.manifest jobID = marked.manifest jobID) :
      ManifestChange db after jobID
        (.commitBatch userID jobID paths chunks fallback sentDeletions)
  | dropped (emptied : after.manifest jobID = []) :
      ManifestChange db after jobID (.dropManifest jobID)

theorem exec_manifest {transaction : Transaction} {old row : IndexJob} (stored : old ∈ db.indexJobs)
    (same : old.id = row.id) (member : row ∈ (db.exec now clock transaction).indexJobs)
    (running : row.status = .running) :
    ManifestChange db (db.exec now clock transaction) row.id transaction := by
  have settled {ε : Type} {result : Except ε Database} (inside : row ∈ (db.settle result).indexJobs)
      (committed : ∀ after, result = .ok after → row ∈ after.indexJobs →
        ManifestChange db after row.id transaction) :
      ManifestChange db (db.settle result) row.id transaction := by
    rcases db.settle_eq result with same | success
    · rw [same]
      exact .same _ rfl
    · exact committed _ success inside
  -- the manifest of a job that runs on is kept by what ends or removes other jobs
  cases transaction with
  | create userID req wait jobID =>
    refine .same _ ?_
    rcases created_of_create db now clock userID req wait jobID with same | ⟨job, files, created⟩
    · have manifests := same.manifests
      dsimp only at manifests
      rw [manifest, manifests, manifest]
    · rw [← same]
      exact manifest_created created stored
  | inspect => exact .same _ (manifest_inspectActiveIndexJob member running)
  | commitBatch userID jobID paths chunks fallback sentDeletions =>
    refine settled member fun after committed _ => ?_
    obtain ⟨job, marked, -, -, all, rfl⟩ := commitIndexBatch_eq_ok committed
    by_cases mine : row.id = jobID
    · subst mine
      exact .marked _ _ _ _ _ marked all rfl
    · refine .same _ ?_
      change marked.manifest row.id = db.manifest row.id
      exact manifest_markAllIndexed mine all
  | complete =>
    exact settled member fun _ committed inside =>
      .same _ (manifest_completeIndexJob committed inside running)
  | failPublication userID jobID failure =>
    simp only [exec, finishFailedPublication] at member ⊢
    cases marked : db.markIndexJobFailed now userID jobID failure
        (classifyIndexFailure .failed failure) with
    | none => exact .same _ rfl
    | some after =>
      rw [marked, Option.getD_some] at member
      rw [Option.getD_some]
      exact .same _ (manifest_markIndexJobFailed marked member running)
  | fail userID jobID report =>
    rcases exec_fail_cases db now clock userID jobID report with same | ⟨_, _, failed⟩
    · rw [same]
      exact .same _ rfl
    · exact .same _ (manifest_markIndexJobFailed failed member running)
  | sweep => exact .same _ (manifest_sweepExpiredIndexJobs member running)
  | dismiss userID rootID hasPublishedIndex =>
    refine .same _ ?_
    simp only [exec, dismissRootFailureState] at member ⊢
    cases hasPublishedIndex with
    | true => exact manifest_deleteJobs member
    | false => exact manifest_deleteJobs member
  | finishDeletion job cloudCount =>
    refine settled member fun after committed inside => ?_
    rw [(finishRootDeletion_eq_ok committed).2.1] at inside ⊢
    exact .same _ (manifest_deleteJobs inside)
  | finishConfig job receipt =>
    refine settled member fun after committed inside => ?_
    rcases (finishPlatformConfigJob_eq_ok committed).2.2 with same | cleared
    · rw [same]
      exact .same _ rfl
    · rw [cleared] at inside ⊢
      exact .same _ (manifest_deleteJobs inside)
  | clearUser userID => exact .same _ (manifest_deleteJobs member)
  | clearRoot userID rootID => exact .same _ (manifest_deleteJobs member)
  | dropManifest jobID =>
    by_cases mine : row.id = jobID
    · subst mine
      exact .dropped (by simp [exec, manifest, deleteManifest, Table.select, Table.delete])
    · exact .same _ (manifest_deleteManifest mine)
  | uploadHeartbeat userID jobID =>
    refine settled member fun after committed _ => ?_
    rw [uploadHeartbeat_eq_ok committed]
    exact .same _ rfl
  | intent userID jobID =>
    refine settled member fun after committed _ => ?_
    rw [publishIntent_eq_ok committed]
    exact .same _ rfl
  | failBegin | heartbeat | accepted | recordRevision | touch => exact .same _ rfl
  | _ =>
    refine .same _ ?_
    rw [manifest, (exec_sameIndex db now clock rfl).manifests, manifest]

/-- How a job that runs on changes, as far as its progress is concerned. -/
inductive Progress (db after : Database) (old row : IndexJob) : Transaction → Prop where
  | kept (transaction : Transaction) (manifest : after.manifest row.id = db.manifest row.id)
      (indexedFiles : row.indexedFiles = old.indexedFiles)
      (deletionsSent : row.deletionsSent = old.deletionsSent) : Progress db after old row transaction
  | committed (userID : String) (paths : List String) (chunks : Int) (fallback sentDeletions : Bool)
      (marked : Database) (all : db.markAllIndexed row.id paths = .ok marked)
      (manifest : after.manifest row.id = marked.manifest row.id)
      (indexedFiles : row.indexedFiles = old.indexedFiles + paths.length)
      (deletionsSent : row.deletionsSent = (old.deletionsSent || sentDeletions)) :
      Progress db after old row (.commitBatch userID row.id paths chunks fallback sentDeletions)
  | dropped (emptied : after.manifest row.id = [])
      (indexedFiles : row.indexedFiles = old.indexedFiles)
      (deletionsSent : row.deletionsSent = old.deletionsSent) :
      Progress db after old row (.dropManifest row.id)

theorem progress_commitBatch {userID jobID : String} {paths : List String} {chunks : Int}
    {fallback sentDeletions : Bool} {old row : IndexJob} (stored : old ∈ db.indexJobs)
    (same : row.id = old.id)
    (member : row ∈ (db.exec now clock
      (.commitBatch userID jobID paths chunks fallback sentDeletions)).indexJobs) :
    Progress db (db.exec now clock (.commitBatch userID jobID paths chunks fallback sentDeletions))
      old row (.commitBatch userID jobID paths chunks fallback sentDeletions) := by
  simp only [exec] at member ⊢
  rcases db.settle_eq (db.commitIndexBatch now userID jobID paths chunks fallback sentDeletions) with
    rolledBack | committed
  · rw [rolledBack] at member ⊢
    obtain rfl := Table.eq_of_key_eq member stored same
    exact .kept _ rfl rfl rfl
  · obtain ⟨job, marked, -, -, all, written⟩ := commitIndexBatch_eq_ok committed
    rw [written] at member ⊢
    dsimp only [updateJobs] at member
    rw [(markAllIndexed_frame all).2.1] at member
    rcases Table.mem_update_cases member with ⟨source, missed⟩ | ⟨before, source, hit, rfl⟩
    · obtain rfl := Table.eq_of_key_eq source stored same
      refine .kept _ ?_ rfl rfl
      change marked.manifest row.id = db.manifest row.id
      exact manifest_markAllIndexed (by simpa using missed) all
    · obtain rfl := Table.eq_of_key_eq source stored same
      obtain rfl : before.id = jobID := by simpa using hit
      exact .committed _ _ _ _ _ marked all rfl rfl rfl

/-- A job that is running after a transaction was running before, or is new. -/
theorem exec_running {transaction : Transaction} {row : IndexJob}
    (member : row ∈ (db.exec now clock transaction).indexJobs) (running : row.status = .running) :
    (∃ old ∈ db.indexJobs, old.status = .running ∧ SameJob old row ∧
      Progress db (db.exec now clock transaction) old row transaction) ∨
    ∃ files, Created now db (db.exec now clock transaction) transaction row files := by
  refine (mem_exec_jobs member).imp_left ?_
  rintro ⟨old, stored, change⟩
  have before : old.status = .running := by
    by_contra closed
    rw [change.eq_of_terminal closed] at running
    exact closed running
  have same : SameJob old row := change.sameJob
  refine ⟨old, stored, before, same, ?_⟩
  have manifest := exec_manifest stored same.id.symm member running
  rcases change.counters with ⟨_, _, _, _, _, rfl⟩ | ⟨indexedFiles, deletionsSent⟩
  · exact progress_commitBatch stored same.id member
  · cases manifest with
    | same _ kept => exact .kept _ kept indexedFiles deletionsSent
    | marked => exact progress_commitBatch stored same.id member
    | dropped emptied => exact .dropped emptied indexedFiles deletionsSent

theorem ManifestsReferenced.exec {transaction : Transaction} (referenced : db.ManifestsReferenced) :
    (db.exec now clock transaction).ManifestsReferenced := by
  intro file member
  rcases db.exec_manifests now clock transaction with traced | ⟨job, files, created⟩
  · obtain ⟨old, source, change⟩ := traced file member
    obtain ⟨job, stored, owner⟩ := referenced old source
    rw [change.jobID, ← owner]
    rcases db.exec_jobs now clock transaction with rewritten | ⟨p, -, jobs, manifests⟩ |
      ⟨new, files, created⟩
    · obtain ⟨row, kept, changed⟩ := rewritten.target job stored
      exact ⟨row, kept, changed.sameJob.id⟩
    · -- the file is still there, so its job was not among the deleted ones
      rw [manifests] at member
      have kept := Table.holds_eq_false.mp (Table.mem_delete.mp member).2 job stored
      rw [change.jobID, ← owner, beq_self_eq_true, Bool.and_true] at kept
      rw [jobs]
      exact ⟨job, Table.mem_delete.mpr ⟨stored, kept⟩, rfl⟩
    · exact ⟨job, created.mem_jobs.mpr (.inl stored), rfl⟩
  · rcases created.mem_manifest member with source | owner
    · obtain ⟨old, stored, owner⟩ := referenced file source
      exact ⟨old, created.mem_jobs.mpr (.inl stored), owner⟩
    · exact ⟨job, created.mem_jobs.mpr (.inr rfl), owner.symm⟩

/-- A new job has the manifest it was inserted with. -/
theorem manifest_insertIndexJob {after : Database} {job : IndexJob} {files : List ManifestFile}
    {pending : List String} (referenced : db.ManifestsReferenced)
    (inserted : db.insertIndexJob job files pending = .ok after) :
    after.manifest job.id = files.map (manifestRow job.id pending) := by
  obtain ⟨jobs, rows, placed, copied, rfl⟩ := insertIndexJob_eq_ok inserted
  -- its identifier is new, so that no row is left over from another job
  have old : db.indexJobFiles.rows.filter (·.jobID == job.id) = [] := by
    refine List.filter_eq_nil_iff.mpr fun file source hit => ?_
    obtain ⟨owner, stored, same⟩ := referenced file source
    exact Table.key_fresh placed stored (List.mem_singleton_self job)
      (same.trans (by simpa using hit))
  have new : ∀ row ∈ files.map (manifestRow job.id pending), (row.jobID == job.id) = true := by
    intro row added
    obtain ⟨source, -, rfl⟩ := List.mem_map.mp added
    simp [manifestRow]
  simp only [Database.manifest, Table.select]
  rw [(Table.insert_eq_some.mp copied).2, List.filter_append, old, List.nil_append,
    List.filter_eq_self.mpr new]

/-- What a new job and its manifest look like, in terms of the snapshot they were
compared with. -/
structure Begins (db after : Database) (job : IndexJob) (files : List ManifestFile) : Prop where
  distinct : (files.map (·.path)).Nodup
  mode : job.mode = if db.workspaceExists job.userID job.workspaceID then .incremental else .full
  totalFiles : job.totalFiles =
    (diffManifest (db.loadIndexedSnapshot job.userID job.workspaceID) files).pending.length
  deletedCount : job.deletedCount =
    (diffManifest (db.loadIndexedSnapshot job.userID job.workspaceID) files).deleted.length
  indexedFiles : job.indexedFiles = 0
  deletionsSent : job.deletionsSent = false
  manifest : after.manifest job.id = files.map (manifestRow job.id
    (diffManifest (db.loadIndexedSnapshot job.userID job.workspaceID) files).pending)

theorem begins_of_created {transaction : Transaction} {after : Database} {job : IndexJob}
    {files : List ManifestFile} (referenced : db.ManifestsReferenced)
    (created : Created now db after transaction job files) : Begins db after job files := by
  obtain ⟨userID, req, wait, normalized, diff, -, accepted, grafted, rfl, same, inserted⟩ := created
  have distinct : (files.map (·.path)).Nodup := graftUnreadablePaths_nodup grafted
    (normalizeManifest_nodup (normalizeStartRequest_eq_ok accepted).1)
  have user : job.userID = userID := by rw [same]; rfl
  have workspace : job.workspaceID = normalized.workspaceID := by rw [same]; rfl
  refine ⟨distinct, ?_, ?_, ?_, ?_, ?_, ?_⟩
  · rw [user, workspace, same]; rfl
  · rw [user, workspace, same]; rfl
  · rw [user, workspace, same]; rfl
  · rw [same]; rfl
  · rw [same]; rfl
  · rw [user, workspace]
    exact manifest_insertIndexJob referenced inserted

/-! ### Counting marked rows -/

theorem countP_manifest_markIndexed {after : Database} {jobID path : String}
    (committed : db.markIndexed jobID path = .ok after) :
    (after.manifest jobID).countP (·.indexed) = (db.manifest jobID).countP (·.indexed) + 1 ∧
      (after.manifest jobID).countP (·.needsIndex) = (db.manifest jobID).countP (·.needsIndex) := by
  obtain ⟨file, stored, owner, named, needed, unmarked⟩ := markIndexed_ok_iff.mp ⟨after, committed⟩
  simp only [manifest, ← Table.count_and, markIndexed_manifest committed]
  constructor
  · rw [Table.count_update_hits]
    · congr 1
      apply Table.count_eq_one stored
      · simp [owner, named, needed, unmarked]
      · intro other _ hit
        simp only [Bool.and_eq_true, beq_iff_eq] at hit
        simp only [JobFile.key, hit.1.1.1, hit.1.1.2, owner, named]
    · intro other _ hit
      simp only [Bool.and_eq_true, beq_iff_eq, Bool.not_eq_true'] at hit
      simp [hit]
  · apply Table.count_update
    intro other _ hit
    rfl

/-- A batch adds its files to the marked ones and leaves the needed ones alone. -/
theorem countP_manifest_markAllIndexed {after : Database} {jobID : String} {paths : List String}
    (committed : db.markAllIndexed jobID paths = .ok after) :
    (after.manifest jobID).countP (·.indexed) =
        (db.manifest jobID).countP (·.indexed) + paths.length ∧
      (after.manifest jobID).countP (·.needsIndex) = (db.manifest jobID).countP (·.needsIndex) := by
  induction paths generalizing db with
  | nil =>
    simp only [markAllIndexed, Except.ok.injEq] at committed
    simp [committed]
  | cons path rest ih =>
    simp only [markAllIndexed] at committed
    split at committed
    · simp at committed
    next marked first =>
      obtain ⟨indexed, needed⟩ := countP_manifest_markIndexed first
      obtain ⟨later, kept⟩ := ih committed
      rw [later, indexed, kept, needed, List.length_cons]
      exact ⟨by omega, rfl⟩

end Database

end AcemcpRelay
