import AcemcpRelay.Properties.FullJobs
import AcemcpRelay.Properties.Lifecycle

/-!
# Synchronization converges

A start creates a job, the job completes, and nothing else touches the workspace. Then a
start with the same manifest and the same unreadable paths, in any order, finds nothing to
do: it answers unchanged before it would ask the rate limiter, and sends no request.

## Proof strategy

The manifest of the job is what the snapshot becomes: uploads only mark its rows, and the
completion copies them. Grafting and comparing the same entries against that snapshot
gives it back. The rest of the argument follows the job from its insertion to its end
(`Stage`), together with the start that inserted it: as long as that start has not gone
into the branch that takes the job back, the manifest is whole.
-/
namespace AcemcpRelay

open Store Database

/-- The entry of the manifest that a row stands for. -/
def JobFile.entry (file : JobFile) : ManifestFile :=
  { path := file.path, hash := file.hash, size := file.size
    estimatedChunks := file.estimatedChunks }

/-- The workspace is published with these files on this root, and no job of it is running. -/
structure Synchronized (tenant workspaceID rootID : String) (files : List ManifestFile)
    (db : Database) : Prop where
  workspace : ∃ row, db.indexWorkspaces.lookup (tenant, workspaceID) = some row ∧ row.rootID = rootID
  snapshot : db.loadIndexedSnapshot tenant workspaceID = files
  idle : Idle db tenant workspaceID

/-- The same manifest for the same workspace and root, its entries in any order. -/
structure StartRequest.Repeats (again req : StartRequest) : Prop where
  protocolVersion : again.protocolVersion = req.protocolVersion
  workspaceID : again.workspaceID = req.workspaceID
  rootID : again.rootID = req.rootID
  files : again.files.Perm req.files
  unreadableFiles : again.unreadableFiles.Perm req.unreadableFiles

/-! ### The repeated start -/

/-- A repeated request is accepted, and says the same when normalized. -/
theorem normalizeStartRequest_repeats {req normalized again : StartRequest}
    (repeats : again.Repeats req) (accepted : normalizeStartRequest req = .ok normalized) :
    ∃ normalizedAgain, normalizeStartRequest again = .ok normalizedAgain ∧
      normalizedAgain.Repeats normalized := by
  obtain ⟨kept, manifest, sameFiles⟩ :=
    normalizeManifest_perm repeats.files (normalizeStartRequest_eq_ok accepted).1
  unfold normalizeStartRequest at accepted ⊢
  simp only [repeats.protocolVersion, repeats.workspaceID, repeats.rootID, manifest] at accepted ⊢
  -- the checks read nothing but the fields that are repeated
  split at accepted
  · cases accepted
  next supported =>
    split at accepted
    · cases accepted
    next workspace =>
      split at accepted
      · cases accepted
      next root =>
        split at accepted
        · cases accepted
        next short =>
          rw [if_neg supported, if_neg workspace, if_neg root, if_neg short]
          split at accepted
          · cases accepted
          next files normalizes =>
            cases accepted
            exact ⟨_, rfl, ⟨rfl, rfl, rfl, sameFiles, repeats.unreadableFiles⟩⟩

section Again

variable {tenant : String} {db : Database} {files : List ManifestFile}
  {normalized normalizedAgain : StartRequest}

/-- The inspection finds no job, and writes nothing. -/
theorem Idle.inspect {workspaceID : String} (idle : Idle db tenant workspaceID) (now clock : Nat) :
    db.inspectActiveIndexJob now clock tenant workspaceID = (.reclaimed [], db) := by
  have none : db.runningJobs tenant workspaceID = [] := by
    refine List.eq_nil_iff_forall_not_mem.mpr fun job listed => ?_
    obtain ⟨stored, owner, same, running⟩ := mem_runningJobs.mp listed
    exact idle job stored running owner same
  rcases inspectActiveIndexJob_cases now clock tenant workspaceID db with ⟨job, found⟩ | ⟨-, found⟩
  · simp only [inspectActiveIndexJob, none, List.find?_nil] at found
    cases found
  · rw [found, none]
    simp only [List.any_nil]
    rw [Table.update_eq_self fun _ _ => rfl, Table.delete_eq_self fun _ _ => rfl]

theorem Synchronized.movedFrom_eq_none
    (synchronized : Synchronized tenant normalized.workspaceID normalized.rootID files db)
    (repeats : normalizedAgain.Repeats normalized) : db.movedFrom tenant normalizedAgain = none := by
  obtain ⟨row, found, bound⟩ := synchronized.workspace
  simp only [Database.movedFrom, loadIndexedWorkspaceRoot, repeats.workspaceID, repeats.rootID, found,
    Option.map_some, bound, normalizeIndexRootID, trimSpace_trimSpace, bne_self_eq_false,
    Option.filter_some]
  rfl

/-- The creating transaction finds the workspace unchanged, whatever the rate limiter
would say. -/
theorem Synchronized.createIndexJob_eq {previous : List ManifestFile}
    (synchronized : Synchronized tenant normalized.workspaceID normalized.rootID files db)
    (repeats : normalizedAgain.Repeats normalized) (single : (previous.map (·.path)).Nodup)
    (distinct : (normalized.files.map (·.path)).Nodup)
    (grafted : graftUnreadablePaths previous normalized.files normalized.unreadableFiles = .ok files)
    (now wait : Nat) (jobID : String) :
    ∃ after, db.createIndexJob now tenant normalizedAgain wait jobID = .ok (.unchanged, after) := by
  obtain ⟨result, graftedAgain, same⟩ := graftUnreadablePaths_again single distinct grafted
    (.refl files) repeats.files repeats.unreadableFiles
  have nothing := diffManifest_of_perm (graftUnreadablePaths_nodup grafted distinct) same
  obtain ⟨row, found, -⟩ := synchronized.workspace
  have present : db.workspaceExists tenant normalizedAgain.workspaceID = true := by
    rw [workspaceExists, repeats.workspaceID, found]
    rfl
  have snapshot : db.loadIndexedSnapshot tenant normalizedAgain.workspaceID = files := by
    rw [repeats.workspaceID, synchronized.snapshot]
  unfold createIndexJob
  simp only [snapshot, present, graftedAgain, nothing, and_self, if_true]
  exact ⟨_, rfl⟩

end Again

/-! ### From the insertion of a job to its end -/

/-- The jobs of a workspace. -/
def Database.jobsOf (tenant workspaceID : String) (db : Database) : List IndexJob :=
  db.indexJobs.select fun job => job.userID == tenant && job.workspaceID == workspaceID

/-- The rows of the workspace are as they were. -/
structure SameWorkspace (tenant workspaceID : String) (db after : Database) : Prop where
  workspace : after.indexWorkspaces.lookup (tenant, workspaceID) =
    db.indexWorkspaces.lookup (tenant, workspaceID)
  snapshot : after.loadIndexedSnapshot tenant workspaceID =
    db.loadIndexedSnapshot tenant workspaceID
  jobs : after.jobsOf tenant workspaceID = db.jobsOf tenant workspaceID
  manifests : ∀ job ∈ db.jobsOf tenant workspaceID, after.manifest job.id = db.manifest job.id

instance (tenant workspaceID : String) (db after : Database) :
    Decidable (SameWorkspace tenant workspaceID db after) :=
  decidable_of_iff (after.indexWorkspaces.lookup (tenant, workspaceID) =
        db.indexWorkspaces.lookup (tenant, workspaceID) ∧
      after.loadIndexedSnapshot tenant workspaceID = db.loadIndexedSnapshot tenant workspaceID ∧
      after.jobsOf tenant workspaceID = db.jobsOf tenant workspaceID ∧
      ∀ job ∈ db.jobsOf tenant workspaceID, after.manifest job.id = db.manifest job.id)
    ⟨fun ⟨workspace, snapshot, jobs, manifests⟩ => ⟨workspace, snapshot, jobs, manifests⟩,
      fun same => ⟨same.workspace, same.snapshot, same.jobs, same.manifests⟩⟩

/-- The transactions that uploads, heartbeats, completions, reconciliations and reported
failures run for a job. -/
inductive Serves (tenant jobID rootID : String) : Transaction → Prop where
  | uploadHeartbeat : Serves tenant jobID rootID (.uploadHeartbeat tenant jobID)
  | commitBatch (paths : List String) (chunks : Int) (fallback sentDeletions : Bool) :
      Serves tenant jobID rootID (.commitBatch tenant jobID paths chunks fallback sentDeletions)
  | heartbeat : Serves tenant jobID rootID (.heartbeat tenant jobID)
  | intent : Serves tenant jobID rootID (.intent tenant jobID)
  | accepted : Serves tenant jobID rootID (.accepted tenant jobID)
  | recordRevision (revision : Int) :
      Serves tenant jobID rootID (.recordRevision tenant jobID revision)
  | complete (revision : Int) : Serves tenant jobID rootID (.complete tenant jobID rootID revision)
  | failPublication (failure : String) :
      Serves tenant jobID rootID (.failPublication tenant jobID failure)
  | touch : Serves tenant jobID rootID (.touch tenant jobID)
  | fail (report : FailureReport) : Serves tenant jobID rootID (.fail tenant jobID report)

/-- How far a job has come, since its start inserted it with a manifest of these files. -/
inductive Stage (job : IndexJob) (files : List ManifestFile) (db : Database) : Prop where
  | uploading (row : IndexJob) (stored : row ∈ db.indexJobs) (same : SameJob job row)
      (running : row.status = .running) (manifest : (db.manifest job.id).map JobFile.entry = files)
      (alone : ∀ other ∈ db.indexJobs, other.status = .running → other.userID = job.userID →
        other.workspaceID = job.workspaceID → other.id = job.id)
  | published (row : IndexJob) (stored : row ∈ db.indexJobs) (same : SameJob job row)
      (completed : row.status = .completed)
      (synchronized : Synchronized job.userID job.workspaceID job.rootID files db)
  | closed (ended : ∀ row ∈ db.indexJobs, row.id = job.id →
      row.status ≠ .running ∧ row.status ≠ .completed)

section Stages

variable {job : IndexJob} {files : List ManifestFile} {db after : Database} {now clock : Nat}
  {transaction : Transaction}

theorem Database.mem_jobsOf {tenant workspaceID : String} :
    job ∈ db.jobsOf tenant workspaceID ↔
      job ∈ db.indexJobs ∧ job.userID = tenant ∧ job.workspaceID = workspaceID := by
  simp [jobsOf]

/-- Uploads do not change what the manifest says. -/
theorem map_entry_markAllIndexed {jobID : String} {paths : List String}
    (committed : db.markAllIndexed jobID paths = .ok after) :
    (after.manifest jobID).map JobFile.entry = (db.manifest jobID).map JobFile.entry := by
  induction paths generalizing db with
  | nil =>
    simp only [markAllIndexed, Except.ok.injEq] at committed
    rw [committed]
  | cons path rest ih =>
    simp only [markAllIndexed] at committed
    split at committed
    · cases committed
    next marked first =>
      rw [ih committed, Database.manifest, markIndexed_manifest first]
      apply Table.map_select_update
      intro file _ _
      exact ⟨rfl, rfl⟩

theorem Serves.not_created {tenant jobID rootID : String} (serves : Serves tenant jobID rootID transaction)
    (row : IndexJob) (files : List ManifestFile) : ¬ Created now db after transaction row files := by
  rintro ⟨_, _, _, _, _, rfl, -⟩
  cases serves

theorem Serves.of_complete {tenant jobID rootID userID id root : String} {revision : Int}
    (serves : Serves tenant jobID rootID (.complete userID id root revision)) :
    userID = tenant ∧ id = jobID ∧ root = rootID := by
  cases serves
  exact ⟨rfl, rfl, rfl⟩

/-- The completion copies the manifest. -/
theorem synchronized_of_complete {revision : Int} {row : IndexJob} (stored : row ∈ db.indexJobs)
    (same : SameJob job row) (manifest : (db.manifest job.id).map JobFile.entry = files)
    (alone : ∀ other ∈ db.indexJobs, other.status = .running → other.userID = job.userID →
      other.workspaceID = job.workspaceID → other.id = job.id)
    (committed : db.completeIndexJob now job.userID job.id job.rootID revision = .ok after) :
    Synchronized job.userID job.workspaceID job.rootID files after := by
  obtain ⟨found, rows, workspaces, loaded, -, copied, written, rfl⟩ := completeIndexJob_eq_ok committed
  obtain ⟨present, named, -⟩ := loadIndexJob_eq_some.mp loaded
  obtain rfl : row = found := Table.eq_of_key_eq stored present (same.id.trans named.symm)
  refine ⟨⟨workspaceRow now row job.rootID revision, ?_, rfl⟩, ?_, ?_⟩
  · refine Table.lookup_eq_some.mpr ⟨(Table.mem_insert written).mpr (.inr (by simp)), ?_⟩
    simp [workspaceRow, IndexWorkspace.key, same.userID, same.workspaceID]
  · -- the old rows of the workspace are gone, the new ones are all of the workspace
    have old : (db.indexedFiles.delete fun file =>
        file.userID == job.userID && file.workspaceID == row.workspaceID).rows.filter (fun file =>
          file.userID == job.userID && file.workspaceID == job.workspaceID) = [] := by
      refine List.filter_eq_nil_iff.mpr fun file kept hit => ?_
      have missed := (Table.mem_delete.mp kept).2
      rw [same.workspaceID, hit] at missed
      cases missed
    have new : (db.snapshotRows row).filter (fun file =>
        file.userID == job.userID && file.workspaceID == job.workspaceID) = db.snapshotRows row := by
      refine List.filter_eq_self.mpr fun file added => ?_
      obtain ⟨source, -, rfl⟩ := List.mem_map.mp added
      simp [same.userID, same.workspaceID]
    rw [loadIndexedSnapshot, Table.select, (Table.insert_eq_some.mp copied).2, List.filter_append,
      old, new, List.nil_append, snapshotRows, List.map_map, same.id, ← manifest]
    rfl
  · intro other member running owner workspace
    dsimp only at member
    rcases Table.mem_update_cases member with ⟨source, missed⟩ | ⟨old, -, -, rfl⟩
    · have mine := alone other source running owner workspace
      simp [mine] at missed
    · cases running

theorem Synchronized.of_sameWorkspace {tenant workspaceID rootID : String}
    (synchronized : Synchronized tenant workspaceID rootID files db)
    (same : SameWorkspace tenant workspaceID db after) :
    Synchronized tenant workspaceID rootID files after := by
  refine ⟨?_, ?_, fun row member running owner workspace => ?_⟩
  · rw [same.workspace]
    exact synchronized.workspace
  · rw [same.snapshot]
    exact synchronized.snapshot
  · have listed : row ∈ after.jobsOf tenant workspaceID := mem_jobsOf.mpr ⟨member, owner, workspace⟩
    rw [same.jobs] at listed
    exact synchronized.idle row (mem_jobsOf.mp listed).1 running owner workspace

/-- A transaction for a job that has ended does nothing to the workspace. -/
theorem Synchronized.serves {row : IndexJob} (stored : row ∈ db.indexJobs) (same : SameJob job row)
    (completed : row.status = .completed)
    (synchronized : Synchronized job.userID job.workspaceID job.rootID files db)
    (serves : Serves job.userID job.id job.rootID transaction) :
    Synchronized job.userID job.workspaceID job.rootID files (db.exec now clock transaction) := by
  have idle : Idle (db.exec now clock transaction) job.userID job.workspaceID :=
    synchronized.idle.exec fun row files => serves.not_created row files
  cases db.exec_snapshots now clock transaction with
  | same _ rows workspaces =>
    refine ⟨?_, ?_, idle⟩
    · rw [workspaces]
      exact synchronized.workspace
    · rw [loadIndexedSnapshot, rows]
      exact synchronized.snapshot
  | published userID jobID rootID revision found loaded ready =>
    -- only a running job is completed
    cases serves
    obtain ⟨present, named, -⟩ := loadIndexJob_eq_some.mp loaded
    obtain rfl : found = row := Table.eq_of_key_eq present stored (named.trans same.id.symm)
    have running := (completable_eq_ok ready).1
    rw [completed] at running
    cases running
  | clearedRoot _ _ _ by_root =>
    rcases by_root with rfl | ⟨_, _, rfl, -⟩ <;> cases serves
  | _ => cases serves

namespace Stage

/-- What leaves the rows of the workspace alone leaves the stage alone. -/
theorem of_sameWorkspace (stage : Stage job files db)
    (same : SameWorkspace job.userID job.workspaceID db after)
    (closes : (∀ row ∈ db.indexJobs, row.id = job.id → row.status ≠ .running ∧ row.status ≠ .completed) →
      ∀ row ∈ after.indexJobs, row.id = job.id → row.status ≠ .running ∧ row.status ≠ .completed) :
    Stage job files after := by
  have traced {row : IndexJob} : row ∈ after.jobsOf job.userID job.workspaceID ↔
      row ∈ db.jobsOf job.userID job.workspaceID := by rw [same.jobs]
  have kept {row : IndexJob} (stored : row ∈ db.indexJobs) (own : SameJob job row) :
      row ∈ db.jobsOf job.userID job.workspaceID ∧ row ∈ after.indexJobs := by
    have listed := mem_jobsOf.mpr ⟨stored, own.userID, own.workspaceID⟩
    exact ⟨listed, (mem_jobsOf.mp (traced.mpr listed)).1⟩
  cases stage with
  | uploading row stored own running manifest alone =>
    obtain ⟨listed, member⟩ := kept stored own
    refine .uploading row member own running ?_ fun other present busy owner workspace => ?_
    · rw [← own.id, same.manifests row listed, own.id, manifest]
    · have old := traced.mp (mem_jobsOf.mpr ⟨present, owner, workspace⟩)
      exact alone other (mem_jobsOf.mp old).1 busy owner workspace
  | published row stored own completed synchronized =>
    exact .published row (kept stored own).2 own completed (synchronized.of_sameWorkspace same)
  | closed ended => exact .closed (closes ended)

/-- A job that runs on keeps its manifest and stays the only one of its workspace. -/
theorem runs_on {row next : IndexJob} (same : SameJob job row)
    (manifest : (db.manifest job.id).map JobFile.entry = files)
    (alone : ∀ other ∈ db.indexJobs, other.status = .running → other.userID = job.userID →
      other.workspaceID = job.workspaceID → other.id = job.id)
    (serves : Serves job.userID job.id job.rootID transaction)
    (member : next ∈ (db.exec now clock transaction).indexJobs) (kept : SameJob row next)
    (running : next.status = .running) : Stage job files (db.exec now clock transaction) := by
  have own : SameJob job next :=
    ⟨kept.id.trans same.id, kept.userID.trans same.userID, kept.workspaceID.trans same.workspaceID,
      kept.rootID.trans same.rootID, kept.mode.trans same.mode, kept.totalFiles.trans same.totalFiles,
      kept.deletedCount.trans same.deletedCount⟩
  refine .uploading next member own running ?_ fun other present busy owner workspace => ?_
  · rcases exec_running member running with ⟨old, -, -, -, progress⟩ | ⟨_, created⟩
    · rw [← own.id] at manifest ⊢
      cases progress with
      | kept _ unchanged => rw [unchanged, manifest]
      | committed _ _ _ _ _ marked all unchanged =>
        rw [unchanged, map_entry_markAllIndexed all, manifest]
      | dropped => cases serves
    · exact absurd created (serves.not_created _ _)
  · rcases exec_running present busy with ⟨old, source, before, rest, -⟩ | ⟨_, created⟩
    · rw [rest.id]
      exact alone old source before (rest.userID.symm.trans owner)
        (rest.workspaceID.symm.trans workspace)
    · exact absurd created (serves.not_created _ _)

theorem serves (stage : Stage job files db)
    (serves : Serves job.userID job.id job.rootID transaction) :
    Stage job files (db.exec now clock transaction) := by
  have only {row : IndexJob} (member : row ∈ (db.exec now clock transaction).indexJobs) :
      ∃ old ∈ db.indexJobs, JobChange now clock db (db.exec now clock transaction) transaction old row :=
    (mem_exec_jobs member).resolve_right fun ⟨_, created⟩ => serves.not_created _ _ created
  have target : Table.Rewrites (JobChange now clock db (db.exec now clock transaction) transaction)
      db.indexJobs (db.exec now clock transaction).indexJobs := by
    rcases db.exec_jobs now clock transaction with rewritten | ⟨p, removes, -⟩ | ⟨_, _, created⟩
    · exact rewritten
    · cases removes <;> cases serves
    · exact absurd created (serves.not_created _ _)
  cases stage with
  | uploading row stored same running manifest alone =>
    obtain ⟨next, member, change⟩ := target.target row stored
    by_cases still : next.status = .running
    · exact runs_on same manifest alone serves member change.sameJob still
    -- the job ends in this transaction, completed or not
    have closes (ends : next.status = .failed) : Stage job files (db.exec now clock transaction) := by
      refine .closed fun other present named => ?_
      have mine : next.id = job.id := change.sameJob.id.trans same.id
      rw [Table.eq_of_key_eq present member (named.trans mine.symm), ends]
      exact ⟨by decide, by decide⟩
    cases change with
    | completed _ ready rootID revision =>
      obtain ⟨sameUser, sameID, rfl⟩ := serves.of_complete
      rw [sameUser, sameID] at member ⊢
      have own : SameJob job (row.complete now revision) :=
        ⟨same.id, same.userID, same.workspaceID, same.rootID, same.mode, same.totalFiles,
          same.deletedCount⟩
      refine .published _ member own rfl ?_
      rcases db.settle_eq (db.completeIndexJob now job.userID job.id job.rootID revision) with
        rolledBack | committed
      · rw [exec, rolledBack] at member
        rw [← Table.eq_of_key_eq member stored rfl] at running
        cases running
      · exact synchronized_of_complete stored same manifest alone committed
    | publicationFailed | failed => exact closes rfl
    | reclaimed | beginFailed | swept => cases serves
    | same => exact absurd running still
    | _ => exact absurd ‹row.status = .running› still
  | published row stored same completed synchronized =>
    obtain ⟨next, member, change⟩ := target.target row stored
    obtain rfl := change.eq_of_terminal (by rw [completed]; decide)
    exact .published next member same completed (synchronized.serves stored same completed serves)
  | closed ended =>
    refine .closed fun row member named => ?_
    obtain ⟨old, stored, change⟩ := only member
    have before := ended old stored (change.sameJob.id.symm.trans named)
    rw [change.eq_of_terminal before.1]
    exact before

end Stage

end Stages

/-! ### Calls on a job -/

/-- The job that an upload, a completion, a reconciliation or a reported failure works on. -/
def Point.jobID? : Point → Option String
  | .prepare req => some req.jobID
  | .beat _ batch | .stage _ batch | .commit batch => some batch.job.id
  | .check jobID _ | .intend jobID _ _ _ | .publish jobID _ | .accepted jobID | .rejected jobID _
  | .record jobID _ _ | .finish jobID _ _ | .revalidate jobID _ | .status jobID _ | .cancel jobID
  | .load jobID _ | .markFailed jobID _ | .abortFailed jobID => some jobID
  | _ => none

/-- The root that a completion has read from its job. -/
def Point.readRoot : Point → Option (String × String)
  | .intend jobID rootID _ _ | .publish jobID rootID | .record jobID rootID _
  | .finish jobID rootID _ => some (jobID, rootID)
  | _ => none

section Advance

variable {sha256 : String → String} {answer : Answer} {tenant jobID rootID : String} {clock : Nat}
  {db : Database} {cloud : Cloud} {point next : Point} {transaction : Transaction}

theorem advance_serves (works : point.jobID? = some jobID)
    (root : ∀ read, point.readRoot = some (jobID, read) → read = rootID)
    (runs : (point.advance sha256 answer tenant clock db cloud).transaction = some transaction) :
    Serves tenant jobID rootID transaction := by
  cases point with
  | finish _ read =>
    cases works
    cases runs
    rw [root read rfl]
    exact .complete _
  | record =>
    cases works
    simp only [Point.advance] at runs
    split at runs
    · cases runs
    · cases runs
      exact .recordRevision _
  | prepare | check =>
    simp only [Point.advance] at runs
    repeat' split at runs
    all_goals cases runs
  | beat | commit | intend | accepted | rejected | markFailed =>
    cases works
    cases runs
    constructor
  | stage | publish | revalidate | status | cancel | load | abortFailed => cases runs
  | _ => cases works

/-- A completion keeps the root that it read from the row of its job. -/
theorem advance_readRoot (moves : (point.advance sha256 answer tenant clock db cloud).next = some next)
    (read : next.readRoot = some (jobID, rootID)) :
    point.readRoot = some (jobID, rootID) ∨
      ∃ row ∈ db.indexJobs, row.id = jobID ∧ row.rootID = rootID := by
  cases point with
  | check =>
    simp only [Point.advance] at moves
    split at moves
    · cases moves
    · cases moves
    next found =>
      cases moves
      cases read
      unfold checkCompletable at found
      split at found
      · cases found
      next job loaded =>
        obtain ⟨stored, named, -⟩ := loadIndexJob_eq_some.mp loaded
        split at found
        · cases found
        · split at found
          · cases found
          · cases found
            exact .inr ⟨job, stored, named, rfl⟩
  | _ =>
    simp only [Point.advance, afterIntent, afterPublish, afterStatus, afterCancel] at moves
    repeat' split at moves
    all_goals cases moves
    all_goals first
      | exact .inl read
      | cases read

end Advance

/-- The root that a completion has read is still the root of its job. -/
structure RootsRead (system : System) : Prop where
  issued : system.world.JobsIssued
  roots : ∀ call ∈ system.calls, ∀ jobID rootID, call.point.readRoot = some (jobID, rootID) →
    jobID ∈ system.world.issued ∧
      ∀ row ∈ system.world.db.indexJobs, row.id = jobID → row.rootID = rootID

namespace RootsRead

variable {sha256 : String → String} {system after : System} {event : SystemEvent}

theorem initial : RootsRead System.initial where
  issued job member := absurd member (Table.not_mem_empty job)
  roots call member := absurd member (Table.not_mem_empty call)

/-- The root of a call was read earlier, or is read in this step. -/
theorem source (stepped : Stepped sha256 system event after) {call : Call} (inFlight : call ∈ after.calls)
    {jobID rootID : String} (read : call.point.readRoot = some (jobID, rootID)) :
    (∃ old ∈ system.calls, old.point.readRoot = some (jobID, rootID)) ∨
      ∃ row ∈ system.world.db.indexJobs, row.id = jobID ∧ row.rootID = rootID := by
  cases stepped with
  | idle | other | landed | lost | aborted => exact .inl ⟨call, inFlight, read⟩
  | entered waited token tenant spelling operation point admitted =>
    rcases System.mem_begin inFlight with old | rfl
    · exact .inl ⟨call, old, read⟩
    · cases Operation.enters admitted <;> cases read
  | advanced acting acts answer effect next =>
    rcases System.mem_moveOn inFlight with ⟨old, -⟩ | ⟨old, stored, same, point, moves, rfl⟩
    · exact .inl ⟨call, old, read⟩
    · obtain rfl := Table.eq_of_key_eq stored acts same
      rw [next] at moves
      exact (advance_readRoot moves read).imp_left fun known => ⟨old, stored, known⟩

theorem step (discipline : RootsRead system) (stepped : Stepped sha256 system event after) :
    RootsRead after := by
  refine ⟨stepped.preserves discipline.issued discipline.issued.step, ?_⟩
  intro call inFlight jobID rootID read
  have before : jobID ∈ system.world.issued ∧
      ∀ row ∈ system.world.db.indexJobs, row.id = jobID → row.rootID = rootID := by
    rcases source stepped inFlight read with ⟨old, stored, known⟩ | ⟨row, stored, rfl, rfl⟩
    · exact discipline.roots old stored jobID rootID known
    · exact ⟨discipline.issued row stored, fun other member same =>
        congrArg IndexJob.rootID (Table.eq_of_key_eq member stored same)⟩
  exact stepped.preserves (P := fun world => jobID ∈ world.issued ∧
    ∀ row ∈ world.db.indexJobs, row.id = jobID → row.rootID = rootID) before fun event =>
      ⟨World.mem_issued_step before.1 event, World.column_step SameJob.rootID before.1 before.2 event⟩

end RootsRead

theorem rootsRead_run (sha256 : String → String) (events : List SystemEvent) :
    RootsRead (runFrom (System.step sha256) System.initial events) :=
  invariant_run (fun system event before => before.step (system.stepped sha256 event))
    RootsRead.initial events

/-! ### The run after the insertion -/

/-- A step of the start, or of an operation on its job. -/
def System.worksOn (system : System) (start tenant jobID : String) : SystemEvent → Bool
  | .advance token _ => (system.calls.lookup token).any fun call =>
      call.token == start || (call.tenant == tenant && call.point.jobID? == some jobID)
  | .other (.commit _ (.heartbeat userID id)) | .other (.commit _ (.touch userID id)) =>
    userID == tenant && id == jobID
  | _ => false

/-- No other operation touches the workspace. -/
def System.Spares (sha256 : String → String) (start tenant workspaceID jobID : String)
    (system : System) (event : SystemEvent) : Prop :=
  system.worksOn start tenant jobID event = true ∨
    SameWorkspace tenant workspaceID system.world.db (system.step sha256 event).world.db

instance (sha256 : String → String) (start tenant workspaceID jobID : String) (system : System)
    (event : SystemEvent) :
    Decidable (System.Spares sha256 start tenant workspaceID jobID system event) :=
  inferInstanceAs (Decidable (_ ∨ _))

/-- The start takes its job back, because LCE did not begin it. -/
def Point.withdraws : Point → Bool
  | .abortBegin _ _ | .markBegin _ _ | .dropManifest _ => true
  | _ => false

/-- Where a start that has inserted a job stands, and the job. -/
inductive Course (start : String) (job : IndexJob) (files : List ManifestFile) (system : System) :
    Prop where
  | withdrawn (silent : (start, Note.answered .started) ∉ system.notes)
      (inFlight : ∀ call ∈ system.calls, call.token = start → call.point.withdraws = true)
  | proceeding (inFlight : ∀ call ∈ system.calls, call.token = start →
        (∃ attempt, call.point = .begin job attempt) ∧
          (start, Note.answered .started) ∉ system.notes)
      (stage : Stage job files system.world.db)

structure Followed (start : String) (job : IndexJob) (files : List ManifestFile) (system : System) :
    Prop where
  issued : job.id ∈ system.world.issued
  spent : start ∈ system.tokens
  roots : RootsRead system
  course : Course start job files system

section Start

variable {sha256 : String → String} {answer : Answer} {tenant : String} {clock : Nat}
  {db : Database} {cloud : Cloud} {point : Point} {job : IndexJob} {attempt : Nat}

theorem advance_withdraws (withdraws : point.withdraws = true) :
    (point.advance sha256 answer tenant clock db cloud).notes = [] ∧
      ∀ next, (point.advance sha256 answer tenant clock db cloud).next = some next →
        next.withdraws = true := by
  cases point with
  | abortBegin | markBegin | dropManifest =>
    refine ⟨rfl, fun next moves => ?_⟩
    cases moves
    try rfl
  | _ => cases withdraws

/-- The `begin` of a start writes nothing here. It ends the start, is tried again, or is
given up. -/
theorem advance_begin :
    ((Point.begin job attempt).advance sha256 answer tenant clock db cloud).transaction = none ∧
      (((Point.begin job attempt).advance sha256 answer tenant clock db cloud).next = none ∨
        Note.answered .started ∉
            ((Point.begin job attempt).advance sha256 answer tenant clock db cloud).notes ∧
          ∀ next, ((Point.begin job attempt).advance sha256 answer tenant clock db cloud).next =
              some next → (∃ attempt, next = .begin job attempt) ∨ next.withdraws = true) := by
  simp only [Point.advance]
  split
  · exact ⟨rfl, .inl rfl⟩
  · split
    · refine ⟨rfl, .inr ⟨by simp, fun next moves => .inl ?_⟩⟩
      cases moves
      exact ⟨_, rfl⟩
    · refine ⟨rfl, .inr ⟨by simp, fun next moves => .inr ?_⟩⟩
      cases moves
      rfl

end Start

/-- A job that has ended without success stays so. -/
theorem World.closed_step {world : World} {jobID : String} (known : jobID ∈ world.issued)
    (ended : ∀ row ∈ world.db.indexJobs, row.id = jobID →
      row.status ≠ .running ∧ row.status ≠ .completed) (event : Event) :
    ∀ row ∈ (world.step event).db.indexJobs, row.id = jobID →
      row.status ≠ .running ∧ row.status ≠ .completed := by
  cases event with
  | tick => exact ended
  | commit waited transaction =>
    by_cases possible : world.admissible transaction = true
    · intro row member named
      simp only [World.step, possible, if_true] at member
      rcases mem_exec_jobs member with ⟨old, stored, change⟩ | ⟨files, created⟩
      · have before := ended old stored (change.sameJob.id.symm.trans named)
        rw [change.eq_of_terminal before.1]
        exact before
      · rw [← named] at known
        exact absurd known (World.not_issued_of_created possible created)
    · simpa [World.step, possible] using ended

namespace Followed

variable {sha256 : String → String} {start : String} {job : IndexJob} {files : List ManifestFile}
  {system after : System} {event : SystemEvent}

/-- The calls of the start after a step: none has its token unless it had it before. -/
theorem withdrawn_step (followed : Followed start job files system)
    (silent : (start, Note.answered .started) ∉ system.notes)
    (inFlight : ∀ call ∈ system.calls, call.token = start → call.point.withdraws = true)
    (stepped : Stepped sha256 system event after) : Course start job files after := by
  cases stepped with
  | idle | other | landed | lost | aborted => exact .withdrawn silent inFlight
  | entered waited token tenant spelling operation point admitted fresh =>
    refine .withdrawn silent (System.forall_begin inFlight fun same => ?_)
    exact absurd (show token = start from same) fun same => fresh (same ▸ followed.spent)
  | advanced call acts answer effect next =>
    refine .withdrawn (fun noted => ?_) ?_
    · rcases NoteDiscipline.mem_applied noted with ⟨same, listed⟩ | before
      · rw [next, (advance_withdraws (inFlight call acts same.symm)).1] at listed
        cases listed
      · exact silent before
    · refine System.forall_moveOn acts (fun other known _ => inFlight other known) ?_
      intro point moves same
      rw [next] at moves
      exact (advance_withdraws (inFlight call acts same)).2 point moves

/-- A step of the start or of an operation on the job. -/
theorem stage_of_works (followed : Followed start job files system)
    (inFlight : ∀ call ∈ system.calls, call.token = start → ∃ attempt, call.point = .begin job attempt)
    (stage : Stage job files system.world.db) {row : IndexJob}
    (stored : row ∈ system.world.db.indexJobs) (same : SameJob job row)
    (stepped : Stepped sha256 system event after)
    (works : system.worksOn start job.userID job.id event = true) :
    Stage job files after.world.db := by
  cases stepped with
  | idle | landed | lost | aborted => exact stage
  | entered => cases works
  | other event =>
    -- a heartbeat, or the reconciler's mark on the job
    have serves : ∃ waited transaction, event = .commit waited transaction ∧
        Serves job.userID job.id job.rootID transaction ∧
        system.world.admissible transaction = true := by
      unfold System.worksOn at works
      split at works
      · contradiction
      next same =>
        cases same
        simp only [Bool.and_eq_true, beq_iff_eq] at works
        obtain ⟨rfl, rfl⟩ := works
        exact ⟨_, _, rfl, .heartbeat, rfl⟩
      next same =>
        cases same
        simp only [Bool.and_eq_true, beq_iff_eq] at works
        obtain ⟨rfl, rfl⟩ := works
        exact ⟨_, _, rfl, .touch, rfl⟩
      · cases works
    obtain ⟨waited, transaction, rfl, serves, possible⟩ := serves
    simp only [System.background, World.step, possible, if_true]
    exact stage.serves serves
  | advanced call acts answer effect next allowed possible =>
    have found : system.calls.lookup call.token = some call :=
      Table.lookup_eq_some.mpr ⟨acts, rfl⟩
    simp only [System.worksOn, found, Option.any_some, Bool.or_eq_true, Bool.and_eq_true,
      beq_iff_eq] at works
    simp only [System.apply]
    cases runs : effect.transaction with
    | none => exact stage
    | some transaction =>
      rw [runs] at possible
      rw [System.commit_db possible]
      rw [next] at runs
      rcases works with own | ⟨tenant, works⟩
      · obtain ⟨attempt, point⟩ := inFlight call acts own
        rw [point, advance_begin.1] at runs
        cases runs
      · rw [tenant] at runs
        refine stage.serves (advance_serves works (fun read known => ?_) runs)
        rw [← (followed.roots.roots call acts job.id read known).2 row stored same.id, same.rootID]

theorem stage_step (followed : Followed start job files system)
    (inFlight : ∀ call ∈ system.calls, call.token = start → ∃ attempt, call.point = .begin job attempt)
    (stage : Stage job files system.world.db)
    (spares : system.Spares sha256 start job.userID job.workspaceID job.id event) :
    Stage job files (system.step sha256 event).world.db := by
  have stepped := system.stepped sha256 event
  have closes (ended : ∀ row ∈ system.world.db.indexJobs, row.id = job.id →
      row.status ≠ .running ∧ row.status ≠ .completed) :
      ∀ row ∈ (system.step sha256 event).world.db.indexJobs, row.id = job.id →
        row.status ≠ .running ∧ row.status ≠ .completed :=
    stepped.preserves (P := fun world => ∀ row ∈ world.db.indexJobs, row.id = job.id →
      row.status ≠ .running ∧ row.status ≠ .completed) ended (World.closed_step followed.issued ended)
  rcases spares with works | same
  · have known := stage
    cases known with
    | uploading row stored same => exact followed.stage_of_works inFlight stage stored same stepped works
    | published row stored same => exact followed.stage_of_works inFlight stage stored same stepped works
    | closed ended => exact .closed (closes ended)
  · exact stage.of_sameWorkspace same closes

/-- The start after a step of one of the calls, while it has not given up. -/
theorem advanced_step
    (inFlight : ∀ call ∈ system.calls, call.token = start →
      (∃ attempt, call.point = .begin job attempt) ∧ (start, Note.answered .started) ∉ system.notes)
    {call : Call} (acts : call ∈ system.calls) {answer : Answer} {effect : Effect}
    (next : effect = call.point.advance sha256 answer call.tenant system.world.clock
      system.world.db system.cloud)
    (stage : Stage job files (system.apply sha256 call answer effect).world.db) :
    Course start job files (system.apply sha256 call answer effect) := by
  by_cases own : call.token = start
  · obtain ⟨⟨attempt, point⟩, silent⟩ := inFlight call acts own
    rw [point] at next
    have kinds : effect.next = none ∨ Note.answered .started ∉ effect.notes ∧ ∀ later,
        effect.next = some later → (∃ attempt, later = .begin job attempt) ∨ later.withdraws = true := by
      rw [next]
      exact advance_begin.2
    -- no other call has the token of the start
    have others (P : Call → Prop) : ∀ other ∈ system.calls, other.token ≠ call.token →
        other.token = start → P other :=
      fun other _ different same => absurd (same.trans own.symm) different
    rcases kinds with ends | ⟨quiet, goes⟩
    · refine .proceeding (System.forall_moveOn acts (others _) fun point moves => ?_) stage
      rw [ends] at moves
      cases moves
    have unanswered : (start, Note.answered .started) ∉ (system.apply sha256 call answer effect).notes := by
      intro noted
      rcases NoteDiscipline.mem_applied noted with ⟨-, listed⟩ | before
      · exact quiet listed
      · exact silent before
    cases moves : effect.next with
    | none =>
      refine .proceeding (System.forall_moveOn acts (others _) fun point again => ?_) stage
      rw [moves] at again
      cases again
    | some point =>
      rcases goes point moves with retries | withdraws
      · refine .proceeding (System.forall_moveOn acts (others _) fun other again _ => ?_) stage
        cases moves.symm.trans again
        exact ⟨retries, unanswered⟩
      · refine .withdrawn unanswered (System.forall_moveOn acts (others _) fun other again _ => ?_)
        cases moves.symm.trans again
        exact withdraws
  · refine .proceeding (System.forall_moveOn acts (fun other known _ same => ?_) ?_) stage
    · obtain ⟨begins, silent⟩ := inFlight other known same
      refine ⟨begins, fun noted => ?_⟩
      rcases NoteDiscipline.mem_applied noted with ⟨clash, -⟩ | before
      · exact own clash.symm
      · exact silent before
    · exact fun _ _ same => absurd same own

/-- The start and its job after any step that spares the workspace. -/
theorem step (followed : Followed start job files system)
    (spares : system.Spares sha256 start job.userID job.workspaceID job.id event) :
    Followed start job files (system.step sha256 event) := by
  have stepped := system.stepped sha256 event
  have issued : job.id ∈ (system.step sha256 event).world.issued :=
    stepped.preserves (P := fun world => job.id ∈ world.issued) followed.issued
      (World.mem_issued_step followed.issued)
  refine ⟨issued, stepped.mem_tokens followed.spent, followed.roots.step stepped, ?_⟩
  cases followed.course with
  | withdrawn silent inFlight => exact followed.withdrawn_step silent inFlight stepped
  | proceeding inFlight stage =>
    have moved := followed.stage_step (fun call acts same => (inFlight call acts same).1) stage spares
    revert moved
    generalize system.step sha256 event = after at stepped
    intro moved
    cases stepped with
    | idle | other | landed | lost | aborted => exact .proceeding inFlight moved
    | entered waited token tenant spelling operation point admitted fresh =>
      refine .proceeding (System.forall_begin inFlight fun same => ?_) moved
      exact absurd (show token = start from same) fun same => fresh (same ▸ followed.spent)
    | advanced call acts answer effect next => exact advanced_step inFlight acts next moved

end Followed

/-! ### The insertion -/

/-- The files of a manifest carry no content. -/
theorem map_entry_manifestRow {userID workspaceID jobID : String} {normalized req : StartRequest}
    {db : Database} {files : List ManifestFile} {pending : List String}
    (accepted : normalizeStartRequest req = .ok normalized)
    (grafted : graftUnreadablePaths (db.loadIndexedSnapshot userID workspaceID) normalized.files
      normalized.unreadableFiles = .ok files) :
    (files.map (manifestRow jobID pending)).map JobFile.entry = files := by
  have manifest := (normalizeStartRequest_eq_ok accepted).1
  rw [List.map_map]
  refine (List.map_congr_left fun file member => ?_).trans (List.map_id files)
  rcases mem_of_mem_graft grafted (normalizeManifest_nodup manifest) member with sent | carried
  · obtain ⟨-, source, -, rfl⟩ := mem_normalizeManifest manifest sent
    rfl
  · obtain ⟨source, -, -, -, rfl⟩ := mem_loadIndexedSnapshot.mp carried
    rfl

/-- A start that notes the insertion of a job has inserted it. -/
theorem created_of_inserted {sha256 : String → String} {answer : Answer} {tenant jobID : String}
    {clock : Nat} {db : Database} {cloud : Cloud} {req normalized : StartRequest}
    (accepted : normalizeStartRequest req = .ok normalized)
    (inserted : Note.inserted jobID ∈
      ((Point.create req normalized).advance sha256 answer tenant clock db cloud).notes) :
    ∃ job files, job.id = jobID ∧ job.userID = tenant ∧ job.workspaceID = normalized.workspaceID ∧
      job.rootID = normalized.rootID ∧
      graftUnreadablePaths (db.loadIndexedSnapshot tenant normalized.workspaceID) normalized.files
        normalized.unreadableFiles = .ok files ∧
      ((Point.create req normalized).advance sha256 answer tenant clock db cloud).transaction =
        some (.create tenant req answer.wait answer.jobID) ∧
      Created (clock - answer.waited) db
        (db.exec (clock - answer.waited) clock (.create tenant req answer.wait answer.jobID))
        (.create tenant req answer.wait answer.jobID) job files := by
  simp only [Point.advance] at inserted ⊢
  split at inserted
  · cases inserted
  · simp at inserted
  · simp at inserted
  next job pending deleted after result =>
    obtain rfl : jobID = job.id := by simpa using inserted
    obtain ⟨files, diff, grafted, compared, ⟨impossible, -⟩ | ⟨impossible, -⟩ |
      ⟨new, made, same, -, written⟩⟩ := createIndexJob_cases result
    · cases impossible
    · cases impossible
    cases same
    have committed : db.exec (clock - answer.waited) clock
        (.create tenant req answer.wait answer.jobID) = after := by
      simp only [exec, accepted, bind, Except.bind, result, Functor.map, Except.map, settle]
    rw [committed]
    refine ⟨job, files, rfl, ?_, ?_, ?_, grafted, rfl, tenant, req, answer.wait, normalized, diff, ?_,
      accepted, grafted, compared, ?_, written⟩
    all_goals rw [made]
    all_goals rfl

/-- The state right after the insertion. -/
theorem followed_of_inserted {sha256 : String → String} {system : System} (roots : RootsRead system)
    (starts : StartDiscipline system) (notes : NoteDiscipline system)
    (referenced : system.world.db.ManifestsReferenced) {call : Call} (inFlight : call ∈ system.calls)
    {req normalized : StartRequest} (point : call.point = .create req normalized) {answer : Answer}
    {jobID : String} (inserted : (call.token, Note.inserted jobID) ∈
      (system.step sha256 (.advance call.token answer)).notes) :
    normalizeStartRequest req = .ok normalized ∧ ∃ job files,
      job.id = jobID ∧ job.userID = call.tenant ∧ job.workspaceID = normalized.workspaceID ∧
      job.rootID = normalized.rootID ∧
      graftUnreadablePaths (system.world.db.loadIndexedSnapshot call.tenant normalized.workspaceID)
        normalized.files normalized.unreadableFiles = .ok files ∧
      Followed call.token job files (system.step sha256 (.advance call.token answer)) := by
  have found : system.calls.lookup call.token = some call := Table.lookup_eq_some.mpr ⟨inFlight, rfl⟩
  obtain ⟨-, accepted⟩ := starts.starts call inFlight req normalized (by rw [point]; rfl)
  have early : call.point.started = false := by rw [point]; rfl
  have stepped := system.stepped sha256 (.advance call.token answer)
  have spent := stepped.mem_tokens (notes.spentCalls call inFlight)
  have rootsAfter := roots.step stepped
  rw [System.step_advance sha256 found] at inserted spent rootsAfter ⊢
  -- a start that may not take its step notes nothing
  by_cases enabled : ((call.point.detached || system.holdsLease call) && system.possible
      (call.point.advance sha256 answer call.tenant system.world.clock system.world.db
        system.cloud).transaction) = true
  case neg =>
    rw [if_neg enabled] at inserted
    exact absurd inserted (notes.quiet call inFlight early _)
  rw [if_pos enabled] at inserted spent rootsAfter ⊢
  obtain ⟨allowed, possible⟩ := Bool.and_eq_true_iff.mp enabled
  have holds : system.holdsLease call = true := by
    rw [point] at allowed
    simpa [Point.detached] using allowed
  rcases NoteDiscipline.mem_applied inserted with ⟨-, listed⟩ | before
  case inr => exact absurd before (notes.quiet call inFlight early _)
  rw [point] at listed
  obtain ⟨job, files, named, owner, workspace, root, grafted, runs, created⟩ :=
    created_of_inserted accepted listed
  refine ⟨accepted, job, files, named, owner, workspace, root, grafted, ?_, spent, rootsAfter, ?_⟩
  all_goals rw [point] at possible ⊢
  · rw [runs] at possible
    have admissible : system.world.admissible (.create call.tenant req answer.wait answer.jobID) = true :=
      possible
    obtain ⟨_, _, _, _, _, same, -⟩ := created
    injection same with _ _ _ same
    rw [same] at admissible runs
    simp only [System.apply, runs, System.commit, World.step, admissible, if_true, World.issue]
    exact List.mem_cons_self
  · obtain ⟨goesOn, noted⟩ := advance_inserts accepted created
    have begins := begins_of_created referenced created
    refine .proceeding (System.forall_moveOn inFlight (fun other _ different same =>
      absurd same different) fun next moves _ => ⟨⟨0, ?_⟩, fun answered => ?_⟩) ?_
    · rw [goesOn] at moves
      cases moves
      rfl
    · rcases NoteDiscipline.mem_applied answered with ⟨-, listed⟩ | before
      · rw [noted] at listed
        cases List.mem_singleton.mp listed
      · exact notes.quiet call inFlight early _ before
    · have idle := starts.idle call inFlight normalized.workspaceID (by rw [point]; rfl) holds
      simp only [System.apply, runs]
      rw [runs] at possible
      rw [System.commit_db possible]
      refine .uploading job (created.mem_jobs.mpr (.inr rfl)) ⟨rfl, rfl, rfl, rfl, rfl, rfl, rfl⟩
        created.status ?_ ?_
      · rw [begins.manifest]
        exact map_entry_manifestRow accepted grafted
      · intro other member running sameUser sameWorkspace
        rcases created.mem_jobs.mp member with stored | rfl
        · exact absurd (sameWorkspace.trans workspace)
            (idle other stored running (sameUser.trans owner))
        · rfl

/-! ### Convergence -/

/-- Every step of a start with this request, from its inspection to its answer: it aborts
nothing, sends nothing and writes nothing before its last transaction, and it answers
unchanged whatever the rate limiter would say. -/
def System.AnswersUnchanged (sha256 : String → String) (tenant : String) (req : StartRequest)
    (system : System) : Prop :=
  ∃ normalized, (Operation.start req).enter = .ok (.inspect req normalized) ∧ ∀ answer : Answer,
    (Point.inspect req normalized).advance sha256 answer tenant system.world.clock system.world.db
        system.cloud =
      { transaction := some (.inspect tenant normalized.workspaceID)
        next := some (.loadRoot req normalized) } ∧
    system.world.db.exec (system.world.clock - answer.waited) system.world.clock
        (.inspect tenant normalized.workspaceID) = system.world.db ∧
    (Point.loadRoot req normalized).advance sha256 answer tenant system.world.clock system.world.db
        system.cloud =
      { next := some (.create req normalized) } ∧
    (Point.create req normalized).advance sha256 answer tenant system.world.clock system.world.db
        system.cloud =
      { transaction := some (.create tenant req answer.wait answer.jobID)
        notes := [.answered .unchanged] }

theorem Followed.synchronized {start : String} {job : IndexJob} {files : List ManifestFile}
    {system : System} (followed : Followed start job files system)
    (answered : (start, Note.answered .started) ∈ system.notes)
    (completed : ∃ row ∈ system.world.db.indexJobs, row.id = job.id ∧ row.status = .completed) :
    Synchronized job.userID job.workspaceID job.rootID files system.world.db := by
  obtain ⟨row, stored, named, completed⟩ := completed
  cases followed.course with
  | withdrawn silent => exact absurd answered silent
  | proceeding _ stage =>
    cases stage with
    | uploading other present same running =>
      rw [Table.eq_of_key_eq present stored (same.id.trans named.symm), completed] at running
      cases running
    | published _ _ _ _ synchronized => exact synchronized
    | closed ended => exact absurd completed (ended row stored named).2

theorem Synchronized.answersUnchanged {sha256 : String → String} {tenant : String}
    {req normalized again : StartRequest} {previous files : List ManifestFile} {system : System}
    (synchronized : Synchronized tenant normalized.workspaceID normalized.rootID files system.world.db)
    (accepted : normalizeStartRequest req = .ok normalized) (repeats : again.Repeats req)
    (single : (previous.map (·.path)).Nodup)
    (grafted : graftUnreadablePaths previous normalized.files normalized.unreadableFiles = .ok files) :
    system.AnswersUnchanged sha256 tenant again := by
  obtain ⟨normalizedAgain, enters, same⟩ := normalizeStartRequest_repeats repeats accepted
  have idle : Idle system.world.db tenant normalizedAgain.workspaceID := by
    rw [same.workspaceID]
    exact synchronized.idle
  have distinct := normalizeManifest_nodup (normalizeStartRequest_eq_ok accepted).1
  refine ⟨normalizedAgain, by simp [Operation.enter, enters, Except.map], fun answer => ⟨?_, ?_, ?_, ?_⟩⟩
  · simp [Point.advance, idle.inspect, abortsOf]
  · simp [exec, idle.inspect]
  · simp [Point.advance, synchronized.movedFrom_eq_none same]
  · obtain ⟨written, unchanged⟩ := synchronized.createIndexJob_eq same single distinct grafted
      (system.world.clock - answer.waited) answer.wait answer.jobID
    simp [Point.advance, unchanged]

/-- A start inserts a job and answers with it, the job completes, and no other operation
touches the workspace. Then every start with the same manifest and unreadable paths, in
any order, answers unchanged. -/
theorem synchronization_converges (sha256 : String → String) (before after : List SystemEvent)
    {call : Call} {req normalized again : StartRequest} {answer : Answer} {jobID : String}
    (inFlight : call ∈ (runFrom (System.step sha256) System.initial before).calls)
    (point : call.point = .create req normalized)
    (inserted : (call.token, Note.inserted jobID) ∈ (runFrom (System.step sha256) System.initial
      (before ++ [.advance call.token answer])).notes)
    (spared : Along (System.step sha256)
      (System.Spares sha256 call.token call.tenant normalized.workspaceID jobID)
      (runFrom (System.step sha256) System.initial (before ++ [.advance call.token answer])) after)
    (answered : (call.token, Note.answered .started) ∈ (runFrom (System.step sha256) System.initial
      (before ++ .advance call.token answer :: after)).notes)
    (completed : ∃ row ∈ (runFrom (System.step sha256) System.initial
      (before ++ .advance call.token answer :: after)).world.db.indexJobs,
      row.id = jobID ∧ row.status = .completed)
    (repeats : again.Repeats req) :
    (runFrom (System.step sha256) System.initial
      (before ++ .advance call.token answer :: after)).AnswersUnchanged sha256 call.tenant again := by
  rw [runFrom_append] at inserted spared answered completed ⊢
  simp only [runFrom_cons, runFrom_nil] at inserted spared answered completed ⊢
  obtain ⟨accepted, job, files, rfl, owner, workspace, root, grafted, followed⟩ :=
    followed_of_inserted (rootsRead_run sha256 before) (startDiscipline_run sha256 before)
      (noteDiscipline_run sha256 before) (manifestsReferenced_run sha256 before) inFlight point inserted
  rw [← workspace] at spared
  rw [← owner] at spared
  have final := invariant_along (P := Followed call.token job files)
    (fun system event known spares => known.step spares) followed after spared
  -- the start has answered and the job has completed, so the workspace is published
  have synchronized := final.synchronized answered completed
  rw [owner, workspace, root] at synchronized
  exact synchronized.answersUnchanged accepted repeats (loadIndexedSnapshot_nodup _ _ _) grafted

/-- Two files, and two paths that cannot be read. -/
def twoFiles : StartRequest :=
  { workspaceID := "root", workspaceName := "root", branch := "", revision := ""
    files := [{ path := "main.go", hash := "ca978112", size := 1, estimatedChunks := 1 },
      { path := "lib.go", hash := "ca978112", size := 1, estimatedChunks := 1 }]
    unreadableFiles := ["lost.go", "locked.go"], rootID := "root" }

def twoFilesJob : String := "6f1c1f0a-52f5-4f0e-9a52-0e2a5d2c7b11"

def beforeTwoFiles : List SystemEvent :=
  [.enter 0 "start" "tenant" "" (.start twoFiles), .advance "start" {}, .advance "start" {}]

/-- LCE begins the job, one upload brings both files, and the job completes. -/
def afterTwoFiles : List SystemEvent :=
  [.advance "start" {}, .other (.commit 0 (.release "tenant" "start")),
    .enter 0 "upload" "tenant" twoFilesJob (.upload
      { jobID := twoFilesJob, rootID := "root"
        files := twoFiles.files.map fun file => { file with content := "a" } }),
    .advance "upload" {}, .advance "upload" {}, .advance "upload" {}, .advance "upload" {},
    .other (.commit 0 (.release "tenant" "upload")),
    .enter 0 "completion" "tenant" twoFilesJob (.complete twoFilesJob),
    .advance "completion" {}, .advance "completion" {},
    .advance "completion" { decision := .publish 1 }, .advance "completion" {},
    .advance "completion" {}]

def sortedTwoFiles : StartRequest :=
  { twoFiles with
    files := [{ path := "lib.go", hash := "ca978112", size := 1, estimatedChunks := 1 },
      { path := "main.go", hash := "ca978112", size := 1, estimatedChunks := 1 }] }

/-- The start before its insertion. -/
def twoFilesCall : Call :=
  { token := "start", tenant := "tenant", resource := "*", kind := "create-job", mode := .exclusive
    point := .create twoFiles sortedTwoFiles }

theorem twoFiles_converge :
    (runFrom (System.step fun _ => "ca978112") System.initial (beforeTwoFiles ++
      .advance twoFilesCall.token { jobID := twoFilesJob } :: afterTwoFiles)).AnswersUnchanged
        (fun _ => "ca978112") twoFilesCall.tenant
        { twoFiles with
          files := twoFiles.files.reverse, unreadableFiles := twoFiles.unreadableFiles.reverse } := by
  have calls : (runFrom (System.step fun _ => "ca978112") System.initial beforeTwoFiles).calls.rows =
      [twoFilesCall] := rfl
  have run : (twoFilesCall.token, Note.inserted twoFilesJob) ∈
        (runFrom (System.step fun _ => "ca978112") System.initial
          (beforeTwoFiles ++ [.advance twoFilesCall.token { jobID := twoFilesJob }])).notes ∧
      Along (System.step fun _ => "ca978112")
        (System.Spares (fun _ => "ca978112") twoFilesCall.token twoFilesCall.tenant
          sortedTwoFiles.workspaceID twoFilesJob)
        (runFrom (System.step fun _ => "ca978112") System.initial
          (beforeTwoFiles ++ [.advance twoFilesCall.token { jobID := twoFilesJob }])) afterTwoFiles ∧
      (twoFilesCall.token, Note.answered .started) ∈
        (runFrom (System.step fun _ => "ca978112") System.initial (beforeTwoFiles ++
          .advance twoFilesCall.token { jobID := twoFilesJob } :: afterTwoFiles)).notes ∧
      ∃ row ∈ (runFrom (System.step fun _ => "ca978112") System.initial (beforeTwoFiles ++
          .advance twoFilesCall.token { jobID := twoFilesJob } :: afterTwoFiles)).world.db.indexJobs,
        row.id = twoFilesJob ∧ row.status = .completed := by
    decide +kernel
  obtain ⟨inserted, spared, answered, completed⟩ := run
  have inFlight : twoFilesCall ∈
      (runFrom (System.step fun _ => "ca978112") System.initial beforeTwoFiles).calls := by
    rw [Table.mem_def, calls]
    exact List.mem_singleton_self _
  exact synchronization_converges _ _ _ inFlight rfl inserted spared answered completed
    ⟨rfl, rfl, rfl, List.reverse_perm _, List.reverse_perm _⟩

end AcemcpRelay
