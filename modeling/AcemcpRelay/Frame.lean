import AcemcpRelay.Transactions

/-!
# What a transaction leaves alone

The tables fall into two groups: the index state (jobs, manifests, snapshots,
workspaces), and the admission state (leases, deletion markers, configuration
jobs). Apart from the two finishing transactions, each transaction writes one
group only.
-/
namespace AcemcpRelay

open Store

/-- The admission tables are as before. -/
structure SameFences (db after : Database) : Prop where
  leases : after.leases = db.leases
  deletions : after.rootDeletionJobs = db.rootDeletionJobs
  configs : after.platformConfigJobs = db.platformConfigJobs

/-- The index tables are as before. -/
structure SameIndex (db after : Database) : Prop where
  jobs : after.indexJobs = db.indexJobs
  manifests : after.indexJobFiles = db.indexJobFiles
  files : after.indexedFiles = db.indexedFiles
  workspaces : after.indexWorkspaces = db.indexWorkspaces

theorem SameFences.refl (db : Database) : SameFences db db := ⟨rfl, rfl, rfl⟩

theorem SameIndex.refl (db : Database) : SameIndex db db := ⟨rfl, rfl, rfl, rfl⟩

theorem SameFences.trans {a b c : Database} (first : SameFences a b) (second : SameFences b c) :
    SameFences a c :=
  ⟨second.leases.trans first.leases, second.deletions.trans first.deletions,
    second.configs.trans first.configs⟩

namespace Database

variable {ε : Type} {db : Database}

/-- A property of every outcome: the database as it was, or the result of a commit. -/
theorem settle_cases {P : Database → Prop} {result : Except ε Database} (rolledBack : P db)
    (committed : ∀ after, result = .ok after → P after) : P (db.settle result) := by
  cases result with
  | error _ => exact rolledBack
  | ok after => exact committed after rfl

theorem map_eq_ok {α β : Type} {result : Except ε α} {f : α → β} {value : β}
    (committed : f <$> result = .ok value) : ∃ inner, result = .ok inner ∧ f inner = value := by
  cases result with
  | error _ => simp [Functor.map, Except.map] at committed
  | ok inner =>
    simp only [Functor.map, Except.map, Except.ok.injEq] at committed
    exact ⟨inner, rfl, committed⟩

theorem bind_eq_ok {α β : Type} {result : Except ε α} {next : α → Except ε β} {value : β}
    (committed : (result >>= next) = .ok value) :
    ∃ middle, result = .ok middle ∧ next middle = .ok value := by
  cases result with
  | error _ => simp [bind, Except.bind] at committed
  | ok middle => exact ⟨middle, rfl, committed⟩

/-- A transaction was rolled back, or its result is what the database now is. -/
theorem settle_eq (db : Database) (result : Except ε Database) :
    db.settle result = db ∨ result = .ok (db.settle result) := by
  cases result with
  | error _ => exact .inl rfl
  | ok after => exact .inr rfl

theorem settle_map_eq {α : Type} (db : Database) (result : Except ε (α × Database)) :
    db.settle ((·.2) <$> result) = db ∨
      ∃ value, result = .ok (value, db.settle ((·.2) <$> result)) := by
  cases result with
  | error _ => exact .inl rfl
  | ok pair => exact .inr ⟨pair.1, rfl⟩

/-! ### Jobs -/

theorem markIndexed_frame {after : Database} {jobID path : String}
    (committed : db.markIndexed jobID path = .ok after) :
    SameFences db after ∧ after.indexJobs = db.indexJobs ∧ after.indexedFiles = db.indexedFiles ∧
      after.indexWorkspaces = db.indexWorkspaces := by
  unfold markIndexed at committed
  simp only at committed
  split at committed
  · simp only [Except.ok.injEq] at committed
    subst committed
    exact ⟨⟨rfl, rfl, rfl⟩, rfl, rfl, rfl⟩
  · simp at committed

theorem markAllIndexed_frame {after : Database} {jobID : String} {paths : List String}
    (committed : db.markAllIndexed jobID paths = .ok after) :
    SameFences db after ∧ after.indexJobs = db.indexJobs ∧ after.indexedFiles = db.indexedFiles ∧
      after.indexWorkspaces = db.indexWorkspaces := by
  induction paths generalizing db with
  | nil =>
    simp only [markAllIndexed, Except.ok.injEq] at committed
    subst committed
    exact ⟨.refl db, rfl, rfl, rfl⟩
  | cons path paths ih =>
    simp only [markAllIndexed] at committed
    split at committed
    · simp at committed
    next marked first =>
      obtain ⟨fences, jobs, files, workspaces⟩ := markIndexed_frame first
      obtain ⟨fences', jobs', files', workspaces'⟩ := ih committed
      exact ⟨fences.trans fences', jobs'.trans jobs, files'.trans files,
        workspaces'.trans workspaces⟩

/-- `commitIndexBatch`, taken apart: the manifest rows are marked, then one job row changes. -/
theorem commitIndexBatch_eq_ok {after : Database} {now : Nat} {userID jobID : String}
    {paths : List String} {chunks : Int} {fallback sentDeletions : Bool}
    (committed : db.commitIndexBatch now userID jobID paths chunks fallback sentDeletions =
      .ok after) :
    ∃ job marked, db.loadIndexJob userID jobID = some job ∧ job.status = .running ∧
      db.markAllIndexed jobID paths = .ok marked ∧
      after = marked.updateJobs (·.id == jobID) (fun row =>
        { row with
          phase := .indexing
          indexedFiles := row.indexedFiles + paths.length
          indexedChunks := row.indexedChunks + chunks
          chunkCountFallback := row.chunkCountFallback || fallback
          deletionsSent := row.deletionsSent || sentDeletions
          heartbeatAt := now }) := by
  unfold commitIndexBatch at committed
  split at committed
  · simp at committed
  next job found =>
    split at committed
    · simp at committed
    next running =>
      split at committed
      · simp at committed
      next marked all =>
        simp only [Except.ok.injEq] at committed
        exact ⟨job, marked, found, not_not.mp running, all, committed.symm⟩

theorem commitIndexBatch_fences {after : Database} {now : Nat} {userID jobID : String}
    {paths : List String} {chunks : Int} {fallback sentDeletions : Bool}
    (committed : db.commitIndexBatch now userID jobID paths chunks fallback sentDeletions =
      .ok after) : SameFences db after := by
  obtain ⟨job, marked, -, -, all, rfl⟩ := commitIndexBatch_eq_ok committed
  exact (markAllIndexed_frame all).1.trans ⟨rfl, rfl, rfl⟩

/-- `completeIndexJob`, taken apart: the snapshot, the workspace and the job are
written together, and the manifest goes. -/
theorem completeIndexJob_eq_ok {after : Database} {now : Nat} {userID jobID rootID : String}
    {cloudRevision : Int}
    (committed : db.completeIndexJob now userID jobID rootID cloudRevision = .ok after) :
    ∃ job files workspaces, db.loadIndexJob userID jobID = some job ∧ job.completable = .ok () ∧
      (db.indexedFiles.delete fun file =>
        file.userID == userID && file.workspaceID == job.workspaceID).insert (db.snapshotRows job) =
          some files ∧
      (db.indexWorkspaces.delete (·.key == (workspaceRow now job rootID cloudRevision).key)).insert
        [workspaceRow now job rootID cloudRevision] = some workspaces ∧
      after = { db with
        indexJobs := db.indexJobs.update (·.id == jobID) (·.complete now cloudRevision)
        indexJobFiles := db.indexJobFiles.delete (·.jobID == jobID)
        indexedFiles := files, indexWorkspaces := workspaces } := by
  unfold completeIndexJob at committed
  split at committed
  · simp at committed
  next job found =>
    split at committed
    · simp at committed
    next ready =>
      simp only at committed
      split at committed
      · simp at committed
      next files inserted =>
        split at committed
        · simp at committed
        next published upserted =>
          simp only [upsertWorkspace, Option.map_eq_some_iff] at upserted
          obtain ⟨workspaces, placed, rfl⟩ := upserted
          simp only [Except.ok.injEq] at committed
          exact ⟨job, files, workspaces, found, ready, inserted, placed, committed.symm⟩

theorem insertIndexJob_eq_ok {after : Database} {job : IndexJob} {files : List ManifestFile}
    {pending : List String} (committed : db.insertIndexJob job files pending = .ok after) :
    ∃ jobs rows, db.indexJobs.insert [job] = some jobs ∧
      db.indexJobFiles.insert (files.map (manifestRow job.id pending)) = some rows ∧
      after = { db with indexJobs := jobs, indexJobFiles := rows } := by
  unfold insertIndexJob at committed
  split at committed
  · split at committed
    next jobs rows inserted copied =>
      simp only [Except.ok.injEq] at committed
      exact ⟨jobs, rows, inserted, copied, committed.symm⟩
    · simp at committed
  · simp at committed

theorem insertIndexJob_of_fresh {job : IndexJob} {files : List ManifestFile}
    {pending : List String} {jobs : Table IndexJob.id} {rows : Table JobFile.key}
    (fits : (varchar 255 job.userID && files.all (varchar 128 ·.hash)) = true)
    (placed : db.indexJobs.insert [job] = some jobs)
    (copied : db.indexJobFiles.insert (files.map (manifestRow job.id pending)) = some rows) :
    db.insertIndexJob job files pending =
      .ok { db with indexJobs := jobs, indexJobFiles := rows } := by
  unfold insertIndexJob
  rw [if_pos fits, placed, copied]

/-- What the creating transaction can do, with everything it read. -/
theorem createIndexJob_cases {after : Database} {now : Nat} {userID : String} {req : StartRequest}
    {wait : Nat} {jobID : String} {outcome : CreateOutcome}
    (committed : db.createIndexJob now userID req wait jobID = .ok (outcome, after)) :
    ∃ files diff, graftUnreadablePaths (db.loadIndexedSnapshot userID req.workspaceID) req.files
        req.unreadableFiles = .ok files ∧
      diff = diffManifest (db.loadIndexedSnapshot userID req.workspaceID) files ∧
      ((outcome = .unchanged ∧ db.workspaceExists userID req.workspaceID = true ∧
        diff.pending = [] ∧ diff.deleted = [] ∧
        after = { db with
          indexWorkspaces := db.indexWorkspaces.update
            (fun row => row.userID == userID && row.workspaceID == req.workspaceID)
            (fun row => { row with
              workspaceName := req.workspaceName, rootID := req.rootID
              branch := req.branch, revision := req.revision }) }) ∨
      (outcome = .rateLimited wait ∧ after = db) ∨
      ∃ job, job = newIndexJob now userID jobID req
          (if db.workspaceExists userID req.workspaceID then .incremental else .full)
          files.length diff ∧
        outcome = .created job diff.pending diff.deleted ∧
        ¬ (db.workspaceExists userID req.workspaceID ∧ diff.pending = [] ∧ diff.deleted = []) ∧
        db.insertIndexJob job files diff.pending = .ok after) := by
  unfold createIndexJob at committed
  simp only at committed
  split at committed
  · simp at committed
  next files grafted =>
    refine ⟨files, _, grafted, rfl, ?_⟩
    split at committed
    next same =>
      simp only [Except.ok.injEq, Prod.mk.injEq] at committed
      exact .inl ⟨committed.1.symm, same.1, same.2.1, same.2.2, committed.2.symm⟩
    -- the limiter is asked only now, and the insertion comes last
    next differs =>
      split at committed
      · simp only [Except.ok.injEq, Prod.mk.injEq] at committed
        exact .inr (.inl ⟨committed.1.symm, committed.2.symm⟩)
      · obtain ⟨written, inserted, same⟩ := map_eq_ok committed
        rw [Prod.mk.injEq] at same
        exact .inr (.inr ⟨_, rfl, same.1.symm, differs, same.2 ▸ inserted⟩)

theorem createIndexJob_fences {after : Database} {now : Nat} {userID : String} {req : StartRequest}
    {wait : Nat} {jobID : String} {outcome : CreateOutcome}
    (committed : db.createIndexJob now userID req wait jobID = .ok (outcome, after)) :
    SameFences db after := by
  obtain ⟨files, diff, -, -, ⟨-, -, -, -, rfl⟩ | ⟨-, rfl⟩ | ⟨job, -, -, -, inserted⟩⟩ :=
    createIndexJob_cases committed
  · exact ⟨rfl, rfl, rfl⟩
  · exact .refl _
  · obtain ⟨jobs, rows, -, -, rfl⟩ := insertIndexJob_eq_ok inserted
    exact ⟨rfl, rfl, rfl⟩

theorem uploadHeartbeat_eq_ok {after : Database} {now : Nat} {userID jobID : String}
    (committed : db.uploadHeartbeat now userID jobID = .ok after) :
    after = db.updateJobs (fun job => job.runningAs userID jobID && job.phase != .publishing)
      (fun job => { job with phase := .uploading, heartbeatAt := now }) := by
  unfold uploadHeartbeat at committed
  simp only at committed
  split at committed
  · exact (Except.ok.inj committed).symm
  · simp at committed

theorem publishIntent_eq_ok {after : Database} {now : Nat} {userID jobID : String}
    (committed : db.publishIntent now userID jobID = .ok after) :
    after = db.updateJobs (·.runningAs userID jobID) (fun job =>
      { job with
        phase := .publishing, heartbeatAt := now
        publishingSince := some (job.publishingSince.getD now) }) := by
  unfold publishIntent at committed
  split at committed
  · exact (Except.ok.inj committed).symm
  · simp at committed

theorem markIndexJobFailed_eq_some {after : Database} {now : Nat} {userID jobID failure : String}
    {diagnostic : IndexFailureDiagnostic}
    (committed : db.markIndexJobFailed now userID jobID failure diagnostic = some after) :
    after = (db.updateJobs (·.runningAs userID jobID) (·.fail now failure diagnostic)
      ).deleteManifest jobID := by
  unfold markIndexJobFailed at committed
  split at committed
  · exact (Option.some.inj committed).symm
  · simp at committed

theorem markIndexJobFailed_holds {after : Database} {now : Nat} {userID jobID failure : String}
    {diagnostic : IndexFailureDiagnostic}
    (committed : db.markIndexJobFailed now userID jobID failure diagnostic = some after) :
    ∃ job ∈ db.indexJobs, job.runningAs userID jobID = true := by
  unfold markIndexJobFailed at committed
  split at committed
  next found => exact Table.holds_eq_true.mp found
  · simp at committed

theorem failIndexJob_eq_ok {after : Database} {now : Nat} {userID jobID failure rootID : String}
    {diagnostic : IndexFailureDiagnostic}
    (committed : db.failIndexJob now userID jobID failure diagnostic = .ok (rootID, after)) :
    db.markIndexJobFailed now userID jobID failure diagnostic = some after := by
  unfold failIndexJob at committed
  split at committed
  · simp at committed
  · split at committed
    · simp at committed
    next failed marked =>
      simp only [Except.ok.injEq, Prod.mk.injEq] at committed
      rw [← committed.2]
      exact marked

/-- The `fail` operation as a transaction: rolled back, or the job closed with the
diagnostic that the report resolves to. -/
theorem exec_fail_cases (db : Database) (now clock : Nat) (userID jobID : String)
    (report : FailureReport) :
    db.exec now clock (.fail userID jobID report) = db ∨
      ∃ diagnostic, resolveReportedIndexFailureDiagnostic .failed report.error report.errorCode
          report.errorOrigin report.recovery = .ok diagnostic ∧
        db.markIndexJobFailed now userID jobID (reportedFailure report.error) diagnostic =
          some (db.exec now clock (.fail userID jobID report)) := by
  simp only [exec]
  apply settle_cases (P := fun after => after = db ∨ ∃ diagnostic,
    resolveReportedIndexFailureDiagnostic .failed report.error report.errorCode
      report.errorOrigin report.recovery = .ok diagnostic ∧
    db.markIndexJobFailed now userID jobID (reportedFailure report.error) diagnostic = some after)
  · exact .inl rfl
  · intro after committed
    obtain ⟨diagnostic, resolved, rest⟩ := bind_eq_ok committed
    obtain ⟨⟨rootID, written⟩, failed, rfl⟩ := map_eq_ok rest
    exact .inr ⟨diagnostic, resolved, failIndexJob_eq_ok failed⟩

theorem exec_create_cases (db : Database) (now clock : Nat) (userID : String) (req : StartRequest)
    (wait : Nat) (jobID : String) :
    db.exec now clock (.create userID req wait jobID) = db ∨
      ∃ normalized outcome, normalizeStartRequest req = .ok normalized ∧
        db.createIndexJob now userID normalized wait jobID =
          .ok (outcome, db.exec now clock (.create userID req wait jobID)) := by
  simp only [exec]
  apply settle_cases (P := fun after => after = db ∨ ∃ normalized outcome,
    normalizeStartRequest req = .ok normalized ∧
      db.createIndexJob now userID normalized wait jobID = .ok (outcome, after))
  · exact .inl rfl
  · intro after committed
    obtain ⟨normalized, accepted, rest⟩ := bind_eq_ok committed
    obtain ⟨⟨outcome, written⟩, created, rfl⟩ := map_eq_ok rest
    exact .inr ⟨normalized, outcome, accepted, created⟩

end Database

/-! ### The two groups -/

/-- The transaction works on the index tables. -/
def Transaction.onIndex : Transaction → Bool
  | .inspect .. | .create .. | .failBegin .. | .dropManifest .. | .uploadHeartbeat ..
  | .commitBatch .. | .heartbeat .. | .intent .. | .accepted .. | .recordRevision ..
  | .complete .. | .failPublication .. | .touch .. | .fail .. | .sweep .. | .clearUser ..
  | .clearRoot .. | .dismiss .. => true
  | _ => false

def Transaction.onLeases : Transaction → Bool
  | .acquire .. | .renew .. | .release .. => true
  | _ => false

def Transaction.onDeletions : Transaction → Bool
  | .submitDeletion .. | .claimDeletion .. | .recordDeletionError .. | .pruneDeletions .. => true
  | _ => false

def Transaction.onConfigs : Transaction → Bool
  | .enqueueConfig .. | .recoverConfig .. | .claimConfig .. | .deferConfig .. => true
  | _ => false

/-- The transaction works on one admission table. -/
def Transaction.onFences (transaction : Transaction) : Bool :=
  transaction.onLeases || transaction.onDeletions || transaction.onConfigs

namespace Database

theorem exec_sameFences (db : Database) (now clock : Nat) {transaction : Transaction}
    (group : transaction.onIndex = true) : SameFences db (db.exec now clock transaction) := by
  -- each of these writes index rows; the other group of transactions is excluded by `group`
  cases transaction with
  | inspect userID workspaceID =>
    simp only [exec, inspectActiveIndexJob]
    split
    · exact .refl db
    · exact ⟨rfl, rfl, rfl⟩
  | create userID req wait jobID =>
    rcases exec_create_cases db now clock userID req wait jobID with same | ⟨_, _, _, created⟩
    · rw [same]
      exact .refl db
    · exact createIndexJob_fences created
  | commitBatch userID jobID paths chunks fallback sentDeletions =>
    exact settle_cases (.refl db) fun _ committed => commitIndexBatch_fences committed
  | uploadHeartbeat userID jobID =>
    refine settle_cases (.refl db) fun after committed => ?_
    rw [uploadHeartbeat_eq_ok committed]
    exact ⟨rfl, rfl, rfl⟩
  | intent userID jobID =>
    refine settle_cases (.refl db) fun after committed => ?_
    rw [publishIntent_eq_ok committed]
    exact ⟨rfl, rfl, rfl⟩
  | complete userID jobID rootID cloudRevision =>
    refine settle_cases (.refl db) fun after committed => ?_
    obtain ⟨job, files, workspaces, -, -, -, -, rfl⟩ := completeIndexJob_eq_ok committed
    exact ⟨rfl, rfl, rfl⟩
  | failPublication userID jobID failure =>
    simp only [exec, finishFailedPublication]
    cases marked : db.markIndexJobFailed now userID jobID failure
        (classifyIndexFailure .failed failure) with
    | none => exact .refl db
    | some after =>
      rw [Option.getD_some, markIndexJobFailed_eq_some marked]
      exact ⟨rfl, rfl, rfl⟩
  | fail userID jobID report =>
    rcases exec_fail_cases db now clock userID jobID report with same | ⟨_, _, failed⟩
    · rw [same]
      exact .refl db
    · rw [markIndexJobFailed_eq_some failed]
      exact ⟨rfl, rfl, rfl⟩
  | dismiss userID rootID hasPublishedIndex =>
    simp only [exec, dismissRootFailureState]
    split <;> exact ⟨rfl, rfl, rfl⟩
  | failBegin | dropManifest | heartbeat | accepted | recordRevision | touch | sweep | clearUser
  | clearRoot => exact ⟨rfl, rfl, rfl⟩
  | _ => simp [Transaction.onIndex] at group

theorem exec_onLeases (db : Database) (now clock : Nat) {transaction : Transaction}
    (group : transaction.onLeases = true) :
    db.exec now clock transaction =
      { db with leases := (db.exec now clock transaction).leases } := by
  cases transaction with
  | acquire userID resource kind token mode =>
    simp only [exec, tryAcquireIndexOperation]
    split
    · cases (db.dropExpiredLeases now userID).insert _ <;> rfl
    · rfl
  | renew | release => rfl
  | _ => simp [Transaction.onLeases] at group

theorem exec_onDeletions (db : Database) (now clock : Nat) {transaction : Transaction}
    (group : transaction.onDeletions = true) :
    db.exec now clock transaction =
      { db with rootDeletionJobs := (db.exec now clock transaction).rootDeletionJobs } := by
  cases transaction with
  | submitDeletion tenantID actorID rootID retryJobID id wait =>
    refine settle_cases (P := fun after => after = { db with
      rootDeletionJobs := after.rootDeletionJobs }) rfl ?_
    intro after committed
    obtain ⟨⟨job, written⟩, submitted, rfl⟩ := map_eq_ok committed
    rcases submitRootDeletion_cases submitted with rfl | ⟨paused, rfl⟩ | ⟨jobs, rfl, -⟩ <;> rfl
  | claimDeletion attempt locked =>
    simp only [exec, claimRootDeletion]
    split <;> rfl
  | recordDeletionError | pruneDeletions => rfl
  | _ => simp [Transaction.onDeletions] at group

theorem exec_onConfigs (db : Database) (now clock : Nat) {transaction : Transaction}
    (group : transaction.onConfigs = true) :
    db.exec now clock transaction =
      { db with platformConfigJobs := (db.exec now clock transaction).platformConfigJobs } := by
  cases transaction with
  | enqueueConfig id sectionName embeddingChanged =>
    refine settle_cases (P := fun after => after = { db with
      platformConfigJobs := after.platformConfigJobs }) rfl ?_
    intro after committed
    obtain ⟨⟨job, written⟩, enqueued, rfl⟩ := map_eq_ok committed
    rcases enqueuePlatformConfigJob_cases enqueued with rfl | ⟨jobs, rfl, -⟩ <;> rfl
  | claimConfig attempt locked =>
    simp only [exec, claimPlatformConfigJob]
    split <;> rfl
  | recoverConfig | deferConfig => rfl
  | _ => simp [Transaction.onConfigs] at group

theorem exec_sameIndex (db : Database) (now clock : Nat) {transaction : Transaction}
    (group : transaction.onFences = true) : SameIndex db (db.exec now clock transaction) := by
  simp only [Transaction.onFences, Bool.or_eq_true] at group
  rcases group with (leases | deletions) | configs
  · rw [exec_onLeases db now clock leases]
    exact ⟨rfl, rfl, rfl, rfl⟩
  · rw [exec_onDeletions db now clock deletions]
    exact ⟨rfl, rfl, rfl, rfl⟩
  · rw [exec_onConfigs db now clock configs]
    exact ⟨rfl, rfl, rfl, rfl⟩

/-! ### Fences -/

theorem exec_deletions (db : Database) (now clock : Nat) (transaction : Transaction) :
    Table.Traces RootDeletionJob.ActiveFrom db.rootDeletionJobs
      (db.exec now clock transaction).rootDeletionJobs ∨
    ∃ tenantID actorID rootID retryJobID id wait rootDeletionJobs,
      transaction = .submitDeletion tenantID actorID rootID retryJobID id wait ∧
      db.exec now clock transaction = { db with rootDeletionJobs } ∧
      db.rootDeletionJobs.insert [.submitted now tenantID actorID rootID id] =
        some rootDeletionJobs ∧
      (∀ job ∈ db.rootDeletionJobs, job.userID = tenantID → job.active = false) ∧
      (∀ lease ∈ db.leases, lease.userID = tenantID → lease.live now = false) ∧
      (∀ job ∈ db.indexJobs, job.userID = tenantID → job.status ≠ .running) ∧
      ∀ config ∈ db.platformConfigJobs, config.fencing = false := by
  have unchanged : Table.Traces RootDeletionJob.ActiveFrom db.rootDeletionJobs
      db.rootDeletionJobs := Table.Traces.refl .refl
  -- only a submission can make an active row, and it has then found the tenant idle
  cases transaction with
  | submitDeletion tenantID actorID rootID retryJobID id wait =>
    simp only [exec]
    rcases db.settle_map_eq (db.submitRootDeletion now tenantID actorID rootID retryJobID id wait)
      with same | ⟨job, submitted⟩
    · rw [same]
      exact .inl unchanged
    rcases submitRootDeletion_cases submitted with
      same | ⟨paused, same⟩ | ⟨jobs, same, inserted, inactive, idle, done, unfenced⟩
    · rw [same]
      exact .inl unchanged
    · rw [same]
      exact .inl (Table.traces_update .refl fun row _ _ active => ⟨active, rfl, rfl, rfl⟩)
    · refine .inr ⟨tenantID, actorID, rootID, retryJobID, id, wait, jobs, rfl, same, inserted,
        ?_, ?_, ?_, Table.holds_eq_false.mp unfenced⟩
      · intro job stored owner
        by_contra active
        have listed : job ∈ db.rootDeletionJobs.select (fun job =>
            job.userID == tenantID && job.active) :=
          Table.mem_select.mpr ⟨stored, by simpa [owner] using active⟩
        rw [inactive] at listed
        exact List.not_mem_nil listed
      · intro lease stored owner
        simpa [owner] using Table.holds_eq_false.mp idle lease stored
      · intro job stored owner
        simpa [owner] using Table.holds_eq_false.mp done job stored
  | claimDeletion attempt locked => exact .inl (claimRootDeletion_traces now attempt locked)
  | recordDeletionError job deferOnly =>
    exact .inl (recordRootDeletionError_traces now job deferOnly)
  | pruneDeletions pruned => exact .inl (Table.traces_delete .refl _)
  | finishDeletion job cloudCount =>
    simp only [exec]
    rcases db.settle_eq (db.finishRootDeletion now job cloudCount) with same | committed
    · rw [same]
      exact .inl unchanged
    · exact .inl (finishRootDeletion_eq_ok committed).2.2
  | finishConfig job receipt =>
    simp only [exec]
    rcases db.settle_eq (db.finishPlatformConfigJob now job receipt) with same | committed
    · rw [same]
      exact .inl unchanged
    · rw [(finishPlatformConfigJob_eq_ok committed).1]
      exact .inl unchanged
  | acquire | renew | release =>
    rw [exec_onLeases db now clock rfl]
    exact .inl unchanged
  | enqueueConfig | recoverConfig | claimConfig | deferConfig =>
    rw [exec_onConfigs db now clock rfl]
    exact .inl unchanged
  | _ =>
    rw [(exec_sameFences db now clock rfl).deletions]
    exact .inl unchanged

theorem exec_configs (db : Database) (now clock : Nat) (transaction : Transaction) :
    Table.Traces PlatformConfigJob.FencingFrom db.platformConfigJobs
      (db.exec now clock transaction).platformConfigJobs ∨
    ∃ id sectionName embeddingChanged platformConfigJobs,
      transaction = .enqueueConfig id sectionName embeddingChanged ∧
      db.exec now clock transaction = { db with platformConfigJobs } ∧
      db.platformConfigJobs.insert [.enqueued now id sectionName embeddingChanged] =
        some platformConfigJobs ∧
      (∀ config ∈ db.platformConfigJobs, config.active = false) ∧
      (embeddingChanged = true → (∀ lease ∈ db.leases, lease.live now = false) ∧
        ∀ job ∈ db.rootDeletionJobs, job.active = false) := by
  have unchanged : Table.Traces PlatformConfigJob.FencingFrom db.platformConfigJobs
      db.platformConfigJobs := Table.Traces.refl .refl
  -- likewise for the fencing rows of the platform, which only an enqueue makes
  cases transaction with
  | enqueueConfig id sectionName embeddingChanged =>
    simp only [exec]
    rcases db.settle_map_eq (db.enqueuePlatformConfigJob now id sectionName embeddingChanged)
      with same | ⟨job, enqueued⟩
    · rw [same]
      exact .inl unchanged
    rcases enqueuePlatformConfigJob_cases enqueued with same | ⟨jobs, same, inserted, free, idle⟩
    · rw [same]
      exact .inl unchanged
    · refine .inr ⟨id, sectionName, embeddingChanged, jobs, rfl, same, inserted,
        Table.holds_eq_false.mp free, fun fences => ?_⟩
      exact ⟨Table.holds_eq_false.mp (idle fences).1, Table.holds_eq_false.mp (idle fences).2⟩
  | recoverConfig id => exact .inl (Table.traces_update .refl fun row _ _ fencing => fencing)
  | deferConfig job => exact .inl (Table.traces_update .refl fun row _ _ fencing => fencing)
  | claimConfig attempt locked => exact .inl (claimPlatformConfigJob_traces now attempt locked)
  | finishConfig job receipt =>
    simp only [exec]
    rcases db.settle_eq (db.finishPlatformConfigJob now job receipt) with same | committed
    · rw [same]
      exact .inl unchanged
    · exact .inl (finishPlatformConfigJob_eq_ok committed).2.1
  | finishDeletion job cloudCount =>
    simp only [exec]
    rcases db.settle_eq (db.finishRootDeletion now job cloudCount) with same | committed
    · rw [same]
      exact .inl unchanged
    · rw [(finishRootDeletion_eq_ok committed).2.1]
      exact .inl unchanged
  | acquire | renew | release =>
    rw [exec_onLeases db now clock rfl]
    exact .inl unchanged
  | submitDeletion | claimDeletion | recordDeletionError | pruneDeletions =>
    rw [exec_onDeletions db now clock rfl]
    exact .inl unchanged
  | _ =>
    rw [(exec_sameFences db now clock rfl).configs]
    exact .inl unchanged

end Database

/-! ### Leases -/

/-- The lease that an attempt asks for. -/
def wantedLease (now : Nat) (userID resource kind token : String) (mode : OperationMode) :
    OperationLease :=
  { token, userID, resource, mode, kind, expiresAt := now + indexOperationLeaseDuration }

/-- Everything a transaction can do to the lease table. -/
inductive LeaseChange (now : Nat) (db : Database) :
    Transaction → Table OperationLease.token → Prop where
  | same (transaction : Transaction) : LeaseChange now db transaction db.leases
  | refused (userID resource kind token : String) (mode : OperationMode) :
      LeaseChange now db (.acquire userID resource kind token mode) (db.dropExpiredLeases now userID)
  | admitted (userID resource kind token : String) (mode : OperationMode)
      (leases : Table OperationLease.token)
      (free : db.admits now (wantedLease now userID resource kind token mode) = true)
      (inserted : (db.dropExpiredLeases now userID).insert
        [wantedLease now userID resource kind token mode] = some leases) :
      LeaseChange now db (.acquire userID resource kind token mode) leases
  | renewed (userID token : String) :
      LeaseChange now db (.renew userID token) (db.renewIndexOperation now userID token).leases
  | deleted (transaction : Transaction) (p : OperationLease → Bool) :
      LeaseChange now db transaction (db.leases.delete p)

namespace Database

theorem exec_leases (db : Database) (now clock : Nat) (transaction : Transaction) :
    LeaseChange now db transaction (db.exec now clock transaction).leases := by
  cases transaction with
  | acquire userID resource kind token mode =>
    simp only [exec, tryAcquireIndexOperation]
    split
    next free =>
      -- a token that is in use already violates the key, and the statement is rolled back
      cases inserted : (db.dropExpiredLeases now userID).insert
          [wantedLease now userID resource kind token mode] with
      | none =>
        simp only [wantedLease] at inserted
        simp only [inserted, Option.map_none, Option.getD_none]
        exact .same _
      | some leases =>
        have admitted := LeaseChange.admitted userID resource kind token mode leases free inserted
        simp only [wantedLease] at inserted
        simp only [inserted, Option.map_some, Option.getD_some]
        exact admitted
    · exact .refused userID resource kind token mode
  | renew userID token => exact .renewed userID token
  | release userID token => exact .deleted _ _
  | submitDeletion | claimDeletion | recordDeletionError | pruneDeletions =>
    rw [exec_onDeletions db now clock rfl]
    exact .same _
  | enqueueConfig | recoverConfig | claimConfig | deferConfig =>
    rw [exec_onConfigs db now clock rfl]
    exact .same _
  | finishDeletion job cloudCount =>
    simp only [exec]
    rcases db.settle_eq (db.finishRootDeletion now job cloudCount) with same | committed
    · rw [same]
      exact .same _
    · rw [(finishRootDeletion_eq_ok committed).2.1]
      exact .same _
  | finishConfig job receipt =>
    simp only [exec]
    rcases db.settle_eq (db.finishPlatformConfigJob now job receipt) with same | committed
    · rw [same]
      exact .same _
    · rcases (finishPlatformConfigJob_eq_ok committed).2.2 with same | cleared
      · rw [same]
        exact .same _
      · -- a completed change of the embedding resets every tenant
        rw [cleared]
        exact .deleted _ _
  | _ =>
    rw [(exec_sameFences db now clock rfl).leases]
    exact .same _

/-- Where a lease of the table comes from. -/
theorem mem_exec_leases {db : Database} {now clock : Nat} {transaction : Transaction} {lease : OperationLease}
    (member : lease ∈ (db.exec now clock transaction).leases) :
    lease ∈ db.leases ∨
    (∃ userID resource kind token mode, transaction = .acquire userID resource kind token mode ∧
      lease = wantedLease now userID resource kind token mode ∧ db.admits now lease = true) ∨
    ∃ userID token old, transaction = .renew userID token ∧ old ∈ db.leases ∧
      old.userID = userID ∧ old.token = token ∧ lease = old.renew now := by
  have change := db.exec_leases now clock transaction
  generalize (db.exec now clock transaction).leases = after at change member
  cases change with
  | same => exact .inl member
  | refused userID => exact .inl (Table.mem_delete.mp member).1
  | deleted => exact .inl (Table.mem_delete.mp member).1
  | admitted userID resource kind token mode leases free inserted =>
    rcases (Table.mem_insert inserted).mp member with kept | added
    · exact .inl (Table.mem_delete.mp kept).1
    · rw [List.mem_singleton] at added
      subst added
      exact .inr (.inl ⟨userID, resource, kind, token, mode, rfl, rfl, free⟩)
  | renewed userID token =>
    obtain ⟨old, stored, rfl⟩ := mem_renewIndexOperation.mp member
    split
    next hit =>
      simp only [Bool.and_eq_true, beq_iff_eq] at hit
      exact .inr (.inr ⟨userID, token, old, rfl, stored, hit.1, hit.2, rfl⟩)
    · exact .inl stored

/-- Apart from its expiry a lease stays as it was admitted. -/
theorem lease_source {db : Database} {now clock : Nat} {transaction : Transaction}
    {lease : OperationLease} (member : lease ∈ (db.exec now clock transaction).leases) :
    (∃ old ∈ db.leases, ∃ expiresAt, lease = { old with expiresAt }) ∨
    ∃ userID resource kind token mode, transaction = .acquire userID resource kind token mode ∧
      lease = wantedLease now userID resource kind token mode := by
  rcases mem_exec_leases member with stored | ⟨userID, resource, kind, token, mode, same, new, -⟩ |
    ⟨userID, token, old, -, stored, -, -, renewed⟩
  · exact .inl ⟨lease, stored, lease.expiresAt, rfl⟩
  · exact .inr ⟨userID, resource, kind, token, mode, same, new⟩
  · exact .inl ⟨old, stored, _, renewed⟩

end Database

end AcemcpRelay
