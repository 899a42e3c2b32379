import AcemcpRelay.JobSteps

/-!
# Closed jobs

A job that has ended should be closed in every respect: phase `done`, an end
time, no manifest rows, and for one that failed the files it still owed and a
diagnostic of the table.

The transactions that end a job write all of it at once. The start path does not:
after a failed `begin` it marks the job with one statement, which leaves
`failed_files` as it is, and removes the manifest with another.
`terminalClosed_iff` says that nothing else leaves a job half closed.
-/
namespace AcemcpRelay

open Store

structure JobClosed (db : Database) (job : IndexJob) : Prop where
  phase : job.phase = .done
  completedAt : job.completedAt.isSome = true
  manifest : db.NoManifest job.id
  failure : job.status = .failed ∨ job.status = .timedOut →
    job.failedFiles = job.remaining ∧
      ⟨job.errorCode, job.errorOrigin, job.recovery⟩ ∈ indexFailureDiagnosticsByCode

def TerminalClosed (db : Database) : Prop :=
  ∀ job ∈ db.indexJobs, job.status.terminal = true → JobClosed db job

instance (db : Database) (job : IndexJob) : Decidable (JobClosed db job) :=
  decidable_of_iff (job.phase = .done ∧ job.completedAt.isSome = true ∧ db.NoManifest job.id ∧
      (job.status = .failed ∨ job.status = .timedOut → job.failedFiles = job.remaining ∧
        ⟨job.errorCode, job.errorOrigin, job.recovery⟩ ∈ indexFailureDiagnosticsByCode))
    ⟨fun ⟨phase, completedAt, manifest, failure⟩ => ⟨phase, completedAt, manifest, failure⟩,
      fun closed => ⟨closed.phase, closed.completedAt, closed.manifest, closed.failure⟩⟩

instance (db : Database) : Decidable (TerminalClosed db) :=
  inferInstanceAs (Decidable (∀ job ∈ db.indexJobs, job.status.terminal = true →
    JobClosed db job))

/-- A failed `begin` is recorded only for a job without manifest rows and without
pending files. -/
def BeginFailsEmpty (world : World) : Event → Prop
  | .commit _ (.failBegin userID jobID _) =>
    ∀ job ∈ world.db.indexJobs, job.runningAs userID jobID = true →
      world.db.NoManifest job.id ∧ job.indexedFiles = job.totalFiles
  | _ => True

/-- `failed_files` is written when a job ends and not before. -/
def UnfailedRunning (db : Database) : Prop :=
  ∀ job ∈ db.indexJobs, job.status = .running → job.failedFiles = 0

section Step

variable {db : Database} {now clock : Nat} {transaction : Transaction}

theorem UnfailedRunning.exec (unfailed : UnfailedRunning db) :
    UnfailedRunning (db.exec now clock transaction) := by
  intro row member running
  rcases Database.mem_exec_jobs member with ⟨old, stored, change⟩ | ⟨files, created⟩
  · have source := unfailed old stored
    cases change with
    | reclaimed | beginFailed | completed | publicationFailed | failed | swept => cases running
    | same => exact source running
    | _ => exact source ‹_›
  · obtain ⟨_, _, _, _, _, -, -, -, -, same, -⟩ := created
    rw [same]
    rfl

/-- What a closing statement that accounts for the remaining files leaves behind. -/
theorem jobClosed_of_closed {after : Database} {job : IndexJob} {status : JobStatus}
    {failure : String} {diagnostic : IndexFailureDiagnostic} {row : IndexJob}
    (emptied : after.NoManifest job.id) (listed : diagnostic ∈ indexFailureDiagnosticsByCode)
    (owed : row.failedFiles = job.remaining)
    (same : row = { job.closed now status failure diagnostic with
      failedFiles := row.failedFiles, heartbeatAt := row.heartbeatAt }) : JobClosed after row := by
  rw [same]
  exact ⟨rfl, rfl, emptied, fun _ => ⟨owed, listed⟩⟩

/-- A transaction other than the mark of a failed `begin` closes jobs properly. -/
theorem jobClosed_change {old row : IndexJob} (notBegin : ∀ detail, transaction ≠
    .failBegin old.userID old.id detail) (closed : TerminalClosed db) (stored : old ∈ db.indexJobs)
    (change : JobChange now clock db (db.exec now clock transaction) transaction old row)
    (terminal : row.status.terminal = true) :
    JobClosed (db.exec now clock transaction) row := by
  cases change with
  | same _ =>
    have before := closed old stored terminal
    exact ⟨before.phase, before.completedAt, Database.noManifest_exec stored before.manifest,
      before.failure⟩
  | reclaimed _ running expired emptied =>
    exact jobClosed_of_closed emptied (classifyIndexFailure_mem _ _) rfl rfl
  | beginFailed _ running detail => exact absurd rfl (notBegin detail)
  | completed _ ready rootID cloudRevision emptied =>
    exact ⟨rfl, rfl, emptied, by rintro (impossible | impossible) <;> cases impossible⟩
  | publicationFailed _ running failure emptied =>
    exact jobClosed_of_closed emptied (classifyIndexFailure_mem _ _) rfl rfl
  | failed _ running report diagnostic resolved emptied =>
    exact jobClosed_of_closed emptied (resolveReported_mem resolved) rfl rfl
  | swept _ locked expired emptied =>
    rw [IndexJob.sweep_eq_reclaim]
    exact jobClosed_of_closed emptied (classifyIndexFailure_mem _ _) rfl rfl
  | _ =>
    -- the others leave a running job running
    rw [JobStatus.terminal_iff] at terminal
    exact absurd ‹_› terminal

theorem TerminalClosed.exec (notBegin : ∀ userID jobID detail, transaction ≠
    .failBegin userID jobID detail) (closed : TerminalClosed db) :
    TerminalClosed (db.exec now clock transaction) := by
  intro row member terminal
  rcases Database.mem_exec_jobs member with ⟨old, stored, change⟩ | ⟨files, created⟩
  · exact jobClosed_change (notBegin _ _) closed stored change terminal
  · rw [created.status] at terminal
    cases terminal

/-- The mark of a failed `begin` closes the job iff there was nothing to close. -/
theorem terminalClosed_failBegin {userID jobID detail : String} (unfailed : UnfailedRunning db)
    (closed : TerminalClosed db) :
    TerminalClosed (db.failIndexBegin now userID jobID detail) ↔
      ∀ job ∈ db.indexJobs, job.runningAs userID jobID = true →
        db.NoManifest job.id ∧ job.indexedFiles = job.totalFiles := by
  constructor
  · intro after job stored hit
    have marked := after _ (Table.mem_update_of_hit stored hit) rfl
    have owed := (marked.failure (.inl rfl)).1
    obtain ⟨-, -, running⟩ := IndexJob.runningAs_iff.mp hit
    refine ⟨marked.manifest, ?_⟩
    have zero := unfailed job stored running
    simp only [IndexJob.closed, IndexJob.remaining, zero] at owed
    omega
  · intro empty row member terminal
    simp only [Database.failIndexBegin, Database.updateJobs] at member
    rcases Table.mem_update_cases member with ⟨stored, -⟩ | ⟨job, stored, hit, rfl⟩
    · have before := closed row stored terminal
      exact ⟨before.phase, before.completedAt, before.manifest, before.failure⟩
    · obtain ⟨manifest, all⟩ := empty job stored hit
      obtain ⟨-, -, running⟩ := IndexJob.runningAs_iff.mp hit
      have zero := unfailed job stored running
      have owed : job.failedFiles = job.remaining := by
        simp only [zero, IndexJob.remaining]
        omega
      exact jobClosed_of_closed manifest (classifyIndexFailure_mem _ _) owed rfl

end Step

/-- Every job that has ended is fully closed in every state of a run iff the run
never records a failed `begin` for a job that has a manifest or pending files. -/
theorem terminalClosed_iff (events : List Event) :
    Throughout World.step (fun world => TerminalClosed world.db) World.initial events ↔
      Along World.step BeginFailsEmpty World.initial events := by
  have unfailed (world : World) (event : Event) :
      UnfailedRunning world.db → UnfailedRunning (world.step event).db :=
    World.step_of_exec (P := UnfailedRunning) (fun _ _ _ _ before => before.exec) world event
  have exact_step (world : World) (event : Event) (inv : UnfailedRunning world.db)
      (closed : TerminalClosed world.db) :
      TerminalClosed (world.step event).db ↔ BeginFailsEmpty world event := by
    cases event with
    | tick => exact ⟨fun _ => trivial, fun _ => closed⟩
    | commit waited transaction =>
      simp only [World.step]
      cases transaction with
      | failBegin userID jobID detail => exact terminalClosed_failBegin inv closed
      | _ =>
        refine ⟨fun _ => trivial, fun _ => ?_⟩
        split
        · exact closed.exec (by intros; simp)
        · exact closed
  exact throughout_iff_along unfailed exact_step
    (by intro job member; exact absurd member (Table.not_mem_empty job))
    (by intro job member; exact absurd member (Table.not_mem_empty job)) events

/-! ### A job left half closed -/

/-- A first start with one file, whose `begin` fails; the process stops before it
deletes the manifest, or goes on to do so. -/
def failedBegin : List Event :=
  let jobID := "6f1c1f0a-52f5-4f0e-9a52-0e2a5d2c7b11"
  let file : ManifestFile :=
    { path := "main.go", size := 1, estimatedChunks := 1
      hash := "ca978112ca1bbdcafac231b39a23dc4da786eff8147c4e72b9807785afee48bb" }
  [.commit 0 (.create "tenant"
      { workspaceID := "root", workspaceName := "root", branch := "", revision := ""
        files := [file], unreadableFiles := [], rootID := "root" } 0 jobID),
    .commit 0 (.failBegin "tenant" jobID "unavailable"),
    .commit 0 (.dropManifest jobID)]

/-- Between the two statements the failed job still has its manifest, and after
both of them one pending file and no failed one. -/
theorem failedBegin_leaves_job_open :
    ¬ TerminalClosed (runFrom World.step World.initial (failedBegin.take 2)).db ∧
      ¬ TerminalClosed (runFrom World.step World.initial failedBegin).db := by
  decide +kernel

end AcemcpRelay
