import AcemcpRelay.ManifestSteps

/-!
# Progress counters

`index_jobs` carries two numbers that could be read off the manifest: how many of
its files are to be indexed, and how many of them are. `complete` trusts the
numbers.

They agree with the manifest in every run, with one exception. A start whose LCE
`begin` failed marks the job as failed and deletes the manifest in two separate
statements, and ignores the error of the first: when only the second takes effect
the job is still running, without a manifest. `countersHold_iff` says that this is
the only way to make the numbers drift.
-/
namespace AcemcpRelay

open Store Database

structure CountersAgree (db : Database) (job : IndexJob) : Prop where
  total : (db.manifest job.id).countP (·.needsIndex) = job.totalFiles
  needed : ∀ file ∈ db.manifest job.id, file.indexed = true → file.needsIndex = true
  indexed : (db.manifest job.id).countP (·.indexed) = job.indexedFiles

def CountersHold (db : Database) : Prop :=
  ∀ job ∈ db.indexJobs, job.status = .running → CountersAgree db job

instance (db : Database) (job : IndexJob) : Decidable (CountersAgree db job) :=
  decidable_of_iff ((db.manifest job.id).countP (·.needsIndex) = job.totalFiles ∧
      (∀ file ∈ db.manifest job.id, file.indexed = true → file.needsIndex = true) ∧
      (db.manifest job.id).countP (·.indexed) = job.indexedFiles)
    ⟨fun ⟨total, needed, indexed⟩ => ⟨total, needed, indexed⟩,
      fun agree => ⟨agree.total, agree.needed, agree.indexed⟩⟩

instance (db : Database) : Decidable (CountersHold db) :=
  inferInstanceAs (Decidable (∀ job ∈ db.indexJobs, job.status = .running → CountersAgree db job))

/-- The manifest of a job is not deleted while the job is running and owes files. -/
def DropsClosed (world : World) : Event → Prop
  | .commit _ (.dropManifest jobID) =>
    ∀ job ∈ world.db.indexJobs, job.id = jobID → job.status = .running → job.totalFiles = 0
  | _ => True

section Step

variable {db : Database} {now clock : Nat} {transaction : Transaction}

theorem countP_manifestRow {previous files : List ManifestFile} (jobID : String)
    (distinct : (files.map (·.path)).Nodup) :
    (files.map (manifestRow jobID (diffManifest previous files).pending)).countP (·.needsIndex) =
      (diffManifest previous files).pending.length := by
  have needed : ∀ file ∈ files, (manifestRow jobID (diffManifest previous files).pending file
      ).needsIndex = true ↔ changed previous file = true := by
    intro file listed
    simpa [manifestRow] using mem_pending distinct listed
  rw [List.countP_map]
  refine (List.countP_congr needed).trans ?_
  simp [diffManifest, List.countP_eq_length_filter]

/-- A new job owes the files of its difference, and none of them is indexed. -/
theorem countersAgree_of_begins {after : Database} {job : IndexJob} {files : List ManifestFile}
    (begins : Begins db after job files) : CountersAgree after job := by
  have unmarked : ∀ file ∈ after.manifest job.id, file.indexed = false := by
    rw [begins.manifest]
    intro file listed
    obtain ⟨source, -, rfl⟩ := List.mem_map.mp listed
    rfl
  refine ⟨?_, fun file listed marked => ?_, ?_⟩
  · rw [begins.manifest, begins.totalFiles]
    exact countP_manifestRow job.id begins.distinct
  · rw [unmarked file listed] at marked
    cases marked
  · rw [begins.indexedFiles, List.countP_eq_zero]
    intro file listed
    simp [unmarked file listed]

/-- An upload keeps the counters, whichever batches came before or come in between. -/
theorem countersAgree_of_marked {marked after : Database} {old row : IndexJob} {paths : List String}
    (agree : CountersAgree db old) (same : SameJob old row)
    (all : db.markAllIndexed row.id paths = .ok marked)
    (manifest : after.manifest row.id = marked.manifest row.id)
    (indexedFiles : row.indexedFiles = old.indexedFiles + paths.length) :
    CountersAgree after row := by
  obtain ⟨indexed, needed⟩ := countP_manifest_markAllIndexed all
  rw [same.id] at manifest all indexed needed
  refine ⟨?_, ?_, ?_⟩
  · rw [same.id, manifest, needed, same.totalFiles]
    exact agree.total
  · rw [same.id, manifest]
    intro file listed isIndexed
    obtain ⟨member, owner⟩ := mem_manifest.mp listed
    -- the row was marked before, or it was pending and so needed
    have traced : Table.Traces (FileChange (.commitBatch old.userID old.id paths 0 false false))
        db.indexJobFiles marked.indexJobFiles := markAllIndexed_traces all
    obtain ⟨before, source, change⟩ := traced file member
    cases change with
    | same => exact agree.needed file (mem_manifest.mpr ⟨source, owner⟩) isIndexed
    | marked _ pending => exact pending.1
  · rw [same.id, manifest, indexed, indexedFiles, agree.indexed]

theorem countersAgree_of_same {after : Database} {old row : IndexJob} (agree : CountersAgree db old)
    (same : SameJob old row) (manifest : after.manifest row.id = db.manifest row.id)
    (indexedFiles : row.indexedFiles = old.indexedFiles) : CountersAgree after row := by
  rw [same.id] at manifest
  refine ⟨?_, ?_, ?_⟩
  · rw [same.id, manifest, same.totalFiles]
    exact agree.total
  · rw [same.id, manifest]
    exact agree.needed
  · rw [same.id, manifest, indexedFiles]
    exact agree.indexed

/-- Every transaction but the `DELETE` of a manifest keeps the counters. -/
theorem CountersHold.exec (referenced : db.ManifestsReferenced) (hold : CountersHold db)
    (kept : ∀ jobID, transaction ≠ .dropManifest jobID) :
    CountersHold (db.exec now clock transaction) := by
  intro row member running
  rcases exec_running member running with ⟨old, stored, before, same, progress⟩ | ⟨files, created⟩
  · have agree := hold old stored before
    cases progress with
    | kept _ manifest indexedFiles => exact countersAgree_of_same agree same manifest indexedFiles
    | committed _ _ _ _ _ marked all manifest indexedFiles =>
      exact countersAgree_of_marked agree same all manifest indexedFiles
    | dropped => exact absurd rfl (kept row.id)
  · exact countersAgree_of_begins (begins_of_created referenced created)

/-- The `DELETE` keeps them iff no running job loses files it owed. -/
theorem countersHold_deleteManifest {jobID : String} (hold : CountersHold db) :
    CountersHold (db.deleteManifest jobID) ↔
      ∀ job ∈ db.indexJobs, job.id = jobID → job.status = .running → job.totalFiles = 0 := by
  have emptied : (db.deleteManifest jobID).manifest jobID = [] := by
    simp [manifest, deleteManifest, Table.select, Table.delete]
  constructor
  · rintro after job stored rfl running
    have total := (after job stored running).total
    rw [emptied] at total
    exact total.symm
  · intro owed job stored running
    have agree := hold job stored running
    by_cases mine : job.id = jobID
    · have total := owed job stored mine running
      -- without files to index there was nothing to count
      have unneeded : ∀ file ∈ db.manifest job.id, file.needsIndex ≠ true :=
        List.countP_eq_zero.mp (agree.total.trans total)
      have unmarked : (db.manifest job.id).countP (·.indexed) = 0 := by
        rw [List.countP_eq_zero]
        intro file listed isIndexed
        exact unneeded file listed (agree.needed file listed isIndexed)
      rw [← mine] at emptied ⊢
      refine ⟨?_, ?_, ?_⟩
      · rw [emptied, total, List.countP_nil]
      · simp [emptied]
      · rw [emptied, ← agree.indexed, unmarked, List.countP_nil]
    · exact countersAgree_of_same agree ⟨rfl, rfl, rfl, rfl, rfl, rfl, rfl⟩
        (manifest_deleteManifest mine) rfl

end Step

/-! ### Which upload committed a file -/

/-- The manifest files, with their jobs, that a step of a run commits. -/
def World.commits (world : World) : Event → List (String × String)
  | .commit waited (.commitBatch userID jobID paths chunks fallback sentDeletions) =>
    match world.db.commitIndexBatch (world.clock - waited) userID jobID paths chunks fallback
        sentDeletions with
    | .ok _ => paths.map (jobID, ·)
    | .error _ => []
  | _ => []

/-- All commits of a run. -/
def commitLog : World → List Event → List (String × String)
  | _, [] => []
  | world, event :: events => world.commits event ++ commitLog (world.step event) events

/-- The flag of a manifest row says whether it has been committed, and a file that
has been committed has been committed once. -/
structure LogAgrees (world : World) (log : List (String × String)) : Prop where
  referenced : world.db.ManifestsReferenced
  issued : ∀ job ∈ world.db.indexJobs, job.id ∈ world.issued
  known : ∀ entry ∈ log, entry.1 ∈ world.issued
  once : ∀ file ∈ world.db.indexJobFiles,
    log.count (file.jobID, file.path) = if file.indexed then 1 else 0

theorem count_map_pair {jobID : String} {paths : List String} {file : JobFile}
    (distinct : paths.Nodup) : (paths.map (jobID, ·)).count (file.jobID, file.path) =
      if file.jobID = jobID ∧ file.path ∈ paths then 1 else 0 := by
  have nodup : (paths.map (jobID, ·)).Nodup := distinct.map (fun a b same => by simpa using same)
  have listed : (file.jobID, file.path) ∈ paths.map (jobID, ·) ↔
      file.jobID = jobID ∧ file.path ∈ paths := by
    simp only [List.mem_map, Prod.mk.injEq]
    constructor
    · rintro ⟨path, member, rfl, rfl⟩
      exact ⟨rfl, member⟩
    · rintro ⟨rfl, member⟩
      exact ⟨file.path, member, rfl, rfl⟩
  split
  next hit => exact List.count_eq_one_of_mem nodup (listed.mpr hit)
  next missed => exact List.count_eq_zero.mpr fun member => missed (listed.mp member)

/-- A committed batch raises the flag of its files and of no others. -/
theorem once_of_marked {db marked : Database} {log : List (String × String)} {jobID : String}
    {paths : List String} (all : db.markAllIndexed jobID paths = .ok marked)
    (once : ∀ file ∈ db.indexJobFiles,
      log.count (file.jobID, file.path) = if file.indexed then 1 else 0)
    {file : JobFile} (member : file ∈ marked.indexJobFiles) :
    (log ++ paths.map (jobID, ·)).count (file.jobID, file.path) = if file.indexed then 1 else 0 := by
  obtain ⟨distinct, pending⟩ := markAllIndexed_ok_iff.mp ⟨marked, all⟩
  have traced : Table.Traces (FileChange (.commitBatch "" jobID paths 0 false false))
      db.indexJobFiles marked.indexJobFiles := markAllIndexed_traces all
  obtain ⟨old, source, change⟩ := traced file member
  have key : old.key = file.key := by cases change <;> rfl
  rw [List.count_append, count_map_pair distinct]
  by_cases hit : file.jobID = jobID ∧ file.path ∈ paths
  · obtain ⟨rfl, named⟩ := hit
    obtain ⟨row, stored, owner, path, needed, unmarked⟩ := pending file.path named
    have same : old = row := Table.eq_of_key_eq source stored (by
      rw [key, JobFile.key, JobFile.key, owner, path])
    have before := once row stored
    rw [owner, path, unmarked] at before
    -- were the flag still down, the file would still be pending
    have raised : file.indexed = true := by
      by_contra down
      have still : marked.Pending file.jobID file.path := by
        refine ⟨file, member, rfl, rfl, ?_, by simpa using down⟩
        subst same
        cases change <;> exact needed
      exact ((pending_markAllIndexed all).mp still).2 named
    simp [before, raised, named]
  · have unchanged : file = old := by
      cases change with
      | same => rfl
      | marked _ _ _ _ owner _ named => exact absurd ⟨owner, named⟩ hit
    rw [if_neg hit, Nat.add_zero, unchanged]
    exact once old source

/-- A step other than a committed batch adds no entry and raises no flag. -/
theorem once_of_exec {world : World} {log : List (String × String)} {waited : Nat}
    {transaction : Transaction} (agrees : LogAgrees world log)
    (possible : world.admissible transaction = true) {file : JobFile}
    (member : file ∈ (world.db.exec (world.clock - waited) world.clock transaction).indexJobFiles) :
    (log ++ world.commits (.commit waited transaction)).count (file.jobID, file.path) =
      if file.indexed then 1 else 0 := by
  by_cases batch : ∃ userID jobID paths chunks fallback sentDeletions,
      transaction = .commitBatch userID jobID paths chunks fallback sentDeletions
  · obtain ⟨userID, jobID, paths, chunks, fallback, sentDeletions, rfl⟩ := batch
    simp only [exec] at member
    simp only [World.commits]
    cases result : world.db.commitIndexBatch (world.clock - waited) userID jobID paths chunks
        fallback sentDeletions with
    | error message =>
      rw [result] at member
      simpa using agrees.once file member
    | ok after =>
      rw [result] at member
      obtain ⟨job, marked, -, -, all, rfl⟩ := commitIndexBatch_eq_ok result
      exact once_of_marked all agrees.once member
  · have silent : world.commits (.commit waited transaction) = [] := by
      cases transaction with
      | commitBatch => exact absurd ⟨_, _, _, _, _, _, rfl⟩ batch
      | _ => rfl
    rw [silent, List.append_nil]
    rcases world.db.exec_manifests (world.clock - waited) world.clock transaction with
      traced | ⟨job, files, created⟩
    · obtain ⟨old, source, change⟩ := traced file member
      cases change with
      | same => exact agrees.once file source
      | marked => exact absurd ⟨_, _, _, _, _, _, rfl⟩ batch
    · rcases created.mem_manifest member with source | owner
      · exact agrees.once file source
      · -- the identifier of the new job is in no entry of the log
        have unmarked : file.indexed = false := by
          have listed := mem_manifest.mpr ⟨member, owner⟩
          rw [(begins_of_created agrees.referenced created).manifest] at listed
          obtain ⟨source, -, rfl⟩ := List.mem_map.mp listed
          rfl
        have fresh := World.not_issued_of_created possible created
        rw [unmarked, owner]
        exact List.count_eq_zero.mpr fun entry => fresh (agrees.known _ entry)

theorem mem_commits {world : World} {event : Event} {entry : String × String}
    (listed : entry ∈ world.commits event) : ∃ job ∈ world.db.indexJobs, job.id = entry.1 := by
  unfold World.commits at listed
  split at listed
  · split at listed
    next result =>
      obtain ⟨job, _, found, -⟩ := commitIndexBatch_eq_ok result
      obtain ⟨stored, same, -⟩ := loadIndexJob_eq_some.mp found
      obtain ⟨path, -, rfl⟩ := List.mem_map.mp listed
      exact ⟨job, stored, same⟩
    · cases listed
  · cases listed

theorem LogAgrees.step {world : World} {log : List (String × String)} (agrees : LogAgrees world log)
    (event : Event) : LogAgrees (world.step event) (log ++ world.commits event) := by
  cases event with
  | tick elapsed =>
    simp only [World.commits, List.append_nil]
    exact ⟨agrees.referenced, agrees.issued, agrees.known, agrees.once⟩
  | commit waited transaction =>
    cases possible : world.admissible transaction with
    | false =>
      have silent : world.commits (.commit waited transaction) = [] := by
        cases transaction with
        | create => rfl
        | _ => simp [World.admissible] at possible
      rw [silent, List.append_nil]
      simpa [World.step, possible] using agrees
    | true =>
      simp only [World.step, possible, if_true]
      refine ⟨agrees.referenced.exec, fun job member => World.JobsIssued.exec agrees.issued member,
        fun entry listed => ?_, fun file member => ?_⟩
      · rcases List.mem_append.mp listed with earlier | now
        · exact World.mem_issue (agrees.known entry earlier) transaction
        · obtain ⟨job, stored, same⟩ := mem_commits now
          rw [← same]
          exact World.mem_issue (agrees.issued job stored) transaction
      · exact once_of_exec agrees possible member

theorem LogAgrees.run {world : World} {log : List (String × String)} (agrees : LogAgrees world log)
    (events : List Event) :
    LogAgrees (runFrom World.step world events) (log ++ commitLog world events) := by
  induction events generalizing world log with
  | nil => simpa [commitLog] using agrees
  | cons event events ih =>
    rw [runFrom_cons, commitLog, ← List.append_assoc]
    exact ih (agrees.step event)

theorem logAgrees_initial : LogAgrees World.initial [] := by
  refine ⟨?_, ?_, ?_, ?_⟩
  · exact fun file member => absurd member (Table.not_mem_empty file)
  · exact fun job member => absurd member (Table.not_mem_empty job)
  · exact fun entry member => absurd member List.not_mem_nil
  · exact fun file member => absurd member (Table.not_mem_empty file)

/-- With counters that agree, the test of `complete` says that every pending file
has its flag up. -/
theorem CountersAgree.complete_iff {db : Database} {job : IndexJob} (agree : CountersAgree db job) :
    job.indexedFiles = job.totalFiles ↔
      ∀ file ∈ db.manifest job.id, file.needsIndex = true → file.indexed = true := by
  rw [← agree.total, ← agree.indexed]
  constructor
  · intro same file listed needed
    -- among the needed files, as many are marked as there are
    have among : ((db.manifest job.id).filter (·.needsIndex)).countP (·.indexed) =
        ((db.manifest job.id).filter (·.needsIndex)).length := by
      rw [List.countP_filter, ← List.countP_eq_length_filter, ← same]
      apply List.countP_congr
      intro other member
      simpa using agree.needed other member
    exact List.countP_eq_length.mp among file (List.mem_filter.mpr ⟨listed, needed⟩)
  · intro all
    exact List.countP_congr fun file listed => ⟨agree.needed file listed, all file listed⟩

/-- The counters of every running job agree with its manifest in every state of a
run iff the run never deletes the manifest of a job that is running and owes
files. In such a run the test of `complete` passes exactly for the jobs all of
whose pending files have been committed by one upload each. -/
theorem countersHold_iff (events : List Event) :
    (Throughout World.step (fun world => CountersHold world.db) World.initial events ↔
      Along World.step DropsClosed World.initial events) ∧
    (Along World.step DropsClosed World.initial events →
      ∀ job ∈ (runFrom World.step World.initial events).db.indexJobs, job.status = .running →
        (job.indexedFiles = job.totalFiles ↔
          ∀ file ∈ (runFrom World.step World.initial events).db.manifest job.id,
            file.needsIndex = true →
              (commitLog World.initial events).count (job.id, file.path) = 1)) := by
  have referenced (world : World) (event : Event) :
      world.db.ManifestsReferenced → (world.step event).db.ManifestsReferenced :=
    World.step_of_exec (P := ManifestsReferenced) (fun _ _ _ _ before => before.exec) world event
  have exact_step (world : World) (event : Event) (referenced : world.db.ManifestsReferenced)
      (hold : CountersHold world.db) :
      CountersHold (world.step event).db ↔ DropsClosed world event := by
    cases event with
    | tick => exact ⟨fun _ => trivial, fun _ => hold⟩
    | commit waited transaction =>
      by_cases drop : ∃ jobID, transaction = .dropManifest jobID
      · obtain ⟨jobID, rfl⟩ := drop
        simp only [World.step, World.admissible, if_true, exec, DropsClosed]
        exact countersHold_deleteManifest hold
      · have free : DropsClosed world (.commit waited transaction) := by
          cases transaction with
          | dropManifest jobID => exact absurd ⟨jobID, rfl⟩ drop
          | _ => trivial
        refine iff_of_true ?_ free
        simp only [World.step]
        split
        · exact hold.exec referenced fun jobID same => drop ⟨jobID, same⟩
        · exact hold
  have initial : CountersHold World.initial.db :=
    fun job member => absurd member (Table.not_mem_empty job)
  have iff_along : Throughout World.step (fun world => CountersHold world.db) World.initial events ↔
      Along World.step DropsClosed World.initial events :=
    throughout_iff_along referenced exact_step logAgrees_initial.referenced initial events
  refine ⟨iff_along, fun allowed job stored running => ?_⟩
  have agree : CountersAgree _ job := (iff_along.mpr allowed).last job stored running
  have log := logAgrees_initial.run events
  rw [List.nil_append] at log
  rw [agree.complete_iff]
  refine forall₂_congr fun file listed => imp_congr_right fun _ => ?_
  obtain ⟨member, owner⟩ := mem_manifest.mp listed
  have once := log.once file member
  rw [owner] at once
  rw [once]
  cases file.indexed <;> simp

/-! ### Drift -/

/-- A first start with one file. -/
def firstStart : Event :=
  .commit 0 (.create "tenant"
    { workspaceID := "root", workspaceName := "root", branch := "", revision := ""
      files := [{ path := "main.go", size := 1, estimatedChunks := 1
                  hash := "ca978112ca1bbdcafac231b39a23dc4da786eff8147c4e72b9807785afee48bb" }]
      unreadableFiles := [], rootID := "root" } 0 "6f1c1f0a-52f5-4f0e-9a52-0e2a5d2c7b11")

/-- Its `begin` fails. The `UPDATE` that is to record this fails as well; its error
is ignored and the manifest is deleted. -/
def unrecordedBegin : List Event :=
  [firstStart, .commit 0 (.dropManifest "6f1c1f0a-52f5-4f0e-9a52-0e2a5d2c7b11")]

/-- The job is running, owes one file, and has no manifest row for it. -/
theorem unrecordedBegin_drifts :
    ¬ CountersHold (runFrom World.step World.initial unrecordedBegin).db := by
  decide +kernel

/-- Its `begin` succeeds, and it is followed by its one upload. -/
def recordedUpload : List Event :=
  [firstStart,
    .commit 0 (.uploadHeartbeat "tenant" "6f1c1f0a-52f5-4f0e-9a52-0e2a5d2c7b11"),
    .commit 0 (.commitBatch "tenant" "6f1c1f0a-52f5-4f0e-9a52-0e2a5d2c7b11" ["main.go"] 1 false
      false)]

theorem countersHold_recordedUpload :
    Along World.step DropsClosed World.initial recordedUpload ∧
      Throughout World.step (fun world => CountersHold world.db) World.initial recordedUpload ∧
      (commitLog World.initial recordedUpload).count
        ("6f1c1f0a-52f5-4f0e-9a52-0e2a5d2c7b11", "main.go") = 1 := by
  have allowed : Along World.step DropsClosed World.initial recordedUpload := by
    simp only [recordedUpload, firstStart, Along, DropsClosed, and_self]
  have once : (commitLog World.initial recordedUpload).count
      ("6f1c1f0a-52f5-4f0e-9a52-0e2a5d2c7b11", "main.go") = 1 := by
    decide +kernel
  exact ⟨allowed, (countersHold_iff recordedUpload).1.mpr allowed, once⟩

end AcemcpRelay
