import AcemcpRelay.JobSteps
import AcemcpRelay.UploadAttempt

/-!
# The outcome of an upload

An upload that answers with its job has recorded its batch, all of it and once. An upload
that answers with an error has recorded nothing, unless the error comes after the second
transaction has committed: then the batch is recorded, and the client, told of an error,
cannot send it again.
-/
namespace AcemcpRelay

open Store Store.Attempt Database

/-- The manifests and the progress of the jobs are as they were. -/
structure Unrecorded (before after : Database) : Prop where
  manifests : after.indexJobFiles = before.indexJobFiles
  progress : ∀ row ∈ after.indexJobs, ∃ old ∈ before.indexJobs, row.id = old.id ∧
    row.indexedFiles = old.indexedFiles ∧ row.indexedChunks = old.indexedChunks ∧
    row.deletionsSent = old.deletionsSent

/-- The files were pending and are marked, and the job has counted them. -/
structure BatchRecorded (jobID : String) (paths : List String) (sentDeletions : Bool)
    (before after : Database) : Prop where
  pending : ∀ path ∈ paths, before.Pending jobID path
  marked : ∀ path ∈ paths, ∃ file ∈ after.indexJobFiles,
    file.jobID = jobID ∧ file.path = path ∧ file.indexed = true
  counted : ∃ old ∈ before.indexJobs, ∃ row ∈ after.indexJobs, old.id = jobID ∧ row.id = jobID ∧
    row.indexedFiles = old.indexedFiles + paths.length ∧
    row.deletionsSent = (old.deletionsSent || sentDeletions)

/-- If the second transaction of the call takes effect, the call is told so, the read after it
does not fail, and the job is still in the table then. -/
def CommitKnown (sha256 : String → String) (config : QuotaConfig) (env : UploadEnvironment)
    (userID : String) (req : UploadRequest) (world : World) : Prop :=
  ∀ staged between early after,
    Succeeds (stageIndexBatch sha256 config env userID req) world staged between early →
    World.commitBatch env.commit.waited userID staged.1 staged.2
      (World.others env.commit.others between) = .ok after →
    (∀ message, env.commit.fate ≠ .failed message) →
    env.commit.fate = .done ∧ env.reload.fate = .done ∧
      ∃ row ∈ (World.others env.reload.others after).db.indexJobs,
        row.id = staged.1.job.id ∧ row.userID = userID

/-! ### The two writes of the call -/

section Writes

variable {db after : Database} {now : Nat} {userID jobID : String} {paths : List String}

theorem unrecorded_uploadHeartbeat (written : db.uploadHeartbeat now userID jobID = .ok after) :
    Unrecorded db after := by
  rw [uploadHeartbeat_eq_ok written]
  refine ⟨rfl, fun row member => ?_⟩
  dsimp only [updateJobs] at member
  rcases Table.mem_update_cases member with ⟨stored, -⟩ | ⟨old, stored, -, rfl⟩
  · exact ⟨row, stored, rfl, rfl, rfl, rfl⟩
  · exact ⟨old, stored, rfl, rfl, rfl, rfl⟩

theorem mem_of_indexed {file : JobFile} (stored : file ∈ db.indexJobFiles)
    (indexed : file.indexed = true) (all : db.markAllIndexed jobID paths = .ok after) :
    file ∈ after.indexJobFiles := by
  induction paths generalizing db with
  | nil =>
    simp only [markAllIndexed, Except.ok.injEq] at all
    rwa [← all]
  | cons path rest ih =>
    simp only [markAllIndexed] at all
    split at all
    · cases all
    next marked first =>
      refine ih ?_ all
      rw [markIndexed_manifest first]
      exact Table.mem_update_of_not stored (by simp [indexed])

/-- Every file of a batch is marked in the end. -/
theorem marked_of_markAllIndexed (all : db.markAllIndexed jobID paths = .ok after) {path : String}
    (listed : path ∈ paths) :
    ∃ file ∈ after.indexJobFiles, file.jobID = jobID ∧ file.path = path ∧ file.indexed = true := by
  induction paths generalizing db with
  | nil => cases listed
  | cons first rest ih =>
    simp only [markAllIndexed] at all
    split at all
    · cases all
    next marked here =>
      rcases List.mem_cons.mp listed with rfl | later
      · obtain ⟨file, stored, owner, named, needed, unmarked⟩ := markIndexed_ok_iff.mp ⟨marked, here⟩
        refine ⟨{ file with indexed := true }, mem_of_indexed ?_ rfl all, owner, named, rfl⟩
        rw [markIndexed_manifest here]
        exact Table.mem_update_of_hit stored (by simp [owner, named, needed, unmarked])
      · exact ih all later

theorem recorded_commitIndexBatch {chunks : Int} {fallback sentDeletions : Bool}
    (written : db.commitIndexBatch now userID jobID paths chunks fallback sentDeletions = .ok after) :
    BatchRecorded jobID paths sentDeletions db after := by
  obtain ⟨job, marked, found, -, all, rfl⟩ := commitIndexBatch_eq_ok written
  obtain ⟨stored, named, -⟩ := loadIndexJob_eq_some.mp found
  rw [← (markAllIndexed_frame all).2.1] at stored
  have counted := Table.mem_update_of_hit (p := (·.id == jobID)) (f := fun row : IndexJob =>
    { row with
      phase := .indexing, indexedFiles := row.indexedFiles + paths.length
      indexedChunks := row.indexedChunks + chunks
      chunkCountFallback := row.chunkCountFallback || fallback
      deletionsSent := row.deletionsSent || sentDeletions, heartbeatAt := now }) stored (by simp [named])
  rw [(markAllIndexed_frame all).2.1] at stored
  exact ⟨(markAllIndexed_ok_iff.mp ⟨marked, all⟩).2, fun path listed =>
    marked_of_markAllIndexed all listed, job, stored, _, counted, named, named, rfl, rfl⟩

theorem stored_of_commitIndexBatch {chunks : Int} {fallback sentDeletions : Bool}
    (written : db.commitIndexBatch now userID jobID paths chunks fallback sentDeletions = .ok after) :
    ∃ row ∈ after.indexJobs, row.id = jobID ∧ row.userID = userID := by
  obtain ⟨job, marked, found, -, all, same⟩ := commitIndexBatch_eq_ok written
  obtain ⟨present, named, owner⟩ := loadIndexJob_eq_some.mp found
  rw [← (markAllIndexed_frame all).2.1] at present
  rw [same]
  exact ⟨_, Table.mem_update_of_hit present (by simp [named]), named, owner⟩

end Writes

theorem reload_eq_ok {world : World} {userID jobID : String} :
    (∃ job, world.reload userID jobID = .ok job) ↔
      ∃ row ∈ world.db.indexJobs, row.id = jobID ∧ row.userID = userID := by
  unfold World.reload
  constructor
  · rintro ⟨job, answers⟩
    split at answers
    · cases answers
    next found => exact ⟨_, loadIndexJob_eq_some.mp found⟩
  · rintro ⟨row, member, named, owner⟩
    rw [loadIndexJob_eq_some.mpr ⟨member, named, owner⟩]
    exact ⟨row, rfl⟩

/-! ### The batch of a request -/

theorem validateUpload_eq_ok {req checked : UploadRequest} (valid : validateUpload req = .ok checked) :
    checked.jobID = trimSpace req.jobID ∧ checked.files = req.files := by
  unfold validateUpload at valid
  simp only at valid
  split at valid
  · cases valid
  · split at valid
    · cases valid
    · cases valid
      exact ⟨rfl, rfl⟩

theorem normalizeBatch_paths {seen : List String} {files inputs : List ManifestFile}
    (accepted : normalizeBatch seen files = .ok inputs) :
    inputs.map (·.path) = files.map fun file => normalizeIndexPath file.path := by
  induction files generalizing seen inputs with
  | nil =>
    simp only [normalizeBatch, Except.ok.injEq] at accepted
    simp [← accepted]
  | cons file rest ih =>
    simp only [normalizeBatch] at accepted
    split at accepted
    · cases accepted
    · split at accepted
      · cases accepted
      next later =>
        cases accepted
        rw [List.map_cons, List.map_cons, ih later]

theorem stageFiles_paths {sha256 : String → String} {records : String → Option JobFile}
    {inputs staged : List ManifestFile} (accepted : stageFiles sha256 records inputs = .ok staged) :
    staged.map (·.path) = inputs.map (·.path) := by
  induction inputs generalizing staged with
  | nil =>
    simp only [stageFiles, Except.ok.injEq] at accepted
    simp [← accepted]
  | cons input rest ih =>
    simp only [stageFiles] at accepted
    split at accepted
    · cases accepted
    next file here =>
      split at accepted
      · cases accepted
      next later =>
        cases accepted
        have same : file.path = input.path := by
          unfold stageFile at here
          repeat' split at here
          all_goals cases here
          rfl
        rw [List.map_cons, List.map_cons, ih later, same]

/-- The batch has the files of the request, and is for its job. -/
theorem prepareIndexBatch_eq_ok {sha256 : String → String} {userID : String} {req : UploadRequest}
    {db : Database} {batch : PreparedBatch}
    (prepared : db.prepareIndexBatch sha256 userID req = .ok batch) :
    batch.job.id = req.jobID ∧
      batch.staged.map (·.path) = req.files.map fun file => normalizeIndexPath file.path := by
  unfold prepareIndexBatch at prepared
  split at prepared
  · cases prepared
  next job found =>
    have named := (loadIndexJob_eq_some.mp found).2.1
    iterate 3
      split at prepared
      · cases prepared
    split at prepared
    · cases prepared
    next inputs normalized =>
      split at prepared
      · cases prepared
      next staged accepted =>
        cases prepared
        exact ⟨named, by rw [stageFiles_paths accepted, normalizeBatch_paths normalized]⟩

/-! ### The outcome -/

section Outcome

variable {sha256 : String → String} {config : QuotaConfig} {env : UploadEnvironment}
  {userID : String} {req : UploadRequest} {world : World}

theorem writes_eq_ok {result : Except String Database} {after : World}
    (written : world.writes result = .ok after) : result = .ok after.db := by
  cases result with
  | error message => cases written
  | ok db =>
    cases written
    rfl

theorem recorded_commitBatch {waited : Nat} {batch : PreparedBatch} {reply : StageReply}
    {after : World} (commits : World.commitBatch waited userID batch reply world = .ok after) :
    BatchRecorded batch.job.id (batch.staged.map (·.path)) (batch.deleted ≠ []) world.db after.db :=
  recorded_commitIndexBatch (writes_eq_ok commits)

/-- Up to the reply of LCE the call has checked the batch and made one write. -/
theorem stageIndexBatch_succeeds {staged : PreparedBatch × StageReply} {between : World}
    {early : List (World × World)}
    (run : Succeeds (stageIndexBatch sha256 config env userID req) world staged between early) :
    ∃ checked beat, validateUpload req = .ok checked ∧
      (World.others env.prepare.others world).db.prepareIndexBatch sha256 userID checked =
        .ok staged.1 ∧
      early = [beat] ∧ Unrecorded beat.1.db beat.2.db := by
  unfold stageIndexBatch at run
  -- the steps in the order of the code
  obtain ⟨checked, valid, run⟩ := run.after_check
  obtain ⟨-, -, run⟩ := run.after_check
  obtain ⟨batch, prepared, run⟩ := run.after_meanwhile.after_read
  obtain ⟨beating, late, beats, firstWrite, run⟩ := run.after_meanwhile.after_write
  obtain ⟨-, -, run⟩ := run.after_check
  obtain ⟨-, -, run⟩ := run.after_check
  obtain ⟨-, -, run⟩ := run.after_read
  obtain ⟨reply, -, run⟩ := run.after_check
  obtain ⟨rfl, -, rfl⟩ := succeeds_pure.mp run
  exact ⟨checked, _, valid, prepared, firstWrite, unrecorded_uploadHeartbeat (writes_eq_ok beats)⟩

/-- Up to the reply of LCE, nothing is recorded, whether the call fails or not. -/
theorem stageIndexBatch_always :
    Always (fun before after : World => Unrecorded before.db after.db)
      (stageIndexBatch sha256 config env userID req) := by
  unfold stageIndexBatch
  refine .bind always_check fun checked => .bind always_check fun _ =>
    .bind always_meanwhile fun _ => .bind always_read fun batch => .bind always_meanwhile fun _ =>
    .bind (always_write fun before after beats => ?_) fun _ => .bind always_check fun _ =>
    .bind always_check fun _ => .bind always_read fun _ => .bind always_check fun reply => always_pure
  exact unrecorded_uploadHeartbeat (writes_eq_ok beats)

/-- The files of the batch are those of the request, and its job is the one named there. -/
theorem staged_request {staged : PreparedBatch × StageReply} {between : World}
    {early : List (World × World)}
    (run : Succeeds (stageIndexBatch sha256 config env userID req) world staged between early) :
    staged.1.job.id = trimSpace req.jobID ∧
      staged.1.staged.map (·.path) = req.files.map fun file => normalizeIndexPath file.path := by
  obtain ⟨checked, beat, valid, prepared, -, -⟩ := stageIndexBatch_succeeds run
  obtain ⟨sameJob, sameFiles⟩ := validateUpload_eq_ok valid
  obtain ⟨named, paths⟩ := prepareIndexBatch_eq_ok prepared
  exact ⟨named.trans sameJob, by rw [paths, sameFiles]⟩

/-- An upload that answers with its job has made its two writes. -/
theorem uploadIndexBatch_eq_ok {job : IndexJob}
    (answered : (uploadIndexBatch sha256 config env userID req world).response = .ok job) :
    ∃ checked batch beat commit, validateUpload req = .ok checked ∧
      (World.others env.prepare.others world).db.prepareIndexBatch sha256 userID checked = .ok batch ∧
      (uploadIndexBatch sha256 config env userID req world).writes = [beat, commit] ∧
      Unrecorded beat.1.db beat.2.db ∧
      BatchRecorded (trimSpace req.jobID) (req.files.map fun file => normalizeIndexPath file.path)
        (batch.deleted ≠ []) commit.1.db commit.2.db := by
  have run := succeeds_of_response answered
  generalize (uploadIndexBatch sha256 config env userID req world).state = last at run
  generalize (uploadIndexBatch sha256 config env userID req world).writes = writes at run ⊢
  unfold uploadIndexBatch at run
  obtain ⟨staged, between, early, late, stages, made, run⟩ := succeeds_bind.mp run
  obtain ⟨checked, beat, valid, prepared, firstWrite, beats⟩ := stageIndexBatch_succeeds stages
  obtain ⟨committed, rest, commits, secondWrite, run⟩ := run.after_meanwhile.after_write
  obtain ⟨-, -, -, noWrite⟩ := succeeds_read.mp run.after_meanwhile
  rw [firstWrite, secondWrite, ← noWrite] at made
  obtain ⟨named, paths⟩ := staged_request stages
  have recorded := recorded_commitBatch commits
  rw [named, paths] at recorded
  exact ⟨checked, staged.1, beat, _, valid, prepared, made.symm, beats, recorded⟩

/-- A batch with a file does not leave the manifests as they were. -/
theorem BatchRecorded.not_unrecorded {jobID : String} {paths : List String} {sentDeletions : Bool}
    {before after : Database} (recorded : BatchRecorded jobID paths sentDeletions before after)
    (some : paths ≠ []) : ¬ Unrecorded before after := by
  intro unrecorded
  obtain ⟨path, rest, rfl⟩ := List.exists_cons_of_ne_nil some
  obtain ⟨old, stored, owner, named, -, unmarked⟩ := recorded.pending path List.mem_cons_self
  obtain ⟨new, present, sameOwner, sameName, marked⟩ := recorded.marked path List.mem_cons_self
  rw [unrecorded.manifests] at present
  have same : old = new :=
    Table.eq_of_key_eq stored present (Prod.ext (owner.trans sameOwner.symm) (named.trans sameName.symm))
  rw [same, marked] at unmarked
  cases unmarked

/-- After its second transaction the call ends with its job, if the read does not fail and the
job is there. -/
theorem reload_response {batch : PreparedBatch} {after : World} :
    (∃ job, ((do
        meanwhile (World.others env.reload.others)
        read env.reload.fate (World.reload userID batch.job.id) : Attempt World IndexJob)
      after).response = .ok job) ↔
    env.reload.fate = .done ∧ ∃ row ∈ (World.others env.reload.others after).db.indexJobs,
      row.id = batch.job.id ∧ row.userID = userID := by
  rw [← reload_eq_ok]
  constructor
  · rintro ⟨job, answered⟩
    obtain ⟨done, answers, -⟩ := succeeds_read.mp (succeeds_of_response answered).after_meanwhile
    exact ⟨done, job, answers⟩
  · rintro ⟨done, job, answers⟩
    have moves : Succeeds (meanwhile (World.others env.reload.others)) after () _ [] :=
      succeeds_meanwhile.mpr ⟨rfl, rfl⟩
    have reads : Succeeds (read env.reload.fate (World.reload userID batch.job.id))
        (World.others env.reload.others after) job _ [] := succeeds_read.mpr ⟨done, answers, rfl, rfl⟩
    rw [Succeeds] at reads
    rw [bind_of_succeeds moves, reads]
    exact ⟨job, rfl⟩

/-- An upload that fails has recorded nothing if its commit is known to it, and for a batch with
a file only then. -/
theorem uploadIndexBatch_onError :
    (CommitKnown sha256 config env userID req world →
      OnError (fun before after : World => Unrecorded before.db after.db)
        (uploadIndexBatch sha256 config env userID req) world) ∧
    (req.files ≠ [] → OnError (fun before after : World => Unrecorded before.db after.db)
        (uploadIndexBatch sha256 config env userID req) world →
      CommitKnown sha256 config env userID req world) := by
  unfold uploadIndexBatch
  rw [onError_bind stageIndexBatch_always]
  constructor
  · intro known staged between early stages
    rw [onError_bind always_meanwhile]
    intro _ committing none moves
    obtain ⟨rfl, -⟩ := succeeds_meanwhile.mp moves
    refine onError_write_bind fun after commits reached => ?_
    obtain ⟨done, found⟩ := known staged between early after stages commits reached
    exact ⟨done, reload_response.mpr found⟩
  · intro some harmless staged between early after stages commits reached
    have late := (onError_bind always_meanwhile).mp (harmless staged between early stages) () _ []
      (succeeds_meanwhile.mpr ⟨rfl, rfl⟩)
    obtain ⟨-, paths⟩ := staged_request stages
    have recorded := recorded_commitBatch commits
    have matters := recorded.not_unrecorded (by rw [paths]; simpa using some)
    obtain ⟨done, answers⟩ := late.finishes commits reached matters
    exact ⟨done, reload_response.mp answers⟩

/-- A call that nothing disturbs does what `Database.uploadIndexBatch` does. -/
theorem uploadIndexBatch_undisturbed {reply : StageReply} {after : Database}
    (time : world.clock = reply.now)
    (accepted : world.db.uploadIndexBatch sha256 userID req reply = .ok after) :
    ∃ job writes, Succeeds (uploadIndexBatch sha256 config { stage := .ok reply } userID req) world job
      { world with db := after } writes := by
  simp only [Database.uploadIndexBatch, bind_ok_iff, ← time] at accepted
  obtain ⟨checked, valid, batch, prepared, beating, beats, size, small, bytes, fits, commits⟩ := accepted
  have stored := stored_of_commitIndexBatch commits
  obtain ⟨job, answers⟩ :=
    reload_eq_ok.mpr (show ∃ row ∈ ({ world with db := after } : World).db.indexJobs, _ from stored)
  let beaten : World := { world with db := beating }
  have writesBeat : world.writes (world.db.uploadHeartbeat (world.clock - 0) userID batch.job.id) =
      .ok beaten := by
    rw [Nat.sub_zero, beats]
    rfl
  have writesCommit : World.commitBatch 0 userID batch reply beaten = .ok { world with db := after } := by
    rw [World.commitBatch, Nat.sub_zero, show beaten.clock = world.clock from rfl, commits]
    rfl
  have stages : Succeeds (stageIndexBatch sha256 config { stage := .ok reply } userID req) world
      (batch, reply) beaten [(world, beaten)] := by
    unfold stageIndexBatch
    simp only [succeeds_bind, succeeds_check, succeeds_meanwhile, succeeds_read, succeeds_write,
      succeeds_pure, true_and]
    exact ⟨checked, world, [], _, ⟨valid, rfl, rfl⟩, List.nil_append _,
      (), world, [], _, ⟨rfl, rfl⟩, List.nil_append _,
      (), world, [], _, ⟨rfl, rfl⟩, List.nil_append _,
      batch, world, [], _, ⟨prepared, rfl, rfl⟩, List.nil_append _,
      (), world, [], _, ⟨rfl, rfl⟩, List.nil_append _,
      (), beaten, [_], [], ⟨writesBeat, rfl⟩, rfl,
      size, beaten, [], _, ⟨small, rfl, rfl⟩, List.nil_append _,
      bytes, beaten, [], _, ⟨fits, rfl, rfl⟩, List.nil_append _,
      (), beaten, [], _, ⟨rfl, rfl, rfl⟩, List.nil_append _,
      reply, beaten, [], _, ⟨rfl, rfl, rfl⟩, List.nil_append _, rfl, rfl, rfl⟩
  refine ⟨job, [(world, beaten), (beaten, { world with db := after })], ?_⟩
  unfold uploadIndexBatch
  rw [succeeds_bind]
  refine ⟨_, _, _, _, stages, rfl, ?_⟩
  simp only [succeeds_bind, succeeds_meanwhile, succeeds_read, succeeds_write, true_and]
  exact ⟨(), beaten, [], _, ⟨rfl, rfl⟩, List.nil_append _,
    (), { world with db := after }, [_], [], ⟨writesCommit, rfl⟩, rfl,
    (), { world with db := after }, [], [], ⟨rfl, rfl⟩, rfl, answers, rfl, rfl⟩

end Outcome

/-- For every request, every state and everything that the environment does at each point:
an upload that answers with its job has marked every file of the batch, counted them and
recorded the deletions that it sent, and its other write records nothing. An upload that
answers with an error has recorded nothing at all if the call knows of its commit, and for a
batch with a file only if it does. -/
theorem batch_outcome_unambiguous (sha256 : String → String) (config : QuotaConfig)
    (env : UploadEnvironment) (userID : String) (req : UploadRequest) (world : World) :
    (∀ job, (uploadIndexBatch sha256 config env userID req world).response = .ok job →
      ∃ checked batch beat commit, validateUpload req = .ok checked ∧
        (World.others env.prepare.others world).db.prepareIndexBatch sha256 userID checked =
          .ok batch ∧
        (uploadIndexBatch sha256 config env userID req world).writes = [beat, commit] ∧
        Unrecorded beat.1.db beat.2.db ∧
        BatchRecorded (trimSpace req.jobID) (req.files.map fun file => normalizeIndexPath file.path)
          (batch.deleted ≠ []) commit.1.db commit.2.db) ∧
    (CommitKnown sha256 config env userID req world →
      ∀ message, (uploadIndexBatch sha256 config env userID req world).response = .error message →
        ∀ write ∈ (uploadIndexBatch sha256 config env userID req world).writes,
          Unrecorded write.1.db write.2.db) ∧
    (req.files ≠ [] →
      (∀ message, (uploadIndexBatch sha256 config env userID req world).response = .error message →
        ∀ write ∈ (uploadIndexBatch sha256 config env userID req world).writes,
          Unrecorded write.1.db write.2.db) →
      CommitKnown sha256 config env userID req world) :=
  ⟨fun _ answered => uploadIndexBatch_eq_ok answered, uploadIndexBatch_onError.1,
    uploadIndexBatch_onError.2⟩

theorem exists_of_isOk {Error Value : Type} {result : Except Error Value}
    (succeeds : result.isOk = true) : ∃ value, result = .ok value := by
  cases result with
  | error error => cases succeeds
  | ok value => exact ⟨value, rfl⟩

/-- The commit is among the writes. -/
theorem recorded_commit {writes : List (World × World)} {V : UploadRequest → Prop}
    {B : UploadRequest → PreparedBatch → Prop} {jobID : String} {paths : List String}
    (outcome : ∃ checked batch beat commit, V checked ∧ B checked batch ∧ writes = [beat, commit] ∧
      Unrecorded beat.1.db beat.2.db ∧
      BatchRecorded jobID paths (batch.deleted ≠ []) commit.1.db commit.2.db) :
    ∃ commit ∈ writes, ∃ sentDeletions,
      BatchRecorded jobID paths sentDeletions commit.1.db commit.2.db := by
  obtain ⟨_, batch, beat, commit, -, -, rfl, -, recorded⟩ := outcome
  exact ⟨commit, List.mem_cons_of_mem _ List.mem_cons_self, _, recorded⟩

/-- A job with one file, just inserted. -/
def oneFileWorld : World :=
  World.initial.step (.commit 0 (.create "tenant"
    { workspaceID := "root", workspaceName := "root", branch := "", revision := ""
      files := [{ path := "main.go", hash := "ca978112", size := 1, estimatedChunks := 1 }]
      unreadableFiles := [], rootID := "root" } 0 "6f1c1f0a-52f5-4f0e-9a52-0e2a5d2c7b11"))

def oneFileUpload : UploadRequest :=
  { jobID := "6f1c1f0a-52f5-4f0e-9a52-0e2a5d2c7b11", rootID := "root"
    files := [{ path := "main.go", hash := "ca978112", size := 1, estimatedChunks := 1
                content := "a" }] }

def utcQuota : QuotaConfig :=
  { defaultDailyRequestLimit := 0, proDailyRequestLimit := 0, dailyIndexBytesLimit := 0
    proDailyIndexBytesLimit := 0, zoneOffset := 0 }

/-- The statements and LCE succeed, and LCE counts one chunk. -/
def smooth : UploadEnvironment := { stage := .ok { now := 0, chunks := 1, exactCount := true } }

/-- As before, but the connection is lost before the job is read again. -/
def lostReload : UploadEnvironment :=
  { smooth with reload := { fate := .failed "driver: bad connection" } }

/-- The upload whose last read fails answers with an error. It has marked its file and
counted it, and the same batch, sent again, is refused as already indexed. -/
theorem lostReload_ambiguous :
    (uploadIndexBatch (fun _ => "ca978112") utcQuota lostReload "tenant" oneFileUpload
        oneFileWorld).response = .error "driver: bad connection" ∧
      (∃ write ∈ (uploadIndexBatch (fun _ => "ca978112") utcQuota lostReload "tenant" oneFileUpload
          oneFileWorld).writes,
        (write.1.db.indexJobFiles.rows.map (·.indexed) = [false] ∧
          write.2.db.indexJobFiles.rows.map (·.indexed) = [true]) ∧
        write.1.db.indexJobs.rows.map (·.indexedFiles) = [0] ∧
          write.2.db.indexJobs.rows.map (·.indexedFiles) = [1]) ∧
      (uploadIndexBatch (fun _ => "ca978112") utcQuota smooth "tenant" oneFileUpload
        (uploadIndexBatch (fun _ => "ca978112") utcQuota lostReload "tenant" oneFileUpload
          oneFileWorld).state).response =
        .error "batch file is stale or already indexed: main.go" := by
  decide +kernel

/-- As before, but the commit of the second transaction fails. -/
def failedCommit : UploadEnvironment :=
  { smooth with commit := { fate := .failed "could not serialize access" } }

/-- The same upload when nothing fails, and when its commit does. -/
theorem batch_outcome_oneFile :
    (∃ commit ∈ (uploadIndexBatch (fun _ => "ca978112") utcQuota smooth "tenant" oneFileUpload
          oneFileWorld).writes, ∃ sentDeletions,
        BatchRecorded (trimSpace oneFileUpload.jobID)
          (oneFileUpload.files.map fun file => normalizeIndexPath file.path) sentDeletions
          commit.1.db commit.2.db) ∧
      (uploadIndexBatch (fun _ => "ca978112") utcQuota failedCommit "tenant" oneFileUpload
        oneFileWorld).response = .error "could not serialize access" ∧
      ∀ write ∈ (uploadIndexBatch (fun _ => "ca978112") utcQuota failedCommit "tenant" oneFileUpload
          oneFileWorld).writes, Unrecorded write.1.db write.2.db := by
  have succeeds : (uploadIndexBatch (fun _ => "ca978112") utcQuota smooth "tenant" oneFileUpload
      oneFileWorld).response.isOk = true := by decide +kernel
  have fails : (uploadIndexBatch (fun _ => "ca978112") utcQuota failedCommit "tenant" oneFileUpload
      oneFileWorld).response = .error "could not serialize access" := by decide +kernel
  refine ⟨?_, fails, ?_⟩
  · obtain ⟨job, answered⟩ := exists_of_isOk succeeds
    exact recorded_commit ((batch_outcome_unambiguous (fun _ => "ca978112") utcQuota smooth "tenant"
      oneFileUpload oneFileWorld).1 job answered)
  · -- a commit that has failed has no effect
    have known : CommitKnown (fun _ => "ca978112") utcQuota failedCommit "tenant" oneFileUpload
        oneFileWorld :=
      fun _ _ _ _ _ _ reached => absurd rfl (reached "could not serialize access")
    exact (batch_outcome_unambiguous (fun _ => "ca978112") utcQuota failedCommit "tenant"
      oneFileUpload oneFileWorld).2.1 known _ fails

end AcemcpRelay
