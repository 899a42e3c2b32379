import AcemcpRelay.ManifestSteps
import AcemcpRelay.UploadCall
import Mathlib.Algebra.Order.BigOperators.Group.List

/-!
# Finishing an admitted job

A client that has the files of its manifest can upload them one by one: the
escaped request of a single file fits into the body limit of LCE whatever the
file contains. The deletion list is another matter. It goes out whole with the
first batch, however long it is, and no batch is accepted before it has gone out.

`finishable_iff` puts the two together: a job can be finished iff nothing is to be
deleted, or the request with the deletion list and no file fits.
-/
namespace AcemcpRelay

open Store String

/-- The `start` operation, up to and including its creating transaction. -/
def Database.handleStart (checkIndexClientVersion : String → Except String Unit) (now : Nat)
    (userID : String) (args : MCPIndexStartArgs) (wait : Nat) (jobID : String) (db : Database) :
    Except String (CreateOutcome × Database) := do
  let req ← startRequest checkIndexClientVersion args
  let normalized ← normalizeStartRequest req
  db.createIndexJob now userID normalized wait jobID

section

variable (sha256 : String → String)

/-- Uploads of one job, one after the other; `replies n` answers the `n`th of them. -/
def Database.uploadAll (userID jobID rootID : String) :
    List (List MCPIndexUploadFile) → (Nat → StageReply) → Database → Except String Database
  | [], _, db => .ok db
  | files :: rest, replies, db => do
    let after ← db.handleUpload sha256 userID { jobID, rootID, files } (replies 0)
    after.uploadAll userID jobID rootID rest fun n => replies (n + 1)

/-- There are batches that the relay accepts, whatever LCE counts in them, and that
leave the job such that the checks of `complete` pass. -/
def Finishable (userID : String) (job : IndexJob) (db : Database) : Prop :=
  ∃ batches, ∀ replies, ∃ after row,
    db.uploadAll sha256 userID job.id job.rootID batches replies = .ok after ∧
      after.loadIndexJob userID job.id = some row ∧ row.completable = .ok ()

/-- The client has a text that the manifest entry describes. -/
def Honest (file : MCPIndexManifestFile) : Prop :=
  ∃ content : String, (content.utf8ByteSize : Int) = file.size ∧ '\x00' ∉ content.toList ∧
    sha256 content = toLower (trimSpace file.hash)

end

/-! ### What a start leaves behind -/

/-- A job between two uploads of its client; `todo` are the entries to be committed. -/
structure Open (userID : String) (args : MCPIndexStartArgs) (job : IndexJob)
    (todo : List ManifestFile) (db : Database) : Prop where
  stored : job ∈ db.indexJobs
  owner : job.userID = userID
  running : job.status = .running
  client : job.phase ≠ .publishing
  counted : job.indexedFiles + todo.length = job.totalFiles
  tenant : userID.length ≤ 255
  root : normalizeIndexRootID job.rootID = job.rootID
  rootPattern : indexRootIDPattern job.rootID = true
  rootSize : job.rootID.utf8ByteSize ≤ maxIndexRootIDLen
  rootNamed : job.rootID ≠ ""
  source : ∀ file ∈ todo, file.path ≠ "" ∧ ∃ arg ∈ args.files, ∃ valid,
    validateMCPManifestFile arg = .ok valid ∧ file = storedFile valid
  distinct : (todo.map (·.path)).Nodup
  manifest : ∀ file ∈ todo, ∃ row ∈ db.indexJobFiles, row.jobID = job.id ∧ row.path = file.path ∧
    row.hash = file.hash ∧ row.size = file.size ∧ row.needsIndex = true ∧ row.indexed = false

/-- A job as its start leaves it: the deletions have not been sent. -/
structure Begun (userID : String) (args : MCPIndexStartArgs) (job : IndexJob)
    (todo : List ManifestFile) (deleted : List String) (db : Database) : Prop
    extends Open userID args job todo db where
  unsent : job.deletionsSent = false
  deletedCount : job.deletedCount = deleted.length
  removed : db.removedPaths userID job.workspaceID job.id = deleted

theorem startRequest_eq_ok {check : String → Except String Unit} {args : MCPIndexStartArgs}
    {req : StartRequest} (accepted : startRequest check args = .ok req) :
    validateMCPManifestFiles args.files = .ok req.files ∧
      indexRootIDPattern req.rootID = true ∧ req.rootID = normalizeIndexRootID args.rootID := by
  simp only [startRequest, bind_ok_iff, refuse_ok_iff, pure_ok_iff] at accepted
  obtain ⟨-, pattern, -, -, files, valid, unreadable, -, -, -, rfl⟩ := accepted
  exact ⟨valid, by simpa using pattern, rfl⟩

/-- The paths that a batch will name are those the start counted as deleted. -/
theorem removedPaths_insert (userID workspaceID : String) {db after : Database} {job : IndexJob}
    {files : List ManifestFile} {pending : List String} (unused : db.NoManifest job.id)
    (inserted : db.insertIndexJob job files pending = .ok after) :
    after.removedPaths userID workspaceID job.id =
      (diffManifest (db.loadIndexedSnapshot userID workspaceID) files).deleted := by
  obtain ⟨jobs, rows, -, copied, rfl⟩ := Database.insertIndexJob_eq_ok inserted
  have same (old : ManifestFile) : (!rows.holds fun file =>
      file.jobID == job.id && file.path == old.path) =
        files.all fun file => file.path != old.path := by
    rw [Bool.eq_iff_iff, Bool.not_eq_true', Table.holds_eq_false, List.all_eq_true]
    constructor
    · intro absent file listed
      have row := absent _ ((Table.mem_insert copied).mpr (.inr (List.mem_map_of_mem listed)))
      simpa [manifestRow] using row
    · intro absent row member
      rcases (Table.mem_insert copied).mp member with stored | added
      · simp [unused row stored]
      · obtain ⟨file, listed, rfl⟩ := List.mem_map.mp added
        simpa [manifestRow] using absent file listed
  simp only [Database.removedPaths, diffManifest, same]
  rfl

theorem begun_of_start {check : String → Except String Unit} {now wait : Nat}
    {userID jobID : String} {args : MCPIndexStartArgs} {db after : Database} {job : IndexJob}
    {pending deleted : List String} (referenced : db.ManifestsReferenced)
    (started : db.handleStart check now userID args wait jobID =
      .ok (.created job pending deleted, after)) :
    job.id = jobID ∧ ∃ todo, Begun userID args job todo deleted after := by
  simp only [Database.handleStart, bind_ok_iff] at started
  obtain ⟨req, accepted, normalized, trimmed, created⟩ := started
  obtain ⟨valid, pattern, root⟩ := startRequest_eq_ok accepted
  obtain ⟨manifest, rootID, named, short⟩ := normalizeStartRequest_eq_ok trimmed
  have same : normalized.rootID = req.rootID := by
    rw [rootID, root, normalizeIndexRootID, normalizeIndexRootID, trimSpace_trimSpace]
  obtain ⟨files, diff, grafted, compared, ⟨impossible, -⟩ | ⟨impossible, -⟩ |
    ⟨new, shape, outcome, -, inserted⟩⟩ := Database.createIndexJob_cases created
  · cases impossible
  · cases impossible
  rw [CreateOutcome.created.injEq] at outcome
  obtain ⟨rfl, rfl, rfl⟩ := outcome
  have distinct := graftUnreadablePaths_nodup grafted (normalizeManifest_nodup manifest)
  obtain ⟨jobs, rows, placed, copied, written⟩ := Database.insertIndexJob_eq_ok inserted
  have stored : job ∈ after.indexJobs := by
    rw [written]
    exact (Table.mem_insert placed).mpr (.inr (List.mem_singleton_self job))
  have unused : db.NoManifest job.id := by
    intro file member same
    obtain ⟨old, present, owner⟩ := referenced file member
    exact Table.key_fresh placed present (List.mem_singleton_self job) (owner.trans same)
  have removed := removedPaths_insert userID job.workspaceID unused inserted
  have tenant : userID.length ≤ 255 := by
    unfold Database.insertIndexJob at inserted
    split at inserted
    next fits =>
      rw [shape, Bool.and_eq_true] at fits
      exact of_decide_eq_true fits.1
    · simp at inserted
  let previous := db.loadIndexedSnapshot userID normalized.workspaceID
  -- what the snapshot contributed did not change, so the rest stems from the request
  have source (file : ManifestFile) (listed : file ∈ files.filter (changed previous)) :
      file.path ≠ "" ∧ ∃ arg ∈ args.files, ∃ valid, validateMCPManifestFile arg = .ok valid ∧
        file = storedFile valid := by
    obtain ⟨member, differs⟩ := List.mem_filter.mp listed
    rcases mem_of_mem_graft grafted (normalizeManifest_nodup manifest) member with sent | carried
    · obtain ⟨named, entry, accepted, rfl⟩ := mem_normalizeManifest manifest sent
      obtain ⟨arg, given, valid⟩ := mapM_mem valid accepted
      exact ⟨named, arg, given, entry, valid, rfl⟩
    · rw [not_changed_of_mem (db.loadIndexedSnapshot_nodup _ _) carried] at differs
      cases differs
  have rowOf (file : ManifestFile) (listed : file ∈ files.filter (changed previous)) :
      manifestRow job.id diff.pending file ∈ after.indexJobFiles := by
    rw [written]
    exact (Table.mem_insert copied).mpr
      (.inr (List.mem_map_of_mem (List.mem_filter.mp listed).1))
  have needed (file : ManifestFile) (listed : file ∈ files.filter (changed previous)) :
      diff.pending.contains file.path = true := by
    rw [compared, List.contains_iff_mem]
    exact List.mem_map_of_mem listed
  subst shape
  exact
    ⟨rfl, files.filter (changed previous),
      { stored, tenant, source, removed := removed.trans (by rw [compared]; rfl)
        owner := rfl, running := rfl, client := by simp [Database.newIndexJob], unsent := rfl
        deletedCount := rfl
        counted := by simp [Database.newIndexJob, compared, diffManifest, previous]
        root := by
          change normalizeIndexRootID normalized.rootID = normalized.rootID
          rw [rootID, normalizeIndexRootID, normalizeIndexRootID, trimSpace_trimSpace]
        rootPattern := by
          change indexRootIDPattern normalized.rootID = true
          rw [same]
          exact pattern
        rootSize := short, rootNamed := named
        distinct := distinct.sublist (List.filter_sublist.map _)
        manifest := fun file listed =>
          ⟨_, rowOf file listed, rfl, rfl, rfl, rfl, needed file listed, rfl⟩ }⟩

/-! ### One upload -/

/-- What a recorded batch has done to its job. -/
structure Recorded (row : IndexJob) (staged : List ManifestFile) (deleted : List String)
    (db after : Database) : Prop where
  job : ∃ next ∈ after.indexJobs, SameJob row next ∧ next.status = .running ∧
    next.phase = .indexing ∧ next.indexedFiles = row.indexedFiles + staged.length ∧
    next.deletionsSent = (row.deletionsSent || decide (deleted ≠ []))
  manifest : ∀ file ∈ db.indexJobFiles, file.path ∉ staged.map (·.path) →
    file ∈ after.indexJobFiles

theorem mem_markAllIndexed {db marked : Database} {jobID : String} {paths : List String}
    (all : db.markAllIndexed jobID paths = .ok marked) {file : JobFile}
    (stored : file ∈ db.indexJobFiles) (other : file.path ∉ paths) :
    file ∈ marked.indexJobFiles := by
  induction paths generalizing db with
  | nil =>
    simp only [Database.markAllIndexed, Except.ok.injEq] at all
    subst all
    exact stored
  | cons path paths ih =>
    simp only [Database.markAllIndexed] at all
    split at all
    · simp at all
    next first done =>
      rw [List.mem_cons, not_or] at other
      refine ih all ?_ other.2
      rw [Database.markIndexed_manifest done]
      exact Table.mem_update_of_not stored (by simp [other.1])

theorem upload_accepted {sha256 : String → String} {userID : String} {req checked : UploadRequest}
    {row : IndexJob} {staged : List ManifestFile} {deleted : List String} {db : Database}
    (reply : StageReply) (valid : validateUpload req = .ok checked)
    (prepared : db.prepareIndexBatch sha256 userID checked = .ok ⟨row, staged, deleted⟩)
    (stored : row ∈ db.indexJobs) (owner : row.userID = userID) (running : row.status = .running)
    (client : row.phase ≠ .publishing) (small : ∃ total, validateIndexBatchSize staged = .ok total)
    (fits : stageBodySize userID row.id checked.rootID staged deleted ≤ maxLCEMCPRequestBodyBytes)
    (distinct : (staged.map (·.path)).Nodup)
    (pending : ∀ path ∈ staged.map (·.path), db.Pending row.id path) :
    ∃ after, db.uploadIndexBatch sha256 userID req reply = .ok after ∧
      Recorded row staged deleted db after := by
  obtain ⟨total, small⟩ := small
  subst owner
  let clientOwned (job : IndexJob) : Bool :=
    job.runningAs row.userID row.id && job.phase != .publishing
  have owned : clientOwned row = true := by
    simp [clientOwned, IndexJob.runningAs, running, client]
  let beating := db.updateJobs clientOwned
    (fun job => { job with phase := .uploading, heartbeatAt := reply.now })
  -- the steps of the upload one after the other: heartbeat, size limits, then the commit
  have beats : db.uploadHeartbeat reply.now row.userID row.id = .ok beating := by
    unfold Database.uploadHeartbeat
    rw [if_pos (Table.holds_eq_true.mpr ⟨row, stored, owned⟩)]
  have current : { row with phase := .uploading, heartbeatAt := reply.now } ∈ beating.indexJobs :=
    Table.mem_update_of_hit stored owned
  obtain ⟨marked, all⟩ : ∃ marked, beating.markAllIndexed row.id (staged.map (·.path)) = .ok marked :=
    Database.markAllIndexed_ok_iff.mpr ⟨distinct, pending⟩
  have body : ∃ size, validateMCPToolCallBody "codebase_remote_index"
      (stageArgs row.userID row.id checked.rootID staged deleted) = .ok size :=
    ⟨_, validateMCPToolCallBody_isOk.mpr ⟨rfl, fits⟩⟩
  obtain ⟨size, body⟩ := body
  -- the commit reads the row as the heartbeat left it
  have found : beating.loadIndexJob row.userID row.id =
      some { row with phase := .uploading, heartbeatAt := reply.now } :=
    Database.loadIndexJob_eq_some.mpr ⟨current, rfl, rfl⟩
  have accepted : ∃ after, db.uploadIndexBatch sha256 row.userID req reply = .ok after ∧
      ∃ chunks, after = marked.updateJobs (·.id == row.id) (fun job =>
        { job with
          phase := .indexing
          indexedFiles := job.indexedFiles + (staged.map (·.path)).length
          indexedChunks := job.indexedChunks + chunks
          chunkCountFallback := job.chunkCountFallback || !reply.exactCount
          deletionsSent := job.deletionsSent || decide (deleted ≠ [])
          heartbeatAt := reply.now }) := by
    refine ⟨_, ?_, if reply.exactCount then reply.chunks
      else reply.chunks + (staged.map (·.estimatedChunks)).sum, rfl⟩
    simp only [Database.uploadIndexBatch, valid, prepared, beats, small, body, bind, Except.bind,
      Database.commitIndexBatch, found, running, ne_eq, not_true_eq_false, if_false, all]
  obtain ⟨after, accepted, chunks, rfl⟩ := accepted
  refine ⟨_, accepted, ⟨?_, ?_⟩⟩
  · have kept : { row with phase := .uploading, heartbeatAt := reply.now } ∈ marked.indexJobs := by
      rw [(Database.markAllIndexed_frame all).2.1]
      exact current
    exact ⟨_, Table.mem_update_of_hit kept (by simp), ⟨rfl, rfl, rfl, rfl, rfl, rfl, rfl⟩, running,
      rfl, by simp, rfl⟩
  · intro file member other
    exact mem_markAllIndexed all member other

/-- The state after a recorded batch. -/
theorem Open.recorded {userID : String} {args : MCPIndexStartArgs} {job : IndexJob}
    {staged todo rest : List ManifestFile} {deleted : List String} {db after : Database}
    (opened : Open userID args job todo db) (recorded : Recorded job staged deleted db after)
    (split : todo.map (·.path) = staged.map (·.path) ++ rest.map (·.path)) (within : rest ⊆ todo) :
    ∃ next, Open userID args next rest after ∧ SameJob job next ∧
      next.deletionsSent = (job.deletionsSent || decide (deleted ≠ [])) := by
  obtain ⟨⟨next, stored, same, running, phase, indexed, sent⟩, manifest⟩ := recorded
  have sizes := congrArg List.length split
  simp only [List.length_map, List.length_append] at sizes
  have distinct := opened.distinct
  rw [split, List.nodup_append] at distinct
  refine ⟨next, ?_, same, sent⟩
  exact
    { stored, running, tenant := opened.tenant
      owner := same.userID.trans opened.owner
      client := by simp [phase]
      counted := by
        have counted := opened.counted
        rw [indexed, same.totalFiles]
        omega
      root := by rw [same.rootID]; exact opened.root
      rootPattern := by rw [same.rootID]; exact opened.rootPattern
      rootSize := by rw [same.rootID]; exact opened.rootSize
      rootNamed := by rw [same.rootID]; exact opened.rootNamed
      source := fun file listed => opened.source file (within listed)
      distinct := distinct.2.1
      manifest := by
        intro file listed
        obtain ⟨row, member, owner, path, others⟩ := opened.manifest file (within listed)
        have other : row.path ∉ staged.map (·.path) := by
          rw [path]
          exact fun named => distinct.2.2 _ named _ (List.mem_map_of_mem listed) rfl
        exact ⟨row, manifest row member other, owner.trans same.id.symm, path, others⟩ }

/-! ### The batches of an honest client -/

/-- The upload carries the content that the manifest entry describes. -/
def Carries (sha256 : String → String) (file : ManifestFile) (upload : MCPIndexUploadFile) : Prop :=
  ∃ input, validateMCPUploadFile upload = .ok input ∧ normalizeIndexPath input.path = file.path ∧
    trimSpace input.hash = file.hash ∧ (input.content.utf8ByteSize : Int) = file.size ∧
    input.content.utf8ByteSize ≤ maxIndexFileBytes ∧
    equalFold (sha256 input.content) (trimSpace file.hash) = true ∧
    file.path.utf8ByteSize ≤ maxIndexPathBytes

theorem utf8ByteSize_validateIndexSourcePath {value path : String}
    (accepted : validateIndexSourcePath value = .ok path) :
    path.utf8ByteSize ≤ maxIndexPathBytes := by
  obtain ⟨short, -, -, rfl, -⟩ := (validateIndexSourcePath_eq_ok rfl).mp accepted
  exact (utf8ByteSize_normalizeIndexPath_le _).trans short

theorem trimSpace_lower_of_sha256Pattern {text : String} (pattern : sha256Pattern text = true) :
    trimSpace (toLower text) = toLower text := by
  simp only [sha256Pattern, Bool.and_eq_true, List.all_eq_true] at pattern
  apply trimSpace_of_none
  intro c member
  rw [toLower, String.toList_ofList] at member
  obtain ⟨d, listed, rfl⟩ := List.mem_map.mp member
  exact isSpace_of_isHexDigit (isHexDigit_toLowerRune (pattern.2 d listed))

theorem carries_of_honest {sha256 : String → String} {arg : MCPIndexManifestFile}
    {valid : ManifestFile} (accepted : validateMCPManifestFile arg = .ok valid)
    (honest : Honest sha256 arg) : ∃ upload, Carries sha256 (storedFile valid) upload := by
  obtain ⟨content, size, text, digest⟩ := honest
  obtain ⟨path, pattern, hash, same, positive, bounded⟩ := validateMCPManifestFile_eq_ok accepted
  have nonempty : content ≠ "" := by
    rintro rfl
    simp at size
    omega
  refine ⟨{ path := arg.path, hash := arg.hash, content }, { valid with
    size := 0, estimatedChunks := 0, content }, ?_, rfl, rfl, ?_, ?_, ?_, ?_⟩
  · simp only [validateMCPUploadFile, bind_ok_iff, refuse_ok_iff, pure_ok_iff]
    exact ⟨valid.path, path, (), by simp [pattern], (), by simp [nonempty, text], by rw [hash]⟩
  · simp only [storedFile]
    omega
  · dsimp only
    omega
  · simp only [storedFile, hash, digest, trimSpace_lower_of_sha256Pattern pattern]
    simp [equalFold]
  · exact (utf8ByteSize_normalizeIndexPath_le _).trans (utf8ByteSize_validateIndexSourcePath path)

theorem validateIndexBatchSize_single {file : ManifestFile}
    (fits : file.content.utf8ByteSize ≤ maxIndexFileBytes) :
    validateIndexBatchSize [file] = .ok file.content.utf8ByteSize := by
  have same : maxIndexBatchBytes = maxIndexFileBytes := rfl
  simp [validateIndexBatchSize, batchBytes, same, Nat.not_lt.mpr fits]

/-- One file and no deletions: the request fits, however the texts are escaped. -/
theorem stageBodySize_single {userID jobID rootID : String} {file : ManifestFile}
    (tenant : userID.length ≤ 255) (standard : standardUUID jobID.toList = true)
    (root : rootID.utf8ByteSize ≤ maxIndexRootIDLen)
    (path : file.path.utf8ByteSize ≤ maxIndexPathBytes)
    (content : file.content.utf8ByteSize ≤ maxIndexFileBytes) :
    stageBodySize userID jobID rootID [file] [] ≤ maxLCEMCPRequestBodyBytes := by
  have userBytes : userID.utf8ByteSize ≤ 1020 := by
    have bytes := utf8Len_le userID.toList
    rw [String.utf8Len_toList, String.length_toList] at bytes
    omega
  have jobBytes : jobID.utf8ByteSize ≤ 144 := by
    have bytes := utf8Len_le jobID.toList
    rw [String.utf8Len_toList, (standardUUID_spec standard).1] at bytes
    omega
  have user := Wire.utf8Len_string_le userID
  have job := Wire.utf8Len_string_le jobID
  have rootText := Wire.utf8Len_string_le rootID
  have pathText := Wire.utf8Len_string_le file.path
  have contentText := Wire.utf8Len_string_le file.content
  have keys : utf8Len (Wire.string "path") = 6 ∧ utf8Len (Wire.string "content") = 9 := by decide
  simp only [maxIndexRootIDLen, maxIndexPathBytes, maxIndexFileBytes] at root path content
  rw [stageBodySize_eq]
  simp only [filesSize, deletedSize, if_true, List.map_cons, List.map_nil, Wire.utf8Len_array,
    Wire.utf8Len_object, List.sum_cons, List.sum_nil, List.length_cons, List.length_nil, keys,
    maxLCEMCPRequestBodyBytes]
  omega

/-- The arguments of an upload reach `uploadIndexBatch`. -/
theorem handleUpload_eq {sha256 : String → String} {userID : String}
    {args : MCPIndexStartArgs} {job : IndexJob} {todo : List ManifestFile} {db : Database}
    (opened : Open userID args job todo db) (standard : standardUUID job.id.toList = true)
    {files : List MCPIndexUploadFile} {inputs : List ManifestFile} (reply : StageReply)
    (valid : validateMCPUploadFiles files = .ok inputs) :
    db.handleUpload sha256 userID { jobID := job.id, rootID := job.rootID, files } reply =
      db.uploadIndexBatch sha256 userID { jobID := job.id, rootID := job.rootID, files := inputs }
        reply := by
  obtain ⟨uuid, trimmed, -⟩ := uuidValidate_of_standard standard
  have request : uploadRequest { jobID := job.id, rootID := job.rootID, files } =
      .ok { jobID := job.id, rootID := job.rootID, files := inputs } := by
    simp only [uploadRequest, bind_ok_iff, refuse_ok_iff, pure_ok_iff, valid, opened.root, trimmed]
    exact ⟨inputs, rfl, (), by simp [uuid], (), by simp [opened.rootPattern], rfl⟩
  simp only [Database.handleUpload, request, bind, Except.bind]

theorem validateUpload_eq {userID : String} {args : MCPIndexStartArgs} {job : IndexJob}
    {todo : List ManifestFile} {db : Database} (opened : Open userID args job todo db)
    (standard : standardUUID job.id.toList = true) {inputs : List ManifestFile} {total : Nat}
    (few : inputs.length ≤ maxIndexBatchFiles) (small : validateIndexBatchSize inputs = .ok total) :
    validateUpload { jobID := job.id, rootID := job.rootID, files := inputs } =
      .ok { jobID := job.id, rootID := job.rootID, files := inputs } := by
  obtain ⟨-, trimmed, named⟩ := uuidValidate_of_standard standard
  simp [validateUpload, opened.root, trimmed, named, opened.rootNamed, Nat.not_lt.mpr few,
    Nat.not_lt.mpr opened.rootSize, small]

theorem loadIndexJob_of_open {userID : String} {args : MCPIndexStartArgs} {job : IndexJob}
    {todo : List ManifestFile} {db : Database} (opened : Open userID args job todo db) :
    db.loadIndexJob userID job.id = some job :=
  Database.loadIndexJob_eq_some.mpr ⟨opened.stored, rfl, opened.owner⟩

/-- Once the deletions are out, a batch of one pending file is prepared. -/
theorem prepare_file {sha256 : String → String} {userID : String} {args : MCPIndexStartArgs}
    {job : IndexJob} {file input : ManifestFile} {rest : List ManifestFile} {db : Database}
    (opened : Open userID args job (file :: rest) db)
    (settled : job.deletionsSent = true ∨ job.deletedCount = 0)
    (path : normalizeIndexPath input.path = file.path) (hash : trimSpace input.hash = file.hash)
    (size : (input.content.utf8ByteSize : Int) = file.size)
    (digest : equalFold (sha256 input.content) (trimSpace file.hash) = true) :
    ∃ staged : ManifestFile, staged.path = file.path ∧ staged.content = input.content ∧
      db.prepareIndexBatch sha256 userID
          { jobID := job.id, rootID := job.rootID, files := [input] } =
        .ok ⟨job, [staged], []⟩ := by
  obtain ⟨row, member, owner, named, rowHash, rowSize, needed, unmarked⟩ :=
    opened.manifest file List.mem_cons_self
  have found : db.indexJobFiles.lookup (job.id, file.path) = some row :=
    Table.lookup_eq_some.mpr ⟨member, by rw [JobFile.key, owner, named]⟩
  have nonempty := (opened.source file List.mem_cons_self).1
  have none : (!job.deletionsSent && decide (0 < job.deletedCount)) = false := by
    rcases settled with sent | zero
    · simp [sent]
    · simp [zero]
  refine ⟨{ input with path := file.path, hash := row.hash
                       estimatedChunks := row.estimatedChunks }, rfl, rfl, ?_⟩
  simp [Database.prepareIndexBatch, loadIndexJob_of_open opened, opened.running, opened.root,
    normalizeBatch, stageFiles, stageFile, validateIndexContent, path, nonempty, found, needed,
    unmarked, hash, rowHash, rowSize, size, digest, none]

/-- A batch without files takes the whole deletion list. -/
theorem prepare_deletions {sha256 : String → String} {userID : String} {args : MCPIndexStartArgs}
    {job : IndexJob} {todo : List ManifestFile} {deleted : List String} {db : Database}
    (begun : Begun userID args job todo deleted db) (some : deleted ≠ []) :
    db.prepareIndexBatch sha256 userID { jobID := job.id, rootID := job.rootID, files := [] } =
      .ok ⟨job, [], deleted⟩ := by
  have positive : 0 < job.deletedCount := by
    rw [begun.deletedCount]
    exact List.length_pos_iff.mpr some
  simp [Database.prepareIndexBatch, loadIndexJob_of_open begun.toOpen, begun.running, begun.root,
    normalizeBatch, stageFiles, begun.unsent, positive, Nat.ne_of_gt positive, begun.removed]

/-- One file more. -/
theorem upload_file {sha256 : String → String} {userID : String} {args : MCPIndexStartArgs}
    {job : IndexJob} {file : ManifestFile} {rest : List ManifestFile} {db : Database}
    (opened : Open userID args job (file :: rest) db)
    (standard : standardUUID job.id.toList = true)
    (settled : job.deletionsSent = true ∨ job.deletedCount = 0) {upload : MCPIndexUploadFile}
    (carries : Carries sha256 file upload) (reply : StageReply) :
    ∃ after next, db.handleUpload sha256 userID
        { jobID := job.id, rootID := job.rootID, files := [upload] } reply = .ok after ∧
      Open userID args next rest after ∧ SameJob job next ∧
      (next.deletionsSent = true ∨ next.deletedCount = 0) := by
  obtain ⟨input, accepted, path, hash, size, bounded, digest, short⟩ := carries
  have single := validateIndexBatchSize_single bounded
  have valid : validateMCPUploadFiles [upload] = .ok [input] := by
    simp [validateMCPUploadFiles, accepted, single, bind, Except.bind, pure, Except.pure]
  obtain ⟨staged, stagedPath, stagedContent, prepared⟩ :=
    prepare_file opened settled path hash size digest
  have stagedSize : staged.content.utf8ByteSize ≤ maxIndexFileBytes := by rwa [stagedContent]
  have pending (named : String) (listed : named ∈ [staged].map (·.path)) :
      db.Pending job.id named := by
    rw [List.map_singleton, List.mem_singleton, stagedPath] at listed
    obtain ⟨row, member, owner, same, -, -, needed, unmarked⟩ :=
      opened.manifest file List.mem_cons_self
    exact ⟨row, member, owner, same.trans listed.symm, needed, unmarked⟩
  obtain ⟨after, uploaded, recorded⟩ := upload_accepted reply
    (validateUpload_eq opened standard (by simp [maxIndexBatchFiles]) single) prepared opened.stored opened.owner
    opened.running opened.client ⟨_, validateIndexBatchSize_single stagedSize⟩
    (stageBodySize_single opened.tenant standard opened.rootSize (stagedPath ▸ short) stagedSize)
    (List.nodup_singleton _) pending
  obtain ⟨next, open', same, sent⟩ := opened.recorded recorded
    (by simp [stagedPath]) (List.subset_cons_self file rest)
  refine ⟨after, next, (handleUpload_eq opened standard reply valid).trans uploaded, open', same, ?_⟩
  rw [sent, same.deletedCount]
  exact settled.imp_left fun done => by simp [done]

/-- The deletions, in a batch of their own. -/
theorem upload_deletions (sha256 : String → String) {userID : String} {args : MCPIndexStartArgs}
    {job : IndexJob} {todo : List ManifestFile} {deleted : List String} {db : Database}
    (begun : Begun userID args job todo deleted db)
    (standard : standardUUID job.id.toList = true) (some : deleted ≠ [])
    (fits : stageBodySize userID job.id job.rootID [] deleted ≤ maxLCEMCPRequestBodyBytes)
    (reply : StageReply) :
    ∃ after next, db.handleUpload sha256 userID
        { jobID := job.id, rootID := job.rootID, files := [] } reply = .ok after ∧
      Open userID args next todo after ∧ SameJob job next ∧ next.deletionsSent = true := by
  have nothing : validateIndexBatchSize [] = .ok 0 := rfl
  have valid : validateMCPUploadFiles [] = .ok [] := rfl
  obtain ⟨after, uploaded, recorded⟩ := upload_accepted reply
    (validateUpload_eq begun.toOpen standard (by decide) nothing) (prepare_deletions begun some)
    begun.stored begun.owner begun.running begun.client ⟨_, nothing⟩ fits List.nodup_nil
    (by simp)
  obtain ⟨next, open', same, sent⟩ := begun.toOpen.recorded recorded rfl (List.Subset.refl todo)
  refine ⟨after, next, (handleUpload_eq begun.toOpen standard reply valid).trans uploaded, open',
    same, ?_⟩
  simp [sent, some]

/-! ### Whole jobs -/

/-- An honest client can upload everything that is pending. -/
theorem uploads_of_honest {sha256 : String → String} {args : MCPIndexStartArgs}
    (honest : ∀ file ∈ args.files, Honest sha256 file) (todo : List ManifestFile)
    (source : ∀ file ∈ todo, file.path ≠ "" ∧ ∃ arg ∈ args.files, ∃ valid,
      validateMCPManifestFile arg = .ok valid ∧ file = storedFile valid) :
    ∃ uploads, List.Forall₂ (Carries sha256) todo uploads := by
  induction todo with
  | nil => exact ⟨[], .nil⟩
  | cons file rest ih =>
    obtain ⟨uploads, carried⟩ := ih fun other listed => source other (List.mem_cons_of_mem _ listed)
    obtain ⟨-, arg, given, valid, accepted, rfl⟩ := source file List.mem_cons_self
    obtain ⟨upload, carries⟩ := carries_of_honest accepted (honest arg given)
    exact ⟨upload :: uploads, .cons carries carried⟩

/-- The files of an open job, one upload each. -/
theorem upload_todo {sha256 : String → String} {userID : String} {args : MCPIndexStartArgs}
    {todo : List ManifestFile} {uploads : List MCPIndexUploadFile}
    (carried : List.Forall₂ (Carries sha256) todo uploads) {job : IndexJob} {db : Database}
    (opened : Open userID args job todo db) (standard : standardUUID job.id.toList = true)
    (settled : job.deletionsSent = true ∨ job.deletedCount = 0) (replies : Nat → StageReply) :
    ∃ after next, db.uploadAll sha256 userID job.id job.rootID (uploads.map fun file => [file])
        replies = .ok after ∧
      Open userID args next [] after ∧ SameJob job next ∧
      (next.deletionsSent = true ∨ next.deletedCount = 0) := by
  induction carried generalizing job db replies with
  | nil => exact ⟨db, job, rfl, opened, ⟨rfl, rfl, rfl, rfl, rfl, rfl, rfl⟩, settled⟩
  | @cons file upload rest uploads carries _ ih =>
    obtain ⟨middle, next, uploaded, opened', same, settled'⟩ :=
      upload_file opened standard settled carries (replies 0)
    have standard' : standardUUID next.id.toList = true := by
      rw [same.id]
      exact standard
    obtain ⟨after, last, finished, closed, same', settled''⟩ :=
      ih opened' standard' settled' fun n => replies (n + 1)
    rw [same.id, same.rootID] at finished
    refine ⟨after, last, ?_, closed, ?_, settled''⟩
    · simp only [List.map_cons, Database.uploadAll, uploaded, bind, Except.bind, finished]
    · exact ⟨same'.id.trans same.id, same'.userID.trans same.userID,
        same'.workspaceID.trans same.workspaceID, same'.rootID.trans same.rootID,
        same'.mode.trans same.mode, same'.totalFiles.trans same.totalFiles,
        same'.deletedCount.trans same.deletedCount⟩

/-- With nothing left to do the checks of `complete` pass. -/
theorem completable_of_open {userID : String} {args : MCPIndexStartArgs} {job : IndexJob}
    {db : Database} (opened : Open userID args job [] db)
    (settled : job.deletionsSent = true ∨ job.deletedCount = 0) : job.completable = .ok () := by
  have all : job.indexedFiles = job.totalFiles := by simpa using opened.counted
  rcases settled with sent | zero
  · simp [IndexJob.completable, opened.running, all, sent]
  · simp [IndexJob.completable, opened.running, all, zero]

/-- A batch that is accepted was prepared, and its request fits. -/
theorem handleUpload_eq_ok {sha256 : String → String} {userID : String}
    {args : MCPIndexUploadArgs} {reply : StageReply} {db after : Database}
    (accepted : db.handleUpload sha256 userID args reply = .ok after) :
    ∃ req batch, req.jobID = trimSpace args.jobID ∧
      req.rootID = normalizeIndexRootID args.rootID ∧
      db.prepareIndexBatch sha256 userID req = .ok batch ∧
      stageBodySize userID batch.job.id req.rootID batch.staged batch.deleted ≤
        maxLCEMCPRequestBodyBytes := by
  simp only [Database.handleUpload, Database.uploadIndexBatch, uploadRequest, bind_ok_iff,
    refuse_ok_iff, pure_ok_iff] at accepted
  obtain ⟨sent, ⟨inputs, -, -, -, -, -, rfl⟩, checked, valid, batch, prepared, -, -, -, -, size,
    body, -⟩ := accepted
  have same : checked.jobID = trimSpace args.jobID ∧
      checked.rootID = normalizeIndexRootID args.rootID := by
    unfold validateUpload at valid
    simp only at valid
    split at valid
    · simp at valid
    split at valid
    · simp at valid
    · rw [Except.ok.injEq] at valid
      subst valid
      simp [normalizeIndexRootID]
  obtain ⟨rfl, fits⟩ := validateMCPToolCallBody_isOk.mp body
  exact ⟨checked, batch, same.1, same.2, prepared, fits⟩

/-- The deletion list goes with every batch until one has been recorded. -/
theorem deleted_of_prepared {sha256 : String → String} {userID : String}
    {args : MCPIndexStartArgs} {job : IndexJob} {todo : List ManifestFile} {deleted : List String}
    {db : Database} (begun : Begun userID args job todo deleted db) (some : deleted ≠ [])
    {req : UploadRequest} (same : req.jobID = job.id) {batch : PreparedBatch}
    (prepared : db.prepareIndexBatch sha256 userID req = .ok batch) :
    batch.job = job ∧ batch.deleted = deleted := by
  have positive : 0 < job.deletedCount := by
    rw [begun.deletedCount]
    exact List.length_pos_iff.mpr some
  unfold Database.prepareIndexBatch at prepared
  rw [same, loadIndexJob_of_open begun.toOpen] at prepared
  simp only at prepared
  split at prepared
  · simp at prepared
  split at prepared
  · simp at prepared
  split at prepared
  · simp at prepared
  split at prepared
  · simp at prepared
  split at prepared
  · simp at prepared
  · rw [Except.ok.injEq] at prepared
    subst prepared
    exact ⟨rfl, by simp [begun.unsent, positive, begun.removed]⟩

/-- The first batch that is accepted carries the deletion list, and the checks of
`complete` do not pass without one. -/
theorem fits_of_finishable {sha256 : String → String} {userID : String}
    {args : MCPIndexStartArgs} {job : IndexJob} {todo : List ManifestFile} {deleted : List String}
    {db : Database} (begun : Begun userID args job todo deleted db) (some : deleted ≠ [])
    (standard : standardUUID job.id.toList = true)
    (finishable : Finishable sha256 userID job db) :
    stageBodySize userID job.id job.rootID [] deleted ≤ maxLCEMCPRequestBodyBytes := by
  obtain ⟨batches, accepted⟩ := finishable
  obtain ⟨after, row, uploaded, found, ready⟩ := accepted fun _ => ⟨0, 0, true⟩
  have positive : 0 < job.deletedCount := by
    rw [begun.deletedCount]
    exact List.length_pos_iff.mpr some
  cases batches with
  | nil =>
    rw [Database.uploadAll, Except.ok.injEq] at uploaded
    subst uploaded
    rw [loadIndexJob_of_open begun.toOpen, Option.some.injEq] at found
    subst found
    have sent := (Database.completable_eq_ok ready).2.2 positive
    rw [begun.unsent] at sent
    cases sent
  | cons files rest =>
    simp only [Database.uploadAll, bind_ok_iff] at uploaded
    obtain ⟨middle, first, -⟩ := uploaded
    obtain ⟨req, batch, jobID, rootID, prepared, fits⟩ := handleUpload_eq_ok first
    dsimp only at jobID rootID
    rw [(uuidValidate_of_standard standard).2.1] at jobID
    rw [begun.root] at rootID
    obtain ⟨sameJob, sameDeleted⟩ := deleted_of_prepared begun some jobID prepared
    rw [rootID, sameJob, sameDeleted, stageBodySize_eq] at fits
    rw [stageBodySize_eq]
    have more : filesSize [] ≤ filesSize batch.staged := by
      simp only [filesSize, Wire.utf8Len_array, List.map_nil, List.sum_nil, List.length_nil]
      omega
    omega

/-- A job that a start created can be finished by a client that has the files it
declared iff there is nothing to delete or the whole deletion list fits into one
request. -/
theorem finishable_iff (sha256 : String → String) (check : String → Except String Unit)
    (now wait : Nat) (userID jobID : String) (args : MCPIndexStartArgs) (db after : Database)
    (job : IndexJob) (pending deleted : List String)
    (standard : standardUUID jobID.toList = true) (referenced : db.ManifestsReferenced)
    (honest : ∀ file ∈ args.files, Honest sha256 file)
    (started : db.handleStart check now userID args wait jobID =
      .ok (.created job pending deleted, after)) :
    Finishable sha256 userID job after ↔ deleted = [] ∨
      stageBodySize userID job.id job.rootID [] deleted ≤ maxLCEMCPRequestBodyBytes := by
  obtain ⟨rfl, todo, begun⟩ := begun_of_start referenced started
  constructor
  · intro finishable
    rcases eq_or_ne deleted [] with none | some
    · exact .inl none
    · exact .inr (fits_of_finishable begun some standard finishable)
  · intro fits
    -- one file a batch: then only the list of deletions can be too long
    obtain ⟨uploads, carried⟩ := uploads_of_honest honest todo begun.source
    rcases eq_or_ne deleted [] with rfl | some
    · refine ⟨uploads.map fun file => [file], fun replies => ?_⟩
      obtain ⟨last, row, finished, closed, same, settled⟩ :=
        upload_todo carried begun.toOpen standard (.inr begun.deletedCount) replies
      exact ⟨last, row, finished, same.id ▸ loadIndexJob_of_open closed,
        completable_of_open closed settled⟩
    · -- the deletions first, then the files
      have fits := fits.resolve_left some
      refine ⟨[] :: uploads.map fun file => [file], fun replies => ?_⟩
      obtain ⟨middle, next, uploaded, opened, same, sent⟩ :=
        upload_deletions sha256 begun standard some fits (replies 0)
      have standard' : standardUUID next.id.toList = true := by
        rw [same.id]
        exact standard
      obtain ⟨last, row, finished, closed, same', settled⟩ :=
        upload_todo carried opened standard' (.inl sent) fun n => replies (n + 1)
      rw [same.id, same.rootID] at finished
      refine ⟨last, row, ?_, ?_, completable_of_open closed settled⟩
      · simp only [Database.uploadAll, uploaded, bind, Except.bind, finished]
      · rw [← same.id, ← same'.id]
        exact loadIndexJob_of_open closed

/-! ### A deletion list that does not fit -/

theorem le_deletedSize (deleted : List String) :
    (deleted.map utf8ByteSize).sum ≤ deletedSize deleted := by
  unfold deletedSize
  split
  next none => simp [none]
  · have each : (deleted.map utf8ByteSize).sum ≤ ((deleted.map Wire.string).map utf8Len).sum := by
      rw [List.map_map]
      apply List.sum_le_sum
      intro path _
      exact (Nat.le_add_right _ 2).trans (Wire.le_utf8Len_string path)
    rw [Wire.utf8Len_array]
    omega

namespace LongDeletion

/-- The SHA-256 digest of the text `a`. -/
def digest : String := "ca978112ca1bbdcafac231b39a23dc4da786eff8147c4e72b9807785afee48bb"

/-- SHA-256 on the one text that is uploaded here. -/
def sha256 (content : String) : String := if content = "a" then digest else ""

def longPath (n : Nat) : String := String.ofList (List.replicate n 'a')

def snapshotRow (n : Nat) : IndexedFile :=
  { userID := "tenant", workspaceID := "root", path := longPath n, hash := digest, size := 1
    estimatedChunks := 1 }

theorem longPath_injective : Function.Injective longPath := by
  intro m n same
  have characters := congrArg String.toList same
  simpa [longPath] using congrArg List.length characters

theorem utf8ByteSize_longPath (n : Nat) : (longPath n).utf8ByteSize = n := by
  have one : 'a'.utf8Size = 1 := rfl
  rw [longPath, String.utf8ByteSize_ofList]
  induction n with
  | zero => rfl
  | succ n ih => rw [List.replicate_succ, String.utf8Len_cons, ih, one]

theorem rows_unique {lengths : List Nat} (distinct : lengths.Nodup) :
    ((lengths.map snapshotRow).map IndexedFile.key).Nodup := by
  rw [List.map_map]
  refine distinct.map fun m n same => longPath_injective ?_
  simpa [snapshotRow, IndexedFile.key] using same

/-- A published snapshot, with paths of the given lengths. -/
def published (lengths : List Nat) (distinct : lengths.Nodup) : Database :=
  { Database.empty with
    indexedFiles := ⟨lengths.map snapshotRow, rows_unique distinct⟩
    indexWorkspaces := ⟨[{ userID := "tenant", workspaceID := "root", workspaceName := "root"
                           rootID := "root", branch := "", revision := "", cloudRevision := 1
                           indexedAt := 0 }], by decide⟩ }

/-- All of them are gone and there is one new file. -/
def args : MCPIndexStartArgs :=
  { rootID := "root"
    files := [{ path := "main.go", hash := digest, size := 1, estimatedChunks := 1 }] }

def jobID : String := "6f1c1f0a-52f5-4f0e-9a52-0e2a5d2c7b11"

def request : StartRequest :=
  { workspaceID := "root", workspaceName := "root", branch := "", revision := ""
    files := [{ path := "main.go", hash := digest, size := 1, estimatedChunks := 1 }]
    unreadableFiles := [], rootID := "root" }

theorem honest : ∀ file ∈ args.files, Honest sha256 file := by
  intro file listed
  rw [args, List.mem_singleton] at listed
  subst listed
  exact ⟨"a", rfl, by decide, by decide⟩

theorem startRequest_args : startRequest (fun _ => .ok ()) args = .ok request := by decide +kernel

theorem normalizeStartRequest_request : normalizeStartRequest request = .ok request := by
  decide +kernel

section

variable (lengths : List Nat) (distinct : lengths.Nodup)

theorem snapshot_published :
    (published lengths distinct).loadIndexedSnapshot "tenant" "root" = lengths.map fun n =>
      { path := longPath n, hash := digest, size := 1, estimatedChunks := 1 } := by
  have all : (lengths.map snapshotRow).filter (fun file =>
      file.userID == "tenant" && file.workspaceID == "root") = lengths.map snapshotRow := by
    rw [List.filter_eq_self]
    intro file listed
    obtain ⟨n, -, rfl⟩ := List.mem_map.mp listed
    rfl
  change ((lengths.map snapshotRow).filter _).map _ = _
  rw [all, List.map_map]
  rfl

theorem longPath_ne (n : Nat) : longPath n ≠ "main.go" := by
  intro same
  have member : 'm' ∈ (longPath n).toList := by
    rw [same]
    decide
  simp [longPath] at member

/-- The difference between the snapshot and the one new file. -/
def diff : ManifestDiff :=
  diffManifest ((published lengths distinct).loadIndexedSnapshot "tenant" "root") request.files

theorem deleted_perm : (diff lengths distinct).deleted.Perm (lengths.map longPath) := by
  have all (snapshot : List ManifestFile) (other : ∀ old ∈ snapshot, old.path ≠ "main.go") :
      snapshot.filter (fun old => request.files.all fun file => file.path != old.path) =
        snapshot := by
    rw [List.filter_eq_self]
    intro old listed
    simpa [request] using (other old listed).symm
  rw [diff, diffManifest, snapshot_published]
  simp only
  rw [all _ (by simp [longPath_ne])]
  refine ((List.perm_insertionSort byPath _).map _).trans ?_
  rw [List.map_map]
  exact .refl _

theorem le_deletedSize_diff : lengths.sum ≤ deletedSize (diff lengths distinct).deleted := by
  have sizes := ((deleted_perm lengths distinct).map utf8ByteSize).sum_nat
  have each : utf8ByteSize ∘ longPath = id := funext utf8ByteSize_longPath
  rw [List.map_map, each, List.map_id] at sizes
  rw [← sizes]
  exact le_deletedSize _

theorem pending_ne_nil : (diff lengths distinct).pending ≠ [] := by
  have absent : ((published lengths distinct).loadIndexedSnapshot "tenant" "root").find?
      (·.path == "main.go") = none := by
    rw [snapshot_published, List.find?_eq_none]
    simp [longPath_ne]
  simp [diff, diffManifest, request, changed, absent]

/-- The start is admitted. -/
theorem started : ∃ job pending after,
    (published lengths distinct).handleStart (fun _ => .ok ()) 0 "tenant" args 0 jobID =
      .ok (.created job pending (diff lengths distinct).deleted, after) := by
  have differs : ¬ ((published lengths distinct).workspaceExists "tenant" request.workspaceID = true ∧
      (diff lengths distinct).pending = [] ∧ (diff lengths distinct).deleted = []) :=
    fun same => pending_ne_nil lengths distinct same.2.1
  -- `published` holds no job yet, so no key can clash
  have inserted (job : IndexJob) (tenant : job.userID = "tenant") (pending : List String) :
      ∃ after, (published lengths distinct).insertIndexJob job request.files pending =
        .ok after := by
    have fits : (varchar 255 job.userID && request.files.all (varchar 128 ·.hash)) = true := by
      rw [tenant]
      decide
    have row : (Table.empty : Table IndexJob.id).insert [job] =
        some ⟨[job], List.nodup_singleton _⟩ := dif_pos (List.nodup_singleton _)
    have files : (Table.empty : Table JobFile.key).insert
        (request.files.map (manifestRow job.id pending)) =
          some ⟨request.files.map (manifestRow job.id pending), List.nodup_singleton _⟩ :=
      dif_pos (List.nodup_singleton _)
    exact ⟨_, Database.insertIndexJob_of_fresh fits row files⟩
  let job := Database.newIndexJob 0 "tenant" jobID request
    (if (published lengths distinct).workspaceExists "tenant" request.workspaceID
      then JobMode.incremental else JobMode.full) request.files.length (diff lengths distinct)
  obtain ⟨after, placed⟩ := inserted job rfl (diff lengths distinct).pending
  refine ⟨job, (diff lengths distinct).pending, after, ?_⟩
  have created : (published lengths distinct).createIndexJob 0 "tenant" request 0 jobID =
      .ok (.created job (diff lengths distinct).pending (diff lengths distinct).deleted, after) := by
    have grafted : graftUnreadablePaths
        ((published lengths distinct).loadIndexedSnapshot "tenant" request.workspaceID)
        request.files request.unreadableFiles = .ok request.files := rfl
    unfold Database.createIndexJob
    simp only [grafted]
    refine (if_neg differs).trans ((if_neg (Nat.lt_irrefl 0)).trans ?_)
    change Except.map _ ((published lengths distinct).insertIndexJob job request.files
      (diff lengths distinct).pending) = _
    rw [placed]
    rfl
  simp only [Database.handleStart, startRequest_args, normalizeStartRequest_request, bind,
    Except.bind, created]

end

end LongDeletion

open LongDeletion in
/-- With one short path to delete, and the file at hand, the job can be finished. -/
theorem finishable_short_deletion :
    ∃ (after : Database) (job : IndexJob) (pending : List String),
      (published [3] (List.nodup_singleton 3)).handleStart (fun _ => .ok ()) 0 "tenant" args 0 jobID =
        .ok (.created job pending ["aaa"], after) ∧
      Finishable sha256 "tenant" job after := by
  obtain ⟨job, pending, after, admitted⟩ := started [3] (List.nodup_singleton 3)
  have deleted : (diff [3] (List.nodup_singleton 3)).deleted = ["aaa"] :=
    List.perm_singleton.mp (deleted_perm [3] (List.nodup_singleton 3))
  rw [deleted] at admitted
  have referenced : (published [3] (List.nodup_singleton 3)).ManifestsReferenced := by
    intro file member
    exact absurd member (Table.not_mem_empty file)
  obtain ⟨id, todo, begun⟩ := begun_of_start referenced admitted
  have fits : stageBodySize "tenant" job.id job.rootID [] ["aaa"] ≤ maxLCEMCPRequestBodyBytes := by
    have root := Wire.utf8Len_string_le job.rootID
    have short := begun.rootSize
    have rest : utf8Len (Wire.string "tenant") = 8 ∧ utf8Len (Wire.string jobID) = 38 ∧
      filesSize [] = 2 ∧ deletedSize ["aaa"] = 24 := by decide
    rw [stageBodySize_eq, id, maxLCEMCPRequestBodyBytes]
    rw [maxIndexRootIDLen] at short
    omega
  exact ⟨after, job, pending, admitted,
    (finishable_iff _ _ 0 0 "tenant" jobID args _ after job pending ["aaa"] (by decide) referenced
      honest admitted).mpr (.inr fits)⟩

open LongDeletion in
/-- The job of a start that deletes 1996 paths of 2101 to 4096 bytes cannot be
finished, although the client has the one file that it declared. -/
theorem longDeletion_unfinishable :
    ∃ (db after : Database) (job : IndexJob) (pending deleted : List String),
      db.ManifestsReferenced ∧ (∀ file ∈ args.files, Honest sha256 file) ∧
      db.handleStart (fun _ => .ok ()) 0 "tenant" args 0 jobID =
        .ok (.created job pending deleted, after) ∧
      ¬ Finishable sha256 "tenant" job after := by
  have distinct : ((List.range 1996).map (2101 + ·)).Nodup :=
    List.nodup_range.map fun a b same => by simpa using same
  obtain ⟨job, pending, after, admitted⟩ := started _ distinct
  have referenced : (published _ distinct).ManifestsReferenced := by
    intro file member
    exact absurd member (Table.not_mem_empty file)
  refine ⟨_, after, job, pending, _, referenced, honest, admitted, fun finishable => ?_⟩
  · obtain ⟨id, todo, begun⟩ := begun_of_start referenced admitted
    have long := le_deletedSize_diff _ distinct
    have total : ((List.range 1996).map (2101 + ·)).sum = 6184606 := by decide +kernel
    rw [total] at long
    have some : (diff _ distinct).deleted ≠ [] := by
      intro none
      rw [none] at long
      exact absurd long (by decide)
    have fits := fits_of_finishable begun some (by rw [id]; decide) finishable
    rw [stageBodySize_eq, maxLCEMCPRequestBodyBytes] at fits
    omega

end AcemcpRelay
