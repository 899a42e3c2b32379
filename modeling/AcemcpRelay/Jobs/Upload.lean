import AcemcpRelay.Jobs.Start

/-!
# Uploading a batch

The transactions of `uploadIndexBatch`: the read-only one that checks the batch
against the manifest, the statement that moves the job to `uploading` before the
LCE call, and the one that records the staged files after it. Several uploads of
one job may be between their first and last transaction at the same time.

A job identifier is the canonical text of the row's UUID here; the statements
compare UUID values, whatever text a caller sent.
-/
namespace AcemcpRelay

open Store

def maxIndexBatchFiles : Nat := 50

def maxIndexFileBytes : Nat := 512 * 1024

def maxIndexBatchBytes : Nat := 512 * 1024

/-- `indexUploadRequest`. -/
structure UploadRequest where
  jobID : String
  rootID : String
  files : List ManifestFile
  deriving DecidableEq, Repr

/-- The loop of `validateIndexBatchSize`, with the bytes counted so far. -/
def batchBytes : Nat → List ManifestFile → Except String Nat
  | total, [] => .ok total
  | total, file :: rest =>
    if maxIndexFileBytes < file.content.utf8ByteSize then
      .error ("file exceeds the 524288 byte limit: " ++ file.path)
    else batchBytes (total + file.content.utf8ByteSize) rest

/-- `validateIndexBatchSize`. -/
def validateIndexBatchSize (files : List ManifestFile) : Except String Nat :=
  match batchBytes 0 files with
  | .error message => .error message
  | .ok total =>
    if maxIndexBatchBytes < total then .error "index batch exceeds the 524288 byte limit"
    else .ok total

/-- The checks of `uploadIndexBatch` before it takes its lease. -/
def validateUpload (req : UploadRequest) : Except String UploadRequest :=
  let jobID := trimSpace req.jobID
  let rootID := normalizeIndexRootID req.rootID
  if jobID = "" ∨ rootID = "" ∨ maxIndexBatchFiles < req.files.length ∨
      maxIndexRootIDLen < rootID.utf8ByteSize then .error "invalid index batch"
  else match validateIndexBatchSize req.files with
    | .error message => .error message
    | .ok _ => .ok { req with jobID, rootID }

section

-- `sha256 content` is the lower-case hexadecimal digest of the content's bytes.
variable (sha256 : String → String)

/-- `validateIndexContent`. -/
def validateIndexContent (expectedHash : String) (expectedSize : Int) (content : String) :
    Except String Unit :=
  if (content.utf8ByteSize : Int) ≠ expectedSize then
    .error ("size is " ++ toString content.utf8ByteSize ++ " bytes, expected " ++
      toString expectedSize)
  else if equalFold (sha256 content) (trimSpace expectedHash) then .ok ()
  else .error ("SHA-256 is " ++ sha256 content ++ ", expected " ++ expectedHash)

/-- The paths of a batch, normalized and pairwise different. -/
def normalizeBatch : List String → List ManifestFile → Except String (List ManifestFile)
  | _, [] => .ok []
  | seen, file :: rest =>
    let path := normalizeIndexPath file.path
    if path = "" ∨ path ∈ seen then .error "invalid or duplicate batch path"
    else match normalizeBatch (path :: seen) rest with
      | .error message => .error message
      | .ok inputs => .ok ({ file with path } :: inputs)

/-- One batch file against its manifest row. -/
def stageFile (record : Option JobFile) (input : ManifestFile) : Except String ManifestFile :=
  match record with
  | none => .error ("batch file is not part of this job: " ++ input.path)
  | some row =>
    -- the caller's hash is compared with the manifest before the content is hashed
    if !row.needsIndex || row.indexed || trimSpace input.hash != row.hash then
      .error ("batch file is stale or already indexed: " ++ input.path)
    else match validateIndexContent sha256 row.hash row.size input.content with
      | .error message =>
        .error ("batch file content does not match manifest: " ++ input.path ++ ": " ++ message)
      | .ok () => .ok { input with hash := row.hash, estimatedChunks := row.estimatedChunks }

def stageFiles (records : String → Option JobFile) :
    List ManifestFile → Except String (List ManifestFile)
  | [] => .ok []
  | input :: rest =>
    match stageFile sha256 (records input.path) input with
    | .error message => .error message
    | .ok file =>
      match stageFiles records rest with
      | .error message => .error message
      | .ok files => .ok (file :: files)

/-- What `prepareIndexBatch` returns. -/
structure PreparedBatch where
  job : IndexJob
  staged : List ManifestFile
  deleted : List String

namespace Database

/-- `loadIndexJobFrom`. -/
def loadIndexJob (userID jobID : String) (db : Database) : Option IndexJob :=
  (db.indexJobs.lookup jobID).filter (·.userID == userID)

/-- The paths of the last snapshot that are not in the job's manifest, in order. -/
def removedPaths (userID workspaceID jobID : String) (db : Database) : List String :=
  (((db.loadIndexedSnapshot userID workspaceID).filter fun old =>
    !db.indexJobFiles.holds fun file => file.jobID == jobID && file.path == old.path
    ).insertionSort byPath).map (·.path)

/-- `prepareIndexBatch`. -/
def prepareIndexBatch (userID : String) (req : UploadRequest) (db : Database) :
    Except String PreparedBatch :=
  match db.loadIndexJob userID req.jobID with
  | none => .error "index job not found"
  | some job =>
    if job.status ≠ .running then .error ("index job is " ++ job.status.text)
    else if normalizeIndexRootID req.rootID ≠ job.rootID then
      .error "index batch root_id does not match the job"
    else if req.files = [] ∧ job.deletedCount = 0 then .error "empty index batch"
    else match normalizeBatch [] req.files with
      | .error message => .error message
      | .ok inputs =>
        match stageFiles sha256 (fun path => db.indexJobFiles.lookup (job.id, path)) inputs with
        | .error message => .error message
        | .ok staged => .ok
          { job, staged
            -- the whole list goes with each batch until one that carried it has been committed
            deleted := if !job.deletionsSent && decide (0 < job.deletedCount) then
              db.removedPaths userID job.workspaceID job.id else [] }

end Database

end

namespace Database

/-- The `UPDATE` before the LCE call: it must still find the job with its client. -/
def uploadHeartbeat (now : Nat) (userID jobID : String) (db : Database) : Except String Database :=
  let clientOwned (job : IndexJob) : Bool := job.runningAs userID jobID && job.phase != .publishing
  if db.indexJobs.holds clientOwned then
    .ok (db.updateJobs clientOwned (fun job => { job with phase := .uploading, heartbeatAt := now }))
  else .error "index job is no longer running"

/-- The `UPDATE` of one staged file; it has to hit a row that was still pending. -/
def markIndexed (jobID path : String) (db : Database) : Except String Database :=
  let pending (file : JobFile) : Bool :=
    file.jobID == jobID && file.path == path && file.needsIndex && !file.indexed
  if db.indexJobFiles.holds pending then
    .ok { db with
      indexJobFiles := db.indexJobFiles.update pending (fun file => { file with indexed := true }) }
  else .error ("index batch was already committed: " ++ path)

def markAllIndexed (jobID : String) : List String → Database → Except String Database
  | [], db => .ok db
  | path :: paths, db =>
    -- an update that hits no row makes the transaction fail, and all of it is rolled back
    match db.markIndexed jobID path with
    | .error message => .error message
    | .ok marked => markAllIndexed jobID paths marked

/-- `commitIndexBatch`. Of the job it checks the status only. -/
def commitIndexBatch (now : Nat) (userID jobID : String) (paths : List String) (chunks : Int)
    (fallback sentDeletions : Bool) (db : Database) : Except String Database :=
  match db.loadIndexJob userID jobID with
  | none => .error "index job not found"
  | some job =>
    if job.status ≠ .running then .error ("index job became " ++ job.status.text)
    else match db.markAllIndexed jobID paths with
      | .error message => .error message
      | .ok marked => .ok (marked.updateJobs (·.id == jobID) (fun row =>
        { row with
          phase := .indexing
          indexedFiles := row.indexedFiles + paths.length
          indexedChunks := row.indexedChunks + chunks
          chunkCountFallback := row.chunkCountFallback || fallback
          deletionsSent := row.deletionsSent || sentDeletions
          heartbeatAt := now }))

/-- The `UPDATE` of the `heartbeat` operation. -/
def heartbeat (now : Nat) (userID jobID : String) (db : Database) : Database :=
  db.updateJobs (fun job => job.runningAs userID jobID && job.phase != .publishing)
    (fun job => { job with heartbeatAt := now })

end Database

end AcemcpRelay
