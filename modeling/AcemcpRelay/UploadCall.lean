import AcemcpRelay.IndexTool
import AcemcpRelay.Wire.Json

/-!
# An upload call

The whole of `uploadIndexBatch` for an LCE and a quota that accept, with the
request body that it sends and measures. Files travel in batches of the client's
choice; the deletion list is attached whole to each batch until one has been
recorded.
-/
namespace AcemcpRelay

open Store String

def maxLCEMCPRequestBodyBytes : Nat := 4 * 1024 * 1024

def maxInt64 : Int := 9223372036854775807

/-- `lceIndexJobArgs`, with the values encoded. -/
def lceIndexJobArgs (userID jobID rootID operation : String) : List (String × List Char) :=
  [("tenant_id", Wire.string userID), ("job_id", Wire.string jobID),
    ("operation", Wire.string operation), ("root_id", Wire.string rootID),
    ("response_format", Wire.string "json")]

def marshalMCPToolCallBody (id : Int) (name : String) (args : List (String × List Char)) :
    List Char :=
  Wire.object [("jsonrpc", Wire.string "2.0"), ("id", Wire.number id),
    ("method", Wire.string "tools/call"),
    ("params", Wire.object [("name", Wire.string name), ("arguments", Wire.object args)])]

def validateMCPToolCallBody (name : String) (args : List (String × List Char)) :
    Except String Nat :=
  let size := utf8Len (marshalMCPToolCallBody maxInt64 name args)
  if maxLCEMCPRequestBodyBytes < size then
    .error ("encoded LCE request exceeds the 4194304 byte limit (" ++ toString size ++ " bytes)")
  else .ok size

def stageArgs (userID jobID rootID : String) (staged : List ManifestFile)
    (deleted : List String) : List (String × List Char) :=
  lceIndexJobArgs userID jobID rootID "stage" ++
    ("files", Wire.array (staged.map fun file =>
      Wire.object [("path", Wire.string file.path), ("content", Wire.string file.content)])) ::
    if deleted = [] then [] else [("deleted_files", Wire.array (deleted.map Wire.string))]

/-- What comes back from LCE: the chunks it counted, or an estimate, and the time
of the statements around the call. -/
structure StageReply where
  now : Nat
  chunks : Int
  exactCount : Bool

namespace Database

variable (sha256 : String → String)

/-- `uploadIndexBatch`. -/
def uploadIndexBatch (userID : String) (req : UploadRequest) (reply : StageReply)
    (db : Database) : Except String Database := do
  let req ← validateUpload req
  let batch ← db.prepareIndexBatch sha256 userID req
  let beating ← db.uploadHeartbeat reply.now userID batch.job.id
  let _ ← validateIndexBatchSize batch.staged
  let _ ← validateMCPToolCallBody "codebase_remote_index"
    (stageArgs userID batch.job.id req.rootID batch.staged batch.deleted)
  -- the quota and LCE accept, and what LCE answers is `reply`
  let chunks := if reply.exactCount then reply.chunks
    else reply.chunks + (batch.staged.map (·.estimatedChunks)).sum
  beating.commitIndexBatch reply.now userID batch.job.id (batch.staged.map (·.path)) chunks
    (!reply.exactCount) (batch.deleted ≠ [])

/-- The `upload` operation of the tool. -/
def handleUpload (userID : String) (args : MCPIndexUploadArgs) (reply : StageReply)
    (db : Database) : Except String Database := do
  let req ← uploadRequest args
  db.uploadIndexBatch sha256 userID req reply

end Database

/-! ### The size of the request -/

/-- The bytes of the `stage` request as they are measured. -/
def stageBodySize (userID jobID rootID : String) (staged : List ManifestFile)
    (deleted : List String) : Nat :=
  utf8Len (marshalMCPToolCallBody maxInt64 "codebase_remote_index"
    (stageArgs userID jobID rootID staged deleted))

theorem validateMCPToolCallBody_isOk {userID jobID rootID : String} {staged : List ManifestFile}
    {deleted : List String} {size : Nat} :
    validateMCPToolCallBody "codebase_remote_index" (stageArgs userID jobID rootID staged deleted) =
      .ok size ↔
      size = stageBodySize userID jobID rootID staged deleted ∧
        size ≤ maxLCEMCPRequestBodyBytes := by
  unfold validateMCPToolCallBody stageBodySize
  simp only
  split
  next exceeds =>
    refine ⟨fun refused => by simp at refused, ?_⟩
    rintro ⟨rfl, fits⟩
    omega
  next fits =>
    rw [Except.ok.injEq]
    constructor
    · rintro rfl
      exact ⟨rfl, Nat.le_of_not_lt fits⟩
    · rintro ⟨rfl, -⟩
      rfl

/-- The bytes of the file list. -/
def filesSize (staged : List ManifestFile) : Nat :=
  utf8Len (Wire.array (staged.map fun file =>
    Wire.object [("path", Wire.string file.path), ("content", Wire.string file.content)]))

/-- The bytes of the deletion list, which is left out when it is empty. -/
def deletedSize (deleted : List String) : Nat :=
  if deleted = [] then 0 else utf8Len (Wire.array (deleted.map Wire.string)) + 17

theorem stageBodySize_eq (userID jobID rootID : String) (staged : List ManifestFile)
    (deleted : List String) :
    stageBodySize userID jobID rootID staged deleted =
      208 + utf8Len (Wire.string userID) + utf8Len (Wire.string jobID) +
        utf8Len (Wire.string rootID) + filesSize staged + deletedSize deleted := by
  have keys : [utf8Len (Wire.string "jsonrpc"), utf8Len (Wire.string "2.0"),
      utf8Len (Wire.string "id"), utf8Len (Wire.number maxInt64),
      utf8Len (Wire.string "method"), utf8Len (Wire.string "tools/call"),
      utf8Len (Wire.string "params"), utf8Len (Wire.string "name"),
      utf8Len (Wire.string "codebase_remote_index"), utf8Len (Wire.string "arguments"),
      utf8Len (Wire.string "tenant_id"), utf8Len (Wire.string "job_id"),
      utf8Len (Wire.string "operation"), utf8Len (Wire.string "stage"),
      utf8Len (Wire.string "root_id"), utf8Len (Wire.string "response_format"),
      utf8Len (Wire.string "json"), utf8Len (Wire.string "files"),
      utf8Len (Wire.string "deleted_files")] =
      [9, 5, 4, 19, 8, 12, 8, 6, 23, 11, 11, 8, 11, 7, 9, 17, 6, 7, 15] := by decide +kernel
  simp only [List.cons.injEq, and_true] at keys
  simp only [stageBodySize, marshalMCPToolCallBody, stageArgs, lceIndexJobArgs, filesSize,
    deletedSize]
  split <;>
  simp only [Wire.utf8Len_object, List.map_cons, List.map_nil, List.sum_cons, List.sum_nil,
    List.length_cons, List.length_nil, List.cons_append, List.nil_append, keys] <;>
  omega

end AcemcpRelay
