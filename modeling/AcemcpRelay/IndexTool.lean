import AcemcpRelay.JobID
import AcemcpRelay.Jobs.Upload
import AcemcpRelay.Store.Checks

/-!
# The `codebase_index` tool

What `handleCodebaseIndex` checks of its arguments before it calls the index code:
paths and the cloud path policy, hashes, sizes, root and job identifiers. The
arguments are the decoded ones.
-/
namespace AcemcpRelay

open Store

/-! ### The path policy -/

/-- `contracts/cloud-index-path-policy.json`. -/
structure CloudIndexPathPolicy where
  excludedSegments : List String
  excludedBasenames : List String
  excludedBasenamePrefixes : List String
  excludedBasenameSuffixes : List String
  excludedExtensions : List String

def indexPathPolicy : CloudIndexPathPolicy where
  excludedSegments := [".git", "node_modules", ".turbo", "dist", "build", ".next", "__pycache__"]
  excludedBasenames := [".env", "package-lock.json", "yarn.lock", "pnpm-lock.yaml"]
  excludedBasenamePrefixes := [".env."]
  excludedBasenameSuffixes := [".min.js", ".min.css"]
  excludedExtensions := [".pyc", ".class", ".o", ".so", ".dll", ".exe", ".wasm", ".map", ".pem",
    ".key", ".cert", ".png", ".jpg", ".jpeg", ".gif", ".ico", ".svg", ".woff", ".woff2", ".ttf",
    ".eot", ".mp3", ".mp4", ".zip", ".tar", ".gz", ".rar", ".pdf"]

/-- Go's `path.Base`. -/
def pathBase (cs : List Char) : List Char :=
  match cs, (cs.reverse.dropWhile (· == '/')).takeWhile (· != '/') with
  | [], _ => ['.']
  | _, [] => ['/']
  | _, last => last.reverse

/-- Go's `path.Ext`. -/
def pathExt (cs : List Char) : List Char :=
  match cs.reverse.dropWhile fun c => c != '.' && c != '/' with
  | '.' :: _ => '.' :: (cs.reverse.takeWhile fun c => c != '.' && c != '/').reverse
  | _ => []

def isCloudIndexPathExcluded (normalized : String) : Bool :=
  let path := normalized.toList
  let trimmed := if path.getLast? = some '/' then path.dropLast else path
  -- the policy is about lower-case names
  let lower := (toLower (String.ofList trimmed)).toList
  let base := pathBase lower
  (splitOn '/' lower).any (fun segment =>
      indexPathPolicy.excludedSegments.any (·.toList == segment)) ||
    indexPathPolicy.excludedBasenames.any (·.toList == base) ||
    indexPathPolicy.excludedBasenamePrefixes.any (·.toList.isPrefixOf base) ||
    indexPathPolicy.excludedBasenameSuffixes.any (·.toList.isSuffixOf base) ||
    indexPathPolicy.excludedExtensions.any (·.toList == pathExt base)

/-! ### Checks -/

def maxIndexPathBytes : Nat := 4096

def estimatedIndexChunkBytes : Nat := 4096

def maxIndexEstimatedChunks : Nat :=
  (maxIndexFileBytes + estimatedIndexChunkBytes - 1) / estimatedIndexChunkBytes

def isASCIILetter (c : Char) : Bool := ('a' ≤ c && c ≤ 'z') || ('A' ≤ c && c ≤ 'Z')

def isASCIIDigit (c : Char) : Bool := '0' ≤ c && c ≤ '9'

/-- `^[a-fA-F0-9]{64}$`. -/
def sha256Pattern (text : String) : Bool := text.toList.length == 64 && text.toList.all isHexDigit

/-- `^[A-Za-z]:`. -/
def windowsDrive (cs : List Char) : Bool :=
  match cs with
  | letter :: ':' :: _ => isASCIILetter letter
  | _ => false

/-- `^[A-Za-z0-9][A-Za-z0-9._:@-]{0,127}$`. -/
def indexRootIDPattern (text : String) : Bool :=
  match text.toList with
  | [] => false
  | first :: rest =>
    (isASCIILetter first || isASCIIDigit first) && decide (rest.length ≤ 127) &&
      rest.all fun c => isASCIILetter c || isASCIIDigit c || "._:@-".toList.contains c

def validateIndexSourcePath (value : String) : Except String String :=
  -- trimmed before it is cleaned, so blanks that cleaning brings to the ends stay
  let raw := trimSpace (String.ofList (value.toList.map fun c => if c = '\\' then '/' else c))
  if maxIndexPathBytes < raw.utf8ByteSize then .error "index path exceeds 4096 bytes"
  else if raw = "" ∨ raw.toList.head? = some '/' ∨ windowsDrive raw.toList then
    .error ("index path must be repository-relative: " ++ value)
  else if "..".toList ∈ splitOn '/' raw.toList then
    .error ("index path must not escape the repository: " ++ value)
  else
    -- from here on nothing asks for a drive prefix any more
    let normalized := normalizeIndexPath raw
    if normalized = "" then .error "index path is required"
    else if isCloudIndexPathExcluded normalized then
      .error ("index path is excluded: " ++ normalized)
    else .ok normalized

/-- What the function has checked of a path it accepts. -/
theorem validateIndexSourcePath_eq_ok {value raw path : String}
    (trimmed : trimSpace (String.ofList (value.toList.map fun c => if c = '\\' then '/' else c)) =
      raw) :
    validateIndexSourcePath value = .ok path ↔
      raw.utf8ByteSize ≤ maxIndexPathBytes ∧
      ¬ (raw = "" ∨ raw.toList.head? = some '/' ∨ windowsDrive raw.toList) ∧
      "..".toList ∉ splitOn '/' raw.toList ∧ normalizeIndexPath raw = path ∧ path ≠ "" ∧
      isCloudIndexPathExcluded path = false := by
  simp only [validateIndexSourcePath, trimmed]
  -- one case a check, in the order of the source: each refuses what the ones before let through
  by_cases long : maxIndexPathBytes < raw.utf8ByteSize
  · simp [long, Nat.not_le.mpr long]
  rw [if_neg long]
  by_cases foreign : raw = "" ∨ raw.toList.head? = some '/' ∨ windowsDrive raw.toList
  · simp [foreign]
  rw [if_neg foreign]
  by_cases escapes : "..".toList ∈ splitOn '/' raw.toList
  · rw [if_pos escapes]
    exact ⟨fun refused => (nomatch refused), fun valid => absurd escapes valid.2.2.1⟩
  rw [if_neg escapes]
  by_cases blank : normalizeIndexPath raw = ""
  · rw [if_pos blank]
    exact ⟨fun refused => (nomatch refused), fun valid =>
      absurd (valid.2.2.2.1.symm.trans blank) valid.2.2.2.2.1⟩
  rw [if_neg blank]
  cases excluded : isCloudIndexPathExcluded (normalizeIndexPath raw) with
  | true =>
    refine ⟨fun refused => (nomatch refused), fun valid => ?_⟩
    obtain ⟨-, -, -, rfl, -, allowed⟩ := valid
    rw [excluded] at allowed
    cases allowed
  | false =>
    rw [if_neg Bool.false_ne_true, Except.ok.injEq]
    constructor
    · rintro rfl
      exact ⟨Nat.le_of_not_lt long, foreign, escapes, rfl, blank, excluded⟩
    · exact fun valid => valid.2.2.2.1

/-! ### Arguments -/

structure MCPIndexManifestFile where
  path : String
  hash : String
  size : Int
  estimatedChunks : Int
  deriving DecidableEq, Repr

structure MCPIndexUploadFile where
  path : String
  hash : String
  content : String
  deriving DecidableEq, Repr

structure MCPIndexStartArgs where
  rootID : String
  workspaceName : String := ""
  branch : String := ""
  revision : String := ""
  clientVersion : String := ""
  files : List MCPIndexManifestFile
  unreadableFiles : List String := []
  deriving DecidableEq, Repr

structure MCPIndexUploadArgs where
  jobID : String
  rootID : String
  files : List MCPIndexUploadFile
  deriving DecidableEq, Repr

/-- One round of the loop of `validateMCPManifestFiles`. -/
def validateMCPManifestFile (file : MCPIndexManifestFile) : Except String ManifestFile := do
  let path ← validateIndexSourcePath file.path
  refuse (sha256Pattern (trimSpace file.hash) = false)
    ("manifest file hash must be SHA-256: " ++ path)
  -- the texts name the normalized path, and so does the diagnosis made of them later
  refuse (file.size < 1 ∨ (maxIndexFileBytes : Int) < file.size)
    ("manifest file size is invalid: " ++ path)
  refuse (file.estimatedChunks < 1 ∨ (maxIndexEstimatedChunks : Int) < file.estimatedChunks)
    ("estimated_chunks must be between 1 and 128: " ++ path)
  return { path, hash := toLower (trimSpace file.hash), size := file.size
           estimatedChunks := file.estimatedChunks }

def validateMCPManifestFiles (files : List MCPIndexManifestFile) :
    Except String (List ManifestFile) :=
  files.mapM validateMCPManifestFile

theorem validateMCPManifestFile_eq_ok {arg : MCPIndexManifestFile} {valid : ManifestFile}
    (accepted : validateMCPManifestFile arg = .ok valid) :
    validateIndexSourcePath arg.path = .ok valid.path ∧ sha256Pattern (trimSpace arg.hash) = true ∧
      valid.hash = toLower (trimSpace arg.hash) ∧ valid.size = arg.size ∧ 1 ≤ arg.size ∧
      arg.size ≤ maxIndexFileBytes := by
  simp only [validateMCPManifestFile, bind_ok_iff, refuse_ok_iff, pure_ok_iff, not_or, not_lt]
    at accepted
  obtain ⟨path, checked, -, pattern, -, size, -, -, rfl⟩ := accepted
  exact ⟨checked, by simpa using pattern, rfl, rfl, size.1, size.2⟩

/-- One round of the loop of `validateMCPUploadFiles`. -/
def validateMCPUploadFile (file : MCPIndexUploadFile) : Except String ManifestFile := do
  let path ← validateIndexSourcePath file.path
  refuse (sha256Pattern (trimSpace file.hash) = false)
    ("upload file hash must be SHA-256: " ++ path)
  refuse (file.content = "" ∨ '\x00' ∈ file.content.toList)
    ("upload file must contain non-empty UTF-8 text without NUL bytes: " ++ path)
  return { path, hash := toLower (trimSpace file.hash), size := 0, estimatedChunks := 0
           content := file.content }

def validateMCPUploadFiles (files : List MCPIndexUploadFile) :
    Except String (List ManifestFile) := do
  let result ← files.mapM validateMCPUploadFile
  let _ ← validateIndexBatchSize result
  return result

def rootIDError : String := "root_id must match ^[A-Za-z0-9][A-Za-z0-9._:@-]\x7b0,127\x7d$"

/-- The `start` case, up to the call of `createIndexJob`. `checkIndexClientVersion`
compares with a minimum that an administrator sets. -/
def startRequest (checkIndexClientVersion : String → Except String Unit)
    (args : MCPIndexStartArgs) : Except String StartRequest := do
  let rootID := normalizeIndexRootID args.rootID
  refuse (indexRootIDPattern rootID = false) rootIDError
  -- an old client is refused before its manifest is looked at
  checkIndexClientVersion args.clientVersion
  let files ← validateMCPManifestFiles args.files
  let unreadable ← args.unreadableFiles.mapM validateIndexSourcePath
  let workspaceName :=
    if trimSpace args.workspaceName = "" then rootID else trimSpace args.workspaceName
  refuse (256 < workspaceName.utf8ByteSize ∨ 512 < args.branch.utf8ByteSize ∨
      512 < args.revision.utf8ByteSize)
    "workspace_name, branch, or revision exceeds its size limit"
  return { workspaceID := rootID, workspaceName, rootID, branch := trimSpace args.branch
           revision := trimSpace args.revision, files, unreadableFiles := unreadable }

/-- The `upload` case, up to the call of `uploadIndexBatch`. -/
def uploadRequest (args : MCPIndexUploadArgs) : Except String UploadRequest := do
  let files ← validateMCPUploadFiles args.files
  let jobID := trimSpace args.jobID
  let rootID := normalizeIndexRootID args.rootID
  refuse (uuidValidate jobID = false) "job_id must be a UUID"
  refuse (indexRootIDPattern rootID = false) rootIDError
  return { jobID, rootID, files }

example : validateIndexSourcePath " src\\lib\\../main.go " =
    .error "index path must not escape the repository:  src\\lib\\../main.go " := by decide

example : validateIndexSourcePath "./src//main.go" = .ok "src/main.go" := by decide

example : isCloudIndexPathExcluded "web/Dist/app.min.js" = true := by decide

end AcemcpRelay
