import AcemcpRelay.Authentication
import AcemcpRelay.Calls

/-!
# Tool calls

`handleMCPToolsCall` and the client of LCE. A tool of LCE is passed on if a policy names it,
with the arguments that the policy names; `codebase_index` is the relay's own and makes
calls of its own. Each call to LCE carries the tenant in its arguments and, if there is a
secret, an assertion signed for that tenant.
-/
namespace AcemcpRelay

open Store String

/-! ### Arguments -/

/-- A value in the arguments of a tool, as far as the relay looks at it. -/
inductive ArgumentValue where
  | null
  | text (value : String)
  /-- A number, a truth value, an array or an object, as it is encoded. -/
  | other (encoded : List Char)
  deriving DecidableEq, Repr

def ArgumentValue.encode : ArgumentValue → List Char
  | .null => "null".toList
  | .text value => Wire.string value
  | .other encoded => encoded

/-- A `map[string]interface{}`. -/
abbrev Arguments := Table (Prod.fst : String × ArgumentValue → String)

namespace Arguments

/-- `args[field]`. -/
def get (args : Arguments) (field : String) : Option ArgumentValue := (args.lookup field).map (·.2)

/-- `args[field] = value`. -/
def set (args : Arguments) (field : String) (value : ArgumentValue) : Arguments :=
  args.put (field, value)

/-- The value under the field if it is there and not null. -/
def given (args : Arguments) (field : String) : Option ArgumentValue :=
  (args.get field).filter (· != .null)

/-- `args[field].(string)`, empty if it is no string. -/
def text (args : Arguments) (field : String) : String :=
  match args.get field with
  | some (.text value) => value
  | _ => ""

def fields (args : Arguments) : List String := args.rows.map (·.1)

def encoded (args : Arguments) : List (String × List Char) :=
  args.rows.map fun entry => (entry.1, entry.2.encode)

variable {args : Arguments} {field other : String} {value : ArgumentValue}

theorem get_eq_some : args.get field = some value ↔ (field, value) ∈ args := by
  simp only [get, Option.map_eq_some_iff, Table.lookup_eq_some]
  constructor
  · rintro ⟨⟨_, _⟩, ⟨member, rfl⟩, rfl⟩
    exact member
  · exact fun member => ⟨(field, value), ⟨member, rfl⟩, rfl⟩

theorem mem_set {entry : String × ArgumentValue} :
    entry ∈ args.set field value ↔ entry = (field, value) ∨ entry ∈ args ∧ entry.1 ≠ field :=
  Table.mem_put

theorem get_set_self : (args.set field value).get field = some value :=
  get_eq_some.mpr (mem_set.mpr (.inl rfl))

theorem get_set_of_ne (different : other ≠ field) :
    (args.set field value).get other = args.get other := by
  refine Option.ext fun found => ?_
  rw [get_eq_some, get_eq_some, mem_set]
  constructor
  · rintro (same | ⟨member, -⟩)
    · cases same
      exact absurd rfl different
    · exact member
  · exact fun member => .inr ⟨member, different⟩

theorem text_eq (found : args.get field = some (.text other)) : args.text field = other := by
  rw [text, found]

end Arguments

/-! ### Policies -/

/-- What a client may call, and with which arguments. -/
structure ChatMCPToolPolicy where
  tool : String
  arguments : List String
  required : List String
  deriving DecidableEq, Repr

def swiftSyncToolName : String := "codebase_swift_sync"

def codebaseIndexToolName : String := "codebase_index"

def codebaseIndexStatusToolName : String := "codebase_index_status"

def chatMCPToolPolicies : List ChatMCPToolPolicy :=
  [⟨"codebase-retrieval", ["information_request", "technical_terms", "response_format", "root_id"],
      ["information_request"]⟩,
    ⟨"codebase_symbol_graph", ["root_id", "symbol", "query_type", "depth", "limit", "under",
      "include_snippets", "response_format"], ["root_id", "symbol"]⟩,
    ⟨"codebase_deep_graph", ["root_id", "symbol", "target_symbol", "query_type", "direction",
      "depth", "limit", "max_nodes", "max_edges", "max_paths", "relationship_types",
      "required_revision", "allow_stale", "include_evidence", "response_format"],
      ["root_id", "symbol"]⟩,
    ⟨"codebase_graph_algorithm", ["operation", "root_id", "job_id", "algorithm", "parameters",
      "result_ttl_seconds", "response_format"], []⟩,
    ⟨swiftSyncToolName, ["operation", "root_id", "epoch_id", "revision", "path", "paths", "job_id",
      "snapshot_hash", "byte_count", "part_count", "part", "data", "response_format"],
      ["operation", "root_id"]⟩,
    ⟨"codebase_enhance_prompt", ["prompt", "technical_terms", "root_id", "output_language",
      "response_format"], ["prompt"]⟩]

/-- `chatMCPToolPolicies[tool]`. -/
def chatMCPToolPolicy (tool : String) : Option ChatMCPToolPolicy :=
  chatMCPToolPolicies.find? (·.tool == tool)

def isChatMCPToolAllowed (name : String) : Bool :=
  let name := trimSpace name
  name == codebaseIndexToolName || name == codebaseIndexStatusToolName ||
    (chatMCPToolPolicy name).isSome

def chatMCPToolUsesRerankConfig (name : String) : Bool :=
  name == "codebase-retrieval" || name == "codebase_enhance_prompt"

/-- `sort.Strings`. -/
def sortStrings (texts : List String) : List String :=
  texts.insertionSort fun a b => a.toList ≤ b.toList

/-- One round of the loop over the required arguments. -/
def checkRequired (args : Arguments) (field : String) : Except String Unit :=
  match args.given field with
  | none => .error ("missing required argument: " ++ field)
  | some (.text value) =>
    refuse (trimSpace value = "") ("required argument must not be blank: " ++ field)
  | some _ => .ok ()

def checkRootID (args : Arguments) : Except String Unit :=
  match args.given "root_id" with
  | none => .ok ()
  | some (.text value) => do
    refuse (trimSpace value = "") "root_id must not be blank"
    refuse (maxIndexRootIDLen < value.utf8ByteSize) "root_id exceeds 128 bytes"
  | some _ => .error "root_id must be a string"

def requireNonBlankString (args : Arguments) (field : String) : Except String Unit :=
  match args.given field with
  | none => .error ("missing required argument: " ++ field)
  | some (.text value) =>
    refuse (trimSpace value = "") ("required argument must be a non-blank string: " ++ field)
  | some _ => .error ("required argument must be a non-blank string: " ++ field)

/-- The operation of `codebase_graph_algorithm`, `submit` unless another is given. -/
def graphAlgorithmOperation (args : Arguments) : Except String String :=
  match args.given "operation" with
  | none => .ok "submit"
  | some (.text value) => do
    refuse (trimSpace value = "") "operation must be a non-blank string"
    return trimSpace value
  | some _ => .error "operation must be a non-blank string"

def checkGraphAlgorithm (args : Arguments) : Except String Unit := do
  let operation ← graphAlgorithmOperation args
  if operation = "submit" then do
    requireNonBlankString args "root_id"
    requireNonBlankString args "algorithm"
  else if operation = "status" then requireNonBlankString args "job_id"
  else .error ("unsupported graph algorithm operation: " ++ operation)

def validateChatMCPToolArgs (toolName : String) (args : Arguments) : Except String Unit :=
  match chatMCPToolPolicy toolName with
  | none => .error "tool is not available"
  | some policy => do
    let unsupported := args.fields.filter fun field => !policy.arguments.contains field
    refuse (unsupported ≠ []) ("unsupported arguments for " ++ toolName ++ ": " ++
      ", ".intercalate (sortStrings unsupported))
    (sortStrings policy.required).forM (checkRequired args)
    checkRootID args
    if toolName = "codebase_graph_algorithm" then checkGraphAlgorithm args

/-- One round of the loop of `validateCodebaseIndexStatusArgs`. The key is printed with
`%q`, which also escapes what is not printable. -/
def checkIndexStatusArg (entry : String × ArgumentValue) : Except String Unit :=
  if entry.1 = "root_id" then
    match entry.2 with
    | .null => .ok ()
    | .text value =>
      refuse (trimSpace value = "") "root_id must be a non-empty string when provided"
    | .other _ => .error "root_id must be a non-empty string when provided"
  else .error ("unknown argument \"" ++ entry.1 ++ "\" for " ++ codebaseIndexStatusToolName)

def validateCodebaseIndexStatusArgs (args : Arguments) : Except String Unit :=
  args.rows.forM checkIndexStatusArg

/-! ### `tools/call` -/

structure ToolsCallParams where
  name : String
  arguments : Arguments

/-- What comes of the parameters of a `tools/call`. -/
inductive ToolsCall where
  | refused (code : Int) (message : String)
  /-- A Swift upload for which no bytes could be reserved. -/
  | unreserved (message : String)
  /-- `handleCodebaseIndex`. -/
  | index (tenantID : String) (args : Arguments)
  /-- Answered from the relay's own tables. -/
  | indexStatus (tenantID : String) (args : Arguments)
  /-- `lce.callTool`. -/
  | forward (name : String) (args : Arguments)

def requestTenantID (identity : AuthIdentity) : String :=
  if identity.tenantID ≠ "" then identity.tenantID else identity.userID

section

-- `loadRerankModelConfigArg`, by user, and `reserveSwiftUpload`, by tenant
variable (rerankConfig : String → Except String (Option ArgumentValue))
  (reserveSwiftUpload : String → Arguments → Except String Unit)

/-- The last part of `handleMCPToolsCall`: a tool of LCE, its arguments checked. -/
def forwardTool (identity : AuthIdentity) (tenantID name : String) (args : Arguments) : ToolsCall :=
  let args := args.set "tenant_id" (.text tenantID)
  if chatMCPToolUsesRerankConfig name then
    match rerankConfig identity.userID with
    | .error message => .refused (-32000) message
    | .ok (some config) => .forward name (args.set "model_config" config)
    | .ok none => .forward name args
  else .forward name args

/-- `handleMCPToolsCall`; there are no parameters if they do not decode. -/
def handleMCPToolsCall (identity : AuthIdentity) (params : Option ToolsCallParams) : ToolsCall :=
  let tenantID := requestTenantID identity
  let tenantID := if tenantID = "" then identity.userID else tenantID
  match params with
  | none => .refused (-32602) "Invalid params"
  | some params =>
    let name := trimSpace params.name
    if isChatMCPToolAllowed name = false then
      .refused (-32601) ("Tool not available through chat MCP: " ++ name)
    else if name = codebaseIndexToolName then .index tenantID params.arguments
    else if name = codebaseIndexStatusToolName then
      match validateCodebaseIndexStatusArgs params.arguments with
      | .error message => .refused (-32602) message
      | .ok () => .indexStatus tenantID params.arguments
    else
      match validateChatMCPToolArgs name params.arguments with
      | .error message => .refused (-32602) message
      | .ok () =>
        match if name = swiftSyncToolName then reserveSwiftUpload tenantID params.arguments
          else .ok () with
        | .error message => .unreserved message
        | .ok () => forwardTool rerankConfig identity tenantID name params.arguments

end

/-! ### `codebase_index` -/

structure MCPIndexJobArgs where
  operation : String
  jobID : String
  deriving DecidableEq, Repr

structure MCPIndexFailArgs where
  jobID : String
  report : FailureReport
  deriving DecidableEq, Repr

/-- `decodeStrictIndexArgs` for each kind of arguments: an unknown field is an error. -/
structure IndexDecoder where
  start : Arguments → Except String MCPIndexStartArgs
  upload : Arguments → Except String MCPIndexUploadArgs
  job : Arguments → Except String MCPIndexJobArgs
  fail : Arguments → Except String MCPIndexFailArgs

/-- The part of the index code that `handleCodebaseIndex` calls. -/
inductive IndexCall where
  /-- An operation that takes a lease. -/
  | operation (operation : Operation)
  | status (jobID : String)
  | heartbeat (jobID : String)

def requireIndexArgument (raw : Arguments) (field : String) : Except String Unit :=
  refuse (raw.given field = none) ("missing required argument: " ++ field)

def checkJobID (jobID : String) : Except String Unit :=
  refuse (uuidValidate (trimSpace jobID) = false) "job_id must be a UUID"

def handleCodebaseIndex (decode : IndexDecoder)
    (checkIndexClientVersion : String → Except String Unit) (raw : Arguments) :
    Except String IndexCall :=
  let operation := trimSpace (raw.text "operation")
  if operation = "start" then do
    requireIndexArgument raw "files"
    let input ← decode.start raw
    let req ← startRequest checkIndexClientVersion input
    return .operation (.start req)
  else if operation = "upload" then do
    requireIndexArgument raw "files"
    let input ← decode.upload raw
    let req ← uploadRequest input
    return .operation (.upload req)
  else if operation = "status" ∨ operation = "heartbeat" then do
    let input ← decode.job raw
    checkJobID input.jobID
    -- the operation is compared as it was sent, with its blanks
    return if input.operation = "heartbeat" then .heartbeat input.jobID else .status input.jobID
  else if operation = "complete" then do
    let input ← decode.job raw
    checkJobID input.jobID
    return .operation (.complete (trimSpace input.jobID))
  else if operation = "fail" then do
    let input ← decode.fail raw
    requireIndexArgument raw "error"
    checkJobID input.jobID
    let _ ← resolveReportedIndexFailureDiagnostic .failed input.report.error
      input.report.errorCode input.report.errorOrigin input.report.recovery
    return .operation (.fail (trimSpace input.jobID) input.report)
  else .error "operation must be one of: start, upload, status, heartbeat, complete, fail"

/-! ### Index-control calls -/

/-- A tool of LCE and its arguments. -/
structure ToolCall where
  name : String
  args : Arguments

/-- `lceIndexJobArgs`, before the values are encoded. -/
def lceIndexJobArguments (userID jobID rootID operation : String) : Arguments :=
  ⟨[("tenant_id", .text userID), ("job_id", .text jobID), ("operation", .text operation),
    ("root_id", .text rootID), ("response_format", .text "json")], by simp⟩

def lceBeginIndexJobArguments (userID jobID rootID : String) (replaceRoot : Bool) : Arguments :=
  let args := lceIndexJobArguments userID jobID rootID "begin"
  if replaceRoot then args.set "replace_root" (.other "true".toList) else args

/-- The arguments of `stage` in `uploadIndexBatch`. -/
def stageArguments (userID jobID rootID : String) (staged : List ManifestFile)
    (deleted : List String) : Arguments :=
  let args := (lceIndexJobArguments userID jobID rootID "stage").set "files"
    (.other (Wire.array (staged.map fun file =>
      Wire.object [("path", Wire.string file.path), ("content", Wire.string file.content)])))
  if deleted = [] then args
  else args.set "deleted_files" (.other (Wire.array (deleted.map Wire.string)))

/-- A call of `codebase_remote_index` that only names a job. -/
def remoteIndexCall (userID jobID rootID operation : String) : ToolCall :=
  ⟨"codebase_remote_index", lceIndexJobArguments userID jobID rootID operation⟩

/-- `lceClearIndexRoot`. -/
def clearRootCall (userID rootID : String) : ToolCall :=
  ⟨"codebase_clear_index",
    ⟨[("tenant_id", .text userID), ("root_id", .text (lceIndexRootID rootID))], by simp⟩⟩

/-- The call that is made at a point. Where the point names only a job, `rootID` is the
root in the row of the job. -/
def Point.toolCall (tenant rootID : String) : Point → Option ToolCall
  | .clearOldRoot _ _ old => some (clearRootCall tenant old)
  | .begin job _ => some ⟨"codebase_remote_index",
    lceBeginIndexJobArguments tenant job.id job.rootID (job.mode == .full)⟩
  | .abortBegin job _ => some (remoteIndexCall tenant job.id job.rootID "abort")
  | .stage root batch => some ⟨"codebase_remote_index",
    stageArguments tenant batch.job.id root batch.staged batch.deleted⟩
  | .publish jobID root => some (remoteIndexCall tenant jobID root "publish")
  -- the reconciler has read the root with the job; the point does not carry it
  | .status jobID _ => some (remoteIndexCall tenant jobID rootID "status")
  | .cancel jobID | .abortFailed jobID => some (remoteIndexCall tenant jobID rootID "abort")
  | .clearCloud => some ⟨"codebase_clear_index", ⟨[("tenant_id", .text tenant)], by simp⟩⟩
  | .dismissCloud root | .deleteCloud root => some (clearRootCall tenant root)
  | .deletionCloud job => some ⟨"codebase_clear_index",
    (clearRootCall tenant job.rootID).args.set "operation_id" (.text job.id)⟩
  | _ => none

namespace Request

def tool : Request → String
  | .clearRoot _ _ | .clearTenant _ => "codebase_clear_index"
  | _ => "codebase_remote_index"

/-- The argument `operation`. -/
def operation : Request → Option String
  | .begin _ _ _ _ => some "begin"
  | .stage _ _ _ => some "stage"
  | .publish _ => some "publish"
  | .status _ => some "status"
  | .abort _ => some "abort"
  | .clearRoot _ _ | .clearTenant _ => none

def jobID : Request → Option String
  | .begin _ jobID _ _ | .stage jobID _ _ | .publish jobID | .status jobID | .abort jobID =>
    some jobID
  | .clearRoot _ _ | .clearTenant _ => none

end Request

section

variable (sha256 : String → String) (tenant : String)

/-- A call goes on from one point to another, whatever it finds and whatever is answered. -/
inductive Point.Leads : Point → Point → Prop
  | refl (point : Point) : Leads point point
  | step {first point next : Point} (leads : Leads first point) {answer : Answer} {clock : Nat}
      {db : Database} {cloud : Cloud}
      (moves : (point.advance sha256 answer tenant clock db cloud).next = some next) :
      Leads first next

/-- The calls to LCE that a call of the index code may make. -/
inductive IndexCall.Makes : IndexCall → ToolCall → Prop
  | request {operation : Operation} {first point : Point} {rootID : String} {call : ToolCall}
      (enters : operation.enter = .ok first) (leads : first.Leads sha256 tenant point)
      (made : point.toolCall tenant rootID = some call) : Makes (.operation operation) call
  /-- Once a start has expired jobs, it aborts each at LCE. -/
  | reclaim {operation : Operation} {first point : Point} {answer : Answer} {clock : Nat}
      {db : Database} {cloud : Cloud} {jobID rootID : String}
      (enters : operation.enter = .ok first) (leads : first.Leads sha256 tenant point)
      (expired : jobID ∈ (point.advance sha256 answer tenant clock db cloud).aborts) :
      Makes (.operation operation) (remoteIndexCall tenant jobID rootID "abort")
  | renew (jobID rootID : String) :
      Makes (.heartbeat jobID) (remoteIndexCall tenant jobID rootID "renew")

end

/-! ### Tenant assertions -/

def tenantAssertionVersion : String := "v1"

/-- In seconds. -/
def tenantAssertionTTL : Int := 30

def minTenantAssertionSecretLength : Nat := 32

structure TenantAssertionPayload where
  tenant : String
  expiry : Int
  nonce : String
  deriving DecidableEq, Repr

/-- `json.Marshal`, which keeps the order of the fields of a struct. -/
def TenantAssertionPayload.json (payload : TenantAssertionPayload) : String :=
  String.ofList ('\x7b' :: Wire.separated
    [Wire.string "t" ++ ':' :: Wire.string payload.tenant,
      Wire.string "e" ++ ':' :: Wire.number payload.expiry,
      Wire.string "n" ++ ':' :: Wire.string payload.nonce] ++ ['\x7d'])

structure TenantAssertionSigner where
  secret : String
  long : minTenantAssertionSecretLength ≤ secret.utf8ByteSize

/-- There is no signer if the secret is blank. -/
def newTenantAssertionSigner (secret : String) : Except String (Option TenantAssertionSigner) :=
  if trimSpace secret = "" then .ok none
  else if long : minTenantAssertionSecretLength ≤ (trimSpace secret).utf8ByteSize then
    .ok (some ⟨trimSpace secret, long⟩)
  else .error "LCE_TENANT_ASSERTION_SECRET must be at least 32 characters"

/-- `tenantIDFromArgs`. -/
def tenantIDFromArgs (args : Arguments) : String := trimSpace (args.text "tenant_id")

/-- A request of the client of LCE: the tool, its arguments and the `Authorization` header. -/
structure LCECall where
  call : ToolCall
  authorization : Option String

section

-- base64url of a text; base64url of the HMAC-SHA256 of a text under a secret
variable (encode : String → String) (mac : String → String → String)

/-- The text of an assertion. -/
def TenantAssertionSigner.assertion (signer : TenantAssertionSigner)
    (payload : TenantAssertionPayload) : String :=
  let encoded := encode payload.json
  tenantAssertionVersion ++ "." ++ encoded ++ "." ++ mac signer.secret encoded

/-- `sign`; the nonce may fail. -/
def TenantAssertionSigner.sign (signer : TenantAssertionSigner) (tenantID : String) (now : Int)
    (nonce : Except String String) : Except String String :=
  if trimSpace tenantID = "" then .error "tenant assertion requires a non-empty tenant id"
  else do
    let nonce ← nonce
    return signer.assertion encode mac
      { tenant := trimSpace tenantID, expiry := now + tenantAssertionTTL, nonce }

def authorizationHeader (signer : Option TenantAssertionSigner) (tenantID : String) (now : Int)
    (nonce : Except String String) : Except String String :=
  match signer with
  | none => .ok ""
  | some signer => do
    let assertion ← signer.sign encode mac tenantID now nonce
    return "Bearer " ++ assertion

/-- `doCallTool`, up to the request that it sends. A second attempt is another one. -/
def doCallTool (signer : Option TenantAssertionSigner) (id now : Int)
    (nonce : Except String String) (call : ToolCall) : Except String LCECall := do
  let size := utf8Len (marshalMCPToolCallBody id call.name call.args.encoded)
  -- the size is that of the encoded body, escapes included
  refuse (maxLCEMCPRequestBodyBytes < size) ("encoded LCE request exceeds the 4194304 byte limit (" ++
    toString size ++ " bytes)")
  let tenantID := tenantIDFromArgs call.args
  -- a call without a tenant carries no assertion
  if tenantID = "" then return { call, authorization := none }
  else do
    let header ← authorizationHeader encode mac signer tenantID now nonce
    return { call, authorization := if header = "" then none else some header }

end

/-- What the handling of a `tools/call` depends on besides the request and the tables. -/
structure RelayEnvironment where
  sha256 : String → String
  encode : String → String
  mac : String → String → String
  signer : Option TenantAssertionSigner
  decode : IndexDecoder
  checkIndexClientVersion : String → Except String Unit
  rerankConfig : String → Except String (Option ArgumentValue)
  reserveSwiftUpload : String → Arguments → Except String Unit

/-- The calls to LCE that are sent while a `tools/call` is handled. -/
inductive Sends (env : RelayEnvironment) (identity : AuthIdentity) (params : Option ToolsCallParams) :
    LCECall → Prop
  | forward {name : String} {args : Arguments} {id now : Int} {nonce : Except String String}
      {sent : LCECall}
      (handled : handleMCPToolsCall env.rerankConfig env.reserveSwiftUpload identity params =
        .forward name args)
      (sends : doCallTool env.encode env.mac env.signer id now nonce ⟨name, args⟩ = .ok sent) :
      Sends env identity params sent
  | index {tenantID : String} {raw : Arguments} {indexCall : IndexCall} {call : ToolCall}
      {id now : Int} {nonce : Except String String} {sent : LCECall}
      (handled : handleMCPToolsCall env.rerankConfig env.reserveSwiftUpload identity params =
        .index tenantID raw)
      (decoded : handleCodebaseIndex env.decode env.checkIndexClientVersion raw = .ok indexCall)
      (made : indexCall.Makes env.sha256 tenantID call)
      (sends : doCallTool env.encode env.mac env.signer id now nonce call = .ok sent) :
      Sends env identity params sent

end AcemcpRelay
