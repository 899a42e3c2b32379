import AcemcpRelay.Quota
import AcemcpRelay.Sessions
import AcemcpRelay.ToolCalls

/-!
# Admission of a request to `/mcp`

`authMiddleware` and `handleMCPPost`. The budget of a `POST /mcp` depends on its body, which
the middleware therefore reads and keeps for the handler. The context of the request says with
a flag whether the request is still to be admitted; the handler looks at it on each of its ways
out. `checks` is a record of the checks that ran.
-/
namespace AcemcpRelay

open Store

/-- `jsonRPCRequest`, as far as it is looked at. -/
structure JSONRPCRequest where
  method : String := ""
  params : List UInt8 := []
  deriving DecidableEq, Repr

/-- What a request is admitted against: the daily quota, or the rate of Swift requests. -/
inductive Budget where
  | daily
  | swift
  deriving DecidableEq, Repr

/-- `32 << 20`. -/
def maxClientMCPBody : Nat := 33554432

def swiftSyncRequestsPerMinute : Int := 600

/-- What a request meets on its way. -/
structure Surroundings where
  config : QuotaConfig
  now : Nat
  answers : QuotaAnswers
  /-- What becomes of the request to Redis, each time that it is sent. -/
  sendings : List Sending
  /-- Redis is configured. -/
  redisClient : Bool
  trustedConsoleToken : String
  /-- `json.Unmarshal` of a body, and of the parameters of a tool call. -/
  decode : List UInt8 → Option JSONRPCRequest
  decodeParams : List UInt8 → Option ToolsCallParams
  rerankConfig : String → Except String (Option ArgumentValue)
  reserveSwiftUpload : String → Arguments → Except String Unit

/-- A request, with what the first part of `authMiddleware` finds out about it. -/
structure ClientRequest where
  method : String
  path : String
  /-- `authenticateRequest`, or the status that it is answered with. -/
  identity : Except Nat AuthIdentity
  /-- `reject_426`. -/
  versionRejected : Bool
  banned : Bool
  consoleToken : String
  sessionID : String

/-- `gin.Context`. -/
structure GinContext where
  /-- `request_quota_deferred`. -/
  deferred : Bool := false
  /-- `client_mcp_body`; nothing in it if the body could not be read. -/
  cached : Option (Option (List UInt8)) := none
  /-- What is left of the body; nothing if reading it fails. -/
  unread : Option (List UInt8)
  /-- The status of `AbortWithStatusJSON`. -/
  aborted : Option Nat := none
  checks : List Budget := []
  counters : Counters
  swiftRates : Keys String Int

def readClientMCPBody (c : GinContext) : Option (List UInt8) × GinContext :=
  match c.cached with
  | some body => (body, c)
  | none =>
    let body := c.unread.map (·.take (maxClientMCPBody + 1))
    (body, { c with cached := some body, unread := c.unread.map (·.drop (maxClientMCPBody + 1)) })

/-! ### Budgets -/

def abort (status : Nat) (c : GinContext) : Bool × GinContext :=
  (false, { c with aborted := some status })

def admitDailyRequestQuota (env : Surroundings) (identity : AuthIdentity) (c : GinContext) :
    Bool × GinContext :=
  let c := { c with checks := c.checks ++ [.daily] }
  match requestReservation env.config (env.config.day env.now) env.answers identity.userID
      identity.orgID identity.tier with
  | none => abort 503 c
  | some reservation =>
    -- the counters keep what a run has charged, also when the answer is `unavailable`
    let (decision, counters) := reserveRequestQuota env.now reservation env.sendings c.counters
    let c := { c with counters }
    if decision.unavailable then abort 503 c
    else if decision.allowed = false then abort 429 c
    else (true, c)

def isSwiftSynchronizationRequest (decodeParams : List UInt8 → Option ToolsCallParams)
    (rpc : JSONRPCRequest) : Bool :=
  if rpc.method ≠ "tools/call" then false
  else
    match decodeParams rpc.params with
    | none => false
    | some params =>
      if trimSpace params.name ≠ swiftSyncToolName then false
      else
        match validateChatMCPToolArgs swiftSyncToolName params.arguments with
        | .error _ => false
        | .ok () => ["manifest", "plan", "begin", "upload", "publish", "status", "abort"].contains
            (params.arguments.text "operation")

/-- `rateScript`: whether the request is allowed. -/
def swiftRateScript (now : Nat) (key : String) (rates : Keys String Int) :
    Bool × Keys String Int :=
  let used := rates.counter now key
  if swiftSyncRequestsPerMinute ≤ used then (false, rates)
  else
    let counted := rates.incrBy now key 1
    (true, if used = 0 then counted.expire now (60 * 1000) key else counted)

/-- The last part of `admitDeferredMCPQuota`. -/
def admitSwiftRequest (env : Surroundings) (identity : AuthIdentity) (c : GinContext) :
    Bool × GinContext :=
  let c := { c with checks := c.checks ++ [.swift] }
  if env.redisClient = false then abort 503 c
  else
    let (reply, swiftRates) :=
      redisEval (swiftRateScript env.now ("quota:swift-rate:" ++ requestTenantID identity))
        env.sendings c.swiftRates
    let c := { c with swiftRates }
    match reply with
    | none => abort 503 c
    | some allowed => if allowed = false then abort 429 c else (true, c)

def admitDeferredMCPQuota (env : Surroundings) (identity : AuthIdentity) (rpc : JSONRPCRequest)
    (c : GinContext) : Bool × GinContext :=
  if c.deferred = false then (true, c)
  else
    let c := { c with deferred := false }
    if isSwiftSynchronizationRequest env.decodeParams rpc = false then
      admitDailyRequestQuota env identity c
    else admitSwiftRequest env identity c

/-! ### The middleware -/

/-- `isTrustedConsoleRequest`. -/
def isTrustedConsoleRequest (env : Surroundings) (request : ClientRequest) : Bool :=
  let { method, path, .. } := request
  let allowed :=
    (method == "GET" && path == "/mcp/tenant-stats") ||
    (method == "POST" && path == "/mcp/clear-index") ||
    ((method == "GET" || method == "POST") && path == "/internal/client-version-policy") ||
    ((method == "GET" || method == "POST") && path == "/internal/platform-model-config")
  env.trustedConsoleToken != "" && allowed &&
    trimSpace request.consoleToken == env.trustedConsoleToken

/-- What the middleware makes of the body: the empty request unless it can be read and decoded
and is not too long. -/
def classified (env : Surroundings) (body : Option (List UInt8)) : JSONRPCRequest :=
  match body with
  | none => {}
  | some bytes => if bytes.length ≤ maxClientMCPBody then (env.decode bytes).getD {} else {}

/-- `authMiddleware`, up to the request's log: the caller, if the request goes on to its
handler. -/
def authMiddleware (env : Surroundings) (request : ClientRequest) (c : GinContext) :
    Option AuthIdentity × GinContext :=
  match request.identity with
  | .error status => (none, { c with aborted := some status })
  | .ok identity =>
    let next := fun (admitted : Bool × GinContext) =>
      (if admitted.1 then some identity else none, admitted.2)
    if request.versionRejected then next (abort 426 c)
    else if request.banned then next (abort 403 c)
    else if isTrustedConsoleRequest env request then (some identity, c)
    else if request.method = "POST" ∧ request.path = "/mcp" then
      let (body, c) := readClientMCPBody { c with deferred := true }
      next (admitDeferredMCPQuota env identity (classified env body) c)
    else next (admitDailyRequestQuota env identity c)

/-! ### The handler -/

/-- What comes of a `POST /mcp`. -/
inductive PostOutcome where
  /-- The middleware or an admission check has answered. -/
  | aborted
  | rpcError (status : Nat) (code : Int) (message : String)
  | sessionCreated
  | accepted
  | toolsList
  | toolsCall (call : ToolsCall)

/-- `handleMCPPost` after admission. -/
def dispatch (env : Surroundings) (identity : AuthIdentity) (sessionID : String)
    (sessions : ServerSessions) (rpc : JSONRPCRequest) : PostOutcome :=
  if rpc.method = "initialize" then
    if sessionID ≠ "" then
      .rpcError 400 (-32600) "initialize must not include Mcp-Session-Id"
    else .sessionCreated
  else if sessionID = "" then .rpcError 400 (-32000) "Missing Mcp-Session-Id header"
  else if (sessions.touchMCPSession sessionID identity.userID env.now).1 = false then
    .rpcError 404 (-32000) "Invalid or expired session"
  else if rpc.method = "notifications/initialized" then .accepted
  else if rpc.method = "tools/list" then .toolsList
  else if rpc.method = "tools/call" then
    .toolsCall (handleMCPToolsCall env.rerankConfig env.reserveSwiftUpload identity
      (env.decodeParams rpc.params))
  else .rpcError 200 (-32601) ("Method not found: " ++ rpc.method)

def handleMCPPost (env : Surroundings) (identity : AuthIdentity) (sessionID : String)
    (sessions : ServerSessions) (c : GinContext) : PostOutcome × GinContext :=
  let admitted := fun (rpc : JSONRPCRequest) (outcome : PostOutcome) (c : GinContext) =>
    let (goesOn, c) := admitDeferredMCPQuota env identity rpc c
    (if goesOn then outcome else .aborted, c)
  let (body, c) := readClientMCPBody c
  match body with
  | none => admitted {} (.rpcError 400 (-32700) "failed to read request body") c
  | some bytes =>
    if maxClientMCPBody < bytes.length then
      admitted {} (.rpcError 413 (-32600) "MCP request body exceeds 32 MiB") c
    else
      match env.decode bytes with
      | none => admitted {} (.rpcError 400 (-32700) "Parse error") c
      | some rpc => admitted rpc (dispatch env identity sessionID sessions rpc) c

/-- A request on its way through the middleware and the handler. -/
def serveMCPPost (env : Surroundings) (request : ClientRequest) (sessions : ServerSessions)
    (c : GinContext) : PostOutcome × GinContext :=
  match authMiddleware env request c with
  | (none, c) => (.aborted, c)
  | (some identity, c) => handleMCPPost env identity request.sessionID sessions c

end AcemcpRelay
