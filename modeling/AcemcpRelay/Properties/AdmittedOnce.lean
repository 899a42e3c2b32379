import AcemcpRelay.Admission

/-!
# One admission for each request

A `POST /mcp` that gets past authentication, the version gate and the ban has exactly one
admission check, whatever its body. The middleware runs it and takes the flag back, so that
none of the ways through the handler runs another. The rate of Swift requests is asked only if
the body is a call that `handleMCPToolsCall` takes to `codebase_swift_sync`: both decode the
same bytes and both check the arguments.
-/
namespace AcemcpRelay

open Store

/-! ### What an admission check leaves -/

/-- One check against the budget has run; the body that was read is as it was. -/
structure Checked (budget : Budget) (before after : GinContext) : Prop where
  checks : after.checks = before.checks ++ [budget]
  deferred : after.deferred = before.deferred
  cached : after.cached = before.cached

variable {env : Surroundings} {identity : AuthIdentity} {c : GinContext}

theorem admitDailyRequestQuota_checked :
    Checked .daily c (admitDailyRequestQuota env identity c).2 := by
  unfold admitDailyRequestQuota
  split
  · exact ⟨rfl, rfl, rfl⟩
  · dsimp only
    split
    · exact ⟨rfl, rfl, rfl⟩
    · split <;> exact ⟨rfl, rfl, rfl⟩

theorem admitSwiftRequest_checked : Checked .swift c (admitSwiftRequest env identity c).2 := by
  unfold admitSwiftRequest
  dsimp only
  split
  · exact ⟨rfl, rfl, rfl⟩
  · split
    · exact ⟨rfl, rfl, rfl⟩
    · split <;> exact ⟨rfl, rfl, rfl⟩

/-- The budget of a request. -/
def budgetOf (env : Surroundings) (rpc : JSONRPCRequest) : Budget :=
  if isSwiftSynchronizationRequest env.decodeParams rpc then .swift else .daily

/-- A request that is still to be admitted has one check, and is then no longer. -/
theorem admitDeferredMCPQuota_due (rpc : JSONRPCRequest) (due : c.deferred = true) :
    Checked (budgetOf env rpc) { c with deferred := false }
      (admitDeferredMCPQuota env identity rpc c).2 := by
  unfold admitDeferredMCPQuota budgetOf
  have still : ¬ c.deferred = false := by simp [due]
  rw [if_neg still]
  cases isSwiftSynchronizationRequest env.decodeParams rpc
  · exact admitDailyRequestQuota_checked
  · exact admitSwiftRequest_checked

theorem admitDeferredMCPQuota_done (rpc : JSONRPCRequest) (done : c.deferred = false) :
    admitDeferredMCPQuota env identity rpc c = (true, c) := if_pos done

/-! ### Swift requests -/

/-- What `handleMCPToolsCall` makes of a call of `codebase_swift_sync` with accepted
arguments: it goes to LCE, unless it is an upload for which no bytes are to be had. -/
def swiftCall (env : Surroundings) (identity : AuthIdentity) (args : Arguments) : ToolsCall :=
  let tenantID := requestTenantID identity
  let tenantID := if tenantID = "" then identity.userID else tenantID
  match env.reserveSwiftUpload tenantID args with
  | .error message => .unreserved message
  | .ok () => .forward swiftSyncToolName (args.set "tenant_id" (.text tenantID))

theorem handleMCPToolsCall_swift {params : ToolsCallParams}
    (named : trimSpace params.name = swiftSyncToolName)
    (accepted : validateChatMCPToolArgs swiftSyncToolName params.arguments = .ok ()) :
    handleMCPToolsCall env.rerankConfig env.reserveSwiftUpload identity (some params) =
      swiftCall env identity params.arguments := by
  have allowed : isChatMCPToolAllowed swiftSyncToolName = true := by decide
  have index : swiftSyncToolName ≠ codebaseIndexToolName := by decide
  have status : swiftSyncToolName ≠ codebaseIndexStatusToolName := by decide
  have plain : chatMCPToolUsesRerankConfig swiftSyncToolName = false := by decide
  simp only [handleMCPToolsCall, named, allowed, Bool.true_eq_false, if_false, if_neg index,
    if_neg status, accepted, if_true, forwardTool, plain, Bool.false_eq_true]
  rfl

theorem isSwiftSynchronizationRequest_spec {rpc : JSONRPCRequest}
    (swift : isSwiftSynchronizationRequest env.decodeParams rpc = true) :
    rpc.method = "tools/call" ∧ ∃ params, env.decodeParams rpc.params = some params ∧
      trimSpace params.name = swiftSyncToolName ∧
      validateChatMCPToolArgs swiftSyncToolName params.arguments = .ok () := by
  unfold isSwiftSynchronizationRequest at swift
  split at swift
  · simp at swift
  next method =>
    split at swift
    · simp at swift
    next params decoded =>
      split at swift
      · simp at swift
      next named =>
        split at swift
        · simp at swift
        next accepted =>
          exact ⟨not_not.mp method, params, decoded, not_not.mp named, accepted⟩

/-! ### The way of a request -/

def GinContext.fresh (body : Option (List UInt8)) (counters : Counters)
    (swiftRates : Keys String Int) : GinContext :=
  { unread := body, counters, swiftRates }

/-- The middleware answers before it comes to admission. -/
def ClientRequest.stopped (request : ClientRequest) : Bool :=
  match request.identity with
  | .error _ => true
  | .ok _ => request.versionRejected || request.banned

/-- The body as it is read, with at most one byte more than allowed. -/
def readBody (body : Option (List UInt8)) : Option (List UInt8) :=
  body.map (·.take (maxClientMCPBody + 1))

theorem eq_of_readBody {body : Option (List UInt8)} {bytes : List UInt8}
    (read : readBody body = some bytes) (short : bytes.length ≤ maxClientMCPBody) :
    body = some bytes := by
  obtain ⟨sent, rfl, rfl⟩ := Option.map_eq_some_iff.mp read
  rw [List.length_take] at short
  rw [List.take_of_length_le (by omega)]

section

variable {request : ClientRequest} {sessions : ServerSessions} {body : Option (List UInt8)}

theorem serveMCPPost_stopped (stopped : request.stopped = true) :
    (serveMCPPost env request sessions c).1 = .aborted ∧
      (serveMCPPost env request sessions c).2.checks = c.checks := by
  unfold ClientRequest.stopped at stopped
  unfold serveMCPPost authMiddleware
  cases known : request.identity with
  | error status => exact ⟨rfl, rfl⟩
  | ok identity =>
    rw [known] at stopped
    cases rejected : request.versionRejected with
    | true => exact ⟨rfl, rfl⟩
    | false =>
      have banned : request.banned = true := by simpa [rejected] using stopped
      simp [banned, abort]

/-- After the middleware has admitted the request, the handler runs no check. -/
theorem handleMCPPost_done (env : Surroundings) (identity : AuthIdentity) (sessionID : String)
    (sessions : ServerSessions) (done : c.deferred = false) (read : c.cached = some body) :
    (handleMCPPost env identity sessionID sessions c).2 = c ∧
      ∀ bytes rpc, body = some bytes → bytes.length ≤ maxClientMCPBody →
        env.decode bytes = some rpc →
        (handleMCPPost env identity sessionID sessions c).1 =
          dispatch env identity sessionID sessions rpc := by
  have again : readClientMCPBody c = (body, c) := by rw [readClientMCPBody, read]
  simp only [handleMCPPost, again, admitDeferredMCPQuota_done _ done, if_true]
  constructor
  · split
    · rfl
    · split
      · rfl
      · split <;> rfl
  · rintro bytes rpc rfl short decoded
    simp only [if_neg (Nat.not_lt.mpr short), decoded]

theorem serveMCPPost_eq (env : Surroundings) (sessions : ServerSessions)
    (body : Option (List UInt8)) (counters : Counters) (rates : Keys String Int)
    (post : request.method = "POST" ∧ request.path = "/mcp")
    (known : request.identity = .ok identity) (passes : request.stopped = false) :
    ∃ admitted : Bool × GinContext,
      admitted.2.checks = [budgetOf env (classified env (readBody body))] ∧
      admitted.2.deferred = false ∧ admitted.2.cached = some (readBody body) ∧
      serveMCPPost env request sessions (.fresh body counters rates) =
        if admitted.1 then handleMCPPost env identity request.sessionID sessions admitted.2
        else (.aborted, admitted.2) := by
  have console : isTrustedConsoleRequest env request = false := by
    simp [isTrustedConsoleRequest, post.1, post.2]
  simp only [ClientRequest.stopped, known, Bool.or_eq_false_iff] at passes
  -- the context once the middleware has read the body
  let c := (readClientMCPBody { GinContext.fresh body counters rates with deferred := true }).2
  let admitted := admitDeferredMCPQuota env identity (classified env (readBody body)) c
  have checked : Checked (budgetOf env (classified env (readBody body)))
      { c with deferred := false } admitted.2 := admitDeferredMCPQuota_due _ rfl
  have middleware : authMiddleware env request (.fresh body counters rates) =
      (if admitted.1 then some identity else none, admitted.2) := by
    simp only [authMiddleware, known, passes, console, post, and_self, if_true,
      Bool.false_eq_true, if_false]
    rfl
  refine ⟨admitted, checked.checks, checked.deferred, checked.cached, ?_⟩
  rw [serveMCPPost, middleware]
  cases admitted.1 <;> rfl

end

theorem budgetOf_swift {rpc : JSONRPCRequest} (swift : budgetOf env rpc = .swift) :
    isSwiftSynchronizationRequest env.decodeParams rpc = true := by
  unfold budgetOf at swift
  split at swift
  next is => exact is
  · simp at swift

/-- A body that counts as a Swift request has been decoded as a whole. -/
theorem classified_swift {body : Option (List UInt8)}
    (swift : budgetOf env (classified env (readBody body)) = .swift) :
    ∃ bytes rpc, body = some bytes ∧ bytes.length ≤ maxClientMCPBody ∧
      env.decode bytes = some rpc ∧ budgetOf env rpc = .swift := by
  -- the empty request is no tool call
  have none : budgetOf env {} ≠ .swift := by
    intro empty
    have call := (isSwiftSynchronizationRequest_spec (budgetOf_swift empty)).1
    exact absurd call (by decide)
  unfold classified at swift
  split at swift
  · exact absurd swift none
  next bytes read =>
    split at swift
    next short =>
      cases decoded : env.decode bytes with
      | none =>
        rw [decoded] at swift
        exact absurd swift none
      | some rpc =>
        rw [decoded] at swift
        exact ⟨bytes, rpc, eq_of_readBody read short, short, decoded, swift⟩
    · exact absurd swift none

theorem dispatch_swift {rpc : JSONRPCRequest} {params : ToolsCallParams} {sessionID : String}
    {sessions : ServerSessions} (call : rpc.method = "tools/call")
    (decoded : env.decodeParams rpc.params = some params)
    (named : trimSpace params.name = swiftSyncToolName)
    (accepted : validateChatMCPToolArgs swiftSyncToolName params.arguments = .ok ())
    (given : sessionID ≠ "")
    (valid : (sessions.touchMCPSession sessionID identity.userID env.now).1 = true) :
    dispatch env identity sessionID sessions rpc =
      .toolsCall (swiftCall env identity params.arguments) := by
  have others : ∀ method ∈ ["initialize", "notifications/initialized", "tools/list"],
      rpc.method ≠ method := by
    rw [call]
    decide
  simp only [List.mem_cons, List.not_mem_nil, or_false, forall_eq_or_imp, forall_eq] at others
  obtain ⟨created, notified, list⟩ := others
  rw [dispatch, if_neg created, if_neg given, if_neg (by simp [valid]), if_neg notified,
    if_neg list, if_pos call, decoded, handleMCPToolsCall_swift named accepted]

theorem session_of_toolsCall {rpc : JSONRPCRequest} {sessionID : String}
    {sessions : ServerSessions} {call : ToolsCall}
    (called : dispatch env identity sessionID sessions rpc = .toolsCall call) :
    sessionID ≠ "" ∧ (sessions.touchMCPSession sessionID identity.userID env.now).1 = true := by
  unfold dispatch at called
  by_cases created : rpc.method = "initialize"
  · rw [if_pos created] at called
    split at called <;> simp at called
  · rw [if_neg created] at called
    split at called
    · simp at called
    next given =>
      split at called
      · simp at called
      next valid => exact ⟨given, by simpa using valid⟩

/-- A request that comes to admission: its check, and what comes of it after. -/
theorem serveMCPPost_admitted (env : Surroundings) {request : ClientRequest} (sessions : ServerSessions)
    (body : Option (List UInt8)) (counters : Counters) (rates : Keys String Int)
    (post : request.method = "POST" ∧ request.path = "/mcp")
    (known : request.identity = .ok identity) (passes : request.stopped = false) :
    (serveMCPPost env request sessions (.fresh body counters rates)).2.checks =
        [budgetOf env (classified env (readBody body))] ∧
      ∀ bytes rpc, body = some bytes → bytes.length ≤ maxClientMCPBody →
        env.decode bytes = some rpc →
        (serveMCPPost env request sessions (.fresh body counters rates)).1 = .aborted ∨
        (serveMCPPost env request sessions (.fresh body counters rates)).1 =
          dispatch env identity request.sessionID sessions rpc := by
  obtain ⟨⟨goesOn, c⟩, checks, deferred, cached, served⟩ :=
    serveMCPPost_eq env sessions body counters rates post known passes
  rw [served]
  cases goesOn with
  | false => exact ⟨checks, fun _ _ _ _ _ => .inl rfl⟩
  | true =>
    obtain ⟨same, outcome⟩ :=
      handleMCPPost_done env identity request.sessionID sessions deferred cached
    refine ⟨(congrArg GinContext.checks same).trans checks, ?_⟩
    rintro bytes rpc rfl short decoded
    refine .inr (outcome bytes rpc ?_ short decoded)
    rw [readBody, Option.map_some, List.take_of_length_le (by omega)]

/-- One check for each `POST /mcp` that comes to admission, and none for one that does not.
If the check is against the rate of Swift requests, then the body is a call that, in a valid
session, `handleMCPToolsCall` takes to `codebase_swift_sync`, with arguments it accepts; any
other tool call has been checked against the daily quota. -/
theorem mcp_posts_admitted_once (env : Surroundings) (request : ClientRequest)
    (post : request.method = "POST" ∧ request.path = "/mcp") (sessions : ServerSessions)
    (body : Option (List UInt8)) (counters : Counters) (rates : Keys String Int) :
    let served := serveMCPPost env request sessions (.fresh body counters rates)
    (request.stopped = true → served.1 = .aborted ∧ served.2.checks = []) ∧
    (request.stopped = false → ∃ budget, served.2.checks = [budget]) ∧
    (.swift ∈ served.2.checks → ∃ identity bytes rpc params,
      request.identity = .ok identity ∧ body = some bytes ∧ env.decode bytes = some rpc ∧
      env.decodeParams rpc.params = some params ∧
      trimSpace params.name = swiftSyncToolName ∧
      validateChatMCPToolArgs swiftSyncToolName params.arguments = .ok () ∧
      (served.1 = .aborted ∨ served.1 = dispatch env identity request.sessionID sessions rpc) ∧
      (request.sessionID ≠ "" →
        (sessions.touchMCPSession request.sessionID identity.userID env.now).1 = true →
        dispatch env identity request.sessionID sessions rpc =
          .toolsCall (swiftCall env identity params.arguments))) ∧
    ∀ call, served.1 = .toolsCall call →
      (∀ identity args, call ≠ swiftCall env identity args) → served.2.checks = [.daily] := by
  intro served
  cases stopped : request.stopped with
  | true =>
    obtain ⟨aborted, unchecked⟩ : served.1 = .aborted ∧ served.2.checks = [] :=
      serveMCPPost_stopped stopped
    refine ⟨fun _ => ⟨aborted, unchecked⟩, nofun, ?_, ?_⟩
    · intro swift
      rw [unchecked] at swift
      exact absurd swift List.not_mem_nil
    · intro call isCall
      rw [aborted] at isCall
      exact absurd isCall (by simp)
  | false =>
    obtain ⟨identity, known⟩ : ∃ identity, request.identity = .ok identity := by
      unfold ClientRequest.stopped at stopped
      split at stopped
      · simp at stopped
      next identity known => exact ⟨identity, known⟩
    obtain ⟨checks, outcome⟩ :=
      serveMCPPost_admitted env sessions body counters rates post known stopped
    have swiftBody : budgetOf env (classified env (readBody body)) = .swift →
        ∃ bytes rpc params, body = some bytes ∧ env.decode bytes = some rpc ∧
          env.decodeParams rpc.params = some params ∧
          trimSpace params.name = swiftSyncToolName ∧
          validateChatMCPToolArgs swiftSyncToolName params.arguments = .ok () ∧
          (served.1 = .aborted ∨
            served.1 = dispatch env identity request.sessionID sessions rpc) ∧
          rpc.method = "tools/call" := by
      intro swift
      obtain ⟨bytes, rpc, sent, short, decoded, swift⟩ := classified_swift swift
      obtain ⟨call, params, read, named, accepted⟩ :=
        isSwiftSynchronizationRequest_spec (budgetOf_swift swift)
      exact ⟨bytes, rpc, params, sent, decoded, read, named, accepted,
        outcome bytes rpc sent short decoded, call⟩
    refine ⟨nofun, fun _ => ⟨_, checks⟩, ?_, ?_⟩
    · intro swift
      rw [checks, List.mem_singleton] at swift
      obtain ⟨bytes, rpc, params, sent, decoded, read, named, accepted, served, call⟩ :=
        swiftBody swift.symm
      exact ⟨identity, bytes, rpc, params, known, sent, decoded, read, named, accepted, served,
        dispatch_swift call read named accepted⟩
    · intro call isCall other
      rw [checks]
      cases budget : budgetOf env (classified env (readBody body)) with
      | daily => rfl
      | swift =>
        obtain ⟨bytes, rpc, params, -, -, read, named, accepted, served | served, method⟩ :=
          swiftBody budget
        · rw [served] at isCall
          exact absurd isCall (by simp)
        · rw [served] at isCall
          obtain ⟨given, valid⟩ := session_of_toolsCall isCall
          rw [dispatch_swift method read named accepted given valid] at isCall
          exact absurd (PostOutcome.toolsCall.inj isCall).symm (other identity params.arguments)

/-! ### Two requests -/

/-- The tools call that one byte stands for: a status of the Swift snapshot or a search. -/
def oneByteCall : List UInt8 → Option ToolsCallParams
  | [0] => some ⟨swiftSyncToolName, ⟨[("operation", .text "status"), ("root_id", .text "root")],
      by decide⟩⟩
  | [1] => some ⟨"codebase-retrieval", ⟨[("information_request", .text "main")], by decide⟩⟩
  | _ => none

def oneByteCalls : Surroundings where
  config := ⟨10, 10, 0, 0, 0⟩
  now := 0
  answers := {}
  sendings := [.heard]
  redisClient := true
  trustedConsoleToken := ""
  decode bytes := some ⟨"tools/call", bytes⟩
  decodeParams := oneByteCall
  rerankConfig _ := .ok none
  reserveSwiftUpload _ _ := .ok ()

def postInSession : ClientRequest where
  method := "POST"
  path := "/mcp"
  identity := .ok ⟨"us", "free", "", ""⟩
  versionRejected := false
  banned := false
  consoleToken := ""
  sessionID := "s"

/-- The session of `postInSession`. -/
def openSession : ServerSessions := ⟨[⟨"s", "us", 0⟩], by decide⟩

theorem mcp_posts_admitted_once_calls :
    let served := fun byte => serveMCPPost oneByteCalls postInSession openSession
      (.fresh (some [byte]) .none .none)
    (served 0).2.checks = [.swift] ∧ (served 1).2.checks = [.daily] ∧
      (∃ budget, (served 0).2.checks = [budget]) ∧
      ∃ params, oneByteCall [0] = some params ∧
        dispatch oneByteCalls ⟨"us", "free", "", ""⟩ "s" openSession ⟨"tools/call", [0]⟩ =
          .toolsCall (swiftCall oneByteCalls ⟨"us", "free", "", ""⟩ params.arguments) := by
  intro served
  have swift : (served 0).2.checks = [.swift] := by decide +kernel
  obtain ⟨-, single, called, -⟩ := mcp_posts_admitted_once oneByteCalls postInSession (by decide)
    openSession (some [0]) .none .none
  refine ⟨swift, by decide +kernel, single (by decide), ?_⟩
  obtain ⟨identity, bytes, rpc, params, known, sent, decoded, read, -, -, -, forwarded⟩ :=
    called (by rw [swift]; exact List.mem_singleton.mpr rfl)
  cases known
  cases sent
  cases decoded
  exact ⟨params, read, forwarded (by decide) (by decide +kernel)⟩

end AcemcpRelay
