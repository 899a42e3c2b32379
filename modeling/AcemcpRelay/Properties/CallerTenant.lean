import AcemcpRelay.Properties.Revocation
import AcemcpRelay.ToolCalls

/-!
# The caller cannot choose the tenant

A call to LCE is made either with the arguments that a client sent, or with arguments
that the index code puts together. The first are checked against a policy that lists
neither `tenant_id` nor `model_config`, and then the relay sets both; the second are
the same few fields everywhere. So each call carries the tenant of the identity, and its
assertion is made from what the call carries.
-/
namespace AcemcpRelay

open Store

/-! ### Identities -/

/-- An identity that authentication returns: a key was found for some token, and the
organization, if there is one, was asked later. -/
def Authenticated (md5 sha256 : String → String) (identity : AuthIdentity) : Prop :=
  ∃ token tables stored later now, AuthTables.lookupAPIKey md5 sha256 token tables = some stored ∧
    AuthTables.authorizeOrganizationIdentity now stored later = some identity

section Identity

variable {md5 sha256 : String → String} {identity : AuthIdentity}

theorem lookupAPIKey_trimmed {token : String} {tables : AuthTables}
    (found : tables.lookupAPIKey md5 sha256 token = some identity) :
    identity.userID ≠ "" ∧ trimSpace identity.userID = identity.userID ∧
      trimSpace identity.orgID = identity.orgID := by
  unfold AuthTables.lookupAPIKey at found
  split at found
  · cases found
  · split at found
    · cases found
    next named =>
      cases found
      exact ⟨named, trimSpace_trimSpace _, trimSpace_trimSpace _⟩

theorem Authenticated.tenantID (authenticated : Authenticated md5 sha256 identity) :
    identity.tenantID ≠ "" ∧ trimSpace identity.tenantID = identity.tenantID := by
  obtain ⟨token, tables, stored, later, now, found, authorized⟩ := authenticated
  obtain ⟨named, user, org⟩ := lookupAPIKey_trimmed found
  obtain ⟨sameUser, sameOrg, -⟩ := seatGranted_of_authorize authorized
  rw [← sameUser] at named user
  rw [← sameOrg] at org
  unfold AuthIdentity.tenantID
  split
  next organization => exact ⟨organization, org⟩
  · exact ⟨named, user⟩

end Identity

/-! ### Tools of LCE -/

/-- No policy lists what the relay sets itself. -/
theorem forced_not_listed : ∀ policy ∈ chatMCPToolPolicies,
    "tenant_id" ∉ policy.arguments ∧ "model_config" ∉ policy.arguments := by decide

theorem policy_of_validate {name : String} {args : Arguments}
    (valid : validateChatMCPToolArgs name args = .ok ()) :
    ∃ policy ∈ chatMCPToolPolicies, policy.tool = name ∧
      ∀ entry ∈ args, entry.1 ∈ policy.arguments := by
  unfold validateChatMCPToolArgs at valid
  split at valid
  · cases valid
  next policy found =>
    simp only [bind_ok_iff, refuse_ok_iff] at valid
    obtain ⟨-, supported, -⟩ := valid
    refine ⟨policy, List.mem_of_find?_eq_some found, by simpa using List.find?_some found, ?_⟩
    intro entry member
    by_contra unlisted
    -- otherwise the list of unsupported arguments had it
    have present : entry.1 ∈ args.fields := List.mem_map_of_mem member
    have refused : entry.1 ∈ args.fields.filter fun field => !policy.arguments.contains field :=
      List.mem_filter.mpr ⟨present, by simpa using unlisted⟩
    exact supported (List.ne_nil_of_mem refused)

section Forward

variable {rerankConfig : String → Except String (Option ArgumentValue)}
  {reserveSwiftUpload : String → Arguments → Except String Unit} {identity : AuthIdentity}
  {params : Option ToolsCallParams} {tenantID name : String} {args raw : Arguments}

/-- Where an argument that is passed on comes from. -/
def Origin (rerankConfig : String → Except String (Option ArgumentValue)) (identity : AuthIdentity)
    (tenantID : String) (raw : Arguments) (policy : ChatMCPToolPolicy)
    (entry : String × ArgumentValue) : Prop :=
  entry = ("tenant_id", .text tenantID) ∨
    (entry.1 = "model_config" ∧ rerankConfig identity.userID = .ok (some entry.2)) ∨
    (entry ∈ raw ∧ entry.1 ∈ policy.arguments)

theorem forwardTool_spec {policy : ChatMCPToolPolicy}
    (listed : ∀ entry ∈ raw, entry.1 ∈ policy.arguments) {called : String}
    (forwards : forwardTool rerankConfig identity tenantID called raw = .forward name args) :
    name = called ∧ args.get "tenant_id" = some (.text tenantID) ∧
      ∀ entry ∈ args, Origin rerankConfig identity tenantID raw policy entry := by
  have forced : ∀ entry ∈ raw.set "tenant_id" (.text tenantID),
      Origin rerankConfig identity tenantID raw policy entry := by
    intro entry member
    rcases Arguments.mem_set.mp member with same | ⟨given, -⟩
    · exact .inl same
    · exact .inr (.inr ⟨given, listed entry given⟩)
  unfold forwardTool at forwards
  dsimp only at forwards
  split at forwards
  · split at forwards
    · cases forwards
    next config loaded =>
      cases forwards
      refine ⟨rfl, ?_, fun entry member => ?_⟩
      · rw [Arguments.get_set_of_ne (by decide)]
        exact Arguments.get_set_self
      · rcases Arguments.mem_set.mp member with rfl | ⟨given, -⟩
        · exact .inr (.inl ⟨rfl, loaded⟩)
        · exact forced entry given
    · cases forwards
      exact ⟨rfl, Arguments.get_set_self, forced⟩
  · cases forwards
    exact ⟨rfl, Arguments.get_set_self, forced⟩

/-- What `handleMCPToolsCall` hands on, and for whom. -/
theorem handleMCPToolsCall_spec (known : requestTenantID identity = identity.tenantID)
    (named : identity.tenantID ≠ "") :
    (∀ tenantID raw, handleMCPToolsCall rerankConfig reserveSwiftUpload identity params =
      .index tenantID raw → tenantID = identity.tenantID) ∧
    (∀ name args, handleMCPToolsCall rerankConfig reserveSwiftUpload identity params =
      .forward name args → ∃ request, params = some request ∧
        ∃ policy ∈ chatMCPToolPolicies, policy.tool = name ∧
          args.get "tenant_id" = some (.text identity.tenantID) ∧
          (∀ entry ∈ request.arguments, entry.1 ∈ policy.arguments) ∧
          ∀ entry ∈ args, Origin rerankConfig identity identity.tenantID request.arguments policy
            entry) := by
  unfold handleMCPToolsCall
  simp only [known, if_neg named]
  split
  · exact ⟨nofun, nofun⟩
  next request =>
    split
    · exact ⟨nofun, nofun⟩
    · split
      · refine ⟨fun tenantID raw same => ?_, nofun⟩
        cases same
        rfl
      · split
        · split <;> exact ⟨nofun, nofun⟩
        · split
          · exact ⟨nofun, nofun⟩
          next valid =>
            split
            · exact ⟨nofun, nofun⟩
            · obtain ⟨policy, member, tool, listed⟩ := policy_of_validate valid
              refine ⟨fun tenantID raw same => ?_, fun name args forwards => ?_⟩
              · unfold forwardTool at same
                dsimp only at same
                split at same
                · split at same <;> cases same
                · cases same
              · obtain ⟨rfl, carries, origin⟩ := forwardTool_spec listed forwards
                exact ⟨request, rfl, policy, member, tool, carries, listed, origin⟩

end Forward

/-! ### Index-control calls -/

def indexControlTools : List String := ["codebase_remote_index", "codebase_clear_index"]

def indexControlFields : List String :=
  ["tenant_id", "job_id", "operation", "root_id", "response_format", "replace_root", "files",
    "deleted_files", "operation_id"]

/-- A call of the relay's own for a tenant. -/
structure ControlCall (tenant : String) (call : ToolCall) : Prop where
  tool : call.name ∈ indexControlTools
  carries : call.args.get "tenant_id" = some (.text tenant)
  fields : ∀ entry ∈ call.args, entry.1 ∈ indexControlFields

namespace ControlCall

variable {tenant : String}

theorem set {name field : String} {args : Arguments} (control : ControlCall tenant ⟨name, args⟩)
    (other : field ≠ "tenant_id") (known : field ∈ indexControlFields) (value : ArgumentValue) :
    ControlCall tenant ⟨name, args.set field value⟩ where
  tool := control.tool
  carries := (Arguments.get_set_of_ne other.symm).trans control.carries
  fields entry member := by
    rcases Arguments.mem_set.mp member with rfl | ⟨given, -⟩
    · exact known
    · exact control.fields entry given

theorem of_fields {name : String} {args : Arguments} (tool : name ∈ indexControlTools)
    (carries : ("tenant_id", ArgumentValue.text tenant) ∈ args)
    (fields : args.fields ⊆ indexControlFields) : ControlCall tenant ⟨name, args⟩ :=
  ⟨tool, Arguments.get_eq_some.mpr carries, fun _ member => fields (List.mem_map_of_mem member)⟩

theorem remoteIndex (jobID rootID operation : String) :
    ControlCall tenant (remoteIndexCall tenant jobID rootID operation) := by
  refine .of_fields (by decide) List.mem_cons_self ?_
  change ["tenant_id", "job_id", "operation", "root_id", "response_format"] ⊆ indexControlFields
  decide

theorem clearRoot (rootID : String) : ControlCall tenant (clearRootCall tenant rootID) := by
  refine .of_fields (by decide) List.mem_cons_self ?_
  change ["tenant_id", "root_id"] ⊆ indexControlFields
  decide

theorem clearTenant (unique : ([("tenant_id", ArgumentValue.text tenant)].map Prod.fst).Nodup) :
    ControlCall tenant ⟨"codebase_clear_index", ⟨[("tenant_id", .text tenant)], unique⟩⟩ := by
  refine .of_fields (by decide) List.mem_cons_self ?_
  change ["tenant_id"] ⊆ indexControlFields
  decide

theorem begin (jobID rootID : String) (replaceRoot : Bool) : ControlCall tenant
    ⟨"codebase_remote_index", lceBeginIndexJobArguments tenant jobID rootID replaceRoot⟩ := by
  unfold lceBeginIndexJobArguments
  dsimp only
  split
  · exact (remoteIndex jobID rootID "begin").set (by decide) (by decide) _
  · exact remoteIndex jobID rootID "begin"

theorem stage (jobID rootID : String) (staged : List ManifestFile) (deleted : List String) :
    ControlCall tenant
      ⟨"codebase_remote_index", stageArguments tenant jobID rootID staged deleted⟩ := by
  have files (value : ArgumentValue) : ControlCall tenant ⟨"codebase_remote_index",
      (lceIndexJobArguments tenant jobID rootID "stage").set "files" value⟩ :=
    (remoteIndex jobID rootID "stage").set (by decide) (by decide) value
  unfold stageArguments
  dsimp only
  split
  · exact files _
  · exact (files _).set (by decide) (by decide) _

end ControlCall

/-- Every point of the index code makes its call for the tenant it works for. -/
theorem Point.toolCall_control {tenant rootID : String} {point : Point} {call : ToolCall}
    (made : point.toolCall tenant rootID = some call) : ControlCall tenant call := by
  cases point <;> cases made
  case clearOldRoot | dismissCloud | deleteCloud => exact .clearRoot _
  case begin => exact .begin _ _ _
  case stage => exact .stage _ _ _ _
  case abortBegin | publish | status | cancel | abortFailed => exact .remoteIndex _ _ _
  case clearCloud => exact .clearTenant _
  case deletionCloud job => exact (ControlCall.clearRoot job.rootID).set (by decide) (by decide) _

/-- The tool call of a request is one for the same job and of the same kind. -/
theorem Point.toolCall_of_request {sha256 : String → String} {answer : Answer} {tenant : String}
    {clock : Nat} {db : Database} {cloud : Cloud} {point : Point} {request : Request}
    (sent : (point.advance sha256 answer tenant clock db cloud).request = some request)
    (rootID : String) : ∃ call, point.toolCall tenant rootID = some call ∧
      call.name = request.tool ∧ call.args.get "operation" = request.operation.map .text ∧
      call.args.get "job_id" = request.jobID.map .text := by
  have made {request made : Request} (sent : answer.sends made = some request) : made = request := by
    unfold Answer.sends at sent
    split at sent <;> cases sent
    rfl
  cases point with
  | clearOldRoot | abortBegin | publish | status | cancel | abortFailed | clearCloud | dismissCloud
    | deleteCloud | deletionCloud =>
    obtain rfl := made sent
    exact ⟨_, rfl, rfl, rfl, rfl⟩
  | begin job attempt =>
    have sent : answer.sends (.begin tenant job.id job.rootID (job.mode == .full)) =
        some request := by
      simp only [Point.advance] at sent
      split at sent <;> [exact sent; split at sent <;> exact sent]
    obtain rfl := made sent
    refine ⟨_, rfl, rfl, ?_, ?_⟩ <;>
      cases replaces : job.mode == .full <;> rfl
  | stage root batch =>
    obtain rfl := made sent
    refine ⟨_, rfl, rfl, ?_, ?_⟩ <;>
      unfold stageArguments <;> dsimp only <;> split <;> rfl
  -- the other points make no request
  | loadRoot | create | prepare | check =>
    simp only [Point.advance] at sent
    split at sent <;> cases sent
  | _ => cases sent

theorem IndexCall.Makes.control {sha256 : String → String} {tenant : String}
    {indexCall : IndexCall} {call : ToolCall} (made : indexCall.Makes sha256 tenant call) :
    ControlCall tenant call := by
  cases made with
  | request enters leads made => exact Point.toolCall_control made
  | reclaim enters leads expired => exact .remoteIndex _ _ _
  | renew jobID rootID => exact .remoteIndex _ _ _

/-! ### Assertions -/

/-- The call carries the tenant, and an assertion for it if there is a signer. -/
def CarriesTenant (env : RelayEnvironment) (tenant : String) (sent : LCECall) : Prop :=
  sent.call.args.get "tenant_id" = some (.text tenant) ∧
  match env.signer with
  | none => sent.authorization = none
  | some signer => ∃ expiry nonce, sent.authorization =
    some ("Bearer " ++ signer.assertion env.encode env.mac { tenant, expiry, nonce })

theorem bearer_ne_empty (text : String) : "Bearer " ++ text ≠ "" := by
  intro empty
  have letters := congrArg String.toList empty
  simp at letters

theorem carriesTenant_of_doCallTool {env : RelayEnvironment} {tenant : String} {call : ToolCall}
    {id now : Int} {nonce : Except String String} {sent : LCECall} (named : tenant ≠ "")
    (trimmed : trimSpace tenant = tenant) (carries : call.args.get "tenant_id" = some (.text tenant))
    (sends : doCallTool env.encode env.mac env.signer id now nonce call = .ok sent) :
    sent.call = call ∧ CarriesTenant env tenant sent := by
  have subject : tenantIDFromArgs call.args = tenant := by
    rw [tenantIDFromArgs, Arguments.text_eq carries, trimmed]
  unfold doCallTool at sends
  simp only [bind_ok_iff, subject, if_neg named] at sends
  obtain ⟨-, -, header, signed, result⟩ := sends
  rw [pure_ok_iff] at result
  subst result
  refine ⟨rfl, carries, ?_⟩
  unfold authorizationHeader at signed
  cases found : env.signer with
  | none =>
    rw [found] at signed
    cases signed
    rfl
  | some signer =>
    rw [found] at signed
    simp only [TenantAssertionSigner.sign, trimmed, if_neg named, bind_ok_iff, pure_ok_iff] at signed
    obtain ⟨assertion, ⟨drawn, -, rfl⟩, rfl⟩ := signed
    refine ⟨now + tenantAssertionTTL, drawn, ?_⟩
    dsimp only
    rw [if_neg (bearer_ne_empty _)]

/-! ### Every call -/

/-- The call is one of a tool that a policy lists, with the tenant, the configuration of the
user and what the client sent under the arguments of the policy; or one of the relay's own. -/
def Permitted (env : RelayEnvironment) (identity : AuthIdentity) (params : Option ToolsCallParams)
    (call : ToolCall) : Prop :=
  (∃ request, params = some request ∧ ∃ policy ∈ chatMCPToolPolicies, policy.tool = call.name ∧
    ∀ entry ∈ call.args, Origin env.rerankConfig identity identity.tenantID request.arguments policy
      entry) ∨
  ControlCall identity.tenantID call

theorem Sends.permitted {env : RelayEnvironment} {identity : AuthIdentity}
    {params : Option ToolsCallParams} {sent : LCECall} (named : identity.tenantID ≠ "")
    (trimmed : trimSpace identity.tenantID = identity.tenantID)
    (sends : Sends env identity params sent) :
    CarriesTenant env identity.tenantID sent ∧ Permitted env identity params sent.call := by
  have known : requestTenantID identity = identity.tenantID := if_pos named
  cases sends with
  | forward handled sends =>
    obtain ⟨request, rfl, policy, member, tool, carries, -, origin⟩ :=
      (handleMCPToolsCall_spec known named).2 _ _ handled
    obtain ⟨same, carriesTenant⟩ := carriesTenant_of_doCallTool named trimmed carries sends
    refine ⟨carriesTenant, .inl ⟨request, rfl, policy, member, ?_⟩⟩
    rw [same]
    exact ⟨tool, origin⟩
  | index handled decoded made sends =>
    obtain rfl := (handleMCPToolsCall_spec known named).1 _ _ handled
    have control := made.control
    obtain ⟨same, carriesTenant⟩ := carriesTenant_of_doCallTool named trimmed control.carries sends
    refine ⟨carriesTenant, .inr ?_⟩
    rwa [same]

/-- A configuration that reaches LCE is the stored one of the user. -/
theorem Permitted.modelConfig {env : RelayEnvironment} {identity : AuthIdentity}
    {params : Option ToolsCallParams} {call : ToolCall} {config : ArgumentValue}
    (permitted : Permitted env identity params call)
    (passed : call.args.get "model_config" = some config) :
    env.rerankConfig identity.userID = .ok (some config) := by
  have member := Arguments.get_eq_some.mp passed
  rcases permitted with ⟨request, -, policy, listed, -, origin⟩ | control
  · rcases origin _ member with same | ⟨-, loaded⟩ | ⟨-, allowed⟩
    · exact absurd (congrArg Prod.fst same) (show "model_config" ≠ "tenant_id" by decide)
    · exact loaded
    · exact absurd allowed (forced_not_listed policy listed).2
  · exact absurd (control.fields _ member) (show "model_config" ∉ indexControlFields by decide)

/-- Every call to LCE that is sent while a `tools/call` of an authenticated identity is
handled carries the tenant of the identity, with an assertion for it if there is a signer,
and is permitted. Any two requests, also those that differ in `tenant_id` or `model_config`
only, reach LCE for the same tenant, and with no configuration but the stored one. -/
theorem caller_cannot_choose_tenant (md5 sha256 : String → String) (env : RelayEnvironment)
    (identity : AuthIdentity) (authenticated : Authenticated md5 sha256 identity) :
    (∀ params sent, Sends env identity params sent →
      CarriesTenant env identity.tenantID sent ∧ Permitted env identity params sent.call) ∧
    ∀ params other first second, Sends env identity params first →
      Sends env identity other second →
        first.call.args.get "tenant_id" = second.call.args.get "tenant_id" ∧
        ∀ config, first.call.args.get "model_config" = some config ∨
          second.call.args.get "model_config" = some config →
            env.rerankConfig identity.userID = .ok (some config) := by
  obtain ⟨named, trimmed⟩ := authenticated.tenantID
  refine ⟨fun params sent sends => sends.permitted named trimmed, ?_⟩
  intro params other first second sendsFirst sendsSecond
  obtain ⟨carriesFirst, permittedFirst⟩ := sendsFirst.permitted named trimmed
  obtain ⟨carriesSecond, permittedSecond⟩ := sendsSecond.permitted named trimmed
  refine ⟨carriesFirst.1.trans carriesSecond.1.symm, ?_⟩
  rintro config (passed | passed)
  · exact permittedFirst.modelConfig passed
  · exact permittedSecond.modelConfig passed

/-- A relay with a secret, whose encodings leave a text as it is. -/
def signingRelay : RelayEnvironment where
  sha256 := id
  encode := id
  mac secret text := secret ++ text
  signer := some ⟨"0123456789abcdef0123456789abcdef", by decide⟩
  decode := ⟨fun _ => .error "", fun _ => .error "", fun _ => .error "", fun _ => .error ""⟩
  checkIndexClientVersion _ := .ok ()
  rerankConfig _ := .ok none
  reserveSwiftUpload _ _ := .ok ()

/-- A search by the user of the one key. -/
theorem caller_cannot_choose_tenant_search :
    let identity : AuthIdentity := ⟨"u", "free", "", ""⟩
    let params : ToolsCallParams :=
      ⟨"codebase-retrieval", ⟨[("information_request", .text "main")], by decide⟩⟩
    ∃ sent, Sends signingRelay identity (some params) sent ∧ CarriesTenant signingRelay "u" sent := by
  intro identity params
  have authenticated : Authenticated id id identity :=
    ⟨"t", oneKey "u", identity, oneKey "u", 0, by decide +kernel, by decide +kernel⟩
  have handled : handleMCPToolsCall signingRelay.rerankConfig signingRelay.reserveSwiftUpload identity
      (some params) = .forward "codebase-retrieval"
        (params.arguments.set "tenant_id" (.text "u")) := by
    have trimmed : trimSpace params.name = "codebase-retrieval" := by decide +kernel
    have allowed : isChatMCPToolAllowed "codebase-retrieval" = true := by decide +kernel
    have valid : validateChatMCPToolArgs "codebase-retrieval" params.arguments = .ok () := by
      decide +kernel
    simp only [handleMCPToolsCall, trimmed, allowed, valid]
    rfl
  have sends : (doCallTool signingRelay.encode signingRelay.mac signingRelay.signer 1 0 (.ok "n")
      ⟨"codebase-retrieval", params.arguments.set "tenant_id" (.text "u")⟩).isOk = true := by
    decide +kernel
  cases sent : doCallTool signingRelay.encode signingRelay.mac signingRelay.signer 1 0 (.ok "n")
      ⟨"codebase-retrieval", params.arguments.set "tenant_id" (.text "u")⟩ with
  | error message => rw [sent] at sends; cases sends
  | ok call =>
    have reached := Sends.forward handled sent
    exact ⟨call, reached,
      ((caller_cannot_choose_tenant id id signingRelay identity authenticated).1 _ _ reached).1⟩

end AcemcpRelay
