import AcemcpRelay.Schema
import AcemcpRelay.Text

/-!
# Failure diagnostics

`index_failure.go`: the closed table of (code, origin, recovery) triples, the
check of a triple that a client reports, and the classification of an error text.
-/
namespace AcemcpRelay

structure IndexFailureDiagnostic where
  code : String
  origin : String
  recovery : String
  deriving DecidableEq, Repr

inductive FailureCode where
  | clientDisconnected
  | heartbeatTimeout
  | embeddingSpaceChanged
  | upstreamBadGateway
  | providerBilling
  | providerRateLimited
  | providerInvalidRequest
  | repositoryFileLimit
  | repositoryFileSizeLimit
  | indexQuotaExceeded
  | providerAuthentication
  | networkUnavailable
  | indexFailed
  deriving DecidableEq, Repr

/-- The entry of the table for a code. -/
def FailureCode.diagnostic : FailureCode → IndexFailureDiagnostic
  | .clientDisconnected => ⟨"client_disconnected", "client", "restart_client"⟩
  | .heartbeatTimeout => ⟨"heartbeat_timeout", "relay", "restart_client"⟩
  | .embeddingSpaceChanged => ⟨"embedding_space_changed", "remote_index", "reset_root"⟩
  | .upstreamBadGateway => ⟨"upstream_bad_gateway", "remote_index", "retry_after_service_recovers"⟩
  | .providerBilling => ⟨"provider_billing", "provider", "fix_provider_billing"⟩
  | .providerRateLimited => ⟨"provider_rate_limited", "provider", "retry_later"⟩
  | .providerInvalidRequest => ⟨"provider_invalid_request", "provider", "contact_admin"⟩
  | .repositoryFileLimit => ⟨"repository_file_limit", "client", "reduce_repository"⟩
  | .repositoryFileSizeLimit => ⟨"repository_file_size_limit", "client", "reduce_repository"⟩
  | .indexQuotaExceeded => ⟨"index_quota_exceeded", "relay", "wait_for_quota_reset"⟩
  | .providerAuthentication => ⟨"provider_authentication", "provider", "fix_credentials"⟩
  | .networkUnavailable => ⟨"network_unavailable", "network", "restart_client"⟩
  | .indexFailed => ⟨"index_failed", "unknown", "contact_admin"⟩

/-- `indexFailureDiagnosticsByCode`, in source order. -/
def indexFailureDiagnosticsByCode : List IndexFailureDiagnostic :=
  [FailureCode.clientDisconnected, .heartbeatTimeout, .embeddingSpaceChanged, .upstreamBadGateway,
    .providerBilling, .providerRateLimited, .providerInvalidRequest, .repositoryFileLimit,
    .repositoryFileSizeLimit, .indexQuotaExceeded, .providerAuthentication, .networkUnavailable,
    .indexFailed].map FailureCode.diagnostic

theorem FailureCode.diagnostic_mem (code : FailureCode) :
    code.diagnostic ∈ indexFailureDiagnosticsByCode := by
  cases code <;> decide

theorem FailureCode.diagnostic_injective : Function.Injective FailureCode.diagnostic := by
  intro code other
  cases code <;> cases other <;> simp [FailureCode.diagnostic]

/-- `validateReportedIndexFailureDiagnostic`: all three fields or none, and then
exactly an entry of the table. `none` means that nothing was reported. -/
def validateReportedIndexFailureDiagnostic (code origin recovery : String) :
    Except String (Option IndexFailureDiagnostic) :=
  let code := trimSpace code
  let origin := trimSpace origin
  let recovery := trimSpace recovery
  -- clients that report no diagnostic have theirs read off the text
  if code = "" ∧ origin = "" ∧ recovery = "" then .ok none
  else if code = "" ∨ origin = "" ∨ recovery = "" then
    .error "error_code, error_origin, and recovery must be provided together"
  else match indexFailureDiagnosticsByCode.find? (·.code == code) with
    | none => .error ("unsupported index failure error_code: " ++ code)
    | some expected =>
      if origin ≠ expected.origin ∨ recovery ≠ expected.recovery then
        .error ("index failure diagnostic " ++ code ++ " must use error_origin=" ++
          expected.origin ++ " and recovery=" ++ expected.recovery)
      else .ok (some expected)

/-- One arm of the `switch` of `classifyIndexFailure`. -/
structure FailurePattern where
  phrases : List String
  code : FailureCode

/-- The arms of the `switch` in order. The second one also catches every timed-out job. -/
def failurePatterns : List FailurePattern :=
  -- the first line that has a phrase of the text decides
  [⟨["client disconnected before first upload"], .clientDisconnected⟩,
   ⟨["heartbeat timed out", "heartbeat timeout"], .heartbeatTimeout⟩,
   ⟨["cloud embedding space changed", "embedding space changed",
      "clear the tenant root before starting a new index job"], .embeddingSpaceChanged⟩,
   ⟨["remote-index 502", "bad gateway", "cloudflare", "origin web server returned"],
      .upstreamBadGateway⟩,
   ⟨["timeout exceeded when trying to connect", "canceling statement due to lock timeout",
      "cloud platform maintenance in progress"], .upstreamBadGateway⟩,
   ⟨["payment required", "insufficient balance", "insufficient credit", "余额不足", "欠费",
      "billing", "remote-index 402"], .providerBilling⟩,
   ⟨["too many requests", "rate limit", "rate-limit", "remote-index 429"], .providerRateLimited⟩,
   ⟨["the parameter is invalid", "[20015]", "valid utf-8",
      "special characters are properly escaped"], .providerInvalidRequest⟩,
   ⟨["manifest exceeds", "unreadable file list exceeds", "too many files", "file count limit",
      "maximum file count", "100,000 files", "100000 files", "文件数量", "文件数超过"],
      .repositoryFileLimit⟩,
   ⟨["manifest file size is invalid", "file exceeds the", "byte limit", "file too large",
      "file size limit", "maximum file size", "512 kib", "524288", "文件大小超过", "单文件过大"],
      .repositoryFileSizeLimit⟩,
   ⟨["daily index quota exceeded", "index quota exceeded", "index_quota_exceeded",
      "每日索引配额", "索引配额已用尽", "超出索引配额"], .indexQuotaExceeded⟩,
   ⟨["unauthorized", "invalid api key", "invalid token", "authentication failed",
      "remote-index 401", "remote-index 403"], .providerAuthentication⟩,
   ⟨["connection refused", "connection reset", "network is unreachable", "network down",
      "no such host", "i/o timeout", "context deadline exceeded", "unexpected eof",
      "socket hang up"], .networkUnavailable⟩]

/-- `classifyIndexFailure`. -/
def classifyIndexFailure (status : JobStatus) (detail : String) : IndexFailureDiagnostic :=
  let lower := toLower (trimSpace detail)
  let hit (pattern : FailurePattern) : Bool :=
    pattern.phrases.any (contains lower) ||
      (pattern.code == .heartbeatTimeout && status == .timedOut)
  ((failurePatterns.find? hit).elim FailureCode.indexFailed (·.code)).diagnostic

/-- `resolveReportedIndexFailureDiagnostic`: what the `fail` operation stores. -/
def resolveReportedIndexFailureDiagnostic (status : JobStatus)
    (detail code origin recovery : String) : Except String IndexFailureDiagnostic :=
  match validateReportedIndexFailureDiagnostic code origin recovery with
  | .error message => .error message
  | .ok (some diagnostic) => .ok diagnostic
  | .ok none => .ok (classifyIndexFailure status detail)

/-! ### Every diagnostic that is stored is an entry of the table -/

theorem classifyIndexFailure_mem (status : JobStatus) (detail : String) :
    classifyIndexFailure status detail ∈ indexFailureDiagnosticsByCode := by
  unfold classifyIndexFailure
  exact FailureCode.diagnostic_mem _

theorem validateReported_mem {code origin recovery : String} {diagnostic : IndexFailureDiagnostic}
    (accepted : validateReportedIndexFailureDiagnostic code origin recovery =
      .ok (some diagnostic)) : diagnostic ∈ indexFailureDiagnosticsByCode := by
  unfold validateReportedIndexFailureDiagnostic at accepted
  simp only at accepted
  split at accepted
  · simp at accepted
  · split at accepted
    · simp at accepted
    · split at accepted
      · simp at accepted
      next expected found =>
        split at accepted
        · simp at accepted
        · -- the only accepting branch returns the table's own entry
          simp only [Except.ok.injEq, Option.some.injEq] at accepted
          rw [← accepted]
          exact List.mem_of_find?_eq_some found

theorem resolveReported_mem {status : JobStatus} {detail code origin recovery : String}
    {diagnostic : IndexFailureDiagnostic}
    (resolved : resolveReportedIndexFailureDiagnostic status detail code origin recovery =
      .ok diagnostic) : diagnostic ∈ indexFailureDiagnosticsByCode := by
  unfold resolveReportedIndexFailureDiagnostic at resolved
  split at resolved
  · simp at resolved
  next reported accepted =>
    simp only [Except.ok.injEq] at resolved
    rw [← resolved]
    exact validateReported_mem accepted
  · simp only [Except.ok.injEq] at resolved
    rw [← resolved]
    exact classifyIndexFailure_mem _ _

end AcemcpRelay
