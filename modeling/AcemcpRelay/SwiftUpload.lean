import AcemcpRelay.IndexQuota
import AcemcpRelay.JobID
import AcemcpRelay.Wire.Base64
import Mathlib.Data.Rat.Floor

/-!
# Swift uploads

`reserveSwiftUpload`: what is checked of an upload of the `codebase_swift_sync` tool, and
what the upload is charged, before it is handed on. The arguments are decoded JSON.
-/
namespace AcemcpRelay

open Store Wire

def swiftSyncPartBytes : Nat := 262144

def swiftSyncMaxParts : Nat := 512

/-- An argument of a tool call. Whatever is neither a text nor a number is `other`, and so is
an argument that is missing. -/
inductive Argument where
  | text (value : String)
  /-- A `float64` that comes from JSON is finite. -/
  | number (value : Rat)
  | other
  deriving DecidableEq, Repr

structure SwiftArgs where
  operation : Argument := .other
  data : Argument := .other
  jobID : Argument := .other
  part : Argument := .other
  rootID : Argument := .other
  deriving DecidableEq, Repr

structure SwiftQuotaError where
  code : String
  message : String
  deriving DecidableEq, Repr

/-- A part that has passed the checks. -/
structure SwiftPart where
  root : String
  job : String
  part : Int
  data : List UInt8
  numbered : 0 ≤ part ∧ part < swiftSyncMaxParts
  sized : 0 < data.length ∧ data.length ≤ swiftSyncPartBytes
  deriving DecidableEq

/-- `int64(value)` of a `float64` that is not negative. The language leaves open what becomes
of one that is too large; on amd64 it is the least `int64`. -/
def truncateInt64 (value : Rat) : Int := if value < 2 ^ 63 then ⌊value⌋ else -2 ^ 63

def numberAsInt64 : Argument → Option Int
  | .number value => if value < 0 then none else some (truncateInt64 value)
  | _ => none

def invalidSwiftIdentity : SwiftQuotaError :=
  ⟨"SWIFT_SYNC_INVALID", "Invalid Swift upload identity or part size"⟩

def invalidSwiftData : SwiftQuotaError :=
  ⟨"SWIFT_SYNC_INVALID", "Swift upload requires canonical base64 and a bounded nonempty part"⟩

/-- The second check of `reserveSwiftUpload`: what the text of a part decodes to. -/
def readSwiftData (root job data : String) (part : Int)
    (numbered : 0 ≤ part ∧ part < swiftSyncMaxParts) : Except SwiftQuotaError SwiftPart :=
  match stdAlphabet.decode true true data.toList with
  | none => .error invalidSwiftData
  | some decoded =>
    if sized : 0 < decoded.length ∧ decoded.length ≤ swiftSyncPartBytes then
      -- only the canonical text of the bytes is taken, so equal parts have equal texts
      if stdAlphabet.encode true decoded ≠ data.toList then .error invalidSwiftData
      else .ok { root, job, part, data := decoded, numbered, sized }
    else .error invalidSwiftData

/-- The checks of `reserveSwiftUpload`. -/
def readSwiftPart (args : SwiftArgs) : Except SwiftQuotaError SwiftPart :=
  match args.data, args.jobID, numberAsInt64 args.part, args.rootID with
  | .text data, .text jobID, some part, .text root =>
    match uuidParse jobID with
    | none => .error invalidSwiftIdentity
    | some job =>
      -- the part number has to be an integer, not only to have one
      if args.part ≠ .number part ∨ trimSpace root = "" ∨
          Alphabet.encodedLen swiftSyncPartBytes < data.utf8ByteSize then
        .error invalidSwiftIdentity
      else if numbered : 0 ≤ part ∧ part < swiftSyncMaxParts then
        readSwiftData (trimSpace root) job data part numbered
      else .error invalidSwiftIdentity
  | _, _, _, _ => .error invalidSwiftIdentity

/-- The call of `chargeSwiftPart`. -/
def SwiftPart.call (part : SwiftPart) (tenantID orgID tier : String) : IndexQuotaCall :=
  .part tenantID orgID tier part.root part.job part.part part.data

/-- What the caller is told. -/
def swiftAnswer (config : QuotaConfig) (now : Nat) (outcome : IndexQuotaOutcome) :
    Option SwiftQuotaError :=
  -- a conflict is reported before the quota, which was not touched
  if outcome.conflict then
    some ⟨"SWIFT_SYNC_INVALID",
      "Swift part identity cannot be reused with different content; start a new upload job"⟩
  else if outcome.decision.unavailable then
    some ⟨"QUOTA_ACCOUNTING_UNAVAILABLE", "Swift upload byte accounting unavailable; retry later"⟩
  else if !outcome.decision.allowed then
    some ⟨"PLAN_QUOTA_EXHAUSTED",
      "Daily index byte quota exceeded (used=" ++ toString outcome.decision.used ++ " limit=" ++
        toString outcome.decision.limit ++ "); retry after " ++ quotaRetryAfterHeader config now ++
        " seconds"⟩
  else none

/-- `reserveSwiftUpload`. The script may run later than the limits are read. -/
def reserveSwiftUpload (sha256 : String → String) (digest : List UInt8 → String)
    (config : QuotaConfig) (asked now : Nat) (answers : QuotaAnswers)
    (tenantID orgID tier : String) (args : SwiftArgs) (sendings : List Sending)
    (ledgers : IndexLedgers) : Option SwiftQuotaError × IndexLedgers :=
  if args.operation ≠ .text "upload" then (none, ledgers)
  else match readSwiftPart args with
    | .error refused => (some refused, ledgers)
    | .ok part =>
      match (part.call tenantID orgID tier).prepare sha256 digest config (config.day asked) answers with
      | .error _ => (none, ledgers)
      | .ok charge =>
        let (outcome, after) := charge.send now sendings ledgers
        (swiftAnswer config now outcome, after)

example : (readSwiftPart
    { data := .text "YWJjZGU=", jobID := .text "AAAAAAAA-aaaa-4aaa-aaaa-aaaaaaaaaaaa"
      part := .number 0, rootID := .text " root " }).map (fun part => (part.root, part.job, part.data)) =
    .ok ("root", "aaaaaaaa-aaaa-4aaa-aaaa-aaaaaaaaaaaa", [97, 98, 99, 100, 101]) := by decide +kernel

end AcemcpRelay
