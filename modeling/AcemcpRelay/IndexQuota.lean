import AcemcpRelay.Manifest
import AcemcpRelay.Quota

/-!
# Index byte quotas

Three scripts charge the bytes of an index to the daily counter of a pool: one takes a
number of bytes, one takes files and charges each content once a day, one takes a part of
a Swift upload and charges it once. The last two remember what they have charged, the one
in a ledger of the root and the day, the other in a ledger of the upload.
-/
namespace AcemcpRelay

open Store

/-! ### Pools and keys -/

structure IndexQuotaPool where
  limit : Int
  poolID : String
  deriving DecidableEq, Repr

def resolveIndexBytesQuota (config : QuotaConfig) (answers : QuotaAnswers)
    (tenantID orgID tier : String) : IndexQuotaPool :=
  if orgID = "" then
    { limit := getUserIndexBytesLimit config answers tier, poolID := tenantID }
  else
    let limits := getOrgQuotaLimits config answers orgID
    { limit := if limits.indexBytesSet then limits.indexBytes else config.tierIndexBytesLimit "free"
      poolID := if limits.indexBytesPoolID ≠ "" then limits.indexBytesPoolID else orgID }

def indexBytesKeyAt (poolID : String) (day : Nat) : QuotaKey :=
  { name := "quota:indexbytes:" ++ poolID, day }

/-- The key of `indexFileChargesKeyAt`. -/
structure FileLedgerKey where
  tenantID : String
  day : Nat
  rootDigest : String
  deriving DecidableEq, Repr

/-- The key of the parts of a Swift upload, `quota:swift-parts`. -/
structure PartLedgerKey where
  tenantID : String
  identity : String
  deriving DecidableEq, Repr

/-- What Redis holds. A ledger maps a token to its bytes, or a part to its token. -/
structure IndexLedgers where
  counters : Counters
  files : Keys FileLedgerKey (String → Option Int)
  parts : Keys PartLedgerKey (Int → Option String)

section Hash

variable {Key Field Value : Type} [DecidableEq Key] [DecidableEq Field]

/-- `HGET`. -/
def hashGet (now : Nat) (keys : Keys Key (Field → Option Value)) (key : Key) (field : Field) :
    Option Value :=
  (keys.get now key).bind (· field)

/-- `HSET`. -/
def hashSet (now : Nat) (keys : Keys Key (Field → Option Value)) (key : Key) (field : Field)
    (value : Value) : Keys Key (Field → Option Value) :=
  keys.put now key
    (Function.update ((keys.get now key).getD fun _ => none) field (some value))

variable {now ttl : Nat} {keys : Keys Key (Field → Option Value)} {key other : Key}
  {field : Field} {value : Value}

theorem hashGet_hashSet (read : Field) : hashGet now (hashSet now keys key field value) key read =
    if read = field then some value else hashGet now keys key read := by
  rw [hashGet, hashSet, Keys.get_put_self, Option.bind_some]
  by_cases same : read = field
  · rw [if_pos same, same, Function.update_self]
  · rw [if_neg same, Function.update_of_ne same, hashGet]
    cases keys.get now key with
    | none => rfl
    | some _ => rfl

theorem hashSet_of_ne (different : other ≠ key) :
    hashSet now keys key field value other = keys other :=
  Keys.put_of_ne different

omit [DecidableEq Field] in
theorem hashGet_expire (positive : 0 < ttl) (read : Field) :
    hashGet now (keys.expire now ttl key) other read = hashGet now keys other read := by
  rw [hashGet, Keys.get_expire positive, hashGet]

end Hash

/-! ### Scripts -/

/-- What a script returns: one if it allowed, zero if it refused, minus one for a part that
was charged with another content. -/
structure IndexReply where
  status : Int
  used : Int
  charged : Int
  deriving DecidableEq, Repr

/-- `chargeScript`. -/
def chargeBytesScript (now : Nat) (key : QuotaKey) (requested limit : Int)
    (ledgers : IndexLedgers) : IndexReply × IndexLedgers :=
  let current := ledgers.counters.counter now key
  if limit < current + requested then (⟨0, current, 0⟩, ledgers)
  else
    let counters := ledgers.counters.incrBy now key requested
    (⟨1, counters.counter now key, requested⟩,
      { ledgers with
        -- this script sets the expiry where it has created the counter, the next where it finds
        -- none
        counters := if current = 0 then counters.expire now quotaRetention key else counters })

/-- One round of the loop over the files: the tokens that are to be charged, and their bytes. -/
def collectUnseen (seen : String → Bool) (collected : List (String × Int) × Int)
    (file : String × Int) : List (String × Int) × Int :=
  if 0 < file.2 ∧ collected.1.all (·.1 != file.1) ∧ seen file.1 = false then
    (collected.1 ++ [file], collected.2 + file.2)
  else collected

/-- `reserveFilesScript`. -/
def reserveFilesScript (now : Nat) (key : QuotaKey) (ledger : FileLedgerKey) (limit : Int)
    (files : List (String × Int)) (ledgers : IndexLedgers) : IndexReply × IndexLedgers :=
  let current := ledgers.counters.counter now key
  -- a file that occurs twice in one call is collected once
  let (unseen, newlyCharged) :=
    files.foldl (collectUnseen fun token => (hashGet now ledgers.files ledger token).isSome) ([], 0)
  if limit < current + newlyCharged then (⟨0, current, 0⟩, ledgers)
  else if 0 < newlyCharged then
    let marked := unseen.foldl (fun keys file => hashSet now keys ledger file.1 file.2) ledgers.files
    let counters := ledgers.counters.incrBy now key newlyCharged
    (⟨1, counters.counter now key, newlyCharged⟩,
      { ledgers with
        counters := if counters.endless now key then counters.expire now quotaRetention key
          else counters
        files := if marked.endless now ledger then marked.expire now quotaRetention ledger
          else marked })
  else (⟨1, current, newlyCharged⟩, ledgers)

/-- The script of `chargeSwiftPart`. -/
def swiftPartScript (now : Nat) (key : QuotaKey) (ledger : PartLedgerKey) (part : Int)
    (token : String) (bytes limit : Int) (ledgers : IndexLedgers) : IndexReply × IndexLedgers :=
  let current := ledgers.counters.counter now key
  match hashGet now ledgers.parts ledger part with
  | some previous =>
    -- a number of the job that was used for other content
    if previous ≠ token then (⟨-1, current, 0⟩, ledgers)
    else (⟨1, current, 0⟩,
      { ledgers with parts := ledgers.parts.expire now quotaRetention ledger })
  | none =>
    -- the only script that is sent without a limit: the ledger has to know the part anyway
    if 0 < limit ∧ limit < current + bytes then (⟨0, current, 0⟩, ledgers)
    else
      let counters := ledgers.counters.incrBy now key bytes
      let marked := hashSet now ledgers.parts ledger part token
      (⟨1, counters.counter now key, bytes⟩,
        { ledgers with
          counters := counters.expire now quotaRetention key
          parts := marked.expire now quotaRetention ledger })

/-! ### Calls -/

structure IndexQuotaFile where
  path : String
  hash : String
  bytes : Int
  deriving DecidableEq, Repr

structure IndexQuotaDecision where
  allowed : Bool := false
  unavailable : Bool := false
  used : Int := 0
  limit : Int
  charged : Int := 0
  deriving DecidableEq, Repr

/-- A call of `chargeIndexBytes`, `chargeIndexFiles` or `chargeSwiftPart`. -/
inductive IndexQuotaCall where
  | bytes (tenantID orgID tier : String) (bytes : Int)
  | files (tenantID orgID tier rootID : String) (files : List IndexQuotaFile)
  | part (tenantID orgID tier rootID jobID : String) (part : Int) (data : List UInt8)

/-- A script with its keys and arguments. -/
inductive IndexCharge where
  | bytes (key : QuotaKey) (requested limit : Int)
  | files (key : QuotaKey) (ledger : FileLedgerKey) (limit : Int) (files : List (String × Int))
  | part (key : QuotaKey) (ledger : PartLedgerKey) (part : Int) (token : String) (bytes limit : Int)
  deriving DecidableEq

namespace IndexCharge

/-- The counter of the pool. -/
def key : IndexCharge → QuotaKey
  | .bytes key _ _ | .files key _ _ _ | .part key _ _ _ _ _ => key

def limit : IndexCharge → Int
  | .bytes _ _ limit | .files _ _ limit _ | .part _ _ _ _ _ limit => limit

def run (now : Nat) : IndexCharge → IndexLedgers → IndexReply × IndexLedgers
  | .bytes key requested limit => chargeBytesScript now key requested limit
  | .files key ledger limit entries => reserveFilesScript now key ledger limit entries
  | .part key ledger number token size limit => swiftPartScript now key ledger number token size limit

end IndexCharge

section

-- the hexadecimal digests of a text and of data
variable (sha256 : String → String) (digest : List UInt8 → String)

/-- The token of a file: a content is charged once, whatever job or batch it comes with. -/
def fileToken (file : IndexQuotaFile) : String :=
  sha256 (normalizeIndexPath file.path ++ "\x00" ++ toLower (trimSpace file.hash) ++ "\x00" ++
    toString (max file.bytes 0))

/-- A call up to its script, or its decision if it needs none. -/
def IndexQuotaCall.prepare (config : QuotaConfig) (day : Nat) (answers : QuotaAnswers) :
    IndexQuotaCall → Except IndexQuotaDecision IndexCharge
  | .bytes tenantID orgID tier amount =>
    let quota := resolveIndexBytesQuota config answers tenantID orgID tier
    -- nothing to count or nothing to count against: Redis is not asked
    if quota.limit ≤ 0 ∨ amount ≤ 0 then
      .error { allowed := true, limit := quota.limit, charged := max amount 0 }
    else .ok (.bytes (indexBytesKeyAt quota.poolID day) amount quota.limit)
  | .files tenantID orgID tier rootID listed =>
    let requested := (listed.map fun file => max file.bytes 0).sum
    let quota := resolveIndexBytesQuota config answers tenantID orgID tier
    if requested ≤ 0 then .error { allowed := true, limit := quota.limit }
    else if quota.limit ≤ 0 then
      .error { allowed := true, limit := quota.limit, charged := requested }
    else .ok (.files (indexBytesKeyAt quota.poolID day)
      { tenantID, day, rootDigest := sha256 rootID } quota.limit
      (listed.map fun file => (fileToken sha256 file, max file.bytes 0)))
  | .part tenantID orgID tier rootID jobID number data =>
    let quota := resolveIndexBytesQuota config answers tenantID orgID tier
    .ok (.part (indexBytesKeyAt quota.poolID day)
      { tenantID, identity := sha256 (rootID ++ "\x00" ++ jobID) } number
      (digest data ++ ":" ++ toString data.length) data.length quota.limit)

end

/-- A call that has ended. -/
structure IndexQuotaOutcome where
  charge : Option IndexCharge
  decision : IndexQuotaDecision
  conflict : Bool := false
  deriving DecidableEq

namespace IndexCharge

/-- What becomes of the reply of the script, if there is one. -/
def outcome (charge : IndexCharge) : Option IndexReply → IndexQuotaOutcome
  | none => { charge, decision := { unavailable := true, limit := charge.limit } }
  | some reply =>
    { charge
      decision :=
        { allowed := reply.status = 1, used := reply.used, limit := charge.limit
          charged := reply.charged }
      conflict := reply.status = -1 }

/-- The request to Redis, and what the caller is told. -/
def send (now : Nat) (charge : IndexCharge) (sendings : List Sending) (ledgers : IndexLedgers) :
    IndexQuotaOutcome × IndexLedgers :=
  let (reply, after) := redisEval (charge.run now) sendings ledgers
  (charge.outcome reply, after)

end IndexCharge

/-! ### Calls in flight -/

/-- A call that has read its limit, and how often its request can still be sent. -/
structure PendingCharge where
  id : Nat
  charge : IndexCharge
  left : Nat := redisMaxRetries + 1
  deriving DecidableEq

/-- One run of a script. -/
structure IndexRun where
  charge : IndexCharge
  reply : IndexReply
  /-- The reply has reached the call. -/
  heard : Bool
  deriving DecidableEq

structure IndexQuotaState where
  clock : Nat
  ledgers : IndexLedgers
  calls : Table PendingCharge.id
  /-- The calls that have ended, the last one first. -/
  outcomes : List IndexQuotaOutcome
  /-- The runs of the scripts, the last one first. -/
  runs : List IndexRun

inductive IndexQuotaEvent where
  | tick (elapsed : Nat)
  | check (id : Nat) (call : IndexQuotaCall) (answers : QuotaAnswers)
  /-- The request of a call is sent to Redis, perhaps once more. -/
  | send (id : Nat) (sending : Sending)
  /-- The client returns the error of the last sending. -/
  | giveUp (id : Nat)

namespace IndexQuotaState

/-- The script of the call runs. -/
def run (state : IndexQuotaState) (call : PendingCharge) (heard : Bool) : IndexQuotaState :=
  let (reply, ledgers) := call.charge.run state.clock state.ledgers
  { state with ledgers, runs := ⟨call.charge, reply, heard⟩ :: state.runs }

/-- The request of the call has been sent once more without an answer. -/
def sentAgain (state : IndexQuotaState) (id : Nat) : IndexQuotaState :=
  { state with
    calls := state.calls.update (·.id == id) (fun call => { call with left := call.left - 1 }) }

/-- The call ends. -/
def finish (state : IndexQuotaState) (call : PendingCharge) (reply : Option IndexReply) :
    IndexQuotaState :=
  { state with
    calls := state.calls.delete (·.id == call.id)
    outcomes := call.charge.outcome reply :: state.outcomes }

def step (sha256 : String → String) (digest : List UInt8 → String) (config : QuotaConfig)
    (state : IndexQuotaState) : IndexQuotaEvent → IndexQuotaState
  | .tick elapsed => { state with clock := state.clock + elapsed }
  | .check id call answers =>
    match call.prepare sha256 digest config (config.day state.clock) answers with
    | .error decision => { state with outcomes := { charge := none, decision } :: state.outcomes }
    | .ok charge =>
      match state.calls.insert [{ id, charge }] with
      | none => state
      | some calls => { state with calls }
  | .send id sending =>
    match state.calls.lookup id with
    | none => state
    | some call =>
      if call.left = 0 then state
      else
        match sending with
        | .failed => state.sentAgain id
        | .unheard => (state.run call false).sentAgain id
        | .heard =>
          (state.run call true).finish call (some (call.charge.run state.clock state.ledgers).1)
  | .giveUp id =>
    match state.calls.lookup id with
    | none => state
    | some call => state.finish call none

def initial (clock : Nat) : IndexQuotaState :=
  { clock, ledgers := ⟨.none, .none, .none⟩, calls := .empty, outcomes := [], runs := [] }

end IndexQuotaState

/-- What a step does to the ledgers and the runs: time passes, a script runs, or nothing but
calls that come, go on or end. -/
inductive IndexStepped (sha256 : String → String) (digest : List UInt8 → String)
    (config : QuotaConfig) (state : IndexQuotaState) : IndexQuotaEvent → IndexQuotaState → Prop where
  | ticked (elapsed : Nat) : IndexStepped sha256 digest config state (.tick elapsed)
      { state with clock := state.clock + elapsed }
  | checked (id : Nat) (call : IndexQuotaCall) (answers : QuotaAnswers) (charge : IndexCharge)
      (prepared : call.prepare sha256 digest config (config.day state.clock) answers = .ok charge)
      (calls : Table PendingCharge.id)
      (inserted : state.calls.insert [{ id, charge }] = some calls) :
      IndexStepped sha256 digest config state (.check id call answers) { state with calls }
  | moved (event : IndexQuotaEvent) (outcomes : List IndexQuotaOutcome)
      (calls : Table PendingCharge.id)
      (left : ∀ call ∈ calls, ∃ old ∈ state.calls, old.charge = call.charge) :
      IndexStepped sha256 digest config state event { state with outcomes, calls }
  | ran (event : IndexQuotaEvent) (call : PendingCharge) (inFlight : call ∈ state.calls)
      (heard : Bool) (outcomes : List IndexQuotaOutcome) (calls : Table PendingCharge.id)
      (left : ∀ other ∈ calls, ∃ old ∈ state.calls, old.charge = other.charge) :
      IndexStepped sha256 digest config state event { state.run call heard with outcomes, calls }

theorem IndexQuotaState.stepped (sha256 : String → String) (digest : List UInt8 → String)
    (config : QuotaConfig) (state : IndexQuotaState) (event : IndexQuotaEvent) :
    IndexStepped sha256 digest config state event (state.step sha256 digest config event) := by
  have stay : ∀ call ∈ state.calls, ∃ old ∈ state.calls, old.charge = call.charge :=
    fun call member => ⟨call, member, rfl⟩
  have sent (id : Nat) : ∀ call ∈ (state.sentAgain id).calls,
      ∃ old ∈ state.calls, old.charge = call.charge := by
    intro call member
    dsimp only [sentAgain] at member
    rcases Table.mem_update_cases member with ⟨old, -⟩ | ⟨old, known, -, rfl⟩
    · exact ⟨call, old, rfl⟩
    · exact ⟨old, known, rfl⟩
  have gone (id : Nat) : ∀ call ∈ state.calls.delete (·.id == id),
      ∃ old ∈ state.calls, old.charge = call.charge :=
    fun call member => ⟨call, (Table.mem_delete.mp member).1, rfl⟩
  -- events of calls that are not in flight, or have no sending left, do nothing
  have idle : IndexStepped sha256 digest config state event state :=
    .moved event state.outcomes state.calls stay
  cases event with
  | tick elapsed => exact .ticked elapsed
  | check id call answers =>
    simp only [step]
    split
    · exact .moved _ _ _ stay
    next charge prepared =>
      split
      · exact idle
      next calls inserted => exact .checked id call answers charge prepared calls inserted
  | send id sending =>
    simp only [step]
    split
    · exact idle
    next call found =>
      have inFlight := (Table.lookup_eq_some.mp found).1
      split
      · exact idle
      cases sending with
      | failed => exact .moved _ _ _ (sent id)
      | unheard => exact .ran _ call inFlight false _ _ (sent id)
      | heard => exact .ran _ call inFlight true _ _ (gone call.id)
  | giveUp id =>
    simp only [step]
    split
    · exact idle
    · exact .moved _ _ _ (gone _)

end AcemcpRelay
