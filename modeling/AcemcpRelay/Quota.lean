import AcemcpRelay.Authentication
import AcemcpRelay.Store.Expiring
import AcemcpRelay.Store.Resend

/-!
# Request quotas

Every request takes one from a daily counter, or from two: an organization may limit a
member, and the members share a pool, which is the organization's own or, if its quota is
inherited, that of its owner. Counters are in Redis. A script checks and charges
both at once; before it runs, the limits are read from a cache or from the database, so
that they may be old when it does. The client of Redis sends a request again whose reply has
been lost, and then the script runs again.

What the caches and the database answer to one call is in `QuotaAnswers`, and may be
anything: limits change at any time.
-/
namespace AcemcpRelay

open Store

/-! ### Limits -/

/-- The settings that quotas depend on. A limit that is not positive is no limit. -/
structure QuotaConfig where
  defaultDailyRequestLimit : Int
  proDailyRequestLimit : Int
  dailyIndexBytesLimit : Int
  proDailyIndexBytesLimit : Int
  /-- `quotaLocation`: the milliseconds that its zone is ahead of UTC. -/
  zoneOffset : Nat

def dayLength : Nat := 24 * 60 * 60 * 1000

/-- `48*time.Hour`, the time that a counter is given. -/
def quotaRetention : Nat := 2 * dayLength

namespace QuotaConfig

variable (config : QuotaConfig)

/-- The day of a time, in the zone of `quotaLocation`. -/
def day (now : Nat) : Nat := (now + config.zoneOffset) / dayLength

def tierDailyRequestLimit (tier : String) : Int :=
  if normalizeTier tier = "pro" then config.proDailyRequestLimit
  else config.defaultDailyRequestLimit

def tierIndexBytesLimit (tier : String) : Int :=
  if normalizeTier tier = "pro" then config.proDailyIndexBytesLimit
  else config.dailyIndexBytesLimit

end QuotaConfig

/-- `quotaRetryAfterHeader`: the seconds until the next day begins in the quota's zone. -/
def quotaRetryAfterHeader (config : QuotaConfig) (now : Nat) : String :=
  let remaining := dayLength - (now + config.zoneOffset) % dayLength
  toString (max ((remaining + 999) / 1000) 1)

structure PlanQuotaLimits where
  ownerID : String := ""
  request : Int := 0
  indexBytes : Int := 0
  found : Bool := false
  failed : Bool := false
  deriving DecidableEq, Repr

/-- The row of the query of `getOrgOwnerQuotaLimits`. -/
structure OwnerQuotaRow where
  ownerID : String
  requestOverride : Option Int
  indexBytesOverride : Option Int
  /-- Both limits of the active subscription. -/
  plan : Option (Int × Int)
  ownerTier : String
  deriving DecidableEq, Repr

structure OrgQuotaLimits where
  request : Int
  requestSet : Bool
  requestPoolID : String
  indexBytes : Int
  indexBytesSet : Bool
  indexBytesPoolID : String
  deriving DecidableEq, Repr

/-- What one call is told: by the caches, nothing if there is no entry that parses, and by
the database, an error or a row that may be missing. -/
structure QuotaAnswers where
  userLimit : Option Int := none
  userQuota : Except Unit (Option Int) := .ok none
  /-- `getUserPlanQuotaLimits`. -/
  userPlan : PlanQuotaLimits := {}
  /-- The cache also knows that a member has no row. -/
  memberLimit : Option (Option Int) := none
  memberQuota : Except Unit (Option Int) := .ok none
  orgLimits : Option OrgQuotaLimits := none
  orgQuota : Except Unit (Option (Option Int × Option Int)) := .ok none
  orgOwner : Except Unit (Option OwnerQuotaRow) := .ok none

section

variable (config : QuotaConfig)

/-- A limit of a user: the cached one, that of the row, of the plan, or of the tier. -/
def QuotaAnswers.userLimitOr (answers : QuotaAnswers) (ofTier : Int)
    (ofPlan : PlanQuotaLimits → Int) : Int :=
  match answers.userLimit with
  | some limit => limit
  | none =>
    match answers.userQuota with
    | .error () => ofTier
    | .ok (some limit) => limit
    -- the tier stands in for a plan that cannot be read as well as for one that is not there
    | .ok none => if answers.userPlan.failed then ofTier
      else if answers.userPlan.found then ofPlan answers.userPlan else ofTier

def getUserDailyLimit (answers : QuotaAnswers) (tier : String) : Int :=
  answers.userLimitOr (config.tierDailyRequestLimit tier) (·.request)

def getUserIndexBytesLimit (answers : QuotaAnswers) (tier : String) : Int :=
  answers.userLimitOr (config.tierIndexBytesLimit tier) (·.indexBytes)

def getMemberDailyLimit (answers : QuotaAnswers) : Except Unit (Option Int) :=
  match answers.memberLimit with
  | some cached => .ok cached
  | none => answers.memberQuota

def getOrgOwnerQuotaLimits (answers : QuotaAnswers) : PlanQuotaLimits :=
  match answers.orgOwner with
  | .error () => { failed := true }
  | .ok none => {}
  | .ok (some row) =>
    let ofTier := (config.tierDailyRequestLimit row.ownerTier, config.tierIndexBytesLimit row.ownerTier)
    -- an override takes the place of one number of the plan, not of the plan
    let limits := row.plan.getD ofTier
    { ownerID := row.ownerID
      request := row.requestOverride.getD limits.1
      indexBytes := row.indexBytesOverride.getD limits.2
      found := true }

def freeOrgQuotaLimits (orgID : String) : OrgQuotaLimits where
  request := config.tierDailyRequestLimit "free"
  requestSet := true
  requestPoolID := orgID
  indexBytes := config.tierIndexBytesLimit "free"
  indexBytesSet := true
  indexBytesPoolID := orgID

/-- `getOrgQuotaLimits` without a cached value, after the row of the organization: what is
not set there comes from the owner. -/
def inheritOrgQuotaLimits (answers : QuotaAnswers) (orgID : String)
    (requestLimit bytesLimit : Option Int) : OrgQuotaLimits :=
  let owner := getOrgOwnerQuotaLimits config answers
  let ownerRequest := if owner.found then owner.request else config.tierDailyRequestLimit "free"
  let ownerIndexBytes := if owner.found then owner.indexBytes else config.tierIndexBytesLimit "free"
  -- after an error of the query the pool stays that of the organization
  let ownerPool := if owner.ownerID ≠ "" then owner.ownerID else orgID
  { request := requestLimit.getD ownerRequest
    requestSet := true
    requestPoolID := if requestLimit.isSome then orgID else ownerPool
    indexBytes := bytesLimit.getD ownerIndexBytes
    indexBytesSet := true
    indexBytesPoolID := if bytesLimit.isSome then orgID else ownerPool }

def getOrgQuotaLimits (answers : QuotaAnswers) (orgID : String) : OrgQuotaLimits :=
  match answers.orgLimits with
  | some cached => cached
  | none =>
    match answers.orgQuota with
    | .error () => freeOrgQuotaLimits config orgID
    | .ok row => inheritOrgQuotaLimits config answers orgID (row.bind (·.1)) (row.bind (·.2))

end

/-! ### The script -/

/-- The key of a daily counter. Its text is the name, a colon and the eight digits of the
date, so that the text determines both. -/
structure QuotaKey where
  name : String
  day : Nat
  deriving DecidableEq, Repr

abbrev Counters := Keys QuotaKey Int

/-- The arguments of `reserveRequestQuota`. -/
structure Reservation where
  memberKey : QuotaKey
  memberLimit : Int
  poolKey : QuotaKey
  poolLimit : Int
  deriving DecidableEq, Repr

/-- What `reserveRequestQuotaScript` returns. -/
structure ReservationReply where
  allowed : Bool
  used : Int
  limit : Int
  scope : Nat
  deriving DecidableEq, Repr

/-- `INCR`, and `EXPIRE` for a new counter. -/
def Counters.incr (now : Nat) (counters : Counters) (key : QuotaKey) : Int × Counters :=
  let counted := counters.incrBy now key 1
  let used := counted.counter now key
  (used, if used = 1 then counted.expire now quotaRetention key else counted)

def reserveRequestQuotaScript (now : Nat) (reservation : Reservation) (counters : Counters) :
    ReservationReply × Counters :=
  let { memberKey, memberLimit, poolKey, poolLimit } := reservation
  let memberUsed := counters.counter now memberKey
  let poolUsed := counters.counter now poolKey
  -- both counters are looked at before either is written
  if 0 < memberLimit ∧ memberLimit ≤ memberUsed then (⟨false, memberUsed, memberLimit, 1⟩, counters)
  else if 0 < poolLimit ∧ poolLimit ≤ poolUsed then (⟨false, poolUsed, poolLimit, 2⟩, counters)
  else
    let (memberUsed, counters) :=
      if 0 < memberLimit then counters.incr now memberKey else (0, counters)
    let (poolUsed, counters) := if 0 < poolLimit then counters.incr now poolKey else (0, counters)
    -- the reply reports the pool, if it is limited
    (if 0 < poolLimit then ⟨true, poolUsed, poolLimit, 2⟩
      else if 0 < memberLimit then ⟨true, memberUsed, memberLimit, 1⟩ else ⟨true, 0, 0, 0⟩, counters)

/-! ### `checkRequestQuotaDetailed` -/

structure RequestQuotaDecision where
  allowed : Bool := false
  unavailable : Bool := false
  used : Int := 0
  limit : Int := 0
  scope : String := ""
  deriving DecidableEq, Repr

/-- `MaxRetries`, which `initRedis` leaves at the default of the client. -/
def redisMaxRetries : Nat := 3

/-- `redisClient.Eval`: nothing if it returns an error. The client sends a request again after
an error of the connection. -/
def redisEval {State Reply : Type} (script : State → Reply × State) (sendings : List Sending)
    (state : State) : Option Reply × State :=
  resend script (sendings.take (redisMaxRetries + 1)) state

def ReservationReply.decision (reply : ReservationReply) (reservation : Reservation) :
    RequestQuotaDecision where
  allowed := reply.allowed
  used := reply.used
  limit := reply.limit
  scope :=
    -- one key for both is the personal case, whatever the script calls it
    if reply.scope = 1 ∧ reservation.poolKey ≠ reservation.memberKey then "member"
    else if reply.scope = 2 ∧ reservation.poolKey ≠ reservation.memberKey then "organization"
    else "personal"

/-- What becomes of the reply of the script, if there is one. -/
def Reservation.decision (reservation : Reservation) : Option ReservationReply → RequestQuotaDecision
  | none => { unavailable := true }
  | some reply => reply.decision reservation

/-- Neither counter has a limit. -/
def Reservation.unlimited (reservation : Reservation) : Bool :=
  reservation.memberLimit ≤ 0 && reservation.poolLimit ≤ 0

def reserveRequestQuota (now : Nat) (reservation : Reservation) (sendings : List Sending)
    (counters : Counters) : RequestQuotaDecision × Counters :=
  if reservation.unlimited then ({ allowed := true }, counters)
  else
    let (reply, after) := redisEval (reserveRequestQuotaScript now reservation) sendings counters
    (reservation.decision reply, after)

/-- `checkRequestQuotaDetailed` up to the reservation; nothing if the limit of a member
cannot be read. -/
def requestReservation (config : QuotaConfig) (day : Nat) (answers : QuotaAnswers)
    (userID orgID tier : String) : Option Reservation :=
  if orgID = "" then
    let key : QuotaKey := { name := "quota:used:" ++ userID, day }
    -- a user without an organization is a pool of one
    some { memberKey := key, memberLimit := 0, poolKey := key
           poolLimit := getUserDailyLimit config answers tier }
  else
    match getMemberDailyLimit answers with
    | .error () => none
    | .ok configured =>
      let limits := getOrgQuotaLimits config answers orgID
      some
        { memberKey := { name := "quota:used:org:" ++ orgID ++ ":" ++ userID, day }
          memberLimit := configured.getD 0
          poolKey :=
            { name := "quota:used:" ++ if limits.requestPoolID ≠ "" then limits.requestPoolID else orgID
              day }
          poolLimit := if limits.requestSet then limits.request
            else config.tierDailyRequestLimit "free" }

/-! ### Calls in flight -/

/-- A call that has read its limits, and how often its request can still be sent. -/
structure QuotaCall where
  id : Nat
  reservation : Reservation
  left : Nat := redisMaxRetries + 1
  deriving DecidableEq, Repr

/-- A call that has ended. -/
structure QuotaOutcome where
  /-- Nothing if the limits could not be read. -/
  reservation : Option Reservation
  decision : RequestQuotaDecision
  deriving DecidableEq, Repr

/-- One run of the script. -/
structure QuotaRun where
  reservation : Reservation
  reply : ReservationReply
  /-- The reply has reached the call. -/
  heard : Bool
  deriving DecidableEq, Repr

structure QuotaState where
  clock : Nat
  counters : Counters
  calls : Table QuotaCall.id
  /-- The calls that have ended, the last one first. -/
  outcomes : List QuotaOutcome
  /-- The runs of the script, the last one first. -/
  runs : List QuotaRun

inductive QuotaEvent where
  | tick (elapsed : Nat)
  /-- A call takes the day and reads its limits. -/
  | check (id : Nat) (userID orgID tier : String) (answers : QuotaAnswers)
  /-- Its request is sent to Redis, perhaps once more. -/
  | send (id : Nat) (sending : Sending)
  /-- The client returns the error of the last sending. -/
  | giveUp (id : Nat)

namespace QuotaState

/-- The script of the call runs. -/
def run (state : QuotaState) (call : QuotaCall) (heard : Bool) : QuotaState :=
  let (reply, counters) :=
    reserveRequestQuotaScript state.clock call.reservation state.counters
  { state with counters, runs := ⟨call.reservation, reply, heard⟩ :: state.runs }

/-- The request of the call has been sent once more without an answer. -/
def sentAgain (state : QuotaState) (id : Nat) : QuotaState :=
  { state with
    calls := state.calls.update (·.id == id) (fun call => { call with left := call.left - 1 }) }

/-- The call ends. -/
def finish (state : QuotaState) (call : QuotaCall) (reply : Option ReservationReply) : QuotaState :=
  { state with
    calls := state.calls.delete (·.id == call.id)
    outcomes := ⟨some call.reservation, call.reservation.decision reply⟩ :: state.outcomes }

def step (config : QuotaConfig) (state : QuotaState) : QuotaEvent → QuotaState
  | .tick elapsed => { state with clock := state.clock + elapsed }
  | .check id userID orgID tier answers =>
    match requestReservation config (config.day state.clock) answers userID orgID tier with
    -- the member limit could not be read: the call fails closed, before any script
    | none => { state with outcomes := ⟨none, { unavailable := true }⟩ :: state.outcomes }
    | some reservation =>
      if reservation.unlimited then
        { state with outcomes := ⟨some reservation, { allowed := true }⟩ :: state.outcomes }
      else
        match state.calls.insert [{ id, reservation }] with
        | none => state
        | some calls => { state with calls }
  | .send id sending =>
    match state.calls.lookup id with
    | none => state
    | some call =>
      -- the client does not send more often than its retries allow
      if call.left = 0 then state
      else
        match sending with
        | .failed => state.sentAgain id
        | .unheard => (state.run call false).sentAgain id
        | .heard =>
          (state.run call true).finish call
            (some (reserveRequestQuotaScript state.clock call.reservation state.counters).1)
  | .giveUp id =>
    match state.calls.lookup id with
    | none => state
    | some call => state.finish call none

def initial (clock : Nat) : QuotaState :=
  { clock, counters := .none, calls := .empty, outcomes := [], runs := [] }

end QuotaState

end AcemcpRelay
