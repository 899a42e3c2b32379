import AcemcpRelay.QuotaTables
import AcemcpRelay.Wire.Base64

/-!
# The caches of limits

`getUserDailyLimit`, `getUserIndexBytesLimit` and `getOrgQuotaLimits` keep what they resolve
in Redis, as a text: a number, or for an organization both numbers and both pools. An entry
lives for `quotaCacheTTL`, and no longer than the subscription that was read for it.

A call takes no time here, and it finds the database as it is at its moment. Between calls
anything may be written to the tables, and any entry may be deleted, as the console does
after a payment.
-/
namespace AcemcpRelay

open Store

/-- `quotaCacheTTL`, five minutes. -/
def quotaCacheTTL : Nat := 5 * 60 * 1000

/-- The settings, which are numbers of 64 bits. -/
structure LimitSettings extends QuotaConfig where
  requestFits : ∀ tier, -2 ^ 63 ≤ toQuotaConfig.tierDailyRequestLimit tier ∧
    toQuotaConfig.tierDailyRequestLimit tier < 2 ^ 63
  indexBytesFits : ∀ tier, -2 ^ 63 ≤ toQuotaConfig.tierIndexBytesLimit tier ∧
    toQuotaConfig.tierIndexBytesLimit tier < 2 ^ 63

/-- Zero if the subscription is over. -/
def planCacheTTL (now expiresAt : Nat) : Nat := min (expiresAt - now) quotaCacheTTL

/-! ### Texts -/

/-- `base64.RawURLEncoding.EncodeToString` of the bytes of an identifier. -/
def encodePoolID (poolID : String) : List Char :=
  Wire.urlAlphabet.encode false poolID.toByteArray.data.toList

/-- Bytes that are no UTF-8 are nothing here. No identifier is written with such bytes. -/
def decodePoolID (text : List Char) : Option String :=
  (Wire.urlAlphabet.decode false false text).bind fun bytes => String.fromUTF8? ⟨⟨bytes⟩⟩

def formatOrgQuotaCache (limits : OrgQuotaLimits) : String :=
  String.ofList ("v3".toList ++ ',' :: ((toString limits.request).toList ++ ',' ::
    ((toString limits.indexBytes).toList ++ ',' ::
      (encodePoolID limits.requestPoolID ++ ',' :: encodePoolID limits.indexBytesPoolID))))

def parseOrgQuotaCache (value : String) : Option OrgQuotaLimits :=
  match splitOn ',' value.toList with
  | [version, request, indexBytes, requestPool, indexBytesPool] =>
    -- entries of older releases are read as misses
    if version ≠ "v3".toList then none
    else do
      let request ← parseInt64 request
      let indexBytes ← parseInt64 indexBytes
      let requestPoolID ← decodePoolID requestPool
      let indexBytesPoolID ← decodePoolID indexBytesPool
      -- an empty pool would be every organization's
      if requestPoolID = "" ∨ indexBytesPoolID = "" then none
      else
        some { request, requestSet := true, requestPoolID
               indexBytes, indexBytesSet := true, indexBytesPoolID }
  | _ => none

/-! ### Calls -/

inductive LimitCall where
  | getUserDailyLimit (userID tier : String)
  | getUserIndexBytesLimit (userID tier : String)
  | getOrgQuotaLimits (orgID : String)
  deriving DecidableEq, Repr

inductive LimitValue where
  | limit (value : Int)
  | org (limits : OrgQuotaLimits)
  deriving DecidableEq, Repr

abbrev LimitCache := Keys String String

/-- The text that is cached. -/
def LimitValue.format : LimitValue → String
  | .limit value => toString value
  | .org limits => formatOrgQuotaCache limits

namespace LimitCall

def cacheKey : LimitCall → String
  | getUserDailyLimit userID _ => "quota:limit:" ++ userID
  | getUserIndexBytesLimit userID _ => "quota:limit:indexbytes:" ++ userID
  | getOrgQuotaLimits orgID => "quota:limit:orgq:" ++ orgID

/-- What a cached text is to the call. -/
def parse (call : LimitCall) (text : String) : Option LimitValue :=
  match call with
  | getUserDailyLimit _ _ | getUserIndexBytesLimit _ _ =>
    (parseInt64 text.toList).map LimitValue.limit
  | getOrgQuotaLimits _ => (parseOrgQuotaCache text).map LimitValue.org

variable (config : QuotaConfig) (now : Nat) (tables : QuotaTables)

/-- What a call is told that finds nothing in the cache. -/
def answers : LimitCall → QuotaAnswers
  | getUserDailyLimit userID _ => tables.userAnswers now (·.dailyLimit) userID
  | getUserIndexBytesLimit userID _ => tables.userAnswers now (·.dailyIndexBytesLimit) userID
  | getOrgQuotaLimits orgID => tables.orgAnswers now orgID

/-- What the database makes of a call. -/
def resolve (call : LimitCall) : LimitValue :=
  match call with
  | getUserDailyLimit _ tier =>
    .limit (AcemcpRelay.getUserDailyLimit config (call.answers now tables) tier)
  | getUserIndexBytesLimit _ tier =>
    .limit (AcemcpRelay.getUserIndexBytesLimit config (call.answers now tables) tier)
  | getOrgQuotaLimits orgID =>
    .org (AcemcpRelay.getOrgQuotaLimits config (call.answers now tables) orgID)

/-- The active subscription that the call reads: it is not asked for if the limit is set, and
for an organization if both limits are. -/
def planRead : LimitCall → Option PlanSubscription
  | getUserDailyLimit userID _ =>
    if ((tables.userQuotas.lookup userID).bind (·.dailyLimit)).isSome then none
    else tables.activePlan now userID
  | getUserIndexBytesLimit userID _ =>
    if ((tables.userQuotas.lookup userID).bind (·.dailyIndexBytesLimit)).isSome then none
    else tables.activePlan now userID
  | getOrgQuotaLimits orgID =>
    if (tables.orgRequestLimit orgID).isSome ∧ (tables.orgIndexBytesLimit orgID).isSome then none
    else (tables.canonicalOwner orgID).bind fun owner => tables.activePlan now owner.userID

def cacheTTL (call : LimitCall) : Nat :=
  match call.planRead now tables with
  | none => quotaCacheTTL
  | some plan => planCacheTTL now plan.expiresAt

/-- The cached value, if there is one and the call can read it. -/
def cached (cache : LimitCache) (call : LimitCall) : Option LimitValue :=
  (cache.get now call.cacheKey).bind call.parse

end LimitCall

/-! ### Runs -/

/-- A call that went to the database, and what it found there. -/
structure Resolution where
  call : LimitCall
  time : Nat
  tables : QuotaTables

/-- A call that has returned. -/
structure LimitRead where
  call : LimitCall
  time : Nat
  value : LimitValue
  /-- The call itself, or after a hit the one that wrote the entry. -/
  source : Option Resolution

structure LimitState where
  clock : Nat
  tables : QuotaTables
  cache : LimitCache
  /-- Who wrote a key last. -/
  writers : String → Option Resolution
  reads : List LimitRead

inductive LimitEvent where
  | tick (elapsed : Nat)
  | change (tables : QuotaTables)
  | del (key : String)
  | call (call : LimitCall)

namespace Resolution

def value (config : QuotaConfig) (resolution : Resolution) : LimitValue :=
  resolution.call.resolve config resolution.time resolution.tables

def planRead (resolution : Resolution) : Option PlanSubscription :=
  resolution.call.planRead resolution.time resolution.tables

def cacheTTL (resolution : Resolution) : Nat :=
  resolution.call.cacheTTL resolution.time resolution.tables

end Resolution

namespace LimitState

variable (config : QuotaConfig)

/-- What a call resolved is cached, unless its time is over already. -/
def store (resolution : Resolution) (state : LimitState) : LimitState :=
  if 0 < resolution.cacheTTL then
    { state with
      cache := state.cache.setFor state.clock resolution.cacheTTL resolution.call.cacheKey
        (resolution.value config).format
      writers := Function.update state.writers resolution.call.cacheKey (some resolution) }
  else state

def step (state : LimitState) : LimitEvent → LimitState
  | .tick elapsed => { state with clock := state.clock + elapsed }
  | .change tables => { state with tables }
  | .del key => { state with cache := state.cache.del key }
  | .call call =>
    match call.cached state.clock state.cache with
    | some value =>
      -- the read is remembered with the resolution that has written the entry
      { state with reads := ⟨call, state.clock, value, state.writers call.cacheKey⟩ :: state.reads }
    | none =>
      let resolution : Resolution := ⟨call, state.clock, state.tables⟩
      { state.store config resolution with
        reads := ⟨call, state.clock, resolution.value config, some resolution⟩ :: state.reads }

def initial (clock : Nat) (tables : QuotaTables) : LimitState :=
  { clock, tables, cache := .none, writers := fun _ => none, reads := [] }

end LimitState

end AcemcpRelay
