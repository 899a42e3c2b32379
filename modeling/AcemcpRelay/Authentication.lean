import AcemcpRelay.Store.Table
import AcemcpRelay.Text
import Mathlib.Data.List.Dedup
import Mathlib.Data.List.Sort

/-!
# Authentication

`authenticateRequest` and what it calls: the key of a bearer token, the membership and
seats behind an organization key, and the cache of keys. A key found in the database is
good for thirty seconds, one not found stays unknown for five; what an organization
allows is asked on every request.
-/
namespace AcemcpRelay

open Store

/-- A row of `api_keys`, written by the console. -/
structure ApiKey where
  id : String
  userID : String
  tier : String
  orgID : Option String
  deriving DecidableEq, Repr

/-- A row of `member`. -/
structure Member where
  id : String
  organizationID : String
  userID : String
  role : Option String
  createdAt : Nat
  deriving DecidableEq, Repr

/-- A row of `user_subscriptions`, as far as seats go. -/
structure UserSubscription where
  userID : String
  subaccountLimit : Nat
  startsAt : Nat
  expiresAt : Nat
  deriving DecidableEq, Repr

structure AuthTables where
  apiKeys : Table ApiKey.id
  members : Table Member.id
  /-- The identifiers in `organization`. -/
  organizations : List String
  subscriptions : Table UserSubscription.userID
  /-- The white space of the database's regular expressions. -/
  space : SpaceClass := .posix

structure AuthIdentity where
  userID : String
  tier : String
  /-- Empty for a personal key. -/
  orgID : String
  orgRole : String
  deriving DecidableEq, Repr

def AuthIdentity.tenantID (identity : AuthIdentity) : String :=
  if identity.orgID ≠ "" then identity.orgID else identity.userID

def normalizeTier (tier : String) : String := if trimSpace tier = "pro" then "pro" else "free"

def normalizeOrgRole (role orgID : String) : String :=
  if trimSpace orgID = "" then ""
  else if (splitOn ',' role.toList).any (fun part => trimSpace (String.ofList part) == "owner") then
    "owner"
  else "member"

/-! ### Keys and organizations -/

/-- The parts of a role list, the first of which has been read up to a comma. -/
def splitRolesFrom (space : SpaceClass) (part : List Char) : List (List Char) → List (List Char)
  | [] => [part]
  | next :: rest => (part.reverse.dropWhile space.isSpace).reverse ::
    splitRolesFrom space (next.dropWhile space.isSpace) rest

/-- `regexp_split_to_array(role, '\s*,\s*')`: the blanks next to a comma go with it. -/
def splitRoles (space : SpaceClass) (role : String) : List (List Char) :=
  match splitOn ',' role.toList with
  | [] => []
  | first :: rest => splitRolesFrom space first rest

namespace Member

/-- `'owner' = ANY(regexp_split_to_array(COALESCE(role, ''), '\s*,\s*'))`. -/
def owns (space : SpaceClass) (member : Member) : Bool :=
  (splitRoles space (member.role.getD "")).contains "owner".toList

/-- `ORDER BY "createdAt", id`. -/
def notLater (a b : Member) : Prop :=
  a.createdAt < b.createdAt ∨ (a.createdAt = b.createdAt ∧ a.id ≤ b.id)

instance : DecidableRel notLater := fun a b =>
  inferInstanceAs (Decidable (a.createdAt < b.createdAt ∨ (a.createdAt = b.createdAt ∧ a.id ≤ b.id)))

end Member

namespace AuthTables

variable (md5 sha256 : String → String)

/-- `lookupAPIKey`. -/
def lookupAPIKey (token : String) (tables : AuthTables) : Option AuthIdentity :=
  match tables.apiKeys.select fun key => key.id == md5 token || key.id == sha256 token with
  | [] => none
  | key :: _ =>
    -- a key without a user authenticates nobody
    if trimSpace key.userID = "" then none
    else some
      { userID := trimSpace key.userID, tier := normalizeTier key.tier
        orgID := trimSpace (key.orgID.getD ""), orgRole := "" }

/-- `target_membership`. -/
def targetMembership (orgID userID : String) (tables : AuthTables) : Option Member :=
  ((tables.members.select fun member =>
      member.organizationID == orgID && member.userID == userID &&
        tables.organizations.contains member.organizationID).insertionSort Member.notLater).head?

/-- `target_owner`: the earliest owner. -/
def targetOwner (orgID : String) (tables : AuthTables) : Option Member :=
  ((tables.members.select fun member => member.organizationID == orgID && member.owns tables.space
    ).insertionSort Member.notLater).head?

/-- `owned_organizations`: those in which the user is the earliest owner. -/
def ownedOrganizations (ownerID : String) (tables : AuthTables) : List String :=
  (tables.members.select fun member => member.userID == ownerID && member.owns tables.space &&
    !tables.members.holds fun earlier => earlier.organizationID == member.organizationID &&
      earlier.owns tables.space && !decide (member.notLater earlier)).map (·.organizationID)

/-- `seat_usage`. -/
def seatUsage (ownerID : String) (tables : AuthTables) : Nat :=
  ((tables.members.select fun member =>
    (tables.ownedOrganizations ownerID).contains member.organizationID && member.userID != ownerID
    ).map (·.userID)).dedup.length

/-- `active_entitlement`. -/
def activeEntitlement (now : Nat) (ownerID : String) (tables : AuthTables) : Nat :=
  match tables.subscriptions.lookup ownerID with
  | some row => if row.startsAt ≤ now ∧ now < row.expiresAt then row.subaccountLimit else 0
  | none => 0

/-- `authorizeOrganizationIdentity` at database time `now`; `none` is a refusal. -/
def authorizeOrganizationIdentity (now : Nat) (identity : AuthIdentity) (tables : AuthTables) :
    Option AuthIdentity :=
  if identity.orgID = "" then some { identity with orgRole := "" }
  else
    let member := tables.targetMembership identity.orgID identity.userID
    let owner := tables.targetOwner identity.orgID
    let currentRole := trimSpace ((member.bind (·.role)).getD "")
    let ownerUserID := trimSpace ((owner.map (·.userID)).getD "")
    -- seats are the owner's entitlement over all their organizations
    let seatLimit := ((owner.map (·.userID)).map (tables.activeEntitlement now ·)).getD 0
    let usedSeats := ((owner.map (·.userID)).map (tables.seatUsage ·)).getD 0
    let authorized := { identity with orgRole := normalizeOrgRole currentRole identity.orgID }
    if currentRole = "" ∨ ownerUserID = "" then none
    -- the owner needs no seat
    else if identity.userID = ownerUserID then some authorized
    else if seatLimit ≤ 0 ∨ seatLimit < usedSeats then none
    else some authorized

end AuthTables

/-! ### The cache -/

def authCachePositiveTTL : Nat := 30 * 1000

def authCacheNegativeTTL : Nat := 5 * 1000

def authCacheMaxEntries : Nat := 10000

/-- An entry says which key a token has, or that it has none. -/
structure AuthCacheEntry where
  key : String
  identity : Option AuthIdentity
  expiresAt : Nat
  deriving DecidableEq, Repr

abbrev AuthCache := Table AuthCacheEntry.key

def authCacheGet (key : String) (now : Nat) (cache : AuthCache) : Option AuthCacheEntry :=
  (cache.lookup key).filter fun entry => decide (now ≤ entry.expiresAt)

/-- `authCachePut`. A full cache is cleared of what has expired; if that does not make
room, the entry is not stored. -/
def authCachePut (now : Nat) (entry : AuthCacheEntry) (cache : AuthCache) : AuthCache :=
  if (cache.lookup entry.key).isNone ∧ authCacheMaxEntries ≤ cache.rows.length then
    let remaining := cache.delete fun old => decide (old.expiresAt < now)
    if authCacheMaxEntries ≤ remaining.rows.length then remaining else remaining.put entry
  else cache.put entry

/-! ### Requests in flight -/

inductive AuthDecision where
  | accepted (identity : AuthIdentity)
  /-- The cache says that there is no such key; nothing else was asked. -/
  | unknown
  | refused
  /-- A query failed. -/
  | unavailable
  deriving DecidableEq, Repr

/-- Where a request stands in `authenticateRequest`. -/
inductive AuthPoint where
  | consult
  | lookup
  | store (found : Option AuthIdentity)
  | authorize (identity : AuthIdentity)
  | decided (decision : AuthDecision) (time : Nat)
  deriving DecidableEq, Repr

structure AuthRequest where
  id : Nat
  token : String
  /-- The time that the request reads at its beginning. -/
  began : Nat
  point : AuthPoint
  deriving DecidableEq, Repr

structure AuthState where
  clock : Nat
  tables : AuthTables
  cache : AuthCache
  requests : Table AuthRequest.id

inductive AuthEvent where
  | tick (elapsed : Nat)
  /-- Others write keys, members, organizations and subscriptions. -/
  | change (tables : AuthTables)
  | arrive (id : Nat) (token : String)
  /-- A request goes on; the query it makes, if it makes one, may fail. -/
  | advance (id : Nat) (failed : Bool)

namespace AuthState

variable (md5 sha256 : String → String)

/-- The next point of a request, and the cache after its step. -/
def proceed (state : AuthState) (failed : Bool) (request : AuthRequest) : AuthPoint × AuthCache :=
  match request.point with
  | .consult =>
    match authCacheGet (sha256 request.token) request.began state.cache with
    | none => (.lookup, state.cache)
    | some entry =>
      match entry.identity with
      | none => (.decided .unknown state.clock, state.cache)
      | some identity => (.authorize identity, state.cache)
  | .lookup =>
    if failed then (.decided .unavailable state.clock, state.cache)
    else (.store (state.tables.lookupAPIKey md5 sha256 request.token), state.cache)
  | .store found =>
    let ttl := if found.isSome then authCachePositiveTTL else authCacheNegativeTTL
    let entry : AuthCacheEntry :=
      { key := sha256 request.token, identity := found, expiresAt := request.began + ttl }
    (match found with
      | none => .decided .refused state.clock
      | some identity => .authorize identity,
      authCachePut state.clock entry state.cache)
  | .authorize identity =>
    -- a personal key needs no query
    if identity.orgID ≠ "" ∧ failed = true then (.decided .unavailable state.clock, state.cache)
    else match state.tables.authorizeOrganizationIdentity state.clock identity with
      | none => (.decided .refused state.clock, state.cache)
      | some identity => (.decided (.accepted identity) state.clock, state.cache)
  | .decided decision time => (.decided decision time, state.cache)

def step (state : AuthState) : AuthEvent → AuthState
  | .tick elapsed => { state with clock := state.clock + elapsed }
  | .change tables => { state with tables }
  | .arrive id token =>
    match state.requests.insert [{ id, token, began := state.clock, point := .consult }] with
    | some requests => { state with requests }
    | none => state
  | .advance id failed =>
    match state.requests.lookup id with
    | none => state
    | some request =>
      -- the tables are read when the request gets there, not when it arrived
      let (point, cache) := state.proceed md5 sha256 failed request
      { state with
        cache
        requests := state.requests.update (·.id == id) (fun request => { request with point }) }

/-- No request has been made yet. -/
def initial (clock : Nat) (tables : AuthTables) : AuthState :=
  { clock, tables, cache := .empty, requests := .empty }

end AuthState

example : (splitRoles .posix "member , owner").contains "owner".toList = true := by decide

example : normalizeOrgRole "admin, owner" "org" = "owner" := by decide

end AcemcpRelay
