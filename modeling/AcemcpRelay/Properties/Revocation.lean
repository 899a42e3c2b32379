import AcemcpRelay.Authentication
import AcemcpRelay.Store.Transition

/-!
# Revocation

Requests with one token run side by side: their lookups may finish in another order
than they began, and each stores what it has found. An entry of the cache carries the
time at which the request that stored it began, and that request asked the database
later; so however entries overwrite each other, each of them tells of an instant
that is not too long ago.

## Proof strategy

The run is logged. `AuthEvidence` says which logged state stands behind each entry of the
cache and behind each request, by the point it has reached.
-/
namespace AcemcpRelay

open Store

section

variable (md5 sha256 : String → String) (token : String)

/-- The row is under one of the two hashes of the token. -/
def ApiKey.isOf (key : ApiKey) : Prop := key.id = md5 token ∨ key.id = sha256 token

/-- There is a key row for the token, with that user and organization. -/
def KeyStored (userID orgID : String) (tables : AuthTables) : Prop :=
  ∃ key ∈ tables.apiKeys, key.isOf md5 sha256 token ∧ trimSpace key.userID = userID ∧
    trimSpace (key.orgID.getD "") = orgID

/-- There is no key row for the token, or one that names no user. -/
def KeyMissing (tables : AuthTables) : Prop :=
  (∀ key ∈ tables.apiKeys, ¬ key.isOf md5 sha256 token) ∨
    ∃ key ∈ tables.apiKeys, key.isOf md5 sha256 token ∧ trimSpace key.userID = ""

end

/-- The user is a member of the organization, and its earliest owner or one of no more
users than the owner's subscription has seats for. -/
def SeatGranted (now : Nat) (orgID userID : String) (tables : AuthTables) : Prop :=
  (∃ member ∈ tables.members, member.organizationID = orgID ∧ member.userID = userID) ∧
  ∃ owner, tables.targetOwner orgID = some owner ∧
    (trimSpace owner.userID = userID ∨
      ∃ row ∈ tables.subscriptions, row.userID = owner.userID ∧ row.startsAt ≤ now ∧
        now < row.expiresAt ∧ 0 < row.subaccountLimit ∧
        tables.seatUsage owner.userID ≤ row.subaccountLimit)

/-! ### The two queries -/

section Queries

variable {md5 sha256 : String → String} {token : String} {tables : AuthTables}
  {identity authorized : AuthIdentity}

theorem keyStored_of_lookup (found : tables.lookupAPIKey md5 sha256 token = some identity) :
    KeyStored md5 sha256 token identity.userID identity.orgID tables := by
  unfold AuthTables.lookupAPIKey at found
  split at found
  · cases found
  next key others listed =>
    obtain ⟨stored, matching⟩ := Table.mem_select.mp (listed ▸ List.mem_cons_self : key ∈
      tables.apiKeys.select fun key => key.id == md5 token || key.id == sha256 token)
    split at found
    · cases found
    · cases found
      exact ⟨key, stored, by simpa [ApiKey.isOf] using matching, rfl, rfl⟩

theorem keyMissing_of_lookup (missing : tables.lookupAPIKey md5 sha256 token = none) :
    KeyMissing md5 sha256 token tables := by
  unfold AuthTables.lookupAPIKey at missing
  split at missing
  next none =>
    refine .inl fun key stored isOf => ?_
    have listed : key ∈ tables.apiKeys.select (fun key =>
        key.id == md5 token || key.id == sha256 token) :=
      Table.mem_select.mpr ⟨stored, by simpa [ApiKey.isOf] using isOf⟩
    rw [none] at listed
    cases listed
  next key others listed =>
    obtain ⟨stored, matching⟩ := Table.mem_select.mp (listed ▸ List.mem_cons_self : key ∈
      tables.apiKeys.select fun key => key.id == md5 token || key.id == sha256 token)
    split at missing
    next blank => exact .inr ⟨key, stored, by simpa [ApiKey.isOf] using matching, blank⟩
    · cases missing

theorem mem_of_targetMembership {orgID userID : String} {member : Member}
    (found : tables.targetMembership orgID userID = some member) :
    member ∈ tables.members ∧ member.organizationID = orgID ∧ member.userID = userID := by
  have listed := List.mem_of_mem_head? (Option.mem_def.mpr found)
  rw [List.mem_insertionSort, Table.mem_select] at listed
  simp only [Bool.and_eq_true, beq_iff_eq] at listed
  exact ⟨listed.1, listed.2.1.1, listed.2.1.2⟩

theorem entitlement_pos {now : Nat} {ownerID : String}
    (positive : 0 < tables.activeEntitlement now ownerID) :
    ∃ row ∈ tables.subscriptions, row.userID = ownerID ∧ row.startsAt ≤ now ∧ now < row.expiresAt ∧
      row.subaccountLimit = tables.activeEntitlement now ownerID := by
  unfold AuthTables.activeEntitlement at positive ⊢
  split at positive
  next row found =>
    obtain ⟨stored, same⟩ := Table.lookup_eq_some.mp found
    split at positive
    next active => exact ⟨row, stored, same, active.1, active.2, by simp [active]⟩
    · cases positive
  · cases positive

/-- What an acceptance says about the organization at that time. -/
theorem seatGranted_of_authorize {now : Nat}
    (accepted : tables.authorizeOrganizationIdentity now identity = some authorized) :
    authorized.userID = identity.userID ∧ authorized.orgID = identity.orgID ∧
      (identity.orgID ≠ "" → SeatGranted now identity.orgID identity.userID tables) := by
  unfold AuthTables.authorizeOrganizationIdentity at accepted
  split at accepted
  next personal =>
    cases accepted
    exact ⟨rfl, rfl, fun organization => absurd personal organization⟩
  next organization =>
    simp only at accepted
    split at accepted
    · cases accepted
    next known =>
      rw [not_or] at known
      -- both texts are there, so both rows are
      obtain ⟨role, owned⟩ := known
      have membership : ∃ member ∈ tables.members, member.organizationID = identity.orgID ∧
          member.userID = identity.userID := by
        cases found : tables.targetMembership identity.orgID identity.userID with
        | none => exact absurd (by rw [found]; decide) role
        | some member => exact ⟨member, mem_of_targetMembership found⟩
      cases found : tables.targetOwner identity.orgID with
      | none => exact absurd (by rw [found]; decide) owned
      | some owner =>
        rw [found] at accepted
        simp only [Option.map_some, Option.getD_some] at accepted
        split at accepted
        next same =>
          cases accepted
          exact ⟨rfl, rfl, fun _ => ⟨membership, owner, found, .inl same.symm⟩⟩
        · split at accepted
          · cases accepted
          next seats =>
            cases accepted
            rw [not_or] at seats
            obtain ⟨row, stored, mine, starts, expires, limit⟩ :=
              entitlement_pos (Nat.not_le.mp seats.1)
            refine ⟨rfl, rfl, fun _ => ⟨membership, owner, found, .inr ⟨row, stored, mine, starts,
              expires, ?_, ?_⟩⟩⟩ <;> rw [limit] <;> omega

end Queries

/-! ### The cache -/

section Cache

variable {cache : AuthCache} {entry stored : AuthCacheEntry} {now : Nat}

theorem mem_authCachePut (member : stored ∈ authCachePut now entry cache) :
    stored = entry ∨ stored ∈ cache := by
  unfold authCachePut at member
  split at member
  · dsimp only at member
    split at member
    · exact .inr (Table.mem_delete.mp member).1
    · rcases Table.mem_put.mp member with same | ⟨kept, -⟩
      · exact .inl same
      · exact .inr (Table.mem_delete.mp kept).1
  · exact (Table.mem_put.mp member).imp_right And.left

theorem length_put_le (cache : AuthCache) (entry : AuthCacheEntry) :
    (cache.put entry).rows.length ≤ cache.rows.length + 1 :=
  Nat.succ_le_succ (List.length_filter_le _ _)

/-- Storing an entry under a key that is there does not lengthen the cache. -/
theorem length_put_le_of_stored {old : AuthCacheEntry} (found : old ∈ cache)
    (same : old.key = entry.key) : (cache.put entry).rows.length ≤ cache.rows.length :=
  Nat.succ_le_of_lt (List.length_filter_lt_length_iff_exists.mpr ⟨old, found, by simp [same]⟩)

theorem length_authCachePut (bounded : cache.rows.length ≤ authCacheMaxEntries) :
    (authCachePut now entry cache).rows.length ≤ authCacheMaxEntries := by
  unfold authCachePut
  split
  · dsimp only
    split
    · exact (List.length_filter_le _ _).trans bounded
    next room => exact (length_put_le _ _).trans (Nat.not_le.mp room)
  next room =>
    rw [not_and_or] at room
    rcases room with known | room
    · rw [Option.isNone_iff_eq_none] at known
      obtain ⟨old, found⟩ := Option.ne_none_iff_exists'.mp known
      obtain ⟨member, same⟩ := Table.lookup_eq_some.mp found
      exact (length_put_le_of_stored member same).trans bounded
    · exact (length_put_le _ _).trans (Nat.not_le.mp room)

theorem authCacheGet_eq_some {key : String}
    (hit : authCacheGet key now cache = some entry) :
    entry ∈ cache ∧ entry.key = key ∧ now ≤ entry.expiresAt := by
  unfold authCacheGet at hit
  rw [Option.filter_eq_some_iff] at hit
  obtain ⟨member, same⟩ := Table.lookup_eq_some.mp hit.1
  exact ⟨member, same, by simpa using hit.2⟩

end Cache

/-! ### Evidence -/

section Evidence

variable (md5 sha256 : String → String) (token : String)

/-- An entry tells of an earlier state, not longer ago than it may live. -/
def AuthCacheEntry.Backed (past : List AuthState) (entry : AuthCacheEntry) : Prop :=
  match entry.identity with
  | some identity => ∃ state ∈ past, entry.expiresAt ≤ state.clock + authCachePositiveTTL ∧
    KeyStored md5 sha256 token identity.userID identity.orgID state.tables
  | none => ∃ state ∈ past, entry.expiresAt ≤ state.clock + authCacheNegativeTTL ∧
    KeyMissing md5 sha256 token state.tables

/-- What the states before say about a request, by the point it has reached. -/
def AuthPoint.Backed (past : List AuthState) (id began : Nat) : AuthPoint → Prop
  | .consult | .lookup => True
  | .store (some identity) => ∃ state ∈ past, began ≤ state.clock ∧
    KeyStored md5 sha256 token identity.userID identity.orgID state.tables
  | .store none => ∃ state ∈ past, began ≤ state.clock ∧ KeyMissing md5 sha256 token state.tables
  | .authorize identity => ∃ state ∈ past, began ≤ state.clock + authCachePositiveTTL ∧
    KeyStored md5 sha256 token identity.userID identity.orgID state.tables
  | .decided (.accepted identity) time =>
    (∃ state ∈ past, began ≤ state.clock + authCachePositiveTTL ∧ state.clock ≤ time ∧
      KeyStored md5 sha256 token identity.userID identity.orgID state.tables) ∧
    (identity.orgID ≠ "" → ∃ state ∈ past, (∃ request ∈ state.requests, request.id = id) ∧
      began ≤ state.clock ∧ state.clock ≤ time ∧
      SeatGranted state.clock identity.orgID identity.userID state.tables)
  | .decided .unknown time => ∃ state ∈ past, began ≤ state.clock + authCacheNegativeTTL ∧
    state.clock ≤ time ∧ KeyMissing md5 sha256 token state.tables
  | .decided _ _ => True

structure AuthEvidence (log : Logged AuthState) : Prop where
  clocks : ∀ state ∈ log.past, state.clock ≤ log.current.clock
  began : ∀ request ∈ log.current.requests, request.began ≤ log.current.clock
  alone : ∀ request ∈ log.current.requests, sha256 request.token = sha256 token →
    request.token = token
  entries : ∀ entry ∈ log.current.cache, entry.key = sha256 token →
    entry.Backed md5 sha256 token log.past
  requests : ∀ request ∈ log.current.requests, request.token = token →
    request.point.Backed md5 sha256 token log.past request.id request.began

/-- No other token of the run has the same cache key. -/
def AuthEvent.Alone : AuthEvent → Prop
  | .arrive _ other => sha256 other = sha256 token → other = token
  | _ => True

variable {md5 sha256 token}

theorem AuthCacheEntry.Backed.later {past : List AuthState} {entry : AuthCacheEntry}
    (backed : entry.Backed md5 sha256 token past) (state : AuthState) :
    entry.Backed md5 sha256 token (state :: past) := by
  unfold AuthCacheEntry.Backed at backed ⊢
  split at backed <;>
    exact backed.imp fun earlier => .imp_left (List.mem_cons_of_mem _)

theorem AuthPoint.Backed.later {past : List AuthState} {id began : Nat} {point : AuthPoint}
    (backed : point.Backed md5 sha256 token past id began) (state : AuthState) :
    point.Backed md5 sha256 token (state :: past) id began := by
  cases point with
  | consult | lookup => trivial
  | store found => cases found <;> exact backed.imp fun earlier => .imp_left (List.mem_cons_of_mem _)
  | authorize => exact backed.imp fun earlier => .imp_left (List.mem_cons_of_mem _)
  | decided decision =>
    cases decision with
    | accepted =>
      refine ⟨backed.1.imp fun earlier => .imp_left (List.mem_cons_of_mem _), fun organization => ?_⟩
      exact (backed.2 organization).imp fun earlier => .imp_left (List.mem_cons_of_mem _)
    | unknown => exact backed.imp fun earlier => .imp_left (List.mem_cons_of_mem _)
    | refused | unavailable => trivial

namespace AuthEvidence

variable {log : Logged AuthState}

/-- The point that a request reaches. -/
theorem point_backed (evidence : AuthEvidence md5 sha256 token log) {request : AuthRequest}
    (inFlight : request ∈ log.current.requests) (same : request.token = token) (failed : Bool) :
    (log.current.proceed md5 sha256 failed request).1.Backed md5 sha256 token
      (log.current :: log.past) request.id request.began := by
  have known := evidence.requests request inFlight same
  have began := evidence.began request inFlight
  have here : log.current ∈ log.current :: log.past := List.mem_cons_self
  unfold AuthState.proceed
  split
  next =>
    split
    · trivial
    next entry hit =>
      obtain ⟨member, key, live⟩ := authCacheGet_eq_some hit
      rw [same] at key
      have backed := evidence.entries entry member key
      unfold AuthCacheEntry.Backed at backed
      -- the entry is younger than its time to live
      split
      next none =>
        rw [none] at backed
        obtain ⟨state, passed, young, missing⟩ := backed
        exact ⟨state, List.mem_cons_of_mem _ passed, live.trans young, evidence.clocks state passed,
          missing⟩
      next identity some =>
        rw [some] at backed
        obtain ⟨state, passed, young, stored⟩ := backed
        exact ⟨state, List.mem_cons_of_mem _ passed, live.trans young, stored⟩
  next =>
    split
    · trivial
    · rw [same]
      cases found : log.current.tables.lookupAPIKey md5 sha256 token with
      | none => exact ⟨log.current, here, began, keyMissing_of_lookup found⟩
      | some identity => exact ⟨log.current, here, began, keyStored_of_lookup found⟩
  next found stands =>
    rw [stands] at known
    cases found with
    | none => trivial
    | some identity =>
      obtain ⟨state, passed, young, stored⟩ := known
      exact ⟨state, List.mem_cons_of_mem _ passed, young.trans (Nat.le_add_right _ _), stored⟩
  next identity stands =>
    rw [stands] at known
    obtain ⟨state, passed, young, stored⟩ := known
    split
    · trivial
    · split
      · trivial
      next authorized accepted =>
        obtain ⟨user, org, granted⟩ := seatGranted_of_authorize accepted
        refine ⟨⟨state, List.mem_cons_of_mem _ passed, young, evidence.clocks state passed, ?_⟩,
          fun organization => ⟨log.current, here, ⟨request, inFlight, rfl⟩, began, le_rfl, ?_⟩⟩
        · rw [user, org]
          exact stored
        · rw [org] at organization
          rw [user, org]
          exact granted organization
  next decision time stands =>
    rw [stands] at known
    exact known.later log.current

/-- The cache that a request leaves. -/
theorem entries_backed (evidence : AuthEvidence md5 sha256 token log) {request : AuthRequest}
    (inFlight : request ∈ log.current.requests) (failed : Bool) :
    ∀ entry ∈ (log.current.proceed md5 sha256 failed request).2, entry.key = sha256 token →
      entry.Backed md5 sha256 token (log.current :: log.past) := by
  have old : ∀ entry ∈ log.current.cache, entry.key = sha256 token →
      entry.Backed md5 sha256 token (log.current :: log.past) := fun entry member key =>
    (evidence.entries entry member key).later log.current
  unfold AuthState.proceed
  split
  next => split <;> [exact old; split <;> exact old]
  next => split <;> exact old
  next found stands =>
    intro entry member key
    rcases mem_authCachePut member with rfl | stored
    · have known := evidence.requests request inFlight (evidence.alone request inFlight key)
      rw [stands] at known
      cases found with
      | none =>
        obtain ⟨state, passed, young, missing⟩ := known
        exact ⟨state, List.mem_cons_of_mem _ passed, Nat.add_le_add_right young _, missing⟩
      | some identity =>
        obtain ⟨state, passed, young, stored⟩ := known
        exact ⟨state, List.mem_cons_of_mem _ passed, Nat.add_le_add_right young _, stored⟩
    · exact old entry stored key
  next => split <;> [exact old; split <;> exact old]
  next => exact old

theorem clocks_step (evidence : AuthEvidence md5 sha256 token log) {clock : Nat}
    (later : log.current.clock ≤ clock) : ∀ state ∈ log.current :: log.past, state.clock ≤ clock := by
  intro state passed
  rcases List.mem_cons.mp passed with rfl | passed
  · exact later
  · exact (evidence.clocks state passed).trans later

theorem step (evidence : AuthEvidence md5 sha256 token log) {event : AuthEvent}
    (alone : event.Alone sha256 token) :
    AuthEvidence md5 sha256 token (log.next (AuthState.step md5 sha256) event) := by
  have entries : ∀ entry ∈ log.current.cache, entry.key = sha256 token →
      entry.Backed md5 sha256 token (log.current :: log.past) := fun entry member key =>
    (evidence.entries entry member key).later log.current
  have requests : ∀ request ∈ log.current.requests, request.token = token →
      request.point.Backed md5 sha256 token (log.current :: log.past) request.id request.began :=
    fun request inFlight same => (evidence.requests request inFlight same).later log.current
  -- `entries` and `requests` carry over to a longer past; only a request that moves on needs more
  cases event with
  | tick elapsed =>
    exact ⟨evidence.clocks_step (Nat.le_add_right _ _), fun request inFlight =>
      (evidence.began request inFlight).trans (Nat.le_add_right _ _), evidence.alone, entries, requests⟩
  | change tables =>
    exact ⟨evidence.clocks_step le_rfl, evidence.began, evidence.alone, entries, requests⟩
  | arrive id other =>
    simp only [Logged.next, AuthState.step]
    split
    next arrived inserted =>
      refine ⟨evidence.clocks_step le_rfl, ?_, ?_, entries, ?_⟩
      all_goals
        intro request member
        rcases (Table.mem_insert inserted).mp member with old | new
      · exact evidence.began request old
      · rw [List.mem_singleton.mp new]
      · exact evidence.alone request old
      · rw [List.mem_singleton.mp new]
        exact alone
      · exact requests request old
      · rw [List.mem_singleton.mp new]
        exact fun _ => trivial
    · exact ⟨evidence.clocks_step le_rfl, evidence.began, evidence.alone, entries, requests⟩
  | advance id failed =>
    simp only [Logged.next, AuthState.step]
    split
    · exact ⟨evidence.clocks_step le_rfl, evidence.began, evidence.alone, entries, requests⟩
    next request found =>
      obtain ⟨inFlight, rfl⟩ := Table.lookup_eq_some.mp found
      refine ⟨evidence.clocks_step le_rfl, ?_, ?_, evidence.entries_backed inFlight failed, ?_⟩
      · refine Table.forall_update (fun other old _ => evidence.began other old) ?_
        exact fun other old _ => evidence.began other old
      · refine Table.forall_update (fun other old _ => evidence.alone other old) ?_
        exact fun other old _ => evidence.alone other old
      · refine Table.forall_update (fun other old _ => requests other old) fun other old hit => ?_
        obtain rfl := Table.eq_of_key_eq old inFlight (by simpa using hit)
        exact fun same => evidence.point_backed inFlight same failed

/-- Every run of requests whose cache key no other token shares has its evidence. -/
theorem run (clock : Nat) (tables : AuthTables) {events : List AuthEvent}
    (alone : ∀ event ∈ events, event.Alone sha256 token) :
    AuthEvidence md5 sha256 token
      (runFrom (Logged.next (AuthState.step md5 sha256)) ⟨.initial clock tables, []⟩ events) := by
  refine invariant_along (P := AuthEvidence md5 sha256 token) (fun _ _ evidence alone =>
    evidence.step alone) ?_ events (along_of_forall alone)
  exact ⟨nofun, nofun, nofun, nofun, nofun⟩

end AuthEvidence

end Evidence

/-! ### Size and errors -/

section Errors

variable {md5 sha256 : String → String} {state : AuthState} {request : AuthRequest}

theorem length_cache_step (bounded : state.cache.rows.length ≤ authCacheMaxEntries)
    (event : AuthEvent) :
    (state.step md5 sha256 event).cache.rows.length ≤ authCacheMaxEntries := by
  cases event with
  | tick | change => exact bounded
  | arrive => simp only [AuthState.step]; split <;> exact bounded
  | advance id failed =>
    simp only [AuthState.step]
    split
    · exact bounded
    · -- only a request that has looked its key up writes
      unfold AuthState.proceed
      split
      next => split <;> [exact bounded; split <;> exact bounded]
      next => split <;> exact bounded
      next => exact length_authCachePut bounded
      next => split <;> [exact bounded; split <;> exact bounded]
      next => exact bounded

/-- The next step of the request is a query. -/
def AuthPoint.queries : AuthPoint → Bool
  | .lookup => true
  | .authorize identity => identity.orgID != ""
  | _ => false

theorem proceed_failed (queries : request.point.queries = true) :
    state.proceed md5 sha256 true request = (.decided .unavailable state.clock, state.cache) := by
  unfold AuthState.proceed
  split
  next stands => rw [stands] at queries; cases queries
  next => rfl
  next stands => rw [stands] at queries; cases queries
  next identity stands =>
    rw [stands] at queries
    have organization : identity.orgID ≠ "" := by simpa [AuthPoint.queries] using queries
    rw [if_pos ⟨organization, rfl⟩]
  next stands => rw [stands] at queries; cases queries

/-- The request has come to that decision. -/
def AuthState.HasDecided (id time : Nat) (decision : AuthDecision) (state : AuthState) : Prop :=
  ∃ request ∈ state.requests, request.id = id ∧ request.point = .decided decision time

/-- A request stays with its decision. -/
theorem AuthState.HasDecided.step {id time : Nat} {decision : AuthDecision}
    (decided : state.HasDecided id time decision) (event : AuthEvent) :
    (state.step md5 sha256 event).HasDecided id time decision := by
  have ⟨request, inFlight, same, stands⟩ := decided
  subst same
  cases event with
  | tick | change => exact decided
  | arrive =>
    simp only [AuthState.step]
    split
    next inserted => exact ⟨request, (Table.mem_insert inserted).mpr (.inl inFlight), rfl, stands⟩
    · exact decided
  | advance other failed =>
    simp only [AuthState.step]
    split
    · exact decided
    next advanced found =>
      obtain ⟨known, rfl⟩ := Table.lookup_eq_some.mp found
      by_cases same : request.id = advanced.id
      · obtain rfl := Table.eq_of_key_eq inFlight known same
        refine ⟨_, Table.mem_update_of_hit inFlight (by simp), rfl, ?_⟩
        simp only [AuthState.proceed, stands]
      · exact ⟨request, Table.mem_update_of_not inFlight (by simpa using same), rfl, stands⟩

/-- A failed query ends its request without an answer, for good, and without an entry. -/
theorem unavailable_of_failed (inFlight : request ∈ state.requests)
    (queries : request.point.queries = true) :
    (state.step md5 sha256 (.advance request.id true)).cache = state.cache ∧
      ∀ more, (runFrom (AuthState.step md5 sha256)
        (state.step md5 sha256 (.advance request.id true)) more).HasDecided request.id state.clock
          .unavailable := by
  have found : state.requests.lookup request.id = some request :=
    Table.lookup_eq_some.mpr ⟨inFlight, rfl⟩
  simp only [AuthState.step, found, proceed_failed queries]
  refine ⟨trivial, invariant_run (P := AuthState.HasDecided _ _ _)
    (fun _ event decided => decided.step event) ?_⟩
  exact ⟨_, Table.mem_update_of_hit inFlight (by simp), rfl, rfl⟩

end Errors

/-! ### Every run -/

/-- The run from `start` had come to that state before its last event. -/
def AuthState.Passes (md5 sha256 : String → String) (start : AuthState) (events : List AuthEvent)
    (state : AuthState) : Prop :=
  ∃ before event after, events = before ++ event :: after ∧
    state = runFrom (AuthState.step md5 sha256) start before

/-- In a run in which no other token shares the cache key of `token`, for instance since
there is no other:

* a request with the token is accepted as a user of an organization only if a key row for
  the token said so at an instant between thirty seconds before it began and its decision,
  and an organization key only if the organization granted the seat while the request was
  in flight;
* the cache alone refuses a request only if there was no key row for the token, or
  one without a user, at an instant between five seconds before it began and its decision;
* a failed query ends its request without an answer and leaves the cache as it is;
* the cache keeps to its size. -/
theorem revocation_bounded (md5 sha256 : String → String) (token : String) (clock : Nat)
    (tables : AuthTables) (events : List AuthEvent)
    (alone : ∀ event ∈ events, event.Alone sha256 token) :
    let start := AuthState.initial clock tables
    let reached := runFrom (AuthState.step md5 sha256) start events
    (∀ request ∈ reached.requests, request.token = token → ∀ identity time,
      request.point = .decided (.accepted identity) time →
        (∃ state, start.Passes md5 sha256 events state ∧
          request.began ≤ state.clock + authCachePositiveTTL ∧ state.clock ≤ time ∧
          KeyStored md5 sha256 token identity.userID identity.orgID state.tables) ∧
        (identity.orgID ≠ "" → ∃ state, start.Passes md5 sha256 events state ∧
          (∃ other ∈ state.requests, other.id = request.id) ∧
          request.began ≤ state.clock ∧ state.clock ≤ time ∧
          SeatGranted state.clock identity.orgID identity.userID state.tables)) ∧
    (∀ request ∈ reached.requests, request.token = token → ∀ time,
      request.point = .decided .unknown time →
        ∃ state, start.Passes md5 sha256 events state ∧
          request.began ≤ state.clock + authCacheNegativeTTL ∧ state.clock ≤ time ∧
          KeyMissing md5 sha256 token state.tables) ∧
    (∀ request ∈ reached.requests, request.point.queries = true →
      (reached.step md5 sha256 (.advance request.id true)).cache = reached.cache ∧
      ∀ more, (runFrom (AuthState.step md5 sha256)
        (reached.step md5 sha256 (.advance request.id true)) more).HasDecided request.id
          reached.clock .unavailable) ∧
    reached.cache.rows.length ≤ authCacheMaxEntries := by
  intro start reached
  set log := runFrom (Logged.next (AuthState.step md5 sha256)) ⟨start, []⟩ events
  have evidence : AuthEvidence md5 sha256 token log := AuthEvidence.run clock tables alone
  have current : log.current = reached := Logged.run_current start [] events
  -- a logged state is one that the run passed
  have passed : ∀ state ∈ log.past, start.Passes md5 sha256 events state := fun state listed =>
    (Logged.mem_run_past listed).resolve_left List.not_mem_nil
  have backed := evidence.requests
  rw [current] at backed
  refine ⟨fun request inFlight same identity time decided => ?_,
    fun request inFlight same time decided => ?_,
    fun request inFlight queries => unavailable_of_failed inFlight queries, ?_⟩
  · have known := backed request inFlight same
    rw [decided] at known
    obtain ⟨⟨state, listed, stored⟩, seat⟩ := known
    refine ⟨⟨state, passed state listed, stored⟩, fun organization => ?_⟩
    obtain ⟨state, listed, granted⟩ := seat organization
    exact ⟨state, passed state listed, granted⟩
  · have known := backed request inFlight same
    rw [decided] at known
    obtain ⟨state, listed, missing⟩ := known
    exact ⟨state, passed state listed, missing⟩
  · exact invariant_run (P := fun state : AuthState => state.cache.rows.length ≤ authCacheMaxEntries)
      (fun _ event bounded => length_cache_step bounded event) (Nat.zero_le _) events

/-! ### Two runs -/

/-- The tables hold one key, for the token "t", of that user. -/
def oneKey (userID : String) : AuthTables where
  apiKeys := ⟨[⟨"t", userID, "free", none⟩], List.nodup_singleton _⟩
  members := .empty
  organizations := []
  subscriptions := .empty

/-- A request is accepted and its key deleted; twenty seconds later another request is
accepted from the cache. -/
def revokedRun : List AuthEvent :=
  [.arrive 1 "t", .advance 1 false, .advance 1 false, .advance 1 false, .advance 1 false,
    .change { oneKey "u" with apiKeys := .empty }, .tick 20000,
    .arrive 2 "t", .advance 2 false, .advance 2 false]

theorem revocation_bounded_cachedKey :
    ∃ state, (AuthState.initial 0 (oneKey "u")).Passes id id revokedRun state ∧
      20000 ≤ state.clock + authCachePositiveTTL ∧ state.clock ≤ 20000 ∧
      KeyStored id id "t" "u" "" state.tables :=
  ((revocation_bounded id id "t" 0 (oneKey "u") revokedRun fun event _ => by
      cases event <;> simp [AuthEvent.Alone]).1
    ⟨2, "t", 20000, .decided (.accepted ⟨"u", "free", "", ""⟩) 20000⟩ (by decide +kernel) rfl
    ⟨"u", "free", "", ""⟩ 20000 rfl).1

theorem tables_step {md5 sha256 : String → String} {state : AuthState} {event : AuthEvent}
    (unchanged : ∀ tables, event ≠ .change tables) :
    (state.step md5 sha256 event).tables = state.tables := by
  cases event with
  | tick => rfl
  | change tables => exact absurd rfl (unchanged tables)
  | arrive => simp only [AuthState.step]; split <;> rfl
  | advance => simp only [AuthState.step]; split <;> rfl

/-- A key row that names no user is there all the time, and yet the cache refuses a
request with the token as unknown. -/
theorem unknown_of_blankUser :
    let events := [.arrive 1 "t", .advance 1 false, .advance 1 false, .advance 1 false,
      .arrive 2 "t", .advance 2 false]
    let start := AuthState.initial 0 (oneKey " ")
    (runFrom (AuthState.step id id) start events).HasDecided 2 0 .unknown ∧
      ∀ state, start.Passes id id events state →
        ∃ key ∈ state.tables.apiKeys, key.isOf id id "t" := by
  intro events start
  refine ⟨⟨⟨2, "t", 0, .decided .unknown 0⟩, by decide +kernel, rfl, rfl⟩, ?_⟩
  rintro state ⟨before, event, after, split, rfl⟩
  have unchanged : ∀ earlier ∈ before, ∀ tables, earlier ≠ .change tables := by
    rintro _ earlier tables rfl
    have listed : .change tables ∈ events := split ▸ List.mem_append_left _ earlier
    simp [events] at listed
  have kept : (runFrom (AuthState.step id id) start before).tables = start.tables :=
    invariant_along (P := fun state : AuthState => state.tables = start.tables)
      (fun _ _ same unchanged => (tables_step unchanged).trans same) rfl before
      (along_of_forall unchanged)
  rw [kept]
  exact ⟨⟨"t", " ", "free", none⟩, by decide, .inl rfl⟩

end AcemcpRelay
