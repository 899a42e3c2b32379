import AcemcpRelay.QuotaCache
import AcemcpRelay.Store.Transition

/-!
# Limits and their caches

An organization whose limit is not set draws on the pool of its owner, under the limit that
the owner has. What a call finds in the cache is what the call that wrote it had found in
the database, and it is gone when the subscription it came from ends.
-/
namespace AcemcpRelay

open Store

/-! ### Inherited pools -/

section

variable {tables : QuotaTables} {now : Nat} {orgID : String} {owner : Member}

theorem ownerPool_eq (config : QuotaConfig) (canonical : tables.canonicalOwner orgID = some owner) :
    getOrgOwnerQuotaLimits config (tables.orgAnswers now orgID) =
      { ownerID := owner.userID
        request := getUserDailyLimit config (tables.userAnswers now (·.dailyLimit) owner.userID)
          (tables.ownerTier orgID owner.userID)
        indexBytes := getUserIndexBytesLimit config
          (tables.userAnswers now (·.dailyIndexBytesLimit) owner.userID)
          (tables.ownerTier orgID owner.userID)
        found := true } := by
  have row : (tables.orgAnswers now orgID).orgOwner = .ok (tables.ownerRow now orgID) := rfl
  unfold getOrgOwnerQuotaLimits getUserDailyLimit getUserIndexBytesLimit
  rw [row, QuotaTables.userLimitOr_userAnswers, QuotaTables.userLimitOr_userAnswers,
    QuotaTables.ownerRow, canonical, QuotaTables.getUserPlanQuotaLimits, Option.map_some]
  dsimp only
  -- the joined row holds the plan as the user's own query does
  cases tables.activePlan now owner.userID with
  | none => simp only [Option.map_none, Option.getD_none]
  | some plan => simp only [Option.map_some, Option.getD_some]

theorem inherited_pool_has_one_limit (config : QuotaConfig) (tables : QuotaTables) (now : Nat)
    (orgID : String) (owner : Member) (canonical : tables.canonicalOwner orgID = some owner) :
    let tier := tables.ownerTier orgID owner.userID
    let org := getOrgQuotaLimits config (tables.orgAnswers now orgID) orgID
    (tables.orgRequestLimit orgID = none →
      org.requestPoolID = owner.userID ∧
      org.request =
        getUserDailyLimit config (tables.userAnswers now (·.dailyLimit) owner.userID) tier) ∧
    (tables.orgIndexBytesLimit orgID = none →
      org.indexBytesPoolID = owner.userID ∧
      org.indexBytes = getUserIndexBytesLimit config
        (tables.userAnswers now (·.dailyIndexBytesLimit) owner.userID) tier) := by
  have named := QuotaTables.canonicalOwner_named canonical
  dsimp only
  rw [QuotaTables.getOrgQuotaLimits_orgAnswers, inheritOrgQuotaLimits, ownerPool_eq config canonical]
  dsimp only
  rw [if_pos named]
  constructor
  · intro unset
    rw [unset]
    exact ⟨rfl, rfl⟩
  · intro unset
    rw [unset]
    exact ⟨rfl, rfl⟩

/-- The owner of `acme` has a subscription, and a limit of their own for indexed bytes. -/
def inheritingTables : QuotaTables where
  members := ⟨[⟨"m2", "acme", "bob", some "member", 0⟩, ⟨"m1", "acme", "ann", some "admin, owner", 5⟩],
    by decide⟩
  tierKeys := ⟨[⟨"k1", "ann", none, "pro", 3⟩], by decide⟩
  userQuotas := ⟨[⟨"ann", none, some 4096⟩], by decide⟩
  subscriptions := ⟨[⟨"ann", 700, 9000, 10, 1000⟩], by decide⟩
  orgQuotas := ⟨[⟨"acme", none, none⟩], by decide⟩
  named := by decide

def tieredLimits : QuotaConfig where
  defaultDailyRequestLimit := 100
  proDailyRequestLimit := 500
  dailyIndexBytesLimit := 1024
  proDailyIndexBytesLimit := 2048
  zoneOffset := 0

/-- While the subscription runs the request limit is its limit, afterwards that of the tier. -/
theorem inherited_pool_has_one_limit_acme :
    let owner : Member := ⟨"m1", "acme", "ann", some "admin, owner", 5⟩
    let limits (now : Nat) :=
      getOrgQuotaLimits tieredLimits (inheritingTables.orgAnswers now "acme") "acme"
    ((limits 999).requestPoolID = "ann" ∧ (limits 999).request = 700) ∧
    (limits 1000).request = getUserDailyLimit tieredLimits
      (inheritingTables.userAnswers 1000 (·.dailyLimit) owner.userID) "pro" ∧
    (limits 1000).request = 500 ∧ (limits 1000).indexBytes = 4096 := by
  have canonical : inheritingTables.canonicalOwner "acme" =
    some ⟨"m1", "acme", "ann", some "admin, owner", 5⟩ := by decide +kernel
  have before := inherited_pool_has_one_limit tieredLimits inheritingTables 999 "acme" _ canonical
  have after := inherited_pool_has_one_limit tieredLimits inheritingTables 1000 "acme" _ canonical
  obtain ⟨pool, limit⟩ := before.1 (by decide)
  exact ⟨⟨pool, limit.trans (by decide +kernel)⟩, (after.1 (by decide)).2,
    (after.1 (by decide)).2.trans (by decide +kernel),
    (after.2 (by decide)).2.trans (by decide +kernel)⟩

end

/-! ### Texts of the cache -/

theorem comma_not_mem_toString (n : Int) : ',' ∉ (toString n).toList := by
  intro member
  rcases mem_toString_int member with same | digit
  · exact absurd same (by decide)
  · exact absurd digit (by decide)

theorem comma_not_mem_encodePoolID (poolID : String) : ',' ∉ encodePoolID poolID := by
  intro member
  rcases Wire.Alphabet.mem_encode _ _ member with listed | padding
  · exact absurd listed (by decide)
  · exact absurd padding (by decide)

theorem decodePoolID_encodePoolID (poolID : String) :
    decodePoolID (encodePoolID poolID) = some poolID := by
  have bytes : (⟨⟨poolID.toByteArray.data.toList⟩⟩ : ByteArray) = poolID.toByteArray := rfl
  rw [decodePoolID, encodePoolID, Wire.Alphabet.decode_encode, Option.bind_some, bytes,
    String.fromUTF8?, dif_pos poolID.isValidUTF8]
  rfl

/-- What is written for an organization is read back, unless a pool has no name. -/
theorem parse_formatOrgQuotaCache {limits : OrgQuotaLimits}
    (request : -2 ^ 63 ≤ limits.request ∧ limits.request < 2 ^ 63)
    (indexBytes : -2 ^ 63 ≤ limits.indexBytes ∧ limits.indexBytes < 2 ^ 63)
    (sets : limits.requestSet = true ∧ limits.indexBytesSet = true) :
    parseOrgQuotaCache (formatOrgQuotaCache limits) =
      if limits.requestPoolID = "" ∨ limits.indexBytesPoolID = "" then none else some limits := by
  have parts : splitOn ',' (formatOrgQuotaCache limits).toList =
      ["v3".toList, (toString limits.request).toList, (toString limits.indexBytes).toList,
        encodePoolID limits.requestPoolID, encodePoolID limits.indexBytesPoolID] := by
    rw [formatOrgQuotaCache, String.toList_ofList, splitOn_append (by decide),
      splitOn_append (comma_not_mem_toString _), splitOn_append (comma_not_mem_toString _),
      splitOn_append (comma_not_mem_encodePoolID _), splitOn_of_free (comma_not_mem_encodePoolID _)]
  rw [parseOrgQuotaCache, parts]
  dsimp only
  rw [if_neg (not_not_intro rfl), parseInt64_toString request.1 request.2,
    parseInt64_toString indexBytes.1 indexBytes.2, decodePoolID_encodePoolID,
    decodePoolID_encodePoolID]
  obtain ⟨_, _, _, _, _, _⟩ := limits
  obtain ⟨⟨⟩, ⟨⟩⟩ := sets
  rfl

/-! ### What is resolved -/

def LimitValue.Fits : LimitValue → Prop
  | .limit value => -2 ^ 63 ≤ value ∧ value < 2 ^ 63
  | .org limits =>
    (-2 ^ 63 ≤ limits.request ∧ limits.request < 2 ^ 63) ∧
    (-2 ^ 63 ≤ limits.indexBytes ∧ limits.indexBytes < 2 ^ 63) ∧
    limits.requestSet = true ∧ limits.indexBytesSet = true

section

variable {tables : QuotaTables} {now : Nat}

theorem getD_toInt_fits {limit : Option Int64} {other : Int}
    (fits : -2 ^ 63 ≤ other ∧ other < 2 ^ 63) :
    -2 ^ 63 ≤ (limit.map Int64.toInt).getD other ∧ (limit.map Int64.toInt).getD other < 2 ^ 63 := by
  cases limit with
  | none => exact fits
  | some limit => exact ⟨limit.le_toInt, limit.toInt_lt⟩

theorem getUserDailyLimit_fits (settings : LimitSettings) (column : UserQuota → Option Int64)
    (userID tier : String) :
    (LimitValue.limit (getUserDailyLimit settings.toQuotaConfig (tables.userAnswers now column userID)
      tier)).Fits := by
  unfold getUserDailyLimit
  rw [QuotaTables.userLimitOr_userAnswers, QuotaTables.getUserPlanQuotaLimits]
  apply getD_toInt_fits
  cases tables.activePlan now userID with
  | none => exact settings.requestFits tier
  | some plan => exact ⟨plan.dailyRequestLimit.le_toInt, plan.dailyRequestLimit.toInt_lt⟩

theorem getUserIndexBytesLimit_fits (settings : LimitSettings) (column : UserQuota → Option Int64)
    (userID tier : String) :
    (LimitValue.limit (getUserIndexBytesLimit settings.toQuotaConfig
      (tables.userAnswers now column userID) tier)).Fits := by
  unfold getUserIndexBytesLimit
  rw [QuotaTables.userLimitOr_userAnswers, QuotaTables.getUserPlanQuotaLimits]
  apply getD_toInt_fits
  cases tables.activePlan now userID with
  | none => exact settings.indexBytesFits tier
  | some plan => exact ⟨plan.dailyIndexBytesLimit.le_toInt, plan.dailyIndexBytesLimit.toInt_lt⟩

/-- What an organization inherits is a user's limit, or that of the free tier. -/
theorem inherited_fits (settings : LimitSettings) (orgID : String) :
    let owner := getOrgOwnerQuotaLimits settings.toQuotaConfig (tables.orgAnswers now orgID)
    (LimitValue.limit (if owner.found then owner.request
      else settings.tierDailyRequestLimit "free")).Fits ∧
    (LimitValue.limit (if owner.found then owner.indexBytes
      else settings.tierIndexBytesLimit "free")).Fits := by
  cases found : tables.canonicalOwner orgID with
  | none =>
    have owner : getOrgOwnerQuotaLimits settings.toQuotaConfig (tables.orgAnswers now orgID) = {} := by
      simp only [getOrgOwnerQuotaLimits, QuotaTables.orgAnswers, QuotaTables.ownerRow, found,
        Option.map_none]
    rw [owner]
    exact ⟨settings.requestFits "free", settings.indexBytesFits "free"⟩
  | some owner =>
    rw [ownerPool_eq settings.toQuotaConfig found]
    exact ⟨getUserDailyLimit_fits settings _ _ _, getUserIndexBytesLimit_fits settings _ _ _⟩

theorem getOrgQuotaLimits_fits (settings : LimitSettings) (orgID : String) :
    (LimitValue.org
      (getOrgQuotaLimits settings.toQuotaConfig (tables.orgAnswers now orgID) orgID)).Fits := by
  obtain ⟨request, indexBytes⟩ := inherited_fits settings orgID
  rw [QuotaTables.getOrgQuotaLimits_orgAnswers, inheritOrgQuotaLimits]
  exact ⟨getD_toInt_fits request, getD_toInt_fits indexBytes, rfl, rfl⟩

theorem resolve_fits (settings : LimitSettings) (call : LimitCall) :
    (call.resolve settings.toQuotaConfig now tables).Fits := by
  cases call with
  | getUserDailyLimit userID tier => exact getUserDailyLimit_fits settings _ userID tier
  | getUserIndexBytesLimit userID tier => exact getUserIndexBytesLimit_fits settings _ userID tier
  | getOrgQuotaLimits orgID => exact getOrgQuotaLimits_fits settings orgID

theorem planRead_active {call : LimitCall} {plan : PlanSubscription}
    (read : call.planRead now tables = some plan) : now < plan.expiresAt := by
  have active {userID : String} (found : tables.activePlan now userID = some plan) :
      now < plan.expiresAt := by
    have filtered := (Option.filter_eq_some_iff.mp found).2
    exact (of_decide_eq_true filtered).2
  cases call with
  | getUserDailyLimit userID tier =>
    rw [LimitCall.planRead] at read
    split at read
    · cases read
    · exact active read
  | getUserIndexBytesLimit userID tier =>
    rw [LimitCall.planRead] at read
    split at read
    · cases read
    · exact active read
  | getOrgQuotaLimits orgID =>
    rw [LimitCall.planRead] at read
    split at read
    · cases read
    · obtain ⟨owner, _, found⟩ := Option.bind_eq_some_iff.mp read
      exact active found

/-- No entry is given time beyond the end of the subscription that was read. -/
theorem cacheTTL_le (call : LimitCall) : call.cacheTTL now tables ≤ quotaCacheTTL ∧
    ∀ plan, call.planRead now tables = some plan →
      now + call.cacheTTL now tables ≤ plan.expiresAt := by
  unfold LimitCall.cacheTTL
  cases read : call.planRead now tables with
  | none => exact ⟨Nat.le_refl _, fun _ impossible => nomatch impossible⟩
  | some plan =>
    refine ⟨Nat.min_le_right _ _, ?_⟩
    rintro plan ⟨⟩
    have active := planRead_active read
    have bound : planCacheTTL now plan.expiresAt ≤ plan.expiresAt - now := Nat.min_le_left _ _
    dsimp only
    omega

/-- The same tables when nobody has a subscription. -/
def QuotaTables.withoutPlans (tables : QuotaTables) : QuotaTables :=
  { tables with subscriptions := .empty }

theorem activePlan_withoutPlans (userID : String) : tables.withoutPlans.activePlan now userID = none :=
  rfl

theorem userLimitOr_withoutPlans {column : UserQuota → Option Int64} {userID : String} {ofTier : Int}
    {ofPlan : PlanQuotaLimits → Int}
    (unread : (if ((tables.userQuotas.lookup userID).bind column).isSome then none
      else tables.activePlan now userID) = none) :
    (tables.userAnswers now column userID).userLimitOr ofTier ofPlan =
      (tables.withoutPlans.userAnswers now column userID).userLimitOr ofTier ofPlan := by
  have sameRow : tables.withoutPlans.userQuotas = tables.userQuotas := rfl
  rw [QuotaTables.userLimitOr_userAnswers, QuotaTables.userLimitOr_userAnswers,
    activePlan_withoutPlans, sameRow]
  cases set : (tables.userQuotas.lookup userID).bind column with
  | some limit => rfl
  | none =>
    rw [set] at unread
    have inactive : tables.activePlan now userID = none := unread
    rw [inactive]
    rfl

theorem ownerRow_withoutPlans {orgID : String}
    (unread : ((tables.canonicalOwner orgID).bind fun owner =>
      tables.activePlan now owner.userID) = none) :
    tables.withoutPlans.ownerRow now orgID = tables.ownerRow now orgID := by
  have sameOwner : tables.withoutPlans.canonicalOwner orgID = tables.canonicalOwner orgID := rfl
  unfold QuotaTables.ownerRow
  rw [sameOwner]
  cases found : tables.canonicalOwner orgID with
  | none => rfl
  | some owner =>
    rw [found] at unread
    have inactive : tables.activePlan now owner.userID = none := unread
    simp only [Option.map_some, activePlan_withoutPlans, inactive]
    rfl

/-- A call that read no subscription would have answered the same if there were none. -/
theorem resolve_withoutPlans (config : QuotaConfig) {call : LimitCall}
    (unread : call.planRead now tables = none) :
    call.resolve config now tables.withoutPlans = call.resolve config now tables := by
  cases call with
  | getUserDailyLimit userID tier =>
    exact congrArg LimitValue.limit (userLimitOr_withoutPlans unread).symm
  | getUserIndexBytesLimit userID tier =>
    exact congrArg LimitValue.limit (userLimitOr_withoutPlans unread).symm
  | getOrgQuotaLimits orgID =>
    have sameRequest : tables.withoutPlans.orgRequestLimit orgID = tables.orgRequestLimit orgID := rfl
    have sameBytes : tables.withoutPlans.orgIndexBytesLimit orgID = tables.orgIndexBytesLimit orgID :=
      rfl
    refine congrArg LimitValue.org ?_
    change getOrgQuotaLimits config (tables.withoutPlans.orgAnswers now orgID) orgID =
      getOrgQuotaLimits config (tables.orgAnswers now orgID) orgID
    rw [QuotaTables.getOrgQuotaLimits_orgAnswers, QuotaTables.getOrgQuotaLimits_orgAnswers,
      sameRequest, sameBytes]
    rw [LimitCall.planRead] at unread
    split at unread
    next sets =>
      -- the owner is asked for nothing
      obtain ⟨request, setRequest⟩ := Option.isSome_iff_exists.mp sets.1
      obtain ⟨indexBytes, setBytes⟩ := Option.isSome_iff_exists.mp sets.2
      rw [setRequest, setBytes]
      rfl
    next =>
      have sameOwner : (tables.withoutPlans.orgAnswers now orgID).orgOwner =
          (tables.orgAnswers now orgID).orgOwner := congrArg Except.ok (ownerRow_withoutPlans unread)
      rw [inheritOrgQuotaLimits, inheritOrgQuotaLimits, getOrgOwnerQuotaLimits,
        getOrgOwnerQuotaLimits, sameOwner]

end

/-! ### Keys and texts of calls -/

/-- The user or organization that a call is about. -/
def LimitCall.id : LimitCall → String
  | .getUserDailyLimit userID _ => userID
  | .getUserIndexBytesLimit userID _ => userID
  | .getOrgQuotaLimits orgID => orgID

/-- The function and its identifier; the tier is not part of the key. -/
def LimitCall.question (call : LimitCall) : LimitCall :=
  match call with
  | .getUserDailyLimit userID _ => .getUserDailyLimit userID ""
  | .getUserIndexBytesLimit userID _ => .getUserIndexBytesLimit userID ""
  | .getOrgQuotaLimits orgID => .getOrgQuotaLimits orgID

/-- The parts of the key between its colons, if the identifier has none. -/
def LimitCall.keyParts : LimitCall → List (List Char)
  | .getUserDailyLimit userID _ => ["quota".toList, "limit".toList, userID.toList]
  | .getUserIndexBytesLimit userID _ =>
    ["quota".toList, "limit".toList, "indexbytes".toList, userID.toList]
  | .getOrgQuotaLimits orgID => ["quota".toList, "limit".toList, "orgq".toList, orgID.toList]

theorem splitOn_cacheKey {call : LimitCall} (plain : ':' ∉ call.id.toList) :
    splitOn ':' call.cacheKey.toList = call.keyParts := by
  have start (rest : List Char) : splitOn ':' ("quota:limit:".toList ++ rest) =
      "quota".toList :: "limit".toList :: splitOn ':' rest := by
    have text : "quota:limit:".toList ++ rest =
        "quota".toList ++ ':' :: ("limit".toList ++ ':' :: rest) := by simp
    rw [text, splitOn_append (by decide), splitOn_append (by decide)]
  unfold LimitCall.cacheKey LimitCall.keyParts
  unfold LimitCall.id at plain
  cases call with
  | getUserDailyLimit userID tier =>
    dsimp only at plain ⊢
    rw [String.toList_append, start, splitOn_of_free plain]
  | getUserIndexBytesLimit userID tier =>
    dsimp only at plain ⊢
    have text : ("quota:limit:indexbytes:" ++ userID).toList =
        "quota:limit:".toList ++ ("indexbytes".toList ++ ':' :: userID.toList) := by simp
    rw [text, start, splitOn_append (by decide), splitOn_of_free plain]
  | getOrgQuotaLimits orgID =>
    dsimp only at plain ⊢
    have text : ("quota:limit:orgq:" ++ orgID).toList =
        "quota:limit:".toList ++ ("orgq".toList ++ ':' :: orgID.toList) := by simp
    rw [text, start, splitOn_append (by decide), splitOn_of_free plain]

theorem question_eq_of_cacheKey_eq {a b : LimitCall} (plainA : ':' ∉ a.id.toList)
    (plainB : ':' ∉ b.id.toList) (same : a.cacheKey = b.cacheKey) : a.question = b.question := by
  have parts : a.keyParts = b.keyParts := by
    rw [← splitOn_cacheKey plainA, ← splitOn_cacheKey plainB, same]
  cases a <;> cases b <;>
    simp_all [LimitCall.keyParts, LimitCall.question, String.toList_inj]

theorem parseInt64_formatOrgQuotaCache (limits : OrgQuotaLimits) :
    parseInt64 (formatOrgQuotaCache limits).toList = none := by
  have noDigits (rest : List Char) : parseInt64 ("v3".toList ++ rest) = none := by
    simp [parseInt64, parseDigits]
  rw [formatOrgQuotaCache, String.toList_ofList]
  exact noDigits _

/-- A call reads from a text nothing but the value that was written. -/
theorem parse_format {call : LimitCall} {value read : LimitValue} (fits : value.Fits)
    (parsed : call.parse value.format = some read) : read = value := by
  -- a number is no text of an organization, nor the other way round
  have numberText (n : Int) : parseOrgQuotaCache (toString n) = none := by
    rw [parseOrgQuotaCache, splitOn_of_free (comma_not_mem_toString n)]
  have user (value : LimitValue) (fits : value.Fits)
      (parsed : (parseInt64 value.format.toList).map LimitValue.limit = some read) : read = value := by
    cases value with
    | limit n =>
      rw [LimitValue.format, parseInt64_toString fits.1 fits.2] at parsed
      exact (Option.some.inj parsed).symm
    | org limits =>
      rw [LimitValue.format, parseInt64_formatOrgQuotaCache] at parsed
      cases parsed
  cases call with
  | getUserDailyLimit userID tier => exact user value fits parsed
  | getUserIndexBytesLimit userID tier => exact user value fits parsed
  | getOrgQuotaLimits orgID =>
    rw [LimitCall.parse] at parsed
    cases value with
    | limit n =>
      rw [LimitValue.format, numberText] at parsed
      cases parsed
    | org limits =>
      rw [LimitValue.format, parse_formatOrgQuotaCache fits.1 fits.2.1 fits.2.2] at parsed
      split at parsed
      · cases parsed
      · exact (Option.some.inj parsed).symm

/-! ### Runs -/

/-- The value of a read is what its source resolved, under the same key and not long ago. If
the source read a subscription, that is not over yet; if it read none, the value does not
depend on any. -/
def LimitRead.Faithful (config : QuotaConfig) (read : LimitRead) : Prop :=
  ∃ source, read.source = some source ∧ source.call.cacheKey = read.call.cacheKey ∧
    read.value = source.value config ∧
    source.time ≤ read.time ∧ read.time ≤ source.time + quotaCacheTTL ∧
    (source.planRead = none → read.value =
      source.call.resolve config source.time source.tables.withoutPlans) ∧
    ∀ plan, source.planRead = some plan → read.time < plan.expiresAt

/-- An entry as its writer left it. -/
def LeftByWriter (config : QuotaConfig) (writers : String → Option Resolution) (key : String)
    (entry : Entry String) : Prop :=
  ∃ writer, writers key = some writer ∧ writer.call.cacheKey = key ∧
    entry.value = (writer.value config).format ∧
    ∃ deadline, entry.expiresAt = some deadline ∧ deadline ≤ writer.time + quotaCacheTTL ∧
      ∀ plan, writer.planRead = some plan → deadline ≤ plan.expiresAt

structure CacheInv (config : QuotaConfig) (state : LimitState) : Prop where
  entries : state.cache.Written (LeftByWriter config state.writers)
  past : ∀ key writer, state.writers key = some writer → writer.time ≤ state.clock
  reads : ∀ read ∈ state.reads, read.Faithful config

section

variable {settings : LimitSettings} {state : LimitState} {call : LimitCall}

theorem faithful_of_hit (inv : CacheInv settings.toQuotaConfig state) {value : LimitValue}
    (hit : call.cached state.clock state.cache = some value) :
    LimitRead.Faithful settings.toQuotaConfig
      ⟨call, state.clock, value, state.writers call.cacheKey⟩ := by
  obtain ⟨text, found, parsed⟩ := Option.bind_eq_some_iff.mp hit
  obtain ⟨entry, alive, rfl⟩ := Option.map_eq_some_iff.mp found
  obtain ⟨stored, early⟩ := Keys.live_eq_some.mp alive
  obtain ⟨writer, wrote, sameKey, text, deadline, expires, bounded, plans⟩ :=
    inv.entries _ entry stored
  have soon := early deadline expires
  rw [text] at parsed
  have same : value = writer.value settings.toQuotaConfig :=
    parse_format (resolve_fits settings writer.call) parsed
  refine ⟨writer, wrote, sameKey, same, inv.past _ _ wrote, ?_, ?_, ?_⟩
  · dsimp only
    omega
  · intro unread
    exact same.trans (resolve_withoutPlans settings.toQuotaConfig unread).symm
  · intro plan read
    exact Nat.lt_of_lt_of_le soon (plans plan read)

theorem faithful_of_miss (config : QuotaConfig) (state : LimitState) (call : LimitCall) :
    LimitRead.Faithful config ⟨call, state.clock,
      Resolution.value config ⟨call, state.clock, state.tables⟩,
      some ⟨call, state.clock, state.tables⟩⟩ :=
  ⟨_, rfl, rfl, rfl, Nat.le_refl _, Nat.le_add_right _ _,
    fun unread => (resolve_withoutPlans config unread).symm, fun _ read => planRead_active read⟩

/-- What is stored carries the deadline of its own resolution. -/
theorem store_inv (config : QuotaConfig) (inv : CacheInv config state) (call : LimitCall) :
    let stored := state.store config ⟨call, state.clock, state.tables⟩
    stored.cache.Written (LeftByWriter config stored.writers) ∧
    (∀ key writer, stored.writers key = some writer → writer.time ≤ state.clock) ∧
    stored.clock = state.clock ∧ stored.reads = state.reads := by
  dsimp only
  unfold LimitState.store
  split
  next positive =>
    refine ⟨Keys.written_setFor ?_ ?_, ?_, rfl, rfl⟩
    · intro other entry different stored
      obtain ⟨writer, wrote, rest⟩ := inv.entries other entry stored
      exact ⟨writer, (Function.update_of_ne different _ _).trans wrote, rest⟩
    · obtain ⟨short, plans⟩ : call.cacheTTL state.clock state.tables ≤ quotaCacheTTL ∧ _ :=
        cacheTTL_le call
      exact ⟨_, Function.update_self _ _ _, rfl, rfl, _, rfl, Nat.add_le_add_left short _, plans⟩
    · intro key writer wrote
      dsimp only at wrote
      by_cases same : key = call.cacheKey
      · subst same
        rw [Function.update_self] at wrote
        cases wrote
        exact Nat.le_refl _
      · rw [Function.update_of_ne same] at wrote
        exact inv.past key writer wrote
  next => exact ⟨inv.entries, inv.past, rfl, rfl⟩

theorem cacheInv_step (inv : CacheInv settings.toQuotaConfig state) (event : LimitEvent) :
    CacheInv settings.toQuotaConfig (state.step settings.toQuotaConfig event) := by
  cases event with
  | tick elapsed =>
    exact ⟨inv.entries, fun key writer wrote =>
      Nat.le_trans (inv.past key writer wrote) (Nat.le_add_right _ _), inv.reads⟩
  | change tables => exact ⟨inv.entries, inv.past, inv.reads⟩
  | del key => exact ⟨inv.entries.del, inv.past, inv.reads⟩
  | call call =>
    unfold LimitState.step
    dsimp only
    cases hit : call.cached state.clock state.cache with
    | some value =>
      exact ⟨inv.entries, inv.past, List.forall_mem_cons.mpr ⟨faithful_of_hit inv hit, inv.reads⟩⟩
    | none =>
      obtain ⟨entries, past, sameClock, sameReads⟩ := store_inv settings.toQuotaConfig inv call
      refine ⟨entries, ?_, List.forall_mem_cons.mpr ⟨faithful_of_miss _ state call, inv.reads⟩⟩
      intro key writer wrote
      have early := past key writer wrote
      rw [← sameClock] at early
      exact early

end

theorem limit_caches_transparent (settings : LimitSettings) (clock : Nat) (tables : QuotaTables)
    (events : List LimitEvent) :
    (∀ read ∈ (runFrom (LimitState.step settings.toQuotaConfig) (.initial clock tables) events).reads,
      ∃ source, read.source = some source ∧ read.value = source.value settings.toQuotaConfig ∧
        source.call.cacheKey = read.call.cacheKey ∧
        (':' ∉ source.call.id.toList → ':' ∉ read.call.id.toList →
          source.call.question = read.call.question) ∧
        source.time ≤ read.time ∧ read.time ≤ source.time + quotaCacheTTL ∧
        (source.planRead = none → read.value = source.call.resolve settings.toQuotaConfig
          source.time source.tables.withoutPlans) ∧
        ∀ plan, source.planRead = some plan → read.time < plan.expiresAt) ∧
    ∀ request indexBytes : Int64, ∀ requestPoolID indexBytesPoolID : String,
      requestPoolID ≠ "" → indexBytesPoolID ≠ "" →
        let limits : OrgQuotaLimits :=
          ⟨request.toInt, true, requestPoolID, indexBytes.toInt, true, indexBytesPoolID⟩
        parseOrgQuotaCache (formatOrgQuotaCache limits) = some limits := by
  constructor
  · have start : CacheInv settings.toQuotaConfig (.initial clock tables) :=
      ⟨Keys.written_none, (fun _ _ wrote => nomatch wrote), List.forall_mem_nil _⟩
    have inv := invariant_run (P := CacheInv settings.toQuotaConfig)
      (fun _ event inv => cacheInv_step inv event) start events
    intro read member
    obtain ⟨source, given, sameKey, value, past, recent, unread, plans⟩ := inv.reads read member
    exact ⟨source, given, value, sameKey,
      fun plainS plainR => question_eq_of_cacheKey_eq plainS plainR sameKey, past, recent, unread,
      plans⟩
  · intro request indexBytes requestPoolID indexBytesPoolID named namedToo limits
    have parsed : parseOrgQuotaCache (formatOrgQuotaCache limits) = _ := parse_formatOrgQuotaCache
      ⟨request.le_toInt, request.toInt_lt⟩ ⟨indexBytes.le_toInt, indexBytes.toInt_lt⟩ ⟨rfl, rfl⟩
    rwa [if_neg (not_or.mpr ⟨named, namedToo⟩)] at parsed

def tieredSettings : LimitSettings where
  toQuotaConfig := tieredLimits
  requestFits tier := by
    unfold QuotaConfig.tierDailyRequestLimit
    split <;> decide
  indexBytesFits tier := by
    unfold QuotaConfig.tierIndexBytesLimit
    split <;> decide

/-- The pool of `acme` until the subscription of its owner ends and from then on. -/
def acmeReads : LimitState :=
  runFrom (LimitState.step tieredSettings.toQuotaConfig) (.initial 900 inheritingTables)
    [.call (.getOrgQuotaLimits "acme"), .tick 99, .call (.getOrgQuotaLimits "acme"), .tick 1,
      .call (.getOrgQuotaLimits "acme")]

theorem limit_caches_transparent_acme :
    acmeReads.reads.map (fun read => (read.time, read.value)) =
      [(1000, .org ⟨500, true, "ann", 4096, true, "ann"⟩),
        (999, .org ⟨700, true, "ann", 4096, true, "ann"⟩),
        (900, .org ⟨700, true, "ann", 4096, true, "ann"⟩)] ∧
    (∀ read ∈ acmeReads.reads, ∃ source, read.source = some source ∧
      read.value = source.value tieredSettings.toQuotaConfig) ∧
    parseOrgQuotaCache (formatOrgQuotaCache ⟨-5, true, "a,b", 0, true, "ann"⟩) =
      some ⟨-5, true, "a,b", 0, true, "ann"⟩ := by
  obtain ⟨reads, texts⟩ := limit_caches_transparent tieredSettings 900 inheritingTables
    [.call (.getOrgQuotaLimits "acme"), .tick 99, .call (.getOrgQuotaLimits "acme"), .tick 1,
      .call (.getOrgQuotaLimits "acme")]
  refine ⟨by decide +kernel, ?_, texts (-5) 0 "a,b" "ann" (by decide) (by decide)⟩
  intro read member
  obtain ⟨source, given, value, _⟩ := reads read member
  exact ⟨source, given, value⟩

end AcemcpRelay
