import AcemcpRelay.Quota

/-!
# The tables behind the limits

The rows that the queries of `quota.go` read, and what these queries answer at one moment.
A user's limit is a row of `user_quotas`, else the active subscription, else the tier of the
key. An organization's limit is a row of `org_quotas`, else that of its canonical owner,
which one joined query finds.
-/
namespace AcemcpRelay

open Store

/-- A row of `user_quotas`. A limit that is not set is inherited. -/
structure UserQuota where
  userID : String
  dailyLimit : Option Int64
  dailyIndexBytesLimit : Option Int64
  deriving DecidableEq, Repr

/-- A row of `user_subscriptions`, as far as limits go. -/
structure PlanSubscription where
  userID : String
  dailyRequestLimit : Int64
  dailyIndexBytesLimit : Int64
  startsAt : Nat
  expiresAt : Nat
  deriving DecidableEq, Repr

/-- A row of `org_quotas`. -/
structure OrgQuota where
  orgID : String
  dailyRequestLimit : Option Int64
  dailyIndexBytesLimit : Option Int64
  deriving DecidableEq, Repr

/-- A row of `api_keys`, as far as the tier of an owner goes. -/
structure TierKey where
  id : String
  userID : String
  orgID : Option String
  tier : String
  createdAt : Nat
  deriving DecidableEq, Repr

namespace TierKey

/-- `ORDER BY (org_id IS NULL) DESC, created_at, id`. -/
def notLater (a b : TierKey) : Prop :=
  (a.orgID.isNone ∧ b.orgID.isSome) ∨ (a.orgID.isNone = b.orgID.isNone ∧
    (a.createdAt < b.createdAt ∨ (a.createdAt = b.createdAt ∧ a.id ≤ b.id)))

instance : DecidableRel notLater := fun a b => inferInstanceAs (Decidable
  ((a.orgID.isNone ∧ b.orgID.isSome) ∨ (a.orgID.isNone = b.orgID.isNone ∧
    (a.createdAt < b.createdAt ∨ (a.createdAt = b.createdAt ∧ a.id ≤ b.id)))))

end TierKey

structure QuotaTables where
  members : Table Member.id
  tierKeys : Table TierKey.id
  userQuotas : Table UserQuota.userID
  subscriptions : Table PlanSubscription.userID
  orgQuotas : Table OrgQuota.orgID
  /-- A member is a row of `user`, and has its identifier. -/
  named : ∀ member ∈ members, member.userID ≠ ""
  /-- The white space of the database's regular expressions. -/
  space : SpaceClass := .posix

/-- `(',' || regexp_replace(role, '\s', '', 'g') || ',') LIKE '%,owner,%'`, which is not true
of a role that is null. -/
def Member.ownsQuota (space : SpaceClass) (member : Member) : Bool :=
  member.role.any fun role =>
    contains ("," ++ String.ofList (role.toList.filter (!space.isSpace ·)) ++ ",") ",owner,"

namespace QuotaTables

variable (tables : QuotaTables) (now : Nat)

/-- `canonical_owner`. -/
def canonicalOwner (orgID : String) : Option Member :=
  ((tables.members.select fun member => member.organizationID == orgID &&
      member.ownsQuota tables.space).insertionSort Member.notLater).head?

/-- `COALESCE(owner_key.tier, 'free')`. -/
def ownerTier (orgID ownerID : String) : String :=
  (((tables.tierKeys.select fun key =>
      key.userID == ownerID && (key.orgID == none || key.orgID == some orgID)
    ).insertionSort TierKey.notLater).head?.map (·.tier)).getD "free"

/-- The subscription with `starts_at <= NOW() AND expires_at > NOW()`. -/
def activePlan (userID : String) : Option PlanSubscription :=
  (tables.subscriptions.lookup userID).filter fun plan => plan.startsAt ≤ now ∧ now < plan.expiresAt

/-! ### What the queries answer -/

def getUserPlanQuotaLimits (userID : String) : PlanQuotaLimits :=
  match tables.activePlan now userID with
  | none => {}
  | some plan =>
    { request := plan.dailyRequestLimit.toInt
      indexBytes := plan.dailyIndexBytesLimit.toInt
      found := true }

/-- The answers to `getUserDailyLimit` and `getUserIndexBytesLimit` without a cached limit:
they read different columns of `user_quotas`. -/
def userAnswers (column : UserQuota → Option Int64) (userID : String) : QuotaAnswers where
  userQuota := .ok (((tables.userQuotas.lookup userID).bind column).map Int64.toInt)
  userPlan := tables.getUserPlanQuotaLimits now userID

/-- The row of the query of `getOrgOwnerQuotaLimits`. -/
def ownerRow (orgID : String) : Option OwnerQuotaRow :=
  (tables.canonicalOwner orgID).map fun owner =>
    let overrides := tables.userQuotas.lookup owner.userID
    { ownerID := owner.userID
      -- `NULL` columns and missing rows are told apart nowhere in the query
      requestOverride := (overrides.bind (·.dailyLimit)).map Int64.toInt
      indexBytesOverride := (overrides.bind (·.dailyIndexBytesLimit)).map Int64.toInt
      plan := (tables.activePlan now owner.userID).map fun plan =>
        (plan.dailyRequestLimit.toInt, plan.dailyIndexBytesLimit.toInt)
      ownerTier := tables.ownerTier orgID owner.userID }

/-- The answers to `getOrgQuotaLimits` without cached limits. -/
def orgAnswers (orgID : String) : QuotaAnswers where
  orgQuota := .ok ((tables.orgQuotas.lookup orgID).map fun row =>
    (row.dailyRequestLimit.map Int64.toInt, row.dailyIndexBytesLimit.map Int64.toInt))
  orgOwner := .ok (tables.ownerRow now orgID)

/-- The request limit that `org_quotas` sets. -/
def orgRequestLimit (orgID : String) : Option Int64 :=
  (tables.orgQuotas.lookup orgID).bind (·.dailyRequestLimit)

/-- The limit on indexed bytes that `org_quotas` sets. -/
def orgIndexBytesLimit (orgID : String) : Option Int64 :=
  (tables.orgQuotas.lookup orgID).bind (·.dailyIndexBytesLimit)

end QuotaTables

/-! ### One limit for an inherited pool -/

namespace QuotaTables

variable {tables : QuotaTables} {orgID : String} {owner : Member}

theorem canonicalOwner_named (found : tables.canonicalOwner orgID = some owner) :
    owner.userID ≠ "" := by
  have first := List.mem_of_mem_head? found
  rw [List.mem_insertionSort] at first
  exact tables.named owner (List.mem_filter.mp first).1

/-- What a user is given, whichever limit it is: the row, the active plan or the tier. -/
theorem userLimitOr_userAnswers (now : Nat) (column : UserQuota → Option Int64) (userID : String)
    (ofTier : Int) (ofPlan : PlanQuotaLimits → Int) :
    (tables.userAnswers now column userID).userLimitOr ofTier ofPlan =
      (((tables.userQuotas.lookup userID).bind column).map Int64.toInt).getD
        (((tables.activePlan now userID).map fun _ =>
          ofPlan (tables.getUserPlanQuotaLimits now userID)).getD ofTier) := by
  unfold QuotaAnswers.userLimitOr userAnswers getUserPlanQuotaLimits
  cases (tables.userQuotas.lookup userID).bind column with
  | some limit => rfl
  | none =>
    cases tables.activePlan now userID with
    | none => rfl
    | some plan => rfl

theorem getOrgQuotaLimits_orgAnswers (config : QuotaConfig) (now : Nat) :
    getOrgQuotaLimits config (tables.orgAnswers now orgID) orgID =
      inheritOrgQuotaLimits config (tables.orgAnswers now orgID) orgID
        ((tables.orgRequestLimit orgID).map Int64.toInt)
        ((tables.orgIndexBytesLimit orgID).map Int64.toInt) := by
  unfold getOrgQuotaLimits orgAnswers orgRequestLimit orgIndexBytesLimit
  cases tables.orgQuotas.lookup orgID with
  | none => rfl
  | some row => rfl

end QuotaTables

end AcemcpRelay
