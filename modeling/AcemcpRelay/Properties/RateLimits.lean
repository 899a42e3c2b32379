import AcemcpRelay.RootState
import AcemcpRelay.Store.Spacing
import AcemcpRelay.Wire.Infix

/-!
# The limits on starts and deletions

`checkIndexStartRateLimit` and `checkDeleteRootRateLimit` are one limiter with different
intervals. A call is known by the tenant and the root, joined with a NUL; a tenant's
identifier comes from the database, whose texts hold no NUL, so that the join can be undone.
Times are in nanoseconds.
-/
namespace AcemcpRelay

open Store

def second : Nat := 10 ^ 9

/-- `indexStartMinInterval` and `indexStartSeenMaxEntries`. -/
def indexStartSpacing : Spacing where
  interval := 30 * second
  maxEntries := 4096
  unit := second
  positive := by decide

/-- `deleteRootMinInterval` and `deleteRootSeenMaxEntry`. -/
def deleteRootSpacing : Spacing where
  interval := 60 * second
  maxEntries := 4096
  unit := second
  positive := by decide

/-- A tenant's identifier, as the database holds it. -/
structure TenantText where
  text : String
  plain : '\x00' ∉ text.toList
  deriving DecidableEq

def checkIndexStartRateLimit (userID : TenantText) (rootID : String) (now : Nat)
    (seen : SeenTable String) : Nat × SeenTable String :=
  indexStartSpacing.check (userID.text ++ "\x00" ++ rootID) now seen

def checkDeleteRootRateLimit (tenantID : TenantText) (rootID : String) (now : Nat)
    (seen : SeenTable String) : Nat × SeenTable String :=
  deleteRootSpacing.check (tenantID.text ++ "\x00" ++ lceIndexRootID rootID) now seen

/-! ### Histories of one limiter -/

structure RootCall where
  tenant : TenantText
  rootID : String
  time : Nat
  deriving DecidableEq

/-- A function that answers calls, and the limiter that it is: its spacing, and the root that an
identifier names. -/
structure RootLimiter where
  check : TenantText → String → Nat → SeenTable String → Nat × SeenTable String
  spacing : Spacing
  root : String → String
  spaced : ∀ tenant rootID now seen,
    check tenant rootID now seen = spacing.check (tenant.text ++ "\x00" ++ root rootID) now seen

def indexStartLimiter : RootLimiter where
  check := checkIndexStartRateLimit
  spacing := indexStartSpacing
  root := id
  spaced _ _ _ _ := rfl

def deleteRootLimiter : RootLimiter where
  check := checkDeleteRootRateLimit
  spacing := deleteRootSpacing
  root := lceIndexRootID
  spaced _ _ _ _ := rfl

namespace RootLimiter

variable (limiter : RootLimiter)

def key (call : RootCall) : String := call.tenant.text ++ "\x00" ++ limiter.root call.rootID

/-- Whom a call is for. -/
def pair (call : RootCall) : TenantText × String := (call.tenant, limiter.root call.rootID)

def answersFrom : SeenTable String → List RootCall → List (RootCall × Nat)
  | _, [] => []
  | seen, call :: calls =>
    let (wait, after) := limiter.check call.tenant call.rootID call.time seen
    (call, wait) :: answersFrom after calls

/-- The calls with the seconds that their callers are told to wait. -/
def answers (calls : List RootCall) : List (RootCall × Nat) := limiter.answersFrom .empty calls

theorem answersFrom_eq (seen : SeenTable String) (calls : List RootCall) :
    limiter.answersFrom seen calls = limiter.spacing.history limiter.key (·.time) seen calls := by
  induction calls generalizing seen with
  | nil => rfl
  | cons call calls ih => simp only [answersFrom, Spacing.history, limiter.spaced, ih, key]

theorem answers_eq (calls : List RootCall) :
    limiter.answers calls = limiter.spacing.history limiter.key (·.time) .empty calls :=
  limiter.answersFrom_eq .empty calls

end RootLimiter

theorem rateKey_inj {a b : TenantText} {x y : String}
    (same : a.text ++ "\x00" ++ x = b.text ++ "\x00" ++ y) : a = b ∧ x = y := by
  obtain ⟨tenants, roots⟩ := Wire.join_nul_inj a.plain b.plain same
  refine ⟨?_, roots⟩
  cases a
  cases b
  congr

theorem RootLimiter.key_eq_iff {limiter : RootLimiter} {a b : RootCall} :
    limiter.key a = limiter.key b ↔ limiter.pair a = limiter.pair b := by
  constructor
  · intro same
    obtain ⟨tenants, roots⟩ := rateKey_inj same
    exact Prod.ext tenants roots
  · intro same
    obtain ⟨tenants, roots⟩ := Prod.mk.inj same
    rw [key, key, tenants, roots]

theorem ordered_from_zero {calls : List RootCall}
    (ordered : List.IsChain (· ≤ ·) (calls.map (·.time))) :
    Spacing.Ordered (RootCall.time ·) 0 calls := by
  cases calls with
  | nil => exact List.IsChain.singleton _
  | cons call calls => exact List.isChain_cons_cons.mpr ⟨Nat.zero_le _, ordered⟩

/-- What both limiters keep to: accepted calls for a root are an interval apart, a pair of
tenant and root is answered as if it were the only one, and who waits as told is accepted. -/
theorem root_rate_limits (limiter : RootLimiter)
    (known : limiter = indexStartLimiter ∨ limiter = deleteRootLimiter) (calls : List RootCall)
    (ordered : List.IsChain (· ≤ ·) (calls.map (·.time))) :
    (limiter.answers calls).Pairwise (fun first later =>
      limiter.pair first.1 = limiter.pair later.1 → first.2 = 0 → later.2 = 0 →
        first.1.time + limiter.spacing.interval ≤ later.1.time) ∧
    (∀ call, limiter.answers (calls.filter (limiter.pair · = limiter.pair call)) =
      (limiter.answers calls).filter (limiter.pair ·.1 = limiter.pair call)) ∧
    ∀ before refused middle last after,
      limiter.answers calls = before ++ refused :: (middle ++ last :: after) → refused.2 ≠ 0 →
      1 ≤ refused.2 ∧
        (limiter.pair last.1 = limiter.pair refused.1 →
          (∀ answer ∈ middle, limiter.pair answer.1 = limiter.pair refused.1 → answer.2 ≠ 0) →
          refused.1.time + refused.2 * second ≤ last.1.time → last.2 = 0) := by
  have seconds : limiter.spacing.unit = second := by
    rcases known with rfl | rfl <;> rfl
  simp only [RootLimiter.answers_eq]
  refine ⟨?_, fun call => ?_, fun before refused middle last after split waits => ⟨?_, ?_⟩⟩
  · refine List.Pairwise.imp ?_ (Spacing.history_spaced (ordered_from_zero ordered))
    exact fun far same => far (RootLimiter.key_eq_iff.mpr same)
  · have alone : limiter.spacing.history limiter.key (·.time) .empty
          (calls.filter (limiter.key · = limiter.key call)) =
        (limiter.spacing.history limiter.key (·.time) .empty calls).filter
          (limiter.key ·.1 = limiter.key call) :=
      Spacing.history_filter (ordered_from_zero ordered) rfl
    simpa only [RootLimiter.key_eq_iff] using alone
  · omega
  · intro same none late
    rw [← seconds] at late
    exact Spacing.accepted_after_wait split waits (RootLimiter.key_eq_iff.mpr same)
      (fun answer listed sameKey => none answer listed (RootLimiter.key_eq_iff.mp sameKey)) late

/-- A deletion that is asked for again after 30 and after 60 seconds. -/
def repeatedDeletion : List RootCall :=
  [⟨⟨"ann", by decide⟩, "repo", 0⟩, ⟨⟨"ann", by decide⟩, " repo", 30 * second⟩,
    ⟨⟨"ann", by decide⟩, "repo", 60 * second⟩]

theorem root_rate_limits_repeated : ∃ wait,
    (deleteRootLimiter.answers repeatedDeletion).map Prod.snd = [0, 30, wait] ∧ wait = 0 := by
  have limits := root_rate_limits deleteRootLimiter (.inr rfl) repeatedDeletion (by decide)
  refine ⟨_, rfl, ?_⟩
  exact (limits.2.2 [_] _ [] _ [] rfl (by decide)).2 (by decide) (List.forall_mem_nil _)
    (by decide)

end AcemcpRelay
