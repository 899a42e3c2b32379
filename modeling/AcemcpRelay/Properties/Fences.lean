import AcemcpRelay.Frame

/-!
# Fences

While a tenant has an active root deletion, only the deletion itself may hold a
lease of that tenant; while a configuration job changes the embedding, nobody
holds a lease and no deletion is active.

Admission checks both directions under the advisory locks, but the fences only
look at leases that are live, and they leave expired rows in the table. A renewal
runs outside the locks and revives such a row. `fencesExclude_iff` says that this
is the only way to break a fence.
-/
namespace AcemcpRelay

open Store

/-- What the fences promise at time `clock`. -/
structure FencesExclude (db : Database) (clock : Nat) : Prop where
  tenant : ∀ job ∈ db.rootDeletionJobs, job.active = true →
    ∀ lease ∈ db.leases, lease.userID = job.userID → lease.live clock = true →
      lease.kind = deleteRootJobKind
  platform : ∀ config ∈ db.platformConfigJobs, config.fencing = true →
    (∀ lease ∈ db.leases, lease.live clock = false) ∧
      ∀ job ∈ db.rootDeletionJobs, job.active = false

/-- The lease is one that a fence now standing keeps out. -/
def Excluded (db : Database) (lease : OperationLease) : Prop :=
  (∃ job ∈ db.rootDeletionJobs, job.active = true ∧ lease.userID = job.userID ∧
    lease.kind ≠ deleteRootJobKind) ∨
  ∃ config ∈ db.platformConfigJobs, config.fencing = true

/-- The step does not renew a stored lease that a fence excludes. A renewal whose
new expiry has passed before it commits is harmless. -/
def RenewsNoExcluded (world : World) : Event → Prop
  | .commit waited (.renew userID token) =>
    ∀ lease ∈ world.db.leases, lease.userID = userID → lease.token = token →
      world.clock < world.clock - waited + indexOperationLeaseDuration →
      ¬ Excluded world.db lease
  | _ => True

/-! ### One step -/

namespace FencesExclude

variable {db : Database} {now clock : Nat} {transaction : Transaction}

/-- A lease that no fence excludes, or that is not live, does no harm. -/
theorem iff_not_excluded : FencesExclude db clock ↔
    (∀ lease ∈ db.leases, lease.live clock = true → ¬ Excluded db lease) ∧
    ∀ config ∈ db.platformConfigJobs, config.fencing = true →
      ∀ job ∈ db.rootDeletionJobs, job.active = false := by
  constructor
  · intro fences
    refine ⟨?_, fun config stored fencing => (fences.platform config stored fencing).2⟩
    rintro lease member live (⟨job, stored, active, owner, other⟩ | ⟨config, stored, fencing⟩)
    · exact other (fences.tenant job stored active lease member owner live)
    · rw [(fences.platform config stored fencing).1 lease member] at live
      exact Bool.false_ne_true live
  · rintro ⟨outside, quiet⟩
    constructor
    · intro job stored active lease member owner live
      by_contra other
      exact outside lease member live (.inl ⟨job, stored, active, owner, other⟩)
    · intro config stored fencing
      refine ⟨fun lease member => ?_, quiet config stored fencing⟩
      by_contra live
      exact outside lease member (by simpa using live) (.inr ⟨config, stored, fencing⟩)

/-- Time only kills leases. -/
theorem later (fences : FencesExclude db clock) (elapsed : Nat) :
    FencesExclude db (clock + elapsed) := by
  have alive {lease : OperationLease} (live : lease.live (clock + elapsed) = true) :
      lease.live clock = true := by
    simp only [OperationLease.live, decide_eq_true_eq] at live ⊢
    omega
  rw [iff_not_excluded] at fences ⊢
  exact ⟨fun lease member live => fences.1 lease member (alive live), fences.2⟩

/-- The admission statement looks at every fence, whether or not it is old. -/
theorem not_excluded_of_admits {wanted : OperationLease} (free : db.admits now wanted = true) :
    ¬ Excluded db wanted := by
  simp only [Database.admits, Bool.and_eq_true, Bool.not_eq_true', Table.holds_eq_false] at free
  rintro (⟨job, stored, active, owner, other⟩ | ⟨config, stored, fencing⟩)
  · have unmarked := free.1.2 job stored
    simp [active, owner, other] at unmarked
  · have unfenced := free.2 config stored
    rw [fencing] at unfenced
    exact Bool.false_ne_true unfenced.symm

/-- Both fences stand on markers that were there, unless this transaction set one. -/
theorem quiet_exec (quiet : ∀ config ∈ db.platformConfigJobs, config.fencing = true →
      ∀ job ∈ db.rootDeletionJobs, job.active = false) :
    ∀ config ∈ (db.exec now clock transaction).platformConfigJobs, config.fencing = true →
      ∀ job ∈ (db.exec now clock transaction).rootDeletionJobs, job.active = false := by
  intro config member fencing job listed
  by_contra active
  rw [Bool.not_eq_false] at active
  rcases db.exec_configs now clock transaction with configs | ⟨_, _, changed, configs, rfl, after,
    inserted, -, idle⟩
  · obtain ⟨earlier, stored, traced⟩ := configs config member
    rcases db.exec_deletions now clock transaction with deletions | ⟨_, _, _, _, _, _, _, rfl, -, -,
      -, -, -, unfenced⟩
    · obtain ⟨marker, source, carried⟩ := deletions job listed
      have wasActive := (carried active).1
      rw [quiet earlier stored (traced fencing) marker source] at wasActive
      exact Bool.false_ne_true wasActive
    · have wasFencing := traced fencing
      rw [unfenced earlier stored] at wasFencing
      exact Bool.false_ne_true wasFencing
  · -- a new embedding job found no active deletion
    rw [after] at member listed
    rcases (Table.mem_insert inserted).mp member with stored | added
    · rw [quiet config stored fencing job listed] at active
      exact Bool.false_ne_true active
    · rw [List.mem_singleton] at added
      subst added
      have fences : changed = true := by
        simpa [PlatformConfigJob.fencing, PlatformConfigJob.enqueued, PlatformConfigJob.active]
          using fencing
      rw [(idle fences).2 job listed] at active
      exact Bool.false_ne_true active

/-- A lease that is excluded afterwards was excluded before, or this transaction
set the fence and found the lease dead. -/
theorem excluded_exec {lease : OperationLease} (stored : lease ∈ db.leases)
    (live : lease.live now = true) (excluded : Excluded (db.exec now clock transaction) lease) :
    Excluded db lease := by
  rcases excluded with ⟨job, member, active, owner, other⟩ | ⟨config, member, fencing⟩
  · rcases db.exec_deletions now clock transaction with deletions | ⟨tenantID, _, _, _, _, _, _, rfl,
      after, inserted, -, idle, -⟩
    · obtain ⟨old, source, traced⟩ := deletions job member
      obtain ⟨wasActive, -, sameUser, -⟩ := traced active
      exact .inl ⟨old, source, wasActive, owner.trans sameUser.symm, other⟩
    · rw [after] at member
      rcases (Table.mem_insert inserted).mp member with old | added
      · exact .inl ⟨job, old, active, owner, other⟩
      · rw [List.mem_singleton] at added
        subst added
        rw [idle lease stored owner] at live
        exact absurd live Bool.false_ne_true
  · rcases db.exec_configs now clock transaction with configs | ⟨_, _, changed, _, rfl, after,
      inserted, -, idle⟩
    · obtain ⟨old, source, traced⟩ := configs config member
      exact .inr ⟨old, source, traced fencing⟩
    · rw [after] at member
      rcases (Table.mem_insert inserted).mp member with old | added
      · exact .inr ⟨config, old, fencing⟩
      · rw [List.mem_singleton] at added
        subst added
        have fences : changed = true := by
          simpa [PlatformConfigJob.fencing, PlatformConfigJob.enqueued, PlatformConfigJob.active]
            using fencing
        rw [(idle fences).1 lease stored] at live
        exact absurd live Bool.false_ne_true

/-- No transaction but a renewal can break a fence. -/
theorem exec_of_not_renew (fences : FencesExclude db clock) (started : now ≤ clock)
    (other : ∀ userID token, transaction ≠ .renew userID token) :
    FencesExclude (db.exec now clock transaction) clock := by
  rw [iff_not_excluded] at fences ⊢
  refine ⟨?_, quiet_exec fences.2⟩
  intro lease member live excluded
  have alive : lease.live now = true := by
    simp only [OperationLease.live, decide_eq_true_eq] at live ⊢
    omega
  rcases Database.mem_exec_leases member with stored | ⟨_, _, _, _, _, rfl, -, free⟩ |
    ⟨userID, token, -, rfl, -⟩
  · exact fences.1 lease stored live (excluded_exec stored alive excluded)
  · -- an attempt that was admitted met no fence, and sets none
    rw [db.exec_onLeases now clock rfl] at excluded
    exact not_excluded_of_admits free excluded
  · exact other userID token rfl

theorem exec_renew_iff (fences : FencesExclude db clock) (userID token : String) :
    FencesExclude (db.exec now clock (.renew userID token)) clock ↔
      ∀ lease ∈ db.leases, lease.userID = userID → lease.token = token →
        clock < now + indexOperationLeaseDuration → ¬ Excluded db lease := by
  have same (lease : OperationLease) :
      Excluded (db.exec now clock (.renew userID token)) lease ↔ Excluded db lease := Iff.rfl
  rw [iff_not_excluded] at fences ⊢
  constructor
  · rintro ⟨outside, -⟩ lease stored rfl rfl revived
    have member : lease.renew now ∈ (db.exec now clock (.renew lease.userID lease.token)).leases :=
      Database.mem_renewIndexOperation.mpr ⟨lease, stored, by simp⟩
    exact outside (lease.renew now) member (decide_eq_true revived)
  · intro spared
    refine ⟨?_, fences.2⟩
    intro lease member live
    obtain ⟨old, stored, rfl⟩ := Database.mem_renewIndexOperation.mp member
    rw [same]
    split at live
    next hit =>
      rw [if_pos hit]
      simp only [Bool.and_eq_true, beq_iff_eq] at hit
      exact spared old stored hit.1 hit.2 (of_decide_eq_true live)
    next missed =>
      rw [if_neg missed]
      exact fences.1 old stored live

end FencesExclude

/-- **The step lemma**: a step keeps the fences iff it renews no lease that they
exclude. -/
theorem fencesExclude_step (world : World) (event : Event)
    (fences : FencesExclude world.db world.clock) :
    FencesExclude (world.step event).db (world.step event).clock ↔ RenewsNoExcluded world event := by
  cases event with
  | tick elapsed => exact ⟨fun _ => trivial, fun _ => fences.later elapsed⟩
  | commit waited transaction =>
    simp only [World.step]
    cases transaction with
    | renew userID token => exact fences.exec_renew_iff userID token
    | _ =>
      refine ⟨fun _ => trivial, fun _ => ?_⟩
      split
      · dsimp only
        apply fences.exec_of_not_renew (Nat.sub_le _ _)
        intro userID token renewal
        cases renewal
      · exact fences

theorem fencesExclude_initial : FencesExclude World.initial.db World.initial.clock where
  tenant job stored := absurd stored (Table.not_mem_empty job)
  platform config stored := absurd stored (Table.not_mem_empty config)

/-- **Fences**: the states of a run all respect the fences if and only if no step of
it renews a lease that a standing fence excludes. -/
theorem fencesExclude_iff (events : List Event) :
    Throughout World.step (fun world => FencesExclude world.db world.clock) World.initial events ↔
      Along World.step RenewsNoExcluded World.initial events :=
  throughout_iff_along (fun (_ : World) (_ : Event) (_ : True) => trivial)
    (fun world event _ => fencesExclude_step world event) trivial fencesExclude_initial events

/-- An upload's lease expires, a root deletion is admitted because it is dead, and
the upload's renewal brings it back. -/
def lateRenewal : List Event :=
  [.commit 0 (.acquire "tenant" "job:1" indexUploadBatchKind "lease" .shared),
   .tick indexOperationLeaseDuration,
   .commit 0 (.submitDeletion "tenant" "owner" "root" "" "deletion" 0),
   .commit 0 (.renew "tenant" "lease")]

theorem lateRenewal_breaks_fence :
    ¬ Throughout World.step (fun world => FencesExclude world.db world.clock) World.initial
      lateRenewal := by
  intro always
  have fences := always.last
  have upload : indexUploadBatchKind = deleteRootJobKind :=
    fences.tenant (.submitted 120000 "tenant" "owner" "root" "deletion") (by decide) (by decide)
      { token := "lease", userID := "tenant", resource := "job:1", mode := .shared,
        kind := indexUploadBatchKind, expiresAt := 240000 } (by decide) rfl (by decide)
  exact absurd upload (by decide)

end AcemcpRelay
