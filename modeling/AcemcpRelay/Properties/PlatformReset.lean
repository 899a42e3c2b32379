import AcemcpRelay.SnapshotSteps

/-!
# The platform reset

A change of the embedding makes every index useless, and the transaction that records
it deletes them all. Done a second time, after the tenants have indexed anew, it would
delete good indexes; so it has to happen once per configuration job, on the word of
LCE that the change was made.

## Proof strategy

A row of `platform_config_jobs` is never deleted and keeps its identity. It is closed by
the transaction that has its receipt, and every statement that writes a row asks for a
row that is not closed; hence one reset per job. That the flag of the receipt is the flag
of the stored row follows from where workers get their jobs: a claim returns the row.
-/
namespace AcemcpRelay

open Store Database

/-- The receipt says what became of this job. -/
def ConfigReceipt.confirms (receipt : ConfigReceipt) (job : PlatformConfigJob) : Prop :=
  receipt.operationID = job.id ∧ receipt.embeddingChanged = job.embeddingChanged ∧
    receipt.state ≠ .other

/-- What a transaction does to a configuration job. -/
inductive ConfigChange (now : Nat) :
    Transaction → PlatformConfigJob → PlatformConfigJob → Prop where
  | same (transaction : Transaction) (old : PlatformConfigJob) : ConfigChange now transaction old old
  | recovered (old : PlatformConfigJob) (running : old.status = .running)
      (paused : old.recoveryRequired = true) :
      ConfigChange now (.recoverConfig old.id) old { old with
        recoveryRequired := false, attemptCount := 0, nextAttemptAt := now, updatedAt := now
        error := "" }
  | paused (attempt : String) (locked : List String) (old : PlatformConfigJob)
      (exhausted : old.exhausted now = true) :
      ConfigChange now (.claimConfig attempt locked) old { old with
        recoveryRequired := true, error := configUnconfirmed, updatedAt := now }
  | claimed (attempt : String) (locked : List String) (old : PlatformConfigJob)
      (claimable : old.claimable now = true) :
      ConfigChange now (.claimConfig attempt locked) old (old.claim now attempt)
  | deferred (job old row : PlatformConfigJob) (current : old.claimedBy job now = true)
      (same : row = { old with
        claimUntil := row.claimUntil, nextAttemptAt := row.nextAttemptAt
        recoveryRequired := row.recoveryRequired, error := row.error, updatedAt := row.updatedAt }) :
      ConfigChange now (.deferConfig job) old row
  | closed (job : PlatformConfigJob) (receipt : ConfigReceipt) (old : PlatformConfigJob)
      (current : old.claimedBy job now = true) (confirmed : receipt.confirms job) :
      ConfigChange now (.finishConfig job receipt) old (old.close now receipt)

namespace PlatformConfigJob

variable {row job : PlatformConfigJob} {now : Nat}

theorem claimedBy_iff : row.claimedBy job now = true ↔
    row.id = job.id ∧ row.attemptID = job.attemptID ∧ job.attemptID.isSome = true ∧
      row.status = .running ∧ ∃ deadline, row.claimUntil = some deadline ∧ now < deadline := by
  unfold claimedBy
  cases row.claimUntil <;> simp [and_assoc]

theorem active_of_status (waiting : row.status = .pending ∨ row.status = .running) :
    row.active = true := by
  rcases waiting with same | same <;> simp [active, same]

theorem active_of_claimable (claimable : row.claimable now = true) : row.active = true := by
  simp only [PlatformConfigJob.claimable, Bool.and_eq_true, Bool.or_eq_true, beq_iff_eq]
    at claimable
  exact active_of_status (claimable.1.1.1.imp_right And.left)

theorem active_of_exhausted (exhausted : row.exhausted now = true) : row.active = true := by
  simp only [PlatformConfigJob.exhausted, Bool.and_eq_true, beq_iff_eq] at exhausted
  exact active_of_status (.inr exhausted.1.1.1)

theorem active_of_claimedBy (current : row.claimedBy job now = true) : row.active = true :=
  active_of_status (.inr (claimedBy_iff.mp current).2.2.2.1)

theorem close_inactive (receipt : ConfigReceipt) : (row.close now receipt).active = false := by
  by_cases rejected : receipt.state = .rejected <;> simp [close, active, rejected]

end PlatformConfigJob

namespace ConfigChange

variable {now : Nat} {transaction : Transaction} {old row : PlatformConfigJob}

theorem identity (change : ConfigChange now transaction old row) :
    row.id = old.id ∧ row.sectionName = old.sectionName ∧
      row.embeddingChanged = old.embeddingChanged := by
  cases change with
  | deferred job _ _ _ same =>
    rw [same]
    exact ⟨rfl, rfl, rfl⟩
  | same | recovered | paused | claimed | closed => exact ⟨rfl, rfl, rfl⟩

theorem eq_of_inactive (change : ConfigChange now transaction old row)
    (ended : old.active = false) : row = old := by
  have impossible (active : old.active = true) : row = old := by
    rw [ended] at active
    cases active
  cases change with
  | same => rfl
  | recovered _ running => exact impossible (PlatformConfigJob.active_of_status (.inr running))
  | paused _ _ _ exhausted => exact impossible (PlatformConfigJob.active_of_exhausted exhausted)
  | claimed _ _ _ claimable => exact impossible (PlatformConfigJob.active_of_claimable claimable)
  | deferred _ _ _ current | closed _ _ _ current =>
    exact impossible (PlatformConfigJob.active_of_claimedBy current)

/-- A job stops being pending or running by its receipt only. -/
theorem active_or_closed (change : ConfigChange now transaction old row)
    (active : old.active = true) : row.active = true ∨
      ∃ job receipt, transaction = .finishConfig job receipt ∧ old.claimedBy job now = true ∧
        receipt.confirms job ∧ row = old.close now receipt := by
  cases change with
  | closed job receipt _ current confirmed =>
    exact .inr ⟨job, receipt, rfl, current, confirmed, rfl⟩
  | deferred job _ _ _ same =>
    rw [same]
    exact .inl active
  | claimed => exact .inl rfl
  | same | recovered | paused => exact .inl active

/-- A claim counts as an attempt and asks for one that is left. -/
theorem attempts (change : ConfigChange now transaction old row)
    (within : old.attemptCount ≤ platformConfigJobMaxAttempts) :
    row.attemptCount ≤ platformConfigJobMaxAttempts := by
  cases change with
  | recovered => exact Nat.zero_le _
  | claimed _ _ _ claimable =>
    simp only [PlatformConfigJob.claimable, Bool.and_eq_true, decide_eq_true_eq] at claimable
    exact claimable.2
  | deferred _ _ _ _ same =>
    rw [same]
    exact within
  | same | paused | closed => exact within

end ConfigChange

namespace Database

variable {db : Database} {now clock : Nat}

/-- What a claim does, and the job that it hands to its worker. -/
theorem claimPlatformConfigJob_cases (db : Database) (now : Nat) (attempt : String)
    (locked : List String) :
    ((db.claimPlatformConfigJob now attempt locked).1 = none ∧
      (db.claimPlatformConfigJob now attempt locked).2.platformConfigJobs =
        db.platformConfigJobs.update (·.exhausted now) (fun job => { job with
          recoveryRequired := true, error := configUnconfirmed, updatedAt := now })) ∨
    ∃ candidate ∈ db.platformConfigJobs, candidate.claimable now = true ∧
      (db.claimPlatformConfigJob now attempt locked).1 = some (candidate.claim now attempt) ∧
      (db.claimPlatformConfigJob now attempt locked).2.platformConfigJobs =
        (db.platformConfigJobs.update (·.exhausted now) (fun job => { job with
          recoveryRequired := true, error := configUnconfirmed, updatedAt := now })).update
            (·.id == candidate.id) (·.claim now attempt) := by
  unfold claimPlatformConfigJob
  dsimp only
  split
  · exact .inl ⟨rfl, rfl⟩
  next candidate others sorted =>
    have first : candidate ∈ db.platformConfigJobs.select (fun job =>
        job.claimable now && !locked.contains job.id) := by
      rw [← List.mem_insertionSort (fun a b => a.createdAt ≤ b.createdAt), sorted]
      exact List.mem_cons_self
    obtain ⟨stored, free⟩ := Table.mem_select.mp first
    rw [Bool.and_eq_true] at free
    exact .inr ⟨candidate, stored, free.1, rfl, rfl⟩

theorem not_exhausted_of_claimable_config {job : PlatformConfigJob}
    (claimable : job.claimable now = true) : job.exhausted now = false := by
  simp only [PlatformConfigJob.claimable, Bool.and_eq_true, decide_eq_true_eq] at claimable
  have spare : ¬ platformConfigJobMaxAttempts ≤ job.attemptCount := Nat.not_le.mpr claimable.2
  simp [PlatformConfigJob.exhausted, spare]

theorem claimConfig_rows (attempt : String) (locked : List String) :
    Table.Rewrites (ConfigChange now (.claimConfig attempt locked)) db.platformConfigJobs
      (db.claimPlatformConfigJob now attempt locked).2.platformConfigJobs := by
  rcases db.claimPlatformConfigJob_cases now attempt locked with
    ⟨-, same⟩ | ⟨candidate, stored, claimable, -, same⟩
  all_goals rw [same]
  · exact Table.rewrites_update (.same _) fun row _ hit => .paused attempt locked row hit
  -- the statement pauses other rows than the one it claims
  have spared := not_exhausted_of_claimable_config claimable
  constructor
  · intro row member
    rcases Table.mem_update_cases member with ⟨kept, missed⟩ | ⟨middle, kept, hit, rfl⟩
    · rcases Table.mem_update_cases kept with ⟨old, -⟩ | ⟨old, source, exhausted, rfl⟩
      · exact ⟨row, old, .same _ row⟩
      · exact ⟨old, source, .paused attempt locked old exhausted⟩
    · rw [beq_iff_eq] at hit
      rcases Table.mem_update_cases kept with ⟨old, -⟩ | ⟨old, source, exhausted, rfl⟩
      · obtain rfl := Table.eq_of_key_eq old stored hit
        exact ⟨middle, old, .claimed attempt locked middle claimable⟩
      · obtain rfl := Table.eq_of_key_eq source stored hit
        rw [spared] at exhausted
        cases exhausted
  · intro old member
    by_cases hit : old.id = candidate.id
    · obtain rfl := Table.eq_of_key_eq member stored hit
      exact ⟨_, Table.mem_update_of_hit (Table.mem_update_of_not member spared) (by simp),
        .claimed attempt locked old claimable⟩
    · have missed : (old.id == candidate.id) = false := by simpa using hit
      cases exhausted : old.exhausted now with
      | false =>
        exact ⟨old, Table.mem_update_of_not (Table.mem_update_of_not member exhausted) missed,
          .same _ old⟩
      | true =>
        exact ⟨_, Table.mem_update_of_not (Table.mem_update_of_hit member exhausted) missed,
          .paused attempt locked old exhausted⟩

/-- `finishPlatformConfigJob`, taken apart: the receipt confirms the job, its attempt holds
the claim of the one row that is closed, and a completed change of the embedding
clears all index state. -/
theorem finishPlatformConfigJob_inv {after : Database} {job : PlatformConfigJob}
    {receipt : ConfigReceipt}
    (committed : db.finishPlatformConfigJob now job receipt = .ok after) :
    ∃ row ∈ db.platformConfigJobs, row.claimedBy job now = true ∧ receipt.confirms job ∧
      after = { (if receipt.state = .completed ∧ job.embeddingChanged then
          db.clearAllRelayIndexState else db) with
        platformConfigJobs := db.platformConfigJobs.update
          (fun row => row.id == job.id && row.attemptID == job.attemptID)
            (·.close now receipt) } := by
  unfold finishPlatformConfigJob at committed
  split at committed
  · cases committed
  next confirmed =>
    simp only [not_or, ne_eq, not_not] at confirmed
    split at committed
    next current =>
      obtain ⟨row, stored, claimed⟩ := Table.holds_eq_true.mp current
      cases committed
      exact ⟨row, stored, claimed, confirmed, rfl⟩
    · cases committed

theorem closed_rows {job row : PlatformConfigJob} {receipt : ConfigReceipt}
    (stored : row ∈ db.platformConfigJobs) (current : row.claimedBy job now = true)
    (confirmed : receipt.confirms job) :
    Table.Rewrites (ConfigChange now (.finishConfig job receipt)) db.platformConfigJobs
      (db.platformConfigJobs.update
        (fun row => row.id == job.id && row.attemptID == job.attemptID) (·.close now receipt)) := by
  refine Table.rewrites_update (.same _) fun other member hit => ?_
  simp only [Bool.and_eq_true, beq_iff_eq] at hit
  obtain rfl := Table.eq_of_key_eq member stored
    (hit.1.trans (PlatformConfigJob.claimedBy_iff.mp current).1.symm)
  exact .closed job receipt other current confirmed

/-- What a transaction does to the configuration jobs: it rewrites rows, or it admits
a job while none is pending or running. -/
theorem exec_configRows (db : Database) (now clock : Nat) (transaction : Transaction) :
    Table.Rewrites (ConfigChange now transaction) db.platformConfigJobs
      (db.exec now clock transaction).platformConfigJobs ∨
    ∃ id sectionName embeddingChanged,
      transaction = .enqueueConfig id sectionName embeddingChanged ∧
      db.platformConfigJobs.insert [.enqueued now id sectionName embeddingChanged] =
        some (db.exec now clock transaction).platformConfigJobs ∧
      ∀ config ∈ db.platformConfigJobs, config.active = false := by
  have unchanged : Table.Rewrites (ConfigChange now transaction) db.platformConfigJobs
      db.platformConfigJobs := .refl (.same _)
  cases transaction with
  | enqueueConfig id sectionName embeddingChanged =>
    simp only [exec]
    rcases db.settle_map_eq (db.enqueuePlatformConfigJob now id sectionName embeddingChanged)
      with same | ⟨job, enqueued⟩
    · rw [same]
      exact .inl unchanged
    rcases enqueuePlatformConfigJob_cases enqueued with same | ⟨jobs, same, inserted, free, -⟩
    · rw [same]
      exact .inl unchanged
    · rw [same]
      exact .inr ⟨id, sectionName, embeddingChanged, rfl, inserted, Table.holds_eq_false.mp free⟩
  | recoverConfig id =>
    refine .inl (Table.rewrites_update (.same _) fun row _ hit => ?_)
    simp only [Bool.and_eq_true, beq_iff_eq] at hit
    obtain ⟨⟨rfl, running⟩, paused⟩ := hit
    exact .recovered row running paused
  | claimConfig attempt locked => exact .inl (claimConfig_rows attempt locked)
  | deferConfig job =>
    exact .inl (Table.rewrites_update (.same _) fun row _ hit => .deferred job row _ hit rfl)
  | finishConfig job receipt =>
    simp only [exec]
    rcases db.settle_eq (db.finishPlatformConfigJob now job receipt) with same | committed
    · rw [same]
      exact .inl unchanged
    · obtain ⟨row, stored, current, confirmed, same⟩ := finishPlatformConfigJob_inv committed
      rw [same]
      exact .inl (closed_rows stored current confirmed)
  | finishDeletion job cloudCount =>
    simp only [exec]
    rcases db.settle_eq (db.finishRootDeletion now job cloudCount) with same | committed
    · rw [same]
      exact .inl unchanged
    · rw [(finishRootDeletion_eq_ok committed).2.1]
      exact .inl unchanged
  | acquire | renew | release =>
    rw [exec_onLeases db now clock rfl]
    exact .inl unchanged
  | submitDeletion | claimDeletion | recordDeletionError | pruneDeletions =>
    rw [exec_onDeletions db now clock rfl]
    exact .inl unchanged
  | _ =>
    rw [(exec_sameFences db now clock rfl).configs]
    exact .inl unchanged

end Database

/-! ### Runs with workers -/

/-- A run together with the jobs that claims have handed out. -/
structure Platform where
  world : World
  given : List PlatformConfigJob

namespace Platform

def initial : Platform := ⟨World.initial, []⟩

/-- The job that an event hands to a worker. -/
def hands (world : World) : Event → Option PlatformConfigJob
  | .commit waited (.claimConfig attempt locked) =>
    (world.db.claimPlatformConfigJob (world.clock - waited) attempt locked).1
  | _ => none

def step (platform : Platform) (event : Event) : Platform :=
  ⟨platform.world.step event, (hands platform.world event).toList ++ platform.given⟩

/-- A worker finishes a job that a claim gave to it, at any time later. -/
def finishesGiven (platform : Platform) : Event → Bool
  | .commit _ (.finishConfig job _) => platform.given.contains job
  | _ => true

end Platform

/-- The event closes the row: the receipt of LCE confirms it and the attempt that brings
it holds the claim of the row. -/
structure Closes (world : World) (event : Event) (row : PlatformConfigJob)
    (receipt : ConfigReceipt) : Prop where
  stored : row ∈ world.db.platformConfigJobs
  confirmed : receipt.confirms row
  exists_attempt : ∃ waited job, event = .commit waited (.finishConfig job receipt) ∧
    row.claimedBy job (world.clock - waited) = true ∧
    row.close (world.clock - waited) receipt ∈ (world.step event).db.platformConfigJobs

/-- The event marks a job that changes the embedding `succeeded`, on its completed
receipt, and clears the index state of all tenants. -/
structure Resets (world : World) (event : Event) (row : PlatformConfigJob) : Prop where
  changes : row.embeddingChanged = true
  exists_receipt : ∃ receipt, Closes world event row receipt ∧ receipt.state = .completed
  succeeded : ∃ later ∈ (world.step event).db.platformConfigJobs,
    later.id = row.id ∧ later.status = .succeeded
  cleared : (world.step event).db = { world.db.clearAllRelayIndexState with
    platformConfigJobs := (world.step event).db.platformConfigJobs }

/-- At most one job is pending or running. -/
def OneConfigJob (db : Database) : Prop :=
  ∀ a ∈ db.platformConfigJobs, ∀ b ∈ db.platformConfigJobs, a.active = true → b.active = true →
    a = b

structure ConfigDiscipline (platform : Platform) : Prop where
  single : OneConfigJob platform.world.db
  attempts : ∀ row ∈ platform.world.db.platformConfigJobs,
    row.attemptCount ≤ platformConfigJobMaxAttempts
  given : ∀ job ∈ platform.given, ∃ row ∈ platform.world.db.platformConfigJobs,
    row.id = job.id ∧ row.embeddingChanged = job.embeddingChanged

section Step

variable {db : Database} {now clock : Nat} {transaction : Transaction} {world : World}
  {platform : Platform} {event : Event}

theorem OneConfigJob.exec (single : OneConfigJob db) :
    OneConfigJob (db.exec now clock transaction) := by
  rcases db.exec_configRows now clock transaction with rows | ⟨id, name, flag, -, inserted, idle⟩
  · intro a first b second activeA activeB
    obtain ⟨oldA, storedA, changeA⟩ := rows.source a first
    obtain ⟨oldB, storedB, changeB⟩ := rows.source b second
    -- a row that is active was active, and active rows are one
    have wasActive {old row : PlatformConfigJob} (change : ConfigChange now transaction old row)
        (active : row.active = true) : old.active = true := by
      by_contra ended
      rw [Bool.not_eq_true] at ended
      rw [change.eq_of_inactive ended, ended] at active
      cases active
    obtain rfl := single oldA storedA oldB storedB (wasActive changeA activeA)
      (wasActive changeB activeB)
    exact Table.eq_of_key_eq first second (changeA.identity.1.trans changeB.identity.1.symm)
  · have onlyNew {row : PlatformConfigJob} (member : row ∈ (db.exec now clock transaction
        ).platformConfigJobs) (active : row.active = true) : row = .enqueued now id name flag := by
      rcases (Table.mem_insert inserted).mp member with old | new
      · rw [idle row old] at active
        cases active
      · exact List.mem_singleton.mp new
    intro a first b second activeA activeB
    rw [onlyNew first activeA, onlyNew second activeB]

theorem attempts_exec
    (within : ∀ row ∈ db.platformConfigJobs, row.attemptCount ≤ platformConfigJobMaxAttempts) :
    ∀ row ∈ (db.exec now clock transaction).platformConfigJobs,
      row.attemptCount ≤ platformConfigJobMaxAttempts := by
  intro row member
  rcases db.exec_configRows now clock transaction with rows | ⟨id, name, flag, -, inserted, -⟩
  · obtain ⟨old, stored, change⟩ := rows.source row member
    exact change.attempts (within old stored)
  · rcases (Table.mem_insert inserted).mp member with old | new
    · exact within row old
    · rw [List.mem_singleton.mp new]
      exact Nat.zero_le _

/-- No row disappears, and what it is about is not rewritten. -/
theorem configRow_exec {row : PlatformConfigJob} (stored : row ∈ db.platformConfigJobs) :
    ∃ later ∈ (db.exec now clock transaction).platformConfigJobs, later.id = row.id ∧
      later.embeddingChanged = row.embeddingChanged ∧ (row.active = false → later = row) := by
  rcases db.exec_configRows now clock transaction with rows | ⟨id, name, flag, -, inserted, -⟩
  · obtain ⟨later, member, change⟩ := rows.target row stored
    exact ⟨later, member, change.identity.1, change.identity.2.2, change.eq_of_inactive⟩
  · exact ⟨row, (Table.mem_insert inserted).mpr (.inl stored), rfl, rfl, fun _ => rfl⟩

theorem configRow_step (event : Event) {row : PlatformConfigJob}
    (stored : row ∈ world.db.platformConfigJobs) :
    ∃ later ∈ (world.step event).db.platformConfigJobs, later.id = row.id ∧
      later.embeddingChanged = row.embeddingChanged ∧ (row.active = false → later = row) := by
  cases event with
  | tick => exact ⟨row, stored, rfl, rfl, fun _ => rfl⟩
  | commit waited transaction =>
    simp only [World.step]
    split
    · exact configRow_exec stored
    · exact ⟨row, stored, rfl, rfl, fun _ => rfl⟩

/-- A claim hands out the row that it stores. -/
theorem handed_row {job : PlatformConfigJob} (handed : Platform.hands world event = some job) :
    job ∈ (world.step event).db.platformConfigJobs := by
  cases event with
  | tick => cases handed
  | commit waited transaction =>
    cases transaction with
    | claimConfig attempt locked =>
      simp only [Platform.hands] at handed
      simp only [World.step, World.admissible, exec, if_true]
      rcases world.db.claimPlatformConfigJob_cases (world.clock - waited) attempt locked with
        ⟨none, -⟩ | ⟨candidate, stored, claimable, some, same⟩
      · rw [none] at handed
        cases handed
      · rw [some] at handed
        cases handed
        rw [same]
        exact Table.mem_update_of_hit (Table.mem_update_of_not stored
          (not_exhausted_of_claimable_config claimable)) (by simp)
    | _ => cases handed

theorem ConfigDiscipline.initial : ConfigDiscipline Platform.initial where
  single := fun a stored => absurd stored (Table.not_mem_empty a)
  attempts := fun row stored => absurd stored (Table.not_mem_empty row)
  given := fun _ handed => absurd handed List.not_mem_nil

theorem ConfigDiscipline.step (discipline : ConfigDiscipline platform) (event : Event) :
    ConfigDiscipline (platform.step event) where
  single := World.step_of_exec (fun db now clock transaction => OneConfigJob.exec) platform.world
    event discipline.single
  attempts := World.step_of_exec (P := fun db => ∀ row ∈ db.platformConfigJobs,
      row.attemptCount ≤ platformConfigJobMaxAttempts)
    (fun db now clock transaction => attempts_exec) platform.world event discipline.attempts
  given := by
    intro job listed
    rcases List.mem_append.mp listed with handed | earlier
    · exact ⟨job, handed_row (Option.mem_toList.mp handed), rfl, rfl⟩
    · obtain ⟨row, stored, id, flag⟩ := discipline.given job earlier
      obtain ⟨later, member, sameID, sameFlag, -⟩ := configRow_step event stored
      exact ⟨later, member, sameID.trans id, sameFlag.trans flag⟩

/-- The transaction of a worker that brings a receipt. -/
theorem finish_step (discipline : ConfigDiscipline platform) {waited : Nat}
    {job : PlatformConfigJob} {receipt : ConfigReceipt}
    (given : platform.finishesGiven (.commit waited (.finishConfig job receipt)) = true) :
    (platform.world.step (.commit waited (.finishConfig job receipt))).db = platform.world.db ∨
    ∃ row, Closes platform.world (.commit waited (.finishConfig job receipt)) row receipt ∧
      ((platform.world.step (.commit waited (.finishConfig job receipt))).db =
          { platform.world.db with
            platformConfigJobs := (platform.world.step
              (.commit waited (.finishConfig job receipt))).db.platformConfigJobs } ∨
        Resets platform.world (.commit waited (.finishConfig job receipt)) row) := by
  have listed : job ∈ platform.given := by simpa [Platform.finishesGiven] using given
  set event : Event := .commit waited (.finishConfig job receipt)
  have after : (platform.world.step event).db = platform.world.db.settle
      (platform.world.db.finishPlatformConfigJob (platform.world.clock - waited) job receipt) := rfl
  rcases settle_eq platform.world.db (platform.world.db.finishPlatformConfigJob
    (platform.world.clock - waited) job receipt) with same | committed
  · exact .inl (after.trans same)
  rw [← after] at committed
  obtain ⟨row, stored, current, confirmed, same⟩ := finishPlatformConfigJob_inv committed
  obtain ⟨id, attempt, -⟩ := PlatformConfigJob.claimedBy_iff.mp current
  -- the worker has the flag of the stored row, since it was given that row
  obtain ⟨source, member, sameID, flag⟩ := discipline.given job listed
  obtain rfl := Table.eq_of_key_eq member stored (sameID.trans id.symm)
  have marked : source.close (platform.world.clock - waited) receipt ∈
      (platform.world.step event).db.platformConfigJobs := by
    rw [same]
    exact Table.mem_update_of_hit stored (by simp [id, attempt])
  have closes : Closes platform.world event source receipt :=
    ⟨stored, ⟨confirmed.1.trans id.symm, confirmed.2.1.trans flag.symm, confirmed.2.2⟩,
      waited, job, rfl, current, marked⟩
  refine .inr ⟨source, closes, ?_⟩
  by_cases resets : receipt.state = .completed ∧ job.embeddingChanged = true
  · rw [if_pos resets] at same
    refine .inr ⟨flag.trans resets.2, ⟨receipt, closes, resets.1⟩, ⟨_, marked, rfl, ?_⟩, ?_⟩
    · simp [PlatformConfigJob.close, resets.1]
    · rw [same]
  · rw [if_neg resets] at same
    exact .inl (by rw [same])

/-- A job that is pending or running stays so unless the event brings its receipt. -/
theorem active_or_closes (discipline : ConfigDiscipline platform)
    (given : platform.finishesGiven event = true) {row : PlatformConfigJob}
    (stored : row ∈ platform.world.db.platformConfigJobs) (active : row.active = true) :
    (∃ later ∈ (platform.world.step event).db.platformConfigJobs,
      later.id = row.id ∧ later.active = true) ∨
    ∃ receipt, Closes platform.world event row receipt := by
  cases event with
  | tick => exact .inl ⟨row, stored, rfl, active⟩
  | commit waited transaction =>
    by_cases admissible : platform.world.admissible transaction = true
    · have after : (platform.world.step (.commit waited transaction)).db = platform.world.db.exec
          (platform.world.clock - waited) platform.world.clock transaction := by
        simp only [World.step, admissible, if_true]
      rcases platform.world.db.exec_configRows (platform.world.clock - waited)
          platform.world.clock transaction with rows | ⟨id, name, flag, -, inserted, -⟩
      · obtain ⟨later, member, change⟩ := rows.target row stored
        rw [← after] at member
        rcases change.active_or_closed active with stays | ⟨job, receipt, rfl, current, -, rfl⟩
        · exact .inl ⟨later, member, change.identity.1, stays⟩
        · rcases finish_step discipline given with same | ⟨closed, closes, -⟩
          · rw [same]
            exact .inl ⟨row, stored, rfl, active⟩
          · obtain ⟨_, _, sameEvent, claimed, -⟩ := closes.exists_attempt
            cases sameEvent
            have sameID := (PlatformConfigJob.claimedBy_iff.mp claimed).1.trans
              (PlatformConfigJob.claimedBy_iff.mp current).1.symm
            obtain rfl := Table.eq_of_key_eq closes.stored stored sameID
            exact .inr ⟨receipt, closes⟩
      · rw [← after] at inserted
        exact .inl ⟨row, (Table.mem_insert inserted).mpr (.inl stored), rfl, active⟩
    · exact .inl ⟨row, by simpa [World.step, admissible] using stored, rfl, active⟩

/-- The transactions about configuration jobs leave the index state and the leases of all
tenants alone, a reset apart. -/
theorem sameIndex_or_resets (discipline : ConfigDiscipline platform) {waited : Nat}
    (given : platform.finishesGiven (.commit waited transaction) = true)
    (about : transaction.onConfigs = true ∨ ∃ job receipt, transaction = .finishConfig job receipt) :
    (SameIndex platform.world.db (platform.world.step (.commit waited transaction)).db ∧
      (platform.world.step (.commit waited transaction)).db.leases = platform.world.db.leases) ∨
    ∃ row, Resets platform.world (.commit waited transaction) row := by
  rcases about with configs | ⟨job, receipt, rfl⟩
  · by_cases admissible : platform.world.admissible transaction = true
    · simp only [World.step, admissible, if_true]
      rw [exec_onConfigs _ _ _ configs]
      exact .inl ⟨⟨rfl, rfl, rfl, rfl⟩, rfl⟩
    · simp only [World.step, admissible]
      exact .inl ⟨.refl _, rfl⟩
  · rcases finish_step discipline given with same | ⟨row, -, same | resets⟩
    · rw [same]
      exact .inl ⟨.refl _, rfl⟩
    · rw [same]
      exact .inl ⟨⟨rfl, rfl, rfl, rfl⟩, rfl⟩
    · exact .inr ⟨row, resets⟩

/-- A transaction that removes the workspace of a tenant and is not a reset is a
transaction for that tenant. -/
theorem removes_one_tenant (reset : ∀ job receipt, transaction ≠ .finishConfig job receipt) :
    ∃ owner, ∀ workspace ∈ db.indexWorkspaces, (∀ later ∈ (db.exec now clock transaction
      ).indexWorkspaces, later.key ≠ workspace.key) → workspace.userID = owner := by
  have change := db.exec_snapshots now clock transaction
  cases change with
  | same _ files workspaces =>
    rw [workspaces]
    exact ⟨"", fun workspace stored gone => absurd rfl (gone workspace stored)⟩
  | described userID req wait jobID normalized accepted files workspaces =>
    rw [workspaces]
    refine ⟨"", fun workspace stored gone => ?_⟩
    cases hit : (workspace.userID == userID && workspace.workspaceID == normalized.workspaceID) with
    | false => exact absurd rfl (gone workspace (Table.mem_update_of_not stored hit))
    | true => exact (gone _ (Table.mem_update_of_hit stored hit) rfl).elim
  | published userID jobID rootID cloudRevision job found ready files workspaces =>
    refine ⟨"", fun workspace stored gone => ?_⟩
    -- the row of the job's workspace is written anew, the others stay
    by_cases hit : workspace.key =
        (Database.workspaceRow now job rootID cloudRevision).key
    · exact absurd hit.symm (gone _ ((Table.mem_insert workspaces).mpr (.inr (by simp))))
    · exact absurd rfl (gone workspace ((Table.mem_insert workspaces).mpr
        (.inl (Table.mem_delete.mpr ⟨stored, by simpa using hit⟩))))
  | clearedUser userID files workspaces =>
    rw [workspaces]
    refine ⟨userID, fun workspace stored gone => ?_⟩
    by_contra other
    exact gone workspace (Table.mem_delete.mpr ⟨stored, by simpa using other⟩) rfl
  | clearedRoot _ userID rootID _ files workspaces | dismissed userID rootID files workspaces =>
    rw [workspaces]
    refine ⟨userID, fun workspace stored gone => ?_⟩
    by_contra other
    exact gone workspace (Table.mem_delete.mpr
      ⟨stored, by simp [IndexWorkspace.onRoot, other]⟩) rfl
  | clearedAll job receipt => exact absurd rfl (reset job receipt)

/-- A step after which the workspaces of two tenants are gone is a reset. -/
theorem resets_of_two_tenants (discipline : ConfigDiscipline platform)
    (given : platform.finishesGiven event = true) {a b : IndexWorkspace}
    (first : a ∈ platform.world.db.indexWorkspaces) (second : b ∈ platform.world.db.indexWorkspaces)
    (tenants : a.userID ≠ b.userID)
    (gone : ∀ later ∈ (platform.world.step event).db.indexWorkspaces,
      later.key ≠ a.key ∧ later.key ≠ b.key) :
    ∃ row, Resets platform.world event row := by
  cases event with
  | tick => exact absurd rfl (gone a first).1
  | commit waited transaction =>
    by_cases reset : ∃ job receipt, transaction = .finishConfig job receipt
    · rcases sameIndex_or_resets discipline given (.inr reset) with ⟨same, -⟩ | resets
      · rw [same.workspaces] at gone
        exact absurd rfl (gone a first).1
      · exact resets
    · simp only [World.step] at gone
      split at gone
      · obtain ⟨owner, only⟩ := removes_one_tenant
          (fun job receipt same => reset ⟨job, receipt, same⟩)
        have ofA := only a first fun later member => (gone later member).1
        have ofB := only b second fun later member => (gone later member).2
        exact absurd (ofA.trans ofB.symm) tenants
      · exact absurd rfl (gone a first).1

end Step

/-! ### Whole runs -/

theorem configDiscipline_run (events : List Event) :
    ConfigDiscipline (runFrom Platform.step Platform.initial events) :=
  invariant_run (fun _ event before => before.step event) ConfigDiscipline.initial events

/-- A closed row stays as it is. -/
theorem closed_run {platform : Platform} {row : PlatformConfigJob}
    (stored : row ∈ platform.world.db.platformConfigJobs) (closed : row.active = false)
    (events : List Event) :
    row ∈ (runFrom Platform.step platform events).world.db.platformConfigJobs := by
  refine invariant_run (P := fun platform : Platform => row ∈ platform.world.db.platformConfigJobs)
    (fun platform event before => ?_) stored events
  obtain ⟨later, member, -, -, same⟩ := configRow_step event before
  exact same closed ▸ member

/-- A job that has been closed is not closed again. -/
theorem Closes.once {platform : Platform} {event again : Event} {row other : PlatformConfigJob}
    {receipt second : ConfigReceipt} (closes : Closes platform.world event row receipt)
    (events : List Event)
    (later : Closes (runFrom Platform.step (platform.step event) events).world again other second) :
    other.id ≠ row.id := by
  intro same
  obtain ⟨waited, job, -, -, marked⟩ := closes.exists_attempt
  have kept : row.close (platform.world.clock - waited) receipt ∈
      (runFrom Platform.step (platform.step event) events).world.db.platformConfigJobs :=
    closed_run marked (PlatformConfigJob.close_inactive receipt) events
  have identical := Table.eq_of_key_eq later.stored kept same
  obtain ⟨_, _, -, current, -⟩ := later.exists_attempt
  have active := PlatformConfigJob.active_of_claimedBy current
  rw [identical, PlatformConfigJob.close_inactive] at active
  cases active

theorem enqueue_existing {db : Database} {row : PlatformConfigJob}
    (stored : row ∈ db.platformConfigJobs) (now : Nat) (sectionName : String)
    (embeddingChanged : Bool) :
    db.enqueuePlatformConfigJob now row.id sectionName embeddingChanged =
      if row.sectionName = sectionName ∧ row.embeddingChanged = embeddingChanged then .ok (row, db)
      else .error .identityMismatch := by
  have found : db.platformConfigJobs.lookup row.id = some row :=
    Table.lookup_eq_some.mpr ⟨stored, rfl⟩
  unfold enqueuePlatformConfigJob
  rw [found]
  by_cases same : row.sectionName = sectionName ∧ row.embeddingChanged = embeddingChanged
  · simp [same]
  · rw [if_neg same]
    exact if_pos (by rwa [not_and_or] at same)

/-- In every run of admissions, claims, deferrals, recoveries, finishes and anything else:
in each state one job at most is pending or running, no job has more attempts than it
may, and a repeated admission returns the stored job or refuses. In each step a
job stays pending or running, or the step brings its receipt; configuration
transactions that are not resets leave all index state and all leases alone, and no
step but a reset takes the index of two tenants; a job is reset for at most once. -/
theorem platformReset_fenced (events : List Event)
    (given : Along Platform.step (fun platform event => platform.finishesGiven event = true)
      Platform.initial events) :
    (∀ before after db, events = before ++ after →
      db = (runFrom Platform.step Platform.initial before).world.db →
      OneConfigJob db ∧
      (∀ row ∈ db.platformConfigJobs, row.attemptCount ≤ platformConfigJobMaxAttempts) ∧
      ∀ row ∈ db.platformConfigJobs, ∀ now sectionName embeddingChanged,
        db.enqueuePlatformConfigJob now row.id sectionName embeddingChanged =
          if row.sectionName = sectionName ∧ row.embeddingChanged = embeddingChanged then
            .ok (row, db)
          else .error .identityMismatch) ∧
    ∀ before event after platform, events = before ++ event :: after →
      platform = runFrom Platform.step Platform.initial before →
      (∀ row ∈ platform.world.db.platformConfigJobs, row.active = true →
        (∃ later ∈ (platform.world.step event).db.platformConfigJobs,
          later.id = row.id ∧ later.active = true) ∨
        ∃ receipt, Closes platform.world event row receipt) ∧
      (∀ waited transaction, event = .commit waited transaction →
        (transaction.onConfigs = true ∨ ∃ job receipt, transaction = .finishConfig job receipt) →
        (SameIndex platform.world.db (platform.world.step event).db ∧
          (platform.world.step event).db.leases = platform.world.db.leases) ∨
        ∃ row, Resets platform.world event row) ∧
      (∀ a ∈ platform.world.db.indexWorkspaces, ∀ b ∈ platform.world.db.indexWorkspaces,
        a.userID ≠ b.userID →
        (∀ later ∈ (platform.world.step event).db.indexWorkspaces,
          later.key ≠ a.key ∧ later.key ≠ b.key) →
        ∃ row, Resets platform.world event row) ∧
      ∀ row, Resets platform.world event row → ∀ middle again rest, after = middle ++ again :: rest →
        ∀ other, Resets (runFrom Platform.step (platform.step event) middle).world again other →
          other.id ≠ row.id := by
  constructor
  · rintro before after db - rfl
    have discipline := configDiscipline_run before
    exact ⟨discipline.single, discipline.attempts, fun row => enqueue_existing⟩
  · rintro before event after platform rfl rfl
    have discipline := configDiscipline_run before
    obtain ⟨-, allowed, -⟩ := along_append.mp given
    refine ⟨fun row => active_or_closes discipline allowed, ?_, ?_, ?_⟩
    · rintro waited transaction rfl about
      exact sameIndex_or_resets discipline allowed about
    · intro a first b second tenants gone
      exact resets_of_two_tenants discipline allowed first second tenants gone
    · rintro row resets middle again rest - other repeated
      obtain ⟨receipt, closes, -⟩ := resets.exists_receipt
      obtain ⟨second, later, -⟩ := repeated.exists_receipt
      exact closes.once middle later

/-- A change of the embedding is admitted and claimed, and its receipt arrives twice. -/
def repeatedReceipt : List Event :=
  let job := (PlatformConfigJob.enqueued 0 "change" "embedding" true).claim 0 "attempt"
  [.commit 0 (.enqueueConfig "change" "embedding" true), .commit 0 (.claimConfig "attempt" []),
    .commit 0 (.finishConfig job ⟨"change", .completed, true, ""⟩),
    .commit 0 (.finishConfig job ⟨"change", .completed, true, ""⟩)]

theorem platformReset_fenced_repeatedReceipt :
    Along Platform.step (fun platform event => platform.finishesGiven event = true)
        Platform.initial repeatedReceipt ∧
      OneConfigJob (runFrom Platform.step Platform.initial repeatedReceipt).world.db := by
  have given : Along Platform.step (fun platform event => platform.finishesGiven event = true)
      Platform.initial repeatedReceipt := by
    decide +kernel
  have states := (platformReset_fenced repeatedReceipt given).1
  exact ⟨given, (states repeatedReceipt [] _ (List.append_nil _).symm rfl).1⟩

end AcemcpRelay
