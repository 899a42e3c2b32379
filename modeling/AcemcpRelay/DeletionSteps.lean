import AcemcpRelay.Frame

/-!
# Steps of the deletion jobs

What a transaction can do to a row of `root_deletion_jobs`. Each way of changing
one asks for the state it starts from: a recovery for a paused job, a claim for one
that nobody works on, the report and the end of an attempt for the attempt that
holds the claim.
-/
namespace AcemcpRelay

open Store

/-- The row after `recordRootDeletionError`. -/
def RootDeletionJob.report (row : RootDeletionJob) (now attempts : Nat) : RootDeletionJob :=
  let recoveryRequired := decide (rootDeletionMaxAttempts ≤ attempts)
  { row with
    status := .running, updatedAt := now, attemptCount := attempts
    error := if recoveryRequired then deletionPaused else deletionRetrying
    recoveryRequired := recoveryRequired, claimUntil := some now
    nextAttemptAt := now + rootDeletionRetryDelay attempts }

/-- The row after `finishRootDeletion`. -/
def RootDeletionJob.finish (row : RootDeletionJob) (now : Nat) (deletedFiles : Int) :
    RootDeletionJob :=
  { row with status := .succeeded, error := "", updatedAt := now, claimUntil := none, deletedFiles }

/-- What a transaction does to a deletion job. -/
inductive DeletionChange (now : Nat) :
    Transaction → RootDeletionJob → RootDeletionJob → Prop where
  | same (transaction : Transaction) (old : RootDeletionJob) :
      DeletionChange now transaction old old
  | resumed (actorID id : String) (wait : Nat) (old : RootDeletionJob)
      (active : old.active = true) (paused : old.recoveryRequired = true) :
      DeletionChange now (.submitDeletion old.userID actorID old.rootID old.id id wait) old
        (old.resume now)
  | paused (attempt : String) (locked : List String) (old : RootDeletionJob)
      (exhausted : old.exhausted now = true) :
      DeletionChange now (.claimDeletion attempt locked) old (old.pause now)
  | claimed (attempt : String) (locked : List String) (old : RootDeletionJob)
      (claimable : old.claimable now = true) :
      DeletionChange now (.claimDeletion attempt locked) old (old.claim now attempt)
  | reported (job : RootDeletionJob) (deferOnly : Bool) (old : RootDeletionJob)
      (current : old.claimedBy job now = true) :
      DeletionChange now (.recordDeletionError job deferOnly) old
        (old.report now (if deferOnly then job.attemptCount - 1 else job.attemptCount))
  | finished (job : RootDeletionJob) (cloudCount deletedFiles : Int) (old : RootDeletionJob)
      (current : old.claimedBy job now = true) :
      DeletionChange now (.finishDeletion job cloudCount) old (old.finish now deletedFiles)

namespace RootDeletionJob

variable {row job : RootDeletionJob} {now : Nat}

theorem claimedBy_iff : row.claimedBy job now = true ↔
    row.id = job.id ∧ row.userID = job.userID ∧ row.attemptID = job.attemptID ∧
      job.attemptID.isSome = true ∧ row.status = .running ∧
      ∃ deadline, row.claimUntil = some deadline ∧ now < deadline := by
  unfold claimedBy
  cases row.claimUntil <;> simp [and_assoc]

theorem active_of_status (queued : row.status = .queued ∨ row.status = .running) :
    row.active = true := by
  rcases queued with same | same <;> simp [active, same]

theorem active_of_claimable (claimable : row.claimable now = true) : row.active = true := by
  simp only [RootDeletionJob.claimable, Bool.and_eq_true, Bool.or_eq_true, beq_iff_eq] at claimable
  exact active_of_status (claimable.1.1.1.imp_right And.left)

theorem active_of_exhausted (exhausted : row.exhausted now = true) : row.active = true := by
  simp only [RootDeletionJob.exhausted, Bool.and_eq_true, beq_iff_eq] at exhausted
  exact active_of_status (.inr exhausted.1.1.1)

theorem active_of_claimedBy (current : row.claimedBy job now = true) : row.active = true :=
  active_of_status (.inr (claimedBy_iff.mp current).2.2.2.2.1)

end RootDeletionJob

namespace DeletionChange

variable {now : Nat} {transaction : Transaction} {old row : RootDeletionJob}

/-- The columns that say what is to be deleted for whom are never rewritten. -/
theorem identity (change : DeletionChange now transaction old row) :
    row.id = old.id ∧ row.userID = old.userID ∧ row.rootID = old.rootID := by
  cases change <;> exact ⟨rfl, rfl, rfl⟩

/-- Every statement that writes a deletion job asks for an active one. -/
theorem eq_of_inactive (change : DeletionChange now transaction old row)
    (ended : old.active = false) : row = old := by
  cases change with
  | same => rfl
  | resumed _ _ _ _ active => rw [active] at ended; cases ended
  | paused _ _ _ exhausted =>
    rw [RootDeletionJob.active_of_exhausted exhausted] at ended
    cases ended
  | claimed _ _ _ claimable =>
    rw [RootDeletionJob.active_of_claimable claimable] at ended
    cases ended
  | reported _ _ _ current | finished _ _ _ _ current =>
    rw [RootDeletionJob.active_of_claimedBy current] at ended
    cases ended

/-- A job leaves the active states by its finishing transaction only. -/
theorem active_or_finished (change : DeletionChange now transaction old row)
    (active : old.active = true) : row.active = true ∨
      ∃ job cloudCount deletedFiles, transaction = .finishDeletion job cloudCount ∧
        old.claimedBy job now = true ∧ row = old.finish now deletedFiles := by
  cases change with
  | finished job cloudCount deletedFiles _ current =>
    exact .inr ⟨job, cloudCount, deletedFiles, rfl, current, rfl⟩
  | reported | claimed => exact .inl rfl
  | same | resumed | paused => exact .inl active

end DeletionChange

namespace Database

variable {db : Database} {now clock : Nat}

/-- The rows a claim chooses from. -/
theorem mem_byAge {p : RootDeletionJob → Bool} {locked : List String} {job : RootDeletionJob} :
    job ∈ (db.rootDeletionJobs.select fun job => p job && !locked.contains job.id).insertionSort
        (fun a b => a.createdAt ≤ b.createdAt) ↔
      job ∈ db.rootDeletionJobs ∧ p job = true ∧ job.id ∉ locked := by
  rw [List.mem_insertionSort, Table.mem_select]
  simp

theorem submitDeletion_rows {tenantID actorID rootID retryJobID id : String} {wait : Nat}
    {job : RootDeletionJob} {after : Database}
    (committed : db.submitRootDeletion now tenantID actorID rootID retryJobID id wait =
      .ok (job, after)) :
    Table.Rewrites (DeletionChange now (.submitDeletion tenantID actorID rootID retryJobID id wait))
        db.rootDeletionJobs after.rootDeletionJobs ∨
      (retryJobID = "" ∧ db.rootDeletionJobs.insert [.submitted now tenantID actorID rootID id] =
          some after.rootDeletionJobs ∧
        ∀ old ∈ db.rootDeletionJobs, old.userID = tenantID → old.active = false) := by
  have unchanged : Table.Rewrites
      (DeletionChange now (.submitDeletion tenantID actorID rootID retryJobID id wait))
      db.rootDeletionJobs db.rootDeletionJobs := .refl (.same _)
  unfold submitRootDeletion at committed
  split at committed
  next found others listed =>
    obtain ⟨stored, matching⟩ := Table.mem_select.mp (listed ▸ List.mem_cons_self :
      found ∈ db.rootDeletionJobs.select fun job => job.userID == tenantID && job.active)
    simp only [Bool.and_eq_true, beq_iff_eq] at matching
    obtain ⟨rfl, active⟩ := matching
    split at committed
    · cases committed
    next same =>
      simp only [ne_eq, not_or, not_not, not_and] at same
      split at committed
      next recovers =>
        -- the owner's retry of a paused job; the identifier picks the row
        obtain rfl := same.2 recovers.1
        obtain rfl := same.1
        cases committed
        refine .inl (Table.rewrites_update (.same _) fun row member hit => ?_)
        simp only [Bool.and_eq_true, beq_iff_eq] at hit
        obtain rfl := Table.eq_of_key_eq member stored hit.1.1
        exact .resumed actorID id wait row active hit.2
      · cases committed
        exact .inl unchanged
  next none =>
    have inactive : ∀ old ∈ db.rootDeletionJobs, old.userID = tenantID → old.active = false := by
      intro old stored owner
      by_contra active
      have listed : old ∈ db.rootDeletionJobs.select (fun job =>
          job.userID == tenantID && job.active) :=
        Table.mem_select.mpr ⟨stored, by simpa [owner] using active⟩
      rw [none] at listed
      cases listed
    split at committed
    · split at committed
      · cases committed
        exact .inl unchanged
      · cases committed
    next fresh =>
      split at committed
      · cases committed
      · split at committed
        · cases committed
        · split at committed
          next inserted =>
            cases committed
            exact .inr ⟨by simpa using fresh, inserted, inactive⟩
          · cases committed

/-- A job cannot be out of attempts and be claimed by the same statement. -/
theorem not_exhausted_of_claimable {job : RootDeletionJob} (claimable : job.claimable now = true) :
    job.exhausted now = false := by
  simp only [RootDeletionJob.claimable, Bool.and_eq_true, decide_eq_true_eq] at claimable
  have spare : ¬ rootDeletionMaxAttempts ≤ job.attemptCount := Nat.not_le.mpr claimable.2
  simp [RootDeletionJob.exhausted, spare]

/-- The first part of a claim: jobs that are out of attempts are paused. -/
theorem pauseDeletion_rows (attempt : String) (locked : List String) {stopped : List String}
    (chosen : ∀ id ∈ stopped, ∃ job ∈ db.rootDeletionJobs, job.id = id ∧ job.exhausted now = true) :
    Table.Rewrites (fun old row => DeletionChange now (.claimDeletion attempt locked) old row ∧
        (row = old ∨ old.exhausted now = true)) db.rootDeletionJobs
      (db.rootDeletionJobs.update (fun job => stopped.contains job.id) (·.pause now)) := by
  refine Table.rewrites_update (fun row => ⟨.same _ row, .inl rfl⟩) fun row member hit => ?_
  obtain ⟨job, stored, same, exhausted⟩ := chosen row.id (by simpa using hit)
  obtain rfl := Table.eq_of_key_eq stored member same
  exact ⟨.paused attempt locked job exhausted, .inr exhausted⟩

/-- The jobs that a claim pauses: the oldest that are out of attempts. -/
def outOfAttempts (db : Database) (now : Nat) (locked : List String) : List String :=
  (((db.rootDeletionJobs.select fun job => job.exhausted now && !locked.contains job.id
    ).insertionSort fun a b => a.createdAt ≤ b.createdAt).take 100).map (·.id)

theorem mem_outOfAttempts {locked : List String} {id : String}
    (listed : id ∈ db.outOfAttempts now locked) :
    ∃ job ∈ db.rootDeletionJobs, job.id = id ∧ job.exhausted now = true := by
  obtain ⟨job, member, rfl⟩ := List.mem_map.mp listed
  obtain ⟨stored, exhausted, -⟩ := mem_byAge.mp (List.mem_of_mem_take member)
  exact ⟨job, stored, rfl, exhausted⟩

/-- What a claim does, and the job that it hands to its worker. -/
theorem claimRootDeletion_cases (db : Database) (now : Nat) (attempt : String)
    (locked : List String) :
    ((db.claimRootDeletion now attempt locked).1 = none ∧
      (db.claimRootDeletion now attempt locked).2.rootDeletionJobs = db.rootDeletionJobs.update
        (fun job => (db.outOfAttempts now locked).contains job.id) (·.pause now)) ∨
    ∃ candidate ∈ db.rootDeletionJobs, candidate.claimable now = true ∧
      (db.claimRootDeletion now attempt locked).1 = some (candidate.claim now attempt) ∧
      (db.claimRootDeletion now attempt locked).2.rootDeletionJobs = (db.rootDeletionJobs.update
        (fun job => (db.outOfAttempts now locked).contains job.id) (·.pause now)).update
          (·.id == candidate.id) (·.claim now attempt) := by
  unfold claimRootDeletion outOfAttempts
  dsimp only
  split
  · exact .inl ⟨rfl, rfl⟩
  next candidate others sorted =>
    have first := mem_byAge.mp (sorted ▸ List.mem_cons_self : candidate ∈
      (db.rootDeletionJobs.select fun job => job.claimable now && !locked.contains job.id
        ).insertionSort fun a b => a.createdAt ≤ b.createdAt)
    exact .inr ⟨candidate, first.1, first.2.1, rfl, rfl⟩

theorem claimDeletion_rows (attempt : String) (locked : List String) :
    Table.Rewrites (DeletionChange now (.claimDeletion attempt locked)) db.rootDeletionJobs
      (db.claimRootDeletion now attempt locked).2.rootDeletionJobs := by
  have chosen : ∀ id ∈ db.outOfAttempts now locked, ∃ job ∈ db.rootDeletionJobs, job.id = id ∧
      job.exhausted now = true := fun _ => mem_outOfAttempts
  have paused := pauseDeletion_rows attempt locked chosen
  rcases db.claimRootDeletion_cases now attempt locked with
    ⟨-, same⟩ | ⟨candidate, stored, claimable, -, same⟩
  all_goals rw [same]
  · exact ⟨fun row member => (paused.source row member).imp fun old => .imp_right And.left,
      fun old member => (paused.target old member).imp fun row => .imp_right And.left⟩
  -- the claimed row is not among the paused ones
  have untouched {row : RootDeletionJob} (member : row ∈ db.rootDeletionJobs)
      (hit : row.id = candidate.id) : row = candidate := Table.eq_of_key_eq member stored hit
  constructor
  · intro row member
    rcases Table.mem_update_cases member with ⟨kept, -⟩ | ⟨middle, kept, hit, rfl⟩
    · exact (paused.source row kept).imp fun old => .imp_right And.left
    · obtain ⟨old, source, change, unpaused⟩ := paused.source middle kept
      obtain rfl := untouched source (change.identity.1.symm.trans (by simpa using hit))
      rw [not_exhausted_of_claimable claimable] at unpaused
      obtain rfl : middle = old := unpaused.resolve_right (by simp)
      exact ⟨middle, source, .claimed attempt locked middle claimable⟩
  · intro old source
    obtain ⟨middle, kept, change, unpaused⟩ := paused.target old source
    cases hit : middle.id == candidate.id with
    | false => exact ⟨middle, Table.mem_update_of_not kept hit, change⟩
    | true =>
      obtain rfl := untouched source (change.identity.1.symm.trans (by simpa using hit))
      rw [not_exhausted_of_claimable claimable] at unpaused
      obtain rfl : middle = old := unpaused.resolve_right (by simp)
      exact ⟨_, Table.mem_update_of_hit kept hit, .claimed attempt locked middle claimable⟩

/-- Everything a transaction can do to the deletion jobs. -/
theorem exec_deletionRows (db : Database) (now clock : Nat) (transaction : Transaction) :
    Table.Rewrites (DeletionChange now transaction) db.rootDeletionJobs
      (db.exec now clock transaction).rootDeletionJobs ∨
    (∃ tenantID actorID rootID id wait,
      transaction = .submitDeletion tenantID actorID rootID "" id wait ∧
      db.rootDeletionJobs.insert [.submitted now tenantID actorID rootID id] =
        some (db.exec now clock transaction).rootDeletionJobs ∧
      ∀ old ∈ db.rootDeletionJobs, old.userID = tenantID → old.active = false) ∨
    ∃ pruned p, transaction = .pruneDeletions pruned ∧
      (db.exec now clock transaction).rootDeletionJobs = db.rootDeletionJobs.delete p ∧
      ∀ job, p job = true → job.active = false := by
  have unchanged : Table.Rewrites (DeletionChange now transaction) db.rootDeletionJobs
      db.rootDeletionJobs := .refl (.same _)
  cases transaction with
  | submitDeletion tenantID actorID rootID retryJobID id wait =>
    simp only [exec]
    rcases db.settle_map_eq (db.submitRootDeletion now tenantID actorID rootID retryJobID id wait)
      with same | ⟨job, submitted⟩
    · rw [same]
      exact .inl unchanged
    · rcases submitDeletion_rows submitted with rewrites | ⟨rfl, inserted, inactive⟩
      · exact .inl rewrites
      · exact .inr (.inl ⟨tenantID, actorID, rootID, id, wait, rfl, inserted, inactive⟩)
  | claimDeletion attempt locked => exact .inl (claimDeletion_rows attempt locked)
  | recordDeletionError job deferOnly =>
    exact .inl (Table.rewrites_update (.same _) fun row _ hit => .reported job deferOnly row hit)
  | pruneDeletions pruned =>
    refine .inr (.inr ⟨pruned, _, rfl, rfl, fun job hit => ?_⟩)
    simp only [Bool.and_eq_true, Bool.not_eq_true'] at hit
    exact hit.1.1
  | finishDeletion job cloudCount =>
    simp only [exec, finishRootDeletion]
    split
    next current =>
      refine .inl (Table.rewrites_update (.same _) fun row member hit => ?_)
      -- the row that is marked is the one whose claim was checked
      obtain ⟨claimed, stored, held⟩ := Table.holds_eq_true.mp current
      simp only [Bool.and_eq_true, beq_iff_eq] at hit
      obtain rfl := Table.eq_of_key_eq stored member
        ((RootDeletionJob.claimedBy_iff.mp held).1.trans hit.1.1.symm)
      exact .finished job cloudCount _ claimed held
    · exact .inl unchanged
  | finishConfig job receipt =>
    simp only [exec]
    rcases db.settle_eq (db.finishPlatformConfigJob now job receipt) with same | committed
    · rw [same]
      exact .inl unchanged
    · rw [(finishPlatformConfigJob_eq_ok committed).1]
      exact .inl unchanged
  | acquire | renew | release =>
    rw [exec_onLeases db now clock rfl]
    exact .inl unchanged
  | enqueueConfig | recoverConfig | claimConfig | deferConfig =>
    rw [exec_onConfigs db now clock rfl]
    exact .inl unchanged
  | _ =>
    rw [(exec_sameFences db now clock rfl).deletions]
    exact .inl unchanged

/-- Where a deletion job comes from. -/
theorem mem_exec_deletions {transaction : Transaction} {row : RootDeletionJob}
    (member : row ∈ (db.exec now clock transaction).rootDeletionJobs) :
    (∃ old ∈ db.rootDeletionJobs, DeletionChange now transaction old row) ∨
    ∃ tenantID actorID rootID id wait,
      transaction = .submitDeletion tenantID actorID rootID "" id wait ∧
      row = .submitted now tenantID actorID rootID id ∧
      ∀ old ∈ db.rootDeletionJobs, old.userID = tenantID → old.active = false := by
  rcases db.exec_deletionRows now clock transaction with rewrites |
    ⟨tenantID, actorID, rootID, id, wait, same, inserted, inactive⟩ | ⟨pruned, p, -, same, -⟩
  · exact .inl (rewrites.source row member)
  · rcases (Table.mem_insert inserted).mp member with stored | added
    · exact .inl ⟨row, stored, .same _ row⟩
    · exact .inr ⟨tenantID, actorID, rootID, id, wait, same, List.mem_singleton.mp added, inactive⟩
  · rw [same] at member
    exact .inl ⟨row, (Table.mem_delete.mp member).1, .same _ row⟩

/-- Without a current claim neither the report nor the end of an attempt has an effect. -/
theorem exec_stale {job : RootDeletionJob}
    (stale : ∀ row ∈ db.rootDeletionJobs, row.claimedBy job now = false) (deferOnly : Bool)
    (cloudCount : Int) : db.exec now clock (.recordDeletionError job deferOnly) = db ∧
      db.exec now clock (.finishDeletion job cloudCount) = db := by
  constructor
  · simp only [exec, recordRootDeletionError]
    rw [Table.update_eq_self stale]
  · have unclaimed : db.rootDeletionAttemptCurrent now job = false := Table.holds_eq_false.mpr stale
    simp [exec, finishRootDeletion, unclaimed, settle]

/-- The end of an attempt whose claim is current marks its row. -/
theorem exec_marks (clock : Nat) {job row : RootDeletionJob} (stored : row ∈ db.rootDeletionJobs)
    (current : row.claimedBy job now = true) (cloudCount : Int) :
    ∃ deletedFiles, row.finish now deletedFiles ∈
      (db.exec now clock (.finishDeletion job cloudCount)).rootDeletionJobs := by
  have claimed : db.rootDeletionAttemptCurrent now job = true :=
    Table.holds_eq_true.mpr ⟨row, stored, current⟩
  obtain ⟨id, user, attempt, -⟩ := RootDeletionJob.claimedBy_iff.mp current
  simp only [exec, finishRootDeletion, claimed, if_true, settle]
  exact ⟨_, Table.mem_update_of_hit stored (by simp [id, user, attempt])⟩

/-- What becomes of an active deletion job. -/
theorem exec_active_deletion (now clock : Nat) (transaction : Transaction) {old : RootDeletionJob}
    (stored : old ∈ db.rootDeletionJobs) (active : old.active = true) :
    ∃ row ∈ (db.exec now clock transaction).rootDeletionJobs,
      DeletionChange now transaction old row := by
  rcases db.exec_deletionRows now clock transaction with rewrites | ⟨_, _, _, _, _, _, inserted, _⟩ |
    ⟨pruned, p, -, same, ended⟩
  · exact rewrites.target old stored
  · exact ⟨old, (Table.mem_insert inserted).mpr (.inl stored), .same _ old⟩
  · refine ⟨old, ?_, .same _ old⟩
    rw [same]
    refine Table.mem_delete.mpr ⟨stored, ?_⟩
    by_contra pruned
    rw [Bool.not_eq_false] at pruned
    rw [ended old pruned] at active
    cases active

end Database

end AcemcpRelay
