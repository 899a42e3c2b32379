import AcemcpRelay.Properties.RootDeletionFence

/-!
# Admission of deletions and their retry budget

A marker that nobody can claim, that nobody pauses and that its owner cannot resume
would keep the tenant from indexing for good. Status, claim, attempts, back-off and
the recovery flag of a job are written by five statements; `SoundDeletion` is what
they keep between them, and it leaves an active job no such state.
-/
namespace AcemcpRelay

open Store Database

/-- What the columns of a deletion job say about each other. -/
structure SoundDeletion (row : RootDeletionJob) : Prop where
  attempts : row.attemptCount ≤ rootDeletionMaxAttempts
  queued : row.status = .queued → row.attemptCount < rootDeletionMaxAttempts
  running : row.status = .running → row.claimUntil.isSome = true

/-- A tenant has one active job at most. -/
def OneDeletion (db : Database) : Prop :=
  ∀ a ∈ db.rootDeletionJobs, ∀ b ∈ db.rootDeletionJobs, a.active = true → b.active = true →
    a.userID = b.userID → a = b

/-- A worker reports on, and finishes, a job that it was given. -/
def System.reportsGiven (system : System) : SystemEvent → Bool
  | .other (.commit _ (.recordDeletionError job _))
  | .other (.commit _ (.finishDeletion job _)) => system.claimed.contains job
  | _ => true

theorem budget_pos : 0 < rootDeletionMaxAttempts := by decide

section Step

variable {db : Database} {now clock : Nat} {transaction : Transaction} {old row : RootDeletionJob}

theorem SoundDeletion.change (sound : SoundDeletion old)
    (reports : ∀ job deferOnly, transaction = .recordDeletionError job deferOnly →
      job.attemptCount ≤ rootDeletionMaxAttempts)
    (change : DeletionChange now transaction old row) : SoundDeletion row := by
  cases change with
  | same => exact sound
  | paused => exact ⟨sound.attempts, sound.queued, sound.running⟩
  | resumed => exact ⟨Nat.zero_le _, fun _ => budget_pos, sound.running⟩
  | claimed _ _ _ claimable =>
    simp only [RootDeletionJob.claimable, Bool.and_eq_true, decide_eq_true_eq] at claimable
    refine ⟨?_, ?_, fun _ => rfl⟩
    · exact claimable.2
    · rintro ⟨⟩
  | reported job deferOnly =>
    have bound := reports job deferOnly rfl
    refine ⟨?_, ?_, fun _ => rfl⟩
    · simp only [RootDeletionJob.report]
      split
      · exact (Nat.sub_le _ _).trans bound
      · exact bound
    · rintro ⟨⟩
  | finished => exact ⟨sound.attempts, by rintro ⟨⟩, by rintro ⟨⟩⟩

theorem SoundDeletion.submitted (now : Nat) (tenantID actorID rootID id : String) :
    SoundDeletion (.submitted now tenantID actorID rootID id) :=
  ⟨Nat.zero_le _, fun _ => budget_pos, by rintro ⟨⟩⟩

theorem OneDeletion.exec (single : OneDeletion db) :
    OneDeletion (db.exec now clock transaction) := by
  have wasActive {old row : RootDeletionJob} (change : DeletionChange now transaction old row)
      (active : row.active = true) : old.active = true := by
    by_contra ended
    rw [Bool.not_eq_true] at ended
    rw [change.eq_of_inactive ended, ended] at active
    cases active
  intro a ha b hb activeA activeB owner
  rcases mem_exec_deletions ha with ⟨oldA, storedA, changeA⟩ |
    ⟨tenantID, actorID, rootID, id, wait, rfl, rfl, inactive⟩
  · have beforeA := wasActive changeA activeA
    rcases mem_exec_deletions hb with ⟨oldB, storedB, changeB⟩ |
      ⟨tenantID, actorID, rootID, id, wait, rfl, rfl, inactive⟩
    · have same : oldA = oldB := single oldA storedA oldB storedB beforeA (wasActive changeB activeB)
        (by rw [← changeA.identity.2.1, ← changeB.identity.2.1, owner])
      exact Table.eq_of_key_eq ha hb (by rw [changeA.identity.1, changeB.identity.1, same])
    · -- the tenant of a new job had no active one
      rw [inactive oldA storedA (changeA.identity.2.1.symm.trans owner)] at beforeA
      cases beforeA
  · rcases mem_exec_deletions hb with ⟨oldB, storedB, changeB⟩ | ⟨_, _, _, _, _, same, rfl, -⟩
    · have beforeB := wasActive changeB activeB
      rw [inactive oldB storedB (changeB.identity.2.1.symm.trans owner.symm)] at beforeB
      cases beforeB
    · cases same
      rfl

end Step

/-- What the deletion jobs and their workers keep. -/
structure DeletionBudget (system : System) : Prop where
  single : OneDeletion system.world.db
  sound : ∀ row ∈ system.world.db.rootDeletionJobs, SoundDeletion row
  given : ∀ job ∈ system.claimed, job.attemptCount ≤ rootDeletionMaxAttempts
  works : ∀ call ∈ system.calls, ∀ job, call.point.deletion = some job → job ∈ system.claimed

namespace DeletionBudget

variable {sha256 : String → String} {system after : System} {event : SystemEvent}

theorem initial : DeletionBudget System.initial where
  single row member := absurd member (Table.not_mem_empty row)
  sound row member := absurd member (Table.not_mem_empty row)
  given _ member := nomatch member
  works call member := absurd member (Table.not_mem_empty call)

/-- A transaction whose reports are about jobs that were given out. -/
theorem sound_exec (budget : DeletionBudget system) (now clock : Nat) {transaction : Transaction}
    (reports : ∀ job deferOnly, transaction = .recordDeletionError job deferOnly →
      job ∈ system.claimed) :
    ∀ row ∈ (system.world.db.exec now clock transaction).rootDeletionJobs, SoundDeletion row := by
  intro row member
  rcases mem_exec_deletions member with ⟨old, stored, change⟩ | ⟨_, _, _, _, _, -, rfl, -⟩
  · exact (budget.sound old stored).change
      (fun job deferOnly same => budget.given job (reports job deferOnly same)) change
  · exact .submitted _ _ _ _ _

theorem advance_reports {sha256 : String → String} {answer : Answer} {tenant : String} {clock : Nat}
    {db : Database} {cloud : Cloud} {point : Point} {job : RootDeletionJob} {deferOnly : Bool}
    (runs : (point.advance sha256 answer tenant clock db cloud).transaction =
      some (.recordDeletionError job deferOnly)) : point.deletion = some job := by
  cases point with
  | deletionError =>
    cases runs
    rfl
  | _ =>
    simp only [Point.advance] at runs
    repeat' split at runs
    all_goals cases runs

theorem step (budget : DeletionBudget system) (allowed : system.reportsGiven event = true)
    (stepped : Stepped sha256 system event after) : DeletionBudget after := by
  have works := works_step budget.works stepped
  have single : OneDeletion after.world.db := by
    have steps (event : Event) : OneDeletion (system.world.step event).db :=
      World.step_of_exec (P := OneDeletion) (fun _ _ _ _ before => before.exec) system.world event
        budget.single
    exact stepped.preserves (P := fun world => OneDeletion world.db) budget.single steps
  cases stepped with
  | idle => exact budget
  | landed | lost | aborted => exact ⟨single, budget.sound, budget.given, works⟩
  | entered waited token tenant spelling operation point =>
    refine ⟨single, ?_, budget.given, works⟩
    rw [System.begin_db]
    exact budget.sound_exec _ _ (by simp)
  | advanced call inFlight answer effect next allowed possible =>
    refine ⟨single, ?_, budget.given, works⟩
    simp only [System.apply]
    cases runs : effect.transaction with
    | none => exact budget.sound
    | some transaction =>
      rw [runs] at possible
      rw [System.commit_db possible]
      refine budget.sound_exec _ _ ?_
      rintro job deferOnly rfl
      rw [next] at runs
      exact budget.works call inFlight job (advance_reports runs)
  | other event accepted =>
    refine ⟨single, ?_, ?_, works⟩
    · cases event with
      | tick => exact budget.sound
      | commit waited transaction =>
        simp only [System.background, World.step]
        split
        · refine budget.sound_exec _ _ ?_
          rintro job deferOnly rfl
          exact List.contains_iff_mem.mp allowed
        · exact budget.sound
    · intro job listed
      rcases List.mem_append.mp listed with new | old
      · obtain ⟨waited, attempt, locked, rfl, candidate, stored, claimable, rfl⟩ := mem_claims new
        simp only [RootDeletionJob.claimable, Bool.and_eq_true, decide_eq_true_eq] at claimable
        exact claimable.2
      · exact budget.given job old

end DeletionBudget

/-! ### Nobody is stranded -/

/-- The claim of the job, if there is one, and its back-off have passed. -/
def RootDeletionJob.due (row : RootDeletionJob) (now : Nat) : Prop :=
  (∀ deadline, row.claimUntil = some deadline → deadline < now) ∧ row.nextAttemptAt ≤ now

/-- Once it is due, an active job waits for its owner, can be claimed, or is out of
attempts, so that the next claims pause it. -/
theorem SoundDeletion.not_stranded {row : RootDeletionJob} (sound : SoundDeletion row)
    (active : row.active = true) {now : Nat} (due : row.due now) :
    row.recoveryRequired = true ∨ row.claimable now = true ∨ row.exhausted now = true := by
  by_cases paused : row.recoveryRequired = true
  · exact .inl paused
  rw [Bool.not_eq_true] at paused
  right
  cases status : row.status with
  | queued =>
    left
    simp [RootDeletionJob.claimable, status, paused, due.2, sound.queued status]
  | running =>
    obtain ⟨deadline, claimed⟩ := Option.isSome_iff_exists.mp (sound.running status)
    have lapsed : row.claimLapsed now = true := by
      simp [RootDeletionJob.claimLapsed, claimed, due.1 deadline claimed]
    by_cases spare : row.attemptCount < rootDeletionMaxAttempts
    · left
      simp [RootDeletionJob.claimable, status, paused, due.2, lapsed, spare]
    · right
      simp [RootDeletionJob.exhausted, status, paused, lapsed, Nat.not_lt.mp spare]
  | succeeded | failed => simp [RootDeletionJob.active, status] at active

section Claims

variable {db : Database} {now : Nat}

/-- The database after claims at one time, with no row locked by others. -/
def claimAll (now : Nat) (db : Database) (attempts : List String) : Database :=
  attempts.foldl (fun db attempt => (db.claimRootDeletion now attempt []).2) db

/-- A job that waits for its owner is not touched by claims. -/
theorem DeletionChange.claim_of_paused {attempt : String} {locked : List String}
    {old row : RootDeletionJob} (change : DeletionChange now (.claimDeletion attempt locked) old row)
    (paused : old.recoveryRequired = true) : row = old := by
  cases change with
  | same => rfl
  | paused _ _ _ exhausted => simp [RootDeletionJob.exhausted, paused] at exhausted
  | claimed _ _ _ claimable => simp [RootDeletionJob.claimable, paused] at claimable

/-- A claim leaves a job that is out of attempts as it is, or pauses it. -/
theorem claim_exhausted {row : RootDeletionJob} (stored : row ∈ db.rootDeletionJobs)
    (exhausted : row.exhausted now = true) (attempt : String) :
    (row.id ∈ db.outOfAttempts now [] →
      row.pause now ∈ (db.claimRootDeletion now attempt []).2.rootDeletionJobs) ∧
    (row.id ∉ db.outOfAttempts now [] →
      row ∈ (db.claimRootDeletion now attempt []).2.rootDeletionJobs) := by
  have other {candidate : RootDeletionJob} (source : candidate ∈ db.rootDeletionJobs)
      (claimable : candidate.claimable now = true) : (row.id == candidate.id) = false := by
    rw [beq_eq_false_iff_ne]
    intro same
    rw [Table.eq_of_key_eq stored source same, not_exhausted_of_claimable claimable] at exhausted
    cases exhausted
  rcases db.claimRootDeletion_cases now attempt [] with
    ⟨-, same⟩ | ⟨candidate, source, claimable, -, same⟩
  all_goals rw [same]
  · exact ⟨fun listed => Table.mem_update_of_hit stored (by simpa using listed),
      fun missing => Table.mem_update_of_not stored (by simpa using missing)⟩
  · have elsewhere := other source claimable
    exact ⟨fun listed => Table.mem_update_of_not
        (Table.mem_update_of_hit stored (by simpa using listed)) elsewhere,
      fun missing => Table.mem_update_of_not
        (Table.mem_update_of_not stored (by simpa using missing)) elsewhere⟩

/-- After a claim the jobs out of attempts are those it did not pause. -/
theorem claim_remaining {attempt : String} {row : RootDeletionJob}
    (member : row ∈ (db.claimRootDeletion now attempt []).2.rootDeletionJobs)
    (exhausted : row.exhausted now = true) :
    row ∈ db.rootDeletionJobs ∧ row.id ∉ db.outOfAttempts now [] := by
  have unpaused {middle : RootDeletionJob} (kept : middle ∈ db.rootDeletionJobs.update
      (fun job => (db.outOfAttempts now []).contains job.id) (·.pause now))
      (stays : middle.exhausted now = true) :
      middle ∈ db.rootDeletionJobs ∧ middle.id ∉ db.outOfAttempts now [] := by
    rcases Table.mem_update_cases kept with ⟨stored, missed⟩ | ⟨old, -, -, rfl⟩
    · exact ⟨stored, by simpa using missed⟩
    · simp [RootDeletionJob.exhausted, RootDeletionJob.pause] at stays
  rcases db.claimRootDeletion_cases now attempt [] with
    ⟨-, same⟩ | ⟨candidate, source, claimable, -, same⟩
  all_goals rw [same] at member
  · exact unpaused member exhausted
  · rcases Table.mem_update_cases member with ⟨kept, -⟩ | ⟨middle, -, -, rfl⟩
    · exact unpaused kept exhausted
    · -- a claim that has just been made has not lapsed
      simp [RootDeletionJob.exhausted, RootDeletionJob.claim, RootDeletionJob.claimLapsed,
        rootDeletionClaimDuration] at exhausted

/-- The jobs that are out of attempts. -/
def exhaustedIDs (db : Database) (now : Nat) : List String :=
  (db.rootDeletionJobs.select (·.exhausted now)).map (·.id)

theorem mem_exhaustedIDs {id : String} : id ∈ exhaustedIDs db now ↔
    ∃ row ∈ db.rootDeletionJobs, row.exhausted now = true ∧ row.id = id := by
  simp [exhaustedIDs, and_assoc]

theorem exhaustedIDs_nodup (db : Database) (now : Nat) : (exhaustedIDs db now).Nodup :=
  db.rootDeletionJobs.nodup_map_select _ _ fun _ _ _ _ _ _ same => same

/-- A claim pauses one of them at least. -/
theorem exhaustedIDs_claim_lt (attempt : String) (some_left : exhaustedIDs db now ≠ []) :
    (exhaustedIDs (db.claimRootDeletion now attempt []).2 now).length <
      (exhaustedIDs db now).length := by
  obtain ⟨id, listed⟩ := List.exists_mem_of_ne_nil _ some_left
  obtain ⟨row, stored, exhausted, -⟩ := mem_exhaustedIDs.mp listed
  -- the oldest of them is among those that are paused
  obtain ⟨oldest, others, sorted⟩ : ∃ oldest others, (db.rootDeletionJobs.select fun job =>
      job.exhausted now && !([] : List String).contains job.id).insertionSort
        (fun a b => a.createdAt ≤ b.createdAt) = oldest :: others :=
    List.exists_cons_of_ne_nil (List.ne_nil_of_mem (mem_byAge.mpr ⟨stored, exhausted, by simp⟩))
  have paused : oldest.id ∈ db.outOfAttempts now [] := by
    rw [outOfAttempts, sorted]
    simp
  have before : oldest.id ∈ exhaustedIDs db now := by
    obtain ⟨job, source, same, out⟩ := mem_outOfAttempts paused
    exact mem_exhaustedIDs.mpr ⟨job, source, out, same⟩
  have within : exhaustedIDs (db.claimRootDeletion now attempt []).2 now ⊆
      (exhaustedIDs db now).erase oldest.id := by
    intro other remains
    obtain ⟨job, member, out, rfl⟩ := mem_exhaustedIDs.mp remains
    obtain ⟨source, missed⟩ := claim_remaining member out
    refine (List.mem_erase_of_ne ?_).mpr (mem_exhaustedIDs.mpr ⟨job, source, out, rfl⟩)
    rintro same
    exact missed (same ▸ paused)
  have bound := (List.subperm_of_subset (exhaustedIDs_nodup _ _) within).length_le
  have pos := List.length_pos_of_mem before
  rw [List.length_erase_of_mem before] at bound
  omega

theorem paused_claimAll {row : RootDeletionJob} (stored : row ∈ db.rootDeletionJobs)
    (active : row.active = true) (paused : row.recoveryRequired = true) (attempts : List String) :
    row ∈ (claimAll now db attempts).rootDeletionJobs := by
  induction attempts generalizing db with
  | nil => exact stored
  | cons attempt attempts ih =>
    obtain ⟨later, kept, change⟩ := exec_active_deletion now now (.claimDeletion attempt []) stored
      active
    rw [change.claim_of_paused paused] at kept
    exact ih kept

/-- As many claims as there are jobs out of attempts pause every one of them. -/
theorem exhausted_becomes_paused {row : RootDeletionJob} (stored : row ∈ db.rootDeletionJobs)
    (exhausted : row.exhausted now = true) (attempts : List String)
    (enough : (exhaustedIDs db now).length ≤ attempts.length) :
    row.pause now ∈ (claimAll now db attempts).rootDeletionJobs := by
  induction attempts generalizing db with
  | nil =>
    have listed : row.id ∈ exhaustedIDs db now := mem_exhaustedIDs.mpr ⟨row, stored, exhausted, rfl⟩
    have pos := List.length_pos_of_mem listed
    simp only [List.length_nil] at enough
    omega
  | cons attempt attempts ih =>
    obtain ⟨pauses, spares⟩ := claim_exhausted stored exhausted attempt
    by_cases chosen : row.id ∈ db.outOfAttempts now []
    · exact paused_claimAll (pauses chosen) (row.active_of_exhausted exhausted) rfl attempts
    · have listed : row.id ∈ exhaustedIDs db now :=
        mem_exhaustedIDs.mpr ⟨row, stored, exhausted, rfl⟩
      have fewer := exhaustedIDs_claim_lt attempt (List.ne_nil_of_mem listed)
      refine ih (spares chosen) (Nat.le_of_lt_succ (Nat.lt_of_lt_of_le fewer ?_))
      exact enough

end Claims

/-! ### Submissions -/

section Submissions

variable {db : Database} {now wait : Nat} {tenantID actorID rootID retryJobID id : String}
  {row : RootDeletionJob}

/-- A tenant's only active job is the one that a submission finds. -/
theorem submission_finds (single : OneDeletion db) (stored : row ∈ db.rootDeletionJobs)
    (owner : row.userID = tenantID) (active : row.active = true) :
    ∃ others, db.rootDeletionJobs.select (fun job => job.userID == tenantID && job.active) =
      row :: others := by
  cases found : db.rootDeletionJobs.select (fun job => job.userID == tenantID && job.active) with
  | nil =>
    have listed : row ∈ db.rootDeletionJobs.select (fun job => job.userID == tenantID && job.active) :=
      Table.mem_select.mpr ⟨stored, by simp [owner, active]⟩
    rw [found] at listed
    cases listed
  | cons first others =>
    obtain ⟨source, matching⟩ := Table.mem_select.mp (found ▸ List.mem_cons_self :
      first ∈ db.rootDeletionJobs.select (fun job => job.userID == tenantID && job.active))
    simp only [Bool.and_eq_true, beq_iff_eq] at matching
    rw [single first source row stored matching.2 active (matching.1.trans owner.symm)]
    exact ⟨others, rfl⟩

/-- Another root, or a retry of another job, is refused. -/
theorem submission_refused (single : OneDeletion db) (stored : row ∈ db.rootDeletionJobs)
    (owner : row.userID = tenantID) (active : row.active = true)
    (other : rootID ≠ row.rootID ∨ (retryJobID ≠ "" ∧ retryJobID ≠ row.id)) :
    db.submitRootDeletion now tenantID actorID rootID retryJobID id wait = .error .busy := by
  obtain ⟨others, found⟩ := submission_finds single stored owner active
  rw [submitRootDeletion, found]
  dsimp only
  rw [if_pos (other.imp_left Ne.symm)]

/-- The same root again: the job as it is. -/
theorem submission_repeated (single : OneDeletion db) (stored : row ∈ db.rootDeletionJobs)
    (owner : row.userID = tenantID) (active : row.active = true)
    (again : retryJobID = "" ∨ (retryJobID = row.id ∧ row.recoveryRequired = false)) :
    db.submitRootDeletion now tenantID actorID row.rootID retryJobID id wait = .ok (row, db) := by
  obtain ⟨others, found⟩ := submission_finds single stored owner active
  rw [submitRootDeletion, found]
  dsimp only
  rcases again with rfl | ⟨rfl, unpaused⟩
  · simp
  · simp [unpaused]

/-- The retry of a paused job resumes it, under the same identifier. -/
theorem submission_recovers (single : OneDeletion db) (stored : row ∈ db.rootDeletionJobs)
    (owner : row.userID = tenantID) (active : row.active = true) (named : row.id ≠ "")
    (paused : row.recoveryRequired = true) :
    db.submitRootDeletion now tenantID actorID row.rootID row.id id wait =
      .ok (row.resume now, { db with
        rootDeletionJobs := db.rootDeletionJobs.update (fun other =>
          other.id == row.id && other.userID == tenantID && other.recoveryRequired)
            (·.resume now) }) := by
  obtain ⟨others, found⟩ := submission_finds single stored owner active
  rw [submitRootDeletion, found]
  dsimp only
  rw [if_neg (by simp), if_pos ⟨named, paused⟩]

/-- A request with `retry_job_id` inserts no job. -/
theorem retry_inserts_nothing (clock : Nat) (retries : retryJobID ≠ "")
    {later : RootDeletionJob} (member : later ∈ (db.exec now clock
      (.submitDeletion tenantID actorID rootID retryJobID id wait)).rootDeletionJobs) :
    ∃ old ∈ db.rootDeletionJobs, old.id = later.id := by
  rcases mem_exec_deletions member with ⟨old, stored, change⟩ | ⟨_, _, _, _, _, same, -⟩
  · exact ⟨old, stored, change.identity.1.symm⟩
  · cases same
    exact absurd rfl retries

end Submissions

/-- In every run: a tenant has one active deletion job at most. A submission for the
active root answers with that job and changes nothing, except that a retry that names
a paused job resumes it; one for another root or another job is refused without any
change; one with `retry_job_id` inserts nothing. Attempts stay within the budget, and a
paused job is not claimed. An active job that is due is paused, can be claimed, or is
paused by the claims that follow. -/
theorem deletion_admission (sha256 : String → String) (events : List SystemEvent)
    (given : Along (System.step sha256) (fun system event => system.reportsGiven event = true)
      System.initial events) (db : Database)
    (reached : db = (runFrom (System.step sha256) System.initial events).world.db) :
    OneDeletion db ∧
    (∀ now clock wait tenantID actorID rootID retryJobID id, ∀ row ∈ db.rootDeletionJobs,
      row.userID = tenantID → row.active = true →
      (rootID = row.rootID → retryJobID = "" ∨ (retryJobID = row.id ∧ row.recoveryRequired = false) →
        db.submitRootDeletion now tenantID actorID rootID retryJobID id wait = .ok (row, db)) ∧
      (rootID = row.rootID → retryJobID = row.id → retryJobID ≠ "" → row.recoveryRequired = true →
        db.submitRootDeletion now tenantID actorID rootID retryJobID id wait =
          .ok (row.resume now, { db with
            rootDeletionJobs := db.rootDeletionJobs.update (fun other =>
              other.id == row.id && other.userID == tenantID && other.recoveryRequired)
                (·.resume now) })) ∧
      (rootID ≠ row.rootID ∨ (retryJobID ≠ "" ∧ retryJobID ≠ row.id) →
        db.submitRootDeletion now tenantID actorID rootID retryJobID id wait = .error .busy ∧
        db.exec now clock (.submitDeletion tenantID actorID rootID retryJobID id wait) = db)) ∧
    (∀ now clock wait tenantID actorID rootID retryJobID id, retryJobID ≠ "" →
      ∀ later ∈ (db.exec now clock (.submitDeletion tenantID actorID rootID retryJobID id wait)
        ).rootDeletionJobs, ∃ old ∈ db.rootDeletionJobs, old.id = later.id) ∧
    (∀ row ∈ db.rootDeletionJobs, row.attemptCount ≤ rootDeletionMaxAttempts) ∧
    (∀ now attempt locked job, (db.claimRootDeletion now attempt locked).1 = some job →
      ∃ row ∈ db.rootDeletionJobs, row.id = job.id ∧ row.recoveryRequired = false) ∧
    ∀ row ∈ db.rootDeletionJobs, row.active = true → ∀ now, row.due now →
      row.recoveryRequired = true ∨ row.claimable now = true ∨
      ∀ attempts : List String, (exhaustedIDs db now).length ≤ attempts.length →
        ∃ later ∈ (claimAll now db attempts).rootDeletionJobs,
          later.id = row.id ∧ later.recoveryRequired = true := by
  have budget : DeletionBudget (runFrom (System.step sha256) System.initial events) :=
    invariant_along (fun system event before allowed => before.step allowed
      (system.stepped sha256 event)) DeletionBudget.initial events given
  subst reached
  refine ⟨budget.single, ?_, ?_, fun row stored => (budget.sound row stored).attempts, ?_, ?_⟩
  · intro now clock wait tenantID actorID rootID retryJobID id row stored owner active
    refine ⟨?_, ?_, fun other => ?_⟩
    · rintro rfl again
      exact submission_repeated budget.single stored owner active again
    · rintro rfl rfl named paused
      exact submission_recovers budget.single stored owner active named paused
    · have refused : (runFrom (System.step sha256) System.initial events).world.db.submitRootDeletion
          now tenantID actorID rootID retryJobID id wait = .error .busy :=
        submission_refused budget.single stored owner active other
      refine ⟨refused, ?_⟩
      simp [exec, refused, settle]
  · intro now clock wait tenantID actorID rootID retryJobID id retries later member
    exact retry_inserts_nothing clock retries member
  · intro now attempt locked job claims
    rcases (runFrom (System.step sha256) System.initial events).world.db.claimRootDeletion_cases now
      attempt locked with ⟨none, -⟩ | ⟨candidate, stored, claimable, some, -⟩
    · rw [none] at claims
      cases claims
    · rw [some] at claims
      cases claims
      simp only [RootDeletionJob.claimable, Bool.and_eq_true, Bool.not_eq_true'] at claimable
      exact ⟨candidate, stored, rfl, claimable.1.2⟩
  · intro row stored active now due
    rcases (budget.sound row stored).not_stranded active due with paused | claimable | exhausted
    · exact .inl paused
    · exact .inr (.inl claimable)
    · exact .inr (.inr fun attempts enough =>
        ⟨row.pause now, exhausted_becomes_paused stored exhausted attempts enough, rfl, rfl⟩)

/-- A first attempt gets no answer from LCE and reports so. -/
def unansweredDeletion : List SystemEvent :=
  [.other (.commit 0 (.submitDeletion "tenant" "owner" "root" "" "deletion" 0)),
    .other (.commit 0 (.claimDeletion "attempt" [])),
    .other (.commit 0 (.recordDeletionError
      ((RootDeletionJob.submitted 0 "tenant" "owner" "root" "deletion").claim 0 "attempt") false))]

theorem deletion_admission_unanswered :
    Along (System.step id) (fun system event => system.reportsGiven event = true) System.initial
        unansweredDeletion ∧
      (runFrom (System.step id) System.initial unansweredDeletion).world.db.rootDeletionJobs.holds
        (fun row => row.active && row.attemptCount == 1) = true ∧
      OneDeletion (runFrom (System.step id) System.initial unansweredDeletion).world.db := by
  have given : Along (System.step id) (fun system event => system.reportsGiven event = true)
      System.initial unansweredDeletion := by
    decide +kernel
  exact ⟨given, by decide +kernel, (deletion_admission id unansweredDeletion given _ rfl).1⟩

end AcemcpRelay
