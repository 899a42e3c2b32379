import AcemcpRelay.JobSteps
import AcemcpRelay.Sweeps

/-!
# Publications take turns

A job that has its turn gets a heartbeat that is newer than all others. Whatever is committed
after that gives a job the time of its own moment, so that the job cannot become older again
than one that waits. As long as it is newer, every sweep that selects it has selected the
waiting one before it.
-/
namespace AcemcpRelay

open Store

/-! ### Heartbeats -/

namespace JobChange

variable {now clock : Nat} {db after : Database} {transaction : Transaction} {old row : IndexJob}

theorem heartbeatAt (change : JobChange now clock db after transaction old row) :
    row.heartbeatAt = now ∨ row.heartbeatAt = old.heartbeatAt := by
  cases change with
  | same | reclaimed | swept => exact .inr rfl
  | _ => exact .inl rfl

/-- A job comes to publish with a new heartbeat. -/
theorem publishes (change : JobChange now clock db after transaction old row)
    (publishing : row.publishes = true) :
    row.heartbeatAt = now ∨ (old.publishes = true ∧ row.heartbeatAt = old.heartbeatAt) := by
  cases change with
  | same => exact .inr ⟨publishing, rfl⟩
  | reclaimed | swept => exact absurd publishing (by simp [IndexJob.publishes, IndexJob.reclaim,
      IndexJob.sweep, IndexJob.closed])
  | _ => exact .inl rfl

end JobChange

theorem Created.heartbeatAt {now : Nat} {db after : Database} {transaction : Transaction}
    {job : IndexJob} {files : List ManifestFile} (created : Created now db after transaction job files) :
    job.heartbeatAt = now := by
  obtain ⟨userID, req, wait, normalized, diff, -, -, -, -, same, -⟩ := created
  rw [same]
  rfl

namespace World

variable {world : World} {transaction : Transaction} {row : IndexJob}

/-- Where a row comes from that is there after a commit: it is as old as the commit, or it was
there with its heartbeat. -/
theorem mem_commit (stored : row ∈ (world.step (.commit 0 transaction)).db.indexJobs) :
    row.heartbeatAt = world.clock ∨
      ∃ old ∈ world.db.indexJobs, old.id = row.id ∧ row.heartbeatAt = old.heartbeatAt := by
  simp only [step] at stored
  split at stored
  · rcases Database.mem_exec_jobs stored with ⟨old, known, change⟩ | ⟨files, created⟩
    · exact change.heartbeatAt.imp_right fun same => ⟨old, known, change.sameJob.id.symm, same⟩
    · exact .inl created.heartbeatAt
  · exact .inr ⟨row, stored, rfl, rfl⟩

/-- The same of a job that publishes: it did so before with its heartbeat. -/
theorem mem_commit_publishes (stored : row ∈ (world.step (.commit 0 transaction)).db.indexJobs)
    (publishing : row.publishes = true) :
    row.heartbeatAt = world.clock ∨ ∃ old ∈ world.db.indexJobs, old.id = row.id ∧
      old.publishes = true ∧ row.heartbeatAt = old.heartbeatAt := by
  simp only [step] at stored
  split at stored
  · rcases Database.mem_exec_jobs stored with ⟨old, known, change⟩ | ⟨files, created⟩
    · exact (change.publishes publishing).imp_right fun kept =>
        ⟨old, known, change.sameJob.id.symm, kept.1, kept.2⟩
    · exact .inl created.heartbeatAt
  · exact .inr ⟨row, stored, rfl, publishing, rfl⟩

theorem clock_commit (waited : Nat) : (world.step (.commit waited transaction)).clock = world.clock := by
  unfold step
  by_cases possible : world.admissible transaction = true
  · simp only [possible, if_true]
  · simp only [if_neg possible]

theorem mem_touch {userID jobID : String} :
    row ∈ (world.step (.commit 0 (.touch userID jobID))).db.indexJobs ↔
      ∃ old ∈ world.db.indexJobs, row = if old.runningAs userID jobID && old.phase == .publishing
        then { old with heartbeatAt := world.clock } else old :=
  Table.mem_update

end World

/-! ### Turns -/

namespace SweepState

variable {state : SweepState} {a b : String} {stamp : Nat}

/-- What holds in every state. -/
structure Sound (state : SweepState) : Prop where
  issued : state.world.JobsIssued
  past : ∀ job ∈ state.world.db.indexJobs, job.heartbeatAt ≤ state.world.clock
  once : (state.candidates.map (·.id)).Nodup
  /-- A candidate is the job that has its identifier. -/
  owned : ∀ candidate ∈ state.candidates, candidate.id ∈ state.world.issued ∧
    ∀ job ∈ state.world.db.indexJobs, job.id = candidate.id → job.userID = candidate.user

theorem Sound.later (sound : Sound state) (pause : Nat) :
    Sound { state with world := state.later pause } where
  issued := sound.issued
  past job stored := Nat.le_add_right_of_le (sound.past job stored)
  once := sound.once
  owned := sound.owned

theorem Sound.commit (sound : Sound state) (transaction : Transaction) :
    Sound { state with world := state.world.step (.commit 0 transaction) } where
  issued := World.JobsIssued.step sound.issued _
  past job stored := by
    rw [World.clock_commit]
    rcases World.mem_commit stored with now | ⟨old, known, -, same⟩
    · exact Nat.le_of_eq now
    · exact same ▸ sound.past old known
  once := sound.once
  owned candidate listed := by
    obtain ⟨known, owner⟩ := sound.owned candidate listed
    exact ⟨World.mem_issued_step known _, World.column_step SameJob.userID known owner _⟩

/-- Fewer candidates. -/
theorem Sound.fewer (sound : Sound state) {rest : List PublicationCandidate}
    (part : rest.Sublist state.candidates) : Sound { state with candidates := rest } where
  issued := sound.issued
  past := sound.past
  once := sound.once.sublist (part.map _)
  owned candidate listed := sound.owned candidate (part.subset listed)

/-- The rows that a sweep selects. -/
theorem Sound.selected (sound : Sound state) {chosen : List IndexJob} (nodup : chosen.Nodup)
    (stored : ∀ job ∈ chosen, job ∈ state.world.db.indexJobs) :
    Sound { state with candidates := chosen.map (·.candidate) } where
  issued := sound.issued
  past := sound.past
  once := by
    rw [List.map_map]
    exact List.Nodup.map_on
      (fun x listed y listed' same => Table.eq_of_key_eq (stored x listed) (stored y listed') same)
      nodup
  owned candidate listed := by
    obtain ⟨job, inChosen, rfl⟩ := List.mem_map.mp listed
    refine ⟨sound.issued job (stored job inChosen), fun other known same => ?_⟩
    rw [Table.eq_of_key_eq known (stored job inChosen) same]
    rfl

theorem Sound.step (sound : Sound state) (event : SweepEvent) : Sound (state.step event) := by
  cases event with
  | commit pause transaction => exact (sound.later pause).commit transaction
  | select pause chosen =>
    simp only [SweepState.step]
    split
    next answer =>
      obtain ⟨-, nodup, listed, -⟩ := answer
      exact (sound.later pause).selected nodup fun job inChosen =>
        (Table.mem_select.mp (listed job inChosen)).1
    · exact sound.later pause
  | attempt pause =>
    simp only [SweepState.step]
    split
    · exact sound.later pause
    next next rest waiting =>
      have part : rest.Sublist state.candidates := waiting ▸ List.sublist_cons_self next rest
      exact ((sound.later pause).commit (.touch next.user next.id)).fewer part
  | cut => exact sound.fewer (List.nil_sublist _)

/-- The job `b` waits with its heartbeat, and `a` cannot overtake it: if it publishes then it is
newer, and where it is a candidate `b` is one before it. -/
structure Waiting (a b : String) (stamp : Nat) (state : SweepState) : Prop where
  sound : Sound state
  waits : ∀ job ∈ state.world.db.indexJobs, job.id = b → job.heartbeatAt = stamp
  known : stamp ≤ state.world.clock
  newer : ∀ job ∈ state.world.db.indexJobs, job.id = a → job.publishes = true →
    stamp < job.heartbeatAt
  ahead : ∀ earlier later, state.candidates.map (·.id) = earlier ++ a :: later → b ∈ earlier

theorem Waiting.later (waiting : Waiting a b stamp state) (pause : Nat) :
    Waiting a b stamp { state with world := state.later pause } where
  sound := waiting.sound.later pause
  waits := waiting.waits
  known := Nat.le_add_right_of_le waiting.known
  newer := waiting.newer
  ahead := waiting.ahead

/-- A commit that leaves the heartbeat of `b`, at a time after it. -/
theorem Waiting.commit (waiting : Waiting a b stamp state) (time : stamp < state.world.clock)
    {transaction : Transaction}
    (left : ∀ job ∈ (state.world.step (.commit 0 transaction)).db.indexJobs, job.id = b →
      job.heartbeatAt = stamp) :
    Waiting a b stamp { state with world := state.world.step (.commit 0 transaction) } where
  sound := waiting.sound.commit transaction
  waits := left
  known := by
    rw [World.clock_commit]
    exact waiting.known
  newer job stored same publishing := by
    rcases World.mem_commit_publishes stored publishing with now | ⟨old, known, id, before, kept⟩
    · rw [now]
      exact time
    · rw [kept]
      exact waiting.newer old known (id.trans same) before
  ahead := waiting.ahead

/-- A turn of another job leaves `b`. -/
theorem waits_touch {world : World} (userID : String) {jobID : String} (other : jobID ≠ b)
    (waits : ∀ job ∈ world.db.indexJobs, job.id = b → job.heartbeatAt = stamp) :
    ∀ job ∈ (world.step (.commit 0 (.touch userID jobID))).db.indexJobs, job.id = b →
      job.heartbeatAt = stamp := by
  intro job stored same
  obtain ⟨old, known, rfl⟩ := World.mem_touch.mp stored
  by_cases touched : (old.runningAs userID jobID && old.phase == .publishing) = true
  · rw [if_pos touched] at same
    have named : old.id = jobID :=
      (IndexJob.runningAs_iff.mp (Bool.and_eq_true_iff.mp touched).1).1
    exact absurd (named.symm.trans same) other
  · rw [if_neg touched] at same ⊢
    exact waits old known same

theorem lt_later {time : Nat} (known : time ≤ state.world.clock) (pause : Nat) :
    time < (state.later pause).clock :=
  Nat.lt_of_le_of_lt known (Nat.lt_add_of_pos_right (Nat.succ_pos pause))

theorem Waiting.step (waiting : Waiting a b stamp state) {event : SweepEvent}
    (publishing : state.Publishing b) (left : state.LeavesHeartbeat b event)
    (missed : state.attempted event ≠ some b) : Waiting a b stamp (state.step event) := by
  obtain ⟨waiter, stored, named, publishes⟩ := publishing
  have stands := waiting.waits waiter stored named
  cases event with
  | commit pause transaction =>
    refine (waiting.later pause).commit (lt_later waiting.known pause) fun job there same => ?_
    rw [left waiter stored job there named same, stands]
  | select pause chosen =>
    simp only [SweepState.step]
    split
    next answer =>
      refine { waiting.later pause with sound := ?_, ahead := ?_ }
      · have sound := waiting.sound.step (.select pause chosen)
        rwa [SweepState.step, if_pos answer] at sound
      · intro earlier later split
        rw [List.map_map] at split
        obtain ⟨front, back, cut, rfl, rest⟩ := List.map_eq_append_iff.mp split
        obtain ⟨rival, behind, rfl, isRival, rfl⟩ := List.map_eq_cons_iff.mp rest
        -- the rival was selected, and the waiting job is older
        have inTable := Table.mem_select.mp (answer.2.2.1 rival (by simp [cut]))
        have newer := waiting.newer rival inTable.1 isRival inTable.2
        have first := answer.2.before cut (Table.mem_select.mpr ⟨stored, publishes⟩)
          (by rw [stands]; exact newer)
        exact List.mem_map.mpr ⟨waiter, first, named⟩
    · exact waiting.later pause
  | attempt pause =>
    simp only [SweepState.step]
    split
    · exact waiting.later pause
    next next rest queue =>
      have other : next.id ≠ b := by
        intro same
        refine missed ?_
        rw [attempted, queue, List.head?_cons, Option.map_some, same]
      have turned := (waiting.later pause).commit (lt_later waiting.known pause)
        (waits_touch next.user other waiting.waits)
      refine { turned with sound := ?_, ahead := ?_ }
      · exact turned.sound.fewer (queue ▸ List.sublist_cons_self next rest)
      · intro earlier later split
        have first := waiting.ahead (next.id :: earlier) later (by
          rw [queue, List.map_cons, split, List.cons_append])
        exact (List.mem_cons.mp first).resolve_left (Ne.symm other)
  | cut =>
    refine { waiting with sound := waiting.sound.fewer (List.nil_sublist _), ahead := ?_ }
    intro earlier later split
    exact absurd split.symm (List.append_ne_nil_of_right_ne_nil _ (List.cons_ne_nil _ _))

theorem Waiting.run {events : List SweepEvent} (waiting : Waiting a b stamp state)
    (publishing : Throughout SweepState.step (Publishing b) state events)
    (left : Along SweepState.step (LeavesHeartbeat b) state events)
    (missed : Along SweepState.step (fun state event => state.attempted event ≠ some b) state events) :
    Waiting a b stamp (runFrom SweepState.step state events) := by
  induction events generalizing state with
  | nil => exact waiting
  | cons event events ih =>
    exact ih (waiting.step publishing.1 left.1 missed.1) publishing.2 left.2 missed.2

/-- After its turn a job is newer than every other. -/
theorem Sound.turned (sound : Sound state) (different : a ≠ b) {pause : Nat}
    (turn : state.attempted (.attempt pause) = some a)
    (publishing : (state.step (.attempt pause)).Publishing b) :
    ∃ stamp, Waiting a b stamp (state.step (.attempt pause)) := by
  obtain ⟨next, first, rfl⟩ := Option.map_eq_some_iff.mp turn
  obtain ⟨rest, queue⟩ := List.head?_eq_some_iff.mp first
  have stepped : state.step (.attempt pause) =
      ⟨(state.later pause).step (.commit 0 (.touch next.user next.id)), rest⟩ := by
    simp only [SweepState.step, queue]
  have after := sound.step (.attempt pause)
  rw [stepped] at publishing after ⊢
  obtain ⟨waiter, stored, named, -⟩ := publishing
  -- the row of `b` is the one before the turn
  obtain ⟨old, known, changed⟩ := World.mem_touch.mp stored
  have untouched : (old.runningAs next.user next.id && old.phase == .publishing) = false := by
    by_contra touched
    rw [Bool.not_eq_false] at touched
    have isNext : old.id = next.id :=
      (IndexJob.runningAs_iff.mp (Bool.and_eq_true_iff.mp touched).1).1
    rw [if_pos touched] at changed
    rw [changed] at named
    exact different (isNext.symm.trans named)
  rw [untouched, if_neg Bool.false_ne_true] at changed
  subst changed
  have past : waiter.heartbeatAt ≤ state.world.clock := sound.past waiter known
  refine ⟨waiter.heartbeatAt, after, fun job there same => ?_, ?_, ?_, ?_⟩
  · rw [Table.eq_of_key_eq there stored (same.trans named.symm)]
  · rw [World.clock_commit]
    exact Nat.le_of_lt (lt_later past pause)
  · intro job there same publishes
    obtain ⟨before, was, rfl⟩ := World.mem_touch.mp there
    by_cases touched : (before.runningAs next.user next.id && before.phase == .publishing) = true
    · rw [if_pos touched]
      exact lt_later past pause
    · -- a publishing job with this identifier is touched
      rw [if_neg touched] at same publishes
      have owner := (sound.owned next (queue ▸ List.mem_cons_self)).2 before was same
      have running := Bool.and_eq_true_iff.mp publishes
      refine absurd (Bool.and_eq_true_iff.mpr ⟨IndexJob.runningAs_iff.mpr ⟨same, owner, ?_⟩, running.2⟩)
        touched
      exact beq_iff_eq.mp running.1
  · intro earlier later split
    have once := sound.once
    rw [queue, List.map_cons, List.nodup_cons] at once
    refine absurd ?_ once.1
    rw [split]
    exact List.mem_append_right _ List.mem_cons_self

end SweepState

/-- Between two turns of a job, every other job that publishes all the while and whose
heartbeat nobody else renews has a turn. -/
theorem publications_take_turns (start : SweepState) (idle : start.candidates = [])
    (issued : start.world.JobsIssued)
    (past : ∀ job ∈ start.world.db.indexJobs, job.heartbeatAt ≤ start.world.clock)
    (before middle : List SweepEvent) (first second : Nat) (a b : String) (different : a ≠ b) :
    let reached := runFrom SweepState.step start before
    let turned := reached.step (.attempt first)
    let again := runFrom SweepState.step turned middle
    reached.attempted (.attempt first) = some a → again.attempted (.attempt second) = some a →
    Throughout SweepState.step (SweepState.Publishing b) turned middle →
    Along SweepState.step (SweepState.LeavesHeartbeat b) turned middle →
    ∃ earlier event later, middle = earlier ++ event :: later ∧
      (runFrom SweepState.step turned earlier).attempted event = some b := by
  intro reached turned again turn turnAgain publishing left
  have initial : start.Sound := by
    refine ⟨issued, past, ?_, ?_⟩
    · rw [idle]
      exact List.nodup_nil
    · rw [idle]
      exact List.forall_mem_nil _
  have sound : reached.Sound := invariant_run (fun _ event sound => sound.step event) initial before
  obtain ⟨stamp, waiting⟩ := sound.turned different turn publishing.first
  rcases along_or_exists (fun state event => state.attempted event ≠ some b) turned middle with
    missed | ⟨earlier, event, later, rfl, turnB⟩
  · -- then `b` would stand before the first candidate
    obtain ⟨next, front, isA⟩ := Option.map_eq_some_iff.mp turnAgain
    obtain ⟨rest, queue⟩ := List.head?_eq_some_iff.mp front
    have ahead := (waiting.run publishing left missed).ahead [] (rest.map (·.id))
    rw [queue, List.map_cons, isA] at ahead
    exact absurd (ahead rfl) List.not_mem_nil
  · exact ⟨earlier, event, later, rfl, not_not.mp turnB⟩

def publishingJob (id : String) (heartbeatAt : Nat) : IndexJob where
  id := id
  userID := "ann"
  workspaceID := id
  workspaceName := id
  rootID := "repo"
  branch := "main"
  revision := ""
  mode := .full
  phase := .publishing
  workspaceFiles := 1
  totalFiles := 1
  totalChunks := 1
  deletedCount := 0
  startedAt := 0
  heartbeatAt := heartbeatAt

/-- Two jobs publish, and nobody sweeps. -/
def twoPublications : SweepState where
  world :=
    { clock := 5
      db := { Database.empty with
        indexJobs := ⟨[publishingJob "a" 0, publishingJob "b" 1], by decide⟩ }
      issued := ["a", "b"] }
  candidates := []

/-- The first sweep is cut short after `a`. -/
theorem publications_take_turns_two : ∃ earlier event later,
    [SweepEvent.cut, .select 0 [publishingJob "b" 1, publishingJob "a" 7], .attempt 0] =
      earlier ++ event :: later ∧
    (runFrom SweepState.step ((runFrom SweepState.step twoPublications
      [.select 0 [publishingJob "a" 0, publishingJob "b" 1]]).step (.attempt 0)) earlier).attempted
        event = some "b" := by
  have issued : twoPublications.world.JobsIssued := by
    unfold World.JobsIssued
    decide
  apply publications_take_turns twoPublications rfl issued (by decide)
    [.select 0 [publishingJob "a" 0, publishingJob "b" 1]] _ 0 0 "a" "b" (by decide)
  · decide +kernel
  · decide +kernel
  · refine ⟨by decide +kernel, by decide +kernel, by decide +kernel, ?_⟩
    change SweepState.Publishing "b" _
    decide +kernel
  · decide +kernel

end AcemcpRelay
