import AcemcpRelay.ManifestSteps
import AcemcpRelay.SystemSteps

/-!
# The life of a job

A job that has ended stays as it is, a workspace has one running job at most, and
a start that finds the workspace busy or unchanged leaves no trace of a new job.

## Proof strategy

Nothing in the schema keeps two jobs of a workspace from running. What does is the
exclusive lease of a start: between the transaction that finds no running job and
the one that inserts the new job no other start of the tenant can commit. The
invariant attaches to a start that has passed its inspection and still has its
lease the statement that its workspace has no running job.
-/
namespace AcemcpRelay

open Store Database

/-- No job of the workspace is running. -/
def Idle (db : Database) (tenant workspaceID : String) : Prop :=
  ∀ job ∈ db.indexJobs, job.status = .running → job.userID = tenant → job.workspaceID ≠ workspaceID

def OneRunning (db : Database) : Prop :=
  ∀ a ∈ db.indexJobs, ∀ b ∈ db.indexJobs, a.status = .running → b.status = .running →
    a.userID = b.userID → a.workspaceID = b.workspaceID → a = b

/-- The workspace of a start that has passed its inspection and not yet created a job. -/
def Point.inspected : Point → Option String
  | .loadRoot _ normalized | .clearOldRoot _ normalized _ | .resetBinding _ normalized _
  | .create _ normalized => some normalized.workspaceID
  | _ => none

/-- The request of a start, as it came and as it was normalized. -/
def Point.request : Point → Option (StartRequest × StartRequest)
  | .inspect req normalized | .loadRoot req normalized | .clearOldRoot req normalized _
  | .resetBinding req normalized _ | .create req normalized => some (req, normalized)
  | _ => none

section Step

variable {db : Database} {now clock : Nat} {transaction : Transaction}

/-- Only a start makes a job that was not running. -/
theorem Idle.exec {tenant workspaceID : String} (idle : Idle db tenant workspaceID)
    (kept : ∀ row files, ¬ Created now db (db.exec now clock transaction) transaction row files) :
    Idle (db.exec now clock transaction) tenant workspaceID := by
  intro row member running owner
  rcases exec_running member running with ⟨old, stored, before, same, -⟩ | ⟨files, created⟩
  · rw [same.workspaceID]
    exact idle old stored before (by rw [← same.userID, owner])
  · exact absurd created (kept row files)

theorem OneRunning.exec (single : OneRunning db)
    (kept : ∀ row files, ¬ Created now db (db.exec now clock transaction) transaction row files) :
    OneRunning (db.exec now clock transaction) := by
  intro a ha b hb runningA runningB owner workspace
  rcases exec_running ha runningA with ⟨oldA, storedA, beforeA, sameA, -⟩ | ⟨files, created⟩
  · rcases exec_running hb runningB with ⟨oldB, storedB, beforeB, sameB, -⟩ | ⟨files, created⟩
    · have same : oldA = oldB := single oldA storedA oldB storedB beforeA beforeB
        (by rw [← sameA.userID, ← sameB.userID, owner])
        (by rw [← sameA.workspaceID, ← sameB.workspaceID, workspace])
      exact Table.eq_of_key_eq ha hb (by rw [sameA.id, sameB.id, same])
    · exact absurd created (kept b files)
  · exact absurd created (kept a files)

/-- A job inserted into an idle workspace is the only one. -/
theorem OneRunning.created {after : Database} {job : IndexJob} {files : List ManifestFile}
    (single : OneRunning db) (idle : Idle db job.userID job.workspaceID)
    (created : Created now db after transaction job files) : OneRunning after := by
  intro a ha b hb runningA runningB owner workspace
  rcases created.mem_jobs.mp ha with storedA | rfl
  · rcases created.mem_jobs.mp hb with storedB | rfl
    · exact single a storedA b storedB runningA runningB owner workspace
    · exact absurd workspace (idle a storedA runningA owner)
  · rcases created.mem_jobs.mp hb with storedB | rfl
    · exact absurd workspace.symm (idle b storedB runningB owner.symm)
    · rfl

/-- After an inspection that did not find an active job the workspace is idle. -/
theorem idle_of_reclaimed {tenant workspaceID : String} {jobs : List IndexJob}
    (found : (db.inspectActiveIndexJob now clock tenant workspaceID).1 = .reclaimed jobs) :
    Idle (db.exec now clock (.inspect tenant workspaceID)) tenant workspaceID := by
  simp only [exec]
  rcases inspectActiveIndexJob_cases now clock tenant workspaceID db with ⟨job, same⟩ | ⟨-, same⟩
  · rw [same] at found
    cases found
  · rw [same]
    intro row member running owner workspace
    dsimp only at member
    rcases Table.mem_update_cases member with ⟨stored, missed⟩ | ⟨old, -, -, rfl⟩
    · have listed : row ∈ db.runningJobs tenant workspaceID :=
        mem_runningJobs.mpr ⟨stored, owner, workspace, running⟩
      rw [List.any_eq_false] at missed
      exact missed row listed (by simp)
    · cases running

end Step

/-! ### What a start does from each point -/

section Advance

variable {sha256 : String → String} {answer : Answer} {tenant : String} {clock : Nat}
  {db : Database} {cloud : Cloud} {point next : Point}

theorem advance_create {userID : String} {req : StartRequest} {wait : Nat} {jobID : String}
    (runs : (point.advance sha256 answer tenant clock db cloud).transaction =
      some (.create userID req wait jobID)) :
    userID = tenant ∧ wait = answer.wait ∧ jobID = answer.jobID ∧
      ∃ normalized, point = .create req normalized := by
  cases point with
  | create req normalized =>
    simp only [Point.advance] at runs
    split at runs <;> cases runs <;> exact ⟨rfl, rfl, rfl, normalized, rfl⟩
  | markBegin | dropManifest | record =>
    simp only [Point.advance] at runs
    split at runs <;> cases runs
  | loadRoot | begin | prepare | check =>
    simp only [Point.advance] at runs
    repeat' split at runs
    all_goals cases runs
  | _ => cases runs

/-- A start that creates a job goes on with its `begin`. -/
theorem advance_inserts {req normalized : StartRequest} {job : IndexJob} {files : List ManifestFile}
    (accepted : normalizeStartRequest req = .ok normalized)
    (created : Created (clock - answer.waited) db
      (db.exec (clock - answer.waited) clock (.create tenant req answer.wait answer.jobID))
      (.create tenant req answer.wait answer.jobID) job files) :
    ((Point.create req normalized).advance sha256 answer tenant clock db cloud).next =
        some (.begin job 0) ∧
      ((Point.create req normalized).advance sha256 answer tenant clock db cloud).notes =
        [.inserted job.id] := by
  have stored := created.mem_jobs.mpr (.inr rfl)
  -- the job is in the table, so the transaction was neither refused nor without effect
  have absent : job ∉ db.indexJobs := fun member => created.fresh member rfl
  simp only [exec, accepted, bind, Except.bind] at stored
  cases result : db.createIndexJob (clock - answer.waited) tenant normalized answer.wait
      answer.jobID with
  | error message =>
    rw [result] at stored
    exact absurd stored absent
  | ok committed =>
    obtain ⟨outcome, after⟩ := committed
    rw [result] at stored
    have member : job ∈ after.indexJobs := stored
    obtain ⟨files', diff, grafted, compared, ⟨-, -, -, -, same⟩ | ⟨-, same⟩ |
      ⟨job', rfl, rfl, -, inserted⟩⟩ := createIndexJob_cases result
    · rw [same] at member
      exact absurd member absent
    · rw [same] at member
      exact absurd member absent
    · obtain ⟨jobs, rows, placed, -, rfl⟩ := insertIndexJob_eq_ok inserted
      have same := ((Table.mem_insert placed).mp member).resolve_left absent
      rw [List.mem_singleton] at same
      subst same
      simp [Point.advance, result]

/-- The request of a start does not change on its way. -/
theorem advance_request {request : StartRequest × StartRequest}
    (moves : (point.advance sha256 answer tenant clock db cloud).next = some next)
    (known : next.request = some request) : point.request = some request := by
  cases point <;>
    simp only [Point.advance, afterIntent, afterPublish, afterStatus, afterCancel] at moves <;>
    repeat' split at moves
  all_goals cases moves
  all_goals first
    | exact known
    | cases known

/-- A start passes its inspection by finding no active job, and then keeps to its
workspace until it creates a job. -/
theorem advance_inspected {workspaceID : String}
    (moves : (point.advance sha256 answer tenant clock db cloud).next = some next)
    (passed : next.inspected = some workspaceID) :
    (point.inspected = some workspaceID ∧ ∀ req normalized, point ≠ .create req normalized) ∨
    (∃ jobs, (db.inspectActiveIndexJob (clock - answer.waited) clock tenant workspaceID).1 =
        .reclaimed jobs ∧
      (point.advance sha256 answer tenant clock db cloud).transaction =
        some (.inspect tenant workspaceID)) := by
  cases point with
  | inspect req normalized =>
    simp only [Point.advance] at moves ⊢
    split at moves
    · cases moves
    next jobs found =>
      cases moves
      cases passed
      exact .inr ⟨jobs, found, rfl⟩
  | create req normalized =>
    simp only [Point.advance] at moves
    split at moves <;> cases moves
    cases passed
  | loadRoot | clearOldRoot | resetBinding =>
    refine .inl ⟨?_, by simp⟩
    simp only [Point.advance] at moves
    repeat' split at moves
    all_goals cases moves
    all_goals exact passed
  | _ =>
    simp only [Point.advance, afterIntent, afterPublish, afterStatus, afterCancel] at moves
    repeat' split at moves
    all_goals cases moves
    all_goals cases passed

end Advance

/-! ### One step of the system -/

/-- What keeps the starts of a tenant apart. -/
structure StartDiscipline (system : System) : Prop where
  leases : LeaseDiscipline system
  single : OneRunning system.world.db
  starts : ∀ call ∈ system.calls, ∀ req normalized, call.point.request = some (req, normalized) →
    call.mode = .exclusive ∧ normalizeStartRequest req = .ok normalized
  idle : ∀ call ∈ system.calls, ∀ workspaceID, call.point.inspected = some workspaceID →
    system.holdsLease call = true → Idle system.world.db call.tenant workspaceID

theorem not_created {now : Nat} {db after : Database} {transaction : Transaction}
    (different : ∀ userID req wait jobID, transaction ≠ .create userID req wait jobID)
    (row : IndexJob) (files : List ManifestFile) : ¬ Created now db after transaction row files := by
  rintro ⟨userID, req, wait, -, -, same, -⟩
  exact different userID req wait row.id same

namespace StartDiscipline

variable {sha256 : String → String} {system : System}

theorem initial : StartDiscipline System.initial where
  leases := .initial
  single job member := absurd member (Table.not_mem_empty job)
  starts call member := absurd member (Table.not_mem_empty call)
  idle call member := absurd member (Table.not_mem_empty call)

theorem background (discipline : StartDiscipline system) {event : Event}
    (accepted : system.refuses event = false)
    (leases : LeaseDiscipline (system.background event))
    (held : ∀ call ∈ system.calls, (system.background event).holdsLease call = true →
      system.holdsLease call = true) : StartDiscipline (system.background event) := by
  have preserves {P : Database → Prop} (before : P system.world.db)
      (exec : ∀ now clock transaction, (∀ row files, ¬ Created now system.world.db
        (system.world.db.exec now clock transaction) transaction row files) →
        P (system.world.db.exec now clock transaction)) : P (system.world.step event).db := by
    cases event with
    | tick => exact before
    | commit waited transaction =>
      simp only [World.step]
      split
      · refine exec _ _ _ (not_created ?_)
        rintro userID req wait jobID rfl
        cases accepted
      · exact before
  refine ⟨leases, ?_, discipline.starts, fun call inFlight workspaceID passed holds => ?_⟩
  · exact preserves discipline.single fun _ _ _ kept => discipline.single.exec kept
  · have idle := discipline.idle call inFlight workspaceID passed (held call inFlight holds)
    exact preserves (P := fun db => Idle db call.tenant workspaceID) idle fun _ _ _ kept =>
      idle.exec kept

/-- A call begins before its inspection. -/
theorem enter_spec {operation : Operation} {point : Point} (admitted : operation.enter = .ok point) :
    point.inspected = none ∧ ∀ req normalized, point.request = some (req, normalized) →
      operation.mode = .exclusive ∧ normalizeStartRequest req = .ok normalized := by
  cases operation with
  | start req =>
    cases accepted : normalizeStartRequest req with
    | error message => simp [Operation.enter, accepted, Except.map] at admitted
    | ok normalized =>
      simp only [Operation.enter, accepted, Except.map, Except.ok.injEq] at admitted
      subst admitted
      refine ⟨rfl, fun req' normalized' known => ?_⟩
      cases known
      exact ⟨rfl, accepted⟩
  | upload req =>
    cases accepted : validateUpload req with
    | error message => simp [Operation.enter, accepted, Except.map] at admitted
    | ok valid =>
      simp only [Operation.enter, accepted, Except.map, Except.ok.injEq] at admitted
      subst admitted
      exact ⟨rfl, fun req normalized known => by cases known⟩
  | _ =>
    cases admitted
    exact ⟨rfl, fun req normalized known => by cases known⟩

theorem entered (discipline : StartDiscipline system) {waited : Nat} {call : Call}
    (before : call.point.inspected = none)
    (start : ∀ req normalized, call.point.request = some (req, normalized) →
      call.mode = .exclusive ∧ normalizeStartRequest req = .ok normalized)
    (leases : LeaseDiscipline (system.begin waited call))
    (held : ∀ other ∈ system.calls, (system.begin waited call).holdsLease other = true →
      system.holdsLease other = true) : StartDiscipline (system.begin waited call) := by
  have jobs : ∀ row files, ¬ Created (system.world.clock - waited) system.world.db
      (system.world.db.exec (system.world.clock - waited) system.world.clock
        (.acquire call.tenant call.resource call.kind call.token call.mode))
      (.acquire call.tenant call.resource call.kind call.token call.mode) row files :=
    not_created (by simp)
  refine ⟨leases, discipline.single.exec jobs, ?_, ?_⟩
  · intro other member req normalized known
    rcases System.mem_begin member with old | rfl
    · exact discipline.starts other old req normalized known
    · exact start req normalized known
  · intro other member workspaceID passed holds
    rcases System.mem_begin member with old | rfl
    · exact (discipline.idle other old workspaceID passed (held other old holds)).exec jobs
    · rw [before] at passed
      cases passed

/-- The job that a start creates is its own. -/
theorem owner_of_created {now : Nat} {db after : Database} {userID : String}
    {req normalized : StartRequest} {wait : Nat} {jobID : String} {row : IndexJob}
    {files : List ManifestFile} (accepted : normalizeStartRequest req = .ok normalized)
    (created : Created now db after (.create userID req wait jobID) row files) :
    row.userID = userID ∧ row.workspaceID = normalized.workspaceID := by
  obtain ⟨_, _, _, _, _, same, again, -, -, new, -⟩ := created
  cases same
  rw [accepted, Except.ok.injEq] at again
  subst again
  rw [new]
  exact ⟨rfl, rfl⟩

/-- The creating transaction of a start, under its lease. -/
theorem applied_created (discipline : StartDiscipline system) {call : Call}
    (inFlight : call ∈ system.calls) (holds : system.holdsLease call = true)
    {req normalized : StartRequest} (point : call.point = .create req normalized) {wait : Nat}
    {jobID : String} {now : Nat} {after : Database} {row : IndexJob} {files : List ManifestFile}
    (created : Created now system.world.db after (.create call.tenant req wait jobID) row files) :
    OneRunning after ∧ ∀ other ∈ system.calls, other.token ≠ call.token → ∀ workspaceID,
      other.point.inspected = some workspaceID → system.holdsLease other = true →
        Idle after other.tenant workspaceID := by
  obtain ⟨exclusive, accepted⟩ := discipline.starts call inFlight req normalized (by rw [point]; rfl)
  obtain ⟨owner, workspace⟩ := owner_of_created accepted created
  have idle : Idle system.world.db row.userID row.workspaceID := by
    rw [owner, workspace]
    exact discipline.idle call inFlight normalized.workspaceID (by rw [point]; rfl) holds
  refine ⟨discipline.single.created idle created, ?_⟩
  intro other known different workspaceID passed held job member running mine
  rcases created.mem_jobs.mp member with stored | rfl
  · exact discipline.idle other known workspaceID passed held job stored running mine
  · -- another start of the tenant would hold an exclusive lease as well
    have same : call = other := discipline.leases.exclusive_alone inFlight known
      (owner.symm.trans mine) exclusive holds held
    exact absurd (congrArg Call.token same.symm) different

theorem applied (discipline : StartDiscipline system) {call : Call} (inFlight : call ∈ system.calls)
    {answer : Answer} {effect : Effect}
    (next : effect = call.point.advance sha256 answer call.tenant system.world.clock
      system.world.db system.cloud)
    (allowed : call.point.detached = true ∨ system.holdsLease call = true)
    (possible : system.possible effect.transaction = true)
    (leases : LeaseDiscipline (system.apply sha256 call answer effect))
    (held : ∀ other ∈ system.calls,
      (system.apply sha256 call answer effect).holdsLease other = true →
        system.holdsLease other = true) :
    StartDiscipline (system.apply sha256 call answer effect) := by
  have starts : ∀ other ∈ (system.apply sha256 call answer effect).calls, ∀ req normalized,
      other.point.request = some (req, normalized) →
        other.mode = .exclusive ∧ normalizeStartRequest req = .ok normalized := by
    intro other member req normalized known
    rcases System.mem_moveOn member with ⟨old, -⟩ | ⟨old, stored, same, point, moves, rfl⟩
    · exact discipline.starts other old req normalized known
    · obtain rfl := Table.eq_of_key_eq stored inFlight same
      rw [next] at moves
      exact discipline.starts old stored req normalized (advance_request moves known)
  -- what the calls know, given what the step does to an idle workspace
  have idle (others : ∀ other ∈ system.calls, other.token ≠ call.token → ∀ workspaceID,
        other.point.inspected = some workspaceID → system.holdsLease other = true →
          Idle (system.apply sha256 call answer effect).world.db other.tenant workspaceID)
      (own : ∀ point workspaceID, effect.next = some point → point.inspected = some workspaceID →
        system.holdsLease call = true →
          Idle (system.apply sha256 call answer effect).world.db call.tenant workspaceID) :
      ∀ other ∈ (system.apply sha256 call answer effect).calls, ∀ workspaceID,
        other.point.inspected = some workspaceID →
        (system.apply sha256 call answer effect).holdsLease other = true →
          Idle (system.apply sha256 call answer effect).world.db other.tenant workspaceID := by
    intro other member workspaceID passed holds
    rcases System.mem_moveOn member with ⟨old, different⟩ | ⟨old, stored, same, point, moves, rfl⟩
    · exact others other old different workspaceID passed (held other old holds)
    · obtain rfl := Table.eq_of_key_eq stored inFlight same
      exact own point workspaceID moves passed (held old stored holds)
  cases runs : effect.transaction with
  | none =>
    have same : (system.apply sha256 call answer effect).world.db = system.world.db := by
      simp [System.apply, runs, System.commit]
    refine ⟨leases, by rw [same]; exact discipline.single, starts, idle ?_ ?_⟩
    · intro other known _ workspaceID passed holds
      rw [same]
      exact discipline.idle other known workspaceID passed holds
    · intro point workspaceID moves passed holds
      rw [same]
      rw [next] at moves runs
      rcases advance_inspected moves passed with ⟨before, -⟩ | ⟨jobs, -, inspects⟩
      · exact discipline.idle call inFlight workspaceID before holds
      · rw [runs] at inspects
        cases inspects
  | some transaction =>
    rw [runs] at possible
    have same : (system.apply sha256 call answer effect).world.db =
        system.world.db.exec (system.world.clock - answer.waited) system.world.clock
          transaction := by
      simp only [System.apply, runs]
      exact System.commit_db possible
    by_cases creates : ∃ row files, Created (system.world.clock - answer.waited) system.world.db
        (system.world.db.exec (system.world.clock - answer.waited) system.world.clock transaction)
        transaction row files
    · obtain ⟨row, files, created⟩ := creates
      obtain ⟨userID, req, wait, -, -, rfl, -⟩ := id created
      rw [next] at runs
      obtain ⟨rfl, -, -, normalized, point⟩ := advance_create runs
      have holds : system.holdsLease call = true := by
        rw [point] at allowed
        exact allowed.resolve_left (by simp [Point.detached])
      obtain ⟨single, others⟩ := discipline.applied_created inFlight holds point created
      rw [← same] at single others
      refine ⟨leases, single, starts, idle others fun following workspaceID moves passed _ => ?_⟩
      rw [next] at moves
      rcases advance_inspected moves passed with ⟨-, elsewhere⟩ | ⟨jobs, -, inspects⟩
      · exact absurd point (elsewhere req normalized)
      · rw [runs] at inspects
        cases inspects
    · simp only [not_exists] at creates
      refine ⟨leases, by rw [same]; exact discipline.single.exec creates, starts, idle ?_ ?_⟩
      · intro other known _ workspaceID passed holds
        rw [same]
        exact (discipline.idle other known workspaceID passed holds).exec creates
      · intro point workspaceID moves passed holds
        rw [same]
        rw [next] at moves runs
        rcases advance_inspected moves passed with ⟨before, -⟩ | ⟨jobs, found, inspects⟩
        · exact (discipline.idle call inFlight workspaceID before holds).exec creates
        · rw [runs] at inspects
          cases inspects
          exact idle_of_reclaimed found

theorem step {after : System} {event : SystemEvent} (discipline : StartDiscipline system)
    (stepped : Stepped sha256 system event after) : StartDiscipline after := by
  have leases := discipline.leases.step stepped
  have held (call : Call) (inFlight : call ∈ system.calls) (holds : after.holdsLease call = true) :
      system.holdsLease call = true := discipline.leases.held_before stepped inFlight holds
  cases stepped with
  | idle => exact discipline
  | other event accepted => exact discipline.background accepted leases held
  | entered waited token tenant spelling operation point admitted fresh claimed =>
    exact discipline.entered (enter_spec admitted).1 (enter_spec admitted).2 leases held
  | advanced call inFlight answer effect next allowed possible =>
    exact discipline.applied inFlight next allowed possible leases held
  | landed | lost | aborted =>
    exact ⟨leases, discipline.single, discipline.starts, discipline.idle⟩

end StartDiscipline

/-! ### What a start answers -/

/-- The start turned the request down. -/
def Note.declines : Note → Bool
  | .answered .busy | .answered .unchanged => true
  | _ => false

/-- The start made a job, in the database or at LCE. -/
def Note.creates : Note → Bool
  | .inserted _ | .begun _ => true
  | .answered _ => false

/-- The start has inserted its job. -/
def Point.started : Point → Bool
  | .begin _ _ | .abortBegin _ _ | .markBegin _ _ | .dropManifest _ => true
  | _ => false

/-- The three kinds of steps: without a note; the end of a start that turns the
request down; a step of a start that goes on. -/
theorem advance_notes (sha256 : String → String) (answer : Answer) (tenant : String) (clock : Nat)
    (db : Database) (cloud : Cloud) (point : Point) :
    ((point.advance sha256 answer tenant clock db cloud).notes = [] ∧
      ∀ next, (point.advance sha256 answer tenant clock db cloud).next = some next →
        next.started = point.started) ∨
    (point.started = false ∧ (point.advance sha256 answer tenant clock db cloud).next = none ∧
      ∀ note ∈ (point.advance sha256 answer tenant clock db cloud).notes, note.creates = false) ∨
    ((∀ note ∈ (point.advance sha256 answer tenant clock db cloud).notes, note.declines = false) ∧
      ∀ next, (point.advance sha256 answer tenant clock db cloud).next = some next →
        next.started = true) := by
  -- three points leave a note; every other one only moves on
  cases point with
  | inspect req normalized =>
    simp only [Point.advance]
    split
    · exact .inr (.inl ⟨rfl, rfl, by simp [Note.creates]⟩)
    · refine .inl ⟨rfl, fun next moves => ?_⟩
      cases moves
      rfl
  | create req normalized =>
    simp only [Point.advance]
    split
    · exact .inr (.inl ⟨rfl, rfl, by simp⟩)
    · exact .inr (.inl ⟨rfl, rfl, by simp [Note.creates]⟩)
    · exact .inr (.inl ⟨rfl, rfl, by simp [Note.creates]⟩)
    · refine .inr (.inr ⟨by simp [Note.declines], fun next moves => ?_⟩)
      cases moves
      rfl
  | begin job attempt =>
    simp only [Point.advance]
    repeat' split
    all_goals refine .inr (.inr ⟨by simp [Note.declines], fun next moves => ?_⟩)
    all_goals cases moves
    all_goals rfl
  | _ =>
    refine .inl ⟨?_, fun next moves => ?_⟩
    · simp only [Point.advance]
      repeat' split
      all_goals rfl
    · simp only [Point.advance, afterIntent, afterPublish, afterStatus, afterCancel] at moves
      repeat' split at moves
      all_goals cases moves
      all_goals rfl

/-- A start that has turned its request down is over and has made no job; one that is
in flight has turned nothing down, and has done nothing yet before its job is
inserted. -/
structure NoteDiscipline (system : System) : Prop where
  spentCalls : ∀ call ∈ system.calls, call.token ∈ system.tokens
  spentNotes : ∀ entry ∈ system.notes, entry.1 ∈ system.tokens
  quiet : ∀ call ∈ system.calls, call.point.started = false →
    ∀ note, (call.token, note) ∉ system.notes
  proceeds : ∀ call ∈ system.calls, ∀ note, (call.token, note) ∈ system.notes →
    note.declines = false
  apart : ∀ token answer trace, (token, answer) ∈ system.notes → answer.declines = true →
    (token, trace) ∈ system.notes → trace.creates = false

namespace NoteDiscipline

variable {sha256 : String → String} {system : System}

theorem initial : NoteDiscipline System.initial where
  spentCalls call member := absurd member (Table.not_mem_empty call)
  spentNotes _ member := nomatch member
  quiet call member := absurd member (Table.not_mem_empty call)
  proceeds call member := absurd member (Table.not_mem_empty call)
  apart _ _ _ member := nomatch member

theorem entered (discipline : NoteDiscipline system) {waited : Nat} {call : Call}
    (fresh : call.token ∉ system.tokens) : NoteDiscipline (system.begin waited call) := by
  have silent (note : Note) : (call.token, note) ∉ system.notes :=
    fun member => fresh (discipline.spentNotes _ member)
  refine ⟨?_, fun entry member => List.mem_cons_of_mem _ (discipline.spentNotes entry member), ?_,
    ?_, discipline.apart⟩
  · intro other member
    rcases System.mem_begin member with old | rfl
    · exact List.mem_cons_of_mem _ (discipline.spentCalls other old)
    · exact List.mem_cons_self
  · intro other member early note
    rcases System.mem_begin member with old | rfl
    · exact discipline.quiet other old early note
    · exact silent note
  · intro other member note noted
    rcases System.mem_begin member with old | rfl
    · exact discipline.proceeds other old note noted
    · exact absurd noted (silent note)

theorem mem_applied {call : Call} {answer : Answer} {effect : Effect} {token : String} {note : Note}
    (member : (token, note) ∈ (system.apply sha256 call answer effect).notes) :
    (token = call.token ∧ note ∈ effect.notes) ∨ (token, note) ∈ system.notes := by
  rcases List.mem_append.mp member with added | old
  · obtain ⟨new, listed, same⟩ := List.mem_map.mp added
    cases same
    exact .inl ⟨rfl, listed⟩
  · exact .inr old

theorem applied (discipline : NoteDiscipline system) {call : Call} (inFlight : call ∈ system.calls)
    {answer : Answer} {effect : Effect}
    (next : effect = call.point.advance sha256 answer call.tenant system.world.clock
      system.world.db system.cloud) :
    NoteDiscipline (system.apply sha256 call answer effect) := by
  have kinds := advance_notes sha256 answer call.tenant system.world.clock system.world.db
    system.cloud call.point
  rw [← next] at kinds
  -- a note carries the token of its call, and tokens are not used twice
  refine ⟨?_, ?_, ?_, ?_, ?_⟩
  · intro other member
    rcases System.mem_moveOn member with ⟨old, -⟩ | ⟨old, stored, -, point, -, rfl⟩
    · exact discipline.spentCalls other old
    · exact discipline.spentCalls old stored
  · rintro ⟨token, note⟩ member
    rcases mem_applied member with ⟨rfl, -⟩ | old
    · exact discipline.spentCalls call inFlight
    · exact discipline.spentNotes _ old
  · intro other member early note noted
    rcases System.mem_moveOn member with ⟨old, different⟩ | ⟨old, stored, same, point, moves, rfl⟩
    · rcases mem_applied noted with ⟨same, -⟩ | before
      · exact different same
      · exact discipline.quiet other old early note before
    · obtain rfl := Table.eq_of_key_eq stored inFlight same
      rcases kinds with ⟨none, stays⟩ | ⟨-, ends, -⟩ | ⟨-, goes⟩
      · rw [stays point moves] at early
        rcases mem_applied noted with ⟨-, listed⟩ | before
        · rw [none] at listed
          cases listed
        · exact discipline.quiet old stored early note before
      · rw [ends] at moves
        cases moves
      · exact absurd early (by simp [goes point moves])
  · intro other member note noted
    rcases System.mem_moveOn member with ⟨old, different⟩ | ⟨old, stored, same, point, moves, rfl⟩
    · rcases mem_applied noted with ⟨same, -⟩ | before
      · exact absurd same different
      · exact discipline.proceeds other old note before
    · obtain rfl := Table.eq_of_key_eq stored inFlight same
      rcases mem_applied noted with ⟨-, listed⟩ | before
      · rcases kinds with ⟨none, -⟩ | ⟨-, ends, -⟩ | ⟨going, -⟩
        · rw [none] at listed
          cases listed
        · rw [ends] at moves
          cases moves
        · exact going note listed
      · exact discipline.proceeds old stored note before
  · intro token declined trace noted declines traced
    rcases mem_applied noted with ⟨rfl, listed⟩ | before
    · -- this step turns the request down, and the start has done nothing before it
      rcases kinds with ⟨none, -⟩ | ⟨early, -, only⟩ | ⟨going, -⟩
      · rw [none] at listed
        cases listed
      · rcases mem_applied traced with ⟨-, own⟩ | earlier
        · exact only trace own
        · exact absurd earlier (discipline.quiet call inFlight early trace)
      · rw [going declined listed] at declines
        cases declines
    · rcases mem_applied traced with ⟨rfl, -⟩ | earlier
      · rw [discipline.proceeds call inFlight declined before] at declines
        cases declines
      · exact discipline.apart token declined trace before declines earlier

theorem step {after : System} {event : SystemEvent} (discipline : NoteDiscipline system)
    (stepped : Stepped sha256 system event after) : NoteDiscipline after := by
  cases stepped with
  | idle => exact discipline
  | other event =>
    have grows {token : String} (old : token ∈ system.tokens) :
        token ∈ System.spends event ++ system.tokens := List.mem_append_right _ old
    exact ⟨fun call member => grows (discipline.spentCalls call member),
      fun entry member => grows (discipline.spentNotes entry member), discipline.quiet,
      discipline.proceeds, discipline.apart⟩
  | entered waited token tenant spelling operation point admitted fresh =>
    exact discipline.entered fresh
  | advanced call inFlight answer effect next => exact discipline.applied inFlight next
  | landed | lost | aborted =>
    exact ⟨discipline.spentCalls, discipline.spentNotes, discipline.quiet, discipline.proceeds,
      discipline.apart⟩

end NoteDiscipline

/-- The jobs and the areas that there are come from starts, which noted them. -/
structure Traced (system : System) : Prop where
  jobs : ∀ job ∈ system.world.db.indexJobs, ∃ token, (token, Note.inserted job.id) ∈ system.notes
  areas : ∀ jobID, (system.cloud.areas jobID).isSome = true →
    ∃ token, (token, Note.begun jobID) ∈ system.notes

theorem advance_begun {sha256 : String → String} {answer : Answer} {tenant owner : String}
    {clock : Nat} {db : Database} {cloud : Cloud} {point : Point} {jobID root : String}
    {replaceRoot : Bool} (sent : (point.advance sha256 answer tenant clock db cloud).request =
      some (.begin owner jobID root replaceRoot)) :
    Note.begun jobID ∈ (point.advance sha256 answer tenant clock db cloud).notes := by
  cases point with
  | begin job attempt =>
    have same : job.id = jobID := by
      simp only [Point.advance, Answer.sends] at sent
      repeat' split at sent
      all_goals cases sent
      all_goals rfl
    simp only [Point.advance, same]
    repeat' split
    all_goals simp
  | loadRoot | create | prepare | check =>
    simp only [Point.advance] at sent
    repeat' split at sent
    all_goals cases sent
  | _ =>
    simp only [Point.advance, Answer.sends] at sent
    repeat' split at sent
    all_goals cases sent

namespace Traced

variable {sha256 : String → String} {system : System}

theorem initial : Traced System.initial where
  jobs job member := absurd member (Table.not_mem_empty job)
  areas _ exists_area := by cases exists_area

theorem of_exec (traced : Traced system) {now clock : Nat} {transaction : Transaction}
    (different : ∀ userID req wait jobID, transaction ≠ .create userID req wait jobID) :
    ∀ job ∈ (system.world.db.exec now clock transaction).indexJobs,
      ∃ token, (token, Note.inserted job.id) ∈ system.notes := by
  intro job member
  rcases mem_exec_jobs member with ⟨old, stored, change⟩ | ⟨files, created⟩
  · rw [change.sameJob.id]
    exact traced.jobs old stored
  · exact absurd created (not_created different job files)

theorem applied (traced : Traced system) (discipline : StartDiscipline system) {call : Call}
    (inFlight : call ∈ system.calls) {answer : Answer} {effect : Effect}
    (next : effect = call.point.advance sha256 answer call.tenant system.world.clock
      system.world.db system.cloud)
    (possible : system.possible effect.transaction = true) :
    Traced (system.apply sha256 call answer effect) := by
  have earlier {note : Note} (noted : ∃ token, (token, note) ∈ system.notes) :
      ∃ token, (token, note) ∈ (system.apply sha256 call answer effect).notes :=
    noted.imp fun token => List.mem_append_right _
  have added {note : Note} (noted : note ∈ effect.notes) :
      ∃ token, (token, note) ∈ (system.apply sha256 call answer effect).notes :=
    ⟨call.token, List.mem_append_left _ (List.mem_map_of_mem noted)⟩
  -- a new row comes from a transaction of the call, a new area from its request
  constructor
  · intro job member
    simp only [System.apply] at member
    cases runs : effect.transaction with
    | none =>
      rw [runs] at member
      exact earlier (traced.jobs job member)
    | some transaction =>
      rw [runs] at member possible
      rw [System.commit_db possible] at member
      rcases mem_exec_jobs member with ⟨old, stored, change⟩ | ⟨files, created⟩
      · rw [change.sameJob.id]
        exact earlier (traced.jobs old stored)
      · obtain ⟨userID, req, wait, -, -, rfl, -⟩ := id created
        rw [next] at runs
        obtain ⟨rfl, rfl, same, normalized, point⟩ := advance_create runs
        obtain ⟨-, accepted⟩ := discipline.starts call inFlight req normalized (by rw [point]; rfl)
        rw [same] at created
        refine added ?_
        rw [next, point, (advance_inserts accepted created).2]
        exact List.mem_singleton_self _
  · intro jobID exists_area
    simp only [System.apply] at exists_area
    cases sent : effect.request with
    | none =>
      rw [sent] at exists_area
      exact earlier (traced.areas jobID exists_area)
    | some request =>
      rw [sent] at exists_area
      rcases Cloud.isSome_serve exists_area with before | ⟨tenant, root, replaceRoot, rfl⟩
      · exact earlier (traced.areas jobID before)
      · rw [next] at sent
        refine added ?_
        rw [next]
        exact advance_begun sent

theorem step {after : System} {event : SystemEvent} (traced : Traced system) (discipline : StartDiscipline system)
    (stepped : Stepped sha256 system event after) : Traced after := by
  cases stepped with
  | idle => exact traced
  | other event accepted =>
    refine ⟨?_, traced.areas⟩
    cases event with
    | tick => exact traced.jobs
    | commit waited transaction =>
      simp only [System.background, World.step]
      split
      · refine traced.of_exec ?_
        rintro userID req wait jobID rfl
        cases accepted
      · exact traced.jobs
  | entered => exact ⟨traced.of_exec (by simp), traced.areas⟩
  | advanced call inFlight answer effect next allowed possible =>
    exact traced.applied discipline inFlight next possible
  | landed => exact ⟨traced.jobs, fun jobID found => traced.areas jobID (Cloud.isSome_land found)⟩
  | lost => exact ⟨traced.jobs, fun jobID found => traced.areas jobID (Cloud.isSome_lose found)⟩
  | aborted =>
    refine ⟨traced.jobs, fun jobID found => ?_⟩
    rcases Cloud.isSome_serve found with before | ⟨_, _, _, impossible⟩
    · exact traced.areas jobID before
    · cases impossible

end Traced

/-! ### Jobs that have ended -/

/-- Nothing but the job itself is ever stored under its identifier. -/
structure World.Settled (job : IndexJob) (world : World) : Prop where
  issued : job.id ∈ world.issued
  only : ∀ row ∈ world.db.indexJobs, row.id = job.id → row = job

theorem World.Settled.step {job : IndexJob} (ended : job.status ≠ .running) {world : World}
    (settled : world.Settled job) (event : Event) : (world.step event).Settled job := by
  refine ⟨World.mem_issued_step settled.issued event, ?_⟩
  cases event with
  | tick => exact settled.only
  | commit waited transaction =>
    simp only [World.step]
    split
    next possible =>
      intro row member same
      rcases mem_exec_jobs member with ⟨old, stored, change⟩ | ⟨files, created⟩
      · -- the row it comes from is the job, which no statement writes
        obtain rfl := settled.only old stored (change.sameJob.id.symm.trans same)
        exact change.eq_of_terminal ended
      · exact absurd settled.issued (same ▸ World.not_issued_of_created possible created)
    · exact settled.only

section Run

variable (sha256 : String → String)

theorem startDiscipline_run (events : List SystemEvent) :
    StartDiscipline (runFrom (System.step sha256) System.initial events) :=
  invariant_run (fun system event before => before.step (system.stepped sha256 event))
    StartDiscipline.initial events

theorem noteDiscipline_run (events : List SystemEvent) :
    NoteDiscipline (runFrom (System.step sha256) System.initial events) :=
  invariant_run (fun system event before => before.step (system.stepped sha256 event))
    NoteDiscipline.initial events

theorem jobsIssued_run (events : List SystemEvent) :
    (runFrom (System.step sha256) System.initial events).world.JobsIssued :=
  invariant_run (P := fun system : System => system.world.JobsIssued)
    (fun system event before => (system.stepped sha256 event).preserves before before.step)
    (fun job member => absurd member (Table.not_mem_empty job)) events

theorem settled_run {job : IndexJob} (ended : job.status ≠ .running) {system : System}
    (settled : system.world.Settled job) (events : List SystemEvent) :
    (runFrom (System.step sha256) system events).world.Settled job :=
  invariant_run (P := fun system : System => system.world.Settled job)
    (fun system event before => (system.stepped sha256 event).preserves before (before.step ended))
    settled events

theorem traced_run (events : List SystemEvent) :
    Traced (runFrom (System.step sha256) System.initial events) :=
  (invariant_run (P := fun system => StartDiscipline system ∧ Traced system)
    (fun system event before => ⟨before.1.step (system.stepped sha256 event),
      before.2.step before.1 (system.stepped sha256 event)⟩)
    ⟨StartDiscipline.initial, Traced.initial⟩ events).2

/-- In every run a job that has ended keeps its row as it is or loses it, and a workspace
has one running job at most. A start that answers busy or unchanged has neither
inserted a job nor sent a `begin`: every job and every area was noted by a start, and
that start did not answer so. -/
theorem job_lifecycle (events : List SystemEvent) :
    (∀ before after, events = before ++ after →
      ∀ job ∈ (runFrom (System.step sha256) System.initial before).world.db.indexJobs,
        job.status ≠ .running →
        ∀ row ∈ (runFrom (System.step sha256) System.initial events).world.db.indexJobs,
          row.id = job.id → row = job) ∧
    OneRunning (runFrom (System.step sha256) System.initial events).world.db ∧
    (∀ token answer,
      (token, Note.answered answer) ∈ (runFrom (System.step sha256) System.initial events).notes →
      answer = .busy ∨ answer = .unchanged →
      ∀ jobID,
        (token, Note.inserted jobID) ∉
          (runFrom (System.step sha256) System.initial events).notes ∧
        (token, Note.begun jobID) ∉
          (runFrom (System.step sha256) System.initial events).notes) ∧
    Traced (runFrom (System.step sha256) System.initial events) := by
  refine ⟨?_, (startDiscipline_run sha256 events).single, ?_, traced_run sha256 events⟩
  · rintro before after rfl job stored ended row member same
    rw [runFrom_append] at member
    have settled : (runFrom (System.step sha256) System.initial before).world.Settled job :=
      ⟨jobsIssued_run sha256 before job stored,
        fun other known => Table.eq_of_key_eq known stored⟩
    exact (settled_run sha256 ended settled after).only row member same
  · intro token answer answered declined jobID
    have discipline := noteDiscipline_run sha256 events
    have declines : (Note.answered answer).declines = true := by
      rcases declined with rfl | rfl <;> rfl
    constructor <;> intro noted <;>
      cases discipline.apart token _ _ answered declines noted

end Run

end AcemcpRelay
