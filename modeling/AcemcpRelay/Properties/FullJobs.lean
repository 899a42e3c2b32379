import AcemcpRelay.ManifestSteps
import AcemcpRelay.SnapshotSteps
import AcemcpRelay.SystemSteps

/-!
# Full jobs

A job in mode `full` replaces the content of its root by its own files. That is
right only if it sends all of them, and it does because a workspace without a row
has no snapshot either: `indexed_files` has no foreign key to `index_workspaces`,
but no statement leaves a row behind.

One of the deletions decides by a flag that was read before: `dismiss-root-failure`
deletes the workspaces of a root and not their files. Its exclusive lease keeps
completions out between the read and the deletion.
-/
namespace AcemcpRelay

open Store Database

/-- Every snapshot row belongs to a workspace that is stored. -/
def SnapshotsOwned (db : Database) : Prop :=
  ∀ file ∈ db.indexedFiles, ∃ workspace ∈ db.indexWorkspaces,
    workspace.userID = file.userID ∧ workspace.workspaceID = file.workspaceID

theorem rootHasPublishedIndex_eq_false {db : Database} {tenant rootID : String} :
    db.rootHasPublishedIndex tenant rootID = false ↔
      ∀ file ∈ db.indexedFiles, ∀ workspace ∈ db.indexWorkspaces, workspace.userID = file.userID →
        workspace.workspaceID = file.workspaceID →
          workspace.onRoot tenant (lceIndexRootID rootID) = false := by
  simp only [rootHasPublishedIndex, Table.holds_eq_false, Bool.and_eq_false_iff, beq_eq_false_iff_ne]
  refine forall₄_congr fun file _ workspace _ => ?_
  constructor
  · rintro ((other | other) | elsewhere) owner same
    · exact absurd owner.symm other
    · exact absurd same.symm other
    · exact elsewhere
  · intro elsewhere
    by_cases owner : file.userID = workspace.userID
    · by_cases same : file.workspaceID = workspace.workspaceID
      · exact .inr (elsewhere owner.symm same.symm)
      · exact .inl (.inr same)
    · exact .inl (.inl owner)

section Step

variable {db : Database} {now clock : Nat} {transaction : Transaction}

/-- A workspace that has the key of the published row is that row. -/
theorem mem_of_published {after : Database} {rootID : String} {cloudRevision : Int} {job : IndexJob}
    (written : (db.indexWorkspaces.delete (·.key == (workspaceRow now job rootID cloudRevision).key)
      ).insert [workspaceRow now job rootID cloudRevision] = some after.indexWorkspaces)
    {workspace : IndexWorkspace} :
    workspace ∈ after.indexWorkspaces ↔
      (workspace ∈ db.indexWorkspaces ∧
        ¬ (workspace.userID = job.userID ∧ workspace.workspaceID = job.workspaceID)) ∨
      workspace = workspaceRow now job rootID cloudRevision := by
  rw [Table.mem_insert written, Table.mem_delete, List.mem_singleton, beq_eq_false_iff_ne]
  simp only [IndexWorkspace.key, workspaceRow, ne_eq, Prod.mk.injEq]

/-- No transaction orphans a snapshot row, as long as a dismissal that deletes the
workspaces of a root finds no snapshot of it. -/
theorem SnapshotsOwned.exec (owned : SnapshotsOwned db)
    (unpublished : ∀ userID rootID, transaction = .dismiss userID rootID false →
      db.rootHasPublishedIndex userID rootID = false) :
    SnapshotsOwned (db.exec now clock transaction) := by
  intro file member
  cases db.exec_snapshots now clock transaction with
  | same _ files workspaces =>
    rw [files] at member
    rw [workspaces]
    exact owned file member
  | described userID req wait jobID normalized _ files workspaces =>
    rw [files] at member
    rw [workspaces]
    obtain ⟨workspace, stored, owner, same⟩ := owned file member
    -- the update keeps the key
    by_cases hit : (workspace.userID == userID &&
        workspace.workspaceID == normalized.workspaceID) = true
    · exact ⟨_, Table.mem_update_of_hit stored hit, owner, same⟩
    · exact ⟨workspace, Table.mem_update_of_not stored (by simpa using hit), owner, same⟩
  | published userID jobID rootID cloudRevision job found _ files workspaces =>
    obtain ⟨-, -, mine⟩ := loadIndexJob_eq_some.mp found
    rcases (Table.mem_insert files).mp member with kept | added
    · obtain ⟨old, apart⟩ := Table.mem_delete.mp kept
      obtain ⟨workspace, stored, owner, same⟩ := owned file old
      refine ⟨workspace, (mem_of_published workspaces).mpr (.inl ⟨stored, ?_⟩), owner, same⟩
      rw [owner, same, mine]
      simpa using apart
    · obtain ⟨source, -, rfl⟩ := List.mem_map.mp added
      exact ⟨_, (mem_of_published workspaces).mpr (.inr rfl), rfl, rfl⟩
  | clearedUser userID files workspaces =>
    rw [files] at member
    obtain ⟨old, apart⟩ := Table.mem_delete.mp member
    obtain ⟨workspace, stored, owner, same⟩ := owned file old
    rw [workspaces]
    exact ⟨workspace, Table.mem_delete.mpr ⟨stored, by rw [owner]; exact apart⟩, owner, same⟩
  | clearedRoot _ userID rootID _ files workspaces =>
    rw [files] at member
    obtain ⟨old, unbound⟩ := Table.mem_delete.mp member
    obtain ⟨workspace, stored, owner, same⟩ := owned file old
    rw [workspaces]
    refine ⟨workspace, Table.mem_delete.mpr ⟨stored, ?_⟩, owner, same⟩
    -- if the workspace were on the root, its file would have gone as well
    by_contra onRoot
    rw [Bool.not_eq_false] at onRoot
    have tenant : workspace.userID = userID := by
      simp only [IndexWorkspace.onRoot, Bool.and_eq_true, beq_iff_eq] at onRoot
      exact onRoot.1
    have bound : db.boundToRoot userID (lceIndexRootID rootID) file = true := by
      refine Bool.and_eq_true_iff.mpr ⟨by simp [← owner, tenant], ?_⟩
      exact Table.holds_eq_true.mpr ⟨workspace, stored, by simp [same, onRoot]⟩
    rw [bound] at unbound
    cases unbound
  | clearedAll job receipt files =>
    rw [files] at member
    cases (Table.mem_delete.mp member).2
  | dismissed userID rootID files workspaces =>
    rw [files] at member
    obtain ⟨workspace, stored, owner, same⟩ := owned file member
    rw [workspaces]
    exact ⟨workspace, Table.mem_delete.mpr ⟨stored, rootHasPublishedIndex_eq_false.mp
      (unpublished userID rootID rfl) file member workspace stored owner same⟩, owner, same⟩

/-- Only a completion, or a start that moves a workspace, gives a root a snapshot. -/
theorem unpublished_exec {tenant rootID : String}
    (unpublished : db.rootHasPublishedIndex tenant rootID = false)
    (completes : ∀ userID jobID root cloudRevision,
      transaction = .complete userID jobID root cloudRevision → userID ≠ tenant)
    (starts : ∀ userID req wait jobID, transaction = .create userID req wait jobID →
      userID ≠ tenant) :
    (db.exec now clock transaction).rootHasPublishedIndex tenant rootID = false := by
  rw [rootHasPublishedIndex_eq_false] at unpublished ⊢
  intro file member workspace stored owner same
  -- rows of other tenants are not on a root of this one
  by_cases other : workspace.userID = tenant
  swap
  · simp [IndexWorkspace.onRoot, other]
  cases db.exec_snapshots now clock transaction with
  | same _ files workspaces =>
    rw [files] at member
    rw [workspaces] at stored
    exact unpublished file member workspace stored owner same
  | described userID req wait jobID normalized _ files workspaces =>
    rw [files] at member
    rw [workspaces] at stored
    rcases Table.mem_update_cases stored with ⟨before, -⟩ | ⟨old, before, hit, rfl⟩
    · exact unpublished file member workspace before owner same
    · rw [Bool.and_eq_true, beq_iff_eq] at hit
      exact absurd (hit.1.symm.trans other) (starts userID req wait jobID rfl)
  | published userID jobID root cloudRevision job found _ files workspaces =>
    obtain ⟨-, -, mine⟩ := loadIndexJob_eq_some.mp found
    have apart : job.userID ≠ tenant := by
      rw [mine]
      exact completes userID jobID root cloudRevision rfl
    rcases (mem_of_published workspaces).mp stored with ⟨before, -⟩ | rfl
    · rcases (Table.mem_insert files).mp member with kept | added
      · exact unpublished file (Table.mem_delete.mp kept).1 workspace before owner same
      · obtain ⟨source, -, rfl⟩ := List.mem_map.mp added
        exact absurd (owner.symm.trans other) apart
    · exact absurd other apart
  | clearedUser userID files workspaces =>
    rw [files] at member
    rw [workspaces] at stored
    exact unpublished file (Table.mem_delete.mp member).1 workspace (Table.mem_delete.mp stored).1
      owner same
  | clearedRoot _ userID root _ files workspaces =>
    rw [files] at member
    rw [workspaces] at stored
    exact unpublished file (Table.mem_delete.mp member).1 workspace (Table.mem_delete.mp stored).1
      owner same
  | clearedAll job receipt files =>
    rw [files] at member
    cases (Table.mem_delete.mp member).2
  | dismissed userID root files workspaces =>
    rw [files] at member
    rw [workspaces] at stored
    exact unpublished file member workspace (Table.mem_delete.mp stored).1 owner same

end Step

/-! ### Dismissals -/

/-- The call is a dismissal. -/
def Point.dismissing : Point → Bool
  | .findRunning _ | .findPublished _ | .dismissCloud _ | .dismissRelay _ _ => true
  | _ => false

/-- The root for which a dismissal has found no snapshot. -/
def Point.unpublished : Point → Option String
  | .dismissCloud rootID | .dismissRelay rootID false => some rootID
  | _ => none

/-- Completions and dismissals are run by the calls that hold a lease for them. -/
def SystemEvent.leased : SystemEvent → Bool
  | .other (.commit _ (.complete _ _ _ _)) | .other (.commit _ (.dismiss _ _ _)) => false
  | _ => true

section Advance

variable {sha256 : String → String} {answer : Answer} {tenant : String} {clock : Nat}
  {db : Database} {cloud : Cloud} {point next : Point}

theorem advance_dismissing
    (moves : (point.advance sha256 answer tenant clock db cloud).next = some next) :
    next.dismissing = true → point.dismissing = true := by
  intro dismisses
  cases point <;>
    simp only [Point.advance, afterIntent, afterPublish, afterStatus, afterCancel] at moves <;>
    repeat' split at moves
  all_goals cases moves
  all_goals first
    | rfl
    | cases dismisses

/-- A dismissal knows that its root has no snapshot from the statement that asked. -/
theorem advance_unpublished {rootID : String}
    (moves : (point.advance sha256 answer tenant clock db cloud).next = some next)
    (known : next.unpublished = some rootID) :
    (point.advance sha256 answer tenant clock db cloud).transaction = none ∧
      (point.unpublished = some rootID ∨ db.rootHasPublishedIndex tenant rootID = false) := by
  cases point with
  | findPublished root =>
    refine ⟨rfl, ?_⟩
    simp only [Point.advance] at moves
    split at moves
    · cases moves
      cases known
    next missing =>
      cases moves
      cases known
      exact .inr (by simpa using missing)
  | dismissCloud root =>
    refine ⟨rfl, ?_⟩
    simp only [Point.advance] at moves
    split at moves
    · cases moves
      cases known
      exact .inl rfl
    · cases moves
  | _ =>
    simp only [Point.advance, afterIntent, afterPublish, afterStatus, afterCancel] at moves
    repeat' split at moves
    all_goals cases moves
    all_goals cases known

/-- Who runs the transactions that matter here. -/
theorem advance_snapshots {transaction : Transaction}
    (runs : (point.advance sha256 answer tenant clock db cloud).transaction = some transaction) :
    (∀ userID rootID hasPublishedIndex, transaction = .dismiss userID rootID hasPublishedIndex →
      userID = tenant ∧ point = .dismissRelay rootID hasPublishedIndex) ∧
    ∀ userID, ((∃ jobID root cloudRevision,
        transaction = .complete userID jobID root cloudRevision) ∨
      ∃ req wait jobID, transaction = .create userID req wait jobID) →
        userID = tenant ∧ point.detached = false ∧ point.dismissing = false := by
  cases point with
  | dismissRelay rootID hasPublishedIndex =>
    cases runs
    refine ⟨?_, ?_⟩
    · rintro _ _ _ ⟨⟩
      exact ⟨rfl, rfl⟩
    · rintro userID (⟨_, _, _, ⟨⟩⟩ | ⟨_, _, _, ⟨⟩⟩)
  | finish jobID rootID cloudRevision =>
    cases runs
    refine ⟨by rintro _ _ _ ⟨⟩, ?_⟩
    rintro userID (⟨_, _, _, ⟨⟩⟩ | ⟨_, _, _, ⟨⟩⟩)
    exact ⟨rfl, rfl, rfl⟩
  | create req normalized =>
    simp only [Point.advance] at runs
    split at runs <;> cases runs
    all_goals refine ⟨by rintro _ _ _ ⟨⟩, ?_⟩
    all_goals rintro userID (⟨_, _, _, ⟨⟩⟩ | ⟨_, _, _, ⟨⟩⟩)
    all_goals exact ⟨rfl, rfl, rfl⟩
  | _ =>
    simp only [Point.advance] at runs
    repeat' split at runs
    all_goals cases runs
    all_goals refine ⟨by rintro _ _ _ ⟨⟩, ?_⟩
    all_goals rintro userID (⟨_, _, _, ⟨⟩⟩ | ⟨_, _, _, ⟨⟩⟩)

end Advance

/-- What keeps snapshots and workspaces together. -/
structure SnapshotDiscipline (system : System) : Prop where
  leases : LeaseDiscipline system
  owned : SnapshotsOwned system.world.db
  exclusive : ∀ call ∈ system.calls, call.point.dismissing = true → call.mode = .exclusive
  unpublished : ∀ call ∈ system.calls, ∀ rootID, call.point.unpublished = some rootID →
    system.holdsLease call = true → system.world.db.rootHasPublishedIndex call.tenant rootID = false

theorem dismissing_of_unpublished {point : Point} {rootID : String}
    (known : point.unpublished = some rootID) : point.dismissing = true := by
  cases point <;> first
    | rfl
    | cases known

namespace SnapshotDiscipline

variable {sha256 : String → String} {system : System}

theorem initial : SnapshotDiscipline System.initial where
  leases := .initial
  owned file member := absurd member (Table.not_mem_empty file)
  exclusive call member := absurd member (Table.not_mem_empty call)
  unpublished call member := absurd member (Table.not_mem_empty call)

/-- A transaction of somebody who neither completes, starts nor dismisses. -/
theorem exec_other (discipline : SnapshotDiscipline system) (now clock : Nat)
    (transaction : Transaction)
    (completes : ∀ userID jobID root cloudRevision,
      transaction ≠ .complete userID jobID root cloudRevision)
    (starts : ∀ userID req wait jobID, transaction ≠ .create userID req wait jobID)
    (dismisses : ∀ userID rootID hasPublishedIndex,
      transaction ≠ .dismiss userID rootID hasPublishedIndex) :
    SnapshotsOwned (system.world.db.exec now clock transaction) ∧
      ∀ call ∈ system.calls, ∀ rootID, call.point.unpublished = some rootID →
        system.holdsLease call = true → (system.world.db.exec now clock transaction
          ).rootHasPublishedIndex call.tenant rootID = false := by
  refine ⟨discipline.owned.exec fun userID rootID same => absurd same (dismisses _ _ _), ?_⟩
  intro call inFlight rootID known holds
  exact unpublished_exec (discipline.unpublished call inFlight rootID known holds)
    (fun _ _ _ _ same => absurd same (completes _ _ _ _))
    (fun _ _ _ _ same => absurd same (starts _ _ _ _))

theorem background (discipline : SnapshotDiscipline system) {event : Event}
    (accepted : system.refuses event = false) (leased : (SystemEvent.other event).leased = true)
    (leases : LeaseDiscipline (system.background event))
    (held : ∀ call ∈ system.calls, (system.background event).holdsLease call = true →
      system.holdsLease call = true) : SnapshotDiscipline (system.background event) := by
  suffices next : SnapshotsOwned (system.world.step event).db ∧
      ∀ call ∈ system.calls, ∀ rootID, call.point.unpublished = some rootID →
        system.holdsLease call = true →
          (system.world.step event).db.rootHasPublishedIndex call.tenant rootID = false from
    ⟨leases, next.1, discipline.exclusive, fun call inFlight rootID known holds =>
      next.2 call inFlight rootID known (held call inFlight holds)⟩
  cases event with
  | tick => exact ⟨discipline.owned, discipline.unpublished⟩
  | commit waited transaction =>
    simp only [World.step]
    split
    · refine discipline.exec_other _ _ transaction ?_ ?_ ?_
      · rintro _ _ _ _ rfl
        cases leased
      · rintro _ _ _ _ rfl
        cases accepted
      · rintro _ _ _ rfl
        cases leased
    · exact ⟨discipline.owned, discipline.unpublished⟩

theorem enter_unpublished {operation : Operation} {point : Point}
    (admitted : operation.enter = .ok point) :
    point.unpublished = none ∧ (point.dismissing = true → operation.mode = .exclusive) := by
  refine ⟨?_, fun dismisses => ?_⟩
  · cases Operation.enters admitted <;> rfl
  · cases Operation.enters admitted <;> first
      | rfl
      | cases dismisses

theorem entered (discipline : SnapshotDiscipline system) {waited : Nat} {call : Call}
    (start : call.point.unpublished = none)
    (exclusive : call.point.dismissing = true → call.mode = .exclusive)
    (leases : LeaseDiscipline (system.begin waited call))
    (held : ∀ other ∈ system.calls, (system.begin waited call).holdsLease other = true →
      system.holdsLease other = true) : SnapshotDiscipline (system.begin waited call) := by
  obtain ⟨owned, unpublished⟩ := discipline.exec_other (system.world.clock - waited)
    system.world.clock (.acquire call.tenant call.resource call.kind call.token call.mode)
    (by simp) (by simp) (by simp)
  rw [← System.begin_db] at owned unpublished
  refine ⟨leases, owned, System.forall_begin discipline.exclusive exclusive, ?_⟩
  refine System.forall_begin (fun other known rootID waits holds => ?_) fun rootID known => ?_
  · exact unpublished other known rootID waits (held other known holds)
  · rw [start] at known
    cases known

theorem applied (discipline : SnapshotDiscipline system) {call : Call}
    (inFlight : call ∈ system.calls) {answer : Answer} {effect : Effect}
    (next : effect = call.point.advance sha256 answer call.tenant system.world.clock
      system.world.db system.cloud)
    (allowed : call.point.detached = true ∨ system.holdsLease call = true)
    (possible : system.possible effect.transaction = true)
    (leases : LeaseDiscipline (system.apply sha256 call answer effect))
    (held : ∀ other ∈ system.calls,
      (system.apply sha256 call answer effect).holdsLease other = true →
        system.holdsLease other = true) :
    SnapshotDiscipline (system.apply sha256 call answer effect) := by
  have exclusive : ∀ other ∈ (system.apply sha256 call answer effect).calls,
      other.point.dismissing = true → other.mode = .exclusive := by
    refine System.forall_moveOn inFlight (fun other known _ => discipline.exclusive other known)
      fun point moves dismisses => ?_
    rw [next] at moves
    exact discipline.exclusive call inFlight (advance_dismissing moves dismisses)
  cases runs : effect.transaction with
  | none =>
    have same : (system.apply sha256 call answer effect).world.db = system.world.db := by
      simp [System.apply, runs, System.commit]
    refine ⟨leases, by rw [same]; exact discipline.owned, exclusive, ?_⟩
    rw [same]
    refine System.forall_moveOn inFlight (fun other known _ rootID waits holds => ?_)
      fun point moves rootID known holds => ?_
    · exact discipline.unpublished other known rootID waits (held other known holds)
    · rw [next] at moves
      rcases (advance_unpublished moves known).2 with before | found
      · exact discipline.unpublished call inFlight rootID before (held call inFlight holds)
      · exact found
  | some transaction =>
    rw [runs] at possible
    have same : (system.apply sha256 call answer effect).world.db =
        system.world.db.exec (system.world.clock - answer.waited) system.world.clock
          transaction := by
      simp only [System.apply, runs]
      exact System.commit_db possible
    have transacts := runs
    rw [next] at transacts
    obtain ⟨dismisses, publishes⟩ := advance_snapshots transacts
    refine ⟨leases, ?_, exclusive, ?_⟩
    · rw [same]
      refine discipline.owned.exec fun userID rootID dismissal => ?_
      obtain ⟨rfl, point⟩ := dismisses userID rootID false dismissal
      rw [point] at allowed
      exact discipline.unpublished call inFlight rootID (by rw [point]; rfl)
        (allowed.resolve_left (by simp [Point.detached]))
    · rw [same]
      refine System.forall_moveOn inFlight (fun other known different rootID waits holds => ?_)
        fun point moves rootID known => ?_
      · have holding := held other known holds
        -- whoever could give the root a snapshot would hold a lease beside an exclusive one
        have apart (userID : String) (writes : (∃ jobID root cloudRevision,
              transaction = .complete userID jobID root cloudRevision) ∨
            ∃ req wait jobID, transaction = .create userID req wait jobID) :
            userID ≠ other.tenant := by
          obtain ⟨rfl, attached, -⟩ := publishes userID writes
          intro tenant
          have alone := discipline.leases.exclusive_alone known inFlight tenant.symm
            (discipline.exclusive other known (dismissing_of_unpublished waits)) holding
            (allowed.resolve_left (by simp [attached]))
          exact different (congrArg Call.token alone)
        exact unpublished_exec (discipline.unpublished other known rootID waits holding)
          (fun userID jobID root cloudRevision completes =>
            apart userID (.inl ⟨jobID, root, cloudRevision, completes⟩))
          (fun userID req wait jobID starts => apart userID (.inr ⟨req, wait, jobID, starts⟩))
      · -- a step that finds out about the root does nothing else
        rw [next] at moves
        rw [(advance_unpublished moves known).1] at transacts
        cases transacts

theorem step {after : System} {event : SystemEvent} (discipline : SnapshotDiscipline system)
    (leased : event.leased = true) (stepped : Stepped sha256 system event after) :
    SnapshotDiscipline after := by
  have leases := discipline.leases.step stepped
  have held (call : Call) (inFlight : call ∈ system.calls) (holds : after.holdsLease call = true) :
      system.holdsLease call = true := discipline.leases.held_before stepped inFlight holds
  cases stepped with
  | idle => exact discipline
  | other event accepted => exact discipline.background accepted leased leases held
  | entered waited token tenant spelling operation point admitted =>
    exact discipline.entered (enter_unpublished admitted).1 (enter_unpublished admitted).2 leases
      held
  | advanced call inFlight answer effect next allowed possible =>
    exact discipline.applied inFlight next allowed possible leases held
  | landed | lost | aborted =>
    exact ⟨leases, discipline.owned, discipline.exclusive, discipline.unpublished⟩

end SnapshotDiscipline

/-! ### Runs -/

section Run

variable (sha256 : String → String)

theorem snapshotDiscipline_run (events : List SystemEvent)
    (leased : ∀ event ∈ events, event.leased = true) :
    SnapshotDiscipline (runFrom (System.step sha256) System.initial events) :=
  invariant_along (fun system event before allowed => before.step allowed
    (system.stepped sha256 event)) SnapshotDiscipline.initial events (along_of_forall leased)

theorem manifestsReferenced_run (events : List SystemEvent) :
    (runFrom (System.step sha256) System.initial events).world.db.ManifestsReferenced := by
  refine invariant_run (P := fun system : System => system.world.db.ManifestsReferenced)
    (fun system event before => ?_) (fun file member => absurd member (Table.not_mem_empty file))
    events
  have steps (event : Event) : (system.world.step event).db.ManifestsReferenced :=
    World.step_of_exec (P := ManifestsReferenced) (fun _ _ _ _ referenced => referenced.exec)
      system.world event before
  exact (system.stepped sha256 event).preserves (P := fun world => world.db.ManifestsReferenced)
    before steps

end Run

/-- A workspace without a row has no snapshot. -/
theorem SnapshotsOwned.snapshot_eq_nil {db : Database} (owned : SnapshotsOwned db)
    {userID workspaceID : String} (absent : db.workspaceExists userID workspaceID = false) :
    db.loadIndexedSnapshot userID workspaceID = [] := by
  rw [List.eq_nil_iff_forall_not_mem]
  intro old listed
  obtain ⟨file, stored, rfl, rfl, -⟩ := mem_loadIndexedSnapshot.mp listed
  obtain ⟨workspace, present, owner, same⟩ := owned file stored
  have found : db.indexWorkspaces.lookup (file.userID, file.workspaceID) = some workspace :=
    Table.lookup_eq_some.mpr ⟨present, by rw [IndexWorkspace.key, owner, same]⟩
  simp [workspaceExists, found] at absent

/-- What a start sends when it creates a job in mode `full`. -/
theorem SnapshotsOwned.full_job {db after : Database} (owned : SnapshotsOwned db)
    (referenced : db.ManifestsReferenced) {now wait : Nat} {userID jobID : String}
    {req : StartRequest} {job : IndexJob} {pending deleted : List String}
    (created : db.createIndexJob now userID req wait jobID =
      .ok (.created job pending deleted, after)) (full : job.mode = .full) :
    db.loadIndexedSnapshot userID req.workspaceID = [] ∧ deleted = [] ∧
      pending = (after.manifest job.id).map (·.path) ∧
      ∀ file ∈ after.manifest job.id, file.needsIndex = true := by
  obtain ⟨files, diff, -, compared, ⟨impossible, -⟩ | ⟨impossible, -⟩ |
    ⟨new, same, outcome, -, inserted⟩⟩ := createIndexJob_cases created
  · cases impossible
  · cases impossible
  simp only [CreateOutcome.created.injEq] at outcome
  obtain ⟨rfl, rfl, rfl⟩ := outcome
  have absent : db.workspaceExists userID req.workspaceID = false := by
    cases present : db.workspaceExists userID req.workspaceID with
    | false => rfl
    | true =>
      rw [same] at full
      simp [newIndexJob, present] at full
  have empty := owned.snapshot_eq_nil absent
  rw [empty] at compared
  obtain ⟨all, none⟩ := diffManifest_nil files
  rw [← compared] at all none
  rw [manifest_insertIndexJob referenced inserted, List.map_map]
  refine ⟨empty, none, all, fun file listed => ?_⟩
  obtain ⟨source, member, rfl⟩ := List.mem_map.mp listed
  simp only [manifestRow, all, List.contains_iff_mem]
  exact List.mem_map_of_mem member

/-- The last statement of a dismissal keeps the workspaces that have a snapshot. -/
theorem SnapshotDiscipline.dismissal_keeps {sha256 : String → String} {system : System}
    (discipline : SnapshotDiscipline system) {token : String} {answer : Answer} {call : Call}
    {rootID : String} {hasPublishedIndex : Bool} (inFlight : system.calls.lookup token = some call)
    (point : call.point = .dismissRelay rootID hasPublishedIndex) {workspace : IndexWorkspace}
    (stored : workspace ∈ system.world.db.indexWorkspaces) {file : IndexedFile}
    (present : file ∈ system.world.db.indexedFiles) (owner : file.userID = workspace.userID)
    (same : file.workspaceID = workspace.workspaceID) :
    workspace ∈ (system.step sha256 (.advance token answer)).world.db.indexWorkspaces := by
  obtain ⟨member, rfl⟩ := Table.lookup_eq_some.mp inFlight
  simp only [System.step, inFlight, point, Point.advance, Point.detached, Bool.false_or]
  split
  next enabled =>
    simp only [System.apply]
    rw [System.commit_db rfl]
    cases hasPublishedIndex with
    | true => exact stored
    | false =>
      -- the flag was read under the lease that the call still holds
      have holds : system.holdsLease call = true := (Bool.and_eq_true_iff.mp enabled).1
      have unpublished := discipline.unpublished call member rootID (by rw [point]; rfl) holds
      exact Table.mem_delete.mpr ⟨stored, rootHasPublishedIndex_eq_false.mp unpublished file present
        workspace stored owner.symm same.symm⟩
  · exact stored

/-- In every reachable state each snapshot row has its workspace row. So a start that
creates a job in mode `full` finds no previous snapshot, lists every path of its
manifest as pending and none as deleted, and a dismissal removes no workspace that
has snapshot rows. -/
theorem full_jobs_send_everything (sha256 : String → String) (events : List SystemEvent)
    (leased : ∀ event ∈ events, event.leased = true) :
    SnapshotsOwned (runFrom (System.step sha256) System.initial events).world.db ∧
    (∀ now wait userID jobID req job pending deleted after,
      (runFrom (System.step sha256) System.initial events).world.db.createIndexJob now userID req
        wait jobID = .ok (.created job pending deleted, after) → job.mode = .full →
      (runFrom (System.step sha256) System.initial events).world.db.loadIndexedSnapshot userID
        req.workspaceID = [] ∧ deleted = [] ∧
      pending = (after.manifest job.id).map (·.path) ∧
      ∀ file ∈ after.manifest job.id, file.needsIndex = true) ∧
    ∀ token answer call rootID hasPublishedIndex,
      (runFrom (System.step sha256) System.initial events).calls.lookup token = some call →
      call.point = .dismissRelay rootID hasPublishedIndex →
      ∀ workspace ∈ (runFrom (System.step sha256) System.initial events).world.db.indexWorkspaces,
      ∀ file ∈ (runFrom (System.step sha256) System.initial events).world.db.indexedFiles,
        file.userID = workspace.userID → file.workspaceID = workspace.workspaceID →
        workspace ∈ ((runFrom (System.step sha256) System.initial events).step sha256
          (.advance token answer)).world.db.indexWorkspaces := by
  have discipline := snapshotDiscipline_run sha256 events leased
  refine ⟨discipline.owned, ?_, ?_⟩
  · intro now wait userID jobID req job pending deleted after created full
    exact discipline.owned.full_job (manifestsReferenced_run sha256 events) created full
  · intro token answer call rootID hasPublishedIndex inFlight point workspace stored file present
      owner same
    exact discipline.dismissal_keeps inFlight point stored present owner same

/-- The first start of a root fails at its `begin`, and the owner dismisses the failure;
the dismissal has cleared the root at LCE. -/
def dismissedFirstStart : List SystemEvent :=
  [.enter 0 "start" "tenant" "" (.start
      { workspaceID := "root", workspaceName := "root", branch := "", revision := ""
        files := [{ path := "main.go", size := 1, estimatedChunks := 1
                    hash := "ca978112ca1bbdcafac231b39a23dc4da786eff8147c4e72b9807785afee48bb" }]
        unreadableFiles := [], rootID := "root" }),
    .advance "start" {}, .advance "start" {},
    .advance "start" { jobID := "6f1c1f0a-52f5-4f0e-9a52-0e2a5d2c7b11" },
    .advance "start" { heard := false, detail := "connection refused" },
    .advance "start" {}, .advance "start" {}, .advance "start" {},
    .other (.commit 0 (.release "tenant" "start")),
    .enter 0 "dismissal" "tenant" "" (.dismissRootFailure "root"),
    .advance "dismissal" {}, .advance "dismissal" {}, .advance "dismissal" {}]

theorem full_jobs_dismissedFirstStart :
    (∀ event ∈ dismissedFirstStart, event.leased = true) ∧
      ((runFrom (System.step id) System.initial dismissedFirstStart).calls.lookup "dismissal").any
        (·.point.unpublished == some "root") = true ∧
      SnapshotsOwned (runFrom (System.step id) System.initial dismissedFirstStart).world.db := by
  have leased : ∀ event ∈ dismissedFirstStart, event.leased = true := by decide
  exact ⟨leased, by decide +kernel, (full_jobs_send_everything id dismissedFirstStart leased).1⟩

end AcemcpRelay
