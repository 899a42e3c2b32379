import AcemcpRelay.Properties.Convergence
import AcemcpRelay.RootSteps

/-!
# Synchronous removals of a root

`handleDeleteRoot`, and a start whose workspace moves to another root, clear the root at LCE and
then, in a transaction, in the tables. Wherever a removal stops, it is in one of three phases:

* LCE has not executed the clear: both sides are as they were, and a start of the root is answered
  as if there had been no removal;
* LCE has executed it, and the transaction has not been committed: the snapshot stays without
  what it describes, and a start of the root still takes it for the content of LCE;
* the transaction has been committed: a start of the root sends everything.

The second phase lasts until the removal is repeated, which is what the comments at the two places
rely on.
-/
namespace AcemcpRelay

open Store Database

/-! ### Trimmed roots in runs -/

section Normal

variable {sha256 : String → String}

/-- Only a completion that has read the root of its job completes it. -/
theorem advance_completes {answer : Answer} {tenant : String} {clock : Nat} {db : Database}
    {cloud : Cloud} {point : Point} {userID jobID rootID : String} {cloudRevision : Int}
    (runs : (point.advance sha256 answer tenant clock db cloud).transaction =
      some (.complete userID jobID rootID cloudRevision)) :
    point.readRoot = some (jobID, rootID) := by
  cases point with
  | finish =>
    cases runs
    rfl
  | create | loadRoot | begin | markBegin | dropManifest | prepare | check | record =>
    simp only [Point.advance] at runs
    repeat' split at runs
    all_goals cases runs
  | _ => cases runs

theorem RootsNormal.step {system after : System} {event : SystemEvent}
    (normal : RootsNormal system.world.db) (roots : RootsRead system) (leased : event.leased = true)
    (stepped : Stepped sha256 system event after) : RootsNormal after.world.db := by
  cases stepped with
  | idle | landed | lost | aborted => exact normal
  | other event =>
    cases event with
    | tick => exact normal
    | commit waited transaction =>
      simp only [System.background, World.step]
      split
      · refine normal.exec fun _ _ _ _ completes => ?_
        rw [completes] at leased
        cases leased
      · exact normal
  | entered =>
    rw [System.begin_db]
    exact normal.exec fun _ _ _ _ completes => by cases completes
  | advanced call inFlight answer effect next _ possible =>
    simp only [System.apply]
    cases runs : effect.transaction with
    | none => exact normal
    | some transaction =>
      rw [runs] at possible
      rw [System.commit_db possible]
      refine normal.exec fun userID jobID rootID cloudRevision completes => ?_
      rw [next, completes] at runs
      exact (roots.roots call inFlight jobID rootID (advance_completes runs)).2

theorem rootsNormal_run (sha256 : String → String) (events : List SystemEvent)
    (leased : ∀ event ∈ events, event.leased = true) :
    RootsNormal (runFrom (System.step sha256) System.initial events).world.db := by
  have both := invariant_along
    (P := fun system : System => RootsRead system ∧ RootsNormal system.world.db)
    (fun system event known allowed => ⟨known.1.step (system.stepped sha256 event),
      known.2.step known.1 allowed (system.stepped sha256 event)⟩)
    ⟨.initial, fun job member => absurd member (Table.not_mem_empty job),
      fun row member => absurd member (Table.not_mem_empty row)⟩ events (along_of_forall leased)
  exact both.2

end Normal

/-! ### Removals -/

/-- The root that a removal works on, up to its transaction. -/
def Point.removes : Point → Option String
  | .deleteFindRunning rootID | .deleteCloud rootID | .deleteRelay rootID => some rootID
  | .clearOldRoot _ _ old | .resetBinding _ _ old => some old
  | _ => none

/-- The call asks LCE to clear the root. -/
def Point.clears : Point → Bool
  | .deleteCloud _ | .clearOldRoot _ _ _ => true
  | _ => false

/-- LCE has answered that it has cleared the root, and the transaction is still to come. -/
def Point.uncommitted : Point → Bool
  | .deleteRelay _ | .resetBinding _ _ _ => true
  | _ => false

/-- How far a removal has come: LCE is still to be asked, has executed the clear, or the tables
have been cleared as well. -/
inductive RemovalPhase where
  | asked
  | cleared
  | removed
  deriving DecidableEq, Repr

/-- The call under the token, if there is one, takes a step of a removal. -/
def System.removalStep (system : System) : SystemEvent → Bool
  | .advance token _ =>
    match system.calls.lookup token with
    | none => true
    | some call => call.point.removes.isSome
  | _ => false

/-- A step of the call is taken while it holds its lease. It brings the removal on if LCE executes
the clear, or if it commits the transaction. -/
def System.phaseAfter (system : System) (token : String) (answer : Answer)
    (phase : RemovalPhase) : RemovalPhase :=
  match system.calls.lookup token with
  | none => phase
  | some call =>
    if !system.holdsLease call then phase
    else if call.point.clears && answer.reached then .cleared
    else if call.point.uncommitted then .removed
    else phase

/-- The phase after the answers that the environment gives to the steps of the call. -/
def System.removalPhase (sha256 : String → String) (token : String) :
    System → RemovalPhase → List Answer → RemovalPhase
  | _, phase, [] => phase
  | system, phase, answer :: answers =>
    removalPhase sha256 token (system.step sha256 (.advance token answer))
      (system.phaseAfter token answer phase) answers

/-- What a start with this request would leave out: everything, if it answers unchanged, and
what is not pending, if it creates a job. -/
def Database.omits (now : Nat) (userID : String) (req : StartRequest) (wait : Nat) (jobID : String)
    (db : Database) (path : String) : Bool :=
  match db.createIndexJob now userID req wait jobID with
  | .ok (.unchanged, _) => true
  | .ok (.created _ pending _, _) => !pending.contains path
  | .ok (.rateLimited _, _) | .error _ => false

/-- A start with this request would answer unchanged. -/
def Database.answersUnchanged (now : Nat) (userID : String) (req : StartRequest) (wait : Nat)
    (jobID : String) (db : Database) : Bool :=
  match db.createIndexJob now userID req wait jobID with
  | .ok (.unchanged, _) => true
  | _ => false

/-- Only a workspace with a row is unchanged. -/
theorem answersUnchanged_eq_false {db : Database} {now wait : Nat} {userID jobID : String}
    {req : StartRequest} (absent : db.workspaceExists userID req.workspaceID = false) :
    db.answersUnchanged now userID req wait jobID = false := by
  unfold Database.answersUnchanged
  split
  next after created =>
    obtain ⟨files, diff, -, -, ⟨-, present, -⟩ | ⟨other, -⟩ | ⟨job, -, other, -, -⟩⟩ :=
      createIndexJob_cases created
    · rw [absent] at present
      cases present
    · cases other
    · cases other
  · rfl

/-- A workspace without a row leaves nothing out. -/
theorem SnapshotsOwned.omits_eq_false {db : Database} (owned : SnapshotsOwned db) {now wait : Nat}
    {userID jobID : String} {req : StartRequest}
    (absent : db.workspaceExists userID req.workspaceID = false) {file : ManifestFile}
    (listed : file ∈ req.files) : db.omits now userID req wait jobID file.path = false := by
  have empty := owned.snapshot_eq_nil absent
  unfold Database.omits
  cases created : db.createIndexJob now userID req wait jobID with
  | error message => rfl
  | ok result =>
    obtain ⟨outcome, after⟩ := result
    obtain ⟨files, diff, grafted, compared, ⟨-, present, -⟩ | ⟨rfl, -⟩ | ⟨job, -, rfl, -, -⟩⟩ :=
      createIndexJob_cases created
    · rw [absent] at present
      cases present
    · rfl
    · rw [empty] at grafted compared
      have single : (([] : List ManifestFile).map (·.path)).Nodup := List.nodup_nil
      have kept : file ∈ files := by
        rw [(graftUnreadablePaths_perm grafted).mem_iff, mem_graftLoop single]
        exact .inl listed
      have pending : file.path ∈ diff.pending := by
        rw [compared, (diffManifest_nil files).1]
        exact List.mem_map_of_mem kept
      simpa using pending

/-- What holds in each phase of the removal under a token. -/
inductive Removal (before : System) (token tenant root : String) :
    RemovalPhase → System → Prop where
  | asked {system : System} (contents : system.cloud.contents = before.cloud.contents)
      (world : system.world = before.world)
      (points : ∀ call ∈ system.calls, call.token = token →
        call.tenant = tenant ∧ call.point.removes = some root ∧ call.point.uncommitted = false) :
      Removal before token tenant root .asked system
  | cleared {system : System}
      (empty : ∀ path, system.cloud.contents tenant (lceIndexRootID root) path = none)
      (world : system.world = before.world)
      (points : ∀ call ∈ system.calls, call.token = token →
        call.tenant = tenant ∧ call.point.removes = some root ∧ call.point.uncommitted = true) :
      Removal before token tenant root .cleared system
  | removed {system : System}
      (empty : ∀ path, system.cloud.contents tenant (lceIndexRootID root) path = none)
      (workspaces : ∀ row ∈ system.world.db.indexWorkspaces,
        row.onRoot tenant (lceIndexRootID root) = false)
      (points : ∀ call ∈ system.calls, call.token = token → call.point.removes = none) :
      Removal before token tenant root .removed system

section Steps

variable {sha256 : String → String} {answer : Answer} {tenant root : String} {clock : Nat}
  {db : Database} {cloud : Cloud} {point : Point}

theorem Point.attached_of_removes (removes : point.removes = some root) : point.detached = false := by
  cases point <;> first | rfl | cases removes

/-- A point that waits for its transaction has no clear to send. -/
theorem Point.clears_of_uncommitted (waits : point.uncommitted = true) : point.clears = false := by
  cases point <;> first | rfl | cases waits

variable (sha256 tenant clock db cloud) in
/-- As long as LCE has not executed the clear, a removal commits nothing. -/
theorem advance_asked (removes : point.removes = some root) (earlier : point.uncommitted = false)
    (silent : (point.clears && answer.reached) = false) :
    (point.advance sha256 answer tenant clock db cloud).transaction = none ∧
      (point.advance sha256 answer tenant clock db cloud).request = none ∧
      ∀ next, (point.advance sha256 answer tenant clock db cloud).next = some next →
        next.removes = some root ∧ next.uncommitted = false := by
  cases point with
  | deleteFindRunning rootID =>
    cases removes
    refine ⟨rfl, rfl, fun next moves => ?_⟩
    simp only [Point.advance] at moves
    split at moves
    · cases moves
    · cases moves
      exact ⟨rfl, rfl⟩
  | deleteCloud | clearOldRoot =>
    have unreached : answer.reached = false := by simpa [Point.clears] using silent
    simp [Point.advance, Answer.sends, Answer.replied, unreached]
  | deleteRelay | resetBinding => cases earlier
  | _ => cases removes

variable (sha256 tenant clock db cloud) in
/-- When LCE executes the clear, the call goes on to its transaction or, without the answer, ends. -/
theorem advance_clears (removes : point.removes = some root)
    (executes : (point.clears && answer.reached) = true) :
    (point.advance sha256 answer tenant clock db cloud).transaction = none ∧
      (point.advance sha256 answer tenant clock db cloud).request =
        some (.clearRoot tenant (lceIndexRootID root)) ∧
      ∀ next, (point.advance sha256 answer tenant clock db cloud).next = some next →
        next.removes = some root ∧ next.uncommitted = true := by
  rw [Bool.and_eq_true] at executes
  cases point with
  | deleteCloud | clearOldRoot =>
    cases removes
    refine ⟨rfl, by simp [Point.advance, Answer.sends, executes.2], fun next moves => ?_⟩
    simp only [Point.advance] at moves
    split at moves
    · cases moves
      exact ⟨rfl, rfl⟩
    · cases moves
  | _ => cases executes.1

variable (sha256 answer tenant clock db cloud) in
theorem advance_commits (removes : point.removes = some root) (waits : point.uncommitted = true) :
    (point.advance sha256 answer tenant clock db cloud).transaction =
        some (.clearRoot tenant root) ∧
      (point.advance sha256 answer tenant clock db cloud).request = none ∧
      ∀ next, (point.advance sha256 answer tenant clock db cloud).next = some next →
        next.removes = none := by
  cases point with
  | deleteRelay | resetBinding =>
    cases removes
    refine ⟨rfl, rfl, fun next moves => ?_⟩
    cases moves
    try rfl
  | _ => cases waits

/-- A step that sends nothing leaves LCE alone. -/
theorem System.apply_cloud {system : System} {call : Call} {effect : Effect}
    (silent : effect.request = none) : (system.apply sha256 call answer effect).cloud = system.cloud := by
  simp [System.apply, System.ask, silent]

theorem System.apply_world {system : System} {call : Call} {effect : Effect}
    (reads : effect.transaction = none) : (system.apply sha256 call answer effect).world = system.world := by
  simp [System.apply, System.commit, reads]

/-- A call at a point of a removal takes its step if it holds its lease. -/
theorem System.step_removal {system : System} {call : Call} (inFlight : call ∈ system.calls)
    (attached : call.point.detached = false) {effect : Effect}
    (next : effect = call.point.advance sha256 answer call.tenant system.world.clock system.world.db
      system.cloud)
    (possible : system.possible effect.transaction = true) :
    system.step sha256 (.advance call.token answer) =
      if system.holdsLease call then system.apply sha256 call answer effect else system := by
  have found : system.calls.lookup call.token = some call := Table.lookup_eq_some.mpr ⟨inFlight, rfl⟩
  subst next
  simp only [System.step, found, attached, Bool.false_or, possible, Bool.and_true]

theorem Removal.step {before system : System} {token : String} {phase : RemovalPhase}
    (removal : Removal before token tenant root phase system)
    (own : system.removalStep (.advance token answer) = true) :
    Removal before token tenant root (system.phaseAfter token answer phase)
      (system.step sha256 (.advance token answer)) := by
  unfold System.phaseAfter
  cases found : system.calls.lookup token with
  | none =>
    have idle : system.step sha256 (.advance token answer) = system := by
      simp only [System.step, found]
    rw [idle]
    exact removal
  | some call =>
    obtain ⟨inFlight, rfl⟩ := Table.lookup_eq_some.mp found
    simp only [System.removalStep, found] at own
    obtain ⟨target, removes⟩ := Option.isSome_iff_exists.mp own
    have attached := Point.attached_of_removes removes
    obtain ⟨effect, next⟩ : ∃ effect, effect = call.point.advance sha256 answer call.tenant
        system.world.clock system.world.db system.cloud := ⟨_, rfl⟩
    by_cases holds : system.holdsLease call = true
    · cases removal with
      | asked contents world points =>
        obtain ⟨rfl, same, earlier⟩ := points call inFlight rfl
        by_cases executes : (call.point.clears && answer.reached) = true
        · have effects := advance_clears sha256 call.tenant system.world.clock system.world.db
            system.cloud same executes
          rw [← next] at effects
          obtain ⟨reads, sends, onward⟩ := effects
          rw [System.step_removal inFlight attached next (by rw [reads]; rfl), if_pos holds]
          simp only [holds, executes]
          refine .cleared (fun path => ?_) ((System.apply_world reads).trans world) ?_
          · simp [System.apply, System.ask, sends, Cloud.serve, Cloud.setContent, Content.none]
          · refine System.forall_moveOn inFlight (fun other _ different named => ?_)
              fun point moves _ => ⟨rfl, onward point moves⟩
            exact absurd named different
        · have silent : (call.point.clears && answer.reached) = false := by simpa using executes
          have effects := advance_asked sha256 call.tenant system.world.clock system.world.db
            system.cloud same earlier silent
          rw [← next] at effects
          obtain ⟨reads, sends, onward⟩ := effects
          rw [System.step_removal inFlight attached next (by rw [reads]; rfl), if_pos holds]
          simp only [holds, silent, earlier]
          refine .asked (by rw [System.apply_cloud sends, contents])
            ((System.apply_world reads).trans world) ?_
          refine System.forall_moveOn inFlight (fun other _ different named => ?_)
            fun point moves _ => ⟨rfl, onward point moves⟩
          exact absurd named different
      | cleared empty world points =>
        obtain ⟨rfl, same, waits⟩ := points call inFlight rfl
        have effects := advance_commits sha256 answer call.tenant system.world.clock
          system.world.db system.cloud same waits
        rw [← next] at effects
        obtain ⟨commits, sends, onward⟩ := effects
        rw [System.step_removal inFlight attached next (by rw [commits]; rfl), if_pos holds]
        simp only [holds, Point.clears_of_uncommitted waits, waits]
        refine .removed (fun path => ?_) (fun row member => ?_) ?_
        · rw [System.apply_cloud sends]
          exact empty path
        · simp only [System.apply, commits] at member
          rw [System.commit_db rfl] at member
          exact (Table.mem_delete.mp member).2
        · refine System.forall_moveOn inFlight (fun other _ different named => ?_)
            fun point moves _ => onward point moves
          exact absurd named different
      | removed empty workspaces points =>
        rw [points call inFlight rfl] at removes
        cases removes
    · -- without its lease the call stands still
      rw [Bool.not_eq_true] at holds
      have idle : system.step sha256 (.advance call.token answer) = system := by
        simp only [System.step, found, attached, holds, Bool.or_self, Bool.false_and,
          Bool.false_eq_true, if_false]
      rw [idle]
      simp only [holds, Bool.not_false, if_true]
      exact removal

theorem Removal.run {before system : System} {token : String} {phase : RemovalPhase}
    (answers : List Answer) (removal : Removal before token tenant root phase system)
    (own : Along (System.step sha256) (fun system event => system.removalStep event = true)
      system (answers.map (.advance token))) :
    Removal before token tenant root (system.removalPhase sha256 token phase answers)
      (runFrom (System.step sha256) system (answers.map (.advance token))) := by
  induction answers generalizing system phase with
  | nil => exact removal
  | cons answer answers ih => exact ih (removal.step own.1) own.2

end Steps

/-- A start that stays on a root finds no workspace there once the root has been removed. -/
theorem RootsNormal.workspaceExists_eq_false {db : Database} (normal : RootsNormal db)
    {tenant root : String} (removed : ∀ row ∈ db.indexWorkspaces,
      row.onRoot tenant (lceIndexRootID root) = false)
    {req later : StartRequest} (accepted : normalizeStartRequest req = .ok later)
    (same : lceIndexRootID later.rootID = lceIndexRootID root)
    (stays : db.movedFrom tenant later = none) :
    db.workspaceExists tenant later.workspaceID = false := by
  cases found : db.indexWorkspaces.lookup (tenant, later.workspaceID) with
  | none => simp [workspaceExists, found]
  | some row =>
    obtain ⟨stored, named⟩ := Table.lookup_eq_some.mp found
    have root_of_start := normalRoot_of_accepted accepted
    have root_of_row := normal.workspaces row stored
    -- it is on the root of the start, since the start does not move it
    have bound : row.rootID = later.rootID := by
      simpa [movedFrom, loadIndexedWorkspaceRoot, found, root_of_row.1, root_of_start.1]
        using stays
    have onRoot : row.onRoot tenant (lceIndexRootID root) = true := by
      rw [normal.onRoot stored, bound, ← same, root_of_start.lceIndexRootID_eq]
      exact ⟨congrArg Prod.fst named, rfl⟩
    rw [removed row stored] at onRoot
    cases onRoot

/-- For every run, every removal in it that has not sent its clear yet, and all answers of the
environment to its steps, wherever they end. LCE's side is as it was before the clear is executed,
and empty from then on; the relay's side is as it was before the transaction is committed, so that
a start is answered as if there had been no removal. After the transaction no start of the root is
answered unchanged or leaves a file out. A file that a start would have left out, and that LCE held,
is left out although LCE no longer holds it exactly in the phase between the two. -/
theorem removal_strands_iff_cleared (sha256 : String → String) (before : List SystemEvent)
    (leased : ∀ event ∈ before, event.leased = true) {call : Call} {root : String}
    (inFlight : call ∈ (runFrom (System.step sha256) System.initial before).calls)
    (removes : call.point.removes = some root) (starts : call.point.uncommitted = false)
    (answers : List Answer)
    (own : Along (System.step sha256) (fun system event => system.removalStep event = true)
      (runFrom (System.step sha256) System.initial before) (answers.map (.advance call.token))) :
    let system := runFrom (System.step sha256) System.initial before
    let after := runFrom (System.step sha256) System.initial
      (before ++ answers.map (.advance call.token))
    let phase := system.removalPhase sha256 call.token .asked answers
    (phase = .asked → after.cloud.contents = system.cloud.contents) ∧
    (phase ≠ .asked → ∀ path, after.cloud.contents call.tenant (lceIndexRootID root) path = none) ∧
    (phase ≠ .removed → after.world = system.world) ∧
    ∀ req later now wait jobID, normalizeStartRequest req = .ok later →
      lceIndexRootID later.rootID = lceIndexRootID root →
      after.world.db.movedFrom call.tenant later = none →
      (phase = .removed → after.world.db.answersUnchanged now call.tenant later wait jobID = false ∧
        ∀ file ∈ later.files,
          after.world.db.omits now call.tenant later wait jobID file.path = false) ∧
      ∀ file ∈ later.files, ∀ hash,
        system.cloud.contents call.tenant (lceIndexRootID root) file.path = some hash →
        system.world.db.omits now call.tenant later wait jobID file.path = true →
        ((after.world.db.omits now call.tenant later wait jobID file.path = true ∧
          after.cloud.contents call.tenant (lceIndexRootID root) file.path = none) ↔
            phase = .cleared) := by
  intro system after phase
  have whole : ∀ event ∈ before ++ answers.map (.advance call.token), event.leased = true := by
    intro event member
    rcases List.mem_append.mp member with earlier | later
    · exact leased event earlier
    · obtain ⟨answer, -, rfl⟩ := List.mem_map.mp later
      rfl
  have owned : SnapshotsOwned after.world.db := (snapshotDiscipline_run sha256 _ whole).owned
  have normal : RootsNormal after.world.db := rootsNormal_run sha256 _ whole
  have initially : Removal system call.token call.tenant root .asked system := by
    refine .asked rfl rfl fun other known named => ?_
    rw [Table.eq_of_key_eq known inFlight named]
    exact ⟨rfl, removes, starts⟩
  have final : Removal system call.token call.tenant root phase after := by
    have steps := initially.run answers own
    rwa [← runFrom_append] at steps
  clear_value after phase
  -- the cloud is emptied before the workspace goes: only the phase in between strands a file
  cases final with
  | asked contents world =>
    refine ⟨fun _ => contents, fun other => absurd rfl other, fun _ => world, ?_⟩
    intro req later now wait jobID accepted same stays
    refine ⟨nofun, fun file listed hash held omitted => ⟨fun stranded => ?_, nofun⟩⟩
    rw [contents, held] at stranded
    cases stranded.2
  | cleared empty world =>
    refine ⟨nofun, fun _ => empty, fun _ => world, ?_⟩
    intro req later now wait jobID accepted same stays
    refine ⟨nofun, fun file listed hash held omitted => iff_of_true ⟨?_, empty file.path⟩ rfl⟩
    rw [world]
    exact omitted
  | removed empty workspaces =>
    refine ⟨nofun, fun _ => empty, fun other => absurd rfl other, ?_⟩
    intro req later now wait jobID accepted same stays
    have absent := normal.workspaceExists_eq_false workspaces accepted same stays
    refine ⟨fun _ => ⟨answersUnchanged_eq_false absent, fun file listed =>
      owned.omits_eq_false absent listed⟩, fun file listed hash held omitted => ?_⟩
    refine ⟨fun stranded => ?_, nofun⟩
    rw [owned.omits_eq_false absent listed] at stranded
    cases stranded.1

/-- A root with two published files, and nobody at work. -/
def publishedRoot : List SystemEvent :=
  beforeTwoFiles ++ .advance "start" { jobID := twoFilesJob } :: afterTwoFiles ++
    [.other (.commit 0 (.release "tenant" "completion"))]

def deletingRoot : List SystemEvent :=
  publishedRoot ++ [.enter 0 "removal" "tenant" "" (.deleteRoot "root")]

/-- The clear does not reach LCE. -/
def refusedClear : List Answer := [{}, { reached := false }]

/-- LCE executes the clear, and its reply is lost. -/
def lostClear : List Answer := [{}, { heard := false }]

/-- The root is deleted, once with each of these answers. -/
theorem removal_strands_iff_cleared_deleting :
    (runFrom (System.step fun _ => "ca978112") System.initial
      (deletingRoot ++ refusedClear.map (.advance "removal"))).cloud.contents =
      (runFrom (System.step fun _ => "ca978112") System.initial deletingRoot).cloud.contents ∧
    (runFrom (System.step fun _ => "ca978112") System.initial
      (deletingRoot ++ lostClear.map (.advance "removal"))).world.db.omits 0 "tenant"
        sortedTwoFiles 0 "" "main.go" = true ∧
    (runFrom (System.step fun _ => "ca978112") System.initial
      (deletingRoot ++ lostClear.map (.advance "removal"))).cloud.contents "tenant"
        (lceIndexRootID "root") "main.go" = none := by
  have standing : ∃ call ∈ (runFrom (System.step fun _ => "ca978112") System.initial
      deletingRoot).calls.rows, call.token = "removal" ∧ call.tenant = "tenant" ∧
        call.point.removes = some "root" ∧ call.point.uncommitted = false := by
    decide +kernel
  have run : (∀ event ∈ deletingRoot, event.leased = true) ∧
      normalizeStartRequest twoFiles = .ok sortedTwoFiles ∧
      (runFrom (System.step fun _ => "ca978112") System.initial deletingRoot).cloud.contents "tenant"
        (lceIndexRootID "root") "main.go" = some "ca978112" ∧
      (runFrom (System.step fun _ => "ca978112") System.initial deletingRoot).world.db.omits 0
        "tenant" sortedTwoFiles 0 "" "main.go" = true := by
    decide +kernel
  have refused : Along (System.step fun _ => "ca978112")
        (fun system event => system.removalStep event = true)
        (runFrom (System.step fun _ => "ca978112") System.initial deletingRoot)
        (refusedClear.map (.advance "removal")) ∧
      (runFrom (System.step fun _ => "ca978112") System.initial deletingRoot).removalPhase
        (fun _ => "ca978112") "removal" .asked refusedClear = .asked := by
    decide +kernel
  have lost : Along (System.step fun _ => "ca978112")
        (fun system event => system.removalStep event = true)
        (runFrom (System.step fun _ => "ca978112") System.initial deletingRoot)
        (lostClear.map (.advance "removal")) ∧
      (runFrom (System.step fun _ => "ca978112") System.initial
        (deletingRoot ++ lostClear.map (.advance "removal"))).world.db.movedFrom
          "tenant" sortedTwoFiles = none ∧
      (runFrom (System.step fun _ => "ca978112") System.initial deletingRoot).removalPhase
        (fun _ => "ca978112") "removal" .asked lostClear = .cleared := by
    decide +kernel
  obtain ⟨call, inFlight, named, owner, removes, starts⟩ := standing
  obtain ⟨leased, accepted, held, omitted⟩ := run
  have listed : ({ path := "main.go", hash := "ca978112", size := 1, estimatedChunks := 1 } :
      ManifestFile) ∈ sortedTwoFiles.files := by
    decide
  have sameRoot : lceIndexRootID sortedTwoFiles.rootID = lceIndexRootID "root" := rfl
  rw [← named] at refused lost ⊢
  rw [← owner] at held omitted lost ⊢
  have unreached := removal_strands_iff_cleared (fun _ => "ca978112") deletingRoot leased
    ((Table.mem_def _ _).mpr inFlight) removes starts refusedClear refused.1
  have stranded := removal_strands_iff_cleared (fun _ => "ca978112") deletingRoot leased
    ((Table.mem_def _ _).mpr inFlight) removes starts lostClear lost.1
  dsimp only at unreached stranded
  have file := (stranded.2.2.2 twoFiles sortedTwoFiles 0 0 "" accepted sameRoot lost.2.1).2 _ listed
    "ca978112"
  dsimp only at file
  exact ⟨unreached.1 refused.2, (file held omitted).mpr lost.2.2⟩

/-- The workspace moves to another root, and the transaction that follows the clear fails. -/
def failedReset : List SystemEvent :=
  publishedRoot ++ [.enter 0 "move" "tenant" "" (.start { twoFiles with rootID := "other" }),
    .advance "move" {}, .advance "move" {}, .advance "move" {}]

/-- A start of the root is answered unchanged after each failure: the clear refused, where LCE
still holds the files; its reply lost, or the transaction of a rebinding failed, where LCE has
emptied the root. -/
theorem failed_removals_strand_snapshots :
    (runFrom (System.step fun _ => "ca978112") System.initial
      (deletingRoot ++ refusedClear.map (.advance "removal"))).cloud.contents "tenant"
        "root" "main.go" = some "ca978112" ∧
    (runFrom (System.step fun _ => "ca978112") System.initial
      (deletingRoot ++ refusedClear.map (.advance "removal"))).world.db.answersUnchanged 0 "tenant"
        sortedTwoFiles 0 "" = true ∧
    (runFrom (System.step fun _ => "ca978112") System.initial
      (deletingRoot ++ lostClear.map (.advance "removal"))).cloud.contents "tenant"
        "root" "main.go" = none ∧
    (runFrom (System.step fun _ => "ca978112") System.initial
      (deletingRoot ++ lostClear.map (.advance "removal"))).world.db.answersUnchanged 0 "tenant"
        sortedTwoFiles 0 "" = true ∧
    (runFrom (System.step fun _ => "ca978112") System.initial failedReset).cloud.contents "tenant"
        "root" "main.go" = none ∧
    (runFrom (System.step fun _ => "ca978112") System.initial failedReset).world.db.answersUnchanged
        0 "tenant" sortedTwoFiles 0 "" = true := by
  decide +kernel

end AcemcpRelay
