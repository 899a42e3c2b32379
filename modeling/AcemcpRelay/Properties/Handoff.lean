import AcemcpRelay.JobSteps
import AcemcpRelay.SystemSteps

/-!
# The publication handoff

The publication intent hands a job to the server: from then on it should stay in
phase `publishing` until it is completed, LCE ends its publication without
effect, or its row is cleared away.

Two statements that write the phase of a running job do not ask whether the
server owns it: the commit of an upload batch, and the mark of a client's failure
report. Their guards sit in earlier statements of the same calls, so that a
handoff in between is undone. `staysHandedOver` says that every other statement
respects the handoff, in every order.

The failure by LCE is a statement of the calls that complete and reconcile jobs. They run it at
`Point.rejected`, and `failPublication_after_reply` says how they get there: by a reply in which
LCE reports that the publication has failed or was cancelled.
-/
namespace AcemcpRelay

open Store

/-- The job is running and in phase `publishing`. -/
def HandedOver (jobID : String) (world : World) : Prop :=
  ∃ job ∈ world.db.indexJobs, job.id = jobID ∧ job.status = .running ∧ job.phase = .publishing

instance (jobID : String) (world : World) : Decidable (HandedOver jobID world) :=
  inferInstanceAs (Decidable (∃ job ∈ world.db.indexJobs, job.id = jobID ∧
    job.status = .running ∧ job.phase = .publishing))

/-- A clear or a root deletion. -/
def Transaction.clears : Transaction → Bool
  | .clearUser .. | .clearRoot .. | .finishDeletion .. | .finishConfig .. => true
  | _ => false

/-- The step is one of those that may end a handoff, and did: `failPublication` is
what the relay does when LCE answers that the publication failed, was cancelled or
was aborted (`failPublication_after_reply`). -/
inductive EndsHandoff (jobID : String) (world : World) : Event → Prop where
  | completed (waited : Nat) (userID rootID : String) (cloudRevision : Int)
      (done : ∃ job ∈ (world.step (.commit waited
        (.complete userID jobID rootID cloudRevision))).db.indexJobs,
        job.id = jobID ∧ job.status = .completed) :
      EndsHandoff jobID world (.commit waited (.complete userID jobID rootID cloudRevision))
  | failed (waited : Nat) (userID failure : String)
      (done : ∃ job ∈ (world.step (.commit waited
        (.failPublication userID jobID failure))).db.indexJobs,
        job.id = jobID ∧ job.status = .failed) :
      EndsHandoff jobID world (.commit waited (.failPublication userID jobID failure))
  | removed (waited : Nat) (transaction : Transaction) (clears : transaction.clears = true)
      (gone : ∀ job ∈ (world.step (.commit waited transaction)).db.indexJobs, job.id ≠ jobID) :
      EndsHandoff jobID world (.commit waited transaction)

/-- A statement that can take the job back does not find it with the server: no
batch is recorded whose files are all still pending, no failure report that passes
its checks, and no failed `begin`. -/
def RespectsHandoff (jobID : String) (world : World) : Event → Prop
  | .commit _ (.commitBatch userID id paths _ _ _) =>
    ∀ job ∈ world.db.indexJobs, job.id = jobID → job.phase = .publishing →
      job.runningAs userID id = true →
      ¬ (paths.Nodup ∧ ∀ path ∈ paths, world.db.Pending id path)
  | .commit _ (.fail userID id report) =>
    ∀ job ∈ world.db.indexJobs, job.id = jobID → job.phase = .publishing →
      job.runningAs userID id = true →
      (resolveReportedIndexFailureDiagnostic .failed report.error report.errorCode
        report.errorOrigin report.recovery).isOk = false
  | .commit _ (.failBegin userID id _) =>
    ∀ job ∈ world.db.indexJobs, job.id = jobID → job.phase = .publishing →
      job.runningAs userID id = false
  | _ => True

section Step

variable {world : World} {jobID : String}

/-- One transaction of any call, at a job that the server owns. -/
theorem handedOver_change {job row : IndexJob} {now clock waited : Nat} {after : Database}
    {transaction : Transaction}
    (change : JobChange now clock world.db after transaction job row)
    (stored : job ∈ world.db.indexJobs) (running : job.status = .running)
    (server : job.phase = .publishing)
    (respected : RespectsHandoff job.id world (.commit waited transaction)) :
    (row.status = .running ∧ row.phase = .publishing) ∨
    (∃ rootID cloudRevision, transaction = .complete job.userID job.id rootID cloudRevision ∧
      row.status = .completed) ∨
    ∃ failure, transaction = .failPublication job.userID job.id failure ∧
      row.status = .failed := by
  have owned : job.runningAs job.userID job.id = true :=
    IndexJob.runningAs_iff.mpr ⟨rfl, rfl, running⟩
  cases change with
  | same => exact .inl ⟨running, server⟩
  -- the expiry of a job in phase `publishing` is never
  | reclaimed _ _ expired =>
    rw [server] at expired
    cases expired
  | swept _ _ expired =>
    simp only [IndexJob.expired, Bool.and_eq_true] at expired
    rw [server] at expired
    cases expired.2
  -- client heartbeats ask for another phase
  | uploading _ _ client => exact absurd server client
  | beat _ _ client => exact absurd server client
  -- the server's own statements
  | handedOver | accepted => exact .inl ⟨running, rfl⟩
  | recorded | touched => exact .inl ⟨running, server⟩
  | completed _ _ rootID cloudRevision => exact .inr (.inl ⟨rootID, cloudRevision, rfl, rfl⟩)
  | publicationFailed _ _ failure => exact .inr (.inr ⟨failure, rfl, rfl⟩)
  -- the unguarded ones
  | committed _ _ paths _ _ _ marked all =>
    exact absurd (Database.markAllIndexed_ok_iff.mp ⟨marked, all⟩)
      (respected job stored rfl server owned)
  | failed _ _ report diagnostic resolved =>
    have refused := respected job stored rfl server owned
    rw [resolved] at refused
    cases refused
  | beginFailed _ _ detail =>
    have other := respected job stored rfl server
    rw [owned] at other
    cases other

theorem handedOver_step {event : Event} (handed : HandedOver jobID world)
    (respected : RespectsHandoff jobID world event) :
    EndsHandoff jobID world event ∨ HandedOver jobID (world.step event) := by
  obtain ⟨job, stored, rfl, running, server⟩ := handed
  cases event with
  | tick elapsed => exact .inr ⟨job, stored, rfl, running, server⟩
  | commit waited transaction =>
    cases possible : world.admissible transaction with
    | false =>
      refine .inr ⟨job, ?_, rfl, running, server⟩
      simpa [World.step, possible] using stored
    | true =>
      have next : (world.step (.commit waited transaction)).db =
          world.db.exec (world.clock - waited) world.clock transaction := by
        simp [World.step, possible]
      rcases world.db.exec_jobs (world.clock - waited) world.clock transaction with
        rewritten | ⟨p, removes, same, -⟩ | ⟨new, files, created⟩
      · obtain ⟨row, member, change⟩ := rewritten.target job stored
        have id : row.id = job.id := change.sameJob.id
        rw [← next] at member
        rcases handedOver_change change stored running server respected with
          ⟨still, phase⟩ | ⟨rootID, cloudRevision, rfl, done⟩ | ⟨failure, rfl, done⟩
        · exact .inr ⟨row, member, id, still, phase⟩
        · exact .inl (.completed waited _ _ _ ⟨row, member, id, done⟩)
        · exact .inl (.failed waited _ _ ⟨row, member, id, done⟩)
      · -- a row that goes, goes by a clear: what is dismissed is not running
        cases hit : p job with
        | false =>
          refine .inr ⟨job, ?_, rfl, running, server⟩
          rw [next, same]
          exact Table.mem_delete.mpr ⟨stored, hit⟩
        | true =>
          refine .inl (.removed waited transaction ?_ fun other member same' => ?_)
          · cases removes with
            | dismissed => simp [running] at hit
            | _ => rfl
          · rw [next, same] at member
            obtain ⟨present, missed⟩ := Table.mem_delete.mp member
            rw [Table.eq_of_key_eq present stored same', hit] at missed
            cases missed
      · refine .inr ⟨job, ?_, rfl, running, server⟩
        rw [next]
        exact created.mem_jobs.mpr (.inl stored)

end Step

/-- From any state in which the server owns a job, and along every order of
transactions in which the three unguarded statements do not meet it, the job stays
in phase `publishing` until it is completed, failed by LCE, or cleared away. -/
theorem staysHandedOver (jobID : String) (world : World) (events : List Event)
    (handed : HandedOver jobID world)
    (respected : Along World.step (RespectsHandoff jobID) world events) :
    UntilExit World.step (HandedOver jobID) (EndsHandoff jobID) world events := by
  have kept (world : World) (event : Event) (handed : HandedOver jobID world)
      (respected : RespectsHandoff jobID world event) :
      EndsHandoff jobID world event ∨ HandedOver jobID (world.step event) :=
    handedOver_step handed respected
  exact untilExit_of_along kept handed events respected

/-! ### What LCE has said -/

section Replies

variable {sha256 : String → String} {answer : Answer} {tenant userID jobID failure : String}
  {clock : Nat} {db : Database} {cloud : Cloud} {point : Point}

/-- The reply to a request says that the publication of the job has ended without effect. -/
def Answer.SaysEnded (sha256 : String → String) (answer : Answer) (cloud : Cloud)
    (request : Request) (jobID : String) : Prop :=
  answer.reads sha256 cloud request jobID = some .failed ∨
    answer.reads sha256 cloud request jobID = some .cancelled

/-- A request that was answered has been sent. -/
theorem sends_of_saysEnded {request : Request} (said : answer.SaysEnded sha256 cloud request jobID) :
    answer.sends request = some request := by
  have reached : answer.reached = true := by
    unfold Answer.SaysEnded Answer.reads Answer.replied at said
    by_contra missed
    simp [Bool.eq_false_iff.mpr missed] at said
  simp [Answer.sends, reached]

theorem advance_failPublication
    (runs : (point.advance sha256 answer tenant clock db cloud).transaction =
      some (.failPublication userID jobID failure)) : point = .rejected jobID failure := by
  cases point with
  | rejected =>
    cases runs
    rfl
  | _ =>
    simp only [Point.advance] at runs
    repeat' split at runs
    all_goals cases runs

/-- The three replies that send a call to `rejected`. -/
theorem advance_rejected
    (moves : (point.advance sha256 answer tenant clock db cloud).next =
      some (.rejected jobID failure)) :
    ∃ request, (point.advance sha256 answer tenant clock db cloud).request = some request ∧
      answer.SaysEnded sha256 cloud request jobID := by
  have asks {request : Request} {asked : String} (same : asked = jobID)
      (said : answer.SaysEnded sha256 cloud request asked) :
      ∃ sent, answer.sends request = some sent ∧ answer.SaysEnded sha256 cloud sent jobID :=
    ⟨request, sends_of_saysEnded said, same ▸ said⟩
  cases point with
  | publish asked rootID =>
    simp only [Point.advance, afterPublish] at moves
    split at moves
    next said => exact asks (by cases moves; rfl) (.inl said)
    next said => exact asks (by cases moves; rfl) (.inr said)
    all_goals repeat' split at moves
    all_goals cases moves
  | status asked overdue =>
    simp only [Point.advance, afterStatus] at moves
    split at moves
    next said => exact asks (by cases moves; rfl) (.inl said)
    next said => exact asks (by cases moves; rfl) (.inr said)
    all_goals repeat' split at moves
    all_goals cases moves
  | cancel asked =>
    simp only [Point.advance, afterCancel] at moves
    split at moves
    next said => exact asks (by cases moves; rfl) (.inr said)
    · cases moves
  | _ =>
    simp only [Point.advance, afterIntent] at moves
    repeat' split at moves
    all_goals cases moves

/-- Some step of the run has brought the call the reply that the publication has ended. -/
def Told (sha256 : String → String) (events : List SystemEvent) (token jobID : String) : Prop :=
  ∃ before answer after, events = before ++ .advance token answer :: after ∧
    let system := runFrom (System.step sha256) System.initial before
    ∃ call ∈ system.calls, call.token = token ∧ ∃ request,
      (call.point.advance sha256 answer call.tenant system.world.clock system.world.db
        system.cloud).request = some request ∧ answer.SaysEnded sha256 system.cloud request jobID

theorem Told.later {events : List SystemEvent} {token : String} (told : Told sha256 events token jobID)
    (event : SystemEvent) : Told sha256 (events ++ [event]) token jobID := by
  obtain ⟨before, answer, after, rfl, said⟩ := told
  exact ⟨before, answer, after ++ [event], by simp, said⟩

/-- A call at `rejected` has been told so. -/
theorem told_of_rejected (events : List SystemEvent) :
    ∀ call ∈ (runFrom (System.step sha256) System.initial events).calls, ∀ jobID failure,
      call.point = .rejected jobID failure → Told sha256 events call.token jobID := by
  -- the reply comes in the step that moves the call there
  induction events using List.reverseRecOn with
  | nil => exact fun call member => absurd member (Table.not_mem_empty call)
  | append_singleton events event ih =>
    simp only [runFrom_append, runFrom_cons, runFrom_nil]
    have stepped := (runFrom (System.step sha256) System.initial events).stepped sha256 event
    generalize System.step sha256 _ event = after at stepped ⊢
    have old : ∀ call ∈ (runFrom (System.step sha256) System.initial events).calls, ∀ jobID failure,
        call.point = .rejected jobID failure → Told sha256 (events ++ [event]) call.token jobID :=
      fun call known jobID failure here => (ih call known jobID failure here).later event
    cases stepped with
    | idle | other | landed | lost | aborted => exact old
    | entered waited token tenant spelling operation point admitted =>
      refine System.forall_begin old fun jobID failure here => ?_
      cases Operation.enters admitted <;> cases here
    | advanced call inFlight answer effect next =>
      refine System.forall_moveOn inFlight (fun other known _ => old other known) ?_
      rintro point moves jobID failure rfl
      rw [next] at moves
      exact ⟨events, answer, [], rfl, call, inFlight, rfl, advance_rejected moves⟩

/-- **A publication is failed on LCE's word.** In every run of the system, a call whose next
statement is `failPublication` has received a reply, to a request of its own, in which LCE
reports that it has ended the publication of that job. -/
theorem failPublication_after_reply (events : List SystemEvent) {call : Call} {answer : Answer}
    (inFlight : call ∈ (runFrom (System.step sha256) System.initial events).calls)
    (runs : (call.point.advance sha256 answer call.tenant clock db cloud).transaction =
      some (.failPublication userID jobID failure)) :
    Told sha256 events call.token jobID :=
  told_of_rejected events call inFlight jobID failure (advance_failPublication runs)

end Replies

/-! ### A replayed deletion -/

namespace ReplayedDeletion

def firstJob : String := "6f1c1f0a-52f5-4f0e-9a52-0e2a5d2c7b11"

def secondJob : String := "0b9d3f5e-8a41-4c57-b7cf-3f1f2f0d6a22"

def kept : ManifestFile :=
  { path := "a.go", size := 1, estimatedChunks := 1
    hash := "ca978112ca1bbdcafac231b39a23dc4da786eff8147c4e72b9807785afee48bb" }

def removed : ManifestFile :=
  { path := "b.go", size := 1, estimatedChunks := 1
    hash := "3e23e8160039594a33894f6564e1b1348bbd7a0088d42c4acb73eeaed59c009d" }

def request (files : List ManifestFile) : StartRequest :=
  { workspaceID := "root", workspaceName := "root", branch := "", revision := "", files
    unreadableFiles := [], rootID := "root" }

/-- Two files are indexed, then one of them is gone: the second job has nothing to
upload and one path to delete, and is handed over once the deletion is sent. -/
def handoff : List Event :=
  [.commit 0 (.create "tenant" (request [kept, removed]) 0 firstJob),
    .commit 0 (.uploadHeartbeat "tenant" firstJob),
    .commit 0 (.commitBatch "tenant" firstJob ["a.go", "b.go"] 2 false false),
    .commit 0 (.intent "tenant" firstJob),
    .commit 0 (.complete "tenant" firstJob "root" 1),
    .commit 0 (.create "tenant" (request [kept]) 0 secondJob),
    .commit 0 (.uploadHeartbeat "tenant" secondJob),
    .commit 0 (.commitBatch "tenant" secondJob [] 0 false true),
    .commit 0 (.intent "tenant" secondJob)]

/-- The state in which the server owns the second job. -/
def handedOver : World := runFrom World.step World.initial handoff

/-- The commit of a second upload of the same, empty, batch. -/
def replay : Event := .commit 0 (.commitBatch "tenant" secondJob [] 0 false true)

/-- The mark of a failure report whose first read came before the handoff. -/
def lateFailure : Event :=
  .commit 0 (.fail "tenant" secondJob
    { error := "cancelled", errorCode := "", errorOrigin := "", recovery := "" })

end ReplayedDeletion

open ReplayedDeletion in
/-- The replay takes the job back from the server, and the sweep then expires it;
a late failure report ends it at once. -/
theorem replayedDeletion_undoes_handoff :
    HandedOver secondJob handedOver ∧
    ¬ UntilExit World.step (HandedOver secondJob) (EndsHandoff secondJob) handedOver [replay] ∧
    (∃ job ∈ (runFrom World.step handedOver
      [replay, .tick 600001, .commit 0 (.sweep [])]).db.indexJobs,
      job.id = secondJob ∧ job.status = .timedOut) ∧
    ¬ UntilExit World.step (HandedOver secondJob) (EndsHandoff secondJob) handedOver
      [lateFailure] := by
  have takenBack : ¬ HandedOver secondJob (handedOver.step replay) := by decide +kernel
  have ended : ¬ HandedOver secondJob (handedOver.step lateFailure) := by decide +kernel
  refine ⟨by decide +kernel, ?_, by decide +kernel, ?_⟩
  · rintro ⟨-, ends | stays⟩
    · cases ends with
      | removed _ _ clears => cases clears
    · exact takenBack stays
  · rintro ⟨-, ends | stays⟩
    · cases ends with
      | removed _ _ clears => cases clears
    · exact ended stays

open ReplayedDeletion in
/-- A stale upload of a committed file and the reconciler leave the job with the
server until it is completed. -/
theorem staysHandedOver_stale_upload :
    HandedOver secondJob handedOver ∧
    UntilExit World.step (HandedOver secondJob) (EndsHandoff secondJob) handedOver
      [.commit 0 (.commitBatch "tenant" secondJob ["a.go"] 1 false false),
        .commit 0 (.touch "tenant" secondJob),
        .commit 0 (.complete "tenant" secondJob "root" 2)] := by
  have handed : HandedOver secondJob handedOver := by decide +kernel
  refine ⟨handed, staysHandedOver secondJob handedOver _ handed ⟨?_, trivial, trivial, trivial⟩⟩
  dsimp only [RespectsHandoff]
  decide +kernel

end AcemcpRelay
