import AcemcpRelay.Properties.LeaseCompatibility
import AcemcpRelay.System

/-!
# Steps of the system

`Stepped` lists what an event can do to the system. From it follows the discipline
of the leases: a call that may take its next step holds the only exclusive lease of
its tenant, or one that is compatible with those of all other such calls.
-/
namespace AcemcpRelay

open Store

/-- What a step does. -/
inductive Stepped (sha256 : String → String) (system : System) : SystemEvent → System → Prop where
  | idle (event : SystemEvent) : Stepped sha256 system event system
  | other (event : Event) (accepted : system.refuses event = false) :
      Stepped sha256 system (.other event) (system.background event)
  | entered (waited : Nat) (token tenant spelling : String) (operation : Operation) (point : Point)
      (admitted : operation.enter = .ok point) (fresh : token ∉ system.tokens)
      (claimed : system.claimedFor tenant operation = true) :
      Stepped sha256 system (.enter waited token tenant spelling operation)
        (system.begin waited (System.callOf token tenant spelling operation point))
  | advanced (call : Call) (inFlight : call ∈ system.calls) (answer : Answer) (effect : Effect)
      (next : effect = call.point.advance sha256 answer call.tenant system.world.clock
        system.world.db system.cloud)
      (allowed : call.point.detached = true ∨ system.holdsLease call = true)
      (possible : system.possible effect.transaction = true) :
      Stepped sha256 system (.advance call.token answer) (system.apply sha256 call answer effect)
  | landed (jobID : String) (revision : Int) :
      Stepped sha256 system (.land jobID revision)
        { system with cloud := system.cloud.land revision jobID }
  | lost (jobID : String) :
      Stepped sha256 system (.lose jobID) { system with cloud := system.cloud.lose jobID }
  | aborted (jobID : String) (queued : jobID ∈ system.aborts) :
      Stepped sha256 system (.abort jobID)
        { system with cloud := system.cloud.serve sha256 .accept (.abort jobID) }

theorem System.stepped (sha256 : String → String) (system : System) (event : SystemEvent) :
    Stepped sha256 system event (system.step sha256 event) := by
  cases event with
  | other event =>
    simp only [step]
    split
    · exact .idle _
    next accepted => exact .other event (by simpa using accepted)
  | enter waited token tenant spelling operation =>
    simp only [step]
    split
    · exact .idle _
    next point admitted =>
      split
      · exact .idle _
      next free =>
        simp only [Bool.or_eq_true, List.contains_iff_mem, Bool.not_eq_true', not_or,
          Bool.not_eq_false] at free
        exact .entered waited token tenant spelling operation point admitted free.1 free.2
  | advance token answer =>
    simp only [step]
    split
    · exact .idle _
    next call found =>
      obtain ⟨inFlight, rfl⟩ := Table.lookup_eq_some.mp found
      split
      next enabled =>
        obtain ⟨allowed, possible⟩ := Bool.and_eq_true_iff.mp enabled
        exact .advanced call inFlight answer _ rfl (Bool.or_eq_true_iff.mp allowed) possible
      · exact .idle _
  | land jobID revision => exact .landed jobID revision
  | lose jobID => exact .lost jobID
  | abort jobID =>
    simp only [step]
    split
    next queued => exact .aborted jobID (List.contains_iff_mem.mp queued)
    · exact .idle _

/-- The step of a call in flight. -/
theorem System.step_advance (sha256 : String → String) {system : System} {token : String} {call : Call}
    (found : system.calls.lookup token = some call) (answer : Answer) :
    system.step sha256 (.advance token answer) =
      if (call.point.detached || system.holdsLease call) && system.possible
          (call.point.advance sha256 answer call.tenant system.world.clock system.world.db
            system.cloud).transaction then
        system.apply sha256 call answer (call.point.advance sha256 answer call.tenant
          system.world.clock system.world.db system.cloud)
      else system := by
  simp only [step, found]

/-! ### Calls -/

/-- Where a call comes from after another has moved on. -/
theorem System.mem_moveOn {calls : Table Call.token} {token : String} {next : Option Point}
    {call : Call} (member : call ∈ System.moveOn calls token next) :
    (call ∈ calls ∧ call.token ≠ token) ∨
      ∃ old ∈ calls, old.token = token ∧ ∃ point, next = some point ∧ call = { old with point } := by
  cases next with
  | none =>
    obtain ⟨stored, kept⟩ := Table.mem_delete.mp member
    exact .inl ⟨stored, by simpa using kept⟩
  | some point =>
    simp only [moveOn] at member
    rcases Table.mem_update_cases member with ⟨stored, missed⟩ | ⟨old, stored, hit, rfl⟩
    · exact .inl ⟨stored, by simpa using missed⟩
    · exact .inr ⟨old, stored, by simpa using hit, point, rfl, rfl⟩

theorem System.mem_begin {system : System} {waited : Nat} {call other : Call}
    (member : other ∈ (system.begin waited call).calls) : other ∈ system.calls ∨ other = call := by
  simp only [System.begin] at member
  split at member
  · cases inserted : system.calls.insert [call] with
    | none =>
      rw [inserted] at member
      exact .inl member
    | some calls =>
      rw [inserted] at member
      simpa using (Table.mem_insert inserted).mp member
  · exact .inl member

/-- What holds of the calls after one of them has moved on. -/
theorem System.forall_moveOn {system : System} {call : Call} (inFlight : call ∈ system.calls)
    {next : Option Point} {P : Call → Prop}
    (others : ∀ other ∈ system.calls, other.token ≠ call.token → P other)
    (own : ∀ point, next = some point → P { call with point }) :
    ∀ other ∈ System.moveOn system.calls call.token next, P other := by
  intro other member
  rcases System.mem_moveOn member with ⟨old, different⟩ | ⟨old, stored, same, point, moves, rfl⟩
  · exact others other old different
  · obtain rfl := Table.eq_of_key_eq stored inFlight same
    exact own point moves

theorem System.forall_begin {system : System} {waited : Nat} {call : Call} {P : Call → Prop}
    (others : ∀ other ∈ system.calls, P other) (own : P call) :
    ∀ other ∈ (system.begin waited call).calls, P other := by
  intro other member
  rcases System.mem_begin member with old | rfl
  · exact others other old
  · exact own

theorem System.begin_db (system : System) (waited : Nat) (call : Call) :
    (system.begin waited call).world.db =
      system.world.db.exec (system.world.clock - waited) system.world.clock
        (.acquire call.tenant call.resource call.kind call.token call.mode) := by
  simp [System.begin, World.step, World.admissible]

/-- The first point of each operation. -/
inductive Enters : Operation → Point → Prop where
  | start (req normalized : StartRequest) (accepted : normalizeStartRequest req = .ok normalized) :
      Enters (.start req) (.inspect req normalized)
  | upload (req valid : UploadRequest) (accepted : validateUpload req = .ok valid) :
      Enters (.upload req) (.prepare valid)
  | complete (jobID : String) : Enters (.complete jobID) (.check jobID none)
  | reconcile (jobID : String) (overdue : Bool) :
      Enters (.reconcile jobID overdue) (.revalidate jobID overdue)
  | fail (jobID : String) (report : FailureReport) :
      Enters (.fail jobID report) (.load jobID report)
  | clearIndex : Enters .clearIndex .clearRelay
  | dismissRootFailure (rootID : String) :
      Enters (.dismissRootFailure rootID) (.findRunning (normalizeIndexRootID rootID))
  | deleteRoot (rootID : String) :
      Enters (.deleteRoot rootID) (.deleteFindRunning (normalizeIndexRootID rootID))
  | rootDeletion (job : RootDeletionJob) : Enters (.rootDeletion job) (.attemptCurrent job)

theorem Operation.enters {operation : Operation} {point : Point}
    (admitted : operation.enter = .ok point) : Enters operation point := by
  cases operation with
  | start req =>
    cases accepted : normalizeStartRequest req with
    | error message => simp [enter, accepted, Except.map] at admitted
    | ok normalized =>
      simp only [enter, accepted, Except.map, Except.ok.injEq] at admitted
      subst admitted
      exact .start req normalized accepted
  | upload req =>
    cases accepted : validateUpload req with
    | error message => simp [enter, accepted, Except.map] at admitted
    | ok valid =>
      simp only [enter, accepted, Except.map, Except.ok.injEq] at admitted
      subst admitted
      exact .upload req valid accepted
  | _ =>
    cases admitted
    constructor

/-- No call takes, renews or gives back a lease by one of its statements. -/
theorem Point.advance_onLeases {sha256 : String → String} {answer : Answer} {tenant : String}
    {clock : Nat} {db : Database} {cloud : Cloud} {point : Point} {transaction : Transaction}
    (runs : (point.advance sha256 answer tenant clock db cloud).transaction = some transaction) :
    transaction.onLeases = false := by
  cases point with
  | create =>
    simp only [Point.advance] at runs
    split at runs <;> cases runs <;> rfl
  | markBegin | dropManifest | record =>
    simp only [Point.advance] at runs
    split at runs
    · cases runs
    · cases runs
      rfl
  | loadRoot | begin | prepare | check =>
    simp only [Point.advance] at runs
    repeat' split at runs
    all_goals cases runs
  | _ =>
    cases runs
    try rfl

theorem System.commit_db {system : System} {waited : Nat} {transaction : Transaction}
    (possible : system.possible (some transaction) = true) :
    (System.commit system.world waited (some transaction)).db =
      system.world.db.exec (system.world.clock - waited) system.world.clock transaction := by
  have admissible : system.world.admissible transaction = true := possible
  simp [System.commit, World.step, admissible]

/-- A step commits one transaction at most, or lets time pass. -/
theorem Stepped.world {sha256 : String → String} {system after : System} {event : SystemEvent}
    (stepped : Stepped sha256 system event after) :
    after.world = system.world ∨ ∃ event, after.world = system.world.step event := by
  cases stepped with
  | idle | landed | lost | aborted => exact .inl rfl
  | other event => exact .inr ⟨event, rfl⟩
  | entered waited token tenant spelling operation =>
    exact .inr ⟨.commit waited (.acquire tenant (operation.resource spelling) operation.kind token
      operation.mode), rfl⟩
  | advanced call inFlight answer effect =>
    simp only [System.apply]
    cases effect.transaction with
    | none => exact .inl rfl
    | some transaction => exact .inr ⟨.commit answer.waited transaction, rfl⟩

/-- What every step of the database preserves, every step of the system preserves. -/
theorem Stepped.preserves {sha256 : String → String} {system after : System} {event : SystemEvent}
    (stepped : Stepped sha256 system event after) {P : World → Prop} (before : P system.world)
    (preserved : ∀ event, P (system.world.step event)) : P after.world := by
  rcases stepped.world with same | ⟨event, same⟩ <;> rw [same]
  · exact before
  · exact preserved event

/-- Tokens stay spent. -/
theorem Stepped.mem_tokens {sha256 : String → String} {system after : System} {event : SystemEvent}
    (stepped : Stepped sha256 system event after) {token : String} (spent : token ∈ system.tokens) :
    token ∈ after.tokens := by
  cases stepped with
  | other event => exact List.mem_append_right _ spent
  | entered => exact List.mem_cons_of_mem _ spent
  | _ => exact spent

/-! ### Leases -/

theorem System.apply_leases {sha256 : String → String} {system : System} {call : Call}
    {answer : Answer} {effect : Effect}
    (next : effect = call.point.advance sha256 answer call.tenant system.world.clock
      system.world.db system.cloud)
    (possible : system.possible effect.transaction = true) :
    ∀ lease ∈ (system.apply sha256 call answer effect).world.db.leases,
      ∃ old ∈ system.world.db.leases, ∃ expiresAt, lease = { old with expiresAt } := by
  intro lease member
  simp only [System.apply] at member
  cases runs : effect.transaction with
  | none =>
    rw [runs] at member
    exact ⟨lease, member, lease.expiresAt, rfl⟩
  | some transaction =>
    rw [runs] at possible member
    rw [System.commit_db possible] at member
    rcases Database.lease_source member with old | ⟨_, _, _, _, _, rfl, -⟩
    · exact old
    · rw [next] at runs
      cases Point.advance_onLeases runs

/-- A lease that appears in a step has a new token. -/
theorem Stepped.lease_source {sha256 : String → String} {system after : System} {event : SystemEvent}
    (stepped : Stepped sha256 system event after) {lease : OperationLease}
    (member : lease ∈ after.world.db.leases) :
    (∃ old ∈ system.world.db.leases, ∃ expiresAt, lease = { old with expiresAt }) ∨
      lease.token ∉ system.tokens := by
  have known (stored : lease ∈ system.world.db.leases) :
      ∃ old ∈ system.world.db.leases, ∃ expiresAt, lease = { old with expiresAt } :=
    ⟨lease, stored, lease.expiresAt, rfl⟩
  cases stepped with
  | idle | landed | lost | aborted => exact .inl (known member)
  | advanced call inFlight answer effect next allowed possible =>
    exact .inl (System.apply_leases next possible lease member)
  | other event accepted =>
    cases event with
    | tick => exact .inl (known member)
    | commit waited transaction =>
      simp only [System.background, World.step] at member
      split at member
      · refine (Database.lease_source member).imp_right ?_
        rintro ⟨userID, resource, kind, token, mode, rfl, rfl⟩
        simpa [System.refuses, wantedLease] using accepted
      · exact .inl (known member)
  | entered waited token tenant spelling operation point admitted fresh =>
    simp only [System.begin, World.step, World.admissible, if_true] at member
    refine (Database.lease_source member).imp_right ?_
    rintro ⟨userID, resource, kind, wanted, mode, same, rfl⟩
    cases same
    exact fresh

/-- Every call in flight has its own token, and the lease stored under it, if there
still is one, is the lease that the call was given. -/
structure LeaseDiscipline (system : System) : Prop where
  compatible : StoredCompatible system.world.db.leases
  spentCalls : ∀ call ∈ system.calls, call.token ∈ system.tokens
  spentLeases : ∀ lease ∈ system.world.db.leases, lease.token ∈ system.tokens
  matching : ∀ call ∈ system.calls, ∀ lease ∈ system.world.db.leases, lease.token = call.token →
    lease.userID = call.tenant ∧ lease.resource = call.resource ∧ lease.kind = call.kind ∧
      lease.mode = call.mode

namespace LeaseDiscipline

variable {sha256 : String → String} {system after : System} {event : SystemEvent}

theorem initial : LeaseDiscipline System.initial where
  compatible := .empty
  spentCalls call member := absurd member (Table.not_mem_empty call)
  spentLeases lease member := absurd member (Table.not_mem_empty lease)
  matching call member := absurd member (Table.not_mem_empty call)

/-- An event outside the calls. -/
theorem background (discipline : LeaseDiscipline system) {event : Event}
    (accepted : system.refuses event = false) : LeaseDiscipline (system.background event) := by
  cases event with
  | tick elapsed =>
    exact ⟨discipline.compatible, discipline.spentCalls, discipline.spentLeases, discipline.matching⟩
  | commit waited transaction =>
    have grows {token : String} (old : token ∈ system.tokens) :
        token ∈ System.spends (.commit waited transaction) ++ system.tokens :=
      List.mem_append_right _ old
    cases possible : system.world.admissible transaction with
    | false =>
      have same : system.world.step (.commit waited transaction) = system.world := by
        simp [World.step, possible]
      refine ⟨?_, fun call member => grows (discipline.spentCalls call member), ?_, ?_⟩ <;>
        simp only [System.background, same]
      · exact discipline.compatible
      · exact fun lease member => grows (discipline.spentLeases lease member)
      · exact discipline.matching
    | true =>
      have next : (system.world.step (.commit waited transaction)).db =
          system.world.db.exec (system.world.clock - waited) system.world.clock transaction := by
        simp [World.step, possible]
      refine ⟨?_, fun call member => grows (discipline.spentCalls call member), ?_, ?_⟩ <;>
        simp only [System.background, next]
      · exact discipline.compatible.exec _ _ transaction
      · intro lease member
        rcases Database.lease_source member with ⟨old, stored, expiresAt, rfl⟩ |
          ⟨userID, resource, kind, token, mode, rfl, rfl⟩
        · exact grows (discipline.spentLeases old stored)
        · exact List.mem_append_left _ (List.mem_singleton_self token)
      · intro call inFlight lease member same
        rcases Database.lease_source member with ⟨old, stored, expiresAt, rfl⟩ |
          ⟨userID, resource, kind, token, mode, rfl, rfl⟩
        · exact discipline.matching call inFlight old stored same
        · -- the token is new, so it is not that of a call
          have fresh : token ∉ system.tokens := by simpa [System.refuses] using accepted
          have spent := discipline.spentCalls call inFlight
          rw [← same] at spent
          exact absurd spent fresh

theorem entered (discipline : LeaseDiscipline system) {waited : Nat} {call : Call}
    (fresh : call.token ∉ system.tokens) : LeaseDiscipline (system.begin waited call) := by
  have next : (system.world.step (.commit waited
      (.acquire call.tenant call.resource call.kind call.token call.mode))).db =
      system.world.db.exec (system.world.clock - waited) system.world.clock
        (.acquire call.tenant call.resource call.kind call.token call.mode) := by
    simp [World.step, World.admissible]
  refine ⟨?_, ?_, ?_, ?_⟩
  · simp only [System.begin, next]
    exact discipline.compatible.exec _ _ _
  · intro other member
    rcases System.mem_begin member with old | rfl
    · exact List.mem_cons_of_mem _ (discipline.spentCalls other old)
    · exact List.mem_cons_self
  · simp only [System.begin, next]
    intro lease member
    rcases Database.lease_source member with ⟨old, stored, expiresAt, rfl⟩ |
      ⟨userID, resource, kind, token, mode, same, rfl⟩
    · exact List.mem_cons_of_mem _ (discipline.spentLeases old stored)
    · cases same
      exact List.mem_cons_self
  · intro other inFlight lease member same
    simp only [System.begin, next] at member
    rcases Database.lease_source member with ⟨old, stored, expiresAt, rfl⟩ |
      ⟨userID, resource, kind, token, mode, wanted, rfl⟩
    · rcases System.mem_begin inFlight with known | rfl
      · exact discipline.matching other known old stored same
      · have spent := discipline.spentLeases old stored
        rw [show old.token = other.token from same] at spent
        exact absurd spent fresh
    · cases wanted
      rcases System.mem_begin inFlight with known | rfl
      · have spent := discipline.spentCalls other known
        rw [← same] at spent
        exact absurd spent fresh
      · exact ⟨rfl, rfl, rfl, rfl⟩

theorem applied (discipline : LeaseDiscipline system) {call : Call} {answer : Answer}
    {effect : Effect} (next : effect = call.point.advance sha256 answer call.tenant
      system.world.clock system.world.db system.cloud)
    (possible : system.possible effect.transaction = true) :
    LeaseDiscipline (system.apply sha256 call answer effect) := by
  refine ⟨?_, ?_, ?_, ?_⟩
  · simp only [System.apply]
    cases runs : effect.transaction with
    | none => exact discipline.compatible
    | some transaction =>
      rw [runs] at possible
      rw [System.commit_db possible]
      exact discipline.compatible.exec _ _ transaction
  · intro other member
    rcases System.mem_moveOn member with ⟨old, -⟩ | ⟨old, stored, -, point, -, rfl⟩
    · exact discipline.spentCalls other old
    · exact discipline.spentCalls old stored
  · intro lease member
    obtain ⟨old, stored, expiresAt, rfl⟩ := System.apply_leases next possible lease member
    exact discipline.spentLeases old stored
  · intro other inFlight lease member same
    obtain ⟨old, stored, expiresAt, rfl⟩ := System.apply_leases next possible lease member
    rcases System.mem_moveOn inFlight with ⟨known, -⟩ | ⟨before, known, -, point, -, rfl⟩
    · exact discipline.matching other known old stored same
    · exact discipline.matching before known old stored same

theorem step (discipline : LeaseDiscipline system) (stepped : Stepped sha256 system event after) :
    LeaseDiscipline after := by
  cases stepped with
  | idle => exact discipline
  | other event accepted => exact discipline.background accepted
  | entered waited token tenant spelling operation point admitted fresh =>
    exact discipline.entered fresh
  | advanced call inFlight answer effect next allowed possible =>
    exact discipline.applied next possible
  | landed | lost | aborted =>
    exact ⟨discipline.compatible, discipline.spentCalls, discipline.spentLeases,
      discipline.matching⟩

/-- A lease that has gone does not come back. -/
theorem held_before (discipline : LeaseDiscipline system) (stepped : Stepped sha256 system event after)
    {call : Call} (inFlight : call ∈ system.calls) (held : after.holdsLease call = true) :
    system.holdsLease call = true := by
  obtain ⟨lease, stored, token⟩ := Table.holds_eq_true.mp held
  rw [beq_iff_eq] at token
  rcases stepped.lease_source stored with ⟨old, before, expiresAt, rfl⟩ | fresh
  · exact Table.holds_eq_true.mpr ⟨old, before, by simpa using token⟩
  · rw [token] at fresh
    exact absurd (discipline.spentCalls call inFlight) fresh

/-- Of two calls of a tenant that both hold their leases, none is exclusive. -/
theorem exclusive_alone (discipline : LeaseDiscipline system) {call other : Call}
    (inFlight : call ∈ system.calls) (known : other ∈ system.calls)
    (same : call.tenant = other.tenant) (exclusive : call.mode = .exclusive)
    (held : system.holdsLease call = true) (holds : system.holdsLease other = true) :
    call = other := by
  obtain ⟨mine, stored, token⟩ := Table.holds_eq_true.mp held
  obtain ⟨theirs, present, otherToken⟩ := Table.holds_eq_true.mp holds
  rw [beq_iff_eq] at token otherToken
  obtain ⟨owner, -, -, mode⟩ := discipline.matching call inFlight mine stored token
  obtain ⟨otherOwner, -⟩ := discipline.matching other known theirs present otherToken
  have lease : mine = theirs := by
    by_contra different
    have apart := OperationLease.conflicts_eq_false.mp (discipline.compatible.no_conflict mine stored
      theirs present (by rw [owner, otherOwner, same]) different)
    rw [mode, exclusive] at apart
    cases apart.1
  exact Table.eq_of_key_eq inFlight known (by rw [← token, ← otherToken, lease])

end LeaseDiscipline

end AcemcpRelay
