import AcemcpRelay.UpstreamSession

/-!
# Who may discard a session

`invalidateSession` clears whatever session the client has. As long as no 404 comes back for a
session that has been replaced, and no session is stored while another caller has its 404 but
has not yet invalidated, that session is the caller's own. Then a session that is in use is
deleted only after it has expired, and when no second one expires, every second attempt is made
on a session that LCE accepts. A 404 that comes late discards the successor, under the feet of
those who have already moved on to it.
-/
namespace AcemcpRelay

open Store

namespace UpstreamState

variable {s t : UpstreamState}

theorem tasks_setTask {P : CallerTask → Prop} {caller : Nat} {task : CallerTask} (new : P task)
    (others : ∀ other, P (s.tasks other)) (other : Nat) : P ((s.setTask caller task).tasks other) := by
  by_cases same : other = caller
  · simpa [setTask, same] using new
  · simpa [setTask, same] using others other

/-! ### Own sessions -/

/-- A caller that has got a 404 finds its own session, or none. -/
structure Owned (s : UpstreamState) : Prop where
  refused : ∀ caller sid retries, s.tasks caller = .refused sid retries →
    s.sessionID = none ∨ s.sessionID = some sid
  discarded : ∀ entry ∈ s.discarded, entry.2 = entry.1

theorem owned_empty : Owned empty where
  refused := by simp [empty]
  discarded := by simp [empty]

/-- The caller goes on to something else than a refusal. -/
theorem Owned.setTask (owned : s.Owned) {caller : Nat} {task : CallerTask}
    (new : ∀ sid retries, task = .refused sid retries →
      s.sessionID = none ∨ s.sessionID = some sid) : (s.setTask caller task).Owned where
  refused := fun other sid retries here =>
    tasks_setTask (P := fun task => task = .refused sid retries →
      s.sessionID = none ∨ s.sessionID = some sid) (new sid retries)
      (fun other => owned.refused other sid retries) other here
  discarded := owned.discarded

theorem Owned.discard (owned : s.Owned) {caller failed : Nat} {retries : Bool}
    (here : s.tasks caller = .refused failed retries) : (s.discard failed).Owned := by
  unfold UpstreamState.discard
  rcases owned.refused caller failed retries here with gone | own
  · rw [gone]
    exact owned
  · rw [own]
    refine ⟨fun _ _ _ _ => .inl rfl, fun entry listed => ?_⟩
    rcases List.mem_cons.mp listed with rfl | earlier
    · rfl
    · exact owned.discarded entry earlier

theorem Owned.initSession (owned : s.Owned) (caller : Nat) (turn : CallTurn)
    (outcome : InitOutcome) (timely : s.Timely (.init caller outcome)) :
    (s.initSession caller turn outcome).Owned := by
  unfold UpstreamState.initSession
  cases current : s.sessionID with
  | some sid => exact owned.setTask (fun _ _ other => by cases other)
  | none =>
    cases outcome with
    | refused => exact owned.setTask (fun _ _ other => by cases other)
    | lost =>
      have established : s.establish.Owned := ⟨owned.refused, owned.discarded⟩
      exact established.setTask (fun _ _ other => by cases other)
    | unconfirmed =>
      have established : Owned { s.establish with deletes := s.established :: s.deletes } :=
        ⟨owned.refused, owned.discarded⟩
      exact established.setTask (fun _ _ other => by cases other)
    | stored =>
      -- nobody is between a 404 and its `invalidateSession`
      have nobody := timely current
      have established : Owned { s.establish with sessionID := some s.established } :=
        ⟨fun other sid retries here => absurd here (nobody other sid retries), owned.discarded⟩
      exact established.setTask (fun _ _ other => by cases other)

theorem Owned.step (owned : s.Owned) (event : UpstreamEvent) (timely : s.Timely event) :
    (s.step event).Owned := by
  cases event with
  | ensure caller retries =>
    simp only [UpstreamState.step, ensureSession]
    split
    · split
      · exact owned.setTask (fun _ _ other => by cases other)
      · exact owned.setTask (fun _ _ other => by cases other)
    · exact owned
  | init caller outcome =>
    simp only [UpstreamState.step]
    split
    · exact owned.initSession caller _ outcome timely
    · exact owned
  | reply caller notFound =>
    simp only [UpstreamState.step]
    split
    next turn sid here =>
      cases turn with
      | first retries =>
        refine owned.setTask fun other again refusal => ?_
        cases notFound with
        | false => simp at refusal
        | true =>
          rw [if_pos rfl, CallerTask.refused.injEq] at refusal
          simp only [Timely, here] at timely
          exact refusal.1 ▸ timely
      | second failed =>
        have logged : Owned { s with retried := (sid, decide (sid ∈ s.live)) :: s.retried } :=
          ⟨owned.refused, owned.discarded⟩
        exact logged.setTask (fun _ _ other => by cases other)
    · exact owned
  | invalidate caller =>
    simp only [UpstreamState.step]
    split
    next sid retries here =>
      refine (owned.discard here).setTask fun other again refusal => ?_
      cases retries <;> cases refusal
    · exact owned
  | delete sid =>
    simp only [UpstreamState.step]
    split
    · exact ⟨owned.refused, owned.discarded⟩
    · exact owned
  | expire sid =>
    simp only [UpstreamState.step]
    split
    · exact ⟨owned.refused, owned.discarded⟩
    · exact owned

/-! ### Live sessions -/

/-- The session is known to LCE, unless it has expired, and will not be deleted before that. -/
def Usable (s : UpstreamState) (sid : Nat) : Prop :=
  sid < s.established ∧ (sid ∈ s.live ∨ sid ∈ s.expired) ∧ (sid ∈ s.deletes → sid ∈ s.expired)

/-- What a caller has read is still true. -/
def TaskOK (s : UpstreamState) : CallerTask → Prop
  | .idle => True
  | .connecting turn =>
    ∀ failed, turn = .second failed → failed ∈ s.expired ∧ s.sessionID ≠ some failed
  | .calling turn sid =>
    s.Usable sid ∧ ∀ failed, turn = .second failed → failed ∈ s.expired ∧ sid ≠ failed
  | .refused sid _ => sid ∈ s.expired

structure Served (s : UpstreamState) : Prop where
  once : s.expired.length ≤ 1
  bounded : ∀ sid, sid ∈ s.live ∨ sid ∈ s.expired ∨ sid ∈ s.deletes → sid < s.established
  current : ∀ sid, s.sessionID = some sid → s.Usable sid
  tasks : ∀ caller, s.TaskOK (s.tasks caller)
  retried : ∀ entry ∈ s.retried, entry.2 = true

theorem served_empty : Served empty where
  once := Nat.zero_le _
  bounded := by simp [empty]
  current := by simp [empty]
  tasks := fun _ => trivial
  retried := by simp [empty]

/-- What a caller may rely on while others go on. -/
structure Keeps (s t : UpstreamState) : Prop where
  usable : ∀ sid, s.Usable sid → t.Usable sid
  expired : s.expired ⊆ t.expired
  replaced : ∀ failed ∈ s.expired, s.sessionID ≠ some failed → t.sessionID ≠ some failed

theorem TaskOK.keeps {task : CallerTask} (ok : s.TaskOK task) (keeps : Keeps s t) :
    t.TaskOK task := by
  cases task with
  | idle => trivial
  | connecting turn =>
    intro failed second
    obtain ⟨expired, replaced⟩ := ok failed second
    exact ⟨keeps.expired expired, keeps.replaced failed expired replaced⟩
  | calling turn sid =>
    refine ⟨keeps.usable sid ok.1, fun failed second => ?_⟩
    obtain ⟨expired, other⟩ := ok.2 failed second
    exact ⟨keeps.expired expired, other⟩
  | refused sid retries => exact keeps.expired ok

theorem Served.setTask (served : s.Served) {caller : Nat} {task : CallerTask}
    (ok : s.TaskOK task) : (s.setTask caller task).Served where
  once := served.once
  bounded := served.bounded
  current := served.current
  tasks := fun other => by
    have kept : s.TaskOK ((s.setTask caller task).tasks other) :=
      tasks_setTask ok served.tasks other
    exact kept.keeps ⟨fun _ was => was, List.Subset.refl _, fun _ _ was => was⟩
  retried := served.retried

/-- A new session changes nothing for those who use another one. -/
theorem Served.establish (served : s.Served) : Keeps s s.establish ∧ s.establish.Served := by
  have keeps : Keeps s s.establish := by
    refine ⟨fun sid ⟨known, alive, gone⟩ => ⟨Nat.lt_succ_of_lt known, ?_, gone⟩,
      List.Subset.refl _, fun _ _ was => was⟩
    exact alive.imp_left (List.mem_cons_of_mem _)
  refine ⟨keeps, served.once, fun sid listed => ?_, fun sid found => ?_, fun caller => ?_,
    served.retried⟩
  · rcases listed with alive | rest
    · rcases List.mem_cons.mp alive with rfl | earlier
      · exact Nat.lt_succ_self _
      · exact Nat.lt_succ_of_lt (served.bounded sid (.inl earlier))
    · exact Nat.lt_succ_of_lt (served.bounded sid (.inr rest))
  · exact keeps.usable sid (served.current sid found)
  · exact (served.tasks caller).keeps keeps

/-- The session that LCE establishes next has not been seen before. -/
theorem Served.usable_new (served : s.Served) : s.establish.Usable s.established := by
  refine ⟨Nat.lt_succ_self _, .inl List.mem_cons_self, fun deleted => ?_⟩
  exact absurd (served.bounded _ (.inr (.inr deleted))) (Nat.lt_irrefl _)

theorem Served.unconfirmed (served : s.Served) :
    Served { s.establish with deletes := s.established :: s.deletes } := by
  obtain ⟨keeps, after⟩ := served.establish
  -- the new session is nobody's
  have usable : ∀ sid, s.Usable sid →
      Usable { s.establish with deletes := s.established :: s.deletes } sid := by
    intro sid was
    obtain ⟨known, alive, gone⟩ := keeps.usable sid was
    refine ⟨known, alive, fun deleted => ?_⟩
    rcases List.mem_cons.mp deleted with rfl | earlier
    · exact absurd was.1 (Nat.lt_irrefl _)
    · exact gone earlier
  refine ⟨after.once, fun sid listed => ?_, fun sid found => usable sid (served.current sid found),
    fun caller => ?_, after.retried⟩
  · rcases listed with alive | expired | deleted
    · exact after.bounded sid (.inl alive)
    · exact after.bounded sid (.inr (.inl expired))
    · rcases List.mem_cons.mp deleted with rfl | earlier
      · exact Nat.lt_succ_self _
      · exact after.bounded sid (.inr (.inr earlier))
  · exact (served.tasks caller).keeps ⟨usable, List.Subset.refl _, fun _ _ was => was⟩

theorem Served.stored (served : s.Served) :
    Served { s.establish with sessionID := some s.established } := by
  obtain ⟨keeps, after⟩ := served.establish
  refine ⟨after.once, after.bounded, fun sid found => ?_, fun caller => ?_, after.retried⟩
  · cases found
    exact served.usable_new
  · refine (served.tasks caller).keeps ⟨keeps.usable, keeps.expired, ?_⟩
    -- what has expired is older than the new session
    intro failed expired _ same
    cases same
    exact absurd (served.bounded _ (.inr (.inl expired))) (Nat.lt_irrefl _)

theorem Served.initSession (served : s.Served) {caller : Nat} {turn : CallTurn}
    (here : s.tasks caller = .connecting turn) (outcome : InitOutcome) :
    (s.initSession caller turn outcome).Served := by
  have ok : s.TaskOK (.connecting turn) := here ▸ served.tasks caller
  unfold UpstreamState.initSession
  cases current : s.sessionID with
  | some sid =>
    refine served.setTask ⟨served.current sid current, fun failed second => ?_⟩
    obtain ⟨expired, other⟩ := ok failed second
    exact ⟨expired, fun same => other (same ▸ current)⟩
  | none =>
    cases outcome with
    | refused => exact served.setTask trivial
    | lost => exact served.establish.2.setTask trivial
    | unconfirmed => exact served.unconfirmed.setTask trivial
    | stored =>
      refine served.stored.setTask ⟨served.usable_new, fun failed second => ?_⟩
      obtain ⟨expired, -⟩ := ok failed second
      exact ⟨expired, (Nat.ne_of_lt (served.bounded failed (.inr (.inl expired)))).symm⟩

/-- A second attempt is not made on the session that has expired. -/
theorem Served.mem_live (served : s.Served) {caller failed sid : Nat}
    (here : s.tasks caller = .calling (.second failed) sid) : sid ∈ s.live := by
  have ok : s.TaskOK (.calling (.second failed) sid) := here ▸ served.tasks caller
  obtain ⟨⟨-, alive, -⟩, again⟩ := ok
  obtain ⟨expired, other⟩ := again failed rfl
  rcases alive with live | gone
  · exact live
  · obtain ⟨only, single⟩ : ∃ only, s.expired ⊆ [only] := by
      match s.expired, served.once with
      | [], _ => exact ⟨0, List.nil_subset _⟩
      | [only], _ => exact ⟨only, List.Subset.refl _⟩
    have first := List.mem_singleton.mp (single gone)
    have second := List.mem_singleton.mp (single expired)
    exact absurd (first.trans second.symm) other

theorem Served.discard (served : s.Served) (owned : s.Owned) {caller failed : Nat}
    {retries : Bool} (here : s.tasks caller = .refused failed retries) :
    (s.discard failed).Served ∧ (s.discard failed).sessionID = none ∧
      failed ∈ (s.discard failed).expired := by
  have expired : failed ∈ s.expired := by
    have ok : s.TaskOK (.refused failed retries) := here ▸ served.tasks caller
    exact ok
  unfold UpstreamState.discard
  rcases owned.refused caller failed retries here with gone | own
  · rw [gone]
    exact ⟨served, gone, expired⟩
  · rw [own]
    refine ⟨⟨served.once, fun sid listed => ?_, fun sid found => (by cases found),
      fun other => ?_, served.retried⟩, rfl, expired⟩
    · rcases listed with alive | gone | deleted
      · exact served.bounded sid (.inl alive)
      · exact served.bounded sid (.inr (.inl gone))
      · rcases List.mem_cons.mp deleted with rfl | earlier
        · exact served.bounded _ (.inr (.inl expired))
        · exact served.bounded sid (.inr (.inr earlier))
    · refine (served.tasks other).keeps ⟨fun sid ⟨known, alive, gone⟩ => ⟨known, alive, ?_⟩,
        List.Subset.refl _, fun _ _ _ same => by cases same⟩
      intro deleted
      rcases List.mem_cons.mp deleted with rfl | earlier
      · exact expired
      · exact gone earlier

/-- LCE drops a session that counts as expired if anybody still uses it. -/
theorem Served.drop (served : s.Served) {sid : Nat} {expired : List Nat}
    (once : expired.length ≤ 1) (more : s.expired ⊆ expired)
    (bounded : ∀ other ∈ expired, other < s.established)
    (dropped : s.Usable sid → sid ∈ expired) :
    Served { s with live := s.live.filter (· ≠ sid), expired := expired } := by
  have usable : ∀ other, s.Usable other →
      Usable { s with live := s.live.filter (· ≠ sid), expired := expired } other := by
    intro other was
    refine ⟨was.1, ?_, fun deleted => more (was.2.2 deleted)⟩
    by_cases same : other = sid
    · exact .inr (same ▸ dropped (same ▸ was))
    · refine was.2.1.imp (fun alive => ?_) (fun gone => more gone)
      exact List.mem_filter.mpr ⟨alive, decide_eq_true same⟩
  refine ⟨once, fun other listed => ?_, fun other found => usable other (served.current other found),
    fun caller => (served.tasks caller).keeps ⟨usable, more, fun _ _ was => was⟩, served.retried⟩
  rcases listed with alive | gone | deleted
  · exact served.bounded other (.inl (List.mem_filter.mp alive).1)
  · exact bounded other gone
  · exact served.bounded other (.inr (.inr deleted))

theorem Served.step (served : s.Served) (owned : s.Owned) (event : UpstreamEvent)
    (accepting : s.Accepting event) : (s.step event).Served := by
  cases event with
  | ensure caller retries =>
    simp only [UpstreamState.step, ensureSession]
    split
    · split
      next sid current =>
        exact served.setTask ⟨served.current sid current, fun _ other => by cases other⟩
      · exact served.setTask fun _ other => by cases other
    · exact served
  | init caller outcome =>
    simp only [UpstreamState.step]
    split
    next turn here => exact served.initSession here outcome
    · exact served
  | reply caller notFound =>
    simp only [UpstreamState.step]
    split
    next turn sid here =>
      cases turn with
      | first retries =>
        refine served.setTask ?_
        cases notFound with
        | false => trivial
        | true =>
          -- a session that LCE refuses has expired
          simp only [Accepting, here] at accepting
          have ok : s.TaskOK (.calling (.first retries) sid) := here ▸ served.tasks caller
          exact ok.1.2.1.resolve_left accepting
      | second failed =>
        have logged : Served { s with retried := (sid, decide (sid ∈ s.live)) :: s.retried } := by
          refine ⟨served.once, served.bounded, served.current, fun other => ?_, fun entry listed => ?_⟩
          · exact (served.tasks other).keeps
              ⟨fun _ was => was, List.Subset.refl _, fun _ _ was => was⟩
          · rcases List.mem_cons.mp listed with rfl | earlier
            · exact decide_eq_true (served.mem_live here)
            · exact served.retried entry earlier
        exact logged.setTask trivial
    · exact served
  | invalidate caller =>
    simp only [UpstreamState.step]
    split
    next sid retries here =>
      obtain ⟨after, cleared, expired⟩ := served.discard owned here
      refine after.setTask ?_
      cases retries with
      | false => trivial
      | true =>
        intro failed second
        cases second
        exact ⟨expired, by simp [cleared]⟩
    · exact served
  | delete sid =>
    simp only [UpstreamState.step]
    split
    next deleted =>
      exact served.drop served.once (List.Subset.refl _)
        (fun other gone => served.bounded other (.inr (.inl gone))) fun usable => usable.2.2 deleted
    · exact served
  | expire sid =>
    simp only [UpstreamState.step]
    split
    next alive =>
      have first : s.expired = [] := accepting
      refine served.drop (by simp [first]) (List.subset_cons_self _ _) ?_ fun _ => List.mem_cons_self
      intro other gone
      rw [first, List.mem_singleton] at gone
      exact gone ▸ served.bounded sid (.inl alive)
    · exact served

end UpstreamState

open UpstreamState

theorem session_hygiene (events : List UpstreamEvent)
    (timely : Along UpstreamState.step Timely .empty events) :
    (∀ entry ∈ (runFrom UpstreamState.step .empty events).discarded, entry.2 = entry.1) ∧
      (Along UpstreamState.step Accepting .empty events →
        ∀ entry ∈ (runFrom UpstreamState.step .empty events).retried, entry.2 = true) := by
  constructor
  · have owned := invariant_along (P := Owned) (fun _ event owned timely => owned.step event timely)
      owned_empty events timely
    exact owned.discarded
  · intro accepting
    have both := invariant_along (P := fun s => Owned s ∧ Served s)
      (fun _ event inv allowed =>
        ⟨inv.1.step event allowed.1, inv.2.step inv.1 event allowed.2⟩)
      ⟨owned_empty, served_empty⟩ events (along_and timely accepting)
    exact both.2.retried

/-- One caller whose session expires, and who tries again on a new one. -/
def expiredOnce : List UpstreamEvent :=
  [.ensure 0 true, .init 0 .stored, .expire 0, .reply 0 true, .invalidate 0, .init 0 .stored,
    .reply 0 false]

theorem session_hygiene_expired :
    Along UpstreamState.step Timely .empty expiredOnce ∧
      Along UpstreamState.step Accepting .empty expiredOnce ∧
      (runFrom UpstreamState.step .empty expiredOnce).retried = [(1, true)] ∧
      ∀ entry ∈ (runFrom UpstreamState.step .empty expiredOnce).discarded, entry.2 = entry.1 := by
  have timely : Along UpstreamState.step Timely .empty expiredOnce := by
    refine ⟨trivial, fun _ other sid retries => ?_, trivial, .inr rfl, trivial,
      fun _ other sid retries => ?_, trivial, trivial⟩
    all_goals
      by_cases same : other = 0
      · subst same
        exact CallerTask.noConfusion
      · simp [UpstreamState.step, ensureSession, initSession, establish, doCallTool,
          invalidateSession, UpstreamState.discard, UpstreamState.setTask, UpstreamState.empty, same]
  have accepting : Along UpstreamState.step Accepting .empty expiredOnce :=
    ⟨trivial, trivial, rfl, List.not_mem_nil, trivial, trivial, trivial, trivial⟩
  exact ⟨timely, accepting, rfl, (session_hygiene expiredOnce timely).1⟩

/-- Two callers get a 404 on one session. The second one invalidates after the first has stored
a new session. -/
def lateInvalidation : List UpstreamEvent :=
  [.ensure 0 true, .init 0 .stored, .ensure 1 true, .expire 0, .reply 0 true, .reply 1 true,
    .invalidate 0, .init 0 .stored, .invalidate 1, .delete 1, .reply 0 true]

theorem late_failure_discards_successor :
    Along UpstreamState.step Accepting .empty lateInvalidation ∧
      (runFrom UpstreamState.step .empty lateInvalidation).discarded = [(0, 1), (0, 0)] ∧
      (runFrom UpstreamState.step .empty lateInvalidation).retried = [(1, false)] := by
  refine ⟨⟨trivial, trivial, trivial, rfl, List.not_mem_nil, List.not_mem_nil, trivial, trivial,
    trivial, trivial, List.not_mem_nil, trivial⟩, rfl, rfl⟩

end AcemcpRelay
