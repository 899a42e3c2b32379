import AcemcpRelay.IndexQuota
import AcemcpRelay.Properties.RequestQuota

/-!
# A shared byte pool is conserved

Each of the three scripts first decides, and then either leaves everything as it is or adds
what it charges to the counter of the pool. So whatever the mixture of scripts, the
counter is the sum of the charges, as long as the counter is not gone. A call is told of one
charge, that of the run whose reply it has heard; what the runs have charged whose replies were
lost is in the counter as well.
-/
namespace AcemcpRelay

open Store

/-! ### What a script does -/

/-- What is common to the scripts: a refusal has no effect; a charge is added to the
counter of the pool, within the limit; no other counter moves. -/
structure ChargeSpec (now : Nat) (key : QuotaKey) (limit : Int) (ledgers : IndexLedgers)
    (result : IndexReply × IndexLedgers) : Prop where
  refused : result.1.status ≠ 1 → result.2 = ledgers ∧ result.1.charged = 0
  within : result.1.status = 1 → 0 < limit → 0 < result.1.charged →
    result.2.counters.counter now key ≤ limit
  counted : result.2.counters.counter now key = ledgers.counters.counter now key + result.1.charged
  stands : ∀ deadline total, ledgers.counters.Stands key deadline total → now < deadline →
    deadline ≤ now + quotaRetention →
      result.2.counters.Stands key deadline (total + result.1.charged)
  others : ∀ other, other ≠ key → result.2.counters other = ledgers.counters other

section Scripts

variable {now : Nat} {key : QuotaKey} {limit : Int} {ledgers : IndexLedgers}

/-- A script that charges nothing: it refuses, or has charged before. -/
theorem ChargeSpec.quiet {reply : IndexReply} {after : IndexLedgers} (nothing : reply.charged = 0)
    (kept : after.counters = ledgers.counters) (refused : reply.status ≠ 1 → after = ledgers) :
    ChargeSpec now key limit ledgers (reply, after) where
  refused status := ⟨refused status, nothing⟩
  within _ _ positive := by
    rw [nothing] at positive
    cases positive
  counted := by rw [nothing, kept, Int.add_zero]
  stands _ _ stands _ _ := by
    rw [nothing, kept, Int.add_zero]
    exact stands
  others _ _ := by rw [kept]

theorem ChargeSpec.refuse {reply : IndexReply} (nothing : reply.charged = 0) :
    ChargeSpec now key limit ledgers (reply, ledgers) :=
  .quiet nothing rfl fun _ => rfl

/-- A script that charges, and may give the counter time. -/
theorem ChargeSpec.charge {reply : IndexReply} {after : IndexLedgers} (allowed : reply.status = 1)
    (room : 0 < limit → 0 < reply.charged →
      ledgers.counters.counter now key + reply.charged ≤ limit)
    (counted : after.counters = ledgers.counters.incrBy now key reply.charged ∨
      after.counters = (ledgers.counters.incrBy now key reply.charged).expire now quotaRetention key) :
    ChargeSpec now key limit ledgers (reply, after) := by
  have worth : after.counters.counter now key =
      ledgers.counters.counter now key + reply.charged := by
    rcases counted with same | same <;> rw [same]
    · exact Keys.counter_incrBy_self
    · rw [Keys.counter_expire (by decide), Keys.counter_incrBy_self]
  refine ⟨fun refused => absurd allowed refused, fun _ limited positive => ?_, worth, ?_, ?_⟩
  · rw [worth]
    exact room limited positive
  · intro deadline total stands early enough
    have added := stands.incrBy early reply.charged
    rcases counted with same | same <;> rw [same]
    · exact added
    · exact added.expire enough
  · intro other different
    have kept : ledgers.counters.incrBy now key reply.charged other = ledgers.counters other :=
      Keys.put_of_ne different
    rcases counted with same | same <;> rw [same]
    · exact kept
    · rw [Keys.expire_of_ne different, kept]

theorem chargeBytesScript_spec (requested : Int) :
    ChargeSpec now key limit ledgers (chargeBytesScript now key requested limit ledgers) := by
  unfold chargeBytesScript
  dsimp only
  split
  · exact .refuse rfl
  next room =>
    refine .charge rfl (fun _ _ => Int.not_lt.mp room) ?_
    dsimp only
    split
    · exact .inr rfl
    · exact .inl rfl

/-- Only files with bytes are collected. -/
theorem collected_nonneg (seen : String → Bool) (files unseen : List (String × Int)) {newly : Int}
    (nonneg : 0 ≤ newly) : 0 ≤ (files.foldl (collectUnseen seen) (unseen, newly)).2 := by
  induction files generalizing unseen newly with
  | nil => exact nonneg
  | cons file files ih =>
    rw [List.foldl_cons, collectUnseen]
    split
    next new => exact ih _ (Int.add_nonneg nonneg (Int.le_of_lt new.1))
    · exact ih _ nonneg

theorem reserveFilesScript_spec (ledger : FileLedgerKey) (files : List (String × Int)) :
    ChargeSpec now key limit ledgers (reserveFilesScript now key ledger limit files ledgers) := by
  unfold reserveFilesScript
  dsimp only
  split
  · exact .refuse rfl
  next room =>
    split
    · refine .charge rfl (fun _ _ => Int.not_lt.mp room) ?_
      dsimp only
      split
      · exact .inr rfl
      · exact .inl rfl
    next none =>
      -- then nothing is new
      have nonneg := collected_nonneg
        (fun token => (hashGet now ledgers.files ledger token).isSome) files [] (Int.le_refl 0)
      exact .refuse (by dsimp only; omega)

theorem swiftPartScript_spec (ledger : PartLedgerKey) (part : Int) (token : String) (bytes : Int) :
    ChargeSpec now key limit ledgers
      (swiftPartScript now key ledger part token bytes limit ledgers) := by
  unfold swiftPartScript
  dsimp only
  split
  · split
    · exact .refuse rfl
    · exact .quiet rfl rfl fun status => absurd rfl status
  · split
    · exact .refuse rfl
    next room =>
      refine .charge rfl (fun limited _ => Int.not_lt.mp fun exceeds => room ⟨limited, exceeds⟩) ?_
      exact .inr rfl

end Scripts

theorem IndexCharge.run_spec (now : Nat) (charge : IndexCharge) (ledgers : IndexLedgers) :
    ChargeSpec now charge.key charge.limit ledgers (charge.run now ledgers) := by
  cases charge with
  | bytes key requested limit => exact chargeBytesScript_spec requested
  | files key ledger limit entries => exact reserveFilesScript_spec ledger entries
  | part key ledger number token size limit => exact swiftPartScript_spec ledger number token size

/-- A call that is allowed leaves the pool within its limit if the run that answered it has
charged anything. -/
theorem IndexCharge.send_within {now : Nat} {charge : IndexCharge} {ledgers : IndexLedgers}
    {sendings : List Sending}
    (allowed : (charge.send now sendings ledgers).1.decision.allowed = true)
    (limited : 0 < charge.limit)
    (positive : 0 < (charge.send now sendings ledgers).1.decision.charged) :
    (charge.send now sendings ledgers).2.counters.counter now charge.key ≤ charge.limit := by
  dsimp only [IndexCharge.send, redisEval] at allowed positive ⊢
  cases answered : (resend (charge.run now) (sendings.take (redisMaxRetries + 1)) ledgers).1 with
  | none =>
    rw [answered] at allowed
    cases allowed
  | some reply =>
    obtain ⟨last, -, runs⟩ := resend_answer (P := fun _ => True) (fun _ _ => trivial) trivial answered
    rw [answered] at allowed positive
    have spec := charge.run_spec now last
    rw [runs] at spec
    exact spec.within (of_decide_eq_true allowed) limited positive

/-- A call whose replies all arrive and that is not allowed has no effect. -/
theorem IndexCharge.send_refused {now : Nat} {charge : IndexCharge} {ledgers : IndexLedgers}
    {sendings : List Sending} (unlost : .unheard ∉ sendings)
    (refused : (charge.send now sendings ledgers).1.decision.allowed = false) :
    (charge.send now sendings ledgers).2 = ledgers := by
  have few : Sending.unheard ∉ sendings.take (redisMaxRetries + 1) :=
    fun member => unlost (List.mem_of_mem_take member)
  dsimp only [IndexCharge.send, redisEval] at refused ⊢
  rcases (resend_of_unlost few : resend (charge.run now) _ ledgers = _ ∨ _) with none | once
  · rw [none]
  · rw [once] at refused ⊢
    exact ((charge.run_spec now ledgers).refused (of_decide_eq_false refused)).1

/-! ### Runs -/

/-- What a run has added to the counter. -/
def IndexRun.chargedTo (key : QuotaKey) (run : IndexRun) : Int :=
  if run.charge.key = key then run.reply.charged else 0

/-- What a call has been told that it added to the counter. -/
def IndexQuotaOutcome.toldOf (key : QuotaKey) (outcome : IndexQuotaOutcome) : Int :=
  if outcome.charge.any (·.key == key) then outcome.decision.charged else 0

/-- What holds in every state. -/
structure BytePoolInvariant (config : QuotaConfig) (state : IndexQuotaState) : Prop where
  begun : ∀ call ∈ state.calls, call.charge.key.day ≤ config.day state.clock
  stands : ∀ key, config.day state.clock ≤ key.day + 1 →
    state.ledgers.counters.Stands key (config.deadline key)
      (state.runs.map (IndexRun.chargedTo key)).sum

/-- The calls have been told of the charges of the runs whose replies have been heard. -/
def IndexQuotaState.ChargesHeard (state : IndexQuotaState) : Prop :=
  ∀ key, (state.outcomes.map (IndexQuotaOutcome.toldOf key)).sum =
    ((state.runs.filter (·.heard)).map (IndexRun.chargedTo key)).sum

section

variable {sha256 : String → String} {digest : List UInt8 → String} {config : QuotaConfig}
  {state : IndexQuotaState}

theorem day_of_prepare {call : IndexQuotaCall} {day : Nat} {answers : QuotaAnswers}
    {charge : IndexCharge} (prepared : call.prepare sha256 digest config day answers = .ok charge) :
    charge.key.day = day := by
  cases call with
  | bytes =>
    simp only [IndexQuotaCall.prepare] at prepared
    split at prepared <;> cases prepared
    rfl
  | files =>
    simp only [IndexQuotaCall.prepare] at prepared
    split at prepared
    · cases prepared
    · split at prepared <;> cases prepared
      rfl
  | part =>
    cases prepared
    rfl

namespace BytePoolInvariant

theorem step (invariant : BytePoolInvariant config state) (event : IndexQuotaEvent) :
    BytePoolInvariant config (state.step sha256 digest config event) := by
  have stepped := state.stepped sha256 digest config event
  generalize state.step sha256 digest config event = after at stepped ⊢
  cases stepped with
  | ticked elapsed =>
    have later : config.day state.clock ≤ config.day (state.clock + elapsed) :=
      QuotaConfig.day_mono (Nat.le_add_right _ _)
    exact ⟨fun call inFlight => (invariant.begun call inFlight).trans later,
      fun key recent => invariant.stands key (later.trans recent)⟩
  | checked id call answers charge prepared calls inserted =>
    refine ⟨fun pending member => ?_, invariant.stands⟩
    rcases (Table.mem_insert inserted).mp member with old | new
    · exact invariant.begun pending old
    · rw [List.mem_singleton.mp new]
      exact (day_of_prepare prepared).le
  | moved event outcomes calls left =>
    refine ⟨fun call member => ?_, invariant.stands⟩
    obtain ⟨old, known, same⟩ := left call member
    exact same ▸ invariant.begun old known
  | ran event call inFlight heard outcomes calls left =>
    refine ⟨fun other member => ?_, fun key recent => ?_⟩
    · obtain ⟨old, known, same⟩ := left other member
      exact same ▸ invariant.begun old known
    · have stands := invariant.stands key recent
      have spec := call.charge.run_spec state.clock state.ledgers
      dsimp only [IndexQuotaState.run]
      rw [List.map_cons, List.sum_cons, IndexRun.chargedTo]
      by_cases same : call.charge.key = key
      · subst same
        rw [if_pos rfl, Int.add_comm]
        exact spec.stands _ _ stands (QuotaConfig.early_of_day recent)
          (QuotaConfig.enough_of_day (invariant.begun call inFlight))
      · rw [if_neg same, Int.zero_add]
        exact stands.congr (spec.others key (Ne.symm same))

theorem initial (clock : Nat) : BytePoolInvariant config (.initial clock) where
  begun call inFlight := absurd inFlight (Table.not_mem_empty call)
  stands _ _ := Keys.stands_none

end BytePoolInvariant

namespace IndexQuotaState.ChargesHeard

/-- A call that ends without having been told of a charge by a script. -/
theorem cons (charges : state.ChargesHeard) {outcome : IndexQuotaOutcome}
    (free : ∀ key, outcome.toldOf key = 0) (calls : Table PendingCharge.id) :
    ChargesHeard { state with calls, outcomes := outcome :: state.outcomes } := by
  intro key
  rw [List.map_cons, List.sum_cons, free key, Int.zero_add]
  exact charges key

theorem step (charges : state.ChargesHeard) (event : IndexQuotaEvent) :
    (state.step sha256 digest config event).ChargesHeard := by
  cases event with
  | tick => exact charges
  | check id call answers =>
    simp only [IndexQuotaState.step]
    split
    · exact charges.cons (fun _ => rfl) _
    · split <;> exact charges
  | send id sending =>
    simp only [IndexQuotaState.step]
    split
    · exact charges
    next call found =>
      split
      · exact charges
      cases sending with
      | failed | unheard => exact charges
      | heard =>
        intro key
        dsimp only [IndexQuotaState.finish, IndexQuotaState.run]
        rw [List.map_cons, List.sum_cons, charges key, List.filter_cons_of_pos rfl, List.map_cons,
          List.sum_cons, IndexQuotaOutcome.toldOf, IndexRun.chargedTo]
        simp [IndexCharge.outcome]
  | giveUp id =>
    simp only [IndexQuotaState.step]
    split
    · exact charges
    · refine charges.cons (fun key => ?_) _
      simp [IndexQuotaOutcome.toldOf, IndexCharge.outcome]

end IndexQuotaState.ChargesHeard

/-- A call that has ended takes no more steps. -/
theorem IndexQuotaState.run_ended {id : Nat} (ended : state.calls.lookup id = none)
    (sendings : List Sending) :
    runFrom (IndexQuotaState.step sha256 digest config) state
      (sendings.map (.send id) ++ [.giveUp id]) = state := by
  have idle (event : IndexQuotaEvent)
      (own : event = .giveUp id ∨ ∃ sending, event = .send id sending) :
      state.step sha256 digest config event = state := by
    rcases own with rfl | ⟨sending, rfl⟩ <;> simp only [IndexQuotaState.step, ended]
  induction sendings with
  | nil => exact idle _ (.inl rfl)
  | cons sending rest ih =>
    rw [List.map_cons, List.cons_append, runFrom_cons, idle _ (.inr ⟨sending, rfl⟩)]
    exact ih

variable (sha256 digest config) in
/-- Sent one after the other, with nothing in between, the requests of a call do what
`IndexCharge.send` does. -/
theorem IndexQuotaState.run_sendings {call : PendingCharge} (inFlight : call ∈ state.calls)
    (sendings : List Sending) :
    let ended := runFrom (IndexQuotaState.step sha256 digest config) state
      (sendings.map (.send call.id) ++ [.giveUp call.id])
    let result := resend (call.charge.run state.clock) (sendings.take call.left) state.ledgers
    ended.ledgers = result.2 ∧ ended.outcomes = call.charge.outcome result.1 :: state.outcomes := by
  induction sendings generalizing state call with
  | nil =>
    have found := Table.lookup_eq_some.mpr ⟨inFlight, rfl⟩
    simp only [List.map_nil, List.nil_append, List.take_nil, resend, runFrom_cons, runFrom_nil,
      IndexQuotaState.step, found, IndexQuotaState.finish, true_and]
  | cons sending rest ih =>
    have found := Table.lookup_eq_some.mpr ⟨inFlight, rfl⟩
    rw [List.map_cons, List.cons_append, runFrom_cons]
    simp only [IndexQuotaState.step, found]
    cases left : call.left with
    | zero =>
      -- nothing is sent any more
      have stays := ih inFlight
      rw [left, List.take_zero] at stays
      rw [if_pos rfl, List.take_zero]
      exact stays
    | succ left' =>
      rw [if_neg (Nat.succ_ne_zero left'), List.take_succ_cons]
      have again (other : IndexQuotaState) (same : call ∈ other.calls) :
          { call with left := left' } ∈ (other.sentAgain call.id).calls := by
        have moved := Table.mem_update_of_hit (p := (·.id == call.id))
          (f := fun call : PendingCharge => { call with left := call.left - 1 }) same (by simp)
        rwa [left] at moved
      cases sending with
      | failed => exact ih (again state inFlight)
      | unheard => exact ih (again (state.run call false) inFlight)
      | heard =>
        have gone : ((state.run call true).finish call
            (some (call.charge.run state.clock state.ledgers).1)).calls.lookup call.id = none := by
          rw [Table.lookup_eq_none]
          intro other member same
          exact absurd same (by simpa using (Table.mem_delete.mp member).2)
        rw [IndexQuotaState.run_ended gone]
        exact ⟨rfl, rfl⟩

end

/-- The elements with a mark and those without. -/
theorem sum_split {α : Type} (mark : α → Bool) (f : α → Int) (xs : List α) :
    (xs.map f).sum = ((xs.filter mark).map f).sum + ((xs.filter fun x => !mark x).map f).sum := by
  induction xs with
  | nil => rfl
  | cons x xs ih =>
    rw [List.map_cons, List.sum_cons, ih, List.filter_cons, List.filter_cons]
    cases mark x <;> simp <;> omega

/-- Whatever calls run side by side, from whatever tenants, roots and jobs, and whatever
limits they read. A run of a script that allows under a limit and charges bytes leaves the counter
of its pool within the limit; one that refuses, for the quota or for a part with another
content, leaves the counters and both ledgers as they are. An allowed call that is told of a charge
leaves the counter within its limit, one that is not allowed, and whose replies were not lost,
leaves everything; and what `IndexCharge.send` does at once, its sendings do one by one. Until the
day after its own has ended, a counter is the sum of what the calls have been told that they were
charged and of what the runs have charged whose replies were lost. -/
theorem byte_pool_conserved (sha256 : String → String) (digest : List UInt8 → String)
    (config : QuotaConfig) (clock : Nat) (events : List IndexQuotaEvent) :
    let reached := runFrom (IndexQuotaState.step sha256 digest config) (.initial clock) events
    (∀ call ∈ reached.calls,
      let run := call.charge.run reached.clock reached.ledgers
      (run.1.status = 1 → 0 < call.charge.limit → 0 < run.1.charged →
        run.2.counters.counter reached.clock call.charge.key ≤ call.charge.limit) ∧
      (run.1.status ≠ 1 → run.2 = reached.ledgers)) ∧
    (∀ call ∈ reached.calls, ∀ sendings,
      let ended := call.charge.send reached.clock sendings reached.ledgers
      (ended.1.decision.allowed = true → 0 < call.charge.limit → 0 < ended.1.decision.charged →
        ended.2.counters.counter reached.clock call.charge.key ≤ call.charge.limit) ∧
      (.unheard ∉ sendings → ended.1.decision.allowed = false → ended.2 = reached.ledgers) ∧
      (call.left = redisMaxRetries + 1 →
        let after := runFrom (IndexQuotaState.step sha256 digest config) reached
          (sendings.map (.send call.id) ++ [.giveUp call.id])
        after.ledgers = ended.2 ∧ after.outcomes = ended.1 :: reached.outcomes)) ∧
    ∀ key, config.day reached.clock ≤ key.day + 1 →
      reached.ledgers.counters.counter reached.clock key =
        (reached.outcomes.map (IndexQuotaOutcome.toldOf key)).sum +
          ((reached.runs.filter fun run => !run.heard).map (IndexRun.chargedTo key)).sum := by
  intro reached
  have invariant : BytePoolInvariant config reached :=
    invariant_run (P := BytePoolInvariant config) (fun _ event invariant => invariant.step event)
      (.initial clock) events
  have heard : reached.ChargesHeard :=
    invariant_run (P := IndexQuotaState.ChargesHeard) (fun _ event charges => charges.step event)
      (fun _ => rfl) events
  refine ⟨fun call inFlight => ?_, fun call inFlight sendings => ?_, fun key recent => ?_⟩
  · have spec := call.charge.run_spec reached.clock reached.ledgers
    exact ⟨spec.within, fun refused => (spec.refused refused).1⟩
  · refine ⟨IndexCharge.send_within, IndexCharge.send_refused, fun unsent => ?_⟩
    have sent := IndexQuotaState.run_sendings sha256 digest config inFlight sendings
    rw [unsent] at sent
    exact sent
  · rw [(invariant.stands key recent).counter (QuotaConfig.early_of_day recent), heard key]
    exact sum_split IndexRun.heard (IndexRun.chargedTo key) reached.runs

/-- The reply to a charge of five bytes is lost. Sent again, the call is told of five and has been
charged ten; if the client gives up, it is told of nothing; and if there is room for only eight,
the second run refuses the call that the first has charged. -/
theorem charged_of_lostBytesReply :
    let config : QuotaConfig := { smallQuota with dailyIndexBytesLimit := 100 }
    let run := fun config => runFrom (IndexQuotaState.step id (fun _ => "") config) (.initial 0)
    let lost := [.check 1 (.bytes "u" "" "free" 5) {}, .send 1 .unheard]
    let again := run config (lost ++ [.send 1 .heard])
    let given := run config (lost ++ [.giveUp 1])
    let refused := run { config with dailyIndexBytesLimit := 8 } (lost ++ [.send 1 .heard])
    (again.ledgers.counters.counter again.clock (indexBytesKeyAt "u" 0) = 10 ∧
      again.outcomes.map (·.decision.charged) = [5]) ∧
    (given.ledgers.counters.counter given.clock (indexBytesKeyAt "u" 0) = 5 ∧
      given.outcomes.map (·.decision.charged) = [0]) ∧
    refused.ledgers.counters.counter refused.clock (indexBytesKeyAt "u" 0) = 5 ∧
      refused.outcomes.map (·.decision) = [{ used := 5, limit := 8 }] := by
  decide +kernel

end AcemcpRelay
