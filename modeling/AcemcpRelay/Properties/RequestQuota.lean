import AcemcpRelay.Quota
import AcemcpRelay.Store.Transition

/-!
# Request quotas are not oversold

The script is the only writer of the counters, and it either charges every counter that
has a limit or none. A counter is given two days when it is created, and it is created
on its own day at the earliest; so it is there during that day and the next, and all that
time it is the number of times that the script has allowed a call.

A call is allowed by one run of the script, the one whose reply it has heard. If the reply of a
run is lost, the client sends the request again, and the call is charged for both; or it gives up,
and the call is charged although it is told that accounting is unavailable.
-/
namespace AcemcpRelay

open Store

/-! ### What the script does -/

namespace Reservation

/-- The counter has a limit in the call. -/
def charges (reservation : Reservation) (key : QuotaKey) : Bool :=
  (decide (0 < reservation.memberLimit) && reservation.memberKey == key) ||
    (decide (0 < reservation.poolLimit) && reservation.poolKey == key)

def limitFor (reservation : Reservation) (key : QuotaKey) : Int :=
  if 0 < reservation.memberLimit ∧ reservation.memberKey = key then reservation.memberLimit
  else reservation.poolLimit

/-- The two counters are different ones, if both have a limit. -/
def Distinct (reservation : Reservation) : Prop :=
  0 < reservation.memberLimit → 0 < reservation.poolLimit →
    reservation.memberKey ≠ reservation.poolKey

def MemberFull (reservation : Reservation) (now : Nat) (counters : Counters) : Prop :=
  0 < reservation.memberLimit ∧
    reservation.memberLimit ≤ counters.counter now reservation.memberKey

def PoolFull (reservation : Reservation) (now : Nat) (counters : Counters) : Prop :=
  0 < reservation.poolLimit ∧ reservation.poolLimit ≤ counters.counter now reservation.poolKey

end Reservation

section Script

variable {now : Nat} {counters : Counters} {key other : QuotaKey} {reservation : Reservation}

theorem incr_counter_self :
    (counters.incr now key).2.counter now key = counters.counter now key + 1 := by
  unfold Counters.incr
  dsimp only
  split
  · rw [Keys.counter_expire (by decide), Keys.counter_incrBy_self]
  · rw [Keys.counter_incrBy_self]

theorem incr_of_ne (different : other ≠ key) : (counters.incr now key).2 other = counters other := by
  have counted : counters.incrBy now key 1 other = counters other := Keys.put_of_ne different
  unfold Counters.incr
  dsimp only
  split
  · rw [Keys.expire_of_ne different, counted]
  · exact counted

theorem incr_stands {deadline : Nat} {total : Int} (stands : counters.Stands key deadline total)
    (early : now < deadline) (enough : deadline ≤ now + quotaRetention) :
    (counters.incr now key).2.Stands key deadline (total + 1) := by
  have counted := stands.incrBy early 1
  unfold Counters.incr
  dsimp only
  split
  · exact counted.expire enough
  · exact counted

/-- One of the two charges of the script. -/
def Counters.chargeIf (now : Nat) (limit : Int) (key : QuotaKey) (counters : Counters) : Counters :=
  if 0 < limit then (counters.incr now key).2 else counters

theorem chargeIf_of_not {limit : Int} (kept : ¬ (0 < limit ∧ key = other)) :
    counters.chargeIf now limit key other = counters other := by
  unfold Counters.chargeIf
  split
  next positive => exact incr_of_ne fun same => kept ⟨positive, same.symm⟩
  · rfl

/-- The script refuses and leaves the counters, or charges both. -/
theorem script_cases (now : Nat) (reservation : Reservation) (counters : Counters) :
    ((reserveRequestQuotaScript now reservation counters).1.allowed = false ∧
      (reservation.MemberFull now counters ∨ reservation.PoolFull now counters) ∧
      (reserveRequestQuotaScript now reservation counters).2 = counters) ∨
    ((reserveRequestQuotaScript now reservation counters).1.allowed = true ∧
      ¬ reservation.MemberFull now counters ∧ ¬ reservation.PoolFull now counters ∧
      (reserveRequestQuotaScript now reservation counters).2 =
        (counters.chargeIf now reservation.memberLimit reservation.memberKey).chargeIf now
          reservation.poolLimit reservation.poolKey) := by
  unfold reserveRequestQuotaScript
  dsimp only
  split
  next full => exact .inl ⟨rfl, .inl full, rfl⟩
  next member =>
    split
    next full => exact .inl ⟨rfl, .inr full, rfl⟩
    next pool =>
      refine .inr ⟨?_, member, pool, ?_⟩
      · dsimp only
        split <;> [rfl; split <;> rfl]
      · simp only [Counters.chargeIf]
        split <;> split <;> rfl

theorem chargeIf_counter_self {limit : Int} (positive : 0 < limit) :
    (counters.chargeIf now limit key).counter now key = counters.counter now key + 1 := by
  rw [Counters.chargeIf, if_pos positive, incr_counter_self]

theorem charges_eq_true : reservation.charges key = true ↔
    (0 < reservation.memberLimit ∧ reservation.memberKey = key) ∨
      (0 < reservation.poolLimit ∧ reservation.poolKey = key) := by
  simp [Reservation.charges]

/-- An allowed call charges each counter that has a limit, within the limit. -/
theorem script_charges (distinct : reservation.Distinct)
    (allowed : (reserveRequestQuotaScript now reservation counters).1.allowed = true)
    (charged : reservation.charges key = true) :
    counters.counter now key < reservation.limitFor key ∧
      (reserveRequestQuotaScript now reservation counters).2.counter now key =
        counters.counter now key + 1 := by
  rcases script_cases now reservation counters with ⟨refused, -⟩ | ⟨-, member, pool, after⟩
  · rw [refused] at allowed
    cases allowed
  rw [after]
  rw [charges_eq_true] at charged
  unfold Reservation.limitFor
  by_cases mine : 0 < reservation.memberLimit ∧ reservation.memberKey = key
  · -- the pool is another counter
    have elsewhere : ¬ (0 < reservation.poolLimit ∧ reservation.poolKey = key) :=
      fun both => distinct mine.1 both.1 (mine.2.trans both.2.symm)
    rw [if_pos mine, Keys.counter_congr (chargeIf_of_not elsewhere)]
    obtain ⟨positive, rfl⟩ := mine
    exact ⟨Int.not_le.mp fun full => member ⟨positive, full⟩, chargeIf_counter_self positive⟩
  · obtain ⟨positive, rfl⟩ := charged.resolve_left mine
    rw [if_neg mine, chargeIf_counter_self positive, Keys.counter_congr (chargeIf_of_not mine)]
    exact ⟨Int.not_le.mp fun full => pool ⟨positive, full⟩, rfl⟩

theorem script_keeps (kept : reservation.charges key = false) :
    (reserveRequestQuotaScript now reservation counters).2 key = counters key := by
  rw [← Bool.not_eq_true, charges_eq_true, not_or] at kept
  rcases script_cases now reservation counters with ⟨-, -, after⟩ | ⟨-, -, -, after⟩
  · rw [after]
  · rw [after, chargeIf_of_not kept.2, chargeIf_of_not kept.1]

/-- The counter after the script, as long as it is not gone. -/
theorem script_stands {deadline : Nat} {total : Int} (distinct : reservation.Distinct)
    (stands : counters.Stands key deadline total) (early : now < deadline)
    (enough : deadline ≤ now + quotaRetention) :
    (reserveRequestQuotaScript now reservation counters).2.Stands key deadline
      (total + if (reserveRequestQuotaScript now reservation counters).1.allowed &&
        reservation.charges key then 1 else 0) := by
  cases charged : reservation.charges key with
  | false =>
    rw [Bool.and_false, if_neg Bool.false_ne_true, Int.add_zero]
    exact stands.congr (script_keeps charged)
  | true =>
    rw [Bool.and_true]
    rcases script_cases now reservation counters with ⟨refused, -, after⟩ | ⟨allowed, -, -, after⟩
    · rw [refused, after, if_neg Bool.false_ne_true, Int.add_zero]
      exact stands
    · rw [allowed, after, if_pos rfl]
      rw [charges_eq_true] at charged
      by_cases mine : 0 < reservation.memberLimit ∧ reservation.memberKey = key
      · have elsewhere : ¬ (0 < reservation.poolLimit ∧ reservation.poolKey = key) :=
          fun both => distinct mine.1 both.1 (mine.2.trans both.2.symm)
        refine Keys.Stands.congr ?_ (chargeIf_of_not elsewhere)
        obtain ⟨positive, rfl⟩ := mine
        rw [Counters.chargeIf, if_pos positive]
        exact incr_stands stands early enough
      · have kept : (counters.chargeIf now reservation.memberLimit reservation.memberKey).Stands key
            deadline total := stands.congr (chargeIf_of_not mine)
        obtain ⟨positive, rfl⟩ := charged.resolve_left mine
        rw [Counters.chargeIf, if_pos positive]
        exact incr_stands kept early enough

end Script

/-! ### A call -/

namespace QuotaRun

/-- The run has charged the counter. -/
def charged (key : QuotaKey) (run : QuotaRun) : Bool :=
  run.reply.allowed && run.reservation.charges key

end QuotaRun

namespace QuotaOutcome

/-- The call was allowed, and the counter has a limit in it. -/
def allowedWith (key : QuotaKey) (outcome : QuotaOutcome) : Bool :=
  outcome.decision.allowed && outcome.reservation.any (·.charges key)

end QuotaOutcome

section Call

variable {now : Nat} {counters : Counters} {key : QuotaKey} {reservation : Reservation}
  {sendings : List Sending}

/-- A call without limits has nothing to charge. -/
theorem charges_of_unlimited (unlimited : reservation.unlimited = true) :
    reservation.charges key = false := by
  simp only [Reservation.unlimited, Bool.and_eq_true, decide_eq_true_eq] at unlimited
  rw [← Bool.not_eq_true, charges_eq_true]
  omega

/-- What one run takes from the counters. -/
structure RunSpec (now : Nat) (reservation : Reservation) (before : Counters)
    (run : Bool × Counters) : Prop where
  charges : run.1 = true → ∀ key, reservation.charges key = true →
    run.2.counter now key = before.counter now key + 1 ∧
      run.2.counter now key ≤ reservation.limitFor key
  keeps : run.1 = true → ∀ key, reservation.charges key = false → run.2 key = before key
  refuses : run.1 = false → run.2 = before
  full : reservation.PoolFull now before → run.2 = before

theorem runSpec_same {allowed : Bool}
    (free : allowed = true → ∀ key, reservation.charges key = false) :
    RunSpec now reservation counters (allowed, counters) where
  charges granted key charges := by
    rw [free granted key] at charges
    cases charges
  keeps _ _ _ := rfl
  refuses _ := rfl
  full _ := rfl

theorem script_spec (now : Nat) (counters : Counters) (distinct : reservation.Distinct) :
    RunSpec now reservation counters
      ((reserveRequestQuotaScript now reservation counters).1.allowed,
        (reserveRequestQuotaScript now reservation counters).2) where
  charges allowed key charges := by
    obtain ⟨room, counted⟩ := script_charges distinct allowed charges
    dsimp only
    exact ⟨counted, by omega⟩
  keeps _ _ kept := script_keeps kept
  refuses refused := by
    rcases script_cases now reservation counters with ⟨-, -, same⟩ | ⟨allowed, -⟩
    · exact same
    · exact absurd (allowed.symm.trans refused) (by decide)
  full full := by
    rcases script_cases now reservation counters with ⟨-, -, same⟩ | ⟨-, -, room, -⟩
    · exact same
    · exact absurd full room

/-- A call whose replies all arrive takes what one run takes, or nothing. -/
theorem reserve_spec (distinct : reservation.Distinct) (unlost : .unheard ∉ sendings) :
    RunSpec now reservation counters
      ((reserveRequestQuota now reservation sendings counters).1.allowed,
        (reserveRequestQuota now reservation sendings counters).2) := by
  unfold reserveRequestQuota
  split
  next unlimited => exact runSpec_same fun _ key => charges_of_unlimited unlimited
  · have few : Sending.unheard ∉ sendings.take (redisMaxRetries + 1) :=
      fun member => unlost (List.mem_of_mem_take member)
    dsimp only [redisEval]
    rcases resend_of_unlost few with none | once
    · rw [none]
      exact runSpec_same nofun
    · rw [once]
      exact script_spec now counters distinct

/-- However often the request was sent: an allowed call has taken at least one from each
counter that has a limit, and stays within it. -/
theorem reserve_allowed (distinct : reservation.Distinct)
    (allowed : (reserveRequestQuota now reservation sendings counters).1.allowed = true)
    (charges : reservation.charges key = true) :
    counters.counter now key + 1 ≤
        (reserveRequestQuota now reservation sendings counters).2.counter now key ∧
      (reserveRequestQuota now reservation sendings counters).2.counter now key ≤
        reservation.limitFor key := by
  unfold reserveRequestQuota at allowed ⊢
  split at allowed
  next unlimited =>
    rw [charges_of_unlimited unlimited] at charges
    cases charges
  next limited =>
    rw [if_neg limited]
    -- no run lowers the counter, and the last one has raised it
    have kept : ∀ state : Counters, counters.counter now key ≤ state.counter now key →
        counters.counter now key ≤
          (reserveRequestQuotaScript now reservation state).2.counter now key := by
      intro state before
      have spec := script_spec now state distinct
      cases grants : (reserveRequestQuotaScript now reservation state).1.allowed with
      | false => rwa [show (reserveRequestQuotaScript now reservation state).2 = state from
          spec.refuses grants]
      | true =>
        have counted := (spec.charges grants key charges).1
        dsimp only at counted
        omega
    dsimp only [redisEval] at allowed ⊢
    cases answered : (resend (reserveRequestQuotaScript now reservation)
        (sendings.take (redisMaxRetries + 1)) counters).1 with
    | none =>
      rw [answered] at allowed
      cases allowed
    | some reply =>
      obtain ⟨last, before, runs⟩ := resend_answer kept (Int.le_refl _) answered
      rw [answered] at allowed
      have spec := script_spec now last distinct
      rw [runs] at spec
      obtain ⟨counted, within⟩ := spec.charges allowed key charges
      dsimp only at counted within
      exact ⟨by omega, within⟩

end Call

/-! ### Runs -/

namespace QuotaConfig

variable (config : QuotaConfig)

/-- Counters of a day are not gone before the end of the next day. -/
def deadline (key : QuotaKey) : Nat := (key.day + 2) * dayLength - config.zoneOffset

variable {config} {now : Nat} {key : QuotaKey}

theorem early_of_day (recent : config.day now ≤ key.day + 1) : now < config.deadline key := by
  unfold day at recent
  unfold deadline
  have positive : 0 < dayLength := by decide
  have before := (Nat.div_lt_iff_lt_mul positive).mp (Nat.lt_succ_of_le recent)
  change now + config.zoneOffset < (key.day + 2) * dayLength at before
  omega

theorem enough_of_day (begun : key.day ≤ config.day now) :
    config.deadline key ≤ now + quotaRetention := by
  unfold deadline quotaRetention
  have started : key.day * dayLength ≤ now + config.zoneOffset :=
    (Nat.mul_le_mul_right _ begun).trans (Nat.div_mul_le_self _ _)
  rw [Nat.add_mul]
  omega

theorem day_mono {later : Nat} (passes : now ≤ later) : config.day now ≤ config.day later :=
  Nat.div_le_div_right (Nat.add_le_add_right passes _)

end QuotaConfig

/-- The two counters of the call are different ones, if both have a limit. -/
def QuotaEvent.KeysDistinct (config : QuotaConfig) : QuotaEvent → Prop
  | .check _ userID orgID tier answers => ∀ day reservation,
    requestReservation config day answers userID orgID tier = some reservation → reservation.Distinct
  | _ => True

/-- What holds in every state. -/
structure QuotaInvariant (config : QuotaConfig) (state : QuotaState) : Prop where
  distinct : ∀ call ∈ state.calls, call.reservation.Distinct
  limited : ∀ call ∈ state.calls, call.reservation.unlimited = false
  begun : ∀ call ∈ state.calls, ∀ key, call.reservation.charges key = true →
    key.day ≤ config.day state.clock
  stands : ∀ key, config.day state.clock ≤ key.day + 1 →
    state.counters.Stands key (config.deadline key) (state.runs.countP (QuotaRun.charged key))
  bounded : ∀ key limit, config.day state.clock ≤ key.day + 1 → 0 ≤ limit →
    (∀ run ∈ state.runs, run.reservation.charges key = true → run.reservation.limitFor key = limit) →
    (state.runs.countP (QuotaRun.charged key) : Int) ≤ limit

/-- Every call that was allowed under a limit was allowed by one run, whose reply it has heard. -/
def QuotaState.AnswersHeard (state : QuotaState) : Prop :=
  ∀ key, state.outcomes.countP (QuotaOutcome.allowedWith key) =
    state.runs.countP fun run => run.heard && run.charged key

section

variable {config : QuotaConfig} {state : QuotaState}

theorem day_of_requestReservation {day : Nat} {answers : QuotaAnswers} {userID orgID tier : String}
    {reservation : Reservation}
    (asked : requestReservation config day answers userID orgID tier = some reservation) :
    reservation.memberKey.day = day ∧ reservation.poolKey.day = day := by
  unfold requestReservation at asked
  split at asked
  · cases asked
    exact ⟨rfl, rfl⟩
  · split at asked
    · cases asked
    · cases asked
      exact ⟨rfl, rfl⟩

/-- The counters of a call are different ones unless the pool is named like the member. -/
theorem distinct_of_requestReservation {day : Nat} {answers : QuotaAnswers}
    {userID orgID tier : String} {reservation : Reservation}
    (apart : orgID ≠ "" → (getOrgQuotaLimits config answers orgID).requestPoolID ≠ "" ∧
      "quota:used:org:" ++ orgID ++ ":" ++ userID ≠
        "quota:used:" ++ (getOrgQuotaLimits config answers orgID).requestPoolID)
    (asked : requestReservation config day answers userID orgID tier = some reservation) :
    reservation.Distinct := by
  unfold requestReservation at asked
  split at asked
  · cases asked
    exact fun limited => absurd limited (Int.lt_irrefl 0)
  next organization =>
    split at asked
    · cases asked
    · cases asked
      intro _ _ same
      have names := congrArg QuotaKey.name same
      dsimp only at names
      rw [if_pos (apart organization).1] at names
      exact (apart organization).2 names

theorem day_of_charges {reservation : Reservation} {day : Nat} {key : QuotaKey}
    (days : reservation.memberKey.day = day ∧ reservation.poolKey.day = day)
    (charges : reservation.charges key = true) : key.day = day := by
  rcases charges_eq_true.mp charges with ⟨-, rfl⟩ | ⟨-, rfl⟩
  · exact days.1
  · exact days.2

namespace QuotaInvariant

theorem tick (invariant : QuotaInvariant config state) (elapsed : Nat) :
    QuotaInvariant config { state with clock := state.clock + elapsed } := by
  have later : config.day state.clock ≤ config.day (state.clock + elapsed) :=
    QuotaConfig.day_mono (Nat.le_add_right _ _)
  exact ⟨invariant.distinct, invariant.limited,
    fun call inFlight key charges => (invariant.begun call inFlight key charges).trans later,
    fun key recent => invariant.stands key (later.trans recent),
    fun key limit recent => invariant.bounded key limit (later.trans recent)⟩

/-- Calls may end, and their requests may be counted. -/
theorem of_calls (invariant : QuotaInvariant config state) {calls : Table QuotaCall.id}
    (same : ∀ call ∈ calls, ∃ old ∈ state.calls, old.reservation = call.reservation)
    (outcomes : List QuotaOutcome) :
    QuotaInvariant config { state with calls, outcomes } where
  distinct call member := by
    obtain ⟨old, known, reservation⟩ := same call member
    exact reservation ▸ invariant.distinct old known
  limited call member := by
    obtain ⟨old, known, reservation⟩ := same call member
    exact reservation ▸ invariant.limited old known
  begun call member := by
    obtain ⟨old, known, reservation⟩ := same call member
    exact reservation ▸ invariant.begun old known
  stands := invariant.stands
  bounded := invariant.bounded

theorem sentAgain (invariant : QuotaInvariant config state) (id : Nat) :
    QuotaInvariant config (state.sentAgain id) := by
  refine invariant.of_calls (fun call member => ?_) state.outcomes
  rcases Table.mem_update_cases member with ⟨old, -⟩ | ⟨old, known, -, rfl⟩
  · exact ⟨call, old, rfl⟩
  · exact ⟨old, known, rfl⟩

theorem finish (invariant : QuotaInvariant config state) (call : QuotaCall)
    (reply : Option ReservationReply) : QuotaInvariant config (state.finish call reply) :=
  invariant.of_calls (fun other member => ⟨other, (Table.mem_delete.mp member).1, rfl⟩) _

section

variable {call : QuotaCall}

/-- Where the counters stand after a run. -/
theorem stands_run (invariant : QuotaInvariant config state) (inFlight : call ∈ state.calls)
    (heard : Bool) {key : QuotaKey} (recent : config.day state.clock ≤ key.day + 1) :
    (state.run call heard).counters.Stands key (config.deadline key)
      ((state.run call heard).runs.countP (QuotaRun.charged key)) := by
  have stands := invariant.stands key recent
  dsimp only [QuotaState.run]
  rw [List.countP_cons, QuotaRun.charged]
  cases charges : call.reservation.charges key with
  | false =>
    rw [Bool.and_false, if_neg Bool.false_ne_true, Nat.add_zero]
    exact stands.congr (script_keeps charges)
  | true =>
    have enough := QuotaConfig.enough_of_day (invariant.begun call inFlight key charges)
    have moved := script_stands (invariant.distinct call inFlight) stands
      (QuotaConfig.early_of_day recent) enough
    rw [charges] at moved
    split at moved
    next allowed => rwa [if_pos allowed, Int.natCast_add]
    next refused => rwa [if_neg refused, Int.natCast_add]

/-- A counter that was always charged under the same limit is within it. -/
theorem bounded_run (invariant : QuotaInvariant config state) (inFlight : call ∈ state.calls)
    (heard : Bool) {key : QuotaKey} {limit : Int} (recent : config.day state.clock ≤ key.day + 1)
    (positive : 0 ≤ limit)
    (constant : ∀ run ∈ (state.run call heard).runs, run.reservation.charges key = true →
      run.reservation.limitFor key = limit) :
    ((state.run call heard).runs.countP (QuotaRun.charged key) : Int) ≤ limit := by
  dsimp only [QuotaState.run] at constant ⊢
  rw [List.forall_mem_cons] at constant
  have before := invariant.bounded key limit recent positive constant.2
  have worth := (invariant.stands key recent).counter (QuotaConfig.early_of_day recent)
  rw [List.countP_cons]
  split
  next charged =>
    obtain ⟨allowed, charges⟩ := Bool.and_eq_true_iff.mp charged
    have room := (script_charges (invariant.distinct call inFlight) allowed charges).1
    rw [worth, constant.1 charges] at room
    push_cast
    omega
  · simpa using before

theorem run (invariant : QuotaInvariant config state) (inFlight : call ∈ state.calls)
    (heard : Bool) : QuotaInvariant config (state.run call heard) where
  distinct := invariant.distinct
  limited := invariant.limited
  begun := invariant.begun
  stands _ recent := invariant.stands_run inFlight heard recent
  bounded _ _ := invariant.bounded_run inFlight heard

end

theorem step (invariant : QuotaInvariant config state) {event : QuotaEvent}
    (keys : event.KeysDistinct config) : QuotaInvariant config (state.step config event) := by
  have ended (outcomes : List QuotaOutcome) : QuotaInvariant config { state with outcomes } :=
    invariant.of_calls (fun call member => ⟨call, member, rfl⟩) outcomes
  cases event with
  | tick elapsed => exact invariant.tick elapsed
  | check id userID orgID tier answers =>
    simp only [QuotaState.step]
    split
    · exact ended _
    next reservation asked =>
      split
      · exact ended _
      next limited =>
      split
      · exact invariant
      next calls inserted =>
        refine ⟨fun call member => ?_, fun call member => ?_, fun call member => ?_, invariant.stands,
          invariant.bounded⟩
        · rcases (Table.mem_insert inserted).mp member with old | new
          · exact invariant.distinct call old
          · rw [List.mem_singleton.mp new]
            exact keys _ reservation asked
        · rcases (Table.mem_insert inserted).mp member with old | new
          · exact invariant.limited call old
          · rw [List.mem_singleton.mp new]
            simpa using limited
        · rcases (Table.mem_insert inserted).mp member with old | new
          · exact invariant.begun call old
          · rw [List.mem_singleton.mp new]
            exact fun key charges => (day_of_charges (day_of_requestReservation asked) charges).le
  | send id sending =>
    simp only [QuotaState.step]
    split
    · exact invariant
    next call found =>
      have inFlight := (Table.lookup_eq_some.mp found).1
      split
      · exact invariant
      cases sending with
      | failed => exact invariant.sentAgain id
      | unheard => exact (invariant.run inFlight false).sentAgain id
      | heard => exact (invariant.run inFlight true).finish call _
  | giveUp id =>
    simp only [QuotaState.step]
    split
    · exact invariant
    · exact invariant.finish _ _

theorem initial (clock : Nat) : QuotaInvariant config (.initial clock) where
  distinct call inFlight := absurd inFlight (Table.not_mem_empty call)
  limited call inFlight := absurd inFlight (Table.not_mem_empty call)
  begun call inFlight := absurd inFlight (Table.not_mem_empty call)
  stands _ _ := Keys.stands_none
  bounded _ _ _ positive _ := positive

theorem of_run (clock : Nat) {events : List QuotaEvent}
    (keys : ∀ event ∈ events, event.KeysDistinct config) :
    QuotaInvariant config (runFrom (QuotaState.step config) (.initial clock) events) := by
  exact invariant_along (P := QuotaInvariant config) (fun _ _ invariant keys => invariant.step keys)
    (initial clock) events (along_of_forall keys)

end QuotaInvariant

namespace QuotaState.AnswersHeard

/-- A call that ends without having been allowed under a limit. -/
theorem cons (answers : state.AnswersHeard) {outcome : QuotaOutcome}
    (free : ∀ key, outcome.allowedWith key = false) (calls : Table QuotaCall.id) :
    AnswersHeard { state with calls, outcomes := outcome :: state.outcomes } := by
  intro key
  rw [List.countP_cons_of_neg (by rw [free key]; exact Bool.false_ne_true)]
  exact answers key

theorem step (answers : state.AnswersHeard) (event : QuotaEvent) :
    (state.step config event).AnswersHeard := by
  cases event with
  | tick => exact answers
  | check id userID orgID tier given =>
    simp only [QuotaState.step]
    split
    · exact answers.cons (fun _ => rfl) _
    next reservation asked =>
      split
      next unlimited =>
        refine answers.cons (fun key => ?_) _
        rw [QuotaOutcome.allowedWith, Option.any_some, charges_of_unlimited unlimited, Bool.and_false]
      · split <;> exact answers
  | send id sending =>
    simp only [QuotaState.step]
    split
    · exact answers
    next call found =>
      split
      · exact answers
      cases sending with
      | failed => exact answers
      | unheard =>
        intro key
        dsimp only [QuotaState.sentAgain, QuotaState.run]
        rw [List.countP_cons_of_neg (by simp)]
        exact answers key
      | heard =>
        intro key
        dsimp only [QuotaState.finish, QuotaState.run]
        rw [List.countP_cons, List.countP_cons, answers key]
        rfl
  | giveUp id =>
    simp only [QuotaState.step]
    split
    · exact answers
    · exact answers.cons (fun _ => rfl) _

end QuotaState.AnswersHeard

/-- A call that has ended takes no more steps. -/
theorem QuotaState.run_ended {id : Nat} (ended : state.calls.lookup id = none)
    (sendings : List Sending) :
    runFrom (QuotaState.step config) state (sendings.map (.send id) ++ [.giveUp id]) = state := by
  have idle (event : QuotaEvent) (own : event = .giveUp id ∨ ∃ sending, event = .send id sending) :
      state.step config event = state := by
    rcases own with rfl | ⟨sending, rfl⟩ <;> simp only [QuotaState.step, ended]
  induction sendings with
  | nil => exact idle _ (.inl rfl)
  | cons sending rest ih =>
    rw [List.map_cons, List.cons_append, runFrom_cons, idle _ (.inr ⟨sending, rfl⟩)]
    exact ih

/-- The elements with a property, those with a mark and those without. -/
theorem countP_split {α : Type} (mark p : α → Bool) (xs : List α) :
    xs.countP p = xs.countP (fun x => mark x && p x) + xs.countP (fun x => !mark x && p x) := by
  induction xs with
  | nil => rfl
  | cons x xs ih =>
    rw [List.countP_cons, List.countP_cons, List.countP_cons, ih]
    cases mark x <;> cases p x <;> simp <;> omega

/-- Sent one after the other, with nothing in between, the requests of a call do what
`reserveRequestQuota` does. -/
theorem QuotaState.run_sendings (config : QuotaConfig) {call : QuotaCall} (inFlight : call ∈ state.calls)
    (sendings : List Sending) :
    let ended := runFrom (QuotaState.step config) state
      (sendings.map (.send call.id) ++ [.giveUp call.id])
    let result := resend (reserveRequestQuotaScript state.clock call.reservation)
      (sendings.take call.left) state.counters
    ended.counters = result.2 ∧
      ended.outcomes = ⟨some call.reservation, call.reservation.decision result.1⟩ :: state.outcomes := by
  induction sendings generalizing state call with
  | nil =>
    have found := Table.lookup_eq_some.mpr ⟨inFlight, rfl⟩
    simp only [List.map_nil, List.nil_append, List.take_nil, resend, runFrom_cons, runFrom_nil,
      QuotaState.step, found, QuotaState.finish, true_and]
  | cons sending rest ih =>
    have found := Table.lookup_eq_some.mpr ⟨inFlight, rfl⟩
    rw [List.map_cons, List.cons_append, runFrom_cons]
    simp only [QuotaState.step, found]
    cases left : call.left with
    | zero =>
      -- nothing is sent any more
      have stays := ih inFlight
      rw [left, List.take_zero] at stays
      rw [if_pos rfl, List.take_zero]
      exact stays
    | succ left' =>
      rw [if_neg (Nat.succ_ne_zero left'), List.take_succ_cons]
      have again (other : QuotaState) (same : call ∈ other.calls) :
          { call with left := left' } ∈ (other.sentAgain call.id).calls := by
        have moved := Table.mem_update_of_hit (p := (·.id == call.id))
          (f := fun call : QuotaCall => { call with left := call.left - 1 }) same (by simp)
        rwa [left] at moved
      cases sending with
      | failed => exact ih (again state inFlight)
      | unheard => exact ih (again (state.run call false) inFlight)
      | heard =>
        have gone : ((state.run call true).finish call (some (reserveRequestQuotaScript state.clock
            call.reservation state.counters).1)).calls.lookup call.id = none := by
          rw [Table.lookup_eq_none]
          intro other member same
          exact absurd same (by simpa using (Table.mem_delete.mp member).2)
        rw [QuotaState.run_ended gone]
        exact ⟨rfl, rfl⟩

end

/-- Whatever calls run side by side and whatever limits they read, as long as the two
counters of a call are different ones. A run of the script that allows takes exactly one from
each counter that has a limit and stays within it; one that refuses takes nothing, and a full
pool is never charged together with the member. The same holds of a call whose replies are not
lost. However often its request is sent, an allowed call has taken at least one, and is within
its limits; and what `reserveRequestQuota` does at once, its sendings do one by one. Until the
day after its own has ended, a counter is the number of runs that have charged it: one for each
allowed call, whose reply the call has heard, and those whose replies were lost. A constant limit
bounds them all. -/
theorem request_quota_never_oversells (config : QuotaConfig) (clock : Nat)
    (events : List QuotaEvent) (keys : ∀ event ∈ events, event.KeysDistinct config) :
    let reached := runFrom (QuotaState.step config) (.initial clock) events
    (∀ call ∈ reached.calls,
      let run := reserveRequestQuotaScript reached.clock call.reservation reached.counters
      RunSpec reached.clock call.reservation reached.counters (run.1.allowed, run.2)) ∧
    (∀ call ∈ reached.calls, ∀ sendings,
      let ended := reserveRequestQuota reached.clock call.reservation sendings reached.counters
      (.unheard ∉ sendings →
        RunSpec reached.clock call.reservation reached.counters (ended.1.allowed, ended.2)) ∧
      (ended.1.allowed = true → ∀ key, call.reservation.charges key = true →
        reached.counters.counter reached.clock key + 1 ≤ ended.2.counter reached.clock key ∧
        ended.2.counter reached.clock key ≤ call.reservation.limitFor key) ∧
      (call.left = redisMaxRetries + 1 →
        let after := runFrom (QuotaState.step config) reached
          (sendings.map (.send call.id) ++ [.giveUp call.id])
        after.counters = ended.2 ∧
          after.outcomes = ⟨some call.reservation, ended.1⟩ :: reached.outcomes)) ∧
    ∀ key, config.day reached.clock ≤ key.day + 1 →
      reached.counters.counter reached.clock key =
        reached.outcomes.countP (QuotaOutcome.allowedWith key) +
          reached.runs.countP (fun run => !run.heard && run.charged key) ∧
      ∀ limit, 0 ≤ limit →
        (∀ run ∈ reached.runs, run.reservation.charges key = true →
          run.reservation.limitFor key = limit) →
        reached.counters.counter reached.clock key ≤ limit ∧
          (reached.outcomes.countP (QuotaOutcome.allowedWith key) : Int) ≤ limit := by
  intro reached
  have invariant : QuotaInvariant config reached := QuotaInvariant.of_run clock keys
  have heard : reached.AnswersHeard :=
    invariant_run (P := QuotaState.AnswersHeard) (fun _ event answers => answers.step event)
      (fun _ => rfl) events
  refine ⟨fun call inFlight => script_spec _ _ (invariant.distinct call inFlight), ?_, ?_⟩
  · intro call inFlight sendings
    have distinct := invariant.distinct call inFlight
    refine ⟨reserve_spec distinct, fun allowed key => reserve_allowed distinct allowed, fun unsent => ?_⟩
    have sent := QuotaState.run_sendings config inFlight sendings
    rw [unsent] at sent
    simpa [reserveRequestQuota, redisEval, invariant.limited call inFlight] using sent
  -- the counter is what was answered plus the runs whose reply was lost
  · intro key recent
    have counted := (invariant.stands key recent).counter (QuotaConfig.early_of_day recent)
    have split : reached.counters.counter reached.clock key =
        reached.outcomes.countP (QuotaOutcome.allowedWith key) +
          reached.runs.countP (fun run => !run.heard && run.charged key) := by
      rw [counted, heard key, countP_split QuotaRun.heard]
      push_cast
      rfl
    refine ⟨split, fun limit positive constant => ?_⟩
    have charged := invariant.bounded key limit recent positive constant
    rw [← counted] at charged
    exact ⟨charged, by omega⟩

/-! ### Two runs -/

def smallQuota : QuotaConfig where
  defaultDailyRequestLimit := 2
  proDailyRequestLimit := 0
  dailyIndexBytesLimit := 0
  proDailyIndexBytesLimit := 0
  zoneOffset := 8 * 60 * 60 * 1000

/-- A member of an organization without quotas of its own, and the owner on their own key,
take from the pool of the owner; the request of the first is sent twice. -/
def sharedPoolRun : List QuotaEvent :=
  let member : QuotaAnswers :=
    { memberLimit := some (some 5), orgOwner := .ok (some ⟨"owner", none, none, none, "free"⟩) }
  [.check 1 "member" "org" "free" member, .check 2 "owner" "" "free" {},
    .check 3 "member" "org" "pro" member, .send 1 .failed, .send 1 .heard, .send 2 .heard,
    .send 3 .heard]

/-- The third call of the shared pool finds it full. -/
theorem request_quota_never_oversells_sharedPool :
    ((runFrom (QuotaState.step smallQuota) (.initial 0) sharedPoolRun).outcomes.countP
      (QuotaOutcome.allowedWith ⟨"quota:used:owner", 0⟩) : Int) ≤ 2 := by
  refine (((request_quota_never_oversells smallQuota 0 sharedPoolRun ?_).2.2
    ⟨"quota:used:owner", 0⟩ (by decide +kernel)).2 2 (by decide) (by decide +kernel)).2
  simp only [sharedPoolRun, List.forall_mem_cons, List.not_mem_nil, QuotaEvent.KeysDistinct]
  refine ⟨?_, ?_, ?_, trivial, trivial, trivial, trivial, fun _ none => none.elim⟩
  all_goals
    intro day reservation
    apply distinct_of_requestReservation
    decide +kernel

/-- The reply to a request is lost. Sent again, the one call that is allowed has been charged
twice; if the client gives up, none is allowed and the counter has been charged; and if the
limit is one, the second run refuses the call that the first has charged. -/
theorem charged_of_lostReply :
    let lost := [.check 1 "u" "" "free" {}, .send 1 .unheard]
    let again := runFrom (QuotaState.step smallQuota) (.initial 0) (lost ++ [.send 1 .heard])
    let given := runFrom (QuotaState.step smallQuota) (.initial 0) (lost ++ [.giveUp 1])
    let refused := runFrom (QuotaState.step { smallQuota with defaultDailyRequestLimit := 1 })
      (.initial 0) (lost ++ [.send 1 .heard])
    (again.counters.counter again.clock ⟨"quota:used:u", 0⟩ = 2 ∧
      again.outcomes.countP (QuotaOutcome.allowedWith ⟨"quota:used:u", 0⟩) = 1) ∧
    (given.counters.counter given.clock ⟨"quota:used:u", 0⟩ = 1 ∧
      given.outcomes.countP (QuotaOutcome.allowedWith ⟨"quota:used:u", 0⟩) = 0) ∧
    refused.counters.counter refused.clock ⟨"quota:used:u", 0⟩ = 1 ∧
      refused.outcomes.map (·.decision) =
        [{ used := 1, limit := 1, scope := "personal" }] := by
  decide +kernel

end AcemcpRelay
