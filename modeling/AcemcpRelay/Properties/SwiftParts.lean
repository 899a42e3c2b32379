import AcemcpRelay.Properties.BytePool
import AcemcpRelay.SwiftUpload
import Mathlib.Data.Int.Interval

/-!
# Swift parts are immutable and charged once

The ledger of an upload maps each of its parts to the digest and the length that were
reserved first. As long as the ledger is there, it decides every later call for the part
before the pool and its limit are looked at.

## Proof strategy

The ledger has an entry for every part that a script has allowed, and no script overwrites
an entry. A part is charged only when there is no entry, so that no part is charged twice;
there are at most `swiftSyncMaxParts` of them, and each has at most `swiftSyncPartBytes`.
-/
namespace AcemcpRelay

open Store

/-! ### The script -/

section Script

variable {now : Nat} {key : QuotaKey} {ledger other : PartLedgerKey} {part : Int} {token : String}
  {bytes limit : Int} {ledgers : IndexLedgers}

/-- The entry decides, if there is one; without one, the limit does. -/
theorem swiftPartScript_cases (now : Nat) (key : QuotaKey) (ledger : PartLedgerKey) (part : Int)
    (token : String) (bytes limit : Int) (ledgers : IndexLedgers) :
    let result := swiftPartScript now key ledger part token bytes limit ledgers
    (∃ previous, hashGet now ledgers.parts ledger part = some previous ∧ previous ≠ token ∧
      result = (⟨-1, ledgers.counters.counter now key, 0⟩, ledgers)) ∨
    (hashGet now ledgers.parts ledger part = some token ∧
      result = (⟨1, ledgers.counters.counter now key, 0⟩,
        { ledgers with parts := ledgers.parts.expire now quotaRetention ledger })) ∨
    (hashGet now ledgers.parts ledger part = none ∧ result.1.status = 0 ∧ result.1.charged = 0 ∧
      result.2 = ledgers) ∨
    (hashGet now ledgers.parts ledger part = none ∧ result.1.status = 1 ∧ result.1.charged = bytes ∧
      result.2.parts =
        (hashSet now ledgers.parts ledger part token).expire now quotaRetention ledger) := by
  intro result
  have unfolded : result = swiftPartScript now key ledger part token bytes limit ledgers := rfl
  unfold swiftPartScript at unfolded
  cases found : hashGet now ledgers.parts ledger part with
  | some previous =>
    rw [found] at unfolded
    by_cases same : previous = token
    · subst same
      simp only [ne_eq, not_true_eq_false, if_false] at unfolded
      exact .inr (.inl ⟨rfl, unfolded⟩)
    · simp only [ne_eq, same, not_false_eq_true, if_true] at unfolded
      exact .inl ⟨previous, rfl, same, unfolded⟩
  | none =>
    rw [found] at unfolded
    dsimp only at unfolded
    split at unfolded
    · rw [unfolded]
      exact .inr (.inr (.inl ⟨rfl, rfl, rfl, rfl⟩))
    · rw [unfolded]
      exact .inr (.inr (.inr ⟨rfl, rfl, rfl, rfl⟩))

/-- The entries of a ledger after a script for one of its parts. -/
theorem hashGet_swiftPartScript (read : Int) :
    hashGet now (swiftPartScript now key ledger part token bytes limit ledgers).2.parts ledger read =
      if read = part ∧ (swiftPartScript now key ledger part token bytes limit ledgers).1.status = 1
      then some token else hashGet now ledgers.parts ledger read := by
  have positive : 0 < quotaRetention := by decide
  rcases swiftPartScript_cases now key ledger part token bytes limit ledgers with
    ⟨previous, -, -, same⟩ | ⟨found, same⟩ | ⟨-, status, -, after⟩ | ⟨-, status, -, after⟩
  · have conflict : (-1 : Int) ≠ 1 := by decide
    rw [same, if_neg fun both => conflict both.2]
  · rw [same, hashGet_expire positive]
    by_cases this : read = part
    · rw [if_pos ⟨this, rfl⟩, this, found]
    · rw [if_neg fun both => this both.1]
  · rw [after, status, if_neg fun both => absurd both.2 (by decide)]
  · rw [after, status, hashGet_expire positive, hashGet_hashSet]
    by_cases this : read = part
    · rw [if_pos this, if_pos ⟨this, rfl⟩]
    · rw [if_neg this, if_neg fun both => this both.1]

/-- The other ledgers are not touched. -/
theorem swiftPartScript_of_ne (different : other ≠ ledger) :
    (swiftPartScript now key ledger part token bytes limit ledgers).2.parts other =
      ledgers.parts other := by
  rcases swiftPartScript_cases now key ledger part token bytes limit ledgers with
    ⟨previous, -, -, same⟩ | ⟨-, same⟩ | ⟨-, -, -, after⟩ | ⟨-, -, -, after⟩
  · rw [same]
  · rw [same]
    exact Keys.expire_of_ne different
  · rw [after]
  · rw [after, Keys.expire_of_ne different, hashSet_of_ne different]

/-- A part that is there with the same token, sent any number of times: what is in the ledgers
stays, and an answer allows the part and charges nothing. -/
theorem send_again (key : QuotaKey) (bytes limit : Int) (sendings : List Sending)
    (found : hashGet now ledgers.parts ledger part = some token) :
    let charge := IndexCharge.part key ledger part token bytes limit
    let ended := charge.send now sendings ledgers
    (ended.2.counters = ledgers.counters ∧ ended.2.files = ledgers.files ∧
      ∀ number, hashGet now ended.2.parts ledger number = hashGet now ledgers.parts ledger number) ∧
    (.heard ∈ sendings.take (redisMaxRetries + 1) →
      ended.1 = charge.outcome (some ⟨1, ledgers.counters.counter now key, 0⟩)) := by
  intro charge ended
  let same (other : IndexLedgers) : Prop := other.counters = ledgers.counters ∧
    other.files = ledgers.files ∧
    ∀ number, hashGet now other.parts ledger number = hashGet now ledgers.parts ledger number
  have runs : ∀ other, same other → charge.run now other =
      (⟨1, ledgers.counters.counter now key, 0⟩,
        { other with parts := other.parts.expire now quotaRetention ledger }) := by
    rintro other ⟨counters, -, parts⟩
    have known := (parts part).trans found
    simp only [charge, IndexCharge.run, swiftPartScript, known, ne_eq, not_true_eq_false, if_false,
      counters]
  have kept : ∀ other, same other → same (charge.run now other).2 := by
    intro other before
    rw [runs other before]
    exact ⟨before.1, before.2.1, fun number => (hashGet_expire (by decide) number).trans
      (before.2.2 number)⟩
  have start : same ledgers := ⟨rfl, rfl, fun _ => rfl⟩
  refine ⟨resend_invariant kept start, fun heard => ?_⟩
  obtain ⟨reply, answered⟩ :=
    (resend_of_heard heard : ∃ reply, (resend (charge.run now) _ ledgers).1 = some reply)
  obtain ⟨last, before, answer⟩ := resend_answer kept start answered
  rw [runs last before] at answer
  dsimp only [ended, IndexCharge.send, redisEval]
  rw [answered, ← (Prod.mk.inj answer).1]

/-- A part that is there with another token is a conflict. -/
theorem send_conflict (key : QuotaKey) (bytes limit : Int) (sendings : List Sending)
    {previous : String} (found : hashGet now ledgers.parts ledger part = some previous)
    (different : previous ≠ token) :
    let charge := IndexCharge.part key ledger part token bytes limit
    charge.send now sendings ledgers = (charge.outcome
      (if .heard ∈ sendings.take (redisMaxRetries + 1)
        then some ⟨-1, ledgers.counters.counter now key, 0⟩ else none), ledgers) := by
  intro charge
  have run : charge.run now ledgers = (⟨-1, ledgers.counters.counter now key, 0⟩, ledgers) := by
    simp only [charge, IndexCharge.run, swiftPartScript, found, ne_eq, different, not_false_eq_true,
      if_true]
  have quiet : (charge.run now ledgers).2 = ledgers := by rw [run]
  dsimp only [IndexCharge.send, redisEval]
  rw [resend_of_quiet quiet, run]

end Script

/-! ### Replies -/

/-- What a script has replied about a part of a ledger. -/
structure PartReply where
  part : Int
  token : String
  reply : IndexReply
  deriving DecidableEq, Repr

def IndexRun.partReply (ledger : PartLedgerKey) (run : IndexRun) : Option PartReply :=
  match run.charge with
  | .part _ target part token _ _ =>
    if target = ledger then some ⟨part, token, run.reply⟩ else none
  | _ => none

namespace IndexQuotaState

/-- The replies about the parts of a ledger, the last one first. A reply that was lost on its
way is among them. -/
def partReplies (state : IndexQuotaState) (ledger : PartLedgerKey) : List PartReply :=
  state.runs.filterMap (·.partReply ledger)

/-- The part has been allowed with that token. -/
def Reserved (state : IndexQuotaState) (ledger : PartLedgerKey) (part : Int) (token : String) : Prop :=
  ∃ entry ∈ state.partReplies ledger, entry.part = part ∧ entry.token = token ∧
    entry.reply.status = 1

/-- The bytes that the parts of a ledger have been charged. -/
def partBytes (state : IndexQuotaState) (ledger : PartLedgerKey) : Int :=
  ((state.partReplies ledger).map (·.reply.charged)).sum

end IndexQuotaState

/-- A ledger that is there stays while time passes. -/
def Retains (ledger : PartLedgerKey) (state : IndexQuotaState) : IndexQuotaEvent → Prop
  | .tick elapsed => (state.ledgers.parts.live state.clock ledger).isSome →
      (state.ledgers.parts.live (state.clock + elapsed) ledger).isSome
  | _ => True

instance (ledger : PartLedgerKey) (state : IndexQuotaState) :
    (event : IndexQuotaEvent) → Decidable (Retains ledger state event)
  | .tick elapsed => inferInstanceAs (Decidable ((state.ledgers.parts.live state.clock ledger).isSome →
      (state.ledgers.parts.live (state.clock + elapsed) ledger).isSome))
  | .check _ _ _ | .send _ _ | .giveUp _ => .isTrue trivial

/-- A part that is charged has passed the checks of `reserveSwiftUpload`. -/
def IndexQuotaEvent.FromUpload : IndexQuotaEvent → Prop
  | .check _ (.part tenantID orgID tier rootID jobID part data) _ => ∃ args swift,
      readSwiftPart args = .ok swift ∧
        swift.call tenantID orgID tier = .part tenantID orgID tier rootID jobID part data
  | _ => True

/-- What holds of the parts of a ledger in every state. -/
structure PartsInvariant (ledger : PartLedgerKey) (state : IndexQuotaState) : Prop where
  /-- What is about to be charged has passed the checks. -/
  checked : ∀ call ∈ state.calls, ∀ key part token bytes limit,
    call.charge = .part key ledger part token bytes limit →
      (0 ≤ part ∧ part < swiftSyncMaxParts) ∧ 0 < bytes ∧ bytes ≤ swiftSyncPartBytes
  marked : ∀ entry ∈ state.partReplies ledger, entry.reply.status = 1 →
    hashGet state.clock state.ledgers.parts ledger entry.part = some entry.token
  charged : ∀ entry ∈ state.partReplies ledger, 0 ≤ entry.reply.charged ∧
    entry.reply.charged ≤ swiftSyncPartBytes ∧
    (0 < entry.reply.charged →
      entry.reply.status = 1 ∧ 0 ≤ entry.part ∧ entry.part < swiftSyncMaxParts)
  once : (((state.partReplies ledger).filter (0 < ·.reply.charged)).map (·.part)).Nodup

theorem hashGet_later {Key Field Value : Type} {now later : Nat}
    {keys : Keys Key (Field → Option Value)} {key : Key} {field : Field} {value : Value}
    (retained : (keys.live now key).isSome → (keys.live later key).isSome)
    (found : hashGet now keys key field = some value) : hashGet later keys key field = some value := by
  rw [hashGet, Keys.get] at found ⊢
  obtain ⟨fields, known, listed⟩ := Option.bind_eq_some_iff.mp found
  obtain ⟨entry, alive, rfl⟩ := Option.map_eq_some_iff.mp known
  obtain ⟨same, still⟩ := Option.isSome_iff_exists.mp (retained (by rw [alive]; rfl))
  have equal : same = entry := Option.some.inj
    ((Keys.live_eq_some.mp still).1.symm.trans (Keys.live_eq_some.mp alive).1)
  rw [still, equal]
  exact listed

/-- Only a script for a part writes to the ledgers of parts. -/
theorem IndexCharge.run_parts {now : Nat} {charge : IndexCharge} {ledgers : IndexLedgers}
    {ledger : PartLedgerKey}
    (elsewhere : ∀ key part token bytes limit, charge ≠ .part key ledger part token bytes limit) :
    (charge.run now ledgers).2.parts ledger = ledgers.parts ledger := by
  cases charge with
  | bytes key requested limit =>
    simp only [IndexCharge.run, chargeBytesScript]
    split <;> rfl
  | files key target limit entries =>
    simp only [IndexCharge.run, reserveFilesScript]
    split
    · rfl
    · split <;> rfl
  | part key target number token size limit =>
    refine swiftPartScript_of_ne fun same => ?_
    exact elsewhere key number token size limit (by rw [same])

theorem prepare_part {sha256 : String → String} {digest : List UInt8 → String} {config : QuotaConfig}
    {day : Nat} {answers : QuotaAnswers} {call : IndexQuotaCall} {key : QuotaKey}
    {ledger : PartLedgerKey} {part : Int} {token : String} {bytes limit : Int}
    (prepared : call.prepare sha256 digest config day answers =
      .ok (.part key ledger part token bytes limit)) :
    ∃ tenantID orgID tier rootID jobID data,
      call = .part tenantID orgID tier rootID jobID part data ∧ bytes = data.length := by
  cases call with
  | bytes =>
    simp only [IndexQuotaCall.prepare] at prepared
    split at prepared <;> cases prepared
  | files =>
    simp only [IndexQuotaCall.prepare] at prepared
    split at prepared
    · cases prepared
    · split at prepared <;> cases prepared
  | part tenantID orgID tier rootID jobID number data =>
    cases prepared
    exact ⟨tenantID, orgID, tier, rootID, jobID, data, rfl, rfl⟩

/-- What a run of a script leaves to be known about the parts of a ledger. -/
theorem partReply_run (now : Nat) (charge : IndexCharge) (heard : Bool) (ledgers : IndexLedgers)
    (ledger : PartLedgerKey) :
    (IndexRun.partReply ledger ⟨charge, (charge.run now ledgers).1, heard⟩ = none ∧
      (charge.run now ledgers).2.parts ledger = ledgers.parts ledger) ∨
    ∃ key part token bytes limit, charge = .part key ledger part token bytes limit := by
  by_cases mine : ∃ key part token bytes limit, charge = .part key ledger part token bytes limit
  · exact .inr mine
  · left
    have elsewhere : ∀ key part token bytes limit,
        charge ≠ .part key ledger part token bytes limit :=
      fun key part token bytes limit same => mine ⟨key, part, token, bytes, limit, same⟩
    refine ⟨?_, IndexCharge.run_parts elsewhere⟩
    cases charge with
    | bytes | files => rfl
    | part key target part token bytes limit =>
      refine if_neg fun same => elsewhere key part token bytes limit ?_
      rw [same]

section

variable {sha256 : String → String} {digest : List UInt8 → String} {config : QuotaConfig}
  {ledger : PartLedgerKey} {state : IndexQuotaState}

namespace PartsInvariant

theorem initial (clock : Nat) : PartsInvariant ledger (.initial clock) where
  checked call inFlight := absurd inFlight (Table.not_mem_empty call)
  marked _ member := absurd member List.not_mem_nil
  charged _ member := absurd member List.not_mem_nil
  once := List.nodup_nil

theorem tick (invariant : PartsInvariant ledger state) {elapsed : Nat}
    (retained : Retains ledger state (.tick elapsed)) :
    PartsInvariant ledger { state with clock := state.clock + elapsed } :=
  { invariant with
    marked := fun entry member allowed =>
      hashGet_later retained (invariant.marked entry member allowed) }

theorem check (invariant : PartsInvariant ledger state) {id : Nat} {call : IndexQuotaCall}
    {answers : QuotaAnswers} {charge : IndexCharge} {calls : Table PendingCharge.id}
    (fromUpload : (IndexQuotaEvent.check id call answers).FromUpload)
    (prepared : call.prepare sha256 digest config (config.day state.clock) answers = .ok charge)
    (inserted : state.calls.insert [{ id, charge }] = some calls) :
    PartsInvariant ledger { state with calls } := by
  refine { invariant with checked := ?_ }
  intro pending member key part token bytes limit same
  rcases (Table.mem_insert inserted).mp member with old | new
  · exact invariant.checked pending old key part token bytes limit same
  -- the new call is one that the upload has checked
  rw [List.mem_singleton.mp new] at same
  subst same
  obtain ⟨tenantID, orgID, tier, rootID, jobID, data, rfl, rfl⟩ := prepare_part prepared
  obtain ⟨args, swift, -, called⟩ := fromUpload
  simp only [SwiftPart.call, IndexQuotaCall.part.injEq, true_and] at called
  obtain ⟨-, -, rfl, rfl⟩ := called
  have sized := swift.sized
  exact ⟨swift.numbered, by omega, by omega⟩

/-- Calls that are left have been checked. -/
theorem left (invariant : PartsInvariant ledger state) {calls : Table PendingCharge.id}
    (left : ∀ call ∈ calls, ∃ old ∈ state.calls, old.charge = call.charge) :
    ∀ call ∈ calls, ∀ key part token bytes limit,
      call.charge = .part key ledger part token bytes limit →
        (0 ≤ part ∧ part < swiftSyncMaxParts) ∧ 0 < bytes ∧ bytes ≤ swiftSyncPartBytes := by
  intro call member key part token bytes limit charge
  obtain ⟨old, before, same⟩ := left call member
  exact invariant.checked old before key part token bytes limit (same.trans charge)

/-- One more reply, with an entry for it and all others as they were. -/
theorem reply (invariant : PartsInvariant ledger state) {call : PendingCharge}
    (inFlight : call ∈ state.calls) {key : QuotaKey} {part : Int} {token : String}
    {bytes limit : Int} (charge : call.charge = .part key ledger part token bytes limit)
    {after : IndexQuotaState} (clock : after.clock = state.clock)
    (calls : ∀ other ∈ after.calls, ∃ old ∈ state.calls, old.charge = other.charge)
    (replies : after.partReplies ledger =
      ⟨part, token, (swiftPartScript state.clock key ledger part token bytes limit state.ledgers).1⟩ ::
        state.partReplies ledger)
    (ledgers : after.ledgers =
      (swiftPartScript state.clock key ledger part token bytes limit state.ledgers).2) :
    PartsInvariant ledger after := by
  obtain ⟨numbered, positive, sized⟩ := invariant.checked call inFlight key part token bytes limit charge
  have cases := swiftPartScript_cases state.clock key ledger part token bytes limit state.ledgers
  refine ⟨invariant.left calls, ?_, ?_, ?_⟩
  · -- an entry that was there is not overwritten
    rw [replies, ledgers, clock]
    intro entry member allowed
    rw [hashGet_swiftPartScript]
    rcases List.mem_cons.mp member with rfl | old
    · rw [if_pos ⟨rfl, allowed⟩]
    · have marked := invariant.marked entry old allowed
      by_cases again : entry.part = part ∧
          (swiftPartScript state.clock key ledger part token bytes limit state.ledgers).1.status = 1
      · rw [if_pos again]
        rw [again.1] at marked
        rcases cases with ⟨previous, -, -, same⟩ | ⟨found, -⟩ | ⟨missing, -⟩ | ⟨missing, -⟩
        · have conflict := again.2
          rw [same] at conflict
          cases conflict
        · exact found.symm.trans marked
        · rw [missing] at marked
          cases marked
        · rw [missing] at marked
          cases marked
      · rw [if_neg again, marked]
  · rw [replies]
    refine List.forall_mem_cons.mpr ⟨?_, invariant.charged⟩
    rcases cases with ⟨previous, -, -, same⟩ | ⟨-, same⟩ | ⟨-, -, nothing, -⟩ | ⟨-, status, all, -⟩
    · rw [same]
      exact ⟨Int.le_refl _, Int.natCast_nonneg _, nofun⟩
    · rw [same]
      exact ⟨Int.le_refl _, Int.natCast_nonneg _, nofun⟩
    · rw [nothing]
      exact ⟨Int.le_refl _, Int.natCast_nonneg _, nofun⟩
    · rw [all]
      exact ⟨positive.le, sized, fun _ => ⟨status, numbered⟩⟩
  · rw [replies, List.filter_cons]
    split
    next billed =>
      -- it was charged, so that there was no entry for the part
      rw [List.map_cons, List.nodup_cons]
      refine ⟨fun listed => ?_, invariant.once⟩
      obtain ⟨entry, member, same⟩ := List.mem_map.mp listed
      obtain ⟨replied, earlier⟩ := List.mem_filter.mp member
      have allowed := (invariant.charged entry replied).2.2 (of_decide_eq_true earlier)
      have marked := invariant.marked entry replied allowed.1
      have charged := of_decide_eq_true billed
      rw [same] at marked
      dsimp only at marked charged
      rcases cases with ⟨previous, -, -, free⟩ | ⟨-, free⟩ | ⟨missing, -⟩ | ⟨missing, -⟩
      · rw [free] at charged
        cases charged
      · rw [free] at charged
        cases charged
      · rw [missing] at marked
        cases marked
      · rw [missing] at marked
        cases marked
    · exact invariant.once

theorem step (invariant : PartsInvariant ledger state) {event : IndexQuotaEvent}
    (fromUpload : event.FromUpload) (retained : Retains ledger state event) :
    PartsInvariant ledger (state.step sha256 digest config event) := by
  have stepped := state.stepped sha256 digest config event
  generalize state.step sha256 digest config event = after at stepped ⊢
  cases stepped with
  | ticked elapsed => exact invariant.tick retained
  | checked id call answers charge prepared calls inserted =>
    exact invariant.check fromUpload prepared inserted
  | moved _ outcomes calls left => exact { invariant with checked := invariant.left left }
  | ran _ call inFlight heard outcomes calls left =>
    rcases partReply_run state.clock call.charge heard state.ledgers ledger with
      ⟨silent, kept⟩ | ⟨key, part, token, bytes, limit, charge⟩
    · have replies : { state.run call heard with outcomes, calls }.partReplies ledger =
          state.partReplies ledger := by
        simp only [IndexQuotaState.partReplies, IndexQuotaState.run, List.filterMap_cons, silent]
      refine ⟨invariant.left left, ?_, ?_, ?_⟩
      · intro entry member allowed
        rw [replies] at member
        rw [← invariant.marked entry member allowed]
        simp only [hashGet, IndexQuotaState.run, Keys.get_congr kept]
      · rw [replies]
        exact invariant.charged
      · rw [replies]
        exact invariant.once
    · refine invariant.reply inFlight charge rfl left ?_ ?_
      · simp only [IndexQuotaState.partReplies, IndexQuotaState.run, List.filterMap_cons,
          IndexRun.partReply, charge, if_true, IndexCharge.run]
      · simp only [IndexQuotaState.run, charge, IndexCharge.run]

/-- At most so many parts are charged as there are numbers for parts. -/
theorem length_billed (invariant : PartsInvariant ledger state) :
    ((state.partReplies ledger).filter (0 < ·.reply.charged)).length ≤ swiftSyncMaxParts := by
  have inside : (((state.partReplies ledger).filter (0 < ·.reply.charged)).map (·.part)).toFinset ⊆
      Finset.Ico (0 : Int) swiftSyncMaxParts := by
    intro part member
    obtain ⟨entry, listed, rfl⟩ := List.mem_map.mp (List.mem_toFinset.mp member)
    obtain ⟨replied, billed⟩ := List.mem_filter.mp listed
    exact Finset.mem_Ico.mpr ((invariant.charged entry replied).2.2 (of_decide_eq_true billed)).2
  have count := Finset.card_le_card inside
  rw [List.toFinset_card_of_nodup invariant.once, List.length_map, Int.card_Ico] at count
  simpa using count

theorem partBytes_le (invariant : PartsInvariant ledger state) :
    state.partBytes ledger ≤ swiftSyncMaxParts * swiftSyncPartBytes := by
  have billed : ∀ replies : List PartReply,
      (∀ entry ∈ replies, 0 ≤ entry.reply.charged ∧ entry.reply.charged ≤ swiftSyncPartBytes) →
      (replies.map (·.reply.charged)).sum ≤
        (replies.filter (0 < ·.reply.charged)).length * swiftSyncPartBytes := by
    intro replies bounded
    induction replies with
    | nil => exact Int.le_refl _
    | cons entry rest ih =>
      rw [List.forall_mem_cons] at bounded
      have later := ih bounded.2
      rw [List.map_cons, List.sum_cons, List.filter_cons]
      by_cases positive : 0 < entry.reply.charged
      · rw [if_pos (decide_eq_true positive), List.length_cons]
        push_cast
        rw [Int.add_mul]
        omega
      · rw [if_neg (by simpa using positive)]
        omega
  have total := billed (state.partReplies ledger) fun entry member =>
    ⟨(invariant.charged entry member).1, (invariant.charged entry member).2.1⟩
  have count : (((state.partReplies ledger).filter (0 < ·.reply.charged)).length : Int) ≤
      swiftSyncMaxParts := Int.ofNat_le.mpr invariant.length_billed
  exact total.trans (Int.mul_le_mul_of_nonneg_right count (Int.natCast_nonneg _))

end PartsInvariant

end

/-! ### The result -/

/-- The ledger of an upload job. -/
def partLedger (sha256 : String → String) (tenantID rootID jobID : String) : PartLedgerKey :=
  { tenantID, identity := sha256 (rootID ++ "\x00" ++ jobID) }

def partToken (digest : List UInt8 → String) (data : List UInt8) : String :=
  digest data ++ ":" ++ toString data.length

/-- A token has one digest and one length: no digit is a colon. -/
theorem partToken_inj {digest : List UInt8 → String} {data other : List UInt8} :
    partToken digest data = partToken digest other ↔
      digest data = digest other ∧ data.length = other.length := by
  constructor
  · intro same
    have digits (n : Nat) : ∀ c ∈ (toString n).toList.reverse, (c != ':') = true := by
      intro c member
      have digit := isDigit_of_mem_toString (List.mem_reverse.mp member)
      refine bne_iff_ne.mpr ?_
      rintro rfl
      cases digit
    have chars := congrArg (fun text => text.toList.reverse) same
    simp only [partToken, String.toList_append, List.reverse_append] at chars
    -- what follows the last colon, and what comes before it
    have length := congrArg (List.takeWhile (· != ':')) chars
    have rest := congrArg (List.dropWhile (· != ':')) chars
    have colon : (":" : String).toList.reverse = [':'] := rfl
    simp only [colon, List.singleton_append, List.takeWhile_append_of_pos (digits _),
      List.takeWhile_cons, bne_self_eq_false, Bool.false_eq_true, if_false, List.append_nil,
      List.reverse_inj, String.toList_inj] at length
    simp only [colon, List.singleton_append, List.dropWhile_append_of_pos (digits _),
      List.dropWhile_cons, bne_self_eq_false, Bool.false_eq_true, if_false,
      List.cons.injEq, true_and, List.reverse_inj, String.toList_inj] at rest
    exact ⟨rest, toString_nat_injective length⟩
  · rintro ⟨same, size⟩
    rw [partToken, partToken, same, size]

/-- **Swift parts are immutable and charged once.** In any run of any calls, as long as the
ledger of an upload job is there: the job has been charged for its parts' sizes at most, and
once a part has been allowed, on whatever pool, under whatever limit and on whatever
day, a later call with that digest and length is allowed and charged nothing, and one with
another is a conflict and changes nothing, however often its request reaches Redis. -/
theorem swift_parts_charged_once (sha256 : String → String) (digest : List UInt8 → String)
    (config : QuotaConfig) (clock : Nat) {events : List IndexQuotaEvent}
    (tenantID rootID jobID : String) (fromUpload : ∀ event ∈ events, event.FromUpload)
    (retained : Along (IndexQuotaState.step sha256 digest config)
      (Retains (partLedger sha256 tenantID rootID jobID)) (.initial clock) events) :
    let reached := runFrom (IndexQuotaState.step sha256 digest config) (.initial clock) events
    let ledger := partLedger sha256 tenantID rootID jobID
    reached.partBytes ledger ≤ swiftSyncMaxParts * swiftSyncPartBytes ∧
    ∀ part data, reached.Reserved ledger part (partToken digest data) →
      ∀ orgID tier answers day later, ∃ charge,
        (IndexQuotaCall.part tenantID orgID tier rootID jobID part later).prepare sha256 digest config
          day answers = .ok charge ∧
        ∀ sendings,
        let ended := charge.send reached.clock sendings reached.ledgers
        (digest later = digest data ∧ later.length = data.length →
          (.heard ∈ sendings.take (redisMaxRetries + 1) →
            ended.1.decision.allowed = true ∧ ended.1.decision.charged = 0 ∧
            ended.1.conflict = false ∧ swiftAnswer config reached.clock ended.1 = none) ∧
          ended.2.counters = reached.ledgers.counters ∧ ended.2.files = reached.ledgers.files ∧
          ∀ number, hashGet reached.clock ended.2.parts ledger number =
            hashGet reached.clock reached.ledgers.parts ledger number) ∧
        (digest later ≠ digest data ∨ later.length ≠ data.length →
          (.heard ∈ sendings.take (redisMaxRetries + 1) → ended.1.conflict = true) ∧
          ended.1.decision.allowed = false ∧ ended.1.decision.charged = 0 ∧
          ended.2 = reached.ledgers) := by
  intro reached ledger
  have admitted : Along (IndexQuotaState.step sha256 digest config)
      (fun state event => event.FromUpload ∧ Retains ledger state event) (.initial clock) events :=
    along_and (along_of_forall fromUpload) retained
  have invariant : PartsInvariant ledger reached :=
    invariant_along (P := PartsInvariant ledger)
      (fun _ _ invariant both => invariant.step both.1 both.2) (.initial clock) events admitted
  refine ⟨invariant.partBytes_le, fun part data reserved orgID tier answers day later => ?_⟩
  obtain ⟨entry, member, rfl, token, allowed⟩ := reserved
  have marked := invariant.marked entry member allowed
  rw [token] at marked
  refine ⟨_, rfl, fun sendings => ?_⟩
  intro ended
  -- the same bytes find their own marker, other bytes find a foreign one
  refine ⟨fun same => ?_, fun differs => ?_⟩
  · have again : partToken digest later = partToken digest data := partToken_inj.mpr same
    rw [← again] at marked
    obtain ⟨kept, answer⟩ := send_again _ later.length _ sendings marked
    refine ⟨fun heard => ?_, kept⟩
    have told : ended.1 = _ := answer heard
    rw [swiftAnswer, told]
    exact ⟨rfl, rfl, rfl, rfl⟩
  · have other : partToken digest data ≠ partToken digest later := fun same => by
      have equal := partToken_inj.mp same
      exact differs.elim (· equal.1.symm) (· equal.2.symm)
    have sent : ended = _ := send_conflict _ later.length _ sendings marked other
    rw [sent]
    refine ⟨fun heard => ?_, ?_, ?_, rfl⟩
    · rw [if_pos heard]
      rfl
    · split <;> rfl
    · split <;> rfl

/-- The bytes themselves, in the place of their digest. -/
def plainDigest (data : List UInt8) : String :=
  String.ofList (data.map fun byte => Char.ofNat byte.toNat)

/-- A part that fills the pool, one second before midnight. -/
def lastSecond : List IndexQuotaEvent :=
  [.tick (16 * 60 * 60 * 1000 - 1000),
    .check 1 (.part "org" "" "free" "root" "aaaaaaaa-aaaa-4aaa-aaaa-aaaaaaaaaaaa" 0 [97, 98, 99]) {},
    .send 1 .heard, .tick 2000]

/-- After midnight the part is sent again, and once with another content. -/
theorem swift_parts_charged_once_midnight :
    let config : QuotaConfig := { smallQuota with dailyIndexBytesLimit := 3 }
    let reached := runFrom (IndexQuotaState.step id plainDigest config) (.initial 0) lastSecond
    let job := "aaaaaaaa-aaaa-4aaa-aaaa-aaaaaaaaaaaa"
    config.day reached.clock = 1 ∧
    (∃ charge, (IndexQuotaCall.part "org" "" "free" "root" job 0 [97, 98, 99]).prepare id plainDigest
        config 1 {} = .ok charge ∧
      (charge.send reached.clock [.heard] reached.ledgers).1.decision.charged = 0 ∧
      (charge.send reached.clock [.heard] reached.ledgers).1.decision.allowed = true) ∧
    ∃ charge, (IndexQuotaCall.part "org" "" "free" "root" job 0 [100]).prepare id plainDigest config 1
        {} = .ok charge ∧
      (charge.send reached.clock [.heard] reached.ledgers).1.conflict = true := by
  intro config reached job
  have fromUpload : ∀ event ∈ lastSecond, event.FromUpload := by
    simp only [lastSecond, List.forall_mem_cons]
    refine ⟨trivial, ⟨{ operation := .text "upload", data := .text "YWJj", jobID := .text job
                        part := .number 0, rootID := .text "root" },
      ⟨"root", job, 0, [97, 98, 99], by decide, by decide⟩, by decide +kernel, rfl⟩, trivial, trivial,
      List.forall_mem_nil _⟩
  have retained : Along (IndexQuotaState.step id plainDigest config)
      (Retains (partLedger id "org" "root" job)) (.initial 0) lastSecond :=
    by decide +kernel
  have found := (swift_parts_charged_once id plainDigest config 0 "org" "root" job fromUpload
    retained).2 0 [97, 98, 99] (by unfold IndexQuotaState.Reserved; decide +kernel) "" "free" {} 1
  refine ⟨by decide +kernel, ?_, ?_⟩
  · obtain ⟨charge, prepared, sent⟩ := found [97, 98, 99]
    have again := ((sent [.heard]).1 ⟨rfl, rfl⟩).1 (by decide)
    exact ⟨charge, prepared, again.2.1, again.1⟩
  · obtain ⟨charge, prepared, sent⟩ := found [100]
    exact ⟨charge, prepared, ((sent [.heard]).2 (.inr (by decide))).1 (by decide)⟩

end AcemcpRelay
