import AcemcpRelay.Properties.BytePool
import AcemcpRelay.Store.Once
import Mathlib.Algebra.Order.BigOperators.Group.List

/-!
# A content is charged once

`chargeIndexFiles` charges the files of a batch that the ledger of the root and the day does
not have yet. However a set of files is cut into batches, in whatever order and however
often they come, and however often their requests reach Redis, it is charged alike. What a
call is told is another matter: if the reply to the run that charges its files is lost, the
next run finds them charged.

## Proof strategy

One run of the script charges like a loop that charges its files one by one, without the
table of unseen tokens. A sequence of calls is then one such loop over all the files, and
what that leaves depends on the set of the files only.
-/
namespace AcemcpRelay

open Store

/-! ### Identities -/

/-- What a file is charged for. -/
structure FileIdentity where
  path : String
  hash : String
  bytes : Int
  deriving DecidableEq, Repr

def IndexQuotaFile.identity (file : IndexQuotaFile) : FileIdentity where
  path := normalizeIndexPath file.path
  hash := toLower (trimSpace file.hash)
  bytes := max file.bytes 0

def FileIdentity.token (sha256 : String → String) (identity : FileIdentity) : String :=
  sha256 (identity.path ++ "\x00" ++ identity.hash ++ "\x00" ++ toString identity.bytes)

/-- What the script is given of a file. -/
def FileIdentity.item (sha256 : String → String) (identity : FileIdentity) : String × Int :=
  (identity.token sha256, identity.bytes)

/-! ### The script -/

/-- `HSET` for each of the tokens that were collected. -/
def markAll (marked : String → Option Int) (unseen : List (String × Int)) : String → Option Int :=
  unseen.foldl (fun marked file => Function.update marked file.1 (some file.2)) marked

theorem markAll_eq_none {marked : String → Option Int} {unseen : List (String × Int)}
    {token : String} :
    markAll marked unseen token = none ↔
      unseen.all (·.1 != token) = true ∧ (marked token).isSome = false := by
  induction unseen generalizing marked with
  | nil => simp [markAll]
  | cons file rest ih =>
    change markAll (Function.update marked file.1 (some file.2)) rest token = none ↔ _
    rw [ih, List.all_cons]
    by_cases same : token = file.1
    · simp [same]
    · rw [Function.update_of_ne same]
      simp [Ne.symm same]

/-- The loop over the files collects what charging them one by one would charge. -/
theorem collectUnseen_chargeAll (marked : String → Option Int) (files unseen : List (String × Int))
    (newly total : Int) :
    (⟨markAll marked unseen, total + newly⟩ : Once String).chargeAll files =
      ⟨markAll marked
          (files.foldl (collectUnseen fun token => (marked token).isSome) (unseen, newly)).1,
        total +
          (files.foldl (collectUnseen fun token => (marked token).isSome) (unseen, newly)).2⟩ := by
  induction files generalizing unseen newly with
  | nil => rfl
  | cons file rest ih =>
    change ((⟨markAll marked unseen, total + newly⟩ : Once String).charge file).chargeAll rest = _
    rw [List.foldl_cons, Once.charge, collectUnseen]
    by_cases new : 0 < file.2 ∧ markAll marked unseen file.1 = none
    · rw [if_pos new, if_pos ⟨new.1, markAll_eq_none.mp new.2⟩, ← ih]
      simp only [markAll, List.foldl_append, List.foldl_cons, List.foldl_nil, Int.add_assoc]
    · rw [if_neg new, if_neg fun collected => new ⟨collected.1, markAll_eq_none.mpr collected.2⟩, ih]

/-- The counter of the pool and the ledger of the root, as they are until `deadline`. -/
structure LedgersStand (key : QuotaKey) (ledger : FileLedgerKey) (deadline : Nat) (used : Int)
    (once : Once String) (ledgers : IndexLedgers) : Prop where
  counter : ledgers.counters.Stands key deadline (used + once.total)
  files : ledgers.files.Keeps ledger deadline (fun _ => none) once.marked

section Script

variable {now deadline : Nat} {key : QuotaKey} {ledger : FileLedgerKey} {limit used : Int}
  {once : Once String} {ledgers : IndexLedgers}

theorem hashGet_of_keeps {marked : String → Option Int} {keys : Keys FileLedgerKey (String → Option Int)}
    (keeps : keys.Keeps ledger deadline (fun _ => none) marked) (early : now < deadline)
    (token : String) : hashGet now keys ledger token = marked token := by
  rw [← keeps.get early, hashGet]
  cases keys.get now ledger with
  | none => rfl
  | some _ => rfl

theorem keeps_hashSet {marked : String → Option Int} {keys : Keys FileLedgerKey (String → Option Int)}
    (keeps : keys.Keeps ledger deadline (fun _ => none) marked) (early : now < deadline)
    (unseen : List (String × Int)) :
    (unseen.foldl (fun keys file => hashSet now keys ledger file.1 file.2) keys).Keeps ledger deadline
      (fun _ => none) (markAll marked unseen) := by
  induction unseen generalizing marked keys with
  | nil => exact keeps
  | cons file rest ih =>
    refine ih ?_
    change (hashSet now keys ledger file.1 file.2).Keeps ledger deadline _ _
    rw [hashSet, keeps.get early]
    exact keeps.put early _

theorem reserveFilesScript_charges (stands : LedgersStand key ledger deadline used once ledgers)
    (early : now < deadline) (enough : deadline ≤ now + quotaRetention)
    (files : List (String × Int))
    (allowed : (reserveFilesScript now key ledger limit files ledgers).1.status = 1) :
    once.total + (reserveFilesScript now key ledger limit files ledgers).1.charged =
        (once.chargeAll files).total ∧
      LedgersStand key ledger deadline used (once.chargeAll files)
        (reserveFilesScript now key ledger limit files ledgers).2 := by
  have collected := collectUnseen_chargeAll once.marked files [] 0 once.total
  rw [Int.add_zero, show markAll once.marked [] = once.marked from rfl] at collected
  have same : (fun token => (hashGet now ledgers.files ledger token).isSome) =
      fun token => (once.marked token).isSome :=
    funext fun token => by rw [hashGet_of_keeps stands.files early]
  have nonneg := collected_nonneg (fun token => (once.marked token).isSome) files [] (Int.le_refl 0)
  unfold reserveFilesScript at allowed ⊢
  rw [same] at allowed ⊢
  rw [collected]
  dsimp only at allowed ⊢
  by_cases full : limit < ledgers.counters.counter now key +
      (files.foldl (collectUnseen fun token => (once.marked token).isSome) ([], 0)).2
  · rw [if_pos full] at allowed
    cases allowed
  rw [if_neg full]
  by_cases new : 0 < (files.foldl (collectUnseen fun token => (once.marked token).isSome) ([], 0)).2
  · rw [if_pos new]
    refine ⟨rfl, ?_, ?_⟩
    · have counted := stands.counter.incrBy early
        (files.foldl (collectUnseen fun token => (once.marked token).isSome) ([], 0)).2
      rw [Int.add_assoc] at counted
      dsimp only
      split
      · exact counted.expire enough
      · exact counted
    · have marked := keeps_hashSet stands.files early
        (files.foldl (collectUnseen fun token => (once.marked token).isSome) ([], 0)).1
      dsimp only
      split
      · exact marked.expire enough
      · exact marked
  · -- nothing was new, so that the ledger is as it was
    rw [if_neg new]
    have nothing := le_antisymm (Int.not_lt.mp new) nonneg
    have kept : once.chargeAll files = once := by
      refine Once.chargeAll_eq_self ?_
      rw [collected]
      dsimp only
      omega
    rw [← collected, kept]
    exact ⟨by dsimp only, stands⟩

end Script

/-! ### Calls -/

section

-- the hexadecimal digests of a text and of data
variable (sha256 : String → String) (digest : List UInt8 → String) (config : QuotaConfig)

/-- `chargeIndexFiles`. -/
def chargeIndexFiles (now : Nat) (answers : QuotaAnswers) (tenantID orgID tier rootID : String)
    (files : List IndexQuotaFile) (sendings : List Sending) (ledgers : IndexLedgers) :
    IndexQuotaDecision × IndexLedgers :=
  match IndexQuotaCall.prepare sha256 digest config (config.day now) answers
      (.files tenantID orgID tier rootID files) with
  | .error decision => (decision, ledgers)
  | .ok charge =>
    let (outcome, after) := charge.send now sendings ledgers
    (outcome.decision, after)

/-- A call for a tenant and a root that are given. -/
structure FilesCall where
  now : Nat
  answers : QuotaAnswers := {}
  orgID : String := ""
  tier : String := "free"
  files : List IndexQuotaFile
  /-- What becomes of its request to Redis, each time that it is sent. -/
  sendings : List Sending := [.heard]

/-- Calls one after the other: what they are told, and what they leave. -/
def chargeSequence (tenantID rootID : String) :
    List FilesCall → IndexLedgers → List IndexQuotaDecision × IndexLedgers
  | [], ledgers => ([], ledgers)
  | call :: rest, ledgers =>
    let (decision, after) := chargeIndexFiles sha256 digest config call.now call.answers tenantID
      call.orgID call.tier rootID call.files call.sendings ledgers
    let (decisions, last) := chargeSequence tenantID rootID rest after
    (decision :: decisions, last)

/-- The call charges the pool on the day, under a limit. -/
structure FilesCall.OnPool (tenantID poolID : String) (day : Nat) (call : FilesCall) : Prop where
  today : config.day call.now = day
  pool : (resolveIndexBytesQuota config call.answers tenantID call.orgID call.tier).poolID = poolID
  limited : 0 < (resolveIndexBytesQuota config call.answers tenantID call.orgID call.tier).limit

/-- The identities of the files of the calls. -/
def identities (calls : List FilesCall) : List FileIdentity :=
  calls.flatMap fun call => call.files.map (·.identity)

end

section

variable {sha256 : String → String} {digest : List UInt8 → String} {config : QuotaConfig}
  {tenantID rootID poolID : String} {day : Nat} {used : Int} {once : Once String}
  {ledgers : IndexLedgers}

/-- The ledgers of a tenant's root and its pool, until the end of the next day. -/
abbrev StandToday (sha256 : String → String) (config : QuotaConfig)
    (tenantID rootID poolID : String) (day : Nat) (used : Int) (once : Once String)
    (ledgers : IndexLedgers) : Prop :=
  LedgersStand (indexBytesKeyAt poolID day) ⟨tenantID, day, sha256 rootID⟩
    (config.deadline (indexBytesKeyAt poolID day)) used once ledgers

/-- A batch without bytes charges nothing. -/
theorem chargeAll_of_none {files : List IndexQuotaFile}
    (none : (files.map fun file => max file.bytes 0).sum ≤ 0) :
    once.chargeAll (files.map fun file => (file.identity.item sha256)) = once := by
  induction files generalizing once with
  | nil => rfl
  | cons file rest ih =>
    have later : 0 ≤ (rest.map fun file => max file.bytes 0).sum := by
      refine List.sum_nonneg fun bytes member => ?_
      obtain ⟨other, -, rfl⟩ := List.mem_map.mp member
      exact Int.le_max_right _ _
    rw [List.map_cons, List.sum_cons] at none
    have free : ¬ 0 < max file.bytes 0 := by omega
    have same : once.charge (file.identity.item sha256) = once := if_neg fun both => free both.1
    change (once.charge (file.identity.item sha256)).chargeAll _ = once
    rw [same]
    exact ih (by omega)

/-- The script, sent any number of times: a request that is allowed has charged its files once. -/
theorem send_charges {now : Nat} {key : QuotaKey} {ledger : FileLedgerKey} {limit : Int}
    {deadline : Nat} {files : List (String × Int)} {sendings : List Sending}
    (stands : LedgersStand key ledger deadline used once ledgers) (early : now < deadline)
    (enough : deadline ≤ now + quotaRetention)
    (allowed : ((IndexCharge.files key ledger limit files).send now sendings
      ledgers).1.decision.allowed = true) :
    LedgersStand key ledger deadline used (once.chargeAll files)
        ((IndexCharge.files key ledger limit files).send now sendings ledgers).2 ∧
      (.unheard ∉ sendings → once.total + ((IndexCharge.files key ledger limit files).send now
        sendings ledgers).1.decision.charged = (once.chargeAll files).total) := by
  -- before each run the files have been charged or not
  have kept : ∀ state, LedgersStand key ledger deadline used once state ∨
      LedgersStand key ledger deadline used (once.chargeAll files) state →
      LedgersStand key ledger deadline used once
          ((IndexCharge.files key ledger limit files).run now state).2 ∨
        LedgersStand key ledger deadline used (once.chargeAll files)
          ((IndexCharge.files key ledger limit files).run now state).2 := by
    intro state before
    by_cases passes : ((IndexCharge.files key ledger limit files).run now state).1.status = 1
    · rcases before with new | old
      · exact .inr (reserveFilesScript_charges new early enough files passes).2
      · have again := (reserveFilesScript_charges old early enough files passes).2
        rw [Once.chargeAll_chargeAll] at again
        exact .inr again
    · have spec := (IndexCharge.files key ledger limit files).run_spec now state
      rw [(spec.refused passes).1]
      exact before
  dsimp only [IndexCharge.send, redisEval] at allowed ⊢
  cases answered : (resend ((IndexCharge.files key ledger limit files).run now)
      (sendings.take (redisMaxRetries + 1)) ledgers).1 with
  | none =>
    rw [answered] at allowed
    cases allowed
  | some reply =>
    rw [answered] at allowed
    have granted : reply.status = 1 := of_decide_eq_true allowed
    obtain ⟨last, before, runs⟩ := resend_answer kept (.inl stands) answered
    have passes : ((IndexCharge.files key ledger limit files).run now last).1.status = 1 := by
      rw [runs]
      exact granted
    constructor
    · rw [show (resend _ _ ledgers).2 = ((IndexCharge.files key ledger limit files).run now last).2
        from (congrArg Prod.snd runs).symm]
      rcases before with new | old
      · exact (reserveFilesScript_charges new early enough files passes).2
      · have again := (reserveFilesScript_charges old early enough files passes).2
        rwa [Once.chargeAll_chargeAll] at again
    · intro unlost
      have few : Sending.unheard ∉ sendings.take (redisMaxRetries + 1) :=
        fun member => unlost (List.mem_of_mem_take member)
      rcases (resend_of_unlost few :
        resend ((IndexCharge.files key ledger limit files).run now) _ ledgers = _ ∨ _) with none | single
      · rw [none] at answered
        cases answered
      · rw [single] at answered
        cases answered
        exact (reserveFilesScript_charges stands early enough files granted).1

theorem chargeIndexFiles_charges {call : FilesCall}
    (stand : StandToday sha256 config tenantID rootID poolID day used once ledgers)
    (onPool : call.OnPool config tenantID poolID day)
    (allowed : (chargeIndexFiles sha256 digest config call.now call.answers tenantID call.orgID
      call.tier rootID call.files call.sendings ledgers).1.allowed = true) :
    StandToday sha256 config tenantID rootID poolID day used
      (once.chargeAll (call.files.map fun file => file.identity.item sha256))
      (chargeIndexFiles sha256 digest config call.now call.answers tenantID call.orgID
        call.tier rootID call.files call.sendings ledgers).2 ∧
    (.unheard ∉ call.sendings → once.total + (chargeIndexFiles sha256 digest config call.now
        call.answers tenantID call.orgID call.tier rootID call.files call.sendings ledgers).1.charged =
      (once.chargeAll (call.files.map fun file => file.identity.item sha256)).total) := by
  have early : call.now < config.deadline (indexBytesKeyAt poolID day) :=
    QuotaConfig.early_of_day (onPool.today.le.trans (Nat.le_succ _))
  have enough : config.deadline (indexBytesKeyAt poolID day) ≤ call.now + quotaRetention :=
    QuotaConfig.enough_of_day onPool.today.ge
  simp only [chargeIndexFiles, IndexQuotaCall.prepare, onPool.today] at allowed ⊢
  by_cases none : (call.files.map fun file => max file.bytes 0).sum ≤ 0
  · rw [chargeAll_of_none none]
    simp only [if_pos none]
    exact ⟨stand, fun _ => Int.add_zero _⟩
  · simp only [if_neg none, if_neg (Int.not_le.mpr onPool.limited), onPool.pool] at allowed ⊢
    exact send_charges stand early enough allowed

theorem chargeSequence_charges {calls : List FilesCall}
    (stand : StandToday sha256 config tenantID rootID poolID day used once ledgers)
    (onPool : ∀ call ∈ calls, call.OnPool config tenantID poolID day)
    (allowed : ∀ decision ∈ (chargeSequence sha256 digest config tenantID rootID calls ledgers).1,
      decision.allowed = true) :
    StandToday sha256 config tenantID rootID poolID day used
        (once.chargeAll ((identities calls).map (·.item sha256)))
        (chargeSequence sha256 digest config tenantID rootID calls ledgers).2 ∧
      ((∀ call ∈ calls, .unheard ∉ call.sendings) →
        once.total + ((chargeSequence sha256 digest config tenantID rootID calls ledgers).1.map
          (·.charged)).sum = (once.chargeAll ((identities calls).map (·.item sha256))).total) := by
  induction calls generalizing once ledgers with
  | nil => exact ⟨stand, fun _ => Int.add_zero _⟩
  | cons call rest ih =>
    simp only [chargeSequence, List.forall_mem_cons] at allowed onPool ⊢
    obtain ⟨stands, charged⟩ := chargeIndexFiles_charges stand onPool.1 allowed.1
    obtain ⟨last, later⟩ := ih stands onPool.2 allowed.2
    have split : (identities (call :: rest)).map (·.item sha256) =
        call.files.map (fun file => file.identity.item sha256) ++
          (identities rest).map (·.item sha256) := by
      simp [identities]
    rw [split, Once.chargeAll_append]
    refine ⟨last, fun unlost => ?_⟩
    rw [List.map_cons, List.sum_cons, ← later unlost.2, ← charged unlost.1, Int.add_assoc]

end

/-! ### The result -/

/-- The bytes of a set of identities. -/
def totalBytes (files : Finset FileIdentity) : Int := ∑ identity ∈ files with 0 < identity.bytes, identity.bytes

section

variable {sha256 : String → String} {files : List FileIdentity}

/-- Tokens of different identities differ. -/
def CollisionFree (sha256 : String → String) (files : List FileIdentity) : Prop :=
  ∀ identity ∈ files, ∀ other ∈ files, identity.token sha256 = other.token sha256 → identity = other

theorem CollisionFree.onePrice (free : CollisionFree sha256 files) :
    Once.OnePrice (files.map (·.item sha256)) := by
  intro item member other listed same
  obtain ⟨identity, inFiles, rfl⟩ := List.mem_map.mp member
  obtain ⟨another, alsoInFiles, rfl⟩ := List.mem_map.mp listed
  rw [free identity inFiles another alsoInFiles same]

theorem sum_billable (free : CollisionFree sha256 files) :
    ∑ item ∈ Once.billable (files.map (·.item sha256)), item.2 = totalBytes files.toFinset := by
  have image : Once.billable (files.map (·.item sha256)) =
      (files.toFinset.filter (0 < ·.bytes)).image (·.item sha256) := by
    ext item
    simp only [Once.mem_billable, List.mem_map, Finset.mem_image, Finset.mem_filter,
      List.mem_toFinset]
    constructor
    · rintro ⟨⟨identity, member, rfl⟩, positive⟩
      exact ⟨identity, ⟨member, positive⟩, rfl⟩
    · rintro ⟨identity, ⟨member, positive⟩, rfl⟩
      exact ⟨⟨identity, member, rfl⟩, positive⟩
  rw [image, Finset.sum_image, totalBytes]
  · rfl
  · intro identity member other listed same
    rw [Finset.mem_coe, Finset.mem_filter, List.mem_toFinset] at member listed
    exact free identity member.1 other listed.1 (congrArg Prod.fst same)

end

/-- **File charging is exactly-once and independent of batching.** Two sequences of calls for
one tenant, root, pool and day that mention the same identities, none of them refused, charge
the same, however often their requests reach Redis: the bytes of the distinct identities. A
sequence none of whose replies is lost is told so. The pool may have been used before, and the
ledger of the root is empty at first. -/
theorem file_charges_exactly_once (sha256 : String → String) (digest : List UInt8 → String)
    (config : QuotaConfig) {tenantID rootID poolID : String} {day : Nat} {used : Int}
    {ledgers : IndexLedgers} {calls others : List FilesCall}
    (counted : ledgers.counters.Stands (indexBytesKeyAt poolID day)
      (config.deadline (indexBytesKeyAt poolID day)) used)
    (fresh : ledgers.files ⟨tenantID, day, sha256 rootID⟩ = none)
    (onPool : ∀ call ∈ calls ++ others, call.OnPool config tenantID poolID day)
    (free : CollisionFree sha256 (identities calls ++ identities others))
    (allowed : ∀ decision ∈ (chargeSequence sha256 digest config tenantID rootID calls ledgers).1 ++
      (chargeSequence sha256 digest config tenantID rootID others ledgers).1,
      decision.allowed = true)
    (same : (identities calls).toFinset = (identities others).toFinset) :
    ∀ sequence ∈ [calls, others],
      let charged := chargeSequence sha256 digest config tenantID rootID sequence ledgers
      ((∀ call ∈ sequence, .unheard ∉ call.sendings) →
        (charged.1.map (·.charged)).sum = totalBytes (identities calls).toFinset) ∧
      ∀ now, config.day now = day →
        charged.2.counters.counter now (indexBytesKeyAt poolID day) =
          used + totalBytes (identities calls).toFinset ∧
        ∀ token bytes, hashGet now charged.2.files ⟨tenantID, day, sha256 rootID⟩ token = some bytes ↔
          ∃ identity ∈ identities calls, 0 < identity.bytes ∧ identity.token sha256 = token ∧
            identity.bytes = bytes := by
  have stand : StandToday sha256 config tenantID rootID poolID day used .empty ledgers := by
    refine ⟨by rw [Once.empty, Int.add_zero]; exact counted, ?_⟩
    rw [Keys.Keeps, fresh]
    rfl
  intro sequence listed charged
  -- what one sequence leaves, in terms of its own identities
  have pool : ∀ call ∈ sequence, call.OnPool config tenantID poolID day := by
    intro call member
    rcases List.mem_pair.mp listed with rfl | rfl
    · exact onPool call (List.mem_append_left _ member)
    · exact onPool call (List.mem_append_right _ member)
  have granted : ∀ decision ∈ charged.1, decision.allowed = true := by
    intro decision member
    rcases List.mem_pair.mp listed with rfl | rfl
    · exact allowed decision (List.mem_append_left _ member)
    · exact allowed decision (List.mem_append_right _ member)
  have apart : CollisionFree sha256 (identities sequence) := by
    intro identity member other inside
    rcases List.mem_pair.mp listed with rfl | rfl
    · exact free identity (List.mem_append_left _ member) other (List.mem_append_left _ inside)
    · exact free identity (List.mem_append_right _ member) other (List.mem_append_right _ inside)
  have mentioned : (identities sequence).toFinset = (identities calls).toFinset := by
    rcases List.mem_pair.mp listed with rfl | rfl
    · rfl
    · exact same.symm
  obtain ⟨stands, total⟩ := chargeSequence_charges stand pool granted
  have once := Once.charged_chargeAll apart.onePrice
  rw [once.total, sum_billable apart, mentioned, Once.empty, Int.zero_add] at total
  refine ⟨total, fun now today => ?_⟩
  have early : now < config.deadline (indexBytesKeyAt poolID day) :=
    QuotaConfig.early_of_day (today.le.trans (Nat.le_succ _))
  refine ⟨?_, fun token bytes => ?_⟩
  · rw [stands.counter.counter early, once.total, sum_billable apart, mentioned]
  · rw [hashGet_of_keeps stands.files early, once.marked, Once.mem_billable, List.mem_map]
    constructor
    · rintro ⟨⟨identity, member, item⟩, positive⟩
      obtain ⟨rfl, rfl⟩ := Prod.mk.inj item
      have inCalls := List.mem_toFinset.mpr member
      rw [mentioned, List.mem_toFinset] at inCalls
      exact ⟨identity, inCalls, positive, rfl, rfl⟩
    · rintro ⟨identity, member, positive, rfl, rfl⟩
      have inSequence := List.mem_toFinset.mpr member
      rw [← mentioned, List.mem_toFinset] at inSequence
      exact ⟨⟨identity, inSequence, rfl⟩, positive⟩

/-- Two files in two batches with a repetition, the first of which reaches Redis twice, and again
in one batch, in another spelling. -/
def twoBatches : List FilesCall :=
  [{ now := 1, files := [⟨"a.go", "A1", 3⟩], sendings := [.unheard, .heard] },
    { now := 2, files := [⟨"b.go", "b1", 4⟩, ⟨"a.go", "a1", 3⟩] }]

def oneBatch : List FilesCall :=
  [{ now := 5, files := [⟨"./b.go", "b1", 4⟩, ⟨"a.go", " a1", 3⟩, ⟨"a.go", "a1", 3⟩] }]

theorem file_charges_exactly_once_rebatched :
    let config : QuotaConfig := { smallQuota with dailyIndexBytesLimit := 100 }
    let charged := chargeSequence id (fun _ => "") config "u" "root" oneBatch ⟨.none, .none, .none⟩
    (charged.1.map (·.charged)).sum = 7 ∧
      charged.2.counters.counter 9 (indexBytesKeyAt "u" 0) = 7 := by
  intro config charged
  have pool : ∀ call ∈ twoBatches ++ oneBatch, call.OnPool config "u" "u" 0 := by
    simp only [twoBatches, oneBatch, List.cons_append, List.nil_append, List.forall_mem_cons]
    refine ⟨?_, ?_, ?_, List.forall_mem_nil _⟩
    all_goals exact ⟨by decide +kernel, by decide +kernel, by decide +kernel⟩
  have free : CollisionFree id (identities twoBatches ++ identities oneBatch) := by
    unfold CollisionFree
    decide +kernel
  have unused : (⟨.none, .none, .none⟩ : IndexLedgers).counters.Stands (indexBytesKeyAt "u" 0)
      (config.deadline (indexBytesKeyAt "u" 0)) 0 := Keys.stands_none
  have fresh : (⟨.none, .none, .none⟩ : IndexLedgers).files ⟨"u", 0, id "root"⟩ = none := rfl
  have found := file_charges_exactly_once id (fun _ => "") config unused fresh pool free
    (by decide +kernel) (by decide +kernel) oneBatch (List.mem_cons_of_mem _ List.mem_cons_self)
  have bytes : totalBytes (identities twoBatches).toFinset = 7 := by decide +kernel
  rw [bytes] at found
  exact ⟨found.1 (by decide +kernel), (found.2 9 (by decide +kernel)).1⟩

/-- The reply to the run that charges a file of sixty bytes is lost. The client sends the request
again, and the call is allowed and told of no charge. -/
theorem charged_of_lostFilesReply :
    let config : QuotaConfig := { smallQuota with dailyIndexBytesLimit := 100 }
    let charged := chargeIndexFiles id (fun _ => "") config 0 {} "u" "" "free" "root"
      [⟨"a.go", "a1", 60⟩] [.unheard, .heard] ⟨.none, .none, .none⟩
    charged.1 = { allowed := true, used := 60, limit := 100 } ∧
      charged.2.counters.counter 0 (indexBytesKeyAt "u" 0) = 60 := by
  decide +kernel

end AcemcpRelay
