import AcemcpRelay.Properties.BytePool

/-!
# A content that is sent again

`reserveFilesScript` looks up every file in the ledger of the root, adds the bytes of those
that are not there to the counter of the pool, and compares the sum with the limit. If all
files are there, the sum is the counter itself: the replay is free, and writes nothing, but
it passes only if the counter is within the limit. Other charges cannot lift the counter
above the limit they were made under, so a replay is refused only where the limit has been
lowered since, or where parts were charged while there was none.
-/
namespace AcemcpRelay

open Store

/-! ### The script -/

section

variable {now : Nat} {key : QuotaKey} {ledger : FileLedgerKey} {limit : Int}
  {ledgers : IndexLedgers}

theorem collectUnseen_of_seen {seen : String → Bool} {files : List (String × Int)}
    (known : ∀ file ∈ files, 0 < file.2 → seen file.1 = true)
    (collected : List (String × Int) × Int) :
    files.foldl (collectUnseen seen) collected = collected := by
  induction files generalizing collected with
  | nil => rfl
  | cons file files ih =>
    obtain ⟨first, rest⟩ := List.forall_mem_cons.mp known
    rw [List.foldl_cons, collectUnseen, if_neg, ih rest]
    rintro ⟨positive, -, unseen⟩
    rw [first positive] at unseen
    cases unseen

/-- Files that are in the ledger change nothing and cost nothing. -/
theorem reserveFilesScript_of_seen {files : List (String × Int)}
    (known : ∀ file ∈ files, 0 < file.2 → (hashGet now ledgers.files ledger file.1).isSome) :
    reserveFilesScript now key ledger limit files ledgers =
      (⟨if ledgers.counters.counter now key ≤ limit then 1 else 0,
        ledgers.counters.counter now key, 0⟩, ledgers) := by
  have nothing : files.foldl (collectUnseen fun token =>
      (hashGet now ledgers.files ledger token).isSome) ([], 0) = ([], 0) :=
    collectUnseen_of_seen known _
  simp only [reserveFilesScript, nothing, Int.add_zero, Int.lt_irrefl, if_false]
  by_cases within : ledgers.counters.counter now key ≤ limit
  · rw [if_neg (Int.not_lt.mpr within), if_pos within]
  · rw [if_pos (Int.not_le.mp within), if_neg within]

end

/-! ### Runs -/

section

variable {sha256 : String → String} {digest : List UInt8 → String} {config : QuotaConfig}

/-- What was charged to the counter was charged under a limit, and none above the bound. -/
def IndexQuotaState.LimitedBy (state : IndexQuotaState) (key : QuotaKey) (bound : Int) : Prop :=
  ∀ run ∈ state.runs, run.charge.key = key → 0 < run.charge.limit ∧ run.charge.limit ≤ bound

instance (state : IndexQuotaState) (key : QuotaKey) (bound : Int) :
    Decidable (state.LimitedBy key bound) :=
  inferInstanceAs (Decidable (∀ run ∈ state.runs, run.charge.key = key →
    0 < run.charge.limit ∧ run.charge.limit ≤ bound))

/-- A counter stays within the limits that it was charged under. -/
def IndexQuotaState.Within (state : IndexQuotaState) : Prop :=
  ∀ key bound, 0 ≤ bound → state.LimitedBy key bound →
    state.ledgers.counters.counter state.clock key ≤ bound

theorem IndexCharge.run_le {now : Nat} {charge : IndexCharge} {ledgers : IndexLedgers}
    {bound : Int} (before : ledgers.counters.counter now charge.key ≤ bound)
    (limited : 0 < charge.limit) (bounded : charge.limit ≤ bound) :
    (charge.run now ledgers).2.counters.counter now charge.key ≤ bound := by
  have spec := charge.run_spec now ledgers
  by_cases allowed : (charge.run now ledgers).1.status = 1
  · by_cases positive : 0 < (charge.run now ledgers).1.charged
    · exact Int.le_trans (spec.within allowed limited positive) bounded
    · rw [spec.counted]
      omega
  · rw [(spec.refused allowed).1]
    exact before

theorem IndexQuotaState.Within.step {state : IndexQuotaState} (within : state.Within)
    (event : IndexQuotaEvent) : (state.step sha256 digest config event).Within := by
  intro key bound nonneg limited
  have stepped := state.stepped sha256 digest config event
  generalize state.step sha256 digest config event = after at stepped limited ⊢
  cases stepped with
  | ticked elapsed =>
    rcases Keys.counter_later (Nat.le_add_right state.clock elapsed) with same | gone
    · exact same ▸ within key bound nonneg limited
    · exact gone ▸ nonneg
  | checked | moved => exact within key bound nonneg limited
  | ran _ call =>
    obtain ⟨own, earlier⟩ := List.forall_mem_cons.mp limited
    have before := within key bound nonneg earlier
    by_cases here : call.charge.key = key
    · subst here
      obtain ⟨positive, bounded⟩ := own rfl
      exact IndexCharge.run_le before positive bounded
    · have spec := call.charge.run_spec state.clock state.ledgers
      rw [← Keys.counter_congr (spec.others key (Ne.symm here))] at before
      exact before

theorem IndexQuotaState.within_run (clock : Nat) (events : List IndexQuotaEvent) :
    (runFrom (IndexQuotaState.step sha256 digest config) (.initial clock) events).Within := by
  have initial : (IndexQuotaState.initial clock).Within := fun _ _ nonneg _ => nonneg
  exact invariant_run (P := IndexQuotaState.Within) (fun _ event within => within.step event)
    initial events

/-- The script of a call of `chargeIndexFiles`. -/
theorem prepare_files {tenantID orgID tier rootID : String} {listed : List IndexQuotaFile}
    {day : Nat} {answers : QuotaAnswers} {charge : IndexCharge}
    (prepared : (IndexQuotaCall.files tenantID orgID tier rootID listed).prepare sha256 digest config
      day answers = .ok charge) :
    0 < charge.limit ∧ charge = .files charge.key { tenantID, day, rootDigest := sha256 rootID }
      charge.limit (listed.map fun file => (fileToken sha256 file, max file.bytes 0)) := by
  simp only [IndexQuotaCall.prepare] at prepared
  split at prepared
  · cases prepared
  · split at prepared
    · cases prepared
    next limited =>
      cases prepared
      exact ⟨Int.not_le.mp limited, rfl⟩

/-- A call that needs no script, although there is a limit, has nothing to charge. -/
theorem prepare_files_free {tenantID orgID tier rootID : String} {listed : List IndexQuotaFile}
    {day : Nat} {answers : QuotaAnswers} {decision : IndexQuotaDecision}
    (prepared : (IndexQuotaCall.files tenantID orgID tier rootID listed).prepare sha256 digest config
      day answers = .error decision) (limited : 0 < decision.limit) :
    decision.allowed = true ∧ decision.charged = 0 := by
  simp only [IndexQuotaCall.prepare] at prepared
  split at prepared
  · cases prepared
    exact ⟨rfl, rfl⟩
  · split at prepared
    next unlimited =>
      cases prepared
      exact absurd limited (Int.not_lt.mpr unlimited)
    · cases prepared

end

/-- Each file with bytes is in the ledger of the root and the day. -/
def IndexQuotaState.HasCharged (state : IndexQuotaState) (sha256 : String → String)
    (tenantID rootID : String) (day : Nat) (files : List IndexQuotaFile) : Prop :=
  ∀ file ∈ files, 0 < file.bytes →
    (hashGet state.clock state.ledgers.files { tenantID, day, rootDigest := sha256 rootID }
      (fileToken sha256 file)).isSome

instance (state : IndexQuotaState) (sha256 : String → String) (tenantID rootID : String) (day : Nat)
    (files : List IndexQuotaFile) :
    Decidable (state.HasCharged sha256 tenantID rootID day files) :=
  inferInstanceAs (Decidable (∀ file ∈ files, 0 < file.bytes → Option.isSome _ = true))

/-- In every run: files that have been charged are never charged again, and sending them
again, however often, changes nothing. A call that is answered is allowed if and only if the
counter of the pool is not above the limit that the call has read; it is within it if no charge
was made without a limit or under a higher one. -/
theorem charged_files_replayed (sha256 : String → String) (digest : List UInt8 → String)
    (config : QuotaConfig) (clock : Nat) (events : List IndexQuotaEvent)
    (tenantID orgID tier rootID : String) (files : List IndexQuotaFile) (day : Nat)
    (answers : QuotaAnswers) :
    let reached := runFrom (IndexQuotaState.step sha256 digest config) (.initial clock) events
    let prepared := (IndexQuotaCall.files tenantID orgID tier rootID files).prepare sha256 digest
      config day answers
    (∀ decision, prepared = .error decision → 0 < decision.limit →
      decision.allowed = true ∧ decision.charged = 0) ∧
    (∀ charge, prepared = .ok charge → reached.HasCharged sha256 tenantID rootID day files →
      let used := reached.ledgers.counters.counter reached.clock charge.key
      (∀ sendings,
        let ended := charge.send reached.clock sendings reached.ledgers
        ended.2 = reached.ledgers ∧ ended.1.decision.charged = 0 ∧
          (.heard ∈ sendings.take (redisMaxRetries + 1) →
            (ended.1.decision.allowed = true ↔ used ≤ charge.limit))) ∧
      (reached.LimitedBy charge.key charge.limit → used ≤ charge.limit)) := by
  intro reached prepared
  refine ⟨fun decision => prepare_files_free, ?_⟩
  intro charge script known used
  obtain ⟨limited, shape⟩ := prepare_files script
  have inLedger : ∀ entry ∈ files.map fun file => (fileToken sha256 file, max file.bytes 0),
      0 < entry.2 → (hashGet reached.clock reached.ledgers.files
        { tenantID, day, rootDigest := sha256 rootID } entry.1).isSome := by
    intro entry listed positive
    obtain ⟨file, member, rfl⟩ := List.mem_map.mp listed
    exact known file member (by dsimp only at positive; omega)
  have run : charge.run reached.clock reached.ledgers =
      (⟨if used ≤ charge.limit then 1 else 0, used, 0⟩, reached.ledgers) := by
    rw [shape]
    exact reserveFilesScript_of_seen inLedger
  constructor
  · intro sendings ended
    have quiet : (charge.run reached.clock reached.ledgers).2 = reached.ledgers := by rw [run]
    have sent : ended = (charge.outcome (if .heard ∈ sendings.take (redisMaxRetries + 1)
        then some ⟨if used ≤ charge.limit then 1 else 0, used, 0⟩ else none), reached.ledgers) := by
      dsimp only [ended, IndexCharge.send, redisEval]
      rw [resend_of_quiet quiet, run]
    rw [sent]
    refine ⟨rfl, ?_, fun heard => ?_⟩
    · split <;> rfl
    · rw [if_pos heard]
      dsimp only [IndexCharge.outcome]
      split
      next within => simpa using within
      next above => simpa using above
  · exact IndexQuotaState.within_run clock events charge.key charge.limit (Int.le_of_lt limited)

/-- A file is charged under the limit of the tier. -/
def firstUpload : List IndexQuotaEvent :=
  [.check 1 (.files "u" "" "free" "root" [⟨"a.go", "a1", 60⟩]) {}, .send 1 .heard]

theorem charged_files_replayed_raised :
    let config : QuotaConfig := { smallQuota with dailyIndexBytesLimit := 100 }
    let reached := runFrom (IndexQuotaState.step id (fun _ => "") config) (.initial 0) firstUpload
    let charge : IndexCharge := .files (indexBytesKeyAt "u" 0) ⟨"u", 0, "root"⟩ 150
      [(fileToken id ⟨"a.go", "a1", 60⟩, 60)]
    (charge.send reached.clock [.unheard, .heard] reached.ledgers).1.decision.allowed = true := by
  intro config reached charge
  have replayed := (charged_files_replayed id (fun _ => "") config 0 firstUpload "u" "" "free" "root"
    [⟨"a.go", "a1", 60⟩] 0 { userLimit := some 150 }).2 charge (by decide +kernel)
    (by decide +kernel)
  exact ((replayed.1 [.unheard, .heard]).2.2 (by decide)).mpr (replayed.2 (by decide +kernel))

/-- A file that is sent again after the limit was lowered below what has been used. -/
theorem charged_files_refused :
    let config : QuotaConfig := { smallQuota with dailyIndexBytesLimit := 100 }
    let again : IndexQuotaCall := .files "u" "" "free" "root" [⟨"a.go", "a1", 60⟩]
    let before := runFrom (IndexQuotaState.step id (fun _ => "") config) (.initial 0)
      (firstUpload ++ [.check 2 again { userLimit := some 50 }])
    let after := before.step id (fun _ => "") config (.send 2 .heard)
    before.HasCharged id "u" "root" 0 [⟨"a.go", "a1", 60⟩] ∧
      after.outcomes.head?.map (·.decision) = some { used := 60, limit := 50 } := by
  decide +kernel

end AcemcpRelay
