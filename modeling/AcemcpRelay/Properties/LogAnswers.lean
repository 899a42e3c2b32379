import AcemcpRelay.Properties.LogLife

/-!
# What a handler has recorded

A handler whose completion was acknowledged has its status code, its duration and its error
detail in the log. The reconciler looks at pending logs only, an insertion that commits late
meets the identifier, and the cascade of a clear-index call takes details with their log: so
nothing but another completion of the same request changes what was recorded, before the
shutdown and after it.
-/
namespace AcemcpRelay

open Store

namespace LogSystem

variable {system : LogSystem} {write : LogWrite}

/-- The log carries what a handler has handed over for it. -/
def AnsweredBy (system : LogSystem) (row : RequestLog) : Prop :=
  row.status = .completed ∧ ∃ entry detail, .complete entry detail ∈ system.admitted ∧
    entry.logID = row.id ∧ row.statusCode = some entry.statusCode ∧
    row.responseDurationMs = some entry.responseDuration

/-- The completion is in its log, with its detail, or the log has been cleared since. -/
def Recorded (system : LogSystem) (entry : RequestLogEntry)
    (detail : Option RequestLogErrorDetail) : Prop :=
  (∃ row ∈ system.tables.requestLogs, row.id = entry.logID ∧ system.AnsweredBy row ∧
    ∀ added ∈ detail.filter (·.message ≠ ""),
      ⟨entry.logID, added.source, added.message⟩ ∈ system.tables.errorDetails) ∨
  ∃ row ∈ system.cleared, row.id = entry.logID ∧ system.AnsweredBy row

section

variable {entry : RequestLogEntry} {detail : Option RequestLogErrorDetail} {row : RequestLog}

theorem answeredBy_completeLog (admitted : .complete entry detail ∈ system.admitted)
    (named : row.id = entry.logID) : system.AnsweredBy (LogTables.completeLog entry row) :=
  ⟨rfl, entry, detail, admitted, named.symm, rfl, rfl⟩

namespace Recorded

theorem mono (recorded : system.Recorded entry detail) {after : LogSystem}
    (tables : after.tables = system.tables) (cleared : after.cleared = system.cleared)
    (admitted : ∀ write ∈ system.admitted, write ∈ after.admitted) :
    after.Recorded entry detail := by
  have still {row : RequestLog} (answered : system.AnsweredBy row) : after.AnsweredBy row := by
    obtain ⟨completed, own, added, handed, same⟩ := answered
    exact ⟨completed, own, added, admitted _ handed, same⟩
  rcases recorded with ⟨row, stored, named, answered, details⟩ | ⟨row, gone, named, answered⟩
  · refine .inl ⟨row, tables ▸ stored, named, still answered, ?_⟩
    rw [tables]
    exact details
  · exact .inr ⟨row, cleared ▸ gone, named, still answered⟩

/-- Another statement that was admitted: it may complete the log once more, and no statement
takes a detail away. -/
theorem commit (recorded : system.Recorded entry detail) {write : LogWrite}
    (admitted : write ∈ system.admitted) : (system.commit write).Recorded entry detail := by
  rcases recorded with ⟨row, stored, named, answered, details⟩ | ⟨row, gone, named, answered⟩
  · left
    unfold LogSystem.commit
    split
    next found tables ran =>
      cases LogTables.executed ran with
      | inserted added after members same =>
        refine ⟨row, (members row).mpr (.inl stored), named, answered, ?_⟩
        dsimp only
        rw [same]
        exact details
      | console | missing => exact ⟨row, stored, named, answered, details⟩
      | recorded other more after rows own appended =>
        obtain ⟨new, kept, completed⟩ := rows.target row stored
        refine ⟨new, kept, completed.change.id.trans named, ?_, fun added listed => ?_⟩
        · rcases completed with rfl | ⟨same, rfl⟩
          · exact answered
          · exact answeredBy_completeLog admitted same
        · dsimp only
          rw [appended]
          exact List.mem_append_right _ (details added listed)
    · exact ⟨row, stored, named, answered, details⟩
  · refine .inr ⟨row, by simpa using gone, named, ?_⟩
    simpa [AnsweredBy] using answered

/-- The write itself. -/
theorem of_answer (admitted : .complete entry detail ∈ system.admitted) (named : entry.logID ≠ "")
    (told : system.answer (.complete entry detail) = .done) :
    (system.commit (.complete entry detail)).Recorded entry detail := by
  unfold LogSystem.answer at told
  unfold LogSystem.commit
  split at told
  next tables ran =>
    rw [ran]
    cases LogTables.executed ran with
    | console _ _ unnamed => exact absurd unnamed named
    | recorded _ _ _ rows own details =>
      obtain ⟨row, -, same, kept⟩ := own
      refine .inl ⟨_, kept, same, answeredBy_completeLog admitted same, fun added listed => ?_⟩
      dsimp only
      rw [details]
      refine List.mem_append_left _ (List.mem_map.mpr ⟨added, ?_, rfl⟩)
      exact Option.mem_toList.mpr listed
  · cases told
  · cases told

/-- The reconciler looks at pending logs only. -/
theorem reconcile (recorded : system.Recorded entry detail) (now : Nat) :
    { system with tables := system.tables.reconcileStaleRequestLogs now }.Recorded entry detail := by
  rcases recorded with ⟨row, stored, named, answered, details⟩ | ⟨row, gone, named, answered⟩
  · refine .inl ⟨row, Table.mem_update_of_not stored ?_, named, answered, details⟩
    simp [answered.1]
  · exact .inr ⟨row, gone, named, answered⟩

theorem clear (recorded : system.Recorded entry detail) (userID : String) (startTime : Nat) :
    (system.clear userID startTime).Recorded entry detail := by
  rcases recorded with ⟨row, stored, named, answered, details⟩ | ⟨row, gone, named, answered⟩
  · cases selected : LogTables.clearable userID startTime row with
    | true =>
      have listed := Table.mem_select.mpr ⟨stored, selected⟩
      exact .inr ⟨row, List.mem_append_left _ listed, named, answered⟩
    | false =>
      refine .inl ⟨row, Table.mem_delete.mpr ⟨stored, selected⟩, named, answered, ?_⟩
      intro added listed
      refine List.mem_filter.mpr ⟨details added listed, ?_⟩
      -- the only log with this id stays
      rw [Bool.not_eq_true', Table.holds_eq_false]
      intro other present
      by_cases same : other.id = entry.logID
      · have equal : other = row := Table.eq_of_key_eq present stored (same.trans named.symm)
        simp [equal, selected]
      · simp [same]
  · exact .inr ⟨row, List.mem_append_right _ gone, named, answered⟩

end Recorded

end

/-- What handlers have been told that they recorded is recorded. -/
def KeepsAnswers (system : LogSystem) : Prop :=
  ∀ entry detail, ⟨.complete entry detail, .done⟩ ∈ system.ended → entry.logID ≠ "" →
    system.Recorded entry detail

namespace KeepsAnswers

theorem run (keeps : system.KeepsAnswers) (write : LogWrite) : (system.run write).KeepsAnswers := by
  intro entry detail listed named
  rcases Sound.run_cases write system with ⟨-, refused⟩ | ⟨-, admitted⟩
  · rw [refused] at listed ⊢
    exact keeps entry detail listed named
  · rw [admitted] at listed ⊢
    exact (keeps entry detail listed named).mono rfl rfl fun _ old => List.mem_cons_of_mem _ old

theorem perform (keeps : system.KeepsAnswers) (admitted : write ∈ system.admitted)
    (outcome : WriteOutcome) : (system.perform write outcome).KeepsAnswers := by
  cases outcome with
  | failed =>
    intro entry detail listed named
    rcases List.mem_cons.mp listed with impossible | old
    · cases impossible
    · exact (keeps entry detail old named).mono rfl rfl fun _ same => same
  | unanswered =>
    simp only [LogSystem.perform]
    split
    · exact fun entry detail listed named => (keeps entry detail listed named).mono rfl rfl fun _ same => same
    · exact keeps
  | reached =>
    simp only [LogSystem.perform]
    split
    · intro entry detail listed named
      have after : (system.commit write).Recorded entry detail := by
        rcases List.mem_cons.mp listed with own | old
        · obtain ⟨rfl, told⟩ := EndedWrite.mk.inj own
          exact .of_answer admitted named told.symm
        · rw [commit_ended] at old
          exact (keeps entry detail old named).commit admitted
      exact after.mono rfl rfl fun _ same => same
    · exact keeps

theorem step (keeps : system.KeepsAnswers) (sound : Sound system) (event : RequestLogEvent) :
    (system.step event).KeepsAnswers := by
  cases event with
  | tick | close =>
    exact fun entry detail listed named => (keeps entry detail listed named).mono rfl rfl fun _ same => same
  | arrive elapsed logID userID tenantID path method clientIP =>
    simp only [LogSystem.step]
    split
    · exact keeps
    · intro entry detail listed named
      have handed := keeps.run
        (.insert (newLog logID userID tenantID path method clientIP (system.clock - elapsed)))
      exact (handed entry detail listed named).mono rfl rfl fun _ same => same
  | respond => exact keeps.run _
  | perform write outcome =>
    simp only [LogSystem.step]
    split
    next active => exact keeps.perform (sound.active_admitted active) outcome
    · exact keeps
  | land write =>
    simp only [LogSystem.step]
    split
    next late =>
      intro entry detail listed named
      dsimp only at listed
      rw [commit_ended] at listed
      have after := (keeps entry detail listed named).commit (sound.adrift write late)
      exact after.mono rfl rfl fun _ same => same
    · exact keeps
  | reconcile waited =>
    exact fun entry detail listed named => (keeps entry detail listed named).reconcile _
  | clear userID elapsed =>
    exact fun entry detail listed named => (keeps entry detail listed named).clear userID _

end KeepsAnswers

theorem ended_step {ended : EndedWrite} (listed : ended ∈ system.ended) (event : RequestLogEvent) :
    ended ∈ (system.step event).ended := by
  cases event with
  | tick | respond | reconcile | clear | close => exact listed
  | arrive =>
    simp only [step]
    split <;> exact listed
  | perform write outcome =>
    simp only [step]
    split
    · cases outcome with
      | failed => exact List.mem_cons_of_mem _ listed
      | reached | unanswered =>
        simp only [perform]
        split
        · simp [finish, listed]
        · exact listed
    · exact listed
  | land write =>
    simp only [step]
    split
    · simpa using listed
    · exact listed

/-! ### Shutdown -/

/-- What may have become of a log after the shutdown: the reconciler has ended it while it was
pending, or a completion that was adrift has reached it. -/
structure LateChange (adrift : List LogWrite) (old new : RequestLog) : Prop where
  change : LogChange old new
  code : new.statusCode = old.statusCode ∨ (old.status = .pending ∧ new.statusCode = some 499) ∨
    ∃ entry detail, .complete entry detail ∈ adrift ∧ entry.logID = new.id ∧
      new.statusCode = some entry.statusCode

theorem LateChange.refl (adrift : List LogWrite) (row : RequestLog) : LateChange adrift row row :=
  ⟨.refl row, .inl rfl⟩

theorem LateChange.trans {adrift : List LogWrite} {a b c : RequestLog}
    (first : LateChange adrift a b) (second : LateChange adrift b c) : LateChange adrift a c where
  change := first.change.trans second.change
  code := by
    rcases second.code with same | ⟨pending, code⟩ | late
    · rw [same]
      rcases first.code with before | reconciled | ⟨entry, detail, adrift, named, code⟩
      · exact .inl before
      · exact .inr (.inl reconciled)
      · exact .inr (.inr ⟨entry, detail, adrift, named.trans second.change.id.symm, code⟩)
    · -- what is pending now was pending at the shutdown
      refine .inr (.inl ⟨?_, code⟩)
      cases before : a.status with
      | pending => rfl
      | completed =>
        rw [first.change.completed before] at pending
        cases pending
    · exact .inr (.inr late)

/-- What can have happened since the shutdown. -/
structure Quiet (start system : LogSystem) : Prop where
  drained : system.Drained
  admitted : system.admitted = start.admitted
  ended : system.ended = start.ended
  adrift : ∀ write ∈ system.adrift, write ∈ start.adrift
  rows : ∀ row ∈ system.tables.requestLogs, ∃ origin,
    (origin ∈ start.tables.requestLogs ∨ .insert origin ∈ start.adrift) ∧
      LateChange start.adrift origin row
  details : ∀ stored ∈ system.tables.errorDetails, stored ∈ start.tables.errorDetails ∨
    ∃ entry detail, .complete entry detail ∈ start.adrift ∧ entry.logID = stored.requestID

namespace Quiet

variable {start : LogSystem}

theorem initial (drained : start.Drained) : Quiet start start where
  drained
  admitted := rfl
  ended := rfl
  adrift _ listed := listed
  rows row stored := ⟨row, .inl stored, .refl _ row⟩
  details _ listed := .inl listed

theorem traced (quiet : Quiet start system) {tables : LogTables}
    (rows : Table.Traces (LateChange start.adrift) system.tables.requestLogs tables.requestLogs)
    (row : RequestLog) (stored : row ∈ tables.requestLogs) :
    ∃ origin, (origin ∈ start.tables.requestLogs ∨ .insert origin ∈ start.adrift) ∧
      LateChange start.adrift origin row := by
  obtain ⟨old, present, change⟩ := rows row stored
  obtain ⟨origin, source, before⟩ := quiet.rows old present
  exact ⟨origin, source, before.trans change⟩

theorem commit (quiet : Quiet start system) (late : write ∈ start.adrift) :
    Quiet start (system.commit write) := by
  unfold LogSystem.commit
  split
  next found tables ran =>
    cases LogTables.executed ran with
    | inserted added after members same =>
      refine { quiet with rows := ?_, details := ?_ }
      · intro row stored
        rcases (members row).mp stored with old | rfl
        · exact quiet.rows row old
        · exact ⟨row, .inr late, .refl _ row⟩
      · intro detail listed
        rw [same] at listed
        exact quiet.details detail listed
    | console | missing => exact quiet
    | recorded entry detail after rows own appended =>
      refine { quiet with rows := quiet.traced fun row stored => ?_, details := ?_ }
      · obtain ⟨old, present, completed⟩ := rows.source row stored
        refine ⟨old, present, completed.change, ?_⟩
        rcases completed with rfl | ⟨named, rfl⟩
        · exact .inl rfl
        · exact .inr (.inr ⟨entry, detail, late, named.symm, rfl⟩)
      · intro stored listed
        rw [appended] at listed
        rcases List.mem_append.mp listed with new | old
        · obtain ⟨added, -, rfl⟩ := List.mem_map.mp new
          exact .inr ⟨entry, detail, late, rfl⟩
        · exact quiet.details stored old
  · exact quiet

theorem step (quiet : Quiet start system) (event : RequestLogEvent) :
    Quiet start (system.step event) := by
  obtain ⟨closed, idle⟩ := quiet.drained
  have refused (write : LogWrite) : system.run write = system := by
    rcases Sound.run_cases write system with ⟨-, same⟩ | ⟨opened, -⟩
    · exact same
    · rw [closed] at opened
      cases opened
  cases event with
  | tick elapsed => exact { quiet with }
  | arrive elapsed logID userID tenantID path method clientIP =>
    simp only [LogSystem.step]
    split
    · exact quiet
    · simp only [LogSystem.arrive, refused]
      exact { quiet with }
  | respond logID statusCode metricsPath detail =>
    simp only [LogSystem.step, LogSystem.respond, refused]
    exact quiet
  | perform write outcome =>
    simp only [LogSystem.step, idle, List.not_mem_nil, if_false]
    exact quiet
  | land write =>
    simp only [LogSystem.step]
    split
    next late =>
      refine { quiet.commit (quiet.adrift write late) with adrift := fun other listed => ?_ }
      exact quiet.adrift other (List.mem_of_mem_erase listed)
    · exact quiet
  | reconcile waited =>
    refine { quiet with rows := quiet.traced ?_ }
    apply Table.traces_update fun row => .refl _ row
    intro row _ stale
    have pending := (Bool.and_eq_true _ _ ▸ stale).1
    exact ⟨⟨rfl, rfl, rfl, rfl, rfl, rfl, fun _ => rfl⟩, .inr (.inl ⟨beq_iff_eq.mp pending, rfl⟩)⟩
  | clear userID elapsed =>
    refine { quiet with
      details := fun detail listed => quiet.details detail (List.mem_filter.mp listed).1
      rows := quiet.traced ?_ }
    exact Table.traces_delete (fun row => .refl _ row) _
  | close => exact { quiet with drained := ⟨rfl, idle⟩ }

end Quiet

/-- What a handler has been told that it recorded is in its log, with the detail, in every later
state, until a clear-index call deletes the completed log: neither the reconciler nor a
statement that commits late puts anything in its place but another completion of the same log.
When `drain` returns, every write that was admitted is over, once; after that nothing is admitted
and nothing ends, and the tables change only by statements that were adrift then, by the
reconciler and by clear-index calls. -/
theorem acknowledged_completion_stays (events more : List RequestLogEvent) :
    let reached := runFrom step initial events
    let later := runFrom step initial (events ++ more)
    (∀ entry detail, ⟨.complete entry detail, .done⟩ ∈ reached.ended → entry.logID ≠ "" →
      later.Recorded entry detail) ∧
    (reached.Drained → (reached.ended.map (·.write)).Perm reached.admitted ∧ Quiet reached later) := by
  intro reached later
  have sound : Sound reached := sound_run events
  have keeps : ∀ events, Sound (runFrom step initial events) ∧
      (runFrom step initial events).KeepsAnswers := by
    refine invariant_run (P := fun system => Sound system ∧ system.KeepsAnswers) ?_ ?_
    · exact fun _ event both => ⟨both.1.step event, both.2.step both.1 event⟩
    · exact ⟨Sound.initial, nofun⟩
  constructor
  · intro entry detail listed named
    refine (keeps (events ++ more)).2 entry detail ?_ named
    rw [runFrom_append]
    exact invariant_run
      (P := fun system : LogSystem => ⟨.complete entry detail, .done⟩ ∈ system.ended)
      (fun _ event before => ended_step before event) listed more
  · intro drained
    constructor
    · have conserved := sound.conserved
      rw [drained.2, List.append_nil] at conserved
      exact conserved.symm
    · simp only [later, runFrom_append]
      exact invariant_run (P := Quiet reached) (fun _ event quiet => quiet.step event)
        (.initial drained) more

/-- A completion whose first answer was lost is sent again and acknowledged; after the shutdown
PostgreSQL runs the first one too. -/
theorem acknowledged_completion_stays_shutdown :
    let entry : RequestLogEntry := ⟨"log", 200, 5, "", some "log"⟩
    let completion : LogWrite := .complete entry (some ⟨"lce", "timeout"⟩)
    let events := [RequestLogEvent.arrive 0 "log" "alice" "alice" "/mcp" "POST" "::1",
      .perform (.insert (newLog "log" "alice" "alice" "/mcp" "POST" "::1" 0)) .reached, .tick 5,
      .respond "log" 200 "" (some ⟨"lce", "timeout"⟩), .perform completion .unanswered,
      .perform completion .reached, .close]
    let more := [RequestLogEvent.land completion, .respond "log" 500 "" none, .reconcile 0]
    (runFrom step initial events).Drained ∧
      Quiet (runFrom step initial events) (runFrom step initial (events ++ more)) ∧
      (runFrom step initial (events ++ more)).Recorded entry (some ⟨"lce", "timeout"⟩) := by
  intro entry completion events more
  have drained : (runFrom step initial events).Drained := ⟨by decide +kernel, by decide +kernel⟩
  obtain ⟨recorded, quiet⟩ := acknowledged_completion_stays events more
  exact ⟨drained, (quiet drained).2, recorded _ _ (by decide +kernel) (by decide)⟩

end LogSystem

end AcemcpRelay
