import AcemcpRelay.RequestLogs

/-!
# The life of a request log

Whatever the order in which the background writes run, and whichever of their answers are
lost: a completion does not overtake an insertion that succeeded, an error detail is only
stored with a completed log, and a log that is there leaves the table by a clear-index call
after it was completed or not at all.

## Proof strategy

`Executed` says what PostgreSQL does with the statements of a write, whether their answer
arrives or not; `LogChange` says what that means for a row. The invariant `Sound` ties the
rows to the channels: the channel of a request is open while its insertion is active, and a
completion that has found no row has passed a closed channel, after which no insertion
succeeds. A statement that PostgreSQL runs late was admitted once, so that it can only do what
the write itself could have done.
-/
namespace AcemcpRelay

open Store

/-- What the statements may do to a log that is there. -/
structure LogChange (old new : RequestLog) : Prop where
  id : new.id = old.id
  userID : new.userID = old.userID
  tenantID : new.tenantID = old.tenantID
  requestMethod : new.requestMethod = old.requestMethod
  requestTimestamp : new.requestTimestamp = old.requestTimestamp
  clientIP : new.clientIP = old.clientIP
  completed : old.status = .completed → new.status = .completed

theorem LogChange.refl (row : RequestLog) : LogChange row row := ⟨rfl, rfl, rfl, rfl, rfl, rfl, fun done => done⟩

theorem LogChange.trans {a b c : RequestLog} (first : LogChange a b) (second : LogChange b c) :
    LogChange a c where
  id := second.id.trans first.id
  userID := second.userID.trans first.userID
  tenantID := second.tenantID.trans first.tenantID
  requestMethod := second.requestMethod.trans first.requestMethod
  requestTimestamp := second.requestTimestamp.trans first.requestTimestamp
  clientIP := second.clientIP.trans first.clientIP
  completed done := second.completed (first.completed done)

/-! ### The statements -/

namespace LogTables

variable {tables after : LogTables} {entry : RequestLogEntry} {detail : Option RequestLogErrorDetail}
  {row : RequestLog} {write : LogWrite} {found : Bool}

theorem mem_of_insertRequestLog (inserted : tables.insertRequestLog row = .ok after) :
    (∀ other, other ∈ after.requestLogs ↔ other ∈ tables.requestLogs ∨ other = row) ∧
      after.errorDetails = tables.errorDetails := by
  unfold insertRequestLog at inserted
  split at inserted
  · split at inserted
    next requestLogs added =>
      cases inserted
      refine ⟨fun other => ?_, rfl⟩
      rw [Table.mem_insert added, List.mem_singleton]
    · cases inserted
  · cases inserted

/-- The row is as it was, or it is the log of the entry, which is now completed. -/
def CompletedBy (entry : RequestLogEntry) (old new : RequestLog) : Prop :=
  new = old ∨ (old.id = entry.logID ∧ new = completeLog entry old)

theorem CompletedBy.change {old new : RequestLog} (completed : CompletedBy entry old new) :
    LogChange old new := by
  rcases completed with rfl | ⟨-, rfl⟩
  · exact .refl _
  · exact ⟨rfl, rfl, rfl, rfl, rfl, rfl, fun _ => rfl⟩

/-- An update that finds the log completes it and leaves the others as they are. -/
theorem updateLog_eq_ok (updated : tables.updateLog entry = .ok (found, after)) :
    (found = false ∧ (∀ row ∈ tables.requestLogs, row.id ≠ entry.logID) ∧ after = tables) ∨
    (found = true ∧ Table.Rewrites (CompletedBy entry) tables.requestLogs after.requestLogs ∧
      (∃ row ∈ tables.requestLogs, row.id = entry.logID ∧ completeLog entry row ∈ after.requestLogs) ∧
      after.errorDetails = tables.errorDetails) := by
  unfold updateLog at updated
  split at updated
  next present =>
    obtain ⟨row, stored, named⟩ := Table.holds_eq_true.mp present
    split at updated
    · cases updated
      refine .inr ⟨rfl, ?_, ?_, rfl⟩
      · apply Table.rewrites_update fun _ => .inl rfl
        intro row _ hit
        exact .inr ⟨beq_iff_eq.mp hit, rfl⟩
      · exact ⟨row, stored, beq_iff_eq.mp named, Table.mem_update_of_hit stored named⟩
    · cases updated
  next absent =>
    cases updated
    refine .inl ⟨rfl, ?_, rfl⟩
    intro row stored named
    exact absent (Table.holds_eq_true.mpr ⟨row, stored, beq_iff_eq.mpr named⟩)

theorem insertDetail_eq_ok {requestID : String} {added : RequestLogErrorDetail}
    (inserted : tables.insertDetail requestID added = .ok after) :
    (∃ row ∈ tables.requestLogs, row.id = requestID) ∧ after.requestLogs = tables.requestLogs ∧
      after.errorDetails = ⟨requestID, added.source, added.message⟩ :: tables.errorDetails := by
  unfold insertDetail at inserted
  split at inserted
  next allowed =>
    cases inserted
    obtain ⟨row, stored, named⟩ := Table.holds_eq_true.mp (Bool.and_eq_true _ _ ▸ allowed).1
    exact ⟨⟨row, stored, beq_iff_eq.mp named⟩, rfl, rfl⟩
  · cases inserted

/-- What the statements of a write do when PostgreSQL does not refuse them. -/
inductive Executed (tables : LogTables) : LogWrite → Bool → LogTables → Prop where
  | inserted (row : RequestLog) (after : LogTables)
      (members : ∀ other, other ∈ after.requestLogs ↔ other ∈ tables.requestLogs ∨ other = row)
      (details : after.errorDetails = tables.errorDetails) :
      Executed tables (.insert row) true after
  /-- A request of the console has no log. -/
  | console (entry : RequestLogEntry) (detail : Option RequestLogErrorDetail)
      (unnamed : entry.logID = "") : Executed tables (.complete entry detail) true tables
  | missing (entry : RequestLogEntry) (detail : Option RequestLogErrorDetail)
      (named : entry.logID ≠ "") (absent : ∀ row ∈ tables.requestLogs, row.id ≠ entry.logID) :
      Executed tables (.complete entry detail) false tables
  | recorded (entry : RequestLogEntry) (detail : Option RequestLogErrorDetail) (after : LogTables)
      (rows : Table.Rewrites (CompletedBy entry) tables.requestLogs after.requestLogs)
      (own : ∃ row ∈ tables.requestLogs, row.id = entry.logID ∧
        completeLog entry row ∈ after.requestLogs)
      (details : after.errorDetails = (detail.filter (·.message ≠ "")).toList.map
        (fun added => ⟨entry.logID, added.source, added.message⟩) ++ tables.errorDetails) :
      Executed tables (.complete entry detail) true after

theorem executed_complete (persisted : tables.persistRequestLogCompletion entry detail = .ok (found, after)) :
    Executed tables (.complete entry detail) found after := by
  unfold persistRequestLogCompletion at persisted
  split at persisted
  next console =>
    cases persisted
    exact .console entry detail console
  next named =>
    split at persisted
    next none =>
      rcases updateLog_eq_ok persisted with ⟨rfl, absent, rfl⟩ | ⟨rfl, rows, own, same⟩
      · exact .missing entry detail named absent
      · refine .recorded entry detail after rows own ?_
        rw [same, none]
        rfl
    next added filtered =>
      split at persisted
      · cases persisted
      next withDetail inserted =>
        obtain ⟨⟨row, stored, identified⟩, same, details⟩ := insertDetail_eq_ok inserted
        split at persisted
        · cases persisted
        next updated =>
          -- the log cannot be gone: the detail refers to it
          rcases updateLog_eq_ok updated with ⟨-, absent, -⟩ | ⟨impossible, -⟩
          · rw [same] at absent
            exact absurd identified (absent row stored)
          · cases impossible
        next result updated =>
          cases persisted
          rcases updateLog_eq_ok updated with ⟨impossible, -⟩ | ⟨-, rows, own, kept⟩
          · cases impossible
          · rw [same] at rows own
            refine .recorded entry detail _ rows own ?_
            rw [kept, details, filtered]
            rfl

theorem executed (ran : tables.execute write = .ok (found, after)) :
    Executed tables write found after := by
  cases write with
  | insert row =>
    simp only [execute] at ran
    cases inserted : tables.insertRequestLog row with
    | error failure =>
      rw [inserted] at ran
      cases ran
    | ok result =>
      rw [inserted] at ran
      cases ran
      obtain ⟨members, details⟩ := mem_of_insertRequestLog inserted
      exact .inserted row after members details
  | complete entry detail => exact executed_complete ran

theorem rewrites_reconcile (now : Nat) (tables : LogTables) :
    Table.Rewrites LogChange tables.requestLogs (tables.reconcileStaleRequestLogs now).requestLogs := by
  apply Table.rewrites_update LogChange.refl
  intro row _ _
  exact ⟨rfl, rfl, rfl, rfl, rfl, rfl, fun _ => rfl⟩

theorem clearable_iff {userID : String} {before : Nat} :
    clearable userID before row = true ↔
      row.userID = userID ∧ row.requestTimestamp < before ∧ row.status = .completed := by
  simp [clearable, and_assoc]

/-- The details of the tables belong to completed logs. -/
def Detailed (tables : LogTables) : Prop :=
  ∀ detail ∈ tables.errorDetails,
    ∃ row ∈ tables.requestLogs, row.id = detail.requestID ∧ row.status = .completed

theorem Detailed.rewritten (detailed : tables.Detailed)
    (rewritten : Table.Rewrites LogChange tables.requestLogs after.requestLogs)
    {stored : ErrorDetail} (member : stored ∈ tables.errorDetails) :
    ∃ row ∈ after.requestLogs, row.id = stored.requestID ∧ row.status = .completed := by
  obtain ⟨old, present, named, completed⟩ := detailed stored member
  obtain ⟨new, kept, change⟩ := rewritten.target old present
  exact ⟨new, kept, change.id.trans named, change.completed completed⟩

theorem CompletedBy.rewrites
    (rows : Table.Rewrites (CompletedBy entry) tables.requestLogs after.requestLogs) :
    Table.Rewrites LogChange tables.requestLogs after.requestLogs := by
  constructor
  · intro row member
    obtain ⟨old, stored, completed⟩ := rows.source row member
    exact ⟨old, stored, completed.change⟩
  · intro old stored
    obtain ⟨row, member, completed⟩ := rows.target old stored
    exact ⟨row, member, completed.change⟩

/-- No statement of a write leaves a detail without its completed log. -/
theorem Executed.detailed (executed : Executed tables write found after)
    (detailed : tables.Detailed) : after.Detailed := by
  cases executed with
  | inserted row after members details =>
    intro stored listed
    rw [details] at listed
    obtain ⟨parent, present, same⟩ := detailed stored listed
    exact ⟨parent, (members parent).mpr (.inl present), same⟩
  | console | missing => exact detailed
  | recorded entry detail after rows own details =>
    intro stored listed
    rw [details] at listed
    rcases List.mem_append.mp listed with new | old
    · obtain ⟨added, -, rfl⟩ := List.mem_map.mp new
      obtain ⟨row, -, named, completed⟩ := own
      exact ⟨_, completed, named, rfl⟩
    · exact detailed.rewritten (CompletedBy.rewrites rows) old

/-- The cascade takes the details of the deleted logs along. -/
theorem Detailed.cleared (detailed : tables.Detailed) (userID : String) (before : Nat) :
    (tables.deleteCompletedUserLogsBefore userID before).Detailed := by
  intro stored member
  obtain ⟨listed, spared⟩ := List.mem_filter.mp member
  obtain ⟨row, present, named, completed⟩ := detailed stored listed
  refine ⟨row, Table.mem_delete.mpr ⟨present, ?_⟩, named, completed⟩
  have kept := Table.holds_eq_false.mp (Bool.not_eq_true' _ ▸ spared) row present
  simpa [named] using kept

end LogTables

/-! ### The channels -/

namespace LogSystem

variable {system : LogSystem} {write : LogWrite}

/-- The request has come in. -/
def Begun (system : LogSystem) (logID : String) : Prop :=
  ∃ context ∈ system.contexts, context.logID = logID

/-- A write is one of a request that has come in, and a completion waits for the insertion of the
log it completes. -/
def Proper (system : LogSystem) : LogWrite → Prop
  | .insert row => system.Begun row.id
  | .complete entry _ =>
    entry.logID = "" ∨ (system.Begun entry.logID ∧ entry.insertDone = some entry.logID)

/-- Some insertion of the log has been acknowledged. -/
def Acknowledged (system : LogSystem) (logID : String) : Prop :=
  ∃ row, row.id = logID ∧ ⟨.insert row, .done⟩ ∈ system.ended

section

variable (system : LogSystem) (write : LogWrite)

@[simp] theorem commit_writes : (system.commit write).writes = system.writes := by
  unfold commit
  split <;> rfl

@[simp] theorem commit_admitted : (system.commit write).admitted = system.admitted := by
  unfold commit
  split <;> rfl

@[simp] theorem commit_adrift : (system.commit write).adrift = system.adrift := by
  unfold commit
  split <;> rfl

@[simp] theorem commit_cleared : (system.commit write).cleared = system.cleared := by
  unfold commit
  split <;> rfl

@[simp] theorem commit_ended : (system.commit write).ended = system.ended := by
  unfold commit
  split <;> rfl

end

structure Sound (system : LogSystem) : Prop where
  detailed : system.tables.Detailed
  known : ∀ row ∈ system.tables.requestLogs, row.id ∈ system.stored
  kept : ∀ logID ∈ system.stored, (∃ row ∈ system.tables.requestLogs, row.id = logID) ∨
    ∃ row ∈ system.cleared, row.id = logID
  begun : ∀ logID ∈ system.awaited, system.Begun logID
  proper : ∀ write ∈ system.admitted, system.Proper write
  adrift : ∀ write ∈ system.adrift, write ∈ system.admitted
  opened : ∀ row, .insert row ∈ system.writes.active → row.id ∈ system.awaited
  single : (system.writes.active.filterMap LogWrite.inserts).Nodup
  acknowledged : ∀ logID, system.Acknowledged logID → logID ∈ system.stored
  missing : ∀ entry detail, ⟨.complete entry detail, .noRow⟩ ∈ system.ended →
    system.Begun entry.logID ∧ entry.logID ∉ system.awaited ∧
      (¬ system.Acknowledged entry.logID ∨ ∃ row ∈ system.cleared, row.id = entry.logID)
  completed : ∀ row ∈ system.cleared, row.status = .completed
  conserved : system.admitted.Perm (system.ended.map (·.write) ++ system.writes.active)

theorem Proper.mono {after : LogSystem} (grows : ∀ logID, system.Begun logID → after.Begun logID)
    (proper : system.Proper write) : after.Proper write := by
  cases write with
  | insert row => exact grows row.id proper
  | complete entry detail => exact proper.imp_right fun both => ⟨grows _ both.1, both.2⟩

namespace Sound

theorem initial : Sound LogSystem.initial where
  detailed _ member := nomatch member
  known row member := absurd member (Table.not_mem_empty row)
  kept _ member := nomatch member
  begun _ member := nomatch member
  proper _ member := nomatch member
  adrift _ member := nomatch member
  opened _ member := nomatch member
  single := List.nodup_nil
  acknowledged _ found := by
    obtain ⟨row, -, member⟩ := found
    cases member
  missing _ _ member := nomatch member
  completed _ member := nomatch member
  conserved := .refl _

theorem active_admitted (sound : Sound system) (active : write ∈ system.writes.active) :
    write ∈ system.admitted :=
  sound.conserved.mem_iff.mpr (List.mem_append_right _ active)

/-- A write that is handed over while others run is admitted as a whole or refused. -/
theorem run_cases (write : LogWrite) (system : LogSystem) :
    (system.writes.closed = true ∧ system.run write = system) ∨
    (system.writes.closed = false ∧ system.run write =
      { system with
        writes := { system.writes with active := write :: system.writes.active }
        admitted := write :: system.admitted }) := by
  cases shut : system.writes.closed with
  | true =>
    refine .inl ⟨rfl, ?_⟩
    simp only [LogSystem.run, BackgroundWrites.run, shut, if_true]
    rfl
  | false =>
    refine .inr ⟨rfl, ?_⟩
    simp only [LogSystem.run, BackgroundWrites.run, shut, Bool.false_eq_true, if_false, if_true]

theorem arrive (sound : Sound system) {context : LogContext} {row : RequestLog}
    {contexts : Table LogContext.logID} (inserted : system.contexts.insert [context] = some contexts)
    (named : row.id = context.logID) : Sound (system.arrive context row contexts) := by
  have grows {logID : String} (old : system.Begun logID) :
      ∃ known ∈ contexts, known.logID = logID := by
    obtain ⟨known, stored, same⟩ := old
    exact ⟨known, (Table.mem_insert inserted).mpr (.inl stored), same⟩
  have own : ∃ known ∈ contexts, known.logID = context.logID :=
    ⟨context, (Table.mem_insert inserted).mpr (.inr (List.mem_singleton.mpr rfl)), rfl⟩
  have fresh {logID : String} (old : system.Begun logID) : logID ≠ context.logID := by
    obtain ⟨known, stored, rfl⟩ := old
    exact Table.key_fresh inserted stored (List.mem_singleton.mpr rfl)
  rcases run_cases (.insert row) system with ⟨closed, refused⟩ | ⟨closed, admitted⟩
  · simp only [LogSystem.arrive, refused, closed, if_true]
    exact { sound with
      begun := fun logID listed => grows (sound.begun logID listed)
      proper := fun write listed => (sound.proper write listed).mono fun _ => grows
      missing := fun entry detail listed =>
        ⟨grows (sound.missing entry detail listed).1, (sound.missing entry detail listed).2⟩ }
  · simp only [LogSystem.arrive, admitted, closed, Bool.false_eq_true, if_false]
    refine { sound with
      begun := ?_, proper := ?_, adrift := ?_, opened := ?_, single := ?_, missing := ?_
      conserved := ?_ }
    · intro logID listed
      rcases List.mem_cons.mp listed with rfl | old
      · exact own
      · exact grows (sound.begun logID old)
    · intro write listed
      rcases List.mem_cons.mp listed with rfl | old
      · exact named ▸ own
      · exact (sound.proper write old).mono fun _ => grows
    · intro write listed
      exact List.mem_cons_of_mem _ (sound.adrift write listed)
    · intro other active
      rcases List.mem_cons.mp active with same | old
      · cases same
        exact List.mem_cons.mpr (.inl named)
      · exact List.mem_cons_of_mem _ (sound.opened other old)
    · rw [List.filterMap_cons_some (show (LogWrite.insert row).inserts = some row.id from rfl)]
      refine List.nodup_cons.mpr ⟨fun listed => ?_, sound.single⟩
      obtain ⟨write, active, inserts⟩ := List.mem_filterMap.mp listed
      cases write with
      | insert other =>
        have same : other.id = row.id := Option.some.inj inserts
        exact fresh (sound.begun _ (sound.opened other active)) (same.trans named)
      | complete entry detail => cases inserts
    · -- the channel of an earlier request does not open again
      intro entry detail listed
      obtain ⟨begun, shut, lost⟩ := sound.missing entry detail listed
      refine ⟨grows begun, fun again => ?_, lost⟩
      rcases List.mem_cons.mp again with same | old
      · exact fresh begun same
      · exact shut old
    · exact (sound.conserved.cons _).trans List.perm_middle.symm

theorem respond (sound : Sound system) (logID : String) (statusCode : Int) (metricsPath : String)
    (detail : Option RequestLogErrorDetail) :
    Sound (system.respond logID statusCode metricsPath detail) := by
  unfold LogSystem.respond
  generalize detail.filter (·.message ≠ "") = filtered
  have proper : system.Proper
      (.complete (system.getRequestLogEntry logID statusCode metricsPath) filtered) := by
    unfold LogSystem.getRequestLogEntry
    split
    · exact .inl rfl
    next context found =>
      obtain ⟨stored, same⟩ := Table.lookup_eq_some.mp found
      exact .inr ⟨⟨context, stored, same⟩, rfl⟩
  rcases run_cases (.complete (system.getRequestLogEntry logID statusCode metricsPath) filtered)
    system with ⟨-, refused⟩ | ⟨-, admitted⟩
  · rw [refused]
    exact sound
  · rw [admitted]
    refine { sound with proper := ?_, adrift := ?_, opened := ?_, single := ?_, conserved := ?_ }
    · intro write listed
      rcases List.mem_cons.mp listed with rfl | old
      · exact proper
      · exact sound.proper write old
    · intro write listed
      exact List.mem_cons_of_mem _ (sound.adrift write listed)
    · intro row active
      rcases List.mem_cons.mp active with impossible | old
      · cases impossible
      · exact sound.opened row old
    · rw [List.filterMap_cons_none (show LogWrite.inserts (.complete _ _) = none from rfl)]
      exact sound.single
    · exact (sound.conserved.cons _).trans List.perm_middle.symm

/-- The rows are rewritten, and the details are those of completed logs. -/
theorem rewritten (sound : Sound system) {tables : LogTables}
    (rows : Table.Rewrites LogChange system.tables.requestLogs tables.requestLogs)
    (detailed : tables.Detailed) : Sound { system with tables } := by
  refine { sound with detailed, known := ?_, kept := ?_ }
  · intro row member
    obtain ⟨old, stored, change⟩ := rows.source row member
    rw [change.id]
    exact sound.known old stored
  · intro logID stored
    refine (sound.kept logID stored).imp_left fun present => ?_
    obtain ⟨old, member, named⟩ := present
    obtain ⟨new, kept, change⟩ := rows.target old member
    exact ⟨new, kept, change.id.trans named⟩

/-- What PostgreSQL runs, in time or late. -/
theorem commit (sound : Sound system) (write : LogWrite) : Sound (system.commit write) := by
  unfold LogSystem.commit
  split
  next found tables ran =>
    have executed := LogTables.executed ran
    have detailed := executed.detailed sound.detailed
    cases executed with
    | inserted row after members details =>
      refine { sound with detailed, known := ?_, kept := ?_, acknowledged := ?_ }
      · intro other listed
        rcases (members other).mp listed with stored | rfl
        · exact List.mem_cons_of_mem _ (sound.known other stored)
        · exact List.mem_cons_self
      · intro logID stored
        rcases List.mem_cons.mp stored with rfl | old
        · exact .inl ⟨row, (members row).mpr (.inr rfl), rfl⟩
        · refine (sound.kept logID old).imp_left fun present => ?_
          obtain ⟨other, stored, same⟩ := present
          exact ⟨other, (members other).mpr (.inl stored), same⟩
      · intro logID found
        exact List.mem_cons_of_mem _ (sound.acknowledged logID found)
    | console | missing => exact sound
    | recorded entry detail after rows => exact sound.rewritten (LogTables.CompletedBy.rewrites rows) detailed
  · exact sound

/-- Taking an active write off the list. -/
theorem finished (sound : Sound system) (active : write ∈ system.writes.active)
    (answer : WriteAnswer) :
    system.admitted.Perm ((system.finish write answer).ended.map (·.write) ++
      (system.finish write answer).writes.active) := by
  refine sound.conserved.trans ?_
  exact ((List.perm_cons_erase active).append_left _).trans List.perm_middle

/-- No other insertion is active for the request. -/
theorem erase_insert (sound : Sound system) {row : RequestLog}
    (active : .insert row ∈ system.writes.active) :
    some row.id ∉ (system.writes.active.erase (.insert row)).map LogWrite.inserts := by
  intro listed
  have order := ((List.perm_cons_erase active).filterMap LogWrite.inserts).nodup_iff.mp sound.single
  rw [List.filterMap_cons_some (show (LogWrite.insert row).inserts = some row.id from rfl)] at order
  obtain ⟨write, other, inserts⟩ := List.mem_map.mp listed
  exact (List.nodup_cons.mp order).1 (List.mem_filterMap.mpr ⟨write, other, inserts⟩)

/-- The write closes its own channel only. -/
theorem opened_finish (sound : Sound system) (active : write ∈ system.writes.active)
    {row : RequestLog} (still : .insert row ∈ system.writes.active.erase write) :
    row.id ∈ system.awaited.filter fun logID => some logID != write.inserts := by
  have before := sound.opened row (List.mem_of_mem_erase still)
  refine List.mem_filter.mpr ⟨before, bne_iff_ne.mpr fun same => ?_⟩
  cases write with
  | insert own =>
    refine sound.erase_insert active (List.mem_map.mpr ⟨_, still, ?_⟩)
    exact same
  | complete entry detail => cases same

/-- The end of a write that was told the truth: an acknowledged insertion is stored, and a
completion without a row has passed its channel. -/
theorem finish (sound : Sound system) (active : write ∈ system.writes.active)
    {answer : WriteAnswer}
    (stored : ∀ row, write = .insert row → answer = .done → row.id ∈ system.stored)
    (missed : ∀ entry detail, write = .complete entry detail → answer = .noRow →
      system.Begun entry.logID ∧ entry.logID ∉ system.awaited ∧
        (¬ system.Acknowledged entry.logID ∨ ∃ row ∈ system.cleared, row.id = entry.logID)) :
    Sound (system.finish write answer) := by
  have closes {logID : String} (listed : logID ∈ (system.finish write answer).awaited) :
      logID ∈ system.awaited := List.mem_of_mem_filter listed
  have acknowledges {logID : String} (found : (system.finish write answer).Acknowledged logID) :
      system.Acknowledged logID ∨
        ∃ row, row.id = logID ∧ write = .insert row ∧ answer = .done := by
    obtain ⟨row, named, listed⟩ := found
    rcases List.mem_cons.mp listed with same | old
    · cases same
      exact .inr ⟨row, named, rfl, rfl⟩
    · exact .inl ⟨row, named, old⟩
  refine { sound with
    begun := ?_, opened := ?_, single := ?_, acknowledged := ?_, missing := ?_
    conserved := sound.finished active answer }
  · exact fun logID listed => sound.begun logID (closes listed)
  · exact fun row still => sound.opened_finish active still
  · exact sound.single.sublist (List.erase_sublist.filterMap _)
  · intro logID found
    rcases acknowledges found with old | ⟨row, rfl, own, told⟩
    · exact sound.acknowledged logID old
    · exact stored row own told
  · intro entry detail listed
    -- the completion may be this write or an earlier one; either has passed its channel
    have before : system.Begun entry.logID ∧ entry.logID ∉ system.awaited ∧
        (¬ system.Acknowledged entry.logID ∨ ∃ row ∈ system.cleared, row.id = entry.logID) := by
      rcases List.mem_cons.mp listed with same | old
      · cases same
        exact missed entry detail rfl rfl
      · exact sound.missing entry detail old
    obtain ⟨begun, shut, lost⟩ := before
    refine ⟨begun, fun again => shut (closes again), lost.imp_left fun never found => ?_⟩
    rcases acknowledges found with old | ⟨row, same, own, -⟩
    · exact never old
    · rw [own] at active
      exact shut (same ▸ sound.opened row active)

/-- The answer of a completion that has found no row: if its log was ever acknowledged, it has
been cleared. -/
theorem missed (sound : Sound system) {entry : RequestLogEntry}
    {detail : Option RequestLogErrorDetail}
    (active : .complete entry detail ∈ system.writes.active)
    (passed : system.ready (.complete entry detail) = true)
    (told : system.answer (.complete entry detail) = .noRow) :
    system.Begun entry.logID ∧ entry.logID ∉ system.awaited ∧
      (¬ system.Acknowledged entry.logID ∨ ∃ row ∈ system.cleared, row.id = entry.logID) := by
  unfold LogSystem.answer at told
  split at told
  · cases told
  next tables ran =>
    cases LogTables.executed ran with
    | missing _ _ named absent =>
      rcases sound.proper _ (sound.active_admitted active) with unnamed | ⟨begun, channel⟩
      · exact absurd unnamed named
      refine ⟨begun, ?_, ?_⟩
      · simpa [LogSystem.ready, channel] using passed
      · by_cases found : system.Acknowledged entry.logID
        · rcases sound.kept _ (sound.acknowledged _ found) with ⟨row, present, same⟩ | gone
          · exact absurd same (absent row present)
          · exact .inr gone
        · exact .inl found
  · cases told

theorem stored_of_answer {row : RequestLog} (told : system.answer (.insert row) = .done) :
    row.id ∈ (system.commit (.insert row)).stored := by
  unfold LogSystem.answer at told
  unfold LogSystem.commit
  split at told
  next tables ran =>
    rw [ran]
    exact List.mem_cons_self
  · cases told
  · cases told

theorem commit_of_noRow (told : system.answer write = .noRow) : system.commit write = system := by
  unfold LogSystem.answer at told
  unfold LogSystem.commit
  split at told
  · cases told
  next tables ran =>
    rw [ran]
    cases LogTables.executed ran with
    | missing => rfl
  · cases told

theorem perform (sound : Sound system) (active : write ∈ system.writes.active)
    (outcome : WriteOutcome) : Sound (system.perform write outcome) := by
  cases outcome with
  | failed => exact sound.finish active nofun nofun
  | unanswered =>
    simp only [LogSystem.perform]
    split
    · refine { sound with adrift := ?_ }
      exact List.forall_mem_cons.mpr ⟨sound.active_admitted active, sound.adrift⟩
    · exact sound
  | reached =>
    simp only [LogSystem.perform]
    split
    next passed =>
      have still : write ∈ (system.commit write).writes.active := by simpa using active
      refine (sound.commit write).finish still ?_ ?_
      · rintro row rfl told
        exact stored_of_answer told
      · rintro entry detail rfl told
        have found := sound.missed active passed told
        rwa [commit_of_noRow told]
    · exact sound

theorem clear (sound : Sound system) (userID : String) (startTime : Nat) :
    Sound (system.clear userID startTime) := by
  refine { sound with
    detailed := sound.detailed.cleared userID startTime, known := ?_, kept := ?_, missing := ?_
    completed := ?_ }
  · intro row member
    exact sound.known row (Table.mem_delete.mp member).1
  · intro logID stored
    rcases sound.kept logID stored with ⟨row, present, named⟩ | ⟨row, gone, named⟩
    · cases selected : LogTables.clearable userID startTime row with
      | false => exact .inl ⟨row, Table.mem_delete.mpr ⟨present, selected⟩, named⟩
      | true =>
        have listed := Table.mem_select.mpr ⟨present, selected⟩
        exact .inr ⟨row, List.mem_append_left _ listed, named⟩
    · exact .inr ⟨row, List.mem_append_right _ gone, named⟩
  · intro entry detail listed
    obtain ⟨begun, shut, lost⟩ := sound.missing entry detail listed
    refine ⟨begun, shut, lost.imp_right fun found => ?_⟩
    obtain ⟨row, gone, named⟩ := found
    exact ⟨row, List.mem_append_right _ gone, named⟩
  · intro row listed
    rcases List.mem_append.mp listed with deleted | gone
    · exact (LogTables.clearable_iff.mp (Table.mem_select.mp deleted).2).2.2
    · exact sound.completed row gone

theorem step (sound : Sound system) (event : RequestLogEvent) : Sound (system.step event) := by
  cases event with
  | tick elapsed => exact { sound with }
  | arrive elapsed logID userID tenantID path method clientIP =>
    simp only [LogSystem.step]
    split
    · exact sound
    next contexts inserted => exact sound.arrive inserted rfl
  | respond logID statusCode metricsPath detail =>
    exact sound.respond logID statusCode metricsPath detail
  | perform write outcome =>
    simp only [LogSystem.step]
    split
    next active => exact sound.perform active outcome
    · exact sound
  | land write =>
    simp only [LogSystem.step]
    split
    · refine { sound.commit write with adrift := fun other listed => ?_ }
      rw [commit_admitted]
      exact sound.adrift other (List.mem_of_mem_erase listed)
    · exact sound
  | reconcile waited =>
    have rows := LogTables.rewrites_reconcile (system.clock - waited) system.tables
    exact sound.rewritten rows fun _ listed => sound.detailed.rewritten rows listed
  | clear userID elapsed => exact sound.clear userID (system.clock - elapsed)
  | close => exact { sound with }

end Sound

theorem sound_run (events : List RequestLogEvent) : Sound (runFrom step initial events) :=
  invariant_run (P := Sound) (fun _ event sound => sound.step event) Sound.initial events

/-! ### Completions without a row -/

/-- A log is cleared by a call of its own user. -/
theorem cleared_step {event : RequestLogEvent} {row : RequestLog}
    (cleared : row ∈ (system.step event).cleared) :
    row ∈ system.cleared ∨ ∃ elapsed, event = .clear row.userID elapsed := by
  cases event with
  | tick | respond | reconcile | close => exact .inl cleared
  | arrive =>
    simp only [step] at cleared
    split at cleared <;> exact .inl cleared
  | perform write outcome =>
    simp only [step, perform] at cleared
    split at cleared
    · cases outcome with
      | failed => exact .inl cleared
      | reached | unanswered =>
        dsimp only at cleared
        split at cleared
        · exact .inl (by simpa [finish] using cleared)
        · exact .inl cleared
    · exact .inl cleared
  | land write =>
    simp only [step] at cleared
    split at cleared
    · exact .inl (by simpa using cleared)
    · exact .inl cleared
  | clear userID elapsed =>
    rcases List.mem_append.mp cleared with deleted | gone
    · have selected := LogTables.clearable_iff.mp (Table.mem_select.mp deleted).2
      exact .inr ⟨elapsed, by rw [selected.1]⟩
    · exact .inl gone

theorem cleared_run {events : List RequestLogEvent} {row : RequestLog}
    (cleared : row ∈ (runFrom step system events).cleared) :
    row ∈ system.cleared ∨ ∃ elapsed, .clear row.userID elapsed ∈ events := by
  induction events generalizing system with
  | nil => exact .inl cleared
  | cons event events ih =>
    rcases ih cleared with first | ⟨elapsed, later⟩
    · rcases cleared_step first with old | ⟨elapsed, rfl⟩
      · exact .inl old
      · exact .inr ⟨elapsed, List.mem_cons_self⟩
    · exact .inr ⟨elapsed, List.mem_cons_of_mem _ later⟩

/-- A request whose log was reconciled, cleared and only then completed by its handler, and one
whose insertion PostgreSQL commits when the completion has already looked for it. -/
def lateCompletions : List RequestLogEvent :=
  let long := newLog "long" "alice" "alice" "/mcp" "POST" "::1" 0
  let lost := newLog "lost" "alice" "alice" "/mcp" "POST" "::1" 0
  let entry (logID : String) : RequestLogEntry :=
    ⟨logID, 200, staleRequestLogAfter + 1, "", some logID⟩
  [.arrive 0 "long" "alice" "alice" "/mcp" "POST" "::1", .perform (.insert long) .reached,
    .arrive 0 "lost" "alice" "alice" "/mcp" "POST" "::1", .perform (.insert lost) .unanswered,
    .perform (.insert lost) .failed, .tick (staleRequestLogAfter + 1), .reconcile 0,
    .clear "alice" 1, .respond "lost" 200 "" none, .perform (.complete (entry "lost") none) .reached,
    .respond "long" 200 "" none, .perform (.complete (entry "long") none) .reached,
    .land (.insert lost)]

/-- What has become of a log: it is there, or it was cleared after its completion. -/
def Follows (row : RequestLog) (system : LogSystem) : Prop :=
  (∃ new ∈ system.tables.requestLogs, LogChange row new) ∨
    ∃ last ∈ system.cleared, LogChange row last ∧ last.status = .completed

namespace Follows

variable {row : RequestLog}

theorem rewritten (follows : Follows row system) {tables : LogTables}
    (rows : Table.Rewrites LogChange system.tables.requestLogs tables.requestLogs) :
    Follows row { system with tables } := by
  refine follows.imp_left fun present => ?_
  obtain ⟨old, stored, change⟩ := present
  obtain ⟨new, kept, further⟩ := rows.target old stored
  exact ⟨new, kept, change.trans further⟩

theorem run (follows : Follows row system) (write : LogWrite) : Follows row (system.run write) := by
  rcases Sound.run_cases write system with ⟨-, refused⟩ | ⟨-, admitted⟩
  · rw [refused]
    exact follows
  · rw [admitted]
    exact follows

theorem commit (follows : Follows row system) (write : LogWrite) :
    Follows row (system.commit write) := by
  unfold LogSystem.commit
  split
  next found tables ran =>
    cases LogTables.executed ran with
    | inserted added after members details =>
      refine follows.imp_left fun present => ?_
      obtain ⟨new, stored, change⟩ := present
      exact ⟨new, (members new).mpr (.inl stored), change⟩
    | console | missing => exact follows
    | recorded entry detail after rows =>
      exact follows.rewritten (LogTables.CompletedBy.rewrites rows)
  · exact follows

theorem perform (follows : Follows row system) (write : LogWrite) (outcome : WriteOutcome) :
    Follows row (system.perform write outcome) := by
  cases outcome with
  | failed => exact follows
  | reached =>
    simp only [LogSystem.perform]
    split
    · exact follows.commit write
    · exact follows
  | unanswered =>
    simp only [LogSystem.perform]
    split <;> exact follows

theorem clear (follows : Follows row system) (userID : String) (startTime : Nat) :
    Follows row (system.clear userID startTime) := by
  rcases follows with ⟨new, stored, change⟩ | ⟨last, gone, change, completed⟩
  · cases selected : LogTables.clearable userID startTime new with
    | false => exact .inl ⟨new, Table.mem_delete.mpr ⟨stored, selected⟩, change⟩
    | true =>
      have listed := Table.mem_select.mpr ⟨stored, selected⟩
      exact .inr ⟨new, List.mem_append_left _ listed, change,
        (LogTables.clearable_iff.mp selected).2.2⟩
  · exact .inr ⟨last, List.mem_append_right _ gone, change, completed⟩

theorem step (follows : Follows row system) (event : RequestLogEvent) : Follows row (system.step event) := by
  cases event with
  | arrive elapsed logID userID tenantID path method clientIP =>
    simp only [LogSystem.step]
    split
    · exact follows
    · exact follows.run
        (.insert (newLog logID userID tenantID path method clientIP (system.clock - elapsed)))
  | respond logID statusCode metricsPath detail => exact follows.run _
  | perform write outcome =>
    simp only [LogSystem.step]
    split
    · exact follows.perform write outcome
    · exact follows
  | land write =>
    simp only [LogSystem.step]
    split
    · exact follows.commit write
    · exact follows
  | reconcile waited => exact follows.rewritten (LogTables.rewrites_reconcile _ system.tables)
  | clear userID elapsed => exact follows.clear userID (system.clock - elapsed)
  | tick | close => exact follows

end Follows

/-- A log keeps what its request put into it, does not go back to pending, and leaves the table
only by a clear-index call, once it is completed; whatever error detail there is belongs to a
log that is there and completed. -/
theorem log_life (events more : List RequestLogEvent) :
    (∀ row ∈ (runFrom step initial events).tables.requestLogs,
      (∃ new ∈ (runFrom step initial (events ++ more)).tables.requestLogs, LogChange row new) ∨
      ∃ last ∈ (runFrom step initial (events ++ more)).cleared,
        LogChange row last ∧ last.status = .completed) ∧
    ∀ detail ∈ (runFrom step initial events).tables.errorDetails,
      ∃ row ∈ (runFrom step initial events).tables.requestLogs,
        row.id = detail.requestID ∧ row.status = .completed := by
  refine ⟨fun row stored => ?_, (sound_run events).detailed⟩
  rw [runFrom_append]
  exact invariant_run (P := Follows row) (fun _ event follows => follows.step event)
    (.inl ⟨row, stored, .refl row⟩) more

/-- A request that fails at LCE, then a clear-index call of the same user. -/
def failedCall : List RequestLogEvent :=
  [.arrive 0 "log" "alice" "alice" "/mcp" "POST" "::1",
    .perform (.insert (newLog "log" "alice" "alice" "/mcp" "POST" "::1" 0)) .reached, .tick 5,
    .respond "log" 200 "" (some ⟨"lce", "timeout"⟩),
    .perform (.complete ⟨"log", 200, 5, "", some "log"⟩ (some ⟨"lce", "timeout"⟩)) .reached]

theorem log_life_failedCall :
    (∃ row ∈ (runFrom step initial failedCall).tables.requestLogs,
      row.id = "log" ∧ row.status = .completed) ∧
    ∃ last ∈ (runFrom step initial (failedCall ++ [.clear "alice" 0])).cleared,
      last.id = "log" ∧ last.status = .completed := by
  have life := log_life failedCall [.clear "alice" 0]
  obtain ⟨row, stored, named, completed⟩ := life.2 ⟨"log", "lce", "timeout"⟩ (by decide +kernel)
  refine ⟨⟨row, stored, named, completed⟩, ?_⟩
  rcases life.1 row stored with ⟨new, present, -⟩ | ⟨last, cleared, change, ended⟩
  · have none : (runFrom step initial (failedCall ++ [.clear "alice" 0])).tables.requestLogs.rows =
        [] := by decide +kernel
    rw [Table.mem_def, none] at present
    cases present
  · exact ⟨last, cleared, change.id.trans named, ended⟩

end LogSystem

end AcemcpRelay
