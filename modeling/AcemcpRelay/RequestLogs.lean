import AcemcpRelay.Store.Table
import AcemcpRelay.Store.Transition
import AcemcpRelay.Text

/-!
# Request logs

`authMiddleware` hands the insertion of a request's log to a background write and goes on;
the handler hands over the completion when it has answered. The two goroutines run in any
order, next to those of other requests, to the reconciler, to the deletions of clear-index
calls and to the shutdown, which seals `requestLogWrites` and waits for what it admitted.

A statement whose answer is lost, because the connection breaks or the ten seconds are over,
may still be run by PostgreSQL: at once or after the goroutine has ended, even after the
shutdown.
-/
namespace AcemcpRelay

open Store

/-! ### The tables -/

inductive RequestLogStatus where
  | pending
  | completed
  deriving DecidableEq, Repr

/-- A row of `request_logs`. -/
structure RequestLog where
  id : String
  userID : String
  tenantID : String
  status : RequestLogStatus
  statusCode : Option Int
  requestPath : String
  requestMethod : String
  requestTimestamp : Nat
  responseDurationMs : Option Nat
  clientIP : String
  deriving DecidableEq, Repr

/-- A row of `error_details`. -/
structure ErrorDetail where
  requestID : String
  source : String
  error : String
  deriving DecidableEq, Repr

structure LogTables where
  requestLogs : Table RequestLog.id
  errorDetails : List ErrorDetail

/-- What a handler knows of its request when it completes the log. -/
structure RequestLogEntry where
  logID : String
  statusCode : Int
  responseDuration : Nat
  requestPath : String
  /-- The request whose `insertDone` channel the completion waits for. -/
  insertDone : Option String
  deriving DecidableEq, Repr

structure RequestLogErrorDetail where
  source : String
  message : String
  deriving DecidableEq, Repr

def staleRequestLogAfter : Nat := 15 * 60 * 1000

/-- The error of a statement that PostgreSQL refuses or that does not reach it. -/
def requestLogFailure : String := "request log statement failed"

namespace LogTables

/-- The columns are wide enough for the row. -/
def fits (row : RequestLog) : Bool :=
  varchar 255 row.userID && varchar 255 row.tenantID && varchar 512 row.requestPath &&
    varchar 10 row.requestMethod && varchar 45 row.clientIP

/-- The `INSERT` of `authMiddleware`. -/
def insertRequestLog (row : RequestLog) (tables : LogTables) : Except String LogTables :=
  if fits row then
    match tables.requestLogs.insert [row] with
    | some requestLogs => .ok { tables with requestLogs }
    | none => .error requestLogFailure
  else .error requestLogFailure

/-- `updateQuery` on the row of its log. -/
def completeLog (entry : RequestLogEntry) (row : RequestLog) : RequestLog :=
  { row with
    status := .completed, statusCode := some entry.statusCode
    responseDurationMs := some entry.responseDuration
    requestPath := if entry.requestPath = "" then row.requestPath else entry.requestPath }

/-- `updateQuery`, and whether it found the row. -/
def updateLog (entry : RequestLogEntry) (tables : LogTables) : Except String (Bool × LogTables) :=
  if tables.requestLogs.holds (·.id == entry.logID) then
    if varchar 512 entry.requestPath then
      .ok (true, { tables with
        requestLogs := tables.requestLogs.update (·.id == entry.logID) (completeLog entry) })
    else .error requestLogFailure
  else .ok (false, tables)

/-- `INSERT INTO error_details`: the request has to be there. -/
def insertDetail (requestID : String) (detail : RequestLogErrorDetail) (tables : LogTables) :
    Except String LogTables :=
  if tables.requestLogs.holds (·.id == requestID) && varchar 20 detail.source then
    .ok { tables with
      errorDetails := ⟨requestID, detail.source, detail.message⟩ :: tables.errorDetails }
  else .error requestLogFailure

/-- `persistRequestLogCompletion`, once `insertDone` is closed. A transaction that ends with an
error or without a row is rolled back. -/
def persistRequestLogCompletion (entry : RequestLogEntry) (detail : Option RequestLogErrorDetail)
    (tables : LogTables) : Except String (Bool × LogTables) :=
  if entry.logID = "" then .ok (true, tables)
  else match detail.filter (·.message ≠ "") with
    | none => tables.updateLog entry
    | some detail =>
      match tables.insertDetail entry.logID detail with
      | .error failure => .error failure
      | .ok withDetail =>
        match withDetail.updateLog entry with
        | .error failure => .error failure
        -- without the log the transaction is rolled back, and the detail with it
        | .ok (false, _) => .ok (false, tables)
        | .ok (true, after) => .ok (true, after)

def reconcileStaleRequestLogs (now : Nat) (tables : LogTables) : LogTables :=
  { tables with
    requestLogs := tables.requestLogs.update
      (fun row => row.status == .pending && decide (row.requestTimestamp + staleRequestLogAfter < now))
      (fun row => { row with
        status := .completed, statusCode := some 499
        responseDurationMs := some (now - row.requestTimestamp) }) }

/-- What `deleteCompletedUserLogsBefore` selects. -/
def clearable (userID : String) (before : Nat) (row : RequestLog) : Bool :=
  row.userID == userID && decide (row.requestTimestamp < before) && row.status == .completed

/-- `deleteCompletedUserLogsBefore`, with what `ON DELETE CASCADE` takes along. -/
def deleteCompletedUserLogsBefore (userID : String) (before : Nat) (tables : LogTables) :
    LogTables :=
  { requestLogs := tables.requestLogs.delete (clearable userID before)
    errorDetails := tables.errorDetails.filter fun detail =>
      !(tables.requestLogs.holds fun row =>
        row.id == detail.requestID && clearable userID before row) }

end LogTables

/-! ### The goroutines -/

/-- The function of a background write. -/
inductive LogWrite where
  | insert (row : RequestLog)
  | complete (entry : RequestLogEntry) (detail : Option RequestLogErrorDetail)
  deriving DecidableEq, Repr

/-- The request whose log the write inserts. -/
def LogWrite.inserts : LogWrite → Option String
  | .insert row => some row.id
  | .complete _ _ => none

/-- What PostgreSQL does with the statements of a write, and whether they find a row. -/
def LogTables.execute (tables : LogTables) : LogWrite → Except String (Bool × LogTables)
  | .insert row => (tables.insertRequestLog row).map fun after => (true, after)
  | .complete entry detail => tables.persistRequestLogCompletion entry detail

/-- `backgroundWrites`. -/
structure BackgroundWrites where
  closed : Bool
  active : List LogWrite

/-- `run`: whether the write was admitted. -/
def BackgroundWrites.run (write : LogWrite) (writes : BackgroundWrites) : Bool × BackgroundWrites :=
  if writes.closed then (false, writes) else (true, { writes with active := write :: writes.active })

/-- The goroutine of a write is over. -/
def BackgroundWrites.finish (write : LogWrite) (writes : BackgroundWrites) : BackgroundWrites :=
  { writes with active := writes.active.erase write }

/-- The first half of `drain`. -/
def BackgroundWrites.close (writes : BackgroundWrites) : BackgroundWrites :=
  { writes with closed := true }

/-- What `authMiddleware` leaves in the context of a request about its log. -/
structure LogContext where
  logID : String
  startTime : Nat
  deriving DecidableEq, Repr

/-- What the goroutine of a write has been told when it ends. -/
inductive WriteAnswer where
  | done
  /-- The completion has found no row. -/
  | noRow
  | failed
  deriving DecidableEq, Repr

structure EndedWrite where
  write : LogWrite
  answer : WriteAnswer
  deriving DecidableEq, Repr

structure LogSystem where
  clock : Nat
  tables : LogTables
  writes : BackgroundWrites
  /-- The requests whose `insertDone` channel is open. -/
  awaited : List String
  contexts : Table LogContext.logID
  /-- Statements whose answer was lost and that PostgreSQL may still run. -/
  adrift : List LogWrite
  /-- The requests whose log has been inserted. -/
  stored : List String
  /-- The rows that clear-index calls have deleted, as they were then. -/
  cleared : List RequestLog
  /-- The writes that were admitted, and those that are over. -/
  admitted : List LogWrite
  ended : List EndedWrite

/-- What becomes of one attempt of a background write. -/
inductive WriteOutcome where
  /-- Its statements reach the database, and their answers arrive. -/
  | reached
  /-- The answer to the last of them is lost: PostgreSQL commits it now, later or not at all.
  `database/sql` may send it again. -/
  | unanswered
  /-- The write is given up: a statement has failed, or the ten seconds are over. -/
  | failed
  deriving DecidableEq, Repr

inductive RequestLogEvent where
  | tick (elapsed : Nat)
  /-- A request passes `authMiddleware`, `elapsed` after it came in. -/
  | arrive (elapsed : Nat) (logID userID tenantID path method clientIP : String)
  /-- A handler completes the log of its request. A request of the console has none. -/
  | respond (logID : String) (statusCode : Int) (metricsPath : String)
      (detail : Option RequestLogErrorDetail)
  | perform (write : LogWrite) (outcome : WriteOutcome)
  /-- PostgreSQL runs a statement whose answer was lost. -/
  | land (write : LogWrite)
  | reconcile (waited : Nat)
  /-- The goroutine of a clear-index call, which came in `elapsed` ago, deletes the logs. -/
  | clear (userID : String) (elapsed : Nat)
  | close

namespace LogSystem

def initial : LogSystem :=
  { clock := 0, tables := ⟨.empty, []⟩, writes := ⟨false, []⟩, awaited := [], contexts := .empty
    adrift := [], stored := [], cleared := [], admitted := [], ended := [] }

/-- Hands a write to `requestLogWrites`. -/
def run (write : LogWrite) (system : LogSystem) : LogSystem :=
  let (accepted, writes) := system.writes.run write
  { system with
    writes
    admitted := if accepted then write :: system.admitted else system.admitted }

/-- The row that `authMiddleware` inserts. -/
def newLog (logID userID tenantID path method clientIP : String) (startTime : Nat) : RequestLog :=
  { id := logID, userID, tenantID, status := .pending, statusCode := none, requestPath := path
    requestMethod := method, requestTimestamp := startTime, responseDurationMs := none, clientIP }

/-- The part of `authMiddleware` that deals with the log: when `requestLogWrites` is closed, it
closes `insertDone` itself. -/
def arrive (context : LogContext) (row : RequestLog) (contexts : Table LogContext.logID)
    (system : LogSystem) : LogSystem :=
  { system.run (.insert row) with
    contexts
    awaited := if system.writes.closed then system.awaited else context.logID :: system.awaited }

/-- `getRequestLogEntry`. A request of the console has no log, and nothing else of its entry is
read. -/
def getRequestLogEntry (system : LogSystem) (logID : String) (statusCode : Int)
    (metricsPath : String) : RequestLogEntry :=
  match system.contexts.lookup logID with
  -- a request that was not logged: its completion is a no-op
  | none => { logID := "", statusCode, responseDuration := 0, requestPath := metricsPath
              insertDone := none }
  | some context =>
    { logID, statusCode, responseDuration := system.clock - context.startTime
      requestPath := metricsPath, insertDone := some logID }

/-- `completeRequestLogRecordAsync`, and the two functions before it. -/
def respond (logID : String) (statusCode : Int) (metricsPath : String)
    (detail : Option RequestLogErrorDetail) (system : LogSystem) : LogSystem :=
  system.run (.complete (system.getRequestLogEntry logID statusCode metricsPath)
    (detail.filter (·.message ≠ "")))

/-- PostgreSQL runs the statements of a write. -/
def commit (write : LogWrite) (system : LogSystem) : LogSystem :=
  match system.tables.execute write with
  | .ok (_, tables) => { system with tables, stored := write.inserts.toList ++ system.stored }
  | .error _ => system

/-- What the goroutine is told of it. -/
def answer (write : LogWrite) (system : LogSystem) : WriteAnswer :=
  match system.tables.execute write with
  | .ok (true, _) => .done
  | .ok (false, _) => .noRow
  | .error _ => .failed

/-- The write is over. The goroutine of an insertion closes `insertDone` in any case. -/
def finish (write : LogWrite) (answer : WriteAnswer) (system : LogSystem) : LogSystem :=
  { system with
    writes := system.writes.finish write
    awaited := system.awaited.filter fun logID => some logID != write.inserts
    ended := ⟨write, answer⟩ :: system.ended }

/-- The write does not wait, or `insertDone` is closed. -/
def ready (system : LogSystem) : LogWrite → Bool
  | .insert _ => true
  | .complete entry _ =>
    match entry.insertDone with
    | none => true
    | some logID => !system.awaited.contains logID

def perform (write : LogWrite) (outcome : WriteOutcome) (system : LogSystem) : LogSystem :=
  match outcome with
  | .failed => system.finish write .failed
  | .reached =>
    if system.ready write then (system.commit write).finish write (system.answer write) else system
  | .unanswered =>
    if system.ready write then { system with adrift := write :: system.adrift } else system

/-- `deleteUserLogsAsync` of a clear-index call that began at `startTime`. -/
def clear (userID : String) (startTime : Nat) (system : LogSystem) : LogSystem :=
  { system with
    tables := system.tables.deleteCompletedUserLogsBefore userID startTime
    cleared := system.tables.requestLogs.select (LogTables.clearable userID startTime) ++
      system.cleared }

def step (system : LogSystem) : RequestLogEvent → LogSystem
  | .tick elapsed => { system with clock := system.clock + elapsed }
  | .arrive elapsed logID userID tenantID path method clientIP =>
    let context : LogContext := ⟨logID, system.clock - elapsed⟩
    -- `uuid.New` does not repeat an identifier
    match system.contexts.insert [context] with
    | none => system
    | some contexts =>
      system.arrive context
        (newLog logID userID tenantID path method clientIP (system.clock - elapsed)) contexts
  | .respond logID statusCode metricsPath detail =>
    system.respond logID statusCode metricsPath detail
  | .perform write outcome =>
    if write ∈ system.writes.active then system.perform write outcome else system
  | .land write =>
    if write ∈ system.adrift then { system.commit write with adrift := system.adrift.erase write }
    else system
  | .reconcile waited =>
    { system with tables := system.tables.reconcileStaleRequestLogs (system.clock - waited) }
  | .clear userID elapsed => system.clear userID (system.clock - elapsed)
  | .close => { system with writes := system.writes.close }

/-- `drain` has returned. -/
def Drained (system : LogSystem) : Prop :=
  system.writes.closed = true ∧ system.writes.active = []

end LogSystem

end AcemcpRelay
