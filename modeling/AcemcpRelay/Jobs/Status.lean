import AcemcpRelay.Jobs.Upload

/-!
# Status and heartbeat

The two operations of the tool that look at a job without a lease. A heartbeat
also moves the expiry of the job, here and at LCE.
-/
namespace AcemcpRelay

open Store

namespace Database

/-- `getIndexJob`. -/
def getIndexJob (userID jobID : String) (db : Database) : Except String IndexJob :=
  match db.loadIndexJob userID jobID with
  | none => .error "index job not found"
  | some job => .ok job

/-- The `heartbeat` operation: its answer and the database after. `renewed` is what comes
of the `renew` request to LCE. -/
def handleHeartbeat (now : Nat) (userID jobID : String) (renewed : Except String Unit)
    (db : Database) : Except String IndexJob × Database :=
  match db.getIndexJob userID jobID with
  | .error message => (.error message, db)
  | .ok job =>
    if job.status = .running ∧ job.phase ≠ .publishing then
      let beating := db.heartbeat now userID jobID
      match renewed with
      | .error message => (.error message, beating)
      | .ok () =>
        match beating.loadIndexJob userID jobID with
        | none => (.error "sql: no rows in result set", beating)
        | some job => (.ok job, beating)
    else (.ok job, db)

end Database

end AcemcpRelay
