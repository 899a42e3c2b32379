import AcemcpRelay.Schema

/-!
# Operation leases

`index_operations.go`. Every index operation holds a row of
`index_operation_leases` while it works. One statement admits it: it deletes the
tenant's expired rows, tests the live ones for a conflict, and inserts the new
row. `renew` moves the expiry of a row for as long as the row exists, whether or
not it has already passed; `Release` deletes the row.

`now` is PostgreSQL's `NOW()`, the start of the transaction. A transaction may
wait for the tenant's advisory lock after that, so `now` can lie behind the clock
when the statement runs.
-/
namespace AcemcpRelay

open Store

def indexOperationLeaseDuration : Nat := 2 * 60 * 1000

def indexUploadBatchKind : String := "upload-batch"

def maxConcurrentIndexUploadsPerJob : Nat := 4

/-- The kind of the lease under which the durable root deletion works. -/
def deleteRootJobKind : String := "delete-root-job"

def indexJobOperationResource (jobID : String) : String := "job:" ++ jobID

namespace OperationLease

/-- `lease_expires_at > NOW()`. -/
def live (lease : OperationLease) (now : Nat) : Bool := decide (now < lease.expiresAt)

def isUpload (lease : OperationLease) : Bool := lease.kind == indexUploadBatchKind

/-- The conflict predicate of the admitting statement, between a stored lease and
the one that is asked for. -/
def conflicts (held wanted : OperationLease) : Bool :=
  held.mode == .exclusive || wanted.mode == .exclusive ||
    (held.resource == wanted.resource && !(held.isUpload && wanted.isUpload))

theorem conflicts_comm (a b : OperationLease) : a.conflicts b = b.conflicts a := by
  simp only [conflicts, Bool.or_comm (a.mode == .exclusive), Bool.and_comm a.isUpload,
    BEq.comm (a := a.resource)]

/-- Two leases that do not conflict are shared, and uploads if their resources agree. -/
theorem conflicts_eq_false {held wanted : OperationLease} :
    held.conflicts wanted = false ↔
      held.mode = .shared ∧ wanted.mode = .shared ∧
        (held.resource = wanted.resource →
          held.kind = indexUploadBatchKind ∧ wanted.kind = indexUploadBatchKind) := by
  have shared (mode : OperationMode) : (mode == .exclusive) = false ↔ mode = .shared := by
    cases mode <;> decide
  simp only [conflicts, isUpload, Bool.or_eq_false_iff, Bool.and_eq_false_iff, shared,
    Bool.not_eq_false', Bool.and_eq_true, beq_iff_eq, beq_eq_false_iff_ne, and_assoc]
  refine and_congr_right fun _ => and_congr_right fun _ => ?_
  exact Classical.or_iff_not_imp_left.trans (by rw [not_not])

/-- The lease with its expiry moved. -/
def renew (lease : OperationLease) (now : Nat) : OperationLease :=
  { lease with expiresAt := now + indexOperationLeaseDuration }

end OperationLease

namespace Database

/-- The live leases of a tenant on one resource that are upload batches. -/
def uploadsOn (db : Database) (now : Nat) (userID resource : String) : Nat :=
  db.leases.count fun held =>
    held.userID == userID && held.live now && held.resource == resource && held.isUpload

/-- The `WHERE` of the admitting `INSERT`. -/
def admits (db : Database) (now : Nat) (wanted : OperationLease) : Bool :=
  !db.leases.holds (fun held =>
      held.userID == wanted.userID && held.live now && held.conflicts wanted) &&
    (!wanted.isUpload ||
      decide (db.uploadsOn now wanted.userID wanted.resource < maxConcurrentIndexUploadsPerJob)) &&
    !db.rootDeletionJobs.holds (fun job =>
      job.userID == wanted.userID && job.active && wanted.kind != deleteRootJobKind) &&
    !db.platformConfigJobs.holds PlatformConfigJob.fencing

/-- The `DELETE` of the admitting statement. -/
def dropExpiredLeases (db : Database) (now : Nat) (userID : String) : Table OperationLease.token :=
  db.leases.delete fun held => held.userID == userID && !held.live now

/-- `tryAcquireIndexOperation`: whether the lease was acquired, and the database
after. `none` is an error of the statement, which leaves nothing behind. -/
def tryAcquireIndexOperation (now : Nat) (userID resource kind token : String)
    (mode : OperationMode) (db : Database) : Option (Bool × Database) :=
  let wanted : OperationLease :=
    { token, userID, resource, mode, kind, expiresAt := now + indexOperationLeaseDuration }
  let remaining := db.dropExpiredLeases now userID
  if db.admits now wanted then
    (remaining.insert [wanted]).map fun leases => (true, { db with leases })
  else
    -- a refused attempt commits as well, so the expired rows are gone either way
    some (false, { db with leases := remaining })

/-- The `UPDATE` of `renew`. -/
def renewIndexOperation (now : Nat) (userID token : String) (db : Database) : Database :=
  { db with
    leases := db.leases.update (fun held => held.userID == userID && held.token == token)
      (·.renew now) }

/-- A renewed table has the old rows, some of them with a new expiry. -/
theorem mem_renewIndexOperation {db : Database} {now : Nat} {userID token : String}
    {held : OperationLease} :
    held ∈ (db.renewIndexOperation now userID token).leases ↔
      ∃ old ∈ db.leases, held =
        if (old.userID == userID && old.token == token) = true then old.renew now else old := by
  simp only [renewIndexOperation, Table.mem_update]

/-- The `DELETE` of `Release`. -/
def releaseIndexOperation (userID token : String) (db : Database) : Database :=
  { db with leases := db.leases.delete fun held => held.userID == userID && held.token == token }

theorem source_of_mem_renew {db : Database} {now : Nat} {userID token : String}
    {held : OperationLease} (member : held ∈ (db.renewIndexOperation now userID token).leases) :
    ∃ old ∈ db.leases, ∃ expiresAt, held = { old with expiresAt } := by
  obtain ⟨old, stored, rfl⟩ := mem_renewIndexOperation.mp member
  split
  · exact ⟨old, stored, _, rfl⟩
  · exact ⟨old, stored, old.expiresAt, rfl⟩

end Database

end AcemcpRelay
