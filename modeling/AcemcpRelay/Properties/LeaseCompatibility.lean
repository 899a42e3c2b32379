import AcemcpRelay.Frame

/-!
# Lease compatibility

The live leases of a tenant never conflict: an exclusive one stands alone, and
two on one resource are upload batches, of which there are at most
`maxConcurrentIndexUploadsPerJob`.

## Proof strategy

A renewal can revive a row whose expiry has passed, so the statement about live
rows is not inductive. The invariant is about all stored rows, live or not: an
attempt that is admitted at `now` has deleted the tenant's rows that are dead at
`now` and has compared itself with the others, whatever `now` is.
-/
namespace AcemcpRelay

open Store

/-- What the admission statement promises about the live leases of every tenant. -/
structure LeasesCompatible (db : Database) (now : Nat) : Prop where
  exclusive_alone : ∀ a ∈ db.leases, ∀ b ∈ db.leases, a.userID = b.userID →
    a.live now = true → b.live now = true → a.mode = .exclusive → a = b
  same_resource : ∀ a ∈ db.leases, ∀ b ∈ db.leases, a.userID = b.userID →
    a.live now = true → b.live now = true → a.resource = b.resource → a ≠ b →
    a.kind = indexUploadBatchKind ∧ b.kind = indexUploadBatchKind
  upload_bound : ∀ userID resource,
    db.uploadsOn now userID resource ≤ maxConcurrentIndexUploadsPerJob

/-- Upload leases of a tenant on a resource, dead rows included. -/
def storedUploads (leases : Table OperationLease.token) (userID resource : String) : Nat :=
  leases.count fun held => held.userID == userID && held.resource == resource && held.isUpload

/-- The invariant: compatibility of all stored rows. -/
structure StoredCompatible (leases : Table OperationLease.token) : Prop where
  no_conflict : ∀ a ∈ leases, ∀ b ∈ leases, a.userID = b.userID → a ≠ b → a.conflicts b = false
  bounded : ∀ userID resource,
    storedUploads leases userID resource ≤ maxConcurrentIndexUploadsPerJob

namespace StoredCompatible

variable {leases : Table OperationLease.token}

theorem empty : StoredCompatible .empty where
  no_conflict := by simp
  bounded := by simp [storedUploads, Table.count, Table.empty]

theorem delete (stored : StoredCompatible leases) (p : OperationLease → Bool) :
    StoredCompatible (leases.delete p) where
  no_conflict a ha b hb :=
    stored.no_conflict a (Table.mem_delete.mp ha).1 b (Table.mem_delete.mp hb).1
  bounded userID resource :=
    (Table.count_delete_le leases p _).trans (stored.bounded userID resource)

/-- A renewal moves expiries only, which no conflict looks at. -/
theorem renew {db : Database} (stored : StoredCompatible db.leases) (now : Nat)
    (userID token : String) :
    StoredCompatible (db.renewIndexOperation now userID token).leases where
  no_conflict a ha b hb same different := by
    obtain ⟨a', ha', rfl⟩ := Database.mem_renewIndexOperation.mp ha
    obtain ⟨b', hb', rfl⟩ := Database.mem_renewIndexOperation.mp hb
    have owner : a'.userID = b'.userID := by split at same <;> split at same <;> exact same
    have distinct : a' ≠ b' := fun equal => different (by rw [equal])
    have before := stored.no_conflict a' ha' b' hb' owner distinct
    split <;> split <;> exact before
  bounded owner resource := by
    refine le_trans (le_of_eq ?_) (stored.bounded owner resource)
    simp only [storedUploads, Database.renewIndexOperation]
    apply Table.count_update
    intro held _ _
    rfl

/-- The rows that survive the admission statement's `DELETE` are live for their tenant. -/
theorem live_of_mem_dropExpired {db : Database} {now : Nat} {userID : String} {held : OperationLease}
    (member : held ∈ db.dropExpiredLeases now userID) (owner : held.userID = userID) :
    held ∈ db.leases ∧ held.live now = true := by
  obtain ⟨stored, kept⟩ := Table.mem_delete.mp member
  refine ⟨stored, ?_⟩
  simpa [owner] using kept

/-- Whatever an admitted lease meets in the table, it has been compared with. -/
theorem no_conflict_of_admits {db : Database} {now : Nat} {wanted held : OperationLease}
    (free : db.admits now wanted = true) (member : held ∈ db.dropExpiredLeases now wanted.userID)
    (owner : held.userID = wanted.userID) : held.conflicts wanted = false := by
  obtain ⟨stored, live⟩ := live_of_mem_dropExpired member owner
  simp only [Database.admits, Bool.and_eq_true, Bool.not_eq_true', Table.holds_eq_false] at free
  have compared := free.1.1.1 held stored
  simpa [owner, live] using compared

theorem storedUploads_of_admits {db : Database} {now : Nat} {wanted : OperationLease}
    (free : db.admits now wanted = true) (upload : wanted.isUpload = true) :
    storedUploads (db.dropExpiredLeases now wanted.userID) wanted.userID wanted.resource <
      maxConcurrentIndexUploadsPerJob := by
  simp only [Database.admits, Bool.and_eq_true, Bool.or_eq_true, Bool.not_eq_true',
    decide_eq_true_eq, upload, Bool.true_eq_false, false_or] at free
  refine lt_of_le_of_lt ?_ free.1.1.2
  -- the rows counted after the deletion are counted by the statement as live ones
  have narrowed : storedUploads (db.dropExpiredLeases now wanted.userID) wanted.userID
        wanted.resource ≤
      (db.dropExpiredLeases now wanted.userID).count fun held =>
        held.userID == wanted.userID && held.live now && held.resource == wanted.resource &&
          held.isUpload := by
    apply Table.count_mono
    intro held member counted
    simp only [Bool.and_eq_true, beq_iff_eq] at counted ⊢
    exact ⟨⟨⟨counted.1.1, (live_of_mem_dropExpired member counted.1.1).2⟩, counted.1.2⟩, counted.2⟩
  exact narrowed.trans (Table.count_delete_le _ _ _)

theorem admission {db : Database} {now : Nat} {wanted : OperationLease}
    (stored : StoredCompatible db.leases) (free : db.admits now wanted = true)
    (inserted : (db.dropExpiredLeases now wanted.userID).insert [wanted] = some leases) :
    StoredCompatible leases where
  no_conflict a ha b hb same different := by
    have kept := stored.delete fun held => held.userID == wanted.userID && !held.live now
    rcases (Table.mem_insert inserted).mp ha with ha | ha
    · rcases (Table.mem_insert inserted).mp hb with hb | hb
      · exact kept.no_conflict a ha b hb same different
      · rw [List.mem_singleton] at hb
        subst hb
        exact no_conflict_of_admits free ha same
    · rw [List.mem_singleton] at ha
      subst ha
      rcases (Table.mem_insert inserted).mp hb with hb | hb
      · rw [OperationLease.conflicts_comm]
        exact no_conflict_of_admits free hb same.symm
      · exact absurd (List.mem_singleton.mp hb).symm different
  bounded userID resource := by
    have kept := (stored.delete fun held =>
      held.userID == wanted.userID && !held.live now).bounded userID resource
    rw [storedUploads, Table.count_insert inserted, List.countP_singleton]
    split
    next counted =>
      simp only [Bool.and_eq_true, beq_iff_eq] at counted
      obtain ⟨⟨rfl, rfl⟩, upload⟩ := counted
      exact storedUploads_of_admits free upload
    · exact kept

/-- One transaction, whatever its time, keeps the invariant. -/
theorem exec {db : Database} (stored : StoredCompatible db.leases) (now clock : Nat)
    (transaction : Transaction) :
    StoredCompatible (db.exec now clock transaction).leases := by
  have change := db.exec_leases now clock transaction
  generalize (db.exec now clock transaction).leases = after at change ⊢
  cases change with
  | same => exact stored
  | refused userID => exact stored.delete _
  | admitted userID resource kind token mode leases free inserted =>
    exact stored.admission free inserted
  | renewed userID token => exact stored.renew now userID token
  | deleted => exact stored.delete _

theorem step {world : World} (stored : StoredCompatible world.db.leases) (event : Event) :
    StoredCompatible (world.step event).db.leases := by
  cases event with
  | tick elapsed => exact stored
  | commit waited transaction =>
    simp only [World.step]
    split
    · exact stored.exec _ _ transaction
    · exact stored

/-- Compatible rows are compatible while they live. -/
theorem compatible {db : Database} (stored : StoredCompatible db.leases) (now : Nat) :
    LeasesCompatible db now where
  exclusive_alone a ha b hb owner _ _ exclusive := by
    by_contra different
    have apart := OperationLease.conflicts_eq_false.mp (stored.no_conflict a ha b hb owner different)
    rw [exclusive] at apart
    exact OperationMode.noConfusion apart.1
  same_resource a ha b hb owner _ _ resource different := by
    have apart := OperationLease.conflicts_eq_false.mp (stored.no_conflict a ha b hb owner different)
    exact apart.2.2 resource
  upload_bound userID resource := by
    refine le_trans (Table.count_mono ?_) (stored.bounded userID resource)
    intro held _ counted
    simp only [Bool.and_eq_true] at counted ⊢
    exact ⟨⟨counted.1.1.1, counted.1.2⟩, counted.2⟩

end StoredCompatible

/-- The invariant holds along every run. -/
theorem storedCompatible_run (events : List Event) :
    StoredCompatible (runFrom World.step World.initial events).db.leases := by
  have preserved (world : World) (event : Event) (stored : StoredCompatible world.db.leases) :
      StoredCompatible (world.step event).db.leases := stored.step event
  exact invariant_run preserved .empty events

/-- **Lease table compatibility**: after any sequence of attempts, renewals,
releases and clock advances, with any other transactions in between, the live
leases of each tenant are compatible. -/
theorem leasesCompatible_run (events : List Event) :
    LeasesCompatible (runFrom World.step World.initial events).db
      (runFrom World.step World.initial events).clock :=
  (storedCompatible_run events).compatible _

end AcemcpRelay
