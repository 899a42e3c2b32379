import AcemcpRelay.JobID
import AcemcpRelay.Properties.LeaseCompatibility

/-!
# One job row, one owner

Operations on a job exclude each other through the resource text of their leases,
which is built from the text the caller sent. The database row is found by the
value of that text. The two identities coincide as long as a row's leases are all
spelled alike.

`rowOf` stands for the reading of a text as a row identifier; the results hold for
every such reading.
-/
namespace AcemcpRelay

open Store

/-- The operations of `codebase_index` on a job, and the reconciler. -/
inductive JobOperation where
  | upload
  | complete
  | fail
  | reconcile
  deriving DecidableEq, Repr

def JobOperation.kind : JobOperation → String
  | .upload => indexUploadBatchKind
  | .complete => "complete-job"
  | .fail => "fail-job"
  | .reconcile => "reconcile-publication"

/-- The lease that an operation on the job asks for, if its identifier is accepted. -/
def JobOperation.acquire (operation : JobOperation) (userID jobID token : String) :
    Option Transaction :=
  let jobID := trimSpace jobID
  if uuidValidate jobID then
    some (.acquire userID (indexJobOperationResource jobID) operation.kind token .shared)
  else none

section

variable (rowOf : String → Option String)

/-- The row that a lease's resource is about. -/
def resourceRow (resource : String) : Option String :=
  match resource.toList with
  | 'j' :: 'o' :: 'b' :: ':' :: text => rowOf (String.ofList text)
  | _ => none

def takenFor (row : String) (lease : OperationLease) : Bool :=
  resourceRow rowOf lease.resource == some row

/-- Operations on one row exclude each other, uploads up to their number apart. -/
structure OneOwner (db : Database) (clock : Nat) : Prop where
  exclusive : ∀ row, ∀ a ∈ db.leases, ∀ b ∈ db.leases, a.userID = b.userID →
    a.live clock = true → b.live clock = true → takenFor rowOf row a = true →
    takenFor rowOf row b = true → a ≠ b →
    a.kind = indexUploadBatchKind ∧ b.kind = indexUploadBatchKind
  bounded : ∀ row userID, (db.leases.count fun lease => lease.userID == userID &&
    lease.live clock && takenFor rowOf row lease && lease.isUpload) ≤
      maxConcurrentIndexUploadsPerJob

/-- An attempt for a row spells it as the row's stored leases do. -/
def spelledAsStored (world : World) : Event → Bool
  | .commit _ (.acquire userID resource _ _ _) =>
    !world.db.leases.holds fun held =>
      held.userID == userID && (resourceRow rowOf resource).isSome &&
        resourceRow rowOf held.resource == resourceRow rowOf resource && held.resource != resource
  | _ => true

/-- The invariant: a tenant's stored leases for one row have one spelling. -/
def OneSpelling (leases : Table OperationLease.token) : Prop :=
  ∀ row, ∀ a ∈ leases, ∀ b ∈ leases, a.userID = b.userID → takenFor rowOf row a = true →
    takenFor rowOf row b = true → a.resource = b.resource

variable {rowOf}

theorem OneSpelling.step {world : World} {event : Event}
    (alike : OneSpelling rowOf world.db.leases) (spelled : spelledAsStored rowOf world event = true) :
    OneSpelling rowOf (world.step event).db.leases := by
  cases event with
  | tick elapsed => exact alike
  | commit waited transaction =>
    simp only [World.step]
    split
    · have change := world.db.exec_leases (world.clock - waited) world.clock transaction
      dsimp only
      generalize (world.db.exec (world.clock - waited) world.clock transaction).leases = after
        at change
      cases change with
      | same => exact alike
      | refused | deleted =>
        intro row a ha b hb
        exact alike row a (Table.mem_delete.mp ha).1 b (Table.mem_delete.mp hb).1
      | renewed userID token =>
        -- a renewal leaves tenant and resource alone
        intro row a ha b hb owner forA forB
        obtain ⟨a', ha', _, rfl⟩ := Database.source_of_mem_renew ha
        obtain ⟨b', hb', _, rfl⟩ := Database.source_of_mem_renew hb
        exact alike row a' ha' b' hb' owner forA forB
      | admitted userID resource kind token mode leases free inserted =>
        have agrees : ∀ held ∈ world.db.leases, held.userID = userID → ∀ row,
            takenFor rowOf row held = true → resourceRow rowOf resource = some row →
            held.resource = resource := by
          intro held stored owner row forHeld forWanted
          simp only [spelledAsStored, Bool.not_eq_true', Table.holds_eq_false] at spelled
          have compared := spelled held stored
          rw [takenFor, beq_iff_eq] at forHeld
          simpa [owner, forWanted, forHeld] using compared
        intro row a ha b hb owner forA forB
        rcases (Table.mem_insert inserted).mp ha with ha | ha
        · have storedA := (Table.mem_delete.mp ha).1
          rcases (Table.mem_insert inserted).mp hb with hb | hb
          · exact alike row a storedA b (Table.mem_delete.mp hb).1 owner forA forB
          · rw [List.mem_singleton] at hb
            subst hb
            exact agrees a storedA owner row forA (by simpa [takenFor, wantedLease] using forB)
        · rw [List.mem_singleton] at ha
          subst ha
          rcases (Table.mem_insert inserted).mp hb with hb | hb
          · have wanted : resourceRow rowOf resource = some row := by
              simpa [takenFor, wantedLease] using forA
            exact (agrees b (Table.mem_delete.mp hb).1 owner.symm row forB wanted).symm
          · rw [List.mem_singleton] at hb
            rw [hb]
    · exact alike

/-- One spelling and compatible leases make one owner. -/
theorem OneSpelling.oneOwner {db : Database} (alike : OneSpelling rowOf db.leases)
    (stored : StoredCompatible db.leases) (clock : Nat) : OneOwner rowOf db clock where
  exclusive row a ha b hb owner _ _ forA forB different := by
    have resource := alike row a ha b hb owner forA forB
    have apart := OperationLease.conflicts_eq_false.mp (stored.no_conflict a ha b hb owner different)
    exact apart.2.2 resource
  bounded row userID := by
    by_cases some_lease : ∃ lease ∈ db.leases, lease.userID = userID ∧ takenFor rowOf row lease = true
    · obtain ⟨lease, member, owner, taken⟩ := some_lease
      refine le_trans (Table.count_mono ?_) (stored.bounded userID lease.resource)
      intro other listed counted
      simp only [Bool.and_eq_true, beq_iff_eq] at counted ⊢
      have resource := alike row other listed lease member (counted.1.1.1.trans owner.symm)
        counted.1.2 taken
      exact ⟨⟨counted.1.1.1, resource⟩, counted.2⟩
    · have empty : (db.leases.count fun lease => lease.userID == userID && lease.live clock &&
          takenFor rowOf row lease && lease.isUpload) = 0 := by
        apply List.countP_eq_zero.mpr
        intro lease member counted
        simp only [Bool.and_eq_true, beq_iff_eq] at counted
        exact some_lease ⟨lease, member, counted.1.1.1, counted.1.2⟩
      omega

end

/-- **One job row, one owner**, in every state of every run in which each attempt
for a row is spelled as the row's stored leases are. -/
theorem oneOwner_throughout (rowOf : String → Option String) (events : List Event)
    (spelled : Along World.step (fun world event => spelledAsStored rowOf world event = true)
      World.initial events) :
    Throughout World.step (fun world => OneOwner rowOf world.db world.clock) World.initial
      events := by
  have preserved : ∀ (world : World) (event : Event),
      OneSpelling rowOf world.db.leases ∧ StoredCompatible world.db.leases →
      spelledAsStored rowOf world event = true →
      OneSpelling rowOf (world.step event).db.leases ∧
        StoredCompatible (world.step event).db.leases :=
    fun world event inv spelled => ⟨inv.1.step spelled, inv.2.step event⟩
  have initial : OneSpelling rowOf World.initial.db.leases ∧
      StoredCompatible World.initial.db.leases :=
    ⟨fun _ a ha => absurd ha (Table.not_mem_empty a), .empty⟩
  exact throughout_of_along preserved (fun world inv => inv.1.oneOwner inv.2 world.clock) initial
    events spelled

/-- An upload under the identifier as `start` returned it, and a completion of the
same job under its upper-case spelling. -/
def twoSpellings : List Event :=
  [JobOperation.upload.acquire "tenant" "f47ac10b-58cc-4372-a567-0e02b2c3d479" "lease-1",
   JobOperation.complete.acquire "tenant" "F47AC10B-58CC-4372-A567-0E02B2C3D479" "lease-2"
   ].filterMap (·.map (.commit 0))

theorem twoSpellings_two_owners :
    ¬ Throughout World.step (fun world => OneOwner postgresUUID world.db world.clock) World.initial
      twoSpellings := by
  intro always
  have owner := always.last
  have uploads := owner.exclusive "f47ac10b-58cc-4372-a567-0e02b2c3d479"
    { token := "lease-1", userID := "tenant", mode := .shared, kind := indexUploadBatchKind
      resource := "job:f47ac10b-58cc-4372-a567-0e02b2c3d479", expiresAt := 120000 } (by decide)
    { token := "lease-2", userID := "tenant", mode := .shared, kind := "complete-job"
      resource := "job:F47AC10B-58CC-4372-A567-0E02B2C3D479", expiresAt := 120000 } (by decide)
    rfl (by decide) (by decide) (by decide) (by decide) (by decide)
  exact absurd uploads.2 (by decide)

/-- Two uploads and a completion, all spelled alike; the completion has to wait. -/
def oneSpelling : List Event :=
  [JobOperation.upload.acquire "tenant" "f47ac10b-58cc-4372-a567-0e02b2c3d479" "lease-1",
   JobOperation.upload.acquire "tenant" "f47ac10b-58cc-4372-a567-0e02b2c3d479" "lease-2",
   JobOperation.complete.acquire "tenant" "f47ac10b-58cc-4372-a567-0e02b2c3d479" "lease-3"
   ].filterMap (·.map (.commit 0))

theorem oneOwner_oneSpelling :
    (runFrom World.step World.initial oneSpelling).db.leases.rows.length = 2 ∧
      Throughout World.step (fun world => OneOwner postgresUUID world.db world.clock) World.initial
        oneSpelling :=
  ⟨by decide, oneOwner_throughout postgresUUID oneSpelling (by decide)⟩

end AcemcpRelay
