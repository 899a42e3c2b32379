import AcemcpRelay.Store.Oldest
import AcemcpRelay.Transactions

/-!
# Sweeps over publications

`reconcileIndexPublications` selects the eight publishing jobs with the oldest heartbeats,
renews the heartbeat of each when its turn comes, and then asks LCE about it. A deadline may
end a sweep before all have had their turn. One goroutine sweeps, so that no two sweeps
overlap; whatever else is committed comes between its statements, what an attempt commits
for its job included.

Every statement has a time of its own, later than those before it.
-/
namespace AcemcpRelay

open Store

structure PublicationCandidate where
  id : String
  user : String
  root : String
  since : Option Nat
  deriving DecidableEq, Repr

namespace IndexJob

/-- `status = 'running' AND phase = 'publishing'`. -/
def publishes (job : IndexJob) : Bool := job.status == .running && job.phase == .publishing

def candidate (job : IndexJob) : PublicationCandidate where
  id := job.id
  user := job.userID
  root := job.rootID
  since := job.publishingSince

end IndexJob

/-- `LIMIT 8`. -/
def publicationSweepLimit : Nat := 8

structure SweepState where
  world : World
  /-- Those of the sweep that have not had their turn. -/
  candidates : List PublicationCandidate

inductive SweepEvent where
  /-- Someone commits a transaction. -/
  | commit (pause : Nat) (transaction : Transaction)
  /-- A sweep begins; the rows are what the query answers. -/
  | select (pause : Nat) (chosen : List IndexJob)
  /-- The next job has its turn. -/
  | attempt (pause : Nat)
  /-- The deadline of the sweep. -/
  | cut

namespace SweepState

/-- Time passes up to the next statement. -/
def later (pause : Nat) (state : SweepState) : World := state.world.step (.tick (pause + 1))

def step (state : SweepState) : SweepEvent → SweepState
  | .commit pause transaction =>
    { state with world := (state.later pause).step (.commit 0 transaction) }
  | .select pause chosen =>
    if state.candidates = [] ∧ Oldest (·.heartbeatAt) publicationSweepLimit
        (state.world.db.indexJobs.select (·.publishes)) chosen then
      { world := state.later pause, candidates := chosen.map (·.candidate) }
    else { state with world := state.later pause }
  -- the `UPDATE` goes first, so a candidate has its turn behind it whatever LCE answers
  | .attempt pause =>
    match state.candidates with
    | [] => { state with world := state.later pause }
    | next :: rest =>
      { world := (state.later pause).step (.commit 0 (.touch next.user next.id)), candidates := rest }
  -- the context of the sweep is over; the rest waits for the next one
  | .cut => { state with candidates := [] }

/-- The job that has its turn. -/
def attempted (state : SweepState) : SweepEvent → Option String
  | .attempt _ => state.candidates.head?.map (·.id)
  | .commit _ _ | .select _ _ | .cut => none

/-- The job is running and in phase `publishing`. -/
def Publishing (jobID : String) (state : SweepState) : Prop :=
  ∃ job ∈ state.world.db.indexJobs, job.id = jobID ∧ job.publishes = true

instance (jobID : String) (state : SweepState) : Decidable (state.Publishing jobID) :=
  inferInstanceAs (Decidable (∃ job ∈ state.world.db.indexJobs.rows, job.id = jobID ∧
    job.publishes = true))

/-- The event is no transaction that renews the heartbeat of the job. -/
def LeavesHeartbeat (jobID : String) (state : SweepState) : SweepEvent → Prop
  | .commit pause transaction => ∀ old ∈ state.world.db.indexJobs,
      ∀ new ∈ (state.step (.commit pause transaction)).world.db.indexJobs,
        old.id = jobID → new.id = jobID → new.heartbeatAt = old.heartbeatAt
  | .select _ _ | .attempt _ | .cut => True

instance (jobID : String) (state : SweepState) :
    (event : SweepEvent) → Decidable (state.LeavesHeartbeat jobID event)
  | .commit pause transaction => inferInstanceAs (Decidable
      (∀ old ∈ state.world.db.indexJobs.rows,
        ∀ new ∈ (state.step (.commit pause transaction)).world.db.indexJobs.rows,
          old.id = jobID → new.id = jobID → new.heartbeatAt = old.heartbeatAt))
  | .select _ _ | .attempt _ | .cut => .isTrue trivial

end SweepState

end AcemcpRelay
