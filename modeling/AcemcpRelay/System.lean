import AcemcpRelay.Calls
import AcemcpRelay.Frame

/-!
# The relay processes, the database and LCE

The state of the whole system: the database with its clock, LCE, and the calls in
flight. A call comes into being when its lease is admitted. It takes its next step
only while the row of its lease is in the table: its statements and requests run
on the context of the lease, which is cancelled well before the lease expires.
The clean-up of a failed `begin` and the record of a failed deletion attempt run
on a context of their own, whether or not the lease is still there.

Everything that holds no lease is `other`: the clock, renewals and releases,
heartbeats, the sweep, the submission and claim of deletions, the platform
configuration jobs.
-/
namespace AcemcpRelay

open Store

/-- A call in flight. -/
structure Call where
  token : String
  tenant : String
  resource : String
  kind : String
  mode : OperationMode
  point : Point

/-- The statements that do not run on the context of the lease. -/
def Point.detached : Point → Bool
  | .abortBegin _ _ | .markBegin _ _ | .dropManifest _ | .deletionError _ => true
  | _ => false

structure System where
  world : World
  cloud : Cloud
  calls : Table Call.token
  /-- The lease tokens handed out so far; `uuid.NewString` does not repeat one. -/
  tokens : List String
  /-- The deletion jobs as claims returned them. -/
  claimed : List RootDeletionJob
  /-- The jobs that were expired, whose areas are to be aborted. -/
  aborts : List String
  /-- What the starts did and answered, by lease token. -/
  notes : List (String × Note)

inductive SystemEvent where
  | other (event : Event)
  | enter (waited : Nat) (token tenant spelling : String) (operation : Operation)
  | advance (token : String) (answer : Answer)
  /-- LCE carries out, or gives up, a publication that it accepted. -/
  | land (jobID : String) (revision : Int)
  | lose (jobID : String)
  /-- The abort of an expired job reaches LCE. -/
  | abort (jobID : String)

namespace System

def initial : System :=
  { world := .initial, cloud := .empty, calls := .empty, tokens := [], claimed := [], aborts := []
    notes := [] }

/-- The lease of the call is in the table. -/
def holdsLease (system : System) (call : Call) : Bool :=
  system.world.db.leases.holds fun lease => lease.token == call.token

/-- The call goes on at the next point, or ends. -/
def moveOn (calls : Table Call.token) (token : String) : Option Point → Table Call.token
  | none => calls.delete (·.token == token)
  | some point => calls.update (·.token == token) (fun call => { call with point })

/-- A transaction that needs a new identifier has one. -/
def possible (system : System) : Option Transaction → Bool
  | none => true
  | some transaction => system.world.admissible transaction

def commit (world : World) (waited : Nat) : Option Transaction → World
  | none => world
  | some transaction => world.step (.commit waited transaction)

def ask (sha256 : String → String) (decision : Decision) (cloud : Cloud) : Option Request → Cloud
  | none => cloud
  | some request => cloud.serve sha256 decision request

/-- The effect of one step of a call. -/
def apply (sha256 : String → String) (system : System) (call : Call) (answer : Answer)
    (effect : Effect) : System :=
  { system with
    world := commit system.world answer.waited effect.transaction
    cloud := ask sha256 answer.decision system.cloud effect.request
    calls := moveOn system.calls call.token effect.next
    aborts := effect.aborts ++ system.aborts
    notes := effect.notes.map (call.token, ·) ++ system.notes }

/-- The deletion job that a claim returns to its worker. -/
def claims (world : World) : Event → List RootDeletionJob
  | .commit waited (.claimDeletion attempt locked) =>
    (world.db.claimRootDeletion (world.clock - waited) attempt locked).1.toList
  | _ => []

/-- The jobs whose areas a sweep goes on to abort. -/
def sweeps (world : World) : Event → List String
  | .commit waited (.sweep locked) =>
    abortsOf (world.db.sweepExpiredIndexJobs (world.clock - waited) world.clock locked).1
  | _ => []

/-- Nobody takes a lease under a token that has been used, and nobody but a start
inserts a job. -/
def refuses (system : System) : Event → Bool
  | .commit _ (.acquire _ _ _ token _) => system.tokens.contains token
  | .commit _ (.create _ _ _ _) => true
  | _ => false

def spends : Event → List String
  | .commit _ (.acquire _ _ _ token _) => [token]
  | _ => []

/-- An event outside the calls in flight. -/
def background (system : System) (event : Event) : System :=
  { system with
    world := system.world.step event
    tokens := spends event ++ system.tokens
    claimed := claims system.world event ++ system.claimed
    aborts := sweeps system.world event ++ system.aborts }

/-- The call that begins when the lease is admitted. -/
def callOf (token tenant spelling : String) (operation : Operation) (point : Point) : Call :=
  { token, tenant, resource := operation.resource spelling, kind := operation.kind
    mode := operation.mode, point }

/-- A deletion worker works on a job that it claimed, for that job's tenant. -/
def claimedFor (system : System) (tenant : String) : Operation → Bool
  | .rootDeletion job => system.claimed.contains job && job.userID == tenant
  | _ => true

/-- A call asks for its lease and, if it gets it, begins. -/
def begin (system : System) (waited : Nat) (call : Call) : System :=
  let world := system.world.step
    (.commit waited (.acquire call.tenant call.resource call.kind call.token call.mode))
  let acquired := (system.world.db.tryAcquireIndexOperation (system.world.clock - waited)
    call.tenant call.resource call.kind call.token call.mode).map (·.1)
  { system with
    world
    tokens := call.token :: system.tokens
    -- a token is drawn once, so the insertion does not fail on its key
    calls := if acquired = some true then (system.calls.insert [call]).getD system.calls
      else system.calls }

variable (sha256 : String → String)

def step (system : System) : SystemEvent → System
  -- transactions of no call: handlers with a single statement, workers and the sweeper
  | .other event => if system.refuses event then system else system.background event
  | .enter waited token tenant spelling operation =>
    match operation.enter with
    | .error _ => system
    | .ok point =>
      -- tokens are `uuid.New()`; a deletion is worked on by the worker that has claimed it
      if system.tokens.contains token || !system.claimedFor tenant operation then system
      else system.begin waited (callOf token tenant spelling operation point)
  | .advance token answer =>
    match system.calls.lookup token with
    | none => system
    | some call =>
      let effect := call.point.advance sha256 answer call.tenant system.world.clock system.world.db
        system.cloud
      -- without its lease the context of the call is cancelled, and it goes no further
      if (call.point.detached || system.holdsLease call) && system.possible effect.transaction then
        system.apply sha256 call answer effect
      else system
  | .land jobID revision => { system with cloud := system.cloud.land revision jobID }
  | .lose jobID => { system with cloud := system.cloud.lose jobID }
  -- a goroutine of its own, started by the reclaim or the sweep
  | .abort jobID =>
    if system.aborts.contains jobID then
      { system with cloud := system.cloud.serve sha256 .accept (.abort jobID) }
    else system

end System

end AcemcpRelay
