import AcemcpRelay.Store.Transition
import Mathlib.Logic.Function.Basic

/-!
# The session with LCE

`mcpClient` keeps one MCP session for all callers. `ensureSession`, `initSession` and
`invalidateSession` hold the client's lock, and each is one step. So is a `tools/call` or
`tools/list` as LCE handles it; between two steps a caller keeps what it has read. What LCE does
to a new session while `initSession` still holds the lock cannot be told from its doing so right
afterwards, since nobody else has seen the session. Sessions are numbered in the order in which
LCE establishes them.

`callToolWithTimeout` tries once more after a 404; `toolsList` and `fetchToolsList` do not.
-/
namespace AcemcpRelay

/-- Which attempt of a call it is. -/
inductive CallTurn where
  | first (retries : Bool)
  /-- The second attempt, after a 404 on the session `failed`. -/
  | second (failed : Nat)
  deriving DecidableEq, Repr

/-- Where a caller is between two steps. -/
inductive CallerTask where
  | idle
  /-- Before `initSession`. -/
  | connecting (turn : CallTurn)
  /-- The request is on its way, with the session in its header. -/
  | calling (turn : CallTurn) (sid : Nat)
  /-- Between the 404 and `invalidateSession`. -/
  | refused (sid : Nat) (retries : Bool)
  deriving DecidableEq, Repr

/-- What comes of the two requests of `initSession`. -/
inductive InitOutcome where
  /-- LCE refuses `initialize`, or it is not reached. -/
  | refused
  /-- LCE establishes a session, but its identifier does not come back. -/
  | lost
  /-- The `initialized` notification fails. -/
  | unconfirmed
  | stored
  deriving DecidableEq, Repr

structure UpstreamState where
  /-- `mcpClient.sessionID`; `none` is the empty string. -/
  sessionID : Option Nat
  /-- How many sessions LCE has established. -/
  established : Nat
  /-- The sessions that LCE accepts. -/
  live : List Nat
  expired : List Nat
  /-- The sessions for which a DELETE has been sent. -/
  deletes : List Nat
  tasks : Nat → CallerTask
  /-- For each `invalidateSession` that found a session: the one on which its caller had got a
  404, and the one it cleared and sent a DELETE for. -/
  discarded : List (Nat × Nat)
  /-- For each second attempt its session, and whether LCE accepted that. -/
  retried : List (Nat × Bool)

inductive UpstreamEvent where
  | ensure (caller : Nat) (retries : Bool)
  | init (caller : Nat) (outcome : InitOutcome)
  /-- LCE answers a call, with a 404 or otherwise. -/
  | reply (caller : Nat) (notFound : Bool)
  | invalidate (caller : Nat)
  /-- A DELETE reaches LCE. -/
  | delete (sid : Nat)
  | expire (sid : Nat)
  deriving Repr

namespace UpstreamState

def empty : UpstreamState := ⟨none, 0, [], [], [], fun _ => .idle, [], []⟩

def setTask (s : UpstreamState) (caller : Nat) (task : CallerTask) : UpstreamState :=
  { s with tasks := Function.update s.tasks caller task }

def ensureSession (s : UpstreamState) (caller : Nat) (retries : Bool) : UpstreamState :=
  match s.sessionID with
  | some sid => s.setTask caller (.calling (.first retries) sid)
  | none => s.setTask caller (.connecting (.first retries))

/-- LCE has established one more session. -/
def establish (s : UpstreamState) : UpstreamState :=
  { s with established := s.established + 1, live := s.established :: s.live }

def initSession (s : UpstreamState) (caller : Nat) (turn : CallTurn) (outcome : InitOutcome) :
    UpstreamState :=
  match s.sessionID with
  | some sid => s.setTask caller (.calling turn sid)
  | none =>
    match outcome with
    | .refused => s.setTask caller .idle
    -- LCE has opened the session and nobody knows its name: it lives until it expires
    | .lost => s.establish.setTask caller .idle
    -- `notifications/initialized` failed; the session is not kept, and a goroutine deletes it
    | .unconfirmed =>
      { s.establish with deletes := s.established :: s.deletes }.setTask caller .idle
    | .stored =>
      { s.establish with sessionID := some s.established }.setTask caller
        (.calling turn s.established)

/-- The reply to a call, as `callToolWithTimeout` and the others take it. -/
def doCallTool (s : UpstreamState) (caller : Nat) (turn : CallTurn) (sid : Nat) (notFound : Bool) :
    UpstreamState :=
  match turn with
  | .first retries => s.setTask caller (if notFound then .refused sid retries else .idle)
  | .second _ =>
    { s with retried := (sid, decide (sid ∈ s.live)) :: s.retried }.setTask caller .idle

/-- What `invalidateSession` does to the client, for a caller that has failed on `failed`. -/
def discard (s : UpstreamState) (failed : Nat) : UpstreamState :=
  match s.sessionID with
  | none => s
  | some sid =>
    { s with
      sessionID := none, deletes := sid :: s.deletes
      discarded := (failed, sid) :: s.discarded }

def invalidateSession (s : UpstreamState) (caller failed : Nat) (retries : Bool) : UpstreamState :=
  (s.discard failed).setTask caller (if retries then .connecting (.second failed) else .idle)

/-- An event of a caller that is somewhere else changes nothing. -/
def step (s : UpstreamState) : UpstreamEvent → UpstreamState
  | .ensure caller retries => if s.tasks caller = .idle then s.ensureSession caller retries else s
  | .init caller outcome =>
    match s.tasks caller with
    | .connecting turn => s.initSession caller turn outcome
    | _ => s
  | .reply caller notFound =>
    match s.tasks caller with
    | .calling turn sid => s.doCallTool caller turn sid notFound
    | _ => s
  -- a 404 and the invalidation are two steps: another caller may replace the session between
  | .invalidate caller =>
    match s.tasks caller with
    | .refused sid retries => s.invalidateSession caller sid retries
    | _ => s
  -- the goroutine of `deleteRemoteSession`
  | .delete sid => if sid ∈ s.deletes then { s with live := s.live.filter (· ≠ sid) } else s
  | .expire sid =>
    if sid ∈ s.live then
      { s with live := s.live.filter (· ≠ sid), expired := sid :: s.expired }
    else s

/-- LCE answers 404 only on a session that it has dropped, and no second session expires. -/
def Accepting (s : UpstreamState) : UpstreamEvent → Prop
  | .reply caller true =>
    match s.tasks caller with
    | .calling _ sid => sid ∉ s.live
    | _ => True
  | .expire _ => s.expired = []
  | _ => True

/-- No 404 comes back for a session that the client has replaced, and no session is stored
while a caller is between its 404 and its `invalidateSession`. -/
def Timely (s : UpstreamState) : UpstreamEvent → Prop
  | .reply caller true =>
    match s.tasks caller with
    | .calling (.first _) sid => s.sessionID = none ∨ s.sessionID = some sid
    | _ => True
  | .init _ .stored =>
    s.sessionID = none → ∀ other sid retries, s.tasks other ≠ .refused sid retries
  | _ => True

end UpstreamState

end AcemcpRelay
