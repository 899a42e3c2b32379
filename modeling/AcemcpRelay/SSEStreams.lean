import AcemcpRelay.Store.Maps
import AcemcpRelay.Store.Transition
import AcemcpRelay.Wire.Bytes

/-!
# The registry of event streams

`registerMCPSSEStream`, `unregisterMCPSSEStream`, `closeMCPSSEStream` and
`publishMCPSSEEvent`, run by any number of goroutines. A block that holds
`mcpSSEStreamsMu`, a `close` and a channel operation are one step each, and
between two of them a goroutine keeps what it has read. Streams are numbered in
the order in which they are stored in the registry.
-/
namespace AcemcpRelay

open Store Wire

/-- Where a goroutine is between two steps. -/
inductive StreamTask where
  | idle
  /-- Out of its block and before `stream.close()`. -/
  | closing (stream : Nat)
  /-- In `publishMCPSSEEvent`, between the lookup and the `select`. -/
  | publishing (sessionID : String) (stream : Nat) (message : Bytes)
  /-- In the `default` case, before `unregisterMCPSSEStream`. -/
  | overflowed (sessionID : String) (stream : Nat)
  deriving DecidableEq, Repr

structure StreamState where
  /-- `mcpSSEStreams`. -/
  streams : GoMap Nat
  /-- The streams whose `done` is closed. -/
  closed : List Nat
  /-- The contents of the `events` channels. -/
  queues : Nat → List Bytes
  tasks : Nat → StreamTask
  /-- Every registration so far, the latest first. -/
  registered : List (String × Nat)
  /-- The streams for which a publisher returned true, and whether `done` was open then. -/
  accepted : List (Nat × Bool)

/-- The case of a `select` that is taken when several are ready. -/
inductive SelectCase where
  | send
  | done
  deriving DecidableEq, Repr

inductive StreamEvent where
  | register (goroutine : Nat) (sessionID : String)
  | unregister (goroutine : Nat) (sessionID : String) (stream : Nat)
  | closeSession (goroutine : Nat) (sessionID : String)
  | close (goroutine : Nat)
  | publish (goroutine : Nat) (sessionID : String) (payload : Bytes)
  | select (goroutine : Nat) (taken : SelectCase)
  | unregisterSlow (goroutine : Nat)
  /-- `handleMCPGet` takes a message out of the channel. -/
  | receive (stream : Nat)
  deriving Repr

namespace StreamState

def empty : StreamState := ⟨.empty, [], fun _ => [], fun _ => .idle, [], []⟩

/-- The stream that was registered last under a session. -/
def latest (s : StreamState) (sessionID : String) : Option Nat :=
  (s.registered.find? (·.1 == sessionID)).map (·.2)

def setTask (s : StreamState) (goroutine : Nat) (task : StreamTask) : StreamState :=
  { s with tasks := Function.update s.tasks goroutine task }

/-- A stream read from the map, if any, is closed after the block. -/
def closeNext (s : StreamState) (goroutine : Nat) : Option Nat → StreamState
  | none => s
  | some stream => s.setTask goroutine (.closing stream)

/-- The block of `registerMCPSSEStream`. -/
def registerBlock (s : StreamState) (goroutine : Nat) (sessionID : String) : StreamState :=
  let stream := s.registered.length
  let previous := s.streams.get sessionID
  closeNext { s with
    streams := s.streams.put (sessionID, stream)
    registered := (sessionID, stream) :: s.registered } goroutine previous

/-- The block of `unregisterMCPSSEStream`. -/
def unregisterBlock (s : StreamState) (goroutine : Nat) (sessionID : String) (stream : Nat) :
    StreamState :=
  let rest := if s.streams.get sessionID = some stream then s.streams.delete (·.1 == sessionID)
    else s.streams
  { s with streams := rest }.setTask goroutine (.closing stream)

/-- The block of `closeMCPSSEStream`. -/
def closeSessionBlock (s : StreamState) (goroutine : Nat) (sessionID : String) : StreamState :=
  closeNext { s with streams := s.streams.delete (·.1 == sessionID) } goroutine
    (s.streams.get sessionID)

/-- `publishMCPSSEEvent` up to the end of its block. -/
def publishBlock (s : StreamState) (goroutine : Nat) (sessionID : String) (payload : Bytes) :
    StreamState :=
  if payload.length > 2 ^ 20 then s
  else match s.streams.get sessionID with
    | none => s
    | some stream => s.setTask goroutine (.publishing sessionID stream payload)

/-- The buffer of `events` has room. -/
def hasRoom (s : StreamState) (stream : Nat) : Bool := (s.queues stream).length < 16

/-- The `select` of `publishMCPSSEEvent`: any case that is ready may be taken, and `default`
is taken when none is. -/
def selectCase (s : StreamState) (goroutine : Nat) (sessionID : String) (stream : Nat)
    (message : Bytes) (taken : SelectCase) : StreamState :=
  -- with room in the buffer of a closed stream both cases of the `select` are ready
  if s.hasRoom stream ∧ (taken = .send ∨ stream ∉ s.closed) then
    { s with
      queues := Function.update s.queues stream (s.queues stream ++ [message])
      accepted := (stream, decide (stream ∉ s.closed)) :: s.accepted }.setTask goroutine .idle
  else if stream ∈ s.closed then s.setTask goroutine .idle
  else s.setTask goroutine (.overflowed sessionID stream)

/-- An event of a goroutine that is somewhere else changes nothing. A stream is unregistered
under the session it was registered under, as the callers do. -/
def step (s : StreamState) : StreamEvent → StreamState
  | .register g sessionID =>
    if s.tasks g = .idle then s.registerBlock g sessionID else s
  -- deferred by the handler of the stream, so it may come after a replacement
  | .unregister g sessionID stream =>
    if s.tasks g = .idle ∧ (sessionID, stream) ∈ s.registered then
      s.unregisterBlock g sessionID stream
    else s
  | .closeSession g sessionID =>
    if s.tasks g = .idle then s.closeSessionBlock g sessionID else s
  | .close g =>
    match s.tasks g with
    | .closing stream => { s with closed := stream :: s.closed }.setTask g .idle
    | _ => s
  | .publish g sessionID payload =>
    if s.tasks g = .idle then s.publishBlock g sessionID payload else s
  | .select g taken =>
    match s.tasks g with
    | .publishing sessionID stream message => s.selectCase g sessionID stream message taken
    | _ => s
  -- the reader is too slow: the stream is taken out of the registry by its publisher
  | .unregisterSlow g =>
    match s.tasks g with
    | .overflowed sessionID stream => s.unregisterBlock g sessionID stream
    | _ => s
  | .receive stream => { s with queues := Function.update s.queues stream (s.queues stream).tail }

end StreamState

end AcemcpRelay
