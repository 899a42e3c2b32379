import AcemcpRelay.Store.Eviction
import AcemcpRelay.Store.Table
import AcemcpRelay.Store.Transition

/-!
# MCP sessions

`initialize` opens a session and makes room for it: what has expired goes, then the oldest
sessions of the same user while they have too many, then the oldest of all. The map of
sessions is a table here, whose rows stand in the order of an iteration over the map.
-/
namespace AcemcpRelay

open Store

/-- An entry of `serverSessions`. -/
structure McpServerSession where
  id : String
  userID : String
  lastActivity : Int
  deriving DecidableEq, Repr

abbrev ServerSessions := Table McpServerSession.id

namespace ServerSessions

def expired (now ttl : Int) (session : McpServerSession) : Bool := ttl < now - session.lastActivity

def pruneExpiredMCPSessions (now ttl : Int) (sessions : ServerSessions) :
    List String × ServerSessions :=
  ((sessions.select (expired now ttl)).map (·.id), sessions.delete (expired now ttl))

/-- The user's own sessions are candidates, and all are if no user is named. -/
def evictable (userID : String) (session : McpServerSession) : Bool :=
  userID == "" || session.userID == userID

/-- One round of the loop that looks for the oldest session. An empty identifier stands for
none so far. -/
def olderOf (userID : String) (oldest : String × Int) (session : McpServerSession) : String × Int :=
  if evictable userID session = true ∧ (oldest.1 = "" ∨ session.lastActivity < oldest.2 ∨
      (session.lastActivity = oldest.2 ∧ session.id < oldest.1)) then
    (session.id, session.lastActivity)
  else oldest

def evictOldestMCPSession (userID : String) (sessions : ServerSessions) :
    Option (String × ServerSessions) :=
  let oldestID := (sessions.rows.foldl (olderOf userID) ("", 0)).1
  if oldestID = "" then none else some (oldestID, sessions.delete (·.id == oldestID))

def countMCPSessionsForUser (userID : String) (sessions : ServerSessions) : Nat :=
  sessions.count (·.userID == userID)

/-- `prepareMCPSessionSlot`: the identifiers that have expired, those that are evicted for the
user and for all, and what remains. Each round of a loop takes a session out, so that there
are rounds for all of them. -/
def prepareMCPSessionSlot (userID : String) (now ttl : Int) (perUserLimit globalLimit : Nat)
    (sessions : ServerSessions) : Option (List String × List String × List String × ServerSessions) :=
  let (expired, live) := sessions.pruneExpiredMCPSessions now ttl
  -- each round deletes a row, so the loops are over by then
  let rounds := sessions.rows.length + 1
  match evictWhile
      (fun sessions : ServerSessions =>
        0 < perUserLimit && perUserLimit ≤ sessions.countMCPSessionsForUser userID)
      (evictOldestMCPSession userID) rounds live with
  | none => none
  | some (ofUser, live) =>
    match evictWhile
        (fun sessions : ServerSessions => 0 < globalLimit && globalLimit ≤ sessions.rows.length)
        (evictOldestMCPSession "") rounds live with
    | none => none
    | some (ofAll, rest) => some (expired, ofUser, ofAll, rest)

def touchMCPSession (sessionID userID : String) (now : Int) (sessions : ServerSessions) :
    Bool × ServerSessions :=
  match sessions.lookup sessionID with
  | none => (false, sessions)
  | some session =>
    if session.userID ≠ userID then (false, sessions)
    else (true, sessions.update (·.id == sessionID) ({ · with lastActivity := now }))

/-- What `handleMCPDelete` does. -/
def deleteMCPSession (sessionID userID : String) (sessions : ServerSessions) : ServerSessions :=
  match sessions.lookup sessionID with
  | none => sessions
  | some session =>
    if session.userID = userID then sessions.delete (·.id == sessionID) else sessions

end ServerSessions

/-- `mcpSessionTTL`, `mcpMaxSessionsPerUser` and `mcpMaxSessions`. -/
structure SessionLimits where
  ttl : Int
  perUser : Nat
  all : Nat
  /-- Both are read with `max(1, …)`. -/
  positive : 1 ≤ perUser ∧ 1 ≤ all

inductive SessionEvent where
  /-- `initialize`, with the identifier that is drawn for the session. -/
  | initializeSession (userID newSID : String) (now : Int)
  | touch (sessionID userID : String) (now : Int)
  | delete (sessionID userID : String)
  | sweep (now : Int)
  deriving Repr

namespace ServerSessions

/-- The handlers hold `serverSessionsMu`, so that they run one after the other. -/
def step (limits : SessionLimits) (sessions : ServerSessions) : SessionEvent → ServerSessions
  | .initializeSession userID newSID now =>
    match sessions.prepareMCPSessionSlot userID now limits.ttl limits.perUser limits.all with
    | none => sessions
    -- the map entry is replaced if the identifier is there, as in Go
    | some (_, _, _, rest) => rest.put { id := newSID, userID, lastActivity := now }
  | .touch sessionID userID now => (sessions.touchMCPSession sessionID userID now).2
  | .delete sessionID userID => sessions.deleteMCPSession sessionID userID
  | .sweep now => (sessions.pruneExpiredMCPSessions now limits.ttl).2

end ServerSessions

end AcemcpRelay
