import AcemcpRelay.Wire.EventStream

/-!
# Server-sent events

What `handleMCPGet` writes into an open stream, and how `doCallTool` takes the
JSON-RPC payload out of an upstream reply of type `text/event-stream`.
-/
namespace AcemcpRelay

open Wire

/-- The payload with CRLF and then CR replaced by LF, as `writeMCPSSEData` does first. -/
def unifyLineEnds (payload : Bytes) : Bytes :=
  replaceAll [cr] [lf] (replaceAll [cr, lf] [lf] payload)

/-- How a server ends its lines. -/
inductive LineEnd where
  | lf
  | crlf
  deriving DecidableEq, Repr

/-- What stands before the LF of a line end. -/
def LineEnd.before : LineEnd → Bytes
  | .lf => []
  | .crlf => [cr]

/-- What `writeMCPSSEData` writes, with the line end it uses as a parameter. -/
def frameSSEData (lineEnd : LineEnd) (payload : Bytes) : Bytes :=
  ((unifyLineEnds payload).splitOn lf).flatMap
    (fun line => ascii "data: " ++ line ++ lineEnd.before ++ [lf]) ++ lineEnd.before ++ [lf]

def writeMCPSSEData (payload : Bytes) : Bytes := frameSSEData .lf payload

def writeMCPSSEComment (comment : Bytes) : Bytes := ascii ": " ++ comment ++ [lf, lf]

/-- What the loop of `handleMCPGet` writes in one round. -/
inductive Chunk where
  | payload (bytes : Bytes)
  | keepalive
  deriving DecidableEq, Repr

def Chunk.bytes : Chunk → Bytes
  | .payload bytes => writeMCPSSEData bytes
  | .keepalive => writeMCPSSEComment (ascii "keepalive")

/-- Everything `handleMCPGet` writes: a first comment, and the rounds of its loop. -/
def handleMCPGetOutput (chunks : List Chunk) : Bytes :=
  writeMCPSSEComment (ascii "connected") ++ chunks.flatMap Chunk.bytes

/-- `strings.TrimRight(line, "\r")`. -/
def trimRightCR (line : Bytes) : Bytes := (line.reverse.dropWhile (· == cr)).reverse

/-- The value of a `data: ` line after its trailing CRs are gone. -/
def dataLine (line : Bytes) : Option Bytes :=
  let line := trimRightCR line
  if (ascii "data: ").isPrefixOf line then some (line.drop 6) else none

/-- The loop of `extractSSEData` with `last` found so far. -/
def lastData (last : Option Bytes) : List Bytes → Option Bytes
  | [] => last
  | line :: rest =>
    match dataLine line with
    | some data => lastData (some data) rest
    | none => lastData last rest

def extractSSEData (raw : Bytes) : Bytes :=
  match lastData none (raw.splitOn lf) with
  | some last => last
  | none => raw

end AcemcpRelay
