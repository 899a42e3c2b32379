import AcemcpRelay.Wire.Quoted

/-!
# Log lines

`formatLogEvent`, which writes one line of logfmt per event, and a reader of
such lines: a value that starts with a quote is a quoted string, any other value
is a token up to the next blank.
-/
namespace AcemcpRelay

open Wire

/-- The values that have to be quoted to stay one token. -/
def needsLogfmtQuoting (value : Bytes) : Bool :=
  value.isEmpty || value.any fun b => b ∈ ascii " \t\r\n\"="

/-- One round of the loop of `formatLogEvent`. -/
def formatLogPair (q : Quoting) (key value : Bytes) : Bytes :=
  ascii " " ++ key ++ ascii "=" ++ if needsLogfmtQuoting value then q.quote value else value

/-- The loop of `formatLogEvent`: an odd trailing key gets the empty value. -/
def formatLogPairs (q : Quoting) : List Bytes → Bytes
  | [] => []
  | [key] => formatLogPair q key []
  | key :: value :: rest => formatLogPair q key value ++ formatLogPairs q rest

def formatLogEvent (q : Quoting) (event : Bytes) (pairs : List Bytes) : Bytes :=
  ascii "evt=" ++ event ++ formatLogPairs q pairs

/-! ## Reading -/

/-- A value and what follows it. -/
def readValue (unquote : Bytes → Option Bytes) : Bytes → Option (Bytes × Bytes)
  | 34 :: rest => do
    let (body, tail) ← literalRest rest
    let value ← unquote (dquote :: (body ++ [dquote]))
    return (value, tail)
  | text => some (text.takeWhile (· != 32), text.dropWhile (· != 32))

/-- The pairs of a line, at most `fuel` of them. -/
def readPairs (unquote : Bytes → Option Bytes) : Nat → Bytes → Option (List (Bytes × Bytes))
  | _, [] => some []
  | 0, _ :: _ => none
  | fuel + 1, b :: rest =>
    -- a pair is a space, a key up to the first `=`, and a value
    if b = 32 ∧ 61 ∈ rest then do
      let (value, tail) ← readValue unquote (cut 61 rest).2
      let more ← readPairs unquote fuel tail
      return ((cut 61 rest).1, value) :: more
    else none

/-- The event of a line and its pairs in order. -/
def readLogLine (unquote : Bytes → Option Bytes) (line : Bytes) :
    Option (Bytes × List (Bytes × Bytes)) :=
  if (ascii "evt=").isPrefixOf line then do
    let (event, tail) ← readValue unquote (line.drop 4)
    let pairs ← readPairs unquote line.length tail
    return (event, pairs)
  else none

end AcemcpRelay
