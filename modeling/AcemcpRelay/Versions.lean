import Mathlib.Algebra.Ring.Int.Defs
import Mathlib.Algebra.Ring.Nat
import AcemcpRelay.Wire.Bytes

/-!
# Client versions

The minimum client version: how two versions are compared, which texts may be
stored as the minimum, and the gate that every authenticated request passes.
Versions come from a header, so they are bytes and need not be valid UTF-8.
-/
namespace AcemcpRelay

open Wire

/-- The value of a decimal digit. -/
def digitValue (b : UInt8) : Option Nat :=
  if '0'.toUInt8 ≤ b ∧ b ≤ '9'.toUInt8 then some (b.toNat - 48) else none

/-- The loop of `strconv.ParseUint` to base 10 and 64 bits with `n` read so far. No value is
a syntax error; on overflow the value is the largest one, whatever follows. -/
def parseUint (n : Nat) : List UInt8 → Option Nat
  | [] => some n
  | b :: rest =>
    match digitValue b with
    | none => none
    | some d =>
      -- the two overflow tests of `strconv.ParseUint`, which answers with the largest number
      if n ≥ (2 ^ 64 - 1) / 10 + 1 then some (2 ^ 64 - 1)
      else if n * 10 + d > 2 ^ 64 - 1 then some (2 ^ 64 - 1)
      else parseUint (n * 10 + d) rest

/-- The digits after `strconv.ParseInt` has taken off a sign, and whether it was a minus. -/
def splitSign : List UInt8 → Bool × List UInt8
  | [] => (false, [])
  | b :: rest =>
    if b = '-'.toUInt8 then (true, rest)
    else if b = '+'.toUInt8 then (false, rest)
    else (false, b :: rest)

/-- The value of `strconv.Atoi` with its error dropped: zero after a syntax error, the
nearest `int` when the number is out of range. -/
def atoi (s : List UInt8) : Int :=
  let (negative, digits) := splitSign s
  if digits.isEmpty then 0
  else match parseUint 0 digits with
    | none => 0
    | some n =>
      -- `Atoi` cuts off and reports an error; `compareVersions` drops the error
      if !negative && n ≥ 2 ^ 63 then 2 ^ 63 - 1
      else if negative && n > 2 ^ 63 then -2 ^ 63
      else if negative then -n else n

/-- The `i`-th number of a version, zero when the part is missing. -/
def versionPart (parts : List (List UInt8)) (i : Nat) : Int :=
  match parts[i]? with
  | some part => atoi part
  | none => 0

/-- The loop of `compareVersions`; no result when all positions are equal. -/
def compareParts (aParts bParts : List (List UInt8)) : List Nat → Option Int
  | [] => none
  | i :: rest =>
    let av := versionPart aParts i
    let bv := versionPart bParts i
    if av < bv then some (-1)
    else if av > bv then some 1
    else compareParts aParts bParts rest

def compareVersions (a b : List UInt8) : Int :=
  let (aCore, aPre) := cut '-'.toUInt8 a
  let (bCore, bPre) := cut '-'.toUInt8 b
  let aParts := splitN '.'.toUInt8 4 aCore
  let bParts := splitN '.'.toUInt8 4 bCore
  -- both sides with a tag are equal: only that a prerelease is below its release matters
  (compareParts aParts bParts [0, 1, 2]).getD <|
    if aPre.isEmpty && !bPre.isEmpty then 1
    else if !aPre.isEmpty && bPre.isEmpty then -1
    else 0

/-! ## The gate -/

def digitBytes : List UInt8 := ascii "0123456789"

def tagBytes : List UInt8 :=
  ascii "0123456789ABCDEFGHIJKLMNOPQRSTUVWXYZ" ++ ascii "abcdefghijklmnopqrstuvwxyz.-"

/-- The texts `saveMinimumClientVersion` accepts besides the empty one, which turns the gate off:
`^[0-9]+\.[0-9]+\.[0-9]+(?:-[0-9A-Za-z.-]+)?$` -/
def strictClientVersionPattern : RegularExpression UInt8 :=
  oneOrMore (oneOf digitBytes) * (.char '.'.toUInt8 * (oneOrMore (oneOf digitBytes) *
    (.char '.'.toUInt8 * (oneOrMore (oneOf digitBytes) *
      (1 + .char '-'.toUInt8 * oneOrMore (oneOf tagBytes))))))

/-- The results of the gate: not counted, `pass` and `reject_426`. -/
inductive VersionGate where
  | off
  | pass
  | reject426
  deriving DecidableEq, Repr

def evaluateVersionGateAgainst (clientVersion minimumVersion : List UInt8) : VersionGate :=
  if minimumVersion.isEmpty || clientVersion.isEmpty then .off
  else if compareVersions clientVersion minimumVersion < 0 then .reject426
  else .pass

end AcemcpRelay
