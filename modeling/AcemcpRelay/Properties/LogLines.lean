import AcemcpRelay.ObsLog

/-!
# Log lines are unambiguous

A value that is written bare has no quote, no blank and no line end, so it is a
token; every other value is a quoted literal, which a reader can delimit by
itself. So the reader takes one pair after another off the line, whatever the
values are, and two different events cannot be written as the same line.
-/
namespace AcemcpRelay

open Wire

/-- No white space of the line format, no `=` and no quote: what event names and keys are. -/
def PlainName (name : Bytes) : Prop := ∀ b ∈ name, b ∉ ascii " \t\r\n\"="

instance (name : Bytes) : Decidable (PlainName name) :=
  decidable_of_iff (name.all fun b => b ∉ ascii " \t\r\n\"=") List.all_iff_forall_prop

/-- The pairs that the alternating list stands for. -/
def pairUp : List Bytes → List (Bytes × Bytes)
  | [] => []
  | [key] => [(key, [])]
  | key :: value :: rest => (key, value) :: pairUp rest

theorem PlainName.notMem {name : Bytes} (plain : PlainName name) {b : UInt8}
    (special : b ∈ ascii " \t\r\n\"=") : b ∉ name :=
  fun mem => plain b mem special

theorem PlainName.oneLine {name : Bytes} (plain : PlainName name) : OneLine name :=
  ⟨plain.notMem (by decide), plain.notMem (by decide)⟩

theorem plainName_of_bare {value : Bytes} (bare : needsLogfmtQuoting value = false) :
    PlainName value := by
  simp only [needsLogfmtQuoting, Bool.or_eq_false_iff, List.any_eq_false, decide_eq_true_eq] at bare
  exact bare.2

/-- How a value is written. -/
def formatLogValue (q : Quoting) (value : Bytes) : Bytes :=
  if needsLogfmtQuoting value then q.quote value else value

/-- What may follow a value: the end of the line, or a blank. -/
def Boundary (rest : Bytes) : Prop := rest = [] ∨ ∃ tail, rest = 32 :: tail

theorem readValue_bare (unquote : Bytes → Option Bytes) {token rest : Bytes}
    (plain : PlainName token) (boundary : Boundary rest) :
    readValue unquote (token ++ rest) = some (token, rest) := by
  have unquoted : ∀ tail, token ++ rest ≠ 34 :: tail := by
    intro tail same
    cases token with
    | nil => rcases boundary with rfl | ⟨_, rfl⟩ <;> simp at same
    | cons b token =>
      obtain ⟨rfl, -⟩ := List.cons.inj same
      exact plain.notMem (by decide) List.mem_cons_self
  have reads : readValue unquote (token ++ rest) =
      some ((token ++ rest).takeWhile (· != 32), (token ++ rest).dropWhile (· != 32)) := by
    rw [readValue]
    exact unquoted
  have inside : ∀ b ∈ token, (b != 32) = true := by
    intro b mem
    exact bne_iff_ne.mpr fun same => plain.notMem (by decide) (same ▸ mem)
  have stops : rest.takeWhile (· != 32) = [] ∧ rest.dropWhile (· != 32) = rest := by
    rcases boundary with rfl | ⟨tail, rfl⟩ <;> simp
  rw [reads, List.takeWhile_append_of_pos inside, List.dropWhile_append_of_pos inside, stops.1,
    stops.2, List.append_nil]

theorem readValue_format (q : Quoting) (value : Bytes) {rest : Bytes} (boundary : Boundary rest) :
    readValue q.unquote (formatLogValue q value ++ rest) = some (value, rest) := by
  unfold formatLogValue
  cases quoted : needsLogfmtQuoting value with
  | false => exact readValue_bare q.unquote (plainName_of_bare quoted) boundary
  | true =>
    obtain ⟨body, literal, closed⟩ := q.literal value
    have ends : literalRest (body ++ [dquote] ++ rest) = some (body, rest) := by
      rw [List.append_assoc]
      exact literalRest_append body rest closed
    have reads : readValue q.unquote (dquote :: (body ++ [dquote] ++ rest)) =
        (literalRest (body ++ [dquote] ++ rest)).bind fun found =>
          (q.unquote (dquote :: (found.1 ++ [dquote]))).bind fun value => some (value, found.2) :=
      rfl
    rw [if_pos rfl, literal, List.cons_append, reads, ends, Option.bind_some, ← literal,
      q.inverse, Option.bind_some]

/-! ## Lines -/

theorem formatLogPairs_eq (q : Quoting) (pairs : List Bytes) :
    formatLogPairs q pairs = (pairUp pairs).flatMap fun pair => formatLogPair q pair.1 pair.2 := by
  fun_induction pairUp pairs with
  | case1 => rfl
  | case2 key => simp [formatLogPairs]
  | case3 key value rest ih => simp [formatLogPairs, ih]

theorem formatLogPair_eq (q : Quoting) (key value : Bytes) :
    formatLogPair q key value = 32 :: (key ++ 61 :: formatLogValue q value) := by
  have signs : ascii " " = [32] ∧ ascii "=" = [61] := by decide
  simp [formatLogPair, formatLogValue, signs]

theorem boundary_flatMap (q : Quoting) (pairs : List (Bytes × Bytes)) :
    Boundary (pairs.flatMap fun pair => formatLogPair q pair.1 pair.2) := by
  cases pairs with
  | nil => exact .inl rfl
  | cons pair pairs =>
    right
    rw [List.flatMap_cons, formatLogPair_eq]
    exact ⟨_, rfl⟩

/-- The reader takes the pairs off one by one. -/
theorem readPairs_format (q : Quoting) (pairs : List (Bytes × Bytes)) (fuel : Nat)
    (plain : ∀ pair ∈ pairs, PlainName pair.1) (enough : pairs.length ≤ fuel) :
    readPairs q.unquote fuel (pairs.flatMap fun pair => formatLogPair q pair.1 pair.2) =
      some pairs := by
  induction pairs generalizing fuel with
  | nil => simp [readPairs]
  | cons pair pairs ih =>
    obtain ⟨n, rfl⟩ : ∃ n, fuel = n + 1 := Nat.exists_eq_succ_of_ne_zero (by
      simp only [List.length_cons] at enough
      omega)
    have key : (61 : UInt8) ∉ pair.1 := (plain pair List.mem_cons_self).notMem (by decide)
    have later := ih n (fun other mem => plain other (List.mem_cons_of_mem pair mem))
      (by simpa using enough)
    have value := readValue_format q pair.2 (boundary_flatMap q pairs)
    rw [List.flatMap_cons, formatLogPair_eq, List.cons_append, List.append_assoc,
      List.cons_append, readPairs, cut_append key]
    simp [value, later]

theorem length_le_flatMap (q : Quoting) (pairs : List (Bytes × Bytes)) :
    pairs.length ≤ (pairs.flatMap fun pair => formatLogPair q pair.1 pair.2).length := by
  induction pairs with
  | nil => rfl
  | cons pair pairs ih =>
    rw [List.flatMap_cons, formatLogPair_eq, List.length_append, List.length_cons, List.length_cons]
    omega

/-- The reader gets back what was written. -/
theorem readLogLine_format (q : Quoting) (event : Bytes) (pairs : List Bytes)
    (name : PlainName event) (keys : ∀ pair ∈ pairUp pairs, PlainName pair.1) :
    readLogLine q.unquote (formatLogEvent q event pairs) = some (event, pairUp pairs) := by
  have start : (ascii "evt=").isPrefixOf (formatLogEvent q event pairs) = true := by
    rw [formatLogEvent, List.append_assoc, List.isPrefixOf_iff_prefix]
    exact List.prefix_append _ _
  have after : (formatLogEvent q event pairs).drop 4 = event ++ formatLogPairs q pairs := by
    rw [formatLogEvent, List.append_assoc]
    rfl
  have enough : (pairUp pairs).length ≤ (formatLogEvent q event pairs).length := by
    have written := length_le_flatMap q (pairUp pairs)
    rw [← formatLogPairs_eq] at written
    rw [formatLogEvent, List.length_append]
    omega
  have read := readPairs_format q (pairUp pairs) _ keys enough
  have value := readValue_bare q.unquote name (boundary_flatMap q (pairUp pairs))
  rw [← formatLogPairs_eq] at read value
  rw [readLogLine, if_pos start, after, value]
  simp [read]

theorem oneLine_formatLogValue (q : Quoting) (value : Bytes) : OneLine (formatLogValue q value) := by
  unfold formatLogValue
  cases quoted : needsLogfmtQuoting value with
  | false => exact (plainName_of_bare quoted).oneLine
  | true => exact q.oneLine value

theorem oneLine_formatLogEvent (q : Quoting) (event : Bytes) (pairs : List Bytes)
    (name : PlainName event) (keys : ∀ pair ∈ pairUp pairs, PlainName pair.1) :
    OneLine (formatLogEvent q event pairs) := by
  have each : ∀ pair ∈ pairUp pairs, OneLine (formatLogPair q pair.1 pair.2) := by
    intro pair mem
    have blank : OneLine [32] := by decide
    have sign : OneLine [61] := by decide
    rw [formatLogPair_eq]
    exact blank.append ((keys pair mem).oneLine.append
      (sign.append (oneLine_formatLogValue q pair.2)))
  have all : OneLine (formatLogPairs q pairs) := by
    simp only [formatLogPairs_eq, OneLine, List.mem_flatMap, not_exists, not_and]
    exact ⟨fun pair mem => (each pair mem).1, fun pair mem => (each pair mem).2⟩
  have label : OneLine (ascii "evt=") := by decide
  exact (label.append name.oneLine).append all

/-- For event names and keys without white space, `=` and quotes and for all values, the line
has no line end, a reader of logfmt recovers the event and the pairs in order, and no other
event or list of pairs gives the same line. -/
theorem log_lines_unambiguous (q : Quoting) (event : Bytes) (pairs : List Bytes)
    (name : PlainName event) (keys : ∀ pair ∈ pairUp pairs, PlainName pair.1) :
    OneLine (formatLogEvent q event pairs) ∧
    readLogLine q.unquote (formatLogEvent q event pairs) = some (event, pairUp pairs) ∧
    ∀ event' pairs', PlainName event' → (∀ pair ∈ pairUp pairs', PlainName pair.1) →
      formatLogEvent q event pairs = formatLogEvent q event' pairs' →
      event = event' ∧ pairUp pairs = pairUp pairs' := by
  refine ⟨oneLine_formatLogEvent q event pairs name keys,
    readLogLine_format q event pairs name keys, ?_⟩
  intro event' pairs' name' keys' same
  have back := readLogLine_format q event pairs name keys
  rw [same, readLogLine_format q event' pairs' name' keys'] at back
  obtain ⟨rfl, equal⟩ := Prod.mk.inj (Option.some.inj back)
  exact ⟨rfl, equal.symm⟩

/-- A value that looks like the end of its line and a second pair, and an odd trailing key. -/
theorem log_lines_unambiguous_forged :
    let value := ascii "v\" k=\"" ++ [lf] ++ ascii "evt=x"
    let pairs := [ascii "error", value, ascii "path", ascii "/mcp", ascii "k"]
    readLogLine byteQuoting.unquote (formatLogEvent byteQuoting (ascii "x") pairs) =
      some (ascii "x", [(ascii "error", value), (ascii "path", ascii "/mcp"), (ascii "k", [])]) := by
  intro value pairs
  have keys : ∀ pair ∈ pairUp pairs, PlainName pair.1 :=
    List.all_iff_forall_prop.mp (by decide +kernel)
  exact (log_lines_unambiguous byteQuoting (ascii "x") pairs (by decide) keys).2.1

end AcemcpRelay
