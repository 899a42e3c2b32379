import AcemcpRelay.SwiftUpload
import AcemcpRelay.Wire.Value

/-!
# Counts in a reply of LCE

`findChunkCount` and `findDeletedFileCount` look for a count anywhere in a decoded reply: in
an object under a few names, then in its members, one after the other. The members of a Go
map come in any order, so that of two members with counts either may be taken. The counts are
the same in all orders exactly if the search meets no object whose members have different ones.
-/
namespace AcemcpRelay

open Wire

/-- A decoded reply. Its numbers are `float64`. -/
abbrev Reply := Value Rat

/-- A value as `numberAsInt64` sees it. -/
def Reply.argument : Reply → Argument
  | .number value => .number value
  | .string value => .text value
  | _ => .other

/-- The first of the names under which there is a number. -/
def countUnder (names : List String) (members : List (String × Reply)) : Option Int :=
  names.findSome? fun name => (Value.member name members).bind fun value =>
    numberAsInt64 (Reply.argument value)

/-- `value.([]interface{})`, and its length. -/
def Reply.arrayLength : Reply → Option Int
  | .array items => some items.length
  | _ => none

def ownChunkCount (members : List (String × Reply)) : Option Int :=
  (countUnder ["chunk_count", "chunkCount", "indexed_chunks", "indexedChunks", "total_chunks",
    "totalChunks"] members).or ((Value.member "chunks" members).bind Reply.arrayLength)

def ownDeletedFileCount : List (String × Reply) → Option Int :=
  countUnder ["deleted_files", "deletedFiles", "deleted_count", "deletedCount"]

def findChunkCount : Reply → Option Int := Value.search ownChunkCount

def findDeletedFileCount : Reply → Option Int := Value.search ownDeletedFileCount

/-! ### Counts in texts -/

/-- `\s` of Go's regular expressions. -/
def isPatternSpace (c : Char) : Bool := c ∈ ['\t', '\n', '\x0c', '\r', ' ']

/-- The digits with which a match of `(?i)(\d+)\s+chunks?` begins here. -/
def matchChunkText (cs : List Char) : Option (List Char) :=
  let digits := cs.takeWhile Char.isDigit
  let rest := cs.dropWhile Char.isDigit
  let word := (rest.dropWhile isPatternSpace).take 5
  if digits ≠ [] ∧ rest.takeWhile isPatternSpace ≠ [] ∧ word.map toLowerRune = "chunk".toList then
    some digits
  else none

/-- The first match, if its number has 64 bits. -/
def findChunkText (content : String) : Option Int :=
  (content.toList.tails.findSome? matchChunkText).bind parseInt64

/-- `extractChunkCount` of a reply and of what it decodes to, nothing if it is no JSON. -/
def extractChunkCount (decoded : Option Reply) (content : String) : Option Int :=
  (decoded.bind findChunkCount).or (findChunkText content)

def extractLCEDeletedFiles (decoded : Option Reply) : Option Int :=
  decoded.bind findDeletedFileCount

example : extractChunkCount none "stored 12 files, 34 Chunks" = some 34 := by decide +kernel

/-! ### Orders -/

section

variable {a b : Reply}

theorem argument_reordered (orders : Value.Reordered a b) : Reply.argument a = Reply.argument b := by
  induction orders with
  | refl => rfl
  | trans _ _ first second => exact first.trans second
  | members | inArray | inObject => rfl

theorem arrayLength_reordered (orders : Value.Reordered a b) :
    Reply.arrayLength a = Reply.arrayLength b := by
  induction orders with
  | refl => rfl
  | trans _ _ first second => exact first.trans second
  | members | inObject => rfl
  | inArray before after => simp [Reply.arrayLength]

/-- What is read of a member does not change if the reading of its value does not. -/
theorem member_inObject {Read : Type} {read : Reply → Option Read} (same : read a = read b)
    (before after : List (String × Reply)) (key name : String) :
    (Value.member name (before ++ (key, a) :: after)).bind read =
      (Value.member name (before ++ (key, b) :: after)).bind read := by
  unfold Value.member
  rw [List.find?_append, List.find?_append, List.find?_cons, List.find?_cons]
  cases before.find? (·.1 == name) with
  | some entry => rfl
  | none =>
    by_cases here : (key == name) = true
    · simp [here, same]
    · simp [Bool.eq_false_iff.mpr here]

theorem countUnder_blind (names : List String) : Value.OrderBlind (countUnder names) where
  members ms ns nodup perm := by
    unfold countUnder
    congr 1
    funext name
    rw [Value.member_perm nodup perm]
  inObject before after key a b orders := by
    unfold countUnder
    congr 1
    funext name
    exact member_inObject (by rw [argument_reordered orders]) before after key name

theorem ownDeletedFileCount_blind : Value.OrderBlind ownDeletedFileCount := countUnder_blind _

theorem ownChunkCount_blind : Value.OrderBlind ownChunkCount where
  members ms ns nodup perm := by
    unfold ownChunkCount
    rw [(countUnder_blind _).members ms ns nodup perm, Value.member_perm nodup perm]
  inObject before after key a b orders := by
    unfold ownChunkCount
    rw [(countUnder_blind _).inObject before after key a b orders,
      member_inObject (arrayLength_reordered orders)]

end

/-- The counts of a reply are the same in every order in which its objects are read exactly if
no object that the search meets has members with different counts and none of its own. -/
theorem reply_counts_ignore_order (reply : Reply) (maps : Value.Distinct reply) :
    ((∀ other, Value.Reordered reply other → findChunkCount reply = findChunkCount other ∧
        ∀ content, extractChunkCount (some reply) content = extractChunkCount (some other) content) ↔
      Value.Settled ownChunkCount reply) ∧
    ((∀ other, Value.Reordered reply other →
        findDeletedFileCount reply = findDeletedFileCount other ∧
        extractLCEDeletedFiles (some reply) = extractLCEDeletedFiles (some other)) ↔
      Value.Settled ownDeletedFileCount reply) := by
  rw [← Value.stable_iff_settled ownChunkCount_blind maps,
    ← Value.stable_iff_settled ownDeletedFileCount_blind maps]
  refine ⟨⟨fun same other orders => (same other orders).1, fun same other orders => ?_⟩,
    ⟨fun same other orders => (same other orders).1, fun same other orders => ?_⟩⟩
  · refine ⟨same other orders, fun content => ?_⟩
    rw [extractChunkCount, extractChunkCount, Option.bind_some, Option.bind_some, findChunkCount,
      same other orders]
  · exact ⟨same other orders, same other orders⟩

/-- A reply with the counts of two batches. -/
def twoCounts (name : String) (first second : String × Rat) : Reply :=
  .object [(first.1, .object [(name, .number first.2)]), (second.1, .object [(name, .number second.2)])]

theorem twoCounts_reordered (name : String) :
    Value.Reordered (twoCounts name ("a", 1) ("b", 2)) (twoCounts name ("b", 2) ("a", 1)) :=
  .members (by simp) (List.Perm.swap _ _ _)

theorem reply_counts_depend_on_order :
    Value.Reordered (twoCounts "chunk_count" ("a", 1) ("b", 2))
      (twoCounts "chunk_count" ("b", 2) ("a", 1)) ∧
    findChunkCount (twoCounts "chunk_count" ("a", 1) ("b", 2)) = some 1 ∧
    findChunkCount (twoCounts "chunk_count" ("b", 2) ("a", 1)) = some 2 ∧
    findDeletedFileCount (twoCounts "deleted_files" ("a", 1) ("b", 2)) = some 1 ∧
    findDeletedFileCount (twoCounts "deleted_files" ("b", 2) ("a", 1)) = some 2 := by
  refine ⟨twoCounts_reordered _, ?_, ?_, ?_, ?_⟩ <;> decide +kernel

/-- One count, in one of two members. -/
theorem reply_counts_ignore_order_nested :
    findChunkCount (.object [("usage", .object [("tokens", .number 7)]),
      ("result", .object [("chunk_count", .number 3)])]) =
    findChunkCount (.object [("result", .object [("chunk_count", .number 3)]),
      ("usage", .object [("tokens", .number 7)])]) := by
  have maps : Value.Distinct (.object [("usage", .object [("tokens", .number 7)]),
      ("result", .object [("chunk_count", .number 3)])] : Reply) := by
    refine .object (by simp) (List.forall_mem_cons.mpr ⟨?_, List.forall_mem_singleton.mpr ?_⟩)
    · exact .object (by simp) (List.forall_mem_singleton.mpr (.number _))
    · exact .object (by simp) (List.forall_mem_singleton.mpr (.number _))
  refine (((reply_counts_ignore_order _ maps).1.mpr ?_) _
    (.members (by simp) (List.Perm.swap _ _ _))).1
  have usage : Value.search ownChunkCount (.object [("tokens", .number 7)]) = none := by decide +kernel
  have counted : Value.search ownChunkCount (.object [("chunk_count", .number 3)]) = some 3 := by
    decide +kernel
  refine .members (List.forall_mem_cons.mpr ⟨?_, List.forall_mem_singleton.mpr ?_⟩) ?_
  · intro hit
    simp [usage] at hit
  · exact fun _ => .own (by decide +kernel)
  · simp [usage, counted]

end AcemcpRelay
