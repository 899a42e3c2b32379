import AcemcpRelay.Calls
import AcemcpRelay.Wire.Decoded

/-!
# Replies about a publication

How `completeIndexJobUnderLease` and `reconcileIndexPublication` read the content of a tool
result. Both ask small decoders for a failure, a state and a revision, in an order of their
own. The state is read by `json.Unmarshal`, which takes a whole text or nothing; the revision
by a `json.Decoder`, which takes the first value of a text and does not look any further, and
which leaves numbers as they are written.
-/
namespace AcemcpRelay

open Store Wire

/-- What `encoding/json` finds in a byte string. -/
structure ToolContent (Number : Type) where
  /-- The JSON value at the front, if there is one. -/
  first : Option (Value Number)
  /-- Nothing but white space follows it. -/
  alone : Bool

namespace ToolContent

variable {Number : Type} (finite : Number → Bool)

/-- A value as a `map[string]interface{}`. -/
def asObject : Value Number → Option (GoMap (Value Number))
  | .object members => Value.decodedMap finite members
  | _ => none

/-- `json.Unmarshal(content, &value)`, for a `map[string]interface{}`: `null` leaves the map
empty. -/
def unmarshal (content : ToolContent Number) : Option (GoMap (Value Number)) :=
  if content.alone then
    match content.first with
    | some .null => some .empty
    | some value => asObject finite value
    | none => none
  else none

/-- The object itself, or the one under `payload`. -/
def unwrapped (object : GoMap (Value Number)) : GoMap (Value Number) :=
  ((object.get "payload").bind Value.asMap).getD object

/-- `value[key].(string)`, empty if there is no string. -/
def text (object : GoMap (Value Number)) (key : String) : String :=
  match object.get key with
  | some (.string value) => value
  | _ => ""

/-- The text is one JSON value, with numbers that a `float64` can hold. -/
def Whole (content : ToolContent Number) : Prop :=
  content.alone = true ∧ ∀ value ∈ content.first, (value.decoded finite).isSome

/-- The state that the text reports, at its top level or under `payload`. -/
def state (content : ToolContent Number) : String :=
  match content.first.bind (asObject fun _ => true) with
  | some object => text (unwrapped object) "state"
  | none => ""

end ToolContent

open ToolContent

section Readers

variable {Number : Type} (finite : Number → Bool) (int64 : Number → Option Int)

def publicationState (content : ToolContent Number) : String :=
  match content.unmarshal finite with
  | none => ""
  | some value => text (unwrapped value) "state"

def publishAccepted (content : ToolContent Number) : Bool :=
  match content.unmarshal finite with
  | none => false
  | some value => text (unwrapped value) "state" == "publishing"

def publicationFailure (content : ToolContent Number) : Option String :=
  match content.unmarshal finite with
  | none => none
  | some value =>
    let value := unwrapped value
    let state := text value "state"
    if state ≠ "failed" ∧ state ≠ "cancelled" then none
    else if trimSpace (text value "error") = "" then some ("cloud publication " ++ state)
    else some (text value "error")

/-- `int64` is `json.Number.Int64`. -/
def extractCloudRevision (content : ToolContent Number) : Except String Int :=
  match content.first with
  | none => .error "invalid JSON"
  | some value =>
    -- `UseNumber`: numbers of any size decode here, and only the first value is read
    match asObject (fun _ => true) value with
    | none => .error "publish response is not an object"
    | some object =>
      match (unwrapped object).get "revision" with
      | none => .error "publish response has no revision"
      | some (.number number) =>
        match int64 number with
        | none => .error "revision is not a non-negative integer"
        | some revision =>
          if revision < 0 then .error "revision is not a non-negative integer" else .ok revision
      | some _ => .error "revision has an invalid type"

/-- `completeIndexJobUnderLease` after a reply to `publish` that is not an error. -/
def directPublish (jobID rootID : String) (content : ToolContent Number) : Except String Point :=
  match publicationFailure finite content with
  | some failure => .ok (.rejected jobID failure)
  | none =>
    -- of the states, the direct path asks for `publishing` only
    if publishAccepted finite content then .ok (.accepted jobID)
    else match extractCloudRevision int64 content with
      | .error message =>
        .error ("LCE cloud index publish returned an invalid revision: " ++ message)
      | .ok revision => .ok (.record jobID rootID revision)

/-- `reconcileIndexPublication` after a reply to `status` that is not an error; `none` where
it returns without doing anything. -/
def reconcilePublication (jobID : String) (overdue : Bool) (content : ToolContent Number) :
    Except String (Option Point) :=
  match publicationFailure finite content with
  | some failure => .ok (some (.rejected jobID failure))
  | none =>
    if publicationState finite content = "completed" then
      (extractCloudRevision int64 content).map fun revision => some (.check jobID (some revision))
    -- past the deadline it makes no difference what LCE is still doing
    else if overdue then .ok (some (.cancel jobID))
    else if publicationState finite content = "not_submitted" then .ok (some (.check jobID none))
    else if publicationState finite content ∈ ["pending", "leased", "publishing"] then .ok none
    else .error "invalid publication status response"

variable {finite int64} {content : ToolContent Number} {jobID rootID : String}

/-- Of a whole text, `json.Unmarshal` reads the state that the text reports. -/
theorem publicationState_of_whole (whole : content.Whole finite) :
    publicationState finite content = content.state := by
  obtain ⟨first, alone⟩ := content
  obtain ⟨rfl, readable⟩ : alone = true ∧ _ := whole
  cases first with
  | none => rfl
  | some value =>
    cases value with
    | null | bool | number | string | array => rfl
    | object members =>
      obtain ⟨into, read⟩ := Option.isSome_iff_exists.mp (readable _ rfl)
      rw [Value.decoded] at read
      obtain ⟨decoded, read, -⟩ := Option.map_eq_some_iff.mp read
      have wider : Value.decodedMembers (fun _ => true) members = some decoded :=
        Value.decodedMembers_mono (fun _ _ => rfl) read
      simp [publicationState, state, unmarshal, asObject, Value.decodedMap, read, wider]

/-- Of any other text it reads none. -/
theorem publicationState_of_not_whole (broken : ¬ content.Whole finite) :
    publicationState finite content = "" := by
  obtain ⟨first, alone⟩ := content
  cases alone with
  | false => rfl
  | true =>
    cases first with
    | none => rfl
    | some value =>
      cases value with
      | null => exact absurd ⟨rfl, fun value found => by cases found; rfl⟩ broken
      | bool | number | string | array => rfl
      | object members =>
        have unread : Value.decodedMembers finite members = none := by
          by_contra some
          obtain ⟨into, read⟩ := Option.ne_none_iff_exists'.mp some
          refine broken ⟨rfl, fun value found => ?_⟩
          cases found
          rw [Value.decoded, read]
          rfl
        simp [publicationState, unmarshal, asObject, Value.decodedMap, unread]

theorem publishAccepted_iff :
    publishAccepted finite content = true ↔ publicationState finite content = "publishing" := by
  unfold publishAccepted publicationState
  split <;> simp

theorem publicationFailure_isSome :
    (publicationFailure finite content).isSome ↔
      publicationState finite content ∈ ["failed", "cancelled"] := by
  unfold publicationFailure publicationState
  cases content.unmarshal finite with
  | none => simp
  | some value =>
    by_cases running : text (unwrapped value) "state" ≠ "failed" ∧
        text (unwrapped value) "state" ≠ "cancelled"
    · simp only [if_pos running]
      simp [running.1, running.2]
    · simp only [if_neg running]
      have ended : text (unwrapped value) "state" ∈ ["failed", "cancelled"] := by
        simpa [or_iff_not_imp_left] using running
      simp only [ended, iff_true]
      split <;> rfl

theorem publicationFailure_eq_none :
    publicationFailure finite content = none ↔
      publicationState finite content ∉ ["failed", "cancelled"] := by
  rw [← Option.not_isSome_iff_eq_none, publicationFailure_isSome]

/-- The direct path completes a job where no decoder before the last one has found anything. -/
theorem directPublish_eq_record {revision : Int} :
    directPublish finite int64 jobID rootID content = .ok (.record jobID rootID revision) ↔
      publicationState finite content ∉ ["failed", "cancelled", "publishing"] ∧
        extractCloudRevision int64 content = .ok revision := by
  unfold directPublish
  cases failure : publicationFailure finite content with
  | some message =>
    have terminal := publicationFailure_isSome.mp (failure ▸ rfl :
      (publicationFailure finite content).isSome)
    have listed : publicationState finite content ∈ ["failed", "cancelled", "publishing"] := by
      simp only [List.mem_cons, List.not_mem_nil, or_false] at terminal ⊢
      tauto
    simp [listed]
  | none =>
    have running := publicationFailure_eq_none.mp failure
    by_cases accepted : publishAccepted finite content = true
    · simp [accepted, publishAccepted_iff.mp accepted]
    · have unaccepted := mt publishAccepted_iff.mpr accepted
      have unseen : publicationState finite content ∉ ["failed", "cancelled", "publishing"] := by
        simp only [List.mem_cons, List.not_mem_nil, or_false] at running ⊢
        tauto
      simp only [accepted, unseen, not_false_eq_true, true_and]
      cases extractCloudRevision int64 content <;> simp

end Readers

end AcemcpRelay
