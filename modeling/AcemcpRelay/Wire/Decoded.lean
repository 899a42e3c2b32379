import AcemcpRelay.Store.Maps
import AcemcpRelay.Wire.Value

/-!
# Decoded values

What `encoding/json` makes of a value that is decoded into an `interface{}`: an object becomes
a Go map, in which the last of several members of one name stays, and a number that is not in
the range of its type is an error.
-/
namespace AcemcpRelay.Wire

open Store

namespace Value

variable {Number : Type} (finite : Number → Bool)

mutual

/-- The value as it is decoded into an `interface{}`. -/
def decoded : Value Number → Option (Value Number)
  | null => some null
  | bool value => some (bool value)
  | number value => if finite value then some (number value) else none
  | string value => some (string value)
  | array items => (decodedItems items).map array
  | object members =>
    (decodedMembers members).map fun members => object (GoMap.ofMembers members).rows

def decodedItems : List (Value Number) → Option (List (Value Number))
  | [] => some []
  | item :: rest =>
    match decoded item, decodedItems rest with
    | some item, some rest => some (item :: rest)
    | _, _ => none

def decodedMembers : List (String × Value Number) → Option (List (String × Value Number))
  | [] => some []
  | (key, value) :: rest =>
    match decoded value, decodedMembers rest with
    | some value, some rest => some ((key, value) :: rest)
    | _, _ => none

end

/-- Decoding into a `map[string]interface{}`. -/
def decodedMap (members : List (String × Value Number)) : Option (GoMap (Value Number)) :=
  (decodedMembers finite members).map GoMap.ofMembers

/-- `value.(map[string]interface{})`. -/
def asMap : Value Number → Option (GoMap (Value Number))
  | object members => some (GoMap.ofMembers members)
  | _ => none

variable {finite}

/-- Each member is decoded by itself. -/
theorem mem_decodedMembers {members into : List (String × Value Number)}
    (read : decodedMembers finite members = some into) {after : String × Value Number} :
    after ∈ into ↔
      ∃ member ∈ members, member.1 = after.1 ∧ decoded finite member.2 = some after.2 := by
  induction members generalizing into with
  | nil =>
    rw [decodedMembers, Option.some.injEq] at read
    simp [← read]
  | cons member rest ih =>
    rw [decodedMembers] at read
    split at read
    next value others first second =>
      rw [← Option.some.inj read, List.mem_cons, ih second]
      have here : after = (member.1, value) ↔
          member.1 = after.1 ∧ decoded finite member.2 = some after.2 := by
        rw [first, Option.some.injEq]
        exact ⟨fun same => by simp [same], fun ⟨key, same⟩ => Prod.ext key.symm same.symm⟩
      simp only [List.mem_cons, exists_eq_or_imp, here]
    · simp at read

mutual

/-- A decoder that takes more numbers reads the same from what the other one reads. -/
theorem decoded_mono {wider : Number → Bool} (more : ∀ n, finite n = true → wider n = true)
    {value into : Value Number} (read : decoded finite value = some into) :
    decoded wider value = some into := by
  cases value with
  | null => exact read
  | bool => exact read
  | string => exact read
  | number n =>
    rw [decoded] at read ⊢
    split at read
    next fits => rw [if_pos (more n fits), read]
    · cases read
  | array items =>
    rw [decoded] at read
    obtain ⟨items', each, rfl⟩ := Option.map_eq_some_iff.mp read
    rw [decoded, decodedItems_mono more each, Option.map_some]
  | object members =>
    rw [decoded] at read
    obtain ⟨members', each, rfl⟩ := Option.map_eq_some_iff.mp read
    rw [decoded, decodedMembers_mono more each, Option.map_some]

theorem decodedItems_mono {wider : Number → Bool} (more : ∀ n, finite n = true → wider n = true)
    {items into : List (Value Number)} (read : decodedItems finite items = some into) :
    decodedItems wider items = some into := by
  cases items with
  | nil => exact read
  | cons item rest =>
    rw [decodedItems] at read ⊢
    split at read
    next first second =>
      rw [decoded_mono more first, decodedItems_mono more second]
      exact read
    · cases read

theorem decodedMembers_mono {wider : Number → Bool} (more : ∀ n, finite n = true → wider n = true)
    {members into : List (String × Value Number)}
    (read : decodedMembers finite members = some into) :
    decodedMembers wider members = some into := by
  cases members with
  | nil => exact read
  | cons member rest =>
    rw [decodedMembers] at read ⊢
    split at read
    next first second =>
      rw [decoded_mono more first, decodedMembers_mono more second]
      exact read
    · cases read

end

end Value

end AcemcpRelay.Wire
