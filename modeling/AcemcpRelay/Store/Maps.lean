import AcemcpRelay.Store.Table
import Mathlib.Data.List.Induction

/-!
# Maps from strings

A Go map is a table of its entries. Entries that are stored one after the other leave the last
one of each key.
-/
namespace AcemcpRelay.Store

/-- A `map[string]V`. -/
abbrev GoMap (V : Type) := Table (Prod.fst : String × V → String)

namespace GoMap

variable {V : Type}

/-- The map that is left after all members have been stored, one after the other. -/
def ofMembers (members : List (String × V)) : GoMap V :=
  members.foldl Table.put .empty

/-- `m[key]`. -/
def get (map : GoMap V) (key : String) : Option V :=
  (map.lookup key).map (·.2)

variable {map : GoMap V} {key other : String} {value : V}
  {members : List (String × V)}

theorem get_eq_some : map.get key = some value ↔ (key, value) ∈ map := by
  simp only [get, Option.map_eq_some_iff, Table.lookup_eq_some]
  constructor
  · rintro ⟨⟨_, _⟩, ⟨member, rfl⟩, rfl⟩
    exact member
  · exact fun member => ⟨(key, value), ⟨member, rfl⟩, rfl⟩

theorem get_put_self : GoMap.get (map.put (key, value)) key = some value :=
  get_eq_some.mpr (Table.mem_put.mpr (.inl rfl))

theorem get_put_of_ne (different : other ≠ key) :
    GoMap.get (map.put (key, value)) other = map.get other := by
  refine Option.ext fun found => ?_
  rw [get_eq_some, get_eq_some, Table.mem_put]
  constructor
  · rintro (same | ⟨member, -⟩)
    · cases same
      exact absurd rfl different
    · exact member
  · exact fun member => .inr ⟨member, different⟩

theorem get_delete {p : String × V → Bool} (kept : ∀ value, p (key, value) = false) :
    GoMap.get (map.delete p) key = map.get key := by
  refine Option.ext fun found => ?_
  rw [get_eq_some, get_eq_some, Table.mem_delete]
  simp only [kept, and_true]

theorem get_delete_self : GoMap.get (map.delete (·.1 == key)) key = none := by
  refine Option.eq_none_iff_forall_ne_some.mpr fun found listed => ?_
  rw [get_eq_some, Table.mem_delete] at listed
  simp at listed

theorem get_delete_of_ne (different : other ≠ key) :
    GoMap.get (map.delete (·.1 == key)) other = map.get other :=
  get_delete fun _ => by simpa using different

/-- Members come from what was stored. -/
theorem mem_of_mem_ofMembers {entry : String × V} (listed : entry ∈ ofMembers members) :
    entry ∈ members := by
  induction members using List.reverseRecOn with
  | nil => exact absurd listed List.not_mem_nil
  | append_singleton members last ih =>
    rw [ofMembers, List.foldl_append] at listed
    rcases Table.mem_put.mp listed with rfl | ⟨earlier, -⟩
    · exact List.mem_append_right _ (List.mem_singleton_self _)
    · exact List.mem_append_left _ (ih earlier)

/-- What was stored under a name is there under that name. -/
theorem exists_mem_ofMembers (stored : key ∈ members.map (·.1)) :
    ∃ value, (key, value) ∈ ofMembers members := by
  induction members using List.reverseRecOn with
  | nil => exact absurd stored List.not_mem_nil
  | append_singleton members last ih =>
    rw [ofMembers, List.foldl_append]
    by_cases same : last.1 = key
    · exact ⟨last.2, Table.mem_put.mpr (.inl (Prod.ext same.symm rfl))⟩
    · rw [List.map_append, List.mem_append] at stored
      have earlier : key ∈ members.map (·.1) := by
        rcases stored with earlier | now
        · exact earlier
        · exact absurd (List.mem_singleton.mp now).symm same
      obtain ⟨value, listed⟩ := ih earlier
      exact ⟨value, Table.mem_put.mpr (.inr ⟨listed, Ne.symm same⟩)⟩

/-- If all members of a name are the same, then the map has it. -/
theorem get_ofMembers (stored : (key, value) ∈ members)
    (only : ∀ other, (key, other) ∈ members → other = value) :
    (ofMembers members).get key = some value := by
  obtain ⟨other, listed⟩ := exists_mem_ofMembers (List.mem_map.mpr ⟨_, stored, rfl⟩)
  rw [get_eq_some, ← only other (mem_of_mem_ofMembers listed)]
  exact listed

end GoMap

end AcemcpRelay.Store
