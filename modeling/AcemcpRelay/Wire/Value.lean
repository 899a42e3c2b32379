import Mathlib.Data.List.Nodup
import Mathlib.Data.List.Perm.Basic

/-!
# JSON values

A value is a tree. An object is the list of its members, in the order in which something
visits them: for a decoded object, which is a Go map, that order may differ from visit to
visit, and `Reordered` relates what only such orders tell apart.

A search goes down a tree until a node has what is searched for. At an object it asks the
object itself first, and then its members one after the other, so that the first member that
has something decides. The order is not seen exactly if, on the way of the search, all members
of an object that have something have the same.
-/
namespace AcemcpRelay.Wire

inductive Value (Number : Type) where
  | null
  | bool (value : Bool)
  | number (value : Number)
  | string (value : String)
  | array (items : List (Value Number))
  | object (members : List (String × Value Number))

namespace Value

variable {Number Found : Type}

/-- The value under a key. -/
def member (key : String) (members : List (String × Value Number)) : Option (Value Number) :=
  (members.find? (·.1 == key)).map (·.2)

/-! ### Orders -/

/-- The same value, with the members of its objects in other orders. -/
inductive Reordered : Value Number → Value Number → Prop where
  | refl (value : Value Number) : Reordered value value
  | trans {a b c : Value Number} : Reordered a b → Reordered b c → Reordered a c
  | members {ms ns : List (String × Value Number)} : (ms.map (·.1)).Nodup → ms.Perm ns →
      Reordered (object ms) (object ns)
  | inArray {a b : Value Number} (before after : List (Value Number)) : Reordered a b →
      Reordered (array (before ++ a :: after)) (array (before ++ b :: after))
  | inObject {a b : Value Number} (before after : List (String × Value Number)) (key : String) :
      Reordered a b →
      Reordered (object (before ++ (key, a) :: after)) (object (before ++ (key, b) :: after))

/-- No object has two members of one name, as in a Go map. -/
inductive Distinct : Value Number → Prop where
  | null : Distinct null
  | bool (value : Bool) : Distinct (bool value)
  | number (value : Number) : Distinct (number value)
  | string (value : String) : Distinct (string value)
  | array {items : List (Value Number)} : (∀ item ∈ items, Distinct item) → Distinct (array items)
  | object {members : List (String × Value Number)} : (members.map (·.1)).Nodup →
      (∀ entry ∈ members, Distinct entry.2) → Distinct (object members)

theorem member_eq_some {ms : List (String × Value Number)} (nodup : (ms.map (·.1)).Nodup)
    {key : String} {value : Value Number} : member key ms = some value ↔ (key, value) ∈ ms := by
  unfold member
  constructor
  · intro found
    obtain ⟨⟨name, _⟩, first, rfl⟩ := Option.map_eq_some_iff.mp found
    have named := List.find?_some first
    rw [beq_iff_eq] at named
    exact named ▸ List.mem_of_find?_eq_some first
  · intro listed
    have present : (ms.find? (·.1 == key)).isSome :=
      List.find?_isSome.mpr ⟨_, listed, beq_self_eq_true _⟩
    obtain ⟨⟨name, other⟩, first⟩ := Option.isSome_iff_exists.mp present
    have named := List.find?_some first
    have inList := List.mem_of_find?_eq_some first
    rw [beq_iff_eq] at named
    -- two members of one name are the same
    have same := List.inj_on_of_nodup_map nodup inList listed named
    rw [first, same]
    rfl

theorem member_perm {ms ns : List (String × Value Number)} (nodup : (ms.map (·.1)).Nodup)
    (perm : ms.Perm ns) (key : String) : member key ms = member key ns := by
  have nodup' : (ns.map (·.1)).Nodup := (perm.map _).nodup_iff.mp nodup
  refine Option.ext fun value => ?_
  rw [member_eq_some nodup, member_eq_some nodup', perm.mem_iff]

/-! ### Searches -/

section Search

variable (own : List (String × Value Number) → Option Found)

mutual

/-- What the object itself has, or else what the first of its members has. -/
def search : Value Number → Option Found
  | array items => searchItems items
  | object members => (own members).or (searchMembers members)
  | null | bool _ | number _ | string _ => none

def searchItems : List (Value Number) → Option Found
  | [] => none
  | item :: rest => (search item).or (searchItems rest)

def searchMembers : List (String × Value Number) → Option Found
  | [] => none
  | (_, child) :: rest => (search child).or (searchMembers rest)

end

variable {own : List (String × Value Number) → Option Found}

theorem searchItems_eq (items : List (Value Number)) :
    searchItems own items = items.findSome? (search own) := by
  induction items with
  | nil => rfl
  | cons item rest ih =>
    rw [searchItems, List.findSome?_cons, ih]
    cases search own item <;> rfl

theorem searchMembers_eq (members : List (String × Value Number)) :
    searchMembers own members = members.findSome? (search own ·.2) := by
  induction members with
  | nil => rfl
  | cons entry rest ih =>
    rw [searchMembers, List.findSome?_cons, ih]
    cases search own entry.2 <;> rfl

theorem search_array (items : List (Value Number)) :
    search own (array items) = items.findSome? (search own) := by
  rw [search, searchItems_eq]

theorem search_object (members : List (String × Value Number)) :
    search own (object members) = (own members).or (members.findSome? (search own ·.2)) := by
  rw [search, searchMembers_eq]

variable (own) in
/-- Where the search goes, no two members of an object have different things, unless the object
has something itself. A search of an array goes to the first item that has something. -/
inductive Settled : Value Number → Prop where
  | nothing {value : Value Number} : search own value = none → Settled value
  | array {items : List (Value Number)} {item : Value Number} :
      items.find? (fun item => (search own item).isSome) = some item → Settled item →
      Settled (array items)
  | own {members : List (String × Value Number)} : (own members).isSome →
      Settled (object members)
  | members {members : List (String × Value Number)} :
      (∀ entry ∈ members, (search own entry.2).isSome → Settled entry.2) →
      (∀ entry ∈ members, ∀ other ∈ members, ∀ x y, search own entry.2 = some x →
        search own other.2 = some y → x = y) →
      Settled (object members)

/-- What is read off an object itself does not depend on orders. -/
structure OrderBlind (own : List (String × Value Number) → Option Found) : Prop where
  members : ∀ ms ns, (ms.map (·.1)).Nodup → ms.Perm ns → own ms = own ns
  inObject : ∀ before after key a b, Reordered a b →
    own (before ++ (key, a) :: after) = own (before ++ (key, b) :: after)

/-- The first hit in a list in which all hits are the same. -/
theorem findSome?_perm {Item : Type} {f : Item → Option Found} {xs ys : List Item}
    (perm : xs.Perm ys)
    (agree : ∀ a ∈ xs, ∀ b ∈ xs, ∀ x y, f a = some x → f b = some y → x = y) :
    xs.findSome? f = ys.findSome? f := by
  cases first : xs.findSome? f with
  | none =>
    symm
    rw [List.findSome?_eq_none_iff] at first ⊢
    exact fun y listed => first y (perm.mem_iff.mpr listed)
  | some x =>
    obtain ⟨a, listed, hit⟩ := List.exists_of_findSome?_eq_some first
    cases second : ys.findSome? f with
    | none =>
      have missed := List.findSome?_eq_none_iff.mp second a (perm.mem_iff.mp listed)
      rw [hit] at missed
      cases missed
    | some y =>
      obtain ⟨b, listed', hit'⟩ := List.exists_of_findSome?_eq_some second
      rw [agree a listed b (perm.mem_iff.mpr listed') x y hit hit']

/-- Whether something is found does not depend on orders. -/
theorem isSome_search_reordered (blind : OrderBlind own) {v w : Value Number}
    (orders : Reordered v w) : (search own v).isSome = (search own w).isSome := by
  induction orders with
  | refl => rfl
  | trans _ _ first second => exact first.trans second
  | @members ms ns nodup perm =>
    rw [search_object, search_object, blind.members ms ns nodup perm, Option.isSome_or,
      Option.isSome_or, List.isSome_findSome?, List.isSome_findSome?, perm.any_eq]
  | @inArray a b before after _ ih =>
    rw [search_array, search_array, List.isSome_findSome?, List.isSome_findSome?, List.any_append,
      List.any_append, List.any_cons, List.any_cons, ih]
  | @inObject a b before after key orders ih =>
    rw [search_object, search_object, blind.inObject before after key a b orders, Option.isSome_or,
      Option.isSome_or, List.isSome_findSome?, List.isSome_findSome?, List.any_append,
      List.any_append, List.any_cons, List.any_cons, ih]

/-- The search of an array is that of the item it goes to. -/
theorem search_array_of_find? {items : List (Value Number)} {item : Value Number}
    (first : items.find? (fun item => (search own item).isSome) = some item) :
    search own (array items) = search own item := by
  rw [search_array]
  induction items with
  | nil => cases first
  | cons head rest ih =>
    rw [List.findSome?_cons]
    cases hit : search own head with
    | some found =>
      rw [List.find?_cons_of_pos (by rw [hit]; rfl), Option.some.injEq] at first
      rw [← first, hit]
    | none =>
      rw [List.find?_cons_of_neg (by rw [hit]; simp)] at first
      exact ih first

theorem settled_of_none (blind : OrderBlind own) {v w : Value Number} (orders : Reordered v w)
    (none : search own v = none) : Settled own w ∧ search own v = search own w := by
  have found := isSome_search_reordered blind orders
  rw [none, eq_comm, Option.isSome_none, Option.isSome_eq_false_iff, Option.isNone_iff_eq_none]
    at found
  exact ⟨.nothing found, none.trans found.symm⟩

/-- A search of a settled value does not see the orders. -/
theorem search_reordered (blind : OrderBlind own) {v w : Value Number} (orders : Reordered v w)
    (settled : Settled own v) : Settled own w ∧ search own v = search own w := by
  induction orders with
  | refl value => exact ⟨settled, rfl⟩
  | trans _ _ first second =>
    obtain ⟨settledB, same⟩ := first settled
    obtain ⟨settledC, same'⟩ := second settledB
    exact ⟨settledC, same.trans same'⟩
  | @members ms ns nodup perm =>
    have sameOwn := blind.members ms ns nodup perm
    cases settled with
    | nothing none => exact settled_of_none blind (.members nodup perm) none
    | own has =>
      refine ⟨.own (sameOwn ▸ has), ?_⟩
      rw [search_object, search_object, ← sameOwn]
      obtain ⟨found, has⟩ := Option.isSome_iff_exists.mp has
      rw [has, Option.some_or, Option.some_or]
    | members children agree =>
      refine ⟨.members (fun entry listed => children entry (perm.mem_iff.mpr listed)) ?_, ?_⟩
      · intro entry listed other listed'
        exact agree entry (perm.mem_iff.mpr listed) other (perm.mem_iff.mpr listed')
      · rw [search_object, search_object, ← sameOwn, findSome?_perm perm agree]
  | @inArray a b before after orders ih =>
    have here := isSome_search_reordered blind orders
    cases settled with
    | nothing none => exact settled_of_none blind (.inArray before after orders) none
    | @array _ item first settledItem =>
      rw [search_array_of_find? first]
      rw [List.find?_append, List.find?_cons] at first
      -- the search goes to an item before the one that has changed, to that one, or past it
      cases earlier : before.find? (fun item => (search own item).isSome) with
      | some old =>
        rw [earlier, Option.some_or, Option.some.injEq] at first
        subst first
        have again : (before ++ b :: after).find? (fun item => (search own item).isSome) =
            some old := by rw [List.find?_append, earlier, Option.some_or]
        exact ⟨.array again settledItem, (search_array_of_find? again).symm⟩
      | none =>
        rw [earlier, Option.none_or] at first
        by_cases hit : (search own a).isSome = true
        · simp only [hit, Option.some.injEq] at first
          subst first
          obtain ⟨settledB, same⟩ := ih settledItem
          have again : (before ++ b :: after).find? (fun item => (search own item).isSome) =
              some b := by
            rw [List.find?_append, earlier, Option.none_or, List.find?_cons_of_pos (here ▸ hit)]
          exact ⟨.array again settledB, same.trans (search_array_of_find? again).symm⟩
        · rw [Bool.not_eq_true] at hit
          simp only [hit] at first
          have again : (before ++ b :: after).find? (fun item => (search own item).isSome) =
              some item := by
            rw [List.find?_append, earlier, Option.none_or,
              List.find?_cons_of_neg (by rw [← here, hit]; simp), first]
          exact ⟨.array again settledItem, (search_array_of_find? again).symm⟩
  | @inObject a b before after key orders ih =>
    have here := isSome_search_reordered blind orders
    have sameOwn := blind.inObject before after key a b orders
    cases settled with
    | nothing none => exact settled_of_none blind (.inObject before after key orders) none
    | own has =>
      refine ⟨.own (sameOwn ▸ has), ?_⟩
      rw [search_object, search_object, ← sameOwn]
      obtain ⟨found, has⟩ := Option.isSome_iff_exists.mp has
      rw [has, Option.some_or, Option.some_or]
    | members children agree =>
      have changed : search own a = search own b ∧ ((search own b).isSome → Settled own b) := by
        by_cases hit : (search own a).isSome = true
        · obtain ⟨settledB, same⟩ := ih (children (key, a) (by simp) hit)
          exact ⟨same, fun _ => settledB⟩
        · have missed : search own b = none := by
            rw [here] at hit
            simpa using hit
          have none : search own a = none := by simpa using hit
          exact ⟨none.trans missed.symm, fun hit' => by rw [missed] at hit'; cases hit'⟩
      obtain ⟨same, settledB⟩ := changed
      -- every member of the new object stands for one of the old
      have stands : ∀ entry ∈ before ++ (key, b) :: after,
          ((search own entry.2).isSome → Settled own entry.2) ∧
            ∃ old ∈ before ++ (key, a) :: after, search own old.2 = search own entry.2 := by
        intro entry listed
        rcases List.mem_append.mp listed with old | new
        · have listed := List.mem_append_left ((key, a) :: after) old
          exact ⟨children entry listed, entry, listed, rfl⟩
        · rcases List.mem_cons.mp new with rfl | old
          · exact ⟨settledB, (key, a), by simp, same⟩
          · have listed := List.mem_append_right before (List.mem_cons_of_mem (key, a) old)
            exact ⟨children entry listed, entry, listed, rfl⟩
      refine ⟨.members (fun entry listed => (stands entry listed).1) ?_, ?_⟩
      · intro entry listed other listed' x y hit hit'
        obtain ⟨-, old, inOld, sameOld⟩ := stands entry listed
        obtain ⟨-, old', inOld', sameOld'⟩ := stands other listed'
        exact agree old inOld old' inOld' x y (sameOld.trans hit) (sameOld'.trans hit')
      · rw [search_object, search_object, ← sameOwn, List.findSome?_append, List.findSome?_append,
          List.findSome?_cons, List.findSome?_cons, same]

/-- What a member has is found if the member is visited first. -/
theorem search_memberFirst {members : List (String × Value Number)} {entry : String × Value Number}
    (distinct : (members.map (·.1)).Nodup) (none : own members = none) (listed : entry ∈ members)
    (blind : OrderBlind own) {after : Value Number} (orders : Reordered entry.2 after)
    (hit : (search own entry.2).isSome) :
    ∃ other, Reordered (object members) other ∧ search own other = search own after := by
  obtain ⟨before, rest, rfl⟩ := List.append_of_mem listed
  have perm : (before ++ entry :: rest).Perm (entry :: (before ++ rest)) := List.perm_middle
  have front : Reordered (object (before ++ entry :: rest)) (object (entry :: (before ++ rest))) :=
    .members distinct perm
  have inside : Reordered (object (entry :: (before ++ rest)))
      (object ((entry.1, after) :: (before ++ rest))) := .inObject [] (before ++ rest) entry.1 orders
  refine ⟨_, .trans front inside, ?_⟩
  have still : own ((entry.1, after) :: (before ++ rest)) = Option.none := by
    have same := blind.inObject [] (before ++ rest) entry.1 entry.2 after orders
    exact same.symm.trans ((blind.members _ _ distinct perm).symm.trans none)
  rw [isSome_search_reordered blind orders] at hit
  obtain ⟨found, hit⟩ := Option.isSome_iff_exists.mp hit
  rw [search_object, still, Option.none_or, List.findSome?_cons, hit]

/-- A value of which every order is searched with the same result is settled. -/
theorem settled_of_stable (blind : OrderBlind own) {v : Value Number} (distinct : Distinct v)
    (stable : ∀ w, Reordered v w → search own v = search own w) : Settled own v := by
  induction distinct with
  | null | bool | number | string => exact .nothing (by simp [search])
  | @array items _ ih =>
    cases first : items.find? (fun item => (search own item).isSome) with
    | none =>
      refine .nothing ?_
      rw [search_array, List.findSome?_eq_none_iff]
      intro item listed
      have missed := List.find?_eq_none.mp first item listed
      simpa using missed
    | some item =>
      have listed := List.mem_of_find?_eq_some first
      have hit : (search own item).isSome = true := by simpa using List.find?_some first
      refine .array first (ih item listed fun after orders => ?_)
      -- the items before it have nothing
      obtain ⟨_, before, rest, rfl, missed⟩ := List.find?_eq_some_iff_append.mp first
      have whole := stable _ (.inArray before rest orders)
      have again : (before ++ after :: rest).find? (fun item => (search own item).isSome) =
          some after := by
        rw [List.find?_append, List.find?_eq_none.mpr (by simpa using missed), Option.none_or,
          List.find?_cons_of_pos (isSome_search_reordered blind orders ▸ hit)]
      rwa [search_array_of_find? first, search_array_of_find? again] at whole
  | @object members nodup _ ih =>
    cases has : own members with
    | some found => exact .own (by rw [has]; rfl)
    | none =>
      have reaches {entry : String × Value Number} (listed : entry ∈ members)
          (hit : (search own entry.2).isSome) {after : Value Number}
          (orders : Reordered entry.2 after) :
          search own (object members) = search own after := by
        obtain ⟨other, reordered, same⟩ := search_memberFirst nodup has listed blind orders hit
        exact (stable other reordered).trans same
      refine .members (fun entry listed hit => ih entry listed fun after orders => ?_) ?_
      · exact (reaches listed hit (.refl _)).symm.trans (reaches listed hit orders)
      · intro entry listed other listed' x y hit hit'
        have first := reaches listed (by rw [hit]; rfl) (.refl _)
        have second := reaches listed' (by rw [hit']; rfl) (.refl _)
        exact Option.some.inj (hit.symm.trans (first.symm.trans (second.trans hit')))

/-- The search of a map does not see the orders exactly if it is settled. -/
theorem stable_iff_settled (blind : OrderBlind own) {v : Value Number} (distinct : Distinct v) :
    (∀ w, Reordered v w → search own v = search own w) ↔ Settled own v := by
  constructor
  · exact settled_of_stable blind distinct
  · intro settled w orders
    exact (search_reordered blind orders settled).2

end Search

end Value

end AcemcpRelay.Wire
