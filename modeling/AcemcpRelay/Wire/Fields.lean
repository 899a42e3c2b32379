import Mathlib.Data.List.Pairwise
import Mathlib.Data.List.Sort
import Mathlib.Data.String.Basic

/-!
# Fields of a struct

Which field of a Go struct takes the value of a key of a JSON object: the field of that name,
or else one whose name differs from the key in case only. Several keys can therefore go to one
field, and the last one that is read stays.
-/
namespace AcemcpRelay.Wire

/-- The smallest rune that differs from this one in case only, as far as it is ASCII: outside
ASCII only the long s and the Kelvin sign have such a rune. -/
def foldRune (c : Char) : Char :=
  if c = '\u017f' then 'S' else if c = '\u212a' then 'K' else c.toUpper

def foldName (name : String) : List Char := name.toList.map foldRune

/-- The field that takes the value of a key. -/
def fieldFor (names : List String) (key : String) : Option String :=
  if key ∈ names then some key else names.find? (foldName · == foldName key)

variable {V : Type} {names : List String} {name key field : String}

example : fieldFor ["name", "files"] "File\u017f" = some "files" := by decide

theorem foldName_of_fieldFor (found : fieldFor names key = some field) :
    foldName key = foldName field := by
  unfold fieldFor at found
  split at found
  · rw [Option.some.inj found]
  · have same := List.find?_some found
    rw [beq_iff_eq] at same
    exact same.symm

theorem mem_of_fieldFor (found : fieldFor names key = some field) : field ∈ names := by
  unfold fieldFor at found
  split at found
  next listed => exact Option.some.inj found ▸ listed
  · exact List.mem_of_find?_eq_some found

theorem fieldFor_of_mem (listed : key ∈ names) : fieldFor names key = some key := if_pos listed

/-- The values that are stored in a field, in the order of their keys. -/
def assigned (names : List String) (field : String) (members : List (String × V)) : List V :=
  (members.filter fun entry => fieldFor names entry.1 == some field).map (·.2)

/-! ### Sorted keys -/

/-- The order in which the keys of a Go map are written. -/
def inKeyOrder (a b : String × V) : Prop := a.1.toList ≤ b.1.toList

instance : DecidableRel (inKeyOrder (V := V)) := fun a b =>
  inferInstanceAs (Decidable (a.1.toList ≤ b.1.toList))

instance : Std.Total (inKeyOrder (V := V)) := ⟨fun a b => le_total a.1.toList b.1.toList⟩

instance : IsTrans (String × V) inKeyOrder := ⟨fun a b c => le_trans (a := a.1.toList) (b := b.1.toList) (c := c.1.toList)⟩

theorem toNat_toUpper (c : Char) :
    c.toUpper.toNat = if 97 ≤ c.toNat ∧ c.toNat ≤ 122 then c.toNat - 32 else c.toNat := by
  unfold Char.toUpper
  split
  next h =>
    have lo : 97 ≤ c.toNat := UInt32.le_iff_toNat_le.mp h.1
    have hi : c.toNat ≤ 122 := UInt32.le_iff_toNat_le.mp h.2
    rw [if_pos ⟨lo, hi⟩]
    change (c.val + _).toNat = _
    rw [UInt32.toNat_add]
    have val : c.val.toNat = c.toNat := rfl
    have shift : ('A'.val - 'a'.val).toNat = 4294967264 := by decide
    rw [val, shift]
    omega
  next h =>
    rw [if_neg]
    rintro ⟨lo, hi⟩
    exact h ⟨UInt32.le_iff_toNat_le.mpr lo, UInt32.le_iff_toNat_le.mpr hi⟩

/-- No rune that differs from this one in case only is greater. -/
def Greatest (c : Char) : Prop := ∀ d, foldRune d = foldRune c → d ≤ c

theorem greatest_of_lower {c : Char} (lower : 97 ≤ c.toNat ∧ c.toNat ≤ 122) (s : c.toNat ≠ 115)
    (k : c.toNat ≠ 107) : Greatest c := by
  intro d same
  have upper : (foldRune c).toNat = c.toNat - 32 := by
    unfold foldRune
    rw [if_neg, if_neg, toNat_toUpper, if_pos lower]
    · rintro rfl
      exact absurd lower.2 (by decide)
    · rintro rfl
      exact absurd lower.2 (by decide)
  have sameNat : (foldRune d).toNat = c.toNat - 32 := by rw [same, upper]
  rw [Char.le_def, UInt32.le_iff_toNat_le]
  change d.toNat ≤ c.toNat
  unfold foldRune at sameNat
  split at sameNat
  · have : 'S'.toNat = 83 := rfl
    omega
  · split at sameNat
    · have : 'K'.toNat = 75 := rfl
      omega
    · rw [toNat_toUpper] at sameNat
      split at sameNat <;> omega

theorem le_of_greatest (greatest : ∀ c ∈ name.toList, Greatest c)
    (same : foldName key = foldName name) : key.toList ≤ name.toList := by
  unfold foldName at same
  generalize name.toList = cs at same greatest
  generalize key.toList = ds at same
  induction cs generalizing ds with
  | nil =>
    rw [List.map_nil, List.map_eq_nil_iff] at same
    exact same.le
  | cons c cs ih =>
    obtain ⟨d, rest, rfl, first, others⟩ := List.map_eq_cons_iff.mp same
    have below := ih (fun c listed => greatest c (List.mem_cons_of_mem _ listed)) rest others
    have bound := greatest c List.mem_cons_self d first
    rcases bound.lt_or_eq with less | rfl
    · exact le_of_lt (List.Lex.rel less)
    · exact List.cons_le_cons d below

/-- Of the keys that go to one field the greatest is read last. -/
theorem getLast?_assigned {members : List (String × V)} {value : V}
    (sorted : members.Pairwise inKeyOrder) (unique : (members.map (·.1)).Nodup)
    (field : name ∈ names) (greatest : ∀ c ∈ name.toList, Greatest c)
    (listed : (name, value) ∈ members) : (assigned names name members).getLast? = some value := by
  have taken : (name, value) ∈ members.filter fun entry => fieldFor names entry.1 == some name := by
    simp only [List.mem_filter, listed, fieldFor_of_mem field, beq_self_eq_true, and_self]
  have some : members.filter _ ≠ [] := List.ne_nil_of_mem taken
  have member := List.mem_filter.mp (List.getLast_mem some)
  -- the last key is at least the name, and no key of the field is more
  have above : name.toList ≤ ((members.filter _).getLast some).1.toList :=
    (sorted.filter _).rel_getLast taken
  have below : ((members.filter _).getLast some).1.toList ≤ name.toList :=
    le_of_greatest greatest (foldName_of_fieldFor (beq_iff_eq.mp member.2))
  have same : ((members.filter _).getLast some).1 = name :=
    String.toList_inj.mp (le_antisymm below above)
  have row := List.inj_on_of_nodup_map unique member.1 listed same
  rw [assigned, List.getLast?_map, List.getLast?_eq_some_getLast some, row, Option.map_some]

end AcemcpRelay.Wire
