import Mathlib.Algebra.Ring.Int.Defs
import Mathlib.Algebra.Ring.Nat
import Mathlib.Data.List.Sort
import Mathlib.Data.String.Basic

/-!
# JSON texts

What Go's `encoding/json` writes for strings, numbers, slices and maps, as a list
of characters, and how many bytes that takes. Map keys are sorted; strings are
escaped with HTML escaping on, so that one byte becomes six at most.
-/
namespace AcemcpRelay.Wire

open String (utf8Len)

def hexDigit (n : Nat) : Char := if n < 10 then Char.ofNat (48 + n) else Char.ofNat (87 + n)

/-- `\u00xy`. -/
def escapeCode (c : Char) : List Char :=
  ['\\', 'u', '0', '0', hexDigit (c.toNat / 16), hexDigit (c.toNat % 16)]

def escape (c : Char) : List Char :=
  match c with
  | '"' => ['\\', '"']
  | '\\' => ['\\', '\\']
  | '\x08' => ['\\', 'b']
  | '\x0c' => ['\\', 'f']
  | '\n' => ['\\', 'n']
  | '\r' => ['\\', 'r']
  | '\t' => ['\\', 't']
  | '\u2028' => ['\\', 'u', '2', '0', '2', '8']
  | '\u2029' => ['\\', 'u', '2', '0', '2', '9']
  | _ => if c < ' ' ∨ c = '<' ∨ c = '>' ∨ c = '&' then escapeCode c else [c]

def string (s : String) : List Char := '"' :: s.toList.flatMap escape ++ ['"']

def number (n : Int) : List Char := (toString n).toList

/-- Texts separated by commas. -/
def separated : List (List Char) → List Char
  | [] => []
  | [item] => item
  | item :: rest => item ++ ',' :: separated rest

def array (items : List (List Char)) : List Char := '[' :: separated items ++ [']']

/-- Keys are compared like Go strings. -/
def byKey (a b : String × List Char) : Prop := a.1.toList ≤ b.1.toList

instance : DecidableRel byKey := fun a b => inferInstanceAs (Decidable (a.1.toList ≤ b.1.toList))

/-- A map from strings, given by its entries. -/
def object (fields : List (String × List Char)) : List Char :=
  '\x7b' :: separated ((fields.insertionSort byKey).map fun field =>
    string field.1 ++ ':' :: field.2) ++ ['\x7d']

/-! ### Sizes -/

theorem utf8Len_escapeCode (c : Char) (ascii : c.toNat < 256) : utf8Len (escapeCode c) = 6 := by
  have digit : ∀ n < 16, (hexDigit n).utf8Size = 1 := by decide
  have high := digit (c.toNat / 16) (by omega)
  have low := digit (c.toNat % 16) (by omega)
  simp only [escapeCode, String.utf8Len_cons, String.utf8Len_nil, high, low]
  rfl

/-- No character shrinks, and none grows more than sixfold. -/
theorem utf8Len_escape (c : Char) :
    c.utf8Size ≤ utf8Len (escape c) ∧ utf8Len (escape c) ≤ 6 * c.utf8Size := by
  unfold escape
  split
  case h_10 =>
    split
    next special =>
      -- the escaped characters are all ASCII
      have ascii : c.val ≤ 127 := by
        rcases special with control | rfl | rfl | rfl
        · exact UInt32.le_of_lt (UInt32.lt_trans (Char.lt_def.mp control) (by decide))
        all_goals decide
      have bound : c.toNat < 256 := by
        have := UInt32.le_iff_toNat_le.mp ascii
        exact lt_of_le_of_lt this (by decide)
      rw [utf8Len_escapeCode c bound, Char.utf8Size_eq_one_iff.mpr ascii]
      decide
    · have positive := c.utf8Size_pos
      simp only [String.utf8Len_cons, String.utf8Len_nil]
      omega
  all_goals decide

theorem utf8Len_escaped (cs : List Char) :
    utf8Len cs ≤ utf8Len (cs.flatMap escape) ∧ utf8Len (cs.flatMap escape) ≤ 6 * utf8Len cs := by
  induction cs with
  | nil => simp
  | cons c cs ih =>
    have here := utf8Len_escape c
    simp only [List.flatMap_cons, String.utf8Len_append, String.utf8Len_cons]
    omega

theorem le_utf8Len_string (s : String) : s.utf8ByteSize + 2 ≤ utf8Len (string s) := by
  have inner := (utf8Len_escaped s.toList).1
  have quotes : '"'.utf8Size = 1 := rfl
  simp only [string, List.cons_append, String.utf8Len_cons, String.utf8Len_append,
    String.utf8Len_nil, ← String.utf8Len_toList, quotes]
  omega

theorem utf8Len_string_le (s : String) : utf8Len (string s) ≤ 6 * s.utf8ByteSize + 2 := by
  have inner := (utf8Len_escaped s.toList).2
  have quotes : '"'.utf8Size = 1 := rfl
  simp only [string, List.cons_append, String.utf8Len_cons, String.utf8Len_append,
    String.utf8Len_nil, ← String.utf8Len_toList, quotes]
  omega

/-- The items and a comma between any two of them. -/
theorem utf8Len_separated (items : List (List Char)) :
    utf8Len (separated items) = (items.map utf8Len).sum + (items.length - 1) := by
  have comma : ','.utf8Size = 1 := rfl
  induction items with
  | nil => rfl
  | cons item rest ih =>
    cases rest with
    | nil => simp [separated]
    | cons next more =>
      simp only [separated, String.utf8Len_append, String.utf8Len_cons, ih, comma, List.map_cons,
        List.sum_cons, List.length_cons]
      omega

theorem utf8Len_array (items : List (List Char)) :
    utf8Len (array items) = (items.map utf8Len).sum + (items.length - 1) + 2 := by
  have brackets : '['.utf8Size = 1 ∧ ']'.utf8Size = 1 := ⟨rfl, rfl⟩
  simp only [array, List.cons_append, String.utf8Len_cons, String.utf8Len_append,
    String.utf8Len_nil, utf8Len_separated, brackets]

/-- The size of an object is that of its entries, in whatever order they are given. -/
theorem utf8Len_object (fields : List (String × List Char)) :
    utf8Len (object fields) =
      (fields.map fun field => utf8Len (string field.1) + utf8Len field.2 + 1).sum +
        (fields.length - 1) + 2 := by
  have braces : '\x7b'.utf8Size = 1 ∧ '\x7d'.utf8Size = 1 := ⟨rfl, rfl⟩
  have colon : ':'.utf8Size = 1 := rfl
  have sorted := ((List.perm_insertionSort byKey fields).map fun field =>
    utf8Len (string field.1) + utf8Len field.2 + 1).sum_nat
  have entries : utf8Len ∘ (fun field : String × List Char => string field.1 ++ ':' :: field.2) =
      fun field => utf8Len (string field.1) + utf8Len field.2 + 1 := by
    funext field
    simp only [Function.comp, String.utf8Len_append, String.utf8Len_cons, colon]
    omega
  simp only [object, List.cons_append, String.utf8Len_cons, String.utf8Len_append,
    String.utf8Len_nil, utf8Len_separated, List.map_map, entries, List.length_map, braces,
    List.length_insertionSort, sorted]

example : String.ofList (object [("b", number 1), ("a", array [string "<", string "\n"])]) =
    "\x7b\"a\":[\"\\u003c\",\"\\n\"],\"b\":1\x7d" := by decide

end AcemcpRelay.Wire
