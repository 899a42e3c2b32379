import AcemcpRelay.Wire.EventStream
import Mathlib.Data.Bool.AllAny

/-!
# Quoted strings

Double-quoted literals of Go inside a longer text: where one ends, and what is
known of `strconv.Quote` and `strconv.Unquote`. Quoting keeps printable
characters, so the laws are all a proof may use; `byteQuoting` is a pair of
functions that has them.
-/
namespace AcemcpRelay.Wire

def dquote : UInt8 := 34

/-- The inside of a literal: no quote but after a backslash, which always takes a byte with it. -/
def literalBody : Bytes → Bool
  | [] => true
  | 92 :: _ :: rest => literalBody rest
  | 92 :: [] => false
  | b :: rest => b != dquote && literalBody rest

/-- The inside of a literal whose opening quote has been read, and what follows the closing
one. -/
def literalRest : Bytes → Option (Bytes × Bytes)
  | [] => none
  | 34 :: rest => some ([], rest)
  | 92 :: b :: rest => (literalRest rest).map fun (body, tail) => (92 :: b :: body, tail)
  | 92 :: [] => none
  | b :: rest => (literalRest rest).map fun (body, tail) => (b :: body, tail)

theorem literalRest_append (body rest : Bytes) (closed : literalBody body = true) :
    literalRest (body ++ dquote :: rest) = some (body, rest) := by
  fun_induction literalBody body with
  | case1 => rfl
  | case2 b body ih => simp [literalRest, ih closed]
  | case3 => exact absurd closed (by decide)
  | case4 b body notEscape notLast ih =>
    obtain ⟨notQuote, inner⟩ : b ≠ dquote ∧ literalBody body = true := by simpa using closed
    have escape : b ≠ 92 := by
      intro same
      cases body with
      | nil => exact notLast same rfl
      | cons c body => exact notEscape c body same rfl
    have reads : literalRest (b :: (body ++ dquote :: rest)) =
        (literalRest (body ++ dquote :: rest)).map fun (body, tail) => (b :: body, tail) := by
      rw [literalRest]
      · exact notQuote
      · exact fun _ _ same => absurd same escape
      · exact fun same => absurd same escape
    rw [List.cons_append, reads, ih inner]
    rfl

/-- What the documentation says of `strconv.Quote` and `strconv.Unquote`. -/
structure Quoting where
  quote : Bytes → Bytes
  unquote : Bytes → Option Bytes
  literal : ∀ text, ∃ body, quote text = dquote :: (body ++ [dquote]) ∧ literalBody body = true
  oneLine : ∀ text, OneLine (quote text)
  inverse : ∀ text, unquote (quote text) = some text

/-! ## Escaping bytes -/

/-- The bytes with an escape of their own, and the byte after the backslash. -/
def shortEscapes : List (UInt8 × UInt8) :=
  [(34, 34), (92, 92), (7, 97), (8, 98), (12, 102), (10, 110), (13, 114), (9, 116), (11, 118)]

def hexDigits : Bytes := ascii "0123456789abcdef"

/-- A control byte becomes `\xNN`; a printable character and the bytes of one stay. -/
def escapeByte (b : UInt8) : Bytes :=
  match shortEscapes.find? (·.1 == b) with
  | some (_, letter) => [92, letter]
  | none =>
    if b < 32 ∨ b = 127 then
      [92, 120, hexDigits.getD (b.toNat / 16) 0, hexDigits.getD (b.toNat % 16) 0]
    else [b]

def hexValue (digit : UInt8) : Option Nat := hexDigits.findIdx? (· == digit)

/-- The byte an escape stands for, and what follows the escape. -/
def unescapeByte : Bytes → Option (UInt8 × Bytes)
  | 92 :: 120 :: high :: low :: rest => do
    let h ← hexValue high
    let l ← hexValue low
    return (UInt8.ofNat (16 * h + l), rest)
  | 92 :: letter :: rest => (shortEscapes.find? (·.2 == letter)).map fun pair => (pair.1, rest)
  | b :: rest => if b = dquote ∨ b = lf ∨ b = 92 then none else some (b, rest)
  | [] => none

/-- An escape is one of three shapes: a letter, two hex digits, or the byte itself. -/
theorem escapeByte_cases (b : UInt8) :
    (∃ pair ∈ shortEscapes, pair.1 = b ∧ escapeByte b = [92, pair.2]) ∨
    (∃ high low, escapeByte b = [92, 120, high, low] ∧
      high ∈ hexDigits ∧ low ∈ hexDigits ∧
      ∀ rest, unescapeByte (92 :: 120 :: high :: low :: rest) = some (b, rest)) ∨
    (escapeByte b = [b] ∧ b ≠ dquote ∧ b ≠ 92 ∧ lf ≠ b ∧ cr ≠ b) := by
  cases found : shortEscapes.find? (·.1 == b) with
  | some pair =>
    left
    have same : pair.1 = b := by simpa using List.find?_some found
    exact ⟨pair, List.mem_of_find?_eq_some found, same, by simp [escapeByte, found]⟩
  | none =>
    right
    by_cases control : b < 32 ∨ b = 127
    · left
      have digit : ∀ n < 16, hexDigits.getD n 0 ∈ hexDigits ∧
          hexValue (hexDigits.getD n 0) = some n := by decide +kernel
      have high := digit (b.toNat / 16) (by have := b.toNat_lt; omega)
      have low := digit (b.toNat % 16) (by omega)
      refine ⟨_, _, by simp [escapeByte, found, control], high.1, low.1, fun rest => ?_⟩
      simp only [unescapeByte, high.2, low.2, Option.bind_eq_bind, Option.bind_some,
        Nat.div_add_mod, UInt8.ofNat_toNat]
      rfl
    · right
      have others : ∀ pair ∈ shortEscapes, pair.1 ≠ b := by simpa using found
      exact ⟨by simp [escapeByte, found, control], (others (34, 34) (by decide)).symm,
        (others (92, 92) (by decide)).symm, others (10, 110) (by decide),
        others (13, 114) (by decide)⟩

theorem unescapeByte_escapeByte (b : UInt8) (rest : Bytes) :
    unescapeByte (escapeByte b ++ rest) = some (b, rest) := by
  rcases escapeByte_cases b with ⟨pair, listed, rfl, shape⟩ | ⟨high, low, shape, -, -, value⟩ |
    ⟨shape, notQuote, notEscape, notLf, -⟩
  · have letters : ∀ pair ∈ shortEscapes, pair.2 ≠ 120 ∧
        shortEscapes.find? (·.2 == pair.2) = some pair :=
      List.all_iff_forall_prop.mp (by decide +kernel)
    obtain ⟨notHex, found⟩ := letters pair listed
    have reads : unescapeByte (92 :: pair.2 :: rest) =
        (shortEscapes.find? (·.2 == pair.2)).map fun found => (found.1, rest) := by
      rw [unescapeByte]
      exact fun _ _ _ same => absurd same notHex
    rw [shape, List.cons_append, List.singleton_append, reads, found]
    rfl
  · rw [shape]
    exact value rest
  · have reads : unescapeByte (b :: rest) =
        if b = dquote ∨ b = lf ∨ b = 92 then none else some (b, rest) := by
      rw [unescapeByte]
      · exact fun _ _ _ same => absurd same notEscape
      · exact fun _ _ same => absurd same notEscape
    rw [shape, List.singleton_append, reads, if_neg]
    simp [notQuote, notEscape, Ne.symm notLf]

/-- The text between the quotes, with `fuel` bytes at most. -/
def unescape : Nat → Bytes → Option Bytes
  | _, [] => some []
  | 0, _ :: _ => none
  | fuel + 1, b :: rest => do
    let (first, tail) ← unescapeByte (b :: rest)
    let more ← unescape fuel tail
    return first :: more

theorem escapeByte_ne_nil (b : UInt8) : escapeByte b ≠ [] := by
  rcases escapeByte_cases b with ⟨_, _, _, shape⟩ | ⟨_, _, shape, _⟩ | ⟨shape, _⟩ <;> simp [shape]

theorem unescape_flatMap (text : Bytes) (fuel : Nat) (enough : text.length ≤ fuel) :
    unescape fuel (text.flatMap escapeByte) = some text := by
  induction text generalizing fuel with
  | nil => simp [unescape]
  | cons b text ih =>
    obtain ⟨n, rfl⟩ : ∃ n, fuel = n + 1 := Nat.exists_eq_succ_of_ne_zero (by
      simp only [List.length_cons] at enough
      omega)
    obtain ⟨first, rest, shape⟩ := List.exists_cons_of_ne_nil
      (List.append_ne_nil_of_left_ne_nil (escapeByte_ne_nil b) (text.flatMap escapeByte))
    have head := unescapeByte_escapeByte b (text.flatMap escapeByte)
    rw [shape] at head
    rw [List.flatMap_cons, shape, unescape, head]
    simp [ih n (by simpa using enough)]

theorem length_le_flatMap_escapeByte (text : Bytes) :
    text.length ≤ (text.flatMap escapeByte).length := by
  induction text with
  | nil => rfl
  | cons b text ih =>
    have some := List.length_pos_iff.mpr (escapeByte_ne_nil b)
    simp only [List.flatMap_cons, List.length_append, List.length_cons]
    omega

theorem literalBody_escapeByte (b : UInt8) (rest : Bytes) :
    literalBody (escapeByte b ++ rest) = literalBody rest := by
  rcases escapeByte_cases b with ⟨pair, -, -, shape⟩ | ⟨high, low, shape, isHigh, isLow, -⟩ |
    ⟨shape, notQuote, notEscape, -⟩
  · rw [shape]
    rfl
  · have digits : ∀ digit ∈ hexDigits, digit ≠ 92 ∧ digit ≠ dquote :=
      List.all_iff_forall_prop.mp (by decide +kernel)
    obtain ⟨highPlain, highOther⟩ := digits high isHigh
    obtain ⟨lowPlain, lowOther⟩ := digits low isLow
    rw [shape]
    simp [literalBody, highPlain, lowPlain, bne_iff_ne.mpr highOther, bne_iff_ne.mpr lowOther]
  · rw [shape, List.singleton_append, literalBody]
    · simp [notQuote]
    · exact fun _ _ same => absurd same notEscape
    · exact fun same => absurd same notEscape

theorem literalBody_flatMap (text : Bytes) : literalBody (text.flatMap escapeByte) = true := by
  induction text with
  | nil => rfl
  | cons b text ih => rw [List.flatMap_cons, literalBody_escapeByte, ih]

theorem oneLine_escapeByte (b : UInt8) : OneLine (escapeByte b) := by
  rcases escapeByte_cases b with ⟨pair, listed, -, shape⟩ | ⟨high, low, shape, isHigh, isLow, -⟩ |
    ⟨shape, -, -, notLf, notCr⟩
  · have letters : ∀ pair ∈ shortEscapes, OneLine [92, pair.2] :=
      List.all_iff_forall_prop.mp (by decide +kernel)
    rw [shape]
    exact letters pair listed
  · have digits : ∀ digit ∈ hexDigits, lf ≠ digit ∧ cr ≠ digit :=
      List.all_iff_forall_prop.mp (by decide +kernel)
    rw [shape]
    have marks : OneLine [92, 120] := by decide
    exact OneLine.append marks (by simp [OneLine, digits high isHigh, digits low isLow])
  · rw [shape]
    simp [OneLine, notLf, notCr]

/-- Quoting byte by byte. On valid UTF-8 whose characters beyond ASCII are printable these are
the results of `strconv.Quote`. -/
def byteQuoting : Quoting where
  quote text := dquote :: (text.flatMap escapeByte ++ [dquote])
  unquote literal :=
    if literal.head? = some dquote ∧ literal.getLast? = some dquote then
      unescape literal.length (literal.tail.dropLast)
    else none
  literal text := ⟨text.flatMap escapeByte, rfl, literalBody_flatMap text⟩
  oneLine text := by
    have inside : OneLine (text.flatMap escapeByte) := by
      simp only [OneLine, List.mem_flatMap, not_exists, not_and]
      exact ⟨fun b _ => (oneLine_escapeByte b).1, fun b _ => (oneLine_escapeByte b).2⟩
    have mark : OneLine [dquote] := by decide
    exact mark.append (inside.append mark)
  inverse text := by
    have ends : (dquote :: (text.flatMap escapeByte ++ [dquote])).head? = some dquote ∧
        (dquote :: (text.flatMap escapeByte ++ [dquote])).getLast? = some dquote := by
      rw [← List.cons_append, List.getLast?_concat]
      exact ⟨rfl, rfl⟩
    have bound := length_le_flatMap_escapeByte text
    rw [if_pos ends, List.tail_cons, List.dropLast_concat]
    exact unescape_flatMap text _ (by simp only [List.length_cons, List.length_append]; omega)

end AcemcpRelay.Wire
