import Mathlib.Data.Bool.AllAny
import Mathlib.Data.List.GetD
import Mathlib.Data.List.Nodup
import Mathlib.Data.UInt

/-!
# Base64

Go's `encoding/base64`: three bytes are written as four characters. The last group may be
shorter; it is filled up with padding characters or not. A decoder skips line
breaks. A strict one refuses a last group whose unused bits are not zero.
-/
namespace AcemcpRelay.Wire

/-- The sixty-four characters of an encoding. -/
structure Alphabet where
  chars : List Char
  size : chars.length = 64
  distinct : chars.Nodup
  plain : ∀ c ∈ chars, c ≠ '=' ∧ c ≠ '\n' ∧ c ≠ '\r'

/-- The alphabet of `StdEncoding`. -/
def stdAlphabet : Alphabet where
  chars := "ABCDEFGHIJKLMNOPQRSTUVWXYZabcdefghijklmnopqrstuvwxyz0123456789+/".toList
  size := by decide +kernel
  distinct := by decide +kernel
  plain := List.all_iff_forall_prop.mp (by decide +kernel)

/-- The alphabet of `URLEncoding`. -/
def urlAlphabet : Alphabet where
  chars := "ABCDEFGHIJKLMNOPQRSTUVWXYZabcdefghijklmnopqrstuvwxyz0123456789-_".toList
  size := by decide +kernel
  distinct := by decide +kernel
  plain := List.all_iff_forall_prop.mp (by decide +kernel)

namespace Alphabet

variable (alphabet : Alphabet)

def digit (n : Nat) : Char := alphabet.chars.getD n '='

def value (c : Char) : Option Nat :=
  if c ∈ alphabet.chars then some (alphabet.chars.idxOf c) else none

theorem digit_mem {n : Nat} (small : n < 64) : alphabet.digit n ∈ alphabet.chars := by
  rw [← alphabet.size] at small
  rw [digit, List.getD_eq_getElem _ _ small]
  exact List.getElem_mem small

theorem value_digit {n : Nat} (small : n < 64) : alphabet.value (alphabet.digit n) = some n := by
  rw [value, if_pos (alphabet.digit_mem small)]
  rw [← alphabet.size] at small
  rw [digit, List.getD_eq_getElem _ _ small, alphabet.distinct.idxOf_getElem]

/-! ### Encoding -/

variable (padded : Bool)

/-- `EncodeToString`. -/
def encode : List UInt8 → List Char
  | [] => []
  | [a] =>
    [alphabet.digit (a.toNat / 4), alphabet.digit (a.toNat % 4 * 16)] ++
      if padded then ['=', '='] else []
  | [a, b] =>
    [alphabet.digit (a.toNat / 4), alphabet.digit (a.toNat % 4 * 16 + b.toNat / 16),
        alphabet.digit (b.toNat % 16 * 4)] ++
      if padded then ['='] else []
  | a :: b :: c :: rest =>
    alphabet.digit (a.toNat / 4) :: alphabet.digit (a.toNat % 4 * 16 + b.toNat / 16) ::
      alphabet.digit (b.toNat % 16 * 4 + c.toNat / 64) :: alphabet.digit (c.toNat % 64) ::
      encode rest

/-- `EncodedLen`, with padding. -/
def encodedLen (n : Nat) : Nat := (n + 2) / 3 * 4

/-! ### Decoding -/

variable (strict : Bool)

/-- A last group of two characters. -/
def decodeOne (a b : Char) : Option (List UInt8) := do
  let first ← alphabet.value a
  let second ← alphabet.value b
  if strict && second % 16 ≠ 0 then none
  else return [UInt8.ofNat (first * 4 + second / 16)]

/-- A last group of three characters. -/
def decodeTwo (a b c : Char) : Option (List UInt8) := do
  let first ← alphabet.value a
  let second ← alphabet.value b
  let third ← alphabet.value c
  if strict && third % 4 ≠ 0 then none
  else return [UInt8.ofNat (first * 4 + second / 16), UInt8.ofNat (second % 16 * 16 + third / 4)]

/-- A full group. -/
def decodeThree (a b c d : Char) : Option (List UInt8) := do
  let first ← alphabet.value a
  let second ← alphabet.value b
  let third ← alphabet.value c
  let fourth ← alphabet.value d
  return [UInt8.ofNat (first * 4 + second / 16), UInt8.ofNat (second % 16 * 16 + third / 4),
    UInt8.ofNat (third % 4 * 64 + fourth)]

def decodeGroups : List Char → Option (List UInt8)
  | [] => some []
  | [_] => none
  | [a, b] => if padded then none else alphabet.decodeOne strict a b
  | [a, b, c] => if padded then none else alphabet.decodeTwo strict a b c
  | a :: b :: c :: d :: rest =>
    if padded && d == '=' then
      if rest ≠ [] then none
      else if c = '=' then alphabet.decodeOne strict a b else alphabet.decodeTwo strict a b c
    else do
      let bytes ← alphabet.decodeThree a b c d
      let more ← decodeGroups rest
      return bytes ++ more

/-- `DecodeString`. -/
def decode (text : List Char) : Option (List UInt8) :=
  alphabet.decodeGroups padded strict (text.filter fun c => c != '\n' && c != '\r')

/-! ### The round trip -/

theorem digit_ne_pad {n : Nat} (small : n < 64) : alphabet.digit n ≠ '=' :=
  (alphabet.plain _ (alphabet.digit_mem small)).1

theorem decodeOne_digits {n m : Nat} (first : n < 64) (second : m < 64) (clean : m % 16 = 0) :
    alphabet.decodeOne strict (alphabet.digit n) (alphabet.digit m) =
      some [UInt8.ofNat (n * 4 + m / 16)] := by
  simp [decodeOne, alphabet.value_digit first, alphabet.value_digit second, clean]

theorem decodeTwo_digits {n m k : Nat} (first : n < 64) (second : m < 64) (third : k < 64)
    (clean : k % 4 = 0) :
    alphabet.decodeTwo strict (alphabet.digit n) (alphabet.digit m) (alphabet.digit k) =
      some [UInt8.ofNat (n * 4 + m / 16), UInt8.ofNat (m % 16 * 16 + k / 4)] := by
  simp [decodeTwo, alphabet.value_digit first, alphabet.value_digit second,
    alphabet.value_digit third, clean]

theorem decodeThree_digits {n m k l : Nat} (first : n < 64) (second : m < 64) (third : k < 64)
    (fourth : l < 64) :
    alphabet.decodeThree (alphabet.digit n) (alphabet.digit m) (alphabet.digit k)
        (alphabet.digit l) =
      some [UInt8.ofNat (n * 4 + m / 16), UInt8.ofNat (m % 16 * 16 + k / 4),
        UInt8.ofNat (k % 4 * 64 + l)] := by
  simp [decodeThree, alphabet.value_digit first, alphabet.value_digit second,
    alphabet.value_digit third, alphabet.value_digit fourth]

theorem ofNat_of_eq {n : Nat} (byte : UInt8) (same : n = byte.toNat) : UInt8.ofNat n = byte := by
  rw [same, UInt8.ofNat_toNat]

theorem decodeGroups_encode (bytes : List UInt8) :
    alphabet.decodeGroups padded strict (alphabet.encode padded bytes) = some bytes := by
  induction bytes using encode.induct with
  | case1 => rfl
  | case2 a =>
    have bound := a.toNat_lt
    have group := alphabet.decodeOne_digits strict (n := a.toNat / 4) (m := a.toNat % 4 * 16)
      (by omega) (by omega) (by omega)
    rw [ofNat_of_eq a (by omega)] at group
    cases padded with
    | true => simp [encode, decodeGroups, group]
    | false => simp [encode, decodeGroups, group]
  | case3 a b =>
    have first := a.toNat_lt
    have second := b.toNat_lt
    have group := alphabet.decodeTwo_digits strict (n := a.toNat / 4)
      (m := a.toNat % 4 * 16 + b.toNat / 16) (k := b.toNat % 16 * 4)
      (by omega) (by omega) (by omega) (by omega)
    rw [ofNat_of_eq a (by omega), ofNat_of_eq b (by omega)] at group
    cases padded with
    | true =>
      have plain := alphabet.digit_ne_pad (n := b.toNat % 16 * 4) (by omega)
      simp [encode, decodeGroups, group, plain]
    | false => simp [encode, decodeGroups, group]
  | case4 a b c rest ih =>
    have first := a.toNat_lt
    have second := b.toNat_lt
    have third := c.toNat_lt
    have group := alphabet.decodeThree_digits (n := a.toNat / 4)
      (m := a.toNat % 4 * 16 + b.toNat / 16) (k := b.toNat % 16 * 4 + c.toNat / 64)
      (l := c.toNat % 64) (by omega) (by omega) (by omega) (by omega)
    rw [ofNat_of_eq a (by omega), ofNat_of_eq b (by omega),
      ofNat_of_eq c (by omega)] at group
    have plain := alphabet.digit_ne_pad (n := c.toNat % 64) (by omega)
    simp [encode, decodeGroups, group, plain, ih]

theorem mem_encode {bytes : List UInt8} {c : Char} (member : c ∈ alphabet.encode padded bytes) :
    c ∈ alphabet.chars ∨ c = '=' := by
  have pad (n : Nat) : alphabet.digit n ∈ alphabet.chars ∨ alphabet.digit n = '=' := by
    by_cases small : n < 64
    · exact .inl (alphabet.digit_mem small)
    · right
      rw [digit, List.getD_eq_default _ _ (by rw [alphabet.size]; omega)]
  induction bytes using encode.induct with
  | case1 => simp [encode] at member
  | case2 a =>
    cases padded with
    | true => grind [encode]
    | false => grind [encode]
  | case3 a b =>
    cases padded with
    | true => grind [encode]
    | false => grind [encode]
  | case4 a b d rest ih => grind [encode]

/-- What was written is read, by a strict decoder too. -/
theorem decode_encode (bytes : List UInt8) :
    alphabet.decode padded strict (alphabet.encode padded bytes) = some bytes := by
  have unbroken : (alphabet.encode padded bytes).filter (fun c => c != '\n' && c != '\r') =
      alphabet.encode padded bytes := by
    refine List.filter_eq_self.mpr fun c member => ?_
    rcases alphabet.mem_encode padded member with listed | rfl
    · simp [alphabet.plain c listed]
    · decide
  rw [decode, unbroken, decodeGroups_encode]

end Alphabet

end AcemcpRelay.Wire
