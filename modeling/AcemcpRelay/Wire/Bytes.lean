import Mathlib.Computability.RegularExpressions
import Mathlib.Data.List.Basic

/-!
# Byte strings

Go's functions on strings at a one-byte separator, over lists of any type, and
the character classes of a regular expression.
-/
namespace AcemcpRelay.Wire

/-- Byte strings. -/
abbrev Bytes := List UInt8

/-- The bytes of an ASCII text. -/
def ascii (s : String) : Bytes := s.toList.map Char.toUInt8

variable {α : Type} [DecidableEq α]

/-- `strings.Cut`: what stands before and after the first separator. -/
def cut (sep : α) : List α → List α × List α
  | [] => ([], [])
  | a :: rest => if a = sep then ([], rest) else (a :: (cut sep rest).1, (cut sep rest).2)

/-- `strings.SplitN`: at most `n` parts, the last one uncut. -/
def splitN (sep : α) : Nat → List α → List (List α)
  | 0, _ => []
  | 1, s => [s]
  | n + 2, s =>
    if sep ∈ s then (cut sep s).1 :: splitN sep (n + 1) (cut sep s).2 else [s]

theorem cut_append {sep : α} {part : List α} (free : sep ∉ part) (rest : List α) :
    cut sep (part ++ sep :: rest) = (part, rest) := by
  induction part with
  | nil => simp [cut]
  | cons a part ih =>
    obtain ⟨different, later⟩ : sep ≠ a ∧ sep ∉ part := by simpa using free
    simp only [List.cons_append, cut, if_neg (Ne.symm different), ih later]

theorem cut_of_free {sep : α} {s : List α} (free : sep ∉ s) : cut sep s = (s, []) := by
  induction s with
  | nil => rfl
  | cons a s ih =>
    obtain ⟨different, later⟩ : sep ≠ a ∧ sep ∉ s := by simpa using free
    simp only [cut, if_neg (Ne.symm different), ih later]

theorem splitN_append {sep : α} {part : List α} (free : sep ∉ part) (n : Nat) (rest : List α) :
    splitN sep (n + 2) (part ++ sep :: rest) = part :: splitN sep (n + 1) rest := by
  simp only [splitN, List.mem_append, List.mem_cons, true_or, or_true, if_true,
    cut_append free rest]

theorem splitN_of_free {sep : α} {part : List α} (free : sep ∉ part) (n : Nat) :
    splitN sep (n + 1) part = [part] := by
  cases n with
  | zero => rfl
  | succ n => simp only [splitN, free, if_false]

/-- The parts of a text have no separator, and their characters are those of the text. -/
theorem part_of_mem_splitOn {sep : α} {s part : List α} (mem : part ∈ s.splitOn sep) :
    sep ∉ part ∧ part ⊆ s := by
  induction s generalizing part with
  | nil =>
    obtain rfl : part = [] := by simpa using mem
    simp
  | cons a s ih =>
    rw [List.splitOn_cons_eq_if_modifyHead] at mem
    split at mem
    · rcases List.mem_cons.mp mem with rfl | later
      · simp
      · exact ⟨(ih later).1, List.subset_cons_of_subset a (ih later).2⟩
    next other =>
      cases parts : s.splitOn sep with
      | nil => exact absurd parts (List.splitOn_ne_nil sep s)
      | cons first rest =>
        have different : sep ≠ a := fun same => other (by simp [same])
        rw [parts, List.modifyHead_cons] at mem
        rcases List.mem_cons.mp mem with rfl | later
        · have known := ih (parts ▸ List.mem_cons_self)
          exact ⟨by simp [different, known.1], List.cons_subset_cons a known.2⟩
        · have known := ih (parts ▸ List.mem_cons_of_mem first later)
          exact ⟨known.1, List.subset_cons_of_subset a known.2⟩

/-- Parts that each end with the separator are split off one by one. -/
theorem splitOn_flatMap_append {sep : α} (parts : List (List α)) (rest : List α)
    (free : ∀ part ∈ parts, sep ∉ part) :
    (parts.flatMap (· ++ [sep]) ++ rest).splitOn sep = parts ++ rest.splitOn sep := by
  induction parts with
  | nil => rfl
  | cons part parts ih =>
    have later := ih fun other mem => free other (List.mem_cons_of_mem part mem)
    have shape : (part :: parts).flatMap (· ++ [sep]) ++ rest =
        part ++ sep :: (parts.flatMap (· ++ [sep]) ++ rest) := by simp
    rw [shape, List.splitOn_append_cons_self_of_not_mem (free part List.mem_cons_self), later]
    rfl

omit [DecidableEq α] in
/-- Joining parts by a separator is ending each with it and taking the last one away. -/
theorem dropLast_flatMap_append (sep : α) {parts : List (List α)} (some : parts ≠ []) :
    (parts.flatMap (· ++ [sep])).dropLast = [sep].intercalate parts := by
  induction parts with
  | nil => exact absurd rfl some
  | cons first rest ih =>
    cases rest with
    | nil => simp
    | cons second rest =>
      have later := ih (List.cons_ne_nil second rest)
      have filled : (second :: rest).flatMap (· ++ [sep]) ≠ [] := by simp
      rw [List.flatMap_cons, List.dropLast_append_of_ne_nil filled, later]
      simp [List.intercalate]

/-- `strings.ReplaceAll` of a text that is not empty, with `skip` characters of a match still
to pass. -/
def replaceAllFrom (old new : List α) : Nat → List α → List α
  | _, [] => []
  | skip + 1, _ :: rest => replaceAllFrom old new skip rest
  | 0, a :: rest =>
    if old.isPrefixOf (a :: rest) then new ++ replaceAllFrom old new (old.length - 1) rest
    else a :: replaceAllFrom old new 0 rest

def replaceAll (old new s : List α) : List α := replaceAllFrom old new 0 s

theorem replaceAllFrom_keeps {old : List α} (new : List α) {a : α} {rest : List α}
    (other : ¬ old <+: a :: rest) :
    replaceAllFrom old new 0 (a :: rest) = a :: replaceAllFrom old new 0 rest := by
  have differs : old.isPrefixOf (a :: rest) = false := by
    rw [← Bool.not_eq_true, List.isPrefixOf_iff_prefix]
    exact other
  simp only [replaceAllFrom, differs, Bool.false_eq_true, if_false]

/-! ## Character classes -/

/-- `[...]`: one of the characters listed. -/
def oneOf (chars : List α) : RegularExpression α :=
  (chars.map RegularExpression.char).foldr (· + ·) 0

/-- `r+`: one or more matches. -/
def oneOrMore (r : RegularExpression α) : RegularExpression α := r * r.star

omit [DecidableEq α] in
theorem mem_oneOf (chars : List α) (s : List α) :
    s ∈ (oneOf chars).matches' ↔ ∃ c ∈ chars, s = [c] := by
  induction chars with
  | nil => simp [oneOf]
  | cons c chars ih =>
    have either : s ∈ (oneOf (c :: chars)).matches' ↔ s = [c] ∨ s ∈ (oneOf chars).matches' :=
      Iff.rfl
    simp [either, ih]

omit [DecidableEq α] in
theorem mem_star_oneOf (chars : List α) (s : List α) :
    s ∈ (oneOf chars).star.matches' ↔ ∀ c ∈ s, c ∈ chars := by
  rw [RegularExpression.matches'_star, Language.mem_kstar]
  constructor
  · rintro ⟨words, rfl, each⟩ c mem
    obtain ⟨word, listed, inside⟩ := List.mem_flatten.mp mem
    obtain ⟨d, allowed, rfl⟩ := (mem_oneOf chars word).mp (each word listed)
    obtain rfl := List.mem_singleton.mp inside
    exact allowed
  · intro allowed
    refine ⟨s.map ([·]), by simp [← List.flatMap_def], ?_⟩
    intro word listed
    obtain ⟨c, mem, rfl⟩ := List.mem_map.mp listed
    exact (mem_oneOf chars _).mpr ⟨c, allowed c mem, rfl⟩

omit [DecidableEq α] in
/-- A run of a class is a text of its characters that is not empty. -/
theorem mem_oneOrMore_oneOf (chars : List α) (s : List α) :
    s ∈ (oneOrMore (oneOf chars)).matches' ↔ s ≠ [] ∧ ∀ c ∈ s, c ∈ chars := by
  rw [oneOrMore, RegularExpression.matches'_mul, Language.mem_mul]
  constructor
  · rintro ⟨first, one, rest, more, rfl⟩
    obtain ⟨c, allowed, rfl⟩ := (mem_oneOf chars first).mp one
    have later := (mem_star_oneOf chars rest).mp more
    refine ⟨by simp, ?_⟩
    simpa [allowed] using later
  · rintro ⟨some, allowed⟩
    cases s with
    | nil => exact absurd rfl some
    | cons c rest =>
      refine ⟨[c], (mem_oneOf chars _).mpr ⟨c, allowed c List.mem_cons_self, rfl⟩, rest, ?_, rfl⟩
      exact (mem_star_oneOf chars rest).mpr fun d mem => allowed d (List.mem_cons_of_mem c mem)

omit [DecidableEq α] in
theorem mem_char_mul (c : α) (r : RegularExpression α) (s : List α) :
    s ∈ (RegularExpression.char c * r).matches' ↔ ∃ rest ∈ r.matches', s = c :: rest := by
  rw [RegularExpression.matches'_mul, Language.mem_mul]
  constructor
  · rintro ⟨first, same, rest, matched, rfl⟩
    obtain rfl : first = [c] := same
    exact ⟨rest, matched, rfl⟩
  · rintro ⟨rest, matched, rfl⟩
    exact ⟨[c], rfl, rest, matched, rfl⟩

end AcemcpRelay.Wire
