import Mathlib.Algebra.Ring.Int.Defs
import Mathlib.Algebra.Ring.Nat
import Mathlib.Data.List.DropRight
import Mathlib.Data.List.Infix
import Mathlib.Data.String.Basic

/-!
# Text

The string functions of Go and PostgreSQL that the index code uses, over the
characters of a string. Go strings are bytes, but every string here has come
through JSON or a `TEXT` column and is valid UTF-8.
-/
namespace AcemcpRelay

/-- Go's `unicode.IsSpace`. -/
def isSpace (c : Char) : Bool :=
  c ∈ ['\t', '\n', '\x0b', '\x0c', '\r', ' ', '\u0085', '\u00a0', '\u1680', '\u2028', '\u2029',
    '\u202f', '\u205f', '\u3000'] || ('\u2000' ≤ c && c ≤ '\u200a')

/-- The white space of ASCII, as C has it in every locale. -/
def asciiSpace (c : Char) : Bool := c ∈ ['\t', '\n', '\x0b', '\x0c', '\r', ' ']

/-- What `\s` stands for in a regular expression of PostgreSQL: the class `space` in the locale
of the database. Locales differ in it outside ASCII, and none needs to agree with Go. -/
structure SpaceClass where
  isSpace : Char → Bool
  ascii : ∀ c, c.toNat < 128 → isSpace c = asciiSpace c

/-- The locale `C`. -/
def SpaceClass.posix : SpaceClass := ⟨asciiSpace, fun _ _ => rfl⟩

/-- The characters without a leading or trailing run of `drop`. -/
def trimChars (drop : Char → Bool) (cs : List Char) : List Char :=
  ((cs.dropWhile drop).reverse.dropWhile drop).reverse

/-- Go's `strings.TrimSpace`. -/
def trimSpace (s : String) : String := String.ofList (trimChars isSpace s.toList)

/-- PostgreSQL's `BTRIM`, which removes blanks only. -/
def btrim (s : String) : String := String.ofList (trimChars (· == ' ') s.toList)

/-- The lower case of a character, as far as `strings.Contains` of an ASCII or an
ideographic text can tell: outside ASCII only the Kelvin sign and the dotted
capital I have a lower case in ASCII, and no letter has one among ideographs. -/
def toLowerRune (c : Char) : Char :=
  if c = '\u212a' then 'k' else if c = '\u0130' then 'i' else c.toLower

/-- Go's `strings.ToLower`, to the precision of `toLowerRune`. -/
def toLower (s : String) : String := String.ofList (s.toList.map toLowerRune)

/-- Go's `strings.EqualFold` against a text of ASCII digits and letters. -/
def equalFold (s t : String) : Bool := s.toList.map Char.toLower == t.toList.map Char.toLower

/-- Go's `strings.Contains`. -/
def contains (s part : String) : Bool := s.toList.tails.any (part.toList.isPrefixOf ·)

/-- A text fits a `VARCHAR(n)` column. -/
def varchar (n : Nat) (s : String) : Bool := s.length ≤ n

/-- The characters that fit into `budget` bytes of UTF-8. -/
def takeBytes : Nat → List Char → List Char
  | _, [] => []
  | budget, c :: cs =>
    if c.utf8Size ≤ budget then c :: takeBytes (budget - c.utf8Size) cs else []

/-- `truncateUTF8`: the loop steps back from `maxBytes` to the start of a rune. -/
def truncateUTF8 (s : String) (maxBytes : Nat) : String :=
  if s.utf8ByteSize ≤ maxBytes then s else String.ofList (takeBytes maxBytes s.toList)

/-- `strings.Split(s, sep)` for a one-character separator. -/
def splitOn (sep : Char) : List Char → List (List Char)
  | [] => [[]]
  | c :: cs =>
    if c = sep then [] :: splitOn sep cs
    else match splitOn sep cs with
      | [] => [[c]]
      | part :: parts => (c :: part) :: parts

/-- The number that digits are. -/
def parseDigits (digits : List Char) : Option Nat :=
  if digits.isEmpty || !digits.all Char.isDigit then none else some (Nat.ofDigitChars 10 digits 0)

/-- `strconv.ParseInt` to base 10 and 64 bits, and `strconv.Atoi`: digits after at most one
sign. -/
def parseInt64 : List Char → Option Int
  | '-' :: digits => (parseDigits digits).bind fun n => if n ≤ 2 ^ 63 then some (-n) else none
  | '+' :: digits => (parseDigits digits).bind fun n => if n < 2 ^ 63 then some n else none
  | digits => (parseDigits digits).bind fun n => if n < 2 ^ 63 then some n else none

/-! ### Splitting -/

theorem splitOn_ne_nil (sep : Char) (cs : List Char) : splitOn sep cs ≠ [] := by
  cases cs with
  | nil => simp [splitOn]
  | cons c cs =>
    simp only [splitOn]
    split
    · simp
    · split <;> simp

theorem splitOn_append {sep : Char} {part : List Char} (free : sep ∉ part) (rest : List Char) :
    splitOn sep (part ++ sep :: rest) = part :: splitOn sep rest := by
  induction part with
  | nil => simp [splitOn]
  | cons c cs ih =>
    have different : c ≠ sep := fun same => free (same ▸ List.mem_cons_self)
    have later := ih fun member => free (List.mem_cons_of_mem _ member)
    simp only [List.cons_append, splitOn, if_neg different, later]

theorem splitOn_of_free {sep : Char} {part : List Char} (free : sep ∉ part) :
    splitOn sep part = [part] := by
  induction part with
  | nil => rfl
  | cons c cs ih =>
    have different : c ≠ sep := fun same => free (same ▸ List.mem_cons_self)
    have later := ih fun member => free (List.mem_cons_of_mem _ member)
    simp only [splitOn, if_neg different, later]

/-- Every character but the separators is in one of the parts. -/
theorem mem_splitOn {sep c : Char} {cs : List Char} (member : c ∈ cs) :
    c = sep ∨ ∃ part ∈ splitOn sep cs, c ∈ part := by
  induction cs with
  | nil => simp at member
  | cons d ds ih =>
    simp only [splitOn]
    split
    next same =>
      rcases List.mem_cons.mp member with rfl | later
      · exact .inl same
      · exact (ih later).imp_right fun ⟨part, listed, inside⟩ =>
          ⟨part, List.mem_cons_of_mem _ listed, inside⟩
    next other =>
      split
      next empty => exact absurd empty (splitOn_ne_nil sep ds)
      next part parts split =>
        rw [split] at ih
        rcases List.mem_cons.mp member with rfl | later
        · exact .inr ⟨_, List.mem_cons_self, List.mem_cons_self⟩
        · refine (ih later).imp_right fun ⟨found, listed, inside⟩ => ?_
          rcases List.mem_cons.mp listed with rfl | listed
          · exact ⟨_, List.mem_cons_self, List.mem_cons_of_mem _ inside⟩
          · exact ⟨found, List.mem_cons_of_mem _ listed, inside⟩

/-- The parts and a separator between any two of them make up the text. -/
theorem length_splitOn (sep : Char) (cs : List Char) :
    ((splitOn sep cs).map List.length).sum + (splitOn sep cs).length = cs.length + 1 := by
  induction cs with
  | nil => simp [splitOn]
  | cons d ds ih =>
    simp only [splitOn]
    split
    · simp only [List.map_cons, List.length_nil, List.sum_cons, List.length_cons]
      omega
    · split
      next empty => exact absurd empty (splitOn_ne_nil sep ds)
      next part parts split =>
        rw [split] at ih
        simp only [List.map_cons, List.sum_cons, List.length_cons] at ih ⊢
        omega

theorem utf8Len_splitOn {sep : Char} (ascii : sep.utf8Size = 1) (cs : List Char) :
    ((splitOn sep cs).map fun part => String.utf8Len part + 1).sum = String.utf8Len cs + 1 := by
  induction cs with
  | nil => simp [splitOn]
  | cons d ds ih =>
    simp only [splitOn]
    split
    next same =>
      simp only [List.map_cons, List.sum_cons, String.utf8Len_nil, ih, String.utf8Len_cons, same,
        ascii]
      omega
    · split
      next empty => exact absurd empty (splitOn_ne_nil sep ds)
      next part parts split =>
        rw [split] at ih
        simp only [List.map_cons, List.sum_cons, String.utf8Len_cons] at ih ⊢
        omega

theorem utf8Len_le (cs : List Char) : String.utf8Len cs ≤ 4 * cs.length := by
  induction cs with
  | nil => simp
  | cons c cs ih =>
    have four := c.utf8Size_le_four
    simp only [String.utf8Len_cons, List.length_cons]
    omega

/-! ### Trimming -/

theorem trimChars_of_none {drop : Char → Bool} {cs : List Char}
    (none : ∀ c ∈ cs, drop c = false) : trimChars drop cs = cs := by
  have keeps (ds : List Char) (none : ∀ c ∈ ds, drop c = false) : ds.dropWhile drop = ds := by
    cases ds with
    | nil => rfl
    | cons c ds => simp [none c (by simp)]
  rw [trimChars, keeps cs none, keeps cs.reverse (by simpa using none), List.reverse_reverse]

theorem trimChars_trimChars (drop : Char → Bool) (cs : List Char) :
    trimChars drop (trimChars drop cs) = trimChars drop cs := by
  have again (ds : List Char) : (ds.dropWhile drop).dropWhile drop = ds.dropWhile drop :=
    List.dropWhile_idempotent drop ds
  -- what is cut from the end leaves the first character in place
  have first : (trimChars drop cs).dropWhile drop = trimChars drop cs := by
    cases trimmed : trimChars drop cs with
    | nil => rfl
    | cons c rest =>
      have front : trimChars drop cs <+: cs.dropWhile drop := by
        have tail := List.dropWhile_suffix drop (l := (cs.dropWhile drop).reverse)
        simpa [trimChars] using List.reverse_prefix.mpr tail
      obtain ⟨more, joined⟩ := front
      have kept := again cs
      rw [← joined, trimmed, List.cons_append] at kept
      have stop : drop c = false := by
        by_contra hit
        rw [Bool.not_eq_false] at hit
        rw [List.dropWhile_cons_of_pos hit] at kept
        have shorter := (List.dropWhile_sublist drop (l := rest ++ more)).length_le
        rw [kept] at shorter
        simp only [List.length_cons] at shorter
        omega
      rw [List.dropWhile_cons_of_neg (by simp [stop])]
  rw [trimChars, first]
  conv_lhs => rw [trimChars, List.reverse_reverse, again]
  rfl

theorem trimSpace_of_none {s : String} (none : ∀ c ∈ s.toList, isSpace c = false) :
    trimSpace s = s := by
  rw [trimSpace, trimChars_of_none none, String.ofList_toList]

theorem utf8ByteSize_trimSpace_le (s : String) : (trimSpace s).utf8ByteSize ≤ s.utf8ByteSize := by
  rw [trimSpace, String.utf8ByteSize_ofList, ← String.utf8Len_toList, trimChars,
    String.utf8Len_reverse]
  refine (String.utf8Len_le_of_sublist (List.dropWhile_sublist _)).trans ?_
  rw [String.utf8Len_reverse]
  exact String.utf8Len_le_of_sublist (List.dropWhile_sublist _)

@[simp] theorem trimSpace_trimSpace (s : String) : trimSpace (trimSpace s) = trimSpace s := by
  simp only [trimSpace, String.toList_ofList, trimChars_trimChars]

theorem trimChars_eq (drop : Char → Bool) (cs : List Char) :
    trimChars drop cs = (cs.dropWhile drop).rdropWhile drop := rfl

theorem rdropWhile_cons (drop : Char → Bool) (c : Char) (cs : List Char) :
    (c :: cs).rdropWhile drop =
      if cs.rdropWhile drop = [] ∧ drop c = true then [] else c :: cs.rdropWhile drop := by
  simp only [List.rdropWhile, List.reverse_cons, List.dropWhile_append, List.reverse_eq_nil_iff,
    List.isEmpty_iff]
  by_cases none : cs.reverse.dropWhile drop = []
  · by_cases dropped : drop c = true <;> simp [none, dropped]
  · simp [none]

theorem rdropWhile_cons_congr {drop : Char → Bool} {cs ds : List Char}
    (same : cs.rdropWhile drop = ds.rdropWhile drop) (c : Char) :
    (c :: cs).rdropWhile drop = (c :: ds).rdropWhile drop := by
  rw [rdropWhile_cons, rdropWhile_cons, same]

theorem trimChars_dropWhile (drop : Char → Bool) (cs : List Char) :
    trimChars drop (cs.dropWhile drop) = trimChars drop cs := by
  rw [trimChars_eq, List.dropWhile_idempotent, trimChars_eq]

/-- The two ends are cut independently. -/
theorem trimChars_rdropWhile (drop : Char → Bool) (cs : List Char) :
    trimChars drop (cs.rdropWhile drop) = trimChars drop cs := by
  induction cs with
  | nil => rfl
  | cons c cs ih =>
    by_cases dropped : drop c = true
    · have skip : trimChars drop (c :: cs) = trimChars drop cs := by
        rw [trimChars_eq, List.dropWhile_cons_of_pos dropped, trimChars_eq]
      rw [rdropWhile_cons, skip, ← ih]
      by_cases none : cs.rdropWhile drop = []
      · rw [if_pos ⟨none, dropped⟩, none]
      · rw [if_neg (fun both => none both.1), trimChars_eq, List.dropWhile_cons_of_pos dropped,
          trimChars_eq]
    · rw [rdropWhile_cons, if_neg (fun both => dropped both.2), trimChars_eq, trimChars_eq,
        List.dropWhile_cons_of_neg dropped, List.dropWhile_cons_of_neg dropped, rdropWhile_cons,
        rdropWhile_cons, List.rdropWhile_idempotent]

/-! ### Parts and occurrences -/

theorem contains_iff {s part : String} : contains s part = true ↔ part.toList <:+: s.toList := by
  unfold contains
  rw [List.any_eq_true, List.infix_iff_prefix_suffix]
  simp only [List.mem_tails, List.isPrefixOf_iff_prefix]
  exact ⟨fun ⟨t, suffix, start⟩ => ⟨t, start, suffix⟩, fun ⟨t, start, suffix⟩ => ⟨t, suffix, start⟩⟩

theorem contains_eq_false_iff {s part : String} :
    contains s part = false ↔ ¬ part.toList <:+: s.toList := by
  rw [← contains_iff, Bool.not_eq_true]

theorem infix_trimChars (drop : Char → Bool) (cs : List Char) : trimChars drop cs <:+: cs := by
  have suffix := List.dropWhile_suffix drop (l := cs)
  have start : trimChars drop cs <+: cs.dropWhile drop := by
    have reversed := List.dropWhile_suffix drop (l := (cs.dropWhile drop).reverse)
    have flipped := List.reverse_prefix.mpr reversed
    rwa [List.reverse_reverse] at flipped
  exact start.isInfix.trans suffix.isInfix

section Parts

variable {sep : Char}

theorem splitOn_cons_sep (cs : List Char) : splitOn sep (sep :: cs) = [] :: splitOn sep cs := by
  simp [splitOn]

theorem splitOn_cons_of_ne {c : Char} {cs part : List Char} {parts : List (List Char)}
    (other : c ≠ sep) (split : splitOn sep cs = part :: parts) :
    splitOn sep (c :: cs) = (c :: part) :: parts := by
  simp [splitOn, other, split]

theorem exists_splitOn (sep : Char) (cs : List Char) :
    ∃ part parts, splitOn sep cs = part :: parts :=
  List.exists_cons_of_ne_nil (splitOn_ne_nil sep cs)

theorem splitOn_filter {keep : Char → Bool} (kept : keep sep = true) (cs : List Char) :
    splitOn sep (cs.filter keep) = (splitOn sep cs).map (List.filter keep) := by
  induction cs with
  | nil => rfl
  | cons c cs ih =>
    by_cases same : c = sep
    · subst same
      rw [List.filter_cons_of_pos kept, splitOn_cons_sep, splitOn_cons_sep, ih]
      rfl
    · obtain ⟨part, parts, split⟩ := exists_splitOn sep cs
      rw [splitOn_cons_of_ne same split, List.map_cons]
      rw [split] at ih
      by_cases keeps : keep c = true
      · rw [List.filter_cons_of_pos keeps, splitOn_cons_of_ne same ih, List.filter_cons_of_pos keeps]
      · rw [List.filter_cons_of_neg keeps, ih, List.filter_cons_of_neg keeps, List.map_cons]

/-- Blanks around the whole do not change the parts, up to blanks. -/
theorem map_trim_splitOn {drop : Char → Bool} (kept : drop sep = false) (cs : List Char) :
    (splitOn sep (trimChars drop cs)).map (trimChars drop) =
      (splitOn sep cs).map (trimChars drop) := by
  have front (cs : List Char) : (splitOn sep (cs.dropWhile drop)).map (trimChars drop) =
      (splitOn sep cs).map (trimChars drop) := by
    induction cs with
    | nil => rfl
    | cons c cs ih =>
      by_cases dropped : drop c = true
      · obtain ⟨part, parts, split⟩ := exists_splitOn sep cs
        have other : c ≠ sep := by
          rintro rfl
          rw [kept] at dropped
          cases dropped
        rw [List.dropWhile_cons_of_pos dropped, ih, splitOn_cons_of_ne other split, split,
          List.map_cons, List.map_cons, ← trimChars_dropWhile drop (c :: part),
          List.dropWhile_cons_of_pos dropped, trimChars_dropWhile]
      · rw [List.dropWhile_cons_of_neg dropped]
  have back (cs : List Char) : (splitOn sep (cs.rdropWhile drop)).map (List.rdropWhile drop) =
      (splitOn sep cs).map (List.rdropWhile drop) := by
    induction cs with
    | nil => rfl
    | cons c cs ih =>
      obtain ⟨part, parts, split⟩ := exists_splitOn sep cs
      rw [rdropWhile_cons]
      by_cases gone : cs.rdropWhile drop = [] ∧ drop c = true
      · have other : c ≠ sep := by
          rintro rfl
          rw [kept] at gone
          cases gone.2
        rw [gone.1, split] at ih
        obtain ⟨first, rest⟩ := List.cons.inj ih
        rw [if_pos gone, splitOn_cons_of_ne other split, List.map_cons, ← rest, rdropWhile_cons,
          if_pos ⟨first.symm, gone.2⟩]
        rfl
      · rw [if_neg gone]
        by_cases same : c = sep
        · subst same
          rw [splitOn_cons_sep, splitOn_cons_sep, List.map_cons, List.map_cons, ih]
        · obtain ⟨cut, cuts, split'⟩ := exists_splitOn sep (cs.rdropWhile drop)
          rw [split, split'] at ih
          obtain ⟨first, rest⟩ := List.cons.inj ih
          rw [splitOn_cons_of_ne same split, splitOn_cons_of_ne same split', List.map_cons,
            List.map_cons, rdropWhile_cons_congr first, rest]
  have cutEnds : trimChars drop ∘ List.rdropWhile drop = trimChars drop :=
    funext (trimChars_rdropWhile drop)
  calc (splitOn sep (trimChars drop cs)).map (trimChars drop)
      = ((splitOn sep ((cs.dropWhile drop).rdropWhile drop)).map (List.rdropWhile drop)).map
          (trimChars drop) := by rw [List.map_map, cutEnds, trimChars_eq]
    _ = (splitOn sep (cs.dropWhile drop)).map (trimChars drop) := by
        rw [back, List.map_map, cutEnds]
    _ = (splitOn sep cs).map (trimChars drop) := front cs

/-- A part begins a text that ends with the separator exactly if it is the first. -/
theorem prefix_iff_head?_splitOn {part cs : List Char} (free : sep ∉ part) :
    part ++ [sep] <+: cs ++ [sep] ↔ (splitOn sep cs).head? = some part := by
  induction cs generalizing part with
  | nil =>
    cases part with
    | nil => simp [splitOn]
    | cons d part =>
      have other : d ≠ sep := fun same => free (same ▸ List.mem_cons_self)
      simp [splitOn, other]
  | cons c cs ih =>
    obtain ⟨first, rest, split⟩ := exists_splitOn sep cs
    by_cases same : c = sep
    · subst same
      rw [splitOn_cons_sep]
      cases part with
      | nil => simp
      | cons d part =>
        have other : d ≠ c := fun same => free (same ▸ List.mem_cons_self)
        simp [other]
    · rw [splitOn_cons_of_ne same split]
      cases part with
      | nil => simp [Ne.symm same]
      | cons d part =>
        have later : part ++ [sep] <+: cs ++ [sep] ↔ _ :=
          ih (fun member => free (List.mem_cons_of_mem _ member))
        rw [split] at later
        simp only [List.head?_cons, Option.some.injEq] at later ⊢
        rw [List.cons_append, List.cons_append, List.cons_prefix_cons, later, List.cons.injEq]
        exact and_congr_left fun _ => eq_comm

/-- A part is one of those of a text exactly if it stands in it between separators. -/
theorem infix_iff_mem_splitOn {part cs : List Char} (free : sep ∉ part) :
    sep :: (part ++ [sep]) <:+: sep :: (cs ++ [sep]) ↔ part ∈ splitOn sep cs := by
  have tail : sep :: (part ++ [sep]) <:+: cs ++ [sep] ↔ part ∈ (splitOn sep cs).tail := by
    induction cs with
    | nil => simp [splitOn, List.infix_cons_iff]
    | cons c cs ih =>
      obtain ⟨first, rest, split⟩ := exists_splitOn sep cs
      have head : part ++ [sep] <+: cs ++ [sep] ↔ _ := prefix_iff_head?_splitOn free
      rw [List.cons_append, List.infix_cons_iff, List.cons_prefix_cons, ih, head, split]
      by_cases same : c = sep
      · subst same
        rw [splitOn_cons_sep, split]
        simp [eq_comm]
      · rw [splitOn_cons_of_ne same split]
        simp [Ne.symm same]
  obtain ⟨first, rest, split⟩ := exists_splitOn sep cs
  have head : part ++ [sep] <+: cs ++ [sep] ↔ _ := prefix_iff_head?_splitOn free
  rw [List.infix_cons_iff, List.cons_prefix_cons, tail, head, split]
  simp [eq_comm]

end Parts

/-! ### Numbers -/

theorem isDigit_of_mem_toString {n : Nat} {c : Char} (member : c ∈ (toString n).toList) :
    c.isDigit = true := by
  change c ∈ n.repr.toList at member
  rw [Nat.toList_repr] at member
  exact Nat.isDigit_of_mem_toDigits (by decide) (by decide) member

theorem toString_nat_injective : Function.Injective (toString : Nat → String) := by
  intro m n same
  have digits := congrArg String.toList same
  change m.repr.toList = n.repr.toList at digits
  rw [Nat.toList_repr, Nat.toList_repr] at digits
  have values := congrArg (Nat.ofDigitChars 10 · 0) digits
  simpa only [Nat.ofDigitChars_ten_toDigits] using values

theorem parseDigits_toString (n : Nat) : parseDigits (toString n).toList = some n := by
  have digits : (toString n).toList.all Char.isDigit :=
    List.all_eq_true.mpr fun c => isDigit_of_mem_toString
  have text : (toString n).toList = Nat.toDigits 10 n := Nat.toList_repr
  have some : (toString n).toList.isEmpty = false := by
    rw [text, List.isEmpty_eq_false_iff]
    exact Nat.toDigits_ne_nil
  rw [parseDigits, digits, some, text, Nat.ofDigitChars_ten_toDigits]
  rfl

theorem parseInt64_of_digit {c : Char} {cs : List Char} (digit : c.isDigit = true) :
    parseInt64 (c :: cs) =
      (parseDigits (c :: cs)).bind fun n => if n < 2 ^ 63 then some (n : Int) else none := by
  unfold parseInt64
  split
  next same => cases same; exact absurd digit (by decide)
  next same => cases same; exact absurd digit (by decide)
  next => rfl

theorem toList_toString_negSucc (m : Nat) :
    (toString (Int.negSucc m)).toList = '-' :: (toString (m + 1)).toList := by
  change ("-" ++ (m + 1).repr).toList = _
  rw [String.toList_append]
  rfl

theorem mem_toString_int {n : Int} {c : Char} (member : c ∈ (toString n).toList) :
    c = '-' ∨ c.isDigit = true := by
  cases n with
  | ofNat m => exact .inr (isDigit_of_mem_toString (n := m) member)
  | negSucc m =>
    rw [toList_toString_negSucc, List.mem_cons] at member
    exact member.imp_right isDigit_of_mem_toString

theorem parseInt64_toString {n : Int} (low : -2 ^ 63 ≤ n) (high : n < 2 ^ 63) :
    parseInt64 (toString n).toList = some n := by
  cases n with
  | ofNat m =>
    have small : m < 2 ^ 63 := by
      rw [Int.ofNat_eq_natCast] at high
      exact_mod_cast high
    have value := parseDigits_toString m
    -- the first digit is no sign
    change parseInt64 (toString m).toList = _
    cases chars : (toString m).toList with
    | nil => rw [chars] at value; cases value
    | cons c cs =>
      have digit : c.isDigit = true := isDigit_of_mem_toString (chars ▸ List.mem_cons_self)
      rw [parseInt64_of_digit digit, ← chars, value, Option.bind_some, if_pos small]
      rfl
  | negSucc m =>
    have small : m + 1 ≤ 2 ^ 63 := by
      rw [Int.negSucc_eq] at low
      omega
    rw [toList_toString_negSucc, parseInt64, parseDigits_toString, Option.bind_some, if_pos small]
    rfl

example : trimSpace " \tsrc/main.go\n" = "src/main.go" := by decide

example : splitOn '/' "a//b".toList = ["a".toList, [], "b".toList] := by decide

example : contains "LCE: bad gateway" "bad gateway" = true := by decide

end AcemcpRelay
