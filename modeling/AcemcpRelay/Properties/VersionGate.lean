import AcemcpRelay.Store.ThreeWay
import AcemcpRelay.Versions
import Mathlib.Data.Nat.Digits.Lemmas

/-!
# The order of client versions

`compareVersions` is the three-way comparison of one key per text: the three
numbers that `strconv.Atoi` leaves, and whether there is no text after the
first `-`. So it is a total preorder on all texts, and the gate is monotone in
the client and in the minimum. In the key of a strict version a number from 2^63 on
has become 2^63 - 1. Two strict versions are compared as they are unless they first
differ in two such numbers: then the difference is not seen, and what follows decides.
-/
namespace AcemcpRelay

open Store Wire

/-! ## One key per text -/

def VersionKey (Num : Type) : Type := Num ×ₗ Num ×ₗ Num ×ₗ Bool

instance {Num : Type} [LinearOrder Num] : LinearOrder (VersionKey Num) :=
  inferInstanceAs (LinearOrder (Num ×ₗ Num ×ₗ Num ×ₗ Bool))

/-- The numbers in order of weight, and last that a release is above its prereleases. -/
def VersionKey.of {Num : Type} (major minor patch : Num) (release : Bool) : VersionKey Num :=
  toLex (major, toLex (minor, toLex (patch, release)))

/-- What `compareVersions` looks at. -/
def versionKey (text : List UInt8) : VersionKey Int :=
  let (core, pre) := cut '-'.toUInt8 text
  let parts := splitN '.'.toUInt8 4 core
  .of (versionPart parts 0) (versionPart parts 1) (versionPart parts 2) pre.isEmpty

theorem threeWay_versionKey {Num : Type} [LinearOrder Num] (a b c a' b' c' : Num) (r r' : Bool) :
    threeWay (VersionKey.of a b c r) (VersionKey.of a' b' c' r') =
      if a < a' then -1 else if a' < a then 1
      else if b < b' then -1 else if b' < b then 1
      else if c < c' then -1 else if c' < c then 1
      else threeWay r r' := by
  have outer := threeWay_lex a a' (toLex (b, toLex (c, r))) (toLex (b', toLex (c', r')))
  have middle := threeWay_lex b b' (toLex (c, r)) (toLex (c', r'))
  have inner := threeWay_lex c c' r r'
  rw [middle, inner] at outer
  exact outer

theorem compareParts_cons (aParts bParts : List (List UInt8)) (i : Nat) (rest : List Nat)
    (otherwise : Int) :
    (compareParts aParts bParts (i :: rest)).getD otherwise =
      if versionPart aParts i < versionPart bParts i then -1
      else if versionPart bParts i < versionPart aParts i then 1
      else (compareParts aParts bParts rest).getD otherwise := by
  simp only [compareParts]
  split
  · rfl
  · split <;> rfl

theorem compareVersions_eq (a b : List UInt8) :
    compareVersions a b = threeWay (versionKey a) (versionKey b) := by
  have tags (released released' : Bool) :
      (if released && !released' then (1 : Int) else if !released && released' then -1 else 0) =
        threeWay released released' := by
    cases released <;> cases released' <;> decide
  simp only [versionKey, threeWay_versionKey, compareVersions, tags]
  rw [compareParts_cons, compareParts_cons, compareParts_cons]
  rfl

/-! ## Numbers -/

/-- The number that decimal digits are. -/
def decimal (digits : List UInt8) : Nat :=
  Nat.ofDigits 10 (digits.map fun b => b.toNat - 48).reverse

theorem decimal_cons (b : UInt8) (digits : List UInt8) :
    decimal (b :: digits) = (b.toNat - 48) * 10 ^ digits.length + decimal digits := by
  simp only [decimal, List.map_cons, List.reverse_cons, Nat.ofDigits_append,
    Nat.ofDigits_singleton, List.length_reverse, List.length_map]
  ring

theorem digitValue_of_mem (b : UInt8) (mem : b ∈ digitBytes) :
    digitValue b = some (b.toNat - 48) := by
  revert mem
  revert b
  decide +kernel

/-- Digits are read to their number, or to the largest `uint64`. -/
theorem parseUint_digits (n : Nat) (digits : List UInt8) (numeric : ∀ b ∈ digits, b ∈ digitBytes)
    (small : n ≤ 2 ^ 64 - 1) :
    parseUint n digits = some (min (n * 10 ^ digits.length + decimal digits) (2 ^ 64 - 1)) := by
  induction digits generalizing n with
  | nil =>
    have same : min (n * 10 ^ 0 + 0) (2 ^ 64 - 1) = n := by omega
    exact (congrArg some same).symm
  | cons b digits ih =>
    have value := digitValue_of_mem b (numeric b List.mem_cons_self)
    have whole : n * 10 ^ (b :: digits).length + decimal (b :: digits) =
        (n * 10 + (b.toNat - 48)) * 10 ^ digits.length + decimal digits := by
      rw [decimal_cons, List.length_cons]
      ring
    have power : 1 ≤ 10 ^ digits.length := Nat.one_le_pow _ _ (by decide)
    rw [whole]
    simp only [parseUint, value]
    by_cases large : n * 10 + (b.toNat - 48) > 2 ^ 64 - 1
    · -- both overflow tests end with the largest value, which the rest can only exceed
      have beyond : 2 ^ 64 - 1 ≤
          (n * 10 + (b.toNat - 48)) * 10 ^ digits.length + decimal digits := by
        have scaled := Nat.le_mul_of_pos_right (n * 10 + (b.toNat - 48)) power
        omega
      rw [if_pos large, ite_self, Nat.min_eq_right beyond]
    · have below : ¬ n ≥ (2 ^ 64 - 1) / 10 + 1 := by omega
      rw [if_neg below, if_neg large]
      exact ih _ (fun d mem => numeric d (List.mem_cons_of_mem b mem)) (by omega)

theorem splitSign_digits (digits : List UInt8) (numeric : ∀ b ∈ digits, b ∈ digitBytes) :
    splitSign digits = (false, digits) := by
  cases digits with
  | nil => rfl
  | cons b rest =>
    have signs : '-'.toUInt8 ∉ digitBytes ∧ '+'.toUInt8 ∉ digitBytes := by decide +kernel
    have listed := numeric b List.mem_cons_self
    have minus : b ≠ '-'.toUInt8 := fun same => signs.1 (same ▸ listed)
    have plus : b ≠ '+'.toUInt8 := fun same => signs.2 (same ▸ listed)
    simp only [splitSign, if_neg minus, if_neg plus]

/-- Digits without a sign are read to their number, or to the largest `int`. -/
theorem atoi_digits (digits : List UInt8) (some : digits ≠ [])
    (numeric : ∀ b ∈ digits, b ∈ digitBytes) :
    atoi digits = min (decimal digits : Int) (2 ^ 63 - 1) := by
  have value := parseUint_digits 0 digits numeric (Nat.zero_le _)
  rw [Nat.zero_mul, Nat.zero_add] at value
  have filled : digits.isEmpty = false := by simpa using some
  simp only [atoi, splitSign_digits digits numeric, filled, value]
  by_cases large : min (decimal digits) (2 ^ 64 - 1) ≥ 2 ^ 63
  · simp only [large, Bool.not_false, Bool.true_and, decide_true, Bool.false_eq_true, if_true,
      if_false]
    omega
  · simp only [large, Bool.not_false, Bool.true_and, decide_false, Bool.false_and,
      Bool.false_eq_true, if_false]
    omega

/-! ## What is read of a number -/

/-- The largest `int`. -/
def maxInt : Nat := 2 ^ 63 - 1

/-- What `strconv.Atoi` makes of a number. -/
def cutOff (n : Nat) : Nat := min n maxInt

/-- The first position that differs decides, and `last` if there is none. -/
def decided (read : Nat → Nat) (last : Int) : List (Nat × Nat) → Int
  | [] => last
  | (a, b) :: rest =>
    if read a < read b then -1 else if read b < read a then 1 else decided read last rest

/-- The property holds of the first two numbers that differ and of what comes after them. -/
def AtFirst (property : Nat → Nat → List (Nat × Nat) → Prop) : List (Nat × Nat) → Prop
  | [] => True
  | (a, b) :: rest => if a = b then AtFirst property rest else property a b rest

instance AtFirst.decidable (property : Nat → Nat → List (Nat × Nat) → Prop)
    [∀ a b rest, Decidable (property a b rest)] : ∀ pairs, Decidable (AtFirst property pairs)
  | [] => inferInstanceAs (Decidable True)
  | (a, b) :: rest =>
    have := AtFirst.decidable property rest
    inferInstanceAs (Decidable (if a = b then AtFirst property rest else property a b rest))

section

variable {last : Int} {a b : Nat} {rest : List (Nat × Nat)}

theorem decided_same (read : Nat → Nat) (same : read a = read b) :
    decided read last ((a, b) :: rest) = decided read last rest := by
  simp [decided, same]

theorem decided_of_ne (read : Nat → Nat) (different : read a ≠ read b) :
    decided read last ((a, b) :: rest) = threeWay (read a) (read b) := by
  simp only [decided, threeWay]
  split
  · rfl
  · split
    · rfl
    · omega

/-- Two numbers that differ are read as different unless neither is below the largest `int`. -/
theorem cutOff_seen (seen : a < maxInt ∨ b < maxInt) :
    threeWay (cutOff a) (cutOff b) = threeWay a b ∧ (a ≠ b → cutOff a ≠ cutOff b) := by
  have order (m n : Nat) (seen : m < maxInt ∨ n < maxInt) : cutOff m < cutOff n ↔ m < n := by
    unfold cutOff
    omega
  refine ⟨?_, fun different same => ?_⟩
  · simp only [threeWay, order a b seen, order b a seen.symm]
  · unfold cutOff at same
    omega

theorem cutOff_hidden (hidden : ¬ (a < maxInt ∨ b < maxInt)) : cutOff a = cutOff b := by
  unfold cutOff
  omega

end

/-- The numbers that are read decide as the numbers do. -/
theorem decided_cutOff_iff (last : Int) (pairs : List (Nat × Nat)) :
    decided cutOff last pairs = decided id last pairs ↔
      AtFirst (fun a b rest => a < maxInt ∨ b < maxInt ∨ decided cutOff last rest = threeWay a b)
        pairs := by
  induction pairs with
  | nil => simp [decided, AtFirst]
  | cons pair rest ih =>
    obtain ⟨a, b⟩ := pair
    by_cases same : a = b
    · subst same
      rw [decided_same cutOff rfl, decided_same id rfl, AtFirst, if_pos rfl]
      exact ih
    rw [decided_of_ne id same, AtFirst, if_neg same]
    by_cases seen : a < maxInt ∨ b < maxInt
    · obtain ⟨order, apart⟩ := cutOff_seen seen
      rw [decided_of_ne cutOff (apart same), order, ← or_assoc]
      simp [seen]
    · rw [decided_same cutOff (cutOff_hidden seen), ← or_assoc]
      simp [seen]

/-- The numbers that are read do not reverse an order of the numbers. -/
theorem decided_cutOff_nonpos_iff {last : Int} {pairs : List (Nat × Nat)}
    (ordered : decided id last pairs ≤ 0) :
    decided cutOff last pairs ≤ 0 ↔
      AtFirst (fun a b rest => a < maxInt ∨ b < maxInt ∨ decided cutOff last rest ≤ 0) pairs := by
  induction pairs with
  | nil => simpa [decided, AtFirst] using ordered
  | cons pair rest ih =>
    obtain ⟨a, b⟩ := pair
    by_cases same : a = b
    · subst same
      rw [decided_same id rfl] at ordered
      rw [decided_same cutOff rfl, AtFirst, if_pos rfl]
      exact ih ordered
    rw [decided_of_ne id same] at ordered
    rw [AtFirst, if_neg same]
    by_cases seen : a < maxInt ∨ b < maxInt
    · obtain ⟨order, apart⟩ := cutOff_seen seen
      rw [decided_of_ne cutOff (apart same), order, ← or_assoc]
      simpa [seen] using ordered
    · rw [decided_same cutOff (cutOff_hidden seen), ← or_assoc]
      simp [seen]

/-! ## Strict versions -/

/-- What the pattern accepts: three numbers and a tag that is not empty. -/
structure StrictVersion where
  major : List UInt8
  minor : List UInt8
  patch : List UInt8
  tag : Option (List UInt8)
  numeric : ∀ part ∈ [major, minor, patch], part ≠ [] ∧ ∀ b ∈ part, b ∈ digitBytes
  tagged : ∀ text ∈ tag, text ≠ [] ∧ ∀ b ∈ text, b ∈ tagBytes

namespace StrictVersion

def tail (v : StrictVersion) : List UInt8 :=
  match v.tag with
  | none => []
  | some text => '-'.toUInt8 :: text

def core (v : StrictVersion) : List UInt8 :=
  v.major ++ '.'.toUInt8 :: (v.minor ++ '.'.toUInt8 :: v.patch)

def text (v : StrictVersion) : List UInt8 := v.core ++ v.tail

/-- The exact numeric triple, and that a prerelease is below its release. -/
def number (v : StrictVersion) : VersionKey Nat :=
  .of (decimal v.major) (decimal v.minor) (decimal v.patch) v.tag.isNone

/-- The numbers of two versions, position by position. -/
def pairs (v w : StrictVersion) : List (Nat × Nat) :=
  [(decimal v.major, decimal w.major), (decimal v.minor, decimal w.minor),
    (decimal v.patch, decimal w.patch)]

theorem separators_not_digits : '.'.toUInt8 ∉ digitBytes ∧ '-'.toUInt8 ∉ digitBytes := by
  decide +kernel

theorem free_of_digits {sep : UInt8} {part : List UInt8} (other : sep ∉ digitBytes)
    (numeric : ∀ b ∈ part, b ∈ digitBytes) : sep ∉ part :=
  fun mem => other (numeric sep mem)

theorem digits (v : StrictVersion) :
    (∀ b ∈ v.major, b ∈ digitBytes) ∧ (∀ b ∈ v.minor, b ∈ digitBytes) ∧
      ∀ b ∈ v.patch, b ∈ digitBytes :=
  ⟨(v.numeric v.major (by simp)).2, (v.numeric v.minor (by simp)).2,
    (v.numeric v.patch (by simp)).2⟩

/-- Cutting at the first `-` takes the numbers apart from the tag. -/
theorem cut_text (v : StrictVersion) : cut '-'.toUInt8 v.text = (v.core, v.tag.getD []) := by
  obtain ⟨major, minor, patch⟩ := v.digits
  have noDash : '-'.toUInt8 ∉ v.core := by
    have apart : '-'.toUInt8 ≠ '.'.toUInt8 := by decide
    simp only [core, List.mem_append, List.mem_cons, not_or]
    exact ⟨free_of_digits separators_not_digits.2 major, apart,
      free_of_digits separators_not_digits.2 minor, apart,
      free_of_digits separators_not_digits.2 patch⟩
  unfold text tail
  cases v.tag with
  | none => rw [List.append_nil]; exact cut_of_free noDash
  | some tag => exact cut_append noDash tag

theorem splitN_core (v : StrictVersion) :
    splitN '.'.toUInt8 4 v.core = [v.major, v.minor, v.patch] := by
  obtain ⟨major, minor, patch⟩ := v.digits
  rw [core, splitN_append (free_of_digits separators_not_digits.1 major),
    splitN_append (free_of_digits separators_not_digits.1 minor),
    splitN_of_free (free_of_digits separators_not_digits.1 patch)]

theorem isEmpty_tag (v : StrictVersion) : (v.tag.getD []).isEmpty = v.tag.isNone := by
  cases found : v.tag with
  | none => rfl
  | some tag =>
    have filled := (v.tagged tag found).1
    cases tag with
    | nil => exact absurd rfl filled
    | cons b rest => rfl

/-- The key of a strict version has its numbers, cut off at the largest `int`. -/
theorem versionKey_text (v : StrictVersion) :
    versionKey v.text =
      .of (min (decimal v.major : Int) (2 ^ 63 - 1)) (min (decimal v.minor : Int) (2 ^ 63 - 1))
        (min (decimal v.patch : Int) (2 ^ 63 - 1)) v.tag.isNone := by
  obtain ⟨major, minor, patch⟩ := v.digits
  have parts (part : List UInt8) (listed : part ∈ [v.major, v.minor, v.patch]) :
      atoi part = min (decimal part : Int) (2 ^ 63 - 1) :=
    atoi_digits part (v.numeric part listed).1 (v.numeric part listed).2
  rw [← parts v.major (by simp), ← parts v.minor (by simp), ← parts v.patch (by simp),
    ← v.isEmpty_tag]
  simp only [versionKey, v.cut_text, v.splitN_core]
  rfl

theorem compareVersions_text (v w : StrictVersion) :
    compareVersions v.text w.text =
      decided cutOff (threeWay v.tag.isNone w.tag.isNone) (v.pairs w) := by
  have read (n : Nat) : min (n : Int) (2 ^ 63 - 1) = (cutOff n : Int) := by
    rw [cutOff, maxInt]
    omega
  rw [compareVersions_eq, versionKey_text, versionKey_text, threeWay_versionKey]
  simp only [read, Nat.cast_lt]
  rfl

theorem threeWay_number (v w : StrictVersion) :
    threeWay v.number w.number = decided id (threeWay v.tag.isNone w.tag.isNone) (v.pairs w) := by
  rw [number, number, threeWay_versionKey]
  rfl

/-- The first two numbers in which the versions differ are not both read as the largest `int`,
or what follows compares as these numbers do. -/
def ToldApart (v w : StrictVersion) : Prop :=
  AtFirst (fun a b rest => a < maxInt ∨ b < maxInt ∨
    decided cutOff (threeWay v.tag.isNone w.tag.isNone) rest = threeWay a b) (v.pairs w)

/-- The first two numbers in which the versions differ are not both read as the largest `int`,
or what follows does not make the first version the higher one. -/
def NotReversed (v w : StrictVersion) : Prop :=
  AtFirst (fun a b rest => a < maxInt ∨ b < maxInt ∨
    decided cutOff (threeWay v.tag.isNone w.tag.isNone) rest ≤ 0) (v.pairs w)

instance (v w : StrictVersion) : Decidable (v.ToldApart w) :=
  inferInstanceAs (Decidable (AtFirst _ _))

instance (v w : StrictVersion) : Decidable (v.NotReversed w) :=
  inferInstanceAs (Decidable (AtFirst _ _))

/-- The optional group of the pattern. -/
theorem mem_tag (s : List UInt8) :
    s ∈ (1 + .char '-'.toUInt8 * oneOrMore (oneOf tagBytes) : RegularExpression UInt8).matches' ↔
      s = [] ∨ ∃ tag, (tag ≠ [] ∧ ∀ b ∈ tag, b ∈ tagBytes) ∧ s = '-'.toUInt8 :: tag := by
  simp only [RegularExpression.matches'_add, RegularExpression.matches'_epsilon, Language.mem_add,
    Language.mem_one, mem_char_mul, mem_oneOrMore_oneOf]

/-- The pattern accepts the texts of strict versions and no others. -/
theorem rmatch_iff (text : List UInt8) :
    strictClientVersionPattern.rmatch text = true ↔ ∃ v : StrictVersion, v.text = text := by
  rw [RegularExpression.rmatch_iff_matches', strictClientVersionPattern]
  simp only [RegularExpression.matches'_mul _ (.char _ * _), Language.mem_mul, mem_char_mul,
    RegularExpression.matches'_mul _ (1 + _), mem_oneOrMore_oneOf, mem_tag]
  constructor
  · rintro ⟨major, isMajor, _, ⟨_, ⟨minor, isMinor, _, ⟨_, ⟨patch, isPatch, tail, isTail, rfl⟩, rfl⟩,
      rfl⟩, rfl⟩, rfl⟩
    have numeric : ∀ part ∈ [major, minor, patch], part ≠ [] ∧ ∀ b ∈ part, b ∈ digitBytes := by
      simp only [List.mem_cons, List.not_mem_nil, or_false, forall_eq_or_imp, forall_eq]
      exact ⟨isMajor, isMinor, isPatch⟩
    obtain rfl | ⟨tag, isTag, rfl⟩ := isTail
    · exact ⟨⟨major, minor, patch, none, numeric, by simp⟩, by simp [StrictVersion.text, core, tail]⟩
    · exact ⟨⟨major, minor, patch, some tag, numeric, by simpa using isTag⟩,
        by simp [StrictVersion.text, core, tail]⟩
  · rintro ⟨v, rfl⟩
    refine ⟨v.major, v.numeric v.major (by simp), _, ⟨_, ⟨v.minor, v.numeric v.minor (by simp), _,
      ⟨_, ⟨v.patch, v.numeric v.patch (by simp), v.tail, ?_, rfl⟩, rfl⟩, rfl⟩, rfl⟩, ?_⟩
    · unfold tail
      cases found : v.tag with
      | none => exact .inl rfl
      | some tag => exact .inr ⟨tag, v.tagged tag found, rfl⟩
    · simp [StrictVersion.text, core]

end StrictVersion

/-! ## The gate -/

theorem compareVersions_nonpos_iff (a b : List UInt8) :
    compareVersions a b ≤ 0 ↔ versionKey a ≤ versionKey b := by
  rw [compareVersions_eq, threeWay_nonpos_iff]

/-- The gate refuses a reported version whose key is below that of the minimum. -/
theorem gate_reject_iff (client minimum : List UInt8) :
    evaluateVersionGateAgainst client minimum = .reject426 ↔
      minimum ≠ [] ∧ client ≠ [] ∧ versionKey client < versionKey minimum := by
  have order : compareVersions client minimum < 0 ↔ versionKey client < versionKey minimum := by
    rw [compareVersions_eq, threeWay_neg_iff]
  unfold evaluateVersionGateAgainst
  split
  next unset =>
    simp only [Bool.or_eq_true, List.isEmpty_iff] at unset
    simp only [reduceCtorEq, false_iff]
    tauto
  next reported =>
    simp only [Bool.or_eq_true, List.isEmpty_iff, not_or] at reported
    split
    next below => simpa [order] using ⟨reported.1, reported.2, order.mp below⟩
    next above =>
      simp only [reduceCtorEq, false_iff]
      intro refused
      exact above (order.mpr refused.2.2)

theorem gate_admits_higher {client higher minimum : List UInt8} (reported : client ≠ [])
    (ordered : versionKey client ≤ versionKey higher)
    (admitted : evaluateVersionGateAgainst client minimum ≠ .reject426) :
    evaluateVersionGateAgainst higher minimum ≠ .reject426 := by
  intro refused
  obtain ⟨set, -, below⟩ := (gate_reject_iff higher minimum).mp refused
  exact admitted ((gate_reject_iff client minimum).mpr ⟨set, reported, ordered.trans_lt below⟩)

theorem gate_refuses_raised {client minimum raised : List UInt8} (set : raised ≠ [])
    (ordered : versionKey minimum ≤ versionKey raised)
    (refused : evaluateVersionGateAgainst client minimum = .reject426) :
    evaluateVersionGateAgainst client raised = .reject426 := by
  obtain ⟨-, reported, below⟩ := (gate_reject_iff client minimum).mp refused
  exact (gate_reject_iff client raised).mpr ⟨set, reported, below.trans_le ordered⟩

theorem StrictVersion.text_ne_nil (v : StrictVersion) : v.text ≠ [] := by
  simp [text, core]

theorem StrictVersion.compareVersions_self (v : StrictVersion) :
    evaluateVersionGateAgainst v.text v.text ≠ .reject426 := by
  rw [Ne, gate_reject_iff]
  exact fun refused => lt_irrefl _ refused.2.2

/-- `compareVersions` is a total preorder on all texts, the pattern accepts exactly the strict
versions, and the gate is monotone in the order of `compareVersions`. Strict versions are
ordered by their exact triple and then a prerelease below its release exactly if they are told
apart; and of two in this order the gate admits the higher where it admits the lower, and
refuses under the higher minimum whom it refuses under the lower, exactly if the two are not
reversed. -/
theorem version_gate_order (v w : StrictVersion) :
    (∀ a b, compareVersions b a = -compareVersions a b) ∧
    (∀ a b c, compareVersions a b ≤ 0 → compareVersions b c ≤ 0 → compareVersions a c ≤ 0) ∧
    (∀ text, strictClientVersionPattern.rmatch text = true ↔ ∃ u : StrictVersion, u.text = text) ∧
    (∀ client higher minimum, client ≠ [] → compareVersions client higher ≤ 0 →
      evaluateVersionGateAgainst client minimum ≠ .reject426 →
      evaluateVersionGateAgainst higher minimum ≠ .reject426) ∧
    (∀ client minimum raised, raised ≠ [] → compareVersions minimum raised ≤ 0 →
      evaluateVersionGateAgainst client minimum = .reject426 →
      evaluateVersionGateAgainst client raised = .reject426) ∧
    (compareVersions v.text w.text = threeWay v.number w.number ↔ v.ToldApart w) ∧
    (v.number ≤ w.number →
      (((∀ minimum, evaluateVersionGateAgainst v.text minimum ≠ .reject426 →
          evaluateVersionGateAgainst w.text minimum ≠ .reject426) ∧
        ∀ client, evaluateVersionGateAgainst client v.text = .reject426 →
          evaluateVersionGateAgainst client w.text = .reject426) ↔ v.NotReversed w)) := by
  refine ⟨?_, ?_, StrictVersion.rmatch_iff, ?_, ?_, ?_, ?_⟩
  · intro a b
    rw [compareVersions_eq, compareVersions_eq, threeWay_swap]
  · intro a b c
    simp only [compareVersions_nonpos_iff]
    exact le_trans
  · intro client higher minimum reported ordered
    exact gate_admits_higher reported ((compareVersions_nonpos_iff _ _).mp ordered)
  · intro client minimum raised set ordered
    exact gate_refuses_raised set ((compareVersions_nonpos_iff _ _).mp ordered)
  · rw [v.compareVersions_text w, v.threeWay_number w]
    exact decided_cutOff_iff _ _
  · intro below
    have exactly : compareVersions v.text w.text ≤ 0 ↔ v.NotReversed w := by
      rw [← threeWay_nonpos_iff, v.threeWay_number w] at below
      rw [v.compareVersions_text w]
      exact decided_cutOff_nonpos_iff below
    rw [← exactly, compareVersions_nonpos_iff]
    constructor
    · rintro ⟨admits, -⟩
      -- the lower version as the minimum admits itself
      have admitted := admits v.text v.compareVersions_self
      rw [Ne, gate_reject_iff] at admitted
      exact not_lt.mp fun reversed => admitted ⟨v.text_ne_nil, w.text_ne_nil, reversed⟩
    · intro keys
      exact ⟨fun minimum => gate_admits_higher v.text_ne_nil keys,
        fun client => gate_refuses_raised w.text_ne_nil keys⟩

/-- `1.2.3-beta` and `1.10.0`. -/
theorem version_gate_order_beta :
    let v : StrictVersion := ⟨ascii "1", ascii "2", ascii "3", some (ascii "beta"),
      by decide +kernel, by decide +kernel⟩
    let w : StrictVersion := ⟨ascii "1", ascii "10", ascii "0", none,
      by decide +kernel, by decide +kernel⟩
    v.ToldApart w ∧ compareVersions v.text w.text = threeWay v.number w.number ∧
      ∀ minimum, evaluateVersionGateAgainst v.text minimum ≠ .reject426 →
        evaluateVersionGateAgainst w.text minimum ≠ .reject426 := by
  intro v w
  have apart : v.ToldApart w := by decide +kernel
  have ordered : v.NotReversed w := by decide +kernel
  have below : v.number ≤ w.number := by
    rw [← threeWay_nonpos_iff, v.threeWay_number w]
    decide +kernel
  have results := (version_gate_order v w).2.2.2.2.2
  exact ⟨apart, results.1.mpr apart, ((results.2 below).mpr ordered).1⟩

/-- Numbers from 2^63 on all become 2^63 - 1: a minimum of 2^63.0.0 admits the lower version
2^63-1.0.0, and one of 2^63.5.0 admits that version and refuses the higher 2^63+1.0.0. -/
theorem long_numbers_compare_equal :
    let v : StrictVersion := ⟨ascii "9223372036854775807", ascii "0", ascii "0", none,
      by decide +kernel, by decide +kernel⟩
    let w : StrictVersion := ⟨ascii "9223372036854775808", ascii "0", ascii "0", none,
      by decide +kernel, by decide +kernel⟩
    let x : StrictVersion := ⟨ascii "9223372036854775808", ascii "5", ascii "0", none,
      by decide +kernel, by decide +kernel⟩
    let y : StrictVersion := ⟨ascii "9223372036854775809", ascii "0", ascii "0", none,
      by decide +kernel, by decide +kernel⟩
    strictClientVersionPattern.rmatch v.text = true ∧
    strictClientVersionPattern.rmatch w.text = true ∧
    threeWay v.number w.number = -1 ∧ compareVersions v.text w.text = 0 ∧
    evaluateVersionGateAgainst v.text w.text = .pass ∧
    threeWay x.number y.number = -1 ∧ compareVersions x.text y.text = 1 ∧
    evaluateVersionGateAgainst x.text x.text = .pass ∧
    evaluateVersionGateAgainst y.text x.text = .reject426 := by
  intro v w x y
  refine ⟨(StrictVersion.rmatch_iff _).mpr ⟨v, rfl⟩, (StrictVersion.rmatch_iff _).mpr ⟨w, rfl⟩, ?_⟩
  decide +kernel

end AcemcpRelay
