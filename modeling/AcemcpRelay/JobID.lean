import AcemcpRelay.Text

/-!
# Job identifiers

The texts that `handleCodebaseIndex` accepts for a `job_id`, and the value that
PostgreSQL's `uuid` type reads from a text. Several texts denote one value.
-/
namespace AcemcpRelay

def isHexDigit (c : Char) : Bool :=
  ('0' ≤ c && c ≤ '9') || ('a' ≤ c && c ≤ 'f') || ('A' ≤ c && c ≤ 'F')

/-- `xxxxxxxx-xxxx-xxxx-xxxx-xxxxxxxxxxxx`. -/
def standardUUID (cs : List Char) : Bool :=
  match (splitOn '-' cs).map fun group => (group.length, group.all isHexDigit) with
  | [(8, true), (4, true), (4, true), (4, true), (12, true)] => true
  | _ => false

theorem standardUUID_spec {cs : List Char} (standard : standardUUID cs = true) :
    cs.length = 36 ∧ ∀ c ∈ cs, isHexDigit c = true ∨ c = '-' := by
  unfold standardUUID at standard
  split at standard
  next groups =>
    obtain ⟨a, b, c, d, e, parts⟩ : ∃ a b c d e, splitOn '-' cs = [a, b, c, d, e] := by
      rcases parts : splitOn '-' cs with _ | ⟨a, _ | ⟨b, _ | ⟨c, _ | ⟨d, _ | ⟨e, _ | ⟨f, more⟩⟩⟩⟩⟩⟩
      case cons.cons.cons.cons.cons.nil => exact ⟨a, b, c, d, e, rfl⟩
      all_goals simp [parts] at groups
    rw [parts] at groups
    simp only [List.map_cons, List.map_nil, List.cons.injEq, Prod.mk.injEq, and_true,
      List.all_eq_true] at groups
    obtain ⟨⟨la, ha⟩, ⟨lb, hb⟩, ⟨lc, hc⟩, ⟨ld, hd⟩, le, he⟩ := groups
    constructor
    · have size := length_splitOn '-' cs
      rw [parts] at size
      simp only [List.map_cons, List.map_nil, List.sum_cons, List.sum_nil, List.length_cons,
        List.length_nil, la, lb, lc, ld, le] at size
      omega
    · intro x member
      have place : x = '-' ∨ ∃ part ∈ splitOn '-' cs, x ∈ part := mem_splitOn member
      rcases place with dash | ⟨part, listed, inside⟩
      · exact .inr dash
      · rw [parts] at listed
        simp only [List.mem_cons, List.not_mem_nil, or_false] at listed
        rcases listed with rfl | rfl | rfl | rfl | rfl
        exacts [.inl (ha x inside), .inl (hb x inside), .inl (hc x inside), .inl (hd x inside),
          .inl (he x inside)]
  · simp at standard

theorem le_f_of_isHexDigit {c : Char} (hex : isHexDigit c = true) : c ≤ 'f' := by
  simp only [isHexDigit, Bool.or_eq_true, Bool.and_eq_true, decide_eq_true_eq] at hex
  rcases hex with (digit | lower) | upper
  · exact Char.le_trans digit.2 (by decide)
  · exact lower.2
  · exact Char.le_trans upper.2 (by decide)

theorem isSpace_of_isHexDigit {c : Char} (hex : isHexDigit c = true) : isSpace c = false := by
  have ascii : c ≤ 'f' := le_f_of_isHexDigit hex
  by_contra space
  simp only [isSpace, Bool.not_eq_false, Bool.or_eq_true, decide_eq_true_eq, Bool.and_eq_true,
    List.mem_cons, List.not_mem_nil, or_false] at space
  rcases space with listed | range
  · rcases listed with rfl | rfl | rfl | rfl | rfl | rfl | rfl | rfl | rfl | rfl | rfl | rfl |
      rfl | rfl <;> exact absurd hex (by decide)
  · exact absurd (Char.le_trans range.1 ascii) (by decide)

theorem isHexDigit_toLowerRune {c : Char} (hex : isHexDigit c = true) :
    isHexDigit (toLowerRune c) = true := by
  have every : ∀ n < 103, isHexDigit (Char.ofNat n) = true →
      isHexDigit (toLowerRune (Char.ofNat n)) = true := by decide
  have ascii : c ≤ 'f' := le_f_of_isHexDigit hex
  have small : c.toNat < 103 := Nat.lt_succ_of_le (UInt32.le_iff_toNat_le.mp (Char.le_def.mp ascii))
  rw [← Char.ofNat_toNat c] at hex ⊢
  exact every c.toNat small hex

/-- `uuid.Validate`: the standard form, bare, braced or as a URN, or 32 digits. -/
def uuidValidate (text : String) : Bool :=
  let cs := text.toList
  match cs.length with
  | 36 => standardUUID cs
  | 45 => (cs.take 9).map Char.toLower == "urn:uuid:".toList && standardUUID (cs.drop 9)
  -- braces, which `uuid.Parse` does not look at
  | 38 => cs.head? == some '\x7b' && cs.getLast? == some '\x7d' && standardUUID (cs.drop 1).dropLast
  | 32 => cs.all isHexDigit
  | _ => false

/-- A text of the standard form is accepted as it stands. -/
theorem uuidValidate_of_standard {text : String} (standard : standardUUID text.toList = true) :
    uuidValidate text = true ∧ trimSpace text = text ∧ text ≠ "" := by
  obtain ⟨size, chars⟩ := standardUUID_spec standard
  refine ⟨by simp [uuidValidate, size, standard], trimSpace_of_none fun c member => ?_, ?_⟩
  · rcases chars c member with hex | rfl
    · exact isSpace_of_isHexDigit hex
    · decide
  · rintro rfl
    simp at size

/-- The digits PostgreSQL reads, `read` of them so far. One hyphen may follow each
group of four digits but the last. -/
def uuidDigits : Nat → Bool → List Char → Option (List Char)
  | read, _, [] => if read = 32 then some [] else none
  | read, hyphen, c :: cs =>
    -- PostgreSQL takes a hyphen after any group of four digits
    if c = '-' then
      if hyphen && decide (0 < read ∧ read < 32 ∧ read % 4 = 0) then uuidDigits read false cs
      else none
    else if isHexDigit c && decide (read < 32) then
      (uuidDigits (read + 1) true cs).map (c.toLower :: ·)
    else none

/-- `xxxxxxxx-xxxx-xxxx-xxxx-xxxxxxxxxxxx`, from the thirty-two digits. -/
def formatUUID (digits : List Char) : String := String.ofList
  (List.intercalate ['-'] [digits.take 8, (digits.drop 8).take 4, (digits.drop 12).take 4,
    (digits.drop 16).take 4, digits.drop 20])

/-- `uuid.Parse`, as `UUID.String` prints the result. Unlike `uuid.Validate` it does not look
at the first and the last of 38 characters. -/
def uuidParse (text : String) : Option String :=
  let cs := text.toList
  let standard (cs : List Char) : Option (List Char) :=
    if standardUUID cs then some (cs.filter isHexDigit) else none
  let digits :=
    if text.utf8ByteSize ≠ cs.length then none
    else match cs.length with
      | 36 => standard cs
      | 45 => if (cs.take 9).map Char.toLower = "urn:uuid:".toList then standard (cs.drop 9) else none
      -- the characters at both ends are dropped unseen
      | 38 => standard (cs.drop 1).dropLast
      | 32 => if cs.all isHexDigit then some cs else none
      | _ => none
  digits.map fun digits => formatUUID (digits.map Char.toLower)

/-- The `uuid` value of a text, as `id::text` prints it. -/
def postgresUUID (text : String) : Option String :=
  let cs := text.toList
  let inner := if cs.head? = some '\x7b' then
    if cs.getLast? = some '\x7d' then some (cs.drop 1).dropLast else none else some cs
  (inner.bind (uuidDigits 0 false)).map fun digits => String.ofList
    (List.intercalate ['-'] [digits.take 8, (digits.drop 8).take 4, (digits.drop 12).take 4,
      (digits.drop 16).take 4, digits.drop 20])

theorem uuidDigits_chars {read : Nat} {hyphen : Bool} {cs digits : List Char}
    (found : uuidDigits read hyphen cs = some digits) : ∀ c ∈ cs, isHexDigit c = true ∨ c = '-' := by
  induction cs generalizing read hyphen digits with
  | nil => exact fun c member => absurd member List.not_mem_nil
  | cons d cs ih =>
    rw [List.forall_mem_cons]
    unfold uuidDigits at found
    split at found
    next dash =>
      split at found
      · exact ⟨.inr dash, ih found⟩
      · cases found
    · split at found
      next digit =>
        obtain ⟨rest, later, -⟩ := Option.map_eq_some_iff.mp found
        exact ⟨.inl (Bool.and_eq_true_iff.mp digit).1, ih later⟩
      · cases found

/-- PostgreSQL reads no text with white space around it. -/
theorem trimSpace_of_postgresUUID {text id : String} (found : postgresUUID text = some id) :
    trimSpace text = text := by
  apply trimSpace_of_none
  obtain ⟨digits, inner, -⟩ := Option.map_eq_some_iff.mp found
  obtain ⟨cs, shape, read⟩ := Option.bind_eq_some_iff.mp inner
  have plain : ∀ c ∈ cs, isSpace c = false := by
    intro c member
    rcases uuidDigits_chars read c member with hex | rfl
    · exact isSpace_of_isHexDigit hex
    · decide
  -- with braces, the two ends are braces and the digits are inside
  split at shape
  next brace =>
    split at shape
    next closing =>
      obtain ⟨rest, chars⟩ := List.head?_eq_some_iff.mp brace
      rw [chars, List.drop_one, List.tail_cons, Option.some.injEq] at shape
      rw [chars] at closing
      intro c member
      rw [chars] at member
      rcases List.mem_cons.mp member with rfl | later
      · decide
      · have ends : rest.getLast? = some '\x7d' := by
          cases rest with
          | nil => exact absurd later List.not_mem_nil
          | cons d ds => simpa using closing
        have whole := List.dropLast_append_getLast? _ ends
        rw [← whole, shape] at later
        rcases List.mem_append.mp later with inside | last
        · exact plain c inside
        · rw [List.mem_singleton.mp last]
          decide
    · cases shape
  · rw [← Option.some.inj shape] at plain
    exact plain

example : postgresUUID "\x7bF47AC10B-58CC-4372-A567-0E02B2C3D479\x7d" =
    some "f47ac10b-58cc-4372-a567-0e02b2c3d479" := by decide

end AcemcpRelay
