import AcemcpRelay.IndexTool
import AcemcpRelay.UploadAttempt
import AcemcpRelay.Wire.Infix
import Mathlib.Data.Bool.AllAny

/-!
# The relay's own limits as failures

`classifyIndexFailure` looks for phrases in a text, and the texts with which the relay
refuses for its own limits hold numbers and paths. A phrase of an earlier arm can stand in
one of these, and the text then gets the code of that arm. If none does, the text is diagnosed
as what it is: a phrase without digits and signs lies between two numbers, and there are none
of an earlier arm there.
-/
namespace AcemcpRelay

/-! ### Parts of a text -/

theorem prefix_trimChars {drop : Char → Bool} {start : List Char} {first last : Char}
    (begins : start.head? = some first) (ends : start.getLast? = some last)
    (keepsFirst : drop first = false) (keepsLast : drop last = false) (rest : List Char) :
    start <+: trimChars drop (start ++ rest) := by
  obtain ⟨tail, rfl⟩ : ∃ tail, start = first :: tail := List.head?_eq_some_iff.mp begins
  obtain ⟨init, reversed⟩ : ∃ init, (first :: tail).reverse = last :: init := by
    rw [← List.head?_eq_some_iff, List.head?_reverse, ends]
  have kept : (first :: tail).reverse.dropWhile drop = (first :: tail).reverse := by
    rw [reversed, List.dropWhile_cons_of_neg (by simp [keepsLast])]
  unfold trimChars
  rw [List.cons_append, List.dropWhile_cons_of_neg (by simp [keepsFirst]), ← List.cons_append,
    List.reverse_append, List.dropWhile_append, kept]
  split
  · rw [List.reverse_reverse]
  · rw [List.reverse_append, List.reverse_reverse]
    exact List.prefix_append _ _

theorem toList_toLower (s : String) : (toLower s).toList = s.toList.map toLowerRune := by
  rw [toLower, String.toList_ofList]

/-- What is found in a trimmed text in lower case is in the text in lower case. -/
theorem infix_lower_of_trimmed {part : List Char} {s : String}
    (inside : part <:+: (toLower (trimSpace s)).toList) : part <:+: (toLower s).toList := by
  rw [toList_toLower, trimSpace, String.toList_ofList] at inside
  rw [toList_toLower]
  exact inside.trans ((infix_trimChars isSpace s.toList).map toLowerRune)

/-- A part that begins and ends with what is kept is not cut by trimming. -/
theorem infix_trimChars_of_ends {drop : Char → Bool} {part cs : List Char} {first last : Char}
    (begins : part.head? = some first) (ends : part.getLast? = some last)
    (keepsFirst : drop first = false) (keepsLast : drop last = false) (inside : part <:+: cs) :
    part <:+: trimChars drop cs := by
  obtain ⟨front, back, rfl⟩ := inside
  obtain ⟨tail, rfl⟩ : ∃ tail, part = first :: tail := List.head?_eq_some_iff.mp begins
  have kept : ∃ front', (front ++ (first :: tail) ++ back).dropWhile drop =
      front' ++ ((first :: tail) ++ back) := by
    rw [List.append_assoc, List.dropWhile_append]
    split
    · exact ⟨[], by rw [List.cons_append, List.dropWhile_cons_of_neg (by simp [keepsFirst])]; rfl⟩
    · exact ⟨_, rfl⟩
  obtain ⟨front', kept⟩ := kept
  rw [trimChars, kept, List.reverse_append]
  have start := prefix_trimChars begins ends keepsFirst keepsLast back
  rw [trimChars, List.cons_append, List.dropWhile_cons_of_neg (by simp [keepsFirst]),
    ← List.cons_append] at start
  rw [List.dropWhile_append]
  split
  next gone =>
    -- the part itself would have been cut
    rw [List.isEmpty_iff.mp gone, List.reverse_nil] at start
    cases List.prefix_nil.mp start
  · rw [List.reverse_append, List.reverse_reverse]
    exact start.isInfix.trans (List.suffix_append _ _).isInfix

/-- A character without a lower case of its own. -/
theorem toLowerRune_of_apart {c : Char}
    (apart : (c.toNat < 65 ∨ 90 < c.toNat) ∧ c.toNat ≠ 304 ∧ c.toNat ≠ 8490) :
    toLowerRune c = c := by
  have notKelvin : c ≠ '\u212a' := by rintro rfl; exact apart.2.2 rfl
  have notDotted : c ≠ '\u0130' := by rintro rfl; exact apart.2.1 rfl
  rw [toLowerRune, if_neg notKelvin, if_neg notDotted]
  delta Char.toLower
  split
  next upper =>
    have large : 65 ≤ c.toNat := UInt32.le_iff_toNat_le.mp upper.1
    have small : c.toNat ≤ 90 := UInt32.le_iff_toNat_le.mp upper.2
    omega
  · rfl

theorem toLowerRune_of_isSpace {c : Char} (space : isSpace c = true) : toLowerRune c = c := by
  apply toLowerRune_of_apart
  rcases Bool.or_eq_true_iff.mp space with listed | range
  · have all : (['\t', '\n', '\x0b', '\x0c', '\r', ' ', '\u0085', '\u00a0', '\u1680', '\u2028',
        '\u2029', '\u202f', '\u205f', '\u3000'].all fun d =>
          (d.toNat < 65 || 90 < d.toNat) && d.toNat != 304 && d.toNat != 8490) = true := by decide
    simpa [and_assoc] using List.all_eq_true.mp all c (of_decide_eq_true listed)
  · rw [Bool.and_eq_true, decide_eq_true_eq, decide_eq_true_eq] at range
    have low : 8192 ≤ c.toNat := range.1
    have high : c.toNat ≤ 8202 := range.2
    omega

/-- A phrase that begins and ends with no blank. -/
def Solid (phrase : String) : Prop :=
  phrase.toList.head?.map isSpace = some false ∧ phrase.toList.getLast?.map isSpace = some false ∧
    phrase.toList.map toLowerRune = phrase.toList

instance (phrase : String) : Decidable (Solid phrase) := inferInstanceAs (Decidable (_ ∧ _ ∧ _))

theorem contains_of_start {phrase : String} (solid : Solid phrase) (rest : String) :
    contains (toLower (trimSpace (phrase ++ rest))) phrase = true := by
  obtain ⟨starts, ends, lower⟩ := solid
  obtain ⟨first, begins, keepsFirst⟩ := Option.map_eq_some_iff.mp starts
  obtain ⟨last, closes, keepsLast⟩ := Option.map_eq_some_iff.mp ends
  have kept := prefix_trimChars begins closes keepsFirst keepsLast rest.toList
  have found := kept.isInfix.map toLowerRune
  rw [lower] at found
  rwa [contains_iff, toList_toLower, trimSpace, String.toList_ofList, String.toList_append]

/-- A phrase that is in a text in lower case stays there when the text is trimmed. -/
theorem infix_trimmed_of_lower {phrase s : String} (solid : Solid phrase)
    (inside : phrase.toList <:+: (toLower s).toList) :
    phrase.toList <:+: (toLower (trimSpace s)).toList := by
  obtain ⟨starts, ends, -⟩ := solid
  obtain ⟨first, begins, keepsFirst⟩ := Option.map_eq_some_iff.mp starts
  obtain ⟨last, closes, keepsLast⟩ := Option.map_eq_some_iff.mp ends
  have unspaced {c : Char} (kept : isSpace (toLowerRune c) = false) : isSpace c = false := by
    by_contra space
    rw [Bool.not_eq_false] at space
    rw [toLowerRune_of_isSpace space, space] at kept
    cases kept
  rw [toList_toLower] at inside ⊢
  obtain ⟨part, within, lowered⟩ := List.infix_map_iff.mp inside
  rw [lowered, List.head?_map] at begins
  rw [lowered, List.getLast?_map] at closes
  obtain ⟨first', begins', rfl⟩ := Option.map_eq_some_iff.mp begins
  obtain ⟨last', closes', rfl⟩ := Option.map_eq_some_iff.mp closes
  rw [lowered, trimSpace, String.toList_ofList]
  exact (infix_trimChars_of_ends begins' closes' (unspaced keepsFirst) (unspaced keepsLast)
    within).map toLowerRune

/-! ### The arms of the switch -/

/-- The phrases of the arms before that of a code. -/
def earlierPhrases (code : FailureCode) : List String :=
  (failurePatterns.takeWhile (·.code != code)).flatMap (·.phrases)

/-- The phrases of the first arm of a code. -/
def ownPhrases (code : FailureCode) : List String :=
  match failurePatterns.dropWhile (·.code != code) with
  | [] => []
  | pattern :: _ => pattern.phrases

/-- A text with a phrase of an arm gets the code of that arm exactly if it has none of an
earlier one: the arms between are of other codes. -/
theorem classifyIndexFailure_failed (code : FailureCode) {detail phrase : String}
    (own : phrase ∈ ownPhrases code) (found : contains (toLower (trimSpace detail)) phrase = true) :
    classifyIndexFailure .failed detail = code.diagnostic ↔
      ∀ earlier ∈ earlierPhrases code, contains (toLower (trimSpace detail)) earlier = false := by
  unfold ownPhrases at own
  cases arm : failurePatterns.dropWhile (·.code != code) with
  | nil =>
    rw [arm] at own
    exact absurd own List.not_mem_nil
  | cons pattern later =>
    rw [arm] at own
    have same : pattern.code = code := by
      have stopped := List.head?_dropWhile_not (·.code != code) failurePatterns
      rw [arm] at stopped
      simpa using stopped
    have arms : failurePatterns = failurePatterns.takeWhile (·.code != code) ++ pattern :: later := by
      rw [← arm, List.takeWhile_append_dropWhile]
    have hit : pattern.phrases.any (contains (toLower (trimSpace detail))) = true :=
      List.any_eq_true.mpr ⟨phrase, own, found⟩
    unfold classifyIndexFailure
    dsimp only
    rw [arms, List.find?_append, List.find?_cons_of_pos (by rw [hit]; rfl)]
    constructor
    · intro diagnosed
      cases first : (failurePatterns.takeWhile (·.code != code)).find? (fun pattern =>
          pattern.phrases.any (contains (toLower (trimSpace detail))) ||
            (pattern.code == .heartbeatTimeout && JobStatus.failed == .timedOut)) with
      | some before =>
        -- the arm that was taken has another code
        rw [first] at diagnosed
        have taken := List.mem_of_find?_eq_some first
        have other := List.mem_takeWhile_imp taken
        exact absurd (FailureCode.diagnostic_injective diagnosed) (bne_iff_ne.mp other)
      | none =>
        intro earlier listed
        obtain ⟨before, member, inside⟩ := List.mem_flatMap.mp listed
        have missed := List.find?_eq_none.mp first before member
        rw [Bool.not_eq_true, Bool.or_eq_false_iff, List.any_eq_false] at missed
        exact Bool.eq_false_of_not_eq_true (missed.1 earlier inside)
    · intro earlier
      rw [List.find?_eq_none.mpr ?_, Option.none_or, ← same]
      · rfl
      · intro before member
        have missed : before.phrases.any (contains (toLower (trimSpace detail))) = false := by
          rw [List.any_eq_false]
          intro phrase listed
          rw [Bool.not_eq_true]
          exact earlier phrase (List.mem_flatMap.mpr ⟨before, member, listed⟩)
        simp [missed]

/-! ### Numbers in a text -/

/-- A character of a number. -/
def numeral (c : Char) : Bool := c.isDigit || c == '-'

theorem toLowerRune_of_numeral {c : Char} (number : numeral c = true) : toLowerRune c = c := by
  have small : c.toNat ≤ 57 := by
    rcases Bool.or_eq_true_iff.mp number with digit | sign
    · exact (Char.isDigit_iff_toNat.mp digit).2
    · rw [eq_of_beq sign]
      decide
  exact toLowerRune_of_apart (by omega)

def firstRun (phrase : List Char) : List Char := phrase.takeWhile (!numeral ·)

def lastRun (phrase : List Char) : List Char := (phrase.reverse.takeWhile (!numeral ·)).reverse

/-- What a phrase begins or ends with, up to a number, is in none of the pieces. -/
def Foreign (pieces : List (List Char)) (phrase : List Char) : Prop :=
  (∀ piece ∈ pieces, ¬ firstRun phrase <:+: piece) ∨ ∀ piece ∈ pieces, ¬ lastRun phrase <:+: piece

instance (pieces : List (List Char)) (phrase : List Char) : Decidable (Foreign pieces phrase) :=
  inferInstanceAs (Decidable (_ ∨ _))

theorem not_infix_of_run {run phrase first : List Char} {rest : List (List Char × List Char)}
    (part : run <:+: phrase) (plain : ∀ c ∈ run, numeral c = false)
    (numbers : ∀ pair ∈ rest, pair.1 ≠ [] ∧ ∀ c ∈ pair.1, numeral c = true)
    (missing : ∀ piece ∈ first :: rest.map (·.2), ¬ run <:+: piece) :
    ¬ phrase <:+: Wire.spread first rest := by
  intro inside
  have apart : ∀ pair ∈ rest, pair.1 ≠ [] ∧ ∀ c ∈ pair.1, c ∉ run := by
    intro pair member
    refine ⟨(numbers pair member).1, fun c inGap inRun => ?_⟩
    have number := (numbers pair member).2 c inGap
    rw [plain c inRun] at number
    cases number
  rcases Wire.infix_spread apart (part.trans inside) with here | ⟨pair, member, here⟩
  · exact missing first List.mem_cons_self here
  · exact missing pair.2 (List.mem_cons_of_mem _ (List.mem_map_of_mem member)) here

theorem not_infix_of_foreign {phrase first : List Char} {rest : List (List Char × List Char)}
    (numbers : ∀ pair ∈ rest, pair.1 ≠ [] ∧ ∀ c ∈ pair.1, numeral c = true)
    (foreign : Foreign (first :: rest.map (·.2)) phrase) : ¬ phrase <:+: Wire.spread first rest := by
  have plain {text : List Char} {c : Char} (member : c ∈ text.takeWhile (!numeral ·)) :
      numeral c = false := by simpa using List.mem_takeWhile_imp member
  rcases foreign with missing | missing
  · exact not_infix_of_run (List.takeWhile_prefix _).isInfix (fun _ => plain) numbers missing
  · refine not_infix_of_run ?_ (fun c member => plain (List.mem_reverse.mp member)) numbers missing
    have reversed := List.reverse_suffix.mpr (List.takeWhile_prefix (!numeral ·) (l := phrase.reverse))
    rw [List.reverse_reverse] at reversed
    exact reversed.isInfix

/-! ### The texts -/

def quotaRefusalText (used limit remaining : Int) (retryAfter : Nat) : String :=
  "daily index quota exceeded (used=" ++ toString used ++ ", limit=" ++ toString limit ++
    ", remaining=" ++ toString remaining ++ " bytes); retry after " ++ toString retryAfter ++ " seconds"

def fileSizeText (limit : Nat) (path : String) : String :=
  "file exceeds the " ++ toString limit ++ " byte limit: " ++ path

def manifestSizeText (path : String) : String := "manifest file size is invalid: " ++ path

def manifestCountText (count : Nat) : String := "manifest exceeds " ++ toString count ++ " files"

def unreadableCountText (count : Nat) : String :=
  "unreadable file list exceeds " ++ toString count ++ " files"

theorem toString_int_numeral (n : Int) :
    (toString n).toList ≠ [] ∧ ∀ c ∈ (toString n).toList, numeral c = true := by
  constructor
  · cases n with
    | ofNat m => exact Nat.toList_repr ▸ Nat.toDigits_ne_nil
    | negSucc m => rw [toList_toString_negSucc]; exact List.cons_ne_nil _ _
  · intro c member
    rcases mem_toString_int member with rfl | digit
    · rfl
    · exact Bool.or_eq_true_iff.mpr (.inl digit)

theorem toString_nat_numeral (n : Nat) :
    (toString n).toList ≠ [] ∧ ∀ c ∈ (toString n).toList, numeral c = true :=
  toString_int_numeral (Int.ofNat n)

theorem map_toLowerRune_of_numeral {number : List Char} (numbers : ∀ c ∈ number, numeral c = true) :
    number.map toLowerRune = number := by
  have same : number.map toLowerRune = number.map id :=
    List.map_congr_left fun c member => toLowerRune_of_numeral (numbers c member)
  rw [same, List.map_id]

/-- In a text of pieces and numbers, whose pieces are in lower case, there is no phrase that is
foreign to the pieces. -/
theorem not_infix_lower {text : String} {first : List Char} {rest : List (List Char × List Char)}
    (parts : text.toList = Wire.spread first rest)
    (numbers : ∀ pair ∈ rest, pair.1 ≠ [] ∧ ∀ c ∈ pair.1, numeral c = true)
    (lower : ∀ piece ∈ first :: rest.map (·.2), piece.map toLowerRune = piece) {phrase : List Char}
    (foreign : Foreign (first :: rest.map (·.2)) phrase) : ¬ phrase <:+: (toLower text).toList := by
  rw [toList_toLower, parts, Wire.map_spread_eq_self lower fun pair member =>
    map_toLowerRune_of_numeral (numbers pair member).2]
  exact not_infix_of_foreign numbers foreign

theorem toList_oneNumber (first number last : String) :
    (first ++ number ++ last).toList = Wire.spread first.toList [(number.toList, last.toList)] := by
  rw [String.toList_append, String.toList_append, List.append_assoc]
  rfl

theorem toList_fourNumbers (a n b m c k d l e : String) :
    (a ++ n ++ b ++ m ++ c ++ k ++ d ++ l ++ e).toList =
      Wire.spread a.toList [(n.toList, b.toList), (m.toList, c.toList), (k.toList, d.toList),
        (l.toList, e.toList)] := by
  simp only [String.toList_append, List.append_assoc]
  rfl

/-! ### Too many files -/

/-- A text with one number. The first piece begins with a phrase of the arm, and no piece
holds one of an earlier arm. -/
theorem classify_oneNumber (code : FailureCode) (phrase rest last : String) (number : Nat)
    (foreign : ∀ earlier ∈ earlierPhrases code,
      Foreign [(phrase ++ rest).toList, last.toList] earlier.toList)
    (lower : ∀ piece ∈ [(phrase ++ rest).toList, last.toList], piece.map toLowerRune = piece)
    (own : phrase ∈ ownPhrases code) (solid : Solid phrase) :
    classifyIndexFailure .failed (phrase ++ rest ++ toString number ++ last) = code.diagnostic := by
  have found : contains (toLower (trimSpace (phrase ++ rest ++ toString number ++ last))) phrase =
      true := by
    rw [String.append_assoc, String.append_assoc]
    exact contains_of_start solid _
  refine (classifyIndexFailure_failed code own found).mpr fun earlier listed => ?_
  rw [contains_eq_false_iff]
  intro inside
  exact not_infix_lower (toList_oneNumber (phrase ++ rest) (toString number) last)
    (List.forall_mem_singleton.mpr (toString_nat_numeral number)) lower (foreign earlier listed)
    (infix_lower_of_trimmed inside)

theorem classify_manifestCountText (count : Nat) :
    classifyIndexFailure .failed (manifestCountText count) =
      FailureCode.repositoryFileLimit.diagnostic :=
  classify_oneNumber .repositoryFileLimit "manifest exceeds" " " " files" count
    (by decide +kernel) (by decide +kernel) (by decide +kernel) (by decide +kernel)

theorem classify_unreadableCountText (count : Nat) :
    classifyIndexFailure .failed (unreadableCountText count) =
      FailureCode.repositoryFileLimit.diagnostic :=
  classify_oneNumber .repositoryFileLimit "unreadable file list exceeds" " " " files" count
    (by decide +kernel) (by decide +kernel) (by decide +kernel) (by decide +kernel)

/-! ### Too large a file -/

/-- No phrase of an arm before that of a code is in the path. -/
def PathClear (code : FailureCode) (path : String) : Prop :=
  ∀ phrase ∈ earlierPhrases code, contains (toLower path) phrase = false

instance (code : FailureCode) (path : String) : Decidable (PathClear code path) :=
  inferInstanceAs (Decidable (∀ phrase ∈ _, _))

/-- In a text that ends with a path, behind a colon and a blank, a phrase without a colon that
begins with no blank is in front of the colon or in the path. -/
theorem infix_before_or_path {text path phrase : String} (noColon : ':' ∉ phrase.toList)
    (noBlank : phrase.toList.head? ≠ some ' ')
    (inside : phrase.toList <:+: (toLower (trimSpace (text ++ ": " ++ path))).toList) :
    phrase.toList <:+: (toLower text).toList ∨ phrase.toList <:+: (toLower path).toList := by
  have within := infix_lower_of_trimmed inside
  have parts : (toLower (text ++ ": " ++ path)).toList =
      (toLower text).toList ++ ':' :: (' ' :: (toLower path).toList) := by
    simp only [toList_toLower, String.toList_append, List.map_append, List.append_assoc]
    rfl
  rw [parts] at within
  rcases Wire.infix_of_not_mem noColon within with before | behind
  · exact .inl before
  · rcases List.infix_cons_iff.mp behind with start | later
    · cases chars : phrase.toList with
      | nil => exact .inl (List.nil_infix)
      | cons c cs =>
        rw [chars] at start noBlank
        have first := (List.cons_prefix_cons.mp start).1
        exact absurd (congrArg some first) noBlank
    · exact .inr later

/-- A text that begins with a phrase of the arm and names a path, where no phrase of an earlier
arm is in front of the colon: it is the path that decides. -/
theorem classify_path (code : FailureCode) (phrase rest path : String)
    (own : phrase ∈ ownPhrases code) (solid : Solid phrase)
    (shape : ∀ earlier ∈ earlierPhrases code,
      ':' ∉ earlier.toList ∧ earlier.toList.head? ≠ some ' ' ∧ Solid earlier)
    (front : ∀ earlier ∈ earlierPhrases code,
      ¬ earlier.toList <:+: (toLower (phrase ++ rest)).toList) :
    classifyIndexFailure .failed (phrase ++ rest ++ ": " ++ path) = code.diagnostic ↔
      PathClear code path := by
  have found : contains (toLower (trimSpace (phrase ++ rest ++ ": " ++ path))) phrase = true := by
    rw [String.append_assoc, String.append_assoc]
    exact contains_of_start solid _
  rw [classifyIndexFailure_failed code own found]
  refine forall₂_congr fun earlier listed => ?_
  rw [contains_eq_false_iff, contains_eq_false_iff, not_iff_not]
  obtain ⟨noColon, noBlank, solid⟩ := shape earlier listed
  constructor
  · intro inside
    rcases infix_before_or_path noColon noBlank inside with before | named
    · exact absurd before (front earlier listed)
    · exact named
  · intro named
    apply infix_trimmed_of_lower solid
    refine named.trans ?_
    rw [toList_toLower, toList_toLower, String.toList_append, List.map_append]
    exact (List.suffix_append _ _).isInfix

theorem sizePhrases_shape : ∀ earlier ∈ earlierPhrases .repositoryFileSizeLimit,
    ':' ∉ earlier.toList ∧ earlier.toList.head? ≠ some ' ' ∧ Solid earlier := by
  decide +kernel

theorem fileSizeText_eq (limit : Nat) (path : String) :
    fileSizeText limit path =
      "file exceeds the" ++ (" " ++ toString limit ++ " byte limit") ++ ": " ++ path := by
  have parts (phrase blank number unit colon path : String) :
      phrase ++ blank ++ number ++ (unit ++ colon) ++ path =
        phrase ++ (blank ++ number ++ unit) ++ colon ++ path := by
    simp only [String.append_assoc]
  exact parts "file exceeds the" " " (toString limit) " byte limit" ": " path

theorem classify_fileSizeText (limit : Nat) (path : String) :
    classifyIndexFailure .failed (fileSizeText limit path) =
      FailureCode.repositoryFileSizeLimit.diagnostic ↔ PathClear .repositoryFileSizeLimit path := by
  have foreign : ∀ earlier ∈ earlierPhrases .repositoryFileSizeLimit,
      Foreign [("file exceeds the" ++ " ").toList, " byte limit".toList] earlier.toList := by
    decide +kernel
  have lower : ∀ piece ∈ [("file exceeds the" ++ " ").toList, " byte limit".toList],
      piece.map toLowerRune = piece := by decide
  rw [fileSizeText_eq]
  refine classify_path .repositoryFileSizeLimit "file exceeds the" _ path (by decide) (by decide)
    sizePhrases_shape fun earlier listed => ?_
  rw [← String.append_assoc, ← String.append_assoc]
  exact not_infix_lower (toList_oneNumber _ (toString limit) _)
    (List.forall_mem_singleton.mpr (toString_nat_numeral limit)) lower (foreign earlier listed)

theorem classify_manifestSizeText (path : String) :
    classifyIndexFailure .failed (manifestSizeText path) =
      FailureCode.repositoryFileSizeLimit.diagnostic ↔ PathClear .repositoryFileSizeLimit path := by
  have front : ∀ earlier ∈ earlierPhrases .repositoryFileSizeLimit,
      ¬ earlier.toList <:+: (toLower ("manifest file size is invalid" ++ "")).toList := by
    decide +kernel
  exact classify_path .repositoryFileSizeLimit "manifest file size is invalid" "" path (by decide)
    (by decide) sizePhrases_shape front

/-! ### The quota of indexed bytes -/

/-- The size limit of a file is in none of the numbers. -/
def NumbersClear (used limit remaining : Int) (retryAfter : Nat) : Prop :=
  ∀ number ∈ [toString used, toString limit, toString remaining, toString retryAfter],
    contains number "524288" = false

/-- With the roles exchanged: a part that has no character of the pieces is in a number. -/
theorem infix_number {part : List Char} {a n b m c k d l e : String} (notEmpty : part ≠ [])
    (gaps : ∀ piece ∈ [a, b, c, d, e], piece.toList ≠ [] ∧ ∀ x ∈ piece.toList, x ∉ part) :
    part <:+: (a ++ n ++ b ++ m ++ c ++ k ++ d ++ l ++ e).toList ↔
      ∃ number ∈ [n, m, k, l], part <:+: number.toList := by
  constructor
  · intro inside
    have parts : (a ++ n ++ b ++ m ++ c ++ k ++ d ++ l ++ e).toList =
        Wire.spread [] [(a.toList, n.toList), (b.toList, m.toList), (c.toList, k.toList),
          (d.toList, l.toList), (e.toList, [])] := by
      simp only [String.toList_append, List.append_assoc, Wire.spread, List.append_nil,
        List.nil_append]
    have nowhere : ¬ part <:+: [] := fun nothing => notEmpty (List.infix_nil.mp nothing)
    simp only [List.forall_mem_cons] at gaps
    obtain ⟨gapA, gapB, gapC, gapD, gapE, -⟩ := gaps
    have apart : ∀ pair ∈ [(a.toList, n.toList), (b.toList, m.toList), (c.toList, k.toList),
        (d.toList, l.toList), (e.toList, [])], pair.1 ≠ [] ∧ ∀ x ∈ pair.1, x ∉ part := by
      simp only [List.forall_mem_cons]
      exact ⟨gapA, gapB, gapC, gapD, gapE, List.forall_mem_nil _⟩
    rw [parts] at inside
    rcases Wire.infix_spread apart inside with nothing | ⟨pair, member, found⟩
    · exact absurd nothing nowhere
    · simp only [List.mem_cons, List.not_mem_nil, or_false] at member
      rcases member with rfl | rfl | rfl | rfl | rfl
      · exact ⟨n, by simp, found⟩
      · exact ⟨m, by simp, found⟩
      · exact ⟨k, by simp, found⟩
      · exact ⟨l, by simp, found⟩
      · exact absurd found nowhere
  · rintro ⟨number, member, found⟩
    refine found.trans ?_
    simp only [String.toList_append]
    simp only [List.mem_cons, List.not_mem_nil, or_false] at member
    rcases member with rfl | rfl | rfl | rfl
    · exact ⟨a.toList, b.toList ++ m.toList ++ c.toList ++ k.toList ++ d.toList ++ l.toList ++
        e.toList, by simp only [List.append_assoc]⟩
    · exact ⟨a.toList ++ n.toList ++ b.toList, c.toList ++ k.toList ++ d.toList ++ l.toList ++
        e.toList, by simp only [List.append_assoc]⟩
    · exact ⟨a.toList ++ n.toList ++ b.toList ++ m.toList ++ c.toList, d.toList ++ l.toList ++
        e.toList, by simp only [List.append_assoc]⟩
    · exact ⟨a.toList ++ n.toList ++ b.toList ++ m.toList ++ c.toList ++ k.toList ++ d.toList,
        e.toList, by simp only [List.append_assoc]⟩

/-- A text with four numbers. The first piece begins with a phrase of the arm, and the phrases
of earlier arms are foreign to the pieces, but for one that is all digits: the numbers decide. -/
theorem classify_fourNumbers (code : FailureCode) (phrase rest b c d e digits : String) (n m k : Int)
    (l : Nat)
    (foreign : ∀ earlier ∈ earlierPhrases code, earlier = digits ∨
      Foreign [(phrase ++ rest).toList, b.toList, c.toList, d.toList, e.toList] earlier.toList)
    (lower : ∀ piece ∈ [(phrase ++ rest).toList, b.toList, c.toList, d.toList, e.toList],
      piece.map toLowerRune = piece)
    (own : phrase ∈ ownPhrases code) (solid : Solid phrase) (notEmpty : digits.toList ≠ [])
    (listed : digits ∈ earlierPhrases code) (tight : Solid digits)
    (gaps : ∀ piece ∈ [phrase ++ rest, b, c, d, e],
      piece.toList ≠ [] ∧ piece.toList.all (· ∉ digits.toList) = true) :
    classifyIndexFailure .failed (phrase ++ rest ++ toString n ++ b ++ toString m ++ c ++ toString k ++
      d ++ toString l ++ e) = code.diagnostic ↔
      ∀ number ∈ [toString n, toString m, toString k, toString l],
        contains number digits = false := by
  have apart : ∀ piece ∈ [phrase ++ rest, b, c, d, e],
      piece.toList ≠ [] ∧ ∀ x ∈ piece.toList, x ∉ digits.toList := fun piece listed =>
    ⟨(gaps piece listed).1, List.all_iff_forall_prop.mp (gaps piece listed).2⟩
  have parts := toList_fourNumbers (phrase ++ rest) (toString n) b (toString m) c (toString k) d
    (toString l) e
  have numbers : ∀ pair ∈ [((toString n).toList, b.toList), ((toString m).toList, c.toList),
      ((toString k).toList, d.toList), ((toString l).toList, e.toList)],
      pair.1 ≠ [] ∧ ∀ x ∈ pair.1, numeral x = true := by
    simp only [List.forall_mem_cons]
    exact ⟨toString_int_numeral n, toString_int_numeral m, toString_int_numeral k,
      toString_nat_numeral l, List.forall_mem_nil _⟩
  generalize text : phrase ++ rest ++ toString n ++ b ++ toString m ++ c ++ toString k ++ d ++
    toString l ++ e = detail at parts ⊢
  have found : contains (toLower (trimSpace detail)) phrase = true := by
    rw [← text]
    simp only [String.append_assoc]
    exact contains_of_start solid _
  have lowered : (toLower detail).toList = detail.toList := by
    rw [toList_toLower, parts, Wire.map_spread_eq_self lower fun pair member =>
      map_toLowerRune_of_numeral (numbers pair member).2]
  have held := infix_number notEmpty apart (n := toString n) (m := toString m) (k := toString k)
    (l := toString l)
  rw [text] at held
  rw [classifyIndexFailure_failed code own found]
  constructor
  · intro clear number member
    rw [contains_eq_false_iff]
    intro inside
    refine contains_eq_false_iff.mp (clear digits listed) (infix_trimmed_of_lower tight ?_)
    rw [lowered]
    exact held.mpr ⟨number, member, inside⟩
  · intro clear earlier listed
    rw [contains_eq_false_iff]
    intro inside
    have within := infix_lower_of_trimmed inside
    rcases foreign earlier listed with rfl | missing
    · rw [lowered] at within
      obtain ⟨number, member, found⟩ := held.mp within
      exact contains_eq_false_iff.mp (clear number member) found
    · exact not_infix_lower parts numbers lower missing within

theorem classify_quotaRefusalText (used limit remaining : Int) (retryAfter : Nat) :
    classifyIndexFailure .failed (quotaRefusalText used limit remaining retryAfter) =
      FailureCode.indexQuotaExceeded.diagnostic ↔ NumbersClear used limit remaining retryAfter :=
  classify_fourNumbers .indexQuotaExceeded "daily index quota exceeded" " (used=" ", limit="
    ", remaining=" " bytes); retry after " " seconds" "524288" used limit remaining retryAfter
    (by decide +kernel) (by decide +kernel) (by decide +kernel) (by decide +kernel)
    (by decide +kernel) (by decide +kernel) (by decide +kernel) (by decide +kernel)

/-! ### Where the texts come from -/

/-- `quotaRetryAfterHeader` as a number. -/
def retryAfterSeconds (config : QuotaConfig) (now : Nat) : Nat :=
  max ((dayLength - (now + config.zoneOffset) % dayLength + 999) / 1000) 1

theorem admitQuota_refused {config : QuotaConfig} {now : Nat} {quota : IndexQuotaDecision}
    (available : quota.unavailable = false) (refused : quota.allowed = false) :
    admitQuota config now quota = .error (quotaRefusalText quota.used quota.limit
      (max (quota.limit - quota.used) 0) (retryAfterSeconds config now)) := by
  simp only [admitQuota, available, refused, Bool.false_eq_true, if_false, Bool.not_false, if_true]
  rfl

theorem batchBytes_error {total : Nat} {files : List ManifestFile} {text : String}
    (refused : batchBytes total files = .error text) :
    ∃ file ∈ files, text = fileSizeText maxIndexFileBytes file.path := by
  induction files generalizing total with
  | nil => cases refused
  | cons file rest ih =>
    rw [batchBytes] at refused
    split at refused
    · cases refused
      exact ⟨file, List.mem_cons_self, rfl⟩
    · obtain ⟨other, member, same⟩ := ih refused
      exact ⟨other, List.mem_cons_of_mem _ member, same⟩

theorem normalizeManifest_tooLong {files : List ManifestFile}
    (long : maxIndexManifestFiles < files.length) :
    normalizeManifest files = .error (manifestCountText maxIndexManifestFiles) := by
  rw [normalizeManifest, if_pos long]
  rfl

theorem validateMCPManifestFile_size {file : MCPIndexManifestFile} {path : String}
    (named : validateIndexSourcePath file.path = .ok path)
    (hashed : sha256Pattern (trimSpace file.hash) = true)
    (invalid : file.size < 1 ∨ (maxIndexFileBytes : Int) < file.size) :
    validateMCPManifestFile file = .error (manifestSizeText path) := by
  unfold validateMCPManifestFile
  rw [named]
  simp only [bind, Except.bind, Store.refuse, hashed, Bool.true_eq_false, if_false, if_pos invalid]
  rfl

theorem graftUnreadablePaths_tooLong (previous files : List ManifestFile) {unreadable : List String}
    (long : maxIndexManifestFiles < unreadable.length) :
    graftUnreadablePaths previous files unreadable =
      .error (unreadableCountText maxIndexManifestFiles) := by
  have some : unreadable ≠ [] := by
    rintro rfl
    exact absurd long (Nat.not_lt_zero _)
  rw [graftUnreadablePaths, if_neg some, if_pos long]
  rfl

/-! ### What the limits are diagnosed as -/

theorem limit_errors_diagnosed (used limit remaining : Int) (retryAfter size count : Nat)
    (path : String) :
    (classifyIndexFailure .failed (quotaRefusalText used limit remaining retryAfter) =
        FailureCode.indexQuotaExceeded.diagnostic ↔
      NumbersClear used limit remaining retryAfter) ∧
    (classifyIndexFailure .failed (fileSizeText size path) =
        FailureCode.repositoryFileSizeLimit.diagnostic ↔
      PathClear .repositoryFileSizeLimit path) ∧
    (classifyIndexFailure .failed (manifestSizeText path) =
        FailureCode.repositoryFileSizeLimit.diagnostic ↔
      PathClear .repositoryFileSizeLimit path) ∧
    (classifyIndexFailure .failed (manifestCountText count) =
        FailureCode.repositoryFileLimit.diagnostic ∧
      classifyIndexFailure .failed (unreadableCountText count) =
        FailureCode.repositoryFileLimit.diagnostic) ∧
    -- these are the texts of the code
    (∀ config now quota, quota.unavailable = false → quota.allowed = false →
      admitQuota config now quota = .error (quotaRefusalText quota.used quota.limit
        (max (quota.limit - quota.used) 0) (retryAfterSeconds config now))) ∧
    (∀ total files text, batchBytes total files = .error text →
      ∃ file ∈ files, text = fileSizeText maxIndexFileBytes file.path) ∧
    (∀ file path, validateIndexSourcePath file.path = .ok path →
      sha256Pattern (trimSpace file.hash) = true →
      (file.size < 1 ∨ (maxIndexFileBytes : Int) < file.size) →
      validateMCPManifestFile file = .error (manifestSizeText path)) ∧
    (∀ files : List ManifestFile, maxIndexManifestFiles < files.length →
      normalizeManifest files = .error (manifestCountText maxIndexManifestFiles)) ∧
    ∀ previous files unreadable, maxIndexManifestFiles < unreadable.length →
      graftUnreadablePaths previous files unreadable =
        .error (unreadableCountText maxIndexManifestFiles) :=
  ⟨classify_quotaRefusalText used limit remaining retryAfter, classify_fileSizeText size path,
    classify_manifestSizeText path,
    ⟨classify_manifestCountText count, classify_unreadableCountText count⟩,
    fun _ _ _ available refused => admitQuota_refused available refused,
    fun _ _ _ refused => batchBytes_error refused,
    fun _ _ named hashed invalid => validateMCPManifestFile_size named hashed invalid,
    fun _ long => normalizeManifest_tooLong long,
    fun previous files _ long => graftUnreadablePaths_tooLong previous files long⟩

theorem limit_errors_diagnosed_clear :
    classifyIndexFailure .failed (quotaRefusalText 2147483648 2147483648 0 86400) =
      FailureCode.indexQuotaExceeded.diagnostic ∧
    classifyIndexFailure .failed (fileSizeText maxIndexFileBytes "generated/Data.json") =
      FailureCode.repositoryFileSizeLimit.diagnostic := by
  obtain ⟨quota, size, _⟩ := limit_errors_diagnosed 2147483648 2147483648 0 86400
    maxIndexFileBytes 0 "generated/Data.json"
  have numbers : NumbersClear 2147483648 2147483648 0 86400 := by unfold NumbersClear; decide +kernel
  have path : PathClear .repositoryFileSizeLimit "generated/Data.json" := by decide +kernel
  exact ⟨quota.mpr numbers, size.mpr path⟩

/-- A quota of five mebibytes is read as a file that is too large, a file about billing as a
bill that is not paid. -/
theorem limit_errors_misdiagnosed :
    admitQuota ⟨0, 0, 0, 0, 0⟩ 0 { allowed := false, used := 5242880, limit := 5242880 } =
      .error (quotaRefusalText 5242880 5242880 0 86400) ∧
    classifyIndexFailure .failed (quotaRefusalText 5242880 5242880 0 86400) =
      FailureCode.repositoryFileSizeLimit.diagnostic ∧
    classifyIndexFailure .failed (fileSizeText maxIndexFileBytes "src/billing/main.go") =
      FailureCode.providerBilling.diagnostic := by
  decide +kernel

end AcemcpRelay
