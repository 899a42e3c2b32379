import AcemcpRelay.Jobs.Close

/-!
# Truncating a text to a number of bytes

`truncateUTF8` over the bytes of a Go string. Its loop steps back from the
limit to a byte that starts a rune, over at most `utf8.UTFMax` bytes. In valid
UTF-8 the bytes that start a rune are exactly the ends of valid prefixes, and
the next rune after the longest prefix that fits has at most four bytes, so the
loop ends at that prefix. This is what the model over characters computes.
-/
namespace AcemcpRelay

/-- Go's `utf8.RuneStart`. -/
def runeStart (b : UInt8) : Bool := b &&& 0xC0 != 0x80

/-- The loop of `truncateUTF8` from `cut` downwards; no result is an index outside `s`. -/
def truncateLoop (s : ByteArray) (maxBytes : Int) : Nat → Option Nat
  | 0 => some 0
  | cut + 1 =>
    if (cut + 1 : Nat) > maxBytes - 4 then
      match s[cut + 1]? with
      | none => none
      | some b => if runeStart b then some (cut + 1) else truncateLoop s maxBytes cut
    else some (cut + 1)

/-- `truncateUTF8` over bytes. -/
def truncateUTF8Bytes (s : ByteArray) (maxBytes : Int) : Option ByteArray :=
  if maxBytes ≤ 0 then some ByteArray.empty
  else if (s.size : Int) ≤ maxBytes then some s
  else (truncateLoop s maxBytes maxBytes.toNat).map fun cut => s.extract 0 cut

/-- What `failIndexJob` does with the trimmed error text. -/
def boundedFailureBytes (failure : ByteArray) : Option ByteArray :=
  if failure.size > 2000 then truncateUTF8Bytes failure 2000 else some failure

/-! ## The characters that fit -/

theorem takeBytes_isPrefix (budget : Nat) (cs : List Char) : takeBytes budget cs <+: cs := by
  induction cs generalizing budget with
  | nil => exact List.nil_prefix
  | cons c cs ih =>
    simp only [takeBytes]
    split
    · exact (List.prefix_cons_inj c).mpr (ih _)
    · exact List.nil_prefix

theorem takeBytes_bound (budget : Nat) (cs : List Char) :
    String.utf8Len (takeBytes budget cs) ≤ budget := by
  induction cs generalizing budget with
  | nil => exact Nat.zero_le _
  | cons c cs ih =>
    simp only [takeBytes]
    split
    next fits =>
      have rest := ih (budget - c.utf8Size)
      simp only [String.utf8Len]
      omega
    · exact Nat.zero_le _

/-- Every prefix within the budget is a prefix of the characters taken. -/
theorem takeBytes_greatest (budget : Nat) (cs part : List Char) (start : part <+: cs)
    (fits : String.utf8Len part ≤ budget) : part <+: takeBytes budget cs := by
  induction cs generalizing budget part with
  | nil => exact start
  | cons c cs ih =>
    cases part with
    | nil => exact List.nil_prefix
    | cons first part =>
      obtain ⟨rfl, rest⟩ := List.cons_prefix_cons.mp start
      simp only [String.utf8Len] at fits
      have room : first.utf8Size ≤ budget := by omega
      simp only [takeBytes, room, if_true]
      exact (List.prefix_cons_inj first).mpr (ih _ part rest (by omega))

/-- A character that did not fit leaves less than its own width. -/
theorem takeBytes_slack (budget : Nat) (cs : List Char) (exceeds : budget < String.utf8Len cs) :
    budget < String.utf8Len (takeBytes budget cs) + 4 := by
  induction cs generalizing budget with
  | nil => exact absurd exceeds (Nat.not_lt_zero _)
  | cons c cs ih =>
    simp only [String.utf8Len] at exceeds
    simp only [takeBytes]
    split
    next fits =>
      have rest := ih (budget - c.utf8Size) (by omega)
      simp only [String.utf8Len]
      omega
    next wide =>
      have width := Char.utf8Size_le_four c
      omega

/-! ## The bytes of a valid text -/

/-- Every byte after the first of an encoded character is `n % 64 + 128`. -/
theorem runeStart_tail_utf8EncodeChar (c : Char) (b : UInt8)
    (mem : b ∈ (String.utf8EncodeChar c).tail) : runeStart b = false := by
  have marked : ∀ n < 64, runeStart (UInt8.ofNat (n + 128)) = false := by decide +kernel
  have later (n : Nat) : runeStart (UInt8.ofNat (n % 64 + 128)) = false :=
    marked _ (Nat.mod_lt n (by decide))
  unfold String.utf8EncodeChar at mem
  dsimp only at mem
  split at mem
  · cases mem
  split at mem
  · obtain rfl := List.mem_singleton.mp mem
    exact later _
  split at mem
  · simp only [List.tail_cons, List.mem_cons, List.not_mem_nil, or_false] at mem
    obtain rfl | rfl := mem <;> exact later _
  · simp only [List.tail_cons, List.mem_cons, List.not_mem_nil, or_false] at mem
    obtain rfl | rfl | rfl := mem <;> exact later _

/-- A byte of an encoded character starts it or is marked as a continuation. -/
theorem mem_utf8EncodeChar (c : Char) (b : UInt8) (mem : b ∈ String.utf8EncodeChar c) :
    b.IsUTF8FirstByte ∨ runeStart b = false := by
  obtain ⟨i, inside, rfl⟩ := List.getElem_of_mem mem
  cases i with
  | zero => exact .inl (UInt8.isUTF8FirstByte_getElem_utf8EncodeChar.mpr rfl)
  | succ j =>
    right
    have short : j < (String.utf8EncodeChar c).tail.length := by
      rw [List.length_tail]
      omega
    have moved : (String.utf8EncodeChar c)[j + 1] ∈ (String.utf8EncodeChar c).tail := by
      rw [← List.getElem_tail short]
      exact List.getElem_mem short
    exact runeStart_tail_utf8EncodeChar c _ moved

theorem mem_toByteArray (s : String) (b : UInt8) (mem : b ∈ s.toByteArray.data) :
    b.IsUTF8FirstByte ∨ runeStart b = false := by
  rw [← String.utf8Encode_toList, List.utf8Encode, List.data_toByteArray] at mem
  obtain ⟨c, -, found⟩ := List.mem_flatMap.mp (by simpa using mem)
  exact mem_utf8EncodeChar c b found

theorem runeStart_of_isUTF8FirstByte (b : UInt8) (first : b.IsUTF8FirstByte) :
    runeStart b = true := by
  revert first
  unfold UInt8.IsUTF8FirstByte runeStart
  have all : ∀ n < 256, (UInt8.ofNat n &&& 0x80 = 0 ∨ UInt8.ofNat n &&& 0xe0 = 0xc0 ∨
      UInt8.ofNat n &&& 0xf0 = 0xe0 ∨ UInt8.ofNat n &&& 0xf8 = 0xf0) →
      (UInt8.ofNat n &&& 0xC0 != 0x80) = true := by decide +kernel
  have := all b.toNat b.toNat_lt
  simpa using this

/-- Inside a text, the bytes that start a rune stand at the ends of its valid prefixes. -/
theorem runeStart_iff_isValid (s : String) (i : Nat) (inside : i < s.toByteArray.size) :
    runeStart s.toByteArray[i] = true ↔ (s.toByteArray.extract 0 i).IsValidUTF8 := by
  have bound : (⟨i⟩ : String.Pos.Raw) < s.rawEndPos := inside
  have position : String.Pos.Raw.IsValid s ⟨i⟩ ↔ s.toByteArray[i].IsUTF8FirstByte := by
    rw [String.Pos.Raw.isValid_iff_isUTF8FirstByte]
    constructor
    · rintro (last | ⟨_, first⟩)
      · have same : i = s.toByteArray.size := congrArg String.Pos.Raw.byteIdx last
        omega
      · exact first
    · intro first
      exact .inr ⟨bound, first⟩
  have cut := @String.Pos.Raw.isValid_iff_isValidUTF8_extract_zero s ⟨i⟩
  have starts : runeStart s.toByteArray[i] = true ↔ s.toByteArray[i].IsUTF8FirstByte := by
    constructor
    · intro start
      have known := mem_toByteArray s s.toByteArray[i] (Array.getElem_mem inside)
      exact known.resolve_right (by simp [start])
    · exact runeStart_of_isUTF8FirstByte _
  rw [starts, ← position, cut]
  exact and_iff_right (Nat.le_of_lt inside)

/-! ## The loop -/

/-- The loop stops at `k` when `k` ends a valid prefix, nothing between `k` and `cut`
does, and the lower end of the scan is not above `k`. -/
theorem truncateLoop_eq (s : String) (maxBytes : Int) (k cut : Nat) (low : k ≤ cut)
    (inside : cut < s.toByteArray.size) (near : maxBytes - 4 ≤ k)
    (ends : (s.toByteArray.extract 0 k).IsValidUTF8)
    (between : ∀ i, k < i → i ≤ cut → ¬ (s.toByteArray.extract 0 i).IsValidUTF8) :
    truncateLoop s.toByteArray maxBytes cut = some k := by
  induction cut with
  | zero =>
    obtain rfl : k = 0 := by omega
    rfl
  | succ cut ih =>
    have start := runeStart_iff_isValid s (cut + 1) inside
    simp only [truncateLoop, getElem?_pos s.toByteArray (cut + 1) inside]
    by_cases here : k = cut + 1
    · subst here
      -- the byte at `k` starts a rune, and stopping at the lower end gives `k` as well
      simp only [start.mpr ends, if_true, ite_self]
    · have continuation : runeStart s.toByteArray[cut + 1] = false := by
        rw [← Bool.not_eq_true, start]
        exact between (cut + 1) (by omega) le_rfl
      have scanned : ((cut + 1 : Nat) : Int) > maxBytes - 4 := by omega
      simp only [scanned, if_true, continuation, Bool.false_eq_true, if_false]
      exact ih (by omega) (by omega) fun i above below => between i above (by omega)

theorem size_utf8Encode (cs : List Char) : cs.utf8Encode.size = String.utf8Len cs := by
  rw [← String.utf8ByteSize_ofList]
  simp [String.utf8ByteSize]

/-- A valid prefix is the encoding of a prefix of the characters. -/
theorem chars_of_valid (s : String) (i : Nat) (inside : i ≤ s.toByteArray.size)
    (valid : (s.toByteArray.extract 0 i).IsValidUTF8) :
    ∃ part, part <+: s.toList ∧ String.utf8Len part = i := by
  obtain ⟨part, encoded⟩ := valid
  refine ⟨part, ?_, ?_⟩
  · apply List.isPrefix_of_utf8Encode_append_eq_utf8Encode
      (s.toByteArray.extract i s.toByteArray.size)
    rw [← encoded, String.utf8Encode_toList,
      ← ByteArray.extract_eq_extract_append_extract i (Nat.zero_le i) inside,
      ByteArray.extract_zero_size]
  · rw [← size_utf8Encode, ← encoded, ByteArray.size_extract]
    omega

/-- A prefix of the characters is encoded by the bytes up to its length. -/
theorem extract_of_chars (s : String) (part : List Char) (start : part <+: s.toList) :
    s.toByteArray.extract 0 (String.utf8Len part) = part.utf8Encode := by
  obtain ⟨rest, whole⟩ := start
  rw [← String.utf8Encode_toList, ← whole, List.utf8Encode_append]
  exact ByteArray.extract_append_eq_left (size_utf8Encode part).symm

/-- No valid prefix within the budget is longer than the characters taken. -/
theorem takeBytes_longest (s : String) (budget i : Nat) (inside : i ≤ s.toByteArray.size)
    (fits : i ≤ budget) (valid : (s.toByteArray.extract 0 i).IsValidUTF8) :
    i ≤ String.utf8Len (takeBytes budget s.toList) := by
  obtain ⟨part, start, rfl⟩ := chars_of_valid s i inside valid
  obtain ⟨rest, whole⟩ := takeBytes_greatest budget s.toList part start fits
  rw [← whole, String.utf8Len_append]
  omega

theorem utf8Len_toList (s : String) : String.utf8Len s.toList = s.toByteArray.size := by
  rw [← size_utf8Encode, String.utf8Encode_toList]

/-- Both branches of `truncateUTF8` keep the characters that fit. -/
theorem toByteArray_truncateUTF8 (s : String) (budget : Nat) :
    (truncateUTF8 s budget).toByteArray =
      s.toByteArray.extract 0 (String.utf8Len (takeBytes budget s.toList)) := by
  rw [extract_of_chars s _ (takeBytes_isPrefix budget s.toList)]
  unfold truncateUTF8
  split
  next fits =>
    have all : s.toList <+: takeBytes budget s.toList :=
      takeBytes_greatest budget s.toList s.toList List.prefix_rfl
        (by rw [utf8Len_toList]; exact fits)
    rw [← all.eq_of_length_le (takeBytes_isPrefix budget s.toList).length_le,
      String.utf8Encode_toList]
  · exact String.toByteArray_ofList

/-- The loop over the bytes computes the longest run of characters that fits. -/
theorem truncateUTF8Bytes_eq (s : String) (maxBytes : Int) :
    truncateUTF8Bytes s.toByteArray maxBytes =
      some (truncateUTF8 s maxBytes.toNat).toByteArray := by
  have bound := takeBytes_bound maxBytes.toNat s.toList
  unfold truncateUTF8Bytes
  by_cases nothing : maxBytes ≤ 0
  · rw [if_pos nothing, toByteArray_truncateUTF8]
    have none_fit : String.utf8Len (takeBytes maxBytes.toNat s.toList) = 0 := by omega
    rw [none_fit, ByteArray.extract_same]
  rw [if_neg nothing]
  by_cases fits : (s.toByteArray.size : Int) ≤ maxBytes
  · rw [if_pos fits, truncateUTF8, if_pos]
    simp only [String.utf8ByteSize]
    omega
  rw [if_neg fits, toByteArray_truncateUTF8]
  -- the loop starts inside the text, and the rune it backs out of has at most four bytes
  have exceeds : maxBytes.toNat < String.utf8Len s.toList := by
    rw [utf8Len_toList]
    omega
  have slack := takeBytes_slack maxBytes.toNat s.toList exceeds
  have stops := truncateLoop_eq s maxBytes (String.utf8Len (takeBytes maxBytes.toNat s.toList))
    maxBytes.toNat bound (by omega) (by omega)
    (by
      rw [extract_of_chars s _ (takeBytes_isPrefix _ s.toList)]
      exact ByteArray.isValidUTF8_utf8Encode)
    (by
      intro i above below valid
      have longest := takeBytes_longest s maxBytes.toNat i (by omega) below valid
      omega)
  rw [stops]
  rfl

/-- `failIndexJob` cuts only texts of more than 2000 bytes, and `truncateUTF8` keeps the
others as they are. -/
theorem boundedFailureBytes_eq (failure : String) :
    boundedFailureBytes failure.toByteArray = some (truncateUTF8 failure 2000).toByteArray := by
  unfold boundedFailureBytes
  by_cases long : failure.toByteArray.size > 2000
  · rw [if_pos long]
    exact truncateUTF8Bytes_eq failure 2000
  · rw [if_neg long, truncateUTF8, if_pos]
    simp only [String.utf8ByteSize]
    omega

/-- On every text and for every limit `truncateUTF8` stays inside the text and returns its
longest valid prefix within the limit; what `failIndexJob` cuts off an error text leaves
the bytes of the text it stores. -/
theorem truncateUTF8_longest_valid (s : String) (maxBytes : Int) :
    (∃ k cut, truncateUTF8Bytes s.toByteArray maxBytes = some cut ∧
      cut = s.toByteArray.extract 0 k ∧ (cut.size : Int) ≤ max maxBytes 0 ∧ cut.IsValidUTF8 ∧
      ∀ i, cut.size < i → i ≤ s.toByteArray.size → (i : Int) ≤ max maxBytes 0 →
        ¬ (s.toByteArray.extract 0 i).IsValidUTF8) ∧
    ∃ stored : String, boundedFailureBytes (trimSpace s).toByteArray = some stored.toByteArray ∧
      reportedFailure s = if stored = "" then "client reported indexing failure" else stored := by
  have bound := takeBytes_bound maxBytes.toNat s.toList
  have within : (String.utf8Len (takeBytes maxBytes.toNat s.toList)) ≤ s.toByteArray.size := by
    rw [← utf8Len_toList]
    obtain ⟨rest, whole⟩ := takeBytes_isPrefix maxBytes.toNat s.toList
    have sum := String.utf8Len_append (takeBytes maxBytes.toNat s.toList) rest
    rw [whole] at sum
    omega
  have size : (truncateUTF8 s maxBytes.toNat).toByteArray.size =
      String.utf8Len (takeBytes maxBytes.toNat s.toList) := by
    rw [toByteArray_truncateUTF8, ByteArray.size_extract]
    omega
  constructor
  · refine ⟨_, _, truncateUTF8Bytes_eq s maxBytes, toByteArray_truncateUTF8 s maxBytes.toNat,
      by omega, String.isValidUTF8 _, ?_⟩
    intro i longer inside fits valid
    have longest := takeBytes_longest s maxBytes.toNat i inside (by omega) valid
    omega
  · exact ⟨truncateUTF8 (trimSpace s) 2000, boundedFailureBytes_eq (trimSpace s), rfl⟩

-- a limit inside the second rune, and one below the first
example : truncateUTF8Bytes "aé".toByteArray 2 = some "a".toByteArray := by decide +kernel

example : truncateUTF8Bytes "é".toByteArray 1 = some "".toByteArray := by decide +kernel

end AcemcpRelay
