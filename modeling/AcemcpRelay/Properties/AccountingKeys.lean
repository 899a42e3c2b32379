import AcemcpRelay.QuotaCache
import AcemcpRelay.Wire.Infix
import Mathlib.Data.Set.Function

/-!
# The keys of accounts

Counters and cached limits live under texts that are put together from identifiers and
colons. Nothing is known of an identifier: with colons of its own it can be part of the
text of another account. A key gives away the day of a counter, which is behind the last
colon, and the text before it; two accounts share a key exactly if their identifiers spell
the same text there. Without colons in the identifiers they do so for the same account only.
-/
namespace AcemcpRelay

open Store

/-! ### Texts -/

/-- A calendar date, as `time.Time` has it. -/
structure QuotaDate where
  year : Nat
  month : Nat
  day : Nat
  monthBounds : 1 ≤ month ∧ month ≤ 12
  dayBounds : 1 ≤ day ∧ day ≤ 31
  deriving DecidableEq

/-- A number with zeros before it, up to a width. -/
def zeroPad (width n : Nat) : List Char := (toString n).toList.leftpad width '0'

/-- `Format("20060102")`. -/
def QuotaDate.format (date : QuotaDate) : List Char :=
  zeroPad 4 date.year ++ (zeroPad 2 date.month ++ zeroPad 2 date.day)

/-- The two digits of a byte in `%x`. -/
def hexPair (byte : UInt8) : List Char :=
  [Nat.digitChar (byte.toNat / 16), Nat.digitChar (byte.toNat % 16)]

def hexText (bytes : List UInt8) : List Char := bytes.flatMap hexPair

theorem ofDigitChars_zeroPad (width n : Nat) : Nat.ofDigitChars 10 (zeroPad width n) 0 = n := by
  have zeros (count : Nat) (digits : List Char) :
      Nat.ofDigitChars 10 (List.replicate count '0' ++ digits) 0 = Nat.ofDigitChars 10 digits 0 := by
    induction count with
    | zero => rfl
    | succ count ih => exact ih
  have text : (toString n).toList = Nat.toDigits 10 n := Nat.toList_repr
  rw [zeroPad, List.leftpad, zeros, text, Nat.ofDigitChars_ten_toDigits]

theorem zeroPad_injective (width : Nat) : Function.Injective (zeroPad width) :=
  Function.LeftInverse.injective (ofDigitChars_zeroPad width)

theorem length_zeroPad_two {n : Nat} (small : n < 100) : (zeroPad 2 n).length = 2 := by
  have every : ∀ m < 100, (zeroPad 2 m).length = 2 := by decide +kernel
  exact every n small

theorem isDigit_of_mem_zeroPad {width n : Nat} {c : Char} (member : c ∈ zeroPad width n) :
    c.isDigit = true := by
  rcases List.mem_append.mp member with zero | digit
  · rw [List.eq_of_mem_replicate zero]
    rfl
  · exact isDigit_of_mem_toString digit

theorem QuotaDate.format_injective : Function.Injective QuotaDate.format := by
  intro a b same
  have monthA : (zeroPad 2 a.month).length = 2 := length_zeroPad_two (by have := a.monthBounds; omega)
  have monthB : (zeroPad 2 b.month).length = 2 := length_zeroPad_two (by have := b.monthBounds; omega)
  have dayA : (zeroPad 2 a.day).length = 2 := length_zeroPad_two (by have := a.dayBounds; omega)
  have dayB : (zeroPad 2 b.day).length = 2 := length_zeroPad_two (by have := b.dayBounds; omega)
  -- the last four characters are the month and the day
  obtain ⟨years, rest⟩ := List.append_inj' same (by
    rw [List.length_append, List.length_append, monthA, monthB, dayA, dayB])
  obtain ⟨months, days⟩ := List.append_inj rest (by rw [monthA, monthB])
  have year := zeroPad_injective 4 years
  have month := zeroPad_injective 2 months
  have day := zeroPad_injective 2 days
  cases a
  cases b
  simp_all

theorem QuotaDate.colon_not_mem_format (date : QuotaDate) : ':' ∉ date.format := by
  intro member
  have digit : Char.isDigit ':' = true := by
    rcases List.mem_append.mp member with year | rest
    · exact isDigit_of_mem_zeroPad year
    · rcases List.mem_append.mp rest with month | day
      · exact isDigit_of_mem_zeroPad month
      · exact isDigit_of_mem_zeroPad day
  exact absurd digit (by decide)

theorem hexPair_injective : Function.Injective hexPair := by
  have digits : ∀ m < 16, ∀ n < 16, Nat.digitChar m = Nat.digitChar n → m = n := by decide
  intro a b same
  obtain ⟨high, rest⟩ := List.cons.inj same
  obtain ⟨low, -⟩ := List.cons.inj rest
  have smallA := a.toNat_lt
  have smallB := b.toNat_lt
  have highs := digits _ (by omega) _ (by omega) high
  have lows := digits _ (by omega) _ (by omega) low
  exact UInt8.toNat_inj.mp (by omega)

theorem hexText_injective : Function.Injective hexText := by
  intro a b same
  induction a generalizing b with
  | nil =>
    cases b with
    | nil => rfl
    | cons y b => cases same
  | cons x a ih =>
    cases b with
    | nil => cases same
    | cons y b =>
      obtain ⟨first, rest⟩ := List.append_inj same rfl
      rw [hexPair_injective first, ih rest]

/-! ### Accounts -/

/-- Whose pool is charged. -/
inductive PoolOwner where
  | user (userID : String)
  | organization (orgID : String)
  deriving DecidableEq

def PoolOwner.poolID : PoolOwner → String
  | user userID => userID
  | organization orgID => orgID

def memberQuotaLimitCacheKey (sha256 : String → List UInt8) (orgID userID : String) : String :=
  "quota:limit:member:" ++ String.ofList (hexText (sha256 (orgID ++ "\x00" ++ userID)))

/-- What is counted, or whose limit is cached. -/
inductive Account where
  | pool (owner : PoolOwner) (date : QuotaDate)
  | member (orgID userID : String) (date : QuotaDate)
  | userLimit (userID : String)
  | indexBytesLimit (userID : String)
  | orgLimits (orgID : String)
  | memberLimit (orgID userID : String)
  deriving DecidableEq

namespace Account

variable (sha256 : String → List UInt8)

/-- The key under which Redis has it. -/
def key : Account → String
  | pool owner date => "quota:used:" ++ owner.poolID ++ ":" ++ String.ofList date.format
  | member orgID userID date =>
    "quota:used:org:" ++ orgID ++ ":" ++ userID ++ ":" ++ String.ofList date.format
  | userLimit userID => "quota:limit:" ++ userID
  | indexBytesLimit userID => "quota:limit:indexbytes:" ++ userID
  | orgLimits orgID => "quota:limit:orgq:" ++ orgID
  | memberLimit orgID userID => memberQuotaLimitCacheKey sha256 orgID userID

def users : Account → List String
  | pool (.user userID) _ | member _ userID _ | userLimit userID | indexBytesLimit userID
  | memberLimit _ userID => [userID]
  | pool (.organization _) _ | orgLimits _ => []

def organizations : Account → List String
  | pool (.organization orgID) _ | member orgID _ _ | orgLimits orgID | memberLimit orgID _ => [orgID]
  | pool (.user _) _ | userLimit _ | indexBytesLimit _ => []

/-- The day of a counter. -/
def date : Account → Option QuotaDate
  | pool _ date | member _ _ date => some date
  | userLimit _ | indexBytesLimit _ | orgLimits _ | memberLimit _ _ => none

/-- What the key says besides its kind and the day. -/
def name : Account → String
  | pool owner _ => owner.poolID
  | member orgID userID _ => "org:" ++ (orgID ++ ":" ++ userID)
  | userLimit userID => userID
  | indexBytesLimit userID => "indexbytes:" ++ userID
  | orgLimits orgID => "orgq:" ++ orgID
  | memberLimit orgID userID =>
    "member:" ++ String.ofList (hexText (sha256 (orgID ++ "\x00" ++ userID)))

/-- What `memberQuotaLimitCacheKey` hashes for the account. -/
def hashed : Account → List String
  | memberLimit orgID userID => [orgID ++ "\x00" ++ userID]
  | pool _ _ | member _ _ _ | userLimit _ | indexBytesLimit _ | orgLimits _ => []

/-- The identifiers of the two accounts spell the same text where the keys have them. -/
def SpellAlike : Account → Account → Prop
  | pool first day, pool second day' => first.poolID = second.poolID ∧ day = day'
  | pool owner day, member orgID userID day' | member orgID userID day, pool owner day' =>
    owner.poolID = "org:" ++ (orgID ++ ":" ++ userID) ∧ day = day'
  | member orgID userID day, member orgID' userID' day' =>
    orgID ++ ":" ++ userID = orgID' ++ ":" ++ userID' ∧ day = day'
  | userLimit id, userLimit id' | indexBytesLimit id, indexBytesLimit id'
  | orgLimits id, orgLimits id' => id = id'
  | userLimit userID, indexBytesLimit id | indexBytesLimit id, userLimit userID =>
    userID = "indexbytes:" ++ id
  | userLimit userID, orgLimits orgID | orgLimits orgID, userLimit userID => userID = "orgq:" ++ orgID
  | userLimit userID, memberLimit orgID id | memberLimit orgID id, userLimit userID =>
    userID = "member:" ++ String.ofList (hexText (sha256 (orgID ++ "\x00" ++ id)))
  | memberLimit orgID userID, memberLimit orgID' userID' =>
    orgID ++ "\x00" ++ userID = orgID' ++ "\x00" ++ userID'
  | _, _ => False

end Account

/-- The keys of a reservation are its names and the date. -/
theorem requestReservation_names {config : QuotaConfig} {day : Nat} {answers : QuotaAnswers}
    {userID orgID tier : String} {reservation : Reservation} (sha256 : String → List UInt8)
    (date : QuotaDate)
    (prepared : requestReservation config day answers userID orgID tier = some reservation) :
    (orgID ≠ "" → reservation.memberKey.name ++ ":" ++ String.ofList date.format =
      (Account.member orgID userID date).key sha256) ∧
    ∃ owner, reservation.poolKey.name ++ ":" ++ String.ofList date.format =
      (Account.pool owner date).key sha256 := by
  unfold requestReservation at prepared
  split at prepared
  next personal =>
    cases prepared
    exact ⟨fun organization => absurd personal organization, .user userID, rfl⟩
  · split at prepared
    · cases prepared
    · cases prepared
      exact ⟨fun _ => rfl, .organization _, rfl⟩

def LimitCall.account : LimitCall → Account
  | .getUserDailyLimit userID _ => .userLimit userID
  | .getUserIndexBytesLimit userID _ => .indexBytesLimit userID
  | .getOrgQuotaLimits orgID => .orgLimits orgID

theorem LimitCall.cacheKey_eq (sha256 : String → List UInt8) (call : LimitCall) :
    call.cacheKey = call.account.key sha256 := by
  cases call <;> rfl

/-! ### What a key gives away -/

section

variable {sha256 : String → List UInt8} {a b : Account}

/-- A text is cut at its last separator in one way. -/
theorem append_lastColon_inj {x y : String} {s t : List Char} (freeS : ':' ∉ s) (freeT : ':' ∉ t)
    (same : x ++ ":" ++ String.ofList s = y ++ ":" ++ String.ofList t) : x = y ∧ s = t := by
  have chars : s.reverse ++ ':' :: x.toList.reverse = t.reverse ++ ':' :: y.toList.reverse := by
    have reversed := congrArg (fun text => text.toList.reverse) same
    simpa using reversed
  obtain ⟨ends, starts⟩ := Wire.append_cons_inj (by simpa using freeS) (by simpa using freeT) chars
  exact ⟨String.toList_inj.mp (List.reverse_injective starts), List.reverse_injective ends⟩

/-- Different words before the rest of a text. -/
theorem append_ne_of_head {x y : String} (different : x.toList.head? ≠ y.toList.head?)
    (startX : x.toList ≠ []) (startY : y.toList ≠ []) (s t : String) : x ++ s ≠ y ++ t := by
  intro same
  have heads := congrArg (fun text => text.toList.head?) same
  rw [String.toList_append, String.toList_append, List.head?_append_of_ne_nil _ startX,
    List.head?_append_of_ne_nil _ startY] at heads
  exact different heads

theorem append_left_inj {x s t : String} : x ++ s = x ++ t ↔ s = t := by
  rw [← String.toList_inj, String.toList_append, String.toList_append, List.append_cancel_left_eq,
    String.toList_inj]

theorem Account.key_eq (account : Account) :
    account.key sha256 = "quota:" ++ match account.date with
      | some date => "used:" ++ (account.name sha256 ++ ":" ++ String.ofList date.format)
      | none => "limit:" ++ account.name sha256 := by
  have counter (q u x c f : String) : q ++ u ++ x ++ c ++ f = q ++ (u ++ (x ++ c ++ f)) := by
    simp only [String.append_assoc]
  have memberCounter (q u g o v c f : String) :
      q ++ u ++ g ++ o ++ c ++ v ++ c ++ f = q ++ (u ++ (g ++ (o ++ c ++ v) ++ c ++ f)) := by
    simp only [String.append_assoc]
  have limit (q l x : String) : q ++ l ++ x = q ++ (l ++ x) := String.append_assoc ..
  have namedLimit (q l w x : String) : q ++ l ++ w ++ x = q ++ (l ++ (w ++ x)) := by
    simp only [String.append_assoc]
  cases account with
  | pool owner date => exact counter "quota:" "used:" owner.poolID ":" (String.ofList date.format)
  | member orgID userID date =>
    exact memberCounter "quota:" "used:" "org:" orgID userID ":" (String.ofList date.format)
  | userLimit userID => exact limit "quota:" "limit:" userID
  | indexBytesLimit userID => exact namedLimit "quota:" "limit:" "indexbytes:" userID
  | orgLimits orgID => exact namedLimit "quota:" "limit:" "orgq:" orgID
  | memberLimit orgID userID => exact namedLimit "quota:" "limit:" "member:" _

/-- Two keys are the same exactly if the days and the names are. -/
theorem Account.key_eq_key_iff :
    a.key sha256 = b.key sha256 ↔ a.date = b.date ∧ a.name sha256 = b.name sha256 := by
  rw [a.key_eq, b.key_eq, append_left_inj]
  have apart (s t : String) : "used:" ++ s ≠ "limit:" ++ t :=
    append_ne_of_head (by decide) (by decide) (by decide) s t
  constructor
  · intro same
    cases dayA : a.date with
    | none =>
      cases dayB : b.date with
      | none =>
        rw [dayA, dayB] at same
        exact ⟨rfl, append_left_inj.mp same⟩
      | some day' =>
        rw [dayA, dayB] at same
        exact absurd same.symm (apart _ _)
    | some day =>
      cases dayB : b.date with
      | none =>
        rw [dayA, dayB] at same
        exact absurd same (apart _ _)
      | some day' =>
        rw [dayA, dayB] at same
        obtain ⟨names, days⟩ := append_lastColon_inj day.colon_not_mem_format
          day'.colon_not_mem_format (append_left_inj.mp same)
        exact ⟨congrArg some (QuotaDate.format_injective days), names⟩
  · rintro ⟨days, names⟩
    rw [days, names]

/-- The keys of two accounts are the same exactly if their identifiers spell the same text. -/
theorem Account.key_eq_key_iff_spellAlike
    (collisionFree : Set.InjOn sha256 {text | text ∈ a.hashed ++ b.hashed}) :
    a.key sha256 = b.key sha256 ↔ a.SpellAlike sha256 b := by
  have words (s t : String) : "indexbytes:" ++ s ≠ "orgq:" ++ t ∧ "indexbytes:" ++ s ≠ "member:" ++ t ∧
      "orgq:" ++ s ≠ "member:" ++ t :=
    ⟨append_ne_of_head (by decide) (by decide) (by decide) s t,
      append_ne_of_head (by decide) (by decide) (by decide) s t,
      append_ne_of_head (by decide) (by decide) (by decide) s t⟩
  have words' (s t : String) : "orgq:" ++ s ≠ "indexbytes:" ++ t ∧ "member:" ++ s ≠ "indexbytes:" ++ t ∧
      "member:" ++ s ≠ "orgq:" ++ t :=
    ⟨(words t s).1.symm, (words t s).2.1.symm, (words t s).2.2.symm⟩
  rw [key_eq_key_iff]
  cases a <;> cases b <;>
    simp only [date, name, SpellAlike, append_left_inj, words, words', reduceCtorEq, false_and,
      and_false, true_and, Option.some.injEq]
  case pool.pool | member.member | pool.member => exact and_comm
  case member.pool => rw [and_comm, eq_comm (a := "org:" ++ _), eq_comm (a := QuotaDate.mk ..)]
  case indexBytesLimit.userLimit | orgLimits.userLimit | memberLimit.userLimit => exact eq_comm
  case memberLimit.memberLimit orgA userA orgB userB =>
    constructor
    · intro same
      have digests := hexText_injective (String.ofList_inj.mp same)
      exact collisionFree (by simp [hashed]) (by simp [hashed]) digests
    · intro same
      rw [same]

end

/-! ### Identifiers without colons -/

/-- The identifiers of users and of organizations, all without colons and no text both. An
organization's identifier comes from the database and holds no NUL. -/
structure PlainIdentifiers where
  users : Set String
  organizations : Set String
  plainUser : ∀ userID ∈ users, ':' ∉ userID.toList
  plainOrganization : ∀ orgID ∈ organizations, ':' ∉ orgID.toList ∧ '\x00' ∉ orgID.toList
  apart : ∀ userID ∈ users, userID ∉ organizations

/-- The account names identifiers of these only. -/
def PlainIdentifiers.Cover (known : PlainIdentifiers) (account : Account) : Prop :=
  (∀ userID ∈ account.users, userID ∈ known.users) ∧
    ∀ orgID ∈ account.organizations, orgID ∈ known.organizations

section

variable {sha256 : String → List UInt8} {known : PlainIdentifiers} {a b : Account}

/-- The owner of a pool is known from its identifier. -/
theorem PlainIdentifiers.owner_inj {first second : PoolOwner} {dateA dateB : QuotaDate}
    (coversA : known.Cover (.pool first dateA)) (coversB : known.Cover (.pool second dateB))
    (same : first.poolID = second.poolID) : first = second := by
  cases first with
  | user userA =>
    cases second with
    | user userB => exact congrArg PoolOwner.user same
    | organization orgB =>
      have isUser := coversA.1 userA (List.mem_singleton.mpr rfl)
      have isOrganization := coversB.2 orgB (List.mem_singleton.mpr rfl)
      rw [show userA = orgB from same] at isUser
      exact absurd isOrganization (known.apart orgB isUser)
  | organization orgA =>
    cases second with
    | user userB =>
      have isUser := coversB.1 userB (List.mem_singleton.mpr rfl)
      have isOrganization := coversA.2 orgA (List.mem_singleton.mpr rfl)
      rw [← show orgA = userB from same] at isUser
      exact absurd isOrganization (known.apart orgA isUser)
    | organization orgB => exact congrArg PoolOwner.organization same

theorem PlainIdentifiers.Cover.poolID {owner : PoolOwner} {date : QuotaDate}
    (covers : known.Cover (.pool owner date)) : ':' ∉ owner.poolID.toList := by
  cases owner with
  | user userID => exact known.plainUser userID (covers.1 userID (List.mem_singleton.mpr rfl))
  | organization orgID =>
    exact (known.plainOrganization orgID (covers.2 orgID (List.mem_singleton.mpr rfl))).1

/-- A text with a colon is none of the identifiers. -/
theorem colon_ne {id start rest : String} (plain : ':' ∉ id.toList) (colon : ':' ∈ start.toList) :
    id ≠ start ++ rest := by
  rintro rfl
  exact plain (by simp [colon])

/-- Among plain identifiers no two accounts spell alike. -/
theorem PlainIdentifiers.Cover.eq_of_spellAlike (coversA : known.Cover a) (coversB : known.Cover b)
    (alike : a.SpellAlike sha256 b) : a = b := by
  have user {account : Account} (covers : known.Cover account) {userID : String}
      (listed : account.users = [userID]) : ':' ∉ userID.toList :=
    known.plainUser userID (covers.1 userID (listed ▸ List.mem_singleton.mpr rfl))
  have organization {account : Account} (covers : known.Cover account) {orgID : String}
      (listed : account.organizations = [orgID]) : ':' ∉ orgID.toList ∧ '\x00' ∉ orgID.toList :=
    known.plainOrganization orgID (covers.2 orgID (listed ▸ List.mem_singleton.mpr rfl))
  cases a <;> cases b <;> simp only [Account.SpellAlike] at alike
  case pool.pool ownerA dateA ownerB dateB =>
    rw [known.owner_inj coversA coversB alike.1, alike.2]
  case pool.member => exact absurd alike.1 (colon_ne coversA.poolID (by decide))
  case member.pool => exact absurd alike.1 (colon_ne coversB.poolID (by decide))
  case member.member orgA userA dateA orgB userB dateB =>
    have chars : orgA.toList ++ ':' :: userA.toList = orgB.toList ++ ':' :: userB.toList := by
      have lists := congrArg String.toList alike.1
      simpa using lists
    obtain ⟨orgs, users⟩ := Wire.append_cons_inj (organization coversA rfl).1
      (organization coversB rfl).1 chars
    rw [String.toList_inj.mp orgs, String.toList_inj.mp users, alike.2]
  case userLimit.userLimit | indexBytesLimit.indexBytesLimit | orgLimits.orgLimits => rw [alike]
  case userLimit.indexBytesLimit | userLimit.orgLimits | userLimit.memberLimit =>
    exact absurd alike (colon_ne (user coversA rfl) (by decide))
  case indexBytesLimit.userLimit | orgLimits.userLimit | memberLimit.userLimit =>
    exact absurd alike (colon_ne (user coversB rfl) (by decide))
  case memberLimit.memberLimit =>
    obtain ⟨orgs, users⟩ := Wire.join_nul_inj (organization coversA rfl).2
      (organization coversB rfl).2 alike
    rw [orgs, users]

end

/-- Two accounts are kept apart exactly if they are the same or their identifiers do not spell
alike; among users and organizations whose identifiers hold no colon and differ from each other
they never do. The keys are those of the counters and caches of the code. -/
theorem accounts_have_their_own_keys (sha256 : String → List UInt8) (a b : Account)
    (collisionFree : Set.InjOn sha256 {text | text ∈ a.hashed ++ b.hashed}) :
    ((a.key sha256 = b.key sha256 → a = b) ↔ (a.SpellAlike sha256 b → a = b)) ∧
    (∀ known : PlainIdentifiers, known.Cover a → known.Cover b → a.SpellAlike sha256 b → a = b) ∧
    (∀ config day answers userID orgID tier reservation date,
      requestReservation config day answers userID orgID tier = some reservation →
      (orgID ≠ "" → reservation.memberKey.name ++ ":" ++ String.ofList date.format =
        (Account.member orgID userID date).key sha256) ∧
      ∃ owner, reservation.poolKey.name ++ ":" ++ String.ofList date.format =
        (Account.pool owner date).key sha256) ∧
    ∀ call : LimitCall, call.cacheKey = call.account.key sha256 := by
  refine ⟨?_, ?_, ?_, LimitCall.cacheKey_eq sha256⟩
  · rw [Account.key_eq_key_iff_spellAlike collisionFree]
  · intro known coversA coversB
    exact coversA.eq_of_spellAlike coversB
  · intro config day answers userID orgID tier reservation date
    exact requestReservation_names sha256 date

def firstOfMay : QuotaDate :=
  { year := 2026, month := 5, day := 1, monthBounds := by decide, dayBounds := by decide }

/-- Two users and an organization. -/
def acmeIdentifiers : PlainIdentifiers where
  users := {"ann", "bob"}
  organizations := {"acme"}
  plainUser := by
    rintro userID (rfl | rfl) <;> decide
  plainOrganization := by
    rintro orgID rfl
    decide
  apart := by
    rintro userID (rfl | rfl) <;> decide

theorem accounts_have_their_own_keys_acme :
    (Account.member "acme" "ann" firstOfMay).key (·.toByteArray.data.toList) ≠
      (Account.pool (.user "ann") firstOfMay).key (·.toByteArray.data.toList) := by
  have bytes : Function.Injective fun text : String => text.toByteArray.data.toList := by
    intro a b same
    exact String.toByteArray_inj.mp (ByteArray.ext (Array.toList_inj.mp same))
  obtain ⟨own, plain, -⟩ := accounts_have_their_own_keys (·.toByteArray.data.toList)
    (.member "acme" "ann" firstOfMay) (.pool (.user "ann") firstOfMay) bytes.injOn
  have apart := own.mpr (plain acmeIdentifiers
    (by simp [PlainIdentifiers.Cover, Account.users, Account.organizations, acmeIdentifiers])
    (by simp [PlainIdentifiers.Cover, Account.users, Account.organizations, acmeIdentifiers]))
  exact fun same => nomatch apart same

/-- A user whose identifier spells the rest of a key, two members whose identifiers are cut
elsewhere, and a user who reads the limit of another kind. -/
theorem accounts_share_keys :
    (Account.pool (.user "org:acme:ann") firstOfMay).key (fun _ => []) =
      (Account.member "acme" "ann" firstOfMay).key (fun _ => []) ∧
    (Account.member "a:b" "c" firstOfMay).key (fun _ => []) =
      (Account.member "a" "b:c" firstOfMay).key (fun _ => []) ∧
    (Account.userLimit "indexbytes:ann").key (fun _ => []) =
      (Account.indexBytesLimit "ann").key (fun _ => []) := by
  decide +kernel

end AcemcpRelay
