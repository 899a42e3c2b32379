import Mathlib.Logic.Function.Basic

/-!
# Keys that expire

A store of values under keys, where a key may have a time from which on it is gone.
Writing a key keeps its time, if the key is still there; a counter that is gone counts
from zero again.

`Keeps` says what a key is worth as long as its time has not come, and `Stands` says it of a
counter. It is the invariant of a key that every writer gives enough time when it creates it.
-/
namespace AcemcpRelay.Store

structure Entry (Value : Type) where
  value : Value
  /-- The key is gone from then on. -/
  expiresAt : Option Nat
  deriving DecidableEq, Repr

abbrev Keys (Key Value : Type) := Key → Option (Entry Value)

namespace Keys

variable {Key Value : Type}

def none : Keys Key Value := fun _ => Option.none

/-- The entry, if the key is still there. -/
def live (now : Nat) (keys : Keys Key Value) (key : Key) : Option (Entry Value) :=
  (keys key).filter fun entry => entry.expiresAt.all (decide <| now < ·)

/-- `GET`. -/
def get (now : Nat) (keys : Keys Key Value) (key : Key) : Option Value :=
  (keys.live now key).map (·.value)

/-- `TTL key < 0`: the key has no time, or is not there. -/
def endless (now : Nat) (keys : Keys Key Value) (key : Key) : Bool :=
  (keys.live now key).all (·.expiresAt.isNone)

variable [DecidableEq Key]

/-- Writes a value. A key that is there keeps its time. -/
def put (now : Nat) (keys : Keys Key Value) (key : Key) (value : Value) : Keys Key Value :=
  Function.update keys key (some ⟨value, (keys.live now key).bind (·.expiresAt)⟩)

/-- `SET` with a time: what was under the key does not matter. -/
def setFor (now ttl : Nat) (keys : Keys Key Value) (key : Key) (value : Value) : Keys Key Value :=
  Function.update keys key (some ⟨value, some (now + ttl)⟩)

/-- `DEL`. -/
def del (keys : Keys Key Value) (key : Key) : Keys Key Value := Function.update keys key Option.none

/-- `EXPIRE`. -/
def expire (now ttl : Nat) (keys : Keys Key Value) (key : Key) : Keys Key Value :=
  match keys.live now key with
  | .none => keys
  | some entry => Function.update keys key (some { entry with expiresAt := some (now + ttl) })

/-! ### Counters -/

/-- The number under a key, zero if it is not there. -/
def counter (now : Nat) (keys : Keys Key Int) (key : Key) : Int := (keys.get now key).getD 0

/-- `INCRBY`. -/
def incrBy (now : Nat) (keys : Keys Key Int) (key : Key) (amount : Int) : Keys Key Int :=
  keys.put now key (keys.counter now key + amount)

end Keys

namespace Keys

variable {Key Value : Type} [DecidableEq Key] {now ttl : Nat} {key other : Key}

section

variable {keys : Keys Key Value} {value : Value}

omit [DecidableEq Key] in
theorem live_eq_some {entry : Entry Value} : keys.live now key = some entry ↔
    keys key = some entry ∧ ∀ time, entry.expiresAt = some time → now < time := by
  unfold live
  rw [Option.filter_eq_some_iff, Option.all_eq_true]
  simp

theorem get_put_self : (keys.put now key value).get now key = some value := by
  have alive : (keys.put now key value).live now key =
      some ⟨value, (keys.live now key).bind (·.expiresAt)⟩ := by
    refine live_eq_some.mpr ⟨Function.update_self _ _ _, fun time given => ?_⟩
    obtain ⟨entry, found, expires⟩ := Option.bind_eq_some_iff.mp given
    exact (live_eq_some.mp found).2 time expires
  rw [get, alive]
  rfl

theorem put_of_ne (different : other ≠ key) : keys.put now key value other = keys other :=
  Function.update_of_ne different _ _

theorem expire_of_ne (different : other ≠ key) : keys.expire now ttl key other = keys other := by
  unfold expire
  cases keys.live now key with
  | none => rfl
  | some entry => exact Function.update_of_ne different _ _

omit [DecidableEq Key] in
theorem get_congr {left right : Keys Key Value} (same : left other = right other) :
    left.get now other = right.get now other := by
  rw [get, get, live, live, same]

omit [DecidableEq Key] in
/-- What is there later was there before. -/
theorem live_of_later {later : Nat} {entry : Entry Value} (time : now ≤ later)
    (found : keys.live later key = some entry) : keys.live now key = some entry := by
  obtain ⟨written, alive⟩ := live_eq_some.mp found
  exact live_eq_some.mpr ⟨written, fun _ given => Nat.lt_of_le_of_lt time (alive _ given)⟩

/-- Time that is given does not change what is there. -/
theorem get_expire (positive : 0 < ttl) : (keys.expire now ttl key).get now other =
    keys.get now other := by
  by_cases same : other = key
  · subst same
    cases found : keys.live now other with
    | none => simp only [expire, found]
    | some entry =>
      have alive : (keys.expire now ttl other).live now other =
          some { entry with expiresAt := some (now + ttl) } := by
        refine live_eq_some.mpr ⟨by simp only [expire, found, Function.update_self], ?_⟩
        rintro time ⟨⟩
        omega
      rw [get, get, alive, found]
      rfl
  · exact get_congr (expire_of_ne same)

end

/-! ### What was written -/

section

variable {keys : Keys Key Value} {value : Value} {P : Key → Entry Value → Prop}

/-- Everything that is stored, gone or not, is as a writer left it. -/
def Written (P : Key → Entry Value → Prop) (keys : Keys Key Value) : Prop :=
  ∀ key entry, keys key = some entry → P key entry

omit [DecidableEq Key] in
theorem written_none : (none : Keys Key Value).Written P := fun _ _ found => nomatch found

theorem written_setFor (others : ∀ other entry, other ≠ key → keys other = some entry → P other entry)
    (good : P key ⟨value, some (now + ttl)⟩) : (keys.setFor now ttl key value).Written P := by
  intro other entry found
  by_cases same : other = key
  · subst same
    rw [Keys.setFor, Function.update_self] at found
    cases found
    exact good
  · rw [Keys.setFor, Function.update_of_ne same] at found
    exact others other entry same found

theorem Written.del (written : keys.Written P) : (keys.del key).Written P := by
  intro other entry found
  by_cases same : other = key
  · rw [same, Keys.del, Function.update_self] at found
    cases found
  · rw [Keys.del, Function.update_of_ne same] at found
    exact written other entry found

end

section

variable {keys : Keys Key Value} {missing value : Value} {deadline : Nat}

/-- The value, `missing` if the key is not there, as it is until `deadline`. -/
def Keeps (keys : Keys Key Value) (key : Key) (deadline : Nat) (missing value : Value) : Prop :=
  match keys key with
  | .none => value = missing
  | some entry => entry.value = value ∧ ∀ time, entry.expiresAt = some time → deadline ≤ time

omit [DecidableEq Key] in
theorem Keeps.congr {after : Keys Key Value} (keeps : keys.Keeps key deadline missing value)
    (same : after key = keys key) : after.Keeps key deadline missing value := by
  rw [Keeps, same]
  exact keeps

omit [DecidableEq Key] in
theorem Keeps.live (keeps : keys.Keeps key deadline missing value) (early : now < deadline) :
    keys.live now key = keys key := by
  unfold Keeps at keeps
  cases found : keys key with
  | none => rw [Keys.live, found]; rfl
  | some entry =>
    rw [found] at keeps
    exact live_eq_some.mpr ⟨found, fun time given => Nat.lt_of_lt_of_le early (keeps.2 time given)⟩

omit [DecidableEq Key] in
theorem Keeps.get (keeps : keys.Keeps key deadline missing value) (early : now < deadline) :
    (keys.get now key).getD missing = value := by
  rw [Keys.get, keeps.live early]
  unfold Keeps at keeps
  cases found : keys key with
  | none => rw [found] at keeps; exact keeps.symm
  | some entry => rw [found] at keeps; exact keeps.1

theorem Keeps.put (keeps : keys.Keeps key deadline missing value) (early : now < deadline)
    (written : Value) : (keys.put now key written).Keeps key deadline missing written := by
  have alive := keeps.live early
  unfold Keeps Keys.put
  rw [Function.update_self, alive]
  refine ⟨rfl, fun time given => ?_⟩
  unfold Keeps at keeps
  cases found : keys key with
  | none => rw [found] at given; cases given
  | some entry =>
    rw [found] at given keeps
    exact keeps.2 time given

theorem Keeps.expire (keeps : keys.Keeps key deadline missing value) (enough : deadline ≤ now + ttl) :
    (keys.expire now ttl key).Keeps key deadline missing value := by
  cases found : keys.live now key with
  | none =>
    have same : keys.expire now ttl key = keys := by simp only [Keys.expire, found]
    rwa [same]
  | some entry =>
    have given : keys.expire now ttl key key = some { entry with expiresAt := some (now + ttl) } := by
      simp only [Keys.expire, found, Function.update_self]
    unfold Keeps at keeps ⊢
    rw [(live_eq_some.mp found).1] at keeps
    rw [given]
    refine ⟨keeps.1, ?_⟩
    rintro time ⟨⟩
    exact enough

end

section

variable {keys : Keys Key Int} {amount total : Int} {deadline : Nat}

theorem counter_incrBy_self :
    (keys.incrBy now key amount).counter now key = keys.counter now key + amount := by
  rw [counter, incrBy, get_put_self]
  rfl

omit [DecidableEq Key] in
theorem counter_congr {left right : Keys Key Int} (same : left other = right other) :
    left.counter now other = right.counter now other := by
  rw [counter, counter, get_congr same]

theorem counter_expire (positive : 0 < ttl) :
    (keys.expire now ttl key).counter now other = keys.counter now other := by
  rw [counter, get_expire positive, counter]

omit [DecidableEq Key] in
/-- As time passes, a counter can only start from zero again. -/
theorem counter_later {later : Nat} (time : now ≤ later) :
    keys.counter later key = keys.counter now key ∨ keys.counter later key = 0 := by
  unfold counter get
  cases found : keys.live later key with
  | none => exact .inr rfl
  | some entry =>
    rw [live_of_later time found]
    exact .inl rfl

/-- The counter is at `total` and is not gone before `deadline`. -/
def Stands (keys : Keys Key Int) (key : Key) (deadline : Nat) (total : Int) : Prop :=
  match keys key with
  | .none => total = 0
  | some entry => entry.value = total ∧ ∀ time, entry.expiresAt = some time → deadline ≤ time

omit [DecidableEq Key] in
theorem stands_iff_keeps : keys.Stands key deadline total ↔ keys.Keeps key deadline 0 total := by
  unfold Stands Keeps
  cases keys key with
  | none => exact Iff.rfl
  | some entry => exact Iff.rfl

omit [DecidableEq Key] in
theorem stands_none : (none : Keys Key Int).Stands key deadline 0 := rfl

omit [DecidableEq Key] in
theorem Stands.congr {after : Keys Key Int} (stands : keys.Stands key deadline total)
    (same : after key = keys key) : after.Stands key deadline total :=
  stands_iff_keeps.mpr (Keeps.congr (stands_iff_keeps.mp stands) same)

omit [DecidableEq Key] in
theorem Stands.counter (stands : keys.Stands key deadline total) (early : now < deadline) :
    keys.counter now key = total :=
  (stands_iff_keeps.mp stands).get early

theorem Stands.incrBy (stands : keys.Stands key deadline total) (early : now < deadline)
    (amount : Int) : (keys.incrBy now key amount).Stands key deadline (total + amount) := by
  have worth := stands.counter early
  unfold Keys.incrBy
  rw [worth]
  exact stands_iff_keeps.mpr ((stands_iff_keeps.mp stands).put early _)

theorem Stands.expire (stands : keys.Stands key deadline total) (enough : deadline ≤ now + ttl) :
    (keys.expire now ttl key).Stands key deadline total :=
  stands_iff_keeps.mpr ((stands_iff_keeps.mp stands).expire enough)

end

end Keys

end AcemcpRelay.Store
