import AcemcpRelay.Store.Table

/-!
# Calls that keep their distance

A limiter accepts a call under a key if the last one that it accepted is at least an
interval ago. It remembers the times of accepted calls in a table, and when the table is
full it drops what is an interval old. A refused caller is told how long to wait, in whole
units.

All that counts of the table is `due`, the time from which on a key is free. A call moves
the due time of its own key, and an entry is dropped only when its due time has passed; so
histories under different keys do not touch each other.
-/
namespace AcemcpRelay.Store

structure Seen (Key : Type) where
  key : Key
  time : Nat
  deriving DecidableEq, Repr

abbrev SeenTable (Key : Type) := Table (Seen.key : Seen Key → Key)

structure Spacing where
  interval : Nat
  maxEntries : Nat
  /-- What a wait is counted in. -/
  unit : Nat
  positive : 0 < unit

namespace Spacing

variable {Key : Type} [DecidableEq Key] (spacing : Spacing)

/-- The table without what is an interval old, if it is full. -/
def prune (now : Nat) (seen : SeenTable Key) : SeenTable Key :=
  if spacing.maxEntries ≤ seen.rows.length then
    seen.delete fun entry => decide (entry.time + spacing.interval ≤ now)
  else seen

def check (key : Key) (now : Nat) (seen : SeenTable Key) : Nat × SeenTable Key :=
  let accept := (0, (spacing.prune now seen).put { key, time := now })
  match seen.lookup key with
  | none => accept
  | some last =>
    let wait := last.time + spacing.interval - now
    if 0 < wait then ((wait + spacing.unit - 1) / spacing.unit, seen) else accept

/-- Calls with their answers: the units to wait, zero for one that is accepted. -/
def history {Call : Type} (key : Call → Key) (time : Call → Nat) :
    SeenTable Key → List Call → List (Call × Nat)
  | _, [] => []
  | seen, call :: rest =>
    let (wait, after) := spacing.check (key call) (time call) seen
    (call, wait) :: history key time after rest

/-- The time from which on a call under the key is accepted. -/
def due (seen : SeenTable Key) (key : Key) : Nat :=
  match seen.lookup key with
  | none => 0
  | some last => last.time + spacing.interval

/-! ### One call -/

variable {spacing : Spacing} {key other : Key} {now : Nat} {seen : SeenTable Key}

theorem check_of_early (early : now < spacing.due seen key) :
    spacing.check key now seen =
      ((spacing.due seen key - now + spacing.unit - 1) / spacing.unit, seen) := by
  unfold due at early ⊢
  unfold check
  cases found : seen.lookup key with
  | none => rw [found] at early; exact absurd early (Nat.not_lt_zero _)
  | some last =>
    rw [found] at early
    dsimp only at early ⊢
    exact if_pos (by omega)

theorem check_of_due (free : spacing.due seen key ≤ now) :
    spacing.check key now seen = (0, (spacing.prune now seen).put { key, time := now }) := by
  unfold due at free
  unfold check
  cases found : seen.lookup key with
  | none => rfl
  | some last =>
    rw [found] at free
    dsimp only at free ⊢
    exact if_neg (by omega)

/-- Whoever is refused waits at least one unit, and long enough. -/
theorem wait_of_early (early : now < spacing.due seen key) :
    1 ≤ (spacing.check key now seen).1 ∧
      spacing.due seen key ≤ now + (spacing.check key now seen).1 * spacing.unit := by
  have positive := spacing.positive
  rw [check_of_early early]
  dsimp only
  constructor
  · rw [Nat.one_le_div_iff positive]
    omega
  · have enough := Nat.lt_mul_div_succ (spacing.due seen key - now + spacing.unit - 1) positive
    rw [Nat.mul_comm, Nat.add_mul, Nat.one_mul] at enough
    omega

theorem wait_eq_zero_iff : (spacing.check key now seen).1 = 0 ↔ spacing.due seen key ≤ now := by
  constructor
  · intro accepted
    by_contra early
    have waits := (wait_of_early (Nat.lt_of_not_le early)).1
    omega
  · intro free
    rw [check_of_due free]

/-! ### Due times -/

theorem due_put_self (time : Nat) :
    spacing.due (seen.put { key, time }) key = time + spacing.interval := by
  have found : (seen.put { key, time }).lookup key = some { key, time } :=
    Table.lookup_eq_some.mpr ⟨Table.mem_put.mpr (.inl rfl), rfl⟩
  rw [due, found]

theorem due_put_of_ne (different : other ≠ key) (time : Nat) :
    spacing.due (seen.put { key, time }) other = spacing.due seen other := by
  have same : (seen.put { key, time }).lookup other = seen.lookup other := by
    apply Option.ext
    intro entry
    rw [Table.lookup_eq_some, Table.lookup_eq_some, Table.mem_put]
    constructor
    · rintro ⟨rfl | ⟨stored, -⟩, named⟩
      · exact absurd named.symm different
      · exact ⟨stored, named⟩
    · rintro ⟨stored, named⟩
      exact ⟨.inr ⟨stored, named ▸ different⟩, named⟩
  rw [due, due, same]

/-- What is dropped was free already. -/
theorem due_prune (seen : SeenTable Key) (key : Key) :
    spacing.due (spacing.prune now seen) key = spacing.due seen key ∨
      (spacing.due (spacing.prune now seen) key = 0 ∧ spacing.due seen key ≤ now) := by
  unfold prune
  split
  next full =>
    cases found : seen.lookup key with
    | none =>
      have missing : (seen.delete fun entry => decide (entry.time + spacing.interval ≤ now)).lookup key =
          none := by
        rw [Table.lookup_eq_none] at found ⊢
        exact fun entry stored => found entry (Table.mem_delete.mp stored).1
      left
      rw [due, due, found, missing]
    | some last =>
      obtain ⟨stored, named⟩ := Table.lookup_eq_some.mp found
      by_cases old : last.time + spacing.interval ≤ now
      · have missing : (seen.delete fun entry => decide (entry.time + spacing.interval ≤ now)).lookup
            key = none := by
          rw [Table.lookup_eq_none]
          intro entry kept same
          obtain ⟨listed, young⟩ := Table.mem_delete.mp kept
          have one := Table.eq_of_key_eq listed stored (same.trans named.symm)
          rw [one] at young
          exact absurd old (of_decide_eq_false young)
        right
        rw [due, due, found, missing]
        exact ⟨rfl, old⟩
      · have kept : (seen.delete fun entry => decide (entry.time + spacing.interval ≤ now)).lookup
            key = some last := by
          rw [Table.lookup_eq_some]
          exact ⟨Table.mem_delete.mpr ⟨stored, decide_eq_false old⟩, named⟩
        left
        rw [due, due, found, kept]
  · exact .inl rfl

/-- A call under another key leaves a due time alone, or forgets one that has passed. -/
theorem due_check_of_ne (now : Nat) (seen : SeenTable Key) (different : other ≠ key) :
    spacing.due (spacing.check key now seen).2 other = spacing.due seen other ∨
      (spacing.due (spacing.check key now seen).2 other = 0 ∧ spacing.due seen other ≤ now) := by
  by_cases free : spacing.due seen key ≤ now
  · rw [check_of_due free, due_put_of_ne different]
    exact due_prune seen other
  · rw [check_of_early (Nat.lt_of_not_le free)]
    exact .inl rfl

theorem due_check_self (accepted : (spacing.check key now seen).1 = 0) :
    spacing.due (spacing.check key now seen).2 key = now + spacing.interval := by
  rw [check_of_due (wait_eq_zero_iff.mp accepted), due_put_self]

theorem check_of_refused (refused : (spacing.check key now seen).1 ≠ 0) :
    (spacing.check key now seen).2 = seen := by
  rw [check_of_early (Nat.lt_of_not_le fun free => refused (wait_eq_zero_iff.mpr free))]

/-! ### Histories -/

section History

variable {Call : Type} {key : Call → Key} {time : Call → Nat} {calls : List Call} {asked : Key}

theorem history_cons (call : Call) :
    spacing.history key time seen (call :: calls) =
      (call, (spacing.check (key call) (time call) seen).1) ::
        spacing.history key time (spacing.check (key call) (time call) seen).2 calls :=
  rfl

/-- The times of the calls do not go back, and none is before `now`. -/
def Ordered (time : Call → Nat) (now : Nat) (calls : List Call) : Prop :=
  List.IsChain (· ≤ ·) (now :: calls.map time)

theorem ordered_cons {call : Call} :
    Ordered time now (call :: calls) ↔ now ≤ time call ∧ Ordered time (time call) calls := by
  unfold Ordered
  rw [List.map_cons, List.isChain_cons_cons]

/-- Until a due time has come, no call under the key is accepted, whatever is dropped. -/
theorem refused_until {deadline : Nat} (ordered : Ordered time now calls)
    (blocked : deadline ≤ now ∨ deadline ≤ spacing.due seen asked) :
    ∀ answer ∈ spacing.history key time seen calls,
      key answer.1 = asked → time answer.1 < deadline → answer.2 ≠ 0 := by
  induction calls generalizing seen now with
  | nil => exact List.forall_mem_nil _
  | cons call calls ih =>
    obtain ⟨later, rest⟩ := ordered_cons.mp ordered
    have due : deadline ≤ time call ∨ deadline ≤ spacing.due seen asked :=
      blocked.imp_left (Nat.le_trans · later)
    rw [history_cons]
    refine List.forall_mem_cons.mpr ⟨?_, ih rest ?_⟩
    · rintro rfl early accepted
      rcases due with past | blocked
      · exact absurd early (Nat.not_lt.mpr past)
      · have free := wait_eq_zero_iff.mp accepted
        exact absurd early (Nat.not_lt.mpr (Nat.le_trans blocked free))
    · -- the due time stays as long as it has not come
      rcases due with past | blocked
      · exact .inl past
      · by_cases same : asked = key call
        · subst same
          by_cases accepted : (spacing.check (key call) (time call) seen).1 = 0
          · exact .inl (Nat.le_trans blocked (wait_eq_zero_iff.mp accepted))
          · rw [check_of_refused accepted]
            exact .inr blocked
        · rcases due_check_of_ne (time call) seen same with kept | ⟨-, past⟩
          · exact .inr (kept ▸ blocked)
          · exact .inl (Nat.le_trans blocked past)

/-- After a due time, the first call under the key is accepted. -/
theorem accepted_after {deadline : Nat} {middle after : List (Call × Nat)} {last : Call × Nat}
    (free : spacing.due seen (key last.1) ≤ deadline)
    (split : spacing.history key time seen calls = middle ++ last :: after)
    (none : ∀ answer ∈ middle, key answer.1 = key last.1 → answer.2 ≠ 0)
    (late : deadline ≤ time last.1) : last.2 = 0 := by
  induction middle generalizing seen calls with
  | nil =>
    cases calls with
    | nil => cases split
    | cons call calls =>
      rw [history_cons, List.nil_append, List.cons.injEq] at split
      obtain ⟨rfl, -⟩ := split
      exact wait_eq_zero_iff.mpr (Nat.le_trans free late)
  | cons first middle ih =>
    cases calls with
    | nil => cases split
    | cons call calls =>
      rw [history_cons, List.cons_append, List.cons.injEq] at split
      obtain ⟨rfl, split⟩ := split
      obtain ⟨refused, none⟩ := List.forall_mem_cons.mp none
      refine ih ?_ split none
      by_cases same : key last.1 = key call
      · rw [check_of_refused (refused same.symm)]
        exact free
      · rcases due_check_of_ne (time call) seen same with kept | ⟨gone, -⟩
        · exact kept ▸ free
        · exact gone ▸ Nat.zero_le _

/-- The answers under a key are those of a limiter that is asked for this key alone. -/
theorem history_filter {alone : SeenTable Key} (ordered : Ordered time now calls)
    (same : max now (spacing.due alone asked) = max now (spacing.due seen asked)) :
    spacing.history key time alone (calls.filter (key · = asked)) =
      (spacing.history key time seen calls).filter (key ·.1 = asked) := by
  induction calls generalizing seen alone now with
  | nil => rfl
  | cons call calls ih =>
    obtain ⟨later, rest⟩ := ordered_cons.mp ordered
    have due : max (time call) (spacing.due alone asked) =
        max (time call) (spacing.due seen asked) := by omega
    by_cases own : key call = asked
    · subst own
      rw [List.filter_cons_of_pos (by simp), history_cons, history_cons,
        List.filter_cons_of_pos (by simp)]
      by_cases free : spacing.due seen (key call) ≤ time call
      · have freeAlone : spacing.due alone (key call) ≤ time call := by omega
        have accepted := wait_eq_zero_iff.mpr free
        have acceptedAlone := wait_eq_zero_iff.mpr freeAlone
        rw [accepted, acceptedAlone, ih rest]
        rw [due_check_self accepted, due_check_self acceptedAlone]
      · have sameDue : spacing.due alone (key call) = spacing.due seen (key call) := by omega
        have early := Nat.lt_of_not_le free
        rw [check_of_early early, check_of_early (sameDue ▸ early), sameDue]
        rw [ih rest due]
    · rw [List.filter_cons_of_neg (by simpa using own), history_cons,
        List.filter_cons_of_neg (by simpa using own)]
      refine ih rest (due.trans ?_)
      rcases due_check_of_ne (time call) seen (Ne.symm own) with kept | ⟨gone, past⟩
      · rw [kept]
      · rw [gone]
        omega

/-- Accepted calls under one key keep their distance. -/
theorem history_spaced (ordered : Ordered time now calls) :
    (spacing.history key time seen calls).Pairwise fun first later =>
      key first.1 = key later.1 → first.2 = 0 → later.2 = 0 →
        time first.1 + spacing.interval ≤ time later.1 := by
  induction calls generalizing seen now with
  | nil => exact List.Pairwise.nil
  | cons call calls ih =>
    obtain ⟨-, rest⟩ := ordered_cons.mp ordered
    rw [history_cons]
    refine List.pairwise_cons.mpr ⟨?_, ih rest⟩
    intro later listed same accepted acceptedToo
    have blocked : time call + spacing.interval ≤ time call ∨ time call + spacing.interval ≤
        spacing.due (spacing.check (key call) (time call) seen).2 (key call) :=
      .inr (Nat.le_of_eq (due_check_self accepted).symm)
    by_contra close
    exact refused_until rest blocked later listed same.symm (Nat.lt_of_not_le close) acceptedToo

/-- A refused call that is repeated after its wait is accepted, unless another was in between. -/
theorem accepted_after_wait {before middle after : List (Call × Nat)} {refused last : Call × Nat}
    (split : spacing.history key time seen calls = before ++ refused :: (middle ++ last :: after))
    (waits : refused.2 ≠ 0) (same : key last.1 = key refused.1)
    (none : ∀ answer ∈ middle, key answer.1 = key refused.1 → answer.2 ≠ 0)
    (late : time refused.1 + refused.2 * spacing.unit ≤ time last.1) : last.2 = 0 := by
  induction before generalizing seen calls with
  | nil =>
    cases calls with
    | nil => cases split
    | cons call calls =>
      rw [history_cons, List.nil_append, List.cons.injEq] at split
      obtain ⟨rfl, split⟩ := split
      dsimp only at waits same none late
      rw [check_of_refused waits] at split
      have early := Nat.lt_of_not_le fun free => waits (wait_eq_zero_iff.mpr free)
      have enough := (wait_of_early early).2
      exact accepted_after (same ▸ enough) split (same ▸ none) late
  | cons first before ih =>
    cases calls with
    | nil => cases split
    | cons call calls =>
      rw [history_cons, List.cons_append, List.cons.injEq] at split
      exact ih split.2

end History

end Spacing

end AcemcpRelay.Store
