import Mathlib.Data.Prod.Lex

/-!
# Three-way comparison

The comparison that answers with the sign of an order, for linear orders and
for lexicographic pairs of them.
-/
namespace AcemcpRelay.Store

variable {α β : Type} [LinearOrder α] [LinearOrder β]

def threeWay (a b : α) : Int := if a < b then -1 else if b < a then 1 else 0

theorem threeWay_swap (a b : α) : threeWay b a = -threeWay a b := by
  unfold threeWay
  obtain less | same | more := lt_trichotomy a b
  · simp [less, less.not_gt]
  · simp [same]
  · simp [more, more.not_gt]

theorem threeWay_neg_iff {a b : α} : threeWay a b < 0 ↔ a < b := by
  unfold threeWay
  split
  next less => simp [less]
  next notLess =>
    split <;> simp [notLess]

theorem threeWay_nonpos_iff {a b : α} : threeWay a b ≤ 0 ↔ a ≤ b := by
  have swapped : threeWay b a < 0 ↔ b < a := threeWay_neg_iff
  rw [threeWay_swap a b] at swapped
  have same : threeWay a b ≤ 0 ↔ ¬ b < a := by
    rw [← swapped]
    omega
  rw [same, not_lt]

/-- On pairs the first components decide, and the second ones where these are equal. -/
theorem threeWay_lex (a a' : α) (b b' : β) :
    threeWay (toLex (a, b)) (toLex (a', b')) =
      if a < a' then -1 else if a' < a then 1 else threeWay b b' := by
  unfold threeWay
  simp only [Prod.Lex.toLex_lt_toLex]
  obtain less | rfl | more := lt_trichotomy a a'
  · simp [less]
  · simp
  · simp [more, more.not_gt, more.ne']

end AcemcpRelay.Store
