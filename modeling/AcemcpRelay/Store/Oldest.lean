import Mathlib.Data.List.Nodup

/-!
# The oldest rows

What a query with `ORDER BY stamp LIMIT n` may answer: rows in the order of their stamps, as
many as there are up to the limit, and none that is left out has a smaller stamp. Of rows
with the same stamp any may come first.
-/
namespace AcemcpRelay.Store

variable {Row : Type} {stamp : Row → Nat} {limit : Nat} {rows chosen : List Row}

/-- `chosen` is an answer. -/
def Oldest (stamp : Row → Nat) (limit : Nat) (rows chosen : List Row) : Prop :=
  chosen.Nodup ∧ (∀ row ∈ chosen, row ∈ rows) ∧ chosen.Pairwise (stamp · ≤ stamp ·) ∧
    chosen.length = min limit rows.length ∧
    ∀ row ∈ rows, row ∉ chosen → ∀ first ∈ chosen, stamp first ≤ stamp row

instance [DecidableEq Row] (stamp : Row → Nat) (limit : Nat) (rows chosen : List Row) :
    Decidable (Oldest stamp limit rows chosen) :=
  inferInstanceAs (Decidable (_ ∧ _ ∧ _ ∧ _ ∧ _))

/-- A row with a smaller stamp stands before one that is chosen. -/
theorem Oldest.before (answer : Oldest stamp limit rows chosen) {row other : Row}
    {earlier later : List Row} (split : chosen = earlier ++ row :: later) (stored : other ∈ rows)
    (smaller : stamp other < stamp row) : other ∈ earlier := by
  obtain ⟨-, -, ordered, -, oldest⟩ := answer
  have listed : row ∈ chosen := by simp [split]
  by_cases present : other ∈ chosen
  · rw [split, List.pairwise_append, List.pairwise_cons] at ordered
    rw [split, List.mem_append, List.mem_cons] at present
    rcases present with before | rfl | behind
    · exact before
    · exact absurd smaller (Nat.lt_irrefl _)
    · exact absurd smaller (Nat.not_lt.mpr (ordered.2.1.1 other behind))
  · exact absurd smaller (Nat.not_lt.mpr (oldest other stored present row listed))

end AcemcpRelay.Store
