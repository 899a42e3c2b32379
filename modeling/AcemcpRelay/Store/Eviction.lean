import AcemcpRelay.Store.Table
import Mathlib.Data.List.Perm.Basic

/-!
# Making room

As long as a store is full, the oldest candidate is taken out of it. `Evicts` says what a
whole eviction does: nothing is lost or doubled, only candidates go, they go in the order of
their age, and none that stays is older than one that went. A loop that takes one candidate
at a time ends, and takes exactly as many as are too many.
-/
namespace AcemcpRelay.Store

variable {Row Name State : Type}

structure Evicts (older : Row → Row → Prop) (candidate : Row → Bool) (rows gone rest : List Row) :
    Prop where
  conserved : rows.Perm (gone ++ rest)
  candidates : ∀ row ∈ gone, candidate row = true
  ordered : gone.Pairwise older
  oldest : ∀ row ∈ gone, ∀ other ∈ rest, candidate other = true → older row other

namespace Evicts

variable {older : Row → Row → Prop} {candidate : Row → Bool} {rows next gone rest : List Row}
  {row : Row}

theorem none : Evicts older candidate rows [] rows where
  conserved := List.Perm.refl rows
  candidates := List.forall_mem_nil _
  ordered := List.Pairwise.nil
  oldest := List.forall_mem_nil _

/-- One candidate goes, and then the others. -/
theorem cons (taken : rows.Perm (row :: next)) (isCandidate : candidate row = true)
    (least : ∀ other ∈ next, candidate other = true → older row other)
    (later : Evicts older candidate next gone rest) :
    Evicts older candidate rows (row :: gone) rest where
  conserved := taken.trans (List.Perm.cons row later.conserved)
  candidates := List.forall_mem_cons.mpr ⟨isCandidate, later.candidates⟩
  ordered := by
    refine List.pairwise_cons.mpr ⟨fun other listed => ?_, later.ordered⟩
    have inNext := later.conserved.mem_iff.mpr (List.mem_append_left rest listed)
    exact least other inNext (later.candidates other listed)
  oldest := by
    refine List.forall_mem_cons.mpr ⟨fun other listed => ?_, later.oldest⟩
    exact least other (later.conserved.mem_iff.mpr (List.mem_append_right gone listed))

theorem countP_le (evicts : Evicts older candidate rows gone rest) (p : Row → Bool) :
    rest.countP p ≤ rows.countP p := by
  rw [evicts.conserved.countP_eq, List.countP_append]
  exact Nat.le_add_left _ _

end Evicts

/-! ### The loop -/

/-- Takes one out after the other as long as it is too full. Nothing if the rounds do not
suffice. -/
def evictWhile (full : State → Bool) (evict : State → Option (Name × State)) :
    Nat → State → Option (List Name × State)
  | 0, _ => none
  | rounds + 1, state =>
    if full state then
      match evict state with
      | none => some ([], state)
      | some (name, next) => (evictWhile full evict rounds next).map fun (names, rest) =>
          (name :: names, rest)
    else some ([], state)

/-- What one round has to do. -/
structure EvictsOne (rows : State → List Row) (name : Row → Name) (older : Row → Row → Prop)
    (candidate : Row → Bool) (Good : State → Prop) (evict : State → Option (Name × State)) : Prop where
  one : ∀ state, Good state → 0 < (rows state).countP candidate →
    ∃ row next, evict state = some (name row, next) ∧ Good next ∧
      (rows state).Perm (row :: rows next) ∧ candidate row = true ∧
      ∀ other ∈ rows next, candidate other = true → older row other

theorem evictWhile_spec {rows : State → List Row} {name : Row → Name} {older : Row → Row → Prop}
    {candidate : Row → Bool} {Good : State → Prop} {evict : State → Option (Name × State)}
    {full : State → Bool} {limit rounds : Nat} {state : State}
    (round : EvictsOne rows name older candidate Good evict) (positive : 1 ≤ limit)
    (isFull : ∀ state, full state = true ↔ limit ≤ (rows state).countP candidate)
    (good : Good state) (enough : (rows state).countP candidate < rounds) :
    ∃ gone rest, evictWhile full evict rounds state = some (gone.map name, rest) ∧ Good rest ∧
      Evicts older candidate (rows state) gone (rows rest) ∧
      gone.length = (rows state).countP candidate + 1 - limit ∧
      (rows rest).countP candidate < limit := by
  induction rounds generalizing state with
  | zero => exact absurd enough (Nat.not_lt_zero _)
  | succ rounds ih =>
    rw [evictWhile]
    by_cases room : full state = true
    · have many := (isFull state).mp room
      obtain ⟨row, next, taken, goodNext, perm, isCandidate, least⟩ :=
        round.one state good (by omega)
      have fewer : (rows state).countP candidate = (rows next).countP candidate + 1 := by
        rw [perm.countP_eq, List.countP_cons_of_pos isCandidate]
      obtain ⟨gone, rest, run, goodRest, evicts, count, within⟩ := ih goodNext (by omega)
      refine ⟨row :: gone, rest, ?_, goodRest, .cons perm isCandidate least evicts, ?_, within⟩
      · simp only [if_pos room, taken, run, Option.map_some, List.map_cons]
      · rw [List.length_cons, count]
        omega
    · have few := mt (isFull state).mpr room
      refine ⟨[], state, if_neg room, good, .none, ?_, by omega⟩
      rw [List.length_nil]
      omega

/-- A row, and the table without it. -/
theorem Table.perm_delete_key {Key : Type} [DecidableEq Key] {key : Row → Key} {table : Table key}
    {row : Row} (listed : row ∈ table) :
    table.rows.Perm (row :: (table.delete (key · == key row)).rows) := by
  have gone : row ∉ (table.delete (key · == key row)).rows := by
    intro kept
    have different := (Table.mem_delete.mp kept).2
    rw [beq_self_eq_true] at different
    cases different
  rw [List.perm_ext_iff_of_nodup table.nodup_rows (List.nodup_cons.mpr ⟨gone, Table.nodup_rows _⟩)]
  intro other
  constructor
  · intro stored
    by_cases same : key other = key row
    · rw [Table.eq_of_key_eq stored listed same]
      exact List.mem_cons_self
    · exact List.mem_cons_of_mem _ (Table.mem_delete.mpr ⟨stored, beq_eq_false_iff_ne.mpr same⟩)
  · intro either
    rcases List.mem_cons.mp either with rfl | kept
    · exact listed
    · exact (Table.mem_delete.mp kept).1

end AcemcpRelay.Store
