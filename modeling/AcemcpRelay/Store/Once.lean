import Mathlib.Algebra.BigOperators.Group.Finset.Basic
import Mathlib.Algebra.Order.Ring.Int

/-!
# Charging once

A ledger of what has been charged: each token once, with the amount that came with it, and
the total. Amounts that are not positive are not charged.

If every token comes with one amount, the ledger depends on the set of the items only, not
on their order or on how often they come.
-/
namespace AcemcpRelay.Store

structure Once (Token : Type) where
  marked : Token → Option Int
  total : Int

namespace Once

variable {Token : Type} [DecidableEq Token]

def empty : Once Token := ⟨fun _ => none, 0⟩

def charge (ledger : Once Token) (item : Token × Int) : Once Token :=
  if 0 < item.2 ∧ ledger.marked item.1 = none then
    ⟨Function.update ledger.marked item.1 (some item.2), ledger.total + item.2⟩
  else ledger

def chargeAll (ledger : Once Token) (items : List (Token × Int)) : Once Token :=
  items.foldl charge ledger

theorem chargeAll_append (ledger : Once Token) (items more : List (Token × Int)) :
    ledger.chargeAll (items ++ more) = (ledger.chargeAll items).chargeAll more :=
  List.foldl_append

theorem charge_total_le (ledger : Once Token) (item : Token × Int) :
    ledger.total ≤ (ledger.charge item).total := by
  unfold charge
  split
  next new => exact Int.le_add_of_nonneg_right (Int.le_of_lt new.1)
  · exact Int.le_refl _

theorem chargeAll_total_le (ledger : Once Token) (items : List (Token × Int)) :
    ledger.total ≤ (ledger.chargeAll items).total := by
  induction items generalizing ledger with
  | nil => exact Int.le_refl _
  | cons item items ih => exact (charge_total_le ledger item).trans (ih (ledger.charge item))

/-- A ledger whose total does not rise is left as it is. -/
theorem chargeAll_eq_self {ledger : Once Token} {items : List (Token × Int)}
    (quiet : (ledger.chargeAll items).total ≤ ledger.total) : ledger.chargeAll items = ledger := by
  induction items generalizing ledger with
  | nil => rfl
  | cons item items ih =>
    change ((ledger.charge item).chargeAll items).total ≤ ledger.total at quiet
    have rest := chargeAll_total_le (ledger.charge item) items
    have same : ledger.charge item = ledger := by
      unfold charge at rest ⊢
      split at rest
      next new =>
        have positive := new.1
        rw [charge, if_pos new] at quiet
        dsimp only at rest
        omega
      next old => exact if_neg old
    change (ledger.charge item).chargeAll items = ledger
    rw [same] at quiet ⊢
    exact ih quiet

theorem marked_chargeAll {ledger : Once Token} {items : List (Token × Int)} {token : Token}
    (known : ledger.marked token ≠ none) : (ledger.chargeAll items).marked token ≠ none := by
  induction items generalizing ledger with
  | nil => exact known
  | cons item items ih =>
    refine ih ?_
    unfold charge
    split
    · by_cases same : token = item.1
      · simp [same]
      · simpa [same] using known
    · exact known

theorem marked_of_mem {ledger : Once Token} {items : List (Token × Int)} {item : Token × Int}
    (member : item ∈ items) (positive : 0 < item.2) :
    (ledger.chargeAll items).marked item.1 ≠ none := by
  induction items generalizing ledger with
  | nil => cases member
  | cons first items ih =>
    rcases List.mem_cons.mp member with rfl | later
    · have marks : (ledger.charge item).marked item.1 ≠ none := by
        unfold charge
        split
        · simp
        next old => exact fun new => old ⟨positive, new⟩
      change ((ledger.charge item).chargeAll items).marked item.1 ≠ none
      exact marked_chargeAll marks
    · exact ih later

/-- Items that come again change nothing. -/
theorem chargeAll_chargeAll (ledger : Once Token) (items : List (Token × Int)) :
    (ledger.chargeAll items).chargeAll items = ledger.chargeAll items := by
  have settled : ∀ others : List (Token × Int), others ⊆ items →
      (ledger.chargeAll items).chargeAll others = ledger.chargeAll items := by
    intro others
    induction others with
    | nil => exact fun _ => rfl
    | cons item others ih =>
      intro inside
      rw [List.cons_subset] at inside
      have same : (ledger.chargeAll items).charge item = ledger.chargeAll items :=
        if_neg fun new => marked_of_mem inside.1 new.1 new.2
      change ((ledger.chargeAll items).charge item).chargeAll others = _
      rw [same]
      exact ih inside.2
  exact settled items (List.Subset.refl items)

/-- No token comes with two amounts. -/
def OnePrice (items : List (Token × Int)) : Prop :=
  ∀ item ∈ items, ∀ other ∈ items, item.1 = other.1 → item = other

omit [DecidableEq Token] in
theorem OnePrice.left {items more : List (Token × Int)} (single : OnePrice (items ++ more)) :
    OnePrice items := fun item member other listed =>
  single item (List.mem_append_left _ member) other (List.mem_append_left _ listed)

/-- The items that are charged. -/
def billable (items : List (Token × Int)) : Finset (Token × Int) :=
  items.toFinset.filter (0 < ·.2)

theorem mem_billable {items : List (Token × Int)} {item : Token × Int} :
    item ∈ billable items ↔ item ∈ items ∧ 0 < item.2 := by
  simp [billable]

theorem billable_concat (items : List (Token × Int)) (item : Token × Int) :
    billable (items ++ [item]) =
      if 0 < item.2 then insert item (billable items) else billable items := by
  ext other
  by_cases positive : 0 < item.2
  · rw [if_pos positive, Finset.mem_insert, mem_billable, mem_billable, List.mem_append,
      List.mem_singleton]
    constructor
    · rintro ⟨old | new, billed⟩
      · exact .inr ⟨old, billed⟩
      · exact .inl new
    · rintro (rfl | ⟨old, billed⟩)
      · exact ⟨.inr rfl, positive⟩
      · exact ⟨.inl old, billed⟩
  · rw [if_neg positive, mem_billable, mem_billable, List.mem_append, List.mem_singleton]
    constructor
    · rintro ⟨old | rfl, billed⟩
      · exact ⟨old, billed⟩
      · exact absurd billed positive
    · exact fun ⟨old, billed⟩ => ⟨.inl old, billed⟩

/-- What a ledger holds that was empty before the items came. -/
structure Charged (items : List (Token × Int)) (ledger : Once Token) : Prop where
  marked : ∀ token amount, ledger.marked token = some amount ↔ (token, amount) ∈ billable items
  total : ledger.total = ∑ item ∈ billable items, item.2

theorem Charged.step {items : List (Token × Int)} {ledger : Once Token} {item : Token × Int}
    (single : OnePrice (items ++ [item])) (charged : Charged items ledger) :
    Charged (items ++ [item]) (ledger.charge item) := by
  have last : item ∈ items ++ [item] := List.mem_append_right _ List.mem_cons_self
  unfold charge
  by_cases positive : 0 < item.2
  · by_cases new : ledger.marked item.1 = none
    · rw [if_pos ⟨positive, new⟩]
      have absent : item ∉ billable items := by
        intro listed
        rw [(charged.marked item.1 item.2).mpr listed] at new
        cases new
      refine ⟨fun token amount => ?_, ?_⟩
      · rw [billable_concat, if_pos positive, Finset.mem_insert, ← charged.marked]
        dsimp only
        by_cases same : token = item.1
        · subst same
          rw [Function.update_self, new, Option.some.injEq]
          constructor
          · rintro rfl
            exact .inl rfl
          · rintro (equal | impossible)
            · exact (congrArg Prod.snd equal).symm
            · cases impossible
        · rw [Function.update_of_ne same]
          refine ⟨.inr, fun either => either.resolve_left fun equal => same ?_⟩
          exact congrArg Prod.fst equal
      · rw [billable_concat, if_pos positive, Finset.sum_insert absent, charged.total, Int.add_comm]
    · -- the token has been charged, with the same amount
      rw [if_neg fun both => new both.2]
      obtain ⟨amount, found⟩ := Option.ne_none_iff_exists'.mp new
      have listed := (charged.marked item.1 amount).mp found
      have same : (item.1, amount) = item := single _
        (List.mem_append_left _ (mem_billable.mp listed).1) _ last rfl
      have kept : billable (items ++ [item]) = billable items := by
        rw [billable_concat, if_pos positive, Finset.insert_eq_of_mem (same ▸ listed)]
      exact ⟨by rw [kept]; exact charged.marked, by rw [kept]; exact charged.total⟩
  · rw [if_neg fun both => positive both.1]
    have kept : billable (items ++ [item]) = billable items := by
      rw [billable_concat, if_neg positive]
    exact ⟨by rw [kept]; exact charged.marked, by rw [kept]; exact charged.total⟩

theorem charged_chargeAll {items : List (Token × Int)} (single : OnePrice items) :
    Charged items (empty.chargeAll items) := by
  induction items using List.reverseRecOn with
  | nil => exact ⟨fun token amount => by simp [chargeAll, empty, billable], rfl⟩
  | append_singleton items item ih =>
    rw [chargeAll_append]
    exact (ih single.left).step single

end Once

end AcemcpRelay.Store
