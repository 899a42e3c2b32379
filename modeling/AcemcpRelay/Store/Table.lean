import Mathlib.Data.List.Nodup
import Mathlib.Data.List.Count

/-!
# Keyed tables

A table is a finite list of rows, no two of which share a primary key. The key
constraint is a field of the type, so that no operation can build a table that
violates it: an `INSERT` that would fails instead, and an `UPDATE` has to say
that it leaves the key columns alone.
-/
namespace AcemcpRelay.Store

variable {Row Key : Type}

/-- Rows under a primary key. -/
structure Table (key : Row → Key) where
  rows : List Row
  unique : (rows.map key).Nodup

namespace Table

variable {key : Row → Key}

instance : Membership Row (Table key) where
  mem table row := row ∈ table.rows

theorem mem_def (table : Table key) (row : Row) : row ∈ table ↔ row ∈ table.rows := Iff.rfl

instance [DecidableEq Row] (table : Table key) (row : Row) : Decidable (row ∈ table) :=
  inferInstanceAs (Decidable (row ∈ table.rows))

instance decidableForall (table : Table key) (P : Row → Prop) [DecidablePred P] :
    Decidable (∀ row ∈ table, P row) :=
  inferInstanceAs (Decidable (∀ row ∈ table.rows, P row))

instance decidableExists (table : Table key) (P : Row → Prop) [DecidablePred P] :
    Decidable (∃ row ∈ table, P row) :=
  inferInstanceAs (Decidable (∃ row ∈ table.rows, P row))

@[ext] theorem ext_rows {left right : Table key} (same : left.rows = right.rows) : left = right := by
  cases left
  cases right
  congr

def empty : Table key := ⟨[], List.nodup_nil⟩

@[simp] theorem not_mem_empty (row : Row) : row ∉ (empty : Table key) := List.not_mem_nil

/-- `SELECT * FROM table WHERE p`, in storage order. -/
def select (table : Table key) (p : Row → Bool) : List Row := table.rows.filter p

@[simp] theorem mem_select {table : Table key} {p : Row → Bool} {row : Row} :
    row ∈ table.select p ↔ row ∈ table ∧ p row = true := List.mem_filter

/-- `SELECT EXISTS(SELECT 1 FROM table WHERE p)`. -/
def holds (table : Table key) (p : Row → Bool) : Bool := table.rows.any p

@[simp] theorem holds_eq_true {table : Table key} {p : Row → Bool} :
    table.holds p = true ↔ ∃ row ∈ table, p row = true := List.any_eq_true

@[simp] theorem holds_eq_false {table : Table key} {p : Row → Bool} :
    table.holds p = false ↔ ∀ row ∈ table, p row = false := by
  simp [holds, mem_def]

/-- `SELECT COUNT(*) FROM table WHERE p`. -/
def count (table : Table key) (p : Row → Bool) : Nat := table.rows.countP p

/-- The row with the given primary key. -/
def lookup [DecidableEq Key] (table : Table key) (k : Key) : Option Row :=
  table.rows.find? (fun row => decide (key row = k))

/-- A primary key determines its row. -/
theorem eq_of_key_eq {table : Table key} {a b : Row} (ha : a ∈ table) (hb : b ∈ table)
    (same : key a = key b) : a = b :=
  List.inj_on_of_nodup_map table.unique ha hb same

theorem nodup_rows (table : Table key) : table.rows.Nodup := List.Nodup.of_map key table.unique

/-- Selected rows that agree on the rest of the key differ in the column `f`. -/
theorem nodup_map_select {Column : Type} (table : Table key) (p : Row → Bool) (f : Row → Column)
    (determined : ∀ a ∈ table, ∀ b ∈ table, p a = true → p b = true → f a = f b → key a = key b) :
    ((table.select p).map f).Nodup := by
  apply List.Nodup.map_on
  · intro a ha b hb same
    rw [mem_select] at ha hb
    exact eq_of_key_eq ha.1 hb.1 (determined a ha.1 b hb.1 ha.2 hb.2 same)
  · exact (nodup_rows table).filter p

theorem lookup_eq_some [DecidableEq Key] {table : Table key} {k : Key} {row : Row} :
    table.lookup k = some row ↔ row ∈ table ∧ key row = k := by
  constructor
  · intro found
    have hit := List.find?_some found
    exact ⟨List.mem_of_find?_eq_some found, by simpa using hit⟩
  · rintro ⟨member, rfl⟩
    cases found : table.lookup (key row) with
    | none =>
      have missed := List.find?_eq_none.mp found row member
      simp at missed
    | some other =>
      have hit := List.find?_some found
      have same : key other = key row := by simpa using hit
      rw [eq_of_key_eq (List.mem_of_find?_eq_some found) member same]

theorem lookup_eq_none [DecidableEq Key] {table : Table key} {k : Key} :
    table.lookup k = none ↔ ∀ row ∈ table, key row ≠ k := by
  simp [lookup, mem_def]

/-- `DELETE FROM table WHERE p`. -/
def delete (table : Table key) (p : Row → Bool) : Table key :=
  ⟨table.rows.filter (fun row => !p row),
    table.unique.sublist ((List.filter_sublist).map key)⟩

@[simp] theorem mem_delete {table : Table key} {p : Row → Bool} {row : Row} :
    row ∈ table.delete p ↔ row ∈ table ∧ p row = false := by
  simp [delete, mem_def]

/-- The table with the row under its key, whatever was there before. -/
def put [DecidableEq Key] (table : Table key) (row : Row) : Table key :=
  ⟨row :: (table.delete fun other => decide (key other = key row)).rows, by
    rw [List.map_cons, List.nodup_cons]
    refine ⟨fun member => ?_, (table.delete _).unique⟩
    obtain ⟨other, kept, same⟩ := List.mem_map.mp member
    have different := (mem_delete.mp kept).2
    simp [same] at different⟩

theorem mem_put [DecidableEq Key] {table : Table key} {row other : Row} :
    other ∈ table.put row ↔ other = row ∨ (other ∈ table ∧ key other ≠ key row) := by
  rw [mem_def, put, List.mem_cons]
  exact or_congr_right (mem_delete.trans (and_congr_right fun _ => by simp))

/-- Used where `f` leaves the key alone by definition: the proof then has the type
that `update` asks for without unfolding `f`. -/
theorem keeps_key {f : Row → Row} (same : ∀ row, key (f row) = key row) :
    ∀ row, key (f row) = key row := same

/-- `UPDATE table SET f WHERE p`. -/
def update (table : Table key) (p : Row → Bool) (f : Row → Row)
    (keeps : ∀ row, key (f row) = key row := by exact Store.Table.keeps_key fun _ => rfl) :
    Table key :=
  ⟨table.rows.map (fun row => if p row then f row else row), by
    have same : (table.rows.map (fun row => if p row then f row else row)).map key =
        table.rows.map key := by
      rw [List.map_map]
      apply List.map_congr_left
      intro row _
      simp only [Function.comp]
      split
      · exact keeps row
      · rfl
    rw [same]
    exact table.unique⟩

theorem mem_update {table : Table key} {p : Row → Bool} {f : Row → Row} {row : Row}
    (keeps : ∀ row, key (f row) = key row := by exact Store.Table.keeps_key fun _ => rfl) :
    row ∈ table.update p f keeps ↔
      ∃ old ∈ table, row = if p old then f old else old := by
  simp only [update, mem_def, List.mem_map]
  exact exists_congr fun old => and_congr_right fun _ => eq_comm

/-- A row of an updated table comes from a row with its key, changed or not. -/
theorem mem_update_cases {table : Table key} {p : Row → Bool} {f : Row → Row} {row : Row}
    {keeps : ∀ row, key (f row) = key row} (member : row ∈ table.update p f keeps) :
    (row ∈ table ∧ p row = false) ∨ (∃ old ∈ table, p old = true ∧ row = f old) := by
  obtain ⟨old, stored, rfl⟩ := (mem_update keeps).mp member
  cases hit : p old with
  | false => exact .inl ⟨by simpa using stored, by simp [hit]⟩
  | true => exact .inr ⟨old, stored, hit, by simp⟩

theorem forall_update {table : Table key} {p : Row → Bool} {f : Row → Row} {P : Row → Prop}
    (missed : ∀ row ∈ table, p row = false → P row) (hit : ∀ row ∈ table, p row = true → P (f row))
    (keeps : ∀ row, key (f row) = key row := by exact Store.Table.keeps_key fun _ => rfl) :
    ∀ row ∈ table.update p f keeps, P row := by
  intro row member
  rcases mem_update_cases member with ⟨stored, other⟩ | ⟨old, stored, chosen, rfl⟩
  · exact missed row stored other
  · exact hit old stored chosen

theorem mem_update_of_not {table : Table key} {p : Row → Bool} {f : Row → Row} {row : Row}
    (member : row ∈ table) (missed : p row = false)
    (keeps : ∀ row, key (f row) = key row := by exact Store.Table.keeps_key fun _ => rfl) :
    row ∈ table.update p f keeps :=
  (mem_update keeps).mpr ⟨row, member, by simp [missed]⟩

theorem mem_update_of_hit {table : Table key} {p : Row → Bool} {f : Row → Row} {row : Row}
    (member : row ∈ table) (hit : p row = true)
    (keeps : ∀ row, key (f row) = key row := by exact Store.Table.keeps_key fun _ => rfl) :
    f row ∈ table.update p f keeps :=
  (mem_update keeps).mpr ⟨row, member, by simp [hit]⟩

/-- A deletion that hits no row does nothing. -/
theorem delete_eq_self {table : Table key} {p : Row → Bool} (missed : ∀ row ∈ table, p row = false) :
    table.delete p = table := by
  refine ext_rows (List.filter_eq_self.mpr fun row member => ?_)
  simp [missed row member]

/-- An update that hits no row does nothing. -/
theorem update_eq_self {table : Table key} {p : Row → Bool} {f : Row → Row}
    (missed : ∀ row ∈ table, p row = false)
    (keeps : ∀ row, key (f row) = key row := by exact Store.Table.keeps_key fun _ => rfl) :
    table.update p f keeps = table := by
  refine ext_rows ((List.map_congr_left fun row member => ?_).trans (List.map_id table.rows))
  simp [missed row member]

/-- `INSERT INTO table VALUES rows`: fails when a primary key would repeat. -/
def insert [DecidableEq Key] (table : Table key) (added : List Row) : Option (Table key) :=
  if fresh : ((table.rows ++ added).map key).Nodup then some ⟨table.rows ++ added, fresh⟩ else none

theorem insert_eq_some [DecidableEq Key] {table after : Table key} {added : List Row} :
    table.insert added = some after ↔
      ((table.rows ++ added).map key).Nodup ∧ after.rows = table.rows ++ added := by
  unfold insert
  split
  next fresh =>
    constructor
    · rintro ⟨⟩
      exact ⟨fresh, rfl⟩
    · rintro ⟨_, same⟩
      exact congrArg some (ext_rows same.symm)
  next clash =>
    constructor
    · rintro ⟨⟩
    · rintro ⟨fresh, _⟩
      exact absurd fresh clash

theorem mem_insert [DecidableEq Key] {table after : Table key} {added : List Row}
    (inserted : table.insert added = some after) {row : Row} :
    row ∈ after ↔ row ∈ table ∨ row ∈ added := by
  rw [mem_def, (insert_eq_some.mp inserted).2, List.mem_append, mem_def]

/-- An inserted key was free. -/
theorem key_fresh [DecidableEq Key] {table after : Table key} {added : List Row}
    (inserted : table.insert added = some after) {old new : Row} (stored : old ∈ table)
    (member : new ∈ added) : key old ≠ key new := by
  have fresh := (insert_eq_some.mp inserted).1
  rw [List.map_append, List.nodup_append] at fresh
  exact fresh.2.2 _ (List.mem_map_of_mem stored) _ (List.mem_map_of_mem member)

/-! ### Tracing rows back

`Traces R before after`: every row of the later table comes from a row of the
earlier one, related to it by `R`. Deletions and updates are traced, insertions
are not. -/

def Traces (R : Row → Row → Prop) (before after : Table key) : Prop :=
  ∀ row ∈ after, ∃ old ∈ before, R old row

section Traces

variable {R : Row → Row → Prop} {table : Table key}

theorem Traces.refl (same : ∀ row, R row row) : Traces R table table :=
  fun row member => ⟨row, member, same row⟩

theorem Traces.trans {before middle after : Table key}
    (compose : ∀ a b c, R a b → R b c → R a c) (first : Traces R before middle)
    (second : Traces R middle after) : Traces R before after := by
  intro row member
  obtain ⟨between, stored, later⟩ := second row member
  obtain ⟨old, source, earlier⟩ := first between stored
  exact ⟨old, source, compose old between row earlier later⟩

theorem traces_delete (same : ∀ row, R row row) (p : Row → Bool) :
    Traces R table (table.delete p) :=
  fun row member => ⟨row, (mem_delete.mp member).1, same row⟩

theorem traces_update {p : Row → Bool} {f : Row → Row}
    (same : ∀ row, R row row) (changed : ∀ row ∈ table, p row = true → R row (f row))
    (keeps : ∀ row, key (f row) = key row := by exact Store.Table.keeps_key fun _ => rfl) :
    Traces R table (table.update p f keeps) := by
  intro row member
  rcases mem_update_cases member with ⟨stored, -⟩ | ⟨old, stored, hit, rfl⟩
  · exact ⟨row, stored, same row⟩
  · exact ⟨old, stored, changed old stored hit⟩

end Traces

/-! ### Rewriting rows in place

`Rewrites R before after`: the rows of the two tables correspond under `R`, none
appears and none disappears. -/

structure Rewrites (R : Row → Row → Prop) (before after : Table key) : Prop where
  source : Traces R before after
  target : ∀ old ∈ before, ∃ row ∈ after, R old row

theorem Rewrites.refl {R : Row → Row → Prop} {table : Table key} (same : ∀ row, R row row) :
    Rewrites R table table :=
  ⟨.refl same, fun old stored => ⟨old, stored, same old⟩⟩

theorem rewrites_update {R : Row → Row → Prop} {table : Table key} {p : Row → Bool}
    {f : Row → Row} (same : ∀ row, R row row)
    (changed : ∀ row ∈ table, p row = true → R row (f row))
    (keeps : ∀ row, key (f row) = key row := by exact Store.Table.keeps_key fun _ => rfl) :
    Rewrites R table (table.update p f keeps) := by
  refine ⟨traces_update same changed keeps, fun old stored => ?_⟩
  cases hit : p old with
  | false => exact ⟨old, mem_update_of_not stored hit keeps, same old⟩
  | true => exact ⟨f old, mem_update_of_hit stored hit keeps, changed old stored hit⟩

/-! ### Writes that a selection does not see -/

section Select

variable {table : Table key} {p q : Row → Bool}

theorem select_delete (apart : ∀ row ∈ table, q row = true → p row = false) :
    (table.delete p).select q = table.select q := by
  unfold select delete
  rw [List.filter_filter]
  apply List.filter_congr
  intro row member
  cases wanted : q row with
  | false => simp
  | true => simp [apart row member wanted]

theorem select_insert [DecidableEq Key] {after : Table key} {added : List Row}
    (inserted : table.insert added = some after) (apart : ∀ row ∈ added, q row = false) :
    after.select q = table.select q := by
  have none : added.filter q = [] := by simpa using apart
  rw [select, (insert_eq_some.mp inserted).2, List.filter_append, none, List.append_nil, select]

theorem select_update {f : Row → Row}
    (apart : ∀ row ∈ table, p row = true → q row = false ∧ q (f row) = false)
    (keeps : ∀ row, key (f row) = key row := by exact Store.Table.keeps_key fun _ => rfl) :
    (table.update p f keeps).select q = table.select q := by
  have same : ∀ rows : List Row,
      (∀ row ∈ rows, p row = true → q row = false ∧ q (f row) = false) →
      (rows.map fun row => if p row then f row else row).filter q = rows.filter q := by
    intro rows
    induction rows with
    | nil => simp
    | cons row rest ih =>
      intro all
      obtain ⟨here, later⟩ := List.forall_mem_cons.mp all
      rw [List.map_cons, List.filter_cons, List.filter_cons, ih later]
      cases hit : p row with
      | false => simp
      | true => simp [here hit]
  exact same table.rows apart

/-- What an update leaves of a column of the selected rows. -/
theorem map_select_update {Column : Type} {f : Row → Row} {g : Row → Column}
    (same : ∀ row ∈ table, p row = true → q (f row) = q row ∧ g (f row) = g row)
    (keeps : ∀ row, key (f row) = key row := by exact Store.Table.keeps_key fun _ => rfl) :
    ((table.update p f keeps).select q).map g = (table.select q).map g := by
  have general : ∀ rows : List Row,
      (∀ row ∈ rows, p row = true → q (f row) = q row ∧ g (f row) = g row) →
      ((rows.map fun row => if p row then f row else row).filter q).map g =
        (rows.filter q).map g := by
    intro rows
    induction rows with
    | nil => simp
    | cons row rest ih =>
      intro all
      obtain ⟨here, later⟩ := List.forall_mem_cons.mp all
      rw [List.map_cons]
      cases hit : p row with
      | false => simp [List.filter_cons, apply_ite (List.map g), ih later]
      | true =>
        obtain ⟨chosen, column⟩ := here hit
        simp [List.filter_cons, chosen, column, apply_ite (List.map g), ih later]
  exact general table.rows same

end Select

/-! ### Counting -/

theorem count_mono {table : Table key} {p q : Row → Bool}
    (implies : ∀ row ∈ table, p row = true → q row = true) : table.count p ≤ table.count q :=
  List.countP_mono_left implies

theorem count_delete_le (table : Table key) (p q : Row → Bool) :
    (table.delete p).count q ≤ table.count q :=
  List.filter_sublist.countP_le

/-- An update that no counted row notices does not change the count. -/
theorem count_update {table : Table key} {p q : Row → Bool} {f : Row → Row}
    (blind : ∀ row ∈ table, p row = true → q (f row) = q row)
    (keeps : ∀ row, key (f row) = key row := by exact Store.Table.keeps_key fun _ => rfl) :
    (table.update p f keeps).count q = table.count q := by
  unfold count update
  rw [List.countP_map]
  apply List.countP_congr
  intro row member
  simp only [Function.comp]
  split
  next hit => rw [blind row member hit]
  · exact Iff.rfl

/-- An update whose hits were not counted before and are counted after it. -/
theorem count_update_hits {table : Table key} {p q : Row → Bool} {f : Row → Row}
    (hits : ∀ row ∈ table, p row = true → q row = false ∧ q (f row) = true)
    (keeps : ∀ row, key (f row) = key row := by exact Store.Table.keeps_key fun _ => rfl) :
    (table.update p f keeps).count q = table.count q + table.count p := by
  unfold count update
  rw [List.countP_map]
  have split : ∀ rows : List Row, (∀ row ∈ rows, p row = true → q row = false ∧ q (f row) = true) →
      rows.countP (q ∘ fun row => if p row then f row else row) = rows.countP q + rows.countP p := by
    intro rows
    induction rows with
    | nil => simp
    | cons row rest ih =>
      intro all
      obtain ⟨here, later⟩ := List.forall_mem_cons.mp all
      rw [List.countP_cons, List.countP_cons, List.countP_cons, ih later]
      cases hit : p row with
      | false => simp [hit]; omega
      | true => simp [hit, here hit]; omega
  exact split table.rows hits

/-- A predicate that pins down the key counts one row. -/
theorem count_eq_one [DecidableEq Key] {table : Table key} {p : Row → Bool} {row : Row}
    (stored : row ∈ table) (hit : p row = true)
    (only : ∀ other ∈ table, p other = true → key other = key row) : table.count p = 1 := by
  have byKey : table.count p = (table.rows.map key).count (key row) := by
    rw [count, List.count, List.countP_map]
    apply List.countP_congr
    intro other member
    simp only [Function.comp, beq_iff_eq]
    refine ⟨only other member, fun same => ?_⟩
    rw [eq_of_key_eq member stored same]
    exact hit
  rw [byKey]
  exact List.count_eq_one_of_mem table.unique (List.mem_map_of_mem stored)

theorem count_and (table : Table key) (p q : Row → Bool) :
    table.count (fun row => p row && q row) = (table.select p).countP q := by
  rw [count, select, List.countP_filter]
  exact List.countP_congr fun row _ => by rw [Bool.and_comm]

theorem count_insert [DecidableEq Key] {table after : Table key} {added : List Row}
    (inserted : table.insert added = some after) (q : Row → Bool) :
    after.count q = table.count q + added.countP q := by
  rw [count, (insert_eq_some.mp inserted).2, List.countP_append, count]

end Table

end AcemcpRelay.Store
