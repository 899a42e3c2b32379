import Mathlib.Data.List.Infix

/-!
# Where a part of a text can lie

A part that avoids some symbol cannot reach across it. So in a text that is put together
from pieces with gaps between them, a part that avoids the symbols of the gaps lies in one
of the pieces. With the roles exchanged the same holds of what lies in the gaps. For the same
reason a text that begins with a part without separators can be cut there again.
-/
namespace AcemcpRelay.Wire

variable {Symbol : Type}

theorem prefix_of_not_mem {part x y : List Symbol} {c : Symbol} (missing : c ∉ part)
    (start : part <+: x ++ c :: y) : part <+: x := by
  rcases List.prefix_or_prefix_of_prefix start (List.prefix_append x (c :: y)) with inside | longer
  · exact inside
  · obtain ⟨tail, rfl⟩ := longer
    cases tail with
    | nil => rw [List.append_nil]
    | cons d tail =>
      have next := (List.cons_prefix_cons.mp ((List.prefix_append_right_inj x).mp start)).1
      exact absurd (by simp [next]) missing

/-- A part without the character `c` lies on one side of it. -/
theorem infix_of_not_mem {part x y : List Symbol} {c : Symbol} (missing : c ∉ part)
    (inside : part <:+: x ++ c :: y) : part <:+: x ∨ part <:+: y := by
  induction x with
  | nil =>
    rcases List.infix_cons_iff.mp inside with start | later
    · exact .inl (prefix_of_not_mem (x := []) missing start).isInfix
    · exact .inr later
  | cons d x ih =>
    rcases List.infix_cons_iff.mp inside with start | later
    · exact .inl (prefix_of_not_mem (x := d :: x) missing start).isInfix
    · exact (ih later).imp_left fun found => found.trans (List.suffix_cons d x).isInfix

/-- A part that has no character of `gap` lies before or behind it. -/
theorem infix_of_gap {part x gap y : List Symbol} (some : gap ≠ []) (missing : ∀ c ∈ gap, c ∉ part)
    (inside : part <:+: x ++ (gap ++ y)) : part <:+: x ∨ part <:+: y := by
  induction gap generalizing x with
  | nil => exact absurd rfl some
  | cons c gap ih =>
    have apart := infix_of_not_mem (missing c List.mem_cons_self) inside
    cases gap with
    | nil => exact apart
    | cons d gap =>
      rcases apart with before | later
      · exact .inl before
      · have again := ih (x := []) (List.cons_ne_nil d gap)
          (fun e member => missing e (List.mem_cons_of_mem _ member)) later
        exact again.imp_left fun nothing => nothing.trans (List.nil_prefix).isInfix

/-- Pieces with gaps between them: each gap stands before its piece. -/
def spread (first : List Symbol) : List (List Symbol × List Symbol) → List Symbol
  | [] => first
  | (gap, next) :: rest => first ++ (gap ++ spread next rest)

theorem infix_spread {part first : List Symbol} {rest : List (List Symbol × List Symbol)}
    (gaps : ∀ pair ∈ rest, pair.1 ≠ [] ∧ ∀ c ∈ pair.1, c ∉ part)
    (inside : part <:+: spread first rest) :
    part <:+: first ∨ ∃ pair ∈ rest, part <:+: pair.2 := by
  induction rest generalizing first with
  | nil => exact .inl inside
  | cons pair rest ih =>
    obtain ⟨gap, next⟩ := pair
    obtain ⟨⟨some, missing⟩, others⟩ := List.forall_mem_cons.mp gaps
    rcases infix_of_gap some missing inside with before | later
    · exact .inl before
    · rcases ih others later with here | ⟨pair, member, found⟩
      · exact .inr ⟨_, List.mem_cons_self, here⟩
      · exact .inr ⟨pair, List.mem_cons_of_mem _ member, found⟩

/-- A text is cut at its first separator in one way. -/
theorem append_cons_inj {sep : Symbol} {a b x y : List Symbol} (freeA : sep ∉ a) (freeB : sep ∉ b)
    (same : a ++ sep :: x = b ++ sep :: y) : a = b ∧ x = y := by
  induction a generalizing b with
  | nil =>
    cases b with
    | nil => exact ⟨rfl, (List.cons.inj same).2⟩
    | cons d b => exact absurd ((List.cons.inj same).1 ▸ List.mem_cons_self) freeB
  | cons c a ih =>
    cases b with
    | nil => exact absurd ((List.cons.inj same).1 ▸ List.mem_cons_self) freeA
    | cons d b =>
      obtain ⟨first, rest⟩ := List.cons.inj same
      obtain ⟨sameTail, sameRest⟩ := ih (fun member => freeA (List.mem_cons_of_mem _ member))
        (fun member => freeB (List.mem_cons_of_mem _ member)) rest
      exact ⟨by rw [first, sameTail], sameRest⟩

/-- Two texts that are joined with a NUL can be told apart again if the first holds none. -/
theorem join_nul_inj {a b x y : String} (freeA : '\x00' ∉ a.toList) (freeB : '\x00' ∉ b.toList)
    (same : a ++ "\x00" ++ x = b ++ "\x00" ++ y) : a = b ∧ x = y := by
  have chars : a.toList ++ '\x00' :: x.toList = b.toList ++ '\x00' :: y.toList := by
    have lists := congrArg String.toList same
    simp only [String.toList_append, List.append_assoc] at lists
    exact lists
  obtain ⟨firsts, seconds⟩ := append_cons_inj freeA freeB chars
  exact ⟨String.toList_inj.mp firsts, String.toList_inj.mp seconds⟩

theorem map_spread_eq_self {f : Symbol → Symbol} {first : List Symbol}
    {rest : List (List Symbol × List Symbol)}
    (pieces : ∀ piece ∈ first :: rest.map (·.2), piece.map f = piece)
    (gaps : ∀ pair ∈ rest, pair.1.map f = pair.1) :
    (spread first rest).map f = spread first rest := by
  induction rest generalizing first with
  | nil => exact pieces first List.mem_cons_self
  | cons pair rest ih =>
    obtain ⟨gap, next⟩ := pair
    obtain ⟨here, later⟩ := List.forall_mem_cons.mp pieces
    obtain ⟨gapHere, gapsLater⟩ := List.forall_mem_cons.mp gaps
    rw [spread, List.map_append, List.map_append, here, gapHere, ih later gapsLater]

end AcemcpRelay.Wire
