import Mathlib.Init

/-!
# Fallible code

A Go function that returns an error is a computation in `Except`. These lemmas say
how its steps compose, and what follows from its success, check by check.
-/
namespace AcemcpRelay.Store

variable {ε α β : Type}

theorem bind_ok_iff {first : Except ε α} {next : α → Except ε β} {value : β} :
    (first >>= next) = .ok value ↔ ∃ middle, first = .ok middle ∧ next middle = .ok value := by
  cases first <;> simp [bind, Except.bind]

theorem pure_ok_iff {a b : α} : (pure a : Except ε α) = .ok b ↔ a = b := by
  simp [pure, Except.pure]

@[simp] theorem ok_bind (a : α) (next : α → Except ε β) : (.ok a : Except ε α) >>= next = next a :=
  rfl

theorem map_of_bind {γ : Type} (first : Except ε α) (next : α → Except ε β) (f : β → γ) :
    (first >>= next).map f = first >>= fun a => (next a).map f := by
  cases first <;> rfl

theorem bind_of_map {γ : Type} (first : Except ε α) (f : α → β) (next : β → Except ε γ) :
    first.map f >>= next = first >>= fun a => next (f a) := by
  cases first <;> rfl

theorem map_of_pure (a : α) (f : α → β) : (pure a : Except ε α).map f = pure (f a) := rfl

/-- `if bad { return error }`. -/
def refuse (bad : Prop) [Decidable bad] (message : ε) : Except ε Unit :=
  if bad then .error message else .ok ()

theorem refuse_ok_iff {bad : Prop} [Decidable bad] {message : ε} {u : Unit} :
    refuse bad message = .ok u ↔ ¬ bad := by
  unfold refuse
  split <;> simp_all

/-- A loop that maps every element and returns the first error. -/
theorem mapM_mem {f : α → Except ε β} {xs : List α} {ys : List β} (mapped : xs.mapM f = .ok ys)
    {y : β} (member : y ∈ ys) : ∃ x ∈ xs, f x = .ok y := by
  induction xs generalizing ys with
  | nil =>
    rw [List.mapM_nil, pure_ok_iff] at mapped
    subst mapped
    simp at member
  | cons x xs ih =>
    rw [List.mapM_cons, bind_ok_iff] at mapped
    obtain ⟨first, here, rest⟩ := mapped
    rw [bind_ok_iff] at rest
    obtain ⟨others, later, same⟩ := rest
    rw [pure_ok_iff] at same
    subst same
    rcases List.mem_cons.mp member with rfl | member
    · exact ⟨x, List.mem_cons_self, here⟩
    · obtain ⟨z, listed, found⟩ := ih later member
      exact ⟨z, List.mem_cons_of_mem _ listed, found⟩

/-- What holds of all elements if and only if it holds, in another form, of all results. -/
theorem mapM_forall {f : α → Except ε β} {xs : List α} {ys : List β} (mapped : xs.mapM f = .ok ys)
    {P : α → Prop} {Q : β → Prop} (same : ∀ x y, f x = .ok y → (P x ↔ Q y)) :
    (∀ x ∈ xs, P x) ↔ ∀ y ∈ ys, Q y := by
  induction xs generalizing ys with
  | nil =>
    rw [List.mapM_nil, pure_ok_iff] at mapped
    subst mapped
    simp
  | cons x xs ih =>
    rw [List.mapM_cons, bind_ok_iff] at mapped
    obtain ⟨first, here, rest⟩ := mapped
    rw [bind_ok_iff] at rest
    obtain ⟨others, later, made⟩ := rest
    rw [pure_ok_iff] at made
    subst made
    rw [List.forall_mem_cons, List.forall_mem_cons, same x first here, ih later]

end AcemcpRelay.Store
