import Mathlib.Init

/-!
# Calls that may fail on the way

A call reads and writes a state that others write as well. It ends with a value or
with an error, and its own writes are kept, each with the state before and after it.
Any statement may fail, and one that writes may also take effect without the call
being told.

`Always P` says that every write of a call satisfies `P`, and `OnError P` that every write
does which it has made in a given state if it ends there with an error.
-/
namespace AcemcpRelay.Store

/-- What becomes of a statement. -/
inductive Fate where
  | done
  /-- It has no effect, and the call gets the error. -/
  | failed (message : String)
  /-- It has its effect, and the call gets the error all the same. -/
  | lost (message : String)
  deriving DecidableEq, Repr

structure Outcome (State α : Type) where
  response : Except String α
  state : State
  writes : List (State × State)

def Attempt (State α : Type) : Type := State → Outcome State α

namespace Attempt

variable {State α β : Type}

/-- The second call runs if the first one did not fail. -/
def andThen (first : Attempt State α) (next : α → Attempt State β) : Attempt State β := fun state =>
  match (first state).response with
  | .error message => ⟨.error message, (first state).state, (first state).writes⟩
  | .ok value =>
    let rest := next value (first state).state
    ⟨rest.response, rest.state, (first state).writes ++ rest.writes⟩

instance : Monad (Attempt State) where
  pure value state := ⟨.ok value, state, []⟩
  bind := andThen

/-- A check that does not look at the state. -/
def check (result : Except String α) : Attempt State α := fun state => ⟨result, state, []⟩

/-- What others do in the meantime. -/
def meanwhile (others : State → State) : Attempt State Unit := fun state =>
  ⟨.ok (), others state, []⟩

def read (fate : Fate) (query : State → Except String α) : Attempt State α := fun state =>
  match fate with
  | .done => ⟨query state, state, []⟩
  | .failed message | .lost message => ⟨.error message, state, []⟩

/-- A statement or a transaction; what it refuses is rolled back. -/
def write (fate : Fate) (update : State → Except String State) : Attempt State Unit := fun state =>
  match fate, update state with
  | .failed message, _ => ⟨.error message, state, []⟩
  | _, .error message => ⟨.error message, state, []⟩
  | .done, .ok after => ⟨.ok (), after, [(state, after)]⟩
  | .lost message, .ok after => ⟨.error message, after, [(state, after)]⟩

/-! ### Calls that succeed -/

/-- The call ends with the value, in the state after it, and has made the writes. -/
def Succeeds (call : Attempt State α) (state : State) (value : α) (after : State)
    (writes : List (State × State)) : Prop :=
  call state = ⟨.ok value, after, writes⟩

theorem succeeds_of_response {call : Attempt State α} {state : State} {value : α}
    (answered : (call state).response = .ok value) :
    Succeeds call state value (call state).state (call state).writes := by
  rw [Succeeds, ← answered]

section Success

variable {first : Attempt State α} {next : α → Attempt State β} {state after : State}
  {writes : List (State × State)}

theorem succeeds_bind {value : β} : Succeeds (first >>= next) state value after writes ↔
    ∃ middle between early late, Succeeds first state middle between early ∧
      early ++ late = writes ∧ Succeeds (next middle) between value after late := by
  change andThen first next state = _ ↔ _
  unfold andThen Succeeds
  constructor
  · intro done
    cases result : (first state).response with
    | error message =>
      rw [result] at done
      cases done
    | ok middle =>
      rw [result, Outcome.mk.injEq] at done
      refine ⟨middle, (first state).state, (first state).writes, _, ?_, done.2.2, ?_⟩
      · rw [← result]
      · rw [← done.1, ← done.2.1]
  · rintro ⟨middle, between, early, late, here, rfl, there⟩
    simp only [here, there]

theorem succeeds_check {result : Except String α} {value : α} :
    Succeeds (check result) state value after writes ↔
      result = .ok value ∧ state = after ∧ [] = writes := by
  simp [Succeeds, check]

theorem succeeds_pure {given value : α} :
    Succeeds (pure given) state value after writes ↔ given = value ∧ state = after ∧ [] = writes := by
  change (⟨.ok given, state, []⟩ : Outcome State α) = _ ↔ _
  simp

theorem succeeds_meanwhile {others : State → State} {value : Unit} :
    Succeeds (meanwhile others) state value after writes ↔ others state = after ∧ [] = writes := by
  simp [Succeeds, meanwhile]

theorem succeeds_read {fate : Fate} {query : State → Except String α} {value : α} :
    Succeeds (read fate query) state value after writes ↔
      fate = .done ∧ query state = .ok value ∧ state = after ∧ [] = writes := by
  cases fate <;> simp [Succeeds, read]

/-- A statement that was reported done has had its effect. -/
theorem succeeds_write {fate : Fate} {update : State → Except String State} {value : Unit} :
    Succeeds (write fate update) state value after writes ↔
      fate = .done ∧ update state = .ok after ∧ [(state, after)] = writes := by
  unfold Succeeds write
  cases update state with
  | error message => cases fate <;> simp
  | ok next =>
    cases fate with
    | done => simp +contextual
    | failed | lost => simp

/-! A call that succeeds, taken apart from its first step on. -/

theorem Succeeds.after_check {result : Except String α} {value : β}
    (done : Succeeds (check result >>= next) state value after writes) :
    ∃ middle, result = .ok middle ∧ Succeeds (next middle) state value after writes := by
  obtain ⟨middle, between, early, late, here, same, there⟩ := succeeds_bind.mp done
  obtain ⟨passes, rfl, rfl⟩ := succeeds_check.mp here
  exact ⟨middle, passes, same ▸ there⟩

theorem Succeeds.after_meanwhile {others : State → State} {next : Unit → Attempt State β} {value : β}
    (done : Succeeds (meanwhile others >>= next) state value after writes) :
    Succeeds (next ()) (others state) value after writes := by
  obtain ⟨middle, between, early, late, here, same, there⟩ := succeeds_bind.mp done
  obtain ⟨rfl, rfl⟩ := succeeds_meanwhile.mp here
  exact same ▸ there

theorem Succeeds.after_read {fate : Fate} {query : State → Except String α} {value : β}
    (done : Succeeds (read fate query >>= next) state value after writes) :
    ∃ middle, query state = .ok middle ∧ Succeeds (next middle) state value after writes := by
  obtain ⟨middle, between, early, late, here, same, there⟩ := succeeds_bind.mp done
  obtain ⟨-, answers, rfl, rfl⟩ := succeeds_read.mp here
  exact ⟨middle, answers, same ▸ there⟩

theorem Succeeds.after_write {fate : Fate} {update : State → Except String State}
    {next : Unit → Attempt State β} {value : β}
    (done : Succeeds (write fate update >>= next) state value after writes) :
    ∃ between late, update state = .ok between ∧ writes = (state, between) :: late ∧
      Succeeds (next ()) between value after late := by
  obtain ⟨middle, between, early, late, here, same, there⟩ := succeeds_bind.mp done
  obtain ⟨-, written, rfl⟩ := succeeds_write.mp here
  exact ⟨between, late, written, same.symm, there⟩

end Success

/-! ### Calls that fail -/

def Always (P : State → State → Prop) (call : Attempt State α) : Prop :=
  ∀ state, ∀ write ∈ (call state).writes, P write.1 write.2

def OnError (P : State → State → Prop) (call : Attempt State α) (state : State) : Prop :=
  ∀ message, (call state).response = .error message →
    ∀ write ∈ (call state).writes, P write.1 write.2

section Failure

variable {P : State → State → Prop} {first : Attempt State α} {next : α → Attempt State β}

theorem always_check {result : Except String α} : Always P (check result) :=
  fun _ _ member => nomatch member

theorem always_meanwhile {others : State → State} : Always P (meanwhile others) :=
  fun _ _ member => nomatch member

theorem always_read {fate : Fate} {query : State → Except String α} : Always P (read fate query) := by
  intro state write member
  cases fate <;> cases member

theorem always_write {fate : Fate} {update : State → Except String State}
    (kept : ∀ state after, update state = .ok after → P state after) :
    Always P (write fate update) := by
  intro state write member
  cases result : update state with
  | error message => cases fate <;> simp [Attempt.write, result] at member
  | ok after =>
    cases fate with
    | failed => simp [Attempt.write] at member
    | done | lost =>
      simp only [Attempt.write, result, List.mem_singleton] at member
      rw [member]
      exact kept state after result

theorem always_pure {value : α} : Always P (pure value : Attempt State α) :=
  fun _ _ member => nomatch member

theorem bind_of_succeeds {state between : State} {value : α} {early : List (State × State)}
    (here : Succeeds first state value between early) :
    (first >>= next) state = ⟨(next value between).response, (next value between).state,
      early ++ (next value between).writes⟩ := by
  change andThen first next state = _
  unfold andThen
  rw [Succeeds] at here
  rw [here]

theorem bind_of_error {state : State} {message : String}
    (failed : (first state).response = .error message) :
    (first >>= next) state = ⟨.error message, (first state).state, (first state).writes⟩ := by
  change andThen first next state = _
  unfold andThen
  rw [failed]

theorem Always.bind (here : Always P first) (rest : ∀ value, Always P (next value)) :
    Always P (first >>= next) := by
  intro state write member
  cases result : (first state).response with
  | error message =>
    rw [bind_of_error result] at member
    exact here state write member
  | ok value =>
    rw [bind_of_succeeds (succeeds_of_response result)] at member
    rcases List.mem_append.mp member with early | late
    · exact here state write early
    · exact rest value _ write late

/-- Before the writes that matter, only harmless ones are made: what counts is what happens
once they have succeeded. -/
theorem onError_bind (harmless : Always P first) {state : State} :
    OnError P (first >>= next) state ↔ ∀ value between early,
      Succeeds first state value between early → OnError P (next value) between := by
  constructor
  · intro all value between early here message failed write member
    have whole : (first >>= next) state = _ := bind_of_succeeds here
    refine all message ?_ write ?_
    · rw [whole]
      exact failed
    · rw [whole]
      exact List.mem_append_right early member
  · intro rest message failed write member
    cases result : (first state).response with
    | error other =>
      rw [bind_of_error result] at member
      exact harmless state write member
    | ok value =>
      have here := succeeds_of_response result
      rw [bind_of_succeeds here] at failed member
      rcases List.mem_append.mp member with early | late
      · exact harmless state write early
      · exact rest value _ _ here message failed write late

/-- After a write that has taken effect, the call must be told of it and may not fail. -/
theorem onError_write_bind {fate : Fate} {update : State → Except String State}
    {rest : Unit → Attempt State β} {state : State}
    (finishes : ∀ after, update state = .ok after → (∀ message, fate ≠ .failed message) →
      fate = .done ∧ ∃ value, (rest () after).response = .ok value) :
    OnError P (write fate update >>= rest) state := by
  intro message failed made member
  cases result : update state with
  | error refusal =>
    have refused : (write fate update state).writes = [] := by
      cases fate <;> simp [write, result]
    have errs : ∃ text, (write fate update state).response = .error text := by
      cases fate <;> simp [write, result]
    obtain ⟨text, errs⟩ := errs
    rw [bind_of_error errs, refused] at member
    cases member
  | ok after =>
    cases fate with
    | failed text =>
      have errs : (write (.failed text) update state).response = .error text := by simp [write]
      rw [bind_of_error errs] at member
      simp [write] at member
    | lost text => exact absurd (finishes after result (by simp)).1 (by simp)
    | done =>
      obtain ⟨-, value, answers⟩ := finishes after result (by simp)
      have written : Succeeds (write .done update) state () after [(state, after)] :=
        succeeds_write.mpr ⟨rfl, result, rfl⟩
      rw [bind_of_succeeds written, answers] at failed
      cases failed

/-- Conversely, where the write matters. -/
theorem OnError.finishes {fate : Fate} {update : State → Except String State}
    {rest : Unit → Attempt State β} {state after : State}
    (harmless : OnError P (write fate update >>= rest) state) (written : update state = .ok after)
    (reached : ∀ message, fate ≠ .failed message) (matters : ¬ P state after) :
    fate = .done ∧ ∃ value, (rest () after).response = .ok value := by
  cases fate with
  | failed text => exact absurd rfl (reached text)
  | lost text =>
    have outcome : (write (.lost text) update >>= rest) state =
        ⟨.error text, after, [(state, after)]⟩ := by
      have errs : (write (.lost text) update state).response = .error text := by
        simp [write, written]
      rw [bind_of_error errs]
      simp [write, written]
    have told := harmless text (by rw [outcome]) (state, after) (by rw [outcome]; simp)
    exact absurd told matters
  | done =>
    refine ⟨rfl, ?_⟩
    have first : Succeeds (write .done update) state () after [(state, after)] :=
      succeeds_write.mpr ⟨rfl, written, rfl⟩
    have outcome : (write .done update >>= rest) state = _ := bind_of_succeeds first
    cases answer : (rest () after).response with
    | ok value => exact ⟨value, rfl⟩
    | error text =>
      have told := harmless text (by rw [outcome, answer]) (state, after) (by rw [outcome]; simp)
      exact absurd told matters

end Failure

end Attempt

end AcemcpRelay.Store
