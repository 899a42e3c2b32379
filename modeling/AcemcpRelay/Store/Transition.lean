import Mathlib.Init

/-!
# Runs of a transition system

A system is a total step function; an event that is not enabled leaves the state
as it is. A run is a list of events, and a property of every state of every run
is proved by one step lemma.

`Along ok` says that each event of a run meets a condition on the state it is
applied to, `Throughout P` that `P` holds in every state the run passes through.
When the condition is exact for one step, the two coincide for whole runs.
-/
namespace AcemcpRelay.Store

variable {State Event : Type}

section

variable (step : State → Event → State)

def runFrom (start : State) (events : List Event) : State := events.foldl step start

@[simp] theorem runFrom_nil (start : State) : runFrom step start [] = start := rfl

@[simp] theorem runFrom_cons (start : State) (event : Event) (events : List Event) :
    runFrom step start (event :: events) = runFrom step (step start event) events := rfl

theorem runFrom_append (start : State) (before after : List Event) :
    runFrom step start (before ++ after) = runFrom step (runFrom step start before) after :=
  List.foldl_append

/-- Each event satisfies `ok` in the state it is applied to. -/
def Along (ok : State → Event → Prop) : State → List Event → Prop
  | _, [] => True
  | start, event :: events => ok start event ∧ Along ok (step start event) events

instance decidableAlong (ok : State → Event → Prop) [∀ s e, Decidable (ok s e)] :
    (start : State) → (events : List Event) → Decidable (Along step ok start events)
  | _, [] => .isTrue trivial
  | start, event :: events =>
    have := decidableAlong ok (step start event) events
    inferInstanceAs (Decidable (ok start event ∧ Along step ok (step start event) events))

/-- `P` holds in every state of the run, the first and the last included. -/
def Throughout (P : State → Prop) : State → List Event → Prop
  | start, [] => P start
  | start, event :: events => P start ∧ Throughout P (step start event) events

/-- `P` holds from the start of the run on, up to its end or to a step that is an `exit`. -/
def UntilExit (P : State → Prop) (exit : State → Event → Prop) : State → List Event → Prop
  | start, [] => P start
  | start, event :: events =>
    P start ∧ (exit start event ∨ UntilExit P exit (step start event) events)

end

variable {step : State → Event → State}

/-- The invariant rule. -/
theorem invariant_run {P : State → Prop} (preserved : ∀ s e, P s → P (step s e))
    {start : State} (initial : P start) (events : List Event) : P (runFrom step start events) := by
  induction events generalizing start with
  | nil => exact initial
  | cons event events ih => exact ih (preserved start event initial)

/-- The invariant rule for runs all of whose events meet a condition. -/
theorem invariant_along {P : State → Prop} {ok : State → Event → Prop}
    (preserved : ∀ s e, P s → ok s e → P (step s e)) {start : State} (initial : P start)
    (events : List Event) (allowed : Along step ok start events) :
    P (runFrom step start events) := by
  induction events generalizing start with
  | nil => exact initial
  | cons event events ih => exact ih (preserved start event initial allowed.1) allowed.2

theorem along_append {ok : State → Event → Prop} {start : State} {before after : List Event} :
    Along step ok start (before ++ after) ↔
      Along step ok start before ∧ Along step ok (runFrom step start before) after := by
  induction before generalizing start with
  | nil => simp [Along]
  | cons event before ih => simp only [List.cons_append, Along, runFrom_cons, ih, and_assoc]

theorem along_and {ok more : State → Event → Prop} {start : State} {events : List Event}
    (allowed : Along step ok start events) (also : Along step more start events) :
    Along step (fun state event => ok state event ∧ more state event) start events := by
  induction events generalizing start with
  | nil => trivial
  | cons event events ih => exact ⟨⟨allowed.1, also.1⟩, ih allowed.2 also.2⟩

/-- Some event of a run does not meet a condition, or all do. -/
theorem along_or_exists (ok : State → Event → Prop) (start : State) (events : List Event) :
    Along step ok start events ∨ ∃ before event after, events = before ++ event :: after ∧
      ¬ ok (runFrom step start before) event := by
  induction events generalizing start with
  | nil => exact .inl trivial
  | cons event events ih =>
    by_cases here : ok start event
    · rcases ih (step start event) with all | ⟨before, other, after, rfl, fails⟩
      · exact .inl ⟨here, all⟩
      · exact .inr ⟨event :: before, other, after, rfl, fails⟩
    · exact .inr ⟨[], event, events, rfl, here⟩

/-- A condition on the event alone. -/
theorem along_of_forall {ok : Event → Prop} {start : State} {events : List Event}
    (allowed : ∀ event ∈ events, ok event) : Along step (fun _ event => ok event) start events := by
  induction events generalizing start with
  | nil => trivial
  | cons event events ih =>
    rw [List.forall_mem_cons] at allowed
    exact ⟨allowed.1, ih allowed.2⟩

/-! ### Earlier states -/

/-- A state together with the states before it. -/
structure Logged (State : Type) where
  current : State
  past : List State

/-- A run that keeps its states. -/
def Logged.next (step : State → Event → State) (log : Logged State) (event : Event) :
    Logged State :=
  ⟨step log.current event, log.current :: log.past⟩

theorem Logged.run_current (start : State) (past : List State) (events : List Event) :
    (runFrom (Logged.next step) ⟨start, past⟩ events).current = runFrom step start events := by
  induction events generalizing start past with
  | nil => rfl
  | cons event events ih => exact ih (step start event) (start :: past)

/-- The logged states are those that the run had passed. -/
theorem Logged.mem_run_past {start earlier : State} {past : List State} {events : List Event}
    (listed : earlier ∈ (runFrom (Logged.next step) ⟨start, past⟩ events).past) :
    earlier ∈ past ∨ ∃ before event after, events = before ++ event :: after ∧
      earlier = runFrom step start before := by
  induction events generalizing start past with
  | nil => exact .inl listed
  | cons event events ih =>
    rcases ih listed with known | ⟨before, next, after, rfl, rfl⟩
    · rcases List.mem_cons.mp known with rfl | known
      · exact .inr ⟨[], event, events, rfl, rfl⟩
      · exact .inl known
    · exact .inr ⟨event :: before, next, after, rfl, rfl⟩

theorem Throughout.first {P : State → Prop} {start : State} {events : List Event}
    (always : Throughout step P start events) : P start := by
  cases events with
  | nil => exact always
  | cons event events => exact always.1

theorem Throughout.last {P : State → Prop} {start : State} {events : List Event}
    (always : Throughout step P start events) : P (runFrom step start events) := by
  induction events generalizing start with
  | nil => exact always
  | cons event events ih => exact ih always.2

/-- An invariant of allowed runs gives a property of all their states. -/
theorem throughout_of_along {P Inv : State → Prop} {ok : State → Event → Prop}
    (preserved : ∀ s e, Inv s → ok s e → Inv (step s e)) (safe : ∀ s, Inv s → P s)
    {start : State} (initial : Inv start) (events : List Event)
    (allowed : Along step ok start events) : Throughout step P start events := by
  induction events generalizing start with
  | nil => exact safe start initial
  | cons event events ih =>
    exact ⟨safe start initial, ih (preserved start event initial allowed.1) allowed.2⟩

theorem untilExit_of_along {P : State → Prop} {ok exit : State → Event → Prop}
    (kept : ∀ s e, P s → ok s e → exit s e ∨ P (step s e)) {start : State} (initial : P start)
    (events : List Event) (allowed : Along step ok start events) :
    UntilExit step P exit start events := by
  induction events generalizing start with
  | nil => exact initial
  | cons event events ih =>
    refine ⟨initial, ?_⟩
    rcases kept start event initial allowed.1 with left | stays
    · exact .inl left
    · exact .inr (ih stays allowed.2)

/-- A condition that is exact for one step is exact for runs: given an invariant
that no event breaks, `P` survives a run iff every event of it meets the condition. -/
theorem throughout_iff_along {P Inv : State → Prop} {ok : State → Event → Prop}
    (invariant : ∀ s e, Inv s → Inv (step s e))
    (exact_step : ∀ s e, Inv s → P s → (P (step s e) ↔ ok s e))
    {start : State} (inv : Inv start) (initial : P start) (events : List Event) :
    Throughout step P start events ↔ Along step ok start events := by
  induction events generalizing start with
  | nil => exact ⟨fun _ => trivial, fun _ => initial⟩
  | cons event events ih =>
    have here := exact_step start event inv initial
    constructor
    · rintro ⟨_, rest⟩
      have next : P (step start event) := rest.first
      exact ⟨here.mp next, (ih (invariant start event inv) next).mp rest⟩
    · rintro ⟨allowed, rest⟩
      have next : P (step start event) := here.mpr allowed
      exact ⟨initial, (ih (invariant start event inv) next).mpr rest⟩

end AcemcpRelay.Store
