import Mathlib.Init

/-!
# Requests that are sent again

A client has a server run a script on its state. What the script has done stays done when the
connection breaks before the reply arrives, and a client that then sends the request again has
it run once more. The answer is that of the last run.

`resend_answer` is the rule for what a caller may conclude from an answer: an invariant of the
script holds before the run that was answered, whatever runs came before it.
-/
namespace AcemcpRelay.Store

/-- What becomes of one sending of a request. -/
inductive Sending where
  /-- The script does not run. -/
  | failed
  /-- The script runs, and its reply is lost. -/
  | unheard
  | heard
  deriving DecidableEq, Repr

section

variable {State Reply : Type}

/-- The request is sent until a reply arrives or the client gives up. -/
def resend (script : State → Reply × State) : List Sending → State → Option Reply × State
  | [], state => (none, state)
  | .failed :: rest, state => resend script rest state
  | .unheard :: rest, state => resend script rest (script state).2
  | .heard :: _, state => (some (script state).1, (script state).2)

variable {script : State → Reply × State} {P : State → Prop} {sendings : List Sending}
  {state : State}

theorem resend_invariant (kept : ∀ state, P state → P (script state).2) (start : P state) :
    P (resend script sendings state).2 := by
  induction sendings generalizing state with
  | nil => exact start
  | cons sending rest ih =>
    cases sending with
    | failed => exact ih start
    | unheard => exact ih (kept state start)
    | heard => exact kept state start

/-- The answer, and what is left, are those of one run. -/
theorem resend_answer (kept : ∀ state, P state → P (script state).2) (start : P state)
    {reply : Reply} (answered : (resend script sendings state).1 = some reply) :
    ∃ last, P last ∧ script last = (reply, (resend script sendings state).2) := by
  induction sendings generalizing state with
  | nil => cases answered
  | cons sending rest ih =>
    cases sending with
    | failed => exact ih start answered
    | unheard => exact ih (kept state start) answered
    | heard =>
      cases answered
      exact ⟨state, start, rfl⟩

theorem resend_of_heard (heard : .heard ∈ sendings) :
    ∃ reply, (resend script sendings state).1 = some reply := by
  induction sendings generalizing state with
  | nil => cases heard
  | cons sending rest ih =>
    cases sending with
    | failed => exact ih (by simpa using heard)
    | unheard => exact ih (by simpa using heard)
    | heard => exact ⟨_, rfl⟩

/-- Without a lost reply the script runs once, or not at all. -/
theorem resend_of_unlost (unlost : .unheard ∉ sendings) :
    resend script sendings state = (none, state) ∨
      resend script sendings state = (some (script state).1, (script state).2) := by
  induction sendings with
  | nil => exact .inl rfl
  | cons sending rest ih =>
    rw [List.mem_cons, not_or] at unlost
    cases sending with
    | failed => exact ih unlost.2
    | unheard => exact absurd rfl unlost.1
    | heard => exact .inr rfl

/-- A script that leaves the state alone may run as often as it likes. -/
theorem resend_of_quiet (quiet : (script state).2 = state) (sendings : List Sending) :
    resend script sendings state =
      (if .heard ∈ sendings then some (script state).1 else none, state) := by
  induction sendings with
  | nil => rfl
  | cons sending rest ih =>
    cases sending with
    | failed => simpa [resend] using ih
    | unheard => simpa [resend, quiet] using ih
    | heard => simp [resend, quiet]

end

end AcemcpRelay.Store
