import Switchboard.Lifecycle.Phases

/-!
# Polling

A bounded wait for a state: observations are made one interval apart until one
satisfies the predicate or the retries are used up. `poll` is given what the
state is at each observation, so every schedule of changes is covered; `waitFor`
is the wait as an activity, which sleeps between its observations.
-/

namespace Switchboard.Lifecycle

structure Convergence where
  state : State
  converged : Bool
  polls : Nat
  deriving DecidableEq, Repr

/-- Polls from the observation numbered `n` on, with `retries` more to come after it. -/
def pollFrom (pred : State → Bool) (observe : Nat → State) : Nat → Nat → Convergence
  | n, 0 => ⟨observe n, pred (observe n), n + 1⟩
  | n, retries + 1 =>
    if pred (observe n) then ⟨observe n, true, n + 1⟩ else pollFrom pred observe (n + 1) retries

/-- Makes at most `retries + 1` observations. -/
def poll (pred : State → Bool) (retries : Nat) (observe : Nat → State) : Convergence :=
  pollFrom pred observe 0 retries

variable {σ ω : Type} [HasBoard σ]

/-- Waits for a state of `c` when `polls` observations have been made. -/
def waitFrom (pred : State → Bool) (c : ComponentId) (sleep : ω) (retries polls : Nat) :
    Activity σ ω Convergence := do
  let state ← onBoard fun b => (b, b.state c)
  if pred state then return ⟨state, true, polls + 1⟩
  else if h : retries < polls + 1 then return ⟨state, false, polls + 1⟩
  else
    .yield sleep
    waitFrom pred c sleep retries (polls + 1)
termination_by retries + 1 - polls

/-- Waits until the state of `c` satisfies the predicate or the retries are used up. -/
def waitFor (pred : State → Bool) (c : ComponentId) (sleep : ω) (retries : Nat) : Activity σ ω Convergence :=
  waitFrom pred c sleep retries 0

end Switchboard.Lifecycle
