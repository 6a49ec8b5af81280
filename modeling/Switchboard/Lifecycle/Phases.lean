import Switchboard.Activity
import Switchboard.Lifecycle.Board

/-!
# Running phases

A phase enters its transient state, runs the component's hook and settles. A
failing hook forces the failed state. Starting a component that is new or
destroyed initializes it first. Phases run as activities on any state that
holds a board, since hooks may be suspended.
-/

namespace Switchboard.Lifecycle

class HasBoard (σ : Type) where
  board : σ → Board
  setBoard : σ → Board → σ

instance : HasBoard Board where
  board b := b
  setBoard _ b := b

variable {σ ω α : Type} [HasBoard σ]

def onBoard (f : Board → Board × α) : Activity σ ω α :=
  .act fun s =>
    let (b, a) := f (HasBoard.board s)
    (HasBoard.setBoard s b, a)

/-- What a phase does between its transient and its settled state. -/
abbrev Hook (σ ω : Type) := Activity σ ω (Except String Unit)

/-- Ends a phase after its hook. -/
def conclude (c : ComponentId) (p : Phase) : Except String Unit → Activity σ ω (Except Fault Unit)
  | .error cause => onBoard fun b => (b.fail c, .error (.hookFailed (b.name c) p.transient cause))
  | .ok () => onBoard fun b =>
    let (b, outcome) := b.request c p.settled
    (b, outcome.map fun _ => ())

def runSingle (hook : Hook σ ω) (c : ComponentId) (p : Phase) : Activity σ ω (Except Fault Unit) := do
  match ← onBoard fun b => b.begin c p with
  | .error f => return .error f
  | .ok false => return .ok ()
  | .ok true => conclude c p (← hook)

/-- Whether a start has to initialize first. -/
def needsInit (p : Phase) (s : State) : Bool := p = .start && (s = .new || s = .destroyed)

def runPhase (hook : Phase → Hook σ ω) (c : ComponentId) (p : Phase) : Activity σ ω (Except Fault Unit) := do
  if needsInit p (← onBoard fun b => (b, b.state c)) then
    match ← runSingle (hook .init) c .init with
    | .error f => return .error f
    | .ok () => runSingle (hook p) c p
  else runSingle (hook p) c p

end Switchboard.Lifecycle
