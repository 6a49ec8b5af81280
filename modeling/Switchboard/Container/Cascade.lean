import Switchboard.Container.Handlers
import Switchboard.Lifecycle.Polling

/-!
# Phases of a tree

A phase of a component runs the same phase of its children, one after the other,
before it settles; the first child that fails ends it. A context prepares its
handlers when it starts and tears them down when it stops or is destroyed. A
domain may also be waited for, as often and as long as its settings say.
-/

namespace Switchboard.Container

open Lifecycle (Phase runPhase)

/-- What a component does between the transient and the settled state of a phase. -/
abbrev PhaseHook := Work (Except String Unit)

/-! ## Contexts -/

/-- Builds the shared instances of the registrations that ask for it. -/
def preloadAll : List RegistrationId → PhaseHook
  | [] => return .ok ()
  | r :: rs => do
    if ((← .get).registration r).loadOnStartup then
      match ← preload r with
      | .error f => return .error f.message
      | .ok () => preloadAll rs
    else preloadAll rs

def contextHook (c : ComponentId) : Phase → PhaseHook
  | .init => return .ok ()
  | .start => do preloadAll ((← .get).handlers c)
  | .stop => do
    teardownAll (← .act (·.takeRetired c))
    teardownAll ((← .get).handlers c)
    return .ok ()
  | .destroy => do
    let handlers ← .act (·.takeHandlers c)
    teardownAll (← .act (·.takeRetired c))
    teardownAll handlers
    .modify (·.updateDesk c fun d => { d with defaultHandler := none })
    return .ok ()

/-! ## The levels above -/

/-- Runs a phase of each component in turn; the first fault is the cause of the failure. -/
def cascade (run : ComponentId → Work (Except Lifecycle.Fault Unit)) : List ComponentId → PhaseHook
  | [] => return .ok ()
  | c :: cs => do
    match ← run c with
    | .error f => return .error f.message
    | .ok () => cascade run cs

/-- What a component with so many levels below it does in a phase. -/
def hookAt : Nat → ComponentId → Phase → PhaseHook
  | 0, c, p => contextHook c p
  | n + 1, c, p => do cascade (fun d => runPhase (hookAt n d) d p) ((← .get).childIds c)

def phase (c : ComponentId) (p : Phase) : Work (Except Lifecycle.Fault Unit) := do
  runPhase (hookAt ((← .get).component c).kind.height c) c p

/-- Waits for a state of a domain with the given settings. -/
def waitUntilIn (settings : Settings) (d : ComponentId) (target : Lifecycle.State) : Work Lifecycle.Convergence :=
  Lifecycle.waitFor (fun s => s = target) d .turn settings.pollRetries

end Switchboard.Container
