import Switchboard.Container.Cascade
import Switchboard.Container.Dispatch
import Switchboard.Topology.Building
import Switchboard.Trial.Fixtures

/-!
# Expectations

One event is sent to a domain with a single context, and what comes back is held
against expectations. The domain is the plain echo domain, or one that also has
a handler which fails at a stage. The outcome is checked first, then whether the
event was handled, then the reply.
-/

namespace Switchboard.Trial

open Container (Handled Store Work)

inductive Expectation where
  | handled
  | unhandled
  | reply (text : String)
  | error (message : String)
  deriving DecidableEq, Repr

namespace Expectation

def error? : Expectation → Option String
  | error m => some m
  | _ => none

def handled? : Expectation → Option Bool
  | handled => some true
  | unhandled => some false
  | _ => none

def reply? : Expectation → Option String
  | reply s => some s
  | _ => none

end Expectation

def expectsOutcome (outcome : Except Container.Fault Unit) (expected : Option String) : Bool :=
  match outcome, expected with
  | .ok (), none => true
  | .error f, some message => f.message = message
  | _, _ => false

def isReply (text : String) : Payload → Bool
  | .reply s => s = text
  | _ => false

/-- Of several expected errors, or of handled and unhandled, the last one counts. -/
def meets (expectations : List Expectation) : Handled → Bool
  | (e, outcome) =>
    expectsOutcome outcome (expectations.filterMap (·.error?)).getLast? &&
      (expectations.filterMap (·.handled?)).getLast?.all (· = e.handled) &&
      (expectations.filterMap (·.reply?)).all fun s => isReply s e.response

/-! ## The domain -/

def echoContext (handlers : List Topology.Handler) : Topology.Context :=
  ⟨"text", Payload.textTag.name, Payload.replyTag.name, some "echo", handlers⟩

/-- A domain, a server, a service and the context. -/
def singleContextDomain (context : Topology.Context) : Topology.Domain :=
  { name := "main", servers := [⟨"local", [⟨"web", [context]⟩]⟩] }

/-- The classes of the domain by the names of its handlers. -/
def echoClasses (typeName : String) : Option Stage → List (String × ClassSpec)
  | none => [("echo", .echo typeName)]
  | some stage => [("bad", .failing "bad" .stateful stage), ("echo", .echo typeName)]

/-- Builds the domain; its classes are numbered in their order. -/
def echoDomain (classes : List (String × ClassSpec)) : Store × Except Container.Fault ComponentId :=
  let s := classes.foldl (fun s c => (c.2.define s).1) ({} : Store)
  let names := classes.map (·.1)
  let catalog : Topology.Catalog := ⟨names.zipIdx, [Payload.textTag, Payload.replyTag], []⟩
  Topology.build catalog s (singleContextDomain (echoContext (names.map fun n => { name := n, className := n })))

/-! ## The test -/

structure DispatchTest where
  start : Bool
  event : Option RequestEvent
  expectations : List Expectation
  deriving Inhabited

/-- Whether the event was handled, if the test passed, and the state of the domain afterwards. -/
structure Verdict where
  handled : Option Bool
  state : Lifecycle.State
  deriving DecidableEq, Repr

def startUp (d : ComponentId) (start : Bool) : Work (Except Lifecycle.Fault Unit) :=
  if start then Container.phase d .start else return .ok ()

/-- Starts the domain if need be, and sends the event. -/
def send (d : ComponentId) (start : Bool) (e : RequestEvent) : Work (Option Handled) := do
  match ← startUp d start with
  | .error _ => return none
  | .ok () => return some (← Container.dispatch d e)

/-- A test without an event fails before the domain is started. -/
def DispatchTest.run (t : DispatchTest) (s : Store) (d : ComponentId) : Verdict :=
  match t.event with
  | none => ⟨none, s.state d⟩
  | some e =>
    match (send d t.start e).run s with
    | .finished (some h) s => ⟨if meets t.expectations h then some h.1.handled else none, s.state d⟩
    | .finished none s | .parked _ _ s => ⟨none, s.state d⟩

/-- Runs a test on the echo domain, with a failing handler beside the echo if a stage is given. -/
def DispatchTest.runOnEcho (t : DispatchTest) (typeName : String) (stage : Option Stage) : Verdict :=
  match echoDomain (echoClasses typeName stage) with
  | (s, .ok d) => t.run s d
  | (_, .error _) => ⟨none, .new⟩

end Switchboard.Trial
