import Switchboard.Lifecycle.Phases
import Switchboard.Lifecycle.Polling

/-!
# A component on its own

A component whose hooks follow a script and whose listeners do as they are
told, to try the lifecycle with. A script may run phases on the component that
is running it; scripts nested deeper than `scriptDepth` are cut short and mark
the board exhausted. While a wait polls, moves may be requested on a virtual
clock; a move due exactly when a poll is made comes after it.
-/

namespace Switchboard.Trial

open Lifecycle

inductive HookAction where
  | fail (message : String)
  | request (target : State)
  | tryRequest (target : State)
  | forceFail
  | phase (p : Phase)
  deriving DecidableEq, Repr

/-- The actions of each hook, or no hooks at all. -/
abbrev HookScript := Phase → List HookAction

def scriptDepth : Nat := 500

/-- The only component of the board. -/
def self : ComponentId := 0

abbrev ScriptRun := Activity Board Empty (Except String Unit)

/-- One action; its failure ends the hook. -/
def HookAction.run (runOther : Phase → Activity Board Empty (Except Fault Unit)) : HookAction → ScriptRun
  | fail message => return .error message
  | request t => onBoard fun b =>
    let (b, outcome) := b.request self t
    (b, match outcome with
      | .error f => .error f.message
      | .ok _ => .ok ())
  | tryRequest t => onBoard fun b =>
    let (b, outcome) := b.request self t
    (b.log (.tried self t outcome), .ok ())
  | forceFail => onBoard fun b => (b.fail self, .ok ())
  | phase p => do
    match ← runOther p with
    | .error f => return .error f.message
    | .ok () => return .ok ()

def runActions (runOther : Phase → Activity Board Empty (Except Fault Unit)) : List HookAction → ScriptRun
  | [] => return .ok ()
  | a :: rest => do
    match ← a.run runOther with
    | .error cause => return .error cause
    | .ok () => runActions runOther rest

def scriptHook (script : HookScript) : Nat → Phase → ScriptRun
  | 0, _ => onBoard fun b => ({ b with exhausted := true }, .error "")
  | n + 1, p => do
    onBoard fun b => (b.log (.hooked self p), ())
    runActions (runPhase (scriptHook script n) self) (script p)

/-- Runs a phase with the script's hooks, or with empty ones. -/
def runScripted (script : Option HookScript) (p : Phase) : Activity Board Empty (Except Fault Unit) :=
  match script with
  | some script => runPhase (scriptHook script scriptDepth) self p
  | none => runPhase (fun _ => (.done (.ok ()) : ScriptRun)) self p

/-- Nothing suspends a script, so every run ends. -/
def complete {α : Type} (b : Board) (x : Activity Board Empty α) : Board × α :=
  match x.run b with
  | .finished a b => (b, a)
  | .parked w _ _ => nomatch w

/-! ## Waiting -/

inductive Goal where
  | state (s : State)
  | settled
  | available
  deriving DecidableEq, Repr

def Goal.holds : Goal → State → Bool
  | state s, t => s = t
  | settled, t => t.isSettled
  | available, t => t.isAvailable

/-- A move requested after a delay; each delay counts from the previous move. -/
structure Delayed where
  after : Nat
  target : State
  deriving DecidableEq, Repr

/-- The board after each delayed request, with the time of the request. -/
def timeline : Nat → Board → List Delayed → List (Nat × Board)
  | _, _, [] => []
  | now, b, d :: ds =>
    let b := (b.request self d.target).1
    (now + d.after, b) :: timeline (now + d.after) b ds

/-- The state seen at a time. -/
def stateAt (b : Board) (moves : List (Nat × Board)) (time : Nat) : State :=
  ((((moves.takeWhile fun (t, _) => t < time).getLast?).map (·.2)).getD b).state self

def wait (b : Board) (goal : Goal) (retries interval : Nat) (meanwhile : List Delayed) :
    Board × Convergence :=
  let moves := timeline 0 b meanwhile
  (((moves.getLast?).map (·.2)).getD b, poll goal.holds retries fun n => stateAt b moves (n * interval))

/-! ## Steps -/

inductive ComponentStep where
  | change (target : State)
  | begin (p : Phase)
  | fail
  | run (p : Phase)
  | listen (label : String) (on : Option Trigger) (deeds : List Deed)
  | unlisten (label : String)
  | notify (previous current : Option String)
  | wait (goal : Goal) (retries interval : Nat) (meanwhile : List Delayed)

inductive ComponentAnswer where
  | changed (outcome : Except Fault Transition)
  | began (outcome : Except Fault Bool)
  | none
  | ran (outcome : Except Fault Unit)
  | listening (count : Nat)
  | unlistened (was : Bool) (count : Nat)
  | waited (c : Convergence)

def newComponent (name : String) : Board := (({} : Board).add name []).1

def step (script : Option HookScript) (b : Board) : ComponentStep → Board × ComponentAnswer
  | .change t =>
    let (b, outcome) := b.request self t
    (b, .changed outcome)
  | .begin p =>
    let (b, outcome) := b.begin self p
    (b, .began outcome)
  | .fail => (b.fail self, .none)
  | .run p =>
    let (b, outcome) := complete b (runScripted script p)
    (b, .ran outcome)
  | .listen label on deeds =>
    let b := b.subscribe self (.on label on deeds)
    (b, .listening (b.listenerCount self))
  | .unlisten label =>
    match (b.manager? self).bind (·.labelled? label) with
    | some i =>
      let (b, was) := b.unsubscribe self i
      (b, .unlistened was (b.listenerCount self))
    | none => (b, .unlistened false (b.listenerCount self))
  | .notify previous current => (b.announce self (.owned (b.name self) previous current), .none)
  | .wait goal retries interval meanwhile =>
    let (b, c) := wait b goal retries interval meanwhile
    (b, .waited c)

/-- How a journal entry reads; commits are not logged by themselves. -/
def line? : Entry → Option String
  | .committed .. => none
  | .delivered _ _ label e => some (label ++ " " ++ e.text)
  | .hooked _ p => some ("hook " ++ p.name)
  | .tried _ t outcome => some ("try " ++ t.name ++ ": " ++
    match outcome with
    | .ok o => o.name
    | .error f => f.message)

/-- The lines written since the journal was `before`, oldest first. -/
def newLines (before after : Board) : List String :=
  (after.journal.take (after.journal.length - before.journal.length)).reverse.filterMap line?

end Switchboard.Trial
