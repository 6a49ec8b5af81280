import Switchboard.Container.Tree
import Switchboard.Trial.Console.Basic

/-!
# Commands on components

Making components, moving them about in the tree, working their lifecycles and
listening to them.
-/

namespace Switchboard.Trial

open Container (Kind)
open Lifecycle (Phase State Trigger)

inductive ComponentCommand where
  | make (label name : String) (kind : Kind)
  | add (parent child : String)
  | remove (parent name : String)
  | get (parent name : String)
  | owner (child : String)
  | drop (label : String)
  | find (start : String) (path : List String) (label : String)
  | portray (component : String)
  | state (component : String)
  | change (component : String) (target : State)
  | fail (component : String)
  | run (component : String) (phase : Phase)
  | wait (component : String) (target : State)
  | listen (label component : String)
  | heard (label : String)
  | react (component : String) (trigger : Trigger) (target : String) (change : Option State) (fails : Bool)

namespace Console

/-- Whether one component may be a child of the other. -/
def nests (c : Console) (parent child : ComponentId) : Bool :=
  (c.store.component parent).kind.height = (c.store.component child).kind.height + 1

def add (c : Console) (parent child : ComponentId) : Console × Answer :=
  if c.nests parent child then
    match c.store.add parent child with
    | (s, .ok old) => ({ c with store := s }, .replaced (old.map c.named))
    | (s, .error f) => ({ c with store := s }, .refused f)
  else (c, .unknown (c.store.name child))

/-- Waits for a state. The tasks run between the first observation and the second. -/
def wait (c : Console) (d : ComponentId) (target : State) : Console × Answer :=
  match (c.store.component d).kind with
  | .domain settings =>
    let first := c.store.state d
    let c := if first = target ∨ settings.pollRetries = 0 then c else c.drain
    (c, .waited (Lifecycle.poll (fun s => s = target) settings.pollRetries fun n =>
      if n = 0 then first else c.store.state d))
  | _ => (c, .unknown (c.store.name d))

def listen (c : Console) (label : String) (d : ComponentId) : Console :=
  let listener := ((c.store.board.manager? d).map fun m => m.subscriptions.length).getD 0
  { c with
    store := { c.store with board := c.store.board.subscribe d (.quiet label) }
    listeners := Keyed.insert label ⟨d, listener⟩ c.listeners }

/-- Subscribes a reaction: a request for a move, a failure, or both in this order. -/
def react (c : Console) (d : ComponentId) (trigger : Trigger) (target : ComponentId)
    (change : Option State) (fails : Bool) : Console :=
  let deeds : List Lifecycle.Deed :=
    (change.map fun t => .request target t).toList ++ if fails then [.fail target] else []
  { c with
    store := { c.store with board := c.store.board.subscribe d (.on "" (some trigger) deeds) }
    reactions := (d, target) :: c.reactions }

def component (c : Console) : ComponentCommand → Console × Answer
  | .make label name kind =>
    let (s, d) := c.store.addComponent name kind
    ({ c with store := s }.bindComponent label d, .nothing)
  | .add parent child =>
    c.withComponent parent fun p => c.withComponent child fun d => c.add p d
  | .remove parent name => c.withComponent parent fun p =>
    let (s, child) := c.store.remove p name
    ({ c with store := s }, .component (child.map c.named))
  | .get parent name => c.withComponent parent fun p =>
    (c, .component ((c.store.child? p name).map c.named))
  | .owner child => c.withComponent child fun d =>
    (c, .component ((c.store.owner? d).map fun o => c.named o.parent))
  | .drop label =>
    ({ c with components := Keyed.erase label c.components },
      .truth (Keyed.find? label c.components).isSome)
  | .find start path label => c.withComponent start fun d =>
    match c.store.find? d path with
    | some e => (c.bindComponent label e, .found true)
    | none => (c, .found false)
  | .portray component => c.withComponent component fun d => (c, .portrait (Trial.portrait c.store d))
  | .state component => c.withComponent component fun d => (c, .state (c.store.state d))
  | .change component target => c.withComponent component fun d =>
    let (b, outcome) := c.store.board.request d target
    (c.change fun s => { s with board := b }, .moved outcome)
  | .fail component => c.withComponent component fun d =>
    (c.change fun s => { s with board := s.board.fail d }, .nothing)
  | .run component phase => c.withComponent component fun d =>
    c.startOn d (TaskResult.ran <$> Container.phase d phase)
  | .wait component target => c.withComponent component fun d => c.wait d target
  | .listen label component => c.withComponent component fun d => (c.listen label d, .nothing)
  | .heard label => c.look c.listeners label fun l =>
    (c, .heard (c.store.board.heard l.component l.listener))
  | .react component trigger target change fails =>
    c.withComponent component fun d => c.withComponent target fun t =>
      (c.react d trigger t change fails, .nothing)

end Console
end Switchboard.Trial
