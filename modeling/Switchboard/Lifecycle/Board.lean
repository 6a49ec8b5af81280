import Switchboard.Lifecycle.State

/-!
# The lifecycle board

The board holds the lifecycle of every component: its state and the listeners
subscribed to it. A committed move is announced at once to the listeners that
are subscribed at that moment, in order; a listener may answer with deeds of
its own, which are carried out before the next listener hears of the move. The
journal records, newest first, what was committed and what was delivered to
whom. Cascades deeper than `Board.depth` are cut short and mark the board
exhausted.
-/

namespace Switchboard

/-- Components are numbered in the order in which they are made. -/
abbrev ComponentId := Nat

namespace Lifecycle

/-- Listeners of one component are numbered in the order in which they subscribe. -/
abbrev ListenerId := Nat

/-- What listeners hear of, with the component's name. -/
inductive Event where
  | moved (component : String) (source target : State)
  | owned (component : String) (previous current : Option String)
  deriving DecidableEq, Repr

/-- What a listener may do: to any component, or to the subscriptions of the one it listens to. -/
inductive Deed where
  | request (component : ComponentId) (target : State)
  | fail (component : ComponentId)
  | unsubscribe (label : String)
  deriving DecidableEq, Repr

/-- A listener, kept after it has unsubscribed so that numbers stay valid. -/
structure Subscription where
  label : String
  respond : Event → List Deed
  active : Bool := true

structure Manager where
  name : String
  state : State := .new
  subscriptions : List Subscription := []

inductive Fault where
  | denied (component : String) (source target : State)
  | hookFailed (component : String) (state : State) (cause : String)
  deriving DecidableEq, Repr

def Fault.message : Fault → String
  | denied c s t => "Lifecycle transition denied for '" ++ c ++ "': " ++ s.name ++ " -> " ++ t.name
  | hookFailed c s cause => "Lifecycle hook failed for '" ++ c ++ "' while " ++ s.name ++ ": " ++ cause

inductive Entry where
  | committed (component : ComponentId) (source target : State)
  | delivered (component : ComponentId) (listener : ListenerId) (label : String) (event : Event)
  | hooked (component : ComponentId) (phase : Phase)
  | tried (component : ComponentId) (target : State) (outcome : Except Fault Transition)

structure Board where
  managers : List Manager := []
  journal : List Entry := []
  exhausted : Bool := false

namespace Manager

/-- The subscribed listeners with their numbers, in order. -/
def active (m : Manager) : List (ListenerId × Subscription) :=
  (m.subscriptions.zipIdx.map fun (s, i) => (i, s)).filter fun (_, s) => s.active

def subscribe (m : Manager) (s : Subscription) : Manager :=
  { m with subscriptions := m.subscriptions ++ [s] }

def unsubscribe (m : Manager) (i : ListenerId) : Manager :=
  { m with subscriptions := m.subscriptions.modify i fun s => { s with active := false } }

def isSubscribed (m : Manager) (i : ListenerId) : Bool :=
  (m.subscriptions[i]?.map (·.active)).getD false

/-- The listener last subscribed under a label. -/
def labelled? (m : Manager) (label : String) : Option ListenerId :=
  ((m.subscriptions.zipIdx.filter fun (s, _) => s.label = label).getLast?).map (·.2)

end Manager

namespace Board

/-- How deep announcements may nest. -/
def depth : Nat := 1000

def manager? (b : Board) (c : ComponentId) : Option Manager := b.managers[c]?

def state (b : Board) (c : ComponentId) : State := ((b.manager? c).map (·.state)).getD .new

def name (b : Board) (c : ComponentId) : String := ((b.manager? c).map (·.name)).getD ""

def active (b : Board) (c : ComponentId) : List (ListenerId × Subscription) :=
  ((b.manager? c).map (·.active)).getD []

def update (b : Board) (c : ComponentId) (f : Manager → Manager) : Board :=
  { b with managers := b.managers.modify c f }

def log (b : Board) (e : Entry) : Board := { b with journal := e :: b.journal }

def unsubscribeLabel (b : Board) (c : ComponentId) (label : String) : Board :=
  b.update c fun m => ((m.labelled? label).map m.unsubscribe).getD m

/-! ## Moves, given how to announce them -/

section

variable (announce : Board → ComponentId → Event → Board)

/-- Sets the state and announces the move. -/
def commitWith (b : Board) (c : ComponentId) (target : State) : Board :=
  let source := b.state c
  let moved := (b.update c fun m => { m with state := target }).log (.committed c source target)
  announce moved c (.moved (b.name c) source target)

def requestWith (b : Board) (c : ComponentId) (target : State) : Board × Except Fault Transition :=
  match transition (b.state c) target with
  | .deny => (b, .error (.denied (b.name c) (b.state c) target))
  | .ignore => (b, .ok .ignore)
  | .accept => (b.commitWith announce c target, .ok .accept)

/-- Forces the failed state; a failed component stays as it is. -/
def failWith (b : Board) (c : ComponentId) : Board :=
  if b.state c = .failed then b else b.commitWith announce c .failed

def performWith (b : Board) (c : ComponentId) : Deed → Board
  | .request d target => (b.requestWith announce d target).1
  | .fail d => b.failWith announce d
  | .unsubscribe label => b.unsubscribeLabel c label

/-- Tells one listener, and carries out its deeds. -/
def tellWith (c : ComponentId) (e : Event) (b : Board) (listener : ListenerId × Subscription) : Board :=
  (listener.2.respond e).foldl (fun b d => b.performWith announce c d)
    (b.log (.delivered c listener.1 listener.2.label e))

end

/-- Tells the listeners subscribed now, with announcements nested at most `n` deep. -/
def announceFrom : Nat → Board → ComponentId → Event → Board
  | 0, b, _, _ => { b with exhausted := true }
  | n + 1, b, c, e =>
    if b.exhausted then b else (b.active c).foldl (tellWith (announceFrom n) c e) b

/-! ## Operations -/

def announce : Board → ComponentId → Event → Board := announceFrom depth

def announceOwner (b : Board) (c : ComponentId) (previous current : Option String) : Board :=
  b.announce c (.owned (b.name c) previous current)

def request (b : Board) (c : ComponentId) (target : State) : Board × Except Fault Transition :=
  b.requestWith announce c target

def fail (b : Board) (c : ComponentId) : Board := b.failWith announce c

/-- Enters the transient state of a phase; `false` when its group is already reached. -/
def begin (b : Board) (c : ComponentId) (p : Phase) : Board × Except Fault Bool :=
  if (b.state c).group = p.transient.group then (b, .ok false)
  else
    match b.request c p.transient with
    | (b, .error f) => (b, .error f)
    | (b, .ok .accept) => (b, .ok true)
    | (b, .ok _) => (b, .ok false)

/-- Adds a component in its first state. -/
def add (b : Board) (name : String) (subscriptions : List Subscription) : Board × ComponentId :=
  ({ b with managers := b.managers ++ [{ name, subscriptions }] }, b.managers.length)

def subscribe (b : Board) (c : ComponentId) (s : Subscription) : Board := b.update c (·.subscribe s)

def unsubscribe (b : Board) (c : ComponentId) (i : ListenerId) : Board × Bool :=
  (b.update c (·.unsubscribe i), ((b.manager? c).map (·.isSubscribed i)).getD false)

def listenerCount (b : Board) (c : ComponentId) : Nat := (b.active c).length

/-- What a listener of a component has heard, oldest first. -/
def heard (b : Board) (c : ComponentId) (i : ListenerId) : List Event :=
  b.journal.reverse.filterMap fun
    | .delivered d j _ e => if d = c ∧ j = i then some e else none
    | _ => none

end Board

/-! ## Listeners by trigger -/

inductive Trigger where
  | entered (s : State)
  | ownerChanged
  deriving DecidableEq, Repr

def Trigger.matches : Trigger → Event → Bool
  | entered s, .moved _ _ t => s = t
  | ownerChanged, .owned .. => true
  | _, _ => false

/-- A listener that does its deeds whenever its trigger matches, and nothing without a trigger. -/
def Subscription.on (label : String) (trigger : Option Trigger) (deeds : List Deed) : Subscription where
  label := label
  respond e := if trigger.any (·.matches e) then deeds else []

/-- A listener that only listens. -/
def Subscription.quiet (label : String) : Subscription := .on label none []

def ownerText (o : Option String) : String := o.getD "-"

def Event.text : Event → String
  | .moved c s t => c ++ ": " ++ s.name ++ " -> " ++ t.name
  | .owned c p q => c ++ ": owner " ++ ownerText p ++ " -> " ++ ownerText q

end Lifecycle
end Switchboard
