import Switchboard.Container.Cascade
import Switchboard.Container.Dispatch
import Switchboard.Lifecycle.Polling
import Switchboard.Schedule
import Switchboard.Trial.Fixtures
import Switchboard.Trial.Portrait

/-!
# Consoles

A container that is worked by commands which call its parts by labels. Labels
belong to the console and have nothing to do with names. A component lives as
long as it has a label, a live parent, a live reaction that aims at it or an
unfinished task that works on it. Tasks run in turns; one that cannot be
finished at once is left pending, under a number of its own.
-/

namespace Switchboard.Trial

open Container (Handled Signal Store Work)

/-- What a task came to. -/
inductive TaskResult where
  | ran (outcome : Except Lifecycle.Fault Unit)
  | dispatched (event : Handled)
  | toreDown
  | removed (r : Option RegistrationId)

/-- An instance that was handed out, with the registration it is to be given back to. -/
structure Loan where
  i : InstanceId
  registration : RegistrationId
  deriving DecidableEq, Repr

structure Listening where
  component : ComponentId
  listener : Lifecycle.ListenerId
  deriving DecidableEq, Repr

structure Console where
  store : Store := {}
  components : List (String × ComponentId) := []
  registrations : List (String × RegistrationId) := []
  classes : List (String × ClassId) := []
  hooks : List (String × HookId) := []
  loans : List (String × Loan) := []
  listeners : List (String × Listening) := []
  /-- The reactions: whose moves they watch, and what they aim at. -/
  reactions : List (ComponentId × ComponentId) := []
  schedule : Schedule Store Signal TaskResult := {}
  /-- The tasks that were left pending, by their number in the schedule. -/
  pending : List Nat := []
  /-- The components that each task works on. -/
  working : List (Nat × List ComponentId) := []
  /-- How many lines of a class's log were shown. -/
  shown : List (ClassId × Nat) := []

/-- A part of the container as the console calls it. -/
structure Named where
  name : String
  label : Option String
  deriving DecidableEq, Repr

/-- What a request is lent. -/
structure LoanView where
  isShared : Bool
  active : Nat
  deriving DecidableEq, Repr

inductive Answer where
  | unknown (label : String)
  | nothing
  | ok
  | truth (b : Bool)
  | found (b : Bool)
  | count (n : Nat)
  | value (v : Option String)
  | component (c : Option Named)
  | registration (r : Option Named)
  | replaced (part : Option Named)
  | classDefined (typeName : String) (instancing : Instancing) (recyclable : Bool)
  | refused (fault : Container.Fault)
  | invalid (fault : Rpc.Fault)
  | state (s : Lifecycle.State)
  | moved (outcome : Except Lifecycle.Fault Lifecycle.Transition)
  | ran (outcome : Except Lifecycle.Fault Unit)
  | waited (c : Lifecycle.Convergence)
  | heard (events : List Lifecycle.Event)
  | dispatched (event : Handled)
  | toreDown
  | pending (task : Nat)
  | placed (context : Option String) (isCurrent : Bool)
  | portrait (p : Portrait)
  | lent (loan : LoanView)
  | leased (loan : Except Container.Fault LoanView) (active : Nat)
  | lines (ls : List String)
  | tally (ns : List Nat)
  | recorded (checked refused : List String)

namespace Console

/-! ## Labels -/

/-- The least label of a part. -/
def labelOf? (part : Nat) (labels : List (String × Nat)) : Option String :=
  (labels.find? fun e => e.2 = part).map (·.1)

def named (c : Console) (d : ComponentId) : Named := ⟨c.store.name d, labelOf? d c.components⟩

def namedRegistration (c : Console) (r : RegistrationId) : Named :=
  ⟨(c.store.registration r).name, labelOf? r c.registrations⟩

/-- Goes on with the part of a label. -/
def look {α : Type} (c : Console) (labels : List (String × α)) (label : String)
    (f : α → Console × Answer) : Console × Answer :=
  match Keyed.find? label labels with
  | some a => f a
  | none => (c, .unknown label)

def withComponent (c : Console) (label : String) (f : ComponentId → Console × Answer) : Console × Answer :=
  c.look c.components label f

def withRegistration (c : Console) (label : String) (f : RegistrationId → Console × Answer) :
    Console × Answer :=
  c.look c.registrations label f

def withClass (c : Console) (label : String) (f : ClassId → Console × Answer) : Console × Answer :=
  c.look c.classes label f

/-- Goes on with the hook of a label, if a label is given. -/
def withHook (c : Console) (label : Option String) (f : Option HookId → Console × Answer) :
    Console × Answer :=
  match label with
  | none => f none
  | some l => c.look c.hooks l fun h => f (some h)

def bindComponent (c : Console) (label : String) (d : ComponentId) : Console :=
  { c with components := Keyed.insert label d c.components }

/-- Binds a registration to a label, if one is given. -/
def bindRegistration (c : Console) (label : Option String) (r : RegistrationId) : Console :=
  match label with
  | none => c
  | some l => { c with registrations := Keyed.insert l r c.registrations }

def change (c : Console) (f : Store → Store) : Console := { c with store := f c.store }

/-! ## Liveness -/

def isFinished (c : Console) (task : Nat) : Bool := (c.schedule.result? task).isSome

/-- What the console itself keeps alive. -/
def roots (c : Console) : List ComponentId :=
  c.components.map (·.2) ++ (c.working.filter fun w => !c.isFinished w.1).flatMap (·.2)

/-- Lets the components die that nothing keeps alive. -/
def settle (c : Console) : Console := c.change (·.settle c.roots c.reactions)

/-- A component and what lies at most `n` levels below it. -/
def below (s : Store) : Nat → ComponentId → List ComponentId
  | 0, d => [d]
  | n + 1, d => d :: (s.childIds d).flatMap (below s n)

/-! ## Tasks -/

/-- Queues the tasks that can go on. They run when tasks are next run. -/
def rouse (c : Console) : Console := { c with schedule := c.schedule.wake c.store.isReady }

/-- Lets all tasks run until none can go on. -/
def drain (c : Console) : Console :=
  let (schedule, store) := c.schedule.drain (·.isReady) c.store
  { c with schedule, store }

def taskAnswer (c : Console) : TaskResult → Answer
  | .ran outcome => .ran outcome
  | .dispatched e => .dispatched e
  | .toreDown => .toreDown
  | .removed r => .registration (r.map c.namedRegistration)

/-- Runs a task; it is left pending if it does not finish. -/
def start (c : Console) (parts : List ComponentId) (task : Work TaskResult) : Console × Answer :=
  let (schedule, n) := c.schedule.submit task
  let c := { c with schedule, working := (n, parts) :: c.working }.drain
  match c.schedule.result? n with
  | some r => (c, c.taskAnswer r)
  | none => ({ c with pending := c.pending ++ [n] }, .pending c.pending.length)

/-- Runs a task on a component and everything below it. -/
def startOn (c : Console) (d : ComponentId) (task : Work TaskResult) : Console × Answer :=
  c.start (below c.store (c.store.component d).kind.height d) task

def poll (c : Console) (task : Nat) : Answer :=
  match c.pending[task]? with
  | none => .unknown ("t" ++ toString task)
  | some n => ((c.schedule.result? n).map c.taskAnswer).getD (.pending task)

/-- Runs work that never has to wait. No task runs meanwhile. -/
def perform {α : Type} (c : Console) (work : Work α) (f : Console → α → Console × Answer) : Console × Answer :=
  match work.run c.store with
  | .finished a s => f { c with store := s }.rouse a
  | .parked _ _ _ => (c, .unknown "wait")

end Console
end Switchboard.Trial
