import Switchboard.Activity
import Switchboard.Container.Component
import Switchboard.Handler.Hook
import Switchboard.Lifecycle.Phases
import Switchboard.Meter
import Switchboard.Roster
import Switchboard.Rpc.Endpoint

/-!
# The store

Everything that the operations of the container work on: the components with
their lifecycles, the registrations, classes and hooks, the instances in use,
and what has been metered and done so far. Components have the same number in
the store and on its board; the first listener of each counts its moves.
-/

namespace Switchboard.Container

open Lifecycle (Board Event State)

/-- A handler instance. `holders` counts the slot, the requests and the teardown that hold it. -/
structure Instance where
  cls : ClassId
  /-- The attempt of its class that built it. -/
  number : Nat
  config : Option HandlerConfig := none
  holders : Nat := 1
  deriving Inhabited

/-- A remote endpoint with what has happened at it. -/
structure Remote where
  interface : String
  ledger : Rpc.Ledger
  run : Rpc.Ledger → Rpc.CallContext → Rpc.MethodCall → Rpc.Ledger × Except Rpc.Fault Json

/-- Permits are given in the order in which they are asked for. -/
structure Gate where
  asked : Nat := 0
  granted : Nat := 0
  deriving DecidableEq, Repr

/-- What handlers and hooks were made to do. -/
inductive Act where
  | constructing (cls : ClassId) (number : Nat)
  | constructed (cls : ClassId) (outcome : Except String InstanceId)
  | initializing (cls : ClassId) (i : InstanceId) (config : HandlerConfig)
  | initialized (cls : ClassId) (i : InstanceId) (outcome : Except String Unit)
  | processing (cls : ClassId) (i : InstanceId)
  | processed (cls : ClassId) (i : InstanceId) (outcome : Except String Unit)
  | destroying (cls : ClassId) (i : InstanceId)
  | destroyed (cls : ClassId) (i : InstanceId) (outcome : Except String Unit)
  | asked (hook : HookId) (handler : String) (admitted : Bool)
  | refused (hook : HookId) (handler : String)

/-- The class and the stage of a finished act. -/
def Act.finished? : Act → Option (ClassId × Stage)
  | constructed c _ => some (c, .construct)
  | initialized c .. => some (c, .init)
  | processed c .. => some (c, .process)
  | destroyed c .. => some (c, .destroy)
  | _ => none

/-- What a suspended activity waits for. -/
inductive Signal where
  | turn
  | permit (gate : String) (ticket : Nat)
  | release (r : RegistrationId) (seen : Nat)
  | unlock (r : RegistrationId)
  deriving DecidableEq, Repr

structure Store where
  board : Board := {}
  components : Roster Component := {}
  registrations : Roster Registration := {}
  instances : Roster Instance := {}
  classes : Roster HandlerClass := {}
  hooks : Roster CapabilityHook := {}
  remotes : Roster Remote := {}
  gates : List (String × Gate) := []
  readings : List Meter := []
  acts : List Act := []
  /-- How the handlers of a context are gone through. -/
  walk : Directory.Walk RegistrationId := default

instance : Lifecycle.HasBoard Store where
  board s := s.board
  setBoard s b := { s with board := b }

abbrev Work (α : Type) := Activity Store Signal α

namespace Store

/-! ## Reading -/

def component (s : Store) (c : ComponentId) : Component := s.components.getD c default

def name (s : Store) (c : ComponentId) : String := s.board.name c

def state (s : Store) (c : ComponentId) : State := s.board.state c

def isAlive (s : Store) (c : ComponentId) : Bool := (s.component c).alive

def childIds (s : Store) (c : ComponentId) : List ComponentId := Directory.values (s.component c).children

def owner? (s : Store) (c : ComponentId) : Option Owner := (s.component c).owner.live s.isAlive

def desk? (s : Store) (c : ComponentId) : Option Desk := (s.component c).desk?

def registration (s : Store) (r : RegistrationId) : Registration := s.registrations.getD r default

def instance? (s : Store) (i : InstanceId) : Option Instance := s.instances.get? i

def holders (s : Store) (i : InstanceId) : Nat := ((s.instance? i).map (·.holders)).getD 0

def classOf (s : Store) (c : ClassId) : HandlerClass := s.classes.getD c default

def gate (s : Store) (name : String) : Gate := (Keyed.find? name s.gates).getD {}

/-- How often handlers of a class have gone through a stage. -/
def runs (s : Store) (c : ClassId) (stage : Stage) : Nat :=
  s.acts.countP fun a => a.finished? = some (c, stage)

/-- How often a hook has been asked. -/
def questions (s : Store) (h : HookId) : Nat :=
  s.acts.countP fun | .asked g _ _ => g = h | _ => false

/-- The moves that the counting listeners heard of. -/
def transitions (s : Store) : List Meter :=
  s.board.journal.filterMap fun
    | .delivered _ 0 _ (.moved name _ target) => some (.moved name target)
    | _ => none

/-- Everything metered so far. -/
def reading (s : Store) : List Meter :=
  s.readings ++ s.transitions ++ s.remotes.items.flatMap fun r => r.ledger.readings

/-! ## Changing -/

def updateComponent (s : Store) (c : ComponentId) (f : Component → Component) : Store :=
  { s with components := s.components.update c f }

def updateDesk (s : Store) (c : ComponentId) (f : Desk → Desk) : Store :=
  s.updateComponent c (·.updateDesk f)

def updateRegistration (s : Store) (r : RegistrationId) (f : Registration → Registration) : Store :=
  { s with registrations := s.registrations.update r f }

def updateInstance (s : Store) (i : InstanceId) (f : Instance → Instance) : Store :=
  { s with instances := s.instances.update i f }

def measure (s : Store) (m : Meter) : Store := { s with readings := m :: s.readings }

def note (s : Store) (a : Act) : Store := { s with acts := a :: s.acts }

/-- Adds a component in its first state. -/
def addComponent (s : Store) (name : String) (kind : Kind) : Store × ComponentId :=
  ({ s with board := (s.board.add name [.quiet "counter"]).1, components := s.components.add { kind } },
    s.components.size)

def addRegistration (s : Store) (g : Registration) : Store × RegistrationId :=
  ({ s with registrations := s.registrations.add g }, s.registrations.size)

/-- Takes the next ticket of a gate. -/
def takeTicket (s : Store) (name : String) : Store × Nat :=
  let g := s.gate name
  ({ s with gates := Keyed.insert name { g with asked := g.asked + 1 } s.gates }, g.asked)

def openGate (s : Store) (name : String) (permits : Nat) : Store :=
  let g := s.gate name
  { s with gates := Keyed.insert name { g with granted := g.granted + permits } s.gates }

/-- The configuration for a handler made now; its snapshot is kept. -/
def configure (s : Store) (r : RegistrationId) : Store × HandlerConfig :=
  let (g, snapshot) := (s.registration r).config
  (s.updateRegistration r fun _ => g, snapshot.config)

/-! ## Reading after a change -/

theorem registration_updateRegistration {s : Store} {r : RegistrationId}
    {f : Registration → Registration} (r' : RegistrationId) :
    (s.updateRegistration r f).registration r' =
      if r = r' ∧ r < s.registrations.size then f (s.registration r') else s.registration r' :=
  s.registrations.getD_update r r' f default

theorem registration_add (s : Store) (g : Registration) (r : RegistrationId) :
    registration { s with registrations := s.registrations.add g } r =
      if r = s.registrations.size then g else s.registration r := by
  simp only [registration, Roster.getD, Roster.get?_add]
  split <;> rfl

theorem desk?_updateDesk (s : Store) (d : ComponentId) (f : Desk → Desk) (c : ComponentId) :
    (s.updateDesk d f).desk? c = if d = c then (s.desk? c).map f else s.desk? c := by
  unfold desk? component updateDesk updateComponent Roster.getD
  rw [Roster.get?_update]
  split
  · cases s.components.get? c with
    | none => rfl
    | some p =>
      obtain ⟨kind, owner, children, alive⟩ := p
      cases kind <;> rfl
  · rfl

/-! ## Signals -/

/-- Whether somebody who waits for the signal should look again. -/
def isReady (s : Store) : Signal → Bool
  | .turn => true
  | .permit name ticket => ticket < (s.gate name).granted
  | .release r seen => seen < (s.registration r).releases
  | .unlock r => !(s.registration r).locked

end Store
end Switchboard.Container
