import Switchboard.Container.Ownership
import Switchboard.Directory
import Switchboard.Handler.Registration

/-!
# Components

The four kinds of components of a tree. A domain has servers for children, a
server has services and a service contexts; a context has no children but a
desk, where handlers are registered. Only the order of a service's contexts
counts: it is their precedence.
-/

namespace Switchboard.Container

structure Desk where
  request : TypeTag
  response : TypeTag
  settings : Settings := {}
  handlers : Directory RegistrationId := []
  /-- Replaced registrations that the next stop tears down. -/
  retired : List RegistrationId := []
  defaultHandler : Option String := none

namespace Desk

/-- Whether the payloads of an event fit the context. -/
def fits (d : Desk) (e : RequestEvent) : Bool :=
  d.request.isAssignableFrom e.request.typeTag && d.response.isAssignableFrom e.response.typeTag

/-- Puts a registration under its name; the one it replaces is retired. -/
def insert (d : Desk) (name : String) (r : RegistrationId) : Desk :=
  { d with
    handlers := d.handlers.put name r
    retired := d.retired ++ (d.handlers.find? name).toList }

/-- The registration that an event goes to: the one it names, or else the default. -/
def resolve (d : Desk) (e : RequestEvent) : Option RegistrationId :=
  (e.handler.or d.defaultHandler).bind fun name => d.handlers.find? name

end Desk

inductive Kind where
  | domain (settings : Settings)
  | server
  | service
  | context (desk : Desk)

/-- How many levels may lie below a component. -/
def Kind.height : Kind → Nat
  | domain _ => 3
  | server => 2
  | service => 1
  | context _ => 0

structure Component where
  kind : Kind
  owner : OwnerSlot := none
  children : Directory ComponentId := []
  alive : Bool := true

namespace Component

instance : Inhabited Component := ⟨{ kind := .server }⟩

def desk? (c : Component) : Option Desk :=
  match c.kind with
  | .context d => some d
  | _ => none

def updateDesk (c : Component) (f : Desk → Desk) : Component :=
  match c.kind with
  | .context d => { c with kind := .context (f d) }
  | _ => c

/-- The component without a child. A service looks for the child itself, the other levels look
under its name. -/
def without (c : Component) (name : String) (child : ComponentId) : Component :=
  match c.kind with
  | .service => { c with children := c.children.filter fun e => e.2 ≠ child }
  | _ =>
    if c.children.find? name = some child then { c with children := c.children.erase name } else c

end Component
end Switchboard.Container
