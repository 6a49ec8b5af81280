import Switchboard.Container.Handlers
import Switchboard.Container.Tree

/-!
# Portraits

What a component or a registration looks like at a moment, with everything below
it. Children are shown by name, the contexts of a service by precedence.
-/

namespace Switchboard.Trial

open Container (Store Kind Component)

structure RegistrationView where
  registration : Registration
  className : String
  config : HandlerConfig
  hasHook : Bool

/-- What only components of one kind show. -/
inductive Role where
  | domain (settings : Settings)
  | owned (owner : Option String)
  | context (owner : Option String) (request response : TypeTag) (defaultHandler : Option String)

structure ComponentView where
  name : String
  state : Lifecycle.State
  listeners : Nat
  names : List String
  role : Role

inductive Portrait where
  | registration (view : RegistrationView)
  | component (view : ComponentView) (children : List Portrait)

/-- The entries by name. -/
def sortEntries {α : Type} (d : Directory α) : Directory α := d.mergeSort fun a b => decide (a.1 ≤ b.1)

def viewRegistration (s : Store) (r : RegistrationId) : RegistrationView :=
  let g := s.registration r
  ⟨g, (s.classOf g.cls).typeName, g.config.2.config, g.hook.isSome⟩

def ownerName (s : Store) (c : ComponentId) : Option String := (s.owner? c).map (·.name)

/-- The children of a component in the order in which they are shown. -/
def shownChildren (c : Component) : Directory ComponentId :=
  match c.kind with
  | .service => c.children
  | _ => sortEntries c.children

def role (s : Store) (c : ComponentId) : Role :=
  match (s.component c).kind with
  | .domain settings => .domain settings
  | .server | .service => .owned (ownerName s c)
  | .context d => .context (ownerName s c) d.request d.response d.defaultHandler

def viewComponent (s : Store) (c : ComponentId) (names : List String) : ComponentView :=
  ⟨s.name c, s.state c, s.board.listenerCount c, names, role s c⟩

/-- The portrait of a component with at most `n` levels below it. -/
def portraitAt (s : Store) : Nat → ComponentId → Portrait
  | 0, c =>
    let handlers := sortEntries (((s.desk? c).map (·.handlers)).getD [])
    .component (viewComponent s c (Directory.names handlers))
      (handlers.map fun e => .registration (viewRegistration s e.2))
  | n + 1, c =>
    let children := shownChildren (s.component c)
    .component (viewComponent s c (Directory.names children)) (children.map fun e => portraitAt s n e.2)

def portrait (s : Store) (c : ComponentId) : Portrait := portraitAt s (s.component c).kind.height c

end Switchboard.Trial
