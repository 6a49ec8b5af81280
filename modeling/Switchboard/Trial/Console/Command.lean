import Switchboard.Topology.Building
import Switchboard.Trial.Console.Components
import Switchboard.Trial.Console.Handlers
import Switchboard.Trial.Console.Loans
import Switchboard.Trial.Console.Records

/-!
# Commands

All commands of a console. After each one, the components that nothing keeps
alive any more die.
-/

namespace Switchboard.Trial

inductive Command where
  | defineClass (label : String) (spec : ClassSpec)
  | defineHook (label : String) (spec : HookSpec)
  | component (command : ComponentCommand)
  | context (command : ContextCommand)
  | registration (label : String) (command : RegistrationCommand)
  | loan (command : LoanCommand)
  | record (command : RecordCommand)
  | openGate (gate : String) (permits : Nat)
  | poll (task : Nat)
  | bootstrap (label : String) (topology : Topology.Domain) (tags : List TypeTag)

namespace Console

def defineClass (c : Console) (label : String) (spec : ClassSpec) : Console × Answer :=
  match spec.define c.store with
  | (s, .error f) => ({ c with store := s }, .invalid f)
  | (s, .ok cls) =>
    ({ c with store := s, classes := Keyed.insert label c.store.classes.size c.classes },
      .classDefined cls.typeName cls.instancing cls.recyclable)

def defineHook (c : Console) (label : String) (spec : HookSpec) : Console :=
  { c with
    store := { c.store with hooks := c.store.hooks.add spec.hook }
    hooks := Keyed.insert label c.store.hooks.size c.hooks }

/-- Builds a tree from the classes and hooks that have labels and the tags of plain payloads. -/
def bootstrap (c : Console) (label : String) (topology : Topology.Domain) (tags : List TypeTag) :
    Console × Answer :=
  let catalog : Topology.Catalog :=
    ⟨c.classes, [Payload.textTag, Payload.greetingTag, Payload.replyTag] ++ tags, c.hooks⟩
  match Topology.build catalog c.store topology with
  | (s, .error f) => ({ c with store := s }, .refused f)
  | (s, .ok d) => ({ c with store := s }.bindComponent label d, .portrait (portrait s d))

def obey (c : Console) : Command → Console × Answer
  | .defineClass label spec => c.defineClass label spec
  | .defineHook label spec => (c.defineHook label spec, .nothing)
  | .component command => c.component command
  | .context command => c.context command
  | .registration label command => c.registration label command
  | .loan command => c.loan command
  | .record command => c.record command
  | .openGate gate permits => ((c.change (·.openGate gate permits)).drain, .nothing)
  | .poll task => (c, c.poll task)
  | .bootstrap label topology tags => c.bootstrap label topology tags

def step (c : Console) (command : Command) : Console × Answer :=
  let (c, answer) := c.obey command
  (c.settle, answer)

end Console
end Switchboard.Trial
