import Switchboard.Container.Handlers
import Switchboard.Topology.Basic

/-!
# Plans

A plan is a topology with its names resolved: the tags, classes and hooks that a
catalog has under them. Siblings need distinct names, and a default handler has
to be one of its context's handlers. The first rule that is broken, in the
order in which the topology is written, is reported.
-/

namespace Switchboard.Topology

open Container (Store TopologyFlaw)

/-- What the names in a topology stand for. Of two tags of one name the later one counts. -/
structure Catalog where
  classes : List (String × ClassId)
  tags : List TypeTag
  hooks : List (String × HookId)

structure ContextPlan where
  name : String
  request : TypeTag
  response : TypeTag
  registrations : List Registration
  defaultHandler : Option String

structure ServicePlan where
  name : String
  contexts : List ContextPlan

structure ServerPlan where
  name : String
  services : List ServicePlan

structure DomainPlan where
  name : String
  settings : Settings
  servers : List ServerPlan

/-- The first name that stands earlier in the list already. -/
def repeated? : List String → List String → Option String
  | _, [] => none
  | seen, n :: ns => if n ∈ seen then some n else repeated? (n :: seen) ns

def requireDistinct (kind parent : String) (names : List String) : Except Container.Fault Unit :=
  match repeated? [] names with
  | some n => .error (.topology (.duplicate kind n parent))
  | none => .ok ()

namespace Catalog

def orUnknown {α : Type} (flaw : TopologyFlaw) : Option α → Except Container.Fault α
  | some a => .ok a
  | none => .error (.topology flaw)

/-- The tag of a name; the tag that takes everything is always known. -/
def tag (c : Catalog) (name : String) : Except Container.Fault TypeTag :=
  if name = TypeTag.any.name then .ok .any
  else orUnknown (.unknownType name) (c.tags.reverse.find? fun t => t.name = name)

def hook (c : Catalog) : Option String → Except Container.Fault (Option HookId)
  | none => .ok none
  | some name => (orUnknown (.unknownHook name) (c.hooks.lookup name)).map some

def planHandler (c : Catalog) (s : Store) (h : Handler) : Except Container.Fault Registration := do
  let cls ← orUnknown (.unknownClass h.className) (c.classes.lookup h.className)
  let g ← s.newRegistration h.name cls
  let hook ← c.hook h.hook
  return { g with
    params := h.params, loadOnStartup := h.loadOnStartup, unavailable := h.unavailable, hook }

def planContext (c : Catalog) (s : Store) (t : Context) : Except Container.Fault ContextPlan := do
  let request ← c.tag t.requestType
  let response ← c.tag t.responseType
  requireDistinct "handler" t.name (t.handlers.map (·.name))
  let registrations ← t.handlers.mapM (c.planHandler s)
  match t.defaultHandler with
  | some name =>
    if name ∈ t.handlers.map (·.name) then return ⟨t.name, request, response, registrations, some name⟩
    else throw (.topology (.unregisteredDefault name t.name))
  | none => return ⟨t.name, request, response, registrations, none⟩

def planService (c : Catalog) (s : Store) (t : Service) : Except Container.Fault ServicePlan := do
  requireDistinct "context" t.name (t.contexts.map (·.name))
  return ⟨t.name, ← t.contexts.mapM (c.planContext s)⟩

def planServer (c : Catalog) (s : Store) (t : Server) : Except Container.Fault ServerPlan := do
  requireDistinct "service" t.name (t.services.map (·.name))
  return ⟨t.name, ← t.services.mapM (c.planService s)⟩

def planDomain (c : Catalog) (s : Store) (t : Domain) : Except Container.Fault DomainPlan := do
  match t.settings.validate with
  | .error f => throw (.settings f)
  | .ok () =>
    requireDistinct "server" t.name (t.servers.map (·.name))
    return ⟨t.name, t.settings, ← t.servers.mapM (c.planServer s)⟩

end Catalog
end Switchboard.Topology
