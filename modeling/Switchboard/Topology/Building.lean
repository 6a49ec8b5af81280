import Switchboard.Container.Tree
import Switchboard.Topology.Plan

/-!
# Building a tree

The components of a plan are made and wired from the leaves up, each child added
to its parent once it is complete. A topology that has no plan leaves the store
as it is.
-/

namespace Switchboard.Topology

open Container (Store)

/-- Makes a component and adds children to it in order. -/
def buildParent {α : Type} (name : String) (kind : Container.Kind)
    (child : Store → α → Store × ComponentId) (plans : List α) (s : Store) : Store × ComponentId :=
  let (s, c) := s.addComponent name kind
  (plans.foldl (fun s plan =>
    let (s, d) := child s plan
    (s.add c d).1) s, c)

def buildContext (settings : Settings) (s : Store) (p : ContextPlan) : Store × ComponentId :=
  let (s, c) := s.addComponent p.name (.context { request := p.request, response := p.response, settings })
  let s := p.registrations.foldl (fun s g =>
    let (s, r) := s.addRegistration g
    (s.insertRegistration c r).1) s
  match p.defaultHandler with
  | some name => ((s.setDefault c name).1, c)
  | none => (s, c)

def buildService (settings : Settings) (s : Store) (p : ServicePlan) : Store × ComponentId :=
  buildParent p.name .service (buildContext settings) p.contexts s

def buildServer (settings : Settings) (s : Store) (p : ServerPlan) : Store × ComponentId :=
  buildParent p.name .server (buildService settings) p.services s

def buildDomain (s : Store) (p : DomainPlan) : Store × ComponentId :=
  buildParent p.name (.domain p.settings) (buildServer p.settings) p.servers s

/-- Builds the tree of a topology, or says why there is none. -/
def build (c : Catalog) (s : Store) (t : Domain) : Store × Except Container.Fault ComponentId :=
  match c.planDomain s t with
  | .error f => (s, .error f)
  | .ok p =>
    let (s, d) := buildDomain s p
    (s, .ok d)

end Switchboard.Topology
