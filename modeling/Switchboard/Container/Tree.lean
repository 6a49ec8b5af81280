import Switchboard.Container.Store

/-!
# Registries and transfer

Taking a child into a registry, giving it up, and what becomes of both owners. A
child that another live component owns is first given up by that one, then
claimed; a child of the same name that was there before is released. Every
change of owner is announced to the child's listeners.
-/

namespace Switchboard.Container.Store

open Lifecycle (Event)

/-- Announces a change of owner of a child. -/
def announceOwner (s : Store) (child : ComponentId) (previous current : Option String) : Store :=
  { s with board := s.board.announceOwner child previous current }

def setOwner (s : Store) (child : ComponentId) (slot : OwnerSlot) : Store :=
  s.updateComponent child fun c => { c with owner := slot }

/-- Claims a child for a parent; `false` when it is the parent's already. -/
def claim (s : Store) (parent child : ComponentId) : Store × Except Fault Bool :=
  match (s.component child).owner.claimOn s.isAlive s.board child ⟨s.name parent, parent⟩ with
  | .error f => (s, .error f)
  | .ok none => (s, .ok false)
  | .ok (some (slot, board)) => ({ s with board }.setOwner child slot, .ok true)

/-- Gives a child up, if the parent owns it. -/
def release (s : Store) (parent child : ComponentId) : Store :=
  match (s.component child).owner.releaseOn s.board child parent with
  | none => s
  | some (slot, board) => { s with board }.setOwner child slot

theorem claim_announces (s : Store) (parent child : ComponentId) :
    s.claim parent child =
      match (s.component child).owner.claim s.isAlive (s.state child) ⟨s.name parent, parent⟩ with
      | .error reason => (s, .error (.ownership (s.name child) (s.name parent) reason))
      | .ok none => (s, .ok false)
      | .ok (some slot) =>
        ((s.setOwner child slot).announceOwner child none (some (s.name parent)), .ok true) := by
  rw [claim, OwnerSlot.claimOn, state]
  rcases (s.component child).owner.claim s.isAlive (s.board.state child) ⟨s.name parent, parent⟩ with
    reason | _ | slot <;> rfl

theorem release_announces (s : Store) (parent child : ComponentId) :
    s.release parent child =
      match (s.component child).owner.release parent with
      | none => s
      | some (slot, name) => (s.setOwner child slot).announceOwner child (some name) none := by
  rw [release, OwnerSlot.releaseOn]
  cases (s.component child).owner.release parent <;> rfl

def child? (s : Store) (parent : ComponentId) (name : String) : Option ComponentId :=
  (s.component parent).children.find? name

/-- Takes a child out of a registry and gives it up. -/
def detach (s : Store) (parent child : ComponentId) : Store :=
  (s.updateComponent parent (·.without (s.name child) child)).release parent child

/-- Lets the live owner of a child give it up, unless that is the parent itself. -/
def detachElsewhere (s : Store) (parent child : ComponentId) : Store :=
  match s.owner? child with
  | some o => if o.parent = parent then s else s.detach o.parent child
  | none => s

def putChild (s : Store) (parent child : ComponentId) : Store :=
  s.updateComponent parent fun c => { c with children := c.children.put (s.name child) child }

/-- The other child under the name of a child. -/
def rival? (s : Store) (parent child : ComponentId) : Option ComponentId :=
  (s.child? parent (s.name child)).filter (· ≠ child)

/-- Adds a child to a registry and gives the child that it replaced. -/
def add (s : Store) (parent child : ComponentId) : Store × Except Fault (Option ComponentId) :=
  match (s.detachElsewhere parent child).claim parent child with
  | (s, .error f) => (s, .error f)
  | (s, .ok _) =>
    match s.rival? parent child with
    | some old => ((s.putChild parent child).release parent old, .ok (some old))
    | none => (s.putChild parent child, .ok none)

/-- Removes the child of a name from a registry. -/
def remove (s : Store) (parent : ComponentId) (name : String) : Store × Option ComponentId :=
  match s.child? parent name with
  | none => (s, none)
  | some child =>
    let s := s.updateComponent parent fun c => { c with children := c.children.erase name }
    (s.release parent child, some child)

/-- The component at the end of a path of names. -/
def find? (s : Store) (c : ComponentId) : List String → Option ComponentId
  | [] => some c
  | name :: path => (s.child? c name).bind fun d => s.find? d path

/-! ## Liveness -/

/-- Whether a component is held by a root, by a live parent, or along a live hold. -/
def isHeld (s : Store) (roots : List ComponentId) (holds : List (ComponentId × ComponentId))
    (c : ComponentId) : Bool :=
  roots.contains c || (holds.any fun h => h.2 = c && s.isAlive h.1) ||
    (List.range s.components.size).any fun p => s.isAlive p && (s.childIds p).contains c

/-- Lets a component die. Its children keep it in their slots. -/
def bury (s : Store) (c : ComponentId) : Store :=
  s.updateComponent c fun d => { d with alive := false }

/-- Lets every component die that nothing holds. -/
def sweep (s : Store) (roots : List ComponentId) (holds : List (ComponentId × ComponentId)) : Store :=
  (List.range s.components.size).foldl (fun t c =>
    if s.isAlive c && !s.isHeld roots holds c then t.bury c else t) s

/-- Sweeps until nothing dies any more, which takes no more rounds than there are components. -/
def settle (s : Store) (roots : List ComponentId) (holds : List (ComponentId × ComponentId)) : Store :=
  go s.components.size s
where
  go : Nat → Store → Store
    | 0, s => s
    | n + 1, s => go n (s.sweep roots holds)

end Switchboard.Container.Store
