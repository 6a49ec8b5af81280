import Switchboard.Container.Ownership

/-!
# One child and its parents

An ownership slot on its own, with a child that has a lifecycle and parents
that come into being when they are first mentioned. A parent that is dropped
is gone; mentioning it again makes another one. A quiet listener hears of every
change of owner.
-/

namespace Switchboard.Container

open Lifecycle (Board State Transition)

structure Custody where
  board : Board
  slot : OwnerSlot := none
  /-- The parents that are alive, by label. -/
  parents : List (String × Nat) := []
  made : Nat := 0

inductive CustodyStep where
  | claim (label name : String)
  | release (label : String)
  | ownedBy (label : String)
  | drop (label : String)
  | change (target : State)

inductive CustodyAnswer where
  | claimed (outcome : Except Fault Bool)
  | truth (b : Bool)
  | dropped
  | changed (outcome : Except Lifecycle.Fault Transition)

namespace Custody

/-- The only component of the board. -/
def child : ComponentId := 0

def new (name : String) : Custody where
  board := (({} : Board).add name [.quiet ""]).1

def isAlive (c : Custody) (parent : Nat) : Bool := c.parents.any fun p => p.2 = parent

/-- The owner, while it is alive. -/
def owner (c : Custody) : Option Owner := c.slot.live c.isAlive

/-- The parent of a label, made when there is none. -/
def mention (c : Custody) (label : String) : Custody × Nat :=
  match c.parents.lookup label with
  | some n => (c, n)
  | none => ({ c with parents := (label, c.made) :: c.parents, made := c.made + 1 }, c.made)

def claim (c : Custody) (owner : Owner) : Custody × Except Fault Bool :=
  match c.slot.claimOn c.isAlive c.board child owner with
  | .error f => (c, .error f)
  | .ok none => (c, .ok false)
  | .ok (some (slot, board)) => ({ c with slot, board }, .ok true)

def release (c : Custody) (parent : Nat) : Custody × Bool :=
  match c.slot.releaseOn c.board child parent with
  | none => (c, false)
  | some (slot, board) => ({ c with slot, board }, true)

def step (c : Custody) : CustodyStep → Custody × CustodyAnswer
  | .claim label name =>
    let (c, parent) := c.mention label
    let (c, outcome) := c.claim ⟨name, parent⟩
    (c, .claimed outcome)
  | .release label =>
    let (c, parent) := c.mention label
    let (c, released) := c.release parent
    (c, .truth released)
  | .ownedBy label =>
    let (c, parent) := c.mention label
    (c, .truth (c.slot.isOwnedBy parent))
  | .drop label => ({ c with parents := c.parents.filter fun p => p.1 ≠ label }, .dropped)
  | .change target =>
    let (board, outcome) := c.board.request child target
    ({ c with board }, .changed outcome)

/-- The owners that the listener heard of, before and after each change. -/
def ownerChanges (c : Custody) : List (Option String × Option String) :=
  (c.board.heard child 0).filterMap fun
    | .owned _ previous current => some (previous, current)
    | .moved .. => none

end Custody
end Switchboard.Container
